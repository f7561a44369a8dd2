import BoardLang.Netlist.Pin

/-!
# Modules

A module has ports, child modules, and nets that tie ports of the module and of its children
together. Ports, children and nets are only ever added, each at the end of its list, so an index
handed out once stays good.

* `Module.resolve` finds the pin that a reference names.
* `Module.connect` adds a net whose references all resolve, and refuses any other.
-/

namespace BoardLang.Netlist

/-- A module of a circuit. -/
structure Module where
  ports : List Pin
  nets : List Net
  children : List Module

namespace Module

/-! ## Equality -/

mutual

/-- Modules are equal if they agree in their ports, nets and children. -/
def decEq : (a b : Module) → Decidable (a = b)
  | ⟨ports, nets, children⟩, ⟨ports', nets', children'⟩ =>
    match decEqAll children children' with
    | .isFalse h => .isFalse fun e => h (Module.mk.inj e).2.2
    | .isTrue hc =>
      if h : ports = ports' ∧ nets = nets' then .isTrue (by rw [h.1, h.2, hc])
      else .isFalse fun e => h ⟨(Module.mk.inj e).1, (Module.mk.inj e).2.1⟩

def decEqAll : (as bs : List Module) → Decidable (as = bs)
  | [], [] => .isTrue rfl
  | [], _ :: _ => .isFalse (by simp)
  | _ :: _, [] => .isFalse (by simp)
  | a :: as, b :: bs =>
    match decEq a b with
    | .isFalse h => .isFalse fun e => h (List.cons.inj e).1
    | .isTrue h =>
      match decEqAll as bs with
      | .isFalse h' => .isFalse fun e => h' (List.cons.inj e).2
      | .isTrue h' => .isTrue (by rw [h, h'])

end

instance : DecidableEq Module := decEq

/-! ## Building -/

def empty : Module := ⟨[], [], []⟩

/-- The index of a new port, and the module with it. -/
def addPort (m : Module) (pin : Pin) : Nat × Module :=
  (m.ports.length, { m with ports := m.ports ++ [pin] })

/-- The index of a new child, and the module with it. -/
def addChild (m child : Module) : Nat × Module :=
  (m.children.length, { m with children := m.children ++ [child] })

def resolve (m : Module) : PinRef → Option Pin
  | .port pin => m.ports[pin]?
  | .child index pin =>
    match m.children[index]? with
    | some child => child.ports[pin]?
    | none => none

end Module

/-! ## Connecting -/

inductive NetError where
  /-- A reference names a child that the module does not have. -/
  | unknownModule (module : Nat)
  /-- A reference names a port that its owner does not have. -/
  | unknownPin (module pin : Nat)
deriving DecidableEq, Repr

def NetError.message : NetError → String
  | unknownModule module =>
    "net references module " ++ toString module ++ ", which does not exist"
  | unknownPin module pin =>
    "net references pin " ++ toString pin ++ " of module " ++ toString module ++
      ", which does not exist"

namespace Module

/-- What is wrong with the reference `r`, if anything is. -/
def faultOf? (m : Module) (r : PinRef) : Option NetError :=
  if m.children.length < r.module then some (.unknownModule r.module)
  else if m.resolve r = none then some (.unknownPin r.module r.pin)
  else none

/-- Adds a net and gives its index. If a reference does not resolve, the first such one is
reported and the module stays as it is. -/
def connect (m : Module) (net : Net) : Except NetError Nat × Module :=
  match net.findSome? m.faultOf? with
  | some e => (.error e, m)
  | none => (.ok m.nets.length, { m with nets := m.nets ++ [net] })

theorem faultOf?_eq_none_iff {m : Module} {r : PinRef} :
    m.faultOf? r = none ↔ (m.resolve r).isSome = true := by
  cases hr : m.resolve r with
  | none =>
    simp only [faultOf?, hr]
    split <;> simp
  | some pin =>
    have hle : r.module ≤ m.children.length := by
      cases r with
      | port i => exact Nat.zero_le _
      | child index i =>
        have hlt : index < m.children.length := by
          apply Nat.lt_of_not_le
          intro hge
          simp [resolve, List.getElem?_eq_none hge] at hr
        exact hlt
    simp [faultOf?, hr, Nat.not_lt.mpr hle]

end Module

end BoardLang.Netlist
