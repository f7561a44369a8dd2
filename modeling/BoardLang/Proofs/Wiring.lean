import BoardLang.Netlist.Module

/-!
# Nets never dangle

A net is checked when it is added, against the ports and children that its module has at that moment. The
module may then get more of both, may be put into other modules, and may even be put into a copy of itself.
All the same, in every module that the operations can build, and in every module inside it at any depth, each
reference of each net names a pin (`no_net_dangles`).

Three facts carry this. What a module has is never moved, so what resolves stays resolved (`Grows.resolve`).
A refused net leaves nothing behind (`connect_cases`). And a reference looks no further than one child down, so
putting a finished module into another one touches none of its nets (`Built.descendant`).
-/

namespace BoardLang.Netlist

/-- An entry of a list keeps its place when the list is continued. -/
theorem getElem?_of_isPrefix {α : Type} {xs ys : List α} {i : Nat} {a : α} (h : xs <+: ys)
    (ha : xs[i]? = some a) : ys[i]? = some a := by
  obtain ⟨hi, rfl⟩ := List.getElem?_eq_some_iff.mp ha
  exact List.prefix_iff_getElem?.mp h i hi

namespace Module

variable {m m' sub child : Module} {r : PinRef} {p : Pin}

/-! ## Owners and descendants -/

/-- The module with number `n` as seen from `m`. -/
def owner? (m : Module) : (n : Nat) → Option Module
  | 0 => some m
  | i + 1 => m.children[i]?

/-- The module that is reached from `m` by going down along the children with these numbers. -/
def descendant? (m : Module) : (path : List Nat) → Option Module
  | [] => some m
  | i :: path =>
    match m.children[i]? with
    | some child => child.descendant? path
    | none => none

/-- To resolve a reference is to look up its two numbers, the owner first. -/
theorem resolve_eq_bind (m : Module) (r : PinRef) :
    m.resolve r = (m.owner? r.module).bind fun owner => owner.ports[r.pin]? := by
  cases r with
  | port i => rfl
  | child index i =>
    simp only [resolve, owner?, PinRef.module, PinRef.pin]
    cases m.children[index]? <;> rfl

theorem resolve_eq_some_iff :
    m.resolve r = some p ↔ ∃ owner, m.owner? r.module = some owner ∧ owner.ports[r.pin]? = some p := by
  rw [resolve_eq_bind, Option.bind_eq_some_iff]

/-! ## Growing -/

/-- All that `m` has, `m'` has too, under the same numbers. -/
structure Grows (m m' : Module) : Prop where
  ports : m.ports <+: m'.ports
  nets : m.nets <+: m'.nets
  children : m.children <+: m'.children

theorem grows_addPort (m : Module) (pin : Pin) : Grows m (m.addPort pin).2 :=
  ⟨List.prefix_append .., List.prefix_rfl, List.prefix_rfl⟩

theorem grows_addChild (m child : Module) : Grows m (m.addChild child).2 :=
  ⟨List.prefix_rfl, List.prefix_rfl, List.prefix_append ..⟩

/-- A net is either refused, and then nothing changes, or all its references resolve and it is added. -/
theorem connect_cases (m : Module) (net : Net) :
    (∃ e, m.connect net = (.error e, m)) ∨
    ((∀ r ∈ net, (m.resolve r).isSome = true) ∧
      m.connect net = (.ok m.nets.length, { m with nets := m.nets ++ [net] })) := by
  unfold connect
  cases hfault : net.findSome? m.faultOf? with
  | some e => exact .inl ⟨e, rfl⟩
  | none =>
    refine .inr ⟨?_, rfl⟩
    intro r hr
    exact faultOf?_eq_none_iff.mp (List.findSome?_eq_none_iff.mp hfault r hr)

theorem Grows.resolve (hg : Grows m m') (hr : m.resolve r = some p) : m'.resolve r = some p := by
  cases r with
  | port i => exact getElem?_of_isPrefix hg.ports hr
  | child index i =>
    simp only [Module.resolve] at hr ⊢
    split at hr
    · next child hchild =>
      rw [getElem?_of_isPrefix hg.children hchild]
      exact hr
    · cases hr

/-! ## One module -/

def Wired (m : Module) : Prop := ∀ net ∈ m.nets, ∀ r ∈ net, (m.resolve r).isSome = true

/-- More ports and children do not harm the nets that are there. -/
theorem Wired.of_grows (h : Wired m) (hg : Grows m m') (hnets : m'.nets = m.nets) : Wired m' := by
  intro net hnet r hr
  rw [hnets] at hnet
  obtain ⟨p, hp⟩ := Option.isSome_iff_exists.mp (h net hnet r hr)
  rw [hg.resolve hp, Option.isSome_some]

theorem Wired.addPort (h : Wired m) (pin : Pin) : Wired (m.addPort pin).2 :=
  h.of_grows (grows_addPort m pin) rfl

theorem Wired.addChild (h : Wired m) (child : Module) : Wired (m.addChild child).2 :=
  h.of_grows (grows_addChild m child) rfl

theorem Wired.connect (h : Wired m) (net : Net) : Wired (m.connect net).2 := by
  obtain ⟨e, hrefused⟩ | ⟨hall, hadded⟩ := m.connect_cases net
  · rw [hrefused]
    exact h
  · rw [hadded]
    intro net' hnet'
    rcases List.mem_append.mp hnet' with hold | hnew
    · exact h net' hold
    · rw [List.mem_singleton.mp hnew]
      exact hall

/-! ## Built modules -/

/-- The modules that the operations lead to. Modules are values: a copy is the module again, so `addChild`
may put a module into itself as it is now. -/
inductive Built : Module → Prop where
  | empty : Built .empty
  | addPort {m : Module} (h : Built m) (pin : Pin) : Built (m.addPort pin).2
  | addChild {m child : Module} (h : Built m) (hchild : Built child) : Built (m.addChild child).2
  /-- The net may be any, also one that is refused. -/
  | connect {m : Module} (h : Built m) (net : Net) : Built (m.connect net).2

theorem Built.wired (h : Built m) : Wired m := by
  induction h with
  | empty =>
    intro net hnet
    cases hnet
  | addPort _ pin ih => exact ih.addPort pin
  | addChild _ _ ih _ => exact ih.addChild _
  | connect _ net ih => exact ih.connect net

theorem Built.of_mem_children (h : Built m) (hc : child ∈ m.children) : Built child := by
  induction h with
  | empty => cases hc
  | addPort _ _ ih => exact ih hc
  | addChild _ hchild ih _ =>
    rcases List.mem_append.mp hc with hold | hnew
    · exact ih hold
    · rw [List.mem_singleton.mp hnew]
      exact hchild
  | @connect m _ net ih =>
    obtain ⟨e, hrefused⟩ | ⟨-, hadded⟩ := m.connect_cases net
    · rw [hrefused] at hc
      exact ih hc
    · rw [hadded] at hc
      exact ih hc

/-- A module inside a built one has been built by itself before it was put there. -/
theorem Built.descendant {path : List Nat} (h : Built m) (hsub : m.descendant? path = some sub) :
    Built sub := by
  induction path generalizing m with
  | nil =>
    cases hsub
    exact h
  | cons i path ih =>
    rw [descendant?] at hsub
    split at hsub
    · next child hchild => exact ih (h.of_mem_children (List.mem_of_getElem? hchild)) hsub
    · cases hsub

end Module

/-- **No net dangles.** In a module that the operations have built, and in every module inside it, each
reference of each net names a pin: its owner is there, seen from the module that has the net, and has the
port. -/
theorem no_net_dangles {m sub : Module} {path : List Nat} {net : Net} {r : PinRef} (h : m.Built)
    (hsub : m.descendant? path = some sub) (hnet : net ∈ sub.nets) (hr : r ∈ net) :
    ∃ owner pin, sub.owner? r.module = some owner ∧ owner.ports[r.pin]? = some pin ∧
      sub.resolve r = some pin := by
  have hwired : sub.Wired := (h.descendant hsub).wired
  obtain ⟨pin, hpin⟩ := Option.isSome_iff_exists.mp (hwired net hnet r hr)
  obtain ⟨owner, howner, hport⟩ := Module.resolve_eq_some_iff.mp hpin
  exact ⟨owner, pin, howner, hport, hpin⟩

def link : Module :=
  let twoPorts := ((Module.empty.addPort ⟨.passive, "1"⟩).2.addPort ⟨.passive, "2"⟩).2
  (twoPorts.connect [.port 0, .port 1]).2

/-- Two links in a row: a link with a link inside it. -/
def chain : Module :=
  let nested := (link.addChild link).2
  (nested.connect [.port 1, .child 0 0]).2

/-- A chain in a chain, after a net that is refused. -/
def chainOfChains : Module := (((chain.connect [.port 2]).2).addChild chain).2

theorem net_resolves_in_nested_chain :
    chainOfChains.descendant? [1] = some chain ∧ [.port 1, .child 0 0] ∈ chain.nets ∧
    ∃ owner pin, chain.owner? 1 = some owner ∧ owner.ports[0]? = some pin ∧
      chain.resolve (.child 0 0) = some pin := by
  have hlink : link.Built := ((Module.Built.empty.addPort _).addPort _).connect _
  have hchain : chain.Built := (hlink.addChild hlink).connect _
  have hall : chainOfChains.Built := (hchain.connect _).addChild hchain
  have hsub : chainOfChains.descendant? [1] = some chain := rfl
  have hnet : [.port 1, .child 0 0] ∈ chain.nets := by decide
  exact ⟨hsub, hnet, no_net_dangles hall hsub hnet (by decide : PinRef.child 0 0 ∈ _)⟩

end BoardLang.Netlist
