import BoardLang.Proofs.Wiring

/-!
# Connecting is exact

A net is added if all its references resolve, and then nothing but the list of nets changes. Otherwise the
module stays as it is, and the error is about the first reference in the net that does not resolve
(`connect_is_exact`).

The check of a reference looks at the number of its module first and tries to resolve it afterwards. The two
count differently: the number may be as large as there are children, but the child is looked up under one
less. `owner?_eq_none_iff` says that they always agree, so an unknown pin is one of a module that is there
(`faultOf?_eq_some_iff`).
-/

namespace BoardLang.Netlist

namespace Module

variable {m : Module} {r : PinRef} {net : Net} {e : NetError}

/-- What is wrong with a reference that names no pin. -/
inductive Dangling (m : Module) (r : PinRef) : NetError → Prop where
  | noModule (hbeyond : m.children.length < r.module) : Dangling m r (.unknownModule r.module)
  | noPin {owner : Module} (howner : m.owner? r.module = some owner) (hnone : owner.ports[r.pin]? = none) :
    Dangling m r (.unknownPin r.module r.pin)

/-- `e` is about the first reference of the net that names no pin. -/
def FirstDangling (m : Module) (net : Net) (e : NetError) : Prop :=
  ∃ before r after, net = before ++ r :: after ∧ (∀ q ∈ before, (m.resolve q).isSome = true) ∧
    m.resolve r = none ∧ m.Dangling r e

structure ConnectsExactly (m : Module) (net : Net) : Prop where
  succeeds_iff : (∃ index, (m.connect net).1 = .ok index) ↔ ∀ r ∈ net, (m.resolve r).isSome = true
  of_ok : ∀ index, (m.connect net).1 = .ok index → index = m.nets.length ∧
    (m.connect net).2.nets = m.nets ++ [net] ∧ (m.connect net).2.ports = m.ports ∧
      (m.connect net).2.children = m.children
  error_iff : ∀ e, (m.connect net).1 = .error e ↔ m.FirstDangling net e
  of_error : ∀ e, (m.connect net).1 = .error e → (m.connect net).2 = m
  /-- The bound on the number of the module is the one that its look-up has. -/
  bound_iff : ∀ r : PinRef, m.children.length < r.module ↔ m.owner? r.module = none
  /-- Resolving looks up the module, then the port. -/
  resolve_eq : ∀ r : PinRef, m.resolve r = (m.owner? r.module).bind fun owner => owner.ports[r.pin]?

/-! ## One reference -/

theorem owner?_eq_none_iff {n : Nat} : m.owner? n = none ↔ m.children.length < n := by
  cases n with
  | zero => simp [owner?]
  | succ index =>
    rw [owner?, List.getElem?_eq_none_iff]
    omega

/-- The check finds what is wrong with a reference, and finds nothing else. -/
theorem faultOf?_eq_some_iff : m.faultOf? r = some e ↔ m.Dangling r e := by
  by_cases hbeyond : m.children.length < r.module
  · have hfault : m.faultOf? r = some (.unknownModule r.module) := if_pos hbeyond
    have hnone : m.owner? r.module = none := owner?_eq_none_iff.mpr hbeyond
    rw [hfault, Option.some_inj]
    constructor
    · rintro rfl
      exact .noModule hbeyond
    · rintro (_ | ⟨howner, -⟩)
      · rfl
      · rw [hnone] at howner
        contradiction
  · -- The module is there, so all depends on the port.
    obtain ⟨owner, howner⟩ : ∃ owner, m.owner? r.module = some owner :=
      Option.ne_none_iff_exists'.mp (mt owner?_eq_none_iff.mp hbeyond)
    have hresolve : m.resolve r = owner.ports[r.pin]? := by rw [resolve_eq_bind, howner, Option.bind_some]
    rw [faultOf?, if_neg hbeyond, hresolve]
    constructor
    · intro h
      split at h
      · next hnone =>
        obtain rfl := Option.some.inj h
        exact .noPin howner hnone
      · contradiction
    · rintro (hbeyond' | ⟨howner', hnone⟩)
      · contradiction
      · obtain rfl := Option.some.inj (howner.symm.trans howner')
        rw [if_pos hnone]

theorem Dangling.resolve_eq_none (h : m.Dangling r e) : m.resolve r = none := by
  rw [resolve_eq_bind]
  cases h with
  | noModule hbeyond => rw [owner?_eq_none_iff.mpr hbeyond, Option.bind_none]
  | noPin howner hnone => rw [howner, Option.bind_some, hnone]

/-! ## A whole net -/

/-- The references are checked in order, and the first fault is the one that is found. -/
theorem findSome?_faultOf?_eq_some_iff : net.findSome? m.faultOf? = some e ↔ m.FirstDangling net e := by
  rw [List.findSome?_eq_some_iff]
  constructor
  · rintro ⟨before, r, after, hnet, hfault, hbefore⟩
    have hdangling : m.Dangling r e := faultOf?_eq_some_iff.mp hfault
    exact ⟨before, r, after, hnet, fun q hq => faultOf?_eq_none_iff.mp (hbefore q hq),
      hdangling.resolve_eq_none, hdangling⟩
  · rintro ⟨before, r, after, hnet, hbefore, -, hdangling⟩
    exact ⟨before, r, after, hnet, faultOf?_eq_some_iff.mpr hdangling,
      fun q hq => faultOf?_eq_none_iff.mpr (hbefore q hq)⟩

theorem connect_eq_error_iff : (m.connect net).1 = .error e ↔ m.FirstDangling net e := by
  rw [← findSome?_faultOf?_eq_some_iff, connect]
  cases net.findSome? m.faultOf? <;> simp

theorem FirstDangling.not_all_resolve (h : m.FirstDangling net e) :
    ¬ ∀ r ∈ net, (m.resolve r).isSome = true := by
  obtain ⟨before, r, after, rfl, -, hnone, -⟩ := h
  intro hall
  have hsome := hall r (by simp)
  rw [hnone] at hsome
  contradiction

end Module

/-- **Connecting is exact.** A net is added exactly if all its references resolve: at the end of the nets, with
its place there as the answer, and with ports and children as they were. Otherwise the module is as it was, and
the answer says of the first reference that does not resolve whether its module or only its pin is missing. -/
theorem connect_is_exact (m : Module) (net : Net) : m.ConnectsExactly net where
  succeeds_iff := by
    obtain ⟨e, hrefused⟩ | ⟨hall, hadded⟩ := m.connect_cases net
    · have hfirst : m.FirstDangling net e := Module.connect_eq_error_iff.mp (congrArg Prod.fst hrefused)
      rw [hrefused]
      exact iff_of_false (by simp) hfirst.not_all_resolve
    · rw [hadded]
      exact iff_of_true ⟨_, rfl⟩ hall
  of_ok index hok := by
    obtain ⟨e, hrefused⟩ | ⟨-, hadded⟩ := m.connect_cases net
    · rw [hrefused] at hok
      contradiction
    · rw [hadded] at hok ⊢
      exact ⟨(Except.ok.inj hok).symm, rfl, rfl, rfl⟩
  error_iff _ := Module.connect_eq_error_iff
  of_error e herror := by
    obtain ⟨e', hrefused⟩ | ⟨-, hadded⟩ := m.connect_cases net
    · rw [hrefused]
    · rw [hadded] at herror
      contradiction
  bound_iff _ := Module.owner?_eq_none_iff.symm
  resolve_eq := m.resolve_eq_bind

/-- Of two faults the first is reported, although the other one is found without looking at a port. -/
example : (Module.connect ⟨[⟨.power, "VCC"⟩], [], []⟩ [.port 0, .port 1, .child 0 0]).1 =
    .error (.unknownPin 0 1) := rfl

end BoardLang.Netlist
