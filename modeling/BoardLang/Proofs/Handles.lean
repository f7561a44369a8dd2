import BoardLang.Proofs.Sessions
import BoardLang.Proofs.Wiring

/-!
# Handles stay valid

Every addition to a module is answered with a number, the handle of what was added. Whatever is added later, and
whatever is refused in between, the handle leads to the same port, child or net, no reference changes its
meaning, and no two additions of one sort get the same handle (`handles_stay_valid`).

One addition puts what it adds behind all that the module has of this sort (`lands_of_add`) and moves nothing
(`grows_add`). A history of additions therefore only grows the module (`Grows.of_isPrefix`), and both halves
follow: what a handle leads to keeps its place, and a later handle of the same sort is larger.
-/

namespace BoardLang.Netlist

/-- What can be added to a module. -/
inductive Addition where
  | port (pin : Pin)
  | child (part : Module)
  | net (net : Net)

namespace Addition

/-- Additions of one sort. -/
inductive Alike : Addition → Addition → Prop where
  | ports (a b : Pin) : Alike (port a) (port b)
  | children (a b : Module) : Alike (child a) (child b)
  | nets (a b : Net) : Alike (net a) (net b)

def count (m : Module) : Addition → Nat
  | port _ => m.ports.length
  | child _ => m.children.length
  | net _ => m.nets.length

/-- What was added stands under the number `handle`. -/
def StandsAt (m : Module) (handle : Nat) : Addition → Prop
  | port pin => m.ports[handle]? = some pin
  | child part => m.children[handle]? = some part
  | net pins => m.nets[handle]? = some pins

theorem Alike.symm {a b : Addition} (h : a.Alike b) : b.Alike a := by
  cases h <;> constructor

theorem Alike.count_eq {a b : Addition} (h : a.Alike b) (m : Module) : a.count m = b.count m := by
  cases h <;> rfl

end Addition

namespace Module

variable {m m' : Module} {a b : Addition} {additions : List Addition} {i j handle handle' : Nat}

/-- Makes an addition. The reply is its handle; a net may be refused instead. -/
def add (m : Module) : Addition → Except NetError Nat × Module
  | .port pin => (.ok (m.addPort pin).1, (m.addPort pin).2)
  | .child part => (.ok (m.addChild part).1, (m.addChild part).2)
  | .net net => m.connect net

def addAll (m : Module) (additions : List Addition) : Module := (session add m additions).2

/-- The reply to addition number `i`. -/
def replyTo (m : Module) (additions : List Addition) (i : Nat) : Option (Except NetError Nat) :=
  (session add m additions).1[i]?

/-- What the handles of a history of additions are good for at its end. -/
structure KeepsHandles (m : Module) (additions : List Addition) : Prop where
  port : ∀ i pin handle, additions[i]? = some (.port pin) → m.replyTo additions i = some (.ok handle) →
    (m.addAll additions).resolve (.port handle) = some pin
  /-- A reference to a port that the child does not have names nothing. -/
  child : ∀ i part handle, additions[i]? = some (.child part) →
    m.replyTo additions i = some (.ok handle) →
      ∀ pin, (m.addAll additions).resolve (.child handle pin) = part.ports[pin]?
  net : ∀ i net handle, additions[i]? = some (.net net) → m.replyTo additions i = some (.ok handle) →
    (m.addAll additions).nets[handle]? = some net
  /-- Only a net can be refused. -/
  answered : ∀ i a, additions[i]? = some a →
    (∃ handle, m.replyTo additions i = some (.ok handle)) ∨
      ∃ net e, a = .net net ∧ m.replyTo additions i = some (.error e)
  resolve : ∀ i r pin, (m.addAll (additions.take i)).resolve r = some pin →
    (m.addAll additions).resolve r = some pin
  distinct : ∀ i j a b handle handle', i ≠ j → additions[i]? = some a → additions[j]? = some b → a.Alike b →
    m.replyTo additions i = some (.ok handle) → m.replyTo additions j = some (.ok handle') →
      handle ≠ handle'

/-! ## Growing -/

theorem Grows.refl (m : Module) : Grows m m := ⟨List.prefix_rfl, List.prefix_rfl, List.prefix_rfl⟩

theorem Grows.trans {m'' : Module} (h : Grows m m') (h' : Grows m' m'') : Grows m m'' :=
  ⟨h.ports.trans h'.ports, h.nets.trans h'.nets, h.children.trans h'.children⟩

theorem Grows.count_le (h : Grows m m') (a : Addition) : a.count m ≤ a.count m' := by
  cases a with
  | port _ => exact h.ports.length_le
  | child _ => exact h.children.length_le
  | net _ => exact h.nets.length_le

theorem Grows.standsAt (h : Grows m m') (ha : a.StandsAt m handle) : a.StandsAt m' handle := by
  cases a with
  | port _ => exact getElem?_of_isPrefix h.ports ha
  | child _ => exact getElem?_of_isPrefix h.children ha
  | net _ => exact getElem?_of_isPrefix h.nets ha

/-! ## One addition -/

theorem grows_add (m : Module) (a : Addition) : Grows m (m.add a).2 := by
  cases a with
  | port pin => exact grows_addPort m pin
  | child part => exact grows_addChild m part
  | net net =>
    obtain ⟨e, hrefused⟩ | ⟨-, hadded⟩ := m.connect_cases net
    · rw [add, hrefused]
      exact Grows.refl m
    · rw [add, hadded]
      exact ⟨List.prefix_rfl, List.prefix_append .., List.prefix_rfl⟩

/-- The handle is the next free number of its sort, and what is added stands there. -/
theorem lands_of_add (h : (m.add a).1 = .ok handle) :
    handle = a.count m ∧ a.count (m.add a).2 = handle + 1 ∧ a.StandsAt (m.add a).2 handle := by
  cases a with
  | port pin =>
    obtain rfl := Except.ok.inj h
    simp [add, addPort, Addition.count, Addition.StandsAt]
  | child part =>
    obtain rfl := Except.ok.inj h
    simp [add, addChild, Addition.count, Addition.StandsAt]
  | net net =>
    obtain ⟨e, hrefused⟩ | ⟨-, hadded⟩ := m.connect_cases net
    · rw [add, hrefused] at h
      contradiction
    · rw [add, hadded] at h ⊢
      obtain rfl := Except.ok.inj h
      simp [Addition.count, Addition.StandsAt]

theorem add_answers (m : Module) (a : Addition) :
    (∃ handle, (m.add a).1 = .ok handle) ∨ ∃ net e, a = .net net ∧ (m.add a).1 = .error e := by
  cases a with
  | port pin => exact .inl ⟨_, rfl⟩
  | child part => exact .inl ⟨_, rfl⟩
  | net net =>
    cases hreply : (m.add (.net net)).1 with
    | ok handle => exact .inl ⟨handle, rfl⟩
    | error e => exact .inr ⟨net, e, rfl, rfl⟩

/-! ## Histories -/

theorem grows_addAll (m : Module) (additions : List Addition) : Grows m (m.addAll additions) :=
  (session_induction (Grows m) (fun _ => True) (fun s a hs => ⟨trivial, hs.trans (grows_add s a)⟩)
    (Grows.refl m) additions).2

/-- A module only grows as its history goes on. -/
theorem Grows.of_isPrefix {earlier : List Addition} (h : earlier <+: additions) :
    Grows (m.addAll earlier) (m.addAll additions) := by
  obtain ⟨later, rfl⟩ := h
  rw [addAll, addAll, session_append]
  exact grows_addAll _ later

theorem replyTo_eq (ha : additions[i]? = some a) :
    m.replyTo additions i = some ((m.addAll (additions.take i)).add a).1 := by
  rw [replyTo, getElem?_session, ha, Option.map_some]
  rfl

theorem addAll_take_succ (ha : additions[i]? = some a) :
    m.addAll (additions.take (i + 1)) = ((m.addAll (additions.take i)).add a).2 := by
  rw [addAll, List.take_add_one, ha, session_append]
  rfl

/-- What an addition has added stands under its handle at the end. -/
theorem standsAt_addAll (ha : additions[i]? = some a) (hreply : m.replyTo additions i = some (.ok handle)) :
    a.StandsAt (m.addAll additions) handle := by
  rw [replyTo_eq ha, Option.some_inj] at hreply
  obtain ⟨-, -, hstands⟩ := lands_of_add hreply
  rw [← addAll_take_succ ha] at hstands
  exact (Grows.of_isPrefix (List.take_prefix _ _)).standsAt hstands

/-- Of two additions of one sort the later one gets the larger handle. -/
theorem handle_lt (hij : i < j) (ha : additions[i]? = some a) (hb : additions[j]? = some b) (hab : a.Alike b)
    (hreply : m.replyTo additions i = some (.ok handle))
    (hreply' : m.replyTo additions j = some (.ok handle')) : handle < handle' := by
  rw [replyTo_eq ha, Option.some_inj] at hreply
  rw [replyTo_eq hb, Option.some_inj] at hreply'
  obtain ⟨-, hafter, -⟩ := lands_of_add hreply
  obtain ⟨hbefore, -, -⟩ := lands_of_add hreply'
  rw [← addAll_take_succ ha] at hafter
  -- When the second handle is given out, the count has passed the first one.
  have hgrows : Grows (m.addAll (additions.take (i + 1))) (m.addAll (additions.take j)) :=
    Grows.of_isPrefix (List.take_prefix_take_left hij)
  calc handle < a.count (m.addAll (additions.take (i + 1))) := by omega
    _ ≤ a.count (m.addAll (additions.take j)) := hgrows.count_le a
    _ = handle' := by rw [hab.count_eq, hbefore]

end Module

/-- **Handles stay valid.** At the end of any history of additions, some of which may have been refused, each
handle that was given out leads to what it was given out for, every reference that named a pin at some time
names the same pin, and no handle has been given out twice for things of one sort. -/
theorem handles_stay_valid (m : Module) (additions : List Addition) : m.KeepsHandles additions where
  port i pin handle ha hreply := Module.standsAt_addAll ha hreply
  child i part handle ha hreply pin := by
    have hpart : (m.addAll additions).children[handle]? = some part := Module.standsAt_addAll ha hreply
    rw [Module.resolve, hpart]
  net i net handle ha hreply := Module.standsAt_addAll ha hreply
  answered i a ha := by
    rw [Module.replyTo_eq ha]
    simpa using (m.addAll (additions.take i)).add_answers a
  resolve i r pin hr := (Module.Grows.of_isPrefix (List.take_prefix _ _)).resolve hr
  distinct i j a b handle handle' hne ha hb hab hreply hreply' := by
    rcases Nat.lt_or_gt_of_ne hne with hij | hji
    · exact Nat.ne_of_lt (Module.handle_lt hij ha hb hab hreply hreply')
    · exact Nat.ne_of_gt (Module.handle_lt hji hb ha hab.symm hreply' hreply)

end BoardLang.Netlist
