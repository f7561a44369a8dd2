/-!
# Decimal numbers of 64 bits

`ofDigits?` reads a run of digits into a 64-bit word, one digit after the other, and gives up as
soon as the number no longer fits. `value` is the number that the digits denote, of any size.

* `ofDigits?_eq_some_iff`: of digits, `ofDigits?` reads the number that they denote.
* `ofDigits?_eq_none_iff`: it gives up on the numbers of more than 64 bits and on no others.
-/

namespace BoardLang.Text.Decimal

def digit (c : Char) : Nat := c.toNat - '0'.toNat

/-- The number that a run of digits denotes in base ten. -/
def value (digits : List Char) : Nat :=
  digits.foldl (fun n c => n * 10 + digit c) 0

/-- The number with one more digit at its end, if that is a digit and the number still fits. -/
def push? (n : UInt64) (c : Char) : Option UInt64 :=
  if c.isDigit then
    if h : n.toNat * 10 + digit c < UInt64.size then some (UInt64.ofNatLT _ h) else none
  else none

/-- The number that a run of at least one digit denotes, if it fits in 64 bits. -/
def ofDigits? : List Char → Option UInt64
  | [] => none
  | digits => digits.foldlM push? 0

/-! ## Reading is exact -/

/-- More digits never make the number smaller. -/
theorem le_foldl_digit (digits : List Char) (n : Nat) :
    n ≤ digits.foldl (fun n c => n * 10 + digit c) n := by
  induction digits generalizing n with
  | nil => exact Nat.le_refl n
  | cons c rest ih =>
    have hc := ih (n * 10 + digit c)
    rw [List.foldl_cons]
    omega

/-- Reading on from `n`, the number that fits is the number that the digits denote behind `n`. -/
theorem foldlM_push?_eq_some_iff {digits : List Char} (hdigits : ∀ c ∈ digits, c.isDigit = true)
    {n v : UInt64} :
    digits.foldlM push? n = some v ↔
      v.toNat = digits.foldl (fun n c => n * 10 + digit c) n.toNat := by
  induction digits generalizing n with
  | nil => simp [UInt64.toNat_inj, eq_comm]
  | cons c rest ih =>
    have hrest : ∀ x ∈ rest, x.isDigit = true := fun x hx => hdigits x (by simp [hx])
    rw [List.foldlM_cons, List.foldl_cons, push?, if_pos (hdigits c (by simp))]
    by_cases hfits : n.toNat * 10 + digit c < UInt64.size
    · rw [dif_pos hfits]
      exact ih hrest
    · -- The number is too large already, and no further digit can make it small again.
      rw [dif_neg hfits]
      have hle := le_foldl_digit rest (n.toNat * 10 + digit c)
      have hv := v.toNat_lt_size
      constructor
      · intro h
        contradiction
      · intro h
        omega

theorem ofDigits?_eq_some_iff {digits : List Char} (hne : digits ≠ [])
    (hdigits : ∀ c ∈ digits, c.isDigit = true) {v : UInt64} :
    ofDigits? digits = some v ↔ v.toNat = value digits := by
  obtain ⟨c, rest, rfl⟩ := List.exists_cons_of_ne_nil hne
  exact foldlM_push?_eq_some_iff hdigits

theorem ofDigits?_eq_none_iff {digits : List Char} (hne : digits ≠ [])
    (hdigits : ∀ c ∈ digits, c.isDigit = true) :
    ofDigits? digits = none ↔ UInt64.size ≤ value digits := by
  constructor
  · intro h
    refine Nat.le_of_not_lt fun hlt => ?_
    have hsome := (ofDigits?_eq_some_iff hne hdigits (v := UInt64.ofNatLT _ hlt)).mpr rfl
    rw [h] at hsome
    contradiction
  · intro h
    rw [Option.eq_none_iff_forall_ne_some]
    intro v hv
    have hv := (ofDigits?_eq_some_iff hne hdigits).mp hv
    have hlt := v.toNat_lt_size
    omega

end BoardLang.Text.Decimal
