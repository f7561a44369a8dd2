/-!
# Sets of code points

A set of code points is a list of closed ranges. `CodePoints.has` searches it from the front and
gives up at the first range that begins too late, so it answers rightly for a list in increasing
order: `has_iff`.
-/

namespace BoardLang.Text

abbrev CodePoints := List (Nat × Nat)

namespace CodePoints

def has : CodePoints → Nat → Bool
  | [], _ => false
  | (first, last) :: ranges, n =>
    if n < first then false else if n ≤ last then true else has ranges n

/-- The ranges come in increasing order, and no two of them touch the same code point. -/
def Increasing : CodePoints → Prop
  | [] => True
  | [(first, last)] => first ≤ last
  | (first, last) :: (first', last') :: ranges =>
    first ≤ last ∧ last < first' ∧ Increasing ((first', last') :: ranges)

def decidableIncreasing : (ranges : CodePoints) → Decidable (Increasing ranges)
  | [] => .isTrue trivial
  | [(first, last)] => inferInstanceAs (Decidable (first ≤ last))
  | (first, last) :: (first', last') :: ranges =>
    have := decidableIncreasing ((first', last') :: ranges)
    inferInstanceAs (Decidable (first ≤ last ∧ last < first' ∧ Increasing ((first', last') :: ranges)))

instance (ranges : CodePoints) : Decidable (Increasing ranges) := decidableIncreasing ranges

theorem Increasing.tail {r : Nat × Nat} {ranges : CodePoints} (h : Increasing (r :: ranges)) :
    Increasing ranges := by
  cases ranges with
  | nil => trivial
  | cons s ranges => exact h.2.2

theorem Increasing.le_first {r : Nat × Nat} {ranges : CodePoints} (h : Increasing (r :: ranges)) :
    ∀ s ∈ r :: ranges, r.1 ≤ s.1 := by
  induction ranges generalizing r with
  | nil => simp
  | cons s ranges ih =>
    obtain ⟨h₁, h₂, h₃⟩ := h
    intro u hu
    rcases List.mem_cons.mp hu with rfl | hu
    · exact Nat.le_refl _
    · have := ih h₃ u hu
      omega

theorem has_iff {ranges : CodePoints} (h : Increasing ranges) (n : Nat) :
    has ranges n = true ↔ ∃ r ∈ ranges, r.1 ≤ n ∧ n ≤ r.2 := by
  induction ranges with
  | nil => simp [has]
  | cons r ranges ih =>
    have ih := ih h.tail
    have hle := h.le_first
    simp only [has]
    split
    · rename_i hlt
      simp only [Bool.false_eq_true, false_iff, not_exists, not_and]
      intro s hs hsn
      have := hle s hs
      omega
    · split
      · exact iff_of_true rfl ⟨r, by simp, by omega, by omega⟩
      · rw [ih]
        constructor
        · rintro ⟨s, hs, hsn⟩
          exact ⟨s, by simp [hs], hsn⟩
        · rintro ⟨s, hs, hsn⟩
          rcases List.mem_cons.mp hs with rfl | hs
          · omega
          · exact ⟨s, hs, hsn⟩

end CodePoints

end BoardLang.Text
