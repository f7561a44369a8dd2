import BoardLang.Proofs.Lines

/-!
# Quotations can be read back

Between quotation marks some characters stand for themselves and others are escaped. Which is which is decided
by a long table, and an escape may be two characters long or ten. All the same a quotation tells the text:
the first character shows whether there is an escape, the second which sort it is, and a number in braces ends
at its brace (`Escaped.append_inj`). So no escape is the beginning of another one, and the characters can be read
off one by one (`quoted_inj`).
-/

namespace BoardLang.Text

/-! ## Numbers -/

theorem digitChar_inj {m n : Nat} (hm : m < 16) (hn : n < 16) (h : m.digitChar = n.digitChar) : m = n := by
  have key : ∀ m < 16, ∀ n < 16, m.digitChar = n.digitChar → m = n := by decide
  exact key m hm n hn h

/-- Different numbers are written differently. -/
theorem toDigits_inj {b : Nat} (hb : 1 < b) (hb' : b ≤ 16) {m n : Nat}
    (h : Nat.toDigits b m = Nat.toDigits b n) : m = n := by
  induction m using Nat.strongRecOn generalizing n with
  | _ m ih =>
    have hpos : 0 < b := by omega
    have hlast : ∀ k, k % b < 16 := fun k => Nat.lt_of_lt_of_le (Nat.mod_lt k hpos) hb'
    rw [Nat.toDigits_eq_if hb, Nat.toDigits_eq_if (n := n) hb] at h
    have hne : ∀ k, Nat.toDigits b k ≠ [] := fun k => Nat.toDigits_ne_nil
    split at h <;> split at h
    · exact digitChar_inj (by omega) (by omega) (List.cons.inj h).1
    · -- One digit against more of them.
      exact absurd (List.append_eq_singleton_iff.mp h.symm) (by simp [hne])
    · exact absurd (List.append_eq_singleton_iff.mp h) (by simp [hne])
    · rename_i hm _
      obtain ⟨hfront, hdigit⟩ := List.append_inj' h rfl
      have hquot : m / b = n / b := ih (m / b) (Nat.div_lt_self (by omega) hb) hfront
      have hrem : m % b = n % b := digitChar_inj (hlast m) (hlast n) (List.cons.inj hdigit).1
      rw [← Nat.div_add_mod m b, ← Nat.div_add_mod n b, hquot, hrem]

/-! ## Separators -/

/-- A text that is cut at the first occurrence of a character is cut in one way. -/
theorem append_cons_inj {c : Char} {a b x y : List Char} (ha : c ∉ a) (hb : c ∉ b)
    (h : a ++ c :: x = b ++ c :: y) : a = b ∧ x = y := by
  induction a generalizing b with
  | nil =>
    cases b with
    | nil => exact ⟨rfl, (List.cons.inj h).2⟩
    | cons d b => exact absurd (List.cons.inj h).1 (List.ne_of_not_mem_cons hb)
  | cons d a ih =>
    cases b with
    | nil => exact absurd (List.cons.inj h).1.symm (List.ne_of_not_mem_cons ha)
    | cons d' b =>
      obtain ⟨rfl, htail⟩ := List.cons.inj h
      obtain ⟨rfl, rfl⟩ := ih (List.not_mem_of_not_mem_cons ha) (List.not_mem_of_not_mem_cons hb) htail
      exact ⟨rfl, rfl⟩

/-! ## Escapes -/

/-- The letters that stand behind a backslash for a single character. -/
def escapeLetters : List (Char × Char) :=
  [('0', '\x00'), ('t', '\t'), ('r', '\r'), ('n', '\n'), ('\\', '\\'), ('"', '"')]

/-- The forms that a character can take between double quotes. -/
inductive Escaped : Char → List Char → Prop where
  | letter {c letter : Char} (h : (letter, c) ∈ escapeLetters) : Escaped c ['\\', letter]
  | number (c : Char) : Escaped c ('\\' :: 'u' :: '\x7b' :: (Nat.toDigits 16 c.toNat ++ ['\x7d']))
  | plain {c : Char} (hslash : c ≠ '\\') (hmark : c ≠ '"') : Escaped c [c]

theorem escaped_escape (c : Char) : Escaped c (escape '"' c) := by
  unfold escape
  split
  · exact .letter (by simp [*, escapeLetters])
  split
  · exact .letter (by simp [*, escapeLetters])
  split
  · exact .letter (by simp [*, escapeLetters])
  split
  · exact .letter (by simp [*, escapeLetters])
  split
  · next h =>
    obtain rfl | rfl := h
    · exact .letter (by simp [escapeLetters])
    · exact .letter (by simp [escapeLetters])
  · next h =>
    split
    · exact .number c
    · exact .plain (fun hc => h (.inl hc)) (fun hc => h (.inr hc))

theorem Escaped.ne_nil {c : Char} {u : List Char} (h : Escaped c u) : u ≠ [] := by
  cases h <;> simp

/-- What comes first in a text is read off it in one way. -/
theorem Escaped.append_inj {a b : Char} {u v x y : List Char} (ha : Escaped a u) (hb : Escaped b v)
    (h : u ++ x = v ++ y) : a = b ∧ x = y := by
  -- Forms of different sorts differ in their first or second character.
  have hnumber : ∀ p ∈ escapeLetters, p.1 ≠ 'u' := by decide
  have hletter : ∀ p ∈ escapeLetters, ∀ q ∈ escapeLetters, p.1 = q.1 → p.2 = q.2 := by decide
  have hbrace : ∀ n, '\x7d' ∉ Nat.toDigits 16 n :=
    not_mem_toDigits (by decide) (fun _ => Nat.digitChar_ne _ rfl)
  cases ha with
  | letter hl =>
    cases hb with
    | letter hl' =>
      simp only [List.cons_append, List.nil_append, List.cons.injEq, true_and] at h
      exact ⟨hletter _ hl _ hl' h.1, h.2⟩
    | number => exact absurd (List.cons.inj (List.cons.inj h).2).1 (hnumber _ hl)
    | plain hslash _ => exact absurd (List.cons.inj h).1.symm hslash
  | number =>
    cases hb with
    | letter hl' => exact absurd (List.cons.inj (List.cons.inj h).2).1.symm (hnumber _ hl')
    | number =>
      simp only [List.cons_append, List.append_assoc, List.nil_append, List.cons.injEq, true_and] at h
      obtain ⟨hdigits, rfl⟩ := append_cons_inj (hbrace _) (hbrace _) h
      exact ⟨Char.toNat_inj.mp (toDigits_inj (by decide) (by decide) hdigits), rfl⟩
    | plain hslash _ => exact absurd (List.cons.inj h).1.symm hslash
  | plain hslash _ =>
    cases hb with
    | letter _ => exact absurd (List.cons.inj h).1 hslash
    | number => exact absurd (List.cons.inj h).1 hslash
    | plain _ _ => exact List.cons.inj h

/-! ## Whole texts -/

theorem flatMap_escape_inj {a b : List Char} (h : a.flatMap (escape '"') = b.flatMap (escape '"')) : a = b := by
  induction a generalizing b with
  | nil =>
    cases b with
    | nil => rfl
    | cons d b =>
      rw [List.flatMap_nil, List.flatMap_cons] at h
      exact absurd (List.append_eq_nil_iff.mp h.symm).1 (escaped_escape d).ne_nil
  | cons c a ih =>
    cases b with
    | nil =>
      rw [List.flatMap_nil, List.flatMap_cons] at h
      exact absurd (List.append_eq_nil_iff.mp h).1 (escaped_escape c).ne_nil
    | cons d b =>
      rw [List.flatMap_cons, List.flatMap_cons] at h
      obtain ⟨rfl, htail⟩ := (escaped_escape c).append_inj (escaped_escape d) h
      rw [ih htail]

theorem quoted_inj {a b : String} (h : quoted a = quoted b) : a = b := by
  have hchars := congrArg String.toList h
  simp only [quoted, quotedWith, String.toList_ofList] at hchars
  have hinner := (List.cons.inj (List.append_cancel_right hchars)).2
  exact String.toList_inj.mp (flatMap_escape_inj hinner)

end BoardLang.Text
