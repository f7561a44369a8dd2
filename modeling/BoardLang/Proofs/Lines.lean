import BoardLang.Report.Diagnostic
import BoardLang.Proofs.TruePositions

/-!
# Lines of a text

The lines of a text are what `List.splitOn` leaves between its newlines, so that there is always one line
more than there are newlines. A true position knows its line: `Position.TrueIn.exists_line` finds the line
with its number, and the excerpt that is shown for the position is this line with a caret under it.

The second half of the module is about texts that stay on one line whatever is put into them: a quotation
holds only characters that show (`Text.shows_quotedWith`), and a newline does not.
-/

namespace BoardLang

/-! ## Splitting at newlines -/

namespace Text

theorem splitOn_append_newline (a b : List Char) :
    (a ++ '\n' :: b).splitOn '\n' = a.splitOn '\n' ++ b.splitOn '\n' :=
  List.splitOnP_append_cons a b rfl

theorem splitOn_cons (c : Char) (text : List Char) :
    (c :: text).splitOn '\n' =
      if c = '\n' then [] :: text.splitOn '\n' else (text.splitOn '\n').modifyHead (c :: ·) := by
  rw [List.splitOn, List.splitOnP_cons_eq_if_modifyHead]
  simp only [beq_iff_eq]
  rfl

theorem length_splitOn (text : List Char) : (text.splitOn '\n').length = text.count '\n' + 1 := by
  induction text with
  | nil => rfl
  | cons c text ih =>
    rw [splitOn_cons]
    by_cases hc : c = '\n'
    · simp [hc, ih]
    · simp [hc, ih]

/-- The first line goes up to the first newline. -/
theorem getElem?_splitOn_zero (text : List Char) :
    (text.splitOn '\n')[0]? = some (text.takeWhile (· ≠ '\n')) := by
  induction text with
  | nil => rfl
  | cons c text ih =>
    rw [splitOn_cons]
    by_cases hc : c = '\n'
    · simp [hc]
    · simp [hc, ih]

/-- The line in which two parts of a text meet. The characters of the first part are given from the
nearest one backwards, as a cursor keeps them. -/
theorem getElem?_splitOn_meet (passed rest : List Char) :
    ((passed.reverse ++ rest).splitOn '\n')[passed.count '\n']? =
      some ((passed.takeWhile (· ≠ '\n')).reverse ++ rest.takeWhile (· ≠ '\n')) := by
  induction passed generalizing rest with
  | nil => exact getElem?_splitOn_zero rest
  | cons c passed ih =>
    rw [List.reverse_cons, List.append_assoc, List.singleton_append]
    by_cases hc : c = '\n'
    · -- The line begins here: it is the first one of the rest.
      subst hc
      have hlen : (passed.reverse.splitOn '\n').length = passed.count '\n' + 1 := by
        rw [length_splitOn, List.count_reverse]
      rw [splitOn_append_newline, List.count_cons_self, ← hlen,
        List.getElem?_append_right (Nat.le_refl _), Nat.sub_self, getElem?_splitOn_zero]
      simp
    · have hline := ih (c :: rest)
      simpa [hc] using hline

theorem newline_not_mem_takeWhile (text : List Char) : '\n' ∉ text.takeWhile (· ≠ '\n') := by
  intro hmem
  have h := List.mem_takeWhile_imp hmem
  simp at h

theorem takeWhile_eq_nil_iff {text : List Char} :
    text.takeWhile (· ≠ '\n') = [] ↔ text = [] ∨ text.head? = some '\n' := by
  cases text with
  | nil => simp
  | cons c text => by_cases hc : c = '\n' <;> simp [hc]

theorem head?_takeWhile_of_ne_nil {text : List Char} (h : text.takeWhile (· ≠ '\n') ≠ []) :
    (text.takeWhile (· ≠ '\n')).head? = text.head? := by
  cases text with
  | nil => rfl
  | cons c text =>
    by_cases hc : c = '\n'
    · simp [hc] at h
    · simp [hc]

/-- The end of a text behind its last newline. -/
theorem drop_length_sub_takeWhile (text : List Char) :
    text.drop (text.length - (text.reverse.takeWhile (· ≠ '\n')).length) =
      (text.reverse.takeWhile (· ≠ '\n')).reverse := by
  have hsplit := congrArg List.reverse
    (List.takeWhile_append_dropWhile (p := (· ≠ '\n')) (l := text.reverse))
  rw [List.reverse_append, List.reverse_reverse] at hsplit
  generalize text.reverse.takeWhile (· ≠ '\n') = last at hsplit ⊢
  rw [← hsplit]
  simp

end Text

/-! ## The line of a position -/

/-- `row` is the line of `source` that `p` names, and `p` lies in it or at its end. -/
structure Position.LiesOn (p : Position) (source row : List Char) : Prop where
  line_eq : (source.splitOn '\n')[p.line]? = some row
  one_line : '\n' ∉ row
  column_le : p.column ≤ row.length
  /-- Inside the line, the column leads to the character that the offset leads to. -/
  under : p.column < row.length → row[p.column]? = source[p.offset]?
  /-- The end of the line is a newline or the end of the text. -/
  past_iff : p.column = row.length ↔ p.offset = source.length ∨ source[p.offset]? = some '\n'

namespace Position.TrueIn

variable {p : Position} {source : List Char}

/-- The characters of the line before a true position. -/
theorem drop_take_eq (h : p.TrueIn source) :
    (source.take p.offset).drop (p.offset - p.column) =
      ((source.take p.offset).reverse.takeWhile (· ≠ '\n')).reverse := by
  have hbefore := Text.drop_length_sub_takeWhile (source.take p.offset)
  rwa [← h.column_eq, List.length_take, Nat.min_eq_left h.offset_le] at hbefore

theorem column_le_offset (h : p.TrueIn source) : p.column ≤ p.offset := by
  have hle := (List.takeWhile_prefix (· ≠ '\n') (l := (source.take p.offset).reverse)).length_le
  rw [← h.column_eq, List.length_reverse, List.length_take] at hle
  omega

/-- A true position lies on the line that its excerpt shows. -/
theorem exists_line (h : p.TrueIn source) :
    ∃ line, p.LiesOn source line ∧
      Text.excerpt source p = String.ofList (line ++ '\n' :: List.replicate p.column ' ' ++ ['^']) := by
  have hmeet := Text.getElem?_splitOn_meet (source.take p.offset).reverse (source.drop p.offset)
  rw [List.reverse_reverse, List.take_append_drop, List.count_reverse, ← h.line_eq,
    ← h.drop_take_eq] at hmeet
  have hcolumn : ((source.take p.offset).drop (p.offset - p.column)).length = p.column := by
    rw [h.drop_take_eq, List.length_reverse, h.column_eq]
  have hnone : '\n' ∉ (source.take p.offset).drop (p.offset - p.column) := by
    rw [h.drop_take_eq, List.mem_reverse]
    exact Text.newline_not_mem_takeWhile _
  have hplace := h.column_le_offset
  refine ⟨_, ⟨hmeet, ?_, ?_, ?_, ?_⟩, ?_⟩
  · rw [List.mem_append, not_or]
    exact ⟨hnone, Text.newline_not_mem_takeWhile _⟩
  · rw [List.length_append, hcolumn]
    exact Nat.le_add_right _ _
  · rw [List.length_append, hcolumn, List.getElem?_append_right (Nat.le_of_eq hcolumn), hcolumn, Nat.sub_self,
      ← List.head?_eq_getElem?, ← List.head?_drop]
    intro hlt
    exact Text.head?_takeWhile_of_ne_nil (List.length_pos_iff.mp (by omega))
  · rw [List.length_append, hcolumn, ← List.head?_drop, Nat.left_eq_add, List.length_eq_zero_iff,
      Text.takeWhile_eq_nil_iff, List.drop_eq_nil_iff]
    exact or_congr_left (Nat.le_antisymm_iff.trans (and_iff_right h.offset_le)).symm
  · have hwidth : p.offset - (p.offset - p.column) = p.column := Nat.sub_sub_self hplace
    simp only [Text.excerpt, Nat.min_eq_left h.offset_le, hwidth]

end Position.TrueIn

/-! ## Texts on one line -/

namespace Text

/-- The character shows by itself: it is no control character and not in the table. -/
def Shows (c : Char) : Prop := 0x20 ≤ c.toNat ∧ isUnprintable c = false

instance (c : Char) : Decidable (Shows c) := inferInstanceAs (Decidable (_ ∧ _))

theorem Shows.ne_newline {c : Char} (h : Shows c) : '\n' ≠ c := by
  rintro rfl
  exact absurd h.1 (by decide)

/-- The control characters are in the table, but for those with an escape of their own. -/
theorem le_toNat_of_printable {c : Char} (h : isUnprintable c = false)
    (hnone : c ∉ ['\x00', '\t', '\n', '\r']) : 0x20 ≤ c.toNat := by
  refine Nat.le_of_not_lt fun hlt => ?_
  have hranges : ∀ n < 0x20, n ∈ [0x0, 0x9, 0xA, 0xD] ∨ ∃ r ∈ unprintableRanges, r.1 ≤ n ∧ n ≤ r.2 := by
    decide +kernel
  rcases hranges c.toNat hlt with hmem | hrange
  · apply hnone
    rw [← Char.ofNat_toNat c]
    simp only [List.mem_cons, List.not_mem_nil, or_false] at hmem
    rcases hmem with hc | hc | hc | hc <;> rw [hc] <;> decide
  · rw [isUnprintable_iff.mpr hrange] at h
    contradiction

/-- Numbers are written with the digits of their base only. -/
theorem exists_of_mem_toDigits {b : Nat} (hb : 1 < b) {n : Nat} {c : Char} (h : c ∈ Nat.toDigits b n) :
    ∃ d < b, d.digitChar = c := by
  induction n using Nat.strongRecOn with
  | _ n ih =>
    rw [Nat.toDigits_eq_if hb] at h
    split at h
    · next hlt => exact ⟨n, hlt, (List.mem_singleton.mp h).symm⟩
    · rcases List.mem_append.mp h with h | h
      · exact ih (n / b) (Nat.div_lt_self (by omega) hb) h
      · exact ⟨n % b, Nat.mod_lt n (by omega), (List.mem_singleton.mp h).symm⟩

theorem not_mem_toDigits {b : Nat} (hb : 1 < b) {c : Char} (hc : ∀ d : Nat, d.digitChar ≠ c) (n : Nat) :
    c ∉ Nat.toDigits b n := by
  intro hmem
  obtain ⟨d, -, hd⟩ := exists_of_mem_toDigits hb hmem
  exact hc d hd

theorem shows_of_mem_toDigits {b : Nat} (hb : 1 < b) (hb' : b ≤ 16) {n : Nat} {c : Char}
    (h : c ∈ Nat.toDigits b n) : Shows c := by
  have all : ∀ d < 16, Shows d.digitChar := by decide
  obtain ⟨d, hd, rfl⟩ := exists_of_mem_toDigits hb h
  exact all d (by omega)

theorem newline_not_mem_toString (n : Nat) : '\n' ∉ (toString n).toList := by
  rw [Nat.toString_eq_ofList_toDigits, String.toList_ofList]
  exact fun hmem => (shows_of_mem_toDigits (by decide) (by decide) hmem).ne_newline rfl

theorem shows_pair {a b : Char} (ha : Shows a) (hb : Shows b) : ∀ x ∈ [a, b], Shows x := by simp [ha, hb]

/-- Whatever a character is, its escape shows. -/
theorem shows_escape {mark : Char} (hmark : Shows mark) (c : Char) : ∀ x ∈ escape mark c, Shows x := by
  have hslash : Shows '\\' := by decide
  unfold escape
  split
  · exact shows_pair hslash (by decide)
  split
  · exact shows_pair hslash (by decide)
  split
  · exact shows_pair hslash (by decide)
  split
  · exact shows_pair hslash (by decide)
  split
  · next h =>
    rcases h with rfl | rfl
    · exact shows_pair hslash hslash
    · exact shows_pair hslash hmark
  split
  · have hopening : ∀ x ∈ ['\\', 'u', '\x7b'], Shows x :=
      List.forall_mem_cons.mpr ⟨hslash, shows_pair (by decide) (by decide)⟩
    have hclosing : ∀ x ∈ ['\x7d'], Shows x := List.forall_mem_singleton.mpr (by decide)
    rw [codePointEscape, List.forall_mem_append, List.forall_mem_append]
    exact ⟨⟨hopening, fun x hx => shows_of_mem_toDigits (by decide) (by decide) hx⟩, hclosing⟩
  · next hprintable =>
    have hprintable : isUnprintable c = false := by simpa using hprintable
    have hle : 0x20 ≤ c.toNat := le_toNat_of_printable hprintable (by simp [*])
    exact List.forall_mem_singleton.mpr ⟨hle, hprintable⟩

/-- A quotation shows all through, so it stays on its line whatever is quoted. -/
theorem shows_quotedWith {mark : Char} (hmark : Shows mark) (text : List Char) :
    ∀ x ∈ (quotedWith mark text).toList, Shows x := by
  rw [quotedWith, String.toList_ofList]
  intro x hx
  rcases List.mem_append.mp hx with hx | hx
  · rcases List.mem_cons.mp hx with rfl | hx
    · exact hmark
    · obtain ⟨c, -, hc⟩ := List.mem_flatMap.mp hx
      exact shows_escape hmark c x hc
  · rwa [List.mem_singleton.mp hx]

theorem newline_not_mem_quotedWith {mark : Char} (hmark : Shows mark) (text : List Char) :
    '\n' ∉ (quotedWith mark text).toList :=
  fun hmem => (shows_quotedWith hmark text _ hmem).ne_newline rfl

end Text

end BoardLang
