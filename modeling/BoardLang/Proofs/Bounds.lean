import BoardLang.Lexical.Cursor
import BoardLang.Report.Diagnostic
import Mathlib.Algebra.Group.Nat.Defs

/-!
# Excerpts stay in bounds

Nothing is asked of the positions that a piece of a text is named by: they may come from another text, and
their parts need not go together. Numbers that are computed from them could lie outside the text, or be too
large for 64 bits. So the functions are written here once more, step by step and with every step checked:
`between?` gives no characters if its bounds are out of order or lie behind the text, and `Checked.add?` and
`Checked.sub?` give no number that does not fit in 64 bits.

None of the checks ever fails (`excerpts_stay_in_bounds`), for one reason: the place is cut down to the text
first, and then the line begins at it or before it and ends at it or behind it, but still in the text. Only the
line and the column that a diagnostic shows count from one, and must leave room for that.
-/

namespace BoardLang

/-! ## Checked steps -/

namespace Checked

/-- The sum, if it fits in 64 bits. -/
def add? (a b : Nat) : Option Nat := if a + b < 2 ^ 64 then some (a + b) else none

/-- The difference, if it is not below zero. -/
def sub? (a b : Nat) : Option Nat := if b ≤ a then some (a - b) else none

theorem add?_eq_some {a b : Nat} (h : a + b < 2 ^ 64) : add? a b = some (a + b) := if_pos h

theorem sub?_eq_some {a b : Nat} (h : b ≤ a) : sub? a b = some (a - b) := if_pos h

end Checked

namespace Text

/-- The characters from `first` on and before `last`, if these are bounds of a piece of the text. -/
def between? (text : List Char) (first last : Nat) : Option (List Char) :=
  if first ≤ last ∧ last ≤ text.length then some ((text.take last).drop first) else none

theorem between?_eq_some {text : List Char} {first last : Nat} (h : first ≤ last) (hlast : last ≤ text.length) :
    between? text first last = some ((text.take last).drop first) := if_pos ⟨h, hlast⟩

def slice? (text : List Char) (span : Span) : Option (List Char) :=
  let last := min span.stop.offset text.length
  let first := min span.start.offset last
  between? text first last

/-- Where the line ends that goes on at `place`: before the next newline, or else with the text. -/
def endOfLine (text : List Char) (place : Nat) : Nat := place + (text.drop place).findIdx (· = '\n')

def endOfLine? (text : List Char) (place : Nat) : Option Nat := do
  let rest ← between? text place text.length
  match rest.findIdx? (· = '\n') with
  | some n => Checked.add? place n
  | none => some text.length

/-- `excerpt` in checked steps. A column that is too large leads to the beginning of the text. -/
def excerpt? (text : List Char) (p : Position) : Option String := do
  let place := min p.offset text.length
  let first := place - min place p.column
  let last ← endOfLine? text place
  let line ← between? text first last
  let width ← Checked.sub? place first
  return String.ofList (line ++ '\n' :: List.replicate width ' ' ++ ['^'])

end Text

def Position.describe? (p : Position) : Option String := do
  let line ← Checked.add? p.line 1
  let column ← Checked.add? p.column 1
  return toString line ++ ":" ++ toString column

namespace SourceError

def message? (e : SourceError) : Option String := do
  let place ← e.pos.describe?
  return place ++ ": " ++ e.wording

def render? (e : SourceError) (file source : String) : Option String := do
  let excerpt ← Text.excerpt? source.toList e.pos
  let message ← e.message?
  return "error: " ++ file ++ ":" ++ message ++ "\n" ++ excerpt

end SourceError

/-! ## What is taken from the text -/

/-- `last` is the first newline of the text at `place` or behind it, or else the end of the text. -/
structure Text.IsEndOfLine (text : List Char) (place last : Nat) : Prop where
  place_le : place ≤ last
  last_le : last ≤ text.length
  none_before : ∀ i, place ≤ i → i < last → text[i]? ≠ some '\n'
  stops : last = text.length ∨ text[last]? = some '\n'

/-- The slice of a span is found without leaving the text. -/
structure Cursor.SlicesSafely (c : Cursor) (span : Span) : Prop where
  slice?_eq : Text.slice? c.source span = some (c.slice span)
  /-- The slice holds the characters of the text that have their number in the span. -/
  slice_eq : c.slice span =
    (c.source.zipIdx.filter fun x => span.start.offset ≤ x.2 ∧ x.2 < span.stop.offset).map Prod.fst
  inverted : span.stop.offset < span.start.offset → c.slice span = []

/-- The excerpt at a position is found without leaving the text. -/
structure Cursor.ShowsSafely (c : Cursor) (p : Position) : Prop where
  excerpt?_eq : Text.excerpt? c.source p = some (c.excerpt p)
  excerpt_eq : ∃ place first last, place = min p.offset c.source.length ∧
    first = place - min place p.column ∧ Text.IsEndOfLine c.source place last ∧
    c.excerpt p = String.ofList
      ((c.source.take last).drop first ++ '\n' :: List.replicate (place - first) ' ' ++ ['^'])

/-! ## Slices -/

namespace Text

theorem slice?_eq_some (text : List Char) (span : Span) : slice? text span = some (slice text span) := by
  have hlast : (text.take span.stop.offset).length = min span.stop.offset text.length := List.length_take
  have hfirst : (text.take span.stop.offset).drop (min span.start.offset (min span.stop.offset text.length)) =
      (text.take span.stop.offset).drop span.start.offset := by
    rw [← hlast]
    exact List.drop_eq_drop_min.symm
  simp only [slice?, between?_eq_some (Nat.min_le_right _ _) (Nat.min_le_right _ _)]
  rw [← List.take_eq_take_min, hfirst]
  rfl

/-- Cutting a text at two places keeps the characters with a number in between. The numbers begin at `k`. -/
theorem drop_take_eq_filter (text : List Char) (first last k : Nat) :
    (text.take (last - k)).drop (first - k) =
      ((text.zipIdx k).filter fun x => first ≤ x.2 ∧ x.2 < last).map Prod.fst := by
  induction text generalizing k with
  | nil => simp
  | cons c text ih =>
    -- The first character has the number `k`, and all depends on where this lies.
    have ih := ih (k + 1)
    rw [List.zipIdx_cons, List.filter_cons]
    by_cases hlast : k < last
    · obtain ⟨n, hn⟩ : ∃ n, last - k = n + 1 := ⟨last - (k + 1), by omega⟩
      have hn' : last - (k + 1) = n := by omega
      rw [hn'] at ih
      by_cases hfirst : first ≤ k
      · have hzero : first - k = 0 ∧ first - (k + 1) = 0 := by omega
        rw [hzero.2] at ih
        simpa [hn, hzero.1, hfirst, hlast] using ih
      · obtain ⟨i, hi⟩ : ∃ i, first - k = i + 1 := ⟨first - (k + 1), by omega⟩
        have hi' : first - (k + 1) = i := by omega
        rw [hi'] at ih
        simpa [hn, hi, hfirst] using ih
    · have hzero : last - k = 0 ∧ last - (k + 1) = 0 := by omega
      rw [hzero.2] at ih
      simpa [hzero.1, hlast] using ih

theorem slice_eq_filter (text : List Char) (span : Span) :
    slice text span =
      (text.zipIdx.filter fun x => span.start.offset ≤ x.2 ∧ x.2 < span.stop.offset).map Prod.fst :=
  drop_take_eq_filter text span.start.offset span.stop.offset 0

/-! ## Lines -/

variable {text : List Char} {place : Nat}

theorem isEndOfLine_endOfLine (hplace : place ≤ text.length) :
    IsEndOfLine text place (endOfLine text place) := by
  have hle : (text.drop place).findIdx (· = '\n') ≤ (text.drop place).length := List.findIdx_le_length
  have hrest : (text.drop place).length = text.length - place := List.length_drop
  unfold endOfLine
  refine ⟨Nat.le_add_right _ _, by omega, ?_, ?_⟩
  · intro i hi hlt hnewline
    have hbefore : i - place < (text.drop place).findIdx (· = '\n') := by omega
    have hne := List.not_of_lt_findIdx hbefore
    have hget : (text.drop place)[i - place]? = some '\n' := by
      rw [List.getElem?_drop, Nat.add_sub_cancel' hi]
      exact hnewline
    rw [List.getElem?_eq_some_iff] at hget
    obtain ⟨_, hget⟩ := hget
    rw [hget] at hne
    simp at hne
  · rcases Nat.lt_or_eq_of_le hle with hlt | heq
    · right
      have hfound := List.findIdx_getElem (w := hlt)
      rw [← List.getElem?_drop, List.getElem?_eq_getElem hlt, Option.some_inj]
      simpa using hfound
    · left
      omega

theorem endOfLine?_eq_some (hplace : place ≤ text.length) (hsize : text.length < 2 ^ 64) :
    endOfLine? text place = some (endOfLine text place) := by
  have hrest : (text.drop place).length = text.length - place := List.length_drop
  rw [endOfLine?, between?_eq_some hplace (Nat.le_refl _), List.take_length]
  simp only [Option.bind_eq_bind, Option.bind_some]
  split
  · next n hn =>
    obtain ⟨hlt, rfl⟩ := List.findIdx?_eq_some_iff_findIdx_eq.mp hn
    exact Checked.add?_eq_some (by omega)
  · next hnone =>
    rw [List.findIdx?_eq_none_iff_findIdx_eq] at hnone
    rw [endOfLine, hnone, hrest, Nat.add_sub_cancel' hplace]

/-- The parts of the line before and behind the place are one piece of the text. -/
theorem line_eq_append {first : Nat} (hfirst : first ≤ place) (hplace : place ≤ text.length) :
    (text.take (endOfLine text place)).drop first =
      (text.take place).drop first ++ (text.drop place).takeWhile (· ≠ '\n') := by
  have hlength : first ≤ (text.take place).length := by
    rw [List.length_take, Nat.min_eq_left hplace]
    exact hfirst
  rw [endOfLine, List.take_add, List.drop_append_of_le_length hlength, List.takeWhile_eq_take_findIdx_not]
  simp

theorem excerpt_eq_line (text : List Char) (p : Position) :
    let place := min p.offset text.length
    let first := place - min place p.column
    excerpt text p = String.ofList ((text.take (endOfLine text place)).drop first ++
      '\n' :: List.replicate (place - first) ' ' ++ ['^']) := by
  intro place first
  have hfirst : first = place - p.column := by omega
  rw [hfirst, line_eq_append (Nat.sub_le _ _) (Nat.min_le_right _ _)]
  rfl

theorem excerpt?_eq_some (hsize : text.length < 2 ^ 64) (p : Position) :
    excerpt? text p = some (excerpt text p) := by
  have hplace : min p.offset text.length ≤ text.length := Nat.min_le_right _ _
  have hfirst := Nat.sub_le (min p.offset text.length) (min (min p.offset text.length) p.column)
  have hline := isEndOfLine_endOfLine hplace
  rw [excerpt?, endOfLine?_eq_some hplace hsize, excerpt_eq_line]
  simp only [Option.bind_eq_bind, Option.bind_some, Option.pure_def,
    between?_eq_some (Nat.le_trans hfirst hline.place_le) hline.last_le, Checked.sub?_eq_some hfirst]

end Text

/-! ## Diagnostics -/

theorem Position.describe?_eq_some {p : Position} (hline : p.line < 2 ^ 64 - 1)
    (hcolumn : p.column < 2 ^ 64 - 1) : p.describe? = some p.describe := by
  rw [describe?, Checked.add?_eq_some (by omega), Checked.add?_eq_some (by omega)]
  rfl

theorem SourceError.render?_eq_some {e : SourceError} {source : String} (hsize : source.toList.length < 2 ^ 64)
    (hline : e.pos.line < 2 ^ 64 - 1) (hcolumn : e.pos.column < 2 ^ 64 - 1) (file : String) :
    e.render? file source = some (e.render file source) := by
  rw [render?, Text.excerpt?_eq_some hsize, message?, Position.describe?_eq_some hline hcolumn, render,
    message_eq]
  rfl

/-- **Excerpts stay in bounds.** Take a text that fits in memory, a cursor anywhere in it, and spans, positions
and errors of any kind. The steps that lead to a slice, to an excerpt and to a diagnostic never leave the text
and never leave 64 bits, as long as the line and the column of the error can still be counted from one. The
slice holds the characters inside the span. The excerpt holds what stands before the place, as far back as the
column says, and what stands behind it up to the next newline. -/
theorem excerpts_stay_in_bounds (source : String) (c : Cursor) (hc : c.source = source.toList)
    (hsize : source.toList.length < 2 ^ 64) :
    (∀ span, c.SlicesSafely span) ∧ (∀ p, c.ShowsSafely p) ∧
      ∀ (e : SourceError) (file : String), e.pos.line < 2 ^ 64 - 1 → e.pos.column < 2 ^ 64 - 1 →
        e.render? file source = some (e.render file source) := by
  refine ⟨fun span => ?_, fun p => ?_, fun e file hline hcolumn => ?_⟩
  · refine ⟨Text.slice?_eq_some c.source span, Text.slice_eq_filter c.source span, fun hlt => ?_⟩
    exact Text.slice_eq_nil_of_isEmpty c.source (decide_eq_true (Nat.le_of_lt hlt))
  · rw [← hc] at hsize
    exact ⟨Text.excerpt?_eq_some hsize p, _, _, _, rfl, rfl, Text.isEndOfLine_endOfLine (Nat.min_le_right _ _),
      Text.excerpt_eq_line c.source p⟩
  · exact SourceError.render?_eq_some hsize hline hcolumn file

/-- A span that ends before it begins, and an error on a line that the text does not have, in a column far
behind its end. -/
theorem wild_positions_stay_in_bounds :
    let c := (Cursor.ofText "ab\ncd".toList).move 2
    let p : Position := ⟨2 ^ 64 - 1, 7, 2 ^ 64 - 2⟩
    let e : SourceError := .overflow "9" p
    "ab\ncd".toList.length < 2 ^ 64 ∧ p.line < 2 ^ 64 - 1 ∧ p.column < 2 ^ 64 - 1 ∧
    Text.slice? c.source ⟨p, Position.start⟩ = some [] ∧
    Text.excerpt? c.source p = some "ab\ncd\n     ^" ∧
    e.render? "in.bdl" "ab\ncd" = some
      "error: in.bdl:8:18446744073709551615: integer literal `9` does not fit in 64 bits\nab\ncd\n     ^" := by
  intro c p e
  have hsize : "ab\ncd".toList.length < 2 ^ 64 := by decide
  have hline : p.line < 2 ^ 64 - 1 := by decide
  have hcolumn : p.column < 2 ^ 64 - 1 := by decide
  obtain ⟨hslices, hshows, hrender⟩ := excerpts_stay_in_bounds "ab\ncd" c rfl hsize
  have hslice := hslices ⟨p, Position.start⟩
  refine ⟨hsize, hline, hcolumn, ?_, ?_, ?_⟩
  · rw [hslice.slice?_eq, hslice.inverted (by decide)]
  · rw [(hshows p).excerpt?_eq]
    exact congrArg some (by decide)
  · rw [hrender e "in.bdl" hline hcolumn]
    exact congrArg some (by decide)

end BoardLang
