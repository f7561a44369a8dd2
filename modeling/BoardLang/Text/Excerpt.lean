import BoardLang.Position

/-!
# Excerpts of a text

Pieces of a text named by positions. Nothing is asked of the positions: they may lie outside the
text or come in the wrong order, and the answer is cut down to what there is.
-/

namespace BoardLang.Text

/-- The characters with an offset inside `span`. -/
def slice (text : List Char) (span : Span) : List Char :=
  (text.take span.stop.offset).drop span.start.offset

/-- The line of `text` around `p`, and below it a caret under the place that `p` names. The line
begins `p.column` characters before that place and ends before the next newline. -/
def excerpt (text : List Char) (p : Position) : String :=
  let place := min p.offset text.length
  let first := place - p.column
  let before := (text.take place).drop first
  let after := (text.drop place).takeWhile (· ≠ '\n')
  String.ofList (before ++ after ++ '\n' :: List.replicate (place - first) ' ' ++ ['^'])

theorem length_slice (text : List Char) (span : Span) :
    (slice text span).length = min span.stop.offset text.length - span.start.offset := by
  simp [slice]

theorem slice_eq_nil_of_isEmpty (text : List Char) {span : Span} (h : span.isEmpty = true) :
    slice text span = [] := by
  simp only [Span.isEmpty, decide_eq_true_eq] at h
  apply List.eq_nil_of_length_eq_zero
  rw [length_slice]
  omega

end BoardLang.Text
