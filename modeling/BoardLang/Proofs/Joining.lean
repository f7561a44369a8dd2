import BoardLang.Proofs.Courses
import BoardLang.Proofs.TruePositions

/-!
# Texts joined by a newline

Nothing looks past a newline, except for a block comment that is still open. So the tokens of two texts
with a newline between them are the tokens of the first, the newline if it is a token, and the tokens of
the second, moved down by the length of the first (`lex_joined_by_newline`). If the first text has a
flaw, the joined text has the same one, unless it is a comment without an end: the second text may
close that.

For the first half, the row of the first text is a row in front of the newline, and the course of the
second text goes on behind it (`Course.join`). For the second half, a flaw stays what it is in front of a
newline (`Flaw.before_newline`).
-/

namespace BoardLang

open CharClass

variable {d : Dialect} {p : Piece} {ps qs : List Piece} {text after rest tail : List Char}
  {first second : List Char} {last last' : Position} {e e' : ScanError}

/-! ## Below a text -/

/-- The position `p` of a text that stands below the text `first`, with a newline between them. -/
def Position.below (first : List Char) (p : Position) : Position :=
  ⟨p.offset + (first.length + 1), p.line + (first.count '\n' + 1), p.column⟩

theorem isShift_below (first : List Char) : IsShift (Position.below first) := by
  intro p c
  by_cases hc : c = '\n'
  · simp [Position.below, Position.step, hc]
    omega
  · simp [Position.below, Position.step, hc]
    omega

/-- The text below begins behind the newline. -/
theorem below_start (first : List Char) :
    Position.below first Position.start = (Position.start.advance first).step '\n' := by
  have hline := (Position.line_column_advance first.reverse).1
  rw [List.reverse_reverse, List.count_reverse] at hline
  simp [Position.below, Position.step, Position.start] at hline ⊢
  omega

def Piece.newline (d : Dialect) : Piece :=
  if d.newlineEndsStatement then .token .statementEnd ['\n'] else .blank '\n'

/-- The token that the newline behind `first` is, if it is one. -/
def joint (d : Dialect) (first : List Char) : List Token :=
  if d.newlineEndsStatement then
    [⟨.statementEnd, "\n", Span.covering (Position.start.advance first) ['\n']⟩]
  else []

theorem text_newline (d : Dialect) : (Piece.newline d).text = ['\n'] := by
  unfold Piece.newline
  split <;> rfl

theorem lexeme_newline (d : Dialect) (after : List Char) : Lexeme d (Piece.newline d) after := by
  unfold Piece.newline
  split
  · rename_i hd
    exact .newline hd
  · rename_i hd
    exact .blank (Or.inr (Or.inr (Or.inr ⟨rfl, by simpa using hd⟩)))

theorem token?_newline (d : Dialect) (first : List Char) :
    ((Piece.newline d).token? (Position.start.advance first)).toList = joint d first := by
  unfold Piece.newline joint
  split <;> rfl

theorem comment?_newline (d : Dialect) (pos : Position) : (Piece.newline d).comment? pos = none := by
  unfold Piece.newline
  split <;> rfl

/-! ## The second text -/

section Second

variable (h : Cuts d first ps [])
include h

theorem Cuts.text_of_whole : ps.flatMap Piece.text = first := by
  simpa using h.text_eq.symm

/-- The row of the first text and the newline, in front of the second text. -/
theorem Cuts.newline (second : List Char) :
    Cuts d (first ++ '\n' :: second) (ps ++ [Piece.newline d]) second := by
  have hfirst := h.replace_rest (endsToo_newline [] second)
  rw [h.text_of_whole] at hfirst
  have hnewline : Cuts d ((Piece.newline d).text ++ second) [Piece.newline d] second :=
    .piece (lexeme_newline d second) (.done second)
  rw [text_newline] at hnewline
  exact hfirst.append hnewline

/-- The second text begins where this row ends. -/
theorem Cuts.start_below :
    Position.below first Position.start =
      Position.start.advance ((ps ++ [Piece.newline d]).flatMap Piece.text) := by
  simp [below_start, h.text_of_whole, text_newline]

theorem tokensAt_join (qs : List Piece) :
    tokensAt Position.start (ps ++ [Piece.newline d] ++ qs) =
      tokensAt Position.start ps ++ joint d first ++
        (tokensAt Position.start qs).map (Token.moved (Position.below first)) := by
  have hjoint : tokensAt (Position.start.advance first) [Piece.newline d] = joint d first := by
    rw [tokensAt_cons, token?_newline]
    exact List.append_nil _
  rw [tokensAt_append, ← h.start_below, tokensAt_shift (isShift_below first), tokensAt_append,
    h.text_of_whole, hjoint]

theorem commentsAt_join (qs : List Piece) :
    commentsAt Position.start (ps ++ [Piece.newline d] ++ qs) =
      commentsAt Position.start ps ++
        (commentsAt Position.start qs).map (Comment.moved (Position.below first)) := by
  rw [commentsAt_append, ← h.start_below, commentsAt_shift (isShift_below first), commentsAt_append]
  simp [commentsAt, comment?_newline]

end Second

theorem Course.join (h : Course d first ps [] e' last') (h' : Course d second qs rest e last) :
    Course d (first ++ '\n' :: second) (ps ++ [Piece.newline d] ++ qs) rest
      (e.moved (Position.below first)) (Position.below first last) :=
  h'.behind (isShift_below first) (h.cuts.newline second) h.cuts.start_below

/-! ## A flaw in the first text -/

theorem opensComment_append_newline : OpensComment (text ++ '\n' :: tail) ↔ OpensComment text := by
  constructor
  · rintro ⟨style, hstyle⟩
    match text with
    | [] => cases style <;> simp [CommentStyle.opening] at hstyle
    | [x] => cases style <;> simp [CommentStyle.opening] at hstyle
    | x :: y :: text =>
      refine ⟨style, ?_⟩
      cases style <;> simpa [CommentStyle.opening] using hstyle
  · rintro ⟨style, hstyle⟩
    exact ⟨style, hstyle.trans (List.prefix_append _ _)⟩

/-- The first character in front of a newline, or the newline. -/
theorem mem_head?_append_newline {c : Char} (h : c ∈ (after ++ '\n' :: tail).head?) :
    c = '\n' ∨ c ∈ after.head? := by
  cases after with
  | nil => simpa [eq_comm] using h
  | cons x after => exact Or.inr h

theorem endsToo_append_newline (rest tail : List Char) : EndsToo rest (rest ++ '\n' :: tail) := by
  intro c hc
  refine (mem_head?_append_newline hc).imp_right fun hc => ⟨hc, ?_⟩
  exact opensComment_append_newline.mpr

theorem MarkRun.before_newline {run : List Char} (h : MarkRun run after) (tail : List Char) :
    MarkRun run (after ++ '\n' :: tail) where
  marks := h.marks
  unbroken := by
    intro u v huv hv
    rw [← List.append_assoc, opensComment_append_newline]
    exact h.unbroken u v huv hv
  ends := by
    intro c hc
    rcases mem_head?_append_newline hc with rfl | hc
    · exact Or.inl keepsApart_newline.not_mark
    · rw [opensComment_append_newline]
      exact h.ends c hc

/-- A flaw in front of a newline does not see what comes behind it, unless it goes to the end of the
text. -/
theorem Flaw.before_newline (h : Flaw d p after) (hp : ∀ body, p ≠ .unclosed body) (tail : List Char) :
    Flaw d p (after ++ '\n' :: tail) := by
  cases h with
  | slash hafter =>
    refine .slash fun c hc => ?_
    rcases mem_head?_append_newline hc with rfl | hc
    · decide
    · exact hafter c hc
  | unclosed => exact absurd rfl (hp _)
  | marks hc hrun hnone => exact .marks hc (hrun.before_newline tail) hnone
  | stray hc => exact .stray hc

theorem Ending.before_newline {pos : Position} (h : Ending d rest pos e last) (hrest : rest ≠ [])
    (he : e.cause ≠ .unclosedComment) (tail : List Char) : Ending d (rest ++ '\n' :: tail) pos e last := by
  cases h with
  | text => contradiction
  | flaw hp ho =>
    rw [List.append_assoc]
    refine .flaw (hp.before_newline ?_ tail) ho
    rintro body rfl
    simp only [Piece.outcome?, Option.some.injEq, Except.error.injEq] at ho
    subst ho
    contradiction

/-- A text with a flaw keeps its course in front of a newline. -/
theorem Course.before_newline (h : Course d first ps rest e last) (hrest : rest ≠ [])
    (he : e.cause ≠ .unclosedComment) (second : List Char) :
    Course d (first ++ '\n' :: second) ps (rest ++ '\n' :: second) e last where
  cuts := by
    rw [h.cuts.text_eq, List.append_assoc]
    exact h.cuts.replace_rest (endsToo_append_newline rest second)
  ending := h.ending.before_newline hrest he second

/-! ## The joined text -/

/-- **Joined texts.** Behind an accepted text and a newline, a text is read as it is read alone, with its
tokens, comments and errors moved down. Behind a text with a flaw nothing more is read, unless the flaw
is a comment without an end. -/
theorem lex_joined_by_newline (d : Dialect) (first second : String) :
    (∀ ts, lex d first = .ok ts →
      (∀ us, lex d second = .ok us →
        lex d (first ++ "\n" ++ second) =
          .ok (ts ++ joint d first.toList ++ us.map (Token.moved (Position.below first.toList)))) ∧
      (∀ e, lex d second = .error e →
        lex d (first ++ "\n" ++ second) = .error (e.moved (Position.below first.toList))) ∧
      (TokenStream.ofText d (first ++ "\n" ++ second)).run.final.comments =
        (TokenStream.ofText d first).run.final.comments ++
          (TokenStream.ofText d second).run.final.comments.map
            (Comment.moved (Position.below first.toList))) ∧
    ∀ e, lex d first = .error e → e.cause ≠ .unclosedComment →
      lex d (first ++ "\n" ++ second) = .error e := by
  have hjoined : (first ++ "\n" ++ second).toList = first.toList ++ '\n' :: second.toList := by simp
  constructor
  · intro ts hts
    -- The newline ends whatever the first text ends with, so the two courses are one.
    obtain ⟨ps, e', last', hfirst, rfl⟩ := exists_course_of_lex_ok hts
    obtain ⟨qs, rest, e, last, hsecond⟩ := exists_course d second.toList
    have hcourse := hfirst.join hsecond
    rw [← hjoined] at hcourse
    rw [hcourse.lex_eq, hsecond.lex_eq, ScanError.isEnd_moved, hcourse.run.comments, hfirst.run.comments,
      hsecond.run.comments, tokensAt_join hfirst.cuts, commentsAt_join hfirst.cuts]
    refine ⟨?_, ?_, rfl⟩
    · intro us hus
      by_cases hend : e.isEnd = true
      · rw [if_pos hend, Except.ok.injEq] at hus ⊢
        rw [hus]
      · simp [hend] at hus
    · intro e₂ he₂
      by_cases hend : e.isEnd = true
      · simp [hend] at he₂
      · rw [if_neg hend, Except.error.injEq] at he₂ ⊢
        rw [he₂]
  · intro e he hcause
    -- The flaw is met before the newline and does not see what comes behind it.
    obtain ⟨ps, rest, last, hfirst, hrest⟩ := exists_course_of_lex_error he
    have hcourse := hfirst.before_newline hrest hcause second.toList
    rw [← hjoined] at hcourse
    rw [hcourse.lex_eq, if_neg]
    rwa [← hfirst.ending.rest_eq_nil_iff]

/-- A line comment at the end of a text does not hide the next line, and a slash at the end of one is no
part of a comment. -/
theorem lex_joined_behind_line_comment :
    lex ⟨true⟩ ("a//" ++ "\n" ++ "b") =
      .ok [⟨.ident, "a", ⟨⟨0, 0, 0⟩, ⟨1, 0, 1⟩⟩⟩, ⟨.statementEnd, "\n", ⟨⟨3, 0, 3⟩, ⟨4, 1, 0⟩⟩⟩,
        ⟨.ident, "b", ⟨⟨4, 1, 0⟩, ⟨5, 1, 1⟩⟩⟩] ∧
    lex ⟨true⟩ ("a//" ++ "\n" ++ "/") = .error ⟨.format, ⟨5, 1, 1⟩⟩ ∧
    lex ⟨true⟩ ("/" ++ "\n" ++ "*/") = .error ⟨.format, ⟨1, 0, 1⟩⟩ := by
  have hfirst : lex ⟨true⟩ "a//" = .ok [⟨.ident, "a", ⟨⟨0, 0, 0⟩, ⟨1, 0, 1⟩⟩⟩] := by
    rw [lex_eq_run, if_pos (by decide +kernel)]
    exact congrArg Except.ok (by decide +kernel)
  have hword : lex ⟨true⟩ "b" = .ok [⟨.ident, "b", ⟨⟨0, 0, 0⟩, ⟨1, 0, 1⟩⟩⟩] := by
    rw [lex_eq_run, if_pos (by decide +kernel)]
    exact congrArg Except.ok (by decide +kernel)
  have hslash : lex ⟨true⟩ "/" = .error ⟨.format, ⟨1, 0, 1⟩⟩ := by
    rw [lex_eq_run, if_neg (by decide +kernel)]
    exact congrArg Except.error (by decide +kernel)
  refine ⟨?_, ?_, ?_⟩
  · exact ((lex_joined_by_newline ⟨true⟩ "a//" "b").1 _ hfirst).1 _ hword
  · exact ((lex_joined_by_newline ⟨true⟩ "a//" "/").1 _ hfirst).2.1 _ hslash
  · exact (lex_joined_by_newline ⟨true⟩ "/" "*/").2 _ hslash (by simp)

end BoardLang
