import BoardLang.Proofs.Neighbours
import BoardLang.Proofs.Running

/-!
# The course of a run

A run over a text goes over a row of lexemes and then stops, at the end of the text or at a flaw. This
is its *course*, and it is a matter of the text alone: `Course` mentions no stream. Every text has a
course (`exists_course`), and the run over the text shows what is in it (`Course.run`). To compare two
runs it is enough to make the course of one text into a course of the other.

A course does not depend on the place where the text stands either. A function on positions that goes
along with every step (`IsShift`) takes the tokens, the comments and the error of a text to those of the
same text at another place, and so a course goes on behind any row of lexemes (`Course.behind`).
-/

namespace BoardLang

variable {d : Dialect} {ps qs : List Piece} {text rest : List Char} {pos last : Position}
  {e : ScanError}

/-! ## Courses -/

/-- How a run ends that comes to `pos` with this text ahead: with which error, and where it stands then. -/
inductive Ending (d : Dialect) : List Char → Position → ScanError → Position → Prop where
  | text (pos : Position) : Ending d [] pos ⟨.endOfInput, pos⟩ pos
  | flaw {p : Piece} {after : List Char} {pos : Position} {e : ScanError} (hp : Flaw d p after)
      (he : p.outcome? pos = some (.error e)) : Ending d (p.text ++ after) pos e (pos.advance p.text)

/-- A row of lexemes at the front of a text, and the ending that comes behind it. -/
structure Course (d : Dialect) (text : List Char) (ps : List Piece) (rest : List Char) (e : ScanError)
    (last : Position) : Prop where
  cuts : Cuts d text ps rest
  ending : Ending d rest (Position.start.advance (ps.flatMap Piece.text)) e last

/-- What is seen of a run: the tokens and comments of a row, and how it ended. -/
structure Run.Shows (run : Run) (ps : List Piece) (e : ScanError) (last : Position) : Prop where
  tokens : run.tokens = tokensAt Position.start ps
  comments : run.final.comments = commentsAt Position.start ps
  stop : run.stop = e
  final : run.final.pos = last

theorem Ending.isSound_of_cut {p : Piece} (h : Ending d rest pos e last)
    (hcut : Piece.cut d rest = some p) : p.isSound = false := by
  cases h with
  | text => simp [Piece.cut] at hcut
  | flaw hp he =>
    rw [Piece.cut_of_flaw hp] at hcut
    obtain rfl := Option.some.inj hcut
    exact hp.isSound

theorem exists_ending (d : Dialect) (pos : Position)
    (hstop : ∀ p, Piece.cut d rest = some p → p.isSound = false) : ∃ e last, Ending d rest pos e last := by
  cases hcut : Piece.cut d rest with
  | none =>
    obtain rfl := Piece.cut_eq_none_iff.mp hcut
    exact ⟨_, _, .text pos⟩
  | some p =>
    have hp := hstop p hcut
    obtain ⟨after, rfl, hflaw⟩ := flaw_of_cut hcut hp
    obtain ⟨e, he⟩ := Piece.exists_error pos hp
    exact ⟨_, _, .flaw hflaw he⟩

theorem exists_course (d : Dialect) (text : List Char) :
    ∃ ps rest e last, Course d text ps rest e last := by
  obtain ⟨ps, rest, hps, -, hstop⟩ := Cuts.exists_longest d Piece.isSound (fun _ h => h) text
  obtain ⟨e, last, hend⟩ := exists_ending d (Position.start.advance (ps.flatMap Piece.text)) hstop
  exact ⟨ps, rest, e, last, hps, hend⟩

/-- The error is the end of the text only where nothing is left. -/
theorem Ending.rest_eq_nil_iff (h : Ending d rest pos e last) : rest = [] ↔ e.isEnd = true := by
  cases h with
  | text => simp [ScanError.isEnd]
  | @flaw p after _ _ hp he =>
    rw [(Piece.outcome?_eq_error he).2]
    simp only [Bool.false_eq_true, iff_false]
    intro hnil
    have hcut := Piece.cut_of_flaw hp
    simp [hnil, Piece.cut] at hcut

/-- The error comes no earlier than the ending. -/
theorem Ending.offset_le (h : Ending d rest pos e last) : pos.offset ≤ e.pos.offset := by
  cases h with
  | text => exact Nat.le_refl _
  | flaw _ he => exact Piece.offset_le_of_outcome?_eq_error he

/-- A run at the end of a row finds the ending that is there. -/
theorem Ending.run {s : TokenStream} (h : Ending s.dialect s.cursor.rest s.pos e last) :
    s.run.tokens = [] ∧ s.run.stop = e ∧ s.run.final.pos = last ∧ s.run.final.comments = s.comments := by
  generalize hd : s.dialect = d at h
  generalize hrest : s.cursor.rest = rest at h
  generalize hpos : s.pos = pos at h
  cases h with
  | text =>
    subst hpos
    simp [TokenStream.run_end hrest]
  | flaw hp he =>
    subst hd hpos
    have hcut := Piece.cut_of_flaw hp
    rw [← hrest] at hcut
    rw [TokenStream.run_flaw hcut he]
    refine ⟨rfl, rfl, TokenStream.pos_pass hrest, ?_⟩
    simp [TokenStream.comments_pass, Piece.comment?_eq_none hp.isSound]

/-- **The run shows the course.** A run over a text gives the tokens and comments of the row, and ends
as the course does. -/
theorem Course.run {source : String} (h : Course d source.toList ps rest e last) :
    (TokenStream.ofText d source).run.Shows ps e last := by
  generalize hs : TokenStream.ofText d source = s
  have hps : Cuts s.dialect s.cursor.rest ps rest := by
    subst hs
    exact h.cuts
  have hpos := TokenStream.pos_passAll hps
  have hending : Ending (s.passAll ps).dialect (s.passAll ps).cursor.rest (s.passAll ps).pos e last := by
    rw [TokenStream.dialect_passAll, TokenStream.rest_passAll hps, hpos]
    subst hs
    exact h.ending
  obtain ⟨htokens, hstop, hlast, hcomments⟩ := hending.run
  rw [TokenStream.comments_passAll hps] at hcomments
  have hrun := TokenStream.run_passAll hps
  subst hs
  constructor <;> rw [hrun]
  · simp [htokens, TokenStream.pos_ofText]
  · exact hcomments
  · exact hstop
  · exact hlast

theorem Course.lex_eq {source : String} (h : Course d source.toList ps rest e last) :
    lex d source = if e.isEnd then .ok (tokensAt Position.start ps) else .error e := by
  have hrun := h.run
  rw [lex_eq_run, hrun.tokens, hrun.stop]

theorem exists_course_of_lex_ok {source : String} {ts : List Token} (h : lex d source = .ok ts) :
    ∃ ps e last, Course d source.toList ps [] e last ∧ ts = tokensAt Position.start ps := by
  obtain ⟨ps, rest, e, last, hcourse⟩ := exists_course d source.toList
  rw [hcourse.lex_eq] at h
  by_cases hend : e.isEnd = true
  · obtain rfl := hcourse.ending.rest_eq_nil_iff.mpr hend
    rw [if_pos hend, Except.ok.injEq] at h
    exact ⟨ps, e, last, hcourse, h.symm⟩
  · simp [hend] at h

theorem exists_course_of_lex_error {source : String} (h : lex d source = .error e) :
    ∃ ps rest last, Course d source.toList ps rest e last ∧ rest ≠ [] := by
  obtain ⟨ps, rest, e', last, hcourse⟩ := exists_course d source.toList
  rw [hcourse.lex_eq] at h
  by_cases hend : e'.isEnd = true
  · simp [hend] at h
  · rw [if_neg hend, Except.error.injEq] at h
    subst h
    refine ⟨ps, rest, last, hcourse, ?_⟩
    rwa [Ne, hcourse.ending.rest_eq_nil_iff]

/-! ## The same text at another place -/

/-- The function goes along with every step, so it takes the positions of a text to the positions of the
same text at another place. -/
def IsShift (f : Position → Position) : Prop := ∀ (p : Position) (c : Char), f (p.step c) = (f p).step c

def Span.moved (f : Position → Position) (s : Span) : Span := ⟨f s.start, f s.stop⟩

def Token.moved (f : Position → Position) (t : Token) : Token := { t with span := t.span.moved f }

def Comment.moved (f : Position → Position) (c : Comment) : Comment := { c with span := c.span.moved f }

def ScanError.moved (f : Position → Position) (e : ScanError) : ScanError := { e with pos := f e.pos }

@[simp] theorem ScanError.isEnd_moved (f : Position → Position) (e : ScanError) :
    (e.moved f).isEnd = e.isEnd := rfl

section Shift

variable {f : Position → Position} (hf : IsShift f)
include hf

theorem IsShift.advance (p : Position) (text : List Char) : f (p.advance text) = (f p).advance text := by
  induction text generalizing p with
  | nil => rfl
  | cons c text ih => simp [ih, hf p c]

theorem IsShift.covering (p : Position) (text : List Char) :
    Span.covering (f p) text = (Span.covering p text).moved f := by
  simp [Span.covering, Span.moved, hf.advance]

theorem foundAt_shift {α : Type} {find : Piece → Position → Option α} {move : α → α}
    (hfind : ∀ p pos, find p (f pos) = (find p pos).map move) (pos : Position) (ps : List Piece) :
    foundAt find (f pos) ps = (foundAt find pos ps).map move := by
  induction ps generalizing pos with
  | nil => rfl
  | cons p ps ih =>
    rw [foundAt, foundAt, hfind, ← hf.advance, ih, List.map_append]
    cases find p pos <;> rfl

theorem tokensAt_shift (pos : Position) (ps : List Piece) :
    tokensAt (f pos) ps = (tokensAt pos ps).map (Token.moved f) := by
  rw [← foundAt_token?, ← foundAt_token?]
  refine foundAt_shift hf (fun p pos => ?_) pos ps
  cases p <;> simp [Piece.token?, Token.moved, hf.covering]

theorem commentsAt_shift (pos : Position) (ps : List Piece) :
    commentsAt (f pos) ps = (commentsAt pos ps).map (Comment.moved f) := by
  rw [← foundAt_comment?, ← foundAt_comment?]
  refine foundAt_shift hf (fun p pos => ?_) pos ps
  cases p <;> simp [Piece.comment?, Comment.moved, hf.covering]

theorem Ending.shift (h : Ending d rest pos e last) : Ending d rest (f pos) (e.moved f) (f last) := by
  cases h with
  | text => exact .text (f pos)
  | @flaw p after _ _ hp he =>
    rw [hf.advance]
    refine .flaw hp ?_
    cases p <;> simp only [Piece.outcome?, reduceCtorEq, Option.some.injEq, Except.error.injEq] at he ⊢ <;>
      subst he <;> simp [ScanError.moved, hf pos]

/-- The course of a text goes on behind any row of lexemes, each of its positions counted from there. -/
theorem Course.behind (h : Course d rest ps text e last) {front : List Char} (hqs : Cuts d front qs rest)
    (hstart : f Position.start = Position.start.advance (qs.flatMap Piece.text)) :
    Course d front (qs ++ ps) text (e.moved f) (f last) where
  cuts := hqs.append h.cuts
  ending := by
    rw [List.flatMap_append, Position.advance_append, ← hstart, ← hf.advance]
    exact h.ending.shift hf

end Shift

end BoardLang
