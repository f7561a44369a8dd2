import BoardLang.Proofs.Neighbours
import BoardLang.Proofs.Running

/-!
# Comments are transparent

Where the comments of a text are overwritten with blanks, a run reads the same tokens at the same
places and stops in the same way (`comments_are_transparent`). That holds for a text with a flaw as
well: the comments behind the flaw are never met, and stay.

The row of pieces that the first run goes over becomes a row of the second text by turning each
comment into blanks (`Piece.blanked`). It is a row of lexemes again (`Cuts.blanked`): a blank ends what
a comment ends, and in front of anything but a comment nothing changes. `Blanking` says what is needed
of the blanks, and which part of a position they keep.
-/

namespace BoardLang

open CharClass

variable {d : Dialect} {p : Piece} {ps : List Piece} {text after rest : List Char} {pos : Position}

/-! ## Overwriting comments -/

/-- Whether one of the comments holds the character with the offset `i`. -/
def inComment (comments : List Comment) (i : Nat) : Bool :=
  comments.any fun c => decide (c.span.start.offset ≤ i) && decide (i < c.span.stop.offset)

/-- The text, which begins at the offset `i`, with other characters at the offsets that are `hidden`. -/
def overwrite (blank : Char → Char) (hidden : Nat → Bool) : Nat → List Char → List Char
  | _, [] => []
  | i, c :: rest => (if hidden i then blank c else c) :: overwrite blank hidden (i + 1) rest

/-- The text with the comments overwritten that a run over it meets. -/
def withoutComments (d : Dialect) (blank : Char → Char) (source : String) : String :=
  String.ofList
    (overwrite blank (inComment (TokenStream.ofText d source).run.final.comments) 0 source.toList)

/-- A space instead of everything but a newline. -/
def spaceOrNewline (c : Char) : Char := if c = '\n' then '\n' else ' '

/-- Kind and text of a token, and as much of its place as `view` shows. -/
def Token.outline {α : Type} (view : Position → α) (t : Token) : TokenKind × String × α × α :=
  (t.kind, t.literal, view t.span.start, view t.span.stop)

/-- As far as `view` shows positions, `run'` is `run` without its comments. -/
structure SameButComments {α : Type} (view : Position → α) (run run' : Run) : Prop where
  tokens : run'.tokens.map (Token.outline view) = run.tokens.map (Token.outline view)
  cause : run'.stop.cause = run.stop.cause
  stop : view run'.stop.pos = view run.stop.pos
  final : view run'.final.pos = view run.final.pos
  comments : run'.final.comments = []

section Overwrite

variable {blank : Char → Char} {hidden hidden' : Nat → Bool}

theorem overwrite_append (i : Nat) (a b : List Char) :
    overwrite blank hidden i (a ++ b) =
      overwrite blank hidden i a ++ overwrite blank hidden (i + a.length) b := by
  induction a generalizing i with
  | nil => rfl
  | cons c a ih =>
    have hi : i + (a.length + 1) = i + 1 + a.length := by omega
    rw [List.cons_append, overwrite, ih, overwrite, List.length_cons, hi, List.cons_append]

theorem overwrite_congr {i : Nat} (h : ∀ j, i ≤ j → j < i + text.length → hidden j = hidden' j) :
    overwrite blank hidden i text = overwrite blank hidden' i text := by
  induction text generalizing i with
  | nil => rfl
  | cons c rest ih =>
    rw [List.length_cons] at h
    rw [overwrite, overwrite, h i (by omega) (by omega), ih fun j hj hlt => h j (by omega) (by omega)]

theorem overwrite_all (i : Nat) (text : List Char) :
    overwrite blank (fun _ => true) i text = text.map blank := by
  induction text generalizing i with
  | nil => rfl
  | cons c rest ih => rw [overwrite, ih, if_pos rfl, List.map_cons]

theorem overwrite_none (i : Nat) (text : List Char) : overwrite blank (fun _ => false) i text = text := by
  induction text generalizing i with
  | nil => rfl
  | cons c rest ih => rw [overwrite, ih, if_neg Bool.false_ne_true]

end Overwrite

/-! ## The row of the text without comments -/

/-- The pieces of the overwritten text where the text has the piece `p`. -/
def Piece.blanked (blank : Char → Char) (p : Piece) : List Piece :=
  if p.isComment then p.text.map fun c => .blank (blank c) else [p]

theorem inComment_iff {comments : List Comment} {i : Nat} :
    inComment comments i = true ↔
      ∃ c ∈ comments, c.span.start.offset ≤ i ∧ i < c.span.stop.offset := by
  simp [inComment]

theorem inComment_piece (p : Piece) (pos : Position) (i : Nat) :
    inComment (p.comment? pos).toList i =
      (p.isComment && decide (pos.offset ≤ i) && decide (i < pos.offset + p.text.length)) := by
  rw [Bool.eq_iff_iff, inComment_iff]
  cases p <;> simp [Piece.comment?, Piece.isComment]

theorem inComment_cons (pos : Position) (p : Piece) (ps : List Piece) (i : Nat) :
    inComment (commentsAt pos (p :: ps)) i =
      (inComment (p.comment? pos).toList i || inComment (commentsAt (pos.advance p.text) ps) i) :=
  List.any_append

/-- No comment of a row covers what comes before the row. -/
theorem inComment_before {i : Nat} (h : i < pos.offset) (ps : List Piece) :
    inComment (commentsAt pos ps) i = false := by
  induction ps generalizing pos with
  | nil => rfl
  | cons p ps ih =>
    have hafter : i < (pos.advance p.text).offset := by
      rw [Position.offset_advance]
      omega
    have hle : ¬ pos.offset ≤ i := Nat.not_le.mpr h
    rw [inComment_cons, ih hafter, inComment_piece]
    simp [hle]

/-- The first piece of a row is covered if it is a comment. -/
theorem inComment_inside {i : Nat} (hle : pos.offset ≤ i) (hlt : i < pos.offset + p.text.length)
    (ps : List Piece) : inComment (commentsAt pos (p :: ps)) i = p.isComment := by
  have hafter : i < (pos.advance p.text).offset := by rwa [Position.offset_advance]
  rw [inComment_cons, inComment_before hafter, inComment_piece]
  simp [hle, hlt]

theorem inComment_behind {i : Nat} (hle : pos.offset + p.text.length ≤ i) (ps : List Piece) :
    inComment (commentsAt pos (p :: ps)) i = inComment (commentsAt (pos.advance p.text) ps) i := by
  have hlt : ¬ i < pos.offset + p.text.length := Nat.not_lt.mpr hle
  rw [inComment_cons, inComment_piece]
  simp [hlt]

theorem text_blanked (blank : Char → Char) (p : Piece) :
    (p.blanked blank).flatMap Piece.text = if p.isComment then p.text.map blank else p.text := by
  unfold Piece.blanked
  split
  · rw [List.flatMap_map]
    exact List.map_eq_flatMap.symm
  · exact List.flatMap_singleton ..

theorem isComment_row (blank : Char → Char) (ps : List Piece) :
    ∀ q ∈ ps.flatMap (Piece.blanked blank), q.isComment = false := by
  intro q hq
  obtain ⟨p, -, hq⟩ := List.mem_flatMap.mp hq
  unfold Piece.blanked at hq
  split at hq
  · obtain ⟨c, -, rfl⟩ := List.mem_map.mp hq
    rfl
  · obtain rfl := List.mem_singleton.mp hq
    simpa using ‹¬ q.isComment = true›

/-- Overwriting the comments of a row turns its pieces into blanks and leaves what comes behind. -/
theorem overwrite_row (blank : Char → Char) (pos : Position) (ps : List Piece) (rest : List Char) :
    overwrite blank (inComment (commentsAt pos ps)) pos.offset (ps.flatMap Piece.text ++ rest) =
      (ps.flatMap (Piece.blanked blank)).flatMap Piece.text ++ rest := by
  induction ps generalizing pos with
  | nil => exact overwrite_none _ _
  | cons p ps ih =>
    have hfront : overwrite blank (inComment (commentsAt pos (p :: ps))) pos.offset p.text =
        (p.blanked blank).flatMap Piece.text := by
      rw [overwrite_congr fun i hle hlt => inComment_inside hle hlt ps, text_blanked]
      cases p.isComment with
      | true => exact overwrite_all _ _
      | false => exact overwrite_none _ _
    have hback := ih (pos.advance p.text)
    rw [Position.offset_advance, ← overwrite_congr fun i hle _ => inComment_behind hle ps] at hback
    rw [List.flatMap_cons, List.append_assoc, overwrite_append, hfront, hback, List.flatMap_cons,
      List.flatMap_append, List.append_assoc]

/-! ## It is a row of lexemes -/

section Blanks

variable {blank : Char → Char} (hblank : ∀ c, IsSpace d (blank c))
include hblank

theorem Cuts.blanks (cs : List Char) (h : Cuts d text ps rest) :
    Cuts d (cs.map blank ++ text) ((cs.map fun c => .blank (blank c)) ++ ps) rest := by
  induction cs with
  | nil => exact h
  | cons c cs ih => exact .piece (.blank (hblank c)) ih

/-- A lexeme that is no comment stays one where the comments behind it are overwritten. -/
theorem Lexeme.blanked (hp : Lexeme d p after) (hcomment : p.isComment = false)
    (hps : Cuts d after ps rest) :
    Lexeme d p ((ps.flatMap (Piece.blanked blank)).flatMap Piece.text ++ rest) := by
  cases hps with
  | done rest => exact hp
  | @piece q after rest ps hq hps =>
    obtain ⟨x, tail, hx⟩ := List.exists_cons_of_ne_nil hq.text_ne_nil
    refine hp.replace_after hcomment fun c hc => ?_
    rw [List.flatMap_cons, List.flatMap_append, text_blanked, hx] at hc
    cases hqc : q.isComment with
    | true =>
      obtain rfl : blank x = c := by simpa [hqc] using hc
      exact Or.inl (hblank x).keepsApart
    | false =>
      obtain rfl : x = c := by simpa [hqc] using hc
      refine Or.inr ⟨by simp [hx], fun hopens => ?_⟩
      rw [hq.isComment_of_opens hopens] at hqc
      contradiction

theorem Cuts.blanked (h : Cuts d text ps rest) :
    Cuts d ((ps.flatMap (Piece.blanked blank)).flatMap Piece.text ++ rest)
      (ps.flatMap (Piece.blanked blank)) rest := by
  induction h with
  | done rest => exact .done rest
  | @piece p after rest ps hp hps ih =>
    rw [List.flatMap_cons, List.flatMap_append, text_blanked, List.append_assoc, Piece.blanked]
    cases hcomment : p.isComment with
    | true => exact ih.blanks hblank p.text
    | false => exact .piece (hp.blanked hblank hcomment hps) ih

end Blanks

/-! ## The two runs -/

/-- The blanks keep tokens apart, and `view` does not tell them from the characters they replace. -/
structure Blanking {α : Type} (d : Dialect) (blank : Char → Char) (view : Position → α) : Prop where
  space : ∀ c, IsSpace d (blank c)
  step : ∀ {p q : Position} (c : Char), view p = view q → view (p.step c) = view (q.step c)
  step_blank : ∀ (p : Position) (c : Char), view (p.step (blank c)) = view (p.step c)

theorem commentsAt_eq_nil (h : ∀ p ∈ ps, p.isComment = false) (pos : Position) :
    commentsAt pos ps = [] := by
  rw [← List.length_eq_zero_iff, length_commentsAt, List.countP_eq_zero]
  simpa using h

theorem tokensAt_blanks {blank : Char → Char} (pos : Position) (cs : List Char) :
    tokensAt pos (cs.map fun c => .blank (blank c)) = [] := by
  induction cs generalizing pos with
  | nil => rfl
  | cons c cs ih => exact ih _

namespace Blanking

variable {α : Type} {view : Position → α} {blank : Char → Char} {pos' : Position}

theorem advance (h : Blanking d blank view) (hpos : view pos' = view pos) (text : List Char) :
    view (pos'.advance text) = view (pos.advance text) := by
  induction text generalizing pos pos' with
  | nil => exact hpos
  | cons c text ih => exact ih (h.step c hpos)

theorem advance_blanked (h : Blanking d blank view) (hpos : view pos' = view pos) (p : Piece) :
    view (pos'.advance ((p.blanked blank).flatMap Piece.text)) = view (pos.advance p.text) := by
  rw [text_blanked]
  split
  · generalize p.text = text
    induction text generalizing pos pos' with
    | nil => exact hpos
    | cons c text ih => exact ih ((h.step_blank pos' c).trans (h.step c hpos))
  · exact h.advance hpos p.text

theorem advance_row (h : Blanking d blank view) (hpos : view pos' = view pos) (ps : List Piece) :
    view (pos'.advance ((ps.flatMap (Piece.blanked blank)).flatMap Piece.text)) =
      view (pos.advance (ps.flatMap Piece.text)) := by
  induction ps generalizing pos pos' with
  | nil => exact hpos
  | cons p ps ih =>
    rw [List.flatMap_cons, List.flatMap_append, Position.advance_append, List.flatMap_cons,
      Position.advance_append]
    exact ih (h.advance_blanked hpos p)

theorem outline_piece (h : Blanking d blank view) (hpos : view pos' = view pos) (p : Piece) :
    (tokensAt pos' (p.blanked blank)).map (Token.outline view) =
      (p.token? pos).toList.map (Token.outline view) := by
  cases p with
  | comment style body => exact congrArg (List.map _) (tokensAt_blanks pos' _)
  | token kind text =>
    have hstop := h.advance hpos text
    simp [Piece.blanked, Piece.isComment, tokensAt, Piece.token?, Token.outline, hpos, hstop]
  | _ => rfl

theorem outline_row (h : Blanking d blank view) (hpos : view pos' = view pos) (ps : List Piece) :
    (tokensAt pos' (ps.flatMap (Piece.blanked blank))).map (Token.outline view) =
      (tokensAt pos ps).map (Token.outline view) := by
  induction ps generalizing pos pos' with
  | nil => rfl
  | cons p ps ih =>
    rw [List.flatMap_cons, tokensAt_append, List.map_append, h.outline_piece hpos p,
      ih (h.advance_blanked hpos p), tokensAt_cons, List.map_append]

/-- A flaw gives the same error at every place that looks the same. -/
theorem exists_error (h : Blanking d blank view) (hpos : view pos' = view pos) {e : ScanError}
    (he : p.outcome? pos = some (.error e)) :
    ∃ e', p.outcome? pos' = some (.error e') ∧ e'.cause = e.cause ∧ view e'.pos = view e.pos := by
  cases p <;> simp only [Piece.outcome?, reduceCtorEq, Option.some.injEq, Except.error.injEq] at he
  case slash =>
    subst he
    exact ⟨_, rfl, rfl, h.step '/' hpos⟩
  all_goals
    subst he
    exact ⟨_, rfl, rfl, hpos⟩

/-- **Two runs.** A stream over the rest of a text without its comments does what a stream over the
rest of the text does. -/
theorem run {s s' : TokenStream} (h : Blanking d blank view) (hd : s.dialect = d) (hd' : s'.dialect = d)
    (hpos : view s'.pos = view s.pos) (hs : s.comments = []) (hs' : s'.comments = [])
    (hrest' : s'.cursor.rest =
      overwrite blank (inComment s.run.final.comments) s.pos.offset s.cursor.rest) :
    SameButComments view s.run s'.run := by
  obtain ⟨ps, hps, hcomments, hrun⟩ := s.run_cases
  rw [hcomments, hs, List.nil_append, hps.text_eq, overwrite_row] at hrest'
  rw [hd] at hps hrun
  have hps' := hps.blanked h.space
  rw [← hrest', ← hd'] at hps'
  -- Both streams have passed their rows and are at the same text.
  have hsame := TokenStream.rest_passAll hps'
  have hrun' := TokenStream.run_passAll hps'
  have htokens := h.outline_row hpos ps
  have hnone : (s'.passAll (ps.flatMap (Piece.blanked blank))).comments = [] := by
    rw [TokenStream.comments_passAll hps', hs', List.nil_append]
    exact commentsAt_eq_nil (isComment_row blank ps) _
  have hplace : view (s'.passAll (ps.flatMap (Piece.blanked blank))).pos = view (s.passAll ps).pos := by
    rw [TokenStream.pos_passAll hps', TokenStream.pos_passAll hps]
    exact h.advance_row hpos ps
  rcases hrun with ⟨hnil, hrun⟩ | ⟨p, e, hcut, ho, hrun⟩
  · rw [TokenStream.run_end (hsame.trans hnil), Run.after, List.append_nil] at hrun'
    rw [hrun, hrun']
    exact ⟨htokens, rfl, hplace, hplace, hnone⟩
  · obtain ⟨e', ho', hcause, hstop⟩ := h.exists_error hplace ho
    obtain ⟨after, hafter⟩ := Piece.text_isPrefix_of_cut hcut
    have hcut' := hcut
    rw [← hsame, ← hd', ← TokenStream.dialect_passAll s'] at hcut'
    rw [TokenStream.run_flaw hcut' ho', Run.after, List.append_nil] at hrun'
    rw [hrun, hrun']
    refine ⟨htokens, hcause, hstop, ?_, ?_⟩
    · rw [TokenStream.pos_pass hafter.symm, TokenStream.pos_pass (hsame.trans hafter.symm)]
      exact h.advance hplace p.text
    · rw [TokenStream.comments_pass, Piece.comment?_eq_none (Piece.outcome?_eq_error ho).1, hnone]
      rfl

theorem run_withoutComments (h : Blanking d blank view) (source : String) :
    SameButComments view (TokenStream.ofText d source).run
      (TokenStream.ofText d (withoutComments d blank source)).run := by
  refine Blanking.run h rfl rfl ?_ rfl rfl ?_
  · rw [TokenStream.pos_ofText, TokenStream.pos_ofText]
  · rw [TokenStream.rest_ofText, withoutComments, String.toList_ofList]
    rfl

end Blanking

/-! ## The two dialects -/

/-- Spaces and newlines keep all of every position, if newlines are blanks. -/
theorem blanking_spaceOrNewline : Blanking {} spaceOrNewline id where
  space := by
    intro c
    unfold spaceOrNewline
    split
    · exact Or.inr (Or.inr (Or.inr ⟨rfl, rfl⟩))
    · exact Or.inl rfl
  step := fun c hpq => congrArg (Position.step · c) hpq
  step_blank := by
    intro p c
    unfold spaceOrNewline
    split
    · rename_i hc
      rw [hc]
    · rename_i hc
      simp [Position.step, hc]

/-- Spaces keep the offset of every position. -/
theorem blanking_space (d : Dialect) : Blanking d (fun _ => ' ') Position.offset where
  space := fun _ => Or.inl rfl
  step := by
    intro p q c hpq
    rw [Position.offset_step, Position.offset_step, hpq]
  step_blank := by
    intro p c
    rw [Position.offset_step, Position.offset_step]

theorem Token.eq_of_outline_id {t u : Token} (h : t.outline id = u.outline id) : t = u := by
  obtain ⟨kind, literal, start, stop⟩ := t
  obtain ⟨kind', literal', start', stop'⟩ := u
  simpa [Token.outline] using h

/-- **Comments are transparent.** Where newlines are blanks, overwriting the comments with spaces and
keeping their newlines changes neither the tokens of a run nor where and why it stops. Where newlines
end statements, the newlines have to go as well; the lines of what follows change then, and the offsets
do not. -/
theorem comments_are_transparent (source : String) :
    (let run := (TokenStream.ofText {} source).run
      let run' := (TokenStream.ofText {} (withoutComments {} spaceOrNewline source)).run
      run'.tokens = run.tokens ∧ run'.stop = run.stop ∧ run'.final.pos = run.final.pos ∧
        run'.final.comments = []) ∧
    (let run := (TokenStream.ofText ⟨true⟩ source).run
      let run' := (TokenStream.ofText ⟨true⟩ (withoutComments ⟨true⟩ (fun _ => ' ') source)).run
      run'.tokens.map (Token.outline Position.offset) = run.tokens.map (Token.outline Position.offset) ∧
        run'.stop.cause = run.stop.cause ∧ run'.stop.pos.offset = run.stop.pos.offset ∧
        run'.final.pos.offset = run.final.pos.offset ∧ run'.final.comments = []) := by
  constructor
  · have h := blanking_spaceOrNewline.run_withoutComments source
    have htokens := (List.map_inj_right fun _ _ => Token.eq_of_outline_id).mp h.tokens
    have hstop := congr (congrArg ScanError.mk h.cause) h.stop
    exact ⟨htokens, hstop, h.final, h.comments⟩
  · have h := (blanking_space ⟨true⟩).run_withoutComments source
    exact ⟨h.tokens, h.cause, h.stop, h.final, h.comments⟩

end BoardLang
