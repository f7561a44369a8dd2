import BoardLang.Proofs.Courses
import BoardLang.Proofs.Tiling
import BoardLang.Proofs.Transparency
import BoardLang.Proofs.TruePositions

/-!
# Newlines that end statements

The one choice that the language leaves open is whether a newline is a blank or a token. It decides
nothing else: where newlines end statements, a run gives the tokens that it gives elsewhere, and between
them one token for every newline outside of comments (`newlines_add_statement_ends`).

The two runs scan different numbers of tokens, so they are not compared scan by scan. They go over the
same row of pieces, in which a newline is now a token and was a blank (`Piece.withEnds`,
`Course.withEnds`). Which newlines become tokens is then counted along the row (`statementEnds_row`): a
line comment leaves its newline behind, a block comment swallows those inside it.
-/

namespace BoardLang

open CharClass

variable {d : Dialect} {p : Piece} {ps : List Piece} {text after rest source pre : List Char}
  {pos last : Position} {e : ScanError}

/-! ## Newlines outside of comments -/

/-- The newlines of `source` that are not `hidden`, by their offsets, among `size` characters from the
offset `first` on. -/
def openNewlines (source : List Char) (hidden : Nat → Bool) (first size : Nat) : List Nat :=
  (List.range' first size).filter fun i => decide (source[i]? = some '\n') && !hidden i

/-- Whether a comment holds the character with the offset `i`: one that the run has met, or the one
without an end that has stopped it. -/
def Run.hides (run : Run) (i : Nat) : Bool :=
  inComment run.final.comments i ||
    decide (run.stop.cause = .unclosedComment) && decide (run.stop.pos.offset ≤ i)

def statementEndAt (source : List Char) (i : Nat) : Token :=
  ⟨.statementEnd, "\n", Span.covering (Position.start.advance (source.take i)) ['\n']⟩

section OpenNewlines

variable {hidden hidden' : Nat → Bool} {first size : Nat}

theorem openNewlines_append (size' : Nat) :
    openNewlines source hidden first (size + size') =
      openNewlines source hidden first size ++ openNewlines source hidden (first + size) size' := by
  simp [openNewlines, ← List.range'_append_1]

theorem openNewlines_congr (h : ∀ i, first ≤ i → i < first + size → hidden i = hidden' i) :
    openNewlines source hidden first size = openNewlines source hidden' first size := by
  apply List.filter_congr
  intro i hi
  have hi := List.mem_range'_1.mp hi
  rw [h i hi.1 hi.2]

theorem openNewlines_eq_nil
    (h : ∀ i, first ≤ i → i < first + size → hidden i = true ∨ source[i]? ≠ some '\n') :
    openNewlines source hidden first size = [] := by
  apply List.filter_eq_nil_iff.mpr
  intro i hi
  have hi := List.mem_range'_1.mp hi
  rcases h i hi.1 hi.2 with h | h <;> simp [h]

/-- A text without newlines has none at its offsets, wherever it stands. -/
theorem getElem?_ne_newline {i : Nat} (h : '\n' ∉ text) (hle : pre.length ≤ i)
    (hlt : i < pre.length + text.length) : (pre ++ (text ++ rest))[i]? ≠ some '\n' := by
  rw [List.getElem?_append_right hle, List.getElem?_append_left (by omega)]
  intro hnewline
  exact h (List.mem_of_getElem? hnewline)

end OpenNewlines

/-! ## The row where newlines end statements -/

/-- The piece, as it is where newlines end statements. -/
def Piece.withEnds : Piece → Piece
  | .blank c => if c = '\n' then .token .statementEnd ['\n'] else .blank c
  | p => p

theorem text_withEnds (p : Piece) : p.withEnds.text = p.text := by
  cases p with
  | blank c =>
    by_cases hc : c = '\n'
    · simp [Piece.withEnds, hc, Piece.text]
    · simp [Piece.withEnds, hc]
  | _ => rfl

theorem flatMap_withEnds (ps : List Piece) :
    (ps.map Piece.withEnds).flatMap Piece.text = ps.flatMap Piece.text := by
  simp [List.flatMap_map, text_withEnds]

theorem commentsAt_withEnds (pos : Position) (ps : List Piece) :
    commentsAt pos (ps.map Piece.withEnds) = commentsAt pos ps := by
  induction ps generalizing pos with
  | nil => rfl
  | cons p ps ih =>
    have hcomment : p.withEnds.comment? pos = p.comment? pos := by
      cases p with
      | blank c => by_cases hc : c = '\n' <;> simp [Piece.withEnds, hc, Piece.comment?]
      | _ => rfl
    simp [commentsAt, hcomment, text_withEnds, ih]

theorem Lexeme.withEnds (h : Lexeme {} p after) : Lexeme ⟨true⟩ p.withEnds after := by
  cases h with
  | @blank c _ hc =>
    rcases hc with rfl | rfl | rfl | ⟨rfl, -⟩
    · exact .blank (Or.inl rfl)
    · exact .blank (Or.inr (Or.inl rfl))
    · exact .blank (Or.inr (Or.inr (Or.inl rfl)))
    · exact .newline rfl
  | lineComment hbody hafter => exact .lineComment hbody hafter
  | blockComment hfirst => exact .blockComment hfirst
  | int hne hdigits hafter => exact .int hne hdigits hafter
  | ident hc hword hafter => exact .ident hc hword hafter
  | delimiter hc => exact .delimiter hc
  | newline hd => exact .newline rfl
  | operator htext hafter => exact .operator htext hafter

/-- What is a flaw where newlines are blanks is a flaw where they are tokens. -/
theorem Flaw.withEnds (h : Flaw {} p after) : Flaw ⟨true⟩ p after := by
  cases h with
  | slash hafter => exact .slash hafter
  | unclosed hbody => exact .unclosed hbody
  | marks hc hrun hnone => exact .marks hc hrun hnone
  | stray hc =>
    refine .stray { hc with not_space := fun hspace => hc.not_space ?_ }
    rcases hspace with h | h | h | ⟨-, hd⟩
    · exact Or.inl h
    · exact Or.inr (Or.inl h)
    · exact Or.inr (Or.inr (Or.inl h))
    · contradiction

theorem Cuts.withEnds (h : Cuts {} text ps rest) : Cuts ⟨true⟩ text (ps.map Piece.withEnds) rest := by
  induction h with
  | done rest => exact .done rest
  | @piece p after rest ps hp _ ih =>
    rw [← text_withEnds p]
    exact .piece hp.withEnds ih

theorem Course.withEnds (h : Course {} text ps rest e last) :
    Course ⟨true⟩ text (ps.map Piece.withEnds) rest e last := by
  obtain ⟨hcuts, hending⟩ := h
  refine ⟨hcuts.withEnds, ?_⟩
  rw [flatMap_withEnds]
  generalize Position.start.advance (ps.flatMap Piece.text) = pos at hending
  cases hending with
  | text => exact .text _
  | flaw hp he => exact .flaw hp.withEnds he

/-! ## The tokens that are not new -/

/-- Only a newline ends a statement, and only where newlines do. -/
theorem Lexeme.statementEnd_iff {kind : TokenKind} (h : Lexeme d (.token kind text) after) :
    kind = .statementEnd ↔ d.newlineEndsStatement = true ∧ text = ['\n'] := by
  cases h with
  | @int digits _ hne hdigits _ =>
    simp only [reduceCtorEq, false_iff, not_and]
    rintro - rfl
    exact absurd (hdigits '\n' (by simp)) (by decide)
  | @ident c word _ hc _ _ =>
    simp only [reduceCtorEq, false_iff, not_and, List.cons.injEq]
    rintro - ⟨rfl, -⟩
    exact absurd hc (by decide)
  | delimiter hc =>
    have all : ∀ x ∈ delimiters, x.2 ≠ .statementEnd ∧ x.1 ≠ '\n' := by decide
    have hboth := all _ hc
    simp [hboth.1, hboth.2]
  | newline hd => simp [hd]
  | operator htext _ =>
    have all : ∀ x ∈ operators, x.2 ≠ .statementEnd ∧ x.1 ≠ ['\n'] := by decide
    have hboth := all _ htext
    simp [hboth.1, hboth.2]

theorem filter_tokensAt_withEnds (h : Cuts {} text ps rest) (pos : Position) :
    (tokensAt pos (ps.map Piece.withEnds)).filter (·.kind ≠ .statementEnd) = tokensAt pos ps := by
  induction h generalizing pos with
  | done rest => rfl
  | @piece p after rest ps hp _ ih =>
    have hfirst : (p.withEnds.token? pos).toList.filter (·.kind ≠ .statementEnd) =
        (p.token? pos).toList := by
      cases p with
      | blank c => by_cases hc : c = '\n' <;> simp [Piece.withEnds, hc, Piece.token?]
      | token kind text =>
        have hkind : kind ≠ .statementEnd := by simp [hp.statementEnd_iff]
        simp [Piece.withEnds, Piece.token?, hkind]
      | _ => rfl
    rw [List.map_cons, tokensAt_cons, List.filter_append, hfirst, text_withEnds, ih, tokensAt_cons]

/-! ## The tokens that are new -/

/-- Where newlines end statements, one stands in a lexeme only as that token or inside a comment. -/
theorem Lexeme.newline_cases (hp : Lexeme d p after) (hd : d.newlineEndsStatement = true) :
    p = .token .statementEnd ['\n'] ∨
      (p.isComment = true ∨ '\n' ∉ p.text) ∧
        ∀ pos, (p.token? pos).toList.filter (·.kind = .statementEnd) = [] := by
  cases p with
  | blank c =>
    refine Or.inr ⟨Or.inr ?_, fun pos => rfl⟩
    cases hp with
    | blank hc => rcases hc with rfl | rfl | rfl | ⟨-, hd'⟩ <;> simp_all [Piece.text]
  | comment style body => exact Or.inr ⟨Or.inl rfl, fun pos => rfl⟩
  | token kind text =>
    by_cases hkind : kind = .statementEnd
    · left
      rw [hkind, (hp.statementEnd_iff.mp hkind).2]
    · refine Or.inr ⟨Or.inr (hp.newline_not_mem hkind), fun pos => ?_⟩
      simp [Piece.token?, hkind]
  | slash => exact absurd hp.isSound Bool.false_ne_true
  | unclosed body => exact absurd hp.isSound Bool.false_ne_true
  | marks run => exact absurd hp.isSound Bool.false_ne_true
  | stray c => exact absurd hp.isSound Bool.false_ne_true

/-- The tokens that end statements in a row of lexemes are the newlines outside of its comments. -/
theorem statementEnds_row (hd : d.newlineEndsStatement = true) (h : Cuts d text ps rest)
    (pre : List Char) :
    (tokensAt (Position.start.advance pre) ps).filter (·.kind = .statementEnd) =
      (openNewlines (pre ++ text) (inComment (commentsAt (Position.start.advance pre) ps)) pre.length
        (ps.flatMap Piece.text).length).map (statementEndAt (pre ++ text)) := by
  induction h generalizing pre with
  | done rest => rfl
  | @piece p after rest ps hp _ ih =>
    have hoffset : (Position.start.advance pre).offset = pre.length := by
      simp [Position.start]
    have hinside : ∀ i, pre.length ≤ i → i < pre.length + p.text.length →
        inComment (commentsAt (Position.start.advance pre) (p :: ps)) i = p.isComment := by
      intro i hle hlt
      exact inComment_inside (by omega) (by omega) ps
    have hbehind : ∀ i, pre.length + p.text.length ≤ i →
        i < pre.length + p.text.length + (ps.flatMap Piece.text).length →
        inComment (commentsAt (Position.start.advance pre) (p :: ps)) i =
          inComment (commentsAt (Position.start.advance (pre ++ p.text)) ps) i := by
      intro i hle _
      rw [inComment_behind (by omega), Position.advance_append]
    have ih := ih (pre ++ p.text)
    rw [List.append_assoc, List.length_append, ← openNewlines_congr hbehind] at ih
    rw [tokensAt_cons, List.filter_append, ← Position.advance_append, ih, List.flatMap_cons,
      List.length_append, openNewlines_append, List.map_append]
    congr 1
    rcases hp.newline_cases hd with rfl | ⟨hhidden, hnone⟩
    · -- The piece is a newline; it is the only character of the stretch.
      have hopen := hinside pre.length (Nat.le_refl _) (by simp [Piece.text])
      simp [openNewlines, Piece.text, Piece.token?, statementEndAt, hopen, Piece.isComment]
    · rw [hnone, openNewlines_eq_nil, List.map_nil]
      intro i hle hlt
      rcases hhidden with hcomment | hnewline
      · exact Or.inl ((hinside i hle hlt).trans hcomment)
      · exact Or.inr (getElem?_ne_newline hnewline hle hlt)

/-- A flaw that covers a newline is a comment without an end. -/
theorem Flaw.newline_not_mem (h : Flaw d p after) (hp : ∀ body, p ≠ .unclosed body) : '\n' ∉ p.text := by
  cases h with
  | slash => simp [Piece.text]
  | unclosed => exact absurd rfl (hp _)
  | marks _ hrun _ =>
    intro hmem
    exact absurd (hrun.marks '\n' hmem).1 (by decide)
  | stray => simp [Piece.text]

/-- In the flaw that stops a run no newline is left open. -/
theorem openNewlines_flaw (hp : Flaw d p after) (he : p.outcome? pos = some (.error e)) {run : Run}
    (hstop : run.stop = e) (hpos : pos.offset = pre.length) :
    openNewlines (pre ++ (p.text ++ after)) run.hides pre.length p.text.length = [] := by
  apply openNewlines_eq_nil
  intro i hle hlt
  by_cases hunclosed : ∃ body, p = .unclosed body
  · obtain ⟨body, rfl⟩ := hunclosed
    obtain rfl : (⟨.unclosedComment, pos⟩ : ScanError) = e := by simpa [Piece.outcome?] using he
    left
    simp [Run.hides, hstop, hpos, hle]
  · right
    exact getElem?_ne_newline (hp.newline_not_mem fun body hbody => hunclosed ⟨body, hbody⟩) hle hlt

/-- The tokens that end statements in a run are the newlines that it has gone over outside of comments. -/
theorem Course.statementEnds (hd : d.newlineEndsStatement = true) (h : Course d text ps rest e last)
    {run : Run} (hrun : run.Shows ps e last) :
    run.tokens.filter (·.kind = .statementEnd) =
      (openNewlines text run.hides 0 last.offset).map (statementEndAt text) := by
  have hrow := statementEnds_row hd h.cuts []
  have htext := h.cuts.text_eq
  have hending := h.ending
  have hoffset : (Position.start.advance (ps.flatMap Piece.text)).offset = (ps.flatMap Piece.text).length := by
    simp [Position.start]
  -- In the row, only its comments hide newlines: the error comes behind it.
  have hsame : ∀ i, 0 ≤ i → i < 0 + (ps.flatMap Piece.text).length →
      inComment (commentsAt Position.start ps) i = run.hides i := by
    intro i _ hlt
    have hle := hending.offset_le
    have hstop : ¬ e.pos.offset ≤ i := by omega
    simp [Run.hides, hrun.comments, hrun.stop, hstop]
  rw [hrun.tokens]
  refine hrow.trans (congrArg (List.map _) ?_)
  show openNewlines text (inComment (commentsAt Position.start ps)) 0 _ = _
  rw [openNewlines_congr hsame]
  generalize Position.start.advance (ps.flatMap Piece.text) = pos at hending hoffset
  cases hending with
  | text => rw [hoffset]
  | flaw hp he =>
    rw [Position.offset_advance, hoffset, openNewlines_append, htext, Nat.zero_add,
      openNewlines_flaw hp he hrun.stop hoffset, List.append_nil]

/-! ## The two runs -/

theorem TokenStream.kind_ne_statementEnd_of_scan {s : TokenStream} {t : Token}
    (hd : s.dialect.newlineEndsStatement = false) (h : s.scan.1 = .ok t) : t.kind ≠ .statementEnd := by
  obtain ⟨ps, hps⟩ := s.exists_halt
  rcases scan_cases hps with ⟨-, hscan⟩ | ⟨p, o, hcut, ho, hscan⟩
  · simp [hscan] at h
  · rw [hscan] at h
    obtain rfl : o = .ok t := h
    obtain ⟨kind, text, rfl, rfl⟩ := Piece.outcome?_eq_ok ho
    obtain ⟨after, -, hp⟩ := lexeme_of_cut hcut rfl
    simp [hp.statementEnd_iff, hd]

/-- Where newlines are blanks, no scan ever gives the end of a statement, after errors neither. -/
theorem TokenStream.kind_ne_statementEnd_of_mem_answers {s : TokenStream} {t : Token} {n : Nat}
    (hd : s.dialect.newlineEndsStatement = false) (h : .ok t ∈ s.answers n) : t.kind ≠ .statementEnd := by
  induction n generalizing s with
  | zero => simp [answers] at h
  | succ n ih =>
    rcases List.mem_cons.mp h with h | h
    · exact kind_ne_statementEnd_of_scan hd h.symm
    · apply ih _ h
      rw [dialect_scan, hd]

/-- **Newlines that end statements.** Where newlines end statements, a run gives the same tokens, comments
and error as where they are blanks, and ends at the same place; only the ends of statements are new. These
are the newlines, in their order, that the run has gone over outside of comments, and of an unclosed
comment. Where newlines are blanks, no scan gives the end of a statement. -/
theorem newlines_add_statement_ends (source : String) :
    let plain := (TokenStream.ofText {} source).run
    let run := (TokenStream.ofText ⟨true⟩ source).run
    run.tokens.filter (·.kind ≠ .statementEnd) = plain.tokens ∧
      run.stop = plain.stop ∧ run.final.pos = plain.final.pos ∧
      run.final.comments = plain.final.comments ∧
      run.tokens.filter (·.kind = .statementEnd) =
        (openNewlines source.toList run.hides 0 run.final.pos.offset).map (statementEndAt source.toList) ∧
      ∀ n t, .ok t ∈ (TokenStream.ofText {} source).answers n → t.kind ≠ .statementEnd := by
  intro plain run
  obtain ⟨ps, rest, e, last, hcourse⟩ := exists_course {} source.toList
  have hplain : plain.Shows ps e last := hcourse.run
  have hrun : run.Shows (ps.map Piece.withEnds) e last := hcourse.withEnds.run
  refine ⟨?_, ?_, ?_, ?_, ?_, fun n t => TokenStream.kind_ne_statementEnd_of_mem_answers rfl⟩
  · rw [hrun.tokens, hplain.tokens, filter_tokensAt_withEnds hcourse.cuts]
  · rw [hrun.stop, hplain.stop]
  · rw [hrun.final, hplain.final]
  · rw [hrun.comments, hplain.comments, commentsAt_withEnds]
  · rw [hrun.final]
    exact hcourse.withEnds.statementEnds rfl hrun

/-- Of three newlines, one is in a comment, one in a comment without an end, and one ends a statement. -/
theorem newlines_add_one_statement_end :
    (TokenStream.ofText ⟨true⟩ "a/*\n*///\n/*\n").run.tokens.filter (·.kind = .statementEnd) =
      [⟨.statementEnd, "\n", ⟨⟨8, 1, 4⟩, ⟨9, 2, 0⟩⟩⟩] ∧
    (TokenStream.ofText {} "a/*\n*///\n/*\n").run.tokens = [⟨.ident, "a", ⟨⟨0, 0, 0⟩, ⟨1, 0, 1⟩⟩⟩] ∧
    (TokenStream.ofText {} "a/*\n*///\n/*\n").run.stop = ⟨.unclosedComment, ⟨9, 2, 0⟩⟩ ∧
    ∃ t, .ok t ∈ (TokenStream.ofText {} "a/*\n*///\n/*\n").answers 2 ∧ t.kind ≠ .statementEnd := by
  obtain ⟨htokens, hstop, -, -, hends, hnever⟩ := newlines_add_statement_ends "a/*\n*///\n/*\n"
  refine ⟨?_, ?_, ?_, ?_⟩
  · rw [hends]
    decide +kernel
  · rw [← htokens]
    decide +kernel
  · rw [← hstop]
    decide +kernel
  · have hmem : .ok ⟨.ident, "a", ⟨⟨0, 0, 0⟩, ⟨1, 0, 1⟩⟩⟩ ∈
        (TokenStream.ofText {} "a/*\n*///\n/*\n").answers 2 := by
      rw [TokenStream.answers, TokenStream.scan_outcome (p := .token .ident ['a']) rfl rfl]
      exact List.mem_cons_self
    exact ⟨_, hmem, hnever 2 _ hmem⟩

end BoardLang
