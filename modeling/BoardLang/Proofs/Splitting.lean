import BoardLang.Proofs.Courses

/-!
# Texts split behind a token

A run keeps nothing in mind from one token to the next but the place where it stands. So a text can be
split behind any of its tokens (`lex_splits_behind_token`): the first part is accepted and has the tokens
up to there, and a new run over the second part gives the tokens that are left and stops with the same
error, each position counted from the place of the split.

The pieces up to the token are a row that also stands alone (`Cuts.lex_alone`), since the end of the text ends
whatever the second part ended. The course of the second part goes on behind this row.
-/

namespace BoardLang

variable {d : Dialect} {qs ps : List Piece} {text rest : List Char}

/-! ## Positions counted from another place -/

/-- The position `p` of a text that begins at `base`: only its first line shares a line with what comes
before. -/
def Position.countedFrom (base p : Position) : Position :=
  ⟨p.offset + base.offset, p.line + base.line, if p.line = 0 then p.column + base.column else p.column⟩

theorem isShift_countedFrom (base : Position) : IsShift base.countedFrom := by
  intro p c
  by_cases hc : c = '\n'
  · simp [Position.countedFrom, Position.step, hc]
    omega
  · by_cases hline : p.line = 0
    · simp [Position.countedFrom, Position.step, hc, hline]
      omega
    · simp [Position.countedFrom, Position.step, hc, hline]
      omega

theorem countedFrom_start (base : Position) : base.countedFrom Position.start = base := by
  simp [Position.countedFrom, Position.start]

/-! ## The two parts -/

/-- The pieces of a row up to its `k`-th token end where this token does. -/
theorem exists_row_to_token {pos : Position} {t : Token} {k : Nat} (ht : (tokensAt pos ps)[k]? = some t) :
    ∃ qs rs, ps = qs ++ rs ∧ (tokensAt pos qs).length = k + 1 ∧
      pos.advance (qs.flatMap Piece.text) = t.span.stop := by
  induction ps generalizing pos k with
  | nil => simp [tokensAt] at ht
  | cons p ps ih =>
    rw [tokensAt_cons] at ht
    cases htoken : p.token? pos with
    | none =>
      rw [htoken] at ht
      obtain ⟨qs, rs, rfl, hlen, hstop⟩ := ih ht
      refine ⟨p :: qs, rs, rfl, ?_, ?_⟩
      · rw [tokensAt_cons, htoken]
        exact hlen
      · simpa using hstop
    | some u =>
      rw [htoken] at ht
      cases k with
      | zero =>
        obtain rfl : u = t := by simpa using ht
        refine ⟨[p], ps, rfl, ?_, ?_⟩
        · simp [tokensAt_cons, htoken, tokensAt]
        · simp [Piece.span_of_token? htoken]
      | succ k =>
        obtain ⟨qs, rs, rfl, hlen, hstop⟩ := ih (by simpa using ht)
        refine ⟨p :: qs, rs, rfl, ?_, ?_⟩
        · simp [tokensAt_cons, htoken, hlen, Nat.add_comm]
        · simpa using hstop

/-- The text of a row of lexemes, without what comes behind it, is accepted. -/
theorem Cuts.lex_alone {source : String} (h : Cuts d text qs rest)
    (hsource : source.toList = qs.flatMap Piece.text) : lex d source = .ok (tokensAt Position.start qs) := by
  have halone := h.replace_rest (endsToo_nil rest)
  rw [List.append_nil, ← hsource] at halone
  have hcourse : Course d source.toList qs [] _ _ := ⟨halone, .text _⟩
  rw [hcourse.lex_eq]
  rfl

/-- **Splitting.** Behind any token of a run the text can be split. The first part is accepted with the
tokens up to there. A new run over the second part gives the tokens and the error that are left, its
positions counted from the end of the token. -/
theorem lex_splits_behind_token (d : Dialect) (source : String) (k : Nat) (t : Token)
    (ht : (TokenStream.ofText d source).run.tokens[k]? = some t) :
    let run := (TokenStream.ofText d source).run
    let first := String.ofList (source.toList.take t.span.stop.offset)
    let second := String.ofList (source.toList.drop t.span.stop.offset)
    let fresh := (TokenStream.ofText d second).run
    lex d first = .ok (run.tokens.take (k + 1)) ∧
      fresh.tokens.map (Token.moved t.span.stop.countedFrom) = run.tokens.drop (k + 1) ∧
      fresh.stop.moved t.span.stop.countedFrom = run.stop := by
  intro run first second fresh
  obtain ⟨ps, rest, e, last, hcourse⟩ := exists_course d source.toList
  rw [hcourse.run.tokens] at ht
  obtain ⟨qs, rs, rfl, hlen, hstop⟩ := exists_row_to_token ht
  obtain ⟨after, hqs, -⟩ := hcourse.cuts.of_append
  have hoffset : t.span.stop.offset = (qs.flatMap Piece.text).length := by
    rw [← hstop, Position.offset_advance, Position.start, Nat.zero_add]
  have hfirst : first.toList = qs.flatMap Piece.text := by
    simp [first, hqs.text_eq, hoffset]
  have hsecond : second.toList = after := by
    simp [second, hqs.text_eq, hoffset]
  -- The course of the second part, behind the row of the first, is the course of the whole text.
  obtain ⟨ps', rest', e', last', hfresh⟩ := exists_course d second.toList
  have hstart : t.span.stop.countedFrom Position.start = Position.start.advance (qs.flatMap Piece.text) := by
    rw [countedFrom_start, hstop]
  have hshift := isShift_countedFrom t.span.stop
  have hwhole := hfresh.behind hshift (hsecond ▸ hqs) hstart
  have hrun : run.Shows (qs ++ ps') (e'.moved t.span.stop.countedFrom) (t.span.stop.countedFrom last') :=
    hwhole.run
  have htokens : run.tokens = tokensAt Position.start qs ++
      (tokensAt Position.start ps').map (Token.moved t.span.stop.countedFrom) := by
    rw [hrun.tokens, tokensAt_append, ← hstart, tokensAt_shift hshift]
  refine ⟨?_, ?_, ?_⟩
  · rw [hqs.lex_alone hfirst, htokens, ← hlen, List.take_left]
  · rw [htokens, ← hlen, List.drop_left, hfresh.run.tokens]
  · rw [hrun.stop, hfresh.run.stop]

/-- The split is inside a line, so the columns of what is left on that line are counted from it. -/
theorem lex_splits_inside_line :
    lex {} "a\nb" = .ok [⟨.ident, "a", ⟨⟨0, 0, 0⟩, ⟨1, 0, 1⟩⟩⟩, ⟨.ident, "b", ⟨⟨2, 1, 0⟩, ⟨3, 1, 1⟩⟩⟩] ∧
    (TokenStream.ofText {} "a\nb c\n/").run.tokens.drop 2 = [⟨.ident, "c", ⟨⟨4, 1, 2⟩, ⟨5, 1, 3⟩⟩⟩] ∧
    (TokenStream.ofText {} "a\nb c\n/").run.stop = ⟨.format, ⟨7, 2, 1⟩⟩ := by
  obtain ⟨hfirst, htokens, hstop⟩ :=
    lex_splits_behind_token {} "a\nb c\n/" 1 ⟨.ident, "b", ⟨⟨2, 1, 0⟩, ⟨3, 1, 1⟩⟩⟩ (by decide +kernel)
  refine ⟨?_, ?_, ?_⟩
  · exact hfirst.trans (congrArg Except.ok (by decide +kernel))
  · rw [← htokens]
    decide +kernel
  · rw [← hstop]
    decide +kernel

end BoardLang
