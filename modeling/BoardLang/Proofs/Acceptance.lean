import BoardLang.Proofs.Scanning

/-!
# Which texts are accepted

`lex` succeeds on the texts that are made of lexemes, and gives the tokens among them, each where it
stands (`lex_accepts_grammar`). There is at most one way to take a text apart, so no text has two
readings.
-/

namespace BoardLang

variable {p : Piece} {ps : List Piece} {rest : List Char}

namespace TokenStream

variable {s : TokenStream}

/-! ## Collecting -/

theorem collect_eq (s : TokenStream) :
    s.collect =
      match s.next? with
      | (none, _) => .ok []
      | (some (.error e), _) => .error e
      | (some (.ok t), s') => s'.collect.map (t :: ·) := by
  rw [collect]
  split <;> rename_i h <;> simp only [h]
  split <;> rename_i h' <;> simp only [h', Except.map]

theorem next?_ok {t : Token} {s' : TokenStream} (hs : s.finished = false) (h : s.scan = (.ok t, s')) :
    s.next? = (some (.ok t), s') := by
  simp only [next?, hs, h, Bool.false_eq_true, if_false]

theorem next?_error {e : ScanError} {s' : TokenStream} (hs : s.finished = false)
    (h : s.scan = (.error e, s')) :
    s.next? = (if e.isEnd then none else some (.error e), { s' with finished := true }) := by
  simp only [next?, hs, h, Bool.false_eq_true, if_false]

theorem collect_end (hs : s.finished = false) (h : s.cursor.rest = []) : s.collect = .ok [] := by
  rw [collect_eq, next?_error hs (scan_end h)]
  rfl

theorem collect_trivia (hs : s.finished = false) (h : Piece.cut s.dialect s.cursor.rest = some p)
    (hp : p.isTrivia = true) : s.collect = (s.pass p).collect := by
  have hnext : s.next? = (s.pass p).next? := by
    simp only [next?, finished_pass, hs, scan_trivia h hp, Bool.false_eq_true, if_false]
  rw [collect_eq, collect_eq (s.pass p), hnext]

theorem collect_token {t : Token} (hs : s.finished = false)
    (h : Piece.cut s.dialect s.cursor.rest = some p) (ho : p.outcome? s.pos = some (.ok t)) :
    s.collect = (s.pass p).collect.map (t :: ·) := by
  rw [collect_eq, next?_ok hs (scan_outcome h ho)]

theorem collect_flaw {e : ScanError} (hs : s.finished = false)
    (h : Piece.cut s.dialect s.cursor.rest = some p) (ho : p.outcome? s.pos = some (.error e)) :
    s.collect = .error e := by
  rw [collect_eq, next?_error hs (scan_outcome h ho), (Piece.outcome?_eq_error ho).2]
  rfl

/-- The tokens of a row of lexemes come first, then those of the rest. -/
theorem collect_passAll (hs : s.finished = false) (h : Cuts s.dialect s.cursor.rest ps rest) :
    s.collect = (s.passAll ps).collect.map (tokensAt s.pos ps ++ ·) := by
  generalize htext : s.cursor.rest = text at h
  generalize hd : s.dialect = d at h
  induction h generalizing s with
  | done rest => cases hc : s.collect <;> simp [hc, tokensAt, Except.map]
  | @piece p after rest ps hp _ ih =>
    have hcut := Piece.cut_of_lexeme hp
    rw [← htext, ← hd] at hcut
    have ih := ih (s := s.pass p) hs (rest_pass htext) hd
    rw [pos_pass htext] at ih
    rw [passAll_cons]
    have hsound := hp.isSound
    cases p with
    | blank c => exact (collect_trivia hs hcut rfl).trans ih
    | comment style body => exact (collect_trivia hs hcut rfl).trans ih
    | token kind text =>
      rw [collect_token hs hcut rfl, ih]
      cases (passAll _ ps).collect <;> rfl
    | slash => contradiction
    | unclosed body => contradiction
    | marks run => contradiction
    | stray c => contradiction

/-- A stream that has not been finished collects the tokens of the lexemes that the rest of its text
is made of, and fails if the rest is not made of lexemes. -/
theorem collect_eq_ok_iff (hs : s.finished = false) {ts : List Token} :
    s.collect = .ok ts ↔ ∃ ps, Cuts s.dialect s.cursor.rest ps [] ∧ tokensAt s.pos ps = ts := by
  constructor
  · intro h
    obtain ⟨ps, rest, hps, -, hstop⟩ :=
      Cuts.exists_longest s.dialect Piece.isSound (fun _ h => h) s.cursor.rest
    have hrest := rest_passAll hps
    have hs' : (s.passAll ps).finished = false := (finished_passAll s ps).trans hs
    rw [collect_passAll hs hps] at h
    cases hcut : Piece.cut s.dialect rest with
    | none =>
      obtain rfl := Piece.cut_eq_none_iff.mp hcut
      refine ⟨ps, hps, ?_⟩
      rw [collect_end hs' hrest] at h
      simpa [Except.map] using h
    | some p =>
      -- Behind the longest row of lexemes there is a flaw, and with it collecting fails.
      obtain ⟨e, he⟩ := Piece.exists_error (s.passAll ps).pos (hstop p hcut)
      rw [← hrest, ← dialect_passAll s ps] at hcut
      rw [collect_flaw hs' hcut he] at h
      contradiction
  · rintro ⟨ps, hps, rfl⟩
    have hs' : (s.passAll ps).finished = false := (finished_passAll s ps).trans hs
    rw [collect_passAll hs hps, collect_end hs' (rest_passAll hps), Except.map, List.append_nil]

end TokenStream

/-- **Accepted texts.** A text is accepted exactly if it is made of lexemes; the tokens are those
among the lexemes, each with its kind, its text and its place; and no text is made of lexemes in two
ways. -/
theorem lex_accepts_grammar (d : Dialect) (source : String) :
    (∀ ts, lex d source = .ok ts ↔
      ∃ ps, Cuts d source.toList ps [] ∧ tokensAt Position.start ps = ts) ∧
    ∀ ps qs, Cuts d source.toList ps [] → Cuts d source.toList qs [] → ps = qs :=
  ⟨fun _ => TokenStream.collect_eq_ok_iff (s := TokenStream.ofText d source) rfl,
    fun _ _ hps hqs => hps.unique hqs⟩

/-- A word, an operator up to a comment, and a number: the slash that ends the run of marks is a mark
itself. -/
theorem lex_accepts_commented_range :
    ∃ ps, Cuts ⟨true⟩ "_a.../**/12".toList ps [] ∧
      (∀ qs, Cuts ⟨true⟩ "_a.../**/12".toList qs [] → ps = qs) ∧
      lex ⟨true⟩ "_a.../**/12" =
        .ok [⟨.ident, "_a", ⟨⟨0, 0, 0⟩, ⟨2, 0, 2⟩⟩⟩, ⟨.ellipsis, "...", ⟨⟨2, 0, 2⟩, ⟨5, 0, 5⟩⟩⟩,
          ⟨.int, "12", ⟨⟨9, 0, 9⟩, ⟨11, 0, 11⟩⟩⟩] := by
  obtain ⟨haccepts, hunique⟩ := lex_accepts_grammar ⟨true⟩ "_a.../**/12"
  have hint : Lexeme ⟨true⟩ (.token .int ['1', '2']) [] :=
    .int (List.cons_ne_nil _ _) (List.all_eq_true.mp rfl) (fun _ h => nomatch h)
  have hcomment : Lexeme ⟨true⟩ (.comment .block []) ['1', '2'] := .blockComment (by simp)
  have hellipsis : Lexeme ⟨true⟩ (.token .ellipsis ['.', '.', '.']) "/**/12".toList := by
    refine .operator (by decide) ?_
    intro c _
    exact .inr (.inr ⟨.block, by decide⟩)
  have hword : Lexeme ⟨true⟩ (.token .ident ['_', 'a']) ".../**/12".toList :=
    .ident (by decide) (List.all_eq_true.mp (by decide)) (by rintro _ ⟨⟩; decide)
  have hcuts : Cuts ⟨true⟩ "_a.../**/12".toList
      [.token .ident ['_', 'a'], .token .ellipsis ['.', '.', '.'], .comment .block [],
        .token .int ['1', '2']] [] :=
    .piece hword (.piece hellipsis (.piece hcomment (.piece hint (.done []))))
  exact ⟨_, hcuts, fun qs hqs => hunique _ qs hcuts hqs, (haccepts _).mpr ⟨_, hcuts, by decide⟩⟩

end BoardLang
