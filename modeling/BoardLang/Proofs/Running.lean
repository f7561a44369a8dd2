import BoardLang.Proofs.Acceptance

/-!
# What a whole run does

`run` scans until the first failure. Said at once (`run_cases`): it goes over the longest row of
lexemes, gives the tokens among them, and stops at the end of the text or at the flaw behind the
row. What two runs have in common is then a question about rows of pieces, and no longer about scans.

* `run_passAll`: the tokens of a row of lexemes come first, then the run goes on behind it.
* `collect_eq_run`: `collect` gives the tokens of the run if the run gets to the end of the text, and
  the error that stops it otherwise.
* `offset_lt_stop`: every token of a run begins before the place where the run stops.
-/

namespace BoardLang

variable {p : Piece} {ps : List Piece} {rest : List Char} {pos : Position}

/-- The same run with more tokens before its own. -/
def Run.after (r : Run) (before : List Token) : Run := { r with tokens := before ++ r.tokens }

namespace Run

@[simp] theorem tokens_after (r : Run) (ts : List Token) : (r.after ts).tokens = ts ++ r.tokens := rfl

@[simp] theorem stop_after (r : Run) (ts : List Token) : (r.after ts).stop = r.stop := rfl

@[simp] theorem final_after (r : Run) (ts : List Token) : (r.after ts).final = r.final := rfl

@[simp] theorem after_nil (r : Run) : r.after [] = r := rfl

theorem after_after (r : Run) (ts us : List Token) : (r.after us).after ts = r.after (ts ++ us) := by
  simp [after]

end Run

/-! ## What is found in a row -/

def Piece.token? (p : Piece) (pos : Position) : Option Token :=
  match p with
  | .token kind text => some ⟨kind, String.ofList text, Span.covering pos text⟩
  | _ => none

theorem tokensAt_cons (pos : Position) (p : Piece) (ps : List Piece) :
    tokensAt pos (p :: ps) = (p.token? pos).toList ++ tokensAt (pos.advance p.text) ps := by
  cases p <;> rfl

/-- What `find` finds in pieces that stand in a row from `pos` on. Tokens and comments are found so, and
what holds of both is said of this. -/
def foundAt {α : Type} (find : Piece → Position → Option α) : Position → List Piece → List α
  | _, [] => []
  | pos, p :: ps => (find p pos).toList ++ foundAt find (pos.advance p.text) ps

theorem foundAt_token? (pos : Position) (ps : List Piece) :
    foundAt Piece.token? pos ps = tokensAt pos ps := by
  induction ps generalizing pos with
  | nil => rfl
  | cons p ps ih => rw [foundAt, ih, tokensAt_cons]

theorem foundAt_comment? (pos : Position) (ps : List Piece) :
    foundAt Piece.comment? pos ps = commentsAt pos ps := by
  induction ps generalizing pos with
  | nil => rfl
  | cons p ps ih => rw [foundAt, ih, commentsAt]

theorem foundAt_append {α : Type} (find : Piece → Position → Option α) (pos : Position)
    (ps qs : List Piece) :
    foundAt find pos (ps ++ qs) =
      foundAt find pos ps ++ foundAt find (pos.advance (ps.flatMap Piece.text)) qs := by
  induction ps generalizing pos with
  | nil => rfl
  | cons p ps ih => simp [foundAt, ih]

theorem tokensAt_append (pos : Position) (ps qs : List Piece) :
    tokensAt pos (ps ++ qs) = tokensAt pos ps ++ tokensAt (pos.advance (ps.flatMap Piece.text)) qs := by
  simp only [← foundAt_token?, foundAt_append]

theorem commentsAt_append (pos : Position) (ps qs : List Piece) :
    commentsAt pos (ps ++ qs) =
      commentsAt pos ps ++ commentsAt (pos.advance (ps.flatMap Piece.text)) qs := by
  simp only [← foundAt_comment?, foundAt_append]

theorem Piece.span_of_token? {t : Token} (h : p.token? pos = some t) : t.span = Span.covering pos p.text := by
  cases p <;> simp [token?] at h
  simp [← h, text]

theorem Piece.span_of_comment? {c : Comment} (h : p.comment? pos = some c) :
    c.span = Span.covering pos p.text := by
  cases p <;> simp [comment?] at h
  simp [← h]

theorem Piece.comment?_eq_none (h : p.isSound = false) : p.comment? pos = none := by
  cases p <;> first | rfl | contradiction

theorem length_commentsAt (pos : Position) (ps : List Piece) :
    (commentsAt pos ps).length = ps.countP Piece.isComment := by
  induction ps generalizing pos with
  | nil => rfl
  | cons p ps ih =>
    rw [commentsAt, List.length_append, ih, List.countP_cons, Nat.add_comm]
    cases p <;> rfl

namespace TokenStream

variable {s s' : TokenStream} {t : Token} {e : ScanError}

theorem pos_ofText (d : Dialect) (source : String) : (ofText d source).pos = Position.start := rfl

theorem rest_ofText (d : Dialect) (source : String) : (ofText d source).cursor.rest = source.toList := rfl

/-! ## One scan of a run -/

theorem run_eq (s : TokenStream) :
    s.run =
      match s.scan with
      | (.ok t, s') => s'.run.after [t]
      | (.error e, s') => ⟨[], e, s'⟩ := by
  rw [run]
  split <;> rename_i h <;> simp only [h]
  rfl

theorem run_ok (h : s.scan = (.ok t, s')) : s.run = s'.run.after [t] := by
  rw [run_eq, h]

theorem run_error (h : s.scan = (.error e, s')) : s.run = ⟨[], e, s'⟩ := by
  rw [run_eq, h]

/-- A stream that has not been finished collects the tokens of its run, unless an error other than
the end of the text stops the run. -/
theorem collect_eq_run (hs : s.finished = false) :
    s.collect = if s.run.stop.isEnd then .ok s.run.tokens else .error s.run.stop := by
  induction s using run.induct with
  | case1 s t s' h _ ih =>
    have hs' : s'.finished = false := by
      rw [← hs, ← finished_scan s, h]
    rw [collect_eq, next?_ok hs h, run_ok h]
    by_cases hend : s'.run.stop.isEnd = true <;> simp [ih hs', hend, Except.map]
  | case2 s e s' h =>
    rw [collect_eq, next?_error hs h, run_error h]
    cases e.isEnd <;> rfl

/-! ## A run over a row of pieces -/

theorem run_trivia (h : Piece.cut s.dialect s.cursor.rest = some p) (hp : p.isTrivia = true) :
    s.run = (s.pass p).run := by
  rw [run_eq, run_eq (s.pass p), scan_trivia h hp]

theorem run_end (h : s.cursor.rest = []) : s.run = ⟨[], ⟨.endOfInput, s.pos⟩, s⟩ :=
  run_error (scan_end h)

theorem run_flaw (h : Piece.cut s.dialect s.cursor.rest = some p)
    (ho : p.outcome? s.pos = some (.error e)) : s.run = ⟨[], e, s.pass p⟩ :=
  run_error (scan_outcome h ho)

theorem run_passAll (h : Cuts s.dialect s.cursor.rest ps rest) :
    s.run = (s.passAll ps).run.after (tokensAt s.pos ps) := by
  generalize htext : s.cursor.rest = text at h
  generalize hd : s.dialect = d at h
  induction h generalizing s with
  | done rest => exact (Run.after_nil _).symm
  | @piece p after rest ps hp _ ih =>
    have hcut := Piece.cut_of_lexeme hp
    rw [← htext, ← hd] at hcut
    have ih := ih (s := s.pass p) (rest_pass htext) hd
    rw [pos_pass htext] at ih
    rw [passAll_cons]
    have hsound := hp.isSound
    cases p with
    | blank c => exact (run_trivia hcut rfl).trans ih
    | comment style body => exact (run_trivia hcut rfl).trans ih
    | token kind text => rw [run_ok (scan_outcome hcut rfl), ih, Run.after_after]; rfl
    | slash => contradiction
    | unclosed body => contradiction
    | marks run => contradiction
    | stray c => contradiction

/-- **One run.** A run goes over the longest row of lexemes, gives the tokens among them and keeps the
comments. It stops behind the row, at the end of the text or at a flaw. -/
theorem run_cases (s : TokenStream) :
    ∃ ps, Cuts s.dialect s.cursor.rest ps (s.passAll ps).cursor.rest ∧
      s.run.final.comments = s.comments ++ commentsAt s.pos ps ∧
      (((s.passAll ps).cursor.rest = [] ∧
        s.run = ⟨tokensAt s.pos ps, ⟨.endOfInput, (s.passAll ps).pos⟩, s.passAll ps⟩) ∨
      ∃ p e, Piece.cut s.dialect (s.passAll ps).cursor.rest = some p ∧
        p.outcome? (s.passAll ps).pos = some (.error e) ∧
        s.run = ⟨tokensAt s.pos ps, e, (s.passAll ps).pass p⟩) := by
  obtain ⟨ps, rest, hps, -, hstop⟩ :=
    Cuts.exists_longest s.dialect Piece.isSound (fun _ h => h) s.cursor.rest
  have hrest := rest_passAll hps
  have hcomments := comments_passAll hps
  have hrun := run_passAll hps
  refine ⟨ps, hrest ▸ hps, ?_⟩
  cases hcut : Piece.cut s.dialect (s.passAll ps).cursor.rest with
  | none =>
    have hnil := Piece.cut_eq_none_iff.mp hcut
    rw [run_end hnil, Run.after, List.append_nil] at hrun
    rw [hrun]
    exact ⟨hcomments, Or.inl ⟨hnil, rfl⟩⟩
  | some p =>
    have hp := hstop p (hrest ▸ hcut)
    obtain ⟨e, he⟩ := Piece.exists_error (s.passAll ps).pos hp
    have hcut' := hcut
    rw [← dialect_passAll s ps] at hcut'
    rw [run_flaw hcut' he, Run.after, List.append_nil] at hrun
    rw [hrun, comments_pass, Piece.comment?_eq_none hp, hcomments]
    exact ⟨List.append_nil _, Or.inr ⟨p, e, rfl, he, rfl⟩⟩

end TokenStream

theorem lex_eq_run (d : Dialect) (source : String) :
    lex d source =
      if (TokenStream.ofText d source).run.stop.isEnd then .ok (TokenStream.ofText d source).run.tokens
      else .error (TokenStream.ofText d source).run.stop :=
  TokenStream.collect_eq_run rfl

/-! ## Where the tokens of a run lie -/

/-- The tokens of a row of lexemes begin before its end. -/
theorem Cuts.offset_lt_of_mem {d : Dialect} {text : List Char} {t : Token} (h : Cuts d text ps rest)
    (ht : t ∈ tokensAt pos ps) : t.span.start.offset < (pos.advance (ps.flatMap Piece.text)).offset := by
  induction h generalizing pos with
  | done rest => exact absurd ht List.not_mem_nil
  | @piece p after rest ps hp _ ih =>
    rw [tokensAt_cons] at ht
    rw [List.flatMap_cons, Position.advance_append]
    rcases List.mem_append.mp ht with ht | ht
    · cases p with
      | token kind text =>
        obtain rfl := List.mem_singleton.mp ht
        have hpos := List.length_pos_iff.mpr hp.text_ne_nil
        simp only [Span.start_covering, Position.offset_advance]
        omega
      | _ => exact absurd ht List.not_mem_nil
    · exact ih ht

/-- No error points before the piece that it comes from. -/
theorem Piece.offset_le_of_outcome?_eq_error {e : ScanError} (h : p.outcome? pos = some (.error e)) :
    pos.offset ≤ e.pos.offset := by
  cases p <;> simp [outcome?] at h <;> subst h <;> simp

/-- Every token of a run begins before the place of the error that stops the run. -/
theorem TokenStream.offset_lt_stop {s : TokenStream} {t : Token} (ht : t ∈ s.run.tokens) :
    t.span.start.offset < s.run.stop.pos.offset := by
  obtain ⟨ps, hps, -, ⟨-, hrun⟩ | ⟨p, e, -, ho, hrun⟩⟩ := s.run_cases
  · rw [hrun] at ht ⊢
    rw [pos_passAll hps]
    exact hps.offset_lt_of_mem ht
  · rw [hrun] at ht ⊢
    have hlt := hps.offset_lt_of_mem ht
    rw [← pos_passAll hps] at hlt
    exact Nat.lt_of_lt_of_le hlt (Piece.offset_le_of_outcome?_eq_error ho)

end BoardLang
