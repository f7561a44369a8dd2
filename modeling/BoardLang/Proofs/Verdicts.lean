import BoardLang.Proofs.Scanning

/-!
# When a scan fails

A scan drops blanks and comments from the front of what is left of the text, as many as there are,
and what then remains decides everything: whether it fails, why, where, and with which token it
answers otherwise. `Verdict` lists the cases and `scan_answers_verdict` proves them for every stream
that scans can lead to, after errors as well.
-/

namespace BoardLang

open CharClass

variable {d : Dialect} {p : Piece} {ps : List Piece} {text rest after : List Char} {pos here : Position}

/-- What is left of `text` behind the longest row of blanks and comments. -/
structure AfterTrivia (d : Dialect) (text rest : List Char) : Prop where
  row : ∃ ps, Cuts d text ps rest ∧ ∀ p ∈ ps, p.isTrivia = true
  longest : ∀ ps rest', Cuts d text ps rest' → (∀ p ∈ ps, p.isTrivia = true) →
    rest.length ≤ rest'.length

/-- The position in `source` at which its last characters `rest` begin. -/
def placeOf (source rest : List Char) : Position :=
  Position.start.advance (source.take (source.length - rest.length))

/-- What a scan has to answer when `rest` is left of `source` behind the blanks and comments. -/
structure Verdict (d : Dialect) (source rest : List Char) (answer : Except ScanError Token) : Prop where
  endOfInput : ∀ pos, answer = .error ⟨.endOfInput, pos⟩ ↔
    rest = [] ∧ pos = Position.start.advance source
  /-- A block comment begins and nothing closes it; the error is at its slash. -/
  unclosedComment : ∀ pos, answer = .error ⟨.unclosedComment, pos⟩ ↔
    (∃ body, rest = '/' :: '*' :: body ∧ ¬ ['*', '/'] <:+: body) ∧ pos = placeOf source rest
  /-- A slash begins no comment; the error is behind it. -/
  format : ∀ pos, answer = .error ⟨.format, pos⟩ ↔
    (∃ after, rest = '/' :: after ∧ ∀ c ∈ after.head?, c ≠ '/' ∧ c ≠ '*') ∧
      pos = (placeOf source rest).step '/'
  /-- The longest run of marks is no operator; the error is at its first mark. -/
  unknownOperator : ∀ pos text, answer = .error ⟨.unknownOperator text, pos⟩ ↔
    (∃ c run after, rest = c :: run ++ after ∧ (c ≠ '/' ∧ c ≠ '_') ∧ MarkRun (c :: run) after ∧
      c :: run ∉ operators.map Prod.fst ∧ text = String.ofList (c :: run)) ∧ pos = placeOf source rest
  /-- A character begins nothing; the error is at this character. -/
  invalidChar : ∀ pos c, answer = .error ⟨.invalidChar c, pos⟩ ↔
    (∃ after, rest = c :: after ∧ BeginsNothing d c) ∧ pos = placeOf source rest
  token : ∀ t, answer = .ok t ↔
    ∃ kind text after, rest = text ++ after ∧ Lexeme d (.token kind text) after ∧
      t = ⟨kind, String.ofList text, Span.covering (placeOf source rest) text⟩

/-! ## What comes of the first piece -/

/-- The first piece of `rest` has the outcome `o` at `pos`. -/
def Yields (d : Dialect) (rest : List Char) (pos : Position) (o : Except ScanError Token) : Prop :=
  ∃ p, Piece.cut d rest = some p ∧ p.outcome? pos = some o

theorem Yields.eq_iff {o o' : Except ScanError Token} (h : Yields d rest pos o) :
    o = o' ↔ Yields d rest pos o' := by
  constructor
  · rintro rfl
    exact h
  · rintro ⟨q, hq, hoq⟩
    obtain ⟨p, hp, ho⟩ := h
    obtain rfl : p = q := Option.some.inj (hp.symm.trans hq)
    exact Option.some.inj (ho.symm.trans hoq)

theorem not_yields_endOfInput : ¬ Yields d rest here (.error ⟨.endOfInput, pos⟩) := by
  rintro ⟨p, -, ho⟩
  exact Bool.false_ne_true (Piece.outcome?_eq_error ho).2.symm

theorem yields_unclosedComment_iff :
    Yields d rest here (.error ⟨.unclosedComment, pos⟩) ↔
      (∃ body, rest = '/' :: '*' :: body ∧ ¬ ['*', '/'] <:+: body) ∧ pos = here := by
  constructor
  · rintro ⟨p, hcut, ho⟩
    obtain ⟨after, rfl, hp⟩ := flaw_of_cut hcut (Piece.outcome?_eq_error ho).1
    cases hp with
    | @unclosed body hbody =>
      obtain rfl : here = pos := by simpa [Piece.outcome?] using ho
      exact ⟨⟨body, List.append_nil _, hbody⟩, rfl⟩
    | _ => simp [Piece.outcome?] at ho
  · rintro ⟨⟨body, rfl, hbody⟩, rfl⟩
    have hcut := Piece.cut_of_flaw (d := d) (.unclosed hbody)
    rw [List.append_nil] at hcut
    exact ⟨_, hcut, rfl⟩

theorem yields_format_iff :
    Yields d rest here (.error ⟨.format, pos⟩) ↔
      (∃ after, rest = '/' :: after ∧ ∀ c ∈ after.head?, c ≠ '/' ∧ c ≠ '*') ∧ pos = here.step '/' := by
  constructor
  · rintro ⟨p, hcut, ho⟩
    obtain ⟨after, rfl, hp⟩ := flaw_of_cut hcut (Piece.outcome?_eq_error ho).1
    cases hp with
    | slash hafter =>
      obtain rfl : here.step '/' = pos := by simpa [Piece.outcome?] using ho
      exact ⟨⟨after, rfl, hafter⟩, rfl⟩
    | _ => simp [Piece.outcome?] at ho
  · rintro ⟨⟨after, rfl, hafter⟩, rfl⟩
    exact ⟨_, Piece.cut_of_flaw (.slash hafter), rfl⟩

theorem yields_unknownOperator_iff {text : String} :
    Yields d rest here (.error ⟨.unknownOperator text, pos⟩) ↔
      (∃ c run after, rest = c :: run ++ after ∧ (c ≠ '/' ∧ c ≠ '_') ∧ MarkRun (c :: run) after ∧
        c :: run ∉ operators.map Prod.fst ∧ text = String.ofList (c :: run)) ∧ pos = here := by
  constructor
  · rintro ⟨p, hcut, ho⟩
    obtain ⟨after, rfl, hp⟩ := flaw_of_cut hcut (Piece.outcome?_eq_error ho).1
    cases hp with
    | @marks c run _ hc hrun hnone =>
      obtain ⟨rfl, rfl⟩ : String.ofList (c :: run) = text ∧ here = pos := by
        simpa [Piece.outcome?] using ho
      exact ⟨⟨c, run, after, rfl, hc, hrun, hnone, rfl⟩, rfl⟩
    | _ => simp [Piece.outcome?] at ho
  · rintro ⟨⟨c, run, after, rfl, hc, hrun, hnone, rfl⟩, rfl⟩
    exact ⟨_, Piece.cut_of_flaw (.marks hc hrun hnone), rfl⟩

theorem yields_invalidChar_iff {c : Char} :
    Yields d rest here (.error ⟨.invalidChar c, pos⟩) ↔
      (∃ after, rest = c :: after ∧ BeginsNothing d c) ∧ pos = here := by
  constructor
  · rintro ⟨p, hcut, ho⟩
    obtain ⟨after, rfl, hp⟩ := flaw_of_cut hcut (Piece.outcome?_eq_error ho).1
    cases hp with
    | @stray x rest hx =>
      obtain ⟨rfl, rfl⟩ : x = c ∧ here = pos := by simpa [Piece.outcome?] using ho
      exact ⟨⟨rest, rfl, hx⟩, rfl⟩
    | _ => simp [Piece.outcome?] at ho
  · rintro ⟨⟨after, rfl, hc⟩, rfl⟩
    exact ⟨_, Piece.cut_of_flaw (.stray hc), rfl⟩

theorem yields_token_iff {t : Token} :
    Yields d rest here (.ok t) ↔
      ∃ kind text after, rest = text ++ after ∧ Lexeme d (.token kind text) after ∧
        t = ⟨kind, String.ofList text, Span.covering here text⟩ := by
  constructor
  · rintro ⟨p, hcut, ho⟩
    obtain ⟨kind, text, rfl, rfl⟩ := Piece.outcome?_eq_ok ho
    obtain ⟨after, rfl, hp⟩ := lexeme_of_cut hcut rfl
    exact ⟨kind, text, after, rfl, hp, rfl⟩
  · rintro ⟨kind, text, after, rfl, hp, rfl⟩
    exact ⟨_, Piece.cut_of_lexeme hp, rfl⟩

/-- Where a piece begins, its outcome is the verdict. -/
theorem verdict_of_yields {source : List Char} {o : Except ScanError Token}
    (h : Yields d rest (placeOf source rest) o) : Verdict d source rest o where
  endOfInput pos := by
    rw [h.eq_iff]
    refine iff_of_false not_yields_endOfInput ?_
    rintro ⟨rfl, -⟩
    obtain ⟨p, hcut, -⟩ := h
    contradiction
  unclosedComment pos := by rw [h.eq_iff, yields_unclosedComment_iff]
  format pos := by rw [h.eq_iff, yields_format_iff]
  unknownOperator pos text := by rw [h.eq_iff, yields_unknownOperator_iff]
  invalidChar pos c := by rw [h.eq_iff, yields_invalidChar_iff]
  token t := by rw [h.eq_iff, yields_token_iff]

theorem verdict_end (d : Dialect) (source : List Char) :
    Verdict d source [] (.error ⟨.endOfInput, Position.start.advance source⟩) where
  endOfInput pos := by simp [eq_comm]
  unclosedComment pos := by simp
  format pos := by simp
  unknownOperator pos text := by simp
  invalidChar pos c := by simp
  token t := by
    refine iff_of_false (by simp) ?_
    rintro ⟨kind, text, after, hnil, hp, -⟩
    exact hp.text_ne_nil (List.append_eq_nil_iff.mp hnil.symm).1

/-! ## What is left behind blanks and comments -/

theorem AfterTrivia.unique {rest' : List Char} (h : AfterTrivia d text rest)
    (h' : AfterTrivia d text rest') : rest' = rest := by
  obtain ⟨ps, hps, htrivia⟩ := h.row
  obtain ⟨qs, hqs, htrivia'⟩ := h'.row
  have hlen := Nat.le_antisymm (h.longest qs rest' hqs htrivia') (h'.longest ps rest hps htrivia)
  have htext := hps.text_eq.symm.trans hqs.text_eq
  exact (List.append_inj_right' htext hlen).symm

namespace TokenStream

variable {s : TokenStream}

/-- No other row of blanks and comments in front of the stream reaches further. -/
theorem Halt.isPrefix {qs : List Piece} {rest : List Char} (h : s.Halt ps)
    (hqs : Cuts s.dialect s.cursor.rest qs rest) (htrivia : ∀ p ∈ qs, p.isTrivia = true) : qs <+: ps := by
  rcases h.cuts.comparable hqs with ⟨rs, rfl, hrs⟩ | ⟨rs, rfl, -⟩
  · cases rs with
    | nil => exact (List.append_nil ps).symm ▸ List.prefix_rfl
    | cons p rs =>
      -- The other row would go on with `p` where this one had to stop.
      obtain ⟨after, hrest, hp, -⟩ := hrs.of_cons
      have hstop := h.stops p (hrest ▸ Piece.cut_of_lexeme hp)
      rw [htrivia p (by simp)] at hstop
      contradiction
  · exact List.prefix_append _ _

/-- A scan halts behind the longest row of blanks and comments. -/
theorem Halt.afterTrivia (h : s.Halt ps) :
    AfterTrivia s.dialect s.cursor.rest (s.passAll ps).cursor.rest where
  row := ⟨ps, h.cuts, h.trivia⟩
  longest qs rest' hqs htrivia := by
    obtain ⟨rs, rfl⟩ := h.isPrefix hqs htrivia
    have htext := h.cuts.text_eq.symm.trans hqs.text_eq
    rw [List.flatMap_append, List.append_assoc] at htext
    rw [← List.append_cancel_left htext, List.length_append]
    exact Nat.le_add_left _ _

theorem dialect_afterScans (s : TokenStream) (n : Nat) : (s.afterScans n).dialect = s.dialect := by
  induction n generalizing s with
  | zero => rfl
  | succ n ih => rw [afterScans, ih, dialect_scan]

theorem source_afterScans (s : TokenStream) (n : Nat) :
    (s.afterScans n).cursor.source = s.cursor.source := by
  induction n generalizing s with
  | zero => rfl
  | succ n ih => rw [afterScans, ih, source_scan]

theorem pos_eq_placeOf (s : TokenStream) : s.pos = placeOf s.cursor.source s.cursor.rest := by
  have hlen : s.cursor.source.length - s.cursor.rest.length = s.cursor.pos.offset := by
    rw [← s.cursor.drop_offset, List.length_drop]
    have := s.cursor.offset_le
    omega
  rw [placeOf, hlen, Cursor.take_offset, ← s.cursor.pos_eq, pos]

/-- The verdict on what a scan finds behind blanks and comments is its answer. -/
theorem Halt.verdict (h : s.Halt ps) :
    Verdict s.dialect s.cursor.source (s.passAll ps).cursor.rest s.scan.1 := by
  have hplace := pos_eq_placeOf (s.passAll ps)
  rw [source_passAll] at hplace
  rcases scan_cases h with ⟨hrest, hscan⟩ | ⟨p, o, hcut, ho, hscan⟩
  · rw [hscan, hrest, hplace, hrest, placeOf, List.length_nil, Nat.sub_zero, List.take_length]
    exact verdict_end _ _
  · rw [hscan]
    exact verdict_of_yields ⟨p, hcut, hplace ▸ ho⟩

end TokenStream

/-- **When a scan fails.** After any number of scans, let `rest` be what is left of the text behind
the cursor and the longest row of blanks and comments there: the next scan answers as the verdict
on `rest` says. -/
theorem scan_answers_verdict (d : Dialect) (source : String) (n : Nat) :
    ∃ rest, (∀ other, AfterTrivia d
        (source.toList.drop ((TokenStream.ofText d source).afterScans n).pos.offset) other ↔
          other = rest) ∧
      Verdict d source.toList rest ((TokenStream.ofText d source).afterScans n).scan.1 := by
  generalize hs : (TokenStream.ofText d source).afterScans n = s
  have hd : s.dialect = d := hs ▸ TokenStream.dialect_afterScans _ n
  have hsource : s.cursor.source = source.toList := hs ▸ TokenStream.source_afterScans _ n
  have hrest : source.toList.drop s.pos.offset = s.cursor.rest := hsource ▸ s.cursor.drop_offset
  obtain ⟨ps, hps⟩ := s.exists_halt
  have hafter := hps.afterTrivia
  have hverdict := hps.verdict
  rw [hd] at hafter hverdict
  rw [hsource] at hverdict
  rw [hrest]
  refine ⟨(s.passAll ps).cursor.rest, fun other => ⟨hafter.unique, ?_⟩, hverdict⟩
  rintro rfl
  exact hafter

end BoardLang
