import BoardLang.Proofs.Running
import BoardLang.Proofs.Sessions
import BoardLang.Proofs.Tiling

/-!
# A reader follows its stream

Scanning a stream again and again gives one answer after the other; the answers up to the first error
are its `transcript`. A reader built on the stream shows this transcript, one answer an advance, in
whatever order its calls are made (`reader_follows_stream`): the calls that only look change nothing,
and behind the first error the reader does not touch the stream any more, although the stream could
still be scanned.

`Tracks` lists the three situations that a reader can be in. An advance leads from each of them to one
of them (`Tracks.advance`), all other calls stay (`call_of_not_isAdvance`), and what a user sees in each
of them is what `Follows` says.
-/

namespace BoardLang

variable {t : Token} {e : ScanError}

/-- If the token is a number, it is written with digits. -/
def Token.IsLegible (t : Token) : Prop :=
  t.kind = .int → t.literal.toList ≠ [] ∧ ∀ c ∈ t.literal.toList, c.isDigit = true

namespace TokenStream

variable {s s' : TokenStream} {m : Nat}

/-- What scanning answers up to the first error, and then this error. -/
def transcript (s : TokenStream) : List (Except ScanError Token) :=
  s.run.tokens.map .ok ++ [.error s.run.stop]

/-! ## The answers of a run -/

theorem transcript_eq_answers (s : TokenStream) : s.transcript = s.answers s.transcript.length := by
  induction s using run.induct with
  | case1 s t s' h _ ih =>
    have hs : s.transcript = .ok t :: s'.transcript := by simp [transcript, run_ok h]
    rw [hs, List.length_cons, answers, h, ← ih]
  | case2 s e s' h => simp [transcript, run_error h, answers, h]

theorem getElem?_transcript_ok : s.transcript[m]? = some (.ok t) ↔ s.run.tokens[m]? = some t := by
  simp only [transcript, List.getElem?_append, List.length_map, List.getElem?_map]
  split
  · simp
  · rename_i hm
    have hnone : s.run.tokens[m]? = none := List.getElem?_eq_none (by omega)
    cases m - s.run.tokens.length <;> simp [hnone]

theorem getElem?_transcript_error :
    s.transcript[m]? = some (.error e) ↔ m = s.run.tokens.length ∧ e = s.run.stop := by
  simp only [transcript, List.getElem?_append, List.length_map, List.getElem?_map]
  split
  · rename_i hm
    have hne : m ≠ s.run.tokens.length := Nat.ne_of_lt hm
    simp [List.getElem?_eq_getElem hm, hne]
  · rename_i hm
    have hfirst : m - s.run.tokens.length = 0 ↔ m = s.run.tokens.length := by omega
    simp [List.getElem?_singleton, hfirst, eq_comm]

theorem length_transcript (s : TokenStream) : s.transcript.length = s.run.tokens.length + 1 := by
  rw [transcript, List.length_append, List.length_map, List.length_singleton]

theorem getElem?_transcript_none : s.transcript[m]? = none ↔ s.run.tokens.length < m := by
  rw [List.getElem?_eq_none_iff, length_transcript, Nat.succ_le_iff]

/-- A scan after `m` tokens of the run gives the next one, or stops as the run does. -/
theorem scan_afterScans (hm : m ≤ s.run.tokens.length) :
    (s.afterScans m).scan =
      match s.run.tokens[m]? with
      | some t => (.ok t, s.afterScans (m + 1))
      | none => (.error s.run.stop, s.run.final) := by
  induction s using run.induct generalizing m with
  | case1 s t s' h _ ih =>
    rw [run_ok h] at hm ⊢
    cases m with
    | zero => simp [afterScans, h]
    | succ m =>
      rw [afterScans, h, ih (by simpa using hm)]
      simp [afterScans, h]
  | case2 s e s' h =>
    rw [run_error h] at hm ⊢
    obtain rfl := Nat.le_zero.mp hm
    simp [afterScans, h]

/-- The run is made of one scan for each token and the one that stops it. -/
theorem final_run (s : TokenStream) : s.run.final = s.afterScans (s.run.tokens.length + 1) := by
  induction s using run.induct with
  | case1 s t s' h _ ih => rw [run_ok h, afterScans, h]; simpa using ih
  | case2 s e s' h => rw [run_error h, afterScans, h]; rfl

/-! ## Numbers are written with digits -/

theorem isLegible_of_scan (h : s.scan = (.ok t, s')) : t.IsLegible := by
  intro hkind
  obtain ⟨ps, hps⟩ := s.exists_halt
  rcases scan_cases hps with ⟨-, hscan⟩ | ⟨p, o, hcut, ho, hscan⟩
  · rw [hscan] at h
    simp at h
  · obtain rfl : o = .ok t := congrArg Prod.fst (hscan.symm.trans h)
    obtain ⟨kind, text, rfl, rfl⟩ := Piece.outcome?_eq_ok ho
    obtain ⟨after, -, hp⟩ := lexeme_of_cut hcut rfl
    obtain rfl : kind = .int := hkind
    rw [String.toList_ofList]
    cases hp with
    | int hne hdigits _ => exact ⟨hne, hdigits⟩
    | delimiter hc => exact absurd hc (by simp [delimiters])
    | operator htext _ => exact absurd htext (by simp [operators])

theorem isLegible_of_mem_run (ht : t ∈ s.run.tokens) : t.IsLegible := by
  induction s using run.induct with
  | case1 s u s' h _ ih =>
    rw [run_ok h] at ht
    rcases List.mem_cons.mp ht with rfl | ht
    · exact isLegible_of_scan h
    · exact ih ht
  | case2 s e s' h =>
    rw [run_error h] at ht
    exact absurd ht List.not_mem_nil

end TokenStream

/-! ## One advance -/

/-- Whether an advance still scans the stream. -/
def Lookahead.isOpen : Lookahead → Bool
  | .unread | .token _ => true
  | .ended | .failed => false

/-- What is in view after an error. -/
def Lookahead.ofError (e : ScanError) : Lookahead := if e.isEnd then .ended else .failed

theorem Lookahead.isOpen_ofError (e : ScanError) : (ofError e).isOpen = false := by
  unfold ofError
  split <;> rfl

namespace Reader

variable {r : Reader} {s s' : TokenStream} {m : Nat}

theorem advance_ok (hr : r.view.isOpen = true) (h : r.stream.scan = (.ok t, s)) :
    r.advance = (.ok (some t), ⟨s, .token t⟩) := by
  unfold advance
  split <;> rename_i hview
  · simp [hview, Lookahead.isOpen] at hr
  · simp [hview, Lookahead.isOpen] at hr
  · simp only [load, h]
  · simp only [load, h]

theorem advance_error (hr : r.view.isOpen = true) (h : r.stream.scan = (.error e, s)) :
    r.advance = (if e.isEnd then .ok none else .error (.scan e), ⟨s, .ofError e⟩) := by
  have hload : r.load = (if e.isEnd then .ok none else .error (.scan e), ⟨s, .ofError e⟩) := by
    simp only [load, h, Lookahead.ofError]
    split <;> rfl
  unfold advance
  split <;> rename_i hview
  · simp [hview, Lookahead.isOpen] at hr
  · simp [hview, Lookahead.isOpen] at hr
  · exact hload
  · exact hload

theorem advance_closed (hr : r.view.isOpen = false) : r.advance = (.ok none, r) := by
  unfold advance
  split <;> rename_i hview
  · rfl
  · rfl
  · simp [hview, Lookahead.isOpen] at hr
  · simp [hview, Lookahead.isOpen] at hr

/-! ## What the expect functions say -/

/-- The expect functions judge the token in view and nothing else. -/
structure Rules (r : Reader) : Prop where
  expect_ok : ∀ kind t, r.expect kind = .ok t ↔ r.current = some t ∧ t.kind = kind
  expect_error : ∀ kind e, r.expect kind = .error e ↔
    r.currentKind ≠ some kind ∧ e = .unexpected kind r.currentKind r.pos
  identifier_ok : ∀ i, r.expectIdentifier = .ok i ↔ r.current = some i.token ∧ i.token.kind = .ident
  identifier_error : ∀ e, r.expectIdentifier = .error e ↔
    r.currentKind ≠ some .ident ∧ e = .unexpected .ident r.currentKind r.pos
  int_ok : ∀ n, r.expectInt = .ok n ↔ r.current = some n.token ∧ n.token.kind = .int ∧
    n.value.toNat = Text.Decimal.value n.token.literal.toList
  /-- Only a number that does not fit is an overflow. -/
  int_error : ∀ e, r.expectInt = .error e ↔
    (r.currentKind ≠ some .int ∧ e = .unexpected .int r.currentKind r.pos) ∨
    ∃ t, r.current = some t ∧ t.kind = .int ∧ UInt64.size ≤ Text.Decimal.value t.literal.toList ∧
      e = .overflow t.literal t.span.start

theorem expect_eq_ok_iff {kind : TokenKind} :
    r.expect kind = .ok t ↔ r.current = some t ∧ t.kind = kind := by
  unfold expect
  cases r.current with
  | none => simp
  | some u =>
    by_cases hu : u.kind = kind
    · simp only [hu, if_true]
      grind
    · simp only [hu, if_false]
      grind

theorem expect_eq_error_iff {kind : TokenKind} {e : SourceError} :
    r.expect kind = .error e ↔
      r.currentKind ≠ some kind ∧ e = .unexpected kind r.currentKind r.pos := by
  unfold expect currentKind
  cases r.current with
  | none => simp [eq_comm]
  | some u =>
    by_cases hu : u.kind = kind
    · simp [hu]
    · simp only [hu, if_false]
      grind

theorem expectIdentifier_eq_ok_iff {i : Identifier} :
    r.expectIdentifier = .ok i ↔ r.expect .ident = .ok i.token := by
  obtain ⟨u⟩ := i
  unfold expectIdentifier
  cases r.expect .ident <;> simp

theorem expectIdentifier_eq_error_iff {e : SourceError} :
    r.expectIdentifier = .error e ↔ r.expect .ident = .error e := by
  unfold expectIdentifier
  cases r.expect .ident <;> simp

theorem expectInt_eq_ok_iff {n : IntLiteral} :
    r.expectInt = .ok n ↔
      r.expect .int = .ok n.token ∧ Text.Decimal.ofDigits? n.token.literal.toList = some n.value := by
  obtain ⟨u, v⟩ := n
  unfold expectInt
  cases r.expect .int with
  | error e => simp
  | ok t => cases hv : Text.Decimal.ofDigits? t.literal.toList <;> grind

theorem expectInt_eq_error_iff {e : SourceError} :
    r.expectInt = .error e ↔
      r.expect .int = .error e ∨
      ∃ t, r.expect .int = .ok t ∧ Text.Decimal.ofDigits? t.literal.toList = none ∧
        e = .overflow t.literal t.span.start := by
  unfold expectInt
  cases r.expect .int with
  | error e => simp
  | ok t => cases hv : Text.Decimal.ofDigits? t.literal.toList <;> grind

/-- A reader whose number in view is written with digits reads it exactly. -/
theorem rules_of_isLegible (hr : ∀ t, r.current = some t → t.IsLegible) : r.Rules where
  expect_ok _ _ := expect_eq_ok_iff
  expect_error _ _ := expect_eq_error_iff
  identifier_ok _ := expectIdentifier_eq_ok_iff.trans expect_eq_ok_iff
  identifier_error _ := expectIdentifier_eq_error_iff.trans expect_eq_error_iff
  int_ok n := by
    rw [expectInt_eq_ok_iff, expect_eq_ok_iff, and_assoc]
    refine and_congr_right fun hcurrent => and_congr_right fun hkind => ?_
    obtain ⟨hne, hdigits⟩ := hr _ hcurrent hkind
    exact Text.Decimal.ofDigits?_eq_some_iff hne hdigits
  int_error e := by
    rw [expectInt_eq_error_iff, expect_eq_error_iff]
    refine or_congr_right (exists_congr fun t => ?_)
    rw [expect_eq_ok_iff, and_assoc]
    refine and_congr_right fun hcurrent => and_congr_right fun hkind => and_congr_left fun _ => ?_
    obtain ⟨hne, hdigits⟩ := hr _ hcurrent hkind
    exact Text.Decimal.ofDigits?_eq_none_iff hne hdigits

/-! ## The situations of a reader -/

/-- Where a reader stands that was built on `s` and has been advanced `m` times. -/
inductive Tracks (s : TokenStream) : Nat → Reader → Prop where
  | unread : Tracks s 0 ⟨s, .unread⟩
  /-- The last advance has brought a token of the run into view. -/
  | token {m : Nat} {t : Token} (h : s.run.tokens[m]? = some t) :
      Tracks s (m + 1) ⟨s.afterScans (m + 1), .token t⟩
  /-- The run has stopped. -/
  | stopped {m : Nat} (h : s.run.tokens.length < m) : Tracks s m ⟨s.run.final, .ofError s.run.stop⟩

/-- A reader that still scans its stream has made one scan an advance. -/
theorem Tracks.of_isOpen (h : r.Tracks s m) (hr : r.view.isOpen = true) :
    r.stream = s.afterScans m ∧ m ≤ s.run.tokens.length := by
  cases h with
  | unread => exact ⟨rfl, Nat.zero_le _⟩
  | token h =>
    have hlt := (List.getElem?_eq_some_iff.mp h).1
    exact ⟨rfl, hlt⟩
  | stopped h =>
    rw [Lookahead.isOpen_ofError] at hr
    contradiction

theorem Tracks.of_isClosed (h : r.Tracks s m) (hr : r.view.isOpen = false) :
    r = ⟨s.run.final, .ofError s.run.stop⟩ ∧ s.run.tokens.length < m := by
  cases h with
  | unread => contradiction
  | token h => contradiction
  | stopped h => exact ⟨rfl, h⟩

/-- **One advance.** It gives the next token of the run, it stops as the run does, or it does nothing
because the run has stopped before. -/
theorem Tracks.advance_cases (h : r.Tracks s m) :
    (∃ t, s.run.tokens[m]? = some t ∧ r.advance = (.ok (some t), ⟨s.afterScans (m + 1), .token t⟩)) ∨
    (m = s.run.tokens.length ∧ r.advance =
      (if s.run.stop.isEnd then .ok none else .error (.scan s.run.stop),
        ⟨s.run.final, .ofError s.run.stop⟩)) ∨
    (s.run.tokens.length < m ∧ r.advance = (.ok none, r)) := by
  cases hr : r.view.isOpen with
  | false => exact Or.inr (Or.inr ⟨(h.of_isClosed hr).2, advance_closed hr⟩)
  | true =>
    obtain ⟨hstream, hm⟩ := h.of_isOpen hr
    have hscan := TokenStream.scan_afterScans hm
    rw [← hstream] at hscan
    cases ht : s.run.tokens[m]? with
    | some t =>
      rw [ht] at hscan
      exact Or.inl ⟨t, rfl, advance_ok hr hscan⟩
    | none =>
      rw [ht] at hscan
      have hle := List.getElem?_eq_none_iff.mp ht
      exact Or.inr (Or.inl ⟨Nat.le_antisymm hm hle, advance_error hr hscan⟩)

/-- Behind the last token of the run, an advance reports what stops the run. -/
theorem Tracks.advance_stop (h : r.Tracks s m) (hm : m = s.run.tokens.length) :
    r.advance.1 = if s.run.stop.isEnd then .ok none else .error (.scan s.run.stop) := by
  rcases h.advance_cases with ⟨t, ht, -⟩ | ⟨-, hr⟩ | ⟨hlt, -⟩
  · have hlt := (List.getElem?_eq_some_iff.mp ht).1
    omega
  · rw [hr]
  · omega

theorem Tracks.advance (h : r.Tracks s m) : r.advance.2.Tracks s (m + 1) := by
  rcases h.advance_cases with ⟨t, ht, hr⟩ | ⟨rfl, hr⟩ | ⟨hm, hr⟩
  · rw [hr]
    exact .token ht
  · rw [hr]
    exact .stopped (Nat.lt_succ_self _)
  · rw [hr]
    have hclosed : r.view.isOpen = false := by
      cases hopen : r.view.isOpen with
      | false => rfl
      | true => exact absurd (h.of_isOpen hopen).2 (Nat.not_le.mpr hm)
    rw [(h.of_isClosed hclosed).1]
    exact .stopped (Nat.lt_succ_of_lt hm)

def Call.isAdvance : Call → Bool
  | .advance => true
  | _ => false

def advances (calls : List Call) : Nat := calls.countP Call.isAdvance

theorem call_of_not_isAdvance {k : Call} (hk : k.isAdvance = false) : (r.call k).2 = r := by
  cases k <;> first | rfl | contradiction

theorem Tracks.session (h : r.Tracks s m) (calls : List Call) :
    (session Reader.call r calls).2.Tracks s (m + advances calls) := by
  induction calls generalizing r m with
  | nil => exact h
  | cons k ks ih =>
    rw [session_cons, advances, List.countP_cons]
    cases hk : k.isAdvance with
    | true =>
      cases k with
      | advance =>
        have := ih h.advance
        rw [Nat.add_assoc, Nat.add_comm 1] at this
        exact this
      | _ => contradiction
    | false =>
      rw [call_of_not_isAdvance hk]
      exact ih h

/-! ## What a user sees -/

/-- What the reader `r` shows after `m` advances, told from the stream `s` that it was built on. The
advances are counted from one and the transcript from zero. -/
structure Follows (s : TokenStream) (m : Nat) (r : Reader) : Prop where
  /-- The stream has been scanned once an advance, up to the first error. -/
  stream : r.stream = s.afterScans (min m s.transcript.length)
  /-- An advance gives what the transcript has next. The end of the text is no error for a reader. -/
  advance_token : ∀ t, s.transcript[m]? = some (.ok t) → r.advance.1 = .ok (some t)
  advance_end : ∀ e, s.transcript[m]? = some (.error e) → e.cause = .endOfInput → r.advance.1 = .ok none
  advance_error : ∀ e, s.transcript[m]? = some (.error e) → e.cause ≠ .endOfInput →
    r.advance.1 = .error (.scan e)
  /-- Behind the first error, an advance gives nothing and does nothing. -/
  advance_past : s.transcript[m]? = none → r.advance = (.ok none, r)
  look : ∀ k : Call, k.isAdvance = false → (r.call k).2 = r
  /-- The token in view is the one that the last advance has found. -/
  current : ∀ t, r.current = some t ↔ ∃ i, i + 1 = m ∧ s.transcript[i]? = some (.ok t)
  currentKind : r.currentKind = r.current.map Token.kind
  /-- The reader is at the end once an advance has met the end of the text. -/
  isAtEnd : r.isAtEnd = true ↔
    ∃ i e, i < m ∧ s.transcript[i]? = some (.error e) ∧ e.cause = .endOfInput
  pos_token : ∀ t, r.current = some t → r.pos = t.span.start
  pos_stream : r.current = none → r.pos = (s.afterScans (min m s.transcript.length)).pos
  comments : r.comments = (s.afterScans (min m s.transcript.length)).comments
  rules : r.Rules

theorem Tracks.stream (h : r.Tracks s m) : r.stream = s.afterScans (min m s.transcript.length) := by
  rw [TokenStream.length_transcript]
  cases h with
  | unread => rw [Nat.zero_min]; rfl
  | token h =>
    have hlt := (List.getElem?_eq_some_iff.mp h).1
    rw [Nat.min_eq_left (by omega)]
  | stopped h => rw [Nat.min_eq_right (by omega), ← TokenStream.final_run]

theorem current_ofError (s : TokenStream) (e : ScanError) :
    (⟨s, .ofError e⟩ : Reader).current = none := by
  cases he : e.isEnd <;> simp [current, Lookahead.ofError, he]

theorem isAtEnd_ofError (s : TokenStream) (e : ScanError) :
    (⟨s, .ofError e⟩ : Reader).isAtEnd = e.isEnd := by
  cases he : e.isEnd <;> simp [isAtEnd, Lookahead.ofError, he]

theorem Tracks.current_iff (h : r.Tracks s m) :
    r.current = some t ↔ ∃ i, i + 1 = m ∧ s.run.tokens[i]? = some t := by
  cases h with
  | unread => simp [current]
  | token h => simp [current, h]
  | stopped h =>
    rw [current_ofError]
    refine iff_of_false (by simp) ?_
    rintro ⟨i, rfl, ht⟩
    have hlt := (List.getElem?_eq_some_iff.mp ht).1
    omega

/-- A number in view is written with digits. -/
theorem Tracks.isLegible (h : r.Tracks s m) (ht : r.current = some t) : t.IsLegible := by
  obtain ⟨i, -, hi⟩ := h.current_iff.mp ht
  exact TokenStream.isLegible_of_mem_run (List.mem_of_getElem? hi)

theorem Tracks.isAtEnd_iff (h : r.Tracks s m) :
    r.isAtEnd = true ↔ s.run.tokens.length < m ∧ s.run.stop.isEnd = true := by
  cases h with
  | unread => simp [isAtEnd]
  | token h =>
    have hlt := (List.getElem?_eq_some_iff.mp h).1
    refine iff_of_false (by simp [isAtEnd]) ?_
    rintro ⟨hm, -⟩
    omega
  | stopped h => simp [isAtEnd_ofError, h]

theorem Tracks.follows (h : r.Tracks s m) : r.Follows s m where
  stream := h.stream
  advance_token t ht := by
    have ht := TokenStream.getElem?_transcript_ok.mp ht
    have hlt := (List.getElem?_eq_some_iff.mp ht).1
    rcases h.advance_cases with ⟨u, hu, hr⟩ | ⟨hm, -⟩ | ⟨hm, -⟩
    · rw [hr, Option.some.inj (ht.symm.trans hu)]
    · omega
    · omega
  advance_end e he hend := by
    obtain ⟨hm, rfl⟩ := TokenStream.getElem?_transcript_error.mp he
    rw [h.advance_stop hm, if_pos (ScanError.isEnd_iff.mpr hend)]
  advance_error e he hend := by
    obtain ⟨hm, rfl⟩ := TokenStream.getElem?_transcript_error.mp he
    rw [h.advance_stop hm, if_neg (fun hstop => hend (ScanError.isEnd_iff.mp hstop))]
  advance_past hm := by
    have hm := TokenStream.getElem?_transcript_none.mp hm
    rcases h.advance_cases with ⟨u, hu, -⟩ | ⟨hm', -⟩ | ⟨-, hr⟩
    · have hlt := (List.getElem?_eq_some_iff.mp hu).1
      omega
    · omega
    · exact hr
  look _ := call_of_not_isAdvance
  current t := by simp only [h.current_iff, TokenStream.getElem?_transcript_ok]
  currentKind := rfl
  isAtEnd := by
    rw [h.isAtEnd_iff, ScanError.isEnd_iff]
    constructor
    · rintro ⟨hm, hend⟩
      exact ⟨_, _, hm, TokenStream.getElem?_transcript_error.mpr ⟨rfl, rfl⟩, hend⟩
    · rintro ⟨i, e, hi, he, hend⟩
      obtain ⟨rfl, rfl⟩ := TokenStream.getElem?_transcript_error.mp he
      exact ⟨hi, hend⟩
  pos_token t ht := by simp only [pos, ht]
  pos_stream hnone := by simp only [pos, hnone, ← h.stream]
  comments := by rw [← h.stream]; rfl
  rules := rules_of_isLegible fun _ ht => h.isLegible ht

end Reader

/-- **A reader follows its stream.** Take a stream that any number of scans has led to, and a reader
built on it. Whatever calls are made of the reader, the reply to each of them is the one of a reader
that follows the stream through as many answers of its transcript as there are advances among the
calls before; and the transcript is what repeated scans of the stream answer, up to the first error. -/
theorem reader_follows_stream (d : Dialect) (source : String) (n : Nat) (calls : List Reader.Call)
    (i : Nat) :
    let s := (TokenStream.ofText d source).afterScans n
    let r := (session Reader.call (Reader.ofStream s) (calls.take i)).2
    s.transcript = s.answers s.transcript.length ∧
    (session Reader.call (Reader.ofStream s) calls).1[i]? = calls[i]?.map (fun k => (r.call k).1) ∧
    r.Follows s (Reader.advances (calls.take i)) := by
  intro s r
  have hr : r.Tracks s (Reader.advances (calls.take i)) := by
    have h := (Reader.Tracks.unread (s := s)).session (calls.take i)
    rwa [Nat.zero_add] at h
  exact ⟨s.transcript_eq_answers, getElem?_session _ _ _ _, hr.follows⟩

end BoardLang
