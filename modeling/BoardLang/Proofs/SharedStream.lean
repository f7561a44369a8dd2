import BoardLang.Proofs.Lookahead
import BoardLang.Proofs.Progress

/-!
# Two ways to read one stream

A stream can be read by `scan`, which may be called at any time, and by `next?`, which is done for good
once it has met an error. Both may be mixed, and comments may be looked at or taken away in between. The
calls that still take a step of the stream are the *effective* ones; what a call takes of the stream is
decided by how many effective calls came before it, and by nothing else (`calls_share_one_stream`).

The reason is that `scan` looks neither at the comments nor at the mark that `next?` leaves. So put back
the comments that have been taken away, and wipe out the mark: the stream is then the one that as many
scans alone lead to (`restored_stateAt`).
-/

namespace BoardLang

namespace TokenStream

variable {s : TokenStream} {t : Token} {e : ScanError} {calls : List Call} {i : Nat}

/-! ## Effective calls -/

/-- The reply of a `next` that has come away without a token. -/
def Reply.endsLoop : Reply → Bool
  | .next (some (.ok _)) => false
  | .next _ => true
  | _ => false

/-- Whether the call takes a step of the stream; `isOver` says that `next` is done. -/
def Call.takesStep (isOver : Bool) : Call → Bool
  | .scan => true
  | .next => !isOver
  | _ => false

def Call.batch : Call → Reply → List Comment
  | .takeComments, .comments cs => cs
  | _, _ => []

section Session

variable (s : TokenStream) (calls : List Call) (i : Nat)

/-- The stream before call `i`. -/
def stateAt : TokenStream := (session call s (calls.take i)).2

def replyTo : Option Reply := (session call s calls).1[i]?

/-- Whether a `next` before call `i` has come away without a token. -/
def loopOver : Bool := ((session call s calls).1.take i).any Reply.endsLoop

/-- Whether call `i` takes a step: it is a scan, or it is a `next` and no `next` before it has met an error. -/
def isEffective : Bool := calls[i]?.any (Call.takesStep (loopOver s calls i))

/-- How many of the calls before call `i` take a step. -/
def stepsBefore : Nat := (List.range i).countP (isEffective s calls)

def batchAt : List Comment :=
  match calls[i]?, replyTo s calls i with
  | some k, some r => k.batch r
  | _, _ => []

/-- The comments taken away before call `i`, batch after batch. -/
def takenBefore : List Comment := (List.range i).flatMap (batchAt s calls)

/-- What call `i` does, told from a stream that is scanned and nothing else: `stepsBefore` counts the
scans it has made. -/
structure InStep : Prop where
  /-- A scan makes the next step, whatever came before. -/
  scan : calls[i]? = some .scan →
    replyTo s calls i = some (.answer (s.afterScans (stepsBefore s calls i)).scan.1)
  /-- An effective `next` makes the step that a scan would make, and shows the token of it. -/
  next_token : calls[i]? = some .next → isEffective s calls i = true →
    ∀ t, (s.afterScans (stepsBefore s calls i)).scan.1 = .ok t →
      replyTo s calls i = some (.next (some (.ok t)))
  next_end : calls[i]? = some .next → isEffective s calls i = true →
    ∀ e, (s.afterScans (stepsBefore s calls i)).scan.1 = .error e → e.cause = .endOfInput →
      replyTo s calls i = some (.next none)
  next_error : calls[i]? = some .next → isEffective s calls i = true →
    ∀ e, (s.afterScans (stepsBefore s calls i)).scan.1 = .error e → e.cause ≠ .endOfInput →
      replyTo s calls i = some (.next (some (.error e)))
  /-- An effective call leaves the cursor where its step does. -/
  effective : isEffective s calls i = true →
    (stateAt s calls (i + 1)).cursor = (s.afterScans (stepsBefore s calls i + 1)).cursor
  ineffective : isEffective s calls i = false →
    (stateAt s calls (i + 1)).cursor = (stateAt s calls i).cursor
  /-- Behind a `next` that has met an error or the end, a `next` gives nothing and does nothing. -/
  next_over : ∀ j r, j < i → replyTo s calls j = some (.next r) → (∀ t, r ≠ some (.ok t)) →
    calls[i]? = some .next →
      replyTo s calls i = some (.next none) ∧ stateAt s calls (i + 1) = stateAt s calls i

end Session

/-! ## What scanning does not look at -/

/-- The stream with the comments `taken` put back, and as if no `next` had met an error. -/
def restored (s : TokenStream) (taken : List Comment) : TokenStream :=
  { s with skipped := s.skipped ++ taken.reverse, finished := false }

@[simp] theorem cursor_restored (s : TokenStream) (taken : List Comment) :
    (s.restored taken).cursor = s.cursor := rfl

@[simp] theorem comments_restored (s : TokenStream) (taken : List Comment) :
    (s.restored taken).comments = taken ++ s.comments := by
  simp [restored, comments]

theorem restored_nil (h : s.finished = false) : s.restored [] = s := by
  obtain ⟨dialect, cursor, skipped, finished⟩ := s
  simp_all [restored]

theorem pass_restored (s : TokenStream) (taken : List Comment) (p : Piece) :
    (s.restored taken).pass p = (s.pass p).restored taken := by
  unfold pass restored
  cases p.comment? s.cursor.pos <;> rfl

theorem scan_restored (s : TokenStream) (taken : List Comment) :
    (s.restored taken).scan = (s.scan.1, s.scan.2.restored taken) := by
  fun_induction scan s with
  | case1 s hcut =>
    have hrest := Piece.cut_eq_none_iff.mp hcut
    exact scan_end (s := s.restored taken) hrest
  | case2 s p hcut o ho =>
    rw [← pass_restored]
    exact scan_outcome (s := s.restored taken) hcut ho
  | case3 s p hcut ho _ ih =>
    have htrivia := Piece.outcome?_eq_none_iff.mp ho
    rw [scan_trivia (s := s.restored taken) hcut htrivia, pass_restored]
    exact ih

/-! ## One call -/

theorem next?_over (h : s.finished = true) : s.next? = (none, s) := by
  simp only [next?, h, if_true]

/-- **One call.** A call that takes a step does to the restored stream what a scan does, and any other
call leaves it as it is. -/
theorem restored_call (s : TokenStream) (taken : List Comment) (k : Call) :
    (s.call k).2.restored (taken ++ k.batch (s.call k).1) =
      if k.takesStep s.finished then (s.restored taken).scan.2 else s.restored taken := by
  cases k with
  | scan => simp [call, Call.batch, Call.takesStep, scan_restored]
  | next =>
    cases hs : s.finished with
    | true => simp [call, Call.batch, Call.takesStep, next?_over hs]
    | false =>
      have hnext : s.next?.2.restored taken = s.scan.2.restored taken := by
        cases hscan : s.scan with
        | mk answer s' =>
          cases answer with
          | ok t => rw [next?_ok hs hscan]
          | error e => rw [next?_error hs hscan]; rfl
      simp [call, Call.batch, Call.takesStep, scan_restored, hnext]
  | pos => simp [call, Call.batch, Call.takesStep]
  | comments => simp [call, Call.batch, Call.takesStep]
  | takeComments => simp [call, Call.batch, Call.takesStep, takeComments, restored, comments]

/-- The mark of a stream is set by the first `next` that comes away without a token. -/
theorem finished_call (s : TokenStream) (k : Call) :
    (s.call k).2.finished = (s.finished || (s.call k).1.endsLoop) := by
  cases k with
  | scan => simp [call, Reply.endsLoop, finished_scan]
  | next =>
    cases hs : s.finished with
    | true => simp [call, next?_over hs, hs]
    | false =>
      cases hscan : s.scan with
      | mk answer s' =>
        cases answer with
        | ok t =>
          have hs' : s'.finished = false := by rw [← hs, ← finished_scan s, hscan]
          simp [call, next?_ok hs hscan, Reply.endsLoop, hs']
        | error e => cases hend : e.isEnd <;> simp [call, next?_error hs hscan, Reply.endsLoop, hend]
  | pos => simp [call, Reply.endsLoop]
  | comments => simp [call, Reply.endsLoop]
  | takeComments => simp [call, takeComments, Reply.endsLoop]

/-! ## A whole session -/

theorem stateAt_succ {k : Call} (h : calls[i]? = some k) :
    stateAt s calls (i + 1) = ((stateAt s calls i).call k).2 := by
  rw [stateAt, List.take_add_one, h, session_append]
  rfl

theorem replyTo_eq {k : Call} (h : calls[i]? = some k) :
    replyTo s calls i = some ((stateAt s calls i).call k).1 := by
  rw [replyTo, getElem?_session, h, Option.map_some, stateAt]

theorem batchAt_eq {k : Call} (h : calls[i]? = some k) :
    batchAt s calls i = k.batch ((stateAt s calls i).call k).1 := by
  simp only [batchAt, h, replyTo_eq h]

theorem stateAt_end (h : calls[i]? = none) : stateAt s calls (i + 1) = stateAt s calls i := by
  rw [stateAt, stateAt, List.take_add_one, h, Option.toList_none, List.append_nil]

theorem replyTo_end (h : calls[i]? = none) : replyTo s calls i = none := by
  rw [replyTo, getElem?_session, h, Option.map_none]

theorem loopOver_succ (s : TokenStream) (calls : List Call) (i : Nat) :
    loopOver s calls (i + 1) = (loopOver s calls i || (replyTo s calls i).any Reply.endsLoop) := by
  rw [loopOver, List.take_add_one, List.any_append, loopOver, replyTo]
  cases (session call s calls).1[i]? <;> simp

theorem stepsBefore_succ (s : TokenStream) (calls : List Call) (i : Nat) :
    stepsBefore s calls (i + 1) =
      if isEffective s calls i then stepsBefore s calls i + 1 else stepsBefore s calls i := by
  rw [stepsBefore, List.range_succ, List.countP_append, List.countP_singleton, stepsBefore]
  split <;> rfl

theorem takenBefore_succ (s : TokenStream) (calls : List Call) (i : Nat) :
    takenBefore s calls (i + 1) = takenBefore s calls i ++ batchAt s calls i := by
  rw [takenBefore, List.range_succ, List.flatMap_append, List.flatMap_singleton, takenBefore]

theorem finished_stateAt (hs : s.finished = false) (calls : List Call) (i : Nat) :
    (stateAt s calls i).finished = loopOver s calls i := by
  induction i with
  | zero => simpa [stateAt, session, loopOver] using hs
  | succ i ih =>
    rw [loopOver_succ, ← ih]
    cases hk : calls[i]? with
    | none => rw [stateAt_end hk, replyTo_end hk, Option.any_none, Bool.or_false]
    | some k => rw [stateAt_succ hk, replyTo_eq hk, Option.any_some, finished_call]

/-- **A whole session.** With the comments that were taken away put back, a stream that `next` and `scan`
have shared is the one that the effective calls lead to as scans. -/
theorem restored_stateAt (hs : s.finished = false) (calls : List Call) (i : Nat) :
    (stateAt s calls i).restored (takenBefore s calls i) = s.afterScans (stepsBefore s calls i) := by
  induction i with
  | zero => exact restored_nil hs
  | succ i ih =>
    rw [takenBefore_succ, stepsBefore_succ]
    cases hk : calls[i]? with
    | none =>
      rw [stateAt_end hk, isEffective, hk]
      simp [batchAt, hk, ih]
    | some k =>
      have heffective : isEffective s calls i = k.takesStep (stateAt s calls i).finished := by
        rw [isEffective, hk, Option.any_some, finished_stateAt hs]
      rw [stateAt_succ hk, batchAt_eq hk, restored_call, heffective, ih]
      split
      · rw [afterScans_succ]
      · rfl

/-- A scan at this point of the session answers as the scan of the stream that is only scanned. -/
theorem scan_stateAt (hs : s.finished = false) (calls : List Call) (i : Nat) :
    (stateAt s calls i).scan.1 = (s.afterScans (stepsBefore s calls i)).scan.1 := by
  rw [← restored_stateAt hs, scan_restored]

/-! ## What a call shows -/

theorem Reply.endsLoop_next {r : Option (Except ScanError Token)} (h : ∀ t, r ≠ some (.ok t)) :
    (Reply.next r).endsLoop = true := by
  cases r with
  | none => rfl
  | some answer =>
    cases answer with
    | ok t => exact absurd rfl (h t)
    | error e => rfl

/-- An effective `next` finds a stream that is not marked. -/
theorem finished_of_effective (hs : s.finished = false) (hk : calls[i]? = some .next)
    (h : isEffective s calls i = true) : (stateAt s calls i).finished = false := by
  rw [isEffective, hk] at h
  rw [finished_stateAt hs]
  simpa [Call.takesStep] using h

theorem replyTo_next_ok (hs : s.finished = false) (hk : calls[i]? = some .next)
    (h : isEffective s calls i = true) (ht : (s.afterScans (stepsBefore s calls i)).scan.1 = .ok t) :
    replyTo s calls i = some (.next (some (.ok t))) := by
  have hscan : (stateAt s calls i).scan = (.ok t, (stateAt s calls i).scan.2) := by
    rw [← ht, ← scan_stateAt hs]
  rw [replyTo_eq hk, call, next?_ok (finished_of_effective hs hk h) hscan]

theorem replyTo_next_error (hs : s.finished = false) (hk : calls[i]? = some .next)
    (h : isEffective s calls i = true) (he : (s.afterScans (stepsBefore s calls i)).scan.1 = .error e) :
    replyTo s calls i = some (.next (if e.isEnd then none else some (.error e))) := by
  have hscan : (stateAt s calls i).scan = (.error e, (stateAt s calls i).scan.2) := by
    rw [← he, ← scan_stateAt hs]
  rw [replyTo_eq hk, call, next?_error (finished_of_effective hs hk h) hscan]

theorem replyTo_next_over (hs : s.finished = false) (hk : calls[i]? = some .next)
    (h : loopOver s calls i = true) :
    replyTo s calls i = some (.next none) ∧ stateAt s calls (i + 1) = stateAt s calls i := by
  have hstay := next?_over ((finished_stateAt hs calls i).trans h)
  rw [replyTo_eq hk, stateAt_succ hk, call, hstay]
  exact ⟨rfl, rfl⟩

theorem inStep (hs : s.finished = false) (calls : List Call) (i : Nat) : s.InStep calls i where
  scan hk := by rw [replyTo_eq hk, call, scan_stateAt hs]
  next_token hk h t ht := replyTo_next_ok hs hk h ht
  next_end hk h e he hend := by
    rw [replyTo_next_error hs hk h he, if_pos (ScanError.isEnd_iff.mpr hend)]
  next_error hk h e he hend := by
    rw [replyTo_next_error hs hk h he, if_neg (fun hstop => hend (ScanError.isEnd_iff.mp hstop))]
  effective h := by
    have hafter := restored_stateAt hs calls (i + 1)
    rw [stepsBefore_succ, if_pos h] at hafter
    rw [← hafter, cursor_restored]
  ineffective h := by
    have hbefore := restored_stateAt hs calls i
    have hafter := restored_stateAt hs calls (i + 1)
    rw [stepsBefore_succ, if_neg (by simp [h]), ← hbefore] at hafter
    simpa using congrArg cursor hafter
  next_over j r hj hr hne hk := by
    apply replyTo_next_over hs hk
    refine List.any_eq_true.mpr ⟨.next r, ?_, Reply.endsLoop_next hne⟩
    apply List.mem_of_getElem? (i := j)
    rw [List.getElem?_take_of_lt hj]
    exact hr

end TokenStream

/-- **One stream for both.** Whatever calls are made of a stream and in whatever order, the effective ones
make the scans of a stream that is only scanned, one after the other, and no call does anything else to
the cursor. Reading a text to its end is the case of `next` alone: it gives the tokens of the scans up to
the first error, if this error is the end of the text, and the error otherwise. -/
theorem calls_share_one_stream (d : Dialect) (source : String) (calls : List TokenStream.Call) :
    (∀ i, (TokenStream.ofText d source).InStep calls i) ∧
    ∃ ts e, (TokenStream.ofText d source).answers (ts.length + 1) = ts.map .ok ++ [.error e] ∧
      lex d source = if e.cause = .endOfInput then .ok ts else .error e := by
  refine ⟨fun i => TokenStream.inStep rfl calls i, ?_⟩
  have hanswers := (TokenStream.ofText d source).transcript_eq_answers
  rw [TokenStream.length_transcript] at hanswers
  refine ⟨_, _, hanswers.symm, ?_⟩
  rw [lex_eq_run]
  simp only [ScanError.isEnd_iff]

/-- Behind a `next` that has met an error, `next` gives nothing any more, but a scan goes on from there. -/
theorem scan_goes_on_behind_loop :
    let s := TokenStream.ofText ⟨false⟩ "#7"
    let calls : List TokenStream.Call := [.next, .next, .scan]
    s.replyTo calls 0 = some (.next (some (.error ⟨.unknownOperator "#", ⟨0, 0, 0⟩⟩))) ∧
    s.replyTo calls 1 = some (.next none) ∧
    s.replyTo calls 2 = some (.answer (.ok ⟨.int, "7", ⟨⟨1, 0, 1⟩, ⟨2, 0, 2⟩⟩⟩)) := by
  intro s calls
  have hstep := (calls_share_one_stream ⟨false⟩ "#7" calls).1
  have hmarks : s.scan = (.error ⟨.unknownOperator "#", ⟨0, 0, 0⟩⟩, s.pass (.marks ['#'])) :=
    TokenStream.scan_outcome rfl rfl
  have hint : (s.pass (.marks ['#'])).scan =
      (.ok ⟨.int, "7", ⟨⟨1, 0, 1⟩, ⟨2, 0, 2⟩⟩⟩, (s.pass (.marks ['#'])).pass (.token .int ['7'])) :=
    TokenStream.scan_outcome rfl rfl
  have hfirst : s.replyTo calls 0 = some (.next (some (.error ⟨.unknownOperator "#", ⟨0, 0, 0⟩⟩))) :=
    (hstep 0).next_error rfl rfl _ (congrArg Prod.fst hmarks) (by decide)
  have hover : s.isEffective calls 1 = false := by
    rw [TokenStream.isEffective, TokenStream.loopOver_succ, hfirst]
    rfl
  refine ⟨hfirst, ((hstep 1).next_over 0 _ Nat.zero_lt_one hfirst (by simp) rfl).1, ?_⟩
  have hsteps : s.stepsBefore calls 2 = 1 := by
    rw [TokenStream.stepsBefore_succ, hover]
    rfl
  have hscan := (hstep 2).scan rfl
  have hafter : s.afterScans 1 = s.pass (.marks ['#']) := by
    rw [TokenStream.afterScans, hmarks, TokenStream.afterScans]
  rw [hsteps, hafter, hint] at hscan
  exact hscan

end BoardLang
