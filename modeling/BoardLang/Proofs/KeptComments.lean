import BoardLang.Proofs.SharedStream
import Mathlib.Data.List.Pairwise

/-!
# No comment is lost

A stream keeps the comments that it goes over until they are taken away. This happens in the middle of
calls that may go on to succeed or to fail, and comments may be taken away at any time, so there is much
that could go wrong. Nothing does: the batches taken away and the comments still there, put together, are
those of a stream from which nothing was ever taken, each of them once and in the order of the text
(`no_comment_is_lost`).

* A row of tiles is in order, and any two tiles of it are apart (`Tile.Row.apart`); comments, tokens and
  failures are tiles, so what is said about their places is said once.
* A session and the same session without the calls that take comments away go along with each other, call
  by call (`Untaken`).
-/

namespace BoardLang

/-! ## Tiles of a row -/

namespace Tile

variable {size lo hi : Nat} {ts : List Tile} {a b : Tile}

theorem Row.bounds (h : Row size lo ts hi) (ha : a ∈ ts) :
    lo ≤ a.first ∧ a.first ≤ a.stop size ∧ a.stop size ≤ hi := by
  induction ts generalizing lo with
  | nil => exact absurd ha List.not_mem_nil
  | cons t ts ih =>
    obtain ⟨hfirst, hle, hts⟩ := h
    have hhi := hts.le
    rcases List.mem_cons.mp ha with rfl | ha
    · omega
    · have := ih hts ha
      omega

theorem Row.pairwise (h : Row size lo ts hi) : ts.Pairwise fun a b => a.stop size ≤ b.first := by
  induction ts generalizing lo with
  | nil => exact List.Pairwise.nil
  | cons t ts ih =>
    obtain ⟨-, -, hts⟩ := h
    exact List.pairwise_cons.mpr ⟨fun b hb => (hts.bounds hb).1, ih hts⟩

/-- Two tiles of a row have no character in common. -/
theorem Row.apart (h : Row size lo ts hi) (ha : a ∈ ts) (hb : b ∈ ts) (hne : a ≠ b) :
    a.stop size ≤ b.first ∨ b.stop size ≤ a.first := by
  have hsymm : Std.Symm fun a b : Tile => a.stop size ≤ b.first ∨ b.stop size ≤ a.first :=
    ⟨fun _ _ => Or.symm⟩
  have hpairwise : ts.Pairwise fun a b => a.stop size ≤ b.first ∨ b.stop size ≤ a.first :=
    h.pairwise.imp Or.inl
  exact hpairwise.forall ha hb hne

def ofAnswer : Except ScanError Token → Tile
  | .ok t => token t
  | .error e => failure e

theorem eq_ofAnswer {o : Except ScanError Token} (h : a.result? = some o) : a = ofAnswer o := by
  cases a <;> simp [result?] at h <;> subst h <;> rfl

theorem eq_comment {c : Comment} (h : a.comment? = some c) : a = comment c := by
  cases a <;> simp [comment?] at h
  rw [h]

end Tile

namespace TokenStream

variable {s s' u : TokenStream} {t : Token} {e : ScanError} {c : Comment} {k : Call} {n : Nat}

def Call.takes : Call → Bool
  | .takeComments => true
  | _ => false

/-- The reply shows a token, an error or a position. -/
def Reply.isReading : Reply → Bool
  | .comments _ => false
  | _ => true

def Reply.token? : Reply → Option Token
  | .answer (.ok t) => some t
  | .next (some (.ok t)) => some t
  | _ => none

/-- What is asked of the comments that a session of `calls` on a stream `s` in `source` has brought. -/
structure NoneLost (s : TokenStream) (source : List Char) (calls : List Call) (kept : List Comment) :
    Prop where
  /-- The same steps lead to these comments in a stream that is only scanned. -/
  scanned : kept = (s.afterScans (stepsBefore s calls calls.length)).comments
  /-- The session without the calls that take comments away leads to these comments as well. -/
  untaken : kept = (session call s (calls.filter fun k => !k.takes)).2.comments
  sorted : kept.Pairwise fun a b => a.span.stop.offset ≤ b.span.start.offset
  nonempty : ∀ c ∈ kept, c.span.start.offset < c.span.stop.offset
  /-- No comment overlaps a token that the session has brought. -/
  apart : ∀ r ∈ (session call s calls).1, ∀ t ∈ r.token?, ∀ c ∈ kept,
    c.span.stop.offset ≤ t.span.start.offset ∨ t.span.stop.offset ≤ c.span.start.offset
  /-- Whatever a step answers, the comments that stand where it begins are kept. -/
  passed : ∀ j < stepsBefore s calls calls.length, ∀ ps rest,
    Cuts s.dialect (s.afterScans j).cursor.rest ps rest → (∀ p ∈ ps, p.isTrivia = true) →
      ∀ c ∈ commentsAt (s.afterScans j).pos ps, c ∈ kept
  closed : ∀ c ∈ kept,
    Text.slice source c.span = c.style.opening ++ c.text.toList ++ c.style.closing
  /-- A comment without an end is never kept: all that is kept lies before it. -/
  unclosed : ∀ e, .error e ∈ s.answers (stepsBefore s calls calls.length) →
    e.cause = .unclosedComment → ∀ c ∈ kept, c.span.stop.offset ≤ e.pos.offset
  /-- Taking comments away changes no token, no error and no position. -/
  undisturbed : (session call s (calls.filter fun k => !k.takes)).1.filter Reply.isReading =
    (session call s calls).1.filter Reply.isReading

/-! ## Where comments lie -/

section Lays

variable {tiles : List Tile} {answers : List (Except ScanError Token)}

theorem Lays.comment_mem (h : s.Lays tiles answers s') (hs : s.comments = []) (hc : c ∈ s'.comments) :
    .comment c ∈ tiles := by
  rw [h.comments_eq, hs, List.nil_append] at hc
  obtain ⟨tile, htile, hc⟩ := List.mem_filterMap.mp hc
  rwa [← Tile.eq_comment hc]

theorem Lays.answer_mem {o : Except ScanError Token} (h : s.Lays tiles answers s') (ho : o ∈ answers) :
    Tile.ofAnswer o ∈ tiles := by
  rw [← h.answers_eq] at ho
  obtain ⟨tile, htile, ho⟩ := List.mem_filterMap.mp ho
  rwa [← Tile.eq_ofAnswer ho]

theorem Lays.sorted (h : s.Lays tiles answers s') (hs : s.comments = []) :
    s'.comments.Pairwise fun a b => a.span.stop.offset ≤ b.span.start.offset := by
  rw [h.comments_eq, hs, List.nil_append, List.pairwise_filterMap]
  refine h.row.pairwise.imp ?_
  intro a b hle c hc c' hc'
  rw [Tile.eq_comment hc, Tile.eq_comment hc'] at hle
  exact hle

theorem Lays.slice_span (h : s.Lays tiles answers s') (hs : s.comments = []) (hc : c ∈ s'.comments) :
    Text.slice s.cursor.source c.span = c.style.opening ++ c.text.toList ++ c.style.closing :=
  h.faithful _ (h.comment_mem hs hc)

theorem Lays.span_nonempty (h : s.Lays tiles answers s') (hs : s.comments = [])
    (hc : c ∈ s'.comments) : c.span.start.offset < c.span.stop.offset := by
  apply Nat.lt_of_not_le
  intro hle
  have hslice := h.slice_span hs hc
  rw [Text.slice_eq_nil_of_isEmpty _ (by simpa [Span.isEmpty] using hle)] at hslice
  cases hstyle : c.style <;> simp [hstyle, CommentStyle.opening] at hslice

theorem Lays.apart (h : s.Lays tiles answers s') (hs : s.comments = []) (hc : c ∈ s'.comments)
    (ht : .ok t ∈ answers) :
    c.span.stop.offset ≤ t.span.start.offset ∨ t.span.stop.offset ≤ c.span.start.offset :=
  h.row.apart (h.comment_mem hs hc) (h.answer_mem ht) (by simp [Tile.ofAnswer])

/-- An unclosed comment reaches to the end of the text, so no comment lies behind it. -/
theorem Lays.stop_le_unclosed (h : s.Lays tiles answers s') (hs : s.comments = [])
    (hc : c ∈ s'.comments) (he : .error e ∈ answers) (hcause : e.cause = .unclosedComment) :
    c.span.stop.offset ≤ e.pos.offset := by
  have hmem := h.comment_mem hs hc
  have hnonempty := h.span_nonempty hs hc
  have hbounds := h.row.bounds hmem
  have hend : s'.pos.offset ≤ s.cursor.source.length := h.source_eq ▸ s'.cursor.offset_le
  have hapart := h.row.apart hmem (h.answer_mem he) (by simp [Tile.ofAnswer])
  simp only [Tile.ofAnswer, Tile.first, Tile.stop, hcause] at hapart hbounds
  omega

end Lays

/-! ## The comments that a step goes over -/

theorem comments_isPrefix_afterScans (s : TokenStream) (n : Nat) :
    s.comments <+: (s.afterScans n).comments := by
  obtain ⟨tiles, h⟩ := s.exists_lays_scans n
  rw [h.comments_eq]
  exact List.prefix_append _ _

theorem comments_afterScans_isPrefix (s : TokenStream) {m n : Nat} (h : m ≤ n) :
    (s.afterScans m).comments <+: (s.afterScans n).comments := by
  obtain ⟨i, rfl⟩ := Nat.exists_eq_add_of_le h
  rw [afterScans_add]
  exact comments_isPrefix_afterScans _ _

/-- A scan keeps the comments that it goes over, whatever it answers. -/
theorem Halt.comments_scan {ps : List Piece} (h : s.Halt ps) :
    s.scan.2.comments = s.comments ++ commentsAt s.pos ps := by
  have hcomments := comments_passAll h.cuts
  rcases scan_cases h with ⟨-, hscan⟩ | ⟨p, o, hcut, ho, hscan⟩
  · rw [hscan, hcomments]
  · have hp : p.comment? (s.passAll ps).cursor.pos = none := by
      cases p <;> first | rfl | contradiction
    rw [hscan, comments_pass, hp, Option.toList_none, List.append_nil, hcomments]

theorem mem_comments_scan {qs : List Piece} {rest : List Char}
    (hqs : Cuts s.dialect s.cursor.rest qs rest) (htrivia : ∀ p ∈ qs, p.isTrivia = true)
    (hc : c ∈ commentsAt s.pos qs) : c ∈ s.scan.2.comments := by
  obtain ⟨ps, hps⟩ := s.exists_halt
  obtain ⟨rs, rfl⟩ := hps.isPrefix hqs htrivia
  rw [hps.comments_scan, commentsAt_append]
  exact List.mem_append_right _ (List.mem_append_left _ hc)

/-! ## The tokens of a session -/

theorem mem_answers (s : TokenStream) {j n : Nat} (h : j < n) : (s.afterScans j).scan.1 ∈ s.answers n := by
  induction n generalizing s j with
  | zero => exact absurd h (Nat.not_lt_zero _)
  | succ n ih =>
    cases j with
    | zero => exact List.mem_cons_self
    | succ j => exact List.mem_cons_of_mem _ (ih s.scan.2 (Nat.lt_of_succ_lt_succ h))

theorem stepsBefore_mono (s : TokenStream) (calls : List Call) {i j : Nat} (h : i ≤ j) :
    stepsBefore s calls i ≤ stepsBefore s calls j :=
  (List.range_sublist.mpr h).countP_le

/-- A reply that shows a token comes from a step that answers with it. -/
theorem effective_of_token {calls : List Call} {i : Nat} {r : Reply} (hs : s.finished = false)
    (hr : replyTo s calls i = some r) (ht : r.token? = some t) :
    isEffective s calls i = true ∧ (s.afterScans (stepsBefore s calls i)).scan.1 = .ok t := by
  cases hk : calls[i]? with
  | none =>
    rw [replyTo_end hk] at hr
    contradiction
  | some k =>
    cases k with
    | scan =>
      obtain rfl := Option.some.inj (((inStep hs calls i).scan hk).symm.trans hr)
      refine ⟨by rw [isEffective, hk]; rfl, ?_⟩
      cases hanswer : (s.afterScans (stepsBefore s calls i)).scan.1 <;> simp_all [Reply.token?]
    | next =>
      -- Behind an error `next` does not get to the stream any more.
      cases hover : loopOver s calls i with
      | true =>
        rw [(replyTo_next_over hs hk hover).1] at hr
        obtain rfl := Option.some.inj hr
        contradiction
      | false =>
        have heffective : isEffective s calls i = true := by rw [isEffective, hk, hover]; rfl
        refine ⟨heffective, ?_⟩
        cases hanswer : (s.afterScans (stepsBefore s calls i)).scan.1 with
        | ok u =>
          rw [replyTo_next_ok hs hk heffective hanswer] at hr
          obtain rfl := Option.some.inj hr
          exact congrArg Except.ok (Option.some.inj ht)
        | error e =>
          rw [replyTo_next_error hs hk heffective hanswer] at hr
          obtain rfl := Option.some.inj hr
          cases hend : e.isEnd <;> simp [hend, Reply.token?] at ht
    | _ =>
      rw [replyTo_eq hk] at hr
      obtain rfl := Option.some.inj hr
      contradiction

theorem token_mem_answers {calls : List Call} {r : Reply} (hs : s.finished = false)
    (hr : r ∈ (session call s calls).1) (ht : r.token? = some t) :
    .ok t ∈ s.answers (stepsBefore s calls calls.length) := by
  obtain ⟨i, hi⟩ := List.mem_iff_getElem?.mp hr
  obtain ⟨heffective, hanswer⟩ := effective_of_token hs hi ht
  have hlt : i < calls.length := by
    apply Nat.lt_of_not_le
    intro hle
    have := replyTo_end (s := s) (List.getElem?_eq_none hle)
    rw [replyTo, hi] at this
    contradiction
  have hsteps := stepsBefore_mono s calls (Nat.succ_le_of_lt hlt)
  rw [stepsBefore_succ, if_pos heffective] at hsteps
  rw [← hanswer]
  exact s.mem_answers hsteps

/-! ## A session without taking comments -/

theorem Call.batch_eq_nil (h : k.takes = false) (r : Reply) : k.batch r = [] := by
  cases k <;> first | rfl | contradiction

/-- `u` is the stream `s` with the comments `taken` not taken away. -/
structure Untaken (taken : List Comment) (s u : TokenStream) : Prop where
  restored_eq : u.restored [] = s.restored taken
  finished_eq : u.finished = s.finished

namespace Untaken

variable {taken : List Comment}

theorem cursor_eq (h : Untaken taken s u) : u.cursor = s.cursor := by
  simpa using congrArg cursor h.restored_eq

theorem comments_eq (h : Untaken taken s u) : u.comments = taken ++ s.comments := by
  simpa using congrArg comments h.restored_eq

theorem scan_eq (h : Untaken taken s u) : u.scan.1 = s.scan.1 := by
  have hscan := congrArg (fun x => x.scan.1) h.restored_eq
  simpa [scan_restored] using hscan

theorem next_eq (h : Untaken taken s u) : u.next?.1 = s.next?.1 := by
  have hscan := h.scan_eq
  unfold next?
  rw [h.finished_eq]
  split
  · rfl
  · generalize s.scan = a at hscan ⊢
    generalize u.scan = b at hscan ⊢
    obtain ⟨answer, s'⟩ := a
    obtain ⟨answer', u'⟩ := b
    obtain rfl : answer' = answer := hscan
    cases answer' <;> rfl

/-- A call that takes no comments does the same to both streams. -/
theorem call (h : Untaken taken s u) (hk : k.takes = false) : Untaken taken (s.call k).2 (u.call k).2 := by
  have hs := restored_call s taken k
  have hu := restored_call u [] k
  rw [Call.batch_eq_nil hk, List.append_nil] at hs hu
  refine ⟨by rw [hs, hu, h.restored_eq, h.finished_eq], ?_⟩
  cases k with
  | scan => rw [TokenStream.call, TokenStream.call, finished_scan, finished_scan, h.finished_eq]
  | next =>
    rw [finished_call, finished_call, h.finished_eq, TokenStream.call, TokenStream.call, h.next_eq]
  | takeComments => contradiction
  | _ => exact h.finished_eq

theorem takeComments (h : Untaken taken s u) (hk : k.takes = true) :
    Untaken (taken ++ k.batch (s.call k).1) (s.call k).2 u := by
  cases k with
  | takeComments =>
    have hs := restored_call s taken .takeComments
    exact ⟨h.restored_eq.trans hs.symm, h.finished_eq⟩
  | _ => contradiction

/-- Both streams give the same tokens, errors and positions. -/
theorem reading_eq (h : Untaken taken s u) (k : Call) :
    [(u.call k).1].filter Reply.isReading = [(s.call k).1].filter Reply.isReading := by
  cases k with
  | scan => rw [TokenStream.call, TokenStream.call, h.scan_eq]
  | next => rw [TokenStream.call, TokenStream.call, h.next_eq]
  | pos => rw [TokenStream.call, TokenStream.call, pos, pos, h.cursor_eq]
  | comments => rfl
  | takeComments => rfl

end Untaken

/-- The stream after the first `i` calls but for those that take comments away. -/
def keepingStateAt (s : TokenStream) (calls : List Call) (i : Nat) : TokenStream :=
  (session call s ((calls.take i).filter fun k => !k.takes)).2

theorem filter_take_succ {calls : List Call} {i : Nat} (h : calls[i]? = some k) :
    (calls.take (i + 1)).filter (fun k => !k.takes) =
      (calls.take i).filter (fun k => !k.takes) ++ if k.takes then [] else [k] := by
  rw [List.take_add_one, h, Option.toList_some, List.filter_append]
  cases htakes : k.takes <;> simp [htakes]

theorem keepingStateAt_succ {calls : List Call} {i : Nat} (h : calls[i]? = some k) :
    keepingStateAt s calls (i + 1) =
      if k.takes then keepingStateAt s calls i else ((keepingStateAt s calls i).call k).2 := by
  rw [keepingStateAt, filter_take_succ h, session_append, keepingStateAt]
  split <;> rfl

/-- **Side by side.** After each call, the session has taken away from its stream what the one without
taking still keeps, and the two streams differ in nothing else. -/
theorem untaken_stateAt (s : TokenStream) (calls : List Call) (i : Nat) :
    Untaken (takenBefore s calls i) (stateAt s calls i) (keepingStateAt s calls i) := by
  induction i with
  | zero => exact ⟨rfl, rfl⟩
  | succ i ih =>
    rw [takenBefore_succ]
    cases hk : calls[i]? with
    | none =>
      have hstay : keepingStateAt s calls (i + 1) = keepingStateAt s calls i := by
        simp [keepingStateAt, List.take_add_one, hk]
      simpa [stateAt_end hk, hstay, batchAt, hk] using ih
    | some k =>
      rw [batchAt_eq hk, stateAt_succ hk, keepingStateAt_succ hk]
      cases htakes : k.takes with
      | true => exact ih.takeComments htakes
      | false =>
        rw [Call.batch_eq_nil htakes, List.append_nil]
        exact ih.call htakes

theorem readings_eq (s : TokenStream) (calls : List Call) (i : Nat) :
    (session call s ((calls.take i).filter fun k => !k.takes)).1.filter Reply.isReading =
      (session call s (calls.take i)).1.filter Reply.isReading := by
  induction i with
  | zero => rfl
  | succ i ih =>
    cases hk : calls[i]? with
    | none => simpa [List.take_add_one, hk] using ih
    | some k =>
      have hreading := (untaken_stateAt s calls i).reading_eq k
      rw [filter_take_succ hk, List.take_add_one, hk, Option.toList_some, session_append, session_append,
        List.filter_append, List.filter_append, ih]
      congr 1
      cases htakes : k.takes with
      | true =>
        -- The reply to such a call is a batch of comments, and no reading.
        cases k with
        | takeComments => rfl
        | _ => contradiction
      | false => exact hreading

end TokenStream

/-- **No comment is lost.** Whatever calls are made of a stream and in whatever order, the batches of
comments that were taken away, one after the other, and then the comments that the stream still keeps, are
the comments of a stream that makes the same steps and from which nothing is taken: in the order of the
text, none of them twice or in pieces, none missing because a step has failed, and none that has no end.
And taking comments away disturbs nothing else. -/
theorem no_comment_is_lost (d : Dialect) (source : String) (calls : List TokenStream.Call) :
    (TokenStream.ofText d source).NoneLost source.toList calls
      ((TokenStream.ofText d source).takenBefore calls calls.length ++
        (session TokenStream.call (TokenStream.ofText d source) calls).2.comments) := by
  generalize hs : TokenStream.ofText d source = s
  have hfinished : s.finished = false := hs ▸ rfl
  have hnone : s.comments = [] := hs ▸ rfl
  have hsource : s.cursor.source = source.toList := hs ▸ rfl
  have hlast : (session TokenStream.call s calls).2 = s.stateAt calls calls.length := by
    rw [TokenStream.stateAt, List.take_length]
  -- With what was taken put back, the stream is one that is only scanned. The rest is about that one.
  have hkept : s.takenBefore calls calls.length ++ (session TokenStream.call s calls).2.comments =
      (s.afterScans (s.stepsBefore calls calls.length)).comments := by
    rw [hlast, ← TokenStream.comments_restored, TokenStream.restored_stateAt hfinished]
  obtain ⟨tiles, hlays⟩ := s.exists_lays_scans (s.stepsBefore calls calls.length)
  rw [hkept]
  constructor
  case scanned => rfl
  case untaken =>
    have huntaken := (s.untaken_stateAt calls calls.length).comments_eq
    rw [← hkept, hlast, ← huntaken, TokenStream.keepingStateAt, List.take_length]
  case sorted => exact hlays.sorted hnone
  case nonempty => exact fun c hc => hlays.span_nonempty hnone hc
  case apart =>
    intro r hr t ht c hc
    exact hlays.apart hnone hc (TokenStream.token_mem_answers hfinished hr ht)
  case passed =>
    intro j hj ps rest hps htrivia c hc
    rw [← TokenStream.dialect_afterScans s j] at hps
    have hmem := TokenStream.mem_comments_scan hps htrivia hc
    rw [← TokenStream.afterScans_succ] at hmem
    exact (s.comments_afterScans_isPrefix hj).subset hmem
  case closed => exact fun c hc => hsource ▸ hlays.slice_span hnone hc
  case unclosed => exact fun e he hcause c hc => hlays.stop_le_unclosed hnone hc he hcause
  case undisturbed =>
    have hreadings := s.readings_eq calls calls.length
    rwa [List.take_length] at hreadings

/-- The first scan fails behind a comment. The comment is kept all the same, although comments are taken
away before the next scan. -/
theorem comment_kept_before_flaw :
    let s := TokenStream.ofText ⟨false⟩ "/*a*/#//b"
    let calls : List TokenStream.Call := [.scan, .takeComments, .scan]
    s.scan.1 = .error ⟨.unknownOperator "#", ⟨5, 0, 5⟩⟩ ∧
    ⟨.block, "a", ⟨⟨0, 0, 0⟩, ⟨5, 0, 5⟩⟩⟩ ∈
      s.takenBefore calls 3 ++ (session TokenStream.call s calls).2.comments := by
  intro s calls
  have hscan : s.scan.1 = .error ⟨.unknownOperator "#", ⟨5, 0, 5⟩⟩ := by
    have htrivia : s.scan = (s.pass (.comment .block ['a'])).scan := TokenStream.scan_trivia rfl rfl
    rw [htrivia]
    exact congrArg Prod.fst (TokenStream.scan_outcome (p := .marks ['#']) rfl rfl)
  obtain ⟨after, htext, hcomment⟩ : ∃ after, s.cursor.rest = (Piece.comment .block ['a']).text ++ after ∧
      Lexeme s.dialect (.comment .block ['a']) after := lexeme_of_cut rfl rfl
  have hcuts : Cuts s.dialect s.cursor.rest [.comment .block ['a']] after :=
    htext ▸ .piece hcomment (.done after)
  have hkept := no_comment_is_lost ⟨false⟩ "/*a*/#//b" calls
  exact ⟨hscan, hkept.passed 0 (by decide) _ _ hcuts (by decide) _ List.mem_cons_self⟩

end BoardLang
