import BoardLang.Proofs.Lookahead
import BoardLang.Report.Listing
import BoardLang.Report.Summary

/-!
# The first fault of a text

Two reports go through a text in two ways. A listing takes the tokens from a loop over the stream and
can only fail where a scan fails. A summary advances a reader, and a number that does not fit stops it
as well, so that two sorts of faults compete for being the first.

`summary_reports_first_fault` says that the summary agrees with the run of the stream and reports the
fault that comes first in the text. The loop of the summary is compared with the run in
`summarise_eq`; `offset_lt_stop` makes a number that does not fit come before every error of a scan.
-/

namespace BoardLang

/-- The token is a number of more than 64 bits. -/
def Token.overflows (t : Token) : Bool :=
  t.kind = .int && decide (UInt64.size ≤ Text.Decimal.value t.literal.toList)

/-- What is to be reported about a text, told from the run of a stream over it. -/
structure FirstFault (d : Dialect) (source : String) (run : Run) (report : Except SourceError Summary) :
    Prop where
  /-- A number that does not fit is reported, even if a scan fails further on. -/
  overflow : ∀ t, run.tokens.find? Token.overflows = some t →
    report = .error (.overflow t.literal t.span.start)
  /-- If all numbers fit, the error that stops the run is reported. -/
  scan : run.tokens.find? Token.overflows = none → run.stop.cause ≠ .endOfInput →
    report = .error (.scan run.stop)
  /-- If all numbers fit and the run gets to the end, the counts are reported; the comments are those of
  the one way to cut the text. -/
  counts : run.tokens.find? Token.overflows = none → run.stop.cause = .endOfInput →
    ∃ ps, Cuts d source.toList ps [] ∧ (∀ qs, Cuts d source.toList qs [] → qs = ps) ∧
      report = .ok
        { tokens := run.tokens.length
          identifiers := run.tokens.countP (·.kind = .ident)
          comments := ps.countP Piece.isComment }
  never_unexpected : ∀ expected found pos, report ≠ .error (.unexpected expected found pos)
  /-- Where there is a listing, only a number can be wrong. -/
  of_listing : ∀ text, listing d source = .ok text →
    (∃ summary, report = .ok summary) ∨ ∃ literal pos, report = .error (.overflow literal pos)
  /-- Where there is no listing, the error in its place is reported, or else a number that stands before
  this error. -/
  of_error : ∀ e, listing d source = .error e →
    report = .error e ∨ ∃ literal pos, report = .error (.overflow literal pos) ∧ pos.offset < e.pos.offset

/-! ## The loop of the summary -/

def Summary.add (counts : Summary) (t : Token) : Summary :=
  { counts with
    tokens := counts.tokens + 1
    identifiers := counts.identifiers + if t.kind = .ident then 1 else 0 }

/-- What a run over the rest of a text has to be reported as, with `counts` before it. -/
def Run.report (run : Run) (counts : Summary) : Except SourceError Summary :=
  match run.tokens.find? Token.overflows with
  | some t => .error (.overflow t.literal t.span.start)
  | none =>
    if run.stop.isEnd then
      .ok
        { tokens := counts.tokens + run.tokens.length
          identifiers := counts.identifiers + run.tokens.countP (·.kind = .ident)
          comments := run.final.comments.length }
    else .error (.scan run.stop)

theorem Run.report_overflow {run : Run} {counts : Summary} {t : Token}
    (h : run.tokens.find? Token.overflows = some t) :
    run.report counts = .error (.overflow t.literal t.span.start) := by
  rw [report, h]

theorem Run.report_scan {run : Run} {counts : Summary} (h : run.tokens.find? Token.overflows = none)
    (hstop : run.stop.isEnd = false) : run.report counts = .error (.scan run.stop) := by
  simp only [report, h, hstop, Bool.false_eq_true, if_false]

theorem Run.report_counts {run : Run} {counts : Summary} (h : run.tokens.find? Token.overflows = none)
    (hstop : run.stop.isEnd = true) :
    run.report counts = .ok
      { tokens := counts.tokens + run.tokens.length
        identifiers := counts.identifiers + run.tokens.countP (·.kind = .ident)
        comments := run.final.comments.length } := by
  simp only [report, h, hstop, if_true]

theorem Run.report_after (run : Run) (t : Token) (counts : Summary) :
    (run.after [t]).report counts =
      if t.overflows then .error (.overflow t.literal t.span.start)
      else run.report (counts.add t) := by
  unfold report
  rw [tokens_after, List.singleton_append, List.find?_cons]
  cases t.overflows with
  | true => rfl
  | false =>
    have htokens : counts.tokens + (t :: run.tokens).length = (counts.add t).tokens + run.tokens.length := by
      simp only [Summary.add, List.length_cons]
      omega
    have hidentifiers : counts.identifiers + (t :: run.tokens).countP (·.kind = .ident) =
        (counts.add t).identifiers + run.tokens.countP (·.kind = .ident) := by
      simp only [Summary.add, List.countP_cons, decide_eq_true_eq]
      omega
    rw [stop_after, final_after, htokens, hidentifiers]
    rfl

namespace Reader

variable {r r' : Reader} {s : TokenStream} {t : Token} {counts : Summary}

theorem summarise_token (h : r.advance = (.ok (some t), r')) :
    r.summarise counts =
      match r'.tally counts with
      | .ok counts => r'.summarise counts
      | .error e => .error e := by
  rw [summarise]
  split <;> rename_i h' <;> rw [h] at h' <;> simp at h'
  obtain ⟨-, rfl⟩ := h'
  rfl

theorem summarise_end (h : r.advance = (.ok none, r')) :
    r.summarise counts = .ok { counts with comments := r'.comments.length } := by
  rw [summarise]
  split <;> rename_i h' <;> rw [h] at h' <;> simp at h'
  rw [h']

theorem summarise_error {e : SourceError} (h : r.advance = (.error e, r')) :
    r.summarise counts = .error e := by
  rw [summarise]
  split <;> rename_i h' <;> rw [h] at h' <;> simp at h'
  rw [h'.1]

/-- A token in view is counted unless it is a number that does not fit. -/
theorem tally_token (s : TokenStream) (counts : Summary) (ht : t.IsLegible) :
    (⟨s, .token t⟩ : Reader).tally counts =
      if t.overflows then .error (.overflow t.literal t.span.start) else .ok (counts.add t) := by
  have hcurrent : (⟨s, .token t⟩ : Reader).current = some t := rfl
  have hkind : (⟨s, .token t⟩ : Reader).currentKind = some t.kind := rfl
  have hrules : (⟨s, .token t⟩ : Reader).Rules :=
    rules_of_isLegible fun u hu => Option.some.inj (hcurrent.symm.trans hu) ▸ ht
  unfold tally
  rw [hkind]
  split <;> rename_i hsort
  · have hident : t.kind = .ident := Option.some.inj hsort
    have hok : (⟨s, .token t⟩ : Reader).expectIdentifier = .ok ⟨t⟩ :=
      (hrules.identifier_ok ⟨t⟩).mpr ⟨rfl, hident⟩
    simp [hok, Token.overflows, hident, Summary.add]
  · have hint : t.kind = .int := Option.some.inj hsort
    have hover : t.overflows = decide (UInt64.size ≤ Text.Decimal.value t.literal.toList) := by
      rw [Token.overflows, hint, decide_eq_true rfl, Bool.true_and]
    by_cases hfits : UInt64.size ≤ Text.Decimal.value t.literal.toList
    · have herror := (hrules.int_error _).mpr (Or.inr ⟨t, hcurrent, hint, hfits, rfl⟩)
      rw [decide_eq_true hfits] at hover
      simp only [herror, hover, if_true]
    · have hlt : Text.Decimal.value t.literal.toList < UInt64.size := Nat.lt_of_not_le hfits
      have hok := (hrules.int_ok ⟨t, UInt64.ofNatLT _ hlt⟩).mpr ⟨hcurrent, hint, rfl⟩
      rw [decide_eq_false hfits] at hover
      simp [hok, hover, hint, Summary.add]
  · rename_i hsort'
    have hident : t.kind ≠ .ident := fun h => hsort' (congrArg some h)
    have hint : t.kind ≠ .int := fun h => hsort (congrArg some h)
    simp [Token.overflows, hident, hint, Summary.add]

/-- The loop reports what the run of the stream prescribes. -/
theorem summarise_eq (hr : r.view.isOpen = true) (counts : Summary) :
    r.summarise counts = r.stream.run.report counts := by
  generalize hs : r.stream = s
  induction s using TokenStream.run.induct generalizing r counts with
  | case1 s t s' h _ ih =>
    subst hs
    have htally := tally_token s' counts (TokenStream.isLegible_of_scan h)
    rw [summarise_token (advance_ok hr h), htally, TokenStream.run_ok h, Run.report_after]
    cases t.overflows with
    | true => rfl
    | false => exact ih (r := ⟨s', .token t⟩) rfl (counts.add t) rfl
  | case2 s e s' h =>
    subst hs
    have hadvance := advance_error hr h
    rw [TokenStream.run_error h]
    cases hend : e.isEnd with
    | true =>
      rw [hend] at hadvance
      rw [summarise_end hadvance]
      simp [Run.report, hend, comments]
    | false =>
      rw [hend] at hadvance
      rw [summarise_error hadvance]
      simp [Run.report, hend]

end Reader

/-! ## Comments of a run that gets to the end -/

/-- A run that gets to the end has met the comments of the one way to cut the text. -/
theorem TokenStream.length_comments_final {s : TokenStream} (hs : s.comments = [])
    (hend : s.run.stop.isEnd = true) :
    ∃ ps, Cuts s.dialect s.cursor.rest ps [] ∧
      s.run.final.comments.length = ps.countP Piece.isComment := by
  obtain ⟨ps, hps, hcomments, ⟨hnil, -⟩ | ⟨p, e, -, ho, hrun⟩⟩ := s.run_cases
  · refine ⟨ps, hnil ▸ hps, ?_⟩
    rw [hcomments, hs, List.nil_append, length_commentsAt]
  · rw [hrun, (Piece.outcome?_eq_error ho).2] at hend
    contradiction

/-- The listing of a text fails exactly if the run does not get to the end, with the error that stops
the run. -/
theorem listing_eq (d : Dialect) (source : String) :
    listing d source =
      if (TokenStream.ofText d source).run.stop.isEnd then
        .ok (listingOf (TokenStream.ofText d source).run.tokens)
      else .error (.scan (TokenStream.ofText d source).run.stop) := by
  rw [listing, lex, TokenStream.collect_eq_run rfl]
  by_cases hend : (TokenStream.ofText d source).run.stop.isEnd = true <;> simp [hend]

/-- **The first fault.** A summary reports the first number that does not fit, else the error that
stops the run, else the counts; and it agrees with the listing of the text. -/
theorem summary_reports_first_fault (d : Dialect) (source : String) :
    FirstFault d source (TokenStream.ofText d source).run (summary d source) := by
  have hsummary : summary d source = (TokenStream.ofText d source).run.report {} :=
    Reader.summarise_eq (r := Reader.ofText d source) rfl {}
  have hlisting := listing_eq d source
  rw [hsummary]
  constructor
  case overflow =>
    intro t ht
    exact Run.report_overflow ht
  case scan =>
    intro hfits hstop
    exact Run.report_scan hfits (by simpa [ScanError.isEnd] using hstop)
  case counts =>
    intro hfits hstop
    have hend := ScanError.isEnd_iff.mpr hstop
    obtain ⟨ps, hps, hcomments⟩ := TokenStream.length_comments_final (s := .ofText d source) rfl hend
    refine ⟨ps, hps, fun qs hqs => hqs.unique hps, ?_⟩
    rw [Run.report_counts hfits hend, hcomments, Nat.zero_add, Nat.zero_add]
  case never_unexpected =>
    intro expected found pos
    unfold Run.report
    split
    · simp
    · split <;> simp
  case of_listing =>
    intro text htext
    cases hfind : (TokenStream.ofText d source).run.tokens.find? Token.overflows with
    | some t => exact Or.inr ⟨_, _, Run.report_overflow hfind⟩
    | none =>
      cases hend : (TokenStream.ofText d source).run.stop.isEnd with
      | true => exact Or.inl ⟨_, Run.report_counts hfind hend⟩
      | false => simp [hlisting, hend] at htext
  case of_error =>
    intro e he
    cases hend : (TokenStream.ofText d source).run.stop.isEnd with
    | true => simp [hlisting, hend] at he
    | false =>
      obtain rfl : .scan (TokenStream.ofText d source).run.stop = e := by
        simpa [hlisting, hend] using he
      cases hfind : (TokenStream.ofText d source).run.tokens.find? Token.overflows with
      | some t =>
        -- The number is a token of the run, and the run stops behind all of its tokens.
        have hbefore := TokenStream.offset_lt_stop (List.mem_of_find?_eq_some hfind)
        exact Or.inr ⟨_, _, Run.report_overflow hfind, hbefore⟩
      | none => exact Or.inl (Run.report_scan hfind hend)

end BoardLang
