import BoardLang.Proofs.FirstFault
import BoardLang.Proofs.Lines

/-!
# Diagnostics point at the fault

A diagnostic shows an error in three lines: what is wrong and where, the line of the text, and a caret
under the place. The line is found by counting back from the place and by looking for its end, so it is
the right one only because the places of errors are true. `diagnostics_point_at_fault` says that it is, for
every error that a listing or a summary reports.

* `fault_cases`: such an error comes from what stops the run of the stream, or from a token of the run.
* `true_and_plain_of_fault`: such an error has a true position and is worded on one line.
* `Position.TrueIn.exists_line` then gives the line and the excerpt.
-/

namespace BoardLang

def SourceError.headline (e : SourceError) (file : String) : String :=
  "error: " ++ file ++ ":" ++ toString (e.pos.line + 1) ++ ":" ++ toString (e.pos.column + 1) ++ ": " ++
    e.wording

/-- How the error is shown that lies on the line `line` of the text. -/
structure SourceError.ShownOn (e : SourceError) (file source : String) (line : List Char) : Prop where
  lies : e.pos.LiesOn source.toList line
  plain : '\n' ∉ e.wording.toList
  /-- The caret stands behind as many blanks as there are characters before the place. -/
  render_eq : e.render file source =
    e.headline file ++ "\n" ++ String.ofList line ++ "\n" ++
      String.ofList (List.replicate e.pos.column ' ') ++ "^"
  three_lines : '\n' ∉ file.toList → (e.render file source).toList.splitOn '\n' =
    [(e.headline file).toList, line, List.replicate e.pos.column ' ' ++ ['^']]

/-! ## Where faults come from -/

/-- An error that is reported stops the run of the stream, or it is a number among its tokens. -/
theorem fault_cases {d : Dialect} {source : String} {e : SourceError}
    (h : listing d source = .error e ∨ summary d source = .error e) :
    e = .scan (TokenStream.ofText d source).run.stop ∨
    ∃ t ∈ (TokenStream.ofText d source).run.tokens, t.kind = .int ∧
      e = .overflow t.literal t.span.start := by
  have hsummary : summary d source = (TokenStream.ofText d source).run.report {} :=
    Reader.summarise_eq (r := Reader.ofText d source) rfl {}
  rcases h with h | h
  · rw [listing_eq] at h
    split at h
    · contradiction
    · exact Or.inl (Except.error.inj h).symm
  · rw [hsummary, Run.report] at h
    split at h
    · rename_i t ht
      have hover := List.find?_some ht
      simp only [Token.overflows, Bool.and_eq_true, decide_eq_true_eq] at hover
      exact Or.inr ⟨t, List.mem_of_find?_eq_some ht, hover.1, (Except.error.inj h).symm⟩
    · split at h
      · contradiction
      · exact Or.inl (Except.error.inj h).symm

/-- A run shows true positions. -/
theorem TokenStream.TrueIn.run {s : TokenStream} {source : List Char} (h : s.TrueIn source) :
    (∀ t ∈ s.run.tokens, t.TrueIn source) ∧ s.run.stop.pos.TrueIn source := by
  induction s using TokenStream.run.induct with
  | case1 s t s' hscan _ ih =>
    obtain ⟨hsights, hnext⟩ := h.scan
    rw [hscan] at hsights hnext
    obtain ⟨htokens, hstop⟩ := ih hnext
    rw [run_ok hscan]
    refine ⟨fun u hu => ?_, hstop⟩
    rcases List.mem_cons.mp hu with rfl | hu
    · exact hsights _ (List.mem_singleton.mpr rfl)
    · exact htokens u hu
  | case2 s e s' hscan =>
    obtain ⟨hsights, -⟩ := h.scan
    rw [hscan] at hsights
    rw [run_error hscan]
    exact ⟨fun u hu => absurd hu List.not_mem_nil, hsights _ (List.mem_singleton.mpr rfl)⟩

/-! ## Faults are worded on one line -/

theorem newline_not_mem_append {a b : String} :
    '\n' ∉ (a ++ b).toList ↔ '\n' ∉ a.toList ∧ '\n' ∉ b.toList := by
  rw [String.toList_append, List.mem_append, not_or]

/-- A flaw is worded on one line, since the characters that it quotes are no newlines or are escaped. -/
theorem Flaw.plain {d : Dialect} {p : Piece} {pos : Position} {after : List Char} {e : ScanError}
    (h : Flaw d p after) (ho : p.outcome? pos = some (.error e)) : '\n' ∉ e.cause.message.toList := by
  cases h with
  | slash _ =>
    obtain rfl := Except.error.inj (Option.some.inj ho)
    exact show '\n' ∉ ScanError.Cause.format.message.toList by decide
  | unclosed _ =>
    obtain rfl := Except.error.inj (Option.some.inj ho)
    exact show '\n' ∉ ScanError.Cause.unclosedComment.message.toList by decide
  | @marks c run after _ hrun _ =>
    obtain rfl := Except.error.inj (Option.some.inj ho)
    have hmarks : '\n' ∉ c :: run := fun hmem => ne_newline_of_isMark (hrun.marks _ hmem).1 rfl
    refine newline_not_mem_append.mpr ⟨newline_not_mem_append.mpr ⟨by decide, ?_⟩, by decide⟩
    rwa [String.toList_ofList]
  | @stray c rest _ =>
    obtain rfl := Except.error.inj (Option.some.inj ho)
    exact newline_not_mem_append.mpr ⟨by decide, Text.newline_not_mem_quotedWith (by decide) [c]⟩

theorem TokenStream.plain_stop (s : TokenStream) : '\n' ∉ s.run.stop.cause.message.toList := by
  obtain ⟨ps, -, -, ⟨-, hrun⟩ | ⟨p, e, hcut, ho, hrun⟩⟩ := s.run_cases
  · rw [hrun]
    exact show '\n' ∉ ScanError.Cause.endOfInput.message.toList by decide
  · rw [hrun]
    obtain ⟨after, -, hflaw⟩ := flaw_of_cut hcut (Piece.outcome?_eq_error ho).1
    exact hflaw.plain ho

theorem Token.IsLegible.plain {t : Token} (h : t.IsLegible) (hkind : t.kind = .int) :
    '\n' ∉ (SourceError.overflow t.literal t.span.start).wording.toList := by
  refine newline_not_mem_append.mpr ⟨newline_not_mem_append.mpr ⟨by decide, fun hmem => ?_⟩, by decide⟩
  exact absurd ((h hkind).2 _ hmem) (by decide)

/-- A reported error has a true position and is worded on one line. -/
theorem true_and_plain_of_fault {d : Dialect} {source : String} {e : SourceError}
    (h : listing d source = .error e ∨ summary d source = .error e) :
    e.pos.TrueIn source.toList ∧ '\n' ∉ e.wording.toList := by
  have hstart : (TokenStream.ofText d source).TrueIn source.toList := ⟨rfl, nofun⟩
  obtain ⟨htokens, hstop⟩ := hstart.run
  rcases fault_cases h with rfl | ⟨t, ht, hkind, rfl⟩
  · exact ⟨hstop, TokenStream.plain_stop _⟩
  · exact ⟨(htokens t ht).start, (TokenStream.isLegible_of_mem_run ht).plain hkind⟩

/-! ## Three lines -/

theorem SourceError.plain_headline {e : SourceError} {file : String} (hfile : '\n' ∉ file.toList)
    (hwording : '\n' ∉ e.wording.toList) : '\n' ∉ (e.headline file).toList := by
  simp only [headline, newline_not_mem_append]
  have hline := Text.newline_not_mem_toString (e.pos.line + 1)
  have hcolumn := Text.newline_not_mem_toString (e.pos.column + 1)
  exact ⟨⟨⟨⟨⟨⟨⟨by decide, hfile⟩, by decide⟩, hline⟩, by decide⟩, hcolumn⟩, by decide⟩, hwording⟩

theorem SourceError.render_of_excerpt {e : SourceError} {source : String} {line : List Char}
    (h : Text.excerpt source.toList e.pos =
      String.ofList (line ++ '\n' :: List.replicate e.pos.column ' ' ++ ['^'])) (file : String) :
    e.render file source =
      e.headline file ++ "\n" ++ String.ofList line ++ "\n" ++
        String.ofList (List.replicate e.pos.column ' ') ++ "^" := by
  apply String.ext
  rw [render, message_eq, h, headline, Position.describe]
  simp

/-- **Diagnostics point at the fault.** An error that the listing or the summary of a text reports lies on
one of its lines, at the end of this line only if it lies at a newline or at the end of the text. The
diagnostic shows this line, below what is wrong and where, and a caret under the place; and these are three
lines unless the name of the file breaks the first one. -/
theorem diagnostics_point_at_fault (d : Dialect) (source file : String) (e : SourceError)
    (h : listing d source = .error e ∨ summary d source = .error e) :
    ∃ line, e.ShownOn file source line := by
  obtain ⟨htrue, hplain⟩ := true_and_plain_of_fault h
  obtain ⟨line, hline, hexcerpt⟩ := htrue.exists_line
  have hrender := SourceError.render_of_excerpt hexcerpt file
  refine ⟨line, hline, hplain, hrender, fun hfile => ?_⟩
  have hhead := SourceError.plain_headline hfile hplain
  have hcaret : '\n' ∉ List.replicate e.pos.column ' ' ++ ['^'] := by simp
  have hchars : (e.render file source).toList = (e.headline file).toList ++
      '\n' :: (line ++ '\n' :: (List.replicate e.pos.column ' ' ++ ['^'])) := by
    rw [hrender]
    simp
  rw [hchars, Text.splitOn_append_newline, Text.splitOn_append_newline, List.splitOn_eq_singleton hhead,
    List.splitOn_eq_singleton hline.one_line, List.splitOn_eq_singleton hcaret]
  rfl

/-- A slash at the end of a line is wrong behind it, in the line that a comment of two lines has begun. -/
theorem diagnostic_behind_end_of_line :
    let e : SourceError := .scan ⟨.format, ⟨8, 1, 4⟩⟩
    listing ⟨false⟩ "a/*\n*/ /\nb" = .error e ∧
    e.render "in.bdl" "a/*\n*/ /\nb" = "error: in.bdl:2:5: format error\n*/ /\n    ^" := by
  intro e
  have hstop : (TokenStream.ofText ⟨false⟩ "a/*\n*/ /\nb").run.stop = ⟨.format, ⟨8, 1, 4⟩⟩ := by
    rw [TokenStream.run_ok (TokenStream.scan_outcome rfl rfl), Run.stop_after,
      TokenStream.run_trivia rfl rfl, TokenStream.run_trivia rfl rfl,
      TokenStream.run_flaw (p := .slash) rfl rfl]
    rfl
  have hlisting : listing ⟨false⟩ "a/*\n*/ /\nb" = .error e := by
    rw [listing_eq, hstop]
    rfl
  obtain ⟨line, hshown⟩ := diagnostics_point_at_fault ⟨false⟩ _ "in.bdl" e (Or.inl hlisting)
  have hline : ("a/*\n*/ /\nb".toList.splitOn '\n')[1]? = some "*/ /".toList := by decide
  obtain rfl := Option.some.inj (hshown.lies.line_eq.symm.trans hline)
  exact ⟨hlisting, hshown.render_eq.trans (by decide)⟩

end BoardLang
