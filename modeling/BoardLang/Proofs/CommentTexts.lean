import BoardLang.Proofs.KeptComments

/-!
# Comments are what stands in the text

A comment carries its text and its place. The text is what the marks of the comment enclose. The place
begins where the stream stood and is as long as text and marks together, whatever stands in the source
there. The two agree: at the place of every comment that a stream keeps, the source has the text between
the marks of its style, and no earlier end was passed over (`comments_stand_in_text`).

The argument is about one comment in front of what comes after it (`Lexeme.standsIn`). A scan adds such
comments and no others, and all other calls add none.
-/

namespace BoardLang

variable {c : Comment} {source : List Char}

/-- The comment is what stands in `source` at its place. -/
structure Comment.StandsIn (c : Comment) (source : List Char) : Prop where
  stop_le : c.span.stop.offset ≤ source.length
  /-- A line comment goes on until the line ends. -/
  line : c.style = .line →
    Text.slice source c.span = ['/', '/'] ++ c.text.toList ∧ '\n' ∉ c.text.toList ∧
      (c.span.stop.offset = source.length ∨ source[c.span.stop.offset]? = some '\n')
  /-- A block comment has its end where it is closed, and is not closed before. -/
  block : c.style = .block →
    Text.slice source c.span = ['/', '*'] ++ c.text.toList ++ ['*', '/'] ∧
      ∀ u v, c.text.toList ++ ['*', '/'] = u ++ ['*', '/'] ++ v → u = c.text.toList ∧ v = []

def TokenStream.Reply.shownComments : TokenStream.Reply → List Comment
  | .comments cs => cs
  | _ => []

/-! ## One comment -/

/-- The first end of a block comment is the only one. -/
theorem eq_of_first_closing {body after u v : List Char}
    (hfirst : ∀ u v, body ++ ['*', '/'] ++ after = u ++ ['*', '/'] ++ v → body.length ≤ u.length)
    (h : body ++ ['*', '/'] = u ++ ['*', '/'] ++ v) : u = body ∧ v = [] := by
  have hle : body.length ≤ u.length := by
    apply hfirst u (v ++ after)
    rw [h, List.append_assoc]
  have hlen := congrArg List.length h
  simp only [List.length_append, List.length_cons, List.length_nil] at hlen
  have hv : v = [] := List.eq_nil_of_length_eq_zero (by omega)
  subst hv
  rw [List.append_nil] at h
  exact ⟨(List.append_inj_left h (by omega)).symm, rfl⟩

/-- A comment that the text goes on with stands in it. -/
theorem Lexeme.standsIn {d : Dialect} {p : Piece} {pos : Position} {after : List Char}
    (hp : Lexeme d p after) (hdrop : source.drop pos.offset = p.text ++ after)
    (hc : p.comment? pos = some c) : c.StandsIn source := by
  have hspan := Piece.span_of_comment? hc
  have hstop : c.span.stop.offset = pos.offset + p.text.length := by
    rw [hspan, Span.stop_covering, Position.offset_advance]
  have hafter : source.drop c.span.stop.offset = after := by
    rw [hstop, ← List.drop_drop, hdrop, List.drop_left]
  have hle : c.span.stop.offset ≤ source.length := by
    have hlen := congrArg List.length hdrop
    have hpos := List.length_pos_iff.mpr hp.text_ne_nil
    rw [List.length_drop, List.length_append] at hlen
    omega
  -- What stands in the source at the place is known of every lexeme, and is not special to comments.
  have hslice : (p.tile pos).Faithful d source := Piece.faithful_tile hdrop (Or.inl hp)
  cases hp with
  | @lineComment body after hbody hend =>
    obtain rfl := Option.some.inj hc
    refine ⟨hle, fun _ => ⟨?_, ?_, ?_⟩, fun hstyle => ?_⟩
    · exact hslice.trans (by simp [CommentStyle.opening, CommentStyle.closing])
    · rwa [String.toList_ofList]
    · rcases hend with rfl | hend
      · exact Or.inl (Nat.le_antisymm hle (List.drop_eq_nil_iff.mp hafter))
      · rw [← hafter, List.head?_drop] at hend
        exact Or.inr hend
    · contradiction
  | @blockComment body after hfirst =>
    obtain rfl := Option.some.inj hc
    refine ⟨hle, fun hstyle => ?_, fun _ => ⟨hslice, fun u v h => ?_⟩⟩
    · contradiction
    · rw [String.toList_ofList] at h ⊢
      exact eq_of_first_closing hfirst h
  | _ => contradiction

/-- The comments in a row of lexemes stand in the text that the row is cut from. -/
theorem Cuts.standsIn {d : Dialect} {text rest : List Char} {ps : List Piece} {pos : Position}
    (h : Cuts d text ps rest) (hdrop : source.drop pos.offset = text) (hc : c ∈ commentsAt pos ps) :
    c.StandsIn source := by
  induction h generalizing pos with
  | done rest => exact absurd hc List.not_mem_nil
  | @piece p after rest ps hp _ ih =>
    rcases List.mem_append.mp hc with hc | hc
    · exact hp.standsIn hdrop (Option.mem_toList.mp hc)
    · refine ih ?_ hc
      rw [Position.offset_advance, ← List.drop_drop, hdrop, List.drop_left]

/-! ## All calls -/

namespace TokenStream

variable {s : TokenStream}

/-- The invariant of a stream that reads `source`: all that it keeps stands there. -/
structure Records (s : TokenStream) (source : List Char) : Prop where
  source_eq : s.cursor.source = source
  comments : ∀ c ∈ s.comments, c.StandsIn source

theorem Records.scan (h : s.Records source) : s.scan.2.Records source := by
  obtain ⟨ps, hps⟩ := s.exists_halt
  refine ⟨(source_scan s).trans h.source_eq, fun c hc => ?_⟩
  rw [hps.comments_scan] at hc
  rcases List.mem_append.mp hc with hc | hc
  · exact h.comments c hc
  · exact hps.cuts.standsIn (h.source_eq ▸ s.cursor.drop_offset) hc

theorem Records.next (h : s.Records source) : s.next?.2.Records source := by
  have hscan := h.scan
  cases hs : s.finished with
  | true => rwa [next?_over hs]
  | false =>
    cases hanswer : s.scan with
    | mk answer s' =>
      rw [hanswer] at hscan
      cases answer with
      | ok t => rwa [next?_ok hs hanswer]
      | error e =>
        rw [next?_error hs hanswer]
        exact ⟨hscan.source_eq, hscan.comments⟩

theorem Records.call (h : s.Records source) (k : Call) :
    (∀ c ∈ (s.call k).1.shownComments, c.StandsIn source) ∧ (s.call k).2.Records source := by
  cases k with
  | scan => exact ⟨nofun, h.scan⟩
  | next => exact ⟨nofun, h.next⟩
  | pos => exact ⟨nofun, h⟩
  | comments => exact ⟨h.comments, h⟩
  | takeComments => exact ⟨h.comments, h.source_eq, nofun⟩

end TokenStream

/-- **Comments are what stands in the text.** Whatever calls are made of a stream, every comment that a
reply shows and every comment that the stream keeps in the end stands in the text at its place: its text
is what its marks enclose there, a line comment reaches to the end of its line, and a block comment to
the first end that it has. -/
theorem comments_stand_in_text (d : Dialect) (source : String) (calls : List TokenStream.Call) :
    (∀ reply ∈ (session TokenStream.call (TokenStream.ofText d source) calls).1,
      ∀ c ∈ reply.shownComments, c.StandsIn source.toList) ∧
    ∀ c ∈ (session TokenStream.call (TokenStream.ofText d source) calls).2.comments,
      c.StandsIn source.toList := by
  have hstart : (TokenStream.ofText d source).Records source.toList := ⟨rfl, nofun⟩
  obtain ⟨hreplies, hlast⟩ := session_induction (TokenStream.Records · source.toList)
    (fun reply : TokenStream.Reply => ∀ c ∈ reply.shownComments, c.StandsIn source.toList)
    (fun _ k h => h.call k) hstart calls
  exact ⟨hreplies, hlast.comments⟩

/-- The star that opens a comment does not close it, and of the stars before its end only the last one
belongs to the end. -/
theorem starry_comment_stands_in_text :
    let s := (session TokenStream.call (TokenStream.ofText ⟨false⟩ "/*/**/#") [.scan]).2
    let c : Comment := ⟨.block, "/*", ⟨⟨0, 0, 0⟩, ⟨6, 0, 6⟩⟩⟩
    c ∈ s.comments ∧ c.StandsIn "/*/**/#".toList := by
  intro s c
  have hscan : (TokenStream.ofText ⟨false⟩ "/*/**/#").scan =
      (.error ⟨.unknownOperator "#", ⟨6, 0, 6⟩⟩,
        (TokenStream.ofText ⟨false⟩ "/*/**/#").passAll [.comment .block ['/', '*'], .marks ['#']]) :=
    (TokenStream.scan_trivia rfl rfl).trans (TokenStream.scan_outcome rfl rfl)
  have hmem : c ∈ s.comments := by
    simp only [s, session, TokenStream.call, hscan]
    exact List.mem_cons_self
  exact ⟨hmem, (comments_stand_in_text ⟨false⟩ "/*/**/#" [.scan]).2 c hmem⟩

end BoardLang
