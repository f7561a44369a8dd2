import BoardLang.Proofs.Scanning
import BoardLang.Proofs.Sessions

/-!
# Positions tell the truth

A position claims three things about the text: how many characters lie before it, how many newlines
are among them, and how many characters there are since the last of these. Whatever a user of a
stream or of a reader gets to see, in any order of calls and after any errors, carries positions for
which this is so (`positions_tell_truth`).

The reason is that each position is one where the cursor stood at some moment, and a cursor's position
counts the characters before it. A span begins where the stream stands before a piece. Its stop is counted
from the text of the piece, which comes to the same as where the stream stands after it
(`stop_covering_eq_pos_pass`), because the piece is what the text goes on with.
-/

namespace BoardLang

/-! ## What is true of a position -/

/-- The position is one of `source`, and its line and column are those of this place. -/
structure Position.TrueIn (p : Position) (source : List Char) : Prop where
  offset_le : p.offset ≤ source.length
  line_eq : p.line = (source.take p.offset).count '\n'
  /-- The characters since the last newline before the position. -/
  column_eq : p.column = ((source.take p.offset).reverse.takeWhile (· ≠ '\n')).length

/-- Both ends of the token are true positions, its text leads from one to the other, and only the
end of a statement leads to another line. -/
structure Token.TrueIn (t : Token) (source : List Char) : Prop where
  start : t.span.start.TrueIn source
  stop : t.span.stop.TrueIn source
  stop_eq : t.span.stop = t.span.start.advance t.literal.toList
  one_line : t.kind ≠ .statementEnd →
    t.span.stop.line = t.span.start.line ∧
      t.span.stop.column = t.span.start.column + t.literal.toList.length

structure Comment.TrueIn (c : Comment) (source : List Char) : Prop where
  start : c.span.start.TrueIn source
  stop : c.span.stop.TrueIn source

/-- Something with positions in it that a user gets to see. -/
inductive Sight where
  | position (p : Position)
  | token (t : Token)
  | comment (c : Comment)

def Sight.TrueIn (source : List Char) : Sight → Prop
  | position p => p.TrueIn source
  | token t => t.TrueIn source
  | comment c => c.TrueIn source

/-! ## What a reply shows -/

/-- A result shows what it holds, or the position of its error. -/
def Sight.ofResult {ε α : Type} (pos : ε → Position) (view : α → List Sight) : Except ε α → List Sight
  | .ok a => view a
  | .error e => [.position (pos e)]

def Sight.ofAnswer : Except ScanError Token → List Sight :=
  ofResult ScanError.pos fun t => [.token t]

def TokenStream.Reply.sights : TokenStream.Reply → List Sight
  | .answer r => Sight.ofAnswer r
  | .next r => r.toList.flatMap Sight.ofAnswer
  | .pos p => [.position p]
  | .comments cs => cs.map .comment

def Reader.Reply.sights : Reader.Reply → List Sight
  | .advanced r => Sight.ofResult SourceError.pos (fun t => t.toList.map .token) r
  | .current t => t.toList.map .token
  | .currentKind _ | .isAtEnd _ => []
  | .pos p => [.position p]
  | .comments cs => cs.map .comment
  | .token r => Sight.ofResult SourceError.pos (fun t => [.token t]) r
  | .identifier r => Sight.ofResult SourceError.pos (fun i => [.token i.token]) r
  | .int r => Sight.ofResult SourceError.pos (fun n => [.token n.token]) r
  | .passive r => Sight.ofResult SourceError.pos (fun _ => []) r

/-! ## Counting -/

namespace Position

/-- The characters are given from the nearest one backwards, as a cursor keeps them. -/
theorem line_column_advance (passed : List Char) :
    (start.advance passed.reverse).line = passed.count '\n' ∧
    (start.advance passed.reverse).column = (passed.takeWhile (· ≠ '\n')).length := by
  induction passed with
  | nil => exact ⟨rfl, rfl⟩
  | cons c passed ih =>
    rw [List.reverse_cons, advance_append, advance_cons, advance_nil, step]
    by_cases hc : c = '\n'
    · simp [hc, ih.1]
    · simp [hc, ih.1, ih.2]

theorem advance_of_not_mem {p : Position} {text : List Char} (h : '\n' ∉ text) :
    (p.advance text).line = p.line ∧ (p.advance text).column = p.column + text.length := by
  induction text generalizing p with
  | nil => exact ⟨rfl, rfl⟩
  | cons c text ih =>
    have hc : c ≠ '\n' := fun hc => h (by simp [hc])
    obtain ⟨hline, hcolumn⟩ := ih (p := p.step c) (fun hmem => h (by simp [hmem]))
    rw [advance_cons, hline, hcolumn, step, if_neg hc, List.length_cons]
    refine ⟨rfl, ?_⟩
    show p.column + 1 + text.length = p.column + (text.length + 1)
    omega

end Position

theorem Cursor.trueIn_pos (c : Cursor) : c.pos.TrueIn c.source := by
  obtain ⟨hline, hcolumn⟩ := Position.line_column_advance c.passed
  rw [← c.pos_eq] at hline hcolumn
  refine ⟨c.offset_le, ?_, ?_⟩
  · rw [c.take_offset, List.count_reverse]
    exact hline
  · rw [c.take_offset, List.reverse_reverse]
    exact hcolumn

/-- Only the end of a statement is written with a newline. -/
theorem Lexeme.newline_not_mem {d : Dialect} {kind : TokenKind} {text after : List Char}
    (h : Lexeme d (.token kind text) after) (hkind : kind ≠ .statementEnd) : '\n' ∉ text := by
  cases h with
  | int _ hdigits _ =>
    intro hmem
    exact absurd (hdigits _ hmem) (by decide)
  | ident hc hword _ =>
    intro hmem
    rcases List.mem_cons.mp hmem with rfl | hmem
    · exact absurd hc (by decide)
    · exact absurd (hword _ hmem) (by decide)
  | delimiter hc =>
    have all : ∀ x ∈ delimiters, '\n' ∉ [x.1] := by decide
    exact all _ hc
  | newline _ => exact absurd rfl hkind
  | operator htext _ =>
    have all : ∀ x ∈ operators, '\n' ∉ x.1 := by decide
    exact all _ htext

/-! ## Streams -/

namespace TokenStream

variable {s : TokenStream} {source : List Char}

/-- The invariant of a stream that reads `source`: the comments that it keeps are where they say. -/
structure TrueIn (s : TokenStream) (source : List Char) : Prop where
  source_eq : s.cursor.source = source
  comments : ∀ c ∈ s.comments, c.TrueIn source

theorem TrueIn.pos (h : s.TrueIn source) : s.pos.TrueIn source := by
  rw [← h.source_eq]
  exact s.cursor.trueIn_pos

theorem TrueIn.pass {p : Piece} {after : List Char} (h : s.TrueIn source)
    (hrest : s.cursor.rest = p.text ++ after) : (s.pass p).TrueIn source := by
  have hsource : (s.pass p).cursor.source = source := (Cursor.source_move _ _).trans h.source_eq
  refine ⟨hsource, fun c hc => ?_⟩
  rw [comments_pass] at hc
  rcases List.mem_append.mp hc with hc | hc
  · exact h.comments c hc
  · cases p with
    | comment style body =>
      obtain rfl := List.mem_singleton.mp hc
      refine ⟨h.pos, ?_⟩
      show (Span.covering s.pos (Piece.comment style body).text).stop.TrueIn source
      rw [stop_covering_eq_pos_pass hrest, ← hsource]
      exact (s.pass _).cursor.trueIn_pos
    | _ => contradiction

theorem TrueIn.passAll {d : Dialect} {ps : List Piece} {rest : List Char} (h : s.TrueIn source)
    (hps : Cuts d s.cursor.rest ps rest) : (s.passAll ps).TrueIn source := by
  generalize htext : s.cursor.rest = text at hps
  induction hps generalizing s with
  | done rest => exact h
  | piece hp _ ih => exact ih (h.pass htext) (rest_pass htext)

theorem TrueIn.outcome {p : Piece} {o : Except ScanError Token} (h : s.TrueIn source)
    (hcut : Piece.cut s.dialect s.cursor.rest = some p) (ho : p.outcome? s.pos = some o) :
    ∀ x ∈ Sight.ofAnswer o, x.TrueIn source := by
  obtain ⟨after, hrest, hp⟩ := Piece.cut_eq_some_iff.mp hcut
  have hstop : (Span.covering s.pos p.text).stop.TrueIn source := by
    rw [stop_covering_eq_pos_pass hrest]
    exact (h.pass hrest).pos
  intro x hx
  cases p with
  | token kind text =>
    obtain rfl := Option.some.inj ho
    obtain rfl := List.mem_singleton.mp hx
    obtain hp | hp := hp
    · refine ⟨h.pos, hstop, by rw [Span.stop_covering, String.toList_ofList]; rfl, fun hkind => ?_⟩
      rw [String.toList_ofList]
      exact Position.advance_of_not_mem (hp.newline_not_mem hkind)
    · cases hp
  | slash =>
    obtain rfl := Option.some.inj ho
    obtain rfl := List.mem_singleton.mp hx
    exact hstop
  | blank c => contradiction
  | comment style body => contradiction
  | _ =>
    obtain rfl := Option.some.inj ho
    obtain rfl := List.mem_singleton.mp hx
    exact h.pos

theorem TrueIn.scan (h : s.TrueIn source) :
    (∀ x ∈ Sight.ofAnswer s.scan.1, x.TrueIn source) ∧ s.scan.2.TrueIn source := by
  obtain ⟨ps, hps⟩ := s.exists_halt
  have hpass := h.passAll hps.cuts
  rcases scan_cases hps with ⟨-, hscan⟩ | ⟨p, o, hcut, ho, hscan⟩
  · rw [hscan]
    refine ⟨?_, hpass⟩
    intro x hx
    obtain rfl := List.mem_singleton.mp hx
    exact hpass.pos
  · rw [hscan]
    obtain ⟨after, hrest, -⟩ := Piece.cut_eq_some_iff.mp hcut
    rw [← dialect_passAll s ps] at hcut
    exact ⟨hpass.outcome hcut ho, hpass.pass hrest⟩

theorem TrueIn.next (h : s.TrueIn source) :
    (∀ x ∈ s.next?.1.toList.flatMap Sight.ofAnswer, x.TrueIn source) ∧ s.next?.2.TrueIn source := by
  obtain ⟨hsights, hnext⟩ := h.scan
  unfold next?
  split
  · exact ⟨by simp, h⟩
  · split
    · rename_i token s' hscan
      rw [hscan] at hsights hnext
      exact ⟨by simpa using hsights, hnext⟩
    · rename_i e s' hscan
      rw [hscan] at hsights hnext
      refine ⟨?_, hnext.source_eq, hnext.comments⟩
      split
      · simp
      · simpa using hsights

theorem TrueIn.call (h : s.TrueIn source) (k : Call) :
    (∀ x ∈ (s.call k).1.sights, x.TrueIn source) ∧ (s.call k).2.TrueIn source := by
  have hcomments : ∀ x ∈ s.comments.map Sight.comment, x.TrueIn source := by
    intro x hx
    obtain ⟨c, hc, rfl⟩ := List.mem_map.mp hx
    exact h.comments c hc
  cases k with
  | scan => exact h.scan
  | next => exact h.next
  | pos =>
    refine ⟨fun x hx => ?_, h⟩
    obtain rfl := List.mem_singleton.mp hx
    exact h.pos
  | comments => exact ⟨hcomments, h⟩
  | takeComments => exact ⟨hcomments, h.source_eq, fun c hc => absurd hc List.not_mem_nil⟩

end TokenStream

/-! ## Readers -/

namespace Reader

variable {r : Reader} {source : List Char}

/-- The invariant of a reader of `source`: so is its stream, and the token in view is where it says. -/
structure TrueIn (r : Reader) (source : List Char) : Prop where
  stream : r.stream.TrueIn source
  current : ∀ t ∈ r.current, t.TrueIn source

theorem TrueIn.pos (h : r.TrueIn source) : r.pos.TrueIn source := by
  unfold Reader.pos
  split
  · rename_i t ht
    exact (h.current t ht).start
  · exact h.stream.pos

theorem TrueIn.load (h : r.TrueIn source) :
    (∀ x ∈ (Reply.advanced r.load.1).sights, x.TrueIn source) ∧ r.load.2.TrueIn source := by
  obtain ⟨hsights, hstream⟩ := h.stream.scan
  unfold Reader.load
  split
  · rename_i t s hscan
    rw [hscan] at hsights hstream
    have ht : t.TrueIn source := hsights _ (List.mem_singleton.mpr rfl)
    refine ⟨hsights, hstream, fun t' ht' => ?_⟩
    rwa [← Option.some.inj ht']
  · rename_i e s hscan
    rw [hscan] at hsights hstream
    split
    · exact ⟨by simp [Reply.sights, Sight.ofResult], hstream, by simp [Reader.current]⟩
    · exact ⟨hsights, hstream, by simp [Reader.current]⟩

theorem TrueIn.advance (h : r.TrueIn source) :
    (∀ x ∈ (Reply.advanced r.advance.1).sights, x.TrueIn source) ∧ r.advance.2.TrueIn source := by
  have hstay : ∀ x ∈ (Reply.advanced (.ok none)).sights, x.TrueIn source := by
    simp [Reply.sights, Sight.ofResult]
  unfold Reader.advance
  split
  · exact ⟨hstay, h⟩
  · exact ⟨hstay, h⟩
  · exact h.load
  · exact h.load

/-- What is expected shows the token in view, or an error at the reader's position. -/
theorem TrueIn.expect (h : r.TrueIn source) (kind : TokenKind) :
    ∀ x ∈ (Reply.token (r.expect kind)).sights, x.TrueIn source := by
  intro x hx
  unfold Reader.expect at hx
  split at hx
  · rename_i t hcurrent
    split at hx
    · obtain rfl := List.mem_singleton.mp hx
      exact h.current t hcurrent
    · obtain rfl := List.mem_singleton.mp hx
      exact h.pos
  · obtain rfl := List.mem_singleton.mp hx
    exact h.pos

theorem TrueIn.expectIdentifier (h : r.TrueIn source) :
    ∀ x ∈ (Reply.identifier r.expectIdentifier).sights, x.TrueIn source := by
  have hexpect := h.expect .ident
  unfold Reader.expectIdentifier
  split
  · rename_i t ht
    rw [ht] at hexpect
    exact hexpect
  · rename_i e he
    rw [he] at hexpect
    exact hexpect

theorem TrueIn.expectInt (h : r.TrueIn source) :
    ∀ x ∈ (Reply.int r.expectInt).sights, x.TrueIn source := by
  have hexpect := h.expect .int
  unfold Reader.expectInt
  split
  · rename_i t ht
    rw [ht] at hexpect
    have htrue : t.TrueIn source := hexpect _ (List.mem_singleton.mpr rfl)
    intro x hx
    split at hx
    · obtain rfl := List.mem_singleton.mp hx
      exact htrue
    · obtain rfl := List.mem_singleton.mp hx
      exact htrue.start
  · rename_i e he
    rw [he] at hexpect
    exact hexpect

theorem TrueIn.expectPassive (h : r.TrueIn source) (component : Passive) :
    ∀ x ∈ (Reply.passive (r.expectPassive component)).sights, x.TrueIn source := by
  have hexpect := h.expectInt
  unfold Reader.expectPassive
  split
  · exact fun x hx => absurd hx List.not_mem_nil
  · rename_i e he
    rw [he] at hexpect
    exact hexpect

theorem TrueIn.call (h : r.TrueIn source) (k : Call) :
    (∀ x ∈ (r.call k).1.sights, x.TrueIn source) ∧ (r.call k).2.TrueIn source := by
  cases k with
  | advance => exact h.advance
  | current =>
    refine ⟨fun x hx => ?_, h⟩
    obtain ⟨t, ht, rfl⟩ := List.mem_map.mp hx
    exact h.current t (Option.mem_toList.mp ht)
  | currentKind => exact ⟨fun x hx => absurd hx List.not_mem_nil, h⟩
  | isAtEnd => exact ⟨fun x hx => absurd hx List.not_mem_nil, h⟩
  | pos =>
    refine ⟨fun x hx => ?_, h⟩
    obtain rfl := List.mem_singleton.mp hx
    exact h.pos
  | comments =>
    refine ⟨fun x hx => ?_, h⟩
    obtain ⟨c, hc, rfl⟩ := List.mem_map.mp hx
    exact h.stream.comments c hc
  | expect kind => exact ⟨h.expect kind, h⟩
  | expectIdentifier => exact ⟨h.expectIdentifier, h⟩
  | expectInt => exact ⟨h.expectInt, h⟩
  | expectPassive component => exact ⟨h.expectPassive component, h⟩

end Reader

/-- **Positions tell the truth.** Whatever calls are made of a stream, and then of a reader that goes
on with it, every position, token and comment that a reply shows is true of the text. -/
theorem positions_tell_truth (d : Dialect) (source : String) (calls : List TokenStream.Call)
    (reads : List Reader.Call) :
    (∀ reply ∈ (session TokenStream.call (TokenStream.ofText d source) calls).1,
      ∀ x ∈ reply.sights, x.TrueIn source.toList) ∧
    ∀ answer ∈ (session Reader.call
        (Reader.ofStream (session TokenStream.call (TokenStream.ofText d source) calls).2) reads).1,
      ∀ x ∈ answer.sights, x.TrueIn source.toList := by
  have hstart : (TokenStream.ofText d source).TrueIn source.toList :=
    ⟨rfl, fun c hc => absurd hc List.not_mem_nil⟩
  obtain ⟨hreplies, hs⟩ := session_induction (TokenStream.TrueIn · source.toList)
    (fun reply : TokenStream.Reply => ∀ x ∈ reply.sights, x.TrueIn source.toList)
    (fun _ k h => h.call k) hstart calls
  have hreader : (Reader.ofStream _).TrueIn source.toList := ⟨hs, fun t ht => nomatch ht⟩
  obtain ⟨hanswers, -⟩ := session_induction (Reader.TrueIn · source.toList)
    (fun answer : Reader.Reply => ∀ x ∈ answer.sights, x.TrueIn source.toList)
    (fun _ k h => h.call k) hreader reads
  exact ⟨hreplies, hanswers⟩

/-- A stream fails, and a reader that goes on with it finds its token behind a comment of two lines. -/
theorem positions_true_behind_failure :
    ∃ t : Token, t.kind = .int ∧ t.span = ⟨⟨6, 1, 2⟩, ⟨7, 1, 3⟩⟩ ∧ t.TrueIn "#/*\n*/7".toList := by
  obtain ⟨-, hanswers⟩ := positions_tell_truth ⟨true⟩ "#/*\n*/7" [.scan] [.advance]
  generalize hs : TokenStream.ofText ⟨true⟩ "#/*\n*/7" = s at hanswers
  have hfailure : s.scan = (.error ⟨.unknownOperator "#", ⟨0, 0, 0⟩⟩, s.pass (.marks ['#'])) := by
    subst hs
    exact TokenStream.scan_outcome rfl rfl
  have htoken : (s.pass (.marks ['#'])).scan = (.ok ⟨.int, "7", ⟨⟨6, 1, 2⟩, ⟨7, 1, 3⟩⟩⟩,
      s.passAll [.marks ['#'], .comment .block ['\n'], .token .int ['7']]) := by
    subst hs
    exact (TokenStream.scan_trivia rfl rfl).trans (TokenStream.scan_outcome rfl rfl)
  simp only [session, TokenStream.call, Reader.call, Reader.advance, Reader.ofStream, Reader.load,
    hfailure, htoken] at hanswers
  have htrue := hanswers _ (List.mem_singleton.mpr rfl)
  exact ⟨_, rfl, rfl, htrue _ (List.mem_singleton.mpr rfl)⟩

end BoardLang
