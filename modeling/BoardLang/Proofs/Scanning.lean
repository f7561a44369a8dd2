import BoardLang.Lexical.Run
import BoardLang.Proofs.Cutting

/-!
# What one scan does

`scan` passes over blanks and comments one at a time. Said at once (`scan_cases`): it passes the
longest row of them, and then it either stands at the end of the text or gives the outcome of the
piece that it meets. Everything else about scanning follows from this and from what it means to
pass a row of pieces (`rest_passAll`, `pos_passAll`, `comments_passAll`).
-/

namespace BoardLang

variable {d : Dialect} {p : Piece} {ps : List Piece} {text rest after : List Char}

/-- The comments among pieces that stand in a row from `pos` on. -/
def commentsAt : Position → List Piece → List Comment
  | _, [] => []
  | pos, p :: ps => (p.comment? pos).toList ++ commentsAt (pos.advance p.text) ps

/-! ## Where a cursor stands -/

namespace Cursor

variable (c : Cursor)

theorem offset_pos : c.pos.offset = c.passed.length := by
  rw [c.pos_eq, Position.offset_advance, List.length_reverse]
  exact Nat.zero_add _

theorem drop_offset : c.source.drop c.pos.offset = c.rest := by
  rw [source, offset_pos, List.drop_left' (List.length_reverse)]

theorem take_offset : c.source.take c.pos.offset = c.passed.reverse := by
  rw [source, offset_pos, List.take_left' (List.length_reverse)]

theorem offset_le : c.pos.offset ≤ c.source.length := by
  rw [source, offset_pos, List.length_append, List.length_reverse]
  exact Nat.le_add_right _ _

end Cursor

/-! ## What comes of a piece -/

theorem Piece.outcome?_eq_none_iff {pos : Position} : p.outcome? pos = none ↔ p.isTrivia = true := by
  cases p <;> simp [outcome?, isTrivia]

theorem Piece.isSound_of_isTrivia (h : p.isTrivia = true) : p.isSound = true := by
  cases p <;> first | rfl | contradiction

theorem Piece.outcome?_eq_ok {pos : Position} {t : Token} (h : p.outcome? pos = some (.ok t)) :
    ∃ kind text, p = .token kind text ∧ t = ⟨kind, String.ofList text, Span.covering pos text⟩ := by
  cases p <;> simp [outcome?] at h
  exact ⟨_, _, rfl, h.symm⟩

/-- An outcome that is an error comes from a flaw, and no flaw is the end of the text. -/
theorem Piece.outcome?_eq_error {pos : Position} {e : ScanError} (h : p.outcome? pos = some (.error e)) :
    p.isSound = false ∧ e.isEnd = false := by
  cases p <;> simp [outcome?] at h <;> subst h <;> exact ⟨rfl, rfl⟩

theorem Piece.exists_error (pos : Position) (h : p.isSound = false) :
    ∃ e, p.outcome? pos = some (.error e) := by
  cases p <;> first | contradiction | exact ⟨_, rfl⟩

namespace TokenStream

variable {s : TokenStream}

/-! ## Passing pieces -/

def passAll (s : TokenStream) (ps : List Piece) : TokenStream := ps.foldl pass s

@[simp] theorem passAll_nil (s : TokenStream) : s.passAll [] = s := rfl

@[simp] theorem passAll_cons (s : TokenStream) (p : Piece) (ps : List Piece) :
    s.passAll (p :: ps) = (s.pass p).passAll ps := rfl

@[simp] theorem dialect_passAll (s : TokenStream) (ps : List Piece) :
    (s.passAll ps).dialect = s.dialect := by
  induction ps generalizing s with
  | nil => rfl
  | cons p ps ih => rw [passAll_cons, ih, dialect_pass]

@[simp] theorem finished_passAll (s : TokenStream) (ps : List Piece) :
    (s.passAll ps).finished = s.finished := by
  induction ps generalizing s with
  | nil => rfl
  | cons p ps ih => rw [passAll_cons, ih, finished_pass]

@[simp] theorem source_passAll (s : TokenStream) (ps : List Piece) :
    (s.passAll ps).cursor.source = s.cursor.source := by
  induction ps generalizing s with
  | nil => rfl
  | cons p ps ih => rw [passAll_cons, ih, cursor_pass, Cursor.source_move]

theorem rest_pass (h : s.cursor.rest = p.text ++ after) : (s.pass p).cursor.rest = after := by
  rw [cursor_pass, Cursor.rest_move, h, List.drop_left]

theorem pos_pass (h : s.cursor.rest = p.text ++ after) : (s.pass p).pos = s.pos.advance p.text := by
  rw [pos, cursor_pass, Cursor.pos_move, h, List.take_left, pos]

/-- The stop of a span is counted from the text of its piece. It is where the stream stands after the piece. -/
theorem stop_covering_eq_pos_pass (h : s.cursor.rest = p.text ++ after) :
    (Span.covering s.pos p.text).stop = (s.pass p).pos := by
  rw [Span.stop_covering, pos_pass h]

theorem rest_passAll (h : Cuts d s.cursor.rest ps rest) : (s.passAll ps).cursor.rest = rest := by
  generalize htext : s.cursor.rest = text at h
  induction h generalizing s with
  | done rest => exact htext
  | piece hp hps ih => exact ih (rest_pass htext)

theorem pos_passAll (h : Cuts d s.cursor.rest ps rest) :
    (s.passAll ps).pos = s.pos.advance (ps.flatMap Piece.text) := by
  generalize htext : s.cursor.rest = text at h
  induction h generalizing s with
  | done rest => rfl
  | piece hp hps ih =>
    rw [passAll_cons, ih (rest_pass htext), pos_pass htext, List.flatMap_cons, Position.advance_append]

theorem comments_passAll (h : Cuts d s.cursor.rest ps rest) :
    (s.passAll ps).comments = s.comments ++ commentsAt s.pos ps := by
  generalize htext : s.cursor.rest = text at h
  induction h generalizing s with
  | done rest => rw [passAll_nil, commentsAt, List.append_nil]
  | piece hp hps ih =>
    rw [passAll_cons, ih (rest_pass htext), comments_pass, pos_pass htext, commentsAt,
      List.append_assoc]
    rfl

/-! ## Scanning -/

theorem scan_trivia (h : Piece.cut s.dialect s.cursor.rest = some p) (hp : p.isTrivia = true) :
    s.scan = (s.pass p).scan := by
  rw [scan_eq s, h]
  simp only [Piece.outcome?_eq_none_iff.mpr hp]

theorem scan_outcome {o : Except ScanError Token} (h : Piece.cut s.dialect s.cursor.rest = some p)
    (ho : p.outcome? s.pos = some o) : s.scan = (o, s.pass p) := by
  rw [pos] at ho
  rw [scan_eq s, h]
  simp only [ho]

theorem scan_end (h : s.cursor.rest = []) : s.scan = (.error ⟨.endOfInput, s.pos⟩, s) := by
  rw [scan_eq s, h]
  rfl

theorem scan_passAll (h : Cuts s.dialect s.cursor.rest ps rest) (hps : ∀ p ∈ ps, p.isTrivia = true) :
    s.scan = (s.passAll ps).scan := by
  generalize htext : s.cursor.rest = text at h
  generalize hd : s.dialect = d at h
  induction h generalizing s with
  | done rest => rfl
  | piece hp _ ih =>
    have hcut := Piece.cut_of_lexeme hp
    rw [← htext, ← hd] at hcut
    rw [scan_trivia hcut (hps _ (by simp)), passAll_cons]
    exact ih (fun q hq => hps q (by simp [hq])) (rest_pass htext) hd

/-- The place where a scan stops: the longest row of blanks and comments lies behind it. -/
structure Halt (s : TokenStream) (ps : List Piece) : Prop where
  cuts : Cuts s.dialect s.cursor.rest ps (s.passAll ps).cursor.rest
  trivia : ∀ p ∈ ps, p.isTrivia = true
  stops : ∀ p, Piece.cut s.dialect (s.passAll ps).cursor.rest = some p → p.isTrivia = false

theorem exists_halt (s : TokenStream) : ∃ ps, s.Halt ps := by
  obtain ⟨ps, rest, hps, htrivia, hstops⟩ :=
    Cuts.exists_longest s.dialect Piece.isTrivia (fun _ => Piece.isSound_of_isTrivia) s.cursor.rest
  have hrest := rest_passAll hps
  exact ⟨ps, hrest ▸ hps, htrivia, hrest ▸ hstops⟩

/-- **One scan.** Past the longest row of blanks and comments, a scan finds the end of the text or
the outcome of the next piece. -/
theorem scan_cases (h : s.Halt ps) :
    ((s.passAll ps).cursor.rest = [] ∧
      s.scan = (.error ⟨.endOfInput, (s.passAll ps).pos⟩, s.passAll ps)) ∨
    ∃ p o, Piece.cut s.dialect (s.passAll ps).cursor.rest = some p ∧
      p.outcome? (s.passAll ps).pos = some o ∧ s.scan = (o, (s.passAll ps).pass p) := by
  have hscan := scan_passAll h.cuts h.trivia
  cases hcut : Piece.cut s.dialect (s.passAll ps).cursor.rest with
  | none =>
    have hrest := Piece.cut_eq_none_iff.mp hcut
    exact Or.inl ⟨hrest, hscan.trans (scan_end hrest)⟩
  | some p =>
    have hp := h.stops p hcut
    cases ho : p.outcome? (s.passAll ps).pos with
    | none =>
      rw [Piece.outcome?_eq_none_iff.mp ho] at hp
      contradiction
    | some o =>
      have hcut' := hcut
      rw [← dialect_passAll s ps] at hcut'
      exact Or.inr ⟨p, o, rfl, ho, hscan.trans (scan_outcome hcut' ho)⟩

theorem dialect_scan (s : TokenStream) : s.scan.2.dialect = s.dialect := by
  obtain ⟨ps, hps⟩ := s.exists_halt
  rcases scan_cases hps with ⟨-, hscan⟩ | ⟨p, o, -, -, hscan⟩ <;> rw [hscan] <;> simp

theorem finished_scan (s : TokenStream) : s.scan.2.finished = s.finished := by
  obtain ⟨ps, hps⟩ := s.exists_halt
  rcases scan_cases hps with ⟨-, hscan⟩ | ⟨p, o, -, -, hscan⟩ <;> rw [hscan] <;> simp

theorem source_scan (s : TokenStream) : s.scan.2.cursor.source = s.cursor.source := by
  obtain ⟨ps, hps⟩ := s.exists_halt
  rcases scan_cases hps with ⟨-, hscan⟩ | ⟨p, o, -, -, hscan⟩ <;> rw [hscan] <;> simp

/-- A scan that answers with the end of the text stands there. -/
theorem rest_scan_of_end {e : ScanError} (h : s.scan.1 = .error e) (he : e.cause = .endOfInput) :
    s.scan.2.cursor.rest = [] := by
  obtain ⟨ps, hps⟩ := s.exists_halt
  rcases scan_cases hps with ⟨hrest, hscan⟩ | ⟨p, o, -, ho, hscan⟩
  · rw [hscan]
    exact hrest
  · rw [hscan] at h
    subst h
    have hend := (Piece.outcome?_eq_error ho).2
    simp [ScanError.isEnd, he] at hend

end TokenStream

end BoardLang
