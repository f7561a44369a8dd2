import BoardLang.Proofs.Scanning

/-!
# No character is lost

Every character that a stream has gone over belongs to one thing: a token, a comment, a blank, or
the stretch that a failed scan has used up. These are the *tiles* of the text. After any number of
scans, failed ones among them, the tiles in their order cover the text up to the cursor without a
hole and without an overlap (`scans_tile_text`).

A tile says where it lies by what a user can see of it: the span of a token or a comment, the
position and the text of an error.
-/

namespace BoardLang

/-- What covers a stretch of a text. -/
inductive Tile where
  | blank (offset : Nat)
  | comment (c : Comment)
  | token (t : Token)
  /-- What a failed scan has used up. -/
  | failure (e : ScanError)

namespace Tile

/-- The offset at which the tile begins. The position of a lone slash is behind it. -/
def first : Tile → Nat
  | blank offset => offset
  | comment c => c.span.start.offset
  | token t => t.span.start.offset
  | failure e =>
    match e.cause with
    | .format => e.pos.offset - 1
    | _ => e.pos.offset

/-- The offset behind the tile, in a text of `size` characters. -/
def stop (size : Nat) : Tile → Nat
  | blank offset => offset + 1
  | comment c => c.span.stop.offset
  | token t => t.span.stop.offset
  | failure e =>
    match e.cause with
    | .unknownOperator text => e.pos.offset + text.toList.length
    | .unclosedComment => size
    | .format | .invalidChar _ | .endOfInput => e.pos.offset

def text (source : List Char) (t : Tile) : List Char :=
  (source.take (t.stop source.length)).drop t.first

/-- What is seen of the tile is what it covers. -/
def Faithful (d : Dialect) (source : List Char) (t : Tile) : Prop :=
  match t with
  | blank _ => ∃ c, t.text source = [c] ∧ IsSpace d c
  | comment c => t.text source = c.style.opening ++ c.text.toList ++ c.style.closing
  | token k => t.text source = k.literal.toList
  | failure e =>
    match e.cause with
    | .unknownOperator run => t.text source = run.toList
    | .format => t.text source = ['/']
    | .unclosedComment => CommentStyle.block.opening <+: t.text source
    | .invalidChar _ | .endOfInput => t.text source = []

def result? : Tile → Option (Except ScanError Token)
  | token t => some (.ok t)
  | failure e => some (.error e)
  | _ => none

def comment? : Tile → Option Comment
  | comment c => some c
  | _ => none

/-- The tiles lie side by side from `lo` to `hi`, in a text of `size` characters. -/
def Row (size : Nat) : Nat → List Tile → Nat → Prop
  | lo, [], hi => lo = hi
  | lo, t :: ts, hi => t.first = lo ∧ lo ≤ t.stop size ∧ Row size (t.stop size) ts hi

end Tile

/-- The answers of the first `n` scans. -/
def TokenStream.answers (s : TokenStream) : Nat → List (Except ScanError Token)
  | 0 => []
  | n + 1 => s.scan.1 :: s.scan.2.answers n

/-! ## Rows of tiles -/

namespace Tile

variable {size lo mid hi : Nat} {ts us : List Tile}

theorem Row.append (h : Row size lo ts mid) (h' : Row size mid us hi) : Row size lo (ts ++ us) hi := by
  induction ts generalizing lo with
  | nil =>
    obtain rfl : lo = mid := h
    exact h'
  | cons t ts ih => exact ⟨h.1, h.2.1, ih h.2.2⟩

theorem Row.le (h : Row size lo ts hi) : lo ≤ hi := by
  induction ts generalizing lo with
  | nil => exact Nat.le_of_eq h
  | cons t ts ih => exact Nat.le_trans h.2.1 (ih h.2.2)

/-- The tiles of a row cover everything from one end of it to the other. -/
theorem Row.flatMap_text {source : List Char} (h : Row source.length lo ts hi) :
    ts.flatMap (Tile.text source) = (source.take hi).drop lo := by
  induction ts generalizing lo with
  | nil =>
    obtain rfl : lo = hi := h
    rw [List.flatMap_nil, List.drop_eq_nil_of_le (by rw [List.length_take]; omega)]
  | cons t ts ih =>
    obtain ⟨rfl, hle, hts⟩ := h
    have hhi := hts.le
    rw [List.flatMap_cons, ih hts, Tile.text]
    generalize t.stop source.length = mid at hle hhi ⊢
    generalize t.first = lo at hle ⊢
    have hmid : source.take mid = (source.take hi).take mid := by
      rw [List.take_take, Nat.min_eq_left hhi]
    have hrest : (source.take hi).drop mid = ((source.take hi).drop lo).drop (mid - lo) := by
      rw [List.drop_drop, Nat.add_sub_cancel' hle]
    rw [hmid, List.drop_take, hrest, List.take_append_drop]

end Tile

/-! ## Pieces as tiles -/

def Piece.tile (p : Piece) (pos : Position) : Tile :=
  match p with
  | .blank _ => .blank pos.offset
  | .comment style body =>
    .comment ⟨style, String.ofList body, Span.covering pos (Piece.comment style body).text⟩
  | .token kind text => .token ⟨kind, String.ofList text, Span.covering pos text⟩
  | .slash => .failure ⟨.format, pos.step '/'⟩
  | .unclosed _ => .failure ⟨.unclosedComment, pos⟩
  | .marks text => .failure ⟨.unknownOperator (String.ofList text), pos⟩
  | .stray c => .failure ⟨.invalidChar c, pos⟩

/-- The tiles of pieces that stand in a row from `pos` on. -/
def tilesAt : Position → List Piece → List Tile
  | _, [] => []
  | pos, p :: ps => p.tile pos :: tilesAt (pos.advance p.text) ps

namespace Piece

variable {d : Dialect} {p : Piece} {pos : Position} {source after : List Char}

theorem result?_tile (p : Piece) (pos : Position) : (p.tile pos).result? = p.outcome? pos := by
  cases p <;> rfl

theorem comment?_tile (p : Piece) (pos : Position) : (p.tile pos).comment? = p.comment? pos := by
  cases p <;> rfl

theorem first_tile (p : Piece) (pos : Position) : (p.tile pos).first = pos.offset := by
  cases p <;> simp [tile, Tile.first]

theorem stop_tile (hdrop : source.drop pos.offset = p.text ++ after)
    (hp : Lexeme d p after ∨ Flaw d p after) :
    (p.tile pos).stop source.length = pos.offset + p.text.length := by
  cases p with
  | unclosed body =>
    -- The only tile whose end is not written on it: nothing is left behind an unclosed comment.
    obtain rfl : after = [] := by
      rcases hp with hp | hp <;> cases hp
      rfl
    have hlen := congrArg List.length hdrop
    have hpos : 0 < (unclosed body).text.length := by simp [text, CommentStyle.opening]
    simp only [List.length_drop, List.append_nil] at hlen
    simp only [tile, Tile.stop]
    omega
  | comment style body => exact Position.offset_advance _ _
  | _ => simp [tile, Tile.stop, text]

theorem text_tile (hdrop : source.drop pos.offset = p.text ++ after)
    (hp : Lexeme d p after ∨ Flaw d p after) : (p.tile pos).text source = p.text := by
  rw [Tile.text, first_tile, stop_tile hdrop hp, List.drop_take, Nat.add_sub_cancel_left, hdrop,
    List.take_left]

theorem faithful_tile (hdrop : source.drop pos.offset = p.text ++ after)
    (hp : Lexeme d p after ∨ Flaw d p after) : (p.tile pos).Faithful d source := by
  have htext := text_tile hdrop hp
  cases p with
  | blank c =>
    rcases hp with hp | hp <;> cases hp
    exact ⟨c, htext, ‹_›⟩
  | unclosed body =>
    rw [tile] at htext
    simp only [tile, Tile.Faithful, htext]
    exact List.prefix_append _ _
  | comment style body => exact htext.trans (by simp [text])
  | _ =>
    rw [tile] at htext
    simp only [tile, Tile.Faithful, htext, Piece.text, String.toList_ofList]

end Piece

/-- A row of lexemes is a row of tiles. -/
theorem Cuts.row_tilesAt {d : Dialect} {source text rest : List Char} {ps : List Piece} {pos : Position}
    (h : Cuts d text ps rest) (hdrop : source.drop pos.offset = text) :
    Tile.Row source.length pos.offset (tilesAt pos ps) (pos.advance (ps.flatMap Piece.text)).offset ∧
    ∀ t ∈ tilesAt pos ps, t.Faithful d source := by
  induction h generalizing pos with
  | done rest => exact ⟨rfl, by simp [tilesAt]⟩
  | @piece p after rest ps hp _ ih =>
    have hstop := Piece.stop_tile hdrop (Or.inl hp)
    have hdrop' : source.drop (pos.advance p.text).offset = after := by
      rw [Position.offset_advance, ← List.drop_drop, hdrop, List.drop_left]
    obtain ⟨hrow, hfaith⟩ := ih hdrop'
    constructor
    · refine ⟨Piece.first_tile p pos, by omega, ?_⟩
      rw [hstop, ← Position.offset_advance, List.flatMap_cons, Position.advance_append]
      exact hrow
    · intro t ht
      rcases List.mem_cons.mp ht with rfl | ht
      · exact Piece.faithful_tile hdrop (Or.inl hp)
      · exact hfaith t ht

/-! ## Scans leave tiles behind -/

theorem filterMap_comment?_tilesAt (pos : Position) (ps : List Piece) :
    (tilesAt pos ps).filterMap Tile.comment? = commentsAt pos ps := by
  induction ps generalizing pos with
  | nil => rfl
  | cons p ps ih =>
    rw [tilesAt, commentsAt, List.filterMap_cons, Piece.comment?_tile, ih]
    cases p.comment? pos <;> rfl

theorem filterMap_result?_tilesAt {ps : List Piece} (hps : ∀ p ∈ ps, p.isTrivia = true) (pos : Position) :
    (tilesAt pos ps).filterMap Tile.result? = [] := by
  induction ps generalizing pos with
  | nil => rfl
  | cons p ps ih =>
    rw [tilesAt, List.filterMap_cons, Piece.result?_tile,
      Piece.outcome?_eq_none_iff.mpr (hps p (by simp))]
    exact ih (fun q hq => hps q (by simp [hq])) _

namespace TokenStream

variable {s : TokenStream}

/-- The tiles lie between two states of a stream, and they show what happened between these. -/
structure Lays (s : TokenStream) (tiles : List Tile) (answers : List (Except ScanError Token))
    (s' : TokenStream) : Prop where
  source_eq : s'.cursor.source = s.cursor.source
  dialect_eq : s'.dialect = s.dialect
  row : Tile.Row s.cursor.source.length s.pos.offset tiles s'.pos.offset
  faithful : ∀ t ∈ tiles, t.Faithful s.dialect s.cursor.source
  answers_eq : tiles.filterMap Tile.result? = answers
  comments_eq : s'.comments = s.comments ++ tiles.filterMap Tile.comment?

theorem Lays.trans {s' s'' : TokenStream} {ts us : List Tile} {as bs : List (Except ScanError Token)}
    (h : s.Lays ts as s') (h' : s'.Lays us bs s'') : s.Lays (ts ++ us) (as ++ bs) s'' where
  source_eq := h'.source_eq.trans h.source_eq
  dialect_eq := h'.dialect_eq.trans h.dialect_eq
  row := h.row.append (h.source_eq ▸ h'.row)
  faithful := by
    intro t ht
    rcases List.mem_append.mp ht with ht | ht
    · exact h.faithful t ht
    · rw [← h.source_eq, ← h.dialect_eq]
      exact h'.faithful t ht
  answers_eq := by rw [List.filterMap_append, h.answers_eq, h'.answers_eq]
  comments_eq := by
    rw [h'.comments_eq, h.comments_eq, List.filterMap_append, List.append_assoc]

theorem lays_passAll {ps : List Piece} {rest : List Char} (h : Cuts s.dialect s.cursor.rest ps rest)
    (hps : ∀ p ∈ ps, p.isTrivia = true) : s.Lays (tilesAt s.pos ps) [] (s.passAll ps) where
  source_eq := source_passAll s ps
  dialect_eq := dialect_passAll s ps
  row := by
    rw [pos_passAll h]
    exact (h.row_tilesAt s.cursor.drop_offset).1
  faithful := (h.row_tilesAt s.cursor.drop_offset).2
  answers_eq := filterMap_result?_tilesAt hps s.pos
  comments_eq := by rw [comments_passAll h, filterMap_comment?_tilesAt]

theorem lays_pass {p : Piece} {o : Except ScanError Token}
    (hcut : Piece.cut s.dialect s.cursor.rest = some p) (ho : p.outcome? s.pos = some o) :
    s.Lays [p.tile s.pos] [o] (s.pass p) := by
  obtain ⟨after, hrest, hp⟩ := Piece.cut_eq_some_iff.mp hcut
  have hdrop : s.cursor.source.drop s.pos.offset = p.text ++ after := s.cursor.drop_offset.trans hrest
  have hstop := Piece.stop_tile hdrop hp
  refine ⟨Cursor.source_move _ _, rfl, ⟨Piece.first_tile p s.pos, by omega, ?_⟩, ?_, ?_, ?_⟩
  · rw [hstop, pos_pass hrest, Position.offset_advance]
    rfl
  · intro t ht
    rw [List.mem_singleton.mp ht]
    exact Piece.faithful_tile hdrop hp
  · simp [Piece.result?_tile, ho]
  · rw [comments_pass, List.filterMap_cons, Piece.comment?_tile, pos]
    cases p.comment? s.cursor.pos <;> rfl

theorem lays_end (s : TokenStream) :
    s.Lays [.failure ⟨.endOfInput, s.pos⟩] [.error ⟨.endOfInput, s.pos⟩] s where
  source_eq := rfl
  dialect_eq := rfl
  row := ⟨rfl, Nat.le_refl _, rfl⟩
  faithful := by
    intro t ht
    rw [List.mem_singleton.mp ht]
    simp [Tile.Faithful, Tile.text, Tile.first, Tile.stop]
  answers_eq := rfl
  comments_eq := (List.append_nil _).symm

/-- One scan leaves the tiles of the blanks and comments that it passes, and one for its answer. -/
theorem exists_lays_scan (s : TokenStream) : ∃ tiles, s.Lays tiles [s.scan.1] s.scan.2 := by
  obtain ⟨ps, hps⟩ := s.exists_halt
  have htrivia := lays_passAll hps.cuts hps.trivia
  rcases scan_cases hps with ⟨-, hscan⟩ | ⟨p, o, hcut, ho, hscan⟩
  · rw [hscan]
    exact ⟨_, htrivia.trans (lays_end _)⟩
  · rw [hscan]
    rw [← dialect_passAll s ps] at hcut
    exact ⟨_, htrivia.trans (lays_pass hcut ho)⟩

theorem exists_lays_scans (s : TokenStream) (n : Nat) :
    ∃ tiles, s.Lays tiles (s.answers n) (s.afterScans n) := by
  induction n generalizing s with
  | zero => exact ⟨[], rfl, rfl, rfl, by simp, rfl, (List.append_nil _).symm⟩
  | succ n ih =>
    obtain ⟨ts, hts⟩ := s.exists_lays_scan
    obtain ⟨us, hus⟩ := ih s.scan.2
    exact ⟨ts ++ us, hts.trans hus⟩

/-! ## The end of the text -/

theorem afterScans_end (h : s.cursor.rest = []) (n : Nat) : s.afterScans n = s := by
  induction n with
  | zero => rfl
  | succ n ih => rw [afterScans, scan_end h, ih]

theorem rest_afterScans_of_end {n : Nat} {e : ScanError} (h : .error e ∈ s.answers n)
    (he : e.cause = .endOfInput) : (s.afterScans n).cursor.rest = [] := by
  induction n generalizing s with
  | zero => exact absurd h List.not_mem_nil
  | succ n ih =>
    rw [afterScans]
    rcases List.mem_cons.mp h with h | h
    · have hrest := rest_scan_of_end h.symm he
      rw [afterScans_end hrest]
      exact hrest
    · exact ih h

end TokenStream

/-- **Nothing is lost.** After any number of scans there is a row of tiles from the beginning of the
text to the cursor: the answers of the scans are those that the tiles show, and so are the comments
kept; every tile covers what it shows, so that the tiles put together are the text up to the cursor,
and they are the whole text as soon as a scan has met its end. -/
theorem scans_tile_text (d : Dialect) (source : String) (n : Nat) :
    ∃ tiles : List Tile,
      Tile.Row source.toList.length 0 tiles ((TokenStream.ofText d source).afterScans n).pos.offset ∧
      tiles.filterMap Tile.result? = (TokenStream.ofText d source).answers n ∧
      tiles.filterMap Tile.comment? = ((TokenStream.ofText d source).afterScans n).comments ∧
      (∀ t ∈ tiles, t.Faithful d source.toList) ∧
      tiles.flatMap (Tile.text source.toList) =
        source.toList.take ((TokenStream.ofText d source).afterScans n).pos.offset ∧
      ((∃ e, .error e ∈ (TokenStream.ofText d source).answers n ∧ e.cause = .endOfInput) →
        tiles.flatMap (Tile.text source.toList) = source.toList) := by
  obtain ⟨tiles, h⟩ := (TokenStream.ofText d source).exists_lays_scans n
  have hrow : Tile.Row source.toList.length 0 tiles _ := h.row
  have htext := hrow.flatMap_text
  rw [List.drop_zero] at htext
  refine ⟨tiles, hrow, h.answers_eq, h.comments_eq.symm, h.faithful, htext, ?_⟩
  rintro ⟨e, he, hend⟩
  have hrest := TokenStream.rest_afterScans_of_end he hend
  have hdrop := ((TokenStream.ofText d source).afterScans n).cursor.drop_offset
  rw [hrest, h.source_eq] at hdrop
  rw [htext]
  exact List.take_of_length_le (List.drop_eq_nil_iff.mp hdrop)

/-- A scan that fails behind a comment keeps the comment, and the scans after it go on. -/
theorem scans_tile_flawed_text :
    ∃ tiles : List Tile,
      tiles.filterMap Tile.result? =
        [.error ⟨.format, ⟨6, 1, 3⟩⟩, .error ⟨.unknownOperator "&&", ⟨6, 1, 3⟩⟩,
          .error ⟨.endOfInput, ⟨8, 1, 5⟩⟩] ∧
      tiles.filterMap Tile.comment? = [⟨.block, "\n", ⟨⟨0, 0, 0⟩, ⟨5, 1, 2⟩⟩⟩] ∧
      tiles.flatMap (Tile.text "/*\n*//&&".toList) = "/*\n*//&&".toList := by
  obtain ⟨tiles, -, hanswers, hcomments, -, -, hwhole⟩ := scans_tile_text ⟨true⟩ "/*\n*//&&" 3
  generalize hs : TokenStream.ofText ⟨true⟩ "/*\n*//&&" = s at hanswers hcomments hwhole
  have hslash : s.scan = (.error ⟨.format, ⟨6, 1, 3⟩⟩, s.passAll [.comment .block ['\n'], .slash]) := by
    subst hs
    exact (TokenStream.scan_trivia rfl rfl).trans (TokenStream.scan_outcome rfl rfl)
  have hmarks : (s.passAll [.comment .block ['\n'], .slash]).scan =
      (.error ⟨.unknownOperator "&&", ⟨6, 1, 3⟩⟩,
        s.passAll [.comment .block ['\n'], .slash, .marks ['&', '&']]) := by
    subst hs
    exact TokenStream.scan_outcome rfl rfl
  have hend : (s.passAll [.comment .block ['\n'], .slash, .marks ['&', '&']]).scan =
      (.error ⟨.endOfInput, ⟨8, 1, 5⟩⟩,
        s.passAll [.comment .block ['\n'], .slash, .marks ['&', '&']]) := by
    subst hs
    exact TokenStream.scan_end rfl
  simp only [TokenStream.answers, TokenStream.afterScans, hslash, hmarks, hend] at hanswers hcomments hwhole
  subst hs
  exact ⟨tiles, hanswers, hcomments, hwhole ⟨_, List.mem_of_getLast? rfl, rfl⟩⟩

end BoardLang
