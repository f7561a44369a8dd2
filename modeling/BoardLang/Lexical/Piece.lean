import BoardLang.Lexical.CharClass
import BoardLang.Lexical.ScanError
import BoardLang.Token.Basic

/-!
# Pieces of a text

A text is cut from the front into pieces: blanks, comments, tokens, and stretches that are none of
these. `Piece.cut` finds the first piece of what is left. It looks at characters only; where the
piece stands comes in with `Piece.outcome?`, which says what a reader of tokens makes of it.

* `cut_eq_none_iff`: only the empty text has no first piece.
* `text_isPrefix_of_cut`: a piece is what the text begins with.
* `text_ne_nil_of_cut`: every piece but a stray character covers something.
-/

namespace BoardLang

open CharClass

inductive Piece where
  | blank (c : Char)
  /-- A whole comment; `body` is what its marks enclose. -/
  | comment (style : CommentStyle) (body : List Char)
  | token (kind : TokenKind) (text : List Char)
  /-- A slash that begins no comment. -/
  | slash
  /-- A block comment without an end, up to the end of the text. -/
  | unclosed (body : List Char)
  /-- A run of marks that is no operator. -/
  | marks (text : List Char)
  /-- A character that begins nothing. It stays where it is. -/
  | stray (c : Char)
deriving DecidableEq, Repr

namespace Piece

def text : Piece → List Char
  | blank c => [c]
  | comment style body => style.opening ++ body ++ style.closing
  | token _ text => text
  | slash => ['/']
  | unclosed body => CommentStyle.block.opening ++ body
  | marks text => text
  | stray _ => []

/-! ## Cutting -/

/-- The body of a block comment: everything before the first star with a slash after it. -/
def blockBody? : List Char → Option (List Char)
  | [] => none
  | '*' :: '/' :: _ => some []
  | c :: rest => (blockBody? rest).map (c :: ·)

def opensComment : List Char → Bool
  | '/' :: '/' :: _ => true
  | '/' :: '*' :: _ => true
  | _ => false

/-- The longest run of operator characters here that no comment interrupts. -/
def markRun : List Char → List Char
  | [] => []
  | c :: rest => if isOperatorPart c && !opensComment (c :: rest) then c :: markRun rest else []

/-- The piece that begins with a slash, given the characters after the slash. -/
def ofSlash : List Char → Piece
  | '/' :: rest => comment .line (rest.takeWhile (· ≠ '\n'))
  | '*' :: rest =>
    match blockBody? rest with
    | some body => comment .block body
    | none => unclosed rest
  | _ => slash

/-- The token that a whole word is: the keyword with this spelling, or else a name. -/
def ofWord (word : List Char) : Piece :=
  token ((TokenKind.ofSpelling? (String.ofList word)).getD .ident) word

def ofMarks (run : List Char) : Piece :=
  match TokenKind.ofSpelling? (String.ofList run) with
  | some kind => token kind run
  | none => marks run

def ofFirst (d : Dialect) (c : Char) (rest : List Char) : Piece :=
  -- The order counts: an underscore and a slash are marks, but they begin a word and a comment.
  if d.isBlank c then blank c
  else if c.isDigit then token .int (c :: rest.takeWhile Char.isDigit)
  else if isWordStart c then ofWord (c :: rest.takeWhile isWordPart)
  else if c = '/' then ofSlash rest
  else
    match TokenKind.ofDelimiter? c with
    | some kind => token kind [c]
    | none => if isMark c then ofMarks (c :: markRun rest) else stray c

def cut (d : Dialect) : List Char → Option Piece
  | [] => none
  | c :: rest => some (ofFirst d c rest)

/-! ## What a piece tells a reader -/

/-- The token or the error that a piece at `pos` is. Blanks and comments are neither. -/
def outcome? (p : Piece) (pos : Position) : Option (Except ScanError Token) :=
  match p with
  | blank _ | comment _ _ => none
  | token kind text => some (.ok ⟨kind, String.ofList text, Span.covering pos text⟩)
  | slash => some (.error ⟨.format, pos.step '/'⟩)
  | unclosed _ => some (.error ⟨.unclosedComment, pos⟩)
  | marks text => some (.error ⟨.unknownOperator (String.ofList text), pos⟩)
  | stray c => some (.error ⟨.invalidChar c, pos⟩)

def comment? (p : Piece) (pos : Position) : Option Comment :=
  match p with
  | comment style body =>
    some ⟨style, String.ofList body, Span.covering pos (comment style body).text⟩
  | _ => none

/-! ## Laws of cutting -/

theorem cut_eq_none_iff {d : Dialect} {text : List Char} : cut d text = none ↔ text = [] := by
  cases text <;> simp [cut]

theorem blockBody?_isPrefix {text body : List Char} (h : blockBody? text = some body) :
    body ++ CommentStyle.block.closing <+: text := by
  fun_induction blockBody? text generalizing body with
  | case1 => simp at h
  | case2 rest =>
    obtain rfl : [] = body := by simpa using h
    exact ⟨rest, rfl⟩
  | case3 c rest _ ih =>
    obtain ⟨inner, hinner, rfl⟩ := Option.map_eq_some_iff.mp h
    exact List.cons_prefix_cons.mpr ⟨rfl, ih hinner⟩

theorem markRun_isPrefix (text : List Char) : markRun text <+: text := by
  induction text with
  | nil => exact List.prefix_rfl
  | cons c rest ih =>
    unfold markRun
    split
    · exact List.cons_prefix_cons.mpr ⟨rfl, ih⟩
    · exact List.nil_prefix

theorem ofSlash_isPrefix (rest : List Char) : (ofSlash rest).text <+: '/' :: rest := by
  unfold ofSlash
  split
  · rename_i rest
    have h := List.takeWhile_prefix (l := rest) (· ≠ '\n')
    simpa [text, CommentStyle.opening, CommentStyle.closing] using h
  · rename_i rest
    split
    · rename_i body h
      have h := blockBody?_isPrefix h
      simpa [text, CommentStyle.opening] using h
    · exact List.prefix_rfl
  · exact ⟨rest, rfl⟩

theorem text_ofMarks (run : List Char) : (ofMarks run).text = run := by
  unfold ofMarks
  split <;> rfl

theorem text_ofFirst_isPrefix (d : Dialect) (c : Char) (rest : List Char) :
    (ofFirst d c rest).text <+: c :: rest := by
  have single : [c] <+: c :: rest := ⟨rest, rfl⟩
  unfold ofFirst
  split
  · exact single
  split
  · exact List.cons_prefix_cons.mpr ⟨rfl, List.takeWhile_prefix _⟩
  split
  · exact List.cons_prefix_cons.mpr ⟨rfl, List.takeWhile_prefix _⟩
  split
  · rename_i h
    rw [h]
    exact ofSlash_isPrefix rest
  split
  · exact single
  split
  · rw [text_ofMarks]
    exact List.cons_prefix_cons.mpr ⟨rfl, markRun_isPrefix rest⟩
  · exact List.nil_prefix

theorem text_isPrefix_of_cut {d : Dialect} {cs : List Char} {p : Piece} (h : cut d cs = some p) :
    p.text <+: cs := by
  cases cs with
  | nil => simp [cut] at h
  | cons c rest =>
    obtain rfl : ofFirst d c rest = p := by simpa [cut] using h
    exact text_ofFirst_isPrefix d c rest

theorem text_ofFirst_ne_nil (d : Dialect) (c : Char) (rest : List Char) :
    (ofFirst d c rest).text ≠ [] ∨ ofFirst d c rest = stray c := by
  unfold ofFirst
  split
  · exact Or.inl (by simp [text])
  split
  · exact Or.inl (by simp [text])
  split
  · exact Or.inl (by simp [text, ofWord])
  split
  · left
    unfold ofSlash
    split
    · simp [text, CommentStyle.opening]
    · split <;> simp [text, CommentStyle.opening]
    · simp [text]
  split
  · exact Or.inl (by simp [text])
  split
  · left
    rw [text_ofMarks]
    simp
  · exact Or.inr rfl

theorem text_ne_nil_of_cut {d : Dialect} {cs : List Char} {p : Piece} (h : cut d cs = some p)
    (hp : ∀ c, p ≠ stray c) : p.text ≠ [] := by
  cases cs with
  | nil => simp [cut] at h
  | cons c rest =>
    obtain rfl : ofFirst d c rest = p := by simpa [cut] using h
    rcases text_ofFirst_ne_nil d c rest with h | h
    · exact h
    · exact absurd h (hp c)

/-- Blanks and comments cover something. -/
theorem text_ne_nil_of_outcome?_eq_none {p : Piece} {pos : Position}
    (h : p.outcome? pos = none) : p.text ≠ [] := by
  cases p with
  | blank c => simp [text]
  | comment style body => cases style <;> simp [text, CommentStyle.opening]
  | _ => simp [outcome?] at h

/-- Only a token piece gives a token, and it covers something. -/
theorem text_ne_nil_of_outcome?_eq_ok {d : Dialect} {cs : List Char} {p : Piece} {pos : Position}
    {t : Token} (hc : cut d cs = some p) (h : p.outcome? pos = some (.ok t)) : p.text ≠ [] := by
  apply text_ne_nil_of_cut hc
  rintro c rfl
  simp [outcome?] at h

end Piece

end BoardLang
