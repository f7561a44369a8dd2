import BoardLang.Lexical.ScanError
import BoardLang.Text.Excerpt

/-!
# A cursor in a text

A cursor splits a text into the characters before it and the characters after it, and knows its
own position. The position is always the one that the characters before it give: that is part of
the type.

* `Cursor.move` goes forward over a number of characters; `source_move` says that it keeps the
  text, `rest_move` and `pos_move` where it arrives.
-/

namespace BoardLang

/-- A place in a text, with the text around it. -/
structure Cursor where
  /-- The characters before the cursor, the nearest one first. -/
  passed : List Char
  rest : List Char
  pos : Position
  pos_eq : pos = Position.start.advance passed.reverse

namespace Cursor

def ofText (text : List Char) : Cursor := ⟨[], text, Position.start, rfl⟩

def source (c : Cursor) : List Char := c.passed.reverse ++ c.rest

def peek (c : Cursor) : Except ScanError Char :=
  match c.rest with
  | [] => .error ⟨.endOfInput, c.pos⟩
  | ch :: _ => .ok ch

def isAt (c : Cursor) (ch : Char) : Bool := c.rest.head? = some ch

/-- The cursor moved over `n` characters, or to the end if fewer are left. -/
def move : Nat → Cursor → Cursor
  | 0, c => c
  | n + 1, c =>
    match c with
    | ⟨_, [], _, _⟩ => c
    | ⟨passed, ch :: rest, pos, h⟩ => move n ⟨ch :: passed, rest, pos.step ch, by simp [h]⟩

/-- The character after the cursor, and the cursor moved over it. -/
def advance (c : Cursor) : Except ScanError Char × Cursor := (c.peek, c.move 1)

def slice (c : Cursor) (span : Span) : List Char := Text.slice c.source span

def excerpt (c : Cursor) (p : Position) : String := Text.excerpt c.source p

@[simp] theorem source_ofText (text : List Char) : (ofText text).source = text := rfl

@[simp] theorem rest_move (n : Nat) (c : Cursor) : (c.move n).rest = c.rest.drop n := by
  induction n generalizing c with
  | zero => rfl
  | succ n ih =>
    obtain ⟨passed, rest, pos, h⟩ := c
    cases rest with
    | nil => rfl
    | cons ch rest => exact ih _

@[simp] theorem pos_move (n : Nat) (c : Cursor) :
    (c.move n).pos = c.pos.advance (c.rest.take n) := by
  induction n generalizing c with
  | zero => rfl
  | succ n ih =>
    obtain ⟨passed, rest, pos, h⟩ := c
    cases rest with
    | nil => rfl
    | cons ch rest => exact ih _

@[simp] theorem source_move (n : Nat) (c : Cursor) : (c.move n).source = c.source := by
  induction n generalizing c with
  | zero => rfl
  | succ n ih =>
    obtain ⟨passed, rest, pos, h⟩ := c
    cases rest with
    | nil => rfl
    | cons ch rest => exact (ih _).trans (by simp [source])

end Cursor

end BoardLang
