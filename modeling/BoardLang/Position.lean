/-!
# Positions in a text

A `Position` is a place between two characters. It counts characters, newlines, and the
characters since the last newline, all from zero; it is shown to people as `line:column`
counted from one.

* `Position.advance` carries a position over a run of characters, and `advance_append` says
  that two runs in a row are one run.
* A `Span` is the stretch between two positions, the second one excluded.
-/

namespace BoardLang

/-- A place in a text, counted from zero: characters before it, newlines before it, and
characters since the last of those newlines. -/
structure Position where
  offset : Nat
  line : Nat
  column : Nat
deriving DecidableEq, Repr

namespace Position

def start : Position := ⟨0, 0, 0⟩

/-- The place one character further on: a newline begins the next line. -/
def step (p : Position) (c : Char) : Position :=
  if c = '\n' then ⟨p.offset + 1, p.line + 1, 0⟩ else ⟨p.offset + 1, p.line, p.column + 1⟩

def advance (p : Position) (text : List Char) : Position :=
  text.foldl step p

/-- Line and column as people count them, from one. -/
def describe (p : Position) : String :=
  toString (p.line + 1) ++ ":" ++ toString (p.column + 1)

@[simp] theorem advance_nil (p : Position) : p.advance [] = p := rfl

@[simp] theorem advance_cons (p : Position) (c : Char) (text : List Char) :
    p.advance (c :: text) = (p.step c).advance text := rfl

@[simp] theorem advance_append (p : Position) (a b : List Char) :
    p.advance (a ++ b) = (p.advance a).advance b := by
  simp [advance]

@[simp] theorem offset_step (p : Position) (c : Char) : (p.step c).offset = p.offset + 1 := by
  unfold step; split <;> rfl

@[simp] theorem offset_advance (p : Position) (text : List Char) :
    (p.advance text).offset = p.offset + text.length := by
  induction text generalizing p with
  | nil => rfl
  | cons c rest ih => simp [ih]; omega

end Position

/-- The stretch of text from `start` up to, and without, `stop`. -/
structure Span where
  start : Position
  stop : Position
deriving DecidableEq, Repr

namespace Span

/-- The stretch that `text` covers when it begins at `p`. -/
def covering (p : Position) (text : List Char) : Span := ⟨p, p.advance text⟩

/-- Whether no character lies between the two ends; only their offsets count. -/
def isEmpty (s : Span) : Bool := s.stop.offset ≤ s.start.offset

def describe (s : Span) : String := s.start.describe ++ "-" ++ s.stop.describe

@[simp] theorem start_covering (p : Position) (text : List Char) : (covering p text).start = p := rfl

@[simp] theorem stop_covering (p : Position) (text : List Char) :
    (covering p text).stop = p.advance text := rfl

end Span

end BoardLang
