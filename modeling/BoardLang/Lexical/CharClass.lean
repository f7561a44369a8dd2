import BoardLang.Text.Alphabetic
import BoardLang.Token.Kind

/-!
# Classes of characters

The first character of a piece of text decides what the piece is, and its class decides how far
the piece runs. Words may use the letters of any script; numbers and operators use ASCII only.
-/

namespace BoardLang

/-- The one choice that the language leaves open. -/
structure Dialect where
  /-- Whether a newline is a token that ends a statement, or just a blank. -/
  newlineEndsStatement : Bool := false
deriving DecidableEq, Repr

/-- Whether `c` only keeps tokens apart. -/
def Dialect.isBlank (d : Dialect) (c : Char) : Bool :=
  c = ' ' || c = '\t' || c = '\r' || (c = '\n' && !d.newlineEndsStatement)

namespace CharClass

def isWordStart (c : Char) : Bool := Text.isAlphabetic c || c = '_'

def isWordPart (c : Char) : Bool := Text.isAlphabetic c || c.isDigit || c = '_'

/-- Whether `c` is a punctuation mark of ASCII. -/
def isMark (c : Char) : Bool :=
  ('!' ≤ c && c ≤ '/') || (':' ≤ c && c ≤ '@') ||
    ('[' ≤ c && c ≤ '`') || ('\x7b' ≤ c && c ≤ '~')

/-- Whether `c` is a token by itself. -/
def isDelimiter (c : Char) : Bool := (TokenKind.ofDelimiter? c).isSome

/-- Whether an operator can hold `c`: the marks that are no tokens by themselves. -/
def isOperatorPart (c : Char) : Bool := isMark c && !isDelimiter c

theorem isWordPart_of_isWordStart {c : Char} (h : isWordStart c = true) : isWordPart c = true := by
  unfold isWordStart at h
  unfold isWordPart
  rcases Bool.or_eq_true_iff.mp h with h | h <;> simp [h]

end CharClass

end BoardLang
