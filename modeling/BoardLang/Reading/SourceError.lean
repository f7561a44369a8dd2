import BoardLang.Lexical.ScanError
import BoardLang.Token.Kind

/-!
# Errors in a source text

What can be wrong with a text: its characters, the order of its tokens, or the size of a number.
-/

namespace BoardLang

inductive SourceError where
  | scan (error : ScanError)
  | unexpected (expected : TokenKind) (found : Option TokenKind) (pos : Position)
  /-- A number needs more than 64 bits. -/
  | overflow (literal : String) (pos : Position)
deriving DecidableEq, Repr

namespace SourceError

def pos : SourceError → Position
  | scan error => error.pos
  | unexpected _ _ pos => pos
  | overflow _ pos => pos

/-- What a message calls the token that was found; without one, the text has ended. -/
def describeFound : Option TokenKind → String
  | some kind => kind.describe
  | none => "end of input"

def message : SourceError → String
  | scan error => error.message
  | unexpected expected found pos =>
    pos.describe ++ ": expected " ++ expected.describe ++ ", found " ++ describeFound found
  | overflow literal pos =>
    pos.describe ++ ": integer literal `" ++ literal ++ "` does not fit in 64 bits"

/-- What is wrong, without the place. -/
def wording : SourceError → String
  | scan error => error.cause.message
  | unexpected expected found _ => "expected " ++ expected.describe ++ ", found " ++ describeFound found
  | overflow literal _ => "integer literal `" ++ literal ++ "` does not fit in 64 bits"

theorem message_eq (e : SourceError) : e.message = e.pos.describe ++ ": " ++ e.wording := by
  cases e with
  | scan error => rfl
  | unexpected expected found pos =>
    show pos.describe ++ ": expected " ++ expected.describe ++ ", found " ++ describeFound found =
      pos.describe ++ ": " ++ ("expected " ++ expected.describe ++ ", found " ++ describeFound found)
    have h : ": expected " = ": " ++ "expected " := rfl
    rw [h]
    simp only [String.append_assoc]
  | overflow literal pos =>
    show pos.describe ++ ": integer literal `" ++ literal ++ "` does not fit in 64 bits" =
      pos.describe ++ ": " ++ ("integer literal `" ++ literal ++ "` does not fit in 64 bits")
    have h : ": integer literal `" = ": " ++ "integer literal `" := rfl
    rw [h]
    simp only [String.append_assoc]

end SourceError

end BoardLang
