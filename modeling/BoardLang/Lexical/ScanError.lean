import BoardLang.Position
import BoardLang.Text.Quoted

/-!
# Scan errors

Why no token could be read, and where. Reaching the end of the text is one of the causes, so that
asking for a token always gives a token or a reason.
-/

namespace BoardLang

namespace ScanError

inductive Cause where
  /-- Nothing but blanks and comments is left. -/
  | endOfInput
  /-- A slash stands alone. -/
  | format
  | unknownOperator (text : String)
  | unclosedComment
  /-- A character begins nothing. -/
  | invalidChar (c : Char)
deriving DecidableEq, Repr

def Cause.message : Cause → String
  | endOfInput => "end of input"
  | format => "format error"
  | unknownOperator text => "unknown operator `" ++ text ++ "`"
  | unclosedComment => "block comment is not closed"
  | invalidChar c => "invalid character " ++ Text.quotedChar c

end ScanError

structure ScanError where
  cause : ScanError.Cause
  pos : Position
deriving DecidableEq, Repr

namespace ScanError

def message (e : ScanError) : String := e.pos.describe ++ ": " ++ e.cause.message

def isEnd (e : ScanError) : Bool := e.cause = .endOfInput

theorem isEnd_iff {e : ScanError} : e.isEnd = true ↔ e.cause = .endOfInput := decide_eq_true_iff

end ScanError

end BoardLang
