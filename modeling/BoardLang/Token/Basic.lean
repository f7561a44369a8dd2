import BoardLang.Position
import BoardLang.Text.Quoted
import BoardLang.Token.Kind

/-!
# Tokens and comments

What a text is made of, apart from its blanks: tokens, which mean something, and comments, which
are kept beside them. Both know the stretch of text that they cover.
-/

namespace BoardLang

/-- A token: what it is, how it is written, and where it stands. -/
structure Token where
  kind : TokenKind
  literal : String
  span : Span
deriving DecidableEq, Repr

namespace Token

def describe (t : Token) : String :=
  t.kind.name ++ "(" ++ Text.quoted t.literal ++ ") @ " ++ t.span.describe

end Token

inductive CommentStyle where
  /-- From two slashes to the end of the line. -/
  | line
  /-- Between a slash with a star and a star with a slash. -/
  | block
deriving DecidableEq, Repr

namespace CommentStyle

def opening : CommentStyle → List Char
  | line => ['/', '/']
  | block => ['/', '*']

/-- The characters that end a comment; the newline after a line comment does not belong to it. -/
def closing : CommentStyle → List Char
  | line => []
  | block => ['*', '/']

end CommentStyle

/-- A comment: its text without the marks around it, and the stretch it covers with them. -/
structure Comment where
  style : CommentStyle
  text : String
  span : Span
deriving DecidableEq, Repr

end BoardLang
