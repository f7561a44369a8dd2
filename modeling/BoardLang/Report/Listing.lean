import BoardLang.Lexical.Run
import BoardLang.Reading.SourceError

/-!
# Token listings

A listing shows one token a line: its span, its kind and its quoted text. A text with an error in
it has no listing.
-/

namespace BoardLang

def Token.listingLine (t : Token) : String :=
  t.span.describe ++ " " ++ t.kind.name ++ " " ++ Text.quoted t.literal ++ "\n"

def listingOf (tokens : List Token) : String := String.join (tokens.map Token.listingLine)

def listing (d : Dialect) (source : String) : Except SourceError String :=
  match lex d source with
  | .ok tokens => .ok (listingOf tokens)
  | .error e => .error (.scan e)

end BoardLang
