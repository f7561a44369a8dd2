import BoardLang.Lexical.TokenStream

/-!
# Whole runs

Reading a stream as far as it goes. `TokenStream.run` scans until the first failure and keeps
everything that came out; `lex` collects the tokens of a text, or reports why that is not possible.
-/

namespace BoardLang

/-- What comes out of scanning until something other than a token turns up. -/
structure Run where
  tokens : List Token
  /-- What ended the run; reaching the end of the text is the ordinary way. -/
  stop : ScanError
  final : TokenStream

namespace TokenStream

/-- Scans until the first failure. -/
def run (s : TokenStream) : Run :=
  match h : s.scan with
  | (.ok token, s') =>
    have := length_rest_scan_lt h
    let rest := run s'
    { rest with tokens := token :: rest.tokens }
  | (.error e, s') => ⟨[], e, s'⟩
termination_by s.cursor.rest.length
decreasing_by assumption

/-- All tokens that `next?` yields, or the error that it yields. -/
def collect (s : TokenStream) : Except ScanError (List Token) :=
  match h : s.next? with
  | (none, _) => .ok []
  | (some (.error e), _) => .error e
  | (some (.ok token), s') =>
    have := length_rest_next?_lt h
    match collect s' with
    | .ok tokens => .ok (token :: tokens)
    | .error e => .error e
termination_by s.cursor.rest.length
decreasing_by assumption

end TokenStream

/-- The tokens of `source`. -/
def lex (d : Dialect) (source : String) : Except ScanError (List Token) :=
  (TokenStream.ofText d source).collect

end BoardLang
