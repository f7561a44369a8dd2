/-!
# Token kinds

The kinds stand in one fixed order. Six of them are markers that no token ever has: each pair
encloses a band, and a kind belongs to a band when it lies strictly between the two markers.

* `spelling?` is the one text of a kind that has only one.
* `ofSpelling?` finds the keyword with a given spelling; `ofSpelling?_eq_some_iff` says that it
  finds all of them and nothing else.
* `ofDelimiter?` is the table of characters that are a token by themselves.
-/

namespace BoardLang

/-- What a token is. The order of the constructors is the order of the kinds. -/
inductive TokenKind where
  | illegal
  | ident
  | int
  | keywordBegin
  | operatorBegin
  | bitAnd
  | bitOr
  | bitXor
  | bitAndNot
  | bitNot
  | operatorEnd
  | statementEnd
  | period
  | ellipsis
  | keywordEnd
  | delimiterBegin
  | leftParen
  | leftBracket
  | leftBrace
  | comma
  | rightParen
  | rightBracket
  | rightBrace
  | semicolon
  | colon
  | delimiterEnd
deriving DecidableEq, Repr

namespace TokenKind

def all : List TokenKind :=
  [illegal, ident, int, keywordBegin, operatorBegin, bitAnd, bitOr, bitXor, bitAndNot, bitNot,
    operatorEnd, statementEnd, period, ellipsis, keywordEnd, delimiterBegin, leftParen,
    leftBracket, leftBrace, comma, rightParen, rightBracket, rightBrace, semicolon, colon,
    delimiterEnd]

theorem mem_all (k : TokenKind) : k ∈ all := by cases k <;> decide

/-- The number of a kind in the order of kinds. -/
def tag (k : TokenKind) : Nat := k.ctorIdx

instance : Ord TokenKind := ⟨fun a b => compare a.tag b.tag⟩

/-! ## Bands -/

def isBetween (k first last : TokenKind) : Bool := first.tag < k.tag && k.tag < last.tag

/-- Whether `k` only marks the end of a band. -/
def isMarker : TokenKind → Bool
  | keywordBegin | keywordEnd | operatorBegin | operatorEnd | delimiterBegin | delimiterEnd => true
  | _ => false

/-- The keyword band holds the operators, the end of a statement and the dots. -/
def isKeyword (k : TokenKind) : Bool := k.isBetween keywordBegin keywordEnd && !k.isMarker

/-- The operator band lies inside the keyword band. -/
def isOperator (k : TokenKind) : Bool := k.isBetween operatorBegin operatorEnd

/-- The delimiter band holds the brackets and the separators. -/
def isDelimiter (k : TokenKind) : Bool := k.isBetween delimiterBegin delimiterEnd

/-- Whether tokens of this kind have a text of their own choice. -/
def isLiteral : TokenKind → Bool
  | ident | int => true
  | _ => false

/-! ## Texts -/

/-- The one text of the kinds that have only one. -/
def spelling? : TokenKind → Option String
  | bitAnd => some "&"
  | bitOr => some "|"
  | bitXor => some "^"
  | bitAndNot => some "&^"
  | bitNot => some "!"
  | period => some "."
  | ellipsis => some "..."
  | leftParen => some "("
  | leftBracket => some "["
  | leftBrace => some "\x7b"
  | comma => some ","
  | rightParen => some ")"
  | rightBracket => some "]"
  | rightBrace => some "\x7d"
  | semicolon => some ";"
  | colon => some ":"
  | _ => none

/-- What a message calls the kind: its spelling in backticks, if it has one. -/
def describe (k : TokenKind) : String :=
  match k.spelling? with
  | some text => "`" ++ text ++ "`"
  | none =>
    match k with
    | illegal => "illegal token"
    | ident => "identifier"
    | int => "integer literal"
    | statementEnd => "newline"
    | _ => "band marker"

/-- What a token listing calls the kind. -/
def name : TokenKind → String
  | illegal => "Illegal"
  | ident => "Ident"
  | int => "Int"
  | keywordBegin => "KeywordBegin"
  | operatorBegin => "OperatorBegin"
  | bitAnd => "And"
  | bitOr => "Or"
  | bitXor => "Xor"
  | bitAndNot => "AndNot"
  | bitNot => "Not"
  | operatorEnd => "OperatorEnd"
  | statementEnd => "StmtEnd"
  | period => "Period"
  | ellipsis => "Ellipsis"
  | keywordEnd => "KeywordEnd"
  | delimiterBegin => "DelimiterBegin"
  | leftParen => "LParen"
  | leftBracket => "LBrack"
  | leftBrace => "LBrace"
  | comma => "Comma"
  | rightParen => "RParen"
  | rightBracket => "RBrack"
  | rightBrace => "RBrace"
  | semicolon => "Semicolon"
  | colon => "Colon"
  | delimiterEnd => "DelimiterEnd"

/-! ## Look-up -/

def ofSpelling? (text : String) : Option TokenKind :=
  all.find? fun k => k.isKeyword && k.spelling? == some text

/-- The kind of the token that the character `c` is by itself. -/
def ofDelimiter? : Char → Option TokenKind
  | '\x7b' => some leftBrace
  | '\x7d' => some rightBrace
  | '[' => some leftBracket
  | ']' => some rightBracket
  | '(' => some leftParen
  | ')' => some rightParen
  | ',' => some comma
  | ';' => some semicolon
  | ':' => some colon
  | '\n' => some statementEnd
  | _ => none

theorem spelling?_inj {a b : TokenKind} {text : String} (ha : a.spelling? = some text)
    (hb : b.spelling? = some text) : a = b := by
  have h := ha.trans hb.symm
  revert h ha
  cases a <;> cases b <;> simp [spelling?]

theorem ofSpelling?_eq_some_iff {text : String} {k : TokenKind} :
    ofSpelling? text = some k ↔ k.isKeyword = true ∧ k.spelling? = some text := by
  constructor
  · intro h
    simpa using List.find?_some h
  · rintro ⟨hk, hs⟩
    cases hf : ofSpelling? text with
    | none => simpa [hk, hs] using List.find?_eq_none.mp hf k (mem_all k)
    | some j =>
      have hj : j.isKeyword = true ∧ j.spelling? = some text := by simpa using List.find?_some hf
      rw [spelling?_inj hj.2 hs]

end TokenKind

end BoardLang
