import BoardLang.Lexical.Piece

/-!
# The grammar of pieces

What a text may be made of, said on characters alone and without a word on how a reader goes
through it. A `Lexeme` is a blank, a comment or a token together with what is allowed to come
after it; a `Flaw` is a stretch that is none of these. `Cuts` is a text taken apart from the front
into lexemes.

The two sides that later modules compare are `Piece.cut`, which finds the first piece of a text,
and these relations.
-/

namespace BoardLang

open CharClass

/-! ## Characters and tables -/

/-- The characters that only keep tokens apart; a newline is one unless newlines end statements. -/
def IsSpace (d : Dialect) (c : Char) : Prop :=
  c = ' ' ∨ c = '\t' ∨ c = '\r' ∨ (c = '\n' ∧ d.newlineEndsStatement = false)

/-- The characters that are a token by themselves, with the kind of the token. -/
def delimiters : List (Char × TokenKind) :=
  [('(', .leftParen), (')', .rightParen), ('[', .leftBracket), (']', .rightBracket),
    ('\x7b', .leftBrace), ('\x7d', .rightBrace), (',', .comma), (';', .semicolon), (':', .colon)]

def operators : List (List Char × TokenKind) :=
  [(['&'], .bitAnd), (['|'], .bitOr), (['^'], .bitXor), (['&', '^'], .bitAndNot), (['!'], .bitNot),
    (['.'], .period), (['.', '.', '.'], .ellipsis)]

/-- A comment of either style begins here. -/
def OpensComment (text : List Char) : Prop :=
  ∃ style : CommentStyle, style.opening <+: text

/-- Where a run of marks ends: at the end of the text, before a character that is no mark, before a
delimiter and before a comment. -/
def EndsMarks (after : List Char) : Prop :=
  ∀ c ∈ after.head?, isMark c = false ∨ c ∈ delimiters.map Prod.fst ∨ OpensComment after

/-- `run` is a longest run of marks in front of `after`: it holds no delimiter, no comment begins
inside it, and it cannot go on. -/
structure MarkRun (run after : List Char) : Prop where
  marks : ∀ c ∈ run, isMark c = true ∧ c ∉ delimiters.map Prod.fst
  unbroken : ∀ u v, run = u ++ v → v ≠ [] → ¬ OpensComment (v ++ after)
  ends : EndsMarks after

/-- No piece of any kind begins with `c`. -/
structure BeginsNothing (d : Dialect) (c : Char) : Prop where
  not_space : ¬ IsSpace d c
  not_digit : c.isDigit = false
  not_wordStart : isWordStart c = false
  not_delimiter : c ∉ delimiters.map Prod.fst ∧ c ≠ '\n'
  not_mark : isMark c = false

/-! ## Lexemes and flaws -/

/-- The piece is written as the language wants it, and `after` may follow it. -/
inductive Lexeme (d : Dialect) : Piece → List Char → Prop where
  | blank {c : Char} {after : List Char} (hc : IsSpace d c) : Lexeme d (.blank c) after
  /-- Two slashes and the rest of the line. -/
  | lineComment {body after : List Char} (hbody : '\n' ∉ body)
      (hafter : after = [] ∨ after.head? = some '\n') : Lexeme d (.comment .line body) after
  /-- A block comment; its end is the first star with a slash after the two opening characters. -/
  | blockComment {body after : List Char}
      (hfirst : ∀ u v, body ++ ['*', '/'] ++ after = u ++ ['*', '/'] ++ v →
        body.length ≤ u.length) : Lexeme d (.comment .block body) after
  | int {digits after : List Char} (hne : digits ≠ []) (hdigits : ∀ c ∈ digits, c.isDigit = true)
      (hafter : ∀ c ∈ after.head?, c.isDigit = false) : Lexeme d (.token .int digits) after
  | ident {c : Char} {word after : List Char} (hc : isWordStart c = true)
      (hword : ∀ x ∈ word, isWordPart x = true) (hafter : ∀ x ∈ after.head?, isWordPart x = false) :
      Lexeme d (.token .ident (c :: word)) after
  | delimiter {c : Char} {kind : TokenKind} {after : List Char} (hc : (c, kind) ∈ delimiters) :
      Lexeme d (.token kind [c]) after
  | newline {after : List Char} (hd : d.newlineEndsStatement = true) :
      Lexeme d (.token .statementEnd ['\n']) after
  /-- An operator that the run of marks does not go beyond. -/
  | operator {text after : List Char} {kind : TokenKind} (htext : (text, kind) ∈ operators)
      (hafter : EndsMarks after) : Lexeme d (.token kind text) after

/-- The piece covers a stretch that no lexeme covers. -/
inductive Flaw (d : Dialect) : Piece → List Char → Prop where
  | slash {after : List Char} (hafter : ∀ c ∈ after.head?, c ≠ '/' ∧ c ≠ '*') : Flaw d .slash after
  | unclosed {body : List Char} (hbody : ¬ ['*', '/'] <:+: body) : Flaw d (.unclosed body) []
  | marks {c : Char} {run after : List Char} (hc : c ≠ '/' ∧ c ≠ '_')
      (hrun : MarkRun (c :: run) after) (hnone : c :: run ∉ operators.map Prod.fst) :
      Flaw d (.marks (c :: run)) after
  /-- A character that begins nothing; it is not covered. -/
  | stray {c : Char} {rest : List Char} (hc : BeginsNothing d c) : Flaw d (.stray c) (c :: rest)

/-- The first text is made of the pieces, one lexeme after the other, and then of the second text. -/
inductive Cuts (d : Dialect) : List Char → List Piece → List Char → Prop where
  | done (rest : List Char) : Cuts d rest [] rest
  | piece {p : Piece} {after rest : List Char} {ps : List Piece} (hp : Lexeme d p after)
      (hps : Cuts d after ps rest) : Cuts d (p.text ++ after) (p :: ps) rest

def Piece.isComment : Piece → Bool
  | .comment _ _ => true
  | _ => false

/-- The piece only stands between tokens. -/
def Piece.isTrivia : Piece → Bool
  | .blank _ | .comment _ _ => true
  | _ => false

/-- The piece stands between tokens or is one. -/
def Piece.isSound : Piece → Bool
  | .blank _ | .comment _ _ | .token _ _ => true
  | _ => false

/-- The tokens among pieces that stand in a row from `pos` on. -/
def tokensAt : Position → List Piece → List Token
  | _, [] => []
  | pos, .token kind text :: ps =>
    ⟨kind, String.ofList text, Span.covering pos text⟩ :: tokensAt (pos.advance text) ps
  | pos, p :: ps => tokensAt (pos.advance p.text) ps

/-! ## Classes of characters -/

/-- Below the first accented letters, the alphabetic characters are the ASCII letters. -/
theorem Text.isAlphabetic_ascii {c : Char} (h : c.toNat < 0xAA) :
    isAlphabetic c = true ↔
      (0x41 ≤ c.toNat ∧ c.toNat ≤ 0x5A) ∨ (0x61 ≤ c.toNat ∧ c.toNat ≤ 0x7A) := by
  have hranges : ∀ r ∈ alphabeticRanges, r = (0x41, 0x5A) ∨ r = (0x61, 0x7A) ∨ 0xAA ≤ r.1 := by
    decide +kernel
  rw [isAlphabetic_iff]
  constructor
  · rintro ⟨r, hr, hle, hge⟩
    rcases hranges r hr with rfl | rfl | hlow
    · exact Or.inl ⟨hle, hge⟩
    · exact Or.inr ⟨hle, hge⟩
    · omega
  · rintro (hc | hc)
    · exact ⟨(0x41, 0x5A), by decide +kernel, hc⟩
    · exact ⟨(0x61, 0x7A), by decide +kernel, hc⟩

theorem isMark_iff {c : Char} :
    isMark c = true ↔
      (0x21 ≤ c.toNat ∧ c.toNat ≤ 0x2F) ∨ (0x3A ≤ c.toNat ∧ c.toNat ≤ 0x40) ∨
        (0x5B ≤ c.toNat ∧ c.toNat ≤ 0x60) ∨ (0x7B ≤ c.toNat ∧ c.toNat ≤ 0x7E) := by
  simp only [isMark, Char.le_def, UInt32.le_iff_toNat_le, Bool.or_eq_true, Bool.and_eq_true,
    decide_eq_true_eq, or_assoc]
  rfl

theorem ne_newline_of_isMark {c : Char} (h : isMark c = true) : c ≠ '\n' := by
  rintro rfl
  simp [isMark_iff] at h

theorem isDigit_iff {c : Char} : c.isDigit = true ↔ 0x30 ≤ c.toNat ∧ c.toNat ≤ 0x39 := by
  simp only [Char.isDigit, ge_iff_le, UInt32.le_iff_toNat_le, Bool.and_eq_true, decide_eq_true_eq]
  rfl

theorem isBlank_iff {d : Dialect} {c : Char} : d.isBlank c = true ↔ IsSpace d c := by
  simp [Dialect.isBlank, IsSpace, or_assoc]

/-- The characters that keep tokens apart come before all others. -/
theorem IsSpace.toNat_lt {d : Dialect} {c : Char} (h : IsSpace d c) : c.toNat < 0x21 := by
  rcases h with rfl | rfl | rfl | ⟨rfl, -⟩ <;> decide

theorem isWordStart_iff {c : Char} : isWordStart c = true ↔ Text.isAlphabetic c = true ∨ c = '_' := by
  simp [isWordStart]

/-- A word begins with nothing that another ASCII class holds, except for the underscore. -/
theorem not_isWordStart {c : Char} (h : c.toNat < 0x41 ∨ isMark c = true) (hc : c ≠ '_') :
    isWordStart c = false := by
  rw [Bool.eq_false_iff, Ne, isWordStart_iff, not_or]
  refine ⟨?_, hc⟩
  rw [isMark_iff] at h
  rw [Text.isAlphabetic_ascii (by omega)]
  omega

theorem ofDelimiter?_eq_some_iff {c : Char} {k : TokenKind} :
    TokenKind.ofDelimiter? c = some k ↔ (c, k) ∈ delimiters ∨ c = '\n' ∧ k = .statementEnd := by
  unfold TokenKind.ofDelimiter?
  split <;> simp_all [delimiters, eq_comm]

theorem ofDelimiter?_eq_none_iff {c : Char} :
    TokenKind.ofDelimiter? c = none ↔ c ∉ delimiters.map Prod.fst ∧ c ≠ '\n' := by
  rw [Option.eq_none_iff_forall_ne_some]
  simp only [ne_eq, ofDelimiter?_eq_some_iff, List.mem_map, Prod.exists, exists_and_right,
    exists_eq_right]
  grind

theorem isOperatorPart_iff {c : Char} :
    isOperatorPart c = true ↔ isMark c = true ∧ c ∉ delimiters.map Prod.fst := by
  simp only [isOperatorPart, CharClass.isDelimiter, Bool.and_eq_true, Bool.not_eq_true',
    Option.isSome_eq_false_iff, Option.isNone_iff_eq_none, ofDelimiter?_eq_none_iff]
  constructor
  · rintro ⟨hm, hc, -⟩
    exact ⟨hm, hc⟩
  · rintro ⟨hm, hc⟩
    exact ⟨hm, hc, ne_newline_of_isMark hm⟩

/-- Looking up a run of marks finds the operators and nothing else. -/
theorem ofSpelling?_eq_some_iff_mem {run : List Char} {k : TokenKind} :
    TokenKind.ofSpelling? (String.ofList run) = some k ↔ (run, k) ∈ operators := by
  rw [TokenKind.ofSpelling?_eq_some_iff]
  constructor
  · rintro ⟨hk, hs⟩
    obtain rfl : run = (k.spelling?.getD "").toList := by simp [hs]
    revert hk hs
    cases k <;> decide
  · intro h
    simp only [operators, List.mem_cons, Prod.mk.injEq, List.not_mem_nil, or_false] at h
    rcases h with h | h | h | h | h | h | h <;> obtain ⟨rfl, rfl⟩ := h <;> decide

/-- No word is a keyword, since none of the keywords begins as a word does. -/
theorem ofSpelling?_word {c : Char} (h : isWordStart c = true) (word : List Char) :
    TokenKind.ofSpelling? (String.ofList (c :: word)) = none := by
  have all : ∀ x ∈ operators, isWordStart (x.1.headD ' ') = false := by decide
  rw [Option.eq_none_iff_forall_ne_some]
  intro k hk
  have hno : isWordStart c = false := all _ (ofSpelling?_eq_some_iff_mem.mp hk)
  exact Bool.false_ne_true (hno.symm.trans h)

end BoardLang
