import BoardLang.Proofs.Acceptance
import Mathlib.Data.List.Chain

/-!
# Which words need a space between them

Tokens are written one after the other, with a space between two of them or with nothing. Reading the
text again finds the same tokens exactly if a space stands between every two that would run together
(`lex_written_iff`): a word before a word or a number, a number before a number, an operator before an
operator, and an operator before a word that begins with an underscore, which is a mark as well.

The reason is that one character decides what may follow a token (`lexeme_of_spells`,
`Lexeme.goesOn_eq_false`): a token goes on as long as characters of its class come, and of a word the
first character tells its class (`BeginsWith`).
-/

namespace BoardLang

open CharClass

variable {d : Dialect} {c : Char} {kind : TokenKind} {text after : List Char}

/-! ## Words and how they are written -/

def markKinds : List TokenKind :=
  [.bitAnd, .bitOr, .bitXor, .bitAndNot, .bitNot, .period, .ellipsis]

/-- The text is a way to write a token of the kind. -/
inductive Spells (d : Dialect) : TokenKind → List Char → Prop where
  | ident {c : Char} {word : List Char} (hc : isWordStart c = true)
      (hword : ∀ x ∈ word, isWordPart x = true) : Spells d .ident (c :: word)
  | int {digits : List Char} (hne : digits ≠ []) (hdigits : ∀ c ∈ digits, c.isDigit = true) :
      Spells d .int digits
  /-- The kinds with one spelling: the keyword band and the delimiters. -/
  | fixed {kind : TokenKind} {text : List Char} (h : kind.spelling? = some (String.ofList text)) :
      Spells d kind text
  | newline (hd : d.newlineEndsStatement = true) : Spells d .statementEnd ['\n']

/-- A kind of token and a way to write it. -/
structure Word (d : Dialect) where
  kind : TokenKind
  text : List Char
  spelled : Spells d kind text

def Word.seen (w : Word d) : TokenKind × String := (w.kind, String.ofList w.text)

/-- Without a space between them, `a` and `b` run together. -/
def Fuses (a b : Word d) : Prop :=
  (a.kind = .ident ∧ (b.kind = .ident ∨ b.kind = .int)) ∨
  (a.kind = .int ∧ b.kind = .int) ∨
  (a.kind ∈ markKinds ∧ b.kind ∈ markKinds) ∨
  (a.kind ∈ markKinds ∧ b.kind = .ident ∧ b.text.head? = some '_')

instance (a b : Word d) : Decidable (Fuses a b) := inferInstanceAs (Decidable (_ ∨ _ ∨ _ ∨ _))

/-- The words in their order. The mark on a word says whether a space separates it from the next. -/
def written : List (Word d × Bool) → List Char
  | [] => []
  | [(w, _)] => w.text
  | (w, gap) :: next :: rest => w.text ++ (if gap then [' '] else []) ++ written (next :: rest)

/-! ## The first character of a word -/

/-- The text of a token of the kind begins with the character, whose class tells the kind's class. -/
structure BeginsWith (d : Dialect) (kind : TokenKind) (text : List Char) (c : Char) : Prop where
  text_eq : ∃ tail, text = c :: tail
  isWordPart_iff : isWordPart c = true ↔ kind = .ident ∨ kind = .int
  isDigit_iff : c.isDigit = true ↔ kind = .int
  isOperatorPart_iff : isOperatorPart c = true ↔ kind ∈ markKinds ∨ kind = .ident ∧ c = '_'
  not_space : ¬ IsSpace d c
  not_slash : c ≠ '/'

theorem not_isSpace_of_le (h : 0x21 ≤ c.toNat) : ¬ IsSpace d c := by
  intro hs
  have hlt := hs.toNat_lt
  omega

theorem beginsWith_ident (hc : isWordStart c = true) (word : List Char) :
    BeginsWith d .ident (c :: word) c where
  text_eq := ⟨word, rfl⟩
  isWordPart_iff := by simp [isWordPart_of_isWordStart hc]
  isDigit_iff := by simp [isDigit_eq_false (Or.inr (le_toNat_of_isWordStart hc))]
  isOperatorPart_iff := by
    by_cases hu : c = '_'
    · subst hu
      decide
    · -- Of the marks, only the underscore begins a word.
      have hmark : isOperatorPart c = false := by
        rw [Bool.eq_false_iff, Ne, BoardLang.isOperatorPart_iff]
        rintro ⟨hm, -⟩
        rw [not_isWordStart (Or.inr hm) hu] at hc
        contradiction
      simp [hmark, hu, markKinds]
  not_space := not_isSpace_of_le (Nat.le_trans (by decide) (le_toNat_of_isWordStart hc))
  not_slash := by
    rintro rfl
    exact absurd hc (by decide)

theorem beginsWith_int (hc : c.isDigit = true) (digits : List Char) :
    BeginsWith d .int (c :: digits) c := by
  have hle := BoardLang.isDigit_iff.mp hc
  have hmark : isOperatorPart c = false := by
    rw [Bool.eq_false_iff, Ne, BoardLang.isOperatorPart_iff, isMark_iff]
    omega
  refine ⟨⟨digits, rfl⟩, by simp [isWordPart, hc], by simp [hc], by simp [hmark, markKinds],
    not_isSpace_of_le (by omega), ?_⟩
  rintro rfl
  exact absurd hc (by decide)

/-- A kind with one spelling is in one of the two tables. -/
theorem mem_tables_of_spelling? (h : kind.spelling? = some (String.ofList text)) :
    (∃ c, text = [c] ∧ (c, kind) ∈ delimiters) ∨ (text, kind) ∈ operators := by
  have hmem : (text, kind) ∈ delimiters.map (fun x => ([x.1], x.2)) ∨ (text, kind) ∈ operators := by
    obtain rfl : text = (kind.spelling?.getD "").toList := by simp [h]
    revert h
    cases kind <;> decide
  refine hmem.imp_left fun hmem => ?_
  obtain ⟨⟨c, k⟩, hc, heq⟩ := List.mem_map.mp hmem
  obtain ⟨rfl, rfl⟩ := Prod.mk.inj heq
  exact ⟨c, rfl, hc⟩

theorem beginsWith_delimiter (h : (c, kind) ∈ delimiters) : BeginsWith d kind [c] c := by
  have all : ∀ x ∈ delimiters, isWordPart x.1 = false ∧ x.1.isDigit = false ∧
      isOperatorPart x.1 = false ∧ 0x21 ≤ x.1.toNat ∧ x.1 ≠ '/' ∧
      x.2 ≠ .ident ∧ x.2 ≠ .int ∧ x.2 ∉ markKinds := by decide
  obtain ⟨hword, hdigit, hop, hle, hslash, hident, hint, hkind⟩ := all _ h
  exact ⟨⟨[], rfl⟩, by simp [hword, hident, hint], by simp [hdigit, hint], by simp [hop, hkind, hident],
    not_isSpace_of_le hle, hslash⟩

theorem beginsWith_operator (h : (c :: text, kind) ∈ operators) :
    BeginsWith d kind (c :: text) c := by
  have all : ∀ x ∈ operators, isWordPart (x.1.headD ' ') = false ∧ (x.1.headD ' ').isDigit = false ∧
      isOperatorPart (x.1.headD ' ') = true ∧ 0x21 ≤ (x.1.headD ' ').toNat ∧ x.1.headD ' ' ≠ '/' ∧
      x.2 ≠ .ident ∧ x.2 ≠ .int ∧ x.2 ∈ markKinds := by decide
  obtain ⟨hword, hdigit, hop, hle, hslash, hident, hint, hkind⟩ := all _ h
  rw [List.headD_cons] at hword hdigit hop hle hslash
  exact ⟨⟨text, rfl⟩, by simp [hword, hident, hint], by simp [hdigit, hint], by simp [hop, hkind],
    not_isSpace_of_le hle, hslash⟩

theorem beginsWith_newline (hd : d.newlineEndsStatement = true) :
    BeginsWith d .statementEnd ['\n'] '\n' :=
  ⟨⟨[], rfl⟩, by decide, by decide, by decide, by simp [IsSpace, hd], by decide⟩

theorem Spells.exists_beginsWith (h : Spells d kind text) : ∃ c, BeginsWith d kind text c := by
  cases h with
  | ident hc hword => exact ⟨_, beginsWith_ident hc _⟩
  | int hne hdigits =>
    obtain ⟨c, digits, rfl⟩ := List.exists_cons_of_ne_nil hne
    exact ⟨c, beginsWith_int (hdigits c (by simp)) digits⟩
  | fixed h =>
    rcases mem_tables_of_spelling? h with ⟨c, rfl, hc⟩ | htext
    · exact ⟨c, beginsWith_delimiter hc⟩
    · have all : ∀ x ∈ operators, x.1 ≠ [] := by decide
      obtain ⟨c, tail, rfl⟩ := List.exists_cons_of_ne_nil (all _ htext)
      exact ⟨c, beginsWith_operator htext⟩
  | newline hd => exact ⟨'\n', beginsWith_newline hd⟩

/-! ## What may follow a word -/

/-- Whether a token of the kind goes on with the character. -/
def TokenKind.goesOn : TokenKind → Char → Bool
  | ident => isWordPart
  | int => Char.isDigit
  | bitAnd | bitOr | bitXor | bitAndNot | bitNot | period | ellipsis => isOperatorPart
  | _ => fun _ => false

theorem goesOn_delimiter (h : (c, kind) ∈ delimiters) (x : Char) : kind.goesOn x = false := by
  have all : ∀ y ∈ delimiters, y.2.goesOn x = false := by simp [delimiters, TokenKind.goesOn]
  exact all _ h

theorem goesOn_operator (h : (text, kind) ∈ operators) (x : Char) :
    kind.goesOn x = isOperatorPart x := by
  have all : ∀ y ∈ operators, y.2.goesOn x = isOperatorPart x := by simp [operators, TokenKind.goesOn]
  exact all _ h

theorem goesOn_space (kind : TokenKind) : kind.goesOn ' ' = false := by
  cases kind <;> decide

/-- Two words run together if the first one goes on with the first character of the second one. -/
theorem fuses_iff {a b : Word d} (h : BeginsWith d b.kind b.text c) :
    Fuses a b ↔ a.kind.goesOn c = true := by
  obtain ⟨tail, htail⟩ := h.text_eq
  have hhead : b.text.head? = some '_' ↔ c = '_' := by simp [htail]
  unfold Fuses
  cases a.kind <;>
    simp [markKinds, TokenKind.goesOn, h.isWordPart_iff, h.isDigit_iff, h.isOperatorPart_iff, hhead]

theorem lexeme_of_spells (h : Spells d kind text) (hafter : ∀ c ∈ after.head?, kind.goesOn c = false) :
    Lexeme d (.token kind text) after := by
  cases h with
  | ident hc hword => exact .ident hc hword hafter
  | int hne hdigits => exact .int hne hdigits hafter
  | fixed h =>
    rcases mem_tables_of_spelling? h with ⟨c, rfl, hc⟩ | htext
    · exact .delimiter hc
    · refine .operator htext fun c hc => ?_
      have hno := hafter c hc
      rw [goesOn_operator htext, Bool.eq_false_iff, Ne, isOperatorPart_iff] at hno
      by_cases hm : isMark c = true
      · exact Or.inr (Or.inl (by simpa [hm] using hno))
      · exact Or.inl (by simpa using hm)
  | newline hd => exact .newline hd

/-- Behind a token comes no character that the token goes on with. Only a slash can be one, where it
opens a comment. -/
theorem Lexeme.goesOn_eq_false (h : Lexeme d (.token kind text) after) (hslash : after.head? ≠ some '/') :
    ∀ c ∈ after.head?, kind.goesOn c = false := by
  intro c hc
  cases h with
  | int _ _ hafter => exact hafter c hc
  | ident _ _ hafter => exact hafter c hc
  | delimiter hdel => exact goesOn_delimiter hdel c
  | newline _ => rfl
  | operator htext hafter =>
    rw [goesOn_operator htext, Bool.eq_false_iff, Ne, isOperatorPart_iff]
    rintro ⟨hm, hdel⟩
    rcases hafter c hc with hno | hno | hopen
    · exact Bool.false_ne_true (hno.symm.trans hm)
    · exact hdel hno
    · obtain ⟨tail, rfl⟩ := List.head?_eq_some_iff.mp hc
      rw [Piece.eq_slash_of_opensComment hopen] at hslash
      exact hslash rfl

/-! ## Reading words again -/

def Piece.word? : Piece → Option (TokenKind × String)
  | .token kind text => some (kind, String.ofList text)
  | _ => none

/-- The text is made of lexemes, and the tokens among them are the given ones. -/
def Reads (d : Dialect) (text : List Char) (words : List (TokenKind × String)) : Prop :=
  ∃ ps, Cuts d text ps [] ∧ ps.filterMap Piece.word? = words

theorem map_tokensAt (pos : Position) (ps : List Piece) :
    (tokensAt pos ps).map (fun t => (t.kind, t.literal)) = ps.filterMap Piece.word? := by
  induction ps generalizing pos with
  | nil => rfl
  | cons p ps ih => cases p <;> simp [tokensAt, List.filterMap_cons, Piece.word?, ih]

theorem lex_iff_reads {source : String} {words : List (TokenKind × String)} :
    (∃ ts, lex d source = .ok ts ∧ ts.map (fun t => (t.kind, t.literal)) = words) ↔
      Reads d source.toList words := by
  have hlex : ∀ ts, lex d source = .ok ts ↔
      ∃ ps, Cuts d source.toList ps [] ∧ tokensAt Position.start ps = ts :=
    fun ts => TokenStream.collect_eq_ok_iff (s := .ofText d source) rfl
  constructor
  · rintro ⟨ts, hts, rfl⟩
    obtain ⟨ps, hps, rfl⟩ := (hlex ts).mp hts
    exact ⟨ps, hps, (map_tokensAt _ _).symm⟩
  · rintro ⟨ps, hps, rfl⟩
    exact ⟨_, (hlex _).mpr ⟨ps, hps, rfl⟩, map_tokensAt _ _⟩

variable {words : List (TokenKind × String)}

/-- A lexeme in front of a text adds its token to those of the text. -/
theorem reads_lexeme_iff {p : Piece} (hp : Lexeme d p after) (words : List (TokenKind × String)) :
    Reads d (p.text ++ after) words ↔ ∃ rest, words = p.word?.toList ++ rest ∧ Reads d after rest := by
  have hcons : ∀ ps : List Piece,
      (p :: ps).filterMap Piece.word? = p.word?.toList ++ ps.filterMap Piece.word? := by
    intro ps
    rw [List.filterMap_cons]
    cases p.word? <;> rfl
  constructor
  · rintro ⟨ps, hps, rfl⟩
    have hone : Cuts d (p.text ++ after) [p] after := .piece hp (.done after)
    rcases hone.comparable hps with ⟨qs, rfl, hqs⟩ | ⟨qs, hpq, hqs⟩
    · exact ⟨_, hcons qs, qs, hqs, rfl⟩
    · obtain ⟨rfl, rfl⟩ := hqs.eq_nil
      rw [List.append_nil] at hpq
      exact ⟨_, hpq ▸ hcons [], [], .done [], rfl⟩
  · rintro ⟨_, rfl, ps, hps, rfl⟩
    exact ⟨p :: ps, .piece hp hps, hcons ps⟩

theorem reads_token_iff (hp : Lexeme d (.token kind text) after) :
    Reads d (text ++ after) ((kind, String.ofList text) :: words) ↔ Reads d after words := by
  have h := reads_lexeme_iff hp ((kind, String.ofList text) :: words)
  simpa [Piece.text, Piece.word?] using h

theorem reads_space_iff (hc : IsSpace d c) : Reads d (c :: after) words ↔ Reads d after words := by
  have hp : Lexeme d (.blank c) after := .blank hc
  have h := reads_lexeme_iff hp words
  simpa [Piece.text, Piece.word?] using h

/-- What is read as a word of the text is a lexeme of the text. -/
theorem Reads.lexeme (hbegins : BeginsWith d kind text c)
    (h : Reads d (text ++ after) ((kind, String.ofList text) :: words)) :
    Lexeme d (.token kind text) after := by
  obtain ⟨ps, hps, hwords⟩ := h
  obtain ⟨tail, rfl⟩ := hbegins.text_eq
  cases ps with
  | nil => simp at hwords
  | cons p ps =>
    obtain ⟨after', htext, hp, -⟩ := hps.of_cons
    have hsound := hp.isSound
    cases p with
    | blank x =>
      obtain rfl : c = x := (List.cons.inj htext).1
      cases hp
      exact absurd ‹_› hbegins.not_space
    | comment style body =>
      have hslash : c = '/' := by cases style <;> exact (List.cons.inj htext).1
      exact absurd hslash hbegins.not_slash
    | token kind' text' =>
      obtain ⟨⟨rfl, heq⟩, -⟩ : (kind' = kind ∧ String.ofList text' = String.ofList (c :: tail)) ∧ _ := by
        simpa [Piece.word?, List.filterMap_cons] using hwords
      obtain rfl : text' = c :: tail := String.ofList_injective heq
      obtain rfl : after = after' := List.append_cancel_left htext
      exact hp
    | slash => contradiction
    | unclosed body => contradiction
    | marks run => contradiction
    | stray x => contradiction

/-- A word with a space behind it is read as this word. -/
theorem reads_spaced_iff (w : Word d) :
    Reads d (w.text ++ ' ' :: after) (w.seen :: words) ↔ Reads d after words := by
  have hlexeme : Lexeme d (.token w.kind w.text) (' ' :: after) :=
    lexeme_of_spells w.spelled (by simpa using goesOn_space w.kind)
  have hspace : IsSpace d ' ' := Or.inl rfl
  exact (reads_token_iff hlexeme).trans (reads_space_iff hspace)

/-- A word with another one right behind it is read as this word if the two do not run together. -/
theorem reads_joined_iff (w v : Word d) :
    Reads d (w.text ++ (v.text ++ after)) (w.seen :: words) ↔
      ¬ Fuses w v ∧ Reads d (v.text ++ after) words := by
  obtain ⟨c, hc⟩ := v.spelled.exists_beginsWith
  obtain ⟨tail, htail⟩ := hc.text_eq
  have hhead : (v.text ++ after).head? = some c := by rw [htail]; rfl
  have hlexeme : Lexeme d (.token w.kind w.text) (v.text ++ after) ↔ ¬ Fuses w v := by
    rw [fuses_iff hc, Bool.not_eq_true]
    constructor
    · intro h
      exact h.goesOn_eq_false (by simpa [hhead] using hc.not_slash) c hhead
    · intro h
      refine lexeme_of_spells w.spelled fun x hx => ?_
      rwa [← Option.some.inj (hhead.symm.trans hx)]
  constructor
  · intro h
    obtain ⟨x, hx⟩ := w.spelled.exists_beginsWith
    have hw := h.lexeme hx
    exact ⟨hlexeme.mp hw, (reads_token_iff hw).mp h⟩
  · rintro ⟨hfuses, h⟩
    exact (reads_token_iff (hlexeme.mpr hfuses)).mpr h

theorem exists_written_cons (x : Word d × Bool) (xs : List (Word d × Bool)) :
    ∃ rest, written (x :: xs) = x.1.text ++ rest := by
  cases xs with
  | nil => exact ⟨[], (List.append_nil _).symm⟩
  | cons y ys => exact ⟨_, List.append_assoc _ _ _⟩

theorem reads_written_iff (words : List (Word d × Bool)) :
    Reads d (written words) (words.map fun x => x.1.seen) ↔
      words.IsChain fun x y => Fuses x.1 y.1 → x.2 = true := by
  induction words with
  | nil => exact iff_of_true ⟨[], .done [], rfl⟩ .nil
  | cons x xs ih =>
    obtain ⟨w, gap⟩ := x
    cases xs with
    | nil =>
      have hlexeme : Lexeme d (.token w.kind w.text) [] := lexeme_of_spells w.spelled (by simp)
      have h := (reads_token_iff hlexeme).mpr ⟨[], .done [], rfl⟩
      rw [List.append_nil] at h
      exact iff_of_true h (.singleton _)
    | cons y ys =>
      rw [List.isChain_cons_cons, ← ih, List.map_cons, written]
      cases gap with
      | true =>
        rw [if_pos rfl, List.append_assoc, List.singleton_append, reads_spaced_iff]
        simp
      | false =>
        obtain ⟨rest, hrest⟩ := exists_written_cons y ys
        rw [if_neg Bool.false_ne_true, List.append_nil, hrest, reads_joined_iff]
        simp

/-- **Spaces between words.** Words are written with a space or nothing between each two. Reading the
text finds the same kinds and texts again exactly if a space separates all neighbours that run
together. -/
theorem lex_written_iff (d : Dialect) (words : List (Word d × Bool)) :
    (∃ ts, lex d (String.ofList (written words)) = .ok ts ∧
      ts.map (fun t => (t.kind, t.literal)) = words.map fun x => (x.1.kind, String.ofList x.1.text)) ↔
    words.IsChain fun x y => Fuses x.1 y.1 → x.2 = true := by
  rw [lex_iff_reads, String.toList_ofList]
  exact reads_written_iff words

-- An underscore is a mark before it is a letter: behind a dot, the run of marks goes on with it.
example :
    let dot : Word ⟨false⟩ := ⟨.period, ['.'], .fixed rfl⟩
    let word : Word ⟨false⟩ := ⟨.ident, ['_', 'a'], .ident rfl (List.forall_mem_singleton.mpr rfl)⟩
    Fuses dot word ∧ ¬ Fuses word dot ∧
      Piece.cut ⟨false⟩ (written [(dot, false), (word, false)]) = some (.marks ['.', '_']) ∧
      Piece.cut ⟨false⟩ (written [(dot, true), (word, false)]) = some (.token dot.kind dot.text) ∧
      Piece.cut ⟨false⟩ (written [(word, false), (dot, false)]) = some (.token word.kind word.text) := by
  decide

end BoardLang
