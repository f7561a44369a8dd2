import BoardLang.Proofs.Cutting

/-!
# What may stand behind a lexeme

A lexeme ends where it does because of what comes next: a word sees that no letter follows, an operator
that the marks are over. Here is how far it looks. The next character decides, and behind an operator
also whether a comment begins there (`Lexeme.replace_after`); a block comment is closed from within and
looks at nothing (`Lexeme.blockComment_before`).

* `EndsToo rest rest'`: what ends before `rest` also ends before `rest'`. The end of the text, a newline
  and a text with the same first two characters are such (`endsToo_nil`, `endsToo_newline`,
  `endsToo_of_take_two`).
* `Cuts.replace_rest`: a row of lexemes stays one in front of such a text. Only its last lexeme can
  look beyond the row.
-/

namespace BoardLang

open CharClass

variable {d : Dialect} {p q : Piece} {ps qs : List Piece} {text after after' rest rest' : List Char}

/-! ## One lexeme -/

/-- No token that has begun goes on with the character. -/
structure KeepsApart (c : Char) : Prop where
  not_digit : c.isDigit = false
  not_wordPart : isWordPart c = false
  not_mark : isMark c = false

theorem IsSpace.keepsApart {c : Char} (h : IsSpace d c) : KeepsApart c := by
  rcases h with rfl | rfl | rfl | ⟨rfl, -⟩ <;> exact ⟨by decide, by decide, by decide⟩

theorem keepsApart_newline : KeepsApart '\n' := ⟨by decide, by decide, by decide⟩

/-- A lexeme that is no comment stays one in front of a character that keeps tokens apart, and in front
of a text that begins with the same character, if a comment begins there whenever one began before. -/
theorem Lexeme.replace_after (hp : Lexeme d p after) (hcomment : p.isComment = false)
    (hafter' : ∀ c ∈ after'.head?,
      KeepsApart c ∨ c ∈ after.head? ∧ (OpensComment after → OpensComment after')) :
    Lexeme d p after' := by
  cases hp with
  | blank hc => exact .blank hc
  | lineComment _ _ => contradiction
  | blockComment _ => contradiction
  | int hne hdigits hafter =>
    refine .int hne hdigits fun c hc => ?_
    rcases hafter' c hc with hapart | ⟨hc, -⟩
    · exact hapart.not_digit
    · exact hafter c hc
  | ident hc hword hafter =>
    refine .ident hc hword fun x hx => ?_
    rcases hafter' x hx with hapart | ⟨hx, -⟩
    · exact hapart.not_wordPart
    · exact hafter x hx
  | delimiter hc => exact .delimiter hc
  | newline hd => exact .newline hd
  | operator htext hafter =>
    refine .operator htext fun c hc => ?_
    rcases hafter' c hc with hapart | ⟨hc, hopens⟩
    · exact Or.inl hapart.not_mark
    · rcases hafter c hc with hmark | hdelimiter | hopen
      · exact Or.inl hmark
      · exact Or.inr (Or.inl hdelimiter)
      · exact Or.inr (Or.inr (hopens hopen))

/-- A block comment is one in front of any text: another closing mark would have to begin inside it. -/
theorem Lexeme.blockComment_before {body : List Char} (h : Lexeme d (.comment .block body) after)
    (after' : List Char) : Lexeme d (.comment .block body) after' := by
  cases h with
  | blockComment hfirst =>
    refine .blockComment fun u v huv => ?_
    by_cases hle : body.length ≤ u.length
    · exact hle
    · have hprefix : u ++ ['*', '/'] <+: body ++ ['*', '/'] := by
        apply List.prefix_of_prefix_length_le ⟨v, huv.symm⟩ (List.prefix_append _ _)
        simp only [List.length_append, List.length_cons]
        omega
      obtain ⟨w, hw⟩ := hprefix
      exact hfirst u (w ++ after) (by rw [← hw, List.append_assoc])

/-- Where a comment begins, no other lexeme stands. -/
theorem Lexeme.isComment_of_opens (hp : Lexeme d p after) (h : OpensComment (p.text ++ after)) :
    p.isComment = true := by
  have hsound := hp.isSound
  obtain ⟨style, tail, htail⟩ := h
  have hcut : Piece.cut d (style.opening ++ tail) = some p := by
    rw [htail, Piece.cut_of_lexeme hp]
  cases style with
  | line =>
    have hslash : Piece.ofSlash ('/' :: tail) = p := by
      rw [← Piece.ofFirst_slash d]
      exact Option.some.inj hcut
    rw [← hslash]
    rfl
  | block =>
    have hslash : Piece.ofSlash ('*' :: tail) = p := by
      rw [← Piece.ofFirst_slash d]
      exact Option.some.inj hcut
    rw [← hslash] at hsound ⊢
    cases hbody : Piece.blockBody? tail with
    | some body => simp only [Piece.ofSlash, hbody, Piece.isComment]
    | none => simp only [Piece.ofSlash, hbody, Piece.isSound, Bool.false_eq_true] at hsound

/-! ## Texts that end what another text ends -/

/-- Whatever ends before `rest` ends before `rest'` as well. -/
def EndsToo (rest rest' : List Char) : Prop :=
  ∀ c ∈ rest'.head?, c = '\n' ∨ c ∈ rest.head? ∧ (OpensComment rest → OpensComment rest')

theorem endsToo_nil (rest : List Char) : EndsToo rest [] := by simp [EndsToo]

theorem endsToo_newline (rest tail : List Char) : EndsToo rest ('\n' :: tail) := by simp [EndsToo]

/-- Two characters tell whether a comment begins. -/
theorem opensComment_take_two : OpensComment (text.take 2) ↔ OpensComment text := by
  constructor
  · rintro ⟨style, hstyle⟩
    exact ⟨style, hstyle.trans (List.take_prefix 2 text)⟩
  · rintro ⟨style, hstyle⟩
    have hlen : style.opening.length = 2 := by cases style <;> rfl
    exact ⟨style, (List.prefix_take_iff.mpr ⟨hstyle, by omega⟩)⟩

theorem endsToo_of_take_two (h : rest.take 2 = rest'.take 2) : EndsToo rest rest' := by
  intro c hc
  right
  constructor
  · have hhead : rest.head? = rest'.head? := by
      simpa [List.head?_take] using congrArg List.head? h
    rwa [hhead]
  · intro hopens
    rwa [← opensComment_take_two, ← h, opensComment_take_two]

/-- What ends before a lexeme does not see what comes behind that lexeme. -/
theorem Lexeme.endsToo (hq : Lexeme d q after) : EndsToo (q.text ++ after) (q.text ++ after') := by
  obtain ⟨x, tail, hx⟩ := List.exists_cons_of_ne_nil hq.text_ne_nil
  intro c hc
  right
  constructor
  · simpa [hx] using hc
  · intro hopens
    have hcomment := hq.isComment_of_opens hopens
    cases q with
    | comment style body => exact ⟨style, by simp [Piece.text]⟩
    | _ => contradiction

theorem Lexeme.in_front_of (hp : Lexeme d p after) (h : EndsToo after after') : Lexeme d p after' := by
  cases hcomment : p.isComment with
  | false =>
    refine hp.replace_after hcomment fun c hc => ?_
    rcases h c hc with rfl | hsame
    · exact Or.inl keepsApart_newline
    · exact Or.inr hsame
  | true =>
    cases hp with
    | lineComment hbody hafter =>
      refine .lineComment hbody ?_
      cases after' with
      | nil => exact Or.inl rfl
      | cons c tail =>
        right
        rcases h c rfl with rfl | ⟨hc, -⟩
        · rfl
        · rcases hafter with rfl | hafter
          · simp at hc
          · rw [hafter] at hc
            exact hc.symm
    | blockComment hfirst => exact (Lexeme.blockComment hfirst).blockComment_before after'
    | _ => contradiction

/-! ## Rows -/

namespace Cuts

theorem append (h : Cuts d text ps after) (h' : Cuts d after qs rest) : Cuts d text (ps ++ qs) rest := by
  induction h with
  | done _ => exact h'
  | piece hp _ ih => exact .piece hp (ih h')

theorem of_append (h : Cuts d text (ps ++ qs) rest) :
    ∃ after, Cuts d text ps after ∧ Cuts d after qs rest := by
  induction ps generalizing text with
  | nil => exact ⟨text, .done text, h⟩
  | cons p ps ih =>
    obtain ⟨mid, rfl, hp, hps⟩ := h.of_cons
    obtain ⟨after, hfirst, hlast⟩ := ih hps
    exact ⟨after, .piece hp hfirst, hlast⟩

/-- A row of lexemes is one in front of every text that ends what the text behind it ends. -/
theorem replace_rest (h : Cuts d text ps rest) (hrest : EndsToo rest rest') :
    Cuts d (ps.flatMap Piece.text ++ rest') ps rest' := by
  induction h with
  | done _ => exact .done rest'
  | @piece p after rest ps hp hps ih =>
    rw [List.flatMap_cons, List.append_assoc]
    refine .piece (hp.in_front_of ?_) (ih hrest)
    cases hps with
    | done _ => exact hrest
    | @piece q _ _ qs hq _ =>
      rw [List.flatMap_cons, List.append_assoc]
      exact hq.endsToo

end Cuts

end BoardLang
