import BoardLang.Proofs.Grammar
import Mathlib.Data.List.TakeWhile

/-!
# Cutting follows the grammar

`Piece.cut` looks at the first character and then runs as far as that character's class allows.
This file shows that what it finds is what the grammar says:

* `first` sorts the characters into the classes that a text can begin with, and the lemmas
  from `ofFirst_space` to `ofFirst_stray` give the piece for each class;
* `cut_eq_some_iff`: `cut` finds a piece exactly when the text begins with it as a lexeme or as a
  flaw, so a text begins with one piece at most;
* `Cuts.unique`: a text is made of lexemes in one way at most.
-/

namespace BoardLang

open CharClass

variable {d : Dialect} {c : Char} {p : Piece} {text rest after : List Char}

/-! ## The classes of first characters -/

theorem isBlank_eq_false (h : 0x21 ≤ c.toNat) : d.isBlank c = false := by
  rw [Bool.eq_false_iff, Ne, isBlank_iff]
  intro hs
  have := hs.toNat_lt
  omega

theorem le_toNat_of_isWordStart (h : isWordStart c = true) : 0x41 ≤ c.toNat := by
  refine Nat.le_of_not_lt fun hlt => ?_
  have hc : c ≠ '_' := by
    rintro rfl
    exact absurd hlt (by decide)
  rw [not_isWordStart (Or.inl hlt) hc] at h
  exact Bool.false_ne_true h

theorem isDigit_eq_false (h : isMark c = true ∨ 0x41 ≤ c.toNat) : c.isDigit = false := by
  rw [Bool.eq_false_iff, Ne, isDigit_iff]
  rw [isMark_iff] at h
  omega

/-- Delimiters are marks, but not those that begin a comment or a word. -/
theorem mark_of_mem_delimiters {k : TokenKind} (h : (c, k) ∈ delimiters) :
    isMark c = true ∧ c ≠ '/' ∧ c ≠ '_' := by
  have all : ∀ x ∈ delimiters, isMark x.1 = true ∧ x.1 ≠ '/' ∧ x.1 ≠ '_' := by decide
  exact all _ h

inductive First (d : Dialect) (c : Char) : Prop where
  | space (h : IsSpace d c)
  | digit (h : c.isDigit = true)
  | word (h : isWordStart c = true)
  | slash (h : c = '/')
  | delimiter (k : TokenKind) (h : (c, k) ∈ delimiters)
  | newline (h : c = '\n') (hd : d.newlineEndsStatement = true)
  | mark (hm : isMark c = true) (hs : c ≠ '/') (hu : c ≠ '_') (hd : c ∉ delimiters.map Prod.fst)
  | nothing (h : BeginsNothing d c)

/-- Every character is in one of the classes. -/
theorem first (d : Dialect) (c : Char) : First d c := by
  by_cases hspace : IsSpace d c
  · exact .space hspace
  by_cases hdigit : c.isDigit = true
  · exact .digit hdigit
  by_cases hword : isWordStart c = true
  · exact .word hword
  by_cases hdel : c ∈ delimiters.map Prod.fst
  · obtain ⟨⟨c', k⟩, hk, rfl⟩ := List.mem_map.mp hdel
    exact .delimiter k hk
  by_cases hnl : c = '\n'
  · cases hd : d.newlineEndsStatement with
    | true => exact .newline hnl hd
    | false => exact absurd (Or.inr (Or.inr (Or.inr ⟨hnl, hd⟩))) hspace
  by_cases hmark : isMark c = true
  · by_cases hslash : c = '/'
    · exact .slash hslash
    have hunder : c ≠ '_' := by
      rintro rfl
      exact hword (by decide)
    exact .mark hmark hslash hunder hdel
  · exact .nothing ⟨hspace, by simpa using hdigit, by simpa using hword, ⟨hdel, hnl⟩,
      by simpa using hmark⟩

namespace Piece

theorem ofFirst_space (h : IsSpace d c) (rest : List Char) : ofFirst d c rest = blank c := by
  simp [ofFirst, isBlank_iff.mpr h]

theorem ofFirst_digit (h : c.isDigit = true) (rest : List Char) :
    ofFirst d c rest = token .int (c :: rest.takeWhile Char.isDigit) := by
  have hle := isDigit_iff.mp h
  simp [ofFirst, isBlank_eq_false (d := d) (c := c) (by omega), h]

theorem ofWord_eq (h : isWordStart c = true) (word : List Char) :
    ofWord (c :: word) = token .ident (c :: word) := by
  rw [ofWord, ofSpelling?_word h, Option.getD_none]

theorem ofFirst_word (h : isWordStart c = true) (rest : List Char) :
    ofFirst d c rest = token .ident (c :: rest.takeWhile isWordPart) := by
  have hle := le_toNat_of_isWordStart h
  simp [ofFirst, isBlank_eq_false (d := d) (c := c) (by omega), isDigit_eq_false (Or.inr hle), h,
    ofWord_eq h]

theorem ofFirst_slash (d : Dialect) (rest : List Char) : ofFirst d '/' rest = ofSlash rest := by
  have hblank : d.isBlank '/' = false := isBlank_eq_false (by decide)
  have hword : isWordStart '/' = false := by decide
  simp [ofFirst, hblank, hword]

/-- A mark that is neither a slash nor an underscore is judged by the delimiter table first. -/
theorem ofFirst_mark (hm : isMark c = true) (hs : c ≠ '/') (hu : c ≠ '_') (rest : List Char) :
    ofFirst d c rest =
      (TokenKind.ofDelimiter? c).elim (ofMarks (c :: markRun rest)) fun kind => token kind [c] := by
  have hle : 0x21 ≤ c.toNat := by
    have := isMark_iff.mp hm
    omega
  simp only [ofFirst, isBlank_eq_false hle, isDigit_eq_false (Or.inl hm),
    not_isWordStart (Or.inr hm) hu, hs, hm, Bool.false_eq_true, if_false, if_true]
  cases TokenKind.ofDelimiter? c <;> rfl

theorem ofFirst_delimiter {k : TokenKind} (h : (c, k) ∈ delimiters) (rest : List Char) :
    ofFirst d c rest = token k [c] := by
  obtain ⟨hm, hs, hu⟩ := mark_of_mem_delimiters h
  rw [ofFirst_mark hm hs hu, ofDelimiter?_eq_some_iff.mpr (Or.inl h), Option.elim_some]

theorem ofFirst_newline (h : d.newlineEndsStatement = true) (rest : List Char) :
    ofFirst d '\n' rest = token .statementEnd ['\n'] := by
  have hblank : d.isBlank '\n' = false := by simp [Dialect.isBlank, h]
  have hword : isWordStart '\n' = false := by decide
  have hdel : TokenKind.ofDelimiter? '\n' = some .statementEnd := rfl
  simp [ofFirst, hblank, hword, hdel]

theorem ofFirst_operatorMark (hm : isMark c = true) (hs : c ≠ '/') (hu : c ≠ '_')
    (hd : c ∉ delimiters.map Prod.fst) (rest : List Char) :
    ofFirst d c rest = ofMarks (c :: markRun rest) := by
  rw [ofFirst_mark hm hs hu, ofDelimiter?_eq_none_iff.mpr ⟨hd, ne_newline_of_isMark hm⟩,
    Option.elim_none]

theorem ofFirst_stray (h : BeginsNothing d c) (rest : List Char) : ofFirst d c rest = stray c := by
  have hblank : d.isBlank c = false := by
    rw [Bool.eq_false_iff, Ne, isBlank_iff]
    exact h.not_space
  have hs : c ≠ '/' := by
    rintro rfl
    exact Bool.false_ne_true (h.not_mark.symm.trans (by decide))
  simp only [ofFirst, hblank, h.not_digit, h.not_wordStart, hs,
    ofDelimiter?_eq_none_iff.mpr h.not_delimiter, h.not_mark, Bool.false_eq_true, if_false]

/-! ## Runs of one class -/

/-- A run that `p` holds on, in front of a character that it fails on, is what `takeWhile` takes. -/
theorem takeWhile_run {p : Char → Bool} {run after : List Char} (hrun : ∀ c ∈ run, p c = true)
    (hafter : ∀ c ∈ after.head?, p c = false) : (run ++ after).takeWhile p = run := by
  rw [List.takeWhile_append_of_pos hrun]
  cases after with
  | nil => simp
  | cons c rest =>
    have hc : p c = false := hafter c rfl
    rw [List.takeWhile_cons_of_neg (by simp [hc]), List.append_nil]

/-- Every text begins with a longest run that `p` holds on. -/
theorem exists_after_takeWhile (p : Char → Bool) (text : List Char) :
    ∃ after, text = text.takeWhile p ++ after ∧ ∀ c ∈ after.head?, p c = false := by
  refine ⟨text.dropWhile p, List.takeWhile_append_dropWhile.symm, ?_⟩
  intro c hc
  have h := List.head?_dropWhile_not p text
  rw [Option.mem_def.mp hc] at h
  simpa using h

/-! ## Comments -/

theorem text_lineComment (body : List Char) : (comment .line body).text = '/' :: '/' :: body := by
  simp [Piece.text, CommentStyle.opening, CommentStyle.closing]

theorem text_blockComment (body : List Char) :
    (comment .block body).text = '/' :: '*' :: (body ++ ['*', '/']) := by
  simp [Piece.text, CommentStyle.opening, CommentStyle.closing]

/-- A closing mark anywhere ends the body there or earlier. -/
theorem blockBody?_of_closing (u v : List Char) :
    ∃ body, blockBody? (u ++ '*' :: '/' :: v) = some body ∧ body.length ≤ u.length := by
  induction u with
  | nil => exact ⟨[], rfl, Nat.le_refl _⟩
  | cons c u ih =>
    obtain ⟨body, hbody, hle⟩ := ih
    rw [List.cons_append]
    unfold blockBody?
    split
    · contradiction
    · exact ⟨[], rfl, Nat.zero_le _⟩
    · rename_i heq
      obtain ⟨rfl, rfl⟩ := List.cons.inj heq
      exact ⟨c :: body, by rw [hbody, Option.map_some], Nat.succ_le_succ hle⟩

/-- The body ends before the first closing mark. -/
theorem blockBody?_eq_some_iff {body : List Char} :
    blockBody? text = some body ↔
      ∃ after, text = body ++ ['*', '/'] ++ after ∧
        ∀ u v, text = u ++ ['*', '/'] ++ v → body.length ≤ u.length := by
  constructor
  · intro h
    obtain ⟨after, hafter⟩ := blockBody?_isPrefix h
    refine ⟨after, hafter.symm, ?_⟩
    rintro u v rfl
    obtain ⟨body', hbody', hle⟩ := blockBody?_of_closing u v
    rw [List.append_assoc, List.cons_append, List.cons_append, List.nil_append, hbody'] at h
    rw [← Option.some.inj h]
    exact hle
  · rintro ⟨after, rfl, hfirst⟩
    obtain ⟨body', hbody', hle⟩ := blockBody?_of_closing body after
    have htext : body ++ ['*', '/'] ++ after = body ++ '*' :: '/' :: after := by simp
    rw [htext] at hfirst ⊢
    obtain ⟨after', hafter'⟩ := blockBody?_isPrefix hbody'
    -- The body found is no longer than `body`, and as the end of `body` is the first, no shorter.
    have hge := hfirst body' after' hafter'.symm
    have heq : body' = body := by
      rw [List.append_assoc] at hafter'
      exact (List.append_inj hafter' (by omega)).1
    rw [hbody', heq]

theorem blockBody?_eq_none_iff : blockBody? text = none ↔ ¬ ['*', '/'] <:+: text := by
  constructor
  · rintro h ⟨u, v, rfl⟩
    obtain ⟨body, hbody, -⟩ := blockBody?_of_closing u v
    rw [List.append_assoc, List.cons_append, List.cons_append, List.nil_append, hbody] at h
    exact Option.some_ne_none _ h
  · intro h
    cases hb : blockBody? text with
    | none => rfl
    | some body =>
      obtain ⟨after, hafter⟩ := blockBody?_isPrefix hb
      exact absurd ⟨body, after, hafter⟩ h

/-! ## Runs of marks -/

theorem opensComment_iff : opensComment text = true ↔ OpensComment text := by
  constructor
  · intro h
    unfold opensComment at h
    split at h
    · exact ⟨.line, _, rfl⟩
    · exact ⟨.block, _, rfl⟩
    · contradiction
  · rintro ⟨style, rest, rfl⟩
    cases style <;> rfl

theorem eq_slash_of_opensComment (h : OpensComment (c :: rest)) : c = '/' := by
  obtain ⟨style, tail, htail⟩ := h
  cases style <;> exact (List.cons.inj htail).1.symm

/-- A run of marks goes on with an operator character that begins no comment. -/
theorem markRun_cons_iff {run : List Char} :
    MarkRun (c :: run) after ↔
      (isOperatorPart c = true ∧ ¬ OpensComment (c :: (run ++ after))) ∧ MarkRun run after := by
  constructor
  · intro h
    refine ⟨⟨isOperatorPart_iff.mpr (h.marks c (by simp)), h.unbroken [] (c :: run) rfl (by simp)⟩,
      fun x hx => h.marks x (by simp [hx]), ?_, h.ends⟩
    rintro u v rfl hv
    exact h.unbroken (c :: u) v rfl hv
  · rintro ⟨⟨hc, hopen⟩, hmarks, hunbroken, hends⟩
    refine ⟨?_, ?_, hends⟩
    · intro x hx
      rcases List.mem_cons.mp hx with rfl | hx
      · exact isOperatorPart_iff.mp hc
      · exact hmarks x hx
    · intro u v huv hv
      cases u with
      | nil =>
        obtain rfl : c :: run = v := huv
        exact hopen
      | cons x u => exact hunbroken u v (List.cons.inj huv).2 hv

/-- The condition under which `markRun` takes one more character. -/
theorem goesOn_iff {rest : List Char} :
    (isOperatorPart c && !opensComment (c :: rest)) = true ↔
      isOperatorPart c = true ∧ ¬ OpensComment (c :: rest) := by
  rw [Bool.and_eq_true, Bool.not_eq_true', Bool.eq_false_iff, Ne, opensComment_iff]

theorem endsMarks_cons_iff {rest : List Char} :
    EndsMarks (c :: rest) ↔ ¬ (isOperatorPart c = true ∧ ¬ OpensComment (c :: rest)) := by
  rw [isOperatorPart_iff]
  simp only [EndsMarks, List.head?_cons, Option.mem_def, Option.some.injEq, forall_eq']
  grind

/-- `markRun` takes a longest run. -/
theorem markRun_append {run : List Char} (h : MarkRun run after) : markRun (run ++ after) = run := by
  induction run with
  | nil =>
    cases after with
    | nil => rfl
    | cons c rest =>
      have hends := endsMarks_cons_iff.mp h.ends
      rw [List.nil_append, markRun, if_neg (by rwa [goesOn_iff])]
  | cons c run ih =>
    obtain ⟨hc, hrun⟩ := markRun_cons_iff.mp h
    rw [List.cons_append, markRun, if_pos (goesOn_iff.mpr hc), ih hrun]

theorem markRun_spec (text : List Char) :
    ∃ after, text = markRun text ++ after ∧ MarkRun (markRun text) after := by
  induction text with
  | nil => exact ⟨[], rfl, by simp [markRun], by simp [markRun], by simp [EndsMarks]⟩
  | cons c rest ih =>
    obtain ⟨after, hrest, hrun⟩ := ih
    unfold markRun
    split
    · rename_i hc
      refine ⟨after, by rw [List.cons_append, ← hrest], markRun_cons_iff.mpr ⟨?_, hrun⟩⟩
      rw [← hrest]
      exact goesOn_iff.mp hc
    · rename_i hc
      refine ⟨c :: rest, rfl, by simp, by simp, endsMarks_cons_iff.mpr ?_⟩
      rwa [goesOn_iff] at hc

/-! ## Every lexeme and every flaw is found -/

theorem ofMarks_operator {run : List Char} {k : TokenKind} (h : (run, k) ∈ operators) :
    ofMarks run = token k run := by
  rw [ofMarks, ofSpelling?_eq_some_iff_mem.mpr h]

theorem ofMarks_unknown {run : List Char} (h : run ∉ operators.map Prod.fst) :
    ofMarks run = marks run := by
  have hnone : TokenKind.ofSpelling? (String.ofList run) = none := by
    rw [Option.eq_none_iff_forall_ne_some]
    intro k hk
    exact h (List.mem_map.mpr ⟨_, ofSpelling?_eq_some_iff_mem.mp hk, rfl⟩)
  rw [ofMarks, hnone]

/-- An operator in front of the end of its run is that run. -/
theorem markRun_of_mem_operators {text : List Char} {k : TokenKind} (htext : (text, k) ∈ operators)
    (hafter : EndsMarks after) : MarkRun text after := by
  have all : operators.all (fun x => x.1.all fun c => isOperatorPart c && c != '/') = true := by decide
  have hmarks : ∀ c ∈ text, isOperatorPart c = true ∧ c ≠ '/' := by
    intro c hc
    simpa using List.all_eq_true.mp (List.all_eq_true.mp all _ htext) c hc
  refine ⟨fun c hc => isOperatorPart_iff.mp (hmarks c hc).1, ?_, hafter⟩
  rintro u v rfl hv hopen
  obtain ⟨c, v, rfl⟩ := List.exists_cons_of_ne_nil hv
  exact (hmarks c (by simp)).2 (eq_slash_of_opensComment hopen)

theorem cut_marks {run : List Char} (hc : c ≠ '/' ∧ c ≠ '_') (h : MarkRun (c :: run) after) :
    cut d (c :: run ++ after) = some (ofMarks (c :: run)) := by
  obtain ⟨hm, hd⟩ := h.marks c (by simp)
  rw [List.cons_append, cut, ofFirst_operatorMark hm hc.1 hc.2 hd,
    markRun_append (markRun_cons_iff.mp h).2]

theorem cut_of_lexeme (h : Lexeme d p after) : cut d (p.text ++ after) = some p := by
  cases h with
  | blank hc => exact congrArg some (ofFirst_space hc after)
  | @lineComment body _ hbody hafter =>
    have htake : (body ++ after).takeWhile (· ≠ '\n') = body := by
      apply takeWhile_run
      · intro c hc
        simpa using fun h : c = '\n' => hbody (h ▸ hc)
      · intro c hc
        rcases hafter with rfl | hafter
        · simp at hc
        · simp [Option.some.inj (hc.symm.trans hafter)]
    rw [text_lineComment, List.cons_append, List.cons_append, cut, ofFirst_slash, ofSlash, htake]
  | @blockComment body _ hfirst =>
    have hbody : blockBody? (body ++ ['*', '/'] ++ after) = some body :=
      blockBody?_eq_some_iff.mpr ⟨after, rfl, hfirst⟩
    rw [text_blockComment, List.cons_append, List.cons_append, cut, ofFirst_slash, ofSlash, hbody]
  | @int digits _ hne hdigits hafter =>
    obtain ⟨c, digits, rfl⟩ := List.exists_cons_of_ne_nil hne
    have htake : (digits ++ after).takeWhile Char.isDigit = digits :=
      takeWhile_run (fun x hx => hdigits x (by simp [hx])) hafter
    rw [Piece.text, List.cons_append, cut, ofFirst_digit (hdigits c (by simp)), htake]
  | ident hc hword hafter =>
    rw [Piece.text, List.cons_append, cut, ofFirst_word hc, takeWhile_run hword hafter]
  | delimiter hc => exact congrArg some (ofFirst_delimiter hc after)
  | newline hd => exact congrArg some (ofFirst_newline hd after)
  | @operator text _ kind htext hafter =>
    have hrun := markRun_of_mem_operators htext hafter
    -- Only a run that begins with another mark than these two is looked up.
    have all : ∀ x ∈ operators, ∃ c tail, x.1 = c :: tail ∧ c ≠ '/' ∧ c ≠ '_' := by
      simp [operators]
    obtain ⟨c, tail, rfl, hc⟩ := all _ htext
    rw [Piece.text, cut_marks hc hrun, ofMarks_operator htext]

theorem cut_of_flaw (h : Flaw d p after) : cut d (p.text ++ after) = some p := by
  cases h with
  | slash hafter =>
    rw [Piece.text, List.cons_append, List.nil_append, cut, ofFirst_slash]
    unfold ofSlash
    split
    · exact absurd rfl (hafter '/' rfl).1
    · exact absurd rfl (hafter '*' rfl).2
    · rfl
  | @unclosed body hbody =>
    have htext : (unclosed body).text ++ [] = '/' :: '*' :: body := List.append_nil _
    rw [htext, cut, ofFirst_slash, ofSlash, blockBody?_eq_none_iff.mpr hbody]
  | marks hc hrun hnone => rw [Piece.text, cut_marks hc hrun, ofMarks_unknown hnone]
  | stray hc => exact congrArg some (ofFirst_stray hc _)

/-! ## Nothing else is found -/

theorem lexeme_or_flaw_ofSlash (d : Dialect) (rest : List Char) :
    ∃ after, '/' :: rest = (ofSlash rest).text ++ after ∧
      (Lexeme d (ofSlash rest) after ∨ Flaw d (ofSlash rest) after) := by
  unfold ofSlash
  split
  · rename_i rest
    obtain ⟨after, hrest, hafter⟩ := exists_after_takeWhile (· ≠ '\n') rest
    refine ⟨after, ?_, Or.inl (.lineComment (fun h => ?_) ?_)⟩
    · rw [text_lineComment, List.cons_append, List.cons_append, ← hrest]
    · simpa using List.mem_takeWhile_imp h
    · cases after with
      | nil => exact Or.inl rfl
      | cons c rest => exact Or.inr (congrArg some (by simpa using hafter c rfl))
  · rename_i rest
    split
    · rename_i body hbody
      obtain ⟨after, rfl, hfirst⟩ := blockBody?_eq_some_iff.mp hbody
      refine ⟨after, ?_, Or.inl (.blockComment hfirst)⟩
      rw [text_blockComment, List.cons_append, List.cons_append]
    · rename_i hbody
      exact ⟨[], (List.append_nil _).symm, Or.inr (.unclosed (blockBody?_eq_none_iff.mp hbody))⟩
  · rename_i hslash hstar
    refine ⟨rest, rfl, Or.inr (.slash fun c hc => ?_)⟩
    obtain ⟨tail, rfl⟩ : ∃ tail, rest = c :: tail := by
      cases rest with
      | nil => simp at hc
      | cons x tail => exact ⟨tail, by rw [Option.some.inj hc]⟩
    constructor
    · rintro rfl
      exact hslash tail rfl
    · rintro rfl
      exact hstar tail rfl

theorem lexeme_or_flaw_ofFirst (d : Dialect) (c : Char) (rest : List Char) :
    ∃ after, c :: rest = (ofFirst d c rest).text ++ after ∧
      (Lexeme d (ofFirst d c rest) after ∨ Flaw d (ofFirst d c rest) after) := by
  cases first d c with
  | space h =>
    rw [ofFirst_space h]
    exact ⟨rest, rfl, Or.inl (.blank h)⟩
  | digit h =>
    obtain ⟨after, hrest, hafter⟩ := exists_after_takeWhile Char.isDigit rest
    rw [ofFirst_digit h]
    refine ⟨after, congrArg (c :: ·) hrest, Or.inl (.int (by simp) ?_ hafter)⟩
    intro x hx
    rcases List.mem_cons.mp hx with rfl | hx
    · exact h
    · exact List.mem_takeWhile_imp hx
  | word h =>
    obtain ⟨after, hrest, hafter⟩ := exists_after_takeWhile isWordPart rest
    rw [ofFirst_word h]
    exact ⟨after, congrArg (c :: ·) hrest, Or.inl (.ident h (fun x hx => List.mem_takeWhile_imp hx) hafter)⟩
  | slash h =>
    subst h
    rw [ofFirst_slash]
    exact lexeme_or_flaw_ofSlash d rest
  | delimiter k h =>
    rw [ofFirst_delimiter h]
    exact ⟨rest, rfl, Or.inl (.delimiter h)⟩
  | newline h hd =>
    subst h
    rw [ofFirst_newline hd]
    exact ⟨rest, rfl, Or.inl (.newline hd)⟩
  | mark hm hs hu hd =>
    obtain ⟨after, hrest, hrun⟩ := markRun_spec rest
    rw [ofFirst_operatorMark hm hs hu hd]
    -- No comment begins with this mark, since it is no slash; the run may begin with it.
    have hrun' : MarkRun (c :: markRun rest) after := by
      refine markRun_cons_iff.mpr ⟨⟨isOperatorPart_iff.mpr ⟨hm, hd⟩, ?_⟩, hrun⟩
      intro hopen
      exact hs (eq_slash_of_opensComment hopen)
    refine ⟨after, by rw [text_ofMarks, List.cons_append, ← hrest], ?_⟩
    by_cases hop : c :: markRun rest ∈ operators.map Prod.fst
    · obtain ⟨⟨run, k⟩, hk, heq⟩ := List.mem_map.mp hop
      rw [← heq, ofMarks_operator hk]
      exact Or.inl (.operator hk hrun.ends)
    · rw [ofMarks_unknown hop]
      exact Or.inr (.marks ⟨hs, hu⟩ hrun' hop)
  | nothing h =>
    rw [ofFirst_stray h]
    exact ⟨c :: rest, rfl, Or.inr (.stray h)⟩

/-- **Cutting is the grammar.** The first piece of a text is the lexeme or the flaw that the text
begins with. -/
theorem cut_eq_some_iff :
    cut d text = some p ↔ ∃ after, text = p.text ++ after ∧ (Lexeme d p after ∨ Flaw d p after) := by
  constructor
  · intro h
    cases text with
    | nil => contradiction
    | cons c rest =>
      obtain rfl : ofFirst d c rest = p := Option.some.inj h
      exact lexeme_or_flaw_ofFirst d c rest
  · rintro ⟨after, rfl, h | h⟩
    · exact cut_of_lexeme h
    · exact cut_of_flaw h

end Piece

/-! ## Texts in pieces -/

theorem Lexeme.isSound (h : Lexeme d p after) : p.isSound = true := by
  cases h <;> rfl

theorem Flaw.isSound (h : Flaw d p after) : p.isSound = false := by
  cases h <;> rfl

theorem Lexeme.text_ne_nil (h : Lexeme d p after) : p.text ≠ [] := by
  apply Piece.text_ne_nil_of_cut (Piece.cut_of_lexeme h)
  rintro c rfl
  exact Bool.false_ne_true h.isSound

theorem lexeme_of_cut (h : Piece.cut d text = some p) (hp : p.isSound = true) :
    ∃ after, text = p.text ++ after ∧ Lexeme d p after := by
  obtain ⟨after, htext, hl | hf⟩ := Piece.cut_eq_some_iff.mp h
  · exact ⟨after, htext, hl⟩
  · rw [hf.isSound] at hp
    contradiction

theorem flaw_of_cut (h : Piece.cut d text = some p) (hp : p.isSound = false) :
    ∃ after, text = p.text ++ after ∧ Flaw d p after := by
  obtain ⟨after, htext, hl | hf⟩ := Piece.cut_eq_some_iff.mp h
  · rw [hl.isSound] at hp
    contradiction
  · exact ⟨after, htext, hf⟩

namespace Cuts

variable {ps qs : List Piece} {rest' : List Char}

/-- The pieces are the text before the rest, nothing left out. -/
theorem text_eq (h : Cuts d text ps rest) : text = ps.flatMap Piece.text ++ rest := by
  induction h with
  | done rest => rfl
  | piece hp hps ih => rw [List.flatMap_cons, List.append_assoc, ← ih]

theorem of_cons (h : Cuts d text (p :: ps) rest) :
    ∃ after, text = p.text ++ after ∧ Lexeme d p after ∧ Cuts d after ps rest := by
  cases h with
  | piece hp hps => exact ⟨_, rfl, hp, hps⟩

/-- Of two ways to begin cutting a text, one goes on where the other stops. -/
theorem comparable (h : Cuts d text ps rest) (h' : Cuts d text qs rest') :
    (∃ rs, qs = ps ++ rs ∧ Cuts d rest rs rest') ∨ ∃ rs, ps = qs ++ rs ∧ Cuts d rest' rs rest := by
  induction h generalizing qs with
  | done rest => exact Or.inl ⟨qs, rfl, h'⟩
  | @piece p after rest ps hp hps ih =>
    generalize htext : p.text ++ after = text at h'
    cases h' with
    | done => exact Or.inr ⟨p :: ps, rfl, htext ▸ .piece hp hps⟩
    | @piece q after' _ qs hq hqs =>
      -- Both first pieces are the one that `cut` finds.
      have hcut := Piece.cut_of_lexeme hp
      rw [htext, Piece.cut_of_lexeme hq] at hcut
      obtain rfl : q = p := Option.some.inj hcut
      obtain rfl : after = after' := List.append_cancel_left htext
      rcases ih hqs with ⟨rs, rfl, hrs⟩ | ⟨rs, rfl, hrs⟩
      · exact Or.inl ⟨rs, rfl, hrs⟩
      · exact Or.inr ⟨rs, rfl, hrs⟩

theorem eq_nil (h : Cuts d [] ps rest) : ps = [] ∧ rest = [] := by
  generalize htext : ([] : List Char) = text at h
  cases h with
  | done => exact ⟨rfl, rfl⟩
  | piece hp => exact absurd (List.append_eq_nil_iff.mp htext.symm).1 hp.text_ne_nil

theorem unique (h : Cuts d text ps []) (h' : Cuts d text qs []) : ps = qs := by
  rcases h.comparable h' with ⟨rs, rfl, hrs⟩ | ⟨rs, rfl, hrs⟩
  · rw [hrs.eq_nil.1, List.append_nil]
  · rw [hrs.eq_nil.1, List.append_nil]

/-- Cutting off pieces of some sort comes to an end, before a piece of another sort or at the end of
the text. -/
theorem exists_longest (d : Dialect) (sort : Piece → Bool) (hsort : ∀ p, sort p = true → p.isSound = true)
    (text : List Char) :
    ∃ ps rest, Cuts d text ps rest ∧ (∀ p ∈ ps, sort p = true) ∧
      ∀ p, Piece.cut d rest = some p → sort p = false := by
  induction hn : text.length using Nat.strongRecOn generalizing text with
  | ind n ih =>
    by_cases hp : ∃ p, Piece.cut d text = some p ∧ sort p = true
    · obtain ⟨p, hcut, hp⟩ := hp
      obtain ⟨after, rfl, hl⟩ := lexeme_of_cut hcut (hsort p hp)
      have hlt : after.length < n := by
        have := List.length_pos_iff.mpr hl.text_ne_nil
        rw [← hn, List.length_append]
        omega
      obtain ⟨ps, rest, hps, hall, hstop⟩ := ih _ hlt after rfl
      refine ⟨p :: ps, rest, .piece hl hps, ?_, hstop⟩
      intro q hq
      rcases List.mem_cons.mp hq with rfl | hq
      · exact hp
      · exact hall q hq
    · refine ⟨[], text, .done text, by simp, fun p hcut => ?_⟩
      cases hs : sort p with
      | true => exact absurd ⟨p, hcut, hs⟩ hp
      | false => rfl

end Cuts

end BoardLang
