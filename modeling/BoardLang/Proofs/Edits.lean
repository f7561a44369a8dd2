import BoardLang.Proofs.Courses

/-!
# Edits and the lexemes before them

An edit changes nothing that has ended two characters before it. Two texts that agree up to `n` may have
different tokens, comments or flaws there, but those that end at `n - 2` or earlier are the same in both
(`edits_keep_earlier_lexemes`).

One lexeme looks at most two characters ahead, so it is a lexeme of both texts, and what comes behind it
in the two texts agrees up to `n` as well (`Lexeme.before_edit`). Along two rows that go on to their
endings this is an induction (`Cuts.earlier_eq`).
-/

namespace BoardLang

variable {d : Dialect} {p : Piece} {ps qs : List Piece} {text text' after rest rest' : List Char} {n : Nat}
  {pos pos' last last' : Position} {e e' : ScanError}

/-! ## The row before an edit -/

/-- The pieces of a row that end at least two characters before `n`. -/
def earlier : Nat → List Piece → List Piece
  | _, [] => []
  | n, p :: ps => if p.text.length + 2 ≤ n then p :: earlier (n - p.text.length) ps else []

/-- A lexeme that ends two characters before the first change is a lexeme of the changed text. -/
theorem Lexeme.before_edit (hp : Lexeme d p after) (hn : p.text.length + 2 ≤ n)
    (h : (p.text ++ after).take n = text'.take n) :
    ∃ after', text' = p.text ++ after' ∧ Lexeme d p after' ∧
      after.take (n - p.text.length) = after'.take (n - p.text.length) := by
  have htake : ∀ tail : List Char, (p.text ++ tail).take n = p.text ++ tail.take (n - p.text.length) := by
    intro tail
    rw [List.take_append, List.take_of_length_le (by omega)]
  obtain ⟨after', rfl⟩ : p.text <+: text' := by
    apply List.IsPrefix.trans _ (List.take_prefix n text')
    rw [← h, htake]
    exact List.prefix_append _ _
  rw [htake, htake, List.append_cancel_left_eq] at h
  refine ⟨after', rfl, hp.in_front_of (endsToo_of_take_two ?_), h⟩
  have htwo := congrArg (List.take 2) h
  rwa [List.take_take, List.take_take, Nat.min_eq_left (by omega)] at htwo

/-- A row that goes on to the ending begins with the lexeme that the text begins with. -/
theorem Cuts.begins_with (h : Cuts d (p.text ++ after) ps rest) (hend : Ending d rest pos e last)
    (hp : Lexeme d p after) :
    ∃ qs, ps = p :: qs ∧ Cuts d after qs rest := by
  have hcut := Piece.cut_of_lexeme hp
  cases ps with
  | nil =>
    rw [h.text_eq] at hcut
    have hsound := hend.isSound_of_cut hcut
    rw [hp.isSound] at hsound
    contradiction
  | cons q qs =>
    obtain ⟨after', htext, hq, hqs⟩ := h.of_cons
    rw [htext, Piece.cut_of_lexeme hq] at hcut
    obtain rfl : q = p := Option.some.inj hcut
    obtain rfl : after = after' := List.append_cancel_left htext
    exact ⟨qs, rfl, hqs⟩

/-- A lexeme that ends early enough comes first in both rows, and the rows go on with texts that agree as
far as before. -/
theorem Cuts.begins_before_edit (h : Cuts d text (p :: ps) rest) (hn : p.text.length + 2 ≤ n)
    (htake : text.take n = text'.take n) (h' : Cuts d text' qs rest')
    (hend' : Ending d rest' pos' e' last') :
    ∃ after after' qs', qs = p :: qs' ∧ Cuts d after ps rest ∧ Cuts d after' qs' rest' ∧
      after.take (n - p.text.length) = after'.take (n - p.text.length) := by
  obtain ⟨after, rfl, hp, hps⟩ := h.of_cons
  obtain ⟨after', rfl, hp', hafter⟩ := hp.before_edit hn htake
  obtain ⟨qs', rfl, hqs'⟩ := h'.begins_with hend' hp'
  exact ⟨after, after', qs', rfl, hps, hqs', hafter⟩

/-- Two rows that go on to their endings, over texts that agree up to `n`, are the same before `n`. -/
theorem Cuts.earlier_eq (h : Cuts d text ps rest) (hend : Ending d rest pos e last)
    (h' : Cuts d text' qs rest') (hend' : Ending d rest' pos' e' last')
    (htake : text.take n = text'.take n) : earlier n ps = earlier n qs := by
  induction ps generalizing n text text' qs with
  | nil =>
    cases qs with
    | nil => rfl
    | cons q qs =>
      by_cases hq : q.text.length + 2 ≤ n
      · obtain ⟨_, _, _, hnil, -⟩ := h'.begins_before_edit hq htake.symm h hend
        contradiction
      · simp [earlier, hq]
  | cons p ps ih =>
    by_cases hp : p.text.length + 2 ≤ n
    · obtain ⟨after, after', qs', rfl, hps, hqs', hafter⟩ := h.begins_before_edit hp htake h' hend'
      simp [earlier, hp, ih hps hqs' hafter]
    · cases qs with
      | nil => simp [earlier, hp]
      | cons q qs =>
        by_cases hq : q.text.length + 2 ≤ n
        · -- The lexeme `q` would come first in the other row too, and `p` ends too late for that.
          obtain ⟨_, _, _, hcons, -⟩ := h'.begins_before_edit hq htake.symm h hend
          rw [(List.cons.inj hcons).1] at hp
          contradiction
        · simp [earlier, hp, hq]

/-! ## What is found before an edit -/

section Found

variable {α : Type} {find : Piece → Position → Option α} {span : α → Span}
  (hspan : ∀ p pos x, find p pos = some x → span x = Span.covering pos p.text)
include hspan

theorem offset_le_stop_of_mem_foundAt {x : α} (hx : x ∈ foundAt find pos ps) :
    pos.offset ≤ (span x).stop.offset := by
  induction ps generalizing pos with
  | nil => simp [foundAt] at hx
  | cons p ps ih =>
    simp only [foundAt, List.mem_append, Option.mem_toList] at hx
    rcases hx with hx | hx
    · simp [hspan p pos x hx]
    · have hle := ih hx
      simp only [Position.offset_advance] at hle
      omega

/-- What ends early enough is what is found in the pieces that do. -/
theorem filter_foundAt (pos : Position) (n : Nat) (ps : List Piece) :
    (foundAt find pos ps).filter (fun x => (span x).stop.offset + 2 ≤ pos.offset + n) =
      foundAt find pos (earlier n ps) := by
  induction ps generalizing pos n with
  | nil => rfl
  | cons p ps ih =>
    have hhead : ∀ x ∈ (find p pos).toList, (span x).stop.offset = pos.offset + p.text.length := by
      intro x hx
      simp [hspan p pos x (by simpa using hx)]
    by_cases hp : p.text.length + 2 ≤ n
    · have htail := ih (pos.advance p.text) (n - p.text.length)
      have hsum : (pos.advance p.text).offset + (n - p.text.length) = pos.offset + n := by
        rw [Position.offset_advance]
        omega
      rw [hsum] at htail
      rw [earlier, if_pos hp, foundAt, foundAt, List.filter_append, htail, List.filter_eq_self.mpr]
      intro x hx
      have := hhead x hx
      simp only [decide_eq_true_eq]
      omega
    · rw [earlier, if_neg hp, foundAt, foundAt, List.filter_eq_nil_iff]
      intro x hx
      have hle : pos.offset + p.text.length ≤ (span x).stop.offset := by
        rcases List.mem_append.mp hx with hx | hx
        · exact Nat.le_of_eq (hhead x hx).symm
        · simpa using offset_le_stop_of_mem_foundAt hspan hx
      simp only [decide_eq_true_eq]
      omega

end Found

theorem filter_tokensAt (n : Nat) (ps : List Piece) :
    (tokensAt Position.start ps).filter (fun t => t.span.stop.offset + 2 ≤ n) =
      tokensAt Position.start (earlier n ps) := by
  have h := filter_foundAt (fun _ _ _ => Piece.span_of_token?) Position.start n ps
  simpa only [foundAt_token?, Position.start, Nat.zero_add] using h

theorem filter_commentsAt (n : Nat) (ps : List Piece) :
    (commentsAt Position.start ps).filter (fun c => c.span.stop.offset + 2 ≤ n) =
      commentsAt Position.start (earlier n ps) := by
  have h := filter_foundAt (fun _ _ _ => Piece.span_of_comment?) Position.start n ps
  simpa only [foundAt_comment?, Position.start, Nat.zero_add] using h

/-! ## Two runs -/

/-- **Edits.** Over two texts that agree on their first `n` characters, the runs give the same tokens and
keep the same comments, as far as these end two characters before `n`. The texts need not have `n`
characters: if one of them is shorter, they are the same. -/
theorem edits_keep_earlier_lexemes (d : Dialect) (source source' : String) (n : Nat)
    (h : source.toList.take n = source'.toList.take n) :
    let run := (TokenStream.ofText d source).run
    let run' := (TokenStream.ofText d source').run
    run.tokens.filter (fun t => t.span.stop.offset + 2 ≤ n) =
        run'.tokens.filter (fun t => t.span.stop.offset + 2 ≤ n) ∧
      run.final.comments.filter (fun c => c.span.stop.offset + 2 ≤ n) =
        run'.final.comments.filter (fun c => c.span.stop.offset + 2 ≤ n) := by
  intro run run'
  obtain ⟨ps, rest, e, last, hcourse⟩ := exists_course d source.toList
  obtain ⟨qs, rest', e', last', hcourse'⟩ := exists_course d source'.toList
  have hrun : run.Shows ps e last := hcourse.run
  have hrun' : run'.Shows qs e' last' := hcourse'.run
  have hearlier : earlier n ps = earlier n qs :=
    hcourse.cuts.earlier_eq hcourse.ending hcourse'.cuts hcourse'.ending h
  constructor
  · rw [hrun.tokens, hrun'.tokens, filter_tokensAt, filter_tokensAt, hearlier]
  · rw [hrun.comments, hrun'.comments, filter_commentsAt, filter_commentsAt, hearlier]

/-- Two characters are needed: the dot stands one character before the change, and is a token of only one
of the texts. -/
theorem edits_keep_word_and_comment :
    (TokenStream.ofText {} "a/**/./x").run.tokens.filter (fun t => t.span.stop.offset + 2 ≤ 7) =
      [⟨.ident, "a", ⟨⟨0, 0, 0⟩, ⟨1, 0, 1⟩⟩⟩] ∧
    (TokenStream.ofText {} "a/**/./x").run.final.comments.filter (fun c => c.span.stop.offset + 2 ≤ 7) =
      [⟨.block, "", ⟨⟨1, 0, 1⟩, ⟨5, 0, 5⟩⟩⟩] ∧
    (TokenStream.ofText {} "a/**/.//").run.tokens ≠ (TokenStream.ofText {} "a/**/./x").run.tokens := by
  obtain ⟨htokens, hcomments⟩ := edits_keep_earlier_lexemes {} "a/**/.//" "a/**/./x" 7 (by decide +kernel)
  refine ⟨?_, ?_, by decide +kernel⟩
  · rw [← htokens]
    decide +kernel
  · rw [← hcomments]
    decide +kernel

end BoardLang
