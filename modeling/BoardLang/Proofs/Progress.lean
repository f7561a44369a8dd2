import BoardLang.Proofs.Tiling
import BoardLang.Proofs.Verdicts

/-!
# Scanning on comes to rest

A stream can be scanned again after an error, and again after the next one. How far each scan gets
depends on what it finds: a token and most flaws are gone over, the end of the text and a character
that begins nothing are not. A stream that stands before one of these two *rests*: every scan gives
the same error there and leaves the stream as it is (`RestsAt.scan_eq`).

So each scan either uses up text or leads to rest (`scan_uses_or_rests`), and a text of `n` characters
can be used up `n` times at most. `ComesToRest` says what follows for any number of scans.

A single scan has an end too, however many comments stand in a row: its loop goes around once for each
character that is left, and once more, at most (`scanWithin_eq`).
-/

namespace BoardLang

/-- Whether a scan with this answer has gone over something that is neither blank nor comment. -/
def usesText : Except ScanError Token → Bool
  | .ok _ => true
  | .error e =>
    match e.cause with
    | .unknownOperator _ | .format | .unclosedComment => true
    | .endOfInput | .invalidChar _ => false

theorem Cursor.offset_add_length_rest (c : Cursor) : c.pos.offset + c.rest.length = c.source.length := by
  rw [offset_pos, source, List.length_append, List.length_reverse]

/-- A character that begins nothing is the only piece that a scan stays in front of. -/
theorem Piece.usesText_outcome {p : Piece} {pos : Position} {o : Except ScanError Token}
    (h : p.outcome? pos = some o) :
    usesText o = true ∨ ∃ c, p = .stray c ∧ o = .error ⟨.invalidChar c, pos⟩ := by
  cases p with
  | blank c => contradiction
  | comment style body => contradiction
  | stray c => exact Or.inr ⟨c, rfl, (Option.some.inj h).symm⟩
  | _ =>
    obtain rfl := Option.some.inj h
    exact Or.inl rfl

namespace TokenStream

variable {s : TokenStream} {e : ScanError} {n : Nat}

/-- The loop of a scan, broken off after so many rounds. A round gives the answer, or it goes over one
blank or one comment. -/
def scanWithin : Nat → TokenStream → Option (Except ScanError Token × TokenStream)
  | 0, _ => none
  | rounds + 1, s =>
    match Piece.cut s.dialect s.cursor.rest with
    | none => some (.error ⟨.endOfInput, s.cursor.pos⟩, s)
    | some p =>
      match p.outcome? s.cursor.pos with
      | some outcome => some (outcome, s.pass p)
      | none => scanWithin rounds (s.pass p)

/-- The stream stands where it cannot get on, and `e` is the reason. -/
inductive RestsAt (s : TokenStream) : ScanError → Prop where
  | atEnd (h : s.cursor.rest = []) : RestsAt s ⟨.endOfInput, s.pos⟩
  | atStray {c : Char} {after : List Char} (h : s.cursor.rest = c :: after)
      (hc : BeginsNothing s.dialect c) : RestsAt s ⟨.invalidChar c, s.pos⟩

/-- What becomes of a stream in `text` that is scanned again and again, whatever the answers are. -/
structure ComesToRest (s : TokenStream) (text : List Char) : Prop where
  forward : ∀ k, (s.afterScans k).pos.offset ≤ (s.afterScans (k + 1)).pos.offset
  /-- A token, an unknown operator, a lone slash and an unclosed comment each bring the stream forward. -/
  onward : ∀ k, usesText (s.afterScans k).scan.1 = true →
    (s.afterScans k).pos.offset < (s.afterScans (k + 1)).pos.offset
  /-- There are no more answers that use up text than characters. -/
  few : ∀ k, (s.answers k).countP usesText ≤ text.length
  atEnd : ∀ k e, (s.afterScans k).scan.1 = .error e → e.cause = .endOfInput →
    (s.afterScans (k + 1)).pos.offset = text.length
  /-- The stream stays in front of an invalid character. -/
  atStray : ∀ k e c, (s.afterScans k).scan.1 = .error e → e.cause = .invalidChar c →
    (s.afterScans (k + 1)).pos = e.pos ∧ text[e.pos.offset]? = some c
  /-- Behind an answer that brings the stream nowhere, all scans give this answer and change nothing. -/
  stays : ∀ k, usesText (s.afterScans k).scan.1 = false →
    ∀ j, k < j → (s.afterScans j).scan = ((s.afterScans k).scan.1, s.afterScans j)
  /-- After as many scans as there are characters the answers are all the same. -/
  constant : ∀ k, text.length ≤ k →
    (s.afterScans k).scan.1 = (s.afterScans text.length).scan.1
  /-- The loop of a scan ends within as many rounds as there are characters, and one more. -/
  terminates : ∀ k, (s.afterScans k).scanWithin (text.length + 1) = some (s.afterScans k).scan

/-! ## One scan -/

theorem scanWithin_eq (h : s.cursor.rest.length < n) : s.scanWithin n = some s.scan := by
  induction n generalizing s with
  | zero => exact absurd h (Nat.not_lt_zero _)
  | succ n ih =>
    rw [scanWithin, scan_eq s]
    cases hcut : Piece.cut s.dialect s.cursor.rest with
    | none => rfl
    | some p =>
      cases ho : p.outcome? s.cursor.pos with
      | some o => simp only [ho]
      | none =>
        have hlt := length_rest_pass_lt (rest_ne_nil_of_cut hcut) (Piece.text_ne_nil_of_outcome?_eq_none ho)
        simp only [ho]
        exact ih (by omega)

theorem RestsAt.scan_eq (h : s.RestsAt e) : s.scan = (.error e, s) := by
  cases h with
  | atEnd h => exact scan_end h
  | @atStray c after h hc =>
    have hcut : Piece.cut s.dialect (c :: after) = some (.stray c) := Piece.cut_of_flaw (.stray hc)
    exact scan_outcome (h ▸ hcut) rfl

/-- **One scan more.** A scan uses up text, or it does not go back and leads to rest. -/
theorem scan_uses_or_rests (s : TokenStream) :
    (usesText s.scan.1 = true ∧ s.pos.offset < s.scan.2.pos.offset) ∨
    (s.pos.offset ≤ s.scan.2.pos.offset ∧ ∃ e, s.scan.1 = .error e ∧ s.scan.2.RestsAt e) := by
  obtain ⟨ps, hps⟩ := s.exists_halt
  have hle : s.pos.offset ≤ (s.passAll ps).pos.offset := by
    rw [pos_passAll hps.cuts, Position.offset_advance]
    exact Nat.le_add_right _ _
  rcases scan_cases hps with ⟨hrest, hscan⟩ | ⟨p, o, hcut, ho, hscan⟩ <;> rw [hscan]
  · exact Or.inr ⟨hle, _, rfl, .atEnd hrest⟩
  · obtain ⟨after, hrest, -⟩ := Piece.cut_eq_some_iff.mp hcut
    have hoffset : ((s.passAll ps).pass p).pos.offset = (s.passAll ps).pos.offset + p.text.length := by
      rw [pos_pass hrest, Position.offset_advance]
    rcases Piece.usesText_outcome ho with huses | ⟨c, rfl, rfl⟩
    · have hp : p.text ≠ [] := by
        apply Piece.text_ne_nil_of_cut hcut
        rintro c rfl
        obtain rfl := Option.some.inj ho
        exact Bool.false_ne_true huses
      have hpos := List.length_pos_iff.mpr hp
      refine Or.inl ⟨huses, ?_⟩
      show _ < ((s.passAll ps).pass p).pos.offset
      omega
    · obtain ⟨after, hrest, hflaw⟩ := flaw_of_cut hcut rfl
      -- The stray character covers nothing, so the stream has stayed in front of it.
      have hstay : (s.passAll ps).pass (.stray c) = s.passAll ps := rfl
      rw [hstay]
      cases hflaw with
      | stray hc => exact Or.inr ⟨hle, _, rfl, .atStray hrest (dialect_passAll s ps ▸ hc)⟩

theorem RestsAt.usesText_eq_false (h : s.RestsAt e) : usesText (.error e) = false := by
  cases h <;> rfl

/-- A scan that uses up no text leads to rest. -/
theorem restsAt_scan (h : usesText s.scan.1 = false) : ∃ e, s.scan.1 = .error e ∧ s.scan.2.RestsAt e := by
  rcases s.scan_uses_or_rests with ⟨huses, -⟩ | ⟨-, hrests⟩
  · rw [h] at huses
    contradiction
  · exact hrests

theorem offset_le_scan (s : TokenStream) : s.pos.offset ≤ s.scan.2.pos.offset := by
  rcases s.scan_uses_or_rests with ⟨-, hlt⟩ | ⟨hle, -⟩
  · exact Nat.le_of_lt hlt
  · exact hle

theorem offset_lt_scan (h : usesText s.scan.1 = true) : s.pos.offset < s.scan.2.pos.offset := by
  rcases s.scan_uses_or_rests with ⟨-, hlt⟩ | ⟨-, e, he, hrests⟩
  · exact hlt
  · rw [he, hrests.usesText_eq_false] at h
    contradiction

/-- A scan that finds an invalid character stays in front of it. -/
theorem scan_stays_at_invalidChar {c : Char} (h : s.scan.1 = .error e) (hc : e.cause = .invalidChar c) :
    s.scan.2.pos = e.pos ∧ s.cursor.source[e.pos.offset]? = some c := by
  obtain ⟨e', he', hrests⟩ := restsAt_scan (s := s) (by rw [h, usesText, hc])
  obtain rfl : e = e' := Except.error.inj (h.symm.trans he')
  have hdrop := s.scan.2.cursor.drop_offset
  rw [source_scan] at hdrop
  cases hrests with
  | atEnd _ => contradiction
  | atStray hrest _ =>
    obtain rfl := ScanError.Cause.invalidChar.inj hc
    refine ⟨rfl, ?_⟩
    rw [hrest] at hdrop
    rw [← List.head?_drop, pos, hdrop, List.head?_cons]

/-! ## Many scans -/

theorem afterScans_add (s : TokenStream) (m n : Nat) :
    s.afterScans (m + n) = (s.afterScans m).afterScans n := by
  induction m generalizing s with
  | zero => rw [Nat.zero_add, afterScans]
  | succ m ih => rw [Nat.succ_add, afterScans, ih, afterScans]

theorem afterScans_succ (s : TokenStream) (n : Nat) : s.afterScans (n + 1) = (s.afterScans n).scan.2 :=
  s.afterScans_add n 1

theorem RestsAt.afterScans_eq (h : s.RestsAt e) (n : Nat) : s.afterScans n = s := by
  induction n with
  | zero => rfl
  | succ n ih => rw [afterScans_succ, ih, h.scan_eq]

/-- Every answer that uses up text is paid for with a character. -/
theorem countP_answers_le (s : TokenStream) (n : Nat) :
    s.pos.offset + (s.answers n).countP usesText ≤ (s.afterScans n).pos.offset := by
  induction n generalizing s with
  | zero => exact Nat.le_refl _
  | succ n ih =>
    have hrest := ih s.scan.2
    rw [answers, List.countP_cons, afterScans]
    split
    · rename_i huses
      have := offset_lt_scan huses
      omega
    · have := s.offset_le_scan
      omega

/-- A stream comes to rest with no more scans than there are characters left, and one more. -/
theorem exists_rest (s : TokenStream) :
    ∃ k ≤ s.cursor.rest.length, usesText (s.afterScans k).scan.1 = false := by
  induction hn : s.cursor.rest.length using Nat.strongRecOn generalizing s with
  | ind n ih =>
    cases huses : usesText s.scan.1 with
    | false => exact ⟨0, Nat.zero_le _, huses⟩
    | true =>
      have hlt : s.scan.2.cursor.rest.length < n := by
        have hoffset := offset_lt_scan huses
        have hbefore := s.cursor.offset_add_length_rest
        have hafter := s.scan.2.cursor.offset_add_length_rest
        rw [source_scan] at hafter
        simp only [pos] at hoffset
        omega
      obtain ⟨k, hk, hrest⟩ := ih _ hlt s.scan.2 rfl
      exact ⟨k + 1, by omega, hrest⟩

/-- Behind an answer that uses up no text, all scans answer the same. -/
theorem scan_afterScans_of_rest {k j : Nat} (h : usesText (s.afterScans k).scan.1 = false) (hj : k < j) :
    (s.afterScans j).scan = ((s.afterScans k).scan.1, s.afterScans j) := by
  obtain ⟨e, he, hrests⟩ := restsAt_scan h
  rw [← afterScans_succ] at hrests
  obtain ⟨i, rfl⟩ := Nat.exists_eq_add_of_lt hj
  have hstay : s.afterScans (k + i + 1) = s.afterScans (k + 1) := by
    rw [Nat.add_right_comm, afterScans_add, hrests.afterScans_eq]
  rw [hstay, he, hrests.scan_eq]

/-- After as many scans as there are characters left, the answers are all the same. -/
theorem answer_constant (s : TokenStream) {j k : Nat} (hj : s.cursor.rest.length ≤ j)
    (hk : s.cursor.rest.length ≤ k) : (s.afterScans k).scan.1 = (s.afterScans j).scan.1 := by
  obtain ⟨i, hi, hrest⟩ := s.exists_rest
  have hsame : ∀ n, i ≤ n → (s.afterScans n).scan.1 = (s.afterScans i).scan.1 := by
    intro n hn
    rcases Nat.eq_or_lt_of_le hn with rfl | hlt
    · rfl
    · rw [scan_afterScans_of_rest hrest hlt]
  rw [hsame k (by omega), hsame j (by omega)]

end TokenStream

/-- **Scanning on comes to rest.** However often a stream is scanned, it only goes forward, and each
answer that uses up text takes it further, so that there are at most as many of them as characters. The
first answer of another kind is the end of the text or an invalid character; the stream stands there
then, and all further scans give this answer and change nothing. -/
theorem scans_come_to_rest (d : Dialect) (source : String) :
    (TokenStream.ofText d source).ComesToRest source.toList := by
  generalize hs : TokenStream.ofText d source = s
  have hsource : ∀ k, (s.afterScans k).cursor.source = source.toList := by
    intro k
    rw [TokenStream.source_afterScans, ← hs]
    rfl
  have hlen : ∀ k, (s.afterScans k).pos.offset + (s.afterScans k).cursor.rest.length =
      source.toList.length := by
    intro k
    rw [← hsource k]
    exact Cursor.offset_add_length_rest _
  constructor
  case forward =>
    intro k
    rw [TokenStream.afterScans_succ]
    exact TokenStream.offset_le_scan _
  case onward =>
    intro k huses
    rw [TokenStream.afterScans_succ]
    exact TokenStream.offset_lt_scan huses
  case few =>
    intro k
    have hcount := s.countP_answers_le k
    have := hlen k
    omega
  case atEnd =>
    intro k e he hend
    have hrest := TokenStream.rest_scan_of_end he hend
    have hend := hlen (k + 1)
    rw [TokenStream.afterScans_succ, hrest] at hend
    rw [TokenStream.afterScans_succ]
    exact hend
  case atStray =>
    intro k e c he hc
    have hstays := TokenStream.scan_stays_at_invalidChar he hc
    rw [hsource k, ← TokenStream.afterScans_succ] at hstays
    exact hstays
  case stays =>
    intro k hrest j hj
    exact TokenStream.scan_afterScans_of_rest hrest hj
  case constant =>
    intro k hk
    have hle : s.pos.offset + s.cursor.rest.length = source.toList.length := hlen 0
    exact s.answer_constant (by omega) (by omega)
  case terminates =>
    intro k
    apply TokenStream.scanWithin_eq
    have := hlen k
    omega

/-- An unknown operator in front of a comment is gone over. The character behind the comment begins
nothing, and no scan gets past it. -/
theorem scans_rest_before_stray :
    ((TokenStream.ofText ⟨false⟩ "#/**/€ a").scan.1 = .error ⟨.unknownOperator "#", ⟨0, 0, 0⟩⟩) ∧
    ∀ j, 1 < j → ((TokenStream.ofText ⟨false⟩ "#/**/€ a").afterScans j).scan =
      (.error ⟨.invalidChar '€', ⟨5, 0, 5⟩⟩, (TokenStream.ofText ⟨false⟩ "#/**/€ a").afterScans j) := by
  have hrest := scans_come_to_rest ⟨false⟩ "#/**/€ a"
  generalize hs : TokenStream.ofText ⟨false⟩ "#/**/€ a" = s at hrest ⊢
  have hmarks : s.scan = (.error ⟨.unknownOperator "#", ⟨0, 0, 0⟩⟩, s.pass (.marks ['#'])) := by
    subst hs
    exact TokenStream.scan_outcome rfl rfl
  have hstray : (s.afterScans 1).scan.1 = .error ⟨.invalidChar '€', ⟨5, 0, 5⟩⟩ := by
    rw [TokenStream.afterScans, hmarks, TokenStream.afterScans]
    subst hs
    have hcut : Piece.cut ⟨false⟩ "€ a".toList = some (.stray '€') := by decide +kernel
    rw [TokenStream.scan_trivia (p := .comment .block []) rfl rfl]
    exact congrArg Prod.fst (TokenStream.scan_outcome hcut rfl)
  refine ⟨by rw [hmarks], fun j hj => ?_⟩
  rw [hrest.stays 1 (by rw [hstray]; rfl) j hj, hstray]

end BoardLang
