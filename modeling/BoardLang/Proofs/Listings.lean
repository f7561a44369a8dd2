import BoardLang.Proofs.Diagnostics
import BoardLang.Proofs.Quotations
import Mathlib.Data.List.Forall2

/-!
# Listings are faithful

A listing has one line for each token, and nothing in a token can break its line: not the text of a name, which
may hold characters that do not show, and not the end of a statement, whose text is a newline. And a listing tells
the tokens: two texts with one listing have the same tokens in the same places, up to the offsets, which are not
listed (`listings_are_faithful`).

A row is cut at its colons, its dash and its first two blanks. What stands in between holds none of these, so the
row can be cut in one way only (`row_eq_iff`); behind the blanks is a quotation, which tells its text.
-/

namespace BoardLang

/-! ## Rows -/

/-- The line of a token, without the newline at its end. -/
def Token.row (t : Token) : String := t.span.describe ++ " " ++ t.kind.name ++ " " ++ Text.quoted t.literal

/-- Both tokens are of one kind and have the same text, lines and columns. -/
structure Token.ListedAlike (t u : Token) : Prop where
  kind : t.kind = u.kind
  literal : t.literal = u.literal
  start_line : t.span.start.line = u.span.start.line
  start_column : t.span.start.column = u.span.start.column
  stop_line : t.span.stop.line = u.span.stop.line
  stop_column : t.span.stop.column = u.span.stop.column

/-- The text lists the tokens, one a line and in order. -/
structure Lists (text : String) (tokens : List Token) : Prop where
  text_eq : text = String.join (tokens.map fun t => t.row ++ "\n")
  plain : ∀ t ∈ tokens, '\n' ∉ t.row.toList
  /-- Behind the last newline there is nothing. -/
  lines : text.toList.splitOn '\n' = tokens.map (fun t => t.row.toList) ++ [[]]

namespace TokenKind

theorem name_inj {a b : TokenKind} (h : a.name = b.name) : a = b := by
  have key : ∀ a ∈ all, ∀ b ∈ all, a.name = b.name → a = b := by decide +kernel
  exact key a (mem_all a) b (mem_all b) h

theorem plain_name (k : TokenKind) : '\n' ∉ k.name.toList ∧ ' ' ∉ k.name.toList := by
  have key : ∀ k ∈ all, '\n' ∉ k.name.toList ∧ ' ' ∉ k.name.toList := by decide +kernel
  exact key k (mem_all k)

end TokenKind

/-- A number in front of a character that is no digit is read off in one way. -/
theorem Text.toString_append_inj {m n : Nat} {c : Char} {x y : List Char} (hc : ∀ d : Nat, d.digitChar ≠ c)
    (h : (toString m).toList ++ c :: x = (toString n).toList ++ c :: y) : m = n ∧ x = y := by
  simp only [Nat.toString_eq_ofList_toDigits, String.toList_ofList] at h
  have hnot := not_mem_toDigits (b := 10) (by decide) hc
  obtain ⟨hdigits, rfl⟩ := append_cons_inj (hnot m) (hnot n) h
  exact ⟨toDigits_inj (by decide) (by decide) hdigits, rfl⟩

theorem Position.describe_append_inj {p q : Position} {c : Char} {x y : List Char}
    (hc : ∀ d : Nat, d.digitChar ≠ c) (h : p.describe.toList ++ c :: x = q.describe.toList ++ c :: y) :
    p.line = q.line ∧ p.column = q.column ∧ x = y := by
  have hcolon : ":".toList = [':'] := rfl
  simp only [describe, String.toList_append, hcolon, List.append_assoc, List.cons_append,
    List.nil_append] at h
  obtain ⟨hline, htail⟩ := Text.toString_append_inj (fun _ => Nat.digitChar_ne _ rfl) h
  obtain ⟨hcolumn, rfl⟩ := Text.toString_append_inj hc htail
  exact ⟨Nat.succ.inj hline, Nat.succ.inj hcolumn, rfl⟩

namespace Token

variable {t u : Token}

theorem plain_row (t : Token) : '\n' ∉ t.row.toList := by
  simp only [row, Span.describe, Position.describe, newline_not_mem_append, and_assoc]
  refine ⟨?_, by decide, ?_, by decide, ?_, by decide, ?_, by decide, ?_, by decide, ?_⟩
  · exact Text.newline_not_mem_toString _
  · exact Text.newline_not_mem_toString _
  · exact Text.newline_not_mem_toString _
  · exact Text.newline_not_mem_toString _
  · exact t.kind.plain_name.1
  · exact Text.newline_not_mem_quotedWith (by decide) _

theorem toList_row (t : Token) :
    t.row.toList = t.span.start.describe.toList ++ '-' :: (t.span.stop.describe.toList ++
      ' ' :: (t.kind.name.toList ++ ' ' :: (Text.quoted t.literal).toList)) := by
  have hdash : "-".toList = ['-'] := rfl
  have hblank : " ".toList = [' '] := rfl
  simp only [row, Span.describe, String.toList_append, hdash, hblank, List.append_assoc, List.cons_append,
    List.nil_append]

/-- A row shows all of a token but its offsets. -/
theorem row_eq_iff : t.row = u.row ↔ t.ListedAlike u := by
  constructor
  · intro h
    have hchars := congrArg String.toList h
    rw [toList_row, toList_row] at hchars
    obtain ⟨hline, hcolumn, hchars⟩ :=
      Position.describe_append_inj (fun _ => Nat.digitChar_ne _ rfl) hchars
    obtain ⟨hline', hcolumn', hchars⟩ :=
      Position.describe_append_inj (fun _ => Nat.digitChar_ne _ rfl) hchars
    obtain ⟨hname, hquoted⟩ := Text.append_cons_inj t.kind.plain_name.2 u.kind.plain_name.2 hchars
    exact ⟨TokenKind.name_inj (String.toList_inj.mp hname), Text.quoted_inj (String.toList_inj.mp hquoted),
      hline, hcolumn, hline', hcolumn'⟩
  · intro h
    simp only [row, Span.describe, Position.describe, h.kind, h.literal, h.start_line, h.start_column,
      h.stop_line, h.stop_column]

end Token

/-! ## Listings -/

theorem listingOf_eq (tokens : List Token) :
    listingOf tokens = String.join (tokens.map fun t => t.row ++ "\n") := rfl

theorem splitOn_listingOf (tokens : List Token) :
    (listingOf tokens).toList.splitOn '\n' = tokens.map (fun t => t.row.toList) ++ [[]] := by
  induction tokens with
  | nil => rfl
  | cons t tokens ih =>
    have hchars : (listingOf (t :: tokens)).toList = t.row.toList ++ '\n' :: (listingOf tokens).toList := by
      rw [listingOf_eq, List.map_cons, String.join_cons, ← listingOf_eq]
      simp
    rw [hchars, Text.splitOn_append_newline, List.splitOn_eq_singleton t.plain_row, ih]
    rfl

theorem lists_listingOf (tokens : List Token) : Lists (listingOf tokens) tokens :=
  ⟨listingOf_eq tokens, fun t _ => t.plain_row, splitOn_listingOf tokens⟩

/-- The rows of a listing are found between its newlines, so the listing tells them. -/
theorem listingOf_eq_iff_rows {ts us : List Token} :
    listingOf ts = listingOf us ↔ ts.map Token.row = us.map Token.row := by
  constructor
  · intro h
    have hlines : ts.map (fun t => t.row.toList) ++ [[]] = us.map (fun t => t.row.toList) ++ [[]] := by
      rw [← splitOn_listingOf, ← splitOn_listingOf, h]
    have hstrings := congrArg (List.map String.ofList) (List.append_cancel_right hlines)
    simpa only [List.map_map, Function.comp_def, String.ofList_toList] using hstrings
  · intro h
    have hlines := congrArg (List.map (· ++ "\n")) h
    simp only [List.map_map, Function.comp_def] at hlines
    rw [listingOf_eq, listingOf_eq, hlines]

theorem listingOf_eq_iff {ts us : List Token} :
    listingOf ts = listingOf us ↔ List.Forall₂ Token.ListedAlike ts us := by
  rw [listingOf_eq_iff_rows, ← List.forall₂_eq_eq_eq, List.forall₂_map_left_iff,
    List.forall₂_map_right_iff]
  simp only [Token.row_eq_iff]

/-- **Listings are faithful.** A text that has tokens has a listing, with one line for each token and no newline
inside of it; a text with an error has no listing, but the error. Two texts, in whatever dialects, have one listing
exactly if their tokens agree one by one in all that is listed: kind, text, lines and columns. -/
theorem listings_are_faithful (d : Dialect) (source : String) :
    (∀ ts, lex d source = .ok ts → ∃ text, listing d source = .ok text ∧ Lists text ts) ∧
    (∀ e, lex d source = .error e → listing d source = .error (.scan e)) ∧
    ∀ (d' : Dialect) (source' : String) ts us, lex d source = .ok ts → lex d' source' = .ok us →
      (listing d source = listing d' source' ↔ List.Forall₂ Token.ListedAlike ts us) := by
  refine ⟨fun ts hts => ?_, fun e he => ?_, fun d' source' ts us hts hus => ?_⟩
  · refine ⟨listingOf ts, ?_, lists_listingOf ts⟩
    rw [listing, hts]
  · rw [listing, he]
  · rw [listing, listing, hts, hus, Except.ok.injEq]
    exact listingOf_eq_iff

/-- One listing for two texts: the comment is longer in one of them, and the token behind it has another
offset. -/
theorem offsets_are_not_listed :
    lex ⟨true⟩ "a/*\n*/b" =
      .ok [⟨.ident, "a", ⟨⟨0, 0, 0⟩, ⟨1, 0, 1⟩⟩⟩, ⟨.ident, "b", ⟨⟨6, 1, 2⟩, ⟨7, 1, 3⟩⟩⟩] ∧
    lex ⟨false⟩ "a/* \n*/b" =
      .ok [⟨.ident, "a", ⟨⟨0, 0, 0⟩, ⟨1, 0, 1⟩⟩⟩, ⟨.ident, "b", ⟨⟨7, 1, 2⟩, ⟨8, 1, 3⟩⟩⟩] ∧
    listing ⟨true⟩ "a/*\n*/b" = listing ⟨false⟩ "a/* \n*/b" := by
  have hshort : lex ⟨true⟩ "a/*\n*/b" =
      .ok [⟨.ident, "a", ⟨⟨0, 0, 0⟩, ⟨1, 0, 1⟩⟩⟩, ⟨.ident, "b", ⟨⟨6, 1, 2⟩, ⟨7, 1, 3⟩⟩⟩] := by
    rw [lex_eq_run, if_pos (by decide +kernel)]
    exact congrArg Except.ok (by decide +kernel)
  have hlong : lex ⟨false⟩ "a/* \n*/b" =
      .ok [⟨.ident, "a", ⟨⟨0, 0, 0⟩, ⟨1, 0, 1⟩⟩⟩, ⟨.ident, "b", ⟨⟨7, 1, 2⟩, ⟨8, 1, 3⟩⟩⟩] := by
    rw [lex_eq_run, if_pos (by decide +kernel)]
    exact congrArg Except.ok (by decide +kernel)
  obtain ⟨-, -, hsame⟩ := listings_are_faithful ⟨true⟩ "a/*\n*/b"
  refine ⟨hshort, hlong, (hsame ⟨false⟩ _ _ _ hshort hlong).mpr ?_⟩
  exact .cons ⟨rfl, rfl, rfl, rfl, rfl, rfl⟩ (.cons ⟨rfl, rfl, rfl, rfl, rfl, rfl⟩ .nil)

end BoardLang
