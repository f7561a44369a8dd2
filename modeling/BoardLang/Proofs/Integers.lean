import BoardLang.Proofs.Lookahead
import Mathlib.Data.List.Induction
import Mathlib.Data.Nat.Digits.Defs

/-!
# Integers are read exactly

A reader with a number in view reads it digit by digit into 64 bits, and anything that goes wrong on the
way is an overflow. This is right for two reasons: a number in view is never empty and holds nothing but
digits, and a number that has become too large stays so. `integers_are_read_exactly` puts the two together:
in every state that a reader can get into, the number that is read is the one that the digits denote in
base ten, and an overflow is a number of more than 64 bits.
-/

namespace BoardLang

/-- The number that the digits denote in base ten. The last one counts ones. -/
def numberOf (digits : List Char) : Nat :=
  Nat.ofDigits 10 (digits.map fun c => c.toNat - '0'.toNat).reverse

/-- What the reader makes of the token `t`, which is a number in view. -/
structure Reader.ReadsExactly (r : Reader) (t : Token) : Prop where
  digits : t.literal.toList ≠ [] ∧ ∀ c ∈ t.literal.toList, c.isDigit = true
  /-- The number is read as what it is exactly if it has 64 bits at most. -/
  fits : (∃ value : UInt64, value.toNat = numberOf t.literal.toList ∧ r.expectInt = .ok ⟨t, value⟩) ↔
    numberOf t.literal.toList < 2 ^ 64
  overflows : 2 ^ 64 ≤ numberOf t.literal.toList →
    r.expectInt = .error (.overflow t.literal t.span.start)
  of_ok : ∀ n, r.expectInt = .ok n → n.token = t ∧ n.value.toNat = numberOf t.literal.toList
  /-- An overflow is the only error, and only for a number that is too large. -/
  of_error : ∀ e, r.expectInt = .error e →
    e = .overflow t.literal t.span.start ∧ 2 ^ 64 ≤ numberOf t.literal.toList
  /-- The number stays in view. -/
  unchanged : (r.call .expectInt).2 = r
  /-- A component has the value of the number that it is made from. -/
  passive : ∀ n, r.expectInt = .ok n → ∀ component,
    r.expectPassive component = .ok (.ofInt component n) ∧
      (PassiveExpr.ofInt component n).component = component ∧
      (PassiveExpr.ofInt component n).value.toNat = numberOf t.literal.toList

/-! ## Digits in a row -/

/-- One more digit behind the others makes the number ten times as large and adds to it. -/
theorem numberOf_concat (digits : List Char) (c : Char) :
    numberOf (digits ++ [c]) = numberOf digits * 10 + Text.Decimal.digit c := by
  simp only [numberOf, List.map_append, List.map_cons, List.map_nil, List.reverse_append,
    List.reverse_cons, List.reverse_nil, List.nil_append, List.cons_append, Nat.ofDigits_cons]
  rw [Nat.add_comm, Nat.mul_comm]
  rfl

/-- Counting from the left and by places is the same. -/
theorem value_eq_numberOf (digits : List Char) : Text.Decimal.value digits = numberOf digits := by
  induction digits using List.reverseRecOn with
  | nil => rfl
  | append_singleton digits c ih =>
    rw [numberOf_concat, ← ih, Text.Decimal.value, List.foldl_append]
    rfl

/-! ## A number in view -/

theorem Reader.readsExactly_of_isLegible {r : Reader} {t : Token} (ht : r.current = some t)
    (hkind : t.kind = .int) (hlegible : t.IsLegible) : r.ReadsExactly t := by
  have hrules : r.Rules := rules_of_isLegible fun u hu => Option.some.inj (ht.symm.trans hu) ▸ hlegible
  have hsort : r.currentKind = some .int := by rw [currentKind, ht, Option.map_some, hkind]
  have hok : ∀ n, r.expectInt = .ok n → n.token = t ∧ n.value.toNat = numberOf t.literal.toList := by
    intro n hn
    obtain ⟨hcurrent, -, hvalue⟩ := (hrules.int_ok n).mp hn
    obtain rfl := Option.some.inj (hcurrent.symm.trans ht)
    exact ⟨rfl, hvalue.trans (value_eq_numberOf _)⟩
  constructor
  case digits => exact hlegible hkind
  case fits =>
    constructor
    · rintro ⟨value, hvalue, -⟩
      rw [← hvalue]
      exact value.toNat_lt
    · intro hlt
      refine ⟨UInt64.ofNatLT _ hlt, rfl, (hrules.int_ok _).mpr ⟨ht, hkind, ?_⟩⟩
      exact (value_eq_numberOf _).symm
  case overflows =>
    intro hle
    rw [← value_eq_numberOf] at hle
    exact (hrules.int_error _).mpr (Or.inr ⟨t, ht, hkind, hle, rfl⟩)
  case of_ok => exact hok
  case of_error =>
    intro e he
    rcases (hrules.int_error e).mp he with ⟨hother, -⟩ | ⟨u, hu, -, hle, rfl⟩
    · exact absurd hsort hother
    · obtain rfl := Option.some.inj (hu.symm.trans ht)
      rw [value_eq_numberOf] at hle
      exact ⟨rfl, hle⟩
  case unchanged => rfl
  case passive =>
    intro n hn component
    refine ⟨?_, rfl, (hok n hn).2⟩
    rw [expectPassive, hn]

/-- **Integers are read exactly.** Whatever calls are made of a stream, and then of a reader that goes on
with it: if a number is in view then, it is read as the number that its digits denote in base ten, or
reported as an overflow if this needs more than 64 bits. -/
theorem integers_are_read_exactly (d : Dialect) (source : String) (calls : List TokenStream.Call)
    (reads : List Reader.Call) (t : Token) :
    let s := (session TokenStream.call (TokenStream.ofText d source) calls).2
    let r := (session Reader.call (Reader.ofStream s) reads).2
    r.current = some t → t.kind = .int → r.ReadsExactly t := by
  intro s r ht hkind
  have htracks : r.Tracks s (0 + Reader.advances reads) := Reader.Tracks.unread.session reads
  exact Reader.readsExactly_of_isLegible ht hkind (htracks.isLegible ht)

/-- The largest number of 64 bits is read, with zeros in front of it. -/
theorem largest_integer_is_read :
    let r := (session Reader.call (Reader.ofText ⟨false⟩ "0018446744073709551615") [.advance]).2
    ∃ n, r.expectInt = .ok n ∧ n.value.toNat = 18446744073709551615 := by
  intro r
  have hscan : (TokenStream.ofText ⟨false⟩ "0018446744073709551615").scan =
      (.ok ⟨.int, "0018446744073709551615", ⟨⟨0, 0, 0⟩, ⟨22, 0, 22⟩⟩⟩, _) :=
    TokenStream.scan_outcome rfl rfl
  have hadvance := Reader.advance_ok (r := Reader.ofText ⟨false⟩ "0018446744073709551615") rfl hscan
  have hcurrent : r.current = some ⟨.int, "0018446744073709551615", ⟨⟨0, 0, 0⟩, ⟨22, 0, 22⟩⟩⟩ := by
    simp only [r, session, Reader.call, hadvance, Reader.current]
  have hexact :=
    integers_are_read_exactly ⟨false⟩ "0018446744073709551615" [] [.advance] _ hcurrent rfl
  have hnumber : numberOf "0018446744073709551615".toList = 18446744073709551615 := by decide +kernel
  obtain ⟨value, hvalue, hread⟩ := hexact.fits.mpr (by rw [hnumber]; decide)
  exact ⟨_, hread, hvalue.trans hnumber⟩

end BoardLang
