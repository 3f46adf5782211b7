import NodeClient.Proofs.Encoding.IntegerText
import NodeClient.Schema.Format

/-!
# Numerals — the texts of integers

`Denotes` says which integer a text is the numeral of, from the places of its digits and with no
bound on their number.  The reader of words is compared with it: it finds the integer whenever there
is one, and tells an integer that is too large for a word from a text that is no numeral.

* `value?_eq_some`: the reader finds what a text denotes.
* `exists_denotes`: the form of numerals.
* `readInteger_eq_ok`, `readInteger_eq_error`: the words, and the errors, that texts are read as.
* `integer_texts_read_exactly`: all of this together.
-/

namespace NodeClient
namespace IntegerText

open Schema

/-! ### Numerals -/

/-- Decimal digits and the natural that they denote: the first one counts as many tens as there are
digits after it. -/
inductive Digits : List Char → Nat → Prop where
  | last {d : Nat} (hd : d < 10) : Digits [d.digitChar] d
  | cons {d n : Nat} {ds : List Char} (hd : d < 10) (rest : Digits ds n) :
      Digits (d.digitChar :: ds) (d * Nat.pow 10 ds.length + n)

/-- A numeral and the integer that it denotes: digits, after one minus or by themselves. -/
inductive Denotes : List Char → Int → Prop where
  | plain {ds : List Char} {n : Nat} (h : Digits ds n) : Denotes ds n
  | minus {ds : List Char} {n : Nat} (h : Digits ds n) : Denotes ('-' :: ds) (-n)

/-! ### Digits -/

theorem exists_digitChar {c : Char} (h : c.isDigit = true) : ∃ d < 10, c = d.digitChar := by
  have hbounds : 48 ≤ c.toNat ∧ c.toNat ≤ 57 := by
    simpa [Char.isDigit, UInt32.le_iff_toNat_le] using h
  have hd : c.toNat - 48 < 10 := by omega
  refine ⟨c.toNat - 48, hd, Char.toNat_inj.mp ?_⟩
  rw [Nat.toNat_digitChar_of_lt_ten hd]
  omega

theorem digitsValue_cons {d : Nat} (hd : d < 10) (ds : List Char) :
    digitsValue (d.digitChar :: ds) = d * Nat.pow 10 ds.length + digitsValue ds := by
  have hfirst : d.digitChar.toNat - '0'.toNat = d := by
    rw [Nat.toNat_digitChar_of_lt_ten hd]
    exact Nat.add_sub_cancel_left 48 d
  rw [digitsValue_eq, digitsValue_eq, Nat.ofDigitChars_cons, hfirst,
    Nat.ofDigitChars_eq_ofDigitChars_zero, Nat.mul_zero, Nat.zero_add, Nat.mul_comm]
  rfl

/-- Digits denote the value that they are read as. -/
theorem digits_iff {ds : List Char} {n : Nat} :
    Digits ds n ↔ ds ≠ [] ∧ (∀ c ∈ ds, c.isDigit = true) ∧ digitsValue ds = n := by
  constructor
  · intro h
    induction h with
    | @last d hd =>
      refine ⟨List.cons_ne_nil _ _, ?_, ?_⟩
      · simpa using hd
      · rw [digitsValue_cons hd]
        exact Nat.mul_one d
    | @cons d n ds hd rest ih =>
      obtain ⟨-, hdigits, rfl⟩ := ih
      refine ⟨List.cons_ne_nil _ _, List.forall_mem_cons.mpr ⟨?_, hdigits⟩,
        digitsValue_cons hd ds⟩
      simpa using hd
  · rintro ⟨hne, hdigits, rfl⟩
    induction ds with
    | nil => exact absurd rfl hne
    | cons c rest ih =>
      obtain ⟨hc, hrest⟩ := List.forall_mem_cons.mp hdigits
      obtain ⟨d, hd, rfl⟩ := exists_digitChar hc
      rw [digitsValue_cons hd]
      cases rest with
      | nil => simpa [digitsValue] using Digits.last hd
      | cons c' rest => exact .cons hd (ih (List.cons_ne_nil _ _) hrest)

/-! ### Signs -/

theorem split_digits {ds : List Char} {n : Nat} (h : Digits ds n) : split ds = (false, ds) := by
  obtain ⟨-, hdigits, -⟩ := digits_iff.mp h
  unfold split
  split
  · exact absurd (hdigits '-' (.head _)) (by decide)
  · rfl

/-- What is read after the sign. -/
theorem value?_split {text ds : List Char} {negative : Bool} {n : Int}
    (h : split text = (negative, ds)) :
    value? text = some n ↔ ∃ m, Digits ds m ∧ n = if negative then -(m : Int) else m := by
  have hform : (ds.isEmpty || !ds.all Char.isDigit) = false ↔
      ds ≠ [] ∧ ∀ c ∈ ds, c.isDigit = true := by
    rw [Bool.or_eq_false_iff, List.isEmpty_eq_false_iff, Bool.not_eq_false', List.all_eq_true]
  simp only [value?, h, digits_iff]
  cases hbad : ds.isEmpty || !ds.all Char.isDigit with
  | true =>
    rw [if_pos rfl]
    constructor
    · intro hnone
      cases hnone
    · rintro ⟨m, ⟨hne, hdigits, -⟩, -⟩
      rw [hform.mpr ⟨hne, hdigits⟩] at hbad
      cases hbad
  | false =>
    obtain ⟨hne, hdigits⟩ := hform.mp hbad
    rw [if_neg Bool.false_ne_true, Option.some.injEq]
    constructor
    · rintro rfl
      exact ⟨_, ⟨hne, hdigits, rfl⟩, rfl⟩
    · rintro ⟨m, ⟨-, -, rfl⟩, rfl⟩
      rfl

/-- **The reader finds what a text denotes.** -/
theorem value?_eq_some {text : List Char} {n : Int} : value? text = some n ↔ Denotes text n := by
  constructor
  · intro h
    cases hsplit : split text with
    | mk negative ds =>
      obtain ⟨m, hm, rfl⟩ := (value?_split hsplit).mp h
      unfold split at hsplit
      split at hsplit <;> obtain ⟨rfl, rfl⟩ := hsplit
      · exact .minus hm
      · exact .plain hm
  · intro h
    cases h with
    | plain hm => exact (value?_split (split_digits hm)).mpr ⟨_, hm, rfl⟩
    | minus hm => exact (value?_split rfl).mpr ⟨_, hm, rfl⟩

theorem Denotes.unique {text : List Char} {m n : Int} (hm : Denotes text m)
    (hn : Denotes text n) : m = n :=
  Option.some.inj ((value?_eq_some.mpr hm).symm.trans (value?_eq_some.mpr hn))

/-- Numerals are an optional minus and one or more digits. -/
theorem exists_denotes {text : List Char} :
    (∃ n, Denotes text n) ↔
      ∃ sign ds, text = sign ++ ds ∧ (sign = [] ∨ sign = ['-']) ∧ ds ≠ [] ∧
        ∀ c ∈ ds, c.isDigit = true := by
  constructor
  · rintro ⟨n, h | h⟩
    · obtain ⟨hne, hdigits, -⟩ := digits_iff.mp h
      exact ⟨[], _, rfl, .inl rfl, hne, hdigits⟩
    · obtain ⟨hne, hdigits, -⟩ := digits_iff.mp h
      exact ⟨['-'], _, rfl, .inr rfl, hne, hdigits⟩
  · rintro ⟨sign, ds, rfl, hsign, hne, hdigits⟩
    have h := digits_iff.mpr ⟨hne, hdigits, rfl⟩
    rcases hsign with rfl | rfl
    · exact ⟨_, .plain h⟩
    · exact ⟨_, .minus h⟩

/-! ### Words -/

/-- An integer of which a text is the numeral becomes a word, if it fits into one. -/
theorem readInteger_of_denotes {s : String} {n : Int} (h : Denotes s.toList n) :
    Scalar.readInteger s =
      if -0x8000000000000000 ≤ n ∧ n < 0x8000000000000000 then .ok (Int64.ofInt n)
      else .error (.integerRange s) := by
  rw [Scalar.readInteger, decode, value?_eq_some.mpr h]
  by_cases hn : -0x8000000000000000 ≤ n ∧ n < 0x8000000000000000 <;> simp [hn]

theorem readInteger_of_not_denotes {s : String} (h : ¬∃ n, Denotes s.toList n) :
    Scalar.readInteger s = .error (.integer s) := by
  have hnone : value? s.toList = none :=
    Option.eq_none_iff_forall_ne_some.mpr fun n hn => h ⟨n, value?_eq_some.mp hn⟩
  rw [Scalar.readInteger, decode, hnone]

theorem readInteger_eq_ok {s : String} {w : Int64} :
    Scalar.readInteger s = .ok w ↔ Denotes s.toList w.toInt := by
  constructor
  · intro hread
    by_cases hs : ∃ n, Denotes s.toList n
    · obtain ⟨n, hn⟩ := hs
      rw [readInteger_of_denotes hn] at hread
      split at hread
      · next hfits =>
        obtain rfl := Except.ok.inj hread
        rwa [Int64.toInt_ofInt_of_le hfits.1 hfits.2]
      · cases hread
    · rw [readInteger_of_not_denotes hs] at hread
      cases hread
  · intro hn
    rw [readInteger_of_denotes hn, if_pos ⟨w.le_toInt, w.toInt_lt⟩, Int64.ofInt_toInt]

theorem readInteger_eq_error {s : String} {e : DecodeError} :
    Scalar.readInteger s = .error e ↔
      (e = .integerRange s ∧
        ∃ n, Denotes s.toList n ∧ (n < -0x8000000000000000 ∨ 0x7fffffffffffffff < n)) ∨
      (e = .integer s ∧ ¬∃ n, Denotes s.toList n) := by
  by_cases hs : ∃ n, Denotes s.toList n
  · obtain ⟨n, hn⟩ := hs
    rw [readInteger_of_denotes hn]
    constructor
    · intro herror
      split at herror
      · cases herror
      · exact .inl ⟨(Except.error.inj herror).symm, n, hn, by omega⟩
    · rintro (⟨rfl, m, hm, hrange⟩ | ⟨-, hnone⟩)
      · obtain rfl := hm.unique hn
        exact if_neg (by omega)
      · exact absurd ⟨n, hn⟩ hnone
  · rw [readInteger_of_not_denotes hs]
    constructor
    · intro herror
      exact .inr ⟨(Except.error.inj herror).symm, hs⟩
    · rintro (⟨-, n, hn, -⟩ | ⟨rfl, -⟩)
      · exact absurd ⟨n, hn⟩ hs
      · rfl

/-- **Texts of integers are read exactly**, however long they are and however many zeros they begin
with:

* A text is read as a word if and only if it denotes the integer of the word, and this is one of
  those from the least signed word to the greatest.
* The error that a text is out of range is reported if and only if it denotes an integer beyond
  them, and the error that it is no integer if and only if it denotes none.
* The texts that denote integers are an optional minus and one or more digits.
* Every word is read back from its text. -/
theorem integer_texts_read_exactly :
    (∀ (s : String) (n : Int), (∃ w : Int64, w.toInt = n ∧ Scalar.readInteger s = .ok w) ↔
      Denotes s.toList n ∧ -0x8000000000000000 ≤ n ∧ n ≤ 0x7fffffffffffffff) ∧
    (∀ (s : String) (e : DecodeError), Scalar.readInteger s = .error e ↔
      (e = .integerRange s ∧
        ∃ n, Denotes s.toList n ∧ (n < -0x8000000000000000 ∨ 0x7fffffffffffffff < n)) ∨
      (e = .integer s ∧ ¬∃ n, Denotes s.toList n)) ∧
    (∀ text : List Char, (∃ n, Denotes text n) ↔
      ∃ sign ds, text = sign ++ ds ∧ (sign = [] ∨ sign = ['-']) ∧ ds ≠ [] ∧
        ∀ c ∈ ds, '0' ≤ c ∧ c ≤ '9') ∧
    ∀ w : Int64, Scalar.readInteger (encode w) = .ok w := by
  refine ⟨fun s n => ?_, fun s e => readInteger_eq_error, fun text => ?_, fun w => ?_⟩
  · constructor
    · rintro ⟨w, rfl, hread⟩
      have hhigh := w.toInt_lt
      exact ⟨readInteger_eq_ok.mp hread, w.le_toInt, by omega⟩
    · rintro ⟨hn, hlow, hhigh⟩
      have hword : (Int64.ofInt n).toInt = n := Int64.toInt_ofInt_of_le hlow (by omega)
      exact ⟨Int64.ofInt n, hword, readInteger_eq_ok.mpr (by rwa [hword])⟩
  · simpa [Char.isDigit, Char.le_def] using @exists_denotes text
  · rw [Scalar.readInteger, decode_encode]

/-- Zeros before the digits of the least word. -/
example : Scalar.readInteger "-009223372036854775808" = .ok Int64.minValue := rfl

end IntegerText
end NodeClient
