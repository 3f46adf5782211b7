import NodeClient.Encoding.IntegerText

/-!
# Integer texts — words are read back from what they are written as

* `value?_toString`: the text of an integer denotes it.
* `decode_encode`, `decode_toString`: so a word, and any integer that fits into one, is read back.
-/

namespace NodeClient
namespace IntegerText

theorem digitsValue_eq (ds : List Char) : digitsValue ds = Nat.ofDigitChars 10 ds 0 := by
  rw [digitsValue, Nat.ofDigitChars_eq_foldl]
  simp only [Nat.mul_comm 10]

theorem isDigit_of_mem_toDigits {n : Nat} {c : Char} (h : c ∈ Nat.toDigits 10 n) :
    c.isDigit = true :=
  Nat.isDigit_of_mem_toDigits (by decide) (by decide) h

theorem split_toDigits (n : Nat) : split (Nat.toDigits 10 n) = (false, Nat.toDigits 10 n) := by
  unfold split
  split
  · next rest h =>
    have hminus : '-' ∈ Nat.toDigits 10 n := by
      rw [h]
      exact .head rest
    exact absurd (isDigit_of_mem_toDigits hminus) (by decide)
  · rfl

/-- The digits of a natural, after a sign or without one. -/
theorem value?_of_split {text : List Char} {negative : Bool} {n : Nat}
    (h : split text = (negative, Nat.toDigits 10 n)) :
    value? text = some (if negative then -(n : Int) else n) := by
  have hdigits : (Nat.toDigits 10 n).all Char.isDigit = true :=
    List.all_eq_true.mpr fun c hc => isDigit_of_mem_toDigits hc
  have hsome : (Nat.toDigits 10 n).isEmpty = false :=
    List.isEmpty_eq_false_iff.mpr Nat.toDigits_ne_nil
  rw [value?, h]
  dsimp only
  rw [hsome, hdigits, digitsValue_eq, Nat.ofDigitChars_ten_toDigits]
  rfl

theorem value?_toString (n : Int) : value? (toString n).toList = some n := by
  rw [Int.toString_eq_repr, Int.repr_eq_if]
  split
  · next hn =>
    rw [Nat.toList_repr, value?_of_split (split_toDigits n.toNat)]
    exact congrArg some (Int.toNat_of_nonneg hn)
  · next hn =>
    have hsplit : split ("-" ++ (-n).toNat.repr).toList = (true, Nat.toDigits 10 (-n).toNat) := by
      rw [String.toList_append, Nat.toList_repr]
      rfl
    rw [value?_of_split hsplit]
    show some (-((-n).toNat : Int)) = some n
    rw [Int.toNat_of_nonneg (by omega), Int.neg_neg]

/-- The text of an integer that fits into a signed word. -/
theorem decode_toString {n : Int} (hlow : -0x8000000000000000 ≤ n) (hhigh : n < 0x8000000000000000) :
    decode (toString n) = .ok (Int64.ofInt n) := by
  rw [decode, value?_toString]
  exact if_pos ⟨hlow, hhigh⟩

theorem decode_encode (n : Int64) : decode (encode n) = .ok n := by
  rw [encode, decode_toString n.le_toInt n.toInt_lt, Int64.ofInt_toInt]

end IntegerText

end NodeClient
