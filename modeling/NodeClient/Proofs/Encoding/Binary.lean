import NodeClient.Encoding.Base64
import NodeClient.Encoding.Hex

/-!
# Binary texts — bytes are read back from what they are written as

Both encodings write ASCII, so that the bytes of the text are the symbols (`Text.utf8_ofAscii`).

* `Hex.decode_encode`: a byte is two digits, and the digits are its halves.
* `Base64.decode_encode`: three bytes are four symbols (`values_symbols`), and the last group has one
  to three bytes (`scanTail_symbols`).
-/

namespace NodeClient

/-! ### ASCII -/

namespace Text

/-- A byte below 128 is the whole encoding of its character. -/
theorem utf8EncodeChar_of_lt {b : UInt8} (h : b < 128) :
    String.utf8EncodeChar (Char.ofNat b.toNat) = [b] := by
  have hall : ∀ n : Fin 128, String.utf8EncodeChar (Char.ofNat n) = [UInt8.ofNat n] := by
    decide +kernel
  have hb : b.toNat < 128 := h
  rw [hall ⟨b.toNat, hb⟩, UInt8.ofNat_toNat]

theorem utf8_ofAscii {bytes : Bytes} (h : ∀ b ∈ bytes, b < 128) : utf8 (ofAscii bytes) = bytes := by
  rw [utf8, ofAscii, String.toUTF8_eq_toByteArray, String.toByteArray_ofList, List.utf8Encode,
    List.data_toByteArray]
  induction bytes with
  | nil => rfl
  | cons b rest ih =>
    obtain ⟨hb, hrest⟩ := List.forall_mem_cons.mp h
    have htail := ih hrest
    rw [List.toList_toArray] at htail ⊢
    rw [List.map_cons, List.flatMap_cons, htail, utf8EncodeChar_of_lt hb, List.singleton_append]

end Text

/-! ### Hexadecimal -/

namespace Hex

theorem digit_lt {n : UInt8} (h : n < 16) : digit n < 128 := by
  have hall : ∀ n : Fin 16, digit (UInt8.ofNat n) < 128 := by decide
  have hn : n.toNat < 16 := h
  simpa using hall ⟨n.toNat, hn⟩

theorem value?_digit {n : UInt8} (h : n < 16) : value? (digit n) = some n := by
  have hall : ∀ n : Fin 16, value? (digit (UInt8.ofNat n)) = some (UInt8.ofNat n) := by decide
  have hn : n.toNat < 16 := h
  simpa using hall ⟨n.toNat, hn⟩

theorem div_lt (b : UInt8) : b / 16 < 16 := by
  have hb := b.toNat_lt
  show (b / 16).toNat < 16
  rw [UInt8.toNat_div]
  show b.toNat / 16 < 16
  omega

theorem mod_lt (b : UInt8) : b % 16 < 16 := by
  show (b % 16).toNat < 16
  rw [UInt8.toNat_mod]
  exact Nat.mod_lt _ (by decide)

theorem halves (b : UInt8) : b / 16 * 16 + b % 16 = b := by
  have hb := b.toNat_lt
  refine UInt8.toNat_inj.mp ?_
  rw [UInt8.toNat_add, UInt8.toNat_mul, UInt8.toNat_div, UInt8.toNat_mod]
  show (b.toNat / 16 * 16 % 256 + b.toNat % 16) % 256 = b.toNat
  omega

theorem pairs_digits (position : Nat) (bytes : Bytes) : pairs position (digits bytes) = .ok bytes := by
  induction bytes generalizing position with
  | nil => rfl
  | cons b rest ih =>
    have hhigh := value?_digit (div_lt b)
    have hlow := value?_digit (mod_lt b)
    show pairs position (digit (b / 16) :: digit (b % 16) :: digits rest) = _
    rw [pairs, valueAt, hhigh, valueAt, hlow, ih]
    show Except.ok ((b / 16 * 16 + b % 16) :: rest) = _
    rw [halves]

theorem length_digits (bytes : Bytes) : (digits bytes).length = 2 * bytes.length := by
  induction bytes with
  | nil => rfl
  | cons b rest ih =>
    show (digits rest).length + 2 = _
    rw [ih, List.length_cons, Nat.mul_succ]

theorem ascii_digits (bytes : Bytes) : ∀ d ∈ digits bytes, d < 128 := by
  intro d hd
  obtain ⟨b, -, hd⟩ := List.mem_flatMap.mp hd
  rcases List.mem_cons.mp hd with rfl | hd
  · exact digit_lt (div_lt b)
  · rw [List.mem_singleton.mp hd]
    exact digit_lt (mod_lt b)

theorem decode_encode (bytes : Bytes) : decode (encode bytes) = .ok bytes := by
  have heven : ¬ (digits bytes).length % 2 = 1 := by
    rw [length_digits]
    omega
  rw [decode, encode, Text.utf8_ofAscii (ascii_digits bytes), if_neg heven, pairs_digits]

end Hex

/-! ### Base64 -/

namespace Base64

theorem symbol_lt {n : Nat} (h : n < 64) : symbol n < 128 := by
  have hall : ∀ n : Fin 64, symbol n < 128 := by decide
  exact hall ⟨n, h⟩

theorem symbol_ne_pad {n : Nat} (h : n < 64) : symbol n ≠ pad := by
  have hall : ∀ n : Fin 64, symbol n ≠ pad := by decide
  exact hall ⟨n, h⟩

theorem value?_symbol {n : Nat} (h : n < 64) : value? (symbol n) = some n := by
  have hall : ∀ n : Fin 64, value? (symbol n) = some n.val := by decide
  exact hall ⟨n, h⟩

/-! Whole groups. -/

theorem whole_tail {a b c : UInt8} {front : Bytes} (h : (a :: b :: c :: front).length % 3 = 0) :
    front.length % 3 = 0 := by
  simp only [List.length_cons] at h
  omega

theorem symbols_append {front : Bytes} (h : front.length % 3 = 0) (rest : Bytes) :
    symbols (front ++ rest) = symbols front ++ symbols rest := by
  fun_induction symbols front with
  | case1 => rfl
  | case2 a => simp at h
  | case3 a b => simp at h
  | case4 a b c front ih =>
    rw [List.cons_append, List.cons_append, List.cons_append, symbols, ih (whole_tail h)]
    rfl

theorem length_symbols {front : Bytes} (h : front.length % 3 = 0) :
    (symbols front).length % 4 = 0 := by
  fun_induction symbols front with
  | case1 => rfl
  | case2 a => simp at h
  | case3 a b => simp at h
  | case4 a b c front ih =>
    have hrest := ih (whole_tail h)
    simp only [List.length_cons]
    omega

/-- A byte in its first six bits and the two after them, which other bits follow. -/
theorem join_first (a : UInt8) {n : Nat} (h : n < 16) :
    UInt8.ofNat (a.toNat / 4 * 4 + (a.toNat % 4 * 16 + n) / 16) = a := by
  rw [show a.toNat / 4 * 4 + (a.toNat % 4 * 16 + n) / 16 = a.toNat by omega, UInt8.ofNat_toNat]

/-- A byte in its first four bits, which other bits precede, and the four after them. -/
theorem join_second (m : Nat) (b : UInt8) {n : Nat} (h : n < 4) :
    UInt8.ofNat ((m * 16 + b.toNat / 16) % 16 * 16 + (b.toNat % 16 * 4 + n) / 4) = b := by
  have hb := b.toNat_lt
  rw [show (m * 16 + b.toNat / 16) % 16 * 16 + (b.toNat % 16 * 4 + n) / 4 = b.toNat by omega,
    UInt8.ofNat_toNat]

/-- A byte in its first two bits, which other bits precede, and the six after them. -/
theorem join_third (m : Nat) (c : UInt8) :
    UInt8.ofNat ((m * 4 + c.toNat / 64) % 4 * 64 + c.toNat % 64) = c := by
  have hc := c.toNat_lt
  rw [show (m * 4 + c.toNat / 64) % 4 * 64 + c.toNat % 64 = c.toNat by omega, UInt8.ofNat_toNat]

theorem values_cons {n : Nat} (h : n < 64) (offset : Nat) (rest : Bytes) :
    values offset (symbol n :: rest) = (values (offset + 1) rest).map (n :: ·) := by
  rw [values, value?_symbol h]

theorem values_symbols {front : Bytes} (h : front.length % 3 = 0) (offset : Nat) :
    ∃ vs, values offset (symbols front) = .ok vs ∧ join vs = front := by
  fun_induction symbols front generalizing offset with
  | case1 => exact ⟨[], rfl, rfl⟩
  | case2 a => simp at h
  | case3 a b => simp at h
  | case4 a b c front ih =>
    have ha := a.toNat_lt
    have hb := b.toNat_lt
    have hc := c.toNat_lt
    obtain ⟨vs, hvs, hjoin⟩ := ih (whole_tail h) (offset + 4)
    refine ⟨a.toNat / 4 :: (a.toNat % 4 * 16 + b.toNat / 16) :: (b.toNat % 16 * 4 + c.toNat / 64) ::
      c.toNat % 64 :: vs, ?_, ?_⟩
    · rw [values_cons (by omega), values_cons (by omega), values_cons (by omega),
        values_cons (by omega), hvs]
      rfl
    · rw [join, join_first a (by omega), join_second _ b (by omega), join_third, hjoin]

/-! The last group. -/

theorem push_symbol {start index n : Nat} {tail : Tail} (hn : n < 64) (h : tail.padding = 0) :
    tail.push start index (symbol n) =
      .ok { tail with values := tail.values ++ [n], last := symbol n } := by
  rw [Tail.push, if_neg (symbol_ne_pad hn), if_neg (not_not_intro h), value?_symbol hn]

theorem push_pad {start index : Nat} {tail : Tail} (h : 2 ≤ index) :
    tail.push start index pad =
      .ok { tail with
        padding := tail.padding + 1
        firstPad := if tail.padding = 0 then index else tail.firstPad } := by
  rw [Tail.push, if_pos rfl, if_neg (by omega)]

theorem scanTail_cons {start index : Nat} {tail next : Tail} {b : UInt8} {rest : Bytes}
    (h : tail.push start index b = .ok next) :
    scanTail start tail index (b :: rest) = scanTail start next (index + 1) rest := by
  rw [scanTail, h]
  rfl

theorem finish_two {start a b : Nat} {last : UInt8} {firstPad : Nat} (h : b % 16 = 0) :
    finish start ⟨[a, b], last, 2, firstPad⟩ = .ok [UInt8.ofNat (a * 4 + b / 16)] := by
  simp [finish, h]

theorem finish_three {start a b c : Nat} {last : UInt8} {firstPad : Nat} (h : c % 4 = 0) :
    finish start ⟨[a, b, c], last, 1, firstPad⟩ =
      .ok [UInt8.ofNat (a * 4 + b / 16), UInt8.ofNat (b % 16 * 16 + c / 4)] := by
  simp [finish, h]

theorem finish_four {start a b c d : Nat} {last : UInt8} {firstPad : Nat} :
    finish start ⟨[a, b, c, d], last, 0, firstPad⟩ =
      .ok [UInt8.ofNat (a * 4 + b / 16), UInt8.ofNat (b % 16 * 16 + c / 4),
        UInt8.ofNat (c % 4 * 64 + d)] := by
  simp [finish, join]

/-- The last group is read as one to three bytes. -/
theorem scanTail_symbols (start : Nat) {last : Bytes} (hne : last ≠ []) (h : last.length ≤ 3) :
    ∃ tail, scanTail start ⟨[], 0, 0, 0⟩ 0 (symbols last) = .ok tail ∧ 2 ≤ tail.values.length ∧
      finish start tail = .ok last := by
  match last with
  | [a] =>
    have ha := a.toNat_lt
    have hfill : a.toNat % 4 * 16 % 16 = 0 := Nat.mul_mod_left _ 16
    refine ⟨⟨[a.toNat / 4, a.toNat % 4 * 16], symbol (a.toNat % 4 * 16), 2, 2⟩, ?_,
      Nat.le_refl 2, ?_⟩
    · rw [symbols, scanTail_cons (push_symbol (by omega) rfl),
        scanTail_cons (push_symbol (by omega) rfl), scanTail_cons (push_pad (by decide)),
        scanTail_cons (push_pad (by decide))]
      rfl
    · rw [finish_two hfill]
      exact congrArg (fun b => Except.ok [b]) (join_first a (n := 0) (by decide))
  | [a, b] =>
    have ha := a.toNat_lt
    have hb := b.toNat_lt
    have hfill : b.toNat % 16 * 4 % 4 = 0 := Nat.mul_mod_left _ 4
    refine ⟨⟨[a.toNat / 4, a.toNat % 4 * 16 + b.toNat / 16, b.toNat % 16 * 4],
      symbol (b.toNat % 16 * 4), 1, 3⟩, ?_, Nat.le_succ 2, ?_⟩
    · rw [symbols, scanTail_cons (push_symbol (by omega) rfl),
        scanTail_cons (push_symbol (by omega) rfl), scanTail_cons (push_symbol (by omega) rfl),
        scanTail_cons (push_pad (by decide))]
      rfl
    · rw [finish_three hfill, join_first a (by omega)]
      exact congrArg (fun c => Except.ok [a, c]) (join_second _ b (n := 0) (by decide))
  | [a, b, c] =>
    have ha := a.toNat_lt
    have hb := b.toNat_lt
    have hc := c.toNat_lt
    refine ⟨⟨[a.toNat / 4, a.toNat % 4 * 16 + b.toNat / 16, b.toNat % 16 * 4 + c.toNat / 64,
      c.toNat % 64], symbol (c.toNat % 64), 0, 0⟩, ?_, Nat.le_add_right 2 2, ?_⟩
    · rw [symbols, scanTail_cons (push_symbol (by omega) rfl),
        scanTail_cons (push_symbol (by omega) rfl), scanTail_cons (push_symbol (by omega) rfl),
        scanTail_cons (push_symbol (by omega) rfl)]
      rfl
    · rw [finish_four, join_first a (by omega), join_second _ b (by omega), join_third]

/-! All bytes. -/

theorem exists_last {bytes : Bytes} (h : bytes ≠ []) :
    ∃ front last, bytes = front ++ last ∧ front.length % 3 = 0 ∧ last ≠ [] ∧ last.length ≤ 3 := by
  have hpos : 0 < bytes.length := List.length_pos_iff.mpr h
  have hlast : (bytes.drop ((bytes.length - 1) / 3 * 3)).length ≠ 0 := by
    rw [List.length_drop]
    omega
  refine ⟨bytes.take ((bytes.length - 1) / 3 * 3), bytes.drop ((bytes.length - 1) / 3 * 3),
    (List.take_append_drop _ _).symm, ?_, fun hnil => hlast (by rw [hnil]; rfl), ?_⟩
  · rw [List.length_take, Nat.min_eq_left (by omega)]
    exact Nat.mul_mod_left _ 3
  · rw [List.length_drop]
    omega

theorem length_last {last : Bytes} (hne : last ≠ []) (h : last.length ≤ 3) :
    (symbols last).length = 4 := by
  match last with
  | [_] => rfl
  | [_, _] => rfl
  | [_, _, _] => rfl

theorem decodeBytes_symbols (bytes : Bytes) : decodeBytes (symbols bytes) = .ok bytes := by
  by_cases hnil : bytes = []
  · subst hnil
    rfl
  · obtain ⟨front, last, rfl, hfront, hne, hlast⟩ := exists_last hnil
    obtain ⟨vs, hvs, hjoin⟩ := values_symbols hfront 0
    obtain ⟨tail, hscan, htwo, hfinish⟩ := scanTail_symbols (symbols front).length hne hlast
    have hgroups := length_symbols hfront
    have hlength : (symbols (front ++ last)).length = (symbols front).length + 4 := by
      rw [symbols_append hfront, List.length_append, length_last hne hlast]
    have hstart : (symbols (front ++ last)).length - 4 = (symbols front).length := by omega
    have hstray : ¬ (symbols (front ++ last)).length % 4 = 1 := by omega
    have hwhole : (symbols (front ++ last)).length % 4 = 0 := by omega
    have hlong : ¬ ((symbols (front ++ last)).length ≠ 0 ∧ tail.values.length < 2) := by omega
    rw [decodeBytes, if_neg hstray]
    dsimp only
    rw [if_pos hwhole, hstart]
    simp only [symbols_append hfront, List.take_left, List.drop_left, hvs, hscan]
    rw [← symbols_append hfront]
    show (if _ then _ else _) = _
    rw [if_neg hlong, hfinish]
    exact congrArg (fun whole => Except.ok (whole ++ last)) hjoin

theorem ascii_symbols (bytes : Bytes) : ∀ s ∈ symbols bytes, s < 128 := by
  have hpad : pad < 128 := by decide
  fun_induction symbols bytes with
  | case1 => nofun
  | case2 a =>
    have ha := a.toNat_lt
    simp only [List.forall_mem_cons]
    exact ⟨symbol_lt (by omega), symbol_lt (by omega), hpad, hpad, nofun⟩
  | case3 a b =>
    have ha := a.toNat_lt
    have hb := b.toNat_lt
    simp only [List.forall_mem_cons]
    exact ⟨symbol_lt (by omega), symbol_lt (by omega), symbol_lt (by omega), hpad, nofun⟩
  | case4 a b c rest ih =>
    have ha := a.toNat_lt
    have hb := b.toNat_lt
    have hc := c.toNat_lt
    simp only [List.forall_mem_cons]
    exact ⟨symbol_lt (by omega), symbol_lt (by omega), symbol_lt (by omega), symbol_lt (by omega),
      ih⟩

theorem decode_encode (bytes : Bytes) : decode (encode bytes) = .ok bytes := by
  rw [decode, encode, Text.utf8_ofAscii (ascii_symbols bytes), decodeBytes_symbols]

end Base64
end NodeClient
