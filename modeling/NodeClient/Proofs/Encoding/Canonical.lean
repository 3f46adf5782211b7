import Mathlib.Data.List.Forall2
import NodeClient.Proofs.Encoding.Binary
import NodeClient.Proofs.Outcome
import NodeClient.Proofs.Requests
import NodeClient.Schema.Format

/-!
# Canonical texts — which texts stand for which bytes

A byte string has one text in base64, and in hexadecimal those texts that are alike in lower case.
The readers accept these and nothing else, which is the direction that `Hex.decode_encode` and
`Base64.decode_encode` leave open.

* `Hex.decode_eq_ok`: digit by digit, a text has the values of what is written.
* `Base64.decode_eq_ok`: whole groups (`symbols_join`), then the last one, of which the padding and
  the unused bits are checked (`symbols_of_finish`).
* `binary_texts_canonical`: both, for the fields of payloads and the arguments of requests.
-/

namespace NodeClient

/-- A property of all bytes, by its value at each of them. -/
theorem forall_byte {P : UInt8 → Prop} (h : ∀ n : Fin 256, P (UInt8.ofNat n)) (b : UInt8) :
    P b := by
  have hb := h ⟨b.toNat, b.toNat_lt⟩
  rwa [UInt8.ofNat_toNat] at hb

/-! ### ASCII -/

namespace Text

theorem utf8_injective {s t : String} (h : utf8 s = utf8 t) : s = t := by
  rw [utf8, utf8, String.toUTF8_eq_toByteArray, String.toUTF8_eq_toByteArray] at h
  exact String.toByteArray_inj.mp (ByteArray.ext (Array.toList_inj.mp h))

/-- A text whose bytes are ASCII is the text of these bytes. -/
theorem eq_ofAscii {s : String} (h : ∀ b ∈ utf8 s, b < 128) : s = ofAscii (utf8 s) :=
  utf8_injective (utf8_ofAscii h).symm

theorem toList_ofAscii (bytes : Bytes) :
    (ofAscii bytes).toList = bytes.map fun b => Char.ofNat b.toNat :=
  String.toList_ofList

theorem toList_toLower (s : String) : s.toLower.toList = s.toList.map Char.toLower :=
  String.toList_map

end Text

/-! ### Hexadecimal -/

namespace Hex

section Value

variable {b v : UInt8}

theorem lt_of_value? (h : value? b = some v) : v < 16 :=
  forall_byte (P := fun b => ∀ v ∈ value? b, v < 16) (by decide +kernel) b v h

theorem ascii_of_value? (h : value? b = some v) : b < 128 :=
  forall_byte (P := fun b => ∀ v ∈ value? b, b < 128) (by decide +kernel) b v h

/-- A digit is, in lower case, the one that is written for its value. -/
theorem toLower_of_value? (h : value? b = some v) :
    (Char.ofNat b.toNat).toLower = Char.ofNat (digit v).toNat :=
  forall_byte (P := fun b => ∀ v ∈ value? b,
    (Char.ofNat b.toNat).toLower = Char.ofNat (digit v).toNat) (by decide +kernel) b v h

end Value

theorem lt_of_toLower {c : Char} (h : c.toLower.toNat < 128) : c.toNat < 128 := by
  unfold Char.toLower at h
  split at h
  · next hc =>
    have hle : c.toNat ≤ 90 := hc.2
    omega
  · exact h

/-- The characters that are a digit in lower case. -/
theorem exists_value? {c : Char} {v : UInt8} (hv : v < 16)
    (h : c.toLower = Char.ofNat (digit v).toNat) :
    ∃ b : UInt8, c = Char.ofNat b.toNat ∧ value? b = some v := by
  have hall : ∀ (n : Fin 128) (v : Fin 16),
      (Char.ofNat (digit (UInt8.ofNat v)).toNat).toNat < 128 ∧
      ((Char.ofNat n).toLower = Char.ofNat (digit (UInt8.ofNat v)).toNat →
        value? (UInt8.ofNat n) = some (UInt8.ofNat v)) := by
    decide +kernel
  have hv' : v.toNat < 16 := hv
  have hc : c.toNat < 128 := by
    have hdigit := (hall 0 ⟨v.toNat, hv'⟩).1
    rw [UInt8.ofNat_toNat, ← h] at hdigit
    exact lt_of_toLower hdigit
  have hbyte : (UInt8.ofNat c.toNat).toNat = c.toNat :=
    UInt8.toNat_ofNat_of_lt (Nat.lt_trans hc (by decide))
  refine ⟨UInt8.ofNat c.toNat, ?_, ?_⟩
  · rw [hbyte, Char.ofNat_toNat]
  · have hread := (hall ⟨c.toNat, hc⟩ ⟨v.toNat, hv'⟩).2
    rw [Char.ofNat_toNat, UInt8.ofNat_toNat] at hread
    exact hread h

/-- A byte is a digit, in either case, and this is how it is written. -/
def Reads (b d : UInt8) : Prop :=
  ∃ v, value? b = some v ∧ d = digit v

theorem value?_of_reads {b n : UInt8} (hn : n < 16) (h : Reads b (digit n)) :
    value? b = some n := by
  obtain ⟨v, hv, heq⟩ := h
  rw [hv, ← value?_digit (lt_of_value? hv), ← heq, value?_digit hn]

theorem valueAt_eq_ok {b v : UInt8} {position : Nat} :
    valueAt b position = .ok v ↔ value? b = some v := by
  unfold valueAt
  split <;> simp_all

theorem halves_of_join {h l : UInt8} (hh : h < 16) (hl : l < 16) :
    (h * 16 + l) / 16 = h ∧ (h * 16 + l) % 16 = l := by
  have hh' : h.toNat < 16 := hh
  have hl' : l.toNat < 16 := hl
  constructor <;> refine UInt8.toNat_inj.mp ?_
  · rw [UInt8.toNat_div, UInt8.toNat_add, UInt8.toNat_mul]
    show (h.toNat * 16 % 256 + l.toNat) % 256 / 16 = h.toNat
    omega
  · rw [UInt8.toNat_mod, UInt8.toNat_add, UInt8.toNat_mul]
    show (h.toNat * 16 % 256 + l.toNat) % 256 % 16 = l.toNat
    omega

theorem reads_of_pairs {position : Nat} {input bytes : Bytes}
    (h : pairs position input = .ok bytes) : List.Forall₂ Reads input (digits bytes) := by
  fun_induction pairs position input generalizing bytes with
  | case1 =>
    obtain rfl := Except.ok.inj h
    exact .nil
  | case2 => cases h
  | case3 position high low rest ih =>
    obtain ⟨hv, hhigh, h⟩ := bind_eq_ok.mp h
    obtain ⟨lv, hlow, h⟩ := bind_eq_ok.mp h
    obtain ⟨tail, htail, h⟩ := bind_eq_ok.mp h
    obtain rfl := Except.ok.inj h
    rw [valueAt_eq_ok] at hhigh hlow
    obtain ⟨hdiv, hmod⟩ := halves_of_join (lt_of_value? hhigh) (lt_of_value? hlow)
    exact .cons ⟨hv, hhigh, congrArg digit hdiv⟩ (.cons ⟨lv, hlow, congrArg digit hmod⟩ (ih htail))

theorem pairs_of_reads {position : Nat} {input bytes : Bytes}
    (h : List.Forall₂ Reads input (digits bytes)) : pairs position input = .ok bytes := by
  induction bytes generalizing position input with
  | nil =>
    cases h
    rfl
  | cons b rest ih =>
    obtain ⟨high, _, hhigh, hrest, rfl⟩ := List.forall₂_cons_right_iff.mp h
    obtain ⟨low, tail, hlow, htail, rfl⟩ := List.forall₂_cons_right_iff.mp hrest
    rw [pairs, valueAt_eq_ok.mpr (value?_of_reads (div_lt b) hhigh),
      valueAt_eq_ok.mpr (value?_of_reads (mod_lt b) hlow), ih htail]
    exact congrArg (fun b => Except.ok (b :: rest)) (halves b)

theorem decode_iff_reads {s : String} {bytes : Bytes} :
    decode s = .ok bytes ↔ List.Forall₂ Reads (Text.utf8 s) (digits bytes) := by
  unfold decode
  constructor
  · intro h
    dsimp only at h
    split at h
    · cases h
    · exact reads_of_pairs h
  · intro h
    have hlength := h.length_eq
    rw [length_digits] at hlength
    rw [if_neg (by omega), pairs_of_reads h]

/-- The characters of digits are, in lower case, those that are written. -/
theorem toLower_of_reads {input ds : Bytes} (h : List.Forall₂ Reads input ds) :
    (input.map fun b => Char.ofNat b.toNat).map Char.toLower =
      ds.map fun d => Char.ofNat d.toNat := by
  induction h with
  | nil => rfl
  | cons hb _ ih =>
    obtain ⟨v, hv, rfl⟩ := hb
    rw [List.map_cons, List.map_cons, List.map_cons, ih, toLower_of_value? hv]

theorem reads_of_toLower {cs : List Char} {bytes : Bytes}
    (h : cs.map Char.toLower = (digits bytes).map fun d => Char.ofNat d.toNat) :
    ∃ input : Bytes, (cs = input.map fun b => Char.ofNat b.toNat) ∧
      List.Forall₂ Reads input (digits bytes) := by
  induction bytes generalizing cs with
  | nil => exact ⟨[], List.map_eq_nil_iff.mp h, .nil⟩
  | cons b rest ih =>
    obtain ⟨high, _, rfl, hhigh, hrest⟩ := List.map_eq_cons_iff.mp h
    obtain ⟨low, tail, rfl, hlow, htail⟩ := List.map_eq_cons_iff.mp hrest
    obtain ⟨x, rfl, hx⟩ := exists_value? (div_lt b) hhigh
    obtain ⟨y, rfl, hy⟩ := exists_value? (mod_lt b) hlow
    obtain ⟨input, rfl, hinput⟩ := ih htail
    exact ⟨x :: y :: input, rfl, .cons ⟨_, hx, rfl⟩ (.cons ⟨_, hy, rfl⟩ hinput)⟩

theorem ascii_of_reads {input ds : Bytes} (h : List.Forall₂ Reads input ds) :
    ∀ b ∈ input, b < 128 := by
  induction h with
  | nil => nofun
  | cons hb _ ih =>
    obtain ⟨v, hv, -⟩ := hb
    exact List.forall_mem_cons.mpr ⟨ascii_of_value? hv, ih⟩

/-- **The texts of a byte string** are those that are its digits in lower case. -/
theorem decode_eq_ok {s : String} {bytes : Bytes} :
    decode s = .ok bytes ↔ s.toLower = encode bytes := by
  have hencode : (encode bytes).toList = (digits bytes).map fun d => Char.ofNat d.toNat :=
    Text.toList_ofAscii _
  rw [decode_iff_reads, ← String.toList_inj, Text.toList_toLower, hencode]
  constructor
  · intro h
    rw [Text.eq_ofAscii (ascii_of_reads h), Text.toList_ofAscii]
    exact toLower_of_reads h
  · intro h
    obtain ⟨input, hinput, hreads⟩ := reads_of_toLower h
    obtain rfl : s = Text.ofAscii input :=
      String.toList_inj.mp (hinput.trans (Text.toList_ofAscii input).symm)
    rwa [Text.utf8_ofAscii (ascii_of_reads hreads)]

end Hex

/-! ### Base64 -/

namespace Base64

/-- A symbol is the one that is written for its value. -/
theorem symbol_of_value? {b : UInt8} {v : Nat} (h : value? b = some v) : v < 64 ∧ symbol v = b :=
  forall_byte (P := fun b => ∀ v ∈ value? b, v < 64 ∧ symbol v = b) (by decide +kernel) b v h

/-- The values of symbols, as they are written again. -/
def Values (vs : List Nat) (read : Bytes) : Prop :=
  (∀ v ∈ vs, v < 64) ∧ vs.map symbol = read

/-! Whole groups. -/

theorem values_eq_ok {offset : Nat} {input : Bytes} {vs : List Nat}
    (h : values offset input = .ok vs) : Values vs input := by
  induction input generalizing offset vs with
  | nil =>
    obtain rfl := Except.ok.inj h
    exact ⟨nofun, rfl⟩
  | cons b rest ih =>
    rw [values] at h
    split at h
    · cases h
    · next v hv =>
      obtain ⟨hlt, hsymbol⟩ := symbol_of_value? hv
      obtain ⟨tail, htail, rfl⟩ := map_eq_ok.mp h
      obtain ⟨hall, hrest⟩ := ih htail
      exact ⟨List.forall_mem_cons.mpr ⟨hlt, hall⟩, by rw [List.map_cons, hsymbol, hrest]⟩

section Group

variable {a b c d : Nat}

theorem toNat_first (ha : a < 64) (hb : b < 64) :
    (UInt8.ofNat (a * 4 + b / 16)).toNat = a * 4 + b / 16 :=
  UInt8.toNat_ofNat_of_lt' (show _ < 256 by omega)

theorem toNat_second (hc : c < 64) :
    (UInt8.ofNat (b % 16 * 16 + c / 4)).toNat = b % 16 * 16 + c / 4 :=
  UInt8.toNat_ofNat_of_lt' (show _ < 256 by omega)

theorem toNat_third (hd : d < 64) : (UInt8.ofNat (c % 4 * 64 + d)).toNat = c % 4 * 64 + d :=
  UInt8.toNat_ofNat_of_lt' (show _ < 256 by omega)

theorem symbols_four (ha : a < 64) (hb : b < 64) (hc : c < 64) (hd : d < 64) (rest : Bytes) :
    symbols (UInt8.ofNat (a * 4 + b / 16) :: UInt8.ofNat (b % 16 * 16 + c / 4) ::
        UInt8.ofNat (c % 4 * 64 + d) :: rest) =
      symbol a :: symbol b :: symbol c :: symbol d :: symbols rest := by
  rw [symbols, toNat_first ha hb, toNat_second hc, toNat_third hd,
    show (a * 4 + b / 16) / 4 = a by omega,
    show (a * 4 + b / 16) % 4 * 16 + (b % 16 * 16 + c / 4) / 16 = b by omega,
    show (b % 16 * 16 + c / 4) % 16 * 4 + (c % 4 * 64 + d) / 64 = c by omega,
    show (c % 4 * 64 + d) % 64 = d by omega]

theorem symbols_three (ha : a < 64) (hb : b < 64) (hc : c < 64) (hfill : c % 4 = 0) :
    symbols [UInt8.ofNat (a * 4 + b / 16), UInt8.ofNat (b % 16 * 16 + c / 4)] =
      [symbol a, symbol b, symbol c, pad] := by
  rw [symbols, toNat_first ha hb, toNat_second hc,
    show (a * 4 + b / 16) / 4 = a by omega,
    show (a * 4 + b / 16) % 4 * 16 + (b % 16 * 16 + c / 4) / 16 = b by omega,
    show (b % 16 * 16 + c / 4) % 16 * 4 = c by omega]

theorem symbols_two (ha : a < 64) (hb : b < 64) (hfill : b % 16 = 0) :
    symbols [UInt8.ofNat (a * 4 + b / 16)] = [symbol a, symbol b, pad, pad] := by
  rw [symbols, toNat_first ha hb, show (a * 4 + b / 16) / 4 = a by omega,
    show (a * 4 + b / 16) % 4 * 16 = b by omega]

end Group

/-- Whole groups of values are whole groups of bytes. -/
theorem symbols_join {vs : List Nat} {read : Bytes} (h : Values vs read)
    (hlen : vs.length % 4 = 0) : (join vs).length % 3 = 0 ∧ symbols (join vs) = read := by
  obtain ⟨hlt, rfl⟩ := h
  fun_induction join vs with
  | case1 a b c d rest ih =>
    simp only [List.forall_mem_cons] at hlt
    obtain ⟨ha, hb, hc, hd, hrest⟩ := hlt
    simp only [List.length_cons] at hlen
    obtain ⟨hlength, hsymbols⟩ := ih (by omega) hrest
    refine ⟨?_, ?_⟩
    · simp only [List.length_cons]
      omega
    · rw [symbols_four ha hb hc hd, hsymbols]
      rfl
  | case2 vs hshort =>
    have hnil : vs = [] := by
      match vs with
      | [] => rfl
      | [_] | [_, _] | [_, _, _] => simp at hlen
      | a :: b :: c :: d :: rest => exact absurd rfl (hshort a b c d rest)
    subst hnil
    exact ⟨rfl, rfl⟩

/-! The last group. -/

/-- What was read of the last group: symbols, and padding after them. -/
def Tail.Holds (tail : Tail) (read : Bytes) : Prop :=
  ∃ front, Values tail.values front ∧ read = front ++ List.replicate tail.padding pad

theorem Tail.Holds.push {start index : Nat} {tail next : Tail} {read : Bytes} {b : UInt8}
    (h : tail.Holds read) (hnext : tail.push start index b = .ok next) :
    next.Holds (read ++ [b]) := by
  obtain ⟨front, ⟨hlt, hfront⟩, rfl⟩ := h
  unfold Tail.push at hnext
  split at hnext
  · next hpad =>
    split at hnext
    · cases hnext
    · obtain rfl := Except.ok.inj hnext
      refine ⟨front, ⟨hlt, hfront⟩, ?_⟩
      rw [hpad, List.append_assoc, ← List.replicate_succ']
  · split at hnext
    · cases hnext
    · next hnone =>
      split at hnext
      · cases hnext
      · next v hv =>
        obtain ⟨hv, hsymbol⟩ := symbol_of_value? hv
        obtain rfl := Except.ok.inj hnext
        refine ⟨front ++ [b], ⟨?_, ?_⟩, ?_⟩
        · exact List.forall_mem_append.mpr ⟨hlt, List.forall_mem_singleton.mpr hv⟩
        · rw [List.map_append, hfront, List.map_singleton, hsymbol]
        · rw [not_not.mp hnone, List.replicate_zero, List.append_nil, List.append_nil]

theorem holds_of_scanTail {start index : Nat} {tail last : Tail} {read rest : Bytes}
    (h : tail.Holds read) (hlast : scanTail start tail index rest = .ok last) :
    last.Holds (read ++ rest) := by
  induction rest generalizing tail index read with
  | nil =>
    obtain rfl := Except.ok.inj hlast
    rwa [List.append_nil]
  | cons b rest ih =>
    obtain ⟨next, hnext, hlast⟩ := bind_eq_ok.mp hlast
    rw [List.append_cons]
    exact ih (h.push hnext) hlast

/-- The last group is written as it was read: no padding is left out, and no unused bit is set. -/
theorem symbols_of_finish {start : Nat} {tail : Tail} {read bytes : Bytes} (h : tail.Holds read)
    (hlength : read.length ≤ 4) (htwo : 2 ≤ tail.values.length)
    (hbytes : finish start tail = .ok bytes) : symbols bytes = read := by
  obtain ⟨values, last, padding, firstPad⟩ := tail
  obtain ⟨front, ⟨hlt, rfl⟩, rfl⟩ := h
  simp only [List.length_append, List.length_map, List.length_replicate] at hlength
  unfold finish at hbytes
  dsimp only at hbytes hlength htwo hlt ⊢
  split at hbytes
  · cases hbytes
  · next hfull =>
    have hfour : values.length + padding = 4 := by omega
    split at hbytes
    · next a b =>
      split at hbytes
      · next hfill =>
        obtain rfl := Except.ok.inj hbytes
        simp only [List.forall_mem_cons] at hlt
        obtain rfl : padding = 2 := by simp at hfour; omega
        exact symbols_two hlt.1 hlt.2.1 hfill
      · cases hbytes
    · next a b c =>
      split at hbytes
      · next hfill =>
        obtain rfl := Except.ok.inj hbytes
        simp only [List.forall_mem_cons] at hlt
        obtain rfl : padding = 1 := by simp at hfour; omega
        exact symbols_three hlt.1 hlt.2.1 hlt.2.2.1 hfill
      · cases hbytes
    · next htwo' hthree =>
      obtain rfl := Except.ok.inj hbytes
      have hwhole : values.length = 4 := by
        match values with
        | [] | [_] => simp at htwo
        | [a, b] => exact absurd rfl (htwo' a b)
        | [a, b, c] => exact absurd rfl (hthree a b c)
        | _ :: _ :: _ :: _ :: rest => simp only [List.length_cons] at hfour ⊢; omega
      obtain rfl : padding = 0 := by omega
      rw [List.replicate_zero, List.append_nil]
      exact (symbols_join ⟨hlt, rfl⟩ (by rw [hwhole])).2

/-! All symbols. -/

theorem symbols_of_decodeBytes {input bytes : Bytes} (h : decodeBytes input = .ok bytes) :
    symbols bytes = input := by
  by_cases hnil : input = []
  · subst hnil
    obtain rfl := Except.ok.inj h
    rfl
  · have hpos : 0 < input.length := List.length_pos_iff.mpr hnil
    unfold decodeBytes at h
    dsimp only at h
    split at h
    · cases h
    · obtain ⟨vs, hvs, h⟩ := bind_eq_ok.mp h
      obtain ⟨tail, htail, h⟩ := bind_eq_ok.mp h
      split at h
      · cases h
      · next htwo =>
        obtain ⟨last, hlast, h⟩ := bind_eq_ok.mp h
        obtain rfl := Except.ok.inj h
        -- where the last group starts, all groups before it are whole
        generalize hstart : (if input.length % 4 = 0 then input.length - 4
          else input.length - input.length % 4) = start at *
        have hgroups : start % 4 = 0 ∧ start ≤ input.length ∧ input.length - start ≤ 4 := by
          subst hstart
          split <;> omega
        obtain ⟨hwhole, hle, hshort⟩ := hgroups
        have hvalues := values_eq_ok hvs
        have hcount : vs.length = start := by
          rw [← List.length_map (f := symbol), hvalues.2, List.length_take, Nat.min_eq_left hle]
        obtain ⟨hfront, hjoin⟩ := symbols_join hvalues (hcount ▸ hwhole)
        have hempty : Tail.Holds ⟨[], 0, 0, 0⟩ [] := ⟨[], ⟨nofun, rfl⟩, rfl⟩
        have htail := holds_of_scanTail hempty htail
        have hfinish := symbols_of_finish htail (by rwa [List.nil_append, List.length_drop])
          (by omega) hlast
        rw [symbols_append hfront, hjoin, hfinish, List.nil_append, List.take_append_drop]

/-- **The text of a byte string** is the one that it is written as. -/
theorem decode_eq_ok {s : String} {bytes : Bytes} : decode s = .ok bytes ↔ s = encode bytes := by
  constructor
  · intro h
    have hsymbols : symbols bytes = Text.utf8 s := symbols_of_decodeBytes h
    rw [encode, hsymbols]
    exact Text.eq_ofAscii (hsymbols ▸ ascii_symbols bytes)
  · rintro rfl
    exact decode_encode bytes

/-- Symbols come in groups of four; padding fills the last one up and stands nowhere else. -/
theorem symbols_padded (bytes : Bytes) :
    (symbols bytes).length = (bytes.length + 2) / 3 * 4 ∧
      ∃ front, symbols bytes = front ++ List.replicate ((3 - bytes.length % 3) % 3) pad ∧
        pad ∉ front := by
  have hne : ∀ {n : Nat}, n < 64 → ¬pad = symbol n := fun h heq => symbol_ne_pad h heq.symm
  fun_induction symbols bytes with
  | case1 => exact ⟨rfl, [], rfl, List.not_mem_nil⟩
  | case2 a =>
    have ha := a.toNat_lt
    refine ⟨by simp, [symbol (a.toNat / 4), symbol (a.toNat % 4 * 16)], rfl, ?_⟩
    simp only [List.mem_cons, List.not_mem_nil, or_false, not_or]
    exact ⟨hne (by omega), hne (by omega)⟩
  | case3 a b =>
    have ha := a.toNat_lt
    have hb := b.toNat_lt
    refine ⟨by simp, [symbol (a.toNat / 4), symbol (a.toNat % 4 * 16 + b.toNat / 16),
      symbol (b.toNat % 16 * 4)], rfl, ?_⟩
    simp only [List.mem_cons, List.not_mem_nil, or_false, not_or]
    exact ⟨hne (by omega), hne (by omega), hne (by omega)⟩
  | case4 a b c rest ih =>
    have ha := a.toNat_lt
    have hb := b.toNat_lt
    have hc := c.toNat_lt
    obtain ⟨hlength, front, hfront, hpad⟩ := ih
    have hcount : (3 - (a :: b :: c :: rest).length % 3) % 3 = (3 - rest.length % 3) % 3 := by
      simp only [List.length_cons]
      omega
    refine ⟨?_, symbol (a.toNat / 4) :: symbol (a.toNat % 4 * 16 + b.toNat / 16) ::
      symbol (b.toNat % 16 * 4 + c.toNat / 64) :: symbol (c.toNat % 64) :: front, ?_, ?_⟩
    · simp only [List.length_cons, hlength]
      omega
    · rw [hcount, hfront]
      rfl
    · simp only [List.mem_cons, not_or]
      exact ⟨hne (by omega), hne (by omega), hne (by omega), hne (by omega), hpad⟩

theorem encode_padded (bytes : Bytes) :
    (encode bytes).length = (bytes.length + 2) / 3 * 4 ∧
      ∃ front, (encode bytes).toList =
        front ++ List.replicate ((3 - bytes.length % 3) % 3) '=' ∧ '=' ∉ front := by
  obtain ⟨hlength, front, hfront, hpad⟩ := symbols_padded bytes
  have hchars : ∀ b : UInt8, Char.ofNat b.toNat = '=' → b = pad :=
    forall_byte (P := fun b => Char.ofNat b.toNat = '=' → b = pad) (by decide +kernel)
  refine ⟨?_, front.map fun b => Char.ofNat b.toNat, ?_, fun hmem => hpad ?_⟩
  · rw [encode, Text.ofAscii, String.length_ofList, List.length_map, hlength]
  · rw [encode, Text.toList_ofAscii, hfront, List.map_append, List.map_replicate]
    rfl
  · obtain ⟨b, hb, heq⟩ := List.mem_map.mp hmem
    exact hchars b heq ▸ hb

end Base64

/-! ### Fields and arguments -/

open Schema

theorem Request.get?_data (path : String) (data : Bytes) (height : Option Int64) (prove : Bool) :
    (Request.abciQuery path data height prove).params.get? "data" =
      some (.string (Hex.encode data)) := by
  refine (Json.get?_ofMembers ?_ "data").trans rfl
  cases height <;> simp [Json.OneEach, heightParam]

/-- **Binary texts are canonical.**

* In base64 a byte string has the one text that it is written as, so that two texts never stand for
  the same bytes.  This text fills its last group of four up with padding.
* In hexadecimal it has the texts that are, in lower case, the one that it is written as.  The data
  of a query are sent as this one. -/
theorem binary_texts_canonical :
    (∀ (s : String) (bytes : Bytes),
      Scalar.readBase64 s = .ok bytes ↔ s = Base64.encode bytes) ∧
    (∀ (s s' : String) (bytes : Bytes), s ≠ s' →
      Scalar.readBase64 s = .ok bytes → Scalar.readBase64 s' ≠ .ok bytes) ∧
    (∀ bytes : Bytes, (Base64.encode bytes).length = (bytes.length + 2) / 3 * 4 ∧
      ∃ front, (Base64.encode bytes).toList =
        front ++ List.replicate ((3 - bytes.length % 3) % 3) '=' ∧ '=' ∉ front) ∧
    (∀ (path : String) (data : Bytes) (height : Option Int64) (prove : Bool),
      (Request.abciQuery path data height prove).params.get? "data" =
          some (.string (Hex.encode data)) ∧
        (Hex.encode data).toLower = Hex.encode data ∧
        Scalar.readHex (Hex.encode data) = .ok data) ∧
    ∀ (s : String) (bytes : Bytes),
      Scalar.readHex s = .ok bytes ↔ s.toLower = Hex.encode bytes := by
  have hbase64 : ∀ (s : String) (bytes : Bytes),
      Scalar.readBase64 s = .ok bytes ↔ s = Base64.encode bytes := fun s bytes =>
    mapError_eq_ok.trans Base64.decode_eq_ok
  have hhex : ∀ (s : String) (bytes : Bytes),
      Scalar.readHex s = .ok bytes ↔ s.toLower = Hex.encode bytes := fun s bytes =>
    mapError_eq_ok.trans Hex.decode_eq_ok
  refine ⟨hbase64, fun s s' bytes hne hs hs' => hne ?_, Base64.encode_padded,
    fun path data height prove => ?_, hhex⟩
  · exact ((hbase64 s bytes).mp hs).trans ((hbase64 s' bytes).mp hs').symm
  · have hread : Scalar.readHex (Hex.encode data) = .ok data :=
      mapError_eq_ok.mpr (Hex.decode_encode data)
    exact ⟨Request.get?_data path data height prove, (hhex _ _).mp hread, hread⟩

/-- Texts with a bit set that is not used, or without padding, stand for nothing; the byte has its
text. -/
theorem one_byte_in_base64 :
    Scalar.readBase64 "AQ==" = .ok [1] ∧ Scalar.readBase64 "AR==" ≠ .ok [1] ∧
      Scalar.readBase64 "AQ" ≠ .ok [1] := by
  obtain ⟨-, hdistinct, -⟩ := binary_texts_canonical
  have hread : Scalar.readBase64 "AQ==" = .ok [1] := rfl
  exact ⟨hread, hdistinct "AQ==" "AR==" [1] (by decide) hread,
    hdistinct "AQ==" "AQ" [1] (by decide) hread⟩

end NodeClient
