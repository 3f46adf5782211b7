import NodeClient.Proofs.Encoding.Canonical
import NodeClient.Proofs.Schema.Parts

/-!
# Fullness — fields that must not be empty are not empty in values

A field that must not be empty is checked as it stands in a payload, as a text.  `Format.Full` says
the same of the value: no such field, in any record and at any place of a list, is the empty text or
no bytes.  What lies between is that only the empty text stands for no bytes.

* `Hex.decode_eq_nil`, `Base64.decode_eq_nil`: the texts that stand for no bytes.
* `Format.full_of_decode`: what is decoded is full, by induction on the format.
* `Fields.Full.elim`: a property of a record follows from what its fields give.
-/

namespace NodeClient

/-! ### Texts that stand for no bytes -/

theorem Hex.decode_eq_nil {s : String} : Hex.decode s = .ok [] ↔ s = "" := by
  have hempty : Hex.encode [] = "" := rfl
  rw [Hex.decode_eq_ok, hempty, ← String.toList_inj, Text.toList_toLower, ← String.toList_inj]
  exact List.map_eq_nil_iff

theorem Base64.decode_eq_nil {s : String} : Base64.decode s = .ok [] ↔ s = "" :=
  Base64.decode_eq_ok

namespace Schema

open Json (lookup)

/-! ### Full values -/

/-- The value of a scalar is not empty, if it is of a kind that can be. -/
def Format.Filled {α : Type} : Format α → α → Prop
  | .scalar .text, s => s ≠ ""
  | .scalar .hex, bytes | .scalar .base64, bytes => bytes ≠ []
  | _, _ => True

/-- What a field gives is full, and not empty if the field must not be empty. -/
def Presence.Full {γ β : Type} (presence : Presence γ β) (format : Format γ) (full : γ → Prop)
    (b : β) : Prop :=
  match presence, b with
  | .required _, c | .default _, c => full c
  | .nonempty _, c => full c ∧ format.Filled c
  | .optional, found => ∀ c ∈ found, full c

mutual

/-- No field that must not be empty is empty in a value, or in a part of it. -/
def Format.Full {α : Type} : Format α → α → Prop
  | .scalar _, _ => True
  | .list item, as => ∀ a ∈ as, item.Full a
  | .nullable item, found => ∀ c ∈ found, item.Full c
  | .refine base narrow, b => ∃ a, base.Full a ∧ narrow a = .ok b
  | .record _ fields, a => fields.Full a

/-- The value of a record is built of what its fields give. -/
def Fields.Full {α : Type} : Fields α → α → Prop
  | .build make, a => make = a
  | .seek before _ _, a => before.Full a
  | .field before _ presence format, a =>
    ∃ make b, before.Full make ∧ presence.Full format (fun c => format.Full c) b ∧ make b = a

end

/-- A value of the fields has this property, whatever they give, as long as this is full. -/
def Fields.Grants : {α : Type} → Fields α → (α → Prop) → Prop
  | _, .build make, P => P make
  | _, .seek before _ _, P => before.Grants P
  | _, .field before _ presence format, P =>
    before.Grants fun make => ∀ b, presence.Full format format.Full b → P (make b)

theorem Fields.Full.elim {α : Type} : {F : Fields α} → {P : α → Prop} → {a : α} → F.Full a →
    F.Grants P → P a
  | .build _, _, _, h, hP => h ▸ hP
  | .seek before _ _, _, _, h, hP => Fields.Full.elim (F := before) h hP
  | .field before _ _ _, _, _, h, hP => by
    obtain ⟨make, b, hmake, hb, rfl⟩ := h
    exact Fields.Full.elim (F := before) hmake hP b hb

/-! ### What is read is full -/

theorem asText_eq_ok {v : Json} {s : String} : asText v = .ok s ↔ v = .string s := by
  cases v <;> simp [asText]

/-- A text that is not empty is not read as an empty value. -/
theorem Format.filled_of_read {γ : Type} {format : Format γ} {v : Json} {c : γ}
    (hv : v ≠ .string "") (h : format.read v = .ok c) : format.Filled c := by
  cases format with
  | scalar scalar =>
    cases scalar with
    | text =>
      rintro rfl
      exact hv (asText_eq_ok.mp (mapError_eq_ok.mp h))
    | hex =>
      rintro rfl
      obtain ⟨s, hs, hread⟩ := bind_eq_ok.mp h
      obtain rfl := asText_eq_ok.mp (mapError_eq_ok.mp hs)
      exact hv (congrArg Json.string (Hex.decode_eq_nil.mp (mapError_eq_ok.mp hread)))
    | base64 =>
      rintro rfl
      obtain ⟨s, hs, hread⟩ := bind_eq_ok.mp h
      obtain rfl := asText_eq_ok.mp (mapError_eq_ok.mp hs)
      exact hv (congrArg Json.string (Base64.decode_eq_nil.mp (mapError_eq_ok.mp hread)))
    | _ => trivial
  | _ => trivial

/-- A blank value has no parts, and so none that are empty. -/
theorem Format.full_of_isBlank {γ : Type} {format : Format γ} {c : γ}
    (h : format.isBlank c = true) : format.Full c := by
  cases format with
  | scalar => trivial
  | list item =>
    obtain rfl : c = [] := List.isEmpty_iff.mp h
    nofun
  | _ => cases h

theorem Presence.full_of_read {β γ : Type} {presence : Presence γ β} {format : Format γ}
    {found : Option Json} {b : β} (hsound : presence.isSound format = true)
    (hformat : ∀ v c, format.read v = .ok c → format.Full c)
    (h : presence.read format.read found = .ok b) : presence.Full format format.Full b := by
  cases presence with
  | required =>
    cases found with
    | none => cases h
    | some v => exact hformat v b h
  | nonempty =>
    cases found with
    | none => cases h
    | some v =>
      by_cases hv : v = .string ""
      · subst hv
        cases h
      · rw [Presence.read_some _ _ hv] at h
        obtain ⟨c, hc, rfl⟩ := map_eq_ok.mp h
        exact ⟨hformat v c hc, format.filled_of_read hv hc⟩
  | optional =>
    cases found with
    | none =>
      obtain rfl := Except.ok.inj h
      nofun
    | some v =>
      obtain ⟨c, hc, rfl⟩ := map_eq_ok.mp h
      rintro _ ⟨⟩
      exact hformat v c hc
  | default value =>
    cases found with
    | none =>
      obtain rfl := Except.ok.inj h
      exact format.full_of_isBlank hsound
    | some v => exact hformat v b h

theorem full_of_readItems {α : Type} {read : Json → Except DecodeError α} {P : α → Prop}
    (hitem : ∀ v a, read v = .ok a → P a) {items : List Json} {as : List α}
    (h : readItems read items = .ok as) : ∀ a ∈ as, P a := by
  induction items generalizing as with
  | nil =>
    obtain rfl := Except.ok.inj h
    nofun
  | cons v rest ih =>
    obtain ⟨a, tail, ha, htail, rfl⟩ := readItems_cons.mp h
    exact List.forall_mem_cons.mpr ⟨hitem v a ha, ih htail⟩

mutual

/-- **What is read is full**, at any depth. -/
theorem Format.full_of_read {α : Type} : (f : Format α) → f.isSound = true → {w : Json} → {a : α} →
    f.read w = .ok a → f.Full a
  | .scalar _, _, _, _, _ => trivial
  | .list item, hsound, w, _, h => by
    cases w with
    | array items => exact full_of_readItems (fun _ _ => item.full_of_read hsound) h
    | _ => cases h
  | .nullable item, hsound, w, _, h => by
    by_cases hw : w = .null
    · subst hw
      obtain rfl := Except.ok.inj h
      nofun
    · rw [nullable_read hw] at h
      obtain ⟨c, hc, rfl⟩ := map_eq_ok.mp h
      rintro _ ⟨⟩
      exact item.full_of_read hsound hc
  | .refine base narrow, hsound, _, b, h => by
    obtain ⟨a, ha, hb⟩ := bind_eq_ok.mp h
    cases base with
    | scalar => exact ⟨a, trivial, hb⟩
    | _ => cases hsound
  | .record _ fields, hsound, w, _, h => by
    simp only [Format.isSound, Bool.and_eq_true] at hsound
    cases w with
    | object W => exact fields.full_of_read hsound.2 h
    | _ => cases h

theorem Fields.full_of_read {α : Type} : (F : Fields α) → F.isSound = true →
    {W : List (String × Json)} → {a : α} → F.read W = .ok a → F.Full a
  | .build _, _, _, _, h => Except.ok.inj h
  | .seek before _ _, hsound, _, _, h => before.full_of_read hsound (Fields.read_seek.mp h).1
  | .field before key presence format, hsound, _, _, h => by
    simp only [Fields.isSound, Bool.and_eq_true] at hsound
    obtain ⟨⟨hbefore, hpresence⟩, hformat⟩ := hsound
    obtain ⟨make, b, hmake, hb, rfl⟩ := Fields.read_field.mp h
    have hfull := presence.full_of_read hpresence (fun _ _ => format.full_of_read hformat) hb
    exact ⟨make, b, before.full_of_read hbefore hmake, hfull, rfl⟩

end

/-- **What is decoded is full.** -/
theorem Format.full_of_decode {α : Type} {f : Format α} (hsound : f.isSound = true) {v : Json}
    {a : α} (h : f.decode v = .ok a) : f.Full a := by
  obtain ⟨w, -, hread⟩ := decode_eq_ok.mp h
  exact f.full_of_read hsound hread

end Schema
end NodeClient
