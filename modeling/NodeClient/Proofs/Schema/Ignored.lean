import NodeClient.Proofs.Schema.Records
import Mathlib.Logic.Relation

/-!
# Ignored members — what a payload may hold besides

A record takes no notice of members under keys that it does not declare, nor of those that are
`null`.  `Format.Drops f v w` says that `w` is the payload `v` without one such member, of a record
anywhere in it: in items of lists, in members, or in the fields of a record that is written as an
array.  `Format.Alike` is any number of such changes, in both directions.

The first stage of decoding makes one and the same value of both payloads, or finds the same wrong
with them (`Drops.conform_eq`), so that the second stage does not see the difference.

* `Alike.decode_eq`: payloads that are alike are decoded alike, and fail alike.
-/

namespace NodeClient
namespace Schema

open Json (lookup)

/-! ### Fields by their formats -/

/-- The field under a key has this format. -/
inductive Fields.At : {α γ : Type} → Fields α → String → Format γ → Prop where
  | last {α β γ : Type} {before : Fields (β → α)} {key : String} {presence : Presence γ β}
      {format : Format γ} : Fields.At (.field before key presence format) key format
  | field {α β γ δ : Type} {before : Fields (β → α)} {key k : String} {presence : Presence γ β}
      {format : Format γ} {f : Format δ} (hne : k ≠ key) (h : before.At k f) :
      Fields.At (.field before key presence format) k f
  | seek {α δ : Type} {before : Fields α} {path : List String} {label k : String} {f : Format δ}
      (h : before.At k f) : Fields.At (.seek before path label) k f

theorem Fields.At.conformField {α γ : Type} {F : Fields α} {k : String} {f : Format γ}
    (h : F.At k f) (source : Source) (v : Json) : F.conformField source k v = f.fill source v := by
  induction h with
  | last => rw [Fields.conformField_field, if_pos rfl]
  | field hne _ ih => rw [Fields.conformField_field, if_neg hne, ih]
  | seek _ ih => exact ih

theorem Fields.conformField_of_not_mem {α : Type} {k : String} (source : Source) (v : Json) :
    (F : Fields α) → k ∉ F.keys → F.conformField source k v = .ok none
  | .build _, _ => rfl
  | .seek before _ _, h => before.conformField_of_not_mem source v h
  | .field before key _ _, h => by
    have hne : k ≠ key := List.ne_of_not_mem_cons h
    rw [conformField_field, if_neg hne]
    exact before.conformField_of_not_mem source v (List.not_mem_of_not_mem_cons h)

theorem Fields.conformField_null {α : Type} (k : String) (source : Source) :
    (F : Fields α) → F.conformField source k .null = .ok none
  | .build _ => rfl
  | .seek before _ _ => before.conformField_null k source
  | .field before key _ format => by
    rw [conformField_field, before.conformField_null k source]
    exact ite_self _

/-! ### Payloads without one member -/

/-- The second payload is the first without one member that does not count. -/
inductive Format.Drops : {α : Type} → Format α → Json → Json → Prop where
  | list {α : Type} {item : Format α} (before after : List Json) {v w : Json}
      (h : item.Drops v w) :
      Format.Drops (.list item) (.array (before ++ v :: after)) (.array (before ++ w :: after))
  | nullable {α : Type} {item : Format α} {v w : Json} (h : item.Drops v w) :
      Format.Drops (.nullable item) v w
  | refine {α β : Type} {base : Format α} {narrow : α → Except DecodeError β} {v w : Json}
      (h : base.Drops v w) : Format.Drops (.refine base narrow) v w
  /-- A key that the record does not declare. -/
  | unknown {α : Type} {layout : Layout} {fields : Fields α} (before after : List (String × Json))
      {key : String} {v : Json} (hkey : key ∉ fields.keys) :
      Format.Drops (.record layout fields) (.object (before ++ (key, v) :: after))
        (.object (before ++ after))
  | null {α : Type} {layout : Layout} {fields : Fields α} (before after : List (String × Json))
      {key : String} :
      Format.Drops (.record layout fields) (.object (before ++ (key, .null) :: after))
        (.object (before ++ after))
  /-- A member of what stands under a key. -/
  | member {α γ : Type} {layout : Layout} {fields : Fields α} (before after : List (String × Json))
      {key : String} {f : Format γ} {v w : Json} (hkey : fields.At key f) (h : f.Drops v w) :
      Format.Drops (.record layout fields) (.object (before ++ (key, v) :: after))
        (.object (before ++ (key, w) :: after))
  /-- A member of what stands at a place of a record that is written as an array. -/
  | place {α γ : Type} {name : String} {keys : List String} {fields : Fields α}
      (before after : List Json) {key : String} {f : Format γ} {v w : Json}
      (hplace : keys[before.length]? = some key) (hkey : fields.At key f) (h : f.Drops v w) :
      Format.Drops (.record (.plain name keys) fields) (.array (before ++ v :: after))
        (.array (before ++ w :: after))

/-- Two payloads that differ in members that do not count. -/
def Format.Alike {α : Type} (f : Format α) : Json → Json → Prop :=
  Relation.EqvGen f.Drops

theorem Format.Drops.not_null {α : Type} {f : Format α} {v w : Json} (h : f.Drops v w) :
    v ≠ .null ∧ w ≠ .null := by
  induction h with
  | nullable _ ih | refine _ ih => exact ih
  | list | unknown | null | member | place => exact ⟨nofun, nofun⟩

/-! ### Lists and members that differ in one place -/

theorem conformItems_congr {check : Json → Except Mismatch Json} {v w : Json}
    (h : check v = check w) (before after : List Json) :
    conformItems check (before ++ v :: after) = conformItems check (before ++ w :: after) := by
  induction before with
  | nil => simp only [List.nil_append, conformItems, h]
  | cons x rest ih => simp only [List.cons_append, conformItems, ih]

section Members

variable {check : String → Json → Except Mismatch (Option Json)} {key : String} {v w : Json}

theorem conformMembers_congr (h : check key v = check key w) (before after : List (String × Json)) :
    conformMembers check (before ++ (key, v) :: after) =
      conformMembers check (before ++ (key, w) :: after) := by
  induction before with
  | nil => simp only [List.nil_append, conformMembers, h]
  | cons m rest ih => simp only [List.cons_append, conformMembers, ih]

theorem conformMembers_skip (h : check key v = .ok none) (before after : List (String × Json)) :
    conformMembers check (before ++ (key, v) :: after) =
      conformMembers check (before ++ after) := by
  induction before with
  | nil =>
    simp only [List.nil_append, conformMembers, h]
    cases conformMembers check after <;> rfl
  | cons m rest ih => simp only [List.cons_append, conformMembers, ih]

theorem conformMembers_zip_congr {before : List Json} {keys : List String}
    (hplace : keys[before.length]? = some key) (h : check key v = check key w) (after : List Json) :
    conformMembers check (keys.zip (before ++ v :: after)) =
      conformMembers check (keys.zip (before ++ w :: after)) := by
  induction before generalizing keys with
  | nil =>
    cases keys with
    | nil => rfl
    | cons k rest =>
      obtain rfl : k = key := by simpa using hplace
      simp only [List.nil_append, List.zip_cons_cons, conformMembers, h]
  | cons x before ih =>
    cases keys with
    | nil => rfl
    | cons k rest =>
      have hrest : rest[before.length]? = some key := by simpa using hplace
      simp only [List.cons_append, List.zip_cons_cons, conformMembers, ih hrest]

end Members

/-! ### Records that differ in one member -/

theorem Fields.At.conformField_congr {α γ : Type} {F : Fields α} {key : String} {f : Format γ}
    {source : Source} {v w : Json} (hkey : F.At key f) (hv : v ≠ .null) (hw : w ≠ .null)
    (h : f.conform source v = f.conform source w) :
    F.conformField source key v = F.conformField source key w := by
  rw [hkey.conformField, hkey.conformField, Format.fill_of_ne_null hv, Format.fill_of_ne_null hw, h]

section Record

variable {α : Type} {layout : Layout} {fields : Fields α} {source : Source} {key : String}
  {v w : Json} {before after : List (String × Json)}

/-- Objects are read as one record if every check of some of their members agrees on them. -/
theorem conform_record_congr {M N : List (String × Json)}
    (h : ∀ (p : String → Bool) (source : Source),
      conformMembers (fields.conformField source) (M.filter fun m => p m.1) =
        conformMembers (fields.conformField source) (N.filter fun m => p m.1)) :
    (Format.record layout fields).conform source (.object M) =
      (Format.record layout fields).conform source (.object N) := by
  cases layout with
  | plain name keys =>
    have hall : ∀ L : List (String × Json), (L.filter fun _ => true) = L := fun L => by simp
    have hboth := h (fun _ => true) source
    rw [hall, hall] at hboth
    simp only [Format.conform, hboth]
  | merged name own part => simp only [Format.conform, h own.contains, h part.contains]

theorem conform_record_skip (h : ∀ source, fields.conformField source key v = .ok none) :
    (Format.record layout fields).conform source (.object (before ++ (key, v) :: after)) =
      (Format.record layout fields).conform source (.object (before ++ after)) := by
  refine conform_record_congr fun p source => ?_
  rw [List.filter_append, List.filter_append, List.filter_cons]
  split
  · exact conformMembers_skip (h source) _ _
  · rfl

theorem conform_record_member
    (h : ∀ source, fields.conformField source key v = fields.conformField source key w) :
    (Format.record layout fields).conform source (.object (before ++ (key, v) :: after)) =
      (Format.record layout fields).conform source (.object (before ++ (key, w) :: after)) := by
  refine conform_record_congr fun p source => ?_
  rw [List.filter_append, List.filter_append, List.filter_cons, List.filter_cons]
  split
  · exact conformMembers_congr (h source) _ _
  · rfl

end Record

/-! ### Decoding -/

section Decoding

variable {α : Type} {f : Format α} {v w : Json}

/-- The first stage makes the same of both payloads. -/
theorem Format.Drops.conform_eq (h : f.Drops v w) (source : Source) :
    f.conform source v = f.conform source w := by
  induction h generalizing source with
  | list _ _ _ ih => simp only [Format.conform, conformItems_congr (ih source)]
  | nullable h ih =>
    obtain ⟨hv, hw⟩ := h.not_null
    rw [nullable_conform hv, nullable_conform hw, ih]
  | refine _ ih => exact ih source
  | unknown _ _ hkey => exact conform_record_skip fun _ => Fields.conformField_of_not_mem _ _ _ hkey
  | null => exact conform_record_skip fun _ => Fields.conformField_null _ _ _
  | member _ _ hkey h ih =>
    obtain ⟨hv, hw⟩ := h.not_null
    exact conform_record_member fun source => hkey.conformField_congr hv hw (ih source)
  | @place _ _ name keys fields before after _ _ v w hplace hkey h ih =>
    obtain ⟨hv, hw⟩ := h.not_null
    have hmembers := conformMembers_zip_congr hplace
      (hkey.conformField_congr hv hw (ih source)) after
    have hlength : (before ++ v :: after).length = (before ++ w :: after).length := by simp
    simp only [Format.conform, conformArray, hmembers, hlength]

theorem Format.Drops.decode_eq (h : f.Drops v w) : f.decode v = f.decode w := by
  rw [Format.decode, Format.decode, h.conform_eq]

/-- Payloads that are alike stand for the same, and the same is wrong with them. -/
theorem Format.Alike.decode_eq (h : f.Alike v w) : f.decode v = f.decode w := by
  induction h with
  | rel _ _ h => exact h.decode_eq
  | refl _ => rfl
  | symm _ _ _ ih => exact ih.symm
  | trans _ _ _ _ _ ih₁ ih₂ => exact ih₁.trans ih₂

end Decoding

end Schema
end NodeClient
