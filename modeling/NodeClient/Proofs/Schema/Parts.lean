import NodeClient.Proofs.Schema.Forgetting
import NodeClient.Proofs.Schema.Ignored

/-!
# Parts — one field of a record, in payloads and in values

A record may be given as an object or as an array of its fields.  `Layout.look` finds what stands
under a key in either, and tells the payloads that have something else there.  `Fields.Shows` says
which part of a value comes from a field.

* `record_conform`: the first stage of decoding, of all payloads that differ in one field only.
* `record_gives`: what a field gives to the value of a record.
-/

namespace NodeClient
namespace Schema

open Json (lookup OneEach)

/-! ### Fields in values -/

/-- What a field holds of what its format reads. -/
def Presence.content {γ β : Type} : Presence γ β → β → Option γ
  | .required _, c | .nonempty _, c | .default _, c => some c
  | .optional, c => c

theorem Presence.content_wrap {γ β : Type} (presence : Presence γ β) (c : γ) :
    presence.content (presence.wrap c) = some c := by
  cases presence <;> rfl

/-- Whatever the fields are given, their value has this property. -/
def Fields.Every : {α : Type} → Fields α → (α → Prop) → Prop
  | _, .build make, P => P make
  | _, .seek before _ _, P => before.Every P
  | _, .field before _ _ _, P => before.Every fun make => ∀ b, P (make b)

theorem Fields.Every.of_read {α : Type} {W : List (String × Json)} : {F : Fields α} →
    {P : α → Prop} → F.Every P → {a : α} → F.read W = .ok a → P a
  | .build _, _, h, _, hread => Except.ok.inj hread ▸ h
  | .seek before _ _, _, h, _, hread => Every.of_read (F := before) h (Fields.read_seek.mp hread).1
  | .field before _ _ _, _, h, _, hread => by
    obtain ⟨make, b, hmake, -, rfl⟩ := Fields.read_field.mp hread
    exact Every.of_read (F := before) h hmake b

/-- The field under a key, and what its value `b` has to do with the value of all fields. -/
inductive Fields.Shows {β γ : Type} (key : String) (presence : Presence γ β) (format : Format γ) :
    {α : Type} → Fields α → (α → β → Prop) → Prop where
  | last {α : Type} {before : Fields (β → α)} {R : α → β → Prop}
      (h : before.Every fun make => ∀ b, R (make b) b) :
      Fields.Shows key presence format (.field before key presence format) R
  | field {α β' γ' : Type} {before : Fields (β' → α)} {k : String} {presence' : Presence γ' β'}
      {format' : Format γ'} {R : α → β → Prop} (hne : key ≠ k)
      (h : before.Shows key presence format fun make b => ∀ d, R (make d) b) :
      Fields.Shows key presence format (.field before k presence' format') R
  | seek {α : Type} {before : Fields α} {path : List String} {label : String} {R : α → β → Prop}
      (h : before.Shows key presence format R) :
      Fields.Shows key presence format (.seek before path label) R

section Shows

variable {α β γ : Type} {key : String} {presence : Presence γ β} {format : Format γ}
  {F : Fields α} {R : α → β → Prop}

theorem Fields.Shows.at (h : F.Shows key presence format R) : F.At key format := by
  induction h with
  | last => exact .last
  | field hne _ ih => exact .field hne ih
  | seek _ ih => exact .seek ih

theorem Fields.At.mem_keys (h : F.At key format) : key ∈ F.keys := by
  induction h with
  | last => exact .head _
  | field _ _ ih => exact .tail _ ih
  | seek _ ih => exact ih

/-- The value of a record is related to what its field gave. -/
theorem Fields.Shows.reads (h : F.Shows key presence format R) {W : List (String × Json)} {a : α}
    (ha : F.read W = .ok a) :
    ∃ b, presence.read format.read (lookup key W) = .ok b ∧ R a b := by
  induction h with
  | last h =>
    obtain ⟨make, b, hmake, hb, rfl⟩ := Fields.read_field.mp ha
    exact ⟨b, hb, h.of_read hmake b⟩
  | field _ _ ih =>
    obtain ⟨make, d, hmake, -, rfl⟩ := Fields.read_field.mp ha
    obtain ⟨b, hb, hR⟩ := ih hmake
    exact ⟨b, hb, hR d⟩
  | seek _ ih => exact ih (Fields.read_seek.mp ha).1

end Shows

/-! ### Fields in payloads -/

/-- What stands under a key of a record, and the record with something else there. -/
def Layout.look (layout : Layout) (key : String) : Json → Option (Json × (Json → Json))
  | .object members =>
    (lookup key members).map fun v =>
      (v, fun u => .object (members.map fun m => if m.1 = key then (m.1, u) else m))
  | .array items =>
    (items[layout.keys.idxOf key]?).map fun v =>
      (v, fun u => .array (items.set (layout.keys.idxOf key) u))
  | _ => none

/-- Members with one more under a key, if there is something to stand there. -/
def withMember (before after : List (String × Json)) (key : String) (kept : Option Json) :
    List (String × Json) :=
  before ++ ((kept.map (key, ·)).toList ++ after)

theorem lookup_withMember {before after : List (String × Json)} {key : String}
    (hbefore : lookup key before = none) (hafter : lookup key after = none) (kept : Option Json) :
    lookup key (withMember before after key kept) = kept := by
  rw [withMember, Json.lookup_append, Json.lookup_append, hbefore, hafter]
  cases kept with
  | none => rfl
  | some w =>
    show (lookup key [(key, w)]).or none = some w
    rw [Json.lookup_cons, if_pos rfl]
    rfl

theorem lookup_withMember_of_ne {before after : List (String × Json)} {key k : String}
    (hne : key ≠ k) (kept kept' : Option Json) :
    lookup k (withMember before after key kept) = lookup k (withMember before after key kept') := by
  have hkept : ∀ kept : Option Json, lookup k (kept.map (key, ·)).toList = none := fun kept => by
    cases kept with
    | none => rfl
    | some w => exact if_neg hne
  simp only [withMember, Json.lookup_append, hkept]

/-- The only member with a key, among the others. -/
theorem exists_split {key : String} {M : List (String × Json)} {v : Json} (hone : OneEach M)
    (h : lookup key M = some v) : ∃ before after, M = before ++ (key, v) :: after ∧
      lookup key before = none ∧ lookup key after = none := by
  obtain ⟨before, after, rfl⟩ := List.append_of_mem (Json.mem_of_lookup h)
  have hkeys : ((before ++ (key, v) :: after).map (·.1)).Nodup := hone
  rw [List.map_append, List.map_cons, List.nodup_append] at hkeys
  obtain ⟨-, hlast, hapart⟩ := hkeys
  refine ⟨before, after, rfl, Json.lookup_eq_none.mpr fun m hm heq => ?_,
    Json.lookup_eq_none.mpr fun m hm heq => ?_⟩
  · exact hapart m.1 (List.mem_map_of_mem hm) key (.head _) heq
  · exact (List.nodup_cons.mp hlast).1 (List.mem_map.mpr ⟨m, hm, heq⟩)

section Members

variable {check : String → Json → Except Mismatch (Option Json)} {key : String}
  {before after W : List (String × Json)}

/-- The first stage, of members that differ in one of them only. -/
theorem conformMembers_split {u : Json} (hbefore : lookup key before = none)
    (hafter : lookup key after = none)
    (h : conformMembers check (before ++ (key, u) :: after) = .ok W) :
    ∃ before' after', lookup key before' = none ∧ lookup key after' = none ∧
      ∀ u, conformMembers check (before ++ (key, u) :: after) =
        (check key u).map (withMember before' after' key) := by
  induction before generalizing W with
  | nil =>
    obtain ⟨kept, tail, -, htail, -⟩ := conformMembers_cons.mp h
    refine ⟨[], tail, rfl, lookup_of_not_mem htail hafter, fun u => ?_⟩
    rw [List.nil_append, conformMembers, htail]
    rcases check key u with e | _ | w <;> rfl
  | cons m rest ih =>
    obtain ⟨k, v⟩ := m
    obtain ⟨hne, hrest⟩ : k ≠ key ∧ lookup key rest = none := by
      rw [Json.lookup_cons] at hbefore
      split at hbefore
      · cases hbefore
      · next hne => exact ⟨hne, hbefore⟩
    obtain ⟨kept, tail, hkept, htail, -⟩ := conformMembers_cons.mp h
    obtain ⟨before', after', hnone, hafter', hall⟩ := ih hrest htail
    refine ⟨(kept.map (k, ·)).toList ++ before', after', ?_, hafter', fun u => ?_⟩
    · rw [Json.lookup_append, hnone]
      cases kept with
      | none => rfl
      | some w => exact congrArg (Option.or · none) (if_neg hne)
    · rw [List.cons_append, conformMembers, hkept, hall u]
      rcases check key u with e | kept' <;> cases kept <;> rfl

/-- The same of the members with some keys, if this key is one of them. -/
theorem conformMembers_selected {p : String → Bool} (hp : p key = true) {u : Json}
    (hbefore : lookup key before = none) (hafter : lookup key after = none)
    (h : conformMembers check ((before ++ (key, u) :: after).filter fun m => p m.1) = .ok W) :
    ∃ before' after', lookup key before' = none ∧ lookup key after' = none ∧
      ∀ u, conformMembers check ((before ++ (key, u) :: after).filter fun m => p m.1) =
        (check key u).map (withMember before' after' key) := by
  have hselect : ∀ u, (before ++ (key, u) :: after).filter (fun m => p m.1) =
      before.filter (fun m => p m.1) ++ (key, u) :: after.filter fun m => p m.1 := fun u => by
    rw [List.filter_append, List.filter_cons, if_pos hp]
  simp only [hselect] at h ⊢
  refine conformMembers_split ?_ ?_ h
  · rw [Json.lookup_filter p, hbefore, ite_self]
  · rw [Json.lookup_filter p, hafter, ite_self]

end Members

theorem set_split {before after : List (String × Json)} {key : String}
    (hbefore : lookup key before = none) (hafter : lookup key after = none) (v u : Json) :
    ((before ++ (key, v) :: after).map fun m => if m.1 = key then (m.1, u) else m) =
      before ++ (key, u) :: after := by
  have hsame : ∀ M : List (String × Json), lookup key M = none →
      (M.map fun m => if m.1 = key then (m.1, u) else m) = M := fun M hM => by
    refine (List.map_congr_left fun m hm => ?_).trans (List.map_id M)
    exact if_neg (Json.lookup_eq_none.mp hM m hm)
  rw [List.map_append, List.map_cons, if_pos rfl, hsame before hbefore, hsame after hafter]

section Record

variable {α γ : Type} {layout : Layout} {fields : Fields α} {key : String} {format : Format γ}
  {source : Source}

theorem object_conform {before after : List (String × Json)} (hbefore : lookup key before = none)
    (hafter : lookup key after = none) (hkey : key ∈ layout.keys) (hnames : layout.keys.Nodup)
    {u w : Json} (h : (Format.record layout fields).conform source
      (.object (before ++ (key, u) :: after)) = .ok w) :
    ∃ source' before' after', lookup key before' = none ∧ lookup key after' = none ∧
      ∀ u, (Format.record layout fields).conform source (.object (before ++ (key, u) :: after)) =
        (fields.conformField source' key u).map
          fun kept => .object (withMember before' after' key kept) := by
  cases layout with
  | plain name keys =>
    obtain ⟨W, hW, -⟩ := map_eq_ok.mp h
    obtain ⟨before', after', hnone, hnone', hall⟩ := conformMembers_split hbefore hafter hW
    refine ⟨source, before', after', hnone, hnone', fun u => ?_⟩
    rw [Format.conform, hall u]
    cases fields.conformField source key u <;> rfl
  | merged name own part =>
    -- the key is one of the record's own members, or one of its part, and not both
    have hunselected : ∀ {p : String → Bool}, p key = false → ∀ u u' : Json,
        (before ++ (key, u) :: after).filter (fun m => p m.1) =
            (before ++ (key, u') :: after).filter (fun m => p m.1) ∧
          lookup key ((before ++ (key, u) :: after).filter fun m => p m.1) = none :=
      fun {p} hp u u' => by
        have hskip : ¬p key = true := Bool.eq_false_iff.mp hp
        rw [Json.lookup_filter p, if_neg hskip]
        simp only [List.filter_append, List.filter_cons, if_neg hskip, and_self]
    obtain ⟨mine, hmine, h⟩ := bind_eq_ok.mp h
    obtain ⟨others, hothers, -⟩ := bind_eq_ok.mp h
    obtain ⟨-, -, hapart⟩ := List.nodup_append.mp hnames
    by_cases hown : own.contains key = true
    · have hpart : part.contains key = false := Bool.eq_false_iff.mpr fun hpart =>
        hapart key (List.contains_iff_mem.mp hown) key (List.contains_iff_mem.mp hpart) rfl
      obtain ⟨before', after', hnone, hnone', hall⟩ :=
        conformMembers_selected hown hbefore hafter hmine
      refine ⟨.direct, before', after' ++ others, hnone, ?_, fun u' => ?_⟩
      · rw [Json.lookup_append, hnone', lookup_of_not_mem hothers (hunselected hpart u u).2]
        rfl
      · rw [(hunselected hpart u u').1] at hothers
        rw [Format.conform, hall u', hothers]
        rcases fields.conformField .direct key u' with e | kept
        · rfl
        · show Except.ok (Json.object (withMember before' after' key kept ++ others)) = _
          simp [withMember, Except.map]
    · have hpart : part.contains key = true := by
        rw [Layout.keys, List.mem_append] at hkey
        exact List.contains_iff_mem.mpr
          (hkey.resolve_left fun hmem => hown (List.contains_iff_mem.mpr hmem))
      rw [Bool.not_eq_true] at hown
      obtain ⟨before', after', hnone, hnone', hall⟩ :=
        conformMembers_selected hpart hbefore hafter hothers
      refine ⟨.setAside, mine ++ before', after', ?_, hnone', fun u' => ?_⟩
      · rw [Json.lookup_append, hnone, lookup_of_not_mem hmine (hunselected hown u u).2]
        rfl
      · rw [(hunselected hown u u').1] at hmine
        rw [Format.conform, hall u', hmine]
        rcases fields.conformField .setAside key u' with e | kept
        · rfl
        · show Except.ok (Json.object (mine ++ withMember before' after' key kept)) = _
          simp [withMember, Except.map]

/-- One field of a record that is given as an array. -/
theorem zip_set {keys : List String} (hnames : keys.Nodup) (hkey : key ∈ keys) {items : List Json}
    {v : Json} (hv : items[keys.idxOf key]? = some v) :
    ∃ before after, lookup key before = none ∧ lookup key after = none ∧
      ∀ u, keys.zip (items.set (keys.idxOf key) u) = before ++ (key, u) :: after := by
  induction keys generalizing items with
  | nil => cases hkey
  | cons k rest ih =>
    obtain ⟨hnot, hnames⟩ := List.nodup_cons.mp hnames
    cases items with
    | nil => cases hv
    | cons w items =>
      by_cases hk : k = key
      · subst hk
        refine ⟨[], rest.zip items, rfl, Json.lookup_eq_none.mpr fun m hm heq => ?_, fun u => ?_⟩
        · exact hnot (heq ▸ (List.of_mem_zip hm).1)
        · rw [List.idxOf_cons_self]
          rfl
      · have hindex : (k :: rest).idxOf key = rest.idxOf key + 1 := List.idxOf_cons_ne _ hk
        rw [hindex] at hv ⊢
        have hmem := (List.mem_cons.mp hkey).resolve_left fun heq => hk heq.symm
        obtain ⟨before, after, hbefore, hafter, hall⟩ := ih hnames hmem hv
        refine ⟨(k, w) :: before, after, (if_neg hk).trans hbefore, hafter, fun u => ?_⟩
        exact congrArg ((k, w) :: ·) (hall u)

theorem conformArray_eq_ok {check : String → Json → Except Mismatch (Option Json)}
    {name : String} {keys : List String} {items : List Json} {W : List (String × Json)} :
    conformArray check source name keys items = .ok W ↔
      conformMembers check (keys.zip items) = .ok W ∧ items.length = keys.length := by
  rw [conformArray, bind_eq_ok]
  constructor
  · rintro ⟨members, hmembers, h⟩
    split at h
    · cases h
    · split at h
      · cases h
      · obtain rfl := Except.ok.inj h
        exact ⟨hmembers, by omega⟩
  · rintro ⟨hmembers, hlength⟩
    refine ⟨W, hmembers, ?_⟩
    rw [if_neg (by omega), if_neg (by omega)]
    rfl

theorem array_conform {items : List Json} (hkey : key ∈ layout.keys) (hnames : layout.keys.Nodup)
    {v : Json} (hv : items[layout.keys.idxOf key]? = some v) {u w : Json}
    (h : (Format.record layout fields).conform source
      (.array (items.set (layout.keys.idxOf key) u)) = .ok w) :
    ∃ source' before' after', lookup key before' = none ∧ lookup key after' = none ∧
      ∀ u, (Format.record layout fields).conform source
          (.array (items.set (layout.keys.idxOf key) u)) =
        (fields.conformField source' key u).map
          fun kept => .object (withMember before' after' key kept) := by
  cases layout with
  | plain name keys =>
    simp only [Layout.keys] at hkey hnames hv h ⊢
    obtain ⟨before, after, hbefore, hafter, hzip⟩ := zip_set hnames hkey hv
    obtain ⟨W, hW, -⟩ := map_eq_ok.mp h
    obtain ⟨hW, hlength⟩ := conformArray_eq_ok.mp hW
    rw [hzip u] at hW
    obtain ⟨before', after', hnone, hnone', hall⟩ := conformMembers_split hbefore hafter hW
    refine ⟨source, before', after', hnone, hnone', fun u' => ?_⟩
    have hlength' : (items.set (keys.idxOf key) u').length = keys.length := by
      rw [← hlength, List.length_set, List.length_set]
    rw [Format.conform, conformArray, hzip u', hall u', hlength']
    simp only [Nat.lt_irrefl, if_false]
    rcases fields.conformField source key u' with e | kept <;> rfl
  | merged name own part => cases h

/-- What stands there already changes nothing. -/
theorem put_look {v u : Json} {put : Json → Json} (hv : v.Ordered)
    (hlook : layout.look key v = some (u, put)) : put u = v := by
  cases v with
  | object M =>
    obtain ⟨v, hv', heq⟩ := Option.map_eq_some_iff.mp hlook
    obtain ⟨rfl, rfl⟩ := Prod.mk.injEq .. ▸ heq
    obtain ⟨before, after, rfl, hbefore, hafter⟩ := exists_split hv.oneEach hv'
    exact congrArg Json.object (set_split hbefore hafter v v)
  | array items =>
    obtain ⟨v, hv', heq⟩ := Option.map_eq_some_iff.mp hlook
    obtain ⟨rfl, rfl⟩ := Prod.mk.injEq .. ▸ heq
    obtain ⟨hlength, rfl⟩ := List.getElem?_eq_some_iff.mp hv'
    exact congrArg Json.array (List.set_getElem_self hlength)
  | _ => cases hlook

/-- **The first stage of decoding, of records that differ in one field only**: whatever stands
there, the rest is brought into the same form. -/
theorem record_conform {v u u₀ w : Json} {put : Json → Json} (hv : v.Ordered)
    (hkey : key ∈ layout.keys) (hnames : layout.keys.Nodup)
    (hlook : layout.look key v = some (u, put))
    (h : (Format.record layout fields).conform source (put u₀) = .ok w) :
    ∃ source' before after, lookup key before = none ∧ lookup key after = none ∧
      ∀ u, (Format.record layout fields).conform source (put u) =
        (fields.conformField source' key u).map
          fun kept => .object (withMember before after key kept) := by
  cases v with
  | object M =>
    obtain ⟨v, hv', heq⟩ := Option.map_eq_some_iff.mp hlook
    obtain ⟨rfl, rfl⟩ := Prod.mk.injEq .. ▸ heq
    obtain ⟨before, after, rfl, hbefore, hafter⟩ := exists_split hv.oneEach hv'
    simp only [set_split hbefore hafter] at h ⊢
    exact object_conform hbefore hafter hkey hnames h
  | array items =>
    obtain ⟨v, hv', heq⟩ := Option.map_eq_some_iff.mp hlook
    obtain ⟨rfl, rfl⟩ := Prod.mk.injEq .. ▸ heq
    exact array_conform hkey hnames hv' h
  | _ => cases hlook

/-- A field of which a record has nothing is missing after the first stage. -/
theorem record_missing {v w : Json} (hkey : key ∈ layout.keys) (hlook : layout.look key v = none)
    (h : (Format.record layout fields).conform source v = .ok w) :
    ∃ W, w = .object W ∧ lookup key W = none := by
  cases v with
  | object M =>
    have hnone : lookup key M = none := Option.map_eq_none_iff.mp hlook
    cases layout with
    | plain name keys =>
      obtain ⟨W, hW, rfl⟩ := map_eq_ok.mp h
      exact ⟨W, rfl, lookup_of_not_mem hW hnone⟩
    | merged name own part =>
      have hlost : ∀ p : String → Bool, lookup key (M.filter fun m => p m.1) = none := fun p => by
        rw [Json.lookup_filter p, hnone, ite_self]
      obtain ⟨mine, hmine, h⟩ := bind_eq_ok.mp h
      obtain ⟨others, hothers, h⟩ := bind_eq_ok.mp h
      obtain rfl := Except.ok.inj h
      refine ⟨mine ++ others, rfl, ?_⟩
      rw [Json.lookup_append, lookup_of_not_mem hmine (hlost own.contains),
        lookup_of_not_mem hothers (hlost part.contains)]
      rfl
  | array items =>
    cases layout with
    | plain name keys =>
      -- an array that conforms has an element for every field
      obtain ⟨W, hW, -⟩ := map_eq_ok.mp h
      have hlength := (conformArray_eq_ok.mp hW).2
      have hshort : items.length ≤ keys.idxOf key :=
        List.getElem?_eq_none_iff.mp (Option.map_eq_none_iff.mp hlook)
      have hindex : keys.idxOf key < keys.length := List.idxOf_lt_length_iff.mpr hkey
      omega
    | merged name own part => cases h
  | _ => cases layout <;> cases h

theorem Format.isSound_fields (h : (Format.record layout fields).isSound = true) :
    fields.isSound = true ∧ fields.keys.Nodup ∧ fields.keys.Perm layout.keys := by
  simp only [Format.isSound, Bool.and_eq_true, decide_eq_true_eq] at h
  exact ⟨h.2, h.1.1⟩

/-- **What a field gives to the value of a record**, wherever it stands. -/
theorem record_gives {β : Type} {presence : Presence γ β} {R : α → β → Prop} {v : Json} {a : α}
    (hsound : (Format.record layout fields).isSound = true) (hv : v.Ordered)
    (hshows : fields.Shows key presence format R)
    (h : (Format.record layout fields).Denotes source v a) :
    ∃ source' b, presence.Gives format source' ((layout.look key v).map (·.1)) b ∧ R a b := by
  obtain ⟨-, hnodup, hperm⟩ := Format.isSound_fields hsound
  have hkey : key ∈ layout.keys := hperm.mem_iff.mp hshows.at.mem_keys
  have hnames : layout.keys.Nodup := hperm.nodup_iff.mp hnodup
  obtain ⟨w, hw, hread⟩ := h
  cases hlook : layout.look key v with
  | none =>
    obtain ⟨W, rfl, hnone⟩ := record_missing hkey hlook hw
    obtain ⟨b, hb, hR⟩ := hshows.reads hread
    rw [hnone] at hb
    exact ⟨source, b, ⟨none, rfl, hb⟩, hR⟩
  | some found =>
    obtain ⟨u, put⟩ := found
    rw [← put_look hv hlook] at hw
    obtain ⟨source', before, after, hbefore, hafter, hall⟩ :=
      record_conform hv hkey hnames hlook hw
    rw [hall u, map_eq_ok] at hw
    obtain ⟨kept, hkept, rfl⟩ := hw
    obtain ⟨b, hb, hR⟩ := hshows.reads hread
    rw [lookup_withMember hbefore hafter] at hb
    rw [hshows.at.conformField] at hkept
    exact ⟨source', b, ⟨kept, hkept, hb⟩, hR⟩

end Record

end Schema
end NodeClient
