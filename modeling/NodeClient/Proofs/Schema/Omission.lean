import NodeClient.Proofs.Json.Places
import NodeClient.Proofs.Schema.Refinement

/-!
# Omission — payloads without one of their members

What comes of a payload that lacks a member depends on what the format says about the field: it
must be there, under the label that the error names, or it may be missing (`Need`).  `Format.need`
finds the field at a place of a payload, through the lists and objects that stand in it.

The first stage of decoding does not look at presence: what it makes of a payload without a member
is what it made of the payload, without that member (`conform_remove`), and the needs at the place
are the same in both (`need_of_conform`).

`Format.isSound` is a test of a format, which is computed: that its records read what their layouts
name and seek only what they declare, and that blank values stand for what is missing.
-/

namespace NodeClient
namespace Schema

open Json (lookup Spot remove removeMember removeFound)

/-! ### Needs -/

/-- Whether decoding needs a field. -/
inductive Need where
  /-- It must be there; errors name it by the label. -/
  | required (label : String)
  | optional
deriving DecidableEq, Repr

def Presence.need {γ β : Type} : Presence γ β → Need
  | .required label | .nonempty label => .required label
  | .optional | .default _ => .optional

/-- What a field needs: itself, or at a place in what was found under its key. -/
def Presence.needAt {γ β : Type} (presence : Presence γ β) (need : List Spot → Json → Option Need)
    (rest : List Spot) (found : Option Json) : Option Need :=
  match rest with
  | [] => some presence.need
  | rest => found.bind (need rest)

mutual

/-- What a format needs at a place of a payload, if the place is a field of a record there. -/
def Format.need {α : Type} : Format α → List Spot → Json → Option Need
  | .scalar _, _, _ => none
  | .list item, place, v =>
    match place, v with
    | .item index :: rest, .array items => items[index]?.bind fun w => item.need rest w
    | _, _ => none
  | .nullable item, place, v => item.need place v
  | .refine base _, place, v => base.need place v
  | .record _ fields, place, v =>
    match place, v with
    | .member key :: rest, .object members => fields.need key rest (lookup key members)
    | _, _ => none

/-- What fields need at a key, or at a place below it. -/
def Fields.need {α : Type} : Fields α → String → List Spot → Option Json → Option Need
  | .build _, _, _, _ => none
  | .seek before _ _, key, rest, found => before.need key rest found
  | .field before k presence format, key, rest, found =>
    if key = k then presence.needAt (fun place v => format.need place v) rest found
    else before.need key rest found

end

theorem Format.need_atom {α : Type} {v : Json} (hv : v.isAtom = true) (place : List Spot) :
    (f : Format α) → f.need place v = none
  | .scalar _ => rfl
  | .nullable item => item.need_atom hv place
  | .refine base _ => base.need_atom hv place
  | .list _ | .record _ _ => by
    unfold Format.need
    split
    · cases hv
    · rfl

theorem Format.ne_null_of_need {α : Type} {f : Format α} {place : List Spot} {v : Json} {n : Need}
    (h : f.need place v = some n) : v ≠ .null := by
  rintro rfl
  rw [Format.need_atom rfl] at h
  cases h

theorem Fields.mem_keys_of_need {α : Type} {key : String} {rest : List Spot} {found : Option Json}
    {n : Need} : (F : Fields α) → F.need key rest found = some n → key ∈ F.keys
  | .build _, h => by cases h
  | .seek before _ _, h => before.mem_keys_of_need h
  | .field before k _ _, h => by
    rw [Fields.need] at h
    split at h
    · next hkey => exact hkey ▸ .head _
    · exact .tail _ (before.mem_keys_of_need h)

/-! ### Shape without a member -/

theorem conformItems_modify {check : Json → Except Mismatch Json} {g : Json → Json}
    {items ws : List Json} (h : conformItems check items = .ok ws) (index : Nat)
    (hg : ∀ v ∈ items, ∀ w, check v = .ok w → check (g v) = .ok (g w)) :
    conformItems check (items.modify index g) = .ok (ws.modify index g) := by
  induction items generalizing ws index with
  | nil =>
    obtain rfl := Except.ok.inj h
    simp [conformItems]
  | cons v rest ih =>
    obtain ⟨hfirst, hrest⟩ := List.forall_mem_cons.mp hg
    obtain ⟨w, tail, hw, htail, rfl⟩ := conformItems_cons.mp h
    cases index with
    | zero => exact conformItems_cons.mpr ⟨g w, tail, hfirst w hw, htail, rfl⟩
    | succ index => exact conformItems_cons.mpr ⟨w, _, hw, ih htail index hrest, rfl⟩

section Members

variable {check : String → Json → Except Mismatch (Option Json)}

theorem conformMembers_erase {M W : List (String × Json)} (key : String)
    (h : conformMembers check M = .ok W) :
    conformMembers check (Json.erase key M) = .ok (Json.erase key W) := by
  induction M generalizing W with
  | nil =>
    obtain rfl := Except.ok.inj h
    rfl
  | cons m rest ih =>
    obtain ⟨k, v⟩ := m
    obtain ⟨kept, tail, hk, ht, rfl⟩ := conformMembers_cons.mp h
    have hrest := ih ht
    unfold Json.erase at hrest ⊢
    rw [List.filter_append, List.filter_cons]
    by_cases hkey : k = key
    · have hnone : (kept.map (k, ·)).toList.filter (fun m => m.1 ≠ key) = [] := by
        cases kept <;> simp [hkey]
      rw [if_neg (by simpa using hkey), hnone, hrest, List.nil_append]
    · have hself : (kept.map (k, ·)).toList.filter (fun m => m.1 ≠ key) =
          (kept.map (k, ·)).toList := by
        cases kept <;> simp [hkey]
      rw [if_pos (by simpa using hkey), hself]
      exact conformMembers_cons.mpr ⟨kept, _, hk, hrest, rfl⟩

theorem conformMembers_modify {M W : List (String × Json)} {key : String} {g : Json → Json}
    (h : conformMembers check M = .ok W)
    (hg : ∀ v, (key, v) ∈ M → ∀ kept, check key v = .ok kept →
      check key (g v) = .ok (kept.map g)) :
    conformMembers check (M.map fun m => if m.1 = key then (m.1, g m.2) else m) =
      .ok (W.map fun m => if m.1 = key then (m.1, g m.2) else m) := by
  induction M generalizing W with
  | nil =>
    obtain rfl := Except.ok.inj h
    rfl
  | cons m rest ih =>
    obtain ⟨k, v⟩ := m
    obtain ⟨kept, tail, hk, ht, rfl⟩ := conformMembers_cons.mp h
    have hrest := ih ht fun u hu => hg u (.tail _ hu)
    rw [List.map_cons, List.map_append]
    by_cases hkey : k = key
    · subst hkey
      rw [if_pos rfl]
      refine conformMembers_cons.mpr ⟨kept.map g, _, hg v (.head rest) kept hk, hrest, ?_⟩
      cases kept <;> simp
    · rw [if_neg hkey]
      refine conformMembers_cons.mpr ⟨kept, _, hk, hrest, ?_⟩
      cases kept <;> simp [hkey]

theorem conformMembers_removeMember {M W : List (String × Json)} {key : String} {rest : List Spot}
    (h : conformMembers check M = .ok W)
    (hcheck : ∀ v, (key, v) ∈ M → ∀ kept, check key v = .ok kept →
      check key (v.remove rest) = .ok (kept.map (remove rest))) :
    conformMembers check (removeMember key rest M) = .ok (removeMember key rest W) := by
  cases rest with
  | nil => exact conformMembers_erase key h
  | cons next rest => exact conformMembers_modify h hcheck

end Members

/-! ### Formats without a member -/

theorem asTexts_eq_ok {members : List (String × Json)} :
    (∃ texts, asTexts members = .ok texts) ↔ ∀ m ∈ members, ∃ s, m.2 = .string s := by
  induction members with
  | nil => exact ⟨fun _ => nofun, fun _ => ⟨[], rfl⟩⟩
  | cons m rest ih =>
    obtain ⟨k, v⟩ := m
    rw [List.forall_mem_cons, ← ih]
    simp only [asTexts, bind_eq_ok]
    constructor
    · rintro ⟨texts, s, hs, tail, htail, -⟩
      cases v with
      | string s => exact ⟨⟨s, rfl⟩, tail, htail⟩
      | _ => cases hs
    · rintro ⟨⟨s, rfl⟩, tail, htail⟩
      exact ⟨(k, s) :: tail, s, rfl, tail, htail, rfl⟩

/-- Texts by name stay texts by name. -/
theorem asTexts_removeMember {members : List (String × Json)}
    (h : ∃ texts, asTexts members = .ok texts) (key : String) (rest : List Spot) :
    ∃ texts, asTexts (removeMember key rest members) = .ok texts := by
  rw [asTexts_eq_ok] at h ⊢
  cases rest with
  | nil => exact fun m hm => h m (List.mem_of_mem_filter hm)
  | cons next rest =>
    intro m hm
    obtain ⟨n, hn, rfl⟩ := List.mem_map.mp hm
    obtain ⟨s, hs⟩ := h n hn
    split
    · exact ⟨s, by rw [hs, Json.remove_atom rfl]⟩
    · exact ⟨s, hs⟩

theorem Scalar.check_remove {α : Type} {s : Scalar α} {v : Json} (place : List Spot)
    (h : s.check v = .ok ()) : s.check (v.remove place) = .ok () := by
  by_cases hv : v.isAtom = true
  · rwa [Json.remove_atom hv]
  cases s with
  | json => rfl
  | texts =>
    cases v with
    | object members =>
      cases place with
      | nil => exact h
      | cons spot rest =>
        cases spot with
        | item index => exact h
        | member key =>
          obtain ⟨texts, htexts, -⟩ := map_eq_ok.mp h
          obtain ⟨texts', h'⟩ := asTexts_removeMember ⟨texts, htexts⟩ key rest
          rw [Json.remove_object]
          exact map_eq_ok.mpr ⟨texts', h', rfl⟩
    | array => cases h
    | _ => exact absurd rfl hv
  | _ =>
    cases v with
    | object | array => cases h
    | _ => exact absurd rfl hv

theorem Format.fill_eq_ok {γ : Type} {f : Format γ} {source : Source} {v : Json}
    {kept : Option Json} : f.fill source v = .ok kept ↔
      (v = .null ∧ kept = none) ∨
        (v ≠ .null ∧ ∃ w, f.conform source v = .ok w ∧ kept = some w) := by
  have h : f.slot source (some v) = .ok kept ↔ _ := slot_eq_ok
  simpa [Format.slot] using h

mutual

/-- **What the first stage makes of a payload without a member** is what it made of the payload,
without the member. -/
theorem Format.conform_remove {α : Type} {source : Source} (place : List Spot) :
    (f : Format α) → {v w : Json} → f.keyed v = true → f.conform source v = .ok w →
      f.conform source (v.remove place) = .ok (w.remove place)
  | .scalar s, v, w, _, h => by
    obtain ⟨⟨⟩, hcheck, rfl⟩ := map_eq_ok.mp h
    exact map_eq_ok.mpr ⟨(), s.check_remove place hcheck, rfl⟩
  | .list item, v, w, hkeyed, h => by
    cases v with
    | array items =>
      obtain ⟨ws, hws, rfl⟩ := map_eq_ok.mp h
      match place with
      | [] => exact h
      | .member key :: rest =>
        rw [Json.remove_member_array, Json.remove_member_array]
        exact h
      | .item index :: rest =>
        refine map_eq_ok.mpr ⟨_, conformItems_modify hws index fun u hu x hx => ?_, rfl⟩
        exact item.conform_remove rest (List.all_eq_true.mp hkeyed u hu) hx
    | _ => cases h
  | .nullable item, v, w, hkeyed, h => by
    by_cases hv : v = .null
    · subst hv
      obtain rfl := Except.ok.inj h
      rw [Json.remove_atom rfl]
      exact h
    · rw [nullable_conform hv] at h
      rw [nullable_conform ((Json.remove_eq_atom rfl).not.mpr hv)]
      exact item.conform_remove place hkeyed h
  | .refine base _, v, w, hkeyed, h => base.conform_remove place hkeyed h
  | .record (.plain name keys) fields, v, w, hkeyed, h => by
    cases v with
    | object M =>
      obtain ⟨W, hW, rfl⟩ := map_eq_ok.mp h
      match place with
      | [] | .item index :: rest => exact h
      | .member key :: rest =>
        rw [Json.remove_object, Json.remove_object]
        refine map_eq_ok.mpr ⟨_, conformMembers_removeMember hW fun u hu kept hkept => ?_, rfl⟩
        exact fields.conformField_remove rest (List.all_eq_true.mp hkeyed _ hu) hkept
    | array => cases hkeyed
    | _ => cases h
  | .record (.merged name own part) fields, v, w, hkeyed, h => by
    cases v with
    | object M =>
      rw [Format.conform, bind_eq_ok] at h
      obtain ⟨mine, hmine, h⟩ := h
      obtain ⟨others, hothers, h⟩ := bind_eq_ok.mp h
      obtain rfl := Except.ok.inj h
      match place with
      | [] | .item index :: rest =>
        exact bind_eq_ok.mpr ⟨mine, hmine, bind_eq_ok.mpr ⟨others, hothers, rfl⟩⟩
      | .member key :: rest =>
        -- the record's own members and those of its part are two selections by keys
        have hchecks : ∀ (source : Source) (p : String → Bool) (W : List (String × Json)),
            conformMembers (fields.conformField source) (M.filter fun m => p m.1) = .ok W →
              conformMembers (fields.conformField source)
                ((removeMember key rest M).filter fun m => p m.1) = .ok (removeMember key rest W) :=
          fun source p W hW => by
            rw [Json.filter_removeMember]
            refine conformMembers_removeMember hW fun u hu kept hkept => ?_
            have hmem := List.mem_of_mem_filter hu
            exact fields.conformField_remove rest (List.all_eq_true.mp hkeyed _ hmem) hkept
        rw [Json.remove_object, Json.remove_object, Json.removeMember_append]
        refine bind_eq_ok.mpr ⟨_, hchecks .direct own.contains _ hmine, bind_eq_ok.mpr ⟨_, ?_, rfl⟩⟩
        exact hchecks .setAside part.contains _ hothers
    | array => cases hkeyed
    | _ => cases h

theorem Fields.conformField_remove {α : Type} {source : Source} {k : String} (place : List Spot) :
    (F : Fields α) → {v : Json} → {kept : Option Json} → F.keyedMember k v = true →
      F.conformField source k v = .ok kept →
        F.conformField source k (v.remove place) = .ok (kept.map (remove place))
  | .build _, _, _, _, h => by
    obtain rfl := Except.ok.inj h
    rfl
  | .seek before _ _, _, _, hkeyed, h => before.conformField_remove place hkeyed h
  | .field before key _ format, v, kept, hkeyed, h => by
    simp only [Fields.keyedMember, Bool.and_eq_true, Bool.or_eq_true, bne_iff_ne] at hkeyed
    obtain ⟨hbefore, hformat⟩ := hkeyed
    rw [Fields.conformField_field] at h ⊢
    split at h
    · next hk =>
      rw [if_pos hk]
      rw [Format.fill_eq_ok] at h ⊢
      obtain ⟨rfl, rfl⟩ | ⟨hv, w, hw, rfl⟩ := h
      · exact .inl ⟨Json.remove_atom rfl place, rfl⟩
      · have hkeyed := hformat.resolve_left (not_not_intro hk)
        refine .inr ⟨(Json.remove_eq_atom rfl).not.mpr hv, w.remove place, ?_, rfl⟩
        exact format.conform_remove place hkeyed hw
    · next hk =>
      rw [if_neg hk]
      exact before.conformField_remove place hbefore h

end

/-! ### Formats that hold together -/

/-- What a presence declares of its field, or its format of a field below. -/
def Presence.declaresAt {γ β : Type} (presence : Presence γ β)
    (declares : List String → Option Need) : List String → Option Need
  | [] => some presence.need
  | path => declares path

mutual

/-- What a format declares of the field at the end of a path of keys. -/
def Format.declares {α : Type} : Format α → List String → Option Need
  | .record _ fields, key :: rest => fields.declares key rest
  | _, _ => none

/-- What fields declare of a key, or of a field below it. -/
def Fields.declares {α : Type} : Fields α → String → List String → Option Need
  | .build _, _, _ => none
  | .seek before _ _, key, rest => before.declares key rest
  | .field before k presence format, key, rest =>
    if key = k then presence.declaresAt (fun path => format.declares path) rest
    else before.declares key rest

end

/-- Whether every path that is sought leads to a field that must be there, under the label of that
field, and is sought after all that stands before its end. -/
def Fields.announced {α : Type} (declares : List String → Option Need) : Fields α → Bool
  | .build _ => true
  | .seek before path label =>
    before.announced declares && decide (declares path = some (.required label)) &&
      decide (∀ i < path.length, 0 < i → path.take i ∈ before.sought)
  | .field before _ _ _ => before.announced declares

def Format.isScalar {α : Type} : Format α → Bool
  | .scalar _ => true
  | _ => false

/-- Whether a value is zero or empty. -/
def Format.isBlank {α : Type} : Format α → α → Bool
  | .scalar .word32, n => n == 0
  | .scalar .base64, bytes => bytes.isEmpty
  | .list _, items => items.isEmpty
  | _, _ => false

/-- Whether a field that stands for a value while it is missing stands for a blank one. -/
def Presence.isSound {γ β : Type} : Presence γ β → Format γ → Bool
  | .default value, format => format.isBlank value
  | _, _ => true

/-- The names of the members that are read. -/
def Layout.keys : Layout → List String
  | .plain _ keys => keys
  | .merged _ own part => own ++ part

mutual

/-- Whether every record of a format reads each of the members that its layout names, once, seeks
only what it declares, and lets only blank values stand for what is missing; and whether checks that
are made besides look at scalars only. -/
def Format.isSound {α : Type} : Format α → Bool
  | .scalar _ => true
  | .list item => item.isSound
  | .nullable item => item.isSound
  | .refine base _ => base.isScalar
  | .record layout fields =>
    decide fields.keys.Nodup && decide (fields.keys.Perm layout.keys) &&
      fields.announced (Format.declares (.record layout fields)) && fields.isSound

def Fields.isSound {α : Type} : Fields α → Bool
  | .build _ => true
  | .seek before _ _ => before.isSound
  | .field before _ presence format =>
    before.isSound && presence.isSound format && format.isSound

end

theorem Fields.need_nil {α : Type} {key : String} {found : Option Json} :
    (F : Fields α) → key ∈ F.keys → ∃ n, F.need key [] found = some n
  | .seek before _ _, h => before.need_nil h
  | .field before k presence _, h => by
    rw [Fields.need]
    by_cases hk : key = k
    · exact ⟨presence.need, if_pos hk⟩
    · rw [if_neg hk]
      exact before.need_nil ((List.mem_cons.mp h).resolve_left hk)

/-- No member that a layout names is left out: each is required or optional, wherever the record
stands in a payload as an object. -/
theorem need_of_mem_layout {α : Type} {layout : Layout} {fields : Fields α} {key : String}
    (hsound : (Format.record layout fields).isSound = true) (hkey : key ∈ layout.keys)
    (M : List (String × Json)) :
    ∃ n, (Format.record layout fields).need [.member key] (.object M) = some n := by
  simp only [Format.isSound, Bool.and_eq_true, decide_eq_true_eq] at hsound
  obtain ⟨⟨⟨-, hnames⟩, -⟩, -⟩ := hsound
  exact fields.need_nil (hnames.mem_iff.mpr hkey)

/-! ### Needs after the first stage -/

theorem conformItems_get {check : Json → Except Mismatch Json} {items ws : List Json} {index : Nat}
    {v : Json} (h : conformItems check items = .ok ws) (hv : items[index]? = some v) :
    ∃ w, check v = .ok w ∧ ws[index]? = some w := by
  induction items generalizing ws index with
  | nil => cases hv
  | cons u rest ih =>
    obtain ⟨w, tail, hw, htail, rfl⟩ := conformItems_cons.mp h
    cases index with
    | zero =>
      obtain rfl := Option.some.inj hv
      exact ⟨w, hw, rfl⟩
    | succ index =>
      obtain ⟨x, hx, hget⟩ := ih htail hv
      exact ⟨x, hx, hget⟩

/-- What a key looks up was checked, and stands there still if it was kept. -/
theorem lookup_kept {check : String → Json → Except Mismatch (Option Json)}
    {M W : List (String × Json)} (h : conformMembers check M = .ok W) {key : String} {v : Json}
    (hv : lookup key M = some v) :
    ∃ kept, check key v = .ok kept ∧ ∀ w, kept = some w → lookup key W = some w := by
  induction M generalizing W with
  | nil => cases hv
  | cons m rest ih =>
    obtain ⟨k, u⟩ := m
    obtain ⟨kept, tail, hk, ht, rfl⟩ := conformMembers_cons.mp h
    rw [Json.lookup_cons] at hv
    by_cases heq : k = key
    · subst heq
      rw [if_pos rfl] at hv
      obtain rfl := Option.some.inj hv
      refine ⟨kept, hk, ?_⟩
      rintro w rfl
      exact if_pos rfl
    · rw [if_neg heq] at hv
      obtain ⟨found, hfound, hsame⟩ := ih ht hv
      refine ⟨found, hfound, fun w hw => ?_⟩
      cases kept with
      | none => exact hsame w hw
      | some x => exact (if_neg heq).trans (hsame w hw)

/-- What the keys of an object look up after the first stage. -/
theorem record_kept {α : Type} {layout : Layout} {fields : Fields α} {source : Source}
    {M : List (String × Json)} {w : Json}
    (h : (Format.record layout fields).conform source (.object M) = .ok w) {key : String}
    (hkey : key ∈ layout.keys) : ∃ W, w = .object W ∧ ∀ v, lookup key M = some v →
      ∃ source kept, fields.conformField source key v = .ok kept ∧
        ∀ x, kept = some x → lookup key W = some x := by
  cases layout with
  | plain name keys =>
    obtain ⟨W, hW, rfl⟩ := map_eq_ok.mp h
    exact ⟨W, rfl, fun v hv => ⟨source, lookup_kept hW hv⟩⟩
  | merged name own part =>
    rw [Format.conform, bind_eq_ok] at h
    obtain ⟨mine, hmine, h⟩ := h
    obtain ⟨others, hothers, h⟩ := bind_eq_ok.mp h
    obtain rfl := Except.ok.inj h
    refine ⟨mine ++ others, rfl, fun v hv => ?_⟩
    have hown := Json.lookup_filter own.contains key M
    have hpart := Json.lookup_filter part.contains key M
    -- a key of the part is not among the record's own members, so that it is looked up behind them
    by_cases hmem : own.contains key = true
    · rw [if_pos hmem, hv] at hown
      obtain ⟨kept, hkept, hsame⟩ := lookup_kept hmine hown
      refine ⟨.direct, kept, hkept, fun x hx => ?_⟩
      rw [Json.lookup_append, hsame x hx]
      rfl
    · have hrest : part.contains key = true := by
        simp only [Layout.keys, List.mem_append, List.contains_iff_mem] at hkey hmem ⊢
        exact hkey.resolve_left hmem
      rw [if_neg hmem] at hown
      rw [if_pos hrest, hv] at hpart
      obtain ⟨kept, hkept, hsame⟩ := lookup_kept hothers hpart
      refine ⟨.setAside, kept, hkept, fun x hx => ?_⟩
      rw [Json.lookup_append, lookup_of_not_mem hmine hown, hsame x hx]
      rfl

theorem Format.need_of_isScalar {α : Type} {f : Format α} (h : f.isScalar = true)
    (place : List Spot) (v : Json) : f.need place v = none := by
  cases f with
  | scalar => rfl
  | _ => cases h

mutual

/-- What a format needs at a place of a payload it needs there after the first stage. -/
theorem Format.need_of_conform {α : Type} {source : Source} {place : List Spot} {n : Need} :
    (f : Format α) → f.isSound = true → {v w : Json} → f.conform source v = .ok w →
      f.need place v = some n → f.need place w = some n
  | .scalar _, _, _, _, _, hneed => by cases hneed
  | .list item, hsound, v, w, h, hneed => by
    unfold Format.need at hneed
    split at hneed
    · next index rest items =>
      obtain ⟨ws, hws, rfl⟩ := map_eq_ok.mp h
      obtain ⟨u, hu, hneed⟩ := Option.bind_eq_some_iff.mp hneed
      obtain ⟨x, hx, hget⟩ := conformItems_get hws hu
      have hitem := item.need_of_conform hsound hx hneed
      exact Option.bind_eq_some_iff.mpr ⟨x, hget, hitem⟩
    · cases hneed
  | .nullable item, hsound, v, w, h, hneed => by
    rw [nullable_conform (item.ne_null_of_need hneed)] at h
    exact item.need_of_conform hsound h hneed
  | .refine base _, hsound, _, _, _, hneed => by
    have hnone := base.need_of_isScalar hsound
    rw [Format.need, hnone] at hneed
    cases hneed
  | .record layout fields, hsound, v, w, h, hneed => by
    simp only [Format.isSound, Bool.and_eq_true, decide_eq_true_eq] at hsound
    obtain ⟨⟨⟨-, hnames⟩, -⟩, hfields⟩ := hsound
    unfold Format.need at hneed
    split at hneed
    · next key rest M =>
      have hkey := hnames.mem_iff.mp (fields.mem_keys_of_need hneed)
      obtain ⟨W, rfl, hkept⟩ := record_kept h hkey
      exact fields.need_of_kept hfields hkept hneed
    · cases hneed

theorem Fields.need_of_kept {α : Type} {key : String} {rest : List Spot} {n : Need}
    {found found' : Option Json} : (F : Fields α) → F.isSound = true →
      (∀ v, found = some v → ∃ source kept, F.conformField source key v = .ok kept ∧
        ∀ w, kept = some w → found' = some w) →
      F.need key rest found = some n → F.need key rest found' = some n
  | .build _, _, _, hneed => by cases hneed
  | .seek before _ _, hsound, hkept, hneed => before.need_of_kept hsound hkept hneed
  | .field before k presence format, hsound, hkept, hneed => by
    simp only [Fields.isSound, Bool.and_eq_true] at hsound
    obtain ⟨⟨hbefore, -⟩, hformat⟩ := hsound
    simp only [Fields.conformField_field] at hkept
    rw [Fields.need] at hneed ⊢
    by_cases hk : key = k
    · simp only [if_pos hk] at hkept hneed ⊢
      cases rest with
      | nil => exact hneed
      | cons next rest =>
        obtain ⟨v, hv, hneed⟩ := Option.bind_eq_some_iff.mp hneed
        obtain ⟨source, kept, hfill, hsame⟩ := hkept v hv
        obtain ⟨hnull, -⟩ | ⟨-, w, hw, rfl⟩ := Format.fill_eq_ok.mp hfill
        · exact absurd hnull (format.ne_null_of_need hneed)
        · have hitem := format.need_of_conform hformat hw hneed
          exact Option.bind_eq_some_iff.mpr ⟨w, hsame w rfl, hitem⟩
    · simp only [if_neg hk] at hkept hneed ⊢
      exact before.need_of_kept hbefore hkept hneed

end

end Schema
end NodeClient
