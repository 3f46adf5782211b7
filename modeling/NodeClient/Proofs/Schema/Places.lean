import NodeClient.Proofs.Schema.Parts

/-!
# Places — what stands at a place of a payload, and what part of the value it gives

`Format.focus` finds what stands at a place of a payload, at any depth, and the payloads with
something else there.  `Format.Part` says which format is read at a place, and which part of the
value it gives.

* `Format.conform_source`: what stands at a place has the right shape on its own as well.
* `Part.kept`: what is read at a place is this part of the value.
* `Part.missing`: what is missing from a payload is missing from the value, or blank there.
-/

namespace NodeClient
namespace Schema

open Json (lookup Spot)

/-! ### Sources -/

theorem conformItems_mono {check check' : Json → Except Mismatch Json}
    (h : ∀ v w, check v = .ok w → check' v = .ok w) {items ws : List Json}
    (hws : conformItems check items = .ok ws) : conformItems check' items = .ok ws := by
  induction items generalizing ws with
  | nil => exact hws
  | cons v rest ih =>
    obtain ⟨w, tail, hw, htail, rfl⟩ := conformItems_cons.mp hws
    exact conformItems_cons.mpr ⟨w, tail, h v w hw, ih htail, rfl⟩

theorem conformMembers_mono {check check' : String → Json → Except Mismatch (Option Json)}
    (h : ∀ k v kept, check k v = .ok kept → check' k v = .ok kept) {M W : List (String × Json)}
    (hW : conformMembers check M = .ok W) : conformMembers check' M = .ok W := by
  induction M generalizing W with
  | nil => exact hW
  | cons m rest ih =>
    obtain ⟨kept, tail, hkept, htail, rfl⟩ := conformMembers_cons.mp hW
    exact conformMembers_cons.mpr ⟨kept, tail, h _ _ kept hkept, ih htail, rfl⟩

mutual

/-- Where a payload comes from makes a difference to errors only. -/
theorem Format.conform_source {α : Type} {source source' : Source} :
    (f : Format α) → {v w : Json} → f.conform source v = .ok w → f.conform source' v = .ok w
  | .scalar _, _, _, h => h
  | .list item, v, _, h => by
    cases v with
    | array items =>
      obtain ⟨ws, hws, rfl⟩ := map_eq_ok.mp h
      exact map_eq_ok.mpr ⟨ws, conformItems_mono (fun _ _ => item.conform_source) hws, rfl⟩
    | _ => cases h
  | .nullable item, v, w, h => by
    by_cases hv : v = .null
    · subst hv
      exact h
    · rw [nullable_conform hv] at h ⊢
      exact item.conform_source h
  | .refine base _, _, _, h => base.conform_source h
  | .record (.plain name keys) fields, v, _, h => by
    cases v with
    | object M =>
      obtain ⟨W, hW, rfl⟩ := map_eq_ok.mp h
      refine map_eq_ok.mpr ⟨W, conformMembers_mono (fun _ _ _ => ?_) hW, rfl⟩
      exact fields.conformField_source
    | array items =>
      obtain ⟨W, hW, rfl⟩ := map_eq_ok.mp h
      obtain ⟨hW, hlength⟩ := conformArray_eq_ok.mp hW
      refine map_eq_ok.mpr ⟨W, conformArray_eq_ok.mpr ⟨?_, hlength⟩, rfl⟩
      exact conformMembers_mono (fun _ _ _ => fields.conformField_source) hW
    | _ => cases h
  | .record (.merged _ _ _) _, _, _, h => h

theorem Fields.conformField_source {α : Type} {source source' : Source} {k : String} :
    (F : Fields α) → {v : Json} → {kept : Option Json} → F.conformField source k v = .ok kept →
      F.conformField source' k v = .ok kept
  | .build _, _, _, h => h
  | .seek before _ _, _, _, h => before.conformField_source h
  | .field before key _ format, v, kept, h => by
    rw [Fields.conformField_field] at h ⊢
    split at h
    · next hk =>
      rw [if_pos hk]
      rw [Format.fill_eq_ok] at h ⊢
      exact h.imp_right fun ⟨hv, w, hw, hkept⟩ => ⟨hv, w, format.conform_source hw, hkept⟩
    · next hk =>
      rw [if_neg hk]
      exact before.conformField_source h

end

theorem Format.Denotes.decode {α : Type} {f : Format α} {source : Source} {v : Json} {a : α}
    (h : f.Denotes source v a) : f.decode v = .ok a := by
  obtain ⟨w, hw, hread⟩ := h
  exact decode_eq_ok.mpr ⟨w, f.conform_source hw, hread⟩

/-! ### Entries that may be null -/

theorem Format.conform_ne_null {α : Type} {source : Source} :
    (f : Format α) → {v w : Json} → f.conform source v = .ok w → v ≠ .null → w ≠ .null
  | .scalar _, _, _, h, hv => by
    obtain ⟨-, -, rfl⟩ := map_eq_ok.mp h
    exact hv
  | .list _, v, _, h, _ => by
    cases v with
    | array =>
      obtain ⟨-, -, rfl⟩ := map_eq_ok.mp h
      nofun
    | _ => cases h
  | .nullable item, _, _, h, hv => by
    rw [nullable_conform hv] at h
    exact item.conform_ne_null h hv
  | .refine base _, _, _, h, hv => base.conform_ne_null h hv
  | .record (.plain _ _) _, v, _, h, _ => by
    cases v with
    | object | array =>
      obtain ⟨-, -, rfl⟩ := map_eq_ok.mp h
      nofun
    | _ => cases h
  | .record (.merged _ _ _) _, v, _, h, _ => by
    cases v with
    | object =>
      obtain ⟨mine, -, h⟩ := bind_eq_ok.mp h
      obtain ⟨others, -, h⟩ := bind_eq_ok.mp h
      obtain rfl := Except.ok.inj h
      nofun
    | _ => cases h

theorem nullable_denotes {γ : Type} {f : Format γ} {source : Source} {v : Json} {a : Option γ}
    (h : (Format.nullable f).Denotes source v a) :
    (v = .null ∧ a = none) ∨ (v ≠ .null ∧ ∃ c, f.Denotes source v c ∧ a = some c) := by
  obtain ⟨w, hw, hread⟩ := h
  by_cases hv : v = .null
  · subst hv
    obtain rfl := Except.ok.inj hw
    exact .inl ⟨rfl, (Except.ok.inj hread).symm⟩
  · rw [nullable_conform hv] at hw
    rw [nullable_read (f.conform_ne_null hw hv)] at hread
    obtain ⟨c, hc, rfl⟩ := map_eq_ok.mp hread
    exact .inr ⟨hv, c, ⟨w, hw, hc⟩, rfl⟩

/-! ### Places -/

mutual

/-- What stands at a place of a payload, and the payload with something else there.  A record may be
given in either form; what is `null` in it is not there. -/
def Format.focus {α : Type} : Format α → List Spot → Json → Option (Json × (Json → Json))
  | .scalar _, place, v =>
    match place with
    | [] => some (v, id)
    | _ => none
  | .list item, place, v =>
    match place, v with
    | [], v => some (v, id)
    | .item index :: rest, .array items =>
      items[index]?.bind fun w => (item.focus rest w).map fun (u, put) =>
        (u, fun x => .array (items.set index (put x)))
    | _, _ => none
  | .nullable item, place, v => item.focus place v
  | .refine base _, place, v => base.focus place v
  | .record layout fields, place, v =>
    match place with
    | [] => some (v, id)
    | .member key :: rest =>
      match layout.look key v with
      | none | some (.null, _) => none
      | some (w, outer) => (fields.focus key rest w).map fun (u, put) => (u, outer ∘ put)
    | .item _ :: _ => none

/-- The same of what stands under a key. -/
def Fields.focus {α : Type} :
    Fields α → String → List Spot → Json → Option (Json × (Json → Json))
  | .build _, _, _, _ => none
  | .seek before _ _, key, rest, v => before.focus key rest v
  | .field before k _ format, key, rest, v =>
    if key = k then format.focus rest v else before.focus key rest v

end

theorem Format.focus_nil {α : Type} (v : Json) : (f : Format α) → f.focus [] v = some (v, id)
  | .scalar _ => rfl
  | .list _ => by cases v <;> rfl
  | .nullable item => item.focus_nil v
  | .refine base _ => base.focus_nil v
  | .record _ _ => rfl

theorem Format.focus_null {α : Type} (spot : Spot) (rest : List Spot) :
    (f : Format α) → f.focus (spot :: rest) .null = none
  | .scalar _ => rfl
  | .list _ => by cases spot <;> rfl
  | .nullable item => item.focus_null spot rest
  | .refine base _ => base.focus_null spot rest
  | .record _ _ => by cases spot <;> rfl

theorem Fields.At.focus {α γ : Type} {F : Fields α} {key : String} {f : Format γ}
    (h : F.At key f) (rest : List Spot) (v : Json) : F.focus key rest v = f.focus rest v := by
  induction h with
  | last => exact if_pos rfl
  | field hne _ ih => exact (if_neg hne).trans ih
  | seek _ ih => exact ih

theorem forall₂_getElem? {α β : Type} {R : α → β → Prop} {as : List α} {bs : List β} {index : Nat}
    {a : α} (h : List.Forall₂ R as bs) (ha : as[index]? = some a) :
    ∃ b, bs[index]? = some b ∧ R a b := by
  induction h generalizing index with
  | nil => cases ha
  | @cons a' b _ _ hR _ ih =>
    cases index with
    | zero =>
      obtain rfl := Option.some.inj ha
      exact ⟨b, rfl, hR⟩
    | succ index => exact ih ha

theorem focus_item {α : Type} {item : Format α} {index : Nat} {rest : List Spot}
    {items : List Json} {u : Json} {put : Json → Json}
    (h : (Format.list item).focus (.item index :: rest) (.array items) = some (u, put)) :
    ∃ w inner, items[index]? = some w ∧ item.focus rest w = some (u, inner) ∧
      put = fun x => .array (items.set index (inner x)) := by
  obtain ⟨w, hw, hfocus⟩ := Option.bind_eq_some_iff.mp h
  obtain ⟨⟨u, inner⟩, hinner, heq⟩ := Option.map_eq_some_iff.mp hfocus
  obtain ⟨rfl, rfl⟩ := Prod.mk.injEq .. ▸ heq
  exact ⟨w, inner, hw, hinner, rfl⟩

theorem focus_item_none {α : Type} {item : Format α} {index : Nat} {rest : List Spot}
    {items : List Json} {w : Json} (hw : items[index]? = some w)
    (h : (Format.list item).focus (.item index :: rest) (.array items) = none) :
    item.focus rest w = none := by
  simp only [Format.focus, hw, Option.bind_some, Option.map_eq_none_iff] at h
  exact h

section Member

variable {α γ : Type} {layout : Layout} {fields : Fields α} {key : String} {f : Format γ}
  {rest : List Spot} {v : Json}

theorem focus_member (hat : fields.At key f) {u : Json} {put : Json → Json}
    (h : (Format.record layout fields).focus (.member key :: rest) v = some (u, put)) :
    ∃ w outer inner, layout.look key v = some (w, outer) ∧ w ≠ .null ∧
      f.focus rest w = some (u, inner) ∧ put = outer ∘ inner := by
  simp only [Format.focus] at h
  split at h
  · cases h
  · cases h
  · next w outer hnull hlook =>
    obtain ⟨⟨u, inner⟩, hinner, heq⟩ := Option.map_eq_some_iff.mp h
    obtain ⟨rfl, rfl⟩ := Prod.mk.injEq .. ▸ heq
    rw [hat.focus] at hinner
    exact ⟨w, outer, inner, hlook, hnull, hinner, rfl⟩

theorem focus_member_none (hat : fields.At key f)
    (h : (Format.record layout fields).focus (.member key :: rest) v = none) :
    ((layout.look key v).map (·.1)).getD .null = .null ∨
      ∃ w outer, layout.look key v = some (w, outer) ∧ w ≠ .null ∧ f.focus rest w = none := by
  simp only [Format.focus] at h
  split at h
  · next hlook => exact .inl (by rw [hlook]; rfl)
  · next hlook => exact .inl (by rw [hlook]; rfl)
  · next w outer hnull hlook =>
    rw [Option.map_eq_none_iff, hat.focus] at h
    exact .inr ⟨w, outer, hlook, hnull, h⟩

end Member

/-- Payloads that keep their keys in order do so below a key as well. -/
theorem ordered_look {layout : Layout} {key : String} {v w : Json} {outer : Json → Json}
    (hv : v.Ordered) (h : layout.look key v = some (w, outer)) : w.Ordered := by
  cases v with
  | object M =>
    obtain ⟨w, hw, heq⟩ := Option.map_eq_some_iff.mp h
    obtain ⟨rfl, -⟩ := Prod.mk.injEq .. ▸ heq
    exact hv.lookup hw
  | array items =>
    obtain ⟨w, hw, heq⟩ := Option.map_eq_some_iff.mp h
    obtain ⟨rfl, -⟩ := Prod.mk.injEq .. ▸ heq
    exact Json.ordered_array.mp hv w (List.mem_of_getElem? hw)
  | _ => cases h

/-- The payloads that have something else under a key are records as well. -/
theorem isAtom_look {layout : Layout} {key : String} {v w : Json} {outer : Json → Json}
    (h : layout.look key v = some (w, outer)) (x : Json) : (outer x).isAtom = false := by
  cases v with
  | object | array =>
    obtain ⟨w, -, heq⟩ := Option.map_eq_some_iff.mp h
    obtain ⟨-, rfl⟩ := Prod.mk.injEq .. ▸ heq
    rfl
  | _ => cases h

/-! ### Parts of values -/

/-- At a place of payloads of a format stands this format, for this part of the value. -/
inductive Format.Part {γ : Type} (g : Format γ) :
    {α : Type} → Format α → List Spot → (α → Option γ) → Prop where
  | here : Format.Part g g [] some
  | item {α : Type} {f : Format α} {rest : List Spot} {get : α → Option γ} (index : Nat)
      (h : g.Part f rest get) :
      Format.Part g (.list f) (.item index :: rest) fun as => as[index]?.bind get
  | nullable {α : Type} {f : Format α} {spot : Spot} {rest : List Spot} {get : α → Option γ}
      (h : g.Part f (spot :: rest) get) :
      Format.Part g (.nullable f) (spot :: rest) fun a => a.bind get
  | member {α β δ : Type} {layout : Layout} {fields : Fields α} {key : String}
      {presence : Presence δ β} {f : Format δ} {rest : List Spot} {inner : δ → Option γ}
      {get : α → Option γ}
      (hshows : fields.Shows key presence f fun a b => get a = (presence.content b).bind inner)
      (h : g.Part f rest inner) : Format.Part g (.record layout fields) (.member key :: rest) get

theorem Fields.Shows.isSound {α β γ : Type} {key : String} {presence : Presence γ β}
    {format : Format γ} {F : Fields α} {R : α → β → Prop} (h : F.Shows key presence format R)
    (hsound : F.isSound = true) : presence.isSound format = true ∧ format.isSound = true := by
  induction h with
  | last =>
    simp only [Fields.isSound, Bool.and_eq_true] at hsound
    exact ⟨hsound.1.2, hsound.2⟩
  | field _ _ ih =>
    simp only [Fields.isSound, Bool.and_eq_true] at hsound
    exact ih hsound.1.1
  | seek _ ih => exact ih hsound

theorem Presence.read_some_eq_ok {γ β : Type} {presence : Presence γ β}
    {read : Json → Except DecodeError γ} {w : Json} {b : β}
    (h : presence.read read (some w) = .ok b) : ∃ c, read w = .ok c ∧ presence.wrap c = b := by
  by_cases hw : w = .string ""
  · subst hw
    cases presence with
    | optional => exact map_eq_ok.mp h
    | nonempty => cases h
    | required | default => exact ⟨b, h, rfl⟩
  · rw [presence.read_some _ hw] at h
    exact map_eq_ok.mp h

/-- What a field gives is nothing or blank, or is what its format reads. -/
theorem Presence.Gives.content {γ β : Type} {presence : Presence γ β} {f : Format γ}
    {source : Source} {found : Option Json} {b : β} (hsound : presence.isSound f = true)
    (h : presence.Gives f source found b) :
    (found.getD .null = .null ∧ ∀ c, presence.content b = some c → f.isBlank c = true) ∨
      ∃ v c, found = some v ∧ v ≠ .null ∧ f.Denotes source v c ∧ presence.content b = some c := by
  obtain ⟨w, hw, hread⟩ := h
  obtain ⟨hnull, rfl⟩ | ⟨v, u, rfl, hv, hu, rfl⟩ := slot_eq_ok.mp hw
  · refine .inl ⟨hnull, fun c hc => ?_⟩
    cases presence with
    | required | nonempty => cases hread
    | optional =>
      obtain rfl := Except.ok.inj hread
      cases hc
    | default value =>
      obtain rfl := Except.ok.inj hread
      obtain rfl := Option.some.inj hc
      exact hsound
  · obtain ⟨c, hc, rfl⟩ := Presence.read_some_eq_ok hread
    exact .inr ⟨v, c, rfl, hv, ⟨u, hu, hc⟩, presence.content_wrap c⟩

namespace Format.Part

variable {α γ : Type} {g : Format γ} {f : Format α} {place : List Spot} {get : α → Option γ}

/-- A blank value has blank parts only. -/
theorem blank (h : g.Part f place get) {a : α} (ha : f.isBlank a = true) {c : γ}
    (hc : get a = some c) : g.isBlank c = true := by
  cases h with
  | here => exact Option.some.inj hc ▸ ha
  | item index h =>
    obtain rfl : a = [] := List.isEmpty_iff.mp ha
    cases hc
  | nullable | member => cases ha

/-- **What is read at a place is the part of the value.** -/
theorem kept (h : g.Part f place get) (hsound : f.isSound = true) {source : Source} {v u : Json}
    {put : Json → Json} {a : α} (hv : v.Ordered) (ha : f.Denotes source v a)
    (hu : f.focus place v = some (u, put)) :
    ∃ source' c, get a = some c ∧ g.Denotes source' u c := by
  induction h generalizing source v u put with
  | here =>
    rw [Format.focus_nil] at hu
    obtain ⟨rfl, -⟩ := Prod.mk.injEq .. ▸ Option.some.inj hu
    exact ⟨source, a, rfl, ha⟩
  | item index h ih =>
    obtain ⟨items, rfl, hall⟩ := list_denotes_iff.mp ha
    obtain ⟨w, inner, hw, hinner, -⟩ := focus_item hu
    obtain ⟨b, hb, hdenotes⟩ := forall₂_getElem? hall hw
    obtain ⟨source', c, hc, hg⟩ := ih hsound (Json.ordered_array.mp hv w (List.mem_of_getElem? hw))
      hdenotes hinner
    exact ⟨source', c, Option.bind_eq_some_iff.mpr ⟨b, hb, hc⟩, hg⟩
  | nullable h ih =>
    obtain ⟨rfl, -⟩ | ⟨-, b, hb, rfl⟩ := nullable_denotes ha
    · rw [Format.focus_null] at hu
      cases hu
    · exact ih hsound hv hb hu
  | member hshows h ih =>
    obtain ⟨hfields, -⟩ := Format.isSound_fields hsound
    obtain ⟨hpresence, hformat⟩ := hshows.isSound hfields
    obtain ⟨w, outer, inner, hlook, hnull, hinner, -⟩ := focus_member hshows.at hu
    obtain ⟨source', b, hgives, hget⟩ := record_gives hsound hv hshows ha
    obtain ⟨hmissing, -⟩ | ⟨w', c, hfound, -, hdenotes, hcontent⟩ := hgives.content hpresence
    · rw [hlook] at hmissing
      exact absurd hmissing hnull
    · rw [hlook] at hfound
      obtain rfl : w = w' := Option.some.inj hfound
      rw [hget, hcontent]
      exact ih hformat (ordered_look hv hlook) hdenotes hinner

/-- **What is missing from a payload is missing from the value, or blank there.** -/
theorem missing (h : g.Part f place get) (hsound : f.isSound = true) {source : Source} {v : Json}
    {a : α} (hv : v.Ordered) (ha : f.Denotes source v a) (hu : f.focus place v = none) {c : γ}
    (hc : get a = some c) : g.isBlank c = true := by
  induction h generalizing source v with
  | here =>
    rw [Format.focus_nil] at hu
    cases hu
  | item index h ih =>
    obtain ⟨items, rfl, hall⟩ := list_denotes_iff.mp ha
    obtain ⟨b, hb, hc⟩ := Option.bind_eq_some_iff.mp hc
    obtain ⟨w, hw, hdenotes⟩ := forall₂_getElem? hall.flip hb
    have hinner := focus_item_none hw hu
    exact ih hsound (Json.ordered_array.mp hv w (List.mem_of_getElem? hw)) hdenotes hinner hc
  | nullable h ih =>
    obtain ⟨-, rfl⟩ | ⟨-, b, hb, rfl⟩ := nullable_denotes ha
    · cases hc
    · exact ih hsound hv hb hu hc
  | member hshows h ih =>
    obtain ⟨hfields, -⟩ := Format.isSound_fields hsound
    obtain ⟨hpresence, hformat⟩ := hshows.isSound hfields
    obtain ⟨source', b, hgives, hget⟩ := record_gives hsound hv hshows ha
    rw [hget] at hc
    obtain ⟨-, hblank⟩ | ⟨w, d, hfound, hnull, hdenotes, hcontent⟩ := hgives.content hpresence
    · obtain ⟨d, hd, hc⟩ := Option.bind_eq_some_iff.mp hc
      exact h.blank (hblank d hd) hc
    · rw [hcontent] at hc
      obtain hmissing | ⟨w', outer, hlook, -, hinner⟩ := focus_member_none hshows.at hu
      · rw [hfound] at hmissing
        exact absurd hmissing hnull
      · rw [hlook] at hfound
        obtain rfl : w' = w := Option.some.inj hfound
        exact ih hformat (ordered_look hv hlook) hdenotes hinner hc

/-- What stands at a place already changes nothing. -/
theorem put_focus (h : g.Part f place get) {v u : Json} {put : Json → Json} (hv : v.Ordered)
    (hu : f.focus place v = some (u, put)) : put u = v := by
  induction h generalizing v u put with
  | here =>
    rw [Format.focus_nil] at hu
    obtain ⟨rfl, rfl⟩ := Prod.mk.injEq .. ▸ Option.some.inj hu
    rfl
  | item index h ih =>
    cases v with
    | array items =>
      obtain ⟨w, inner, hw, hinner, rfl⟩ := focus_item hu
      obtain ⟨hindex, rfl⟩ := List.getElem?_eq_some_iff.mp hw
      show Json.array (items.set index (inner u)) = _
      rw [ih (Json.ordered_array.mp hv _ (List.getElem_mem hindex)) hinner,
        List.set_getElem_self hindex]
    | _ => cases hu
  | nullable h ih => exact ih hv hu
  | member hshows h ih =>
    obtain ⟨w, outer, inner, hlook, -, hinner, rfl⟩ := focus_member hshows.at hu
    show outer (inner u) = v
    rw [ih (ordered_look hv hlook) hinner, put_look hv hlook]

/-- A payload with something else that is no atom at a place is none either. -/
theorem isAtom_put (h : g.Part f place get) {v u x : Json} {put : Json → Json}
    (hu : f.focus place v = some (u, put)) (hx : x.isAtom = false) :
    (put x).isAtom = false := by
  induction h generalizing v u put with
  | here =>
    rw [Format.focus_nil] at hu
    obtain ⟨-, rfl⟩ := Prod.mk.injEq .. ▸ Option.some.inj hu
    exact hx
  | item index h ih =>
    cases v with
    | array items =>
      obtain ⟨w, inner, -, -, rfl⟩ := focus_item hu
      rfl
    | _ => cases hu
  | nullable h ih => exact ih hu
  | member hshows h ih =>
    obtain ⟨w, outer, inner, hlook, -, -, rfl⟩ := focus_member hshows.at hu
    exact isAtom_look hlook (inner x)

end Format.Part

end Schema
end NodeClient
