import NodeClient.Proofs.Schema.Places

/-!
# Lists — the elements of a list, and the payload around them

A payload is a list with something around it.  Around the list both stages of decoding do the same
whatever its elements are (`Format.Framed`), so that they succeed with the list, and fail with it.

* `Part.frame`: both stages, around a list at any depth.
* `Part.list_kept`, `Part.list_missing`: elements are read in place, each on its own.
* `Part.list_fails`, `Part.list_reported`, `Part.list_shape`: with an element that fails everything
  fails, and the first one is reported if there is nothing wrong around the list.
-/

namespace NodeClient
namespace Schema

open Json (lookup Spot)

/-! ### Payloads around a list -/

/-- Whether something stands at the end of a path below a value. -/
def holdsBelow : Json → List String → Bool
  | .object inner, path => holds inner path
  | _, path => path.isEmpty

theorem holds_cons (W : List (String × Json)) (key : String) (path : List String) :
    holds W (key :: path) = (lookup key W).elim false (holdsBelow · path) := by
  rw [holds]
  cases lookup key W with
  | none => rfl
  | some v => cases v <;> rfl

theorem holds_withMember {before after : List (String × Json)} {key : String}
    (hbefore : lookup key before = none) (hafter : lookup key after = none) {v w : Json}
    (h : ∀ path, holdsBelow v path = holdsBelow w path) (path : List String) :
    holds (withMember before after key (some v)) path =
      holds (withMember before after key (some w)) path := by
  cases path with
  | nil => rfl
  | cons k rest =>
    rw [holds_cons, holds_cons]
    by_cases hk : key = k
    · subst hk
      rw [lookup_withMember hbefore hafter, lookup_withMember hbefore hafter]
      exact h rest
    · rw [lookup_withMember_of_ne hk _ (some w)]

/-- What the first stage makes of payloads around a list, `fill items` for the elements `items`:
none of them is an atom, the same paths are there in all of them, and if one of them is read, then
of each is read what its elements give, or the first that is wrong with these. -/
structure Format.Framed {α γ : Type} (f : Format α) (item : Format γ) (fill : List Json → Json) :
    Prop where
  solid : ∀ xs, (fill xs).isAtom = false
  holds : ∀ path xs ys, holdsBelow (fill xs) path = holdsBelow (fill ys) path
  reads : ∀ xs a, f.read (fill xs) = .ok a →
    ∃ build : List γ → α, ∀ ys, f.read (fill ys) = (readItems item.read ys).map build

theorem ne_null_of_isAtom {v : Json} (h : v.isAtom = false) : v ≠ .null := by
  rintro rfl
  cases h

section Framed

variable {α γ : Type} {item : Format γ} {fill : List Json → Json}

theorem framed_here : (Format.list item).Framed item .array where
  solid _ := rfl
  holds _ _ _ := rfl
  reads _ _ _ := ⟨id, fun ys => by
    show readItems item.read ys = _
    cases readItems item.read ys <;> rfl⟩

theorem framed_item {f : Format α} (h : f.Framed item fill) {ws : List Json} {index : Nat}
    (hindex : index < ws.length) :
    (Format.list f).Framed item fun xs => .array (ws.set index (fill xs)) where
  solid _ := rfl
  holds _ _ _ := rfl
  reads xs as has := by
    have hget : (ws.set index (fill xs))[index]? = some (fill xs) := by
      rw [List.getElem?_set_self hindex]
    have hmodify := fun ys => readItems_modify has hget fun _ => fill ys
    obtain ⟨a, ha, -, -⟩ := hmodify xs
    obtain ⟨build, hbuild⟩ := h.reads xs a ha
    refine ⟨fun cs => as.set index (build cs), fun ys => ?_⟩
    obtain ⟨-, -, -, hread⟩ := hmodify ys
    rw [← List.set_eq_modify, List.set_set, hbuild ys] at hread
    refine Eq.trans hread ?_
    cases readItems item.read ys <;> rfl

theorem framed_nullable {f : Format α} (h : f.Framed item fill) :
    (Format.nullable f).Framed item fill where
  solid := h.solid
  holds := h.holds
  reads xs a ha := by
    rw [nullable_read (ne_null_of_isAtom (h.solid xs))] at ha
    obtain ⟨b, hb, -⟩ := map_eq_ok.mp ha
    obtain ⟨build, hbuild⟩ := h.reads xs b hb
    refine ⟨fun cs => some (build cs), fun ys => ?_⟩
    rw [nullable_read (ne_null_of_isAtom (h.solid ys)), hbuild ys]
    cases readItems item.read ys <;> rfl

end Framed

section FramedMember

variable {α β γ δ : Type} {key : String} {presence : Presence γ β} {format : Format γ}
  {F : Fields α} {R : α → β → Prop} {X : Type} {M : X → List (String × Json)}
  {r : X → Except DecodeError δ}

theorem Fields.read_congr {W W' : List (String × Json)}
    (hholds : ∀ path, holds W path = holds W' path) {α : Type} : (F : Fields α) →
      (∀ k ∈ F.keys, lookup k W = lookup k W') → F.read W = F.read W'
  | .build _, _ => rfl
  | .seek before path _, h => by
    rw [Fields.read, Fields.read, before.read_congr hholds h, hholds path]
  | .field before k _ _, h => by
    rw [Fields.read, Fields.read, h k (.head _),
      before.read_congr hholds fun k hk => h k (.tail _ hk)]

/-- Records that differ under one key only, of which one is read: of each is read what its field
gives, or what is wrong with this. -/
theorem Fields.Shows.reads_all (h : F.Shows key presence format R) (hkeys : F.keys.Nodup)
    {x₀ : X} {a : α} (ha : F.read (M x₀) = .ok a)
    (hholds : ∀ path x, holds (M x) path = holds (M x₀) path)
    (hsame : ∀ k, key ≠ k → ∀ x, lookup k (M x) = lookup k (M x₀)) {g : δ → β}
    (hfield : ∀ x, presence.read format.read (lookup key (M x)) = (r x).map g) :
    ∃ build : δ → α, ∀ x, F.read (M x) = (r x).map build := by
  induction h with
  | @last _ before _ _ =>
    -- the fields before this one have other keys, so that they are read alike in all records
    obtain ⟨hnot, -⟩ := List.nodup_cons.mp hkeys
    obtain ⟨make, b, hmake, -, -⟩ := Fields.read_field.mp ha
    refine ⟨fun d => make (g d), fun x => ?_⟩
    have hbefore := before.read_congr (fun path => hholds path x) fun k hk =>
      hsame k (fun heq => hnot (heq ▸ hk)) x
    rw [Fields.read, hbefore, hmake]
    show (presence.read format.read (lookup key (M x)) >>= _) = _
    rw [hfield x]
    cases r x <;> rfl
  | @field _ _ _ _ k _ _ _ hne _ ih =>
    obtain ⟨-, hkeys⟩ := List.nodup_cons.mp hkeys
    obtain ⟨make, d, hmake, hd, -⟩ := Fields.read_field.mp ha
    obtain ⟨build, hbuild⟩ := ih hkeys hmake
    refine ⟨fun e => build e d, fun x => ?_⟩
    rw [Fields.read, hbuild x, hsame k hne x, hd]
    cases r x <;> rfl
  | seek _ ih =>
    obtain ⟨ha, hpath⟩ := Fields.read_seek.mp ha
    obtain ⟨build, hbuild⟩ := ih hkeys ha
    refine ⟨build, fun x => ?_⟩
    rw [Fields.read, hbuild x, hholds, hpath]
    cases r x <;> rfl

theorem framed_member {γ' : Type} {item : Format γ'} {fill : List Json → Json} {layout : Layout}
    (hfield : format.Framed item fill) (hshows : F.Shows key presence format R)
    (hkeys : F.keys.Nodup) {before after : List (String × Json)}
    (hbefore : lookup key before = none) (hafter : lookup key after = none) :
    (Format.record layout F).Framed item
      fun xs => .object (withMember before after key (some (fill xs))) where
  solid _ := rfl
  holds path xs ys :=
    holds_withMember hbefore hafter (fun path => hfield.holds path xs ys) path
  reads xs a ha := by
    have hfound : ∀ ys, presence.read format.read
        (lookup key (withMember before after key (some (fill ys)))) =
          (format.read (fill ys)).map presence.wrap := fun ys => by
      rw [lookup_withMember hbefore hafter]
      refine presence.read_some _ fun heq => ?_
      have hsolid := hfield.solid ys
      rw [heq] at hsolid
      cases hsolid
    obtain ⟨b, hb, -⟩ := hshows.reads ha
    rw [hfound xs] at hb
    obtain ⟨c, hc, -⟩ := map_eq_ok.mp hb
    obtain ⟨build, hbuild⟩ := hfield.reads xs c hc
    refine hshows.reads_all (M := fun ys => withMember before after key (some (fill ys)))
      (r := fun ys => readItems item.read ys) (g := presence.wrap ∘ build) hkeys ha
      (fun path ys => holds_withMember hbefore hafter (fun path => hfield.holds path ys xs) path)
      (fun k hne ys => lookup_withMember_of_ne hne _ _) fun ys => ?_
    rw [hfound ys, hbuild ys]
    cases readItems item.read ys <;> rfl

end FramedMember

theorem conformItems_set {check : Json → Except Mismatch Json} {items ws : List Json} {index : Nat}
    {x : Json} (hindex : index < items.length)
    (h : conformItems check (items.set index x) = .ok ws) :
    index < ws.length ∧ (∃ y, check x = .ok y) ∧
      ∀ x, conformItems check (items.set index x) = (check x).map (ws.set index ·) := by
  induction items generalizing ws index with
  | nil => cases hindex
  | cons v rest ih =>
    cases index with
    | zero =>
      obtain ⟨y, tail, hy, htail, rfl⟩ := conformItems_cons.mp h
      refine ⟨Nat.zero_lt_succ _, ⟨y, hy⟩, fun x => ?_⟩
      rw [List.set_cons_zero, conformItems, htail]
      cases check x <;> rfl
    | succ index =>
      obtain ⟨w, tail, hw, htail, rfl⟩ := conformItems_cons.mp h
      obtain ⟨hlength, hcheck, hall⟩ := ih (Nat.lt_of_succ_lt_succ hindex) htail
      refine ⟨Nat.succ_lt_succ hlength, hcheck, fun x => ?_⟩
      rw [List.set_cons_succ, conformItems, hw, hall x]
      cases check x <;> rfl

namespace Format.Part

variable {α γ : Type} {item : Format γ} {f : Format α} {place : List Spot}
  {get : α → Option (List γ)} {v u : Json} {put : Json → Json}

/-- **Around a list both stages do the same, whatever its elements are.**  One payload that has the
right shape is enough to tell what they do with all of them. -/
theorem frame (h : (Format.list item).Part f place get) (hsound : f.isSound = true)
    (hv : v.Ordered) (hu : f.focus place v = some (u, put)) {source : Source} {items₀ : List Json}
    {w : Json} (hw : f.conform source (put (.array items₀)) = .ok w) :
    ∃ source' fill, f.Framed item fill ∧ ∀ items, f.conform source (put (.array items)) =
      (conformItems (item.conform source') items).map fill := by
  induction h generalizing source v u put w with
  | here =>
    rw [Format.focus_nil] at hu
    obtain ⟨-, rfl⟩ := Prod.mk.injEq .. ▸ Option.some.inj hu
    exact ⟨source, .array, framed_here, fun _ => rfl⟩
  | @item _ f' _ _ index h ih =>
    cases v with
    | array vs =>
      obtain ⟨x, inner, hx, hinner, rfl⟩ := focus_item hu
      obtain ⟨hindex, -⟩ := List.getElem?_eq_some_iff.mp hx
      obtain ⟨ws, hws, rfl⟩ := map_eq_ok.mp hw
      obtain ⟨hlength, ⟨y, hy⟩, hall⟩ := conformItems_set hindex hws
      have hordered := Json.ordered_array.mp hv x (List.mem_of_getElem? hx)
      obtain ⟨source', fill, hframed, hconform⟩ := ih hsound hordered hinner hy
      refine ⟨source', _, framed_item hframed hlength, fun items => ?_⟩
      show (conformItems (f'.conform source) (vs.set index (inner (.array items)))).map _ = _
      rw [hall, hconform]
      cases conformItems (item.conform source') items <;> rfl
    | _ => cases hu
  | nullable h ih =>
    have hsolid := fun items => ne_null_of_isAtom (h.isAtom_put hu (x := .array items) rfl)
    rw [nullable_conform (hsolid items₀)] at hw
    obtain ⟨source', fill, hframed, hconform⟩ := ih hsound hv hu hw
    exact ⟨source', fill, framed_nullable hframed, fun items => by
      rw [nullable_conform (hsolid items), hconform]⟩
  | @member _ _ _ _ _ _ _ f' _ _ _ hshows h ih =>
    obtain ⟨hfields, hkeys, hperm⟩ := Format.isSound_fields hsound
    obtain ⟨x, outer, inner, hlook, -, hinner, rfl⟩ := focus_member hshows.at hu
    -- what is around a list is never `null`, so that the member is kept whatever the elements are
    have hsolid := fun items => ne_null_of_isAtom (h.isAtom_put hinner (x := .array items) rfl)
    have hkey := hperm.mem_iff.mp hshows.at.mem_keys
    obtain ⟨source₁, before, after, hbefore, hafter, hall⟩ :=
      record_conform hv hkey (hperm.nodup_iff.mp hkeys) hlook hw
    simp only [hshows.at.conformField] at hall
    have hitems : ∀ items, f'.fill source₁ (inner (.array items)) =
        (f'.conform source₁ (inner (.array items))).map some :=
      fun items => Format.fill_of_ne_null (hsolid items)
    rw [Function.comp_apply, hall, hitems] at hw
    obtain ⟨kept, hkept, -⟩ := map_eq_ok.mp hw
    obtain ⟨y, hy, -⟩ := map_eq_ok.mp hkept
    obtain ⟨source', fill, hframed, hconform⟩ :=
      ih (hshows.isSound hfields).2 (ordered_look hv hlook) hinner hy
    refine ⟨source', _, framed_member hframed hshows hkeys hbefore hafter, fun items => ?_⟩
    rw [Function.comp_apply, hall, hitems, hconform]
    cases conformItems (item.conform source') items <;> rfl

end Format.Part

/-! ### Elements that fail -/

theorem conformItems_first {check : Json → Except Mismatch Json} {before after : List Json}
    {w : Json} {e : Mismatch} (hbefore : ∀ u ∈ before, ∃ x, check u = .ok x)
    (hw : check w = .error e) : conformItems check (before ++ w :: after) = .error e := by
  induction before with
  | nil =>
    rw [List.nil_append, conformItems, hw]
    rfl
  | cons u rest ih =>
    obtain ⟨⟨x, hx⟩, hrest⟩ := List.forall_mem_cons.mp hbefore
    rw [List.cons_append, conformItems, hx, ih hrest]
    rfl

theorem Format.decode_of_conform {α : Type} {f : Format α} {source : Source} {v w : Json}
    (h : f.conform source v = .ok w) : f.decode v = f.read w := by
  rw [Format.decode, f.conform_source h]
  rfl

/-- The first element that fails on its own is the first that fails among all, if all of them have
the right shape. -/
theorem readItems_first {γ : Type} {item : Format γ} {source : Source} {before after xs : List Json}
    {w : Json} {e : DecodeError}
    (hxs : conformItems (item.conform source) (before ++ w :: after) = .ok xs)
    (hbefore : ∀ u ∈ before, ∃ c, item.decode u = .ok c) (hw : item.decode w = .error e) :
    readItems item.read xs = .error e := by
  induction before generalizing xs with
  | nil =>
    obtain ⟨x, tail, hx, -, rfl⟩ := conformItems_cons.mp hxs
    rw [readItems, ← Format.decode_of_conform hx, hw]
    rfl
  | cons u rest ih =>
    obtain ⟨⟨c, hc⟩, hrest⟩ := List.forall_mem_cons.mp hbefore
    obtain ⟨x, tail, hx, htail, rfl⟩ := conformItems_cons.mp hxs
    rw [readItems, ← Format.decode_of_conform hx, hc, ih htail hrest]
    rfl

/-! ### Lists in payloads -/

namespace Format.Part

variable {α γ : Type} {item : Format γ} {f : Format α} {place : List Spot}
  {get : α → Option (List γ)} {v u w : Json} {put : Json → Json}

theorem list_kept (h : (Format.list item).Part f place get) (hsound : f.isSound = true)
    (hv : v.Ordered) (hu : f.focus place v = some (u, put)) {a : α} (ha : f.decode v = .ok a) :
    ∃ ws as, u = .array ws ∧ get a = some as ∧
      List.Forall₂ (fun w c => item.decode w = .ok c) ws as := by
  obtain ⟨source, as, has, hlist⟩ := h.kept hsound hv (decode_eq_ok.mp ha) hu
  obtain ⟨ws, rfl, hall⟩ := list_denotes_iff.mp hlist
  exact ⟨ws, as, rfl, has, hall.imp fun _ _ => Format.Denotes.decode⟩

theorem list_missing (h : (Format.list item).Part f place get) (hsound : f.isSound = true)
    (hv : v.Ordered) (hu : f.focus place v = none) {a : α} (ha : f.decode v = .ok a) :
    (get a).getD [] = [] := by
  cases has : get a with
  | none => rfl
  | some as => exact List.isEmpty_iff.mp (h.missing hsound hv (decode_eq_ok.mp ha) hu has)

theorem list_fails (h : (Format.list item).Part f place get) (hsound : f.isSound = true)
    (hv : v.Ordered) {ws : List Json} (hu : f.focus place v = some (.array ws, put))
    (hmem : w ∈ ws) {e : DecodeError} (hw : item.decode w = .error e) :
    ∃ e', f.decode v = .error e' := by
  cases ha : f.decode v with
  | error e' => exact ⟨e', rfl⟩
  | ok a =>
    obtain ⟨ws', as, heq, -, hall⟩ := h.list_kept hsound hv hu ha
    obtain rfl := Json.array.inj heq
    obtain ⟨i, hi⟩ := List.getElem?_of_mem hmem
    obtain ⟨c, -, hc⟩ := forall₂_getElem? hall hi
    rw [hw] at hc
    cases hc

section Around

variable {before after : List Json}

theorem list_reported (h : (Format.list item).Part f place get) (hsound : f.isSound = true)
    (hv : v.Ordered) (hu : f.focus place v = some (.array (before ++ w :: after), put))
    (hshape : ∃ x, f.conform .direct v = .ok x) (hrest : ∃ a, f.decode (put (.array [])) = .ok a)
    (hbefore : ∀ u ∈ before, ∃ c, item.decode u = .ok c) {e : DecodeError}
    (hw : item.decode w = .error e) : f.decode v = .error e := by
  obtain ⟨a, ha⟩ := hrest
  obtain ⟨w₀, hw₀, hread⟩ := decode_eq_ok.mp ha
  -- what is around the list is known from the payload in which the list is empty
  obtain ⟨source, fill, hframed, hconform⟩ := h.frame hsound hv hu hw₀
  rw [hconform] at hw₀
  obtain rfl := Except.ok.inj hw₀
  obtain ⟨build, hbuild⟩ := hframed.reads [] a hread
  obtain ⟨x, hx⟩ := hshape
  have hx' := hx
  rw [← h.put_focus hv hu, hconform] at hx'
  obtain ⟨xs, hxs, rfl⟩ := map_eq_ok.mp hx'
  rw [Format.decode_of_conform hx, hbuild, readItems_first hxs hbefore hw]
  rfl

theorem list_shape (h : (Format.list item).Part f place get) (hsound : f.isSound = true)
    (hv : v.Ordered) (hu : f.focus place v = some (.array (before ++ w :: after), put))
    (hrest : ∃ x, f.conform .direct (put (.array [])) = .ok x)
    (hbefore : ∀ u ∈ before, ∃ x, item.conform .direct u = .ok x) {m : Mismatch}
    (hw : item.conform .direct w = .error m) :
    ∃ source m', item.conform source w = .error m' ∧ f.decode v = .error (.shape m') := by
  obtain ⟨x, hx⟩ := hrest
  obtain ⟨source, fill, -, hconform⟩ := h.frame hsound hv hu hx
  have hbefore' : ∀ u ∈ before, ∃ x, item.conform source u = .ok x := fun u hmem => by
    obtain ⟨x, hx⟩ := hbefore u hmem
    exact ⟨x, item.conform_source hx⟩
  cases hm : item.conform source w with
  | ok x =>
    rw [item.conform_source hm] at hw
    cases hw
  | error m' =>
    refine ⟨source, m', hm, ?_⟩
    rw [Format.decode, ← h.put_focus hv hu, hconform, conformItems_first hbefore' hm]
    rfl

end Around

end Format.Part

/-- A list in the payloads of a format: where it stands, how its elements are read, and which part
of the value they give. -/
structure Listing (α : Type) where
  {Item : Type}
  place : List Spot
  item : Format Item
  items : α → Option (List Item)

/-- The elements of a list are read in place, each on its own, or none of them is. -/
structure Listing.ReadInPlace {α : Type} (l : Listing α) (f : Format α) : Prop where
  /-- The list in the value has the length of the list in the payload, and each of its elements is
  what the one in the same place stands for on its own. -/
  kept : ∀ {v u : Json} {put : Json → Json} {a : α}, v.Ordered →
    f.focus l.place v = some (u, put) → f.decode v = .ok a →
      ∃ ws as, u = .array ws ∧ l.items a = some as ∧
        List.Forall₂ (fun w c => l.item.decode w = .ok c) ws as
  /-- A list that is not there has no elements. -/
  missing : ∀ {v : Json} {a : α}, v.Ordered → f.focus l.place v = none → f.decode v = .ok a →
    (l.items a).getD [] = []
  /-- With an element that fails on its own everything fails. -/
  fails : ∀ {v w : Json} {ws : List Json} {put : Json → Json} {e : DecodeError}, v.Ordered →
    f.focus l.place v = some (.array ws, put) → w ∈ ws → l.item.decode w = .error e →
      ∃ e', f.decode v = .error e'
  /-- If everything has the right shape, and all but this list is read, then the first of its
  elements that fails on its own is reported. -/
  reported : ∀ {v w : Json} {before after : List Json} {put : Json → Json} {e : DecodeError},
    v.Ordered → f.focus l.place v = some (.array (before ++ w :: after), put) →
      (∃ x, f.conform .direct v = .ok x) → (∃ a, f.decode (put (.array [])) = .ok a) →
        (∀ u ∈ before, ∃ c, l.item.decode u = .ok c) → l.item.decode w = .error e →
          f.decode v = .error e
  /-- If all but this list has the right shape, then the first of its elements that has not is
  reported. -/
  shape : ∀ {v w : Json} {before after : List Json} {put : Json → Json} {m : Mismatch},
    v.Ordered → f.focus l.place v = some (.array (before ++ w :: after), put) →
      (∃ x, f.conform .direct (put (.array [])) = .ok x) →
        (∀ u ∈ before, ∃ x, l.item.conform .direct u = .ok x) →
          l.item.conform .direct w = .error m →
            ∃ source m', l.item.conform source w = .error m' ∧ f.decode v = .error (.shape m')

/-- **Lists are read in place**, wherever they stand in a payload. -/
theorem Format.Part.readInPlace {α γ : Type} {item : Format γ} {f : Format α} {place : List Spot}
    {get : α → Option (List γ)} (h : (Format.list item).Part f place get)
    (hsound : f.isSound = true) : (Listing.mk place item get).ReadInPlace f where
  kept hv hu ha := h.list_kept hsound hv hu ha
  missing hv hu ha := h.list_missing hsound hv hu ha
  fails hv hu hmem hw := h.list_fails hsound hv hu hmem hw
  reported hv hu hshape hrest hbefore hw := h.list_reported hsound hv hu hshape hrest hbefore hw
  shape hv hu hrest hbefore hw := h.list_shape hsound hv hu hrest hbefore hw

/-! ### Where lists stand -/

mutual

/-- Where lists stand in payloads of a format, `index` being the place in any list around them. -/
def Format.listPlaces {α : Type} (index : Nat) : Format α → List (List Spot)
  | .scalar _ => []
  | .list item => [] :: (item.listPlaces index).map (.item index :: ·)
  | .nullable item => item.listPlaces index
  | .refine base _ => base.listPlaces index
  | .record _ fields => fields.listPlaces index

/-- The same below the keys of a record. -/
def Fields.listPlaces {α : Type} (index : Nat) : Fields α → List (List Spot)
  | .build _ => []
  | .seek before _ _ => before.listPlaces index
  | .field before key _ format =>
    before.listPlaces index ++ (format.listPlaces index).map (.member key :: ·)

end

end Schema
end NodeClient
