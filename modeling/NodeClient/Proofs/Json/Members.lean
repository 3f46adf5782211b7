import NodeClient.Json.Basic

/-!
# Members — looking into objects, and changing them

An object is known by what its keys look up.  The operations here take members out of an object,
change them or rename them, and each has one lemma that says what keys look up afterwards.

* `pick`: the object of some of the members.
* `modify`, `each`: a member, or all items, changed.
* `renameAll`: members under other keys; they stay in order (`ordered_renameAll`).
* `Json.alter` changes the values at the end of a path, and `Json.everyAt` tests them.
* `Json.Renaming`: members at the end of a path that get other names.
-/

namespace NodeClient
namespace Json

/-! ### Looking up -/

@[simp] theorem lookup_nil (key : String) : lookup key [] = none := rfl

theorem lookup_cons (key k : String) (v : Json) (rest : List (String × Json)) :
    lookup key ((k, v) :: rest) = if k = key then some v else lookup key rest := rfl

@[simp] theorem get?_object (members : List (String × Json)) (key : String) :
    (object members).get? key = lookup key members := rfl

theorem mem_of_lookup {key : String} {members : List (String × Json)} {v : Json}
    (h : lookup key members = some v) : (key, v) ∈ members := by
  induction members with
  | nil => cases h
  | cons m rest ih =>
    obtain ⟨k, w⟩ := m
    rw [lookup_cons] at h
    split at h
    · next hk =>
      obtain rfl := Option.some.inj h
      subst hk
      exact .head rest
    · exact .tail _ (ih h)

theorem lookup_eq_none {key : String} {members : List (String × Json)} :
    lookup key members = none ↔ ∀ m ∈ members, m.1 ≠ key := by
  induction members with
  | nil => simp
  | cons m rest ih =>
    obtain ⟨k, v⟩ := m
    by_cases hk : k = key <;> simp [lookup_cons, hk, ih]

/-- One member for each key. -/
def OneEach (members : List (String × Json)) : Prop :=
  (members.map (·.1)).Nodup

theorem OneEach.lookup {key : String} {members : List (String × Json)} {v : Json}
    (h : OneEach members) (hm : (key, v) ∈ members) : Json.lookup key members = some v := by
  induction members with
  | nil => cases hm
  | cons m rest ih =>
    obtain ⟨k, w⟩ := m
    obtain ⟨hnot, hrest⟩ := List.nodup_cons.mp h
    rw [lookup_cons]
    rcases List.mem_cons.mp hm with heq | hm
    · obtain ⟨rfl, rfl⟩ := Prod.mk.injEq .. ▸ heq
      rw [if_pos rfl]
    · have hk : k ≠ key := by
        rintro rfl
        exact hnot (List.mem_map.mpr ⟨(k, v), hm, rfl⟩)
      rw [if_neg hk]
      exact ih hrest hm

theorem lookup_erase (key : String) (members : List (String × Json)) (k : String) :
    lookup k (erase key members) = if k = key then none else lookup k members := by
  induction members with
  | nil => simp [erase]
  | cons m rest ih =>
    obtain ⟨k', v⟩ := m
    unfold erase at ih ⊢
    by_cases hk' : k' = key
    · rw [List.filter_cons_of_neg (by simpa using hk'), ih, lookup_cons]
      by_cases hk : k = key
      · rw [if_pos hk, if_pos hk]
      · rw [if_neg hk, if_neg hk, if_neg fun h => hk (h.symm.trans hk')]
    · rw [List.filter_cons_of_pos (by simpa using hk'), lookup_cons, lookup_cons, ih]
      by_cases hk : k' = k
      · rw [if_pos hk, if_pos hk, if_neg fun h => hk' (hk.trans h)]
      · rw [if_neg hk, if_neg hk]

theorem lookup_insert (key : String) (value : Json) (members : List (String × Json)) (k : String) :
    lookup k (insert key value members) = if k = key then some value else lookup k members := by
  induction members with
  | nil => simp [insert, lookup_cons, eq_comm]
  | cons m rest ih =>
    obtain ⟨k', v⟩ := m
    rw [insert]
    split
    · rw [lookup_cons]
      by_cases hk : k = key
      · rw [if_pos hk, if_pos hk.symm]
      · rw [if_neg hk, if_neg fun h => hk h.symm]
    split
    · next hk' =>
      rw [lookup_cons, lookup_cons]
      by_cases hk : k = key
      · rw [if_pos hk, if_pos hk.symm]
      · rw [if_neg hk, if_neg fun h => hk h.symm, if_neg fun h => hk (h.symm.trans hk')]
    · next hk' =>
      rw [lookup_cons, lookup_cons, ih]
      by_cases hk : k' = k
      · rw [if_pos hk, if_pos hk, if_neg fun h => hk' (hk.trans h)]
      · rw [if_neg hk, if_neg hk]

/-! ### Order -/

theorem orderedItems_iff {items : List Json} : OrderedItems items ↔ ∀ v ∈ items, v.Ordered := by
  induction items with
  | nil => simp [OrderedItems]
  | cons v rest ih => simp [OrderedItems, ih]

theorem orderedMembers_iff {members : List (String × Json)} :
    OrderedMembers members ↔ ∀ m ∈ members, m.2.Ordered := by
  induction members with
  | nil => simp [OrderedMembers]
  | cons m rest ih => simp [OrderedMembers, ih]

theorem ordered_array {items : List Json} : (array items).Ordered ↔ ∀ v ∈ items, v.Ordered := by
  rw [Ordered, orderedItems_iff]

theorem ordered_object {members : List (String × Json)} :
    (object members).Ordered ↔
      (members.map (·.1)).Pairwise (· < ·) ∧ ∀ m ∈ members, m.2.Ordered := by
  rw [Ordered, orderedMembers_iff]

theorem Ordered.oneEach {members : List (String × Json)} (h : (object members).Ordered) :
    OneEach members := by
  refine (ordered_object.mp h).1.imp ?_
  rintro a b hlt rfl
  exact String.lt_irrefl a hlt

theorem Ordered.lookup {members : List (String × Json)} (h : (object members).Ordered)
    {key : String} {v : Json} (hv : Json.lookup key members = some v) : v.Ordered :=
  (ordered_object.mp h).2 _ (mem_of_lookup hv)

/-! ### Picking members -/

/-- The object of the members with these keys, in the order of the keys. -/
def pick (keys : List String) : Json → Json
  | .object members => .object (keys.filterMap fun k => (lookup k members).map (k, ·))
  | v => v

/-- An object is cut down to the keys that are picked. -/
theorem get?_pick (keys : List String) (v : Json) (k : String) :
    (v.pick keys).get? k = if k ∈ keys then v.get? k else none := by
  cases v with
  | object members =>
    show lookup k _ = if k ∈ keys then lookup k members else none
    induction keys with
    | nil => rfl
    | cons key rest ih =>
      cases hl : lookup key members with
      | none =>
        rw [List.filterMap_cons_none (by rw [hl]; rfl), ih]
        by_cases hk : k = key
        · simp [hk, hl]
        · simp [hk]
      | some w =>
        rw [List.filterMap_cons_some (by rw [hl]; rfl), lookup_cons, ih]
        by_cases hk : k = key
        · simp [hk, hl]
        · rw [if_neg fun h => hk h.symm]
          simp [hk]
  | _ => exact (ite_self none).symm

/-! ### Changing values -/

/-- The object with the value of a member changed. -/
def modify (key : String) (f : Json → Json) : Json → Json
  | .object members => .object (members.map fun m => if m.1 = key then (m.1, f m.2) else m)
  | v => v

/-- The list with its items changed. -/
def each (f : Json → Json) : Json → Json
  | .array items => .array (items.map f)
  | v => v

theorem lookup_modify (key : String) (f : Json → Json) (members : List (String × Json))
    (k : String) :
    lookup k (members.map fun m => if m.1 = key then (m.1, f m.2) else m) =
      if k = key then (lookup k members).map f else lookup k members := by
  induction members with
  | nil => simp
  | cons m rest ih =>
    obtain ⟨k', v⟩ := m
    rw [List.map_cons, lookup_cons]
    by_cases hk' : k' = key
    · rw [if_pos hk', lookup_cons, ih]
      by_cases hk : k' = k
      · rw [if_pos hk, if_pos hk, if_pos (hk ▸ hk')]; rfl
      · rw [if_neg hk, if_neg hk]
    · rw [if_neg hk', lookup_cons, ih]
      by_cases hk : k' = k
      · rw [if_pos hk, if_pos hk, if_neg fun h => hk' (hk.trans h)]
      · rw [if_neg hk, if_neg hk]

theorem get?_modify (key : String) (f : Json → Json) (v : Json) (k : String) :
    (v.modify key f).get? k = if k = key then (v.get? k).map f else v.get? k := by
  cases v with
  | object members => exact lookup_modify key f members k
  | _ => exact (ite_self none).symm

theorem keys_modify (key : String) (f : Json → Json) (members : List (String × Json)) :
    (members.map fun m => if m.1 = key then (m.1, f m.2) else m).map (·.1) =
      members.map (·.1) := by
  rw [List.map_map]
  refine List.map_congr_left fun m _ => ?_
  show (if m.1 = key then (m.1, f m.2) else m).1 = m.1
  split <;> rfl

/-! ### Renaming members -/

/-- The members with one of them under another key. -/
def renameMember (old new : String) (members : List (String × Json)) : List (String × Json) :=
  match lookup old members with
  | some value => insert new value (erase old members)
  | none => members

/-- The members with several of them under other keys, one after the other. -/
def renameMembers (names : List (String × String)) (members : List (String × Json)) :
    List (String × Json) :=
  names.foldl (fun members name => renameMember name.1 name.2 members) members

/-- The object with several members under other keys. -/
def renameAll (names : List (String × String)) : Json → Json
  | .object members => .object (renameMembers names members)
  | v => v

/-- A member is found under its new key, if that was free. -/
theorem lookup_renameMember {old new : String} {members : List (String × Json)}
    (hfree : lookup new members = none) (k : String) :
    lookup k (renameMember old new members) =
      if k = new then lookup old members else if k = old then none else lookup k members := by
  unfold renameMember
  split
  · next value hold => rw [lookup_insert, lookup_erase, hold]
  · next hold =>
    split
    · next hk => rw [hk, hfree, hold]
    split
    · next hk => rw [hk, hold]
    · rfl

/-- All keys that a renaming speaks about. -/
def renamedKeys (names : List (String × String)) : List String :=
  names.flatMap fun name => [name.1, name.2]

/-- Members are found under their new keys, if those were free, and the others where they were. -/
theorem lookup_renameMembers {names : List (String × String)} {members : List (String × Json)}
    (hnames : (renamedKeys names).Nodup) (hfree : ∀ name ∈ names, lookup name.2 members = none) :
    (∀ name ∈ names, lookup name.2 (renameMembers names members) = lookup name.1 members) ∧
      ∀ k, k ∉ renamedKeys names → lookup k (renameMembers names members) = lookup k members := by
  induction names generalizing members with
  | nil => exact ⟨nofun, fun _ _ => rfl⟩
  | cons first rest ih =>
    obtain ⟨old, new⟩ := first
    obtain ⟨hold, hrest⟩ := List.nodup_cons.mp hnames
    obtain ⟨hnew, hrest⟩ := List.nodup_cons.mp hrest
    have hfirst : ∀ k, lookup k (renameMember old new members) = _ :=
      lookup_renameMember (hfree _ (.head rest))
    have hother : ∀ k, k ≠ old → k ≠ new →
        lookup k (renameMember old new members) = lookup k members := fun k hkold hknew => by
      rw [hfirst, if_neg hknew, if_neg hkold]
    have hapart : ∀ name ∈ rest, ∀ k, k = name.1 ∨ k = name.2 → k ≠ old ∧ k ≠ new := by
      intro name hname k hk
      have hmem : k ∈ renamedKeys rest := List.mem_flatMap.mpr ⟨name, hname, by simpa using hk⟩
      exact ⟨fun h => hold (.tail _ (h ▸ hmem)), fun h => hnew (h ▸ hmem)⟩
    obtain ⟨hnamed, hunnamed⟩ := ih hrest fun name hname => by
      obtain ⟨hkold, hknew⟩ := hapart name hname name.2 (.inr rfl)
      rw [hother _ hkold hknew]
      exact hfree name (.tail _ hname)
    refine ⟨fun name hname => ?_, fun k hk => ?_⟩
    · rcases List.mem_cons.mp hname with rfl | hname
      · exact (hunnamed new hnew).trans ((hfirst new).trans (if_pos rfl))
      · obtain ⟨hkold, hknew⟩ := hapart name hname name.1 (.inl rfl)
        exact (hnamed name hname).trans (hother _ hkold hknew)
    · have hk : k ∉ old :: new :: renamedKeys rest := hk
      have hk' := List.not_mem_of_not_mem_cons hk
      exact (hunnamed k (List.not_mem_of_not_mem_cons hk')).trans
        (hother k (List.ne_of_not_mem_cons hk) (List.ne_of_not_mem_cons hk'))

theorem mem_insert {key : String} {value : Json} {members : List (String × Json)}
    {m : String × Json} (hm : m ∈ insert key value members) :
    m = (key, value) ∨ m ∈ members := by
  induction members with
  | nil => exact .inl (List.mem_singleton.mp hm)
  | cons first rest ih =>
    obtain ⟨k, v⟩ := first
    rw [insert] at hm
    split at hm
    · exact List.mem_cons.mp hm
    split at hm
    · exact (List.mem_cons.mp hm).imp_right (.tail _)
    · rcases List.mem_cons.mp hm with rfl | hm
      · exact .inr (.head rest)
      · exact (ih hm).imp_right (.tail _)

theorem ascending_insert {key : String} {value : Json} {members : List (String × Json)}
    (h : (members.map (·.1)).Pairwise (· < ·)) :
    ((insert key value members).map (·.1)).Pairwise (· < ·) := by
  induction members with
  | nil => exact List.pairwise_singleton _ _
  | cons first rest ih =>
    obtain ⟨k, v⟩ := first
    obtain ⟨hfirst, hrest⟩ := List.pairwise_cons.mp h
    rw [insert]
    split
    · next hlt =>
      refine List.pairwise_cons.mpr ⟨fun k' hk' => ?_, h⟩
      rcases List.mem_cons.mp hk' with rfl | hk'
      · exact hlt
      · exact String.lt_trans hlt (hfirst k' hk')
    split
    · next heq =>
      subst heq
      exact List.pairwise_cons.mpr ⟨hfirst, hrest⟩
    · next hlt hne =>
      refine List.pairwise_cons.mpr ⟨fun k' hk' => ?_, ih hrest⟩
      obtain ⟨m, hm, rfl⟩ := List.mem_map.mp hk'
      rcases mem_insert hm with rfl | hm
      · refine Decidable.byContradiction fun hge => hne ?_
        exact String.le_antisymm (String.not_lt.mp hlt) (String.not_lt.mp hge)
      · exact hfirst _ (List.mem_map.mpr ⟨m, hm, rfl⟩)

theorem ordered_renameMember {old new : String} {members : List (String × Json)}
    (h : (object members).Ordered) : (object (renameMember old new members)).Ordered := by
  unfold renameMember
  split
  · next value hold =>
    obtain ⟨hasc, hall⟩ := ordered_object.mp h
    have hsub : (erase old members).Sublist members := List.filter_sublist
    refine ordered_object.mpr ⟨ascending_insert (hasc.sublist (hsub.map _)), fun m hm => ?_⟩
    rcases mem_insert hm with rfl | hm
    · exact h.lookup hold
    · exact hall m (hsub.subset hm)
  · exact h

theorem ordered_renameAll (names : List (String × String)) {v : Json} (h : v.Ordered) :
    (v.renameAll names).Ordered := by
  cases v with
  | object members =>
    show (object (renameMembers names members)).Ordered
    induction names generalizing members with
    | nil => exact h
    | cons name rest ih => exact ih _ (ordered_renameMember h)
  | _ => exact h

theorem renameAll_eq_null {names : List (String × String)} {v : Json} :
    v.renameAll names = .null ↔ v = .null := by
  cases v <;> simp [renameAll]

/-! ### Places in a value -/

/-- A step into a value. -/
inductive Step where
  | member (key : String)
  /-- To every item of a list. -/
  | items

/-- The value with what stands at the end of a path changed. -/
def alter (f : Json → Json) : List Step → Json → Json
  | [] => f
  | .member key :: path => modify key (alter f path)
  | .items :: path => each (alter f path)

/-- Whether everything that stands at the end of a path passes a test. -/
def everyAt (p : Json → Bool) : List Step → Json → Bool
  | [], v => p v
  | .member key :: path, v => (v.get? key).all (everyAt p path)
  | .items :: path, .array items => items.all (everyAt p path)
  | .items :: _, _ => true

theorem modify_eq_null {key : String} {f : Json → Json} {v : Json} :
    v.modify key f = .null ↔ v = .null := by
  cases v <;> simp [modify]

theorem each_eq_null {f : Json → Json} {v : Json} : v.each f = .null ↔ v = .null := by
  cases v <;> simp [each]

/-! ### Renamings -/

/-- Members that get other names, and where they stand. -/
structure Renaming where
  place : List Step
  /-- The names, each with that which it gets. -/
  names : List (String × String)

namespace Renaming

/-- The value with the members renamed. -/
def apply (r : Renaming) : Json → Json :=
  alter (renameAll r.names) r.place

/-- Whether the names that members get are free. -/
def isFree (r : Renaming) : Json → Bool :=
  everyAt (fun v => r.names.all fun name => (v.get? name.2).isNone) r.place

/-- The renaming that leaves everything as it is. -/
def nothing : Renaming := ⟨[], []⟩

theorem apply_nothing (v : Json) : nothing.apply v = v := by
  cases v <;> rfl

end Renaming

end Json
end NodeClient
