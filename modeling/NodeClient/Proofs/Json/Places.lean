import NodeClient.Proofs.Json.Members

/-!
# Places — one member of one object, and the value without it

A place is a list of steps, to a member by its key or to an item by its index.  `Json.remove` takes
out the member at the end of a place; if nothing stands there, the value is left as it is.

* `lookup_removeMember`: what keys look up in an object that lost a member, or a member of a member.
* `remove_atom`, `remove_eq_atom`: values that hold no others are left as they are.
-/

namespace NodeClient
namespace Json

theorem lookup_append (key : String) (M N : List (String × Json)) :
    lookup key (M ++ N) = (lookup key M).or (lookup key N) := by
  induction M with
  | nil => rfl
  | cons m rest ih =>
    obtain ⟨k, v⟩ := m
    rw [List.cons_append, lookup_cons, lookup_cons, ih]
    split <;> rfl

/-- A selection by keys keeps what the selected keys look up. -/
theorem lookup_filter (p : String → Bool) (key : String) (members : List (String × Json)) :
    lookup key (members.filter fun m => p m.1) = if p key then lookup key members else none := by
  induction members with
  | nil => exact (ite_self none).symm
  | cons m rest ih =>
    obtain ⟨k, v⟩ := m
    rw [List.filter_cons]
    by_cases hk : k = key
    · subst hk
      rw [lookup_cons, if_pos rfl]
      split
      · rw [lookup_cons, if_pos rfl]
      · next hp => rw [ih, if_neg hp]
    · rw [lookup_cons, if_neg hk]
      split
      · rw [lookup_cons, if_neg hk, ih]
      · exact ih

/-- A step to one place in a value. -/
inductive Spot where
  | member (key : String)
  | item (index : Nat)
deriving DecidableEq

/-- The object without a member. -/
def without (key : String) : Json → Json
  | .object members => .object (erase key members)
  | v => v

/-- The list with one item changed. -/
def modifyItem (index : Nat) (f : Json → Json) : Json → Json
  | .array items => .array (items.modify index f)
  | v => v

/-- The value without the member at a place. -/
def remove : List Spot → Json → Json
  | [] => fun v => v
  | [.member key] => without key
  | .member key :: next :: rest => modify key (remove (next :: rest))
  | .item index :: rest => modifyItem index (remove rest)

/-- What is left of a member once the rest of a place is taken out of it. -/
def removeFound : List Spot → Option Json → Option Json
  | [], _ => none
  | rest, found => found.map (remove rest)

/-- The members once a member, or the rest of a place in it, is taken out. -/
def removeMember (key : String) (rest : List Spot) (members : List (String × Json)) :
    List (String × Json) :=
  match rest with
  | [] => erase key members
  | rest => members.map fun m => if m.1 = key then (m.1, remove rest m.2) else m

theorem remove_object (key : String) (rest : List Spot) (members : List (String × Json)) :
    remove (.member key :: rest) (.object members) = .object (removeMember key rest members) := by
  cases rest <;> rfl

theorem remove_item (index : Nat) (rest : List Spot) (items : List Json) :
    remove (.item index :: rest) (.array items) = .array (items.modify index (remove rest)) :=
  rfl

theorem lookup_removeMember (key : String) (rest : List Spot) (members : List (String × Json))
    (k : String) :
    lookup k (removeMember key rest members) =
      if k = key then removeFound rest (lookup k members) else lookup k members := by
  cases rest with
  | nil => exact lookup_erase key members k
  | cons next rest => exact lookup_modify key _ members k

theorem removeMember_append (key : String) (rest : List Spot) (M N : List (String × Json)) :
    removeMember key rest (M ++ N) = removeMember key rest M ++ removeMember key rest N := by
  cases rest with
  | nil => exact List.filter_append ..
  | cons next rest => exact List.map_append ..

/-- A selection by keys is the same before and after. -/
theorem filter_removeMember (p : String → Bool) (key : String) (rest : List Spot)
    (members : List (String × Json)) :
    (removeMember key rest members).filter (fun m => p m.1) =
      removeMember key rest (members.filter fun m => p m.1) := by
  cases rest with
  | nil =>
    simp only [removeMember, erase, List.filter_filter, Bool.and_comm]
  | cons next rest =>
    have hkeys : ∀ m : String × Json,
        p (if m.1 = key then (m.1, remove (next :: rest) m.2) else m).1 = p m.1 := fun m => by
      split <;> rfl
    simp only [removeMember, List.filter_map, Function.comp_def, hkeys]

/-- Nothing is taken out of an object by an index. -/
theorem remove_item_object (index : Nat) (rest : List Spot) (members : List (String × Json)) :
    remove (.item index :: rest) (.object members) = .object members :=
  rfl

theorem remove_member_array (key : String) (rest : List Spot) (items : List Json) :
    remove (.member key :: rest) (.array items) = .array items := by
  cases rest <;> rfl

/-- Whether a value holds no others. -/
def isAtom : Json → Bool
  | .array _ | .object _ => false
  | _ => true

/-- There is nothing to take out of a value that holds no others. -/
theorem remove_atom {v : Json} (h : v.isAtom = true) (place : List Spot) : v.remove place = v := by
  match place with
  | [] => rfl
  | [.member key] | .member key :: next :: rest | .item index :: rest =>
    cases v with
    | array | object => cases h
    | _ => rfl

/-- A list stays a list. -/
theorem remove_array (place : List Spot) (items : List Json) :
    ∃ items', remove place (.array items) = .array items' := by
  match place with
  | [] => exact ⟨items, rfl⟩
  | .member key :: rest => exact ⟨items, remove_member_array key rest items⟩
  | .item index :: rest => exact ⟨_, remove_item index rest items⟩

/-- An object stays an object. -/
theorem remove_members (place : List Spot) (members : List (String × Json)) :
    ∃ members', remove place (.object members) = .object members' := by
  match place with
  | [] => exact ⟨members, rfl⟩
  | .member key :: rest => exact ⟨_, remove_object key rest members⟩
  | .item index :: rest => exact ⟨members, remove_item_object index rest members⟩

theorem isAtom_remove (place : List Spot) (v : Json) : (v.remove place).isAtom = v.isAtom := by
  cases v with
  | array items =>
    obtain ⟨items', h⟩ := remove_array place items
    rw [h]
    rfl
  | object members =>
    obtain ⟨members', h⟩ := remove_members place members
    rw [h]
    rfl
  | _ => rw [remove_atom rfl]

/-- Only what is an atom itself is one afterwards. -/
theorem remove_eq_atom {place : List Spot} {v w : Json} (hw : w.isAtom = true) :
    v.remove place = w ↔ v = w := by
  constructor
  · intro h
    have hv : v.isAtom = true := by rw [← isAtom_remove place, h, hw]
    rwa [remove_atom hv] at h
  · rintro rfl
    exact remove_atom hw place

end Json
end NodeClient
