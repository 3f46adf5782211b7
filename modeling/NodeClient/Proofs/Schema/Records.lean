import NodeClient.Proofs.Json.Members
import NodeClient.Proofs.Outcome
import NodeClient.Schema.Format
import Mathlib.Data.List.Forall2

/-!
# Records — what the fields of an object stand for

A format is read in two stages.  Here both are taken together: `Format.Denotes` says that a payload
is read as a value, and for a record that is given as an object `Fields.Gives` says it field by
field, by what the keys of the object look up.

A sought path adds nothing when a field that must be there ends the reading anyway
(`Fields.Backed`), so that `Fields.Gives` leaves it out.

* `decode_eq_ok`: decoding is denoting.
* `gives_of_denotes`, `denotes_of_gives`: a record denotes what its fields give.
-/

namespace NodeClient
namespace Schema

open Json (lookup OneEach)

/-! ### Both stages in one -/

/-- A payload is read as a value. -/
def Format.Denotes {α : Type} (f : Format α) (source : Source) (v : Json) (a : α) : Prop :=
  ∃ w, f.conform source v = .ok w ∧ f.read w = .ok a

/-- The shape of what may stand at a key; `null` stands for nothing. -/
def Format.fill {γ : Type} (f : Format γ) (source : Source) : Json → Except Mismatch (Option Json)
  | .null => .ok none
  | v => (f.conform source v).map some

/-- The shape of what was found at a key. -/
def Format.slot {γ : Type} (f : Format γ) (source : Source) :
    Option Json → Except Mismatch (Option Json)
  | none => .ok none
  | some v => f.fill source v

/-- What was found at a key is read as a value by the rule of a field. -/
def Presence.Gives {γ β : Type} (presence : Presence γ β) (f : Format γ) (source : Source)
    (found : Option Json) (b : β) : Prop :=
  ∃ w, f.slot source found = .ok w ∧ presence.read f.read w = .ok b

namespace Fields

/-- The members of an object are read as a value, whatever is sought besides. -/
def Gives {α : Type} (source : Source) (members : List (String × Json)) : Fields α → α → Prop
  | .build make, a => make = a
  | .seek before _ _, a => before.Gives source members a
  | .field before key presence format, a =>
    ∃ make b, before.Gives source members make ∧
      presence.Gives format source (lookup key members) b ∧ make b = a

end Fields

theorem decode_eq_ok {α : Type} {f : Format α} {v : Json} {a : α} :
    f.decode v = .ok a ↔ f.Denotes .direct v a := by
  unfold Format.decode Format.Denotes
  simp only [bind_eq_ok, mapError_eq_ok]

theorem Format.fill_of_ne_null {γ : Type} {f : Format γ} {source : Source} {v : Json}
    (hv : v ≠ .null) : f.fill source v = (f.conform source v).map some := by
  cases v <;> first | rfl | exact absurd rfl hv

theorem nullable_conform {γ : Type} {f : Format γ} {source : Source} {v : Json}
    (hv : v ≠ .null) : (Format.nullable f).conform source v = f.conform source v := by
  cases v <;> first | rfl | exact absurd rfl hv

theorem nullable_read {γ : Type} {f : Format γ} {v : Json} (hv : v ≠ .null) :
    (Format.nullable f).read v = (f.read v).map some := by
  cases v <;> first | rfl | exact absurd rfl hv

theorem slot_eq_ok {γ : Type} {f : Format γ} {source : Source} {found w : Option Json} :
    f.slot source found = .ok w ↔
      (found.getD .null = .null ∧ w = none) ∨
        ∃ v u, found = some v ∧ v ≠ .null ∧ f.conform source v = .ok u ∧ w = some u := by
  cases found with
  | none => simp [Format.slot, eq_comm]
  | some v =>
    by_cases hv : v = .null
    · subst hv
      simp [Format.slot, Format.fill, eq_comm]
    · rw [Format.slot, Format.fill_of_ne_null hv, map_eq_ok]
      simp [hv, eq_comm]

theorem gives_required {γ : Type} {label : String} {f : Format γ} {source : Source}
    {found : Option Json} {b : γ} :
    (Presence.required label).Gives f source found b ↔
      ∃ v, found = some v ∧ v ≠ .null ∧ f.Denotes source v b := by
  simp only [Presence.Gives, slot_eq_ok]
  constructor
  · rintro ⟨w, ⟨-, rfl⟩ | ⟨v, u, rfl, hv, hu, rfl⟩, hb⟩
    · cases hb
    · exact ⟨v, rfl, hv, u, hu, hb⟩
  · rintro ⟨v, rfl, hv, u, hu, hb⟩
    exact ⟨some u, .inr ⟨v, u, rfl, hv, hu, rfl⟩, hb⟩

theorem gives_optional {γ : Type} {f : Format γ} {source : Source} {found : Option Json}
    {b : Option γ} :
    Presence.optional.Gives f source found b ↔
      (found.getD .null = .null ∧ b = none) ∨
        ∃ v c, found = some v ∧ v ≠ .null ∧ f.Denotes source v c ∧ b = some c := by
  simp only [Presence.Gives, slot_eq_ok]
  constructor
  · rintro ⟨w, ⟨hnone, rfl⟩ | ⟨v, u, rfl, hv, hu, rfl⟩, hb⟩
    · exact .inl ⟨hnone, (Except.ok.inj hb).symm⟩
    · obtain ⟨c, hc, rfl⟩ := map_eq_ok.mp hb
      exact .inr ⟨v, c, rfl, hv, ⟨u, hu, hc⟩, rfl⟩
  · rintro (⟨hnone, rfl⟩ | ⟨v, c, rfl, hv, ⟨u, hu, hc⟩, rfl⟩)
    · exact ⟨none, .inl ⟨hnone, rfl⟩, rfl⟩
    · exact ⟨some u, .inr ⟨v, u, rfl, hv, hu, rfl⟩, map_eq_ok.mpr ⟨c, hc, rfl⟩⟩

/-- Whether a text may be empty is not known from the label of its field. -/
theorem gives_nonempty_label {γ : Type} {label label' : String} {f : Format γ} {source : Source}
    {found : Option Json} {b : γ} (h : (Presence.nonempty label).Gives f source found b) :
    (Presence.nonempty label').Gives f source found b := by
  obtain ⟨w, hw, hb⟩ := h
  refine ⟨w, hw, ?_⟩
  cases w with
  | none => cases hb
  | some u =>
    by_cases hu : u = .string ""
    · subst hu
      cases hb
    · rw [Presence.read] at hb ⊢
      · exact hb
      all_goals exact hu

theorem conformItems_cons {check : Json → Except Mismatch Json} {v : Json} {rest ws : List Json} :
    conformItems check (v :: rest) = .ok ws ↔
      ∃ w tail, check v = .ok w ∧ conformItems check rest = .ok tail ∧ ws = w :: tail := by
  rw [conformItems, bind_eq_ok]
  refine exists_congr fun w => ?_
  rw [bind_eq_ok]
  constructor
  · rintro ⟨hw, tail, htail, h⟩
    exact ⟨tail, hw, htail, (Except.ok.inj h).symm⟩
  · rintro ⟨tail, hw, htail, rfl⟩
    exact ⟨hw, tail, htail, rfl⟩

theorem readItems_cons {α : Type} {read : Json → Except DecodeError α} {v : Json}
    {rest : List Json} {as : List α} :
    readItems read (v :: rest) = .ok as ↔
      ∃ a tail, read v = .ok a ∧ readItems read rest = .ok tail ∧ as = a :: tail := by
  rw [readItems, bind_eq_ok]
  refine exists_congr fun a => ?_
  rw [bind_eq_ok]
  constructor
  · rintro ⟨ha, tail, htail, h⟩
    exact ⟨tail, ha, htail, (Except.ok.inj h).symm⟩
  · rintro ⟨tail, ha, htail, rfl⟩
    exact ⟨ha, tail, htail, rfl⟩

theorem items_iff {α : Type} {check : Json → Except Mismatch Json}
    {read : Json → Except DecodeError α} {items : List Json} {as : List α} :
    (∃ ws, conformItems check items = .ok ws ∧ readItems read ws = .ok as) ↔
      List.Forall₂ (fun v a => ∃ w, check v = .ok w ∧ read w = .ok a) items as := by
  induction items generalizing as with
  | nil =>
    rw [List.forall₂_nil_left_iff]
    constructor
    · rintro ⟨_, ⟨⟩, ⟨⟩⟩
      rfl
    · rintro rfl
      exact ⟨[], rfl, rfl⟩
  | cons v rest ih =>
    rw [List.forall₂_cons_left_iff]
    simp only [← ih, conformItems_cons]
    constructor
    · rintro ⟨ws, ⟨w, tail, hw, htail, rfl⟩, hread⟩
      obtain ⟨a, as', ha, has, rfl⟩ := readItems_cons.mp hread
      exact ⟨a, as', ⟨w, hw, ha⟩, ⟨tail, htail, has⟩, rfl⟩
    · rintro ⟨a, as', ⟨w, hw, ha⟩, ⟨tail, htail, has⟩, rfl⟩
      have hread := readItems_cons.mpr ⟨a, as', ha, has, rfl⟩
      exact ⟨w :: tail, ⟨w, tail, hw, htail, rfl⟩, hread⟩

theorem list_denotes_iff {α : Type} {f : Format α} {source : Source} {v : Json} {as : List α} :
    (Format.list f).Denotes source v as ↔
      ∃ items, v = .array items ∧ List.Forall₂ (f.Denotes source) items as := by
  constructor
  · rintro ⟨w, hw, hread⟩
    cases v with
    | array items =>
      obtain ⟨ws, hws, rfl⟩ := map_eq_ok.mp hw
      exact ⟨items, rfl, items_iff.mp ⟨ws, hws, hread⟩⟩
    | _ => cases hw
  · rintro ⟨items, rfl, h⟩
    obtain ⟨ws, hws, hread⟩ := items_iff.mpr h
    exact ⟨.array ws, map_eq_ok.mpr ⟨ws, hws, rfl⟩, hread⟩

/-! ### Members in one form -/

section Members

variable {check : String → Json → Except Mismatch (Option Json)}

theorem conformMembers_cons {k : String} {v : Json} {rest W : List (String × Json)} :
    conformMembers check ((k, v) :: rest) = .ok W ↔
      ∃ kept tail, check k v = .ok kept ∧ conformMembers check rest = .ok tail ∧
        W = (kept.map (k, ·)).toList ++ tail := by
  rw [conformMembers]
  simp only [bind_eq_ok]
  refine exists_congr fun kept => ?_
  constructor
  · rintro ⟨hk, tail, ht, h⟩
    refine ⟨tail, hk, ht, ?_⟩
    cases kept <;> exact (Except.ok.inj h).symm
  · rintro ⟨tail, hk, ht, rfl⟩
    refine ⟨hk, tail, ht, ?_⟩
    cases kept <;> rfl

/-- Members are kept only under their own keys. -/
theorem lookup_of_not_mem {M W : List (String × Json)} (h : conformMembers check M = .ok W)
    {key : String} (hkey : lookup key M = none) : lookup key W = none := by
  induction M generalizing W with
  | nil =>
    obtain rfl := Except.ok.inj h
    rfl
  | cons m rest ih =>
    obtain ⟨k, v⟩ := m
    obtain ⟨kept, tail, -, ht, rfl⟩ := conformMembers_cons.mp h
    rw [Json.lookup_cons] at hkey
    have hne : k ≠ key := fun hk => by rw [if_pos hk] at hkey; cases hkey
    rw [if_neg hne] at hkey
    cases kept with
    | none => exact ih ht hkey
    | some w =>
      show lookup key ((k, w) :: tail) = none
      rw [Json.lookup_cons, if_neg hne]
      exact ih ht hkey

/-- What a key looks up is what was kept of its member. -/
theorem check_lookup {M W : List (String × Json)} (hone : OneEach M)
    (h : conformMembers check M = .ok W) {key : String} {v : Json}
    (hv : lookup key M = some v) : check key v = .ok (lookup key W) := by
  induction M generalizing W with
  | nil => cases hv
  | cons m rest ih =>
    obtain ⟨k, u⟩ := m
    obtain ⟨hnot, hrest⟩ := List.nodup_cons.mp hone
    obtain ⟨kept, tail, hk, ht, rfl⟩ := conformMembers_cons.mp h
    rw [Json.lookup_cons] at hv
    by_cases heq : k = key
    · subst heq
      rw [if_pos rfl] at hv
      obtain rfl := Option.some.inj hv
      have hnone : lookup k rest = none :=
        Json.lookup_eq_none.mpr fun m hm hk => hnot (List.mem_map.mpr ⟨m, hm, hk⟩)
      rw [hk]
      cases kept with
      | none => exact congrArg Except.ok (lookup_of_not_mem ht hnone).symm
      | some w =>
        show _ = Except.ok (lookup k ((k, w) :: tail))
        rw [Json.lookup_cons, if_pos rfl]
    · rw [if_neg heq] at hv
      rw [ih hrest ht hv]
      cases kept with
      | none => rfl
      | some w =>
        show _ = Except.ok (lookup key ((k, w) :: tail))
        rw [Json.lookup_cons, if_neg heq]

theorem conformMembers_total {M : List (String × Json)}
    (h : ∀ m ∈ M, ∃ kept, check m.1 m.2 = .ok kept) : ∃ W, conformMembers check M = .ok W := by
  induction M with
  | nil => exact ⟨[], rfl⟩
  | cons m rest ih =>
    obtain ⟨kept, hk⟩ := h m (.head rest)
    obtain ⟨tail, ht⟩ := ih fun n hn => h n (.tail _ hn)
    exact ⟨_, conformMembers_cons.mpr ⟨kept, tail, hk, ht, rfl⟩⟩

end Members

/-! ### Fields by their keys -/

namespace Fields

/-- The keys of the fields. -/
def keys {α : Type} : Fields α → List String
  | .build _ => []
  | .seek before _ _ => before.keys
  | .field before key _ _ => key :: before.keys

/-- Under the key of every field stands in `W` what its format makes of the member in `M`. -/
def Filled {α : Type} (source : Source) (M W : List (String × Json)) : Fields α → Prop
  | .build _ => True
  | .seek before _ _ => before.Filled source M W
  | .field before key _ format =>
    before.Filled source M W ∧ format.slot source (lookup key M) = .ok (lookup key W)

theorem conformField_field {α β γ : Type} (before : Fields (β → α)) (key : String)
    (presence : Presence γ β) (format : Format γ) (source : Source) (k : String) (v : Json) :
    (Fields.field before key presence format).conformField source k v =
      if k = key then format.fill source v else before.conformField source k v := by
  cases v <;> simp [conformField, Format.fill]

/-- Members that conform field by field fill the fields. -/
theorem filled_of_conform {source : Source} {check : String → Json → Except Mismatch (Option Json)}
    {M W : List (String × Json)} (hone : OneEach M) (hW : conformMembers check M = .ok W)
    {α : Type} : (F : Fields α) → F.keys.Nodup →
      (∀ k ∈ F.keys, ∀ v, check k v = F.conformField source k v) → F.Filled source M W
  | .build _, _, _ => trivial
  | .seek before _ _, hkeys, hcheck => filled_of_conform hone hW before hkeys hcheck
  | .field before key presence format, hkeys, hcheck => by
    obtain ⟨hnot, hbefore⟩ := List.nodup_cons.mp hkeys
    refine ⟨filled_of_conform hone hW before hbefore fun k hk v => ?_, ?_⟩
    · have hne : k ≠ key := fun h => hnot (h ▸ hk)
      rw [hcheck k (.tail _ hk) v, conformField_field, if_neg hne]
    · cases hv : lookup key M with
      | none => exact congrArg Except.ok (lookup_of_not_mem hW hv).symm
      | some v =>
        have hkept := check_lookup hone hW hv
        rw [hcheck key (.head _) v, conformField_field, if_pos rfl] at hkept
        exact hkept

/-- Members that fields read conform to them. -/
theorem conformField_of_gives {source : Source} {M : List (String × Json)} (hone : OneEach M)
    {m : String × Json} (hm : m ∈ M) {α : Type} : (F : Fields α) → {a : α} →
      F.Gives source M a → ∃ kept, F.conformField source m.1 m.2 = .ok kept
  | .build _, _, _ => ⟨none, rfl⟩
  | .seek before _ _, _, h => conformField_of_gives hone hm before h
  | .field before key presence format, _, h => by
    obtain ⟨_, _, hbefore, ⟨w, hw, -⟩, -⟩ := h
    rw [conformField_field]
    split
    · next hk =>
      rw [← hk, OneEach.lookup hone hm] at hw
      exact ⟨w, hw⟩
    · exact conformField_of_gives hone hm before hbefore

/-! ### Reading the fields -/

/-- Members in one form are read as a value, whatever is sought besides. -/
def Reads {α : Type} (W : List (String × Json)) : Fields α → α → Prop
  | .build make, a => make = a
  | .seek before _ _, a => before.Reads W a
  | .field before key presence format, a =>
    ∃ make b, before.Reads W make ∧ presence.read format.read (lookup key W) = .ok b ∧ make b = a

theorem reads_iff_gives {source : Source} {M W : List (String × Json)} {α : Type} :
    (F : Fields α) → F.Filled source M W → ∀ {a : α}, F.Reads W a ↔ F.Gives source M a
  | .build _, _, _ => Iff.rfl
  | .seek before _ _, h, _ => reads_iff_gives before h
  | .field before key presence format, h, _ => by
    obtain ⟨hbefore, hslot⟩ := h
    have hgives : ∀ b, presence.Gives format source (lookup key M) b ↔
        presence.read format.read (lookup key W) = .ok b := fun b => by
      simp only [Presence.Gives, hslot, Except.ok.injEq, exists_eq_left']
    simp only [Reads, Gives, reads_iff_gives before hbefore, hgives]

/-- The paths that are sought. -/
def sought {α : Type} : Fields α → List (List String)
  | .build _ => []
  | .seek before path _ => path :: before.sought
  | .field before _ _ _ => before.sought

theorem read_seek {α : Type} {before : Fields α} {path : List String} {label : String}
    {W : List (String × Json)} {a : α} : (Fields.seek before path label).read W = .ok a ↔
      before.read W = .ok a ∧ holds W path = true := by
  rw [Fields.read, bind_eq_ok]
  constructor
  · rintro ⟨b, hb, h⟩
    split at h
    · next hpath =>
      obtain rfl := Except.ok.inj h
      exact ⟨hb, hpath⟩
    · cases h
  · rintro ⟨ha, hpath⟩
    exact ⟨a, ha, if_pos hpath⟩

theorem read_field {α β γ : Type} {before : Fields (β → α)} {k : String}
    {presence : Presence γ β} {format : Format γ} {W : List (String × Json)} {a : α} :
    (Fields.field before k presence format).read W = .ok a ↔
      ∃ make b, before.read W = .ok make ∧ presence.read format.read (lookup k W) = .ok b ∧
        a = make b := by
  rw [Fields.read, bind_eq_ok]
  refine exists_congr fun make => ?_
  rw [bind_eq_ok]
  constructor
  · rintro ⟨hmake, b, hb, h⟩
    exact ⟨b, hmake, hb, (Except.ok.inj h).symm⟩
  · rintro ⟨b, hmake, hb, rfl⟩
    exact ⟨hmake, b, hb, rfl⟩

theorem read_eq_ok {W : List (String × Json)} {α : Type} :
    (F : Fields α) → {a : α} →
      (F.read W = .ok a ↔ F.Reads W a ∧ ∀ path ∈ F.sought, holds W path = true)
  | .build _, a => by simp [Fields.read, Reads, sought]
  | .seek before path label, a => by
    rw [read_seek, read_eq_ok before, sought, List.forall_mem_cons, and_assoc]
    exact and_congr_right fun _ => and_comm
  | .field before key presence format, a => by
    simp only [read_field, read_eq_ok before, Reads, sought]
    constructor
    · rintro ⟨make, b, ⟨hmake, hpaths⟩, hb, rfl⟩
      exact ⟨⟨make, b, hmake, hb, rfl⟩, hpaths⟩
    · rintro ⟨⟨make, b, hmake, hb, rfl⟩, hpaths⟩
      exact ⟨make, b, ⟨hmake, hpaths⟩, hb, rfl⟩

end Fields

/-! ### Paths that are there anyway -/

/-- Whether reading fails without the field. -/
def Presence.isMandatory {γ β : Type} : Presence γ β → Bool
  | .required _ | .nonempty _ => true
  | .optional | .default _ => false

mutual

/-- Whether only payloads with something at the end of a path are read. -/
def Format.demands {α : Type} : Format α → List String → Bool
  | _, [] => true
  | .record _ fields, path => fields.demands path
  | _, _ => false

/-- Whether only members with something at the end of a path are read. -/
def Fields.demands {α : Type} : Fields α → List String → Bool
  | .build _, _ => false
  | .seek before _ _, path => before.demands path
  | .field before key presence format, path =>
    before.demands path ||
      match path with
      | [] => false
      | k :: rest => k = key && presence.isMandatory && format.demands rest

end

/-- Every path that is sought is demanded besides. -/
def Fields.Backed {α : Type} (F : Fields α) : Prop :=
  ∀ path ∈ F.sought, F.demands path = true

instance {α : Type} (F : Fields α) : Decidable F.Backed :=
  inferInstanceAs (Decidable (∀ path ∈ F.sought, F.demands path = true))

theorem Presence.found_of_mandatory {γ β : Type} {presence : Presence γ β}
    {read : Json → Except DecodeError γ} {found : Option Json} {b : β}
    (hp : presence.isMandatory = true) (h : presence.read read found = .ok b) :
    ∃ w c, found = some w ∧ read w = .ok c := by
  cases presence with
  | required label =>
    cases found with
    | none => cases h
    | some w => exact ⟨w, b, rfl, h⟩
  | nonempty label =>
    cases found with
    | none => cases h
    | some w =>
      by_cases hw : w = .string ""
      · subst hw
        cases h
      · rw [Presence.read] at h
        · exact ⟨w, b, rfl, h⟩
        · exact hw
  | optional => cases hp
  | default value => cases hp

mutual

theorem Format.holds_of_demands {α : Type} {w : Json} {path : List String} :
    (f : Format α) → {a : α} → f.read w = .ok a → f.demands path = true →
      path = [] ∨ ∃ inner, w = .object inner ∧ holds inner path = true
  | .record _ fields, a, hread, hpath => by
    cases path with
    | nil => exact .inl rfl
    | cons key rest =>
      cases w with
      | object inner =>
        exact .inr ⟨inner, rfl, fields.holds_of_demands (fields.read_eq_ok.mp hread).1 hpath⟩
      | _ => cases hread
  | .scalar _, _, _, hpath | .list _, _, _, hpath | .nullable _, _, _, hpath
  | .refine _ _, _, _, hpath => by
    cases path with
    | nil => exact .inl rfl
    | cons key rest => cases hpath

theorem Fields.holds_of_demands {α : Type} {W : List (String × Json)} {path : List String} :
    (F : Fields α) → {a : α} → F.Reads W a → F.demands path = true → holds W path = true
  | .build _, _, _, hpath => by cases hpath
  | .seek before _ _, _, h, hpath => before.holds_of_demands h hpath
  | .field before key presence format, _, h, hpath => by
    obtain ⟨make, b, hmake, hb, -⟩ := h
    cases path with
    | nil => rfl
    | cons k rest =>
      simp only [Fields.demands, Bool.or_eq_true, Bool.and_eq_true, decide_eq_true_eq] at hpath
      rcases hpath with hpath | ⟨⟨rfl, hp⟩, hrest⟩
      · exact before.holds_of_demands hmake hpath
      · obtain ⟨w, c, hw, hc⟩ := Presence.found_of_mandatory hp hb
        rw [holds, hw]
        rcases format.holds_of_demands hc hrest with rfl | ⟨inner, rfl, hinner⟩
        · cases w <;> rfl
        · exact hinner

end

/-! ### Records that are given as objects -/

section Record

variable {α : Type} {F : Fields α} {name : String} {order : List String} {source : Source}
  {M : List (String × Json)} {a : α}

theorem gives_of_denotes (hone : OneEach M) (hkeys : F.keys.Nodup)
    (h : (Format.record (.plain name order) F).Denotes source (.object M) a) :
    F.Gives source M a := by
  obtain ⟨w, hw, hread⟩ := h
  rw [Format.conform] at hw
  obtain ⟨W, hW, rfl⟩ := map_eq_ok.mp hw
  have hfilled := F.filled_of_conform hone hW hkeys fun _ _ _ => rfl
  exact (F.reads_iff_gives hfilled).mp (F.read_eq_ok.mp hread).1

theorem denotes_of_gives (hone : OneEach M) (hkeys : F.keys.Nodup) (hbacked : F.Backed)
    (h : F.Gives source M a) :
    (Format.record (.plain name order) F).Denotes source (.object M) a := by
  obtain ⟨W, hW⟩ := conformMembers_total fun m hm => F.conformField_of_gives hone hm h
  have hfilled := F.filled_of_conform hone hW hkeys fun _ _ _ => rfl
  have hreads := (F.reads_iff_gives hfilled).mpr h
  refine ⟨.object W, ?_, ?_⟩
  · rw [Format.conform]
    exact map_eq_ok.mpr ⟨W, hW, rfl⟩
  · refine F.read_eq_ok.mpr ⟨hreads, fun path hpath => ?_⟩
    exact F.holds_of_demands hreads (hbacked path hpath)

end Record

end Schema
end NodeClient
