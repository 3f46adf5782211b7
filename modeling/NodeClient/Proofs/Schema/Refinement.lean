import NodeClient.Proofs.Schema.Records

/-!
# Refinement — what two formats read of one payload

A payload that one format reads may be read by another once some of its members are renamed, and as
a value that lacks what the other does not know.  `Format.Refines f g p τ π` says so of all payloads
that pass a test `p`: what `f` reads, `g` reads after `τ`, as `π` of the value.

Records are compared field by field (`Fields.Carries`), from the first to the last, while the values
that they stand for are still functions of the fields to come.

* `Refines.list`, `Refines.record`: formats are compared part by part.
* `Refines.record_at`: a record in which one field changes.
* `carries_same`, `carries_required`, `carries_optional`, `carries_drop`: the fields.
-/

namespace NodeClient
namespace Schema

open Json (lookup OneEach everyAt)

/-! ### Records as objects -/

mutual

/-- Whether every record in a payload is given as an object, and none as an array. -/
def Format.keyed {α : Type} : Format α → Json → Bool
  | .scalar _, _ => true
  | .list item, v =>
    match v with
    | .array items => items.all fun w => item.keyed w
    | _ => true
  | .nullable item, v => item.keyed v
  | .refine base _, v => base.keyed v
  | .record _ fields, v =>
    match v with
    | .object members => members.all fun m => fields.keyedMember m.1 m.2
    | .array _ => false
    | _ => true

/-- Whether every record in one member of a record is given as an object. -/
def Fields.keyedMember {α : Type} : Fields α → String → Json → Bool
  | .build _, _, _ => true
  | .seek before _ _, k, v => before.keyedMember k v
  | .field before key _ format, k, v =>
    before.keyedMember k v && (k != key || format.keyed v)

end

/-! ### Comparing formats -/

/-- A payload that a format is compared on. -/
structure Format.Fits {α : Type} (f : Format α) (p : Json → Bool) (v : Json) : Prop where
  ordered : v.Ordered
  keyed : f.keyed v = true
  passes : p v = true

/-- What `f` reads of a payload that passes the test `p`, `g` reads of the payload after `τ`, as `π`
of the value. -/
structure Format.Refines {α β : Type} (f : Format α) (g : Format β) (p : Json → Bool)
    (τ : Json → Json) (π : α → β) : Prop where
  null : ∀ v, τ v = .null ↔ v = .null
  denotes : ∀ {source : Source} {v : Json} {a : α}, f.Fits p v →
    f.Denotes source v a → g.Denotes source (τ v) (π a)

/-- Two formats of one payload, which is left as it is. -/
abbrev Format.Extends {α β : Type} (f : Format α) (g : Format β) (π : α → β) : Prop :=
  f.Refines g (fun _ => true) (fun v => v) π

/-- The fields `F` and `G` are compared on the members `M` and `M'`: what `F` reads is related by
`R` to what `G` reads. -/
def Fields.Carries {α β : Type} (source : Source) (M : List (String × Json)) (F : Fields α)
    (M' : List (String × Json)) (G : Fields β) (R : α → β → Prop) : Prop :=
  (∀ m ∈ M, F.keyedMember m.1 m.2 = true) →
    ∀ a, F.Gives source M a → ∃ b, G.Gives source M' b ∧ R a b

/-! ### Fields -/

section Fields

variable {α β γ γ' δ δ' : Type} {source : Source} {M M' : List (String × Json)}

theorem carries_build {make : α} {make' : β} {R : α → β → Prop} (h : R make make') :
    Fields.Carries source M (.build make) M' (.build make') R := by
  rintro - _ rfl
  exact ⟨make', rfl, h⟩

/-- Fields that are read alike, one after the other. -/
theorem carries_field {F : Fields (δ → α)} {G : Fields (δ' → β)} {key key' : String}
    {presence : Presence γ δ} {presence' : Presence γ' δ'} {f : Format γ} {g : Format γ'}
    {R : α → β → Prop} {π : δ → δ'}
    (hbefore : Fields.Carries source M F M' G fun make make' => ∀ b, R (make b) (make' (π b)))
    (hslot : (∀ v, lookup key M = some v → f.keyed v = true) → ∀ b,
      presence.Gives f source (lookup key M) b →
        presence'.Gives g source (lookup key' M') (π b)) :
    Fields.Carries source M (.field F key presence f) M' (.field G key' presence' g) R := by
  rintro hkeyed _ ⟨make, b, hmake, hb, rfl⟩
  have hboth : ∀ m ∈ M, F.keyedMember m.1 m.2 = true ∧ (m.1 = key → f.keyed m.2 = true) :=
    fun m hm => by
      have hm := hkeyed m hm
      simp only [Fields.keyedMember, Bool.and_eq_true, Bool.or_eq_true, bne_iff_ne] at hm
      exact ⟨hm.1, fun hkey => hm.2.resolve_left fun hne => hne hkey⟩
  obtain ⟨make', hmake', hR⟩ := hbefore (fun m hm => (hboth m hm).1) make hmake
  have hb' := hslot (fun v hv => (hboth _ (Json.mem_of_lookup hv)).2 rfl) b hb
  exact ⟨make' (π b), ⟨make', π b, hmake', hb', rfl⟩, hR b⟩

/-- A field that only the first of two records has. -/
theorem carries_drop {F : Fields (δ → α)} {G : Fields β} {key : String}
    {presence : Presence γ δ} {f : Format γ} {R : α → β → Prop}
    (hbefore : Fields.Carries source M F M' G fun make b => ∀ d, R (make d) b) :
    Fields.Carries source M (.field F key presence f) M' G R := by
  rintro hkeyed _ ⟨make, d, hmake, -, rfl⟩
  have hbeforeKeyed : ∀ m ∈ M, F.keyedMember m.1 m.2 = true := fun m hm => by
    have hm := hkeyed m hm
    simp only [Fields.keyedMember, Bool.and_eq_true] at hm
    exact hm.1
  obtain ⟨b, hb, hR⟩ := hbefore hbeforeKeyed make hmake
  exact ⟨b, hb, hR d⟩

/-- What is sought besides does not matter. -/
theorem carries_seek {F : Fields α} {G : Fields β} {path path' : List String}
    {label label' : String} {R : α → β → Prop} (h : Fields.Carries source M F M' G R) :
    Fields.Carries source M (.seek F path label) M' (.seek G path' label') R :=
  h

/-- A field that both records have, with one format. -/
theorem carries_same {F : Fields (δ → α)} {G : Fields (δ → β)} {key key' : String}
    {presence : Presence γ δ} {f : Format γ} {R : α → β → Prop}
    (hkey : lookup key' M' = lookup key M)
    (hbefore : Fields.Carries source M F M' G fun make make' => ∀ b, R (make b) (make' b)) :
    Fields.Carries source M (.field F key presence f) M' (.field G key' presence f) R :=
  carries_field hbefore fun _ b hb => by rwa [hkey]

variable {f : Format γ} {g : Format γ'} {p : Json → Bool} {τ : Json → Json} {π : γ → γ'}
  {key key' label label' : String}

/-- A field that may not be empty, with one format. -/
theorem carries_nonempty {F : Fields (γ → α)} {G : Fields (γ → β)} {R : α → β → Prop}
    (hkey : lookup key' M' = lookup key M)
    (hbefore : Fields.Carries source M F M' G fun make make' => ∀ b, R (make b) (make' b)) :
    Fields.Carries source M (F.nonempty key label f) M' (G.nonempty key' label' f) R :=
  carries_field hbefore fun _ b hb => by
    rw [hkey]
    exact gives_nonempty_label hb

theorem Format.Refines.gives_required (h : f.Refines g p τ π) {found : Option Json}
    (hfits : ∀ v, found = some v → f.Fits p v) {b : γ}
    (hb : (Presence.required label).Gives f source found b) :
    (Presence.required label').Gives g source (found.map τ) (π b) := by
  obtain ⟨v, rfl, hv, hb⟩ := Schema.gives_required.mp hb
  exact Schema.gives_required.mpr
    ⟨τ v, rfl, (h.null v).not.mpr hv, h.denotes (hfits v rfl) hb⟩

theorem Format.Refines.gives_optional (h : f.Refines g p τ π) {found : Option Json}
    (hfits : ∀ v, found = some v → f.Fits p v) {b : Option γ}
    (hb : Presence.optional.Gives f source found b) :
    Presence.optional.Gives g source (found.map τ) (b.map π) := by
  rw [Schema.gives_optional] at hb ⊢
  obtain ⟨hnone, rfl⟩ | ⟨v, c, rfl, hv, hc, rfl⟩ := hb
  · refine .inl ⟨?_, rfl⟩
    cases found with
    | none => rfl
    | some v => exact (h.null v).mpr hnone
  · exact .inr ⟨τ v, π c, rfl, (h.null v).not.mpr hv, h.denotes (hfits v rfl) hc, rfl⟩

/-- A field that must be there in both records. -/
theorem Format.Refines.carries_required {F : Fields (γ → α)} {G : Fields (γ' → β)}
    {R : α → β → Prop} (h : f.Refines g p τ π) (hM : (Json.object M).Ordered)
    (hp : ∀ v, lookup key M = some v → p v = true)
    (hkey : lookup key' M' = (lookup key M).map τ)
    (hbefore : Fields.Carries source M F M' G fun make make' => ∀ b, R (make b) (make' (π b))) :
    Fields.Carries source M (F.require key label f) M' (G.require key' label' g) R :=
  carries_field hbefore fun hkeyed b hb => by
    rw [hkey]
    exact h.gives_required (fun v hv => ⟨hM.lookup hv, hkeyed v hv, hp v hv⟩) hb

/-- A field that may be missing in both records. -/
theorem Format.Refines.carries_optional {F : Fields (Option γ → α)} {G : Fields (Option γ' → β)}
    {R : α → β → Prop} (h : f.Refines g p τ π) (hM : (Json.object M).Ordered)
    (hp : ∀ v, lookup key M = some v → p v = true)
    (hkey : lookup key' M' = (lookup key M).map τ)
    (hbefore : Fields.Carries source M F M' G fun make make' =>
      ∀ b, R (make b) (make' (b.map π))) :
    Fields.Carries source M (F.allow key f) M' (G.allow key' g) R :=
  carries_field hbefore fun hkeyed b hb => by
    rw [hkey]
    exact h.gives_optional (fun v hv => ⟨hM.lookup hv, hkeyed v hv, hp v hv⟩) hb

/-- A field that must be there in both records, and is left as it is. -/
theorem Format.Extends.carries_required {F : Fields (γ → α)} {G : Fields (γ' → β)}
    {R : α → β → Prop} (h : f.Extends g π) (hM : (Json.object M).Ordered)
    (hkey : lookup key' M' = lookup key M)
    (hbefore : Fields.Carries source M F M' G fun make make' => ∀ b, R (make b) (make' (π b))) :
    Fields.Carries source M (F.require key label f) M' (G.require key' label' g) R :=
  Format.Refines.carries_required h hM (fun _ _ => rfl) (hkey.trans Option.map_id'.symm)
    hbefore

end Fields

/-! ### Lists and records -/

section Formats

variable {α β : Type} {p : Json → Bool} {τ : Json → Json} {π : α → β}

theorem Format.Refines.list {f : Format α} {g : Format β} (h : f.Refines g p τ π) :
    (Format.list f).Refines (.list g) (everyAt p [.items]) (Json.each τ) (List.map π) where
  null _ := Json.each_eq_null
  denotes := by
    intro source v as hfits has
    obtain ⟨items, rfl, hall⟩ := list_denotes_iff.mp has
    refine list_denotes_iff.mpr ⟨items.map τ, rfl, ?_⟩
    have hitems : ∀ w ∈ items, f.Fits p w := fun w hw =>
      ⟨Json.ordered_array.mp hfits.ordered w hw, List.all_eq_true.mp hfits.keyed w hw,
        List.all_eq_true.mp hfits.passes w hw⟩
    -- the tests on the list are tests on its items now, and the induction is on these
    clear hfits has
    induction hall with
    | nil => exact .nil
    | cons ha _ ih =>
      obtain ⟨hfirst, hrest⟩ := List.forall_mem_cons.mp hitems
      exact .cons (h.denotes hfirst ha) (ih hrest)

theorem Format.Extends.list {f : Format α} {g : Format β} (h : f.Extends g π) :
    (Format.list f).Extends (.list g) (List.map π) where
  null _ := Iff.rfl
  denotes := by
    intro source v as hfits has
    have hpasses : everyAt (fun _ => true) [.items] v = true := by
      cases v <;> simp [everyAt]
    have hself : v.each (fun w => w) = v := by
      cases v <;> simp [Json.each]
    have hboth := (Format.Refines.list h).denotes ⟨hfits.ordered, hfits.keyed, hpasses⟩ has
    rwa [hself] at hboth

theorem Format.extends_self (f : Format α) : f.Extends f fun a => a where
  null _ := Iff.rfl
  denotes _ h := h

theorem Format.Extends.refines {f : Format α} {g : Format β} (h : f.Extends g π) :
    f.Refines g Json.Renaming.nothing.isFree Json.Renaming.nothing.apply π where
  null v := by rw [Json.Renaming.apply_nothing]
  denotes := by
    intro source v a hfits ha
    rw [Json.Renaming.apply_nothing]
    exact h.denotes ⟨hfits.ordered, hfits.keyed, rfl⟩ ha

/-- A record in which all that changes are the members. -/
theorem Format.Refines.record {F : Fields α} {G : Fields β} {name name' : String}
    {order order' : List String} (hF : F.keys.Nodup) (hG : G.keys.Nodup) (hbacked : G.Backed)
    (hnull : ∀ v, τ v = .null ↔ v = .null)
    (h : ∀ (source : Source) (M : List (String × Json)), (Json.object M).Ordered →
      p (.object M) = true → ∃ M', τ (.object M) = .object M' ∧ OneEach M' ∧
        Fields.Carries source M F M' G fun a b => π a = b) :
    (Format.record (.plain name order) F).Refines (.record (.plain name' order') G) p τ π where
  null := hnull
  denotes := by
    rintro source v a ⟨hordered, hkeyed, hp⟩ ha
    cases v with
    | object M =>
      obtain ⟨M', hM', hone, hcarries⟩ := h source M hordered hp
      rw [hM']
      have hgives := gives_of_denotes hordered.oneEach hF ha
      obtain ⟨_, hb, rfl⟩ := hcarries (List.all_eq_true.mp hkeyed) a hgives
      exact denotes_of_gives hone hG hbacked hb
    | array items => cases hkeyed
    | _ =>
      obtain ⟨_, hw, -⟩ := ha
      cases hw

/-- A record that is left as it is. -/
theorem Format.Extends.record {F : Fields α} {G : Fields β} {name name' : String}
    {order order' : List String} (hF : F.keys.Nodup) (hG : G.keys.Nodup) (hbacked : G.Backed)
    (h : ∀ (source : Source) (M : List (String × Json)), (Json.object M).Ordered →
      Fields.Carries source M F M G fun a b => π a = b) :
    (Format.record (.plain name order) F).Extends (.record (.plain name' order') G) π :=
  Format.Refines.record hF hG hbacked (fun _ => Iff.rfl) fun source M hM _ =>
    ⟨M, rfl, hM.oneEach, h source M hM⟩

/-- A record in which one member changes. -/
theorem Format.Refines.record_at (key : String) {F : Fields α} {G : Fields β}
    {name name' : String} {order order' : List String} (hF : F.keys.Nodup) (hG : G.keys.Nodup)
    (hbacked : G.Backed)
    (h : ∀ (source : Source) (M M' : List (String × Json)), (Json.object M).Ordered →
      (∀ v, lookup key M = some v → p v = true) →
      (∀ k, lookup k M' = if k = key then (lookup k M).map τ else lookup k M) →
        Fields.Carries source M F M' G fun a b => π a = b) :
    (Format.record (.plain name order) F).Refines (.record (.plain name' order') G)
      (fun v => (v.get? key).all p) (Json.modify key τ) π :=
  .record hF hG hbacked (fun _ => Json.modify_eq_null) fun source M hM hp =>
    ⟨_, rfl, by
      have hkeys := hM.oneEach
      rwa [OneEach, ← Json.keys_modify key τ] at hkeys,
    h source M _ hM (fun v hv => by simpa [hv] using hp) (Json.lookup_modify key τ M)⟩

/-- A record in which members get other names. -/
theorem Format.Refines.renamed {names : List (String × String)} {F : Fields α} {G : Fields β}
    {name name' : String} {order order' : List String} (hF : F.keys.Nodup) (hG : G.keys.Nodup)
    (hbacked : G.Backed) (hnames : (Json.renamedKeys names).Nodup)
    (h : ∀ (source : Source) (M M' : List (String × Json)), (Json.object M).Ordered →
      (∀ n ∈ names, lookup n.2 M' = lookup n.1 M) →
      (∀ k, k ∉ Json.renamedKeys names → lookup k M' = lookup k M) →
        Fields.Carries source M F M' G fun a b => π a = b) :
    (Format.record (.plain name order) F).Refines (.record (.plain name' order') G)
      (Json.Renaming.isFree ⟨[], names⟩) (Json.Renaming.apply ⟨[], names⟩) π :=
  .record hF hG hbacked (fun _ => Json.renameAll_eq_null) fun source M hM hfree => by
    have hkept : ∀ n ∈ names, lookup n.2 M = none := by
      simpa [Json.Renaming.isFree, everyAt] using hfree
    obtain ⟨hnamed, hothers⟩ := Json.lookup_renameMembers hnames hkept
    exact ⟨_, rfl, (Json.ordered_renameAll names hM).oneEach, h source M _ hM hnamed hothers⟩

end Formats

end Schema
end NodeClient
