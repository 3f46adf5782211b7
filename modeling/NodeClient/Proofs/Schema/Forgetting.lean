import NodeClient.Proofs.Schema.Omission

/-!
# Forgetting — what is read of a payload without one of its members

The second stage of decoding fails without a field that must be there, and names that field.
Without one that may be missing it reads the same value, save for this field, which is absent, zero
or empty then (`Format.Forgets`).  The paths that a record seeks first do not get in the way: they
lead to fields that must be there, under the same labels (`failed_seek`).

* `read_remove`: the second stage, by induction on the format.
* `decode_remove`: both stages.
-/

namespace NodeClient
namespace Schema

open Json (lookup Spot remove removeMember removeFound)

/-! ### Values without a field -/

/-- What a field gives for what its format reads. -/
def Presence.wrap {γ β : Type} : Presence γ β → γ → β
  | .required _, c | .nonempty _, c | .default _, c => c
  | .optional, c => some c

/-- What a field gives that is missing: nothing, or a blank value. -/
def Presence.Lacks {γ β : Type} : Presence γ β → Format γ → β → Prop
  | .optional, _, b => b = none
  | .default value, format, b => b = value ∧ format.isBlank value = true
  | .required _, _, _ | .nonempty _, _, _ => False

/-- A field is missing from the second value, or a field below it is. -/
def Presence.ForgetsAt {γ β : Type} (presence : Presence γ β) (format : Format γ)
    (forgets : List Spot → γ → γ → Prop) (rest : List Spot) (b b' : β) : Prop :=
  match rest with
  | [] => presence.Lacks format b'
  | rest => ∃ c c', b = presence.wrap c ∧ b' = presence.wrap c' ∧ forgets rest c c'

/-- Fields with any values give this value. -/
def Fields.Builds {α : Type} : Fields α → α → Prop
  | .build make, a => a = make
  | .seek before _ _, a => before.Builds a
  | .field before _ _ _, a => ∃ make b, before.Builds make ∧ a = make b

mutual

/-- The second value is the first one, save that the field at a place is missing. -/
def Format.Forgets {α : Type} : Format α → List Spot → α → α → Prop
  | .scalar _, _, _, _ => False
  | .list item, place, as, as' =>
    match place with
    | .item index :: rest =>
      ∃ b b', as[index]? = some b ∧ item.Forgets rest b b' ∧ as' = as.set index b'
    | _ => False
  | .nullable item, place, a, a' => ∃ b b', a = some b ∧ item.Forgets place b b' ∧ a' = some b'
  | .refine _ _, _, _, _ => False
  | .record _ fields, place, a, a' =>
    match place with
    | .member key :: rest => fields.Forgets key rest a a'
    | _ => False

/-- Both values are built of the same, save for the field under a key. -/
def Fields.Forgets {α : Type} : Fields α → String → List Spot → α → α → Prop
  | .build _, _, _, _, _ => False
  | .seek before _ _, key, rest, a, a' => before.Forgets key rest a a'
  | .field before k presence format, key, rest, a, a' =>
    if key = k then
      ∃ make b b', before.Builds make ∧ a = make b ∧ a' = make b' ∧
        presence.ForgetsAt format (fun place c c' => format.Forgets place c c') rest b b'
    else
      ∃ make make' b, before.Forgets key rest make make' ∧ a = make b ∧ a' = make' b

end

/-- What comes of a payload without a field. -/
def Need.Outcome {α : Type} (n : Need) (forgets : α → Prop) (r : Except DecodeError α) : Prop :=
  match n with
  | .required label => r = .error (.missing label)
  | .optional => ∃ a, r = .ok a ∧ forgets a

theorem Need.Outcome.bind {α β : Type} {n : Need} {P : α → Prop} {Q : β → Prop}
    {r : Except DecodeError α} {f : α → Except DecodeError β} (h : n.Outcome P r)
    (hf : ∀ a, P a → ∃ b, f a = .ok b ∧ Q b) : n.Outcome Q (r >>= f) := by
  cases n with
  | required label =>
    obtain rfl : r = .error (.missing label) := h
    rfl
  | optional =>
    obtain ⟨a, rfl, ha⟩ := h
    exact hf a ha

theorem Need.Outcome.map {α β : Type} {n : Need} {P : α → Prop} {Q : β → Prop}
    {r : Except DecodeError α} {f : α → β} (h : n.Outcome P r) (hf : ∀ a, P a → Q (f a)) :
    n.Outcome Q (r.map f) := by
  cases n with
  | required label =>
    obtain rfl : r = .error (.missing label) := h
    rfl
  | optional =>
    obtain ⟨a, rfl, ha⟩ := h
    exact ⟨f a, rfl, hf a ha⟩

/-! ### Reading fields -/

theorem Fields.builds_of_read {α : Type} {W : List (String × Json)} :
    (F : Fields α) → {a : α} → F.read W = .ok a → F.Builds a
  | .build _, _, h => (Except.ok.inj h).symm
  | .seek before _ _, _, h => before.builds_of_read (Fields.read_seek.mp h).1
  | .field before _ _ _, _, h => by
    obtain ⟨make, b, hmake, -, ha⟩ := Fields.read_field.mp h
    exact ⟨make, b, before.builds_of_read hmake, ha⟩

theorem Presence.read_some {γ β : Type} (presence : Presence γ β)
    (read : Json → Except DecodeError γ) {v : Json} (hv : v ≠ .string "") :
    presence.read read (some v) = (read v).map presence.wrap := by
  have hid : (read v).map (fun c => c) = read v := by cases read v <;> rfl
  cases presence with
  | optional => rfl
  | required | default => exact hid.symm
  | nonempty label =>
    rw [Presence.read]
    · exact hid.symm
    · exact hv

/-- Reading a list of which one item is changed. -/
theorem readItems_modify {α : Type} {read : Json → Except DecodeError α} {items : List Json}
    {as : List α} {index : Nat} {v : Json} (h : readItems read items = .ok as)
    (hv : items[index]? = some v) (g : Json → Json) :
    ∃ a, read v = .ok a ∧ as[index]? = some a ∧
      readItems read (items.modify index g) = (read (g v)).map fun a => as.set index a := by
  induction items generalizing as index with
  | nil => cases hv
  | cons w rest ih =>
    obtain ⟨b, tail, hb, htail, rfl⟩ := readItems_cons.mp h
    cases index with
    | zero =>
      obtain rfl := Option.some.inj hv
      refine ⟨b, hb, rfl, ?_⟩
      rw [List.modify_zero_cons, readItems, htail]
      cases read (g w) <;> rfl
    | succ index =>
      obtain ⟨a, ha, hget, hrest⟩ := ih htail hv
      refine ⟨a, ha, hget, ?_⟩
      rw [List.modify_succ_cons, readItems, hb, hrest]
      cases read (g v) <;> rfl

/-! ### Paths that are sought -/

/-- A path that is there, and is not once a member is taken out, leads to that member or through
it; the path to the member is not there either then. -/
theorem holds_removeMember {path : List String} {W : List (String × Json)} {key : String}
    {rest : List Spot} (h : holds W path = true)
    (h' : holds (removeMember key rest W) path = false) :
    ∃ i, 0 < i ∧ i ≤ path.length ∧ .member key :: rest = (path.take i).map Spot.member ∧
      holds (removeMember key rest W) (path.take i) = false := by
  induction path generalizing W key rest with
  | nil => cases h'
  | cons k ks ih =>
    -- only a path that starts with the key can be lost
    have hlookup := Json.lookup_removeMember key rest W k
    by_cases hk : k = key
    · subst hk
      rw [if_pos rfl] at hlookup
      cases rest with
      | nil =>
        refine ⟨1, Nat.one_pos, Nat.succ_pos _, rfl, ?_⟩
        rw [List.take_succ_cons, holds, hlookup]
        rfl
      | cons next rest =>
        cases hfound : lookup k W with
        | none =>
          rw [holds, hfound] at h
          cases h
        | some v =>
          rw [hfound] at hlookup
          replace hlookup : lookup k (removeMember k (next :: rest) W) =
            some (v.remove (next :: rest)) := hlookup
          rw [holds, hfound] at h
          rw [holds, hlookup] at h'
          cases v with
          | object inner =>
            cases next with
            | item index =>
              rw [Json.remove_item_object] at h'
              exact absurd (h.symm.trans h') nofun
            | member key =>
              rw [Json.remove_object] at h' hlookup
              obtain ⟨i, hpos, hle, hplace, hholds⟩ := ih h h'
              refine ⟨i + 1, Nat.succ_pos i, Nat.succ_le_succ hle, ?_, ?_⟩
              · rw [List.take_succ_cons, List.map_cons, ← hplace]
              · rw [List.take_succ_cons, holds, hlookup]
                exact hholds
          | array items =>
            obtain ⟨items', hitems⟩ := Json.remove_array (next :: rest) items
            rw [hitems] at h'
            exact absurd (h.symm.trans h') nofun
          | _ =>
            rw [Json.remove_atom rfl] at h'
            exact absurd (h.symm.trans h') nofun
    · rw [if_neg hk] at hlookup
      rw [holds, hlookup] at h'
      rw [holds, h'] at h
      cases h

mutual

/-- What is declared of a path is what is needed at the end of it. -/
theorem Format.need_of_declares {α : Type} {path : List String} {v : Json} {m n : Need} :
    (f : Format α) → f.declares path = some m → f.need (path.map Spot.member) v = some n → n = m
  | .scalar _, h, _ | .list _, h, _ | .nullable _, h, _ | .refine _ _, h, _ => by cases h
  | .record _ fields, h, hneed => by
    cases path with
    | nil => cases h
    | cons key rest =>
      rw [List.map_cons] at hneed
      unfold Format.need at hneed
      split at hneed
      · next heq =>
        obtain ⟨hkey, rfl⟩ := List.cons.inj heq
        obtain rfl := Spot.member.inj hkey
        exact fields.need_of_declares h hneed
      · cases hneed

theorem Fields.need_of_declares {α : Type} {key : String} {path : List String}
    {found : Option Json} {m n : Need} : (F : Fields α) → F.declares key path = some m →
      F.need key (path.map Spot.member) found = some n → n = m
  | .build _, h, _ => by cases h
  | .seek before _ _, h, hneed => before.need_of_declares h hneed
  | .field before k presence format, h, hneed => by
    rw [Fields.declares] at h
    rw [Fields.need] at hneed
    by_cases hk : key = k
    · rw [if_pos hk] at h hneed
      cases path with
      | nil => exact Option.some.inj (hneed.symm.trans h)
      | cons next rest =>
        obtain ⟨v, -, hneed⟩ := Option.bind_eq_some_iff.mp hneed
        exact format.need_of_declares h hneed
    · rw [if_neg hk] at h hneed
      exact before.need_of_declares h hneed

end

/-! ### Records without a member -/

section Record

variable {W : List (String × Json)} {key : String} {rest : List Spot} {n : Need}
  {declares : List String → Option Need}

/-- A sought path that is not there any more leads to the field that is missing, if all that was
sought before is there. -/
theorem failed_seek {sought : List (List String)} {path : List String} {label : String}
    (hagree : ∀ path m, .member key :: rest = path.map Spot.member → declares path = some m → n = m)
    (hpath : declares path = some (.required label))
    (hprefixes : ∀ i < path.length, 0 < i → path.take i ∈ sought)
    (hsought : ∀ q ∈ sought, holds (removeMember key rest W) q = true)
    (h : holds W path = true) (h' : ¬holds (removeMember key rest W) path = true) :
    n = .required label := by
  have hfalse : holds (removeMember key rest W) path = false := by simpa using h'
  obtain ⟨i, hpos, hle, hplace, hholds⟩ := holds_removeMember h hfalse
  by_cases hi : i < path.length
  · -- a proper prefix was sought before, and found
    have hthere := hsought _ (hprefixes i hi hpos)
    rw [hthere] at hholds
    cases hholds
  · rw [List.take_of_length_le (Nat.le_of_not_lt hi)] at hplace
    exact hagree path _ hplace hpath

/-- Fields before the one that is missing are read as they were, or a path that is sought among them
names it. -/
theorem Fields.read_apart
    (hagree : ∀ path m, .member key :: rest = path.map Spot.member → declares path = some m → n = m)
    {α : Type} : (F : Fields α) → {a : α} → F.announced declares = true → key ∉ F.keys →
      F.read W = .ok a → F.read (removeMember key rest W) = .ok a ∨
        ∃ label, n = .required label ∧
          F.read (removeMember key rest W) = .error (.missing label)
  | .build _, _, _, _, h => .inl h
  | .seek before path label, a, hannounced, hkey, h => by
    simp only [Fields.announced, Bool.and_eq_true, decide_eq_true_eq] at hannounced
    obtain ⟨⟨hbefore, hpath⟩, hprefixes⟩ := hannounced
    obtain ⟨ha, hholds⟩ := Fields.read_seek.mp h
    obtain ha' | ⟨label', hn, herror⟩ := before.read_apart hagree hbefore hkey ha
    · by_cases hholds' : holds (removeMember key rest W) path = true
      · exact .inl (Fields.read_seek.mpr ⟨ha', hholds'⟩)
      · have hsought := (before.read_eq_ok.mp ha').2
        refine .inr ⟨label, failed_seek hagree hpath hprefixes hsought hholds hholds', ?_⟩
        rw [Fields.read, ha']
        exact if_neg hholds'
    · refine .inr ⟨label', hn, ?_⟩
      rw [Fields.read, herror]
      rfl
  | .field before k presence format, a, hannounced, hkey, h => by
    obtain ⟨make, b, hmake, hb, ha⟩ := Fields.read_field.mp h
    have hsame : lookup k (removeMember key rest W) = lookup k W := by
      rw [Json.lookup_removeMember, if_neg (List.ne_of_not_mem_cons hkey).symm]
    have hnot : key ∉ before.keys := List.not_mem_of_not_mem_cons hkey
    obtain hmake' | ⟨label, hn, herror⟩ := before.read_apart hagree hannounced hnot hmake
    · exact .inl (Fields.read_field.mpr ⟨make, b, hmake', by rw [hsame, hb], ha⟩)
    · refine .inr ⟨label, hn, ?_⟩
      rw [Fields.read, herror]
      rfl

end Record

/-- What a field gives once it is missing, or a field below it is. -/
theorem Presence.read_remove {β γ : Type} {presence : Presence γ β} {format : Format γ}
    {rest : List Spot} {n : Need} {found : Option Json} {b : β}
    (hsound : presence.isSound format = true)
    (hformat : ∀ v c, format.read v = .ok c → format.need rest v = some n →
      n.Outcome (format.Forgets rest c) (format.read (v.remove rest)))
    (hb : presence.read format.read found = .ok b)
    (hneed : presence.needAt format.need rest found = some n) :
    n.Outcome (presence.ForgetsAt format format.Forgets rest b)
      (presence.read format.read (removeFound rest found)) := by
  cases rest with
  | nil =>
    obtain rfl := Option.some.inj hneed
    cases presence with
    | required | nonempty => rfl
    | optional => exact ⟨none, rfl, rfl⟩
    | default value => exact ⟨value, rfl, rfl, hsound⟩
  | cons next rest =>
    obtain ⟨v, rfl, hbelow⟩ := Option.bind_eq_some_iff.mp hneed
    have hv : v ≠ .string "" := by
      rintro rfl
      rw [Format.need_atom rfl] at hbelow
      cases hbelow
    have hv' : v.remove (next :: rest) ≠ .string "" := (Json.remove_eq_atom rfl).not.mpr hv
    rw [presence.read_some _ hv, map_eq_ok] at hb
    obtain ⟨c, hc, rfl⟩ := hb
    show n.Outcome _ (presence.read format.read (some (v.remove (next :: rest))))
    rw [presence.read_some _ hv']
    exact (hformat v c hc hbelow).map fun c' hc' => ⟨c, c', rfl, rfl, hc'⟩

mutual

/-- **What is read of a value without a member**: that it is missing, or the same without it. -/
theorem Format.read_remove {α : Type} {place : List Spot} {n : Need} :
    (f : Format α) → f.isSound = true → {w : Json} → {a : α} → f.read w = .ok a →
      f.need place w = some n → n.Outcome (f.Forgets place a) (f.read (w.remove place))
  | .scalar _, _, _, _, _, hneed => by cases hneed
  | .list item, hsound, w, a, h, hneed => by
    unfold Format.need at hneed
    split at hneed
    · next index rest items =>
      obtain ⟨v, hv, hneed⟩ := Option.bind_eq_some_iff.mp hneed
      obtain ⟨b, hb, hget, hmodify⟩ := readItems_modify h hv (remove rest)
      have hitem := item.read_remove hsound hb hneed
      rw [Json.remove_item, Format.read, hmodify]
      exact hitem.map fun b' hb' => ⟨b, b', hget, hb', rfl⟩
    · cases hneed
  | .nullable item, hsound, w, a, h, hneed => by
    have hw := item.ne_null_of_need hneed
    rw [nullable_read hw, map_eq_ok] at h
    obtain ⟨b, hb, rfl⟩ := h
    rw [nullable_read ((Json.remove_eq_atom rfl).not.mpr hw)]
    exact (item.read_remove hsound hb hneed).map fun b' hb' => ⟨b, b', rfl, hb', rfl⟩
  | .refine base _, hsound, _, _, _, hneed => by
    have hnone := base.need_of_isScalar hsound
    rw [Format.need, hnone] at hneed
    cases hneed
  | .record layout fields, hsound, w, a, h, hneed => by
    simp only [Format.isSound, Bool.and_eq_true, decide_eq_true_eq] at hsound
    obtain ⟨⟨⟨hkeys, -⟩, hannounced⟩, hfields⟩ := hsound
    unfold Format.need at hneed
    split at hneed
    · next key rest W =>
      rw [Json.remove_object]
      refine fields.read_remove hkeys hfields hannounced (fun path m hplace hpath => ?_) h hneed
      refine Format.need_of_declares (.record layout fields) (v := .object W) hpath ?_
      rw [← hplace]
      exact hneed
    · cases hneed

theorem Fields.read_remove {α : Type} {W : List (String × Json)} {key : String} {rest : List Spot}
    {n : Need} {declares : List String → Option Need} :
    (F : Fields α) → {a : α} → F.keys.Nodup → F.isSound = true → F.announced declares = true →
      (∀ path m, .member key :: rest = path.map Spot.member → declares path = some m → n = m) →
      F.read W = .ok a → F.need key rest (lookup key W) = some n →
        n.Outcome (F.Forgets key rest a) (F.read (removeMember key rest W))
  | .build _, _, _, _, _, _, _, hneed => by cases hneed
  | .seek before path label, a, hkeys, hsound, hannounced, hagree, h, hneed => by
    simp only [Fields.announced, Bool.and_eq_true, decide_eq_true_eq] at hannounced
    obtain ⟨⟨hbefore, hpath⟩, hprefixes⟩ := hannounced
    obtain ⟨ha, hholds⟩ := Fields.read_seek.mp h
    have houtcome := before.read_remove hkeys hsound hbefore hagree ha hneed
    cases n with
    | required label =>
      -- what is missing was reported before the path is sought
      replace houtcome : before.read _ = .error (.missing label) := houtcome
      show Fields.read _ _ = _
      rw [Fields.read, houtcome]
      rfl
    | optional =>
      obtain ⟨a', ha', hforgets⟩ := houtcome
      refine ⟨a', Fields.read_seek.mpr ⟨ha', ?_⟩, hforgets⟩
      by_contra hholds'
      have hsought := (before.read_eq_ok.mp ha').2
      cases failed_seek hagree hpath hprefixes hsought hholds hholds'
  | .field before k presence format, a, hkeys, hsound, hannounced, hagree, h, hneed => by
    obtain ⟨hnot, hkeys⟩ := List.nodup_cons.mp hkeys
    simp only [Fields.isSound, Bool.and_eq_true] at hsound
    obtain ⟨⟨hbefore, hpresence⟩, hformat⟩ := hsound
    obtain ⟨make, b, hmake, hb, rfl⟩ := Fields.read_field.mp h
    have hlookup := Json.lookup_removeMember key rest W k
    rw [Fields.need] at hneed
    by_cases hk : key = k
    · subst hk
      rw [if_pos rfl] at hneed hlookup
      -- the fields before it may still fail, through a path that leads to this field
      have hfield := presence.read_remove hpresence
        (fun v c hc hneed => format.read_remove hformat hc hneed) hb hneed
      obtain hmake' | ⟨label, rfl, herror⟩ := before.read_apart hagree hannounced hnot hmake
      · rw [Fields.read, hmake', hlookup]
        refine hfield.bind fun b' hb' => ⟨make b', rfl, ?_⟩
        rw [Fields.Forgets, if_pos rfl]
        exact ⟨make, b, b', before.builds_of_read hmake, rfl, rfl, hb'⟩
      · show Fields.read _ _ = _
        rw [Fields.read, herror]
        rfl
    · rw [if_neg hk] at hneed
      rw [if_neg fun h => hk h.symm] at hlookup
      have hrest := before.read_remove hkeys hbefore hannounced hagree hmake hneed
      rw [Fields.read]
      refine hrest.bind fun make' hmake' => ⟨make' b, ?_, ?_⟩
      · rw [hlookup, hb]
        rfl
      · rw [Fields.Forgets, if_neg hk]
        exact ⟨make, make', b, hmake', rfl, rfl⟩

end

/-! ### Payloads without a member -/

/-- **A payload without a field is missing it, or says the same without it.** -/
theorem Format.decode_remove {α : Type} {f : Format α} (hsound : f.isSound = true) {v : Json}
    {a : α} {place : List Spot} {n : Need} (hkeyed : f.keyed v = true) (h : f.decode v = .ok a)
    (hneed : f.need place v = some n) :
    n.Outcome (f.Forgets place a) (f.decode (v.remove place)) := by
  obtain ⟨w, hw, hread⟩ := decode_eq_ok.mp h
  have hneed' := f.need_of_conform hsound hw hneed
  have houtcome := f.read_remove hsound hread hneed'
  rw [Format.decode, f.conform_remove place hkeyed hw]
  exact houtcome

end Schema
end NodeClient
