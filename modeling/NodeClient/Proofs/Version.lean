import NodeClient.Proofs.Outcome
import NodeClient.Version

/-!
# Versions — the rows of a table that match a version

* `starts_or_starts`: two texts that start the same one overlap.
* `checkRows_eq_ok`: the tables that pass are those whose rows are apart from one another.
* `row_unique`: so at most one row of a table that was checked matches a version.
* `familyOf?_eq_some`: the family of a version is that of any row that matches.
* `checked_table_unambiguous`: all that the check of a table is good for.
-/

namespace NodeClient
namespace VersionTable

/-! ### Beginnings -/

theorem starts_iff {start text : String} :
    starts start text = true ↔ start.toList <+: text.toList :=
  List.isPrefixOf_iff_prefix

theorem starts_or_starts {p q version : String} (hp : starts p version = true)
    (hq : starts q version = true) : starts p q = true ∨ starts q p = true := by
  rw [starts_iff] at hp hq ⊢
  rw [starts_iff]
  exact List.prefix_or_prefix_of_prefix hp hq

/-- Neither of two rows has a prefix that starts that of the other. -/
def Apart (row row' : String × Family) : Prop :=
  ¬row.1.toList <+: row'.1.toList ∧ ¬row'.1.toList <+: row.1.toList

/-! ### Checked rows -/

/-- The first row is in order and apart from all others, and these are in order. -/
theorem checkRows_cons {row : String × Family} {rest : VersionTable} :
    checkRows (row :: rest) = .ok () ↔
      ['.'] <:+ row.1.toList ∧ (∀ row' ∈ rest, Apart row row') ∧ checkRows rest = .ok () := by
  obtain ⟨p, family⟩ := row
  rw [checkRows, List.singleton_suffix_iff_getLast?_eq_some]
  have hapart : (rest.find? fun row' => starts p row'.1 || starts row'.1 p) = none ↔
      ∀ row' ∈ rest, Apart (p, family) row' := by
    simp only [List.find?_eq_none, Bool.or_eq_true, starts_iff, not_or, Apart]
  split
  · next hdot => exact ⟨nofun, fun h => absurd h.1 hdot⟩
  · next hdot =>
    rw [← hapart]
    cases rest.find? fun row' => starts p row'.1 || starts row'.1 p with
    | none => exact ⟨fun h => ⟨Decidable.not_not.mp hdot, rfl, h⟩, fun h => h.2.2⟩
    | some row' => exact ⟨nofun, fun h => nomatch h.2.1⟩

theorem checkRows_eq_ok {table : VersionTable} :
    checkRows table = .ok () ↔
      (∀ row ∈ table, ['.'] <:+ row.1.toList) ∧ table.Pairwise Apart := by
  induction table with
  | nil => exact ⟨fun _ => ⟨nofun, .nil⟩, fun _ => rfl⟩
  | cons row rest ih =>
    rw [checkRows_cons, ih, List.forall_mem_cons, List.pairwise_cons]
    constructor
    · rintro ⟨hdot, hapart, hdots, hrest⟩
      exact ⟨⟨hdot, hdots⟩, hapart, hrest⟩
    · rintro ⟨⟨hdot, hdots⟩, hapart, hrest⟩
      exact ⟨hdot, hapart, hdots, hrest⟩

/-- Rows that are apart are so at any two places. -/
theorem pairwise_apart_iff {table : VersionTable} :
    table.Pairwise Apart ↔ ∀ (i j : Nat) (row row' : String × Family), table[i]? = some row →
      table[j]? = some row' → i ≠ j → ¬row.1.toList <+: row'.1.toList := by
  rw [List.pairwise_iff_getElem]
  constructor
  · intro h i j row row' hi hj hne
    obtain ⟨hlen, rfl⟩ := List.getElem?_eq_some_iff.mp hi
    obtain ⟨hlen', rfl⟩ := List.getElem?_eq_some_iff.mp hj
    rcases Nat.lt_or_gt_of_ne hne with hlt | hlt
    · exact (h i j hlen hlen' hlt).1
    · exact (h j i hlen' hlen hlt).2
  · intro h i j hi hj hlt
    have hrow := List.getElem?_eq_getElem hi
    have hrow' := List.getElem?_eq_getElem hj
    exact ⟨h i j _ _ hrow hrow' (Nat.ne_of_lt hlt), h j i _ _ hrow' hrow (Nat.ne_of_gt hlt)⟩

/-- **At most one row of a checked table matches a version.** -/
theorem row_unique {table : VersionTable} (h : checkRows table = .ok ()) {version : String}
    {i j : Nat} {row row' : String × Family} (hi : table[i]? = some row)
    (hj : table[j]? = some row') (hstarts : starts row.1 version = true)
    (hstarts' : starts row'.1 version = true) : i = j := by
  have hapart := pairwise_apart_iff.mp (checkRows_eq_ok.mp h).2
  refine Decidable.byContradiction fun hne => ?_
  rcases starts_or_starts hstarts hstarts' with hleft | hright
  · exact hapart i j row row' hi hj hne (starts_iff.mp hleft)
  · exact hapart j i row' row hj hi (Ne.symm hne) (starts_iff.mp hright)

theorem family_unique {table : VersionTable} (h : checkRows table = .ok ()) {version : String}
    {row row' : String × Family} (hrow : row ∈ table) (hrow' : row' ∈ table)
    (hstarts : starts row.1 version = true) (hstarts' : starts row'.1 version = true) :
    row = row' := by
  obtain ⟨i, hi⟩ := List.mem_iff_getElem?.mp hrow
  obtain ⟨j, hj⟩ := List.mem_iff_getElem?.mp hrow'
  obtain rfl := row_unique h hi hj hstarts hstarts'
  exact Option.some.inj (hi.symm.trans hj)

theorem familyOf?_eq_some {table : VersionTable} (h : checkRows table = .ok ()) {version : String}
    {family : Family} :
    familyOf? table version = some family ↔
      ∃ row ∈ table, row.1.toList <+: version.toList ∧ row.2 = family := by
  have hmatch : ∀ {row}, (table.find? fun row => starts row.1 version) = some row →
      starts row.1 version = true := fun hfind =>
    List.find?_some (p := fun row : String × Family => starts row.1 version) hfind
  simp only [familyOf?, Option.map_eq_some_iff, ← starts_iff]
  constructor
  · rintro ⟨row, hfind, rfl⟩
    exact ⟨row, List.mem_of_find?_eq_some hfind, hmatch hfind, rfl⟩
  · rintro ⟨row, hrow, hstarts, rfl⟩
    cases hfind : table.find? fun row => starts row.1 version with
    | none => exact absurd hstarts (by simpa using List.find?_eq_none.mp hfind row hrow)
    | some found =>
      refine ⟨found, rfl, congrArg Prod.snd ?_⟩
      exact family_unique h (List.mem_of_find?_eq_some hfind) hrow (hmatch hfind) hstarts

theorem checkRows_perm {table table' : VersionTable} (hperm : table'.Perm table)
    (h : checkRows table = .ok ()) : checkRows table' = .ok () := by
  rw [checkRows_eq_ok] at h ⊢
  obtain ⟨hdots, hapart⟩ := h
  exact ⟨fun row hrow => hdots row (hperm.mem_iff.mp hrow),
    (hperm.pairwise_iff fun h => ⟨h.2, h.1⟩).mpr hapart⟩

/-- The order of the rows does not matter. -/
theorem familyOf?_perm {table table' : VersionTable} (hperm : table'.Perm table)
    (h : checkRows table = .ok ()) (version : String) :
    familyOf? table' version = familyOf? table version := by
  refine Option.ext fun family => ?_
  simp only [familyOf?_eq_some h, familyOf?_eq_some (checkRows_perm hperm h), hperm.mem_iff]

/-- A version has no family if and only if no row matches it, checked or not. -/
theorem familyOf?_eq_none {table : VersionTable} {version : String} :
    familyOf? table version = none ↔ ∀ row ∈ table, ¬row.1.toList <+: version.toList := by
  simp only [familyOf?, Option.map_eq_none_iff, List.find?_eq_none, starts_iff]

theorem check_known : known.check = .ok () := rfl

theorem checkRows_known : checkRows known = .ok () := rfl

/-! ### Checked tables -/

theorem check_eq_ok {table : VersionTable} :
    table.check = .ok () ↔
      table ≠ [] ∧ checkRows table = .ok () ∧ ∀ family : Family, ∃ row ∈ table, row.2 = family := by
  have hreached : (Family.all.find? fun family => !table.any fun row => row.2 == family) = none ↔
      ∀ family : Family, ∃ row ∈ table, row.2 = family := by
    have hall : ∀ family : Family, family ∈ Family.all := fun family => by cases family <;> decide
    simp [List.find?_eq_none, hall]
  unfold check
  cases hempty : table.isEmpty with
  | true => exact ⟨nofun, fun h => absurd (List.isEmpty_iff.mp hempty) h.1⟩
  | false =>
    rw [← hreached]
    have hne : table ≠ [] := List.isEmpty_eq_false_iff.mp hempty
    refine Iff.trans (bind_eq_ok (x := checkRows table)) ?_
    constructor
    · rintro ⟨⟨⟩, hrows, hfamilies⟩
      refine ⟨hne, hrows, ?_⟩
      split at hfamilies
      · cases hfamilies
      · assumption
    · rintro ⟨-, hrows, hfamilies⟩
      refine ⟨(), hrows, ?_⟩
      rw [hfamilies]
      rfl

/-- **A table that passes its check is unambiguous.**

* A table passes if and only if it has rows, every prefix ends with a dot, no prefix is a prefix of
  that of another row, and every family occurs.
* Of a table that passes, at most one row matches a version, so that a version has the same family
  in whatever order the rows are listed.  It has none if and only if no row matches it, and every
  family is that of some version. -/
theorem checked_table_unambiguous (table : VersionTable) :
    (table.check = .ok () ↔
      table ≠ [] ∧ (∀ row ∈ table, ['.'] <:+ row.1.toList) ∧
      (∀ (i j : Nat) (row row' : String × Family), table[i]? = some row → table[j]? = some row' →
        i ≠ j → ¬row.1.toList <+: row'.1.toList) ∧
      ∀ family : Family, ∃ row ∈ table, row.2 = family) ∧
    (table.check = .ok () →
      (∀ (version : String) (i j : Nat) (row row' : String × Family), table[i]? = some row →
        table[j]? = some row' → row.1.toList <+: version.toList →
          row'.1.toList <+: version.toList → i = j) ∧
      (∀ (version : String) (table' : VersionTable), table'.Perm table →
        table'.familyOf? version = table.familyOf? version) ∧
      (∀ version : String,
        table.familyOf? version = none ↔ ∀ row ∈ table, ¬row.1.toList <+: version.toList) ∧
      ∀ family : Family, ∃ version : String, table.familyOf? version = some family) := by
  refine ⟨?_, fun hcheck => ?_⟩
  · rw [check_eq_ok, checkRows_eq_ok, pairwise_apart_iff, and_assoc]
  · obtain ⟨-, hrows, hfamilies⟩ := check_eq_ok.mp hcheck
    refine ⟨fun version i j row row' hi hj hstarts hstarts' => ?_,
      fun version table' hperm => familyOf?_perm hperm hrows version,
      fun version => familyOf?_eq_none, fun family => ?_⟩
    · exact row_unique hrows hi hj (starts_iff.mpr hstarts) (starts_iff.mpr hstarts')
    · obtain ⟨row, hrow, rfl⟩ := hfamilies family
      exact ⟨row.1, (familyOf?_eq_some hrows).mpr ⟨row, hrow, List.prefix_rfl, rfl⟩⟩

/-- The known versions, listed the other way round. -/
theorem known_reversed_agrees :
    known.check = .ok () ∧ familyOf? known "0.30.2" = some .v029 ∧
      familyOf? known.reverse "0.30.2" = familyOf? known "0.30.2" ∧
      ∀ row ∈ known, ¬row.1.toList <+: "0.310.0".toList := by
  obtain ⟨-, hchecked⟩ := checked_table_unambiguous known
  obtain ⟨-, hperm, hnone, -⟩ := hchecked check_known
  exact ⟨check_known, rfl, hperm "0.30.2" known.reverse known.reverse_perm,
    (hnone "0.310.0").mp rfl⟩

end VersionTable
end NodeClient
