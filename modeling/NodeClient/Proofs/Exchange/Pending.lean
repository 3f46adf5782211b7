import NodeClient.Exchange.Step

/-!
# Pending — the ids that callers of an exchange wait for

An exchange keeps a table from ids to callers.  `Exchange.Matched` says that the table is exact: its
entries are the callers that wait and have no answer yet, and no two callers wait for the same id.
Three parties change the table: a caller that comes, a frame that answers one, and a caller that
leaves.  Each has one lemma here:

* `matched_await`: a caller comes with an id that nobody waits for.
* `callers_answer`, `matched_answer`: an answer is heard by whoever waits for its id.
* `callers_leave`, `matched_leave`: a caller that leaves takes along its entry and no other.
-/

namespace NodeClient

/-! ### Ids -/

theorem Binary64.same_iff {x y : Binary64} :
    x.same y = true ↔
      x.mantissa = y.mantissa ∧ x.exponent = y.exponent ∧
        (x.negative = y.negative ∨ x.mantissa = 0) := by
  simp [Binary64.same, Binary64.isZero, and_assoc]

namespace Json.Number

theorem same_refl (n : Json.Number) : n.same n = true := by
  cases n <;> simp [same, Binary64.same_iff]

theorem same_symm {m n : Json.Number} (h : m.same n = true) : n.same m = true := by
  cases m with
  | integer a ha =>
    cases n with
    | integer b hb => exact beq_iff_eq.mpr (beq_iff_eq.mp h).symm
    | double y => cases h
  | double x =>
    cases n with
    | integer b hb => cases h
    | double y =>
      obtain ⟨hm, he, hs⟩ := Binary64.same_iff.mp h
      exact Binary64.same_iff.mpr ⟨hm.symm, he.symm, hs.imp Eq.symm (hm ▸ ·)⟩

theorem same_trans {l m n : Json.Number} (h : l.same m = true) (h' : m.same n = true) :
    l.same n = true := by
  cases l with
  | integer a ha =>
    cases m with
    | integer b hb =>
      obtain rfl : a = b := beq_iff_eq.mp h
      exact h'
    | double y => cases h
  | double x =>
    cases m with
    | integer b hb => cases h
    | double y =>
      cases n with
      | integer c hc => cases h'
      | double z =>
        obtain ⟨hm, he, hs⟩ := Binary64.same_iff.mp h
        obtain ⟨hm', he', hs'⟩ := Binary64.same_iff.mp h'
        refine Binary64.same_iff.mpr ⟨hm.trans hm', he.trans he', ?_⟩
        rcases hs with hs | hs
        · exact hs'.imp hs.trans hm.trans
        · exact .inr hs

end Json.Number

namespace Id

@[simp] theorem same_refl (a : Id) : a.same a = true := by
  cases a with
  | number n => exact n.same_refl
  | string s => simp [same]

theorem same_symm {a b : Id} (h : a.same b = true) : b.same a = true := by
  cases a <;> cases b <;> simp_all [same]
  exact Json.Number.same_symm h

theorem same_trans {a b c : Id} (h : a.same b = true) (h' : b.same c = true) :
    a.same c = true := by
  cases a <;> cases b <;> cases c <;> simp_all [same]
  exact Json.Number.same_trans h h'

end Id

/-- Where at most one member of a list satisfies `p`, erasing it leaves all the others. -/
theorem mem_eraseP_of_unique {α : Type} {p : α → Bool} {l : List α} (hl : l.Nodup)
    (hp : ∀ a ∈ l, ∀ b ∈ l, p a = true → p b = true → a = b) {a : α} :
    a ∈ l.eraseP p ↔ a ∈ l ∧ p a = false := by
  induction l with
  | nil => simp
  | cons b rest ih =>
    obtain ⟨hb, hrest⟩ := List.nodup_cons.mp hl
    have ih := ih hrest fun a ha c hc => hp a (.tail b ha) c (.tail b hc)
    cases hpb : p b with
    | false =>
      rw [List.eraseP_cons_of_neg (by simp [hpb]), List.mem_cons, List.mem_cons, ih]
      constructor
      · rintro (rfl | ⟨h1, h2⟩)
        · exact ⟨.inl rfl, hpb⟩
        · exact ⟨.inr h1, h2⟩
      · rintro ⟨rfl | h1, h2⟩
        · exact .inl rfl
        · exact .inr ⟨h1, h2⟩
    | true =>
      rw [List.eraseP_cons_of_pos hpb, List.mem_cons]
      constructor
      · intro ha
        refine ⟨.inr ha, Bool.eq_false_iff.mpr fun hpa => hb ?_⟩
        rw [hp b (.head rest) a (.tail b ha) hpb hpa]
        exact ha
      · rintro ⟨rfl | h1, h2⟩
        · rw [hpb] at h2; cases h2
        · exact h1

namespace Exchange

/-! ### The table -/

/-- A caller waits. -/
abbrev Waits (x : Exchange) (k : Nat) (w : Waiter) : Prop :=
  x.callers[k]? = some (.waiting w)

theorem Waits.unique {x : Exchange} {k : Nat} {v w : Waiter} (hv : x.Waits k v)
    (hw : x.Waits k w) : v = w := by
  rw [Waits, hw] at hv
  injection hv with hv
  injection hv with hv
  exact hv.symm

/-- The table is exact: its entries are the callers that wait without an answer, and no two callers
wait for the same id. -/
structure Matched (x : Exchange) : Prop where
  entry : ∀ id k, (id, k) ∈ x.pending ↔ ∃ w, x.Waits k w ∧ w.id = id ∧ w.answer = none
  apart : ∀ j k v w, x.Waits j v → x.Waits k w → v.id.same w.id = true → j = k
  nodup : x.pending.Nodup

/-- Nobody waits for the id. -/
def Unclaimed (x : Exchange) (id : Id) : Prop :=
  ∀ k w, x.Waits k w → w.id.same id = false

theorem matched_start (timeout : Nat) : Matched { timeout } where
  entry _ _ := by simp [Waits]
  apart _ _ _ _ h := by simp [Waits] at h
  nodup := List.nodup_nil

section Fields

variable (x : Exchange) (id : Id) (a : Answer)

@[simp] theorem timeout_answer : (x.answer id a).timeout = x.timeout := by
  unfold answer; split <;> rfl

@[simp] theorem now_answer : (x.answer id a).now = x.now := by
  unfold answer; split <;> rfl

@[simp] theorem holders_answer : (x.answer id a).holders = x.holders := by
  unfold answer; split <;> rfl

@[simp] theorem nextId_answer : (x.answer id a).nextId = x.nextId := by
  unfold answer; split <;> rfl

@[simp] theorem dropped_answer : (x.answer id a).dropped = x.dropped := by
  unfold answer; split <;> rfl

end Fields

/-! ### An answer -/

/-- What an answer to an id means for a wait. -/
def Waiter.hear (id : Id) (a : Answer) (w : Waiter) : Waiter :=
  if w.id.same id then { w with answer := w.answer <|> some a } else w

/-- What it means for a caller. -/
def Caller.hear (id : Id) (a : Answer) : Caller → Caller
  | .waiting w => .waiting (w.hear id a)
  | c => c

section Hear

variable (id : Id) (a : Answer) (w : Waiter)

@[simp] theorem Waiter.id_hear : (w.hear id a).id = w.id := by
  unfold Waiter.hear; split <;> rfl

theorem Waiter.answer_hear :
    (w.hear id a).answer = if w.id.same id then w.answer <|> some a else w.answer := by
  unfold Waiter.hear; split <;> rfl

end Hear

theorem Waiter.hear_of_resolved {id : Id} {a : Answer} {w : Waiter}
    (h : w.id.same id = true → w.answer ≠ none) : w.hear id a = w := by
  obtain ⟨i, purpose, deadline, answer⟩ := w
  unfold Waiter.hear
  split
  · next hs =>
    cases answer with
    | none => exact absurd rfl (h hs)
    | some b => rfl
  · rfl

/-- An id that is in nobody's entry: an answer to it changes nothing. -/
theorem answer_of_no_entry {x : Exchange} {id : Id} (h : ∀ e ∈ x.pending, e.1.same id = false)
    (a : Answer) : x.answer id a = x := by
  have hfind : (x.pending.find? fun e => e.1.same id) = none := by
    rw [List.find?_eq_none]
    intro e he
    simp [h e he]
  simp [answer, hfind]

theorem Matched.no_entry {x : Exchange} (hm : x.Matched) {id : Id} (h : x.Unclaimed id) :
    ∀ e ∈ x.pending, e.1.same id = false := by
  rintro ⟨i, k⟩ he
  obtain ⟨w, hk, rfl, -⟩ := (hm.entry i k).mp he
  exact h k w hk

/-- The entry of a caller that waits for the id is the one that an answer finds. -/
theorem Matched.find_entry {x : Exchange} (hm : x.Matched) {id : Id} {k : Nat} {w : Waiter}
    (hk : x.Waits k w) (hw : w.answer = none) (hid : w.id.same id = true) :
    (x.pending.find? fun e => e.1.same id) = some (w.id, k) := by
  have hmem : (w.id, k) ∈ x.pending := (hm.entry w.id k).mpr ⟨w, hk, rfl, hw⟩
  cases hfind : x.pending.find? fun e => e.1.same id with
  | none =>
    rw [List.find?_eq_none] at hfind
    exact absurd hid (hfind _ hmem)
  | some e =>
    obtain ⟨i, j⟩ := e
    have hi : i.same id = true := by simpa using List.find?_some hfind
    obtain ⟨v, hj, rfl, -⟩ := (hm.entry i j).mp (List.mem_of_find?_eq_some hfind)
    obtain rfl := hm.apart j k v w hj hk (Id.same_trans hi (Id.same_symm hid))
    obtain rfl := hj.unique hk
    rfl

/-- **An answer is heard by whoever waits for its id.** -/
theorem callers_answer {x : Exchange} (hm : x.Matched) (id : Id) (a : Answer) :
    (x.answer id a).callers = x.callers.map (Caller.hear id a) := by
  by_cases hw : ∃ k w, x.Waits k w ∧ w.answer = none ∧ w.id.same id = true
  · obtain ⟨k, w, hk, hnone, hid⟩ := hw
    have hcallers : (x.answer id a).callers = x.callers.modify k (Caller.answered a) := by
      simp [answer, hm.find_entry hk hnone hid]
    rw [hcallers]
    refine List.ext_getElem? fun j => ?_
    rw [List.getElem?_modify, List.getElem?_map]
    by_cases hj : k = j
    · subst hj
      simp [hk, Caller.hear, Caller.answered, Waiter.hear, hid]
    · cases hc : x.callers[j]? with
      | none => simp
      | some c =>
        cases c with
        | waiting v =>
          have hv : v.id.same id = false := by
            refine Bool.eq_false_iff.mpr fun hv => hj ?_
            exact hm.apart k j w v hk hc (Id.same_trans hid (Id.same_symm hv))
          simp [hj, Caller.hear, Waiter.hear, hv]
        | _ => simp [hj, Caller.hear]
  · have hno : ∀ e ∈ x.pending, e.1.same id = false := by
      rintro ⟨i, k⟩ he
      obtain ⟨w, hk, rfl, hnone⟩ := (hm.entry i k).mp he
      exact Bool.eq_false_iff.mpr fun hs => hw ⟨k, w, hk, hnone, hs⟩
    rw [answer_of_no_entry hno]
    refine List.ext_getElem? fun j => ?_
    rw [List.getElem?_map]
    cases hc : x.callers[j]? with
    | none => rfl
    | some c =>
      cases c with
      | waiting v =>
        rw [Option.map_some, Caller.hear, Waiter.hear_of_resolved]
        exact fun hs hnone => hw ⟨j, v, hc, hnone, hs⟩
      | _ => rfl

theorem waits_answer {x : Exchange} (hm : x.Matched) {id : Id} {a : Answer} {k : Nat}
    {v : Waiter} : (x.answer id a).Waits k v ↔ ∃ w, x.Waits k w ∧ v = w.hear id a := by
  unfold Waits
  rw [callers_answer hm, List.getElem?_map]
  cases hc : x.callers[k]? with
  | none => simp
  | some c => cases c <;> simp [Caller.hear, eq_comm]

theorem pending_answer (x : Exchange) (id : Id) (a : Answer) :
    (x.answer id a).pending = x.pending.eraseP fun e => e.1.same id := by
  unfold answer
  split
  · next hfind =>
    rw [List.find?_eq_none] at hfind
    rw [List.eraseP_of_forall_not hfind]
  · rfl

theorem Matched.mem_pending_answer {x : Exchange} (hm : x.Matched) {id : Id} {a : Answer}
    {e : Id × Nat} : e ∈ (x.answer id a).pending ↔ e ∈ x.pending ∧ e.1.same id = false := by
  rw [pending_answer]
  refine mem_eraseP_of_unique hm.nodup ?_
  rintro ⟨i, j⟩ hi ⟨i', k⟩ hi' hs hs'
  obtain ⟨v, hv, rfl, -⟩ := (hm.entry i j).mp hi
  obtain ⟨w, hw, rfl, -⟩ := (hm.entry i' k).mp hi'
  obtain rfl := hm.apart j k v w hv hw (Id.same_trans hs (Id.same_symm hs'))
  rw [hv.unique hw]

theorem matched_answer {x : Exchange} (hm : x.Matched) (id : Id) (a : Answer) :
    (x.answer id a).Matched where
  entry i k := by
    rw [hm.mem_pending_answer, hm.entry]
    constructor
    · rintro ⟨⟨w, hk, rfl, hnone⟩, hs⟩
      exact ⟨w.hear id a, (waits_answer hm).mpr ⟨w, hk, rfl⟩, w.id_hear id a,
        by rw [Waiter.answer_hear, hs]; exact hnone⟩
    · rintro ⟨v, hv, rfl, hnone⟩
      obtain ⟨w, hk, rfl⟩ := (waits_answer hm).mp hv
      rw [Waiter.answer_hear] at hnone
      rw [Waiter.id_hear]
      split at hnone
      · cases hw : w.answer <;> simp [hw] at hnone
      · next hs => exact ⟨⟨w, hk, rfl, hnone⟩, by simpa using hs⟩
  apart j k v' w' hv' hw' hs := by
    obtain ⟨v, hv, rfl⟩ := (waits_answer hm).mp hv'
    obtain ⟨w, hw, rfl⟩ := (waits_answer hm).mp hw'
    exact hm.apart j k v w hv hw (by simpa using hs)
  nodup := by
    rw [pending_answer]
    exact hm.nodup.eraseP _

/-- No two entries of the table have the same id. -/
theorem Matched.pending_apart {x : Exchange} (hm : x.Matched) :
    x.pending.Pairwise fun e f => e.1.same f.1 = false := by
  refine hm.nodup.imp_of_mem ?_
  rintro ⟨i, j⟩ ⟨i', k⟩ he hf hne
  obtain ⟨v, hv, rfl, -⟩ := (hm.entry i j).mp he
  obtain ⟨w, hw, rfl, -⟩ := (hm.entry i' k).mp hf
  refine Bool.eq_false_iff.mpr fun hs => hne ?_
  obtain rfl := hm.apart j k v w hv hw hs
  rw [hv.unique hw]

/-! ### Callers that leave and come -/

theorem Matched.entry_same_iff {x : Exchange} (hm : x.Matched) {k : Nat} {w : Waiter}
    (hw : x.Waits k w) {e : Id × Nat} (he : e ∈ x.pending) : e.1.same w.id = true ↔ e.2 = k := by
  obtain ⟨i, j⟩ := e
  obtain ⟨v, hv, rfl, -⟩ := (hm.entry i j).mp he
  constructor
  · exact hm.apart j k v w hv hw
  · rintro rfl
    rw [hv.unique hw]
    exact w.id.same_refl

/-- A caller that leaves changes no other. -/
theorem callers_leave {x : Exchange} (hm : x.Matched) {k : Nat} {w : Waiter} (hw : x.Waits k w) :
    (x.leave k w.id).callers = x.callers.set k .over := by
  cases hnone : w.answer with
  | none =>
    have hfind := hm.find_entry hw hnone w.id.same_refl
    have hcallers : (x.leave k w.id).callers =
        (x.callers.set k .over).modify k (Caller.answered .abandoned) := by
      simp [leave, answer, setCaller, hfind]
    rw [hcallers]
    refine List.ext_getElem? fun j => ?_
    rw [List.getElem?_modify, List.getElem?_set]
    by_cases hj : k = j
    · subst hj
      split <;> simp [Caller.answered]
    · simp [hj]
  | some b =>
    have hno : ∀ e ∈ (x.setCaller k .over).pending, e.1.same w.id = false := by
      intro e he
      refine Bool.eq_false_iff.mpr fun hs => ?_
      have hk := (hm.entry_same_iff hw he).mp hs
      obtain ⟨v, hv, -, hv'⟩ := (hm.entry e.1 e.2).mp he
      rw [hk] at hv
      rw [hv.unique hw, hnone] at hv'
      cases hv'
    rw [leave, answer_of_no_entry hno]
    rfl

theorem Matched.mem_pending_leave {x : Exchange} (hm : x.Matched) {k : Nat} {w : Waiter}
    (hw : x.Waits k w) {e : Id × Nat} :
    e ∈ (x.leave k w.id).pending ↔ e ∈ x.pending ∧ e.2 ≠ k := by
  have hpending : (x.leave k w.id).pending = (x.answer w.id .abandoned).pending := by
    rw [leave, pending_answer, pending_answer]
    rfl
  rw [hpending, hm.mem_pending_answer]
  constructor
  · rintro ⟨he, hs⟩
    exact ⟨he, fun hk => by rw [(hm.entry_same_iff hw he).mpr hk] at hs; cases hs⟩
  · rintro ⟨he, hk⟩
    exact ⟨he, Bool.eq_false_iff.mpr fun hs => hk ((hm.entry_same_iff hw he).mp hs)⟩

/-- Who waits when the state of one caller is replaced by one that does not wait. -/
theorem waits_of_set {x y : Exchange} {k : Nat} {c : Caller} (hc : c.waits = false)
    (hy : y.callers = x.callers.set k c) {j : Nat} {v : Waiter} :
    y.Waits j v ↔ j ≠ k ∧ x.Waits j v := by
  unfold Waits
  rw [hy, List.getElem?_set]
  by_cases hj : k = j
  · subst hj
    have hne : c ≠ .waiting v := by rintro rfl; cases hc
    rw [if_pos rfl]
    split <;> simp [hne]
  · simp [hj, Ne.symm hj]

theorem matched_leave {x : Exchange} (hm : x.Matched) {k : Nat} {w : Waiter} (hw : x.Waits k w) :
    (x.leave k w.id).Matched where
  entry i j := by
    rw [hm.mem_pending_leave hw, hm.entry]
    constructor
    · rintro ⟨⟨v, hv, rfl, hnone⟩, hj⟩
      exact ⟨v, (waits_of_set rfl (callers_leave hm hw)).mpr ⟨hj, hv⟩, rfl, hnone⟩
    · rintro ⟨v, hv, rfl, hnone⟩
      obtain ⟨hj, hv⟩ := (waits_of_set rfl (callers_leave hm hw)).mp hv
      exact ⟨⟨v, hv, rfl, hnone⟩, hj⟩
  apart i j v v' hv hv' hs := by
    obtain ⟨-, hv⟩ := (waits_of_set rfl (callers_leave hm hw)).mp hv
    obtain ⟨-, hv'⟩ := (waits_of_set rfl (callers_leave hm hw)).mp hv'
    exact hm.apart i j v v' hv hv' hs
  nodup := by
    rw [leave, pending_answer]
    exact hm.nodup.eraseP _

/-- A change of neither the table nor who waits. -/
theorem Matched.congr {x y : Exchange} (hm : x.Matched) (hp : y.pending = x.pending)
    (hw : ∀ k w, y.Waits k w ↔ x.Waits k w) : y.Matched where
  entry i k := by simp only [hp, hm.entry, hw]
  apart j k v w hv hw' := hm.apart j k v w ((hw j v).mp hv) ((hw k w).mp hw')
  nodup := hp ▸ hm.nodup

/-- Who waits after a caller was added. -/
theorem waits_of_append {x y : Exchange} {c : Caller} (hy : y.callers = x.callers ++ [c])
    {k : Nat} {w : Waiter} :
    y.Waits k w ↔ x.Waits k w ∨ (k = x.callers.length ∧ c = .waiting w) := by
  unfold Waits
  rw [hy, List.getElem?_append]
  by_cases hk : k < x.callers.length
  · simp [hk, Nat.ne_of_lt hk]
  · have hnone : x.callers[k]? = none := by simp at hk ⊢; exact hk
    simp only [hk, if_false, hnone]
    by_cases he : k = x.callers.length
    · simp [he]
    · have : k - x.callers.length ≠ 0 := by omega
      simp [he, this]

/-- **A caller comes** with an id that nobody waits for. -/
theorem await_eq {x : Exchange} (hm : x.Matched) {c : Call} (hid : x.Unclaimed c.id)
    (purpose : Purpose) :
    x.await c purpose =
      ({ x with
          pending := x.pending ++ [(c.id, x.callers.length)]
          callers := x.callers ++
            [.waiting { id := c.id, purpose, deadline := x.now + x.timeout }] },
        [.queue c.toJson.render]) := by
  unfold await
  rw [answer_of_no_entry (hm.no_entry hid)]

theorem matched_await {x : Exchange} (hm : x.Matched) {c : Call} (hid : x.Unclaimed c.id)
    (purpose : Purpose) : (x.await c purpose).1.Matched := by
  rw [await_eq hm hid]
  have hwaits {k w} := waits_of_append (x := x) (y := { x with
    pending := x.pending ++ [(c.id, x.callers.length)]
    callers := x.callers ++ [.waiting { id := c.id, purpose, deadline := x.now + x.timeout }] })
    rfl (k := k) (w := w)
  have hlt : ∀ {k w}, x.Waits k w → k ≠ x.callers.length := by
    intro k w hw
    exact Nat.ne_of_lt (List.getElem?_eq_some_iff.mp hw).1
  refine ⟨fun i k => ?_, fun j k v w hv hw hs => ?_, ?_⟩
  · simp only [List.mem_append, List.mem_singleton, hwaits, hm.entry, Prod.mk.injEq]
    constructor
    · rintro (⟨w, hw, rfl, hnone⟩ | ⟨rfl, rfl⟩)
      · exact ⟨w, .inl hw, rfl, hnone⟩
      · exact ⟨_, .inr ⟨rfl, rfl⟩, rfl, rfl⟩
    · rintro ⟨w, hw | ⟨rfl, hw⟩, rfl, hnone⟩
      · exact .inl ⟨w, hw, rfl, hnone⟩
      · injection hw with hw
        exact .inr ⟨by rw [← hw], rfl⟩
  · rcases hwaits.mp hv with hj | ⟨rfl, hv'⟩ <;> rcases hwaits.mp hw with hk | ⟨rfl, hw'⟩
    · exact hm.apart j k v w hj hk hs
    · injection hw' with hw'
      rw [← hw', hid j v hj] at hs
      cases hs
    · injection hv' with hv'
      have hs := Id.same_symm hs
      rw [← hv', hid k w hk] at hs
      cases hs
    · rfl
  · refine List.nodup_append.mpr ⟨hm.nodup, by simp, ?_⟩
    rintro ⟨i, k⟩ he e' he' rfl
    obtain ⟨w, hw, -, -⟩ := (hm.entry i k).mp he
    simp only [List.mem_singleton, Prod.mk.injEq] at he'
    exact hlt hw he'.2

/-- A caller that does not wait is put into another state in which it does not wait. -/
theorem matched_setCaller {x : Exchange} (hm : x.Matched) {k : Nat} {c : Caller}
    (hc : c.waits = false) (hk : ∀ w, ¬x.Waits k w) : (x.setCaller k c).Matched := by
  refine hm.congr rfl fun j v => ?_
  rw [waits_of_set hc rfl]
  exact ⟨And.right, fun hv => ⟨fun hj => hk v (hj ▸ hv), hv⟩⟩

end Exchange
end NodeClient
