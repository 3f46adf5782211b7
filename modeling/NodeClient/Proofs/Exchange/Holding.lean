import NodeClient.Proofs.Exchange.Correlation

/-!
# Holding — who holds the queries of an exchange

A caller holds a query from the moment it subscribes until its subscription ends, or its call fails.
The table of holders counts these callers.

* `Holders.count_add`, `Holders.count_remove`: what the two changes of a table do to its counts.
* `turn_step`: an input lets in a holder, lets one go, or leaves the holders alone.
* `Counted`, `Turn.counted`: every query has as many holders in the table as callers hold it.
-/

namespace NodeClient

/-! ### The table -/

namespace Holders

/-- The queries are in ascending order, and each has a holder. -/
structure Sound (holders : Holders) : Prop where
  ascending : holders.Pairwise fun e f => e.1 < f.1
  positive : ∀ e ∈ holders, 0 < e.2

theorem sound_nil : Sound [] := ⟨.nil, nofun⟩

theorem Sound.tail {e : String × Nat} {rest : Holders} (h : Sound (e :: rest)) : Sound rest :=
  ⟨(List.pairwise_cons.mp h.ascending).2, fun f hf => h.positive f (.tail e hf)⟩

theorem count_eq_zero {holders : Holders} {q : String} (h : ∀ e ∈ holders, e.1 ≠ q) :
    holders.count q = 0 := by
  induction holders with
  | nil => rfl
  | cons e rest ih =>
    obtain ⟨p, n⟩ := e
    rw [count, if_neg (h (p, n) (.head rest))]
    exact ih fun f hf => h f (.tail _ hf)

/-- A query that comes before all others is not in the table. -/
theorem count_eq_zero_of_lt {holders : Holders} {q : String} (h : ∀ e ∈ holders, q < e.1) :
    holders.count q = 0 :=
  count_eq_zero fun e he heq => String.lt_irrefl q (heq ▸ h e he)

theorem count_add {holders : Holders} (h : holders.Sound) (q p : String) :
    (holders.add q).count p = holders.count p + if q = p then 1 else 0 := by
  induction holders with
  | nil => simp [add, count]
  | cons e rest ih =>
    obtain ⟨o, n⟩ := e
    have ih := ih h.tail
    rw [add]
    split
    · next ho =>
      subst ho
      by_cases hp : o = p <;> simp [count, hp]
    split
    · next ho hlt =>
      have hzero : count q ((o, n) :: rest) = 0 := by
        refine count_eq_zero_of_lt fun f hf => ?_
        rcases List.mem_cons.mp hf with rfl | hf
        · exact hlt
        · exact String.lt_trans hlt ((List.pairwise_cons.mp h.ascending).1 f hf)
      by_cases hp : q = p
      · subst hp
        rw [hzero]
        simp [count]
      · rw [count, if_neg hp, if_neg hp, Nat.add_zero]
    · next ho hlt =>
      rw [count, count, ih]
      split
      · next hp => rw [if_neg fun hq => ho (hp.trans hq.symm), Nat.add_zero]
      · rfl

theorem count_remove {holders : Holders} (h : holders.Sound) (q p : String) :
    (holders.remove q).count p = holders.count p - if q = p then 1 else 0 := by
  induction holders with
  | nil => simp [remove, count]
  | cons e rest ih =>
    obtain ⟨o, n⟩ := e
    rw [remove]
    split
    · next ho =>
      subst ho
      have hzero : count o rest = 0 := count_eq_zero_of_lt (List.pairwise_cons.mp h.ascending).1
      by_cases hp : o = p
      · subst hp
        split
        · simp [count, hzero]; omega
        · simp [count]
      · split <;> simp [count, hp]
    · next ho =>
      rw [count, count, ih h.tail]
      split
      · next hp => rw [if_neg fun hq => ho (hp.trans hq.symm), Nat.sub_zero]
      · rfl

theorem mem_add {holders : Holders} {q : String} {e : String × Nat} (he : e ∈ holders.add q) :
    e.1 = q ∧ 0 < e.2 ∨ e ∈ holders := by
  induction holders with
  | nil =>
    obtain rfl := List.mem_singleton.mp he
    exact .inl ⟨rfl, Nat.one_pos⟩
  | cons f rest ih =>
    obtain ⟨o, n⟩ := f
    rw [add] at he
    split at he
    · next ho =>
      rcases List.mem_cons.mp he with rfl | he
      · exact .inl ⟨ho, Nat.succ_pos n⟩
      · exact .inr (.tail _ he)
    split at he
    · rcases List.mem_cons.mp he with rfl | he
      · exact .inl ⟨rfl, Nat.one_pos⟩
      · exact .inr he
    · rcases List.mem_cons.mp he with rfl | he
      · exact .inr (.head rest)
      · exact (ih he).imp_right (.tail _)

theorem sound_add {holders : Holders} (h : holders.Sound) (q : String) :
    (holders.add q).Sound := by
  refine ⟨?_, fun e he => (mem_add he).elim And.right (h.positive e)⟩
  have hasc := h.ascending
  clear h
  induction holders with
  | nil => exact List.pairwise_singleton _ _
  | cons f rest ih =>
    obtain ⟨o, n⟩ := f
    obtain ⟨hfirst, hrest⟩ := List.pairwise_cons.mp hasc
    rw [add]
    split
    · exact List.pairwise_cons.mpr ⟨hfirst, hrest⟩
    split
    · next hlt =>
      refine List.pairwise_cons.mpr ⟨fun e he => ?_, hasc⟩
      rcases List.mem_cons.mp he with rfl | he
      · exact hlt
      · exact String.lt_trans hlt (hfirst e he)
    · next ho hlt =>
      refine List.pairwise_cons.mpr ⟨fun e he => ?_, ih hrest⟩
      rcases mem_add he with ⟨rfl, -⟩ | he
      · refine Decidable.byContradiction fun hge => ho ?_
        exact String.le_antisymm (String.not_lt.mp hlt) (String.not_lt.mp hge)
      · exact hfirst e he

theorem mem_remove {holders : Holders} {q : String} {e : String × Nat}
    (h : ∀ f ∈ holders, 0 < f.2) (he : e ∈ holders.remove q) :
    0 < e.2 ∧ ∃ f ∈ holders, f.1 = e.1 := by
  induction holders with
  | nil => cases he
  | cons f rest ih =>
    obtain ⟨o, n⟩ := f
    have hrest : e ∈ rest → 0 < e.2 ∧ ∃ f ∈ (o, n) :: rest, f.1 = e.1 := fun he =>
      ⟨h e (.tail _ he), e, .tail _ he, rfl⟩
    rw [remove] at he
    split at he
    · split at he
      · exact hrest he
      · next hn =>
        rcases List.mem_cons.mp he with rfl | he
        · exact ⟨by simp; omega, (o, n), .head rest, rfl⟩
        · exact hrest he
    · rcases List.mem_cons.mp he with rfl | he
      · exact ⟨h _ (.head rest), (o, n), .head rest, rfl⟩
      · obtain ⟨hpos, f, hf, heq⟩ := ih (fun f hf => h f (.tail _ hf)) he
        exact ⟨hpos, f, .tail _ hf, heq⟩

theorem sound_remove {holders : Holders} (h : holders.Sound) (q : String) :
    (holders.remove q).Sound := by
  refine ⟨?_, fun e he => (mem_remove h.positive he).1⟩
  induction holders with
  | nil => exact .nil
  | cons f rest ih =>
    obtain ⟨o, n⟩ := f
    obtain ⟨hfirst, hrest⟩ := List.pairwise_cons.mp h.ascending
    rw [remove]
    split
    · split
      · exact hrest
      · exact List.pairwise_cons.mpr ⟨hfirst, hrest⟩
    · refine List.pairwise_cons.mpr ⟨fun e he => ?_, ih h.tail⟩
      obtain ⟨-, f, hf, heq⟩ := mem_remove h.tail.positive he
      exact heq ▸ hfirst f hf

/-- The queries of the table are those with holders. -/
theorem Sound.mem_queries {holders : Holders} (h : holders.Sound) {q : String} :
    q ∈ holders.queries ↔ 0 < holders.count q := by
  induction holders with
  | nil => exact iff_of_false List.not_mem_nil (Nat.lt_irrefl 0)
  | cons e rest ih =>
    obtain ⟨o, n⟩ := e
    have hpos : 0 < n := h.positive (o, n) (.head rest)
    rw [count]
    by_cases ho : o = q
    · rw [if_pos ho]
      exact iff_of_true (List.mem_map.mpr ⟨(o, n), .head rest, ho⟩) hpos
    · rw [if_neg ho, ← ih h.tail]
      refine List.mem_cons.trans (or_iff_right fun hq => ho hq.symm)

/-- The table after somebody comes who holds a query, or none. -/
def letIn (holders : Holders) : Option String → Holders
  | some q => holders.add q
  | none => holders

/-- The table after somebody leaves who held a query, or none. -/
def letGo (holders : Holders) : Option String → Holders
  | some q => holders.remove q
  | none => holders

end Holders

namespace Exchange

/-! ### The callers -/

/-- The query that a caller holds while it waits. -/
def Purpose.query? : Purpose → Option String
  | .response => none
  | .subscription s => some s.query

/-- The query that a caller holds. -/
def Caller.query? : Caller → Option String
  | .waiting w => w.purpose.query?
  | .subscribed s => some s.query
  | .over => none

/-- A caller holds a query. -/
abbrev Holds (x : Exchange) (k : Nat) (q : String) : Prop :=
  (x.callers.map Caller.query?)[k]? = some (some q)

/-- **The count of holders is exact.** -/
structure Counted (x : Exchange) : Prop where
  sound : x.holders.Sound
  exact : ∀ q, x.holders.count q = (x.callers.map Caller.query?).count (some q)

theorem counted_start (timeout : Nat) : Counted { timeout } :=
  ⟨Holders.sound_nil, fun _ => rfl⟩

@[simp] theorem Caller.query?_answered (a : Answer) (c : Caller) :
    (c.answered a).query? = c.query? := by
  cases c <;> rfl

@[simp] theorem Caller.query?_readOn (events : List Event) (c : Caller) :
    (c.readOn events).query? = c.query? := by
  cases c <;> rfl

theorem Caller.query?_after (result : Except ClientError Response) (p : Purpose) :
    (p.after result).query? = p.query? ∨ (p.after result).query? = none := by
  cases p with
  | response => exact .inr rfl
  | subscription s =>
    unfold Purpose.after
    cases result.bind Client.resultOf with
    | ok v => exact .inl rfl
    | error e => exact .inr rfl

section Changes

variable {x y : Exchange} (hx : x.Counted)

include hx

/-- Nobody comes, and nobody lets go. -/
theorem Counted.congr (hq : y.callers.map Caller.query? = x.callers.map Caller.query?)
    (hh : y.holders = x.holders) : y.Counted :=
  ⟨hh ▸ hx.sound, fun q => by rw [hh, hq, hx.exact]⟩

/-- A caller comes, who holds a query or none. -/
theorem Counted.join {o : Option String}
    (hq : y.callers.map Caller.query? = x.callers.map Caller.query? ++ [o])
    (hh : y.holders = x.holders.letIn o) : y.Counted := by
  cases o with
  | none =>
    refine ⟨hh ▸ hx.sound, fun p => ?_⟩
    rw [hh, hq, Holders.letIn, List.count_append, hx.exact]
    simp
  | some q =>
    refine ⟨hh ▸ Holders.sound_add hx.sound q, fun p => ?_⟩
    rw [hh, hq, Holders.letIn, Holders.count_add hx.sound, List.count_append, hx.exact]
    simp [List.count_singleton]

/-- A caller leaves, who held a query or none. -/
theorem Counted.leave {k : Nat} {held : Option String}
    (hk : (x.callers.map Caller.query?)[k]? = some held)
    (hq : y.callers.map Caller.query? = (x.callers.map Caller.query?).set k none)
    (hh : y.holders = x.holders.letGo held) : y.Counted := by
  obtain ⟨hlt, hget⟩ := List.getElem?_eq_some_iff.mp hk
  cases held with
  | none =>
    rw [← hget, List.set_getElem_self] at hq
    exact hx.congr hq hh
  | some q =>
    refine ⟨hh ▸ Holders.sound_remove hx.sound q, fun p => ?_⟩
    rw [hh, hq, Holders.letGo, Holders.count_remove hx.sound, List.count_set hlt, hget, hx.exact]
    simp

/-- A query has no holder just if no caller holds it. -/
theorem Counted.count_eq_zero {q : String} : x.holders.count q = 0 ↔ ∀ k, ¬x.Holds k q := by
  rw [hx.exact, List.count_eq_zero, List.mem_iff_getElem?]
  exact not_exists

theorem Counted.count_ne_zero {k : Nat} {q : String} (hk : x.Holds k q) :
    x.holders.count q ≠ 0 := fun h => hx.count_eq_zero.mp h k hk

/-- A query with one holder is held by one caller. -/
theorem Counted.sole {q : String} (hone : x.holders.count q = 1) {j k : Nat} (hj : x.Holds j q)
    (hk : x.Holds k q) : j = k := by
  obtain ⟨hlt, hget⟩ := List.getElem?_eq_some_iff.mp hj
  have hrest : ((x.callers.map Caller.query?).set j none).count (some q) = 0 := by
    rw [List.count_set hlt, hget, ← hx.exact, hone]
    simp
  refine Decidable.byContradiction fun hne => List.count_eq_zero.mp hrest ?_
  exact List.mem_iff_getElem?.mpr ⟨k, by rw [List.getElem?_set_ne hne]; exact hk⟩

/-- A subscription asks the node just if nobody holds its query. -/
theorem Counted.asks_iff {q : String} :
    (x.holders.add q).count q = 1 ↔ x.holders.count q = 0 := by
  rw [Holders.count_add hx.sound, if_pos rfl]
  omega

end Changes

/-! ### What the callers keep -/

/-- A list with one item changed, seen through a function that does not see the change. -/
theorem map_modify_self {α β : Type} {f : α → β} {g : α → α} (h : ∀ a, f (g a) = f a) (l : List α)
    (k : Nat) : (l.modify k g).map f = l.map f := by
  refine List.ext_getElem? fun j => ?_
  rw [List.getElem?_map, List.getElem?_map, List.getElem?_modify]
  cases l[j]? with
  | none => rfl
  | some a => by_cases hj : k = j <;> simp [hj, h]

section Kept

variable {β : Type} {f : Caller → β} (hf : ∀ a c, f (Caller.answered a c) = f c) (x : Exchange)

include hf

/-! An answer changes nothing that callers have without it. -/

theorem map_callers_answer (id : Id) (a : Answer) :
    (x.answer id a).callers.map f = x.callers.map f := by
  unfold answer
  split
  · rfl
  · exact map_modify_self (hf a) x.callers _

theorem map_callers_route (text : String) : (x.route text).callers.map f = x.callers.map f := by
  unfold route
  split
  · exact map_callers_answer hf x _ _
  · split
    · exact map_callers_answer hf x _ _
    · rfl
  · rfl
  · rfl

theorem map_callers_leave (k : Nat) (id : Id) :
    (x.leave k id).callers.map f = (x.callers.map f).set k (f .over) := by
  rw [leave, map_callers_answer hf]
  exact List.map_set

theorem map_callers_await (c : Call) (purpose : Purpose) :
    (x.await c purpose).1.callers.map f = x.callers.map f ++
      [f (.waiting { id := c.id, purpose, deadline := x.now + x.timeout })] := by
  show ((x.answer c.id .abandoned).callers ++ [_]).map f = _
  rw [List.map_append, map_callers_answer hf, now_answer, timeout_answer]
  rfl

theorem map_callers_finish (k : Nat) (w : Waiter) (result : Except ClientError Response) :
    (x.finish k w result).1.callers.map f =
      (x.callers.map f).set k (f (w.purpose.after result)) := by
  have hleave := map_callers_leave hf x k w.id
  unfold finish Purpose.after
  cases w.purpose with
  | response => exact hleave
  | subscription s =>
    cases result.bind Client.resultOf with
    | ok v =>
      show ((x.leave k w.id).callers.set k _).map f = _
      rw [List.map_set, hleave, List.set_set]
    | error e =>
      show ((x.leave k w.id).release s.query false).1.callers.map f = _
      rw [callers_release, hleave]

theorem map_callers_abort (k : Nat) :
    (x.abort k).1.callers.map f = (x.callers.map f).set k (f .over) := by
  have hover : (x.setCaller k .over).callers.map f = (x.callers.map f).set k (f .over) :=
    List.map_set
  unfold abort
  cases hc : x.callers[k]? with
  | none => exact (List.set_eq_of_length_le (by simpa using hc)).symm
  | some c =>
    cases c with
    | waiting w =>
      have hleave := map_callers_leave hf x k w.id
      dsimp only
      cases w.purpose with
      | response => exact hleave
      | subscription s =>
        dsimp only
        rw [callers_release, hleave]
    | subscribed s =>
      dsimp only
      split
      · rw [callers_release, hover]
      · exact hover
    | «over» =>
      obtain ⟨hlt, hget⟩ := List.getElem?_eq_some_iff.mp hc
      show x.callers.map f = _
      rw [← List.map_set, ← hget, List.set_getElem_self]

end Kept

/-! ### Steps -/

theorem Waits.held {x : Exchange} {k : Nat} {w : Waiter} (hw : x.Waits k w) :
    (x.callers.map Caller.query?)[k]? = some w.purpose.query? := by
  rw [List.getElem?_map, show x.callers[k]? = some (.waiting w) from hw]
  rfl

theorem Waits.holds {x : Exchange} {k : Nat} {w : Waiter} (hw : x.Waits k w) {q : String}
    (hq : w.purpose.query? = some q) : x.Holds k q := by
  rw [Holds, hw.held, hq]

theorem holders_await (x : Exchange) (c : Call) (purpose : Purpose) :
    (x.await c purpose).1.holders = x.holders := by
  simp [await]

theorem holders_subscribe (x : Exchange) (q : String) (topic : Topic) (family : Family) :
    (x.subscribe q topic family).1.holders = x.holders.add q := by
  by_cases hq : (x.holders.add q).count q = 1
  · rw [subscribe_asking hq, holders_await]
    rfl
  · rw [subscribe_joining hq]

theorem holders_leave (x : Exchange) (k : Nat) (id : Id) :
    (x.leave k id).holders = x.holders := by
  rw [leave, holders_answer]
  rfl

/-- A call that fails lets go of its query. -/
theorem holders_finish (x : Exchange) (k : Nat) (w : Waiter)
    (result : Except ClientError Response) :
    (x.finish k w result).1.holders =
      if (w.purpose.after result).query? = w.purpose.query? then x.holders
      else x.holders.letGo w.purpose.query? := by
  unfold finish Purpose.after
  cases w.purpose with
  | response => exact holders_leave x k w.id
  | subscription s =>
    cases hr : result.bind Client.resultOf with
    | ok v => simp [setCaller, holders_leave, Purpose.query?, Caller.query?]
    | error e => simp [holders_leave, Purpose.query?, Caller.query?, Holders.letGo]

/-- Whoever gives up lets go of his query, while the exchange is there. -/
theorem holders_abort {x : Exchange} (hheld : x.isHeld = true) {k : Nat} {c : Caller}
    (hc : x.callers[k]? = some c) : (x.abort k).1.holders = x.holders.letGo c.query? := by
  unfold abort
  rw [hc]
  cases c with
  | waiting w =>
    dsimp only [Caller.query?]
    cases w.purpose with
    | response => exact holders_leave x k w.id
    | subscription s =>
      simp only [holders_release, holders_leave, Purpose.query?, Holders.letGo]
  | subscribed s =>
    simp only [hheld, if_true, holders_release]
    rfl
  | «over» => rfl

/-- The query that a new caller holds, or none, if an input lets in a caller. -/
def Input.seat? : Input → Option (Option String)
  | .call _ => some none
  | .subscribe query _ _ => some (some query)
  | _ => none

theorem Input.seat?_eq_query {i : Input} {q : String} :
    i.seat? = some (some q) ↔ ∃ topic family, i = .subscribe q topic family := by
  constructor
  · intro h
    cases i with
    | subscribe query topic family =>
      obtain rfl : query = q := Option.some.inj (Option.some.inj h)
      exact ⟨topic, family, rfl⟩
    | call c => cases Option.some.inj h
    | _ => cases h
  · rintro ⟨topic, family, rfl⟩
    rfl

/-- What an input does to the holders: nothing, or a caller comes, or one that goes on or gives up
lets go. -/
inductive Turn (x : Exchange) (i : Input) (y : Exchange) : Prop where
  | stay (hq : y.callers.map Caller.query? = x.callers.map Caller.query?)
      (hh : y.holders = x.holders)
  | join (o : Option String) (hi : i.seat? = some o)
      (hq : y.callers.map Caller.query? = x.callers.map Caller.query? ++ [o])
      (hh : y.holders = x.holders.letIn o)
  | leave (k : Nat) (o : Option String) (hi : i = .resume k ∨ i = .abort k)
      (hk : (x.callers.map Caller.query?)[k]? = some o)
      (hq : y.callers.map Caller.query? = (x.callers.map Caller.query?).set k none)
      (hh : y.holders = x.holders.letGo o)

theorem turn_subscribe (x : Exchange) (query : String) (topic : Topic) (family : Family) :
    Turn x (.subscribe query topic family) (x.step (.subscribe query topic family)).1 := by
  refine .join (some query) rfl ?_ (x.holders_subscribe query topic family)
  by_cases hq : (x.holders.add query).count query = 1
  · rw [step, subscribe_asking hq, map_callers_await Caller.query?_answered]
    rfl
  · rw [step, subscribe_joining hq, List.map_append]
    rfl

theorem turn_resume (x : Exchange) (k : Nat) : Turn x (.resume k) (x.step (.resume k)).1 := by
  rcases x.resume_cases k with ⟨w, result, hw, -, hk⟩ | ⟨-, hk⟩
  · have hq : (x.step (.resume k)).1.callers.map Caller.query? =
        (x.callers.map Caller.query?).set k (w.purpose.after result).query? := by
      rw [step, hk, map_callers_finish Caller.query?_answered]
    have hh := x.holders_finish k w result
    rw [← hk] at hh
    by_cases hafter : (w.purpose.after result).query? = w.purpose.query?
    · rw [if_pos hafter] at hh
      obtain ⟨hlt, hget⟩ := List.getElem?_eq_some_iff.mp hw.held
      rw [hafter, ← hget, List.set_getElem_self] at hq
      exact .stay hq hh
    · rw [if_neg hafter] at hh
      rw [(Caller.query?_after result w.purpose).resolve_left hafter] at hq
      exact .leave k _ (.inl rfl) hw.held hq hh
  · rw [step, hk]
    exact .stay rfl rfl

theorem turn_abort {x : Exchange} (hheld : x.isHeld = true) (k : Nat) :
    Turn x (.abort k) (x.step (.abort k)).1 := by
  have hq : (x.step (.abort k)).1.callers.map Caller.query? =
      (x.callers.map Caller.query?).set k none :=
    map_callers_abort Caller.query?_answered x k
  cases hc : x.callers[k]? with
  | none =>
    rw [List.set_eq_of_length_le (by simpa using hc)] at hq
    refine .stay hq ?_
    rw [step, abort, hc]
  | some c =>
    have hk : (x.callers.map Caller.query?)[k]? = some c.query? := by
      rw [List.getElem?_map, hc]
      rfl
    exact .leave k _ (.inr rfl) hk hq (holders_abort hheld hc)

/-- **Holders come and go with the callers**, while the exchange is there. -/
theorem turn_step {x : Exchange} (hheld : x.isHeld = true) (i : Input) : Turn x i (x.step i).1 := by
  cases i with
  | call c =>
    exact .join none rfl (map_callers_await Caller.query?_answered x c .response)
      (holders_await x c .response)
  | subscribe query topic family => exact turn_subscribe x query topic family
  | frame text =>
    rw [step, if_pos hheld]
    exact .stay (map_callers_route Caller.query?_answered x text) (holders_route x text)
  | resume k => exact turn_resume x k
  | abort k => exact turn_abort hheld k
  | read k =>
    rw [step, read_snd]
    exact .stay (map_modify_self (Caller.query?_readOn x.events) x.callers k) rfl
  | advance ms => exact .stay rfl rfl
  | drop => exact .stay rfl rfl
  | greet =>
    rw [step, greet, if_pos hheld, tellAll_fst]
    exact .stay rfl rfl

section Turns

variable {x y : Exchange} {i : Input} (hx : x.Counted) (ht : Turn x i y)

include ht

/-- Whoever holds a query holds it until he goes on or gives up. -/
theorem Turn.holds {k : Nat} {q : String} (hk : x.Holds k q) :
    y.Holds k q ∨ i = .resume k ∨ i = .abort k := by
  cases ht with
  | stay hq => exact .inl (by rw [Holds, hq]; exact hk)
  | join o hi hq =>
    refine .inl ?_
    rw [Holds, hq, List.getElem?_append_left (List.getElem?_eq_some_iff.mp hk).1]
    exact hk
  | leave j o hi hj hq =>
    by_cases hjk : j = k
    · exact .inr (hjk ▸ hi)
    · refine .inl ?_
      rw [Holds, hq, List.getElem?_set_ne hjk]
      exact hk

include hx

/-- **The count of holders stays exact.** -/
theorem Turn.counted : y.Counted := by
  cases ht with
  | stay hq hh => exact hx.congr hq hh
  | join o hi hq hh => exact hx.join hq hh
  | leave k o hi hk hq hh => exact hx.leave hk hq hh

/-- A query has one holder more after a subscription to it, and no more after any other input. -/
theorem Turn.count_le (q : String) :
    y.holders.count q ≤ x.holders.count q + if i.seat? = some (some q) then 1 else 0 := by
  cases ht with
  | stay hq hh =>
    rw [hh]
    exact Nat.le_add_right _ _
  | join o hi hq hh =>
    rw [hh]
    cases o with
    | none => exact Nat.le_add_right _ _
    | some p =>
      rw [Holders.letIn, Holders.count_add hx.sound, hi]
      by_cases hp : p = q <;> simp [hp]
  | leave k o hi hk hq hh =>
    rw [hh]
    cases o with
    | none => exact Nat.le_add_right _ _
    | some p =>
      rw [Holders.letGo, Holders.count_remove hx.sound]
      omega

/-- A query loses at most one holder at a time. -/
theorem Turn.le_count (q : String) : x.holders.count q ≤ y.holders.count q + 1 := by
  cases ht with
  | stay hq hh => exact hh ▸ Nat.le_succ _
  | join o hi hq hh =>
    rw [hh]
    cases o with
    | none => exact Nat.le_succ _
    | some p =>
      rw [Holders.letIn, Holders.count_add hx.sound]
      omega
  | leave k o hi hk hq hh =>
    rw [hh]
    cases o with
    | none => exact Nat.le_succ _
    | some p =>
      rw [Holders.letGo, Holders.count_remove hx.sound]
      split <;> omega

end Turns

end Exchange
end NodeClient
