import NodeClient.Proofs.Exchange.Requests

/-!
# Last holder — how a query loses its holders

A query that is held loses its last holder in one of two ways: the holder gives up, and the node is
told to stop the events, or it is the caller that asked for them, and its call fails.  In the second
case the node is not told, not even if the call failed only because its time was up.

* `orders`, `orders_pairwise`: the own calls of a run, in the order of their numbers.
* `Stopped`, `stopped_iff`: after a request the last holder gave up, and a later order says so.
* `TimedOutAlone`, `timedOut_of_not_stopped`: if not, the call that asked ran out of time alone.
-/

namespace NodeClient
namespace Exchange

/-! ### The orders of a run -/

/-- The orders of a run. -/
def orders (x : Exchange) : List Input → List (Request × Nat)
  | [] => []
  | i :: rest => (x.order? i).toList ++ (x.step i).1.orders rest

theorem mem_orders {x : Exchange} {inputs : List Input} {o : Request × Nat} :
    o ∈ x.orders inputs ↔
      ∃ before i rest, inputs = before ++ i :: rest ∧ (x.run before).1.order? i = some o := by
  induction inputs generalizing x with
  | nil =>
    refine iff_of_false List.not_mem_nil ?_
    rintro ⟨before, i, rest, h, -⟩
    cases (List.append_eq_nil_iff.mp h.symm).2
  | cons j later ih =>
    rw [orders, List.mem_append, ih, Option.mem_toList]
    constructor
    · rintro (h | ⟨before, i, rest, rfl, h⟩)
      · exact ⟨[], j, later, rfl, h⟩
      · exact ⟨j :: before, i, rest, rfl, h⟩
    · rintro ⟨before, i, rest, hsplit, h⟩
      cases before with
      | nil =>
        obtain ⟨rfl, rfl⟩ := List.cons.inj hsplit
        exact .inl h
      | cons k before =>
        obtain ⟨rfl, hlater⟩ := List.cons.inj hsplit
        exact .inr ⟨before, i, rest, hlater, h⟩

section Orders

variable {x : Exchange} (hx : x.Orderly) {inputs : List Input}
  (hi : ∀ i ∈ inputs, i.subscribing = true)

include hx hi

theorem nextId_le_of_mem_orders {o : Request × Nat} (ho : o ∈ x.orders inputs) :
    x.nextId ≤ o.2 := by
  obtain ⟨before, i, rest, hsplit, h⟩ := mem_orders.mp ho
  obtain ⟨hy, -⟩ := orderly_split hx hi hsplit
  rw [(nextId_of_order hy.counted hy.isHeld h).1]
  exact x.nextId_run before

/-- **The numbers of the orders grow.** -/
theorem orders_pairwise : (x.orders inputs).Pairwise fun o o' => o.2 < o'.2 := by
  induction inputs generalizing x with
  | nil => exact .nil
  | cons i rest ih =>
    obtain ⟨hfirst, hrest⟩ := List.forall_mem_cons.mp hi
    have hy := orderly_step hx hfirst
    rw [orders]
    cases ho : x.order? i with
    | none => exact ih hy hrest
    | some o =>
      obtain ⟨hnum, hlt⟩ := nextId_of_order hx.counted hx.isHeld ho
      refine List.pairwise_cons.mpr ⟨fun o' ho' => ?_, ih hy hrest⟩
      rw [hnum]
      exact Nat.lt_of_lt_of_le hlt (nextId_le_of_mem_orders hy hrest ho')

/-- The orders after one of a run are those with a greater number. -/
theorem mem_later_orders {first later : List (Request × Nat)} {o o' : Request × Nat}
    (hsplit : x.orders inputs = first ++ o :: later) :
    o' ∈ later ↔ o' ∈ x.orders inputs ∧ o.2 < o'.2 := by
  have hpair := orders_pairwise hx hi
  rw [hsplit] at hpair ⊢
  obtain ⟨-, hlater, hfirst⟩ := List.pairwise_append.mp hpair
  constructor
  · intro ho'
    exact ⟨List.mem_append_right _ (.tail _ ho'), (List.pairwise_cons.mp hlater).1 o' ho'⟩
  · rintro ⟨ho', hlt⟩
    rcases List.mem_append.mp ho' with ho' | ho'
    · exact absurd hlt (Nat.lt_asymm (hfirst o' ho' o (.head later)))
    · rcases List.mem_cons.mp ho' with rfl | ho'
      · exact absurd hlt (Nat.lt_irrefl _)
      · exact ho'

end Orders

/-! ### How a query loses its last holder -/

/-- After the request with a number, the last holder of a query gave up. -/
def Stopped (x : Exchange) (inputs : List Input) (q : String) (n : Nat) : Prop :=
  ∃ before k rest, inputs = before ++ .abort k :: rest ∧ n < (x.run before).1.nextId ∧
    (x.run before).1.Holds k q ∧ (x.run before).1.holders.count q = 1

/-- The node answered the request with a failure. -/
def RefusedIn (x : Exchange) (inputs : List Input) (q : String) (n : Nat) : Prop :=
  ∃ before i since f, inputs = before ++ i :: since ∧
    .queue (subscribeText q n) ∈ ((x.run before).1.step i).2 ∧
    firstResponse? (ownId n) since = some (.failure f)

/-- The caller that made the request was the last holder of the query when its time was up. -/
def TimedOutAlone (x : Exchange) (inputs : List Input) (q : String) (n : Nat) : Prop :=
  ∃ before k rest w, inputs = before ++ .resume k :: rest ∧
    (x.run before).1.Waits k w ∧ w.id = ownId n ∧ w.purpose.query? = some q ∧
    (x.run before).1.holders.count q = 1 ∧
    ((x.run before).1.step (.resume k)).2 =
      [.done k (.failed (.transport (.responseTimeout x.timeout)))]

/-- The node goes on sending the events that the request asked for: the caller that made it was the
last holder when its time was up, and no last holder gave up since. -/
structure LeftBehind (x : Exchange) (inputs : List Input) (q : String) (n : Nat) : Prop where
  timedOut : x.TimedOutAlone inputs q n
  kept : ¬x.Stopped inputs q n

/-- Once the last holder gave up, an order says so. -/
theorem stopped_iff {x : Exchange} {inputs : List Input} {q : String} {n : Nat} :
    x.Stopped inputs q n ↔ ∃ m, n < m ∧ (.unsubscribe q, m) ∈ x.orders inputs := by
  constructor
  · rintro ⟨before, k, rest, hsplit, hlt, hk, hone⟩
    refine ⟨_, hlt, mem_orders.mpr ⟨before, .abort k, rest, hsplit, ?_⟩⟩
    exact order?_unsubscribe_iff.mpr ⟨hone, rfl, k, rfl, hk⟩
  · rintro ⟨m, hlt, hm⟩
    obtain ⟨before, i, rest, hsplit, ho⟩ := mem_orders.mp hm
    obtain ⟨hone, rfl, k, rfl, hk⟩ := order?_unsubscribe_iff.mp ho
    exact ⟨before, k, rest, hsplit, hlt, hk, hone⟩

/-- A query that was asked for is still held, or lost its last holder since. -/
theorem requested_or_lost {x : Exchange} {before : List Input} {i : Input} {q : String} {n : Nat}
    (hask : .queue (subscribeText q n) ∈ ((x.run before).1.step i).2)
    (hheld : ((x.run before).1.step i).1.holders.count q ≠ 0) (since : List Input) :
    x.Requested (before ++ i :: since) q n since ∨
      ∃ first j rest, since = first ++ j :: rest ∧
        x.Requested (before ++ i :: first) q n first ∧
        ((x.run (before ++ i :: first)).1.step j).1.holders.count q = 0 := by
  induction since using List.reverseRecOn with
  | nil =>
    refine .inl ⟨before, i, rfl, hask, fun first rest hnil => ?_⟩
    obtain ⟨rfl, -⟩ := List.append_eq_nil_iff.mp hnil.symm
    rw [run_concat_fst]
    exact hheld
  | append_singleton since j ih =>
    rcases ih with hreq | ⟨first, k, rest, rfl, hreq, hzero⟩
    · by_cases hzero : ((x.run (before ++ i :: since)).1.step j).1.holders.count q = 0
      · exact .inr ⟨since, j, [], rfl, hreq, hzero⟩
      · rw [← List.cons_append, ← List.append_assoc]
        exact .inl (hreq.concat hzero)
    · exact .inr ⟨first, k, rest ++ [j], by rw [List.append_assoc, List.cons_append], hreq, hzero⟩

/-- **The last holder of a query** gives up, or its call for the query fails. -/
theorem lost_cases {x : Exchange} (hx : x.Orderly) {i : Input} (hi : i.subscribing = true)
    {q : String} (hheld : x.holders.count q ≠ 0) (hzero : (x.step i).1.holders.count q = 0) :
    x.holders.count q = 1 ∧
      ((∃ k, i = .abort k ∧ x.Holds k q) ∨
        ∃ k w result, i = .resume k ∧ x.Waits k w ∧ w.purpose.query? = some q ∧
          w.result? x.now x.timeout = some result ∧ ∀ s, result ≠ .ok (.success s)) := by
  have hle := (hx.turn i).le_count hx.counted q
  refine ⟨by omega, ?_⟩
  obtain ⟨k, hk⟩ : ∃ k, x.Holds k q :=
    Classical.not_forall_not.mp (mt hx.counted.count_eq_zero.mpr hheld)
  rcases (hx.turn i).holds hk with hk' | rfl | rfl
  · exact absurd hzero ((orderly_step hx hi).counted.count_ne_zero hk')
  · rcases x.resume_cases k with ⟨w, result, hw, hr, hstep⟩ | ⟨-, hstep⟩
    · have hq : w.purpose.query? = some q := Option.some.inj (hw.held.symm.trans hk)
      refine .inr ⟨k, w, result, rfl, hw, hq, hr, ?_⟩
      rintro s rfl
      rcases w.purpose.outcome_cases hq (.ok (.success s)) with ⟨_, -, -, hafter⟩ | ⟨hno, -⟩
      · rw [step, hstep, holders_finish, if_pos (hafter.trans hq.symm)] at hzero
        exact hheld hzero
      · exact hno s rfl
    · rw [step, hstep] at hzero
      exact absurd hzero hheld
  · exact .inl ⟨k, rfl, hk⟩

/-- What a wait comes to that has no response. -/
theorem Waiter.result?_of_no_response {w : Waiter} {now timeout : Nat}
    {result : Except ClientError Response} (hw : w.answer = none)
    (hr : w.result? now timeout = some result) :
    result = .error (.transport (.responseTimeout timeout)) := by
  unfold result? at hr
  rw [hw] at hr
  dsimp only at hr
  split at hr
  · exact (Option.some.inj hr).symm
  · cases hr

theorem Purpose.outcome_error {p : Purpose} {q : String} (hq : p.query? = some q)
    (e : ClientError) : p.outcome (.error e) = .failed e := by
  cases p with
  | response => cases hq
  | subscription s => rfl

/-- A call for a query that neither succeeded nor was refused ran out of time. -/
theorem Waits.timedOut {timeout : Nat} {inputs since : List Input}
    (hi : ∀ i ∈ inputs, i.subscribing = true) {q : String} {n : Nat}
    (hreq : Requested { timeout } inputs q n since) {k : Nat} {w : Waiter}
    (hw : (run { timeout } inputs).1.Waits k w) (hq : w.purpose.query? = some q)
    {result : Except ClientError Response}
    (hres : w.result? (run { timeout } inputs).1.now (run { timeout } inputs).1.timeout =
      some result)
    (hs : ∀ s, result ≠ .ok (.success s))
    (hf : ∀ f, firstResponse? (ownId n) since ≠ some (.failure f)) :
    w.id = ownId n ∧ result = .error (.transport (.responseTimeout timeout)) := by
  obtain ⟨n', since', hid, hreq', hanswer⟩ := hw.requested hi hq
  obtain ⟨rfl, rfl⟩ := hreq.unique (orderly_start timeout) hi hreq'
  refine ⟨hid, ?_⟩
  cases hfirst : firstResponse? (ownId n) since with
  | some r =>
    rw [hfirst] at hanswer
    obtain rfl := Option.some.inj (hres.symm.trans (Waiter.result?_eq_response.mpr hanswer))
    cases r with
    | success s => exact absurd rfl (hs s)
    | failure f => exact absurd hfirst (hf f)
  | none =>
    rw [hfirst] at hanswer
    rw [Waiter.result?_of_no_response hanswer hres, (clock_run _ _).1]

/-- **If the last holder did not give up, the call that asked failed**, and failed alone: the node
refused it, or its time was up. -/
theorem timedOut_of_not_stopped {timeout : Nat} {inputs : List Input}
    (hi : ∀ i ∈ inputs, i.subscribing = true) {q : String} {n : Nat}
    (hn : (.subscribe q, n) ∈ orders { timeout } inputs)
    (hfree : (run { timeout } inputs).1.holders.count q = 0)
    (hr : ¬RefusedIn { timeout } inputs q n) (hs : ¬Stopped { timeout } inputs q n) :
    TimedOutAlone { timeout } inputs q n := by
  obtain ⟨before, i, since, rfl, ho⟩ := mem_orders.mp hn
  obtain ⟨hx, hi'⟩ := orderly_split (orderly_start timeout) hi rfl
  have hask := (queue_mem_step hx.counted hx.isHeld hi').mpr ⟨_, ho, rfl⟩
  obtain ⟨v, hv, -, hvq⟩ := hx.waits_of_ask hi' hask
  have hheld := (orderly_step hx hi').counted.count_ne_zero (hv.holds hvq)
  -- the input with which the query loses its last holder
  obtain ⟨first, j, rest, rfl, hreq, hzero⟩ := (requested_or_lost hask hheld since).resolve_left
    fun hreq => hreq.held hfree
  have hsplit : before ++ i :: (first ++ j :: rest) = (before ++ i :: first) ++ j :: rest := by
    rw [List.append_assoc, List.cons_append]
  obtain ⟨hy, hj⟩ := orderly_split (orderly_start timeout) hi hsplit
  obtain ⟨hnum, hlt⟩ := nextId_of_order hx.counted hx.isHeld ho
  have hnext : n < (run { timeout } (before ++ i :: first)).1.nextId := by
    rw [run_append_fst, run_cons_fst, show n = (run { timeout } before).1.nextId from hnum]
    exact Nat.lt_of_lt_of_le hlt (nextId_run _ first)
  obtain ⟨hone, ⟨k, rfl, hk⟩ | ⟨k, w, result, rfl, hw, hq, hres, hno⟩⟩ :=
    lost_cases hy hj hreq.held hzero
  · exact absurd ⟨_, k, rest, hsplit, hnext, hk, hone⟩ hs
  · have hi₀ : ∀ i' ∈ before ++ i :: first, i'.subscribing = true := fun i' hi' =>
      hi i' (hsplit ▸ List.mem_append_left _ hi')
    obtain ⟨hid, rfl⟩ := hw.timedOut hi₀ hreq hq hres hno fun f hf =>
      hr ⟨before, i, _, f, rfl, hask, firstResponse?_append hf⟩
    refine ⟨_, k, rest, w, hsplit, hw, hid, hq, hone, ?_⟩
    rw [step, resume_eq_finish hw hres, effects_finish, w.purpose.outcome_error hq]

end Exchange
end NodeClient
