import Mathlib.Data.List.Induction
import NodeClient.Proofs.Exchange.Frames
import NodeClient.Proofs.Exchange.Holding

/-!
# Requests — when an exchange asks a node for the events of a query

On one connection, only subscribers, the node and time act on an exchange (`Input.subscribing`).
Then all ids are the exchange's own, and every schedule is fresh.

* `orderly_run`: what holds of an exchange in every such schedule.
* `Requested`: the request for a query that was made when it last got a holder.  There is one for
  every query that is held (`requested_of_held`), and no more (`Requested.unique`).
* `Called.requested`: a caller that still waits for its query has made that request.
-/

namespace NodeClient
namespace Exchange

/-! ### One connection -/

/-- What subscribers, the node and time do on one connection. -/
def Input.subscribing : Input → Bool
  | .call _ | .greet | .drop => false
  | _ => true

/-- The table of pending ids and the count of holders are exact, the owner is there, and callers
wait for own ids only. -/
structure Orderly (x : Exchange) : Prop where
  matched : x.Matched
  counted : x.Counted
  owned : x.dropped = false
  ids : ∀ k w, x.Waits k w → ∃ n, n < x.nextId ∧ w.id = ownId n

theorem orderly_start (timeout : Nat) : Orderly { timeout } where
  matched := matched_start timeout
  counted := counted_start timeout
  owned := rfl
  ids _ _ h := by simp [Waits] at h

/-- Only a subscription that asks the node lets in a caller that waits. -/
theorem newcomer_subscribing {x : Exchange} {i : Input} (hi : i.subscribing = true) {w : Waiter}
    (hw : x.newcomer? i = some w) :
    ∃ query topic family, i = .subscribe query topic family ∧
      (x.holders.add query).count query = 1 ∧ w.id = ownId x.nextId ∧
      w.purpose.query? = some query ∧ w.answer = none := by
  cases i with
  | subscribe query topic family =>
    rw [newcomer?] at hw
    split at hw
    · next hq =>
      obtain rfl := Option.some.inj hw
      exact ⟨query, topic, family, rfl, hq, rfl, rfl, rfl⟩
    · cases hw
  | call c => cases hi
  | _ => cases hw

theorem Orderly.fresh {x : Exchange} (hx : x.Orderly) {i : Input} (hi : i.subscribing = true) :
    x.Fresh i := by
  intro w hw k v hv
  obtain ⟨_, _, _, -, -, hid, -⟩ := newcomer_subscribing hi hw
  obtain ⟨n, hn, hid'⟩ := hx.ids k v hv
  rw [hid, hid']
  exact Bool.eq_false_iff.mpr fun hs => Nat.ne_of_lt hn (ownId_inj hs)

theorem Orderly.isHeld {x : Exchange} (hx : x.Orderly) : x.isHeld = true := by
  simp [Exchange.isHeld, hx.owned]

theorem Orderly.turn {x : Exchange} (hx : x.Orderly) (i : Input) : Turn x i (x.step i).1 :=
  turn_step hx.isHeld i

/-- **An exchange stays orderly** in every step that subscribers, the node or time take. -/
theorem orderly_step {x : Exchange} (hx : x.Orderly) {i : Input} (hi : i.subscribing = true) :
    (x.step i).1.Orderly where
  matched := matched_step hx.matched (hx.fresh hi)
  counted := (hx.turn i).counted hx.counted
  owned := by
    rcases x.steady_step i with ⟨ms, rfl⟩ | rfl | h
    · exact hx.owned
    · cases hi
    · exact h.dropped.trans hx.owned
  ids k w hw := by
    rcases waits_step_cases hx.matched (hx.fresh hi) hw with hnew | ⟨v, hv, rfl⟩
    · obtain ⟨query, topic, family, rfl, hq, hid, -⟩ := newcomer_subscribing hi hnew
      refine ⟨x.nextId, ?_, hid⟩
      rw [step, subscribe_asking hq]
      exact (steady_await (x.asking query) _ _).nextId
    · obtain ⟨n, hn, hid'⟩ := hx.ids k v hv
      exact ⟨n, Nat.lt_of_lt_of_le hn (x.nextId_step i), (v.id_hearInput i).trans hid'⟩

theorem orderly_run {x : Exchange} (hx : x.Orderly) {inputs : List Input}
    (hi : ∀ i ∈ inputs, i.subscribing = true) : (x.run inputs).1.Orderly := by
  induction inputs generalizing x with
  | nil => exact hx
  | cons i rest ih =>
    obtain ⟨hfirst, hrest⟩ := List.forall_mem_cons.mp hi
    exact ih (orderly_step hx hfirst) hrest

theorem Orderly.freshRun {x : Exchange} (hx : x.Orderly) {inputs : List Input}
    (hi : ∀ i ∈ inputs, i.subscribing = true) : x.FreshRun inputs := by
  induction inputs generalizing x with
  | nil => trivial
  | cons i rest ih =>
    obtain ⟨hfirst, hrest⟩ := List.forall_mem_cons.mp hi
    exact ⟨hx.fresh hfirst, ih (orderly_step hx hfirst) hrest⟩

/-! ### What an input queues -/

theorem effects_release (x : Exchange) (q : String) :
    (x.release q true).2 =
      if x.holders.count q = 1 then [.queue (unsubscribeText q x.nextId)] else [] := by
  rw [release_eq]
  simp only [and_true]
  split <;> rfl

theorem holds_iff {x : Exchange} {k : Nat} {q : String} :
    x.Holds k q ↔ (x.callers[k]?).bind Caller.query? = some q := by
  rw [Holds, List.getElem?_map]
  cases x.callers[k]? <;> simp

/-- A caller that gives up leaves, and then lets go of its query. -/
theorem abort_eq_release {x : Exchange} (hheld : x.isHeld = true) {k : Nat} {q : String}
    (hk : x.Holds k q) :
    ∃ y : Exchange, x.abort k = y.release q true ∧ y.holders = x.holders ∧ y.nextId = x.nextId := by
  obtain ⟨c, hc, hq⟩ := Option.bind_eq_some_iff.mp (holds_iff.mp hk)
  unfold abort
  rw [hc]
  cases c with
  | waiting w =>
    obtain ⟨id, purpose, deadline, answer⟩ := w
    cases purpose with
    | response => cases hq
    | subscription s =>
      obtain rfl := Option.some.inj hq
      exact ⟨x.leave k id, rfl, holders_leave x k id, nextId_answer _ _ _⟩
  | subscribed s =>
    obtain rfl := Option.some.inj hq
    exact ⟨x.setCaller k .over, if_pos hheld, rfl, rfl⟩
  | «over» => cases hq

/-- A caller that gives up stops the events of its query, if it was the last holder. -/
theorem effects_abort {x : Exchange} (hheld : x.isHeld = true) {k : Nat} {q : String}
    (hk : x.Holds k q) :
    (x.abort k).2 =
      if x.holders.count q = 1 then [.queue (unsubscribeText q x.nextId)] else [] := by
  obtain ⟨y, hy, hh, hn⟩ := abort_eq_release hheld hk
  rw [hy, effects_release, hh, hn]

theorem effects_abort_idle {x : Exchange} {k : Nat} (hk : ∀ q, ¬x.Holds k q) :
    (x.abort k).2 = [] := by
  cases hc : x.callers[k]? with
  | none => rw [abort, hc]
  | some c =>
    have hq : ∀ q, c.query? ≠ some q := fun q hq =>
      hk q (by rw [Holds, List.getElem?_map, hc, ← hq]; rfl)
    unfold abort
    rw [hc]
    cases c with
    | waiting w =>
      obtain ⟨id, purpose, deadline, answer⟩ := w
      cases purpose with
      | response => rfl
      | subscription s => exact absurd rfl (hq s.query)
    | subscribed s => exact absurd rfl (hq s.query)
    | «over» => rfl

/-! ### Orders -/

/-- The own call that an input makes an exchange queue, with its number: it subscribes to a query
for the first holder, and unsubscribes for the last one. -/
def order? (x : Exchange) : Input → Option (Request × Nat)
  | .subscribe query _ _ =>
    if x.holders.count query = 0 then some (.subscribe query, x.nextId) else none
  | .abort k =>
    match (x.callers[k]?).bind Caller.query? with
    | some query =>
      if x.holders.count query = 1 then some (.unsubscribe query, x.nextId) else none
    | none => none
  | _ => none

/-- The text of an order. -/
def orderText (o : Request × Nat) : String :=
  ownText o.1 o.2

/-- The text that an effect queues. -/
def Effect.text? : Effect → Option String
  | .queue text => some text
  | .done .. => none

/-- The texts that effects queue. -/
def texts (effects : List Effect) : List String :=
  effects.filterMap Effect.text?

theorem mem_texts {effects : List Effect} {text : String} :
    text ∈ texts effects ↔ .queue text ∈ effects := by
  rw [texts, List.mem_filterMap]
  constructor
  · rintro ⟨e, he, htext⟩
    cases e with
    | queue t =>
      obtain rfl := Option.some.inj htext
      exact he
    | done k o => cases htext
  · exact fun he => ⟨_, he, rfl⟩

/-- On a new connection the queries are asked for one after the other. -/
theorem texts_tellAll (x : Exchange) (queries : List String) :
    texts (x.tellAll queries).2 =
      (queries.zipIdx x.nextId).map fun e => subscribeText e.1 e.2 := by
  induction queries generalizing x with
  | nil => rfl
  | cons q rest ih => exact congrArg (List.cons _) (ih _)

/-- **What a step queues** is the text of its order. -/
theorem texts_step {x : Exchange} (hx : x.Counted) (hheld : x.isHeld = true) {i : Input}
    (hi : i.subscribing = true) : texts (x.step i).2 = (x.order? i).toList.map orderText := by
  cases i with
  | call c => cases hi
  | greet => cases hi
  | drop => cases hi
  | subscribe query topic family =>
    by_cases hq : (x.holders.add query).count query = 1
    · rw [step, subscribe_asking hq, order?, if_pos (hx.asks_iff.mp hq)]
      rfl
    · rw [step, subscribe_joining hq, order?, if_neg (mt hx.asks_iff.mpr hq)]
      rfl
  | abort k =>
    rw [step, order?]
    cases hk : (x.callers[k]?).bind Caller.query? with
    | none =>
      rw [effects_abort_idle fun q hq => by rw [holds_iff, hk] at hq; cases hq]
      rfl
    | some q =>
      rw [effects_abort hheld (holds_iff.mpr hk)]
      dsimp only
      split <;> rfl
  | resume k =>
    rcases x.resume_cases k with ⟨w, result, -, -, hk⟩ | ⟨-, hk⟩
    · rw [step, hk, effects_finish]
      rfl
    · rw [step, hk]
      rfl
  | _ => rfl

theorem queue_mem_step {x : Exchange} (hx : x.Counted) (hheld : x.isHeld = true) {i : Input}
    (hi : i.subscribing = true) {text : String} :
    .queue text ∈ (x.step i).2 ↔ ∃ o, x.order? i = some o ∧ text = orderText o := by
  rw [← mem_texts, texts_step hx hheld hi]
  cases x.order? i <;> simp

theorem order?_subscribe_iff {x : Exchange} {i : Input} {q : String} {n : Nat} :
    x.order? i = some (.subscribe q, n) ↔
      x.holders.count q = 0 ∧ n = x.nextId ∧ ∃ topic family, i = .subscribe q topic family := by
  cases i with
  | subscribe query topic family =>
    rw [order?]
    constructor
    · intro h
      split at h
      · next hzero =>
        obtain ⟨hq, hn⟩ := Prod.mk.inj (Option.some.inj h)
        obtain rfl := Request.subscribe.inj hq
        exact ⟨hzero, hn.symm, topic, family, rfl⟩
      · cases h
    · rintro ⟨hzero, rfl, _, _, h⟩
      obtain ⟨rfl, -, -⟩ := Input.subscribe.inj h
      exact if_pos hzero
  | abort k =>
    rw [order?]
    refine iff_of_false (fun h => ?_) fun ⟨_, _, _, _, h⟩ => nomatch h
    split at h
    · split at h
      · cases (Prod.mk.inj (Option.some.inj h)).1
      · cases h
    · cases h
  | _ => exact iff_of_false nofun fun ⟨_, _, _, _, h⟩ => nomatch h

theorem order?_unsubscribe_iff {x : Exchange} {i : Input} {q : String} {n : Nat} :
    x.order? i = some (.unsubscribe q, n) ↔
      x.holders.count q = 1 ∧ n = x.nextId ∧ ∃ k, i = .abort k ∧ x.Holds k q := by
  cases i with
  | abort k =>
    rw [order?]
    constructor
    · intro h
      split at h
      · next p hk =>
        split at h
        · next hone =>
          obtain ⟨hq, hn⟩ := Prod.mk.inj (Option.some.inj h)
          obtain rfl := Request.unsubscribe.inj hq
          exact ⟨hone, hn.symm, k, rfl, holds_iff.mpr hk⟩
        · cases h
      · cases h
    · rintro ⟨hone, rfl, j, h, hk⟩
      obtain rfl := Input.abort.inj h
      rw [holds_iff.mp hk]
      exact if_pos hone
  | subscribe query topic family =>
    rw [order?]
    refine iff_of_false (fun h => ?_) fun ⟨_, _, _, h, _⟩ => nomatch h
    split at h
    · cases (Prod.mk.inj (Option.some.inj h)).1
    · cases h
  | _ => exact iff_of_false nofun fun ⟨_, _, _, h, _⟩ => nomatch h

/-- An order is about a query. -/
theorem order?_cases {x : Exchange} {i : Input} {o : Request × Nat} (ho : x.order? i = some o) :
    (∃ q, o = (.subscribe q, x.nextId)) ∨ ∃ q, o = (.unsubscribe q, x.nextId) := by
  cases i with
  | subscribe query topic family =>
    rw [order?] at ho
    split at ho
    · exact .inl ⟨query, (Option.some.inj ho).symm⟩
    · cases ho
  | abort k =>
    rw [order?] at ho
    split at ho
    · next q _ =>
      split at ho
      · exact .inr ⟨q, (Option.some.inj ho).symm⟩
      · cases ho
    · cases ho
  | _ => cases ho

/-- An order uses up its number. -/
theorem nextId_of_order {x : Exchange} (hx : x.Counted) (hheld : x.isHeld = true) {i : Input}
    {o : Request × Nat} (ho : x.order? i = some o) :
    o.2 = x.nextId ∧ x.nextId < (x.step i).1.nextId := by
  rcases order?_cases ho with ⟨q, rfl⟩ | ⟨q, rfl⟩
  · obtain ⟨hzero, -, topic, family, rfl⟩ := order?_subscribe_iff.mp ho
    refine ⟨rfl, ?_⟩
    rw [step, subscribe_asking (hx.asks_iff.mpr hzero)]
    exact (steady_await (x.asking q) _ _).nextId
  · obtain ⟨hone, -, k, rfl, hk⟩ := order?_unsubscribe_iff.mp ho
    obtain ⟨y, hy, hh, hn⟩ := abort_eq_release hheld hk
    refine ⟨rfl, ?_⟩
    rw [step, hy, release_eq, if_pos ⟨hh ▸ hone, rfl⟩]
    exact hn ▸ Nat.lt_succ_self _

theorem orderText_eq_subscribeText {x : Exchange} {i : Input} {o : Request × Nat}
    (ho : x.order? i = some o) {q : String} {n : Nat} :
    orderText o = subscribeText q n ↔ o = (.subscribe q, n) := by
  constructor
  · intro htext
    rcases order?_cases ho with ⟨p, rfl⟩ | ⟨p, rfl⟩
    · obtain ⟨rfl, rfl⟩ := subscribeText_inj.mp htext
      rfl
    · exact absurd htext.symm (subscribeText_ne_unsubscribeText _ _ _ _)
  · rintro rfl
    rfl

theorem orderText_eq_unsubscribeText {x : Exchange} {i : Input} {o : Request × Nat}
    (ho : x.order? i = some o) {q : String} {n : Nat} :
    orderText o = unsubscribeText q n ↔ o = (.unsubscribe q, n) := by
  constructor
  · intro htext
    rcases order?_cases ho with ⟨p, rfl⟩ | ⟨p, rfl⟩
    · exact absurd htext (subscribeText_ne_unsubscribeText _ _ _ _)
    · obtain ⟨rfl, rfl⟩ := unsubscribeText_inj.mp htext
      rfl
  · rintro rfl
    rfl

/-- **The node is asked for a query** when the query gets its first holder. -/
theorem Orderly.asks_iff {x : Exchange} (hx : x.Orderly) {i : Input} (hi : i.subscribing = true)
    {q : String} {n : Nat} :
    .queue (subscribeText q n) ∈ (x.step i).2 ↔
      x.holders.count q = 0 ∧ n = x.nextId ∧ ∃ topic family, i = .subscribe q topic family := by
  rw [queue_mem_step hx.counted hx.isHeld hi, ← order?_subscribe_iff]
  constructor
  · rintro ⟨o, ho, htext⟩
    obtain rfl := (orderText_eq_subscribeText ho).mp htext.symm
    exact ho
  · exact fun ho => ⟨_, ho, rfl⟩

/-- Whoever makes the exchange ask for a query holds it, and waits. -/
theorem Orderly.waits_of_ask {x : Exchange} (hx : x.Orderly) {i : Input}
    (hi : i.subscribing = true) {q : String} {n : Nat}
    (hask : .queue (subscribeText q n) ∈ (x.step i).2) :
    ∃ w, (x.step i).1.Waits x.callers.length w ∧ w.id = ownId n ∧ w.purpose.query? = some q := by
  obtain ⟨hzero, rfl, topic, family, rfl⟩ := (hx.asks_iff hi).mp hask
  obtain ⟨w, hnew⟩ : ∃ w, x.newcomer? (.subscribe q topic family) = some w :=
    ⟨_, if_pos (hx.counted.asks_iff.mpr hzero)⟩
  obtain ⟨_, _, _, hin, -, hid, hq, -⟩ := newcomer_subscribing hi hnew
  obtain ⟨rfl, -, -⟩ := Input.subscribe.inj hin
  exact ⟨w, waits_newcomer hx.matched (hx.fresh hi) hnew, hid, hq⟩

/-- **The node is told to stop** when the last holder of a query gives up. -/
theorem Orderly.tells_iff {x : Exchange} (hx : x.Orderly) {i : Input} (hi : i.subscribing = true)
    {q : String} {n : Nat} :
    .queue (unsubscribeText q n) ∈ (x.step i).2 ↔
      x.holders.count q = 1 ∧ n = x.nextId ∧ ∃ k, i = .abort k ∧ x.Holds k q := by
  rw [queue_mem_step hx.counted hx.isHeld hi, ← order?_unsubscribe_iff]
  constructor
  · rintro ⟨o, ho, htext⟩
    obtain rfl := (orderText_eq_unsubscribeText ho).mp htext.symm
    exact ho
  · exact fun ho => ⟨_, ho, rfl⟩

/-! ### The end of a call for a query -/

/-- A call for a query succeeds with a success of the node, and fails with anything else. -/
theorem Purpose.outcome_cases {p : Purpose} {q : String} (hq : p.query? = some q)
    (result : Except ClientError Response) :
    (∃ s, result = .ok (.success s) ∧ p.outcome result = .subscribed q ∧
        (p.after result).query? = some q) ∨
      ((∀ s, result ≠ .ok (.success s)) ∧ (∃ e, p.outcome result = .failed e) ∧
        p.after result = .over) := by
  cases p with
  | response => cases hq
  | subscription s =>
    obtain rfl := Option.some.inj hq
    cases result with
    | error e => exact .inr ⟨by simp, ⟨e, rfl⟩, rfl⟩
    | ok r =>
      cases r with
      | success t => exact .inl ⟨t, rfl, rfl, rfl⟩
      | failure f => exact .inr ⟨by simp, ⟨.fault f.fault, rfl⟩, rfl⟩

/-- A wait comes to the response that is its answer, and to no other. -/
theorem Waiter.result?_eq_response {w : Waiter} {now timeout : Nat} {r : Response} :
    w.result? now timeout = some (.ok r) ↔ w.answer = some (.response r) := by
  unfold result?
  split
  · next r' hr => rw [hr]; simp
  · next hr => rw [hr]; simp
  · next hr =>
    rw [hr]
    split <;> simp

/-- A caller whose call for a query fails lets go of it. -/
theorem count_of_failed {x : Exchange} (hx : x.Counted) {k : Nat} {w : Waiter}
    (hw : x.Waits k w) {result : Except ClientError Response}
    (hr : w.result? x.now x.timeout = some result) {q : String} (hq : w.purpose.query? = some q)
    (hafter : w.purpose.after result = .over) :
    (x.step (.resume k)).1.holders.count q = x.holders.count q - 1 := by
  have hne : (w.purpose.after result).query? ≠ w.purpose.query? := by
    rw [hafter, hq]
    exact nofun
  rw [step, resume_eq_finish hw hr, holders_finish, if_neg hne, hq, Holders.letGo,
    Holders.count_remove hx.sound, if_pos rfl]

/-! ### The request for a query -/

/-- The request for a query that was made in a run when the query last got a holder: the number of
the call, and what happened since. -/
def Requested (x : Exchange) (inputs : List Input) (q : String) (n : Nat) (since : List Input) :
    Prop :=
  ∃ before i, inputs = before ++ i :: since ∧
    .queue (subscribeText q n) ∈ ((x.run before).1.step i).2 ∧
    ∀ first rest, since = first ++ rest → (x.run (before ++ i :: first)).1.holders.count q ≠ 0

theorem Requested.held {x : Exchange} {inputs since : List Input} {q : String} {n : Nat}
    (h : x.Requested inputs q n since) : (x.run inputs).1.holders.count q ≠ 0 := by
  obtain ⟨before, i, rfl, -, hheld⟩ := h
  exact hheld since [] (List.append_nil since).symm

/-- A request lasts while its query is held. -/
theorem Requested.concat {x : Exchange} {inputs since : List Input} {q : String} {n : Nat}
    (h : x.Requested inputs q n since) {i : Input}
    (hheld : ((x.run inputs).1.step i).1.holders.count q ≠ 0) :
    x.Requested (inputs ++ [i]) q n (since ++ [i]) := by
  obtain ⟨before, j, rfl, hask, hh⟩ := h
  refine ⟨before, j, by rw [List.append_assoc, List.cons_append], hask, fun first rest hsince => ?_⟩
  cases rest using List.reverseRecOn with
  | nil =>
    rw [List.append_nil] at hsince
    subst hsince
    rw [← List.cons_append, ← List.append_assoc, run_concat_fst]
    exact hheld
  | append_singleton rest last =>
    rw [← List.append_assoc] at hsince
    exact hh first rest (List.append_inj' hsince rfl).1

/-- A request was made by the last input, or lasted until then. -/
theorem Requested.of_concat {x : Exchange} {inputs since : List Input} {q : String} {n : Nat}
    {i : Input} (h : x.Requested (inputs ++ [i]) q n since) :
    (since = [] ∧ .queue (subscribeText q n) ∈ ((x.run inputs).1.step i).2) ∨
      ∃ earlier, since = earlier ++ [i] ∧ x.Requested inputs q n earlier := by
  obtain ⟨before, j, hsplit, hask, hheld⟩ := h
  cases since using List.reverseRecOn with
  | nil =>
    obtain ⟨rfl, hj⟩ := List.append_inj' hsplit rfl
    obtain rfl := List.singleton_inj.mp hj
    exact .inl ⟨rfl, hask⟩
  | append_singleton earlier last =>
    rw [← List.cons_append, ← List.append_assoc] at hsplit
    obtain ⟨rfl, hlast⟩ := List.append_inj' hsplit rfl
    obtain rfl := List.singleton_inj.mp hlast
    refine .inr ⟨earlier, rfl, before, j, rfl, hask, fun first rest hsince => ?_⟩
    exact hheld first (rest ++ [i]) (by rw [hsince, List.append_assoc])

/-- A request was there in every earlier state since it was made. -/
theorem Requested.earlier {x : Exchange} {inputs first rest : List Input} {q : String} {n : Nat}
    (h : x.Requested (inputs ++ rest) q n (first ++ rest)) : x.Requested inputs q n first := by
  obtain ⟨before, i, hsplit, hask, hheld⟩ := h
  rw [← List.cons_append, ← List.append_assoc] at hsplit
  refine ⟨before, i, List.append_cancel_right hsplit, hask, fun start later hfirst => ?_⟩
  exact hheld start (later ++ rest) (by rw [hfirst, List.append_assoc])

/-- While a query is held, nobody asks for it again. -/
theorem length_le_of_held {x : Exchange} {inputs : List Input} {q : String}
    {before since before' since' : List Input} {i i' : Input}
    (hsplit : inputs = before ++ i :: since) (hsplit' : inputs = before' ++ i' :: since')
    (hheld : ∀ first rest, since = first ++ rest →
      (x.run (before ++ i :: first)).1.holders.count q ≠ 0)
    (hzero : (x.run before').1.holders.count q = 0) : before'.length ≤ before.length := by
  rcases List.append_eq_append_iff.mp (hsplit.symm.trans hsplit') with
    ⟨c, hbefore, hc⟩ | ⟨c, rfl, -⟩
  · cases c with
    | nil => exact Nat.le_of_eq (by rw [hbefore, List.append_nil])
    | cons j c =>
      obtain ⟨rfl, hsince⟩ := List.cons.inj hc
      rw [hbefore] at hzero
      exact absurd hzero (hheld c _ hsince)
  · rw [List.length_append]
    exact Nat.le_add_right _ _

section Requested

variable {x : Exchange} (hx : x.Orderly) {inputs : List Input}
  (hi : ∀ i ∈ inputs, i.subscribing = true) {q : String}

include hx hi

/-- What holds before an input of the run that asks for a query. -/
theorem orderly_split {before since : List Input} {i : Input}
    (hsplit : inputs = before ++ i :: since) :
    (x.run before).1.Orderly ∧ i.subscribing = true := by
  subst hsplit
  exact ⟨orderly_run hx fun j hj => hi j (List.mem_append_left _ hj),
    hi i (List.mem_append_right _ (.head since))⟩

/-- A query has one request at a time. -/
theorem Requested.unique {n n' : Nat} {since since' : List Input}
    (h : x.Requested inputs q n since) (h' : x.Requested inputs q n' since') :
    n = n' ∧ since = since' := by
  obtain ⟨before, i, hsplit, hask, hheld⟩ := h
  obtain ⟨before', i', hsplit', hask', hheld'⟩ := h'
  obtain ⟨ho, hi₁⟩ := orderly_split hx hi hsplit
  obtain ⟨ho', hi₂⟩ := orderly_split hx hi hsplit'
  obtain ⟨hzero, hn, -⟩ := (ho.asks_iff hi₁).mp hask
  obtain ⟨hzero', hn', -⟩ := (ho'.asks_iff hi₂).mp hask'
  have hle := length_le_of_held hsplit hsplit' hheld hzero'
  have hge := length_le_of_held hsplit' hsplit hheld' hzero
  obtain ⟨rfl, hrest⟩ := List.append_inj (hsplit.symm.trans hsplit') (Nat.le_antisymm hge hle)
  exact ⟨hn.trans hn'.symm, (List.cons.inj hrest).2⟩

/-- **A caller that still waits for its query made the request for it.** -/
theorem Called.requested {k : Nat} {w : Waiter} {since : List Input}
    (hc : x.Called inputs k w since) (hw : w.purpose.query? = some q)
    (hend : ¬x.Ended k inputs) : ∃ n, w.id = ownId n ∧ x.Requested inputs q n since := by
  have hm := hx.matched
  have hf := hx.freshRun hi
  obtain ⟨before, i, hsplit, hnew, hlen⟩ := id hc
  obtain ⟨ho, hi'⟩ := orderly_split hx hi hsplit
  obtain ⟨query, topic, family, hin, hq, hid, hquery, -⟩ := newcomer_subscribing hi' hnew
  obtain rfl : query = q := Option.some.inj (hquery.symm.trans hw)
  refine ⟨_, hid, before, i, hsplit, ?_, fun first rest hsince => ?_⟩
  · exact (ho.asks_iff hi').mpr ⟨ho.counted.asks_iff.mp hq, rfl, topic, family, hin⟩
  · have hinputs : inputs = (before ++ i :: first) ++ rest := by
      rw [hsplit, hsince, List.append_assoc, List.cons_append]
    have hcfirst : x.Called (before ++ i :: first) k w first := ⟨before, i, rfl, hnew, hlen⟩
    rw [hinputs] at hf hend hi
    have hffirst := (always_append.mp hf).1
    have hwaits := (hcfirst.waits_iff hm hffirst).mpr
      ⟨fun h => hend (ended_append.mpr (.inl h)), rfl⟩
    have ho := orderly_run hx fun j hj => hi j (List.mem_append_left _ hj)
    exact ho.counted.count_ne_zero (hwaits.holds hw)

/-- Every query that is held has been asked for. -/
theorem requested_of_held (hzero : x.holders.count q = 0)
    (hheld : (x.run inputs).1.holders.count q ≠ 0) :
    ∃ n since, x.Requested inputs q n since := by
  induction inputs using List.reverseRecOn with
  | nil => exact absurd hzero hheld
  | append_singleton rest i ih =>
    have hrest : ∀ j ∈ rest, j.subscribing = true := fun j hj => hi j (List.mem_append_left _ hj)
    obtain ⟨ho, hi'⟩ := orderly_split hx hi rfl
    rw [run_concat_fst] at hheld
    by_cases hbefore : (x.run rest).1.holders.count q = 0
    · have hle := (ho.turn i).count_le ho.counted q
      have hin : ∃ topic family, i = .subscribe q topic family := by
        refine Input.seat?_eq_query.mp (Decidable.byContradiction fun h => hheld ?_)
        rw [if_neg h] at hle
        omega
      refine ⟨_, [], rest, i, rfl, (ho.asks_iff hi').mpr ⟨hbefore, rfl, hin⟩, ?_⟩
      intro first later hnil
      obtain ⟨rfl, -⟩ := List.append_eq_nil_iff.mp hnil.symm
      rw [run_concat_fst]
      exact hheld
    · obtain ⟨n, since, h⟩ := ih hrest hbefore
      exact ⟨n, since ++ [i], h.concat hheld⟩

end Requested

/-- Whoever waits for a query made the request for it, and has the first response to it. -/
theorem Waits.requested {timeout : Nat} {inputs : List Input}
    (hi : ∀ i ∈ inputs, i.subscribing = true) {q : String} {k : Nat} {w : Waiter}
    (hw : (run { timeout } inputs).1.Waits k w) (hq : w.purpose.query? = some q) :
    ∃ n since, w.id = ownId n ∧ Requested { timeout } inputs q n since ∧
      w.answer = (firstResponse? (ownId n) since).map .response := by
  have ho := orderly_start timeout
  have hf := ho.freshRun hi
  obtain ⟨v, since, hc⟩ := called_of_waits ho.matched hf (Nat.zero_le k) hw
  obtain ⟨hend, rfl⟩ := (hc.waits_iff ho.matched hf).mp hw
  obtain ⟨n, hid, hreq⟩ := hc.requested ho hi hq hend
  obtain ⟨before, i, -, hnew, -⟩ := hc
  have hnone := (newcomer_clock hnew).1
  refine ⟨n, since, hid, hreq, ?_⟩
  rw [Waiter.hearRun, hnone, hid]
  rfl

end Exchange
end NodeClient
