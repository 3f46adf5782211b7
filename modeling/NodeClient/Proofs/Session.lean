import NodeClient.Proofs.Exchange.LastHolder
import NodeClient.Proofs.Line.Connection
import NodeClient.Script.ExchangeScript

/-!
# Session — an exchange and its line on one connection

A session lets an exchange and its line take their steps in any order; what the exchange queues goes
to the line.  On one connection the line keeps its link, so that its sends can be told from the
orders of the exchange alone.

* `run_exchange`, `run_line`: what each of the two does in a session.
* `sends_eq_orders`: once the queue is empty, the orders of the exchange were sent, in their order.
* `unsubscribed_iff_not_leftBehind`: the events that the node was asked for are stopped in the end,
  unless the call that asked for them ran out of time alone.
-/

namespace NodeClient

/-- An exchange, and the line on which it queues its calls. -/
structure Session where
  exchange : Exchange
  line : Line

namespace Session

open Exchange (Holds Stopped RefusedIn LeftBehind orderText subscribeText unsubscribeText)

/-- What can happen in a session. -/
inductive Input where
  | exchange (i : Exchange.Input)
  | line (i : Line.Input)

/-- What happens to the line. -/
def lineInputs (s : Session) : Input → List Line.Input
  | .exchange i => (Script.Desk.lineCalls (s.exchange.step i).2).map .call
  | .line i => [i]

/-- What an input does. -/
def step (s : Session) (i : Input) : Session where
  exchange :=
    match i with
    | .exchange i => (s.exchange.step i).1
    | .line _ => s.exchange
  line := (s.line.run (s.lineInputs i)).1

/-- The state after a schedule. -/
def run (s : Session) : List Input → Session
  | [] => s
  | i :: rest => (s.step i).run rest

/-- What happens to the exchange in a schedule. -/
def Input.exchange? : Input → Option Exchange.Input
  | .exchange i => some i
  | .line _ => none

/-- The part of a schedule that is the exchange's. -/
def asked (inputs : List Input) : List Exchange.Input :=
  inputs.filterMap Input.exchange?

/-- The schedule of the line. -/
def worked (s : Session) : List Input → List Line.Input
  | [] => []
  | i :: rest => s.lineInputs i ++ (s.step i).worked rest

/-- The requests that a schedule sends, with their links, in the order of the sends. -/
def sends (s : Session) (inputs : List Input) : List (Nat × String) :=
  s.line.sends (s.worked inputs)

theorem run_exchange (s : Session) (inputs : List Input) :
    (s.run inputs).exchange = (s.exchange.run (asked inputs)).1 := by
  induction inputs generalizing s with
  | nil => rfl
  | cons i rest ih =>
    cases i with
    | exchange i => exact ih (s.step (.exchange i))
    | line i => exact ih (s.step (.line i))

theorem run_line (s : Session) (inputs : List Input) :
    (s.run inputs).line = (s.line.run (s.worked inputs)).1 := by
  induction inputs generalizing s with
  | nil => rfl
  | cons i rest ih => rw [run, ih, worked, Line.run_append_fst]; rfl

/-! ### One connection -/

/-- What subscribers, the node and time do to the exchange, and what the line does on its link with
what the exchange queues. -/
def Input.staying : Input → Bool
  | .exchange i => i.subscribing
  | .line i => i.connecting && i.staying

theorem lineCalls_eq (effects : List Exchange.Effect) :
    Script.Desk.lineCalls effects = (Exchange.texts effects).map .queue := by
  rw [Script.Desk.lineCalls, Exchange.texts, List.map_filterMap]
  congr
  funext e
  cases e <;> rfl

theorem subscribing_asked {inputs : List Input} (hi : ∀ i ∈ inputs, i.staying = true) :
    ∀ i ∈ asked inputs, i.subscribing = true := by
  intro i hmem
  obtain ⟨j, hj, hji⟩ := List.mem_filterMap.mp hmem
  cases j with
  | exchange j =>
    obtain rfl := Option.some.inj hji
    exact hi _ hj
  | line j => cases hji

theorem staying_lineInputs (s : Session) {i : Input} (hi : i.staying = true) :
    ∀ j ∈ s.lineInputs i, j.staying = true := by
  intro j hj
  cases i with
  | exchange i =>
    rw [lineInputs, lineCalls_eq, List.map_map] at hj
    obtain ⟨text, -, rfl⟩ := List.mem_map.mp hj
    rfl
  | line i =>
    obtain rfl := List.mem_singleton.mp hj
    exact (Bool.and_eq_true_iff.mp hi).2

theorem staying_worked (s : Session) {inputs : List Input} (hi : ∀ i ∈ inputs, i.staying = true) :
    ∀ j ∈ s.worked inputs, j.staying = true := by
  induction inputs generalizing s with
  | nil => exact nofun
  | cons i rest ih =>
    obtain ⟨hfirst, hrest⟩ := List.forall_mem_cons.mp hi
    intro j hj
    rcases List.mem_append.mp hj with hj | hj
    · exact s.staying_lineInputs hfirst j hj
    · exact ih (s.step i) hrest j hj

/-- The requests of a schedule that only queues. -/
theorem requests_queue {line : Line} (hd : line.dropped = false) (texts : List String) :
    line.requests (texts.map fun text => .call (.queue text)) = texts := by
  induction texts generalizing line with
  | nil => rfl
  | cons text rest ih =>
    have hstep : (line.step (.call (.queue text))).1.dropped = false := by
      simp [Line.step, Line.call, hd]
    rw [List.map_cons, Line.requests, ih hstep]
    simp [Line.requestsBy, Line.callsBy, hd, Line.Call.requests]

/-- **The line gets what the exchange queues.** -/
theorem requests_worked {s : Session} (hx : s.exchange.Orderly) (hq : s.line.Quiet)
    {inputs : List Input} (hi : ∀ i ∈ inputs, i.staying = true) :
    s.line.requests (s.worked inputs) = (s.exchange.orders (asked inputs)).map orderText := by
  induction inputs generalizing s with
  | nil => rfl
  | cons i rest ih =>
    obtain ⟨hfirst, hrest⟩ := List.forall_mem_cons.mp hi
    have hq' : (s.step i).line.Quiet := Line.quiet_run hq fun j hj =>
      Line.Input.plain_of_staying (s.staying_lineInputs hfirst j hj)
    rw [worked, Line.requests_append]
    cases i with
    | exchange i =>
      have hx' : (s.step (.exchange i)).exchange.Orderly := Exchange.orderly_step hx hfirst
      have hnow : s.line.requests (s.lineInputs (.exchange i)) =
          (s.exchange.order? i).toList.map orderText := by
        rw [lineInputs, lineCalls_eq, List.map_map, Exchange.texts_step hx.counted hx.isHeld hfirst]
        exact requests_queue hq.owned _
      have hlater : (s.line.run (s.lineInputs (.exchange i))).1.requests
          ((s.step (.exchange i)).worked rest) = _ := ih hx' hq' hrest
      rw [hnow, hlater]
      exact List.map_append.symm
    | line i =>
      have hnow : s.line.requests (s.lineInputs (.line i)) = [] := by
        rw [lineInputs, Line.requests, Line.requests,
          Line.requestsBy_connecting hq (Bool.and_eq_true_iff.mp hfirst).1]
        rfl
      rw [hnow]
      exact ih (s := s.step (.line i)) hx hq' hrest

/-- **Once the queue is empty**, the orders of the exchange were sent, in their order. -/
theorem sends_eq_orders {s : Session} (hx : s.exchange.Orderly) (hq : s.line.Quiet)
    (hidle : s.line.Idle) {inputs : List Input} (hi : ∀ i ∈ inputs, i.staying = true)
    (hempty : (s.run inputs).line.outstanding = 0) :
    (s.sends inputs).map (·.2) = (s.exchange.orders (asked inputs)).map orderText := by
  have hcount : s.line.Counted := by
    rw [Line.Counted, hidle.backlog, hidle.outstanding]
    rfl
  have hqueue := s.line.sends_append_backlog (s.worked inputs)
  have hback : (s.line.run (s.worked inputs)).1.backlog = [] := by
    rw [run_line] at hempty
    exact List.eq_nil_of_length_eq_zero ((Line.counted_run _ hcount).symm.trans hempty)
  rw [hback, List.append_nil, hidle.backlog, List.nil_append, requests_worked hx hq hi] at hqueue
  exact hqueue

/-- **What a session sends, it sends on its connection.** -/
theorem sends_on_current {s : Session} (hq : s.line.Quiet) (hidle : s.line.Idle)
    {inputs : List Input} (hi : ∀ i ∈ inputs, i.staying = true) :
    ∀ send ∈ s.sends inputs, send.1 = (s.run inputs).line.current := by
  obtain ⟨hcurrent, hlinks⟩ := Line.sends_on_current hq hidle.bound (s.staying_worked hi)
  intro send hsend
  rw [run_line, hcurrent]
  exact hlinks send hsend

/-- The orders around a request that was sent. -/
theorem orders_of_sends {x : Exchange} {inputs : List Exchange.Input} {q : String} {n : Nat}
    {before after : List String}
    (hsent : (x.orders inputs).map orderText = before ++ subscribeText q n :: after) :
    ∃ first later, x.orders inputs = first ++ (.subscribe q, n) :: later ∧
      ∀ m, unsubscribeText q m ∈ after ↔ (.unsubscribe q, m) ∈ later := by
  obtain ⟨first, rest, hsplit, -, hrest⟩ := List.map_eq_append_iff.mp hsent
  obtain ⟨o, later, rfl, ho, rfl⟩ := List.map_eq_cons_iff.mp hrest
  have hmem : ∀ o' ∈ first ++ o :: later, ∃ y i, Exchange.order? y i = some o' := by
    intro o' ho'
    rw [← hsplit] at ho'
    obtain ⟨earlier, i, _, -, hi⟩ := Exchange.mem_orders.mp ho'
    exact ⟨_, i, hi⟩
  obtain ⟨y, i, hi⟩ := hmem o (List.mem_append_right _ (.head later))
  obtain rfl := (Exchange.orderText_eq_subscribeText hi).mp ho
  refine ⟨first, later, hsplit, fun m => ?_⟩
  rw [List.mem_map]
  constructor
  · rintro ⟨o, ho, htext⟩
    obtain ⟨y, i, hi⟩ := hmem o (List.mem_append_right _ (.tail _ ho))
    obtain rfl := (Exchange.orderText_eq_unsubscribeText hi).mp htext
    exact ho
  · exact fun hm => ⟨_, hm, rfl⟩

/-! ### The main result -/

/-- A session on a line that has got no request yet. -/
def start (timeout : Nat) (greets : Bool) (setup : List Line.Input) : Session where
  exchange := { timeout }
  line := (Line.run { greets } setup).1

theorem start_line (timeout : Nat) (greets : Bool) {setup : List Line.Input}
    (hs : ∀ i ∈ setup, i.connecting = true) :
    (start timeout greets setup).line.Quiet ∧ (start timeout greets setup).line.Idle := by
  have hq : Line.Quiet { greets } := ⟨rfl, nofun⟩
  exact ⟨Line.quiet_run hq fun i hi => Line.Input.plain_of_connecting (hs i hi),
    Line.idle_run hq ⟨rfl, rfl, rfl, rfl⟩ hs⟩

/-- **The events that a node was asked for are stopped in the end, unless they are left behind.**
On one connection, when the queue is empty and nobody holds the query any more: a request for the
query that was sent was sent on this connection, and if the node did not refuse it, then a request
to stop the events follows it there, unless the call that made it ran out of time as the last holder
and no last holder gave up since. -/
theorem unsubscribed_iff_not_leftBehind (timeout : Nat) (greets : Bool) {setup : List Line.Input}
    (hs : ∀ i ∈ setup, i.connecting = true) {inputs : List Input}
    (hi : ∀ i ∈ inputs, i.staying = true) {q : String} {n link : Nat}
    {before after : List (Nat × String)}
    (hsent : (start timeout greets setup).sends inputs =
      before ++ (link, subscribeText q n) :: after)
    (hempty : ((start timeout greets setup).run inputs).line.outstanding = 0)
    (hfree : ∀ k, ¬((start timeout greets setup).run inputs).exchange.Holds k q)
    (hr : ¬RefusedIn { timeout } (asked inputs) q n) :
    link = ((start timeout greets setup).run inputs).line.current ∧
      ((∃ m, (link, unsubscribeText q m) ∈ after) ↔
        ¬LeftBehind { timeout } (asked inputs) q n) := by
  obtain ⟨hq, hidle⟩ := start_line timeout greets hs
  have hx := Exchange.orderly_start timeout
  have hasked := subscribing_asked hi
  have hlink := sends_on_current hq hidle hi
  rw [hsent] at hlink
  have hcurrent : link = _ := hlink _ (List.mem_append_right _ (.head after))
  refine ⟨hcurrent, ?_⟩
  have horders : _ = (Exchange.orders { timeout } (asked inputs)).map orderText :=
    sends_eq_orders hx hq hidle hi hempty
  rw [hsent, List.map_append, List.map_cons] at horders
  obtain ⟨first, later, hsplit, hlater⟩ := orders_of_sends horders.symm
  -- a request to stop the events follows just if a last holder gave up
  have hstop : (∃ m, (link, unsubscribeText q m) ∈ after) ↔
      Stopped { timeout } (asked inputs) q n := by
    rw [Exchange.stopped_iff]
    refine exists_congr fun m => ?_
    rw [and_comm, ← Exchange.mem_later_orders hx hasked hsplit, ← hlater, List.mem_map]
    constructor
    · exact fun hm => ⟨_, hm, rfl⟩
    · rintro ⟨⟨link', text⟩, hm, rfl⟩
      rw [hcurrent, ← hlink _ (List.mem_append_right _ (.tail _ hm))]
      exact hm
  have hasks : (.subscribe q, n) ∈ Exchange.orders { timeout } (asked inputs) := by
    rw [hsplit]
    exact List.mem_append_right _ (.head later)
  have hzero : (Exchange.run { timeout } (asked inputs)).1.holders.count q = 0 := by
    refine (Exchange.orderly_run hx hasked).counted.count_eq_zero.mpr fun k => ?_
    have hk := hfree k
    rw [run_exchange] at hk
    exact hk
  rw [hstop]
  constructor
  · exact fun h hleft => hleft.kept h
  · intro hleft
    refine Classical.byContradiction fun h => hleft ⟨?_, h⟩
    exact Exchange.timedOut_of_not_stopped hasked hasks hzero hr h

/-- A line that is told to reconnect, and connects. -/
def connected : List Line.Input :=
  [.call .reconnect, .settled 0 true, .act (.attempt 0), .greet 0 [], .act (.attempt 0),
    .act (.attempt 0)]

/-- A call for a query that is sent and runs out of time; then the node accepts the query. -/
def acceptedTooLate : List Input :=
  [.exchange (.subscribe "a" .tx .v029), .line (.act .drain), .line (.act .drain),
    .line (.act .drain), .line (.act .drain), .line (.sent true), .line (.act .drain),
    .exchange (.advance 10), .exchange (.resume 0),
    .exchange (.respond (.success { id := Exchange.ownId 1, result := .object [] }))]

/-- The node accepted the query, nobody holds it, and the node is not told to stop. -/
theorem accepted_too_late_is_leftBehind :
    (start 10 true connected).sends acceptedTooLate = [(1, subscribeText "a" 1)] ∧
      (∀ k, ¬((start 10 true connected).run acceptedTooLate).exchange.Holds k "a") ∧
      ¬RefusedIn { timeout := 10 } (asked acceptedTooLate) "a" 1 ∧
      LeftBehind { timeout := 10 } (asked acceptedTooLate) "a" 1 := by
  have hs : ∀ i ∈ connected, i.connecting = true := by decide
  have hi : ∀ i ∈ acceptedTooLate, i.staying = true := by decide
  have hsent : (start 10 true connected).sends acceptedTooLate =
      [] ++ (1, subscribeText "a" 1) :: [] := rfl
  have hempty : ((start 10 true connected).run acceptedTooLate).line.outstanding = 0 := rfl
  have hfree : ∀ k, ¬((start 10 true connected).run acceptedTooLate).exchange.Holds k "a" := by
    intro k hk
    cases k <;> cases hk
  have hr : ¬RefusedIn { timeout := 10 } (asked acceptedTooLate) "a" 1 := by
    rintro ⟨before, i, since, f, hsplit, -, hf⟩
    obtain ⟨j, hj, hjf⟩ := List.exists_of_findSome?_eq_some hf
    have hmem : .failure f ∈ (asked acceptedTooLate).filterMap
        (Exchange.Input.response? (Exchange.ownId 1)) := by
      rw [hsplit]
      exact List.mem_filterMap.mpr ⟨j, List.mem_append_right _ (.tail _ hj), hjf⟩
    obtain ⟨t, ht⟩ : ∃ t, (asked acceptedTooLate).filterMap
        (Exchange.Input.response? (Exchange.ownId 1)) = [.success t] := ⟨_, rfl⟩
    rw [ht] at hmem
    cases List.mem_singleton.mp hmem
  refine ⟨hsent, hfree, hr, Classical.byContradiction fun hleft => ?_⟩
  obtain ⟨m, hm⟩ :=
    (unsubscribed_iff_not_leftBehind 10 true hs hi hsent hempty hfree hr).2.mpr hleft
  cases hm

end Session
end NodeClient
