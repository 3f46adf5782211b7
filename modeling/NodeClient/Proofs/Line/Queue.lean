import NodeClient.Proofs.Line.Actions

/-!
# Line queue — where the requests of a line are

A request that was given to a line is in one of four places: a link sent it, a link is sending it,
the draining task holds it, or it is still in the channel.  `Line.sends` and `Line.requests` tell
what a schedule sent and what it was given; the requests that are left are the `Line.backlog`.

* `sends_append_backlog`: what was sent, then the backlog, are the requests in the order of the
  calls, in every schedule and from every state.
* `Counted`: the number of outstanding requests is the length of the backlog; every step keeps it.
-/

namespace NodeClient
namespace Line

/-! ### What a schedule sends and is given -/

/-- The request that a link is sending. -/
def inFlight (line : Line) : List String :=
  match line.drain with
  | .sending _ text => [text]
  | _ => []

/-- The requests that were given to a line and not sent, in order. -/
def backlog (line : Line) : List String :=
  line.inFlight ++ line.pending ++ line.channel

/-- The requests that a call queues. -/
def Call.requests : Call → List String
  | .queue text => [text]
  | _ => []

/-- The calls that an input makes: one of the owner, or the next one of a greeting. -/
def callsBy (line : Line) : Input → List Call
  | .call c => if line.dropped then [] else [c]
  | .act (.attempt index) =>
    match line.attempts[index]? with
    | some { phase := .greeting (c :: _), .. } => [c]
    | _ => []
  | _ => []

/-- The requests that an input queues. -/
def requestsBy (line : Line) (i : Input) : List String :=
  (line.callsBy i).flatMap Call.requests

/-- The request that an input reports as sent, with its link. -/
def sendsBy (line : Line) : Input → List (Nat × String)
  | .sent true =>
    match line.drain with
    | .sending link text => [(link, text)]
    | _ => []
  | _ => []

/-- The requests that a schedule queues, in the order of the calls. -/
def requests (line : Line) : List Input → List String
  | [] => []
  | i :: rest => line.requestsBy i ++ (line.step i).1.requests rest

/-- The requests that a schedule sends, with their links, in the order of the sends. -/
def sends (line : Line) : List Input → List (Nat × String)
  | [] => []
  | i :: rest => line.sendsBy i ++ (line.step i).1.sends rest

/-! ### Schedules -/

@[simp] theorem run_nil (line : Line) : line.run [] = (line, []) := rfl

@[simp] theorem run_cons_fst (line : Line) (i : Input) (rest : List Input) :
    (line.run (i :: rest)).1 = ((line.step i).1.run rest).1 := rfl

theorem run_append_fst (line : Line) (first rest : List Input) :
    (line.run (first ++ rest)).1 = ((line.run first).1.run rest).1 := by
  induction first generalizing line with
  | nil => rfl
  | cons i first ih => exact ih (line.step i).1

theorem requests_append (line : Line) (first rest : List Input) :
    line.requests (first ++ rest) = line.requests first ++ (line.run first).1.requests rest := by
  induction first generalizing line with
  | nil => rfl
  | cons i first ih =>
    rw [List.cons_append, requests, requests, ih, List.append_assoc, run_cons_fst]

/-! ### The state of the queue -/

/-- The queue of a line: the channel, the requests of the draining task with where it stands, and
the count. -/
structure SameQueue (a b : Line) : Prop where
  channel : b.channel = a.channel
  pending : b.pending = a.pending
  drain : b.drain = a.drain
  outstanding : b.outstanding = a.outstanding

theorem SameQueue.refl (line : Line) : SameQueue line line := ⟨rfl, rfl, rfl, rfl⟩

theorem SameQueue.backlog {a b : Line} (h : SameQueue a b) : b.backlog = a.backlog := by
  unfold Line.backlog inFlight
  rw [h.drain, h.pending, h.channel]

/-- A call other than one that queues leaves the queue alone. -/
theorem sameQueue_call {line : Line} {c : Call} (h : ∀ text, c ≠ .queue text) :
    SameQueue line (line.call c).1 := by
  cases c with
  | queue text => exact absurd rfl (h text)
  | connect =>
    rcases line.connect_fst with h | h <;> rw [h] <;> exact ⟨rfl, rfl, rfl, rfl⟩
  | disconnect =>
    rw [disconnect_fst]
    exact ⟨rfl, rfl, rfl, rfl⟩
  | reconnect =>
    rw [reconnect_fst]
    exact ⟨rfl, rfl, rfl, rfl⟩

theorem sameQueue_takeEvent (line : Line) (link : Nat) (e : LinkEvent) :
    SameQueue line (line.takeEvent link e) := by
  obtain ⟨forwarders, -, h⟩ := line.takeEvent_eq link e
  rw [h]
  exact ⟨rfl, rfl, rfl, rfl⟩

theorem sameQueue_advanceAttempt (line : Line) (index : Nat) (source target : AttemptPhase) :
    SameQueue line (line.advanceAttempt index source target) := by
  rcases line.advanceAttempt_cases index source target with h | h <;> rw [h] <;>
    exact ⟨rfl, rfl, rfl, rfl⟩

theorem sameQueue_actForwarder {line : Line} {link : Nat} {next : Line × List Effect}
    (h : line.actForwarder? link = some next) : SameQueue line next.1 := by
  obtain ⟨status, forwarders, -, hnext⟩ := actForwarder_fst h
  rw [hnext]
  exact ⟨rfl, rfl, rfl, rfl⟩

/-! ### What one step does to the queue -/

/-- The count of the requests that are not sent is right. -/
def Counted (line : Line) : Prop :=
  line.outstanding = line.backlog.length

theorem SameQueue.counted {a b : Line} (h : SameQueue a b) (hc : a.Counted) : b.Counted := by
  unfold Counted
  rw [h.outstanding, h.backlog]
  exact hc

theorem backlog_call (line : Line) (c : Call) :
    (line.call c).1.backlog = line.backlog ++ c.requests := by
  cases c with
  | queue text => simp [call, Call.requests, backlog, inFlight]
  | _ => simpa [Call.requests] using (sameQueue_call (by simp)).backlog

theorem counted_call {line : Line} (c : Call) (hc : line.Counted) : (line.call c).1.Counted := by
  cases c with
  | queue text =>
    show line.outstanding + 1 = _
    rw [hc, backlog_call]
    simp [Call.requests]
  | _ => exact (sameQueue_call (by simp)).counted hc

theorem callsBy_attempt {line : Line} {index : Nat} {a : Attempt}
    (ha : line.attempts[index]? = some a) :
    line.callsBy (.act (.attempt index)) = a.phase.calls.take 1 := by
  obtain ⟨link, again, phase⟩ := a
  simp only [callsBy, ha]
  cases phase with
  | greeting calls => cases calls <;> rfl
  | _ => rfl

/-- A task that waits makes no call. -/
theorem callsBy_of_act_none {line : Line} {task : Task} (h : line.act? task = none) :
    line.callsBy (.act task) = [] := by
  cases task with
  | attempt index =>
    simp only [callsBy]
    split
    · next ha => simp [act?, actAttempt?, ha] at h
    · rfl
  | _ => rfl

/-- An action of an attempt either makes the next call of its greeting or leaves the queue alone. -/
theorem actAttempt_queue {line : Line} {index : Nat} {next : Line × List Effect}
    (h : line.actAttempt? index = some next) :
    (∃ c calls, line.callsBy (.act (.attempt index)) = [c] ∧
      next = (setAttempt index (.greeting calls) line).call c) ∨
    (line.callsBy (.act (.attempt index)) = [] ∧ SameQueue line next.1) := by
  obtain ⟨a, ha, ⟨c, calls, hp, hnext⟩ | ⟨hp, status, phase, -, hnext⟩⟩ := actAttempt_cases h
  · exact .inl ⟨c, calls, by rw [callsBy_attempt ha, hp]; rfl, hnext⟩
  · refine .inr ⟨by rw [callsBy_attempt ha, hp]; rfl, ?_⟩
    rw [hnext]
    exact ⟨rfl, rfl, rfl, rfl⟩

theorem backlog_eq (line : Line) :
    line.backlog = line.drain.text?.toList ++ line.pending ++ line.channel := by
  unfold backlog inFlight
  cases line.drain <;> rfl

/-- The draining task moves requests on without losing any or changing their order. -/
theorem actDrain_queue {line : Line} {next : Line × List Effect}
    (h : line.actDrain? = some next) :
    next.1.backlog = line.backlog ∧ next.1.outstanding = line.outstanding := by
  obtain ⟨status, drain, hnext, hold, hnew, -⟩ | ⟨text, rest, hd, hc, hnext⟩ |
    ⟨link, text, rest, hd, hqueue, hnext⟩ := actDrain_cases h
  · rw [backlog_eq, backlog_eq, hnext, hold, hnew]
    exact ⟨rfl, rfl⟩
  · rw [backlog_eq, backlog_eq, hnext, hd, hc]
    exact ⟨by simp [Drain.text?], rfl⟩
  · rw [backlog_eq, backlog_eq, hnext, hd, List.append_assoc, List.append_assoc, hqueue]
    exact ⟨by simp [Drain.text?], rfl⟩

theorem sent_queue (line : Line) (ok : Bool) :
    (line.sendsBy (.sent ok)).map (·.2) ++ (line.sent ok).backlog = line.backlog ∧
      (line.Counted → (line.sent ok).Counted) := by
  cases hd : line.drain with
  | sending link text =>
    cases ok with
    | true =>
      refine ⟨by simp [sendsBy, sent, hd, backlog, inFlight], fun hc => ?_⟩
      have hlen : line.backlog.length = (line.pending ++ line.channel).length + 1 := by
        simp [backlog, inFlight, hd]
      show (line.sent true).outstanding = (line.sent true).backlog.length
      have hout : (line.sent true).outstanding = line.outstanding - 1 := by simp [sent, hd]
      have hback : (line.sent true).backlog = line.pending ++ line.channel := by
        simp [sent, hd, backlog, inFlight]
      rw [hout, hback, hc, hlen, Nat.add_sub_cancel]
    | false =>
      have hback : (line.sent false).backlog = line.backlog := by
        simp [sent, hd, backlog, inFlight]
      have hout : (line.sent false).outstanding = line.outstanding := by simp [sent, hd]
      refine ⟨by simp [sendsBy, hback], fun hc => ?_⟩
      unfold Counted
      rw [hout, hback]
      exact hc
  | _ =>
    have hsent : line.sent ok = line := by simp [sent, hd]
    rw [hsent]
    refine ⟨?_, id⟩
    cases ok <;> simp [sendsBy, hd]

/-- An input that sends and queues nothing and leaves the queue alone. -/
theorem SameQueue.step_queue {line b : Line} {i : Input} (h : SameQueue line b)
    (hsends : line.sendsBy i = []) (hcalls : line.callsBy i = []) (hstep : (line.step i).1 = b) :
    (line.sendsBy i).map (·.2) ++ (line.step i).1.backlog = line.backlog ++ line.requestsBy i ∧
      (line.Counted → (line.step i).1.Counted) := by
  subst hstep
  rw [hsends, requestsBy, hcalls, h.backlog]
  exact ⟨by simp, h.counted⟩

theorem act_queue (line : Line) (task : Task) :
    (line.sendsBy (.act task)).map (·.2) ++ (line.step (.act task)).1.backlog =
        line.backlog ++ line.requestsBy (.act task) ∧
      (line.Counted → (line.step (.act task)).1.Counted) := by
  cases h : line.act? task with
  | none =>
    exact (SameQueue.refl line).step_queue rfl (callsBy_of_act_none h) (by simp [step, h])
  | some next =>
    have hstep : (line.step (.act task)).1 = next.1 := by simp [step, h]
    cases task with
    | forwarder link => exact (sameQueue_actForwarder h).step_queue rfl rfl hstep
    | attempt index =>
      rcases actAttempt_queue h with ⟨c, calls, hc, rfl⟩ | ⟨hc, hsame⟩
      · rw [hstep, backlog_call, requestsBy, hc]
        exact ⟨by simp [sendsBy, backlog, inFlight, setAttempt],
          fun hcount => counted_call c (SameQueue.counted ⟨rfl, rfl, rfl, rfl⟩ hcount)⟩
      · exact hsame.step_queue rfl hc hstep
    | drain =>
      obtain ⟨hb, ho⟩ := actDrain_queue h
      rw [hstep, hb]
      refine ⟨by simp [sendsBy, requestsBy, callsBy], fun hc => ?_⟩
      unfold Counted
      rw [hb, ho]
      exact hc

/-- **One step**: what it sends and the backlog after it are the backlog before it and what it
queues; the count stays right. -/
theorem step_queue (line : Line) (i : Input) :
    (line.sendsBy i).map (·.2) ++ (line.step i).1.backlog = line.backlog ++ line.requestsBy i ∧
      (line.Counted → (line.step i).1.Counted) := by
  cases i with
  | call c =>
    by_cases hd : line.dropped = true
    · exact (SameQueue.refl line).step_queue rfl (by simp [callsBy, hd]) (by simp [step, hd])
    · have hstep : line.step (.call c) = line.call c := by simp [step, hd]
      rw [hstep, backlog_call]
      exact ⟨by simp [sendsBy, requestsBy, callsBy, hd], counted_call c⟩
  | event link e => exact (sameQueue_takeEvent line link e).step_queue rfl rfl rfl
  | settled index opened => exact (sameQueue_advanceAttempt ..).step_queue rfl rfl rfl
  | greet index calls => exact (sameQueue_advanceAttempt ..).step_queue rfl rfl rfl
  | sent ok =>
    obtain ⟨h1, h2⟩ := sent_queue line ok
    exact ⟨by rw [show line.requestsBy (.sent ok) = [] from rfl, List.append_nil]; exact h1, h2⟩
  | drop =>
    by_cases hd : line.dropped = true
    · exact (SameQueue.refl line).step_queue rfl rfl (by simp [step, hd])
    · exact SameQueue.step_queue (b := line.drop.1) ⟨rfl, rfl, rfl, rfl⟩ rfl rfl
        (by simp [step, hd])
  | act task => exact act_queue line task

/-! ### What a schedule does to the queue -/

/-- **A schedule** sends requests from the front of the queue and adds requests at its end. -/
theorem sends_append_backlog (line : Line) (inputs : List Input) :
    (line.sends inputs).map (·.2) ++ (line.run inputs).1.backlog =
      line.backlog ++ line.requests inputs := by
  induction inputs generalizing line with
  | nil => simp [sends, requests]
  | cons i rest ih =>
    calc (line.sends (i :: rest)).map (·.2) ++ (line.run (i :: rest)).1.backlog
        = (line.sendsBy i).map (·.2) ++ (((line.step i).1.sends rest).map (·.2) ++
            ((line.step i).1.run rest).1.backlog) := by
          rw [sends, List.map_append, List.append_assoc, run_cons_fst]
      _ = (line.sendsBy i).map (·.2) ++ ((line.step i).1.backlog ++
            (line.step i).1.requests rest) := by rw [ih]
      _ = line.backlog ++ line.requestsBy i ++ (line.step i).1.requests rest := by
          rw [← List.append_assoc, (step_queue line i).1]
      _ = line.backlog ++ line.requests (i :: rest) := by rw [requests, List.append_assoc]

theorem counted_run {line : Line} (inputs : List Input) (hc : line.Counted) :
    (line.run inputs).1.Counted := by
  induction inputs generalizing line with
  | nil => exact hc
  | cons i rest ih => exact ih ((step_queue line i).2 hc)

/-- The first request that a schedule sends is the first of the backlog, if there is one. -/
theorem sends_head {line : Line} {text : String} {later : List String}
    (h : line.backlog = text :: later) {inputs : List Input} {send : Nat × String}
    {others : List (Nat × String)} (hsends : line.sends inputs = send :: others) :
    send.2 = text := by
  have hqueue := sends_append_backlog line inputs
  rw [hsends, h] at hqueue
  exact (List.cons_eq_cons.mp hqueue).1

/-! ### The main result -/

/-- **Requests are sent once each, in the order of the calls.**  After any schedule, the requests
that were sent (over all links), the one that a link is sending, those that the draining task holds
and those in the channel are, in this order, the requests that were queued; the number of
outstanding requests is that of the queued ones less that of the sent ones.  And when a send fails,
the next request that is sent, on whatever link, is the one that failed. -/
theorem requests_sent_once_in_order (greets : Bool) (inputs : List Input) :
    let start : Line := { greets }
    let line := (start.run inputs).1
    (start.sends inputs).map (·.2) ++ line.inFlight ++ line.pending ++ line.channel =
        start.requests inputs ∧
      line.outstanding + (start.sends inputs).length = (start.requests inputs).length ∧
      ∀ link text, line.drain = .sending link text →
        ∀ rest send others, (line.step (.sent false)).1.sends rest = send :: others →
          send.2 = text := by
  intro start line
  have hqueue : (start.sends inputs).map (·.2) ++ line.backlog = start.requests inputs :=
    sends_append_backlog start inputs
  refine ⟨?_, ?_, ?_⟩
  · rw [← hqueue, backlog, List.append_assoc, List.append_assoc, List.append_assoc]
  · have hcount : line.outstanding = line.backlog.length := counted_run inputs rfl
    rw [hcount, ← hqueue, List.length_append, List.length_map, Nat.add_comm]
  · intro link text hd rest send others hsends
    have hback : (line.step (.sent false)).1.backlog = text :: (line.pending ++ line.channel) := by
      simp [step, sent, hd, backlog, inFlight]
    exact sends_head hback hsends

/-- A schedule up to the send of the first of two requests on the first link. -/
def firstSend : List Input :=
  [.call (.queue "A"), .call (.queue "B"), .call .connect, .settled 0 true, .act (.attempt 0),
    .act (.attempt 0), .act .drain, .act .drain, .act .drain, .act .drain]

/-- A schedule that gives up the link after a failed send and sends on the next one. -/
def secondSend : List Input :=
  [.act .drain, .act .drain, .call .reconnect, .settled 1 true, .act (.attempt 1),
    .act (.attempt 1), .act .drain, .act .drain, .act .drain, .sent true]

theorem failed_request_sent_on_next_link :
    let line := (run {} firstSend).1
    line.drain = .sending 0 "A" ∧
      ∃ send, (line.step (.sent false)).1.sends secondSend = [send] ∧ send.1 = 1 ∧
        send.2 = "A" := by
  intro line
  have hd : line.drain = .sending 0 "A" := by decide
  have hs : (line.step (.sent false)).1.sends secondSend = [(1, "A")] := by decide
  exact ⟨hd, (1, "A"), hs, rfl,
    (requests_sent_once_in_order false firstSend).2.2 0 "A" hd secondSend (1, "A") [] hs⟩

end Line
end NodeClient
