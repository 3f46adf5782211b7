import NodeClient.Proofs.Exchange.Runs

/-!
# Correlation — every call gets the response to its own id

The callers of an exchange share one line, and the node answers in any order.  A schedule is any
list of inputs in which nobody comes with an id for which somebody waits (`FreshRun`).

* `waits_run`: until its call ends, a caller waits with the first response to its id since it came.
* `verdict?`: what a call comes to, by its id, the time allowed and what happened since it came.
* `calls_get_own_responses`: calls end with their verdicts, a frame answers at most one of them, and
  the table of pending ids is exact at any time.
-/

namespace NodeClient
namespace Exchange

/-! ### What happens since a call -/

/-- The node sends a response. -/
def Input.respond (r : Response) : Input :=
  .frame r.toJson.render

/-- The response to an id that an input brings. -/
def Input.response? (id : Id) : Input → Option Response
  | .frame text => responseTo? id text
  | _ => none

/-- The first response to an id. -/
def firstResponse? (id : Id) (inputs : List Input) : Option Response :=
  inputs.findSome? (Input.response? id)

/-- What comes later does not change which response was the first. -/
theorem firstResponse?_append {id : Id} {first rest : List Input} {r : Response}
    (h : firstResponse? id first = some r) : firstResponse? id (first ++ rest) = some r := by
  rw [firstResponse?] at h
  rw [firstResponse?, List.findSome?_append, h]
  rfl

/-- What a call comes to, if anything, by what happened since it came. -/
def verdict? (id : Id) (timeout : Nat) (since : List Input) :
    Option (Except ClientError Response) :=
  match firstResponse? id since with
  | some r => some (.ok r)
  | none =>
    if timeout ≤ elapsed since then some (.error (.transport (.responseTimeout timeout))) else none

/-- The call of a caller ends in a run. -/
def Ended (x : Exchange) (k : Nat) : List Input → Prop
  | [] => False
  | i :: rest => (k < x.callers.length ∧ x.Ends i k) ∨ (x.step i).1.Ended k rest

/-- A call of a run: its number, its wait as it came, and what happened since. -/
def Called (x : Exchange) (inputs : List Input) (k : Nat) (w : Waiter) (since : List Input) :
    Prop :=
  ∃ before i, inputs = before ++ i :: since ∧ (x.run before).1.newcomer? i = some w ∧
    (x.run before).1.callers.length = k

/-! ### A call, from its start on -/

/-- A wait after a run that does not end it. -/
def Waiter.hearRun (inputs : List Input) (w : Waiter) : Waiter :=
  { w with answer := w.answer <|> (firstResponse? w.id inputs).map .response }

theorem Waiter.hearRun_cons (i : Input) (rest : List Input) (w : Waiter) :
    w.hearRun (i :: rest) = (w.hearInput i).hearRun rest := by
  have hinput : w.hearInput i =
      { w with answer := w.answer <|> (i.response? w.id).map .response } := by
    cases i with
    | frame text => rfl
    | _ => obtain ⟨id, purpose, deadline, answer⟩ := w; cases answer <;> rfl
  rw [hinput, hearRun, hearRun, firstResponse?, List.findSome?_cons]
  cases i.response? w.id <;> cases w.answer <;> simp [firstResponse?]

/-- **A caller waits with the first response to its id** until its call ends. -/
theorem waits_run {x : Exchange} (hm : x.Matched) {inputs : List Input}
    (hf : x.FreshRun inputs) {k : Nat} {w : Waiter} (hw : x.Waits k w)
    (hend : ¬x.Ended k inputs) : (x.run inputs).1.Waits k (w.hearRun inputs) := by
  induction inputs generalizing x w with
  | nil =>
    have hself : w.hearRun [] = w := by
      obtain ⟨id, purpose, deadline, answer⟩ := w
      cases answer <;> rfl
    rw [hself]
    exact hw
  | cons i rest ih =>
    have hk := (List.getElem?_eq_some_iff.mp hw).1
    have hi : ¬x.Ends i k := fun h => hend (.inl ⟨hk, h⟩)
    rw [Waiter.hearRun_cons]
    exact ih (matched_step hm hf.1) hf.2 (waits_step hm hf.1 hw hi) fun h => hend (.inr h)

/-- Who waits after a run waited at its start, if he was there, and his call did not end. -/
theorem waits_of_run {x : Exchange} (hm : x.Matched) {inputs : List Input}
    (hf : x.FreshRun inputs) {k : Nat} (hk : k < x.callers.length) {v : Waiter}
    (hv : (x.run inputs).1.Waits k v) : (∃ w, x.Waits k w) ∧ ¬x.Ended k inputs := by
  induction inputs generalizing x with
  | nil => exact ⟨⟨v, hv⟩, id⟩
  | cons i rest ih =>
    have hk' : k < (x.step i).1.callers.length := by
      rw [length_callers_step hm hf.1]
      omega
    obtain ⟨⟨w, hw⟩, hrest⟩ := ih (matched_step hm hf.1) hf.2 hk' hv
    obtain ⟨hw, hi⟩ := waits_of_step hm hf.1 hk hw
    exact ⟨hw, fun h => h.elim (fun h => hi h.2) hrest⟩

/-- No call ends in a run before its caller came. -/
theorem not_ended_of_length {x : Exchange} (hm : x.Matched) {inputs : List Input}
    (hf : x.FreshRun inputs) {k : Nat} (hk : (x.run inputs).1.callers.length ≤ k) :
    x.callers.length ≤ k ∧ ¬x.Ended k inputs := by
  induction inputs generalizing x with
  | nil => exact ⟨hk, id⟩
  | cons i rest ih =>
    obtain ⟨hlen, hrest⟩ := ih (matched_step hm hf.1) hf.2 hk
    rw [length_callers_step hm hf.1] at hlen
    refine ⟨by omega, fun h => h.elim (fun h => ?_) hrest⟩
    omega

theorem ended_append {x : Exchange} {k : Nat} {first rest : List Input} :
    x.Ended k (first ++ rest) ↔ x.Ended k first ∨ (x.run first).1.Ended k rest := by
  induction first generalizing x with
  | nil => simp [Ended]
  | cons i first ih => simp [Ended, ih, or_assoc]

/-- **Who waits after a run**: a caller whose call has not ended, with the first response to its id
since it came. -/
theorem Called.waits_iff {x : Exchange} (hm : x.Matched) {inputs : List Input}
    (hf : x.FreshRun inputs) {k : Nat} {w : Waiter} {since : List Input}
    (hc : x.Called inputs k w since) {v : Waiter} :
    (x.run inputs).1.Waits k v ↔ ¬x.Ended k inputs ∧ v = w.hearRun since := by
  obtain ⟨before, i, rfl, hnew, rfl⟩ := hc
  obtain ⟨hbefore, hi, hsince⟩ := always_append.mp hf
  have hm' := matched_run hm hbefore
  have hw := waits_newcomer hm' hi hnew
  have hend : x.Ended (x.run before).1.callers.length (before ++ i :: since) ↔
      ((x.run before).1.step i).1.Ended (x.run before).1.callers.length since := by
    rw [ended_append, Ended]
    constructor
    · rintro (h | ⟨h, -⟩ | h)
      · exact absurd h (not_ended_of_length hm hbefore (Nat.le_refl _)).2
      · exact absurd h (Nat.lt_irrefl _)
      · exact h
    · exact fun h => .inr (.inr h)
  rw [hend, run_append_fst, run_cons_fst]
  constructor
  · intro hv
    obtain ⟨-, hnot⟩ := waits_of_run (matched_step hm' hi) hsince
      (List.getElem?_eq_some_iff.mp hw).1 hv
    exact ⟨hnot, hv.unique (waits_run (matched_step hm' hi) hsince hw hnot)⟩
  · rintro ⟨hnot, rfl⟩
    exact waits_run (matched_step hm' hi) hsince hw hnot

/-- Everybody who waits after a run came in it, or was there at its start. -/
theorem called_of_waits {x : Exchange} (hm : x.Matched) {inputs : List Input}
    (hf : x.FreshRun inputs) {k : Nat} {v : Waiter} (hk : x.callers.length ≤ k)
    (hv : (x.run inputs).1.Waits k v) : ∃ w since, x.Called inputs k w since := by
  induction inputs generalizing x with
  | nil => exact absurd (List.getElem?_eq_some_iff.mp hv).1 (Nat.not_lt.mpr hk)
  | cons i rest ih =>
    have hm' := matched_step hm hf.1
    by_cases hlt : k < (x.step i).1.callers.length
    · obtain ⟨⟨w, hw⟩, -⟩ := waits_of_run hm' hf.2 hlt hv
      rw [length_callers_step hm hf.1] at hlt
      have harr : i.arrivals ≤ 1 := by cases i <;> simp [Input.arrivals]
      obtain rfl : k = x.callers.length := by omega
      exact ⟨w, rest, [], i, rfl, newcomer_of_waits hm hf.1 hw, rfl⟩
    · obtain ⟨w, since, before, j, hrest, hnew, hlen⟩ := ih hm' hf.2 (Nat.not_lt.mp hlt) hv
      exact ⟨w, since, i :: before, j, by rw [hrest, List.cons_append], hnew, hlen⟩

theorem newcomer_clock {x : Exchange} {i : Input} {w : Waiter} (hw : x.newcomer? i = some w) :
    w.answer = none ∧ w.deadline = x.now + x.timeout ∧ i.duration = 0 := by
  cases i with
  | call c =>
    obtain rfl := Option.some.inj hw
    exact ⟨rfl, rfl, rfl⟩
  | subscribe query topic family =>
    rw [newcomer?] at hw
    split at hw
    · obtain rfl := Option.some.inj hw
      exact ⟨rfl, rfl, rfl⟩
    · cases hw
  | _ => cases hw

section Calls

variable {x : Exchange} {inputs : List Input} {k : Nat} {w : Waiter} {since : List Input}

/-- What a wait has come to is the verdict on its call. -/
theorem Called.result?_eq (hc : x.Called inputs k w since) :
    (w.hearRun since).result? (x.run inputs).1.now (x.run inputs).1.timeout =
      verdict? w.id x.timeout since := by
  obtain ⟨before, i, rfl, hnew, -⟩ := hc
  obtain ⟨hanswer, hdeadline, hi⟩ := newcomer_clock hnew
  obtain ⟨htb, hnb⟩ := x.clock_run before
  obtain ⟨hti, hni⟩ := (x.run before).1.clock_step i
  obtain ⟨hts, hns⟩ := ((x.run before).1.step i).1.clock_run since
  rw [run_append_fst, run_cons_fst, hts, hti, htb, hns, hni, hi]
  unfold Waiter.result? Waiter.hearRun verdict?
  rw [hanswer, hdeadline, htb]
  cases firstResponse? w.id since with
  | some r => rfl
  | none => simp

theorem Called.answer_hearRun (hc : x.Called inputs k w since) :
    (w.hearRun since).answer = none ↔ firstResponse? w.id since = none := by
  obtain ⟨before, i, -, hnew, -⟩ := hc
  rw [Waiter.hearRun, (newcomer_clock hnew).1]
  simp

variable (hm : x.Matched) (hf : x.FreshRun inputs) (hc : x.Called inputs k w since)

include hm hf hc

theorem Called.lt_length : k < (x.run inputs).1.callers.length := by
  refine Nat.not_le.mp fun hk => ?_
  obtain ⟨before, i, rfl, hnew, rfl⟩ := hc
  obtain ⟨hbefore, hi, hsince⟩ := always_append.mp hf
  rw [run_append_fst, run_cons_fst] at hk
  have hm' := matched_run hm hbefore
  have hlen := (not_ended_of_length (matched_step hm' hi) hsince hk).1
  rw [(step_newcomer hm' hi hnew).1, List.length_append] at hlen
  exact absurd hlen (by simp)

/-- **Only the verdict on a call ends it**, and only once. -/
theorem Called.done_mem_step {i : Input} {o : Outcome} :
    .done k o ∈ ((x.run inputs).1.step i).2 ↔
      i = .resume k ∧ ¬x.Ended k inputs ∧
        ∃ result, verdict? w.id x.timeout since = some result ∧
          o = w.purpose.outcome result := by
  rw [Exchange.done_mem_step (hc.lt_length hm hf), ← hc.result?_eq]
  constructor
  · rintro ⟨rfl, v, result, hv, hr, rfl⟩
    obtain ⟨hend, rfl⟩ := (hc.waits_iff hm hf).mp hv
    exact ⟨rfl, hend, result, hr, rfl⟩
  · rintro ⟨rfl, hend, result, hr, rfl⟩
    exact ⟨rfl, _, result, (hc.waits_iff hm hf).mpr ⟨hend, rfl⟩, hr, rfl⟩

end Calls

/-! ### The whole exchange -/

/-- The ids that one frame is a response to are the same. -/
theorem same_of_responseTo? {text : String} {i j : Id} (hi : responseTo? i text ≠ none)
    (hj : responseTo? j text ≠ none) : i.same j = true := by
  cases hr : (responseIn? text).bind Response.id? with
  | none => exact absurd (responseTo?_of_no_id hr i) hi
  | some id =>
    obtain ⟨r, hr, hid⟩ := Option.bind_eq_some_iff.mp hr
    rw [responseTo?_of_id hr hid] at hi hj
    have hi : i.same id = true := Decidable.byContradiction fun h => hi (if_neg h)
    have hj : j.same id = true := Decidable.byContradiction fun h => hj (if_neg h)
    exact Id.same_trans hi (Id.same_symm hj)

/-- A frame changes at most one caller. -/
theorem frame_changes_one {x : Exchange} (hm : x.Matched) (text : String) :
    ∃ k, ∀ j : Nat, j ≠ k → (x.step (.frame text)).1.callers[j]? = x.callers[j]? := by
  rw [callers_frame hm]
  have hself : ∀ {j : Nat}, (∀ v, x.Waits j v → responseTo? v.id text = none) →
      (x.callers.map (Caller.receive text))[j]? = x.callers[j]? := by
    intro j hj
    rw [List.getElem?_map]
    cases hc : x.callers[j]? with
    | none => rfl
    | some c =>
      cases c with
      | waiting v =>
        exact congrArg (fun v => some (Caller.waiting v)) (Waiter.receive_of_none (hj v hc))
      | _ => rfl
  by_cases hk : ∃ k w, x.Waits k w ∧ responseTo? w.id text ≠ none
  · obtain ⟨k, w, hw, hr⟩ := hk
    refine ⟨k, fun j hj => hself fun v hv => Decidable.byContradiction fun hr' => hj ?_⟩
    exact hm.apart j k v w hv hw (same_of_responseTo? hr' hr)
  · exact ⟨0, fun j _ => hself fun v hv => Decidable.byContradiction fun hr => hk ⟨j, v, hv, hr⟩⟩

/-- A response to an id that is in nobody's entry changes nothing. -/
theorem frame_without_entry {x : Exchange} {text : String} {r : Response}
    (hr : responseIn? text = some r)
    (hno : ∀ id, r.id? = some id → ∀ e ∈ x.pending, e.1.same id = false) :
    x.step (.frame text) = (x, []) := by
  have hroute : x.route text = x := by
    rw [route_eq, hr]
    dsimp only
    split
    · next id hid => exact answer_of_no_entry (hno id hid) _
    · rfl
  rw [step, hroute, ite_self]

/-- The entries of the table are the calls that have not ended and have no response yet. -/
theorem mem_pending_iff {timeout : Nat} {inputs : List Input}
    (hf : FreshRun { timeout } inputs) {id : Id} {k : Nat} :
    (id, k) ∈ (run { timeout } inputs).1.pending ↔
      ∃ w since, Called { timeout } inputs k w since ∧ w.id = id ∧
        ¬Ended { timeout } k inputs ∧ firstResponse? id since = none := by
  have hm := matched_start timeout
  rw [(matched_run hm hf).entry]
  constructor
  · rintro ⟨v, hv, rfl, hnone⟩
    obtain ⟨w, since, hc⟩ := called_of_waits hm hf (Nat.zero_le k) hv
    obtain ⟨hend, rfl⟩ := (hc.waits_iff hm hf).mp hv
    exact ⟨w, since, hc, rfl, hend, hc.answer_hearRun.mp hnone⟩
  · rintro ⟨w, since, hc, rfl, hend, hnone⟩
    exact ⟨_, (hc.waits_iff hm hf).mpr ⟨hend, rfl⟩, rfl, hc.answer_hearRun.mpr hnone⟩

/-- **Every call gets the response to its own id.**  After any schedule in which nobody comes with
an id for which somebody waits:

* A call ends only when its caller goes on, once, and with the verdict on it: the first response to
  its id since it came, or without one the timeout.
* A frame ends no call by itself, and changes at most one caller.
* The table of pending ids holds the calls that have not ended and have no response yet, each once.
  When all calls have ended, it is empty.
* A response to an id that is not in the table changes nothing. -/
theorem calls_get_own_responses (timeout : Nat) {inputs : List Input}
    (hf : FreshRun { timeout } inputs) :
    (∀ k w since, Called { timeout } inputs k w since → ∀ i o,
      .done k o ∈ ((run { timeout } inputs).1.step i).2 ↔
        i = .resume k ∧ ¬Ended { timeout } k inputs ∧
          ∃ result, verdict? w.id timeout since = some result ∧
            o = w.purpose.outcome result) ∧
    (∀ text, ((run { timeout } inputs).1.step (.frame text)).2 = [] ∧
      ∃ k, ∀ j : Nat, j ≠ k →
        ((run { timeout } inputs).1.step (.frame text)).1.callers[j]? =
          (run { timeout } inputs).1.callers[j]?) ∧
    ((∀ id k, (id, k) ∈ (run { timeout } inputs).1.pending ↔
        ∃ w since, Called { timeout } inputs k w since ∧ w.id = id ∧
          ¬Ended { timeout } k inputs ∧ firstResponse? id since = none) ∧
      (run { timeout } inputs).1.pending.Pairwise (fun e f => e.1.same f.1 = false) ∧
      ((∀ k w since, Called { timeout } inputs k w since → Ended { timeout } k inputs) →
        (run { timeout } inputs).1.pending = [])) ∧
    (∀ text r, responseIn? text = some r →
      (∀ id, r.id? = some id →
        ∀ e ∈ (run { timeout } inputs).1.pending, e.1.same id = false) →
      (run { timeout } inputs).1.step (.frame text) = ((run { timeout } inputs).1, [])) := by
  have hm := matched_run (matched_start timeout) hf
  refine ⟨fun k w since hc i o => hc.done_mem_step (matched_start timeout) hf,
    fun text => ⟨rfl, frame_changes_one hm text⟩,
    ⟨fun id k => mem_pending_iff hf, hm.pending_apart, fun hall => ?_⟩,
    fun text r hr hno => frame_without_entry hr hno⟩
  refine List.eq_nil_iff_forall_not_mem.mpr ?_
  rintro ⟨id, k⟩ he
  obtain ⟨w, since, hc, -, hend, -⟩ := (mem_pending_iff hf).mp he
  exact hend (hall k w since hc)

/-- Two calls at a time, of which the second is answered first. -/
def crossedCalls : List Input :=
  [.call (Request.health.toCall (.ofNat 1)), .call (Request.status.toCall (.ofNat 2)),
    .respond (.success { id := .ofNat 2, result := .array [] })]

/-- The second of two crossed calls ends with the response to its own id, and the first is the only
one that the table still has. -/
theorem crossed_calls_end_apart :
    FreshRun { timeout := 10 } crossedCalls ∧
      .done 1 (.response (.success { id := .ofNat 2, result := .array [] })) ∈
        ((run { timeout := 10 } crossedCalls).1.step (.resume 1)).2 ∧
      (.ofNat 1, 0) ∈ (run { timeout := 10 } crossedCalls).1.pending := by
  have hf : FreshRun { timeout := 10 } crossedCalls := freshRun_start 10 (by decide)
  have hopen : ∀ k, k < 2 → ¬Ended { timeout := 10 } k crossedCalls := by
    rintro k - (⟨h, -⟩ | ⟨-, h | ⟨o, ho⟩⟩ | ⟨-, h | ⟨o, ho⟩⟩ | h)
    · cases h
    · cases h
    · cases List.mem_singleton.mp ho
    · cases h
    · cases ho
    · exact h
  have hfirst : Called { timeout := 10 } crossedCalls 0
      { id := .ofNat 1, purpose := .response, deadline := 10 } (crossedCalls.drop 1) :=
    ⟨[], _, rfl, rfl, rfl⟩
  have hsecond : Called { timeout := 10 } crossedCalls 1
      { id := .ofNat 2, purpose := .response, deadline := 10 } (crossedCalls.drop 2) :=
    ⟨crossedCalls.take 1, _, rfl, rfl, rfl⟩
  obtain ⟨hdone, -, ⟨hpending, -⟩, -⟩ := calls_get_own_responses 10 hf
  refine ⟨hf, (hdone 1 _ _ hsecond _ _).mpr ⟨rfl, hopen 1 (by decide), _, rfl, rfl⟩,
    (hpending _ 0).mpr ⟨_, _, hfirst, rfl, hopen 0 (by decide), rfl⟩⟩

end Exchange
end NodeClient
