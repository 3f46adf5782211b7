import NodeClient.Proofs.Line.Queue

/-!
# Line connection — a line that stays on its link

A line that is not told to reconnect keeps its link, and sends all requests on it.

* `Quiet`: the owner keeps the line, and no greeting calls on it.
* `SameLink`: what most steps leave alone.
* `idle_run`: while a line only connects, its queue is empty.
* `sends_on_current`: a line that stays on its link sends on it.
-/

namespace NodeClient
namespace Line

/-! ### Inputs -/

/-- The owner keeps the line, and does not call on it to greet a connection. -/
def Input.plain : Input → Bool
  | .drop => false
  | .greet _ calls => calls.isEmpty
  | _ => true

/-- The line gets no request. -/
def Input.connecting : Input → Bool
  | .call (.queue _) => false
  | i => i.plain

/-- The line does not replace its link. -/
def Input.staying : Input → Bool
  | .call .reconnect => false
  | i => i.plain

theorem Input.plain_of_connecting {i : Input} (h : i.connecting = true) : i.plain = true := by
  unfold connecting at h
  split at h
  · cases h
  · exact h

theorem Input.plain_of_staying {i : Input} (h : i.staying = true) : i.plain = true := by
  unfold staying at h
  split at h
  · cases h
  · exact h

/-! ### What stays the same -/

/-- The owner keeps the line, and no greeting calls on it. -/
structure Quiet (line : Line) : Prop where
  owned : line.dropped = false
  greeted : ∀ a ∈ line.attempts, a.phase.calls = []

/-- The link of a line, where its draining task stands, and its quiet. -/
structure SameLink (a b : Line) : Prop where
  current : b.current = a.current
  drain : b.drain = a.drain
  quiet : a.Quiet → b.Quiet

theorem SameLink.refl (line : Line) : SameLink line line := ⟨rfl, rfl, id⟩

theorem SameLink.trans {a b c : Line} (h : SameLink a b) (h' : SameLink b c) : SameLink a c :=
  ⟨h'.current.trans h.current, h'.drain.trans h.drain, h'.quiet ∘ h.quiet⟩

/-- A change of the status, the forwarders or the queue. -/
theorem SameLink.of_eq {a b : Line} (current : b.current = a.current) (drain : b.drain = a.drain)
    (dropped : b.dropped = a.dropped) (attempts : b.attempts = a.attempts) : SameLink a b :=
  ⟨current, drain, fun h => ⟨dropped.trans h.owned, attempts ▸ h.greeted⟩⟩

theorem sameLink_setAttempt (index : Nat) {phase : AttemptPhase}
    (hp : phase.calls = []) (line : Line) :
    SameLink line (setAttempt index phase line) := by
  refine ⟨rfl, rfl, fun h => ⟨h.owned, fun a ha => ?_⟩⟩
  obtain ⟨j, hj⟩ := List.mem_iff_getElem?.mp ha
  rw [setAttempt, List.getElem?_modify] at hj
  obtain ⟨b, hb, rfl⟩ := Option.map_eq_some_iff.mp hj
  by_cases h' : index = j
  · rw [if_pos h']
    exact hp
  · rw [if_neg h']
    exact h.greeted b (List.mem_of_getElem? hb)

/-- A new attempt waits for its link. -/
theorem Quiet.concat {a b : Line} (h : a.Quiet) {attempt : Attempt} (hw : attempt.phase = .waiting)
    (dropped : b.dropped = a.dropped) (attempts : b.attempts = a.attempts ++ [attempt]) :
    b.Quiet := by
  refine ⟨dropped.trans h.owned, fun a' ha' => ?_⟩
  rw [attempts] at ha'
  rcases List.mem_append.mp ha' with ha' | ha'
  · exact h.greeted a' ha'
  · obtain rfl := List.mem_singleton.mp ha'
    rw [hw]
    rfl

/-- A call other than one that reconnects leaves the link alone. -/
theorem sameLink_call {line : Line} {c : Call} (h : c ≠ .reconnect) :
    SameLink line (line.call c).1 := by
  cases c with
  | queue text => exact .of_eq rfl rfl rfl rfl
  | connect =>
    rcases line.connect_fst with h | h <;> rw [h]
    · exact .refl line
    · exact ⟨rfl, rfl, fun hq => hq.concat rfl rfl rfl⟩
  | disconnect =>
    rw [disconnect_fst]
    exact .of_eq rfl rfl rfl rfl
  | reconnect => exact absurd rfl h

theorem quiet_reconnect {line : Line} (h : line.Quiet) : (line.call .reconnect).1.Quiet := by
  rw [reconnect_fst]
  exact h.concat rfl rfl rfl

theorem sameLink_takeEvent (line : Line) (link : Nat) (e : LinkEvent) :
    SameLink line (line.takeEvent link e) := by
  obtain ⟨forwarders, -, h⟩ := line.takeEvent_eq link e
  rw [h]
  exact .of_eq rfl rfl rfl rfl

theorem sameLink_advanceAttempt (line : Line) (index : Nat) (source : AttemptPhase)
    {target : AttemptPhase} (ht : target.calls = []) :
    SameLink line (line.advanceAttempt index source target) := by
  rcases line.advanceAttempt_cases index source target with h | h <;> rw [h]
  · exact .refl line
  · exact sameLink_setAttempt index ht line

theorem sameLink_actForwarder {line : Line} {link : Nat} {next : Line × List Effect}
    (h : line.actForwarder? link = some next) : SameLink line next.1 := by
  obtain ⟨status, forwarders, -, hnext⟩ := actForwarder_fst h
  rw [hnext]
  exact .of_eq rfl rfl rfl rfl

theorem sameLink_actAttempt {line : Line} (hq : line.Quiet) {index : Nat}
    {next : Line × List Effect} (h : line.actAttempt? index = some next) :
    SameLink line next.1 := by
  obtain ⟨a, ha, ⟨c, calls, hp, -⟩ | ⟨-, status, phase, hphase, hnext⟩⟩ := actAttempt_cases h
  · have hnil := hq.greeted a (List.mem_of_getElem? ha)
    rw [hp] at hnil
    cases hnil
  · rw [hnext]
    exact (sameLink_setAttempt index hphase line).trans (.of_eq rfl rfl rfl rfl)

/-! ### The draining task -/

/-- The draining task sends on the current link. -/
def Bound (line : Line) : Prop :=
  ∀ link, line.drain.link? = some link → link = line.current

theorem SameLink.bound {a b : Line} (h : SameLink a b) (hb : a.Bound) : b.Bound := by
  intro link hl
  rw [h.current]
  exact hb link (h.drain ▸ hl)

/-- The draining task takes up no link but the current one. -/
theorem actDrain_link {line : Line} {next : Line × List Effect} (h : line.actDrain? = some next) :
    next.1.current = line.current ∧ next.1.dropped = line.dropped ∧
      next.1.attempts = line.attempts ∧ (line.Bound → next.1.Bound) := by
  obtain ⟨status, drain, hnext, -, -, hlink⟩ | ⟨text, rest, -, -, hnext⟩ |
    ⟨link, text, rest, hd, -, hnext⟩ := actDrain_cases h
  · rw [hnext]
    exact ⟨rfl, rfl, rfl, fun _ => hlink⟩
  · rw [hnext]
    exact ⟨rfl, rfl, rfl, fun _ => nofun⟩
  · rw [hnext]
    exact ⟨rfl, rfl, rfl, fun hb other ho => hb other (by rw [hd]; exact ho)⟩

theorem bound_sent {line : Line} (ok : Bool) (hb : line.Bound) : (line.sent ok).Bound := by
  unfold sent
  split
  · next link text hd =>
    have hl : ∀ other, some link = some other → other = line.current := fun other ho =>
      hb other (by rw [hd]; exact ho)
    split <;> exact hl
  · exact hb

theorem sameOwner_sent (line : Line) (ok : Bool) :
    (line.sent ok).current = line.current ∧ (line.sent ok).dropped = line.dropped ∧
      (line.sent ok).attempts = line.attempts := by
  unfold sent
  split
  · split <;> exact ⟨rfl, rfl, rfl⟩
  · exact ⟨rfl, rfl, rfl⟩

/-! ### One step -/

theorem sendsBy_on_current {line : Line} (hb : line.Bound) {i : Input} {send : Nat × String}
    (hs : send ∈ line.sendsBy i) : send.1 = line.current := by
  unfold sendsBy at hs
  split at hs
  · split at hs
    · next link text hd =>
      obtain rfl := List.mem_singleton.mp hs
      exact hb link (by rw [hd]; rfl)
    · cases hs
  · cases hs

/-- **A step keeps the link** of a line that is not told to reconnect, and sends on no other. -/
theorem step_link {line : Line} (hq : line.Quiet) {i : Input} (hi : i.staying = true) :
    (line.step i).1.current = line.current ∧ (line.step i).1.Quiet ∧
      (line.Bound → (line.step i).1.Bound) := by
  have hsame : ∀ {b : Line}, SameLink line b → (line.step i).1 = b →
      (line.step i).1.current = line.current ∧ (line.step i).1.Quiet ∧
        (line.Bound → (line.step i).1.Bound) := by
    rintro b h rfl
    exact ⟨h.current, h.quiet hq, h.bound⟩
  cases i with
  | call c =>
    have hc : c ≠ .reconnect := by rintro rfl; cases hi
    exact hsame (sameLink_call hc) (by simp [step, hq.owned])
  | event link e => exact hsame (sameLink_takeEvent line link e) rfl
  | settled index opened => exact hsame (sameLink_advanceAttempt line index .waiting rfl) rfl
  | greet index calls =>
    cases calls with
    | nil => exact hsame (sameLink_advanceAttempt line index .due rfl) rfl
    | cons c calls => cases hi
  | sent ok =>
    obtain ⟨hc, hd, ha⟩ := sameOwner_sent line ok
    exact ⟨hc, ⟨hd.trans hq.owned, ha ▸ hq.greeted⟩, bound_sent ok⟩
  | drop => cases hi
  | act task =>
    cases h : line.act? task with
    | none => exact hsame (.refl line) (by simp [step, h])
    | some next =>
      have hstep : (line.step (.act task)).1 = next.1 := by simp [step, h]
      cases task with
      | forwarder link => exact hsame (sameLink_actForwarder h) hstep
      | attempt index => exact hsame (sameLink_actAttempt hq h) hstep
      | drain =>
        obtain ⟨hc, hd, ha, hb⟩ := actDrain_link h
        rw [hstep]
        exact ⟨hc, ⟨hd.trans hq.owned, ha ▸ hq.greeted⟩, hb⟩

/-- A line stays quiet. -/
theorem quiet_step {line : Line} (hq : line.Quiet) {i : Input} (hi : i.plain = true) :
    (line.step i).1.Quiet := by
  by_cases hc : i = .call .reconnect
  · subst hc
    rw [show line.step (.call .reconnect) = line.call .reconnect by simp [step, hq.owned]]
    exact quiet_reconnect hq
  · have hstay : i.staying = true := by
      unfold Input.staying
      split
      · exact absurd rfl hc
      · exact hi
    exact (step_link hq hstay).2.1

theorem quiet_run {line : Line} (hq : line.Quiet) {inputs : List Input}
    (hi : ∀ i ∈ inputs, i.plain = true) : (line.run inputs).1.Quiet := by
  induction inputs generalizing line with
  | nil => exact hq
  | cons i rest ih =>
    obtain ⟨hfirst, hrest⟩ := List.forall_mem_cons.mp hi
    exact ih (quiet_step hq hfirst) hrest

/-- A greeting of a quiet line makes no call. -/
theorem Quiet.callsBy_attempt {line : Line} (hq : line.Quiet) (index : Nat) :
    line.callsBy (.act (.attempt index)) = [] := by
  cases ha : line.attempts[index]? with
  | none => simp [callsBy, ha]
  | some a => rw [Line.callsBy_attempt ha, hq.greeted a (List.mem_of_getElem? ha)]; rfl

theorem requestsBy_connecting {line : Line} (hq : line.Quiet) {i : Input}
    (hi : i.connecting = true) : line.requestsBy i = [] := by
  rw [requestsBy]
  cases i with
  | call c =>
    cases c with
    | queue text => cases hi
    | _ => simp [callsBy, hq.owned, Call.requests]
  | act task =>
    cases task with
    | attempt index => rw [hq.callsBy_attempt]; rfl
    | _ => rfl
  | _ => rfl

/-! ### A line without requests -/

/-- The line has no request, and its draining task waits for one. -/
structure Idle (line : Line) : Prop where
  channel : line.channel = []
  pending : line.pending = []
  drain : line.drain = .idle
  outstanding : line.outstanding = 0

theorem SameQueue.idle {a b : Line} (h : SameQueue a b) (ha : a.Idle) : b.Idle :=
  ⟨h.channel.trans ha.channel, h.pending.trans ha.pending, h.drain.trans ha.drain,
    h.outstanding.trans ha.outstanding⟩

theorem Idle.backlog {line : Line} (h : line.Idle) : line.backlog = [] := by
  simp [Line.backlog, inFlight, h.channel, h.pending, h.drain]

theorem Idle.bound {line : Line} (h : line.Idle) : line.Bound := by
  intro link hl
  rw [h.drain] at hl
  cases hl

theorem idle_step {line : Line} (hq : line.Quiet) (h : line.Idle) {i : Input}
    (hi : i.connecting = true) : (line.step i).1.Idle := by
  have hsame : ∀ {b : Line}, SameQueue line b → (line.step i).1 = b → (line.step i).1.Idle := by
    rintro b hb rfl
    exact hb.idle h
  cases i with
  | call c =>
    have hc : ∀ text, c ≠ .queue text := by rintro text rfl; cases hi
    exact hsame (sameQueue_call hc) (by simp [step, hq.owned])
  | event link e => exact hsame (sameQueue_takeEvent line link e) rfl
  | settled index opened => exact hsame (sameQueue_advanceAttempt ..) rfl
  | greet index calls => exact hsame (sameQueue_advanceAttempt ..) rfl
  | sent ok => exact hsame (.refl line) (by simp [step, sent, h.drain])
  | drop => cases hi
  | act task =>
    cases ha : line.act? task with
    | none => exact hsame (.refl line) (by simp [step, ha])
    | some next =>
      have hstep : (line.step (.act task)).1 = next.1 := by simp [step, ha]
      cases task with
      | forwarder link => exact hsame (sameQueue_actForwarder ha) hstep
      | attempt index =>
        rcases actAttempt_queue ha with ⟨c, calls, hc, -⟩ | ⟨-, hnext⟩
        · rw [hq.callsBy_attempt] at hc
          cases hc
        · exact hsame hnext hstep
      | drain => simp [act?, actDrain?, h.drain, hq.owned, h.channel] at ha

/-- **A line that only connects** has no request. -/
theorem idle_run {line : Line} (hq : line.Quiet) (h : line.Idle) {inputs : List Input}
    (hi : ∀ i ∈ inputs, i.connecting = true) : (line.run inputs).1.Idle := by
  induction inputs generalizing line with
  | nil => exact h
  | cons i rest ih =>
    obtain ⟨hfirst, hrest⟩ := List.forall_mem_cons.mp hi
    exact ih (quiet_step hq (Input.plain_of_connecting hfirst)) (idle_step hq h hfirst) hrest

/-! ### A line that stays on its link -/

/-- **A line that stays on its link** sends on it. -/
theorem sends_on_current {line : Line} (hq : line.Quiet) (hb : line.Bound) {inputs : List Input}
    (hi : ∀ i ∈ inputs, i.staying = true) :
    (line.run inputs).1.current = line.current ∧
      ∀ send ∈ line.sends inputs, send.1 = line.current := by
  induction inputs generalizing line with
  | nil => exact ⟨rfl, nofun⟩
  | cons i rest ih =>
    obtain ⟨hfirst, hrest⟩ := List.forall_mem_cons.mp hi
    obtain ⟨hc, hq', hb'⟩ := step_link hq hfirst
    obtain ⟨hrun, hsends⟩ := ih hq' (hb' hb) hrest
    refine ⟨hrun.trans hc, fun send hmem => ?_⟩
    rcases List.mem_append.mp hmem with hmem | hmem
    · exact sendsBy_on_current hb hmem
    · exact (hsends send hmem).trans hc

end Line
end NodeClient
