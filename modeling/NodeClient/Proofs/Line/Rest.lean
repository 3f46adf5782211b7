import NodeClient.Proofs.Line.Connection

/-!
# Line rest — a line that stands still has nothing left to do

A line rests when no task of it can act.  If its links have answered by then, it does not connect
any more, and it is connected only if its queue is empty: nobody forgot to go on.  This holds of
every schedule, whoever comes between the actions of a task, and whatever greetings call.

* `Attended`: while a line connects, an attempt is at work on the current link.
* `Drained`: the draining task holds nothing while it waits for requests, and does not end.
* `attended_run`, `drained_run`: every schedule keeps both.
* `resting_line_is_done`: what a line that rests has come to.
-/

namespace NodeClient
namespace Line

/-! ### Lines that stand still -/

/-- No task can act, and no greeting is due. -/
structure Resting (line : Line) : Prop where
  tasks : ∀ task, line.act? task = none
  greetings : ∀ a ∈ line.attempts, a.phase ≠ .due

/-- No link owes an outcome of a send, and the current link none of an attempt to connect. -/
structure Answered (line : Line) : Prop where
  sends : ∀ link text, line.drain ≠ .sending link text
  attempts : ∀ a ∈ line.attempts, a.link = line.current → a.phase ≠ .waiting

/-! ### Attempts -/

/-- While the line connects, an attempt is at work on the current link. -/
def Attended (line : Line) : Prop :=
  line.dropped = false → line.status = .connecting →
    ∃ a ∈ line.attempts, a.link = line.current ∧ a.phase ≠ .over

variable {line b : Line}

theorem Attended.of_status (h : b.status ≠ .connecting) : Attended b :=
  fun _ hs => absurd hs h

/-- Nothing changes but the queue and the forwarders. -/
theorem Attended.congr (h : Attended line) (dropped : b.dropped = line.dropped)
    (status : b.status = line.status) (current : b.current = line.current)
    (attempts : b.attempts = line.attempts) : Attended b := by
  intro hd hs
  rw [current, attempts]
  exact h (dropped ▸ hd) (status ▸ hs)

/-- An attempt moves on, and is over only if it is not on the current link. -/
theorem Attended.setAttempt (h : Attended line) {index : Nat} {a : Attempt}
    (ha : line.attempts[index]? = some a) {phase : AttemptPhase}
    (hover : line.dropped = false → a.link = line.current → phase ≠ .over) :
    Attended (setAttempt index phase line) := by
  intro hd hs
  obtain ⟨w, hw, hlink, hphase⟩ := h hd hs
  obtain ⟨j, hj⟩ := List.mem_iff_getElem?.mp hw
  have hget : (Line.setAttempt index phase line).attempts[j]? =
      some (if index = j then { w with phase } else w) := by
    rw [Line.setAttempt, List.getElem?_modify, hj]
    rfl
  refine ⟨_, List.mem_of_getElem? hget, ?_⟩
  by_cases hij : index = j
  · subst hij
    rw [ha] at hj
    obtain rfl := Option.some.inj hj
    rw [if_pos rfl]
    exact ⟨hlink, hover hd hlink⟩
  · rw [if_neg hij]
    exact ⟨hlink, hphase⟩

theorem Attended.call (h : Attended line) (c : Call) : Attended (line.call c).1 := by
  have hnew : ∀ {b : Line} {again : Bool},
      b.attempts = line.attempts ++ [{ link := b.current, again }] → Attended b := by
    intro b again attempts _ _
    refine ⟨{ link := b.current, again }, ?_, rfl, nofun⟩
    rw [attempts]
    exact List.mem_append_right _ (List.mem_singleton.mpr rfl)
  cases c with
  | queue text => exact h.congr rfl rfl rfl rfl
  | connect =>
    rcases line.connect_fst with heq | heq <;> rw [heq]
    · exact h
    · exact hnew rfl
  | disconnect =>
    rw [disconnect_fst]
    exact .of_status nofun
  | reconnect =>
    rw [reconnect_fst]
    exact hnew rfl

theorem Attended.attempt (h : Attended line) {index : Nat} {next : Line × List Effect}
    (hnext : line.actAttempt? index = some next) : Attended next.1 := by
  obtain ⟨a, ha, htries⟩ := tries_of_act hnext
  cases htries with
  | quit _ hleft =>
    -- the attempt gives up: nobody holds the line, or its link was replaced
    refine h.setAttempt ha fun hd hlink => ?_
    simp [isHeld, hd, hlink] at hleft
  | fail | await | skip | finish | blame => exact h.setAttempt ha nofun
  | @greet c calls =>
    have hrest : Attended (Line.setAttempt index (.greeting calls) line) := h.setAttempt ha nofun
    exact hrest.call c
  | miss _ hs => exact .of_status hs
  | forgive _ hother => exact h.setAttempt ha fun _ hlink => absurd hlink.symm hother
  | confirm | lose =>
    rw [setStatus_fst]
    exact .of_status nofun

theorem Attended.forwarder (h : Attended line) {link : Nat} {next : Line × List Effect}
    (hnext : line.actForwarder? link = some next) : Attended next.1 := by
  have hstatus := actForwarder_status hnext
  obtain ⟨status, forwarders, -, heq⟩ := actForwarder_fst hnext
  rw [heq] at hstatus ⊢
  rcases hstatus with hsame | hlost
  · exact h.congr rfl hsame rfl rfl
  · exact .of_status fun hs => by
      rw [hs] at hlost
      cases hlost

theorem Attended.advance (h : Attended line) (index : Nat) (source : AttemptPhase)
    {target : AttemptPhase} (ht : target ≠ .over) :
    Attended (line.advanceAttempt index source target) := by
  unfold advanceAttempt
  split
  · next a ha =>
    split
    · exact h.setAttempt ha fun _ _ => ht
    · exact h
  · exact h

theorem Attended.drain (h : Attended line) (hb : Drains line b) : Attended b := by
  cases hb with
  | lose => exact .of_status nofun
  | _ => exact h.congr rfl rfl rfl rfl

/-- **One step** leaves no connecting line without an attempt. -/
theorem attended_step (h : Attended line) (i : Input) : Attended (line.step i).1 := by
  cases i with
  | call c =>
    rw [step]
    split
    · exact h
    · exact h.call c
  | event link e =>
    obtain ⟨forwarders, -, heq⟩ := line.takeEvent_eq link e
    rw [step, heq]
    exact h.congr rfl rfl rfl rfl
  | settled index opened => exact h.advance index .waiting (by simp)
  | greet index calls => exact h.advance index .due (by simp)
  | sent ok =>
    rw [step, sent]
    split
    · split <;> exact h.congr rfl rfl rfl rfl
    · exact h
  | drop =>
    rw [step]
    split
    · exact h
    · intro hd
      cases hd
  | act task =>
    rw [step]
    cases hact : line.act? task with
    | none => exact h
    | some next =>
      cases task with
      | forwarder link => exact h.forwarder hact
      | attempt index => exact h.attempt hact
      | drain => exact h.drain (drains_of_act hact)

theorem attended_run (h : Attended line) (inputs : List Input) : Attended (line.run inputs).1 := by
  induction inputs generalizing line with
  | nil => exact h
  | cons i rest ih => exact ih (attended_step h i)

/-! ### The draining task -/

/-- While it waits for requests the draining task holds none, and it ends only with the line. -/
structure Drained (line : Line) : Prop where
  idle : line.drain = .idle → line.pending = []
  ended : line.drain = .ended → line.dropped = true

theorem SameQueue.drained (h : SameQueue line b) (hdropped : line.dropped = true → b.dropped = true)
    (hd : Drained line) : Drained b where
  idle hb := h.pending.trans (hd.idle (h.drain ▸ hb))
  ended hb := hdropped (hd.ended (h.drain ▸ hb))

theorem dropped_call (line : Line) (c : Call) : (line.call c).1.dropped = line.dropped := by
  cases c with
  | queue text => rfl
  | connect => rcases line.connect_fst with h | h <;> rw [h]
  | disconnect => rw [disconnect_fst]
  | reconnect => rw [reconnect_fst]

theorem Drained.call (h : Drained line) (c : Call) : Drained (line.call c).1 := by
  have hdropped : line.dropped = true → (line.call c).1.dropped = true := by
    rw [dropped_call]
    exact id
  cases c with
  | queue text => exact ⟨h.idle, h.ended⟩
  | _ => exact (sameQueue_call (by simp)).drained hdropped h

theorem Drains.drained (hb : Drains line b) : Drained b := by
  cases hb with
  | leave hdropped => exact ⟨nofun, fun _ => hdropped⟩
  | finish hd hq => exact ⟨fun _ => (List.append_eq_nil_iff.mp hq).1, nofun⟩
  | _ => exact ⟨nofun, nofun⟩

theorem drained_step (h : Drained line) (i : Input) : Drained (line.step i).1 := by
  cases i with
  | call c =>
    rw [step]
    split
    · exact h
    · exact h.call c
  | event link e =>
    obtain ⟨forwarders, -, heq⟩ := line.takeEvent_eq link e
    rw [step, heq]
    exact ⟨h.idle, h.ended⟩
  | settled index opened | greet index calls =>
    rw [step]
    rcases line.advanceAttempt_cases index _ _ with heq | heq <;> rw [heq]
    · exact h
    · exact ⟨h.idle, h.ended⟩
  | sent ok =>
    rw [step, sent]
    split
    · split <;> exact ⟨fun hd => (by cases hd), fun hd => (by cases hd)⟩
    · exact h
  | drop =>
    rw [step]
    split
    · exact h
    · exact ⟨h.idle, fun _ => rfl⟩
  | act task =>
    rw [step]
    cases hact : line.act? task with
    | none => exact h
    | some next =>
      cases task with
      | forwarder link =>
        obtain ⟨status, forwarders, -, heq⟩ := actForwarder_fst hact
        rw [Option.getD_some, heq]
        exact ⟨h.idle, h.ended⟩
      | attempt index =>
        obtain ⟨a, -, ⟨c, calls, -, hnext⟩ | ⟨-, status, phase, -, hnext⟩⟩ := actAttempt_cases hact
        · rw [Option.getD_some, hnext]
          have hmoved : Drained (setAttempt index (.greeting calls) line) := ⟨h.idle, h.ended⟩
          exact hmoved.call c
        · rw [Option.getD_some, hnext]
          exact ⟨h.idle, h.ended⟩
      | drain => exact (drains_of_act hact).drained

theorem drained_run (h : Drained line) (inputs : List Input) : Drained (line.run inputs).1 := by
  induction inputs generalizing line with
  | nil => exact h
  | cons i rest ih => exact ih (drained_step h i)

/-! ### What a line that rests has come to -/

/-- An attempt of a line that rests waits for its link, or is over. -/
theorem Resting.phase (hrest : line.Resting) {a : Attempt} (ha : a ∈ line.attempts) :
    a.phase = .waiting ∨ a.phase = .over := by
  obtain ⟨index, hindex⟩ := List.mem_iff_getElem?.mp ha
  have hwaits : line.actAttempt? index = none := hrest.tasks (.attempt index)
  simp only [actAttempt?, hindex] at hwaits
  cases hp : a.phase with
  | waiting => exact .inl rfl
  | «over» => exact .inr rfl
  | due => exact absurd hp (hrest.greetings a ha)
  | settled opened =>
    rw [hp] at hwaits
    dsimp only at hwaits
    split at hwaits
    · cases hwaits
    · split at hwaits
      · cases hwaits
      · split at hwaits <;> cases hwaits
  | greeting calls => cases calls <;> simp [hp] at hwaits
  | confirming =>
    rw [hp] at hwaits
    dsimp only at hwaits
    split at hwaits <;> cases hwaits
  | failing =>
    rw [hp] at hwaits
    dsimp only at hwaits
    split at hwaits <;> cases hwaits
  | losing => simp [hp] at hwaits

/-- A line that rests does not connect any more. -/
theorem Resting.not_connecting (hrest : line.Resting) (hanswered : line.Answered)
    (h : Attended line) (hd : line.dropped = false) : line.status ≠ .connecting := by
  intro hs
  obtain ⟨a, ha, hlink, hover⟩ := h hd hs
  rcases hrest.phase ha with hp | hp
  · exact hanswered.attempts a ha hlink hp
  · exact hover hp

/-- A connected line that rests has sent all its requests. -/
theorem Resting.queue_empty (hrest : line.Resting) (hanswered : line.Answered) (h : Drained line)
    (hd : line.dropped = false) (hs : line.status = .connected) :
    line.backlog = [] ∧ line.pending = [] ∧ line.channel = [] := by
  have hwaits : line.actDrain? = none := hrest.tasks .drain
  have hidle : line.drain = .idle := by
    cases hdrain : line.drain with
    | idle => rfl
    | holding => simp [actDrain?, hdrain, hd, hs] at hwaits
    | picking => simp [actDrain?, hdrain, hd, hs] at hwaits
    | draining link =>
      simp only [actDrain?, hdrain] at hwaits
      split at hwaits <;> cases hwaits
    | sending link text => exact absurd hdrain (hanswered.sends link text)
    | failed link =>
      simp only [actDrain?, hdrain] at hwaits
      split at hwaits <;> cases hwaits
    | losing => simp [actDrain?, hdrain] at hwaits
    | ended =>
      have hdropped := h.ended hdrain
      rw [hd] at hdropped
      cases hdropped
  have hpending : line.pending = [] := h.idle hidle
  have hchannel : line.channel = [] := by
    cases hc : line.channel with
    | nil => rfl
    | cons text rest => simp [actDrain?, hidle, hd, hc] at hwaits
  exact ⟨by simp [backlog, inFlight, hidle, hpending, hchannel], hpending, hchannel⟩

/-- **A line that rests is done.**  After any schedule, when no task of the line can act and its
links have answered: the line is not connecting; if it is connected, no request is left, neither
with the draining task nor in the channel.  So what is left waits for somebody to connect. -/
theorem resting_line_is_done (greets : Bool) (inputs : List Input)
    (hd : (run { greets } inputs).1.dropped = false) (hrest : (run { greets } inputs).1.Resting)
    (hanswered : (run { greets } inputs).1.Answered) :
    let line := (run { greets } inputs).1
    line.status ≠ .connecting ∧
      (line.status = .connected →
        line.outstanding = 0 ∧ line.pending = [] ∧ line.channel = []) ∧
      (line.outstanding ≠ 0 → line.status = .unconnected ∨ line.status = .disconnected) := by
  intro line
  have hattends : Attended { greets } := .of_status nofun
  have hdrains : Drained { greets } := ⟨fun _ => rfl, nofun⟩
  have hattended : Attended line := attended_run hattends inputs
  have hdrained : Drained line := drained_run hdrains inputs
  have hcounted : line.Counted := counted_run inputs rfl
  have hconnecting : line.status ≠ .connecting := hrest.not_connecting hanswered hattended hd
  have hempty : line.status = .connected →
      line.outstanding = 0 ∧ line.pending = [] ∧ line.channel = [] := by
    intro hs
    obtain ⟨hbacklog, hpending, hchannel⟩ := hrest.queue_empty hanswered hdrained hd hs
    exact ⟨by rw [hcounted, hbacklog]; rfl, hpending, hchannel⟩
  refine ⟨hconnecting, hempty, fun hleft => ?_⟩
  cases hs : line.status with
  | unconnected => exact .inl rfl
  | disconnected => exact .inr rfl
  | connecting => exact absurd hs hconnecting
  | connected => exact absurd (hempty hs).1 hleft

/-- A send fails on a link that was replaced, and the next link fails to open. -/
def givenUp : List Input :=
  [.call (.queue "A"), .call .connect, .settled 0 true, .act (.attempt 0), .act (.attempt 0),
    .act .drain, .act .drain, .act .drain, .act .drain, .call .reconnect, .sent false, .act .drain,
    .settled 1 false, .act (.attempt 1), .act (.attempt 1), .act (.attempt 1)]

/-- The line that gave up keeps its request, and waits disconnected. -/
theorem given_up_line_is_disconnected :
    let line := (run {} givenUp).1
    line.Resting ∧ line.Answered ∧ line.outstanding = 1 ∧ line.status = .disconnected := by
  intro line
  have hline : line =
      { status := .disconnected, current := 1, forwarders := [{ stopped := true }, {}],
        attempts := [{ link := 0, again := false, phase := .over },
          { link := 1, again := true, phase := .over }],
        pending := ["A"], outstanding := 1, drain := .holding } := by
    decide
  have hrest : line.Resting := by
    rw [hline]
    refine ⟨fun task => ?_, by decide⟩
    cases task with
    | forwarder link =>
      match link with
      | 0 | 1 => rfl
      | _ + 2 => rfl
    | attempt index =>
      match index with
      | 0 | 1 => rfl
      | _ + 2 => rfl
    | drain => rfl
  have hanswered : line.Answered := by
    rw [hline]
    exact ⟨nofun, by decide⟩
  have hleft : line.outstanding = 1 := by rw [hline]
  have hdone := resting_line_is_done false givenUp (by decide) hrest hanswered
  have hwaits : line.status = .unconnected ∨ line.status = .disconnected :=
    hdone.2.2 (by rw [hleft]; decide)
  have htold : line.status ≠ .unconnected := by
    rw [hline]
    decide
  exact ⟨hrest, hanswered, hleft, hwaits.resolve_left htold⟩

end Line
end NodeClient
