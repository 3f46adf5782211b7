import NodeClient.Proofs.Line.Connection
import NodeClient.Proofs.Line.Staleness

/-!
# Line opening — a connected line is on a link that has opened

A link has opened once an attempt to connect was told so.  A task that finds its link to be the
current one sets the status before it waits again; in a schedule where nobody comes in between
(`Uninterrupted`), and in which greetings only queue requests, the status tells the truth.

* `Grounded`: the status, the attempts and the draining task rest on links that have opened.
* `grounded_step`, `grounded_run`: every step of an uninterrupted schedule keeps it.
* `drain_of_send`, `succeeds_of_mem_sends`: how a request is given to a link, and what was sent.
* `told_of_tornDown`: a link that is replaced or torn down is told so.
* `connected_only_when_opened`: the status, the links that are sent on, and those that are not.
-/

namespace NodeClient
namespace Line

/-! ### Links that have opened -/

/-- The link that an input reports as opened. -/
def openedBy (line : Line) : Input → List Nat
  | .settled index true =>
    match line.attempts[index]? with
    | some a => if a.phase = .waiting then [a.link] else []
    | none => []
  | _ => []

/-- The links that open in a schedule. -/
def opened (line : Line) : List Input → List Nat
  | [] => []
  | i :: rest => line.openedBy i ++ (line.step i).1.opened rest

/-! ### Uninterrupted schedules -/

/-- The task that an input is a step of; none for the owner. -/
def Input.task? : Input → Option Task
  | .event link _ => some (.forwarder link)
  | .settled index _ | .greet index _ => some (.attempt index)
  | .sent _ => some .drain
  | .act task => some task
  | .call _ | .drop => none

/-- The tasks of a line. -/
def tasks (line : Line) : List Task :=
  (List.range line.forwarders.length).map .forwarder ++
    (List.range line.attempts.length).map .attempt ++ [.drain]

/-- Nobody comes between a task that has found its link to be the current one and the status that it
sets: a task does not wait there. -/
def Uninterrupted (line : Line) : List Input → Prop
  | [] => True
  | i :: rest =>
    (∀ task ∈ line.tasks, line.decided task = true → i.task? = some task) ∧
      (line.step i).1.Uninterrupted rest

instance decidableUninterrupted : (line : Line) → (inputs : List Input) →
    Decidable (line.Uninterrupted inputs)
  | _, [] => inferInstanceAs (Decidable True)
  | line, i :: rest =>
    have := decidableUninterrupted (line.step i).1 rest
    inferInstanceAs (Decidable ((∀ task ∈ line.tasks, line.decided task = true →
      i.task? = some task) ∧ (line.step i).1.Uninterrupted rest))

/-- A call that queues a request. -/
def Call.queues : Call → Bool
  | .queue _ => true
  | _ => false

/-- Greetings only queue requests. -/
def Input.polite : Input → Bool
  | .greet _ calls => calls.all Call.queues
  | _ => true

theorem mem_tasks_of_decided {line : Line} {task : Task} (h : line.decided task = true) :
    task ∈ line.tasks := by
  unfold tasks
  cases task with
  | forwarder link =>
    have hlt : link < line.forwarders.length := by
      by_contra hge
      simp [decided, List.getElem?_eq_none (Nat.le_of_not_lt hge)] at h
    simp [hlt]
  | attempt index =>
    have hlt : index < line.attempts.length := by
      by_contra hge
      simp [decided, List.getElem?_eq_none (Nat.le_of_not_lt hge)] at h
    simp [hlt]
  | drain => simp

theorem Uninterrupted.of_append {line : Line} {first rest : List Input}
    (h : line.Uninterrupted (first ++ rest)) : line.Uninterrupted first := by
  induction first generalizing line with
  | nil => trivial
  | cons i first ih =>
    obtain ⟨hi, hrest⟩ := h
    exact ⟨hi, ih hrest⟩

/-! ### What a connected line rests on -/

/-- The link of the attempt opened, and the attempt is not over. -/
def AttemptPhase.hasOpened : AttemptPhase → Bool
  | .settled true | .due | .greeting _ | .confirming => true
  | _ => false

/-- The line rests on links that have opened: the status, the attempts that go on, and the draining
task.  An attempt that has decided is on the current link. -/
structure Grounded (line : Line) (links : List Nat) : Prop where
  connected : line.status = .connected → line.current ∈ links
  attempts : ∀ a ∈ line.attempts, a.phase.hasOpened = true → a.link ∈ links
  decided : ∀ a ∈ line.attempts, a.phase.isDecided = true → a.link = line.current
  greetings : ∀ a ∈ line.attempts, ∀ c ∈ a.phase.calls, c.queues = true
  sends : ∀ link, line.drain.link? = some link → link ∈ links

variable {line b : Line} {links : List Nat}

theorem Grounded.mono (h : Grounded line links) (more : List Nat) :
    Grounded line (links ++ more) where
  connected hs := List.mem_append_left more (h.connected hs)
  attempts a ha hp := List.mem_append_left more (h.attempts a ha hp)
  decided := h.decided
  greetings := h.greetings
  sends link hl := List.mem_append_left more (h.sends link hl)

/-- Nothing changes but the queue, the forwarders, and a status that may be lost. -/
theorem Grounded.congr (h : Grounded line links)
    (status : b.status = line.status ∨ b.status = .disconnected)
    (current : b.current = line.current) (attempts : b.attempts = line.attempts)
    (sends : ∀ link, b.drain.link? = some link → link ∈ links) : Grounded b links where
  connected hs := by
    rw [current]
    refine h.connected ?_
    rcases status with hsame | hlost
    · exact hsame ▸ hs
    · rw [hlost] at hs
      cases hs
  attempts a ha hp := h.attempts a (attempts ▸ ha) hp
  decided a ha hp := by
    rw [current]
    exact h.decided a (attempts ▸ ha) hp
  greetings a ha := h.greetings a (attempts ▸ ha)
  sends := sends

theorem mem_setAttempt {index : Nat} {phase : AttemptPhase} {a : Attempt}
    (ha : a ∈ (setAttempt index phase line).attempts) :
    a ∈ line.attempts ∨ ∃ b, line.attempts[index]? = some b ∧ a = { b with phase } := by
  obtain ⟨j, hj⟩ := List.mem_iff_getElem?.mp ha
  rw [setAttempt, List.getElem?_modify] at hj
  obtain ⟨b, hb, rfl⟩ := Option.map_eq_some_iff.mp hj
  by_cases hij : index = j
  · subst hij
    exact .inr ⟨b, hb, by simp⟩
  · left
    simpa [hij] using List.mem_of_getElem? hb

/-- An attempt moves on within what its link allows. -/
theorem Grounded.setAttempt (h : Grounded line links) {index : Nat} {a : Attempt}
    (ha : line.attempts[index]? = some a) {phase : AttemptPhase}
    (hopened : phase.hasOpened = true → a.link ∈ links)
    (hdecided : phase.isDecided = true → a.link = line.current)
    (hcalls : ∀ c ∈ phase.calls, c.queues = true) :
    Grounded (setAttempt index phase line) links := by
  have hmem : ∀ b ∈ (Line.setAttempt index phase line).attempts,
      b ∈ line.attempts ∨ b = { a with phase } := by
    intro b hb
    rcases mem_setAttempt hb with hb | ⟨a', ha', rfl⟩
    · exact .inl hb
    · rw [ha] at ha'
      obtain rfl := Option.some.inj ha'
      exact .inr rfl
  refine ⟨h.connected, ?_, ?_, ?_, h.sends⟩
  · intro b hb hp
    rcases hmem b hb with hb | rfl
    · exact h.attempts b hb hp
    · exact hopened hp
  · intro b hb hp
    rcases hmem b hb with hb | rfl
    · exact h.decided b hb hp
    · exact hdecided hp
  · intro b hb
    rcases hmem b hb with hb | rfl
    · exact h.greetings b hb
    · exact hcalls

/-- A line that starts to connect, on any link: nobody may have decided on the one before. -/
theorem Grounded.reconnecting (h : Grounded line links)
    (hnone : ∀ a ∈ line.attempts, a.phase.isDecided = false) {again : Bool}
    (status : b.status = .connecting)
    (attempts : b.attempts = line.attempts ++ [{ link := b.current, again }])
    (drain : b.drain = line.drain) : Grounded b links := by
  have hmem : ∀ a ∈ b.attempts, a ∈ line.attempts ∨ a.phase = .waiting := by
    intro a ha
    rw [attempts, List.mem_append, List.mem_singleton] at ha
    exact ha.imp_right fun heq => by rw [heq]
  refine ⟨?_, ?_, ?_, ?_, ?_⟩
  · intro hs
    rw [status] at hs
    cases hs
  · intro a ha hp
    rcases hmem a ha with ha | hw
    · exact h.attempts a ha hp
    · rw [hw] at hp
      cases hp
  · intro a ha hp
    rcases hmem a ha with ha | hw
    · rw [hnone a ha] at hp
      cases hp
    · rw [hw] at hp
      cases hp
  · intro a ha c hc
    rcases hmem a ha with ha | hw
    · exact h.greetings a ha c hc
    · rw [hw] at hc
      cases hc
  · intro link hl
    exact h.sends link (drain ▸ hl)

/-! ### One step -/

theorem Grounded.call (h : Grounded line links) {c : Call}
    (hnone : c.queues = true ∨ ∀ a ∈ line.attempts, a.phase.isDecided = false) :
    Grounded (line.call c).1 links := by
  cases c with
  | queue text => exact h.congr (.inl rfl) rfl rfl h.sends
  | disconnect =>
    rw [disconnect_fst]
    exact h.congr (.inr rfl) rfl rfl h.sends
  | connect =>
    have hnone := hnone.resolve_left (by simp [Call.queues])
    rcases line.connect_fst with heq | heq <;> rw [heq]
    · exact h
    · exact h.reconnecting hnone rfl rfl rfl
  | reconnect =>
    have hnone := hnone.resolve_left (by simp [Call.queues])
    rw [reconnect_fst]
    exact h.reconnecting hnone rfl rfl rfl

theorem Grounded.forwarder (h : Grounded line links) {link : Nat} {next : Line × List Effect}
    (hnext : line.actForwarder? link = some next) : Grounded next.1 links := by
  have hstatus := actForwarder_status hnext
  obtain ⟨status, forwarders, -, heq⟩ := actForwarder_fst hnext
  rw [heq] at hstatus ⊢
  exact h.congr hstatus rfl rfl h.sends

theorem Grounded.attempt (h : Grounded line links) {index : Nat} {next : Line × List Effect}
    (hnext : line.actAttempt? index = some next) : Grounded next.1 links := by
  obtain ⟨a, ha, htries⟩ := tries_of_act hnext
  have hmem : a ∈ line.attempts := List.mem_of_getElem? ha
  have hover : Grounded (Line.setAttempt index .over line) links :=
    h.setAttempt ha nofun nofun nofun
  -- an attempt that has decided is on the current link, which opened
  have hdecided : a.phase.isDecided = true → a.phase.hasOpened = true →
      a.link ∈ links ∧ a.link = line.current := fun hd ho =>
    ⟨h.attempts a hmem ho, h.decided a hmem hd⟩
  cases htries with
  | quit | miss | forgive => exact hover
  | fail => exact h.setAttempt ha nofun nofun nofun
  | await hp _ hlink | skip hp _ hlink =>
    have hopened : a.link ∈ links := h.attempts a hmem (by rw [hp]; rfl)
    exact h.setAttempt ha (fun _ => hopened) (fun _ => hlink.symm) nofun
  | finish hp =>
    obtain ⟨hopened, hcurrent⟩ := hdecided (by rw [hp]; rfl) (by rw [hp]; rfl)
    exact h.setAttempt ha (fun _ => hopened) (fun _ => hcurrent) nofun
  | @greet c calls hp =>
    obtain ⟨hopened, hcurrent⟩ := hdecided (by rw [hp]; rfl) (by rw [hp]; rfl)
    have hqueues : ∀ d ∈ c :: calls, d.queues = true := fun d hd =>
      h.greetings a hmem d (by rw [hp]; exact hd)
    have hrest : Grounded (Line.setAttempt index (.greeting calls) line) links :=
      h.setAttempt ha (fun _ => hopened) (fun _ => hcurrent) fun d hd => hqueues d (.tail c hd)
    exact hrest.call (.inl (hqueues c (.head calls)))
  | confirm hp =>
    obtain ⟨hopened, hcurrent⟩ := hdecided (by rw [hp]; rfl) (by rw [hp]; rfl)
    rw [setStatus_fst]
    exact ⟨fun _ => hcurrent ▸ hopened, hover.attempts, hover.decided, hover.greetings,
      hover.sends⟩
  | blame _ hcurrent => exact h.setAttempt ha nofun (fun _ => hcurrent.symm) nofun
  | lose =>
    rw [setStatus_fst]
    exact hover.congr (.inr rfl) rfl rfl hover.sends

/-- The draining task takes up a link only while the line is connected. -/
theorem Grounded.drain (h : Grounded line links) (hb : Drains line b) : Grounded b links := by
  cases hb with
  | leave | receive | see | miss | finish | blame | forgive =>
    exact h.congr (.inl rfl) rfl rfl nofun
  | pick hd hs =>
    refine h.congr (.inl rfl) rfl rfl fun link hl => ?_
    obtain rfl := Option.some.inj hl
    exact h.connected hs
  | give hd hq =>
    exact h.congr (.inl rfl) rfl rfl fun link hl => h.sends link (by rw [hd]; exact hl)
  | lose => exact h.congr (.inr rfl) rfl rfl nofun

theorem link?_sent (line : Line) (ok : Bool) : (line.sent ok).drain.link? = line.drain.link? := by
  unfold sent
  split
  · next link text hd => cases ok <;> simp [hd, Drain.link?]
  · rfl

theorem Grounded.settled (h : Grounded line links) (index : Nat) (ok : Bool) :
    Grounded (line.advanceAttempt index .waiting (.settled ok))
      (links ++ line.openedBy (.settled index ok)) := by
  unfold advanceAttempt
  split
  · next a ha =>
    split
    · next hp =>
      refine (h.mono _).setAttempt ha (fun hopened => ?_) nofun nofun
      cases ok with
      | false => cases hopened
      | true => simp [openedBy, ha, hp]
    · exact h.mono _
  · exact h.mono _

theorem Grounded.greet (h : Grounded line links) (index : Nat) {calls : List Call}
    (hcalls : ∀ c ∈ calls, c.queues = true) :
    Grounded (line.advanceAttempt index .due (.greeting calls)) links := by
  unfold advanceAttempt
  split
  · next a ha =>
    split
    · next hp =>
      have hmem : a ∈ line.attempts := List.mem_of_getElem? ha
      exact h.setAttempt ha (fun _ => h.attempts a hmem (by rw [hp]; rfl))
        (fun _ => h.decided a hmem (by rw [hp]; rfl)) hcalls
    · exact h
  · exact h

/-- **An uninterrupted step** keeps a line on links that have opened. -/
theorem grounded_step (h : Grounded line links) {i : Input} (hpolite : i.polite = true)
    (halone : ∀ task ∈ line.tasks, line.decided task = true → i.task? = some task) :
    Grounded (line.step i).1 (links ++ line.openedBy i) := by
  cases i with
  | call c =>
    have hnone : ∀ a ∈ line.attempts, a.phase.isDecided = false := by
      intro a ha
      obtain ⟨index, hindex⟩ := List.mem_iff_getElem?.mp ha
      by_contra hp
      have hd : line.decided (.attempt index) = true := by simpa [decided, hindex] using hp
      cases halone _ (mem_tasks_of_decided hd) hd
    rw [show line.openedBy (.call c) = [] from rfl, List.append_nil, step]
    split
    · exact h
    · exact h.call (.inr hnone)
  | event link e =>
    obtain ⟨forwarders, -, heq⟩ := line.takeEvent_eq link e
    rw [show line.openedBy (.event link e) = [] from rfl, List.append_nil, step, heq]
    exact h.congr (.inl rfl) rfl rfl h.sends
  | settled index ok => exact h.settled index ok
  | sent ok =>
    obtain ⟨hcurrent, -, hattempts⟩ := sameOwner_sent line ok
    rw [show line.openedBy (.sent ok) = [] from rfl, List.append_nil, step]
    refine h.congr (.inl ?_) hcurrent hattempts fun link hl => ?_
    · unfold sent
      split
      · split <;> rfl
      · rfl
    · rw [link?_sent] at hl
      exact h.sends link hl
  | greet index calls =>
    rw [show line.openedBy (.greet index calls) = [] from rfl, List.append_nil, step]
    exact h.greet index (List.all_eq_true.mp hpolite)
  | drop =>
    rw [show line.openedBy .drop = [] from rfl, List.append_nil, step]
    split
    · exact h
    · exact h.congr (.inl rfl) rfl rfl h.sends
  | act task =>
    rw [show line.openedBy (.act task) = [] from rfl, List.append_nil, step]
    cases hact : line.act? task with
    | none => exact h
    | some next =>
      cases task with
      | forwarder link => exact h.forwarder hact
      | attempt index => exact h.attempt hact
      | drain => exact h.drain (drains_of_act hact)

/-- **An uninterrupted schedule** keeps a line on links that have opened. -/
theorem grounded_run (h : Grounded line links) {inputs : List Input}
    (hpolite : ∀ i ∈ inputs, i.polite = true) (hrun : line.Uninterrupted inputs) :
    Grounded (line.run inputs).1 (links ++ line.opened inputs) := by
  induction inputs generalizing line links with
  | nil =>
    rw [opened, List.append_nil]
    exact h
  | cons i rest ih =>
    obtain ⟨hfirst, hrest⟩ := List.forall_mem_cons.mp hpolite
    obtain ⟨halone, hrun⟩ := hrun
    rw [opened, ← List.append_assoc]
    exact ih (grounded_step h hfirst halone) hrest hrun

theorem grounded_start (greets : Bool) : Grounded { greets } [] where
  connected := nofun
  attempts := nofun
  decided := nofun
  greetings := nofun
  sends := nofun

/-! ### Sends -/

theorem no_send_setStatus (s : Status) (line : Line) (link : Nat) (text : String) :
    .send link text ∉ (setStatus s line).2 := by
  unfold setStatus
  split <;> simp

theorem no_send_call (line : Line) (c : Call) (link : Nat) (text : String) :
    .send link text ∉ (line.call c).2 := by
  cases c with
  | queue _ => simp [call]
  | connect =>
    rw [call]
    split
    · simp
    · simp [startConnecting, andThen, no_send_setStatus]
  | disconnect => simp [call, andThen, no_send_setStatus]
  | reconnect => simp [call, andThen, replaceLink, startConnecting, no_send_setStatus]

theorem no_send_forwarder {other : Nat} {next : Line × List Effect}
    (h : line.actForwarder? other = some next) (link : Nat) (text : String) :
    .send link text ∉ next.2 := by
  obtain ⟨f, -, hforward⟩ := forwards_of_act h
  cases hforward with
  | leave | keep | blame | pass => simp
  | lose => exact no_send_setStatus _ _ _ _

theorem no_send_attempt {index : Nat} {next : Line × List Effect}
    (h : line.actAttempt? index = some next) (link : Nat) (text : String) :
    .send link text ∉ next.2 := by
  obtain ⟨a, -, htries⟩ := tries_of_act h
  cases htries with
  | quit | fail | await | skip | finish | miss | blame | forgive => simp
  | greet => exact no_send_call _ _ _ _
  | confirm | lose => exact no_send_setStatus _ _ _ _

/-- The draining task gives a request to the link that it holds, and waits for that link. -/
theorem send_of_drain {next : Line × List Effect} (h : line.actDrain? = some next) {link : Nat}
    {text : String} :
    .send link text ∈ next.2 ↔ line.drain = .draining link ∧ next.1.drain = .sending link text := by
  rcases actDrain_effects h with
    ⟨other, sent, hd, hsending, heffects, -⟩ | ⟨hd, rfl⟩ | ⟨htext, heffects, -⟩
  · rw [heffects, hd, hsending, List.mem_singleton]
    constructor
    · rintro ⟨rfl, rfl⟩
      exact ⟨rfl, rfl⟩
    · rintro ⟨-, ⟨rfl, rfl⟩⟩
      rfl
  · refine iff_of_false (no_send_setStatus _ _ _ _) ?_
    rw [hd]
    rintro ⟨⟨⟩, -⟩
  · rw [heffects]
    refine iff_of_false List.not_mem_nil ?_
    rintro ⟨-, hsending⟩
    rw [hsending] at htext
    cases htext

/-- Only an action of the draining task gives a request to a link. -/
theorem drain_of_send {i : Input} {link : Nat} {text : String}
    (h : .send link text ∈ (line.step i).2) :
    line.drain = .draining link ∧ (line.step i).1.drain = .sending link text := by
  cases i with
  | call c =>
    rw [step] at h
    split at h
    · cases h
    · exact absurd h (no_send_call line c link text)
  | drop =>
    rw [step] at h
    split at h
    · cases h
    · simp [drop] at h
  | act task =>
    rw [step] at h ⊢
    cases hact : line.act? task with
    | none => simp [hact] at h
    | some next =>
      simp only [hact, Option.getD_some] at h ⊢
      cases task with
      | forwarder other => exact absurd h (no_send_forwarder hact link text)
      | attempt index => exact absurd h (no_send_attempt hact link text)
      | drain => exact (send_of_drain hact).mp h
  | _ => cases h

theorem drain_call (line : Line) (c : Call) : (line.call c).1.drain = line.drain := by
  cases c with
  | queue text => rfl
  | _ => exact (sameQueue_call (by simp)).drain

/-- Only outcomes of sends and actions of the draining task move it. -/
theorem drain_step {i : Input} (hsent : ∀ ok, i ≠ .sent ok) (hact : i ≠ .act .drain) :
    (line.step i).1.drain = line.drain := by
  cases i with
  | call c =>
    rw [step]
    split
    · rfl
    · exact drain_call line c
  | event other e => exact (sameQueue_takeEvent line other e).drain
  | settled index ok => exact (sameQueue_advanceAttempt ..).drain
  | greet index calls => exact (sameQueue_advanceAttempt ..).drain
  | sent ok => exact absurd rfl (hsent ok)
  | drop =>
    rw [step]
    split <;> rfl
  | act task =>
    rw [step]
    cases h : line.act? task with
    | none => rfl
    | some next =>
      cases task with
      | forwarder other => exact (sameQueue_actForwarder h).drain
      | attempt index =>
        obtain ⟨a, -, ⟨c, calls, -, hnext⟩ | ⟨-, status, phase, -, hnext⟩⟩ := actAttempt_cases h
        · rw [Option.getD_some, hnext, drain_call]
          rfl
        · rw [Option.getD_some, hnext]
          rfl
      | drain => exact absurd rfl hact

/-- A link that is sending was given the request in this step, or is sending it since before. -/
theorem sending_step {i : Input} {link : Nat} {text : String}
    (h : (line.step i).1.drain = .sending link text) :
    .send link text ∈ (line.step i).2 ∨
      (line.drain = .sending link text ∧ ∀ ok, i ≠ .sent ok) := by
  by_cases hdrain : i = .act .drain
  · subst hdrain
    cases hact : line.actDrain? with
    | none =>
      rw [step, act?, hact] at h
      refine .inr ⟨h, fun ok hsent => ?_⟩
      cases hsent
    | some next =>
      rw [step, act?, hact, Option.getD_some] at h ⊢
      obtain ⟨status, drain, hnext, -, htext, -⟩ | ⟨_, _, _, _, hnext⟩ |
        ⟨other, text', rest, hd, -, hnext⟩ := actDrain_cases hact
      · rw [hnext] at h
        rw [show drain = .sending link text from h] at htext
        cases htext
      · rw [hnext] at h
        cases h
      · refine .inl ((send_of_drain hact).mpr ⟨?_, h⟩)
        rw [hnext] at h
        cases h
        exact hd
  · by_cases hsent : ∀ ok, i ≠ .sent ok
    · exact .inr ⟨(drain_step hsent hdrain).symm.trans h, hsent⟩
    · -- an outcome ends the send that was under way
      obtain ⟨ok, hok⟩ := Classical.not_forall_not.mp hsent
      subst hok
      rw [step, sent] at h
      split at h
      · split at h <;> cases h
      · next hother => exact absurd h (hother link text)

/-! ### From the start of a send to its end -/

/-- The first outcome of a send that a schedule reports. -/
def outcome? : List Input → Option Bool
  | [] => none
  | .sent ok :: _ => some ok
  | _ :: rest => outcome? rest

theorem outcome?_append (first rest : List Input) :
    outcome? (first ++ rest) = (outcome? first).or (outcome? rest) := by
  induction first with
  | nil => rfl
  | cons i first ih =>
    cases i with
    | sent ok => rfl
    | _ => exact ih

/-- A schedule gives a request to a link after `before`, and the link sends it. -/
def Succeeds (start : Line) (inputs before : List Input) (send : Nat × String) : Prop :=
  ∃ i rest, inputs = before ++ i :: rest ∧
    .send send.1 send.2 ∈ ((start.run before).1.step i).2 ∧ outcome? rest = some true

/-- The request that a link is sending was given to it, and nothing came of it yet. -/
theorem given_of_sending {start : Line} (hstart : start.inFlight = []) {inputs : List Input}
    {link : Nat} {text : String} (h : (start.run inputs).1.drain = .sending link text) :
    ∃ before i rest, inputs = before ++ i :: rest ∧
      .send link text ∈ ((start.run before).1.step i).2 ∧ outcome? rest = none := by
  induction inputs using List.reverseRecOn with
  | nil =>
    have hd : start.drain = .sending link text := h
    simp [inFlight, hd] at hstart
  | append_singleton inputs i ih =>
    rw [run_append_fst] at h
    rcases sending_step h with hsend | ⟨hbefore, hi⟩
    · exact ⟨inputs, i, [], rfl, hsend, rfl⟩
    · obtain ⟨before, j, rest, rfl, hsend, hrest⟩ := ih hbefore
      have hlast : outcome? [i] = none := by
        cases i with
        | sent ok => exact absurd rfl (hi ok)
        | _ => rfl
      exact ⟨before, j, rest ++ [i], by simp, hsend, by rw [outcome?_append, hrest, hlast]; rfl⟩

theorem sends_append (line : Line) (first rest : List Input) :
    line.sends (first ++ rest) = line.sends first ++ (line.run first).1.sends rest := by
  induction first generalizing line with
  | nil => rfl
  | cons i first ih => rw [List.cons_append, sends, sends, ih, List.append_assoc, run_cons_fst]

/-- A request that was sent was given to its link before. -/
theorem succeeds_of_mem_sends {start : Line} (hstart : start.inFlight = []) {inputs : List Input}
    {send : Nat × String} (h : send ∈ start.sends inputs) :
    ∃ before, start.Succeeds inputs before send := by
  induction inputs using List.reverseRecOn with
  | nil => cases h
  | append_singleton inputs i ih =>
    rw [sends_append, List.mem_append] at h
    rcases h with h | h
    · obtain ⟨before, j, rest, rfl, hsend, hrest⟩ := ih h
      exact ⟨before, j, rest ++ [i], by simp, hsend, by rw [outcome?_append, hrest]; rfl⟩
    · have hlast : send ∈ (start.run inputs).1.sendsBy i := by simpa [sends] using h
      unfold sendsBy at hlast
      split at hlast
      · split at hlast
        · next link text hd =>
          obtain rfl := List.mem_singleton.mp hlast
          obtain ⟨before, j, rest, rfl, hsend, hrest⟩ := given_of_sending hstart hd
          exact ⟨before, j, rest ++ [.sent true], by simp, hsend, by
            rw [outcome?_append, hrest]; rfl⟩
        · cases hlast
      · cases hlast

/-! ### Links that are torn down -/

/-- A call that tears down the current link. -/
def Call.tearsDown : Call → Bool
  | .disconnect | .reconnect => true
  | _ => false

/-- The link that an input tears down, to replace it or not. -/
def tornDownBy (line : Line) (i : Input) : List Nat :=
  if (line.callsBy i).any Call.tearsDown then [line.current] else []

/-- The links that a schedule tears down. -/
def tornDown (line : Line) : List Input → List Nat
  | [] => []
  | i :: rest => line.tornDownBy i ++ (line.step i).1.tornDown rest

theorem told_call (line : Line) {c : Call} (h : c.tearsDown = true) :
    .disconnect line.current ∈ (line.call c).2 := by
  cases c with
  | queue _ => cases h
  | connect => cases h
  | disconnect => simp [call, andThen, setStatus_fst]
  | reconnect => simp [call, andThen, replaceLink, setStatus_fst]

theorem told_step {i : Input} {link : Nat} (h : link ∈ line.tornDownBy i) :
    .disconnect link ∈ (line.step i).2 := by
  unfold tornDownBy at h
  split at h
  · next hcalls =>
    obtain rfl := List.mem_singleton.mp h
    obtain ⟨c, hc, htears⟩ := List.any_eq_true.mp hcalls
    cases i with
    | call c' =>
      by_cases hd : line.dropped = true
      · simp [callsBy, hd] at hc
      · obtain rfl : c = c' := by simpa [callsBy, hd] using hc
        rw [show line.step (.call c) = line.call c by simp [step, hd]]
        exact told_call line htears
    | act task =>
      cases hact : line.act? task with
      | none =>
        rw [callsBy_of_act_none hact] at hc
        cases hc
      | some next =>
        rw [show line.step (.act task) = next by simp [step, hact]]
        cases task with
        | attempt index =>
          rcases actAttempt_queue hact with ⟨c', calls, hcalls', rfl⟩ | ⟨hnone, -⟩
          · rw [hcalls'] at hc
            obtain rfl := List.mem_singleton.mp hc
            exact told_call (setAttempt index (.greeting calls) line) htears
          · rw [hnone] at hc
            cases hc
        | _ => cases hc
    | _ => cases hc
  · cases h

/-- A link that is replaced or torn down is told so. -/
theorem told_of_tornDown {inputs : List Input} {link : Nat} (h : link ∈ line.tornDown inputs) :
    .disconnect link ∈ (line.run inputs).2 := by
  induction inputs generalizing line with
  | nil => cases h
  | cons i rest ih =>
    show _ ∈ (line.step i).2 ++ ((line.step i).1.run rest).2
    rcases List.mem_append.mp h with h | h
    · exact List.mem_append_left _ (told_step h)
    · exact List.mem_append_right _ (ih h)

/-! ### The main result -/

/-- **A connected line is on a link that has opened**, in every schedule in which no party comes
between a task's look and the status that it sets, and greetings only queue requests:

* When the line is connected, its current link has opened.
* A request is given only to a link that has opened.
* If links fail to send what they are given after they were told to disconnect, then no request
  that is given to a link after a reconnect or a disconnect tore that link down is ever sent; and
  whatever is sent was given to its link before. -/
theorem connected_only_when_opened (greets : Bool) (inputs : List Input)
    (hpolite : ∀ i ∈ inputs, i.polite = true) (hrun : ({ greets } : Line).Uninterrupted inputs) :
    let start : Line := { greets }
    ((start.run inputs).1.status = .connected →
      (start.run inputs).1.current ∈ start.opened inputs) ∧
    (∀ before i rest link text, inputs = before ++ i :: rest →
      .send link text ∈ ((start.run before).1.step i).2 → link ∈ start.opened before) ∧
    ((∀ before send, .disconnect send.1 ∈ (start.run before).2 →
        ¬ start.Succeeds inputs before send) →
      (∀ before send, send.1 ∈ start.tornDown before → ¬ start.Succeeds inputs before send) ∧
      ∀ send ∈ start.sends inputs, ∃ before, start.Succeeds inputs before send ∧
        send.1 ∈ start.opened before ∧ send.1 ∉ start.tornDown before) := by
  intro start
  have hgrounded : ∀ before, before <+: inputs →
      Grounded (start.run before).1 (start.opened before) := by
    rintro before ⟨rest, rfl⟩
    have hbefore : ∀ i ∈ before, i.polite = true := fun i hi =>
      hpolite i (List.mem_append_left rest hi)
    simpa using grounded_run (grounded_start greets) hbefore hrun.of_append
  have hopened : ∀ before i rest link text, inputs = before ++ i :: rest →
      .send link text ∈ ((start.run before).1.step i).2 → link ∈ start.opened before := by
    intro before i rest link text hsplit hsend
    have hdrain := (drain_of_send hsend).1
    exact (hgrounded before ⟨_, hsplit.symm⟩).sends link (by rw [hdrain]; rfl)
  refine ⟨(hgrounded inputs (List.prefix_refl inputs)).connected, hopened, fun hfails => ?_⟩
  have hnever : ∀ before send, send.1 ∈ start.tornDown before →
      ¬ start.Succeeds inputs before send :=
    fun before send hdown => hfails before send (told_of_tornDown hdown)
  refine ⟨hnever, fun send hsend => ?_⟩
  obtain ⟨before, hsucceeds⟩ := succeeds_of_mem_sends rfl hsend
  refine ⟨before, hsucceeds, ?_, fun hdown => hnever before send hdown hsucceeds⟩
  obtain ⟨i, rest, hsplit, hgiven, -⟩ := hsucceeds
  exact hopened before i rest send.1 send.2 hsplit hgiven

/-- A schedule that replaces a link while it has a request to send: the request is given to the old
link, which does not send it, and then to the new one. -/
def replacedLink : List Input :=
  [.call (.queue "A"), .call (.queue "B"), .call .connect, .settled 0 true, .act (.attempt 0),
    .act (.attempt 0), .act .drain, .act .drain, .act .drain, .act .drain, .sent true,
    .call .reconnect, .act .drain, .sent false, .act .drain, .settled 1 true, .act (.attempt 1),
    .greet 1 [.queue "C"], .act (.attempt 1), .act (.attempt 1), .act (.attempt 1), .act .drain,
    .act .drain, .act .drain, .sent true]

theorem replaced_link_sends_nothing :
    let start : Line := { greets := true }
    (start.run replacedLink).1.status = .connected ∧ 1 ∈ start.opened replacedLink ∧
      0 ∈ start.tornDown (replacedLink.take 12) ∧
      .send 0 "B" ∈ ((start.run (replacedLink.take 12)).1.step (.act .drain)).2 ∧
      ¬ start.Succeeds replacedLink (replacedLink.take 12) (0, "B") ∧
      ∃ before, start.Succeeds replacedLink before (1, "B") ∧ 1 ∉ start.tornDown before := by
  intro start
  obtain ⟨hconnected, -, hsends⟩ :=
    connected_only_when_opened true replacedLink (by decide) (by decide)
  have hfails : ∀ before send, .disconnect send.1 ∈ (start.run before).2 →
      ¬ start.Succeeds replacedLink before send := by
    rintro before send htold ⟨i, rest, hsplit, hsend, hsent⟩
    have hcheck : ∀ n < replacedLink.length,
        ∀ link ∈ (start.run (replacedLink.take n)).1.drain.link?,
          (start.run (replacedLink.take n)).1.drain = .draining link →
          .disconnect link ∈ (start.run (replacedLink.take n)).2 →
            outcome? (replacedLink.drop (n + 1)) ≠ some true := by decide
    have hbefore : replacedLink.take before.length = before := by rw [hsplit, List.take_left]
    have hrest : replacedLink.drop (before.length + 1) = rest := by
      rw [hsplit, ← List.drop_drop, List.drop_left, List.drop_one, List.tail_cons]
    have hdrain := (drain_of_send hsend).1
    refine hcheck before.length (by simp [hsplit]) send.1 ?_ ?_ ?_ (hrest ▸ hsent)
    · rw [hbefore, hdrain]
      rfl
    · rw [hbefore, hdrain]
    · rwa [hbefore]
  obtain ⟨hnever, hgiven⟩ := hsends hfails
  have hstatus : (start.run replacedLink).1.status = .connected := by decide
  have hdown : 0 ∈ start.tornDown (replacedLink.take 12) := by decide
  obtain ⟨before, hsucceeds, -, hup⟩ := hgiven (1, "B") (by decide)
  exact ⟨hstatus, hconnected hstatus, hdown, by decide, hnever _ _ hdown, before, hsucceeds, hup⟩

end Line
end NodeClient
