import Mathlib.Data.List.Destutter
import NodeClient.Proofs.Line.Staleness
import NodeClient.Proofs.Mailbox

/-!
# Line history — the statuses that a line tells

Calls, forwarders, attempts and the draining task all set the status of a line, in any order.  A
line tells every change of its status, and nothing else.

* `Shifts`: what an operation does to the status, by the calls that it makes, and that it tells it.
* `shifts_step`: every step is such an operation.
* `history_eq`, `isChain_history`: the history of a run is what is left of its statuses without
  repetitions, and it keeps to the moves of `Status.Leads`.
* `disconnected_run`: a line that is disconnected stays so until somebody connects it.
* `status_history_is_legal`: every history is a legal path, and whoever disconnects wins.
-/

namespace NodeClient

/-- How the status may change. -/
inductive Status.Leads : Status → Status → Prop
  | start {s : Status} (h : s ≠ .connecting) : Leads s .connecting
  | confirm : Leads .connecting .connected
  | lose {s : Status} (h : s ≠ .disconnected) : Leads s .disconnected

namespace Line

/-- The status that an effect tells. -/
def Effect.status? : Effect → Option Status
  | .status s => some s
  | _ => none

/-- The statuses that a run tells. -/
def history (line : Line) (inputs : List Input) : List Status :=
  (line.run inputs).2.filterMap Effect.status?

/-- The status after each step of a run. -/
def statuses (line : Line) : List Input → List Status
  | [] => []
  | i :: rest => (line.step i).1.status :: (line.step i).1.statuses rest

/-! ### One operation -/

/-- How an operation may change the status, by the calls that it makes. -/
inductive Moves (calls : List Call) : Status → Status → Prop
  | stay (s : Status) : Moves calls s s
  | lose (s : Status) : Moves calls s .disconnected
  | connect {s : Status} (hc : .connect ∈ calls) (h : s ≠ .connected) : Moves calls s .connecting
  | reconnect (s : Status) (hc : .reconnect ∈ calls) : Moves calls s .connecting
  | confirm : Moves calls .connecting .connected

/-- An operation changes the status in a way that its calls allow, and tells it if it changed. -/
structure Shifts (calls : List Call) (line : Line) (next : Line × List Effect) : Prop where
  moves : Moves calls line.status next.1.status
  told : next.2.filterMap Effect.status? =
    if line.status = next.1.status then [] else [next.1.status]

theorem shifts_stay {calls : List Call} {line : Line} {next : Line × List Effect}
    (status : next.1.status = line.status) (told : next.2.filterMap Effect.status? = []) :
    Shifts calls line next := by
  refine ⟨?_, ?_⟩
  · rw [status]
    exact .stay _
  · rw [told, status, if_pos rfl]

/-- The status is set on a line that has changed in other ways. -/
theorem shifts_setStatus {calls : List Call} {line b : Line} {s : Status}
    (status : b.status = line.status) (moves : Moves calls line.status s) :
    Shifts calls line (setStatus s b) := by
  refine ⟨?_, ?_⟩
  · rw [setStatus_fst]
    exact moves
  · rw [setStatus_fst, setStatus, status]
    split
    · rfl
    · rfl

theorem shifts_call (line : Line) (c : Call) : Shifts [c] line (line.call c) := by
  cases c with
  | queue text => exact shifts_stay rfl rfl
  | connect =>
    rw [call]
    split
    · exact shifts_stay rfl rfl
    · next hidle =>
      have hset : Shifts [Call.connect] line (setStatus .connecting line) :=
        shifts_setStatus rfl (.connect (.head _) fun hs => hidle (.inr hs))
      refine ⟨hset.moves, ?_⟩
      show ((setStatus .connecting line).2 ++ [_]).filterMap Effect.status? = _
      rw [List.filterMap_append, hset.told]
      exact List.append_nil _
  | disconnect =>
    have hset : Shifts [Call.disconnect] line (setStatus .disconnected line) :=
      shifts_setStatus rfl (.lose _)
    refine ⟨hset.moves, ?_⟩
    show ((setStatus .disconnected line).2 ++ [_]).filterMap Effect.status? = _
    rw [List.filterMap_append, hset.told]
    exact List.append_nil _
  | reconnect =>
    have hstatus : (line.call .reconnect).1.status = .connecting := by rw [reconnect_fst]
    refine ⟨hstatus ▸ .reconnect _ (.head _), ?_⟩
    rw [hstatus]
    -- the status is set twice, and changes at most once
    by_cases hs : line.status = .connecting
    · simp [call, replaceLink, startConnecting, setStatus, andThen, stopForwarder, hs]
      exact ⟨rfl, rfl, rfl⟩
    · simp [call, replaceLink, startConnecting, setStatus, andThen, stopForwarder, hs]
      rfl

/-! ### Tasks -/

theorem shifts_forwarder {line : Line} {link : Nat} {next : Line × List Effect}
    (h : line.actForwarder? link = some next) : Shifts [] line next := by
  obtain ⟨f, -, hforward⟩ := forwards_of_act h
  cases hforward with
  | leave | keep | blame | pass => exact shifts_stay rfl rfl
  | lose => exact shifts_setStatus rfl (.lose _)

theorem shifts_attempt {line : Line} {index : Nat} {next : Line × List Effect}
    (h : line.actAttempt? index = some next) :
    Shifts (line.callsBy (.act (.attempt index))) line next := by
  obtain ⟨a, ha, htries⟩ := tries_of_act h
  cases htries with
  | quit | fail | await | skip | finish | miss | blame | forgive => exact shifts_stay rfl rfl
  | @greet c calls hp =>
    have hcall := (setAttempt index (.greeting calls) line).shifts_call c
    rw [callsBy_attempt ha, hp]
    exact ⟨hcall.moves, hcall.told⟩
  | confirm _ hs => exact shifts_setStatus rfl (hs ▸ .confirm)
  | lose => exact shifts_setStatus rfl (.lose _)

theorem shifts_drain {line : Line} {next : Line × List Effect}
    (h : line.actDrain? = some next) : Shifts [] line next := by
  rcases actDrain_effects h with
    ⟨link, text, -, -, heffects, hstatus⟩ | ⟨-, rfl⟩ | ⟨-, heffects, hstatus⟩
  · exact shifts_stay hstatus (by rw [heffects]; rfl)
  · exact shifts_setStatus rfl (.lose _)
  · exact shifts_stay hstatus (by rw [heffects]; rfl)

theorem shifts_act {line : Line} {task : Task} {next : Line × List Effect}
    (h : line.act? task = some next) : Shifts (line.callsBy (.act task)) line next := by
  cases task with
  | forwarder link => exact shifts_forwarder h
  | attempt index => exact shifts_attempt h
  | drain => exact shifts_drain h

/-- **A step changes the status only in a legal way**, and tells every change once. -/
theorem shifts_step (line : Line) (i : Input) : Shifts (line.callsBy i) line (line.step i) := by
  cases i with
  | call c =>
    by_cases hd : line.dropped
    · rw [step, if_pos hd]
      exact shifts_stay rfl rfl
    · rw [step, if_neg hd, callsBy, if_neg hd]
      exact line.shifts_call c
  | event link e =>
    obtain ⟨forwarders, -, heq⟩ := line.takeEvent_eq link e
    rw [step, heq]
    exact shifts_stay rfl rfl
  | settled index opened =>
    rcases line.advanceAttempt_cases index .waiting (.settled opened) with h | h <;>
      rw [step, h] <;> exact shifts_stay rfl rfl
  | greet index calls =>
    rcases line.advanceAttempt_cases index .due (.greeting calls) with h | h <;>
      rw [step, h] <;> exact shifts_stay rfl rfl
  | sent ok =>
    rw [step, sent]
    split
    · split <;> exact shifts_stay rfl rfl
    · exact shifts_stay rfl rfl
  | drop =>
    by_cases hd : line.dropped
    · rw [step, if_pos hd]
      exact shifts_stay rfl rfl
    · rw [step, if_neg hd]
      exact shifts_stay rfl rfl
  | act task =>
    rw [step]
    cases hact : line.act? task with
    | none => exact shifts_stay rfl rfl
    | some next => exact shifts_act hact

/-! ### Histories -/

@[simp] theorem history_nil (line : Line) : line.history [] = [] := rfl

/-- The history of a run, step by step. -/
theorem history_cons (line : Line) (i : Input) (rest : List Input) :
    line.history (i :: rest) =
      (if line.status = (line.step i).1.status then [] else [(line.step i).1.status]) ++
        (line.step i).1.history rest := by
  rw [← (line.shifts_step i).told]
  exact List.filterMap_append

/-- **The history of a run is what is left of its statuses without repetitions.** -/
theorem history_eq (line : Line) (inputs : List Input) :
    line.status :: line.history inputs =
      (line.status :: line.statuses inputs).destutter (· ≠ ·) := by
  induction inputs generalizing line with
  | nil => rfl
  | cons i rest ih =>
    have hrest := ih (line.step i).1
    rw [List.destutter_cons'] at hrest ⊢
    rw [statuses, history_cons]
    by_cases hs : line.status = (line.step i).1.status
    · rw [if_pos hs, List.destutter'_cons_neg _ (not_not_intro hs), List.nil_append, hs]
      exact hrest
    · rw [if_neg hs, List.destutter'_cons_pos _ hs, ← hrest]
      rfl

theorem Moves.leads {calls : List Call} {s t : Status} (h : Moves calls s t) (hne : s ≠ t) :
    s.Leads t := by
  cases h with
  | stay => exact absurd rfl hne
  | lose => exact .lose hne
  | connect => exact .start hne
  | reconnect => exact .start hne
  | confirm => exact .confirm

/-- **Every history keeps to the moves.** -/
theorem isChain_history (line : Line) (inputs : List Input) :
    (line.status :: line.history inputs).IsChain Status.Leads := by
  induction inputs generalizing line with
  | nil => exact .singleton _
  | cons i rest ih =>
    have hrest := ih (line.step i).1
    rw [history_cons]
    by_cases hs : line.status = (line.step i).1.status
    · rw [if_pos hs, List.nil_append, hs]
      exact hrest
    · rw [if_neg hs]
      exact .cons_cons ((line.shifts_step i).moves.leads hs) hrest

theorem ne_unconnected_of_leads {s t : Status} (h : s.Leads t) : t ≠ .unconnected := by
  cases h <;> nofun

theorem ne_unconnected_of_mem_history {line : Line} {inputs : List Input} {s : Status}
    (h : s ∈ line.history inputs) : s ≠ .unconnected := by
  induction inputs generalizing line with
  | nil => cases h
  | cons i rest ih =>
    rw [history_cons] at h
    rcases List.mem_append.mp h with h | h
    · by_cases hs : line.status = (line.step i).1.status
      · rw [if_pos hs] at h
        cases h
      · rw [if_neg hs] at h
        obtain rfl := List.mem_singleton.mp h
        exact ne_unconnected_of_leads ((line.shifts_step i).moves.leads hs)
    · exact ih h

/-! ### Disconnected lines -/

theorem Moves.disconnected {calls : List Call} {s : Status} (h : Moves calls .disconnected s)
    (hconnect : .connect ∉ calls) (hreconnect : .reconnect ∉ calls) : s = .disconnected := by
  cases h with
  | stay => rfl
  | lose => rfl
  | connect hc => exact absurd hc hconnect
  | reconnect _ hc => exact absurd hc hreconnect

/-- **A disconnected line stays disconnected** until somebody connects it. -/
theorem disconnected_run {line : Line} (hs : line.status = .disconnected) {inputs : List Input}
    (hconnect : .connect ∉ line.calls inputs) (hreconnect : .reconnect ∉ line.calls inputs) :
    (line.run inputs).1.status = .disconnected ∧ line.history inputs = [] := by
  induction inputs generalizing line with
  | nil => exact ⟨hs, rfl⟩
  | cons i rest ih =>
    obtain ⟨hfirst, hlater⟩ := not_or.mp (List.mem_append.not.mp hconnect)
    obtain ⟨hfirst', hlater'⟩ := not_or.mp (List.mem_append.not.mp hreconnect)
    have hmoves := (line.shifts_step i).moves
    rw [hs] at hmoves
    have hstep := hmoves.disconnected hfirst hfirst'
    obtain ⟨hrun, hnone⟩ := ih hstep hlater hlater'
    refine ⟨hrun, ?_⟩
    rw [history_cons, hs, hstep, if_pos rfl]
    exact hnone

/-- A call that is made in a step is the last that happens in it. -/
theorem step_of_call {line : Line} {i : Input} {c : Call} (h : c ∈ line.callsBy i) :
    ∃ b : Line, (line.step i).1 = (b.call c).1 := by
  rcases line.links_step i with ⟨hcalls, -⟩ | ⟨c', b, hcalls, -, hstep⟩
  · rw [hcalls] at h
    cases h
  · rw [hcalls] at h
    obtain rfl := List.mem_singleton.mp h
    exact ⟨b, hstep⟩

/-- Whoever disconnects a line leaves it disconnected. -/
theorem disconnected_step {line : Line} {i : Input} (h : .disconnect ∈ line.callsBy i) :
    (line.step i).1.status = .disconnected := by
  obtain ⟨b, hstep⟩ := step_of_call h
  rw [hstep, disconnect_fst]

/-! ### The whole history -/

/-- The mailbox of somebody who follows the changes of the status. -/
def updates : Mailbox Status where
  capacity := 64
  wanted _ := true

/-- **Every history is a legal path, and whoever disconnects wins.**  For any run of a line, from
any state on:

* The line tells the changes of its status: what is left of the statuses without repetitions.
* Somebody who follows these updates, and is never too far behind, receives just these changes, in
  this order, up to those that he has not asked for.
* They only follow the moves of `Status.Leads`.  So `connected` comes after `connecting`, no status
  comes twice in a row, and none is `unconnected`.
* From a call that disconnects until the next one that connects, the line stays disconnected and
  tells nothing. -/
theorem status_history_is_legal (line : Line) (inputs : List Input) :
    line.status :: line.history inputs =
        (line.status :: line.statuses inputs).destutter (· ≠ ·) ∧
      (∀ mail : List (Mail Status), Mailbox.arrived mail = line.history inputs →
        updates.Prompt [] mail →
        updates.given [] mail ++ updates.kept [] mail = line.history inputs) ∧
      (line.status :: line.history inputs).IsChain Status.Leads ∧
      (∀ s ∈ line.history inputs, s ≠ .unconnected) ∧
      (∀ before i since after, inputs = before ++ i :: (since ++ after) →
        .disconnect ∈ (line.run before).1.callsBy i →
        .connect ∉ ((line.run before).1.step i).1.calls since →
        .reconnect ∉ ((line.run before).1.step i).1.calls since →
        (((line.run before).1.step i).1.run since).1.status = .disconnected ∧
          ((line.run before).1.step i).1.history since = []) := by
  refine ⟨line.history_eq inputs, fun mail harrived hprompt => ?_, line.isChain_history inputs,
    fun s hs => ne_unconnected_of_mem_history hs,
    fun before i since after _ hcall hconnect hrenew => ?_⟩
  · have hgiven := updates.given_of_prompt hprompt
    have hall : ∀ items : List Status, items.filter updates.wanted = items := fun items =>
      List.filter_true items
    rw [hall, hall, harrived] at hgiven
    exact hgiven
  · exact disconnected_run (disconnected_step hcall) hconnect hrenew

/-- A handshake that succeeds after somebody has disconnected the line. -/
def lateHandshake : List Input :=
  [.call .connect, .call .disconnect, .settled 0 true, .act (.attempt 0), .act (.attempt 0)]

/-- It does not connect the line, and somebody who reads at once receives the changes before it. -/
theorem late_handshake_is_ignored :
    updates.given [] [.item .connecting, .read, .item .disconnected, .read] =
        history {} lateHandshake ∧
      (run {} lateHandshake).1.status = .disconnected := by
  obtain ⟨-, hreceived, -, -, hstays⟩ := status_history_is_legal {} lateHandshake
  have hprompt : updates.Prompt [] [.item .connecting, .read, .item .disconnected, .read] :=
    updates.prompt_of_length (by decide)
  have hall := hreceived _ (by decide) hprompt
  have hkept : updates.kept [] [.item .connecting, .read, .item .disconnected, .read] = [] := rfl
  rw [hkept, List.append_nil] at hall
  obtain ⟨hlast, -⟩ := hstays [.call .connect] (.call .disconnect) (lateHandshake.drop 2) [] rfl
    (by decide) (by decide) (by decide)
  exact ⟨hall, hlast⟩

end Line
end NodeClient
