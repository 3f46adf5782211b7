import Mathlib.Data.List.Induction
import Mathlib.Data.List.Infix
import NodeClient.Proofs.Line.Queue

/-!
# Line staleness — who sets the status after a reconnect

A task looks whether its link is the current one, and sets the status afterwards.  A reconnect may
come between the two, and the look is not repeated: what the task sets then is stale.

* `decided`: a task has looked and not set the status yet.
* `decided_step`, `decided_of_status_ne`: a task decides only when it works for the current link,
  and sets the status only when it has decided.
* `current_run_eq_iff`: a line is still on its link if and only if nobody told it to reconnect.
* `status_set_after_look`: whoever sets the status worked for the current link when it looked, and
  the link is still the current one if and only if nobody reconnected since.
* `stale_event_loses_link`, `stale_greeting_confirms_link`: stale losses and stale confirmations
  happen.
-/

namespace NodeClient
namespace Line

/-! ### Looking and setting -/

/-- An event was found to be a loss of the current link. -/
def ForwarderPhase.isDecided : ForwarderPhase → Bool
  | .losing _ => true
  | _ => false

/-- The link of an attempt was found to be the current one. -/
def AttemptPhase.isDecided : AttemptPhase → Bool
  | .due | .greeting _ | .confirming | .losing => true
  | _ => false

/-- Whether a task has found its link to be the current one, and will not look again before it sets
the status. -/
def decided (line : Line) : Task → Bool
  | .forwarder link => (line.forwarders[link]?).any (·.phase.isDecided)
  | .attempt index => (line.attempts[index]?).any (·.phase.isDecided)
  | .drain => line.drain = .losing

/-- The link that a task works for. -/
def linkOf? (line : Line) : Task → Option Nat
  | .forwarder link => some link
  | .attempt index => (line.attempts[index]?).map (·.link)
  | .drain => line.drain.link?

/-- The calls of a schedule, of the owner and of greetings. -/
def calls (line : Line) : List Input → List Call
  | [] => []
  | i :: rest => line.callsBy i ++ (line.step i).1.calls rest

/-! ### Nobody else decides -/

/-- Between two states no task decided. -/
def NoneDecides (a b : Line) : Prop :=
  ∀ task, b.decided task = true → a.decided task = true

theorem NoneDecides.refl (line : Line) : NoneDecides line line := fun _ h => h

theorem NoneDecides.trans {a b c : Line} (h : NoneDecides a b) (h' : NoneDecides b c) :
    NoneDecides a c :=
  fun task ht => h task (h' task ht)

/-- The forwarders, the attempts and the draining task stand where they stood. -/
theorem NoneDecides.of_eq {a b : Line} (forwarders : b.forwarders = a.forwarders)
    (attempts : b.attempts = a.attempts) (drain : b.drain = a.drain) : NoneDecides a b := by
  intro task ht
  cases task <;> simpa only [decided, forwarders, attempts, drain] using ht

theorem noneDecides_setStatus (s : Status) (line : Line) :
    NoneDecides line (setStatus s line).1 := by
  rw [setStatus_fst]
  exact .of_eq rfl rfl rfl

theorem decided_setForwarder {phase : ForwarderPhase} {link : Nat} {line : Line} {task : Task}
    (h : (setForwarder link phase line).decided task = true) :
    (task = .forwarder link ∧ phase.isDecided = true) ∨ line.decided task = true := by
  cases task with
  | forwarder other =>
    by_cases hl : link = other
    · subst hl
      simp only [decided, setForwarder, List.getElem?_modify, Option.any_eq_true,
        Option.map_eq_map, Option.map_eq_some_iff] at h
      obtain ⟨_, ⟨f, hf, rfl⟩, hphase⟩ := h
      exact .inl ⟨rfl, by simpa using hphase⟩
    · exact .inr (by simpa [decided, setForwarder, List.getElem?_modify, hl] using h)
  | _ => exact .inr h

theorem decided_setAttempt {phase : AttemptPhase} {index : Nat} {line : Line} {task : Task}
    (h : (setAttempt index phase line).decided task = true) :
    (task = .attempt index ∧ phase.isDecided = true) ∨ line.decided task = true := by
  cases task with
  | attempt other =>
    by_cases hi : index = other
    · subst hi
      simp only [decided, setAttempt, List.getElem?_modify, Option.any_eq_true,
        Option.map_eq_map, Option.map_eq_some_iff] at h
      obtain ⟨_, ⟨a, ha, rfl⟩, hphase⟩ := h
      exact .inl ⟨rfl, by simpa using hphase⟩
    · exact .inr (by simpa [decided, setAttempt, List.getElem?_modify, hi] using h)
  | _ => exact .inr h

theorem decided_setDrain (line : Line) {after : Line} {task : Task} (h : after.decided task = true)
    (forwarders : after.forwarders = line.forwarders) (attempts : after.attempts = line.attempts) :
    (task = .drain ∧ after.drain = .losing) ∨ line.decided task = true := by
  cases task with
  | drain => exact .inl ⟨rfl, of_decide_eq_true h⟩
  | forwarder link => exact .inr (by simpa only [decided, forwarders] using h)
  | attempt index => exact .inr (by simpa only [decided, attempts] using h)

theorem noneDecides_setForwarder {phase : ForwarderPhase} (link : Nat) (line : Line)
    (h : phase.isDecided = false) : NoneDecides line (setForwarder link phase line) := by
  intro task ht
  rcases decided_setForwarder ht with ⟨-, hphase⟩ | ht
  · rw [h] at hphase
    cases hphase
  · exact ht

/-- An attempt is put into a phase in which it has decided only if it had. -/
theorem noneDecides_setAttempt {phase : AttemptPhase} {index : Nat} {line : Line}
    (h : phase.isDecided = true → line.decided (.attempt index) = true) :
    NoneDecides line (setAttempt index phase line) := by
  intro task ht
  rcases decided_setAttempt ht with ⟨rfl, hphase⟩ | ht
  · exact h hphase
  · exact ht

theorem noneDecides_stopForwarder (link : Nat) (line : Line) :
    NoneDecides line (stopForwarder link line) := by
  intro task ht
  cases task with
  | forwarder other =>
    simp only [decided, stopForwarder, List.getElem?_modify, Option.any_eq_true,
      Option.map_eq_map, Option.map_eq_some_iff] at ht ⊢
    obtain ⟨_, ⟨f, hf, rfl⟩, hphase⟩ := ht
    refine ⟨f, hf, ?_⟩
    split at hphase <;> exact hphase
  | _ => exact ht

theorem noneDecides_advanceAttempt {source target : AttemptPhase}
    (h : target.isDecided = true → source.isDecided = true) (line : Line) (index : Nat) :
    NoneDecides line (line.advanceAttempt index source target) := by
  unfold advanceAttempt
  split
  · next a ha =>
    split
    · next hp =>
      subst hp
      exact noneDecides_setAttempt fun ht => by rw [decided, ha]; exact h ht
    · exact .refl line
  · exact .refl line

theorem noneDecides_takeEvent (line : Line) (link : Nat) (e : LinkEvent) :
    NoneDecides line (line.takeEvent link e) := by
  unfold takeEvent
  split
  · split
    · exact noneDecides_setForwarder link line rfl
    · exact .refl line
  · exact .refl line

theorem noneDecides_sent (line : Line) (ok : Bool) : NoneDecides line (line.sent ok) := by
  intro task ht
  unfold sent at ht
  split at ht
  · split at ht <;> rcases decided_setDrain line ht rfl rfl with ⟨-, hd⟩ | ht
    · cases hd
    · exact ht
    · cases hd
    · exact ht
  · exact ht

/-- A new attempt waits. -/
theorem noneDecides_newAttempt (again : Bool) (link : Nat) (line : Line) :
    NoneDecides line { line with attempts := line.attempts ++ [{ link, again }] } := by
  intro task ht
  cases task with
  | attempt index =>
    simp only [decided, Option.any_eq_true, List.getElem?_append] at ht ⊢
    obtain ⟨a, ha, hphase⟩ := ht
    split at ha
    · exact ⟨a, ha, hphase⟩
    · obtain rfl := List.mem_singleton.mp (List.mem_of_getElem? ha)
      cases hphase
  | _ => exact ht

/-- The forwarder of a new link waits. -/
theorem noneDecides_newLink (line : Line) :
    NoneDecides line { line with forwarders := line.forwarders ++ [{}] } := by
  intro task ht
  cases task with
  | forwarder link =>
    simp only [decided, Option.any_eq_true, List.getElem?_append] at ht ⊢
    obtain ⟨f, hf, hphase⟩ := ht
    split at hf
    · exact ⟨f, hf, hphase⟩
    · obtain rfl := List.mem_singleton.mp (List.mem_of_getElem? hf)
      cases hphase
  | _ => exact ht

theorem noneDecides_startConnecting (again : Bool) (line : Line) :
    NoneDecides line (startConnecting again line).1 :=
  (noneDecides_setStatus .connecting line).trans (noneDecides_newAttempt again _ _)

theorem noneDecides_call (line : Line) (c : Call) : NoneDecides line (line.call c).1 := by
  cases c with
  | queue text => exact .of_eq rfl rfl rfl
  | connect =>
    rw [call]
    split
    · exact .refl line
    · exact noneDecides_startConnecting false line
  | disconnect => exact noneDecides_setStatus .disconnected line
  | reconnect =>
    have hreplace : NoneDecides line (replaceLink line).1 :=
      ((noneDecides_newLink line).trans (noneDecides_setStatus .connecting _)).trans
        (noneDecides_stopForwarder line.current _)
    exact hreplace.trans (noneDecides_startConnecting true _)

/-! ### Deciding, and setting the status -/

/-- What an action of a task does: at most this task decides, on the current link, and the status
changes only if it had decided. -/
structure Acts (task : Task) (a b : Line) : Prop where
  decides : ∀ t, b.decided t = true →
    a.decided t = true ∨ (t = task ∧ a.linkOf? task = some a.current)
  status : b.status = a.status ∨ a.decided task = true

theorem NoneDecides.acts {a b : Line} (h : NoneDecides a b) {task : Task}
    (status : b.status = a.status ∨ a.decided task = true) : Acts task a b :=
  ⟨fun t ht => .inl (h t ht), status⟩

theorem acts_forwarder {line : Line} {link : Nat} {next : Line × List Effect}
    (h : line.actForwarder? link = some next) : Acts (.forwarder link) line next.1 := by
  obtain ⟨f, hf, hforward⟩ := forwards_of_act h
  cases hforward with
  | leave =>
    exact ((noneDecides_setForwarder link line rfl).trans
      (noneDecides_stopForwarder link _)).acts (.inl rfl)
  | keep | pass => exact (noneDecides_setForwarder link line rfl).acts (.inl rfl)
  | blame _ _ _ hcurrent =>
    refine ⟨fun t ht => ?_, .inl rfl⟩
    rcases decided_setForwarder ht with ⟨rfl, -⟩ | ht
    · exact .inr ⟨rfl, congrArg some hcurrent.symm⟩
    · exact .inl ht
  | lose hp =>
    exact ((noneDecides_setForwarder link line rfl).trans (noneDecides_setStatus _ _)).acts
      (.inr (by rw [decided, hf, Option.any_some, hp]; rfl))

/-- An attempt whose link is the current one may be put into any phase. -/
theorem acts_setAttempt {line : Line} {index : Nat} {a : Attempt}
    (ha : line.attempts[index]? = some a) (hcurrent : line.current = a.link)
    (phase : AttemptPhase) : Acts (.attempt index) line (setAttempt index phase line) := by
  refine ⟨fun t ht => ?_, .inl rfl⟩
  rcases decided_setAttempt ht with ⟨rfl, -⟩ | ht
  · exact .inr ⟨rfl, by rw [linkOf?, ha, hcurrent]; rfl⟩
  · exact .inl ht

theorem acts_attempt {line : Line} {index : Nat} {next : Line × List Effect}
    (h : line.actAttempt? index = some next) : Acts (.attempt index) line next.1 := by
  have hover : NoneDecides line (setAttempt index .over line) := noneDecides_setAttempt nofun
  obtain ⟨a, ha, htries⟩ := tries_of_act h
  have hdecided : a.phase.isDecided = true → line.decided (.attempt index) = true := fun h => by
    rw [decided, ha]
    exact h
  cases htries with
  | quit | forgive => exact hover.acts (.inl rfl)
  | fail _ _ hlink | await _ _ hlink | skip _ _ hlink | blame _ hlink =>
    exact acts_setAttempt ha hlink _
  | finish hp =>
    have hd := hdecided (by rw [hp]; rfl)
    exact (noneDecides_setAttempt fun _ => hd).acts (.inr hd)
  | greet hp =>
    have hd := hdecided (by rw [hp]; rfl)
    exact ((noneDecides_setAttempt fun _ => hd).trans (noneDecides_call _ _)).acts (.inr hd)
  | miss hp => exact hover.acts (.inr (hdecided (by rw [hp]; rfl)))
  | confirm hp | lose hp =>
    exact (hover.trans (noneDecides_setStatus _ _)).acts (.inr (hdecided (by rw [hp]; rfl)))

theorem acts_drain {line : Line} {next : Line × List Effect}
    (h : line.actDrain? = some next) : Acts .drain line next.1 := by
  have hd := drains_of_act h
  generalize next.1 = b at hd ⊢
  have hmove : b.forwarders = line.forwarders → b.attempts = line.attempts →
      b.drain ≠ .losing → NoneDecides line b := by
    intro hforwarders hattempts hdrain t ht
    rcases decided_setDrain line ht hforwarders hattempts with ⟨-, hd⟩ | ht
    · exact absurd hd hdrain
    · exact ht
  cases hd with
  | leave | receive | see | pick | miss | finish | give | forgive =>
    exact (hmove rfl rfl nofun).acts (.inl rfl)
  | blame hd hcurrent =>
    refine ⟨fun t ht => ?_, .inl rfl⟩
    rcases decided_setDrain line ht rfl rfl with ⟨rfl, -⟩ | ht
    · exact .inr ⟨rfl, by rw [linkOf?, hd, hcurrent]; rfl⟩
    · exact .inl ht
  | lose hd => exact (hmove rfl rfl nofun).acts (.inr (by rw [decided, hd]; rfl))

theorem acts_act {line : Line} {task : Task} {next : Line × List Effect}
    (h : line.act? task = some next) : Acts task line next.1 := by
  cases task with
  | forwarder link => exact acts_forwarder h
  | attempt index => exact acts_attempt h
  | drain => exact acts_drain h

/-- **A task sets the status only when it has decided.** -/
theorem decided_of_status_ne {line : Line} {task : Task}
    (h : (line.step (.act task)).1.status ≠ line.status) : line.decided task = true := by
  cases hact : line.act? task with
  | none => exact absurd (by simp [step, hact]) h
  | some next =>
    rw [show (line.step (.act task)).1 = next.1 by simp [step, hact]] at h
    exact (acts_act hact).status.resolve_left h

/-- **A task decides only on the current link**, and in an action of its own. -/
theorem decided_step {line : Line} {i : Input} {task : Task}
    (h : (line.step i).1.decided task = true) :
    line.decided task = true ∨ (i = .act task ∧ line.linkOf? task = some line.current) := by
  have hnone : ∀ {b : Line}, NoneDecides line b → (line.step i).1 = b →
      line.decided task = true ∨ (i = .act task ∧ line.linkOf? task = some line.current) := by
    rintro b hb rfl
    exact .inl (hb task h)
  cases i with
  | call c =>
    by_cases hd : line.dropped
    · exact hnone (.refl line) (by simp [step, hd])
    · exact hnone (noneDecides_call line c) (by simp [step, hd])
  | event link e => exact hnone (noneDecides_takeEvent line link e) rfl
  | settled index opened =>
    have hwaits : (AttemptPhase.settled opened).isDecided = true →
        AttemptPhase.waiting.isDecided = true := id
    exact hnone (noneDecides_advanceAttempt hwaits line index) rfl
  | sent ok => exact hnone (noneDecides_sent line ok) rfl
  | greet index calls => exact hnone (noneDecides_advanceAttempt (fun _ => rfl) line index) rfl
  | drop =>
    by_cases hd : line.dropped
    · exact hnone (.refl line) (by simp [step, hd])
    · exact hnone (noneDecides_stopForwarder line.current { line with dropped := true })
        (by simp [step, hd, drop])
  | act t =>
    cases hact : line.act? t with
    | none => exact hnone (.refl line) (by simp [step, hact])
    | some next =>
      have hstep : (line.step (.act t)).1 = next.1 := by simp [step, hact]
      rw [hstep] at h
      rcases (acts_act hact).decides task h with h | ⟨rfl, hlink⟩
      · exact .inl h
      · exact .inr ⟨rfl, hlink⟩

/-! ### The current link -/

/-- The links of a line stay the same. -/
structure SameLinks (a b : Line) : Prop where
  current : b.current = a.current
  made : b.forwarders.length = a.forwarders.length

theorem SameLinks.refl (line : Line) : SameLinks line line := ⟨rfl, rfl⟩

/-- A call that reconnects makes a new link the current one, another one leaves the links alone. -/
theorem links_call (line : Line) (c : Call) :
    (c ≠ .reconnect ∧ SameLinks line (line.call c).1) ∨
      (c = .reconnect ∧ (line.call c).1.current = line.forwarders.length ∧
        (line.call c).1.forwarders.length = line.forwarders.length + 1) := by
  cases c with
  | queue text => exact .inl ⟨nofun, rfl, rfl⟩
  | connect =>
    refine .inl ⟨nofun, ?_⟩
    rcases line.connect_fst with h | h <;> rw [h] <;> exact ⟨rfl, rfl⟩
  | disconnect =>
    refine .inl ⟨nofun, ?_⟩
    rw [disconnect_fst]
    exact ⟨rfl, rfl⟩
  | reconnect =>
    refine .inr ⟨rfl, ?_⟩
    rw [reconnect_fst]
    exact ⟨rfl, by rw [List.length_modify, List.length_append, List.length_singleton]⟩

theorem links_advanceAttempt (line : Line) (index : Nat) (source target : AttemptPhase) :
    SameLinks line (line.advanceAttempt index source target) := by
  rcases line.advanceAttempt_cases index source target with h | h <;> rw [h] <;> exact ⟨rfl, rfl⟩

theorem links_sent (line : Line) (ok : Bool) : SameLinks line (line.sent ok) := by
  unfold sent
  split
  · split <;> exact ⟨rfl, rfl⟩
  · exact .refl line

/-- An action makes at most one call, and does with the links what the call does. -/
theorem links_act {line : Line} {task : Task} {next : Line × List Effect}
    (h : line.act? task = some next) :
    (line.callsBy (.act task) = [] ∧ SameLinks line next.1) ∨
      ∃ c b, line.callsBy (.act task) = [c] ∧ SameLinks line b ∧ next.1 = (b.call c).1 := by
  cases task with
  | forwarder link =>
    obtain ⟨status, forwarders, hlength, hnext⟩ := actForwarder_fst h
    rw [hnext]
    exact .inl ⟨rfl, rfl, hlength⟩
  | attempt index =>
    obtain ⟨a, ha, ⟨c, calls, hp, hnext⟩ | ⟨hp, status, phase, -, hnext⟩⟩ := actAttempt_cases h
    · exact .inr ⟨c, setAttempt index (.greeting calls) line, by rw [callsBy_attempt ha, hp]; rfl,
        ⟨rfl, rfl⟩, by rw [hnext]⟩
    · exact .inl ⟨by rw [callsBy_attempt ha, hp]; rfl, by rw [hnext]; exact ⟨rfl, rfl⟩⟩
  | drain =>
    obtain ⟨status, drain, hnext, -⟩ | ⟨text, rest, -, -, hnext⟩ |
      ⟨link, text, rest, -, -, hnext⟩ := actDrain_cases h <;>
      exact .inl ⟨rfl, by rw [hnext]; exact ⟨rfl, rfl⟩⟩

/-- An input makes at most one call, and does with the links what the call does. -/
theorem links_step (line : Line) (i : Input) :
    (line.callsBy i = [] ∧ SameLinks line (line.step i).1) ∨
      ∃ c b, line.callsBy i = [c] ∧ SameLinks line b ∧ (line.step i).1 = (b.call c).1 := by
  cases i with
  | call c =>
    by_cases hd : line.dropped
    · exact .inl ⟨by simp [callsBy, hd], by simpa [step, hd] using .refl line⟩
    · exact .inr ⟨c, line, by simp [callsBy, hd], .refl line, by simp [step, hd]⟩
  | event link e =>
    obtain ⟨forwarders, hlength, h⟩ := line.takeEvent_eq link e
    exact .inl ⟨rfl, by rw [step, h]; exact ⟨rfl, hlength⟩⟩
  | settled index opened => exact .inl ⟨rfl, links_advanceAttempt ..⟩
  | greet index calls => exact .inl ⟨rfl, links_advanceAttempt ..⟩
  | sent ok => exact .inl ⟨rfl, links_sent line ok⟩
  | drop =>
    refine .inl ⟨rfl, ?_⟩
    by_cases hd : line.dropped
    · simpa [step, hd] using .refl line
    · rw [step, if_neg hd]
      exact ⟨rfl, stopForwarder_length line.current { line with dropped := true }⟩
  | act task =>
    cases hact : line.act? task with
    | none => exact .inl ⟨callsBy_of_act_none hact, by simpa [step, hact] using .refl line⟩
    | some next =>
      rw [show (line.step (.act task)).1 = next.1 by simp [step, hact]]
      exact links_act hact

/-- **A step replaces the current link** if and only if it reconnects, and then by a new one. -/
theorem current_step (line : Line) (i : Input) :
    (Call.reconnect ∉ line.callsBy i ∧ SameLinks line (line.step i).1) ∨
      (Call.reconnect ∈ line.callsBy i ∧ (line.step i).1.current = line.forwarders.length ∧
        (line.step i).1.forwarders.length = line.forwarders.length + 1) := by
  rcases line.links_step i with ⟨hcalls, h⟩ | ⟨c, b, hcalls, h, hstep⟩
  · exact .inl ⟨by rw [hcalls]; exact List.not_mem_nil, h⟩
  · rw [hstep, hcalls, List.mem_singleton, ← h.made]
    rcases b.links_call c with ⟨hc, h'⟩ | ⟨rfl, h'⟩
    · exact .inl ⟨hc.symm, h'.current.trans h.current, h'.made.trans h.made⟩
    · exact .inr ⟨rfl, h'⟩

/-- A run that reconnects ends on a link that was made in it. -/
theorem current_run (line : Line) (inputs : List Input) :
    (Call.reconnect ∉ line.calls inputs ∧ (line.run inputs).1.current = line.current) ∨
      (Call.reconnect ∈ line.calls inputs ∧
        line.forwarders.length ≤ (line.run inputs).1.current) := by
  induction inputs generalizing line with
  | nil => exact .inl ⟨List.not_mem_nil, rfl⟩
  | cons i rest ih =>
    rw [run_cons_fst, calls, List.mem_append]
    rcases line.current_step i with ⟨hcalls, h⟩ | ⟨hcalls, hcurrent, hmade⟩
    · rcases ih (line.step i).1 with ⟨hrest, hrun⟩ | ⟨hrest, hrun⟩
      · exact .inl ⟨not_or_intro hcalls hrest, hrun.trans h.current⟩
      · exact .inr ⟨.inr hrest, h.made ▸ hrun⟩
    · refine .inr ⟨.inl hcalls, ?_⟩
      rcases ih (line.step i).1 with ⟨-, hrun⟩ | ⟨-, hrun⟩ <;> omega

/-- The current link was made. -/
theorem current_lt_run {line : Line} (h : line.current < line.forwarders.length)
    (inputs : List Input) :
    (line.run inputs).1.current < (line.run inputs).1.forwarders.length := by
  induction inputs generalizing line with
  | nil => exact h
  | cons i rest ih =>
    refine ih ?_
    rcases line.current_step i with ⟨-, h'⟩ | ⟨-, hcurrent, hmade⟩
    · rw [h'.current, h'.made]
      exact h
    · omega

/-- **A line is still on its link** if and only if nobody told it to reconnect. -/
theorem current_run_eq_iff {line : Line} (h : line.current < line.forwarders.length)
    (inputs : List Input) :
    (line.run inputs).1.current = line.current ↔ Call.reconnect ∉ line.calls inputs := by
  rcases line.current_run inputs with ⟨hcalls, hrun⟩ | ⟨hcalls, hrun⟩
  · exact iff_of_true hrun hcalls
  · exact iff_of_false (by omega) (not_not_intro hcalls)

/-! ### From the look to the status -/

/-- A task looked after `before`, and has not set the status in `since`. -/
structure LookedAt (start : Line) (task : Task) (before since : List Input) : Prop where
  undecided : (start.run before).1.decided task = false
  /-- When it looked it worked for the current link. -/
  current : (start.run before).1.linkOf? task = some (start.run before).1.current
  /-- Ever since it has decided. -/
  decided : ∀ first rest, since = first ++ rest →
    (start.run (before ++ .act task :: first)).1.decided task = true

theorem exists_lookedAt {start : Line} {task : Task} (hstart : start.decided task = false)
    {inputs : List Input} (h : (start.run inputs).1.decided task = true) :
    ∃ before since, inputs = before ++ .act task :: since ∧ LookedAt start task before since := by
  induction inputs using List.reverseRecOn with
  | nil =>
    rw [run_nil, hstart] at h
    cases h
  | append_singleton inputs i ih =>
    -- the last look counts: it is `i` only if the task had not decided before
    by_cases hd : (start.run inputs).1.decided task = true
    · obtain ⟨before, since, rfl, hlook⟩ := ih hd
      refine ⟨before, since ++ [i], by simp, hlook.undecided, hlook.current,
        fun first rest hsplit => ?_⟩
      rcases List.eq_nil_or_concat rest with rfl | ⟨rest, last, rfl⟩
      · rw [List.append_nil] at hsplit
        rw [← hsplit, ← List.cons_append, ← List.append_assoc]
        exact h
      · rw [List.concat_eq_append, ← List.append_assoc] at hsplit
        exact hlook.decided first rest (List.append_inj_left' hsplit rfl)
    · rw [run_append_fst] at h
      rcases decided_step h with h' | ⟨rfl, hcurrent⟩
      · exact absurd h' hd
      · refine ⟨inputs, [], rfl, Bool.eq_false_iff.mpr hd, hcurrent, fun first rest hsplit => ?_⟩
        obtain ⟨rfl, rfl⟩ := List.append_eq_nil_iff.mp hsplit.symm
        rw [run_append_fst]
        exact h

/-- A task that looks makes no call. -/
theorem callsBy_of_undecided {line : Line} {task : Task} (h : line.decided task = false) :
    line.callsBy (.act task) = [] := by
  cases task with
  | attempt index =>
    cases ha : line.attempts[index]? with
    | none => simp only [callsBy, ha]
    | some a =>
      rw [callsBy_attempt ha]
      simp only [decided, ha, Option.any_some] at h
      cases hp : a.phase with
      | greeting calls =>
        rw [hp] at h
        cases h
      | _ => rfl
  | _ => rfl

/-- **Whoever sets the status has looked before**: after any schedule, a task that changes the
status found, when it looked last, that it worked for the current link.  That link is still the
current one if and only if nobody has told the line to reconnect since; nothing else in the time
between the look and the status makes a difference. -/
theorem status_set_after_look (greets : Bool) (inputs : List Input) (task : Task)
    (h : let line := (run { greets } inputs).1
      (line.step (.act task)).1.status ≠ line.status) :
    let start : Line := { greets }
    ∃ before since, inputs = before ++ .act task :: since ∧ LookedAt start task before since ∧
      ((start.run inputs).1.current = (start.run before).1.current ↔
        Call.reconnect ∉ ((start.run before).1.step (.act task)).1.calls since) := by
  intro start
  have hstart : start.decided task = false := by
    cases task with
    | forwarder link => cases link <;> rfl
    | _ => rfl
  obtain ⟨before, since, rfl, hlook⟩ := exists_lookedAt hstart (decided_of_status_ne h)
  refine ⟨before, since, rfl, hlook, ?_⟩
  have hmade : (start.run before).1.current < (start.run before).1.forwarders.length :=
    current_lt_run Nat.zero_lt_one before
  obtain ⟨-, hlinks⟩ | ⟨c, b, hcalls, -⟩ := (start.run before).1.links_step (.act task)
  · rw [run_append_fst, run_cons_fst, ← hlinks.current]
    refine current_run_eq_iff ?_ since
    rw [hlinks.current, hlinks.made]
    exact hmade
  · rw [callsBy_of_undecided hlook.undecided] at hcalls
    cases hcalls

/-- The greeting of a link reconnects. -/
def greetingReplaces : List Input :=
  [.call .reconnect, .settled 0 true, .act (.attempt 0), .greet 0 [.reconnect], .act (.attempt 0),
    .act (.attempt 0)]

/-- A greeting replaces the link that it greets: the next one is told to be connected before it has
opened, by the attempt that greeted, which looked before it was replaced. -/
theorem stale_greeting_confirms_link :
    let start : Line := { greets := true }
    let line := (start.run greetingReplaces).1
    line.current = 2 ∧ line.attempts[1]? = some { link := 2, again := true, phase := .waiting } ∧
      line.linkOf? (.attempt 0) = some 1 ∧
      (line.step (.act (.attempt 0))).1.status = .connected ∧
      ∃ before since, greetingReplaces = before ++ .act (.attempt 0) :: since ∧
        LookedAt start (.attempt 0) before since ∧
        Call.reconnect ∈ ((start.run before).1.step (.act (.attempt 0))).1.calls since := by
  intro start line
  obtain ⟨before, since, hsplit, hlook, hstays⟩ :=
    status_set_after_look true greetingReplaces (.attempt 0) (by decide)
  refine ⟨by decide, by decide, by decide, by decide, before, since, hsplit, hlook, ?_⟩
  by_contra hnone
  -- without a reconnect the attempt looked on the last link, and it never works for that one
  have hlast : (start.run before).1.linkOf? (.attempt 0) = some 2 := by
    rw [hlook.current, ← hstays.mpr hnone]
    decide
  have hprefix : before ∈ greetingReplaces.inits := (List.mem_inits _ _).mpr ⟨_, hsplit.symm⟩
  have hother : ∀ first ∈ greetingReplaces.inits,
      (start.run first).1.linkOf? (.attempt 0) ≠ some 2 := by
    decide
  exact hother before hprefix hlast

/-- An event of the first link is found to be a loss, then the link is replaced: the loss is told of
the next one, which is about to connect. -/
theorem stale_event_loses_link :
    let line := (run {} [.event 0 .closed, .act (.forwarder 0), .call .reconnect]).1
    line.current = 1 ∧ line.status = .connecting ∧
      (line.step (.act (.forwarder 0))).1.status = .disconnected := by
  decide

end Line
end NodeClient
