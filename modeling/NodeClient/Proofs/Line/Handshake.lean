import NodeClient.Proofs.Line.History
import NodeClient.Proofs.Line.Uninterrupted

/-!
# Line handshake — when an attempt greets its link

The attempt of a reconnect greets its link once the link has opened, and then confirms that the line
is connected.  It looks whether the link is the current one before it greets it, but not whether the
line is still connecting.

* `advance_step`: how an input moves the attempts that are there; `attempts_call`: which come.
* `known_run`: where an attempt came from, and what it was told of its link.
* `due_link_run`: who is due for a greeting is on the current link.
* `turn_of_due`: what an attempt does from its greeting on.
* `greeted_soundly_iff`: an attempt greets its link at most once, and only if a reconnect made it
  and it opened; the line then becomes connected just if its status was not set since the reconnect.
* `closed_link_is_greeted`: a link that was closed before is greeted nevertheless.
-/

namespace NodeClient
namespace Line

variable {line b : Line} {i : Input}

/-! ### How attempts go on -/

/-- What an input reports to an attempt. -/
def Input.report? (k : Nat) : Input → Option Bool
  | .settled index opened => if index = k then some opened else none
  | _ => none

/-- What is first reported to an attempt: whether its link opened. -/
def report? (k : Nat) (inputs : List Input) : Option Bool :=
  inputs.findSome? (Input.report? k)

/-- How an attempt goes on, as long as it may come to a greeting. -/
inductive Advances (line : Line) (i : Input) (k : Nat) (a : Attempt) : AttemptPhase → Prop
  | rest (h : a.phase = .waiting → i.report? k = none) : Advances line i k a a.phase
  | settle {opened : Bool} (hp : a.phase = .waiting) (hi : i.report? k = some opened) :
    Advances line i k a (.settled opened)
  /-- The link opened, and is the current one. -/
  | await (hp : a.phase = .settled true) (hagain : a.again = true) (hlink : a.link = line.current)
    (hi : line.callsBy i = []) : Advances line i k a .due
  /-- It greets the link, or will not greet it any more. -/
  | leave {phase : AttemptPhase} (hnot : phase.isComing = false) : Advances line i k a phase

/-- The attempts of a line have gone on. -/
structure Advance (line : Line) (i : Input) (b : Line) : Prop where
  length : b.attempts.length = line.attempts.length
  phase : ∀ {k : Nat} {a : Attempt}, line.attempts[k]? = some a →
    ∃ phase, b.attempts[k]? = some { a with phase } ∧ Advances line i k a phase

theorem advance_same (attempts : b.attempts = line.attempts)
    (h : ∀ (k : Nat) (a : Attempt), line.attempts[k]? = some a → a.phase = .waiting →
      i.report? k = none) : Advance line i b := by
  refine ⟨congrArg List.length attempts, fun {k a} ha => ⟨a.phase, ?_, .rest (h k a ha)⟩⟩
  rw [attempts]
  exact ha

/-- One attempt goes on. -/
theorem advance_one {index : Nat} {a : Attempt} {phase : AttemptPhase}
    (found : line.attempts[index]? = some a)
    (attempts : b.attempts = (setAttempt index phase line).attempts)
    (h : Advances line i index a phase) (hothers : ∀ k, index ≠ k → i.report? k = none) :
    Advance line i b := by
  refine ⟨?_, fun {k a'} ha' => ?_⟩
  · rw [attempts]
    exact List.length_modify _ _ _
  · by_cases hk : index = k
    · subst hk
      obtain rfl := Option.some.inj (found.symm.trans ha')
      refine ⟨phase, ?_, h⟩
      rw [attempts]
      exact getElem?_setAttempt_self found phase
    · refine ⟨a'.phase, ?_, .rest fun _ => hothers k hk⟩
      rw [attempts, getElem?_setAttempt, ha', Option.map_some, if_neg hk]

/-- An attempt acts, and does not come to a greeting any more. -/
theorem advance_leave {index : Nat} {a : Attempt} (phase : AttemptPhase)
    (found : line.attempts[index]? = some a) (hnot : phase.isComing = false) :
    Advance line (.act (.attempt index)) (setAttempt index phase line) :=
  advance_one found rfl (.leave hnot) fun _ _ => rfl

/-- An action of an attempt moves it on, and then makes the call that it is about to make. -/
theorem advance_act {index : Nat} {next : Line × List Effect}
    (h : line.actAttempt? index = some next) :
    ∃ b, Advance line (.act (.attempt index)) b ∧
      ((line.callsBy (.act (.attempt index)) = [] ∧ next.1.attempts = b.attempts) ∨
        ∃ c, line.callsBy (.act (.attempt index)) = [c] ∧ next.1 = (b.call c).1) := by
  obtain ⟨a, ha, htries⟩ := tries_of_act h
  have hcalls := callsBy_attempt ha
  cases htries with
  | quit hp | miss hp | forgive hp =>
    rw [hp] at hcalls
    exact ⟨_, advance_leave .over ha rfl, .inl ⟨hcalls, rfl⟩⟩
  | fail hp =>
    rw [hp] at hcalls
    exact ⟨_, advance_leave .failing ha rfl, .inl ⟨hcalls, rfl⟩⟩
  | await hp _ hlink hagain =>
    rw [hp] at hcalls
    have hphase : Advances line (.act (.attempt index)) index a .due :=
      .await hp hagain hlink.symm hcalls
    exact ⟨_, advance_one ha rfl hphase fun _ _ => rfl, .inl ⟨hcalls, rfl⟩⟩
  | skip hp | finish hp =>
    rw [hp] at hcalls
    exact ⟨_, advance_leave .confirming ha rfl, .inl ⟨hcalls, rfl⟩⟩
  | greet hp =>
    rw [hp] at hcalls
    exact ⟨_, advance_leave (.greeting _) ha rfl, .inr ⟨_, hcalls, rfl⟩⟩
  | blame hp =>
    rw [hp] at hcalls
    exact ⟨_, advance_leave .losing ha rfl, .inl ⟨hcalls, rfl⟩⟩
  | confirm hp | lose hp =>
    rw [hp] at hcalls
    refine ⟨_, advance_leave .over ha rfl, .inl ⟨hcalls, ?_⟩⟩
    rw [setStatus_fst]

/-- **An input moves the attempts on**, and then makes at most one call. -/
theorem advance_step (line : Line) (i : Input) :
    ∃ b, Advance line i b ∧
      ((line.callsBy i = [] ∧ (line.step i).1.attempts = b.attempts) ∨
        ∃ c, line.callsBy i = [c] ∧ (line.step i).1 = (b.call c).1) := by
  have hquiet : ∀ {b : Line}, b.attempts = line.attempts → (∀ k, i.report? k = none) →
      Advance line i b := fun attempts h => advance_same attempts fun k _ _ _ => h k
  cases i with
  | call c =>
    by_cases hd : line.dropped
    · exact ⟨line, hquiet rfl fun _ => rfl, .inl ⟨by simp [callsBy, hd], by simp [step, hd]⟩⟩
    · exact ⟨line, hquiet rfl fun _ => rfl, .inr ⟨c, by simp [callsBy, hd], by simp [step, hd]⟩⟩
  | event link e =>
    obtain ⟨forwarders, -, heq⟩ := line.takeEvent_eq link e
    exact ⟨line, hquiet rfl fun _ => rfl, .inl ⟨rfl, by rw [step, heq]⟩⟩
  | settled index opened =>
    refine ⟨(line.step (.settled index opened)).1, ?_, .inl ⟨rfl, rfl⟩⟩
    have hother : ∀ k, index ≠ k → (Input.settled index opened).report? k = none := fun k hk =>
      if_neg hk
    rw [step, advanceAttempt]
    cases ha : line.attempts[index]? with
    | none =>
      refine advance_same rfl fun k a hk _ => hother k fun heq => ?_
      rw [← heq, ha] at hk
      cases hk
    | some a =>
      by_cases hp : a.phase = .waiting
      · dsimp only
        rw [if_pos hp]
        exact advance_one ha rfl (.settle hp (if_pos rfl)) hother
      · dsimp only
        rw [if_neg hp]
        refine advance_same rfl fun k a' hk hwaiting => hother k fun heq => ?_
        rw [← heq, ha] at hk
        obtain rfl := Option.some.inj hk
        exact hp hwaiting
  | greet index calls =>
    refine ⟨(line.step (.greet index calls)).1, ?_, .inl ⟨rfl, rfl⟩⟩
    rw [step, advanceAttempt]
    split
    · next a ha =>
      split
      · exact advance_one ha rfl (.leave rfl) fun _ _ => rfl
      · exact hquiet rfl fun _ => rfl
    · exact hquiet rfl fun _ => rfl
  | sent ok =>
    refine ⟨line, hquiet rfl fun _ => rfl, .inl ⟨rfl, ?_⟩⟩
    rw [step, sent]
    split
    · split <;> rfl
    · rfl
  | drop =>
    refine ⟨line, hquiet rfl fun _ => rfl, .inl ⟨rfl, ?_⟩⟩
    rw [step]
    split <;> rfl
  | act task =>
    rw [step]
    cases hact : line.act? task with
    | none => exact ⟨line, hquiet rfl fun _ => rfl, .inl ⟨callsBy_of_act_none hact, rfl⟩⟩
    | some next =>
      cases task with
      | forwarder link =>
        obtain ⟨status, forwarders, -, hnext⟩ := actForwarder_fst hact
        exact ⟨line, hquiet rfl fun _ => rfl, .inl ⟨rfl, by rw [Option.getD_some, hnext]⟩⟩
      | attempt index => exact advance_act hact
      | drain =>
        have hdrains := drains_of_act hact
        refine ⟨line, hquiet rfl fun _ => rfl, .inl ⟨rfl, ?_⟩⟩
        rw [Option.getD_some]
        generalize next.1 = after at hdrains ⊢
        cases hdrains <;> rfl

/-! ### Attempts that come -/

/-- A call may start an attempt on the current link; one that reconnects always does. -/
theorem attempts_call (line : Line) (c : Call) :
    (c ≠ .reconnect ∧ (line.call c).1.attempts = line.attempts) ∨
      ∃ again, (again = true ↔ c = .reconnect) ∧
        (line.call c).1.attempts =
          line.attempts ++ [{ link := (line.call c).1.current, again }] := by
  cases c with
  | queue text => exact .inl ⟨nofun, rfl⟩
  | connect =>
    rcases line.connect_fst with h | h
    · exact .inl ⟨nofun, by rw [h]⟩
    · exact .inr ⟨false, by simp, by rw [h]⟩
  | disconnect => exact .inl ⟨nofun, by rw [disconnect_fst]⟩
  | reconnect => exact .inr ⟨true, by simp, by rw [reconnect_fst]⟩

/-- The attempts after a step: those of before, and maybe one that has just come. -/
theorem attempts_step (line : Line) (i : Input) :
    ∃ b, Advance line i b ∧
      ((.reconnect ∉ line.callsBy i ∧ (line.step i).1.attempts = b.attempts) ∨
        ∃ again, (again = true ↔ .reconnect ∈ line.callsBy i) ∧
          (line.step i).1.attempts =
            b.attempts ++ [{ link := (line.step i).1.current, again }]) := by
  obtain ⟨b, hadvance, ⟨hcalls, hattempts⟩ | ⟨c, hcalls, hstep⟩⟩ := line.advance_step i
  · refine ⟨b, hadvance, .inl ⟨?_, hattempts⟩⟩
    rw [hcalls]
    exact List.not_mem_nil
  · refine ⟨b, hadvance, ?_⟩
    rw [hstep, hcalls, List.mem_singleton]
    rcases b.attempts_call c with ⟨hc, h⟩ | ⟨again, hagain, h⟩
    · exact .inl ⟨Ne.symm hc, h⟩
    · exact .inr ⟨again, hagain.trans eq_comm, h⟩

/-- An attempt that is there goes on. -/
theorem phase_step {k : Nat} {a : Attempt} (ha : line.attempts[k]? = some a) :
    ∃ phase, (line.step i).1.attempts[k]? = some { a with phase } ∧ Advances line i k a phase := by
  obtain ⟨b, hadvance, hattempts⟩ := line.attempts_step i
  obtain ⟨phase, hphase, h⟩ := hadvance.phase ha
  refine ⟨phase, ?_, h⟩
  rcases hattempts with ⟨-, h⟩ | ⟨again, -, h⟩
  · rw [h, hphase]
  · rw [h, List.getElem?_append_left (List.getElem?_eq_some_iff.mp hphase).1, hphase]

/-- An attempt that was not there has just come. -/
theorem newcomer_of_step {k : Nat} {a : Attempt} (ha : (line.step i).1.attempts[k]? = some a)
    (hnone : line.attempts[k]? = none) :
    line.attempts.length = k ∧ ∃ again, (again = true ↔ .reconnect ∈ line.callsBy i) ∧
      a = { link := (line.step i).1.current, again } := by
  have hle := List.getElem?_eq_none_iff.mp hnone
  have hlt := (List.getElem?_eq_some_iff.mp ha).1
  obtain ⟨b, hadvance, ⟨-, h⟩ | ⟨again, hagain, h⟩⟩ := line.attempts_step i
  · rw [h, hadvance.length] at hlt
    omega
  · rw [h, List.length_append, hadvance.length, List.length_singleton] at hlt
    have hk : k = line.attempts.length := by omega
    rw [h, hk, ← hadvance.length, List.getElem?_concat_length] at ha
    exact ⟨hk.symm, again, hagain, (Option.some.inj ha).symm⟩

theorem length_attempts_step (line : Line) (i : Input) :
    line.attempts.length ≤ (line.step i).1.attempts.length ∧
      (.reconnect ∈ line.callsBy i →
        line.attempts.length < (line.step i).1.attempts.length) := by
  obtain ⟨b, hadvance, ⟨hcalls, h⟩ | ⟨again, -, h⟩⟩ := line.attempts_step i
  · rw [h, hadvance.length]
    exact ⟨Nat.le_refl _, fun hc => absurd hc hcalls⟩
  · rw [h, List.length_append, hadvance.length]
    exact ⟨Nat.le_add_right _ _, fun _ => Nat.lt_succ_self _⟩

theorem length_attempts_run (line : Line) (inputs : List Input) :
    line.attempts.length ≤ (line.run inputs).1.attempts.length := by
  induction inputs generalizing line with
  | nil => exact Nat.le_refl _
  | cons i rest ih => exact Nat.le_trans (line.length_attempts_step i).1 (ih (line.step i).1)

/-! ### Where an attempt came from -/

/-- An input is a reconnect that starts an attempt. -/
structure Starts (line : Line) (i : Input) (k : Nat) : Prop where
  fresh : line.attempts.length = k
  told : .reconnect ∈ line.callsBy i

/-- An attempt that may come to a greeting knows what was reported to it. -/
structure Known (k : Nat) (a : Attempt) (since : List Input) : Prop where
  waiting : a.phase = .waiting → report? k since = none
  settled : ∀ opened, a.phase = .settled opened → report? k since = some opened
  due : a.phase = .due → a.again = true ∧ report? k since = some true

theorem report?_concat (k : Nat) (since : List Input) (i : Input) :
    report? k (since ++ [i]) = (report? k since).or (i.report? k) := by
  rw [report?, List.findSome?_append, List.findSome?_singleton]
  rfl

theorem Known.advance {k : Nat} {a : Attempt} {since : List Input} (h : Known k a since)
    {phase : AttemptPhase} (hphase : Advances line i k a phase) :
    Known k { a with phase } (since ++ [i]) := by
  cases hphase with
  | rest hnone =>
    refine ⟨fun hp => ?_, fun opened hp => ?_, fun hp => ?_⟩
    · rw [report?_concat, h.waiting hp, hnone hp]
      rfl
    · rw [report?_concat, h.settled opened hp]
      rfl
    · refine ⟨(h.due hp).1, ?_⟩
      rw [report?_concat, (h.due hp).2]
      rfl
  | settle hp hi =>
    refine ⟨nofun, fun opened hopened => ?_, nofun⟩
    rw [report?_concat, h.waiting hp, hi]
    exact congrArg some (AttemptPhase.settled.inj hopened)
  | await hp hagain =>
    refine ⟨nofun, nofun, fun _ => ⟨hagain, ?_⟩⟩
    rw [report?_concat, h.settled true hp]
    rfl
  | leave hnot =>
    refine ⟨fun hp => ?_, fun opened hp => ?_, fun hp => ?_⟩
    · rw [show phase = .waiting from hp] at hnot
      cases hnot
    · rw [show phase = .settled opened from hp] at hnot
      cases hnot
    · rw [show phase = .due from hp] at hnot
      cases hnot

theorem known_new (k link : Nat) (again : Bool) : Known k { link, again } [] :=
  ⟨fun _ => rfl, nofun, nofun⟩

/-- **Every attempt was started by an input**, on the link that was current then. -/
theorem known_run (hnone : line.attempts = []) (inputs : List Input) {k : Nat} {a : Attempt}
    (ha : (line.run inputs).1.attempts[k]? = some a) :
    ∃ before i since, inputs = before ++ i :: since ∧
      (line.run before).1.attempts.length = k ∧
      (a.again = true → .reconnect ∈ (line.run before).1.callsBy i) ∧
      a.link = ((line.run before).1.step i).1.current ∧ Known k a since := by
  induction inputs using List.reverseRecOn generalizing a with
  | nil =>
    rw [run_nil, hnone] at ha
    cases ha
  | append_singleton inputs i ih =>
    have hrun : (line.run (inputs ++ [i])).1 = ((line.run inputs).1.step i).1 :=
      line.run_append_fst inputs [i]
    rw [hrun] at ha
    cases hold : (line.run inputs).1.attempts[k]? with
    | some a' =>
      obtain ⟨phase, hphase, hadvances⟩ := phase_step (i := i) hold
      obtain rfl := Option.some.inj (hphase.symm.trans ha)
      obtain ⟨before, j, since, rfl, hlength, htold, hlink, hknown⟩ := ih hold
      refine ⟨before, j, since ++ [i], by simp, hlength, htold, hlink, hknown.advance hadvances⟩
    | none =>
      obtain ⟨hlength, again, hagain, rfl⟩ := newcomer_of_step ha hold
      exact ⟨inputs, i, [], rfl, hlength, hagain.mp, rfl, known_new _ _ _⟩

/-- An attempt is started once. -/
theorem starts_unique {before before' since since' : List Input} {i i' : Input} {k : Nat}
    (hsplit : before ++ i :: since = before' ++ i' :: since')
    (h : (line.run before).1.Starts i k) (h' : (line.run before').1.Starts i' k) :
    before' = before := by
  -- a longer part of the run has the attempt already
  have hlonger : ∀ {first more : List Input} {j : Input}, (line.run first).1.Starts j k →
      (line.run (first ++ j :: more)).1.attempts.length ≠ k := by
    intro first more j hj
    rw [run_append_fst, run_cons_fst]
    have hgrows := ((line.run first).1.length_attempts_step j).2 hj.told
    have hkept := ((line.run first).1.step j).1.length_attempts_run more
    have hfresh := hj.fresh
    omega
  rcases List.append_eq_append_iff.mp hsplit with ⟨t, ht, hrest⟩ | ⟨t, ht, hrest⟩
  · rcases t with - | ⟨j, t⟩
    · rw [ht, List.append_nil]
    · obtain ⟨rfl, -⟩ := List.cons_eq_cons.mp hrest
      rw [ht] at h'
      exact absurd h'.fresh (hlonger h)
  · rcases t with - | ⟨j, t⟩
    · rw [ht, List.append_nil]
    · obtain ⟨rfl, -⟩ := List.cons_eq_cons.mp hrest
      rw [ht] at h
      exact absurd h.fresh (hlonger h')

/-! ### Who is due -/

theorem current_step_of_quiet (h : line.callsBy i = []) :
    (line.step i).1.current = line.current := by
  rcases line.current_step i with ⟨-, hsame⟩ | ⟨hcalls, -⟩
  · exact hsame.current
  · rw [h] at hcalls
    cases hcalls

/-- **Who is due for a greeting is on the current link**, if nobody comes between its look and the
status that it sets. -/
theorem due_link_run {inputs : List Input} (hrun : line.Uninterrupted inputs)
    (hlink : ∀ a ∈ line.attempts, a.phase = .due → a.link = line.current) :
    ∀ a ∈ (line.run inputs).1.attempts, a.phase = .due →
      a.link = (line.run inputs).1.current := by
  induction inputs generalizing line with
  | nil => exact hlink
  | cons i rest ih =>
    obtain ⟨halone, hrest⟩ := hrun
    refine ih hrest fun a ha hdue => ?_
    obtain ⟨k, hk⟩ := List.mem_iff_getElem?.mp ha
    cases hold : line.attempts[k]? with
    | none =>
      obtain ⟨-, again, -, rfl⟩ := newcomer_of_step hk hold
      cases hdue
    | some a' =>
      obtain ⟨phase, hphase, hadvances⟩ := phase_step (i := i) hold
      obtain rfl := Option.some.inj (hphase.symm.trans hk)
      obtain rfl : phase = .due := hdue
      generalize hp : AttemptPhase.due = p at hadvances
      cases hadvances with
      | rest =>
        -- nobody else goes on, and whoever is due makes no call
        have hdecided : line.decided (.attempt k) = true := by
          rw [decided, hold, Option.any_some, ← hp]
          rfl
        have htask := halone _ (mem_tasks_of_decided hdecided) hdecided
        have hquiet : line.callsBy i = [] := by
          cases i with
          | act task =>
            obtain rfl := Option.some.inj htask
            rw [callsBy_attempt hold, ← hp]
            rfl
          | call c => cases htask
          | _ => rfl
        rw [current_step_of_quiet hquiet]
        exact hlink a' (List.mem_of_getElem? hold) hp.symm
      | settle => cases hp
      | await hsettled hagain hcurrent hquiet =>
        rw [current_step_of_quiet hquiet]
        exact hcurrent
      | leave hnot =>
        rw [← hp] at hnot
        cases hnot

/-- An attempt that will not greet its link is never due for it. -/
theorem not_due_run {k : Nat} {a : Attempt} (ha : line.attempts[k]? = some a)
    (hp : a.phase.isComing = false) (inputs : List Input) :
    (line.run inputs).1.isDue k = false := by
  induction inputs generalizing line a with
  | nil =>
    rw [run_nil, isDue, ha, Option.any_some]
    refine decide_eq_false fun hdue => ?_
    rw [hdue] at hp
    cases hp
  | cons i rest ih =>
    obtain ⟨phase, hphase, hadvances⟩ := phase_step (i := i) ha
    refine ih hphase ?_
    cases hadvances with
    | rest => exact hp
    | settle hwaiting =>
      rw [hwaiting] at hp
      cases hp
    | await hsettled =>
      rw [hsettled] at hp
      cases hp
    | leave hnot => exact hnot

/-! ### From the greeting on -/

/-- The next call of a greeting. -/
theorem step_greeting {k : Nat} {a : Attempt} (ha : line.attempts[k]? = some a) {c : Call}
    {calls : List Call} (hp : a.phase = .greeting (c :: calls)) :
    (line.step (.act (.attempt k))).1 = ((setAttempt k (.greeting calls) line).call c).1 ∧
      line.callsBy (.act (.attempt k)) = [c] ∧
      ∃ a', (line.step (.act (.attempt k))).1.attempts[k]? = some a' ∧
        a'.phase = .greeting calls := by
  have hstep : (line.step (.act (.attempt k))).1 =
      ((setAttempt k (.greeting calls) line).call c).1 := by
    simp [step, act?, actAttempt?, ha, hp]
  refine ⟨hstep, by rw [callsBy_attempt ha, hp]; rfl, { a with phase := .greeting calls }, ?_, rfl⟩
  have hset := getElem?_setAttempt_self ha (.greeting calls)
  rw [hstep]
  rcases (setAttempt k (.greeting calls) line).attempts_call c with ⟨-, h⟩ | ⟨again, -, h⟩
  · rw [h, hset]
  · rw [h, List.getElem?_append_left (List.getElem?_eq_some_iff.mp hset).1, hset]

/-- Only a call that disconnects takes a line out of connecting. -/
theorem connecting_call {c : Call} (hc : c ≠ .disconnect) (hs : line.status = .connecting) :
    (line.call c).1.status = .connecting := by
  cases c with
  | queue text => exact hs
  | connect =>
    rcases line.connect_fst with h | h
    · rw [h]
      exact hs
    · rw [h]
  | disconnect => exact absurd rfl hc
  | reconnect => rw [reconnect_fst]

theorem step_confirming {k : Nat} {a : Attempt} (ha : line.attempts[k]? = some a)
    (hp : a.phase = .confirming) (hs : line.status = .connecting) :
    (line.step (.act (.attempt k))).1.status = .connected := by
  have hact : line.actAttempt? k = some (setStatus .connected (setAttempt k .over line)) := by
    simp only [actAttempt?, ha, hp]
    exact if_pos hs
  rw [step, act?, hact, Option.getD_some, setStatus_fst]

/-- The end of a greeting, and the confirmation after it. -/
theorem confirm_greeted {k : Nat} {a : Attempt} (ha : line.attempts[k]? = some a)
    (hp : a.phase = .greeting []) :
    line.calls (List.replicate 2 (.act (.attempt k))) = [] ∧
      (line.status = .connecting →
        line.history (List.replicate 2 (.act (.attempt k))) = [.connected]) := by
  have hfirst : (line.step (.act (.attempt k))).1 = setAttempt k .confirming line := by
    simp [step, act?, actAttempt?, ha, hp]
  have hset := getElem?_setAttempt_self ha .confirming
  constructor
  · show line.callsBy _ ++ ((line.step (.act (.attempt k))).1.callsBy _ ++ []) = []
    rw [hfirst, callsBy_attempt ha, callsBy_attempt hset, hp]
    rfl
  · intro hs
    have hconfirming : (setAttempt k .confirming line).status = .connecting := hs
    have hsecond := step_confirming hset rfl hconfirming
    show line.history [.act (.attempt k), .act (.attempt k)] = _
    rw [history_cons, history_cons, hfirst, hsecond, hconfirming, hs]
    rfl

theorem calls_greeting {k : Nat} {a : Attempt} {calls : List Call}
    (ha : line.attempts[k]? = some a) (hp : a.phase = .greeting calls) :
    line.calls (List.replicate (calls.length + 2) (.act (.attempt k))) = calls := by
  induction calls generalizing line a with
  | nil => exact (confirm_greeted ha hp).1
  | cons c rest ih =>
    obtain ⟨-, hcalls, a', ha', hp'⟩ := step_greeting ha hp
    rw [List.length_cons, Nat.succ_add_eq_add_succ, List.replicate_succ, Line.calls, hcalls,
      ih ha' hp']
    rfl

/-- **The calls of a greeting are made one after the other, and then the connection is confirmed**,
if no call disconnects the line. -/
theorem history_greeting {k : Nat} {a : Attempt} {calls : List Call}
    (ha : line.attempts[k]? = some a) (hp : a.phase = .greeting calls)
    (hs : line.status = .connecting) :
    line.history (List.replicate (calls.length + 2) (.act (.attempt k))) = [.connected] ↔
      .disconnect ∉ calls := by
  induction calls generalizing line a with
  | nil => exact iff_of_true ((confirm_greeted ha hp).2 hs) List.not_mem_nil
  | cons c rest ih =>
    obtain ⟨hstep, -, a', ha', hp'⟩ := step_greeting ha hp
    rw [List.length_cons, Nat.succ_add_eq_add_succ, List.replicate_succ, history_cons]
    by_cases hc : c = .disconnect
    · have hlost : (line.step (.act (.attempt k))).1.status = .disconnected := by
        rw [hstep, hc, disconnect_fst]
      rw [hlost, hs]
      refine iff_of_false ?_ fun h => h (hc ▸ .head _)
      rintro ⟨⟩
    · have hkept : (line.step (.act (.attempt k))).1.status = .connecting := by
        rw [hstep]
        exact connecting_call hc hs
      rw [hkept, hs, if_pos rfl, List.nil_append, ih ha' hp' hkept, List.mem_cons,
        or_iff_right (Ne.symm hc)]

/-- What an attempt does from its greeting on, before it waits again. -/
def turn (k : Nat) (calls : List Call) : List Input :=
  .greet k calls :: List.replicate (calls.length + 2) (.act (.attempt k))

theorem turn_of_due {k : Nat} (hdue : line.isDue k = true) (calls : List Call) :
    line.calls (turn k calls) = calls ∧
      (line.status = .connecting →
        (line.history (turn k calls) = [.connected] ↔ .disconnect ∉ calls)) := by
  obtain ⟨a, ha, -⟩ := isDue_iff.mp hdue
  have hgreet := greet_of_due hdue calls
  have hset := getElem?_setAttempt_self ha (.greeting calls)
  refine ⟨?_, fun hs => ?_⟩
  · rw [turn, Line.calls, hgreet]
    exact calls_greeting hset rfl
  · rw [turn, history_cons, hgreet, show (setAttempt k (.greeting calls) line).status = line.status
      from rfl, if_pos rfl]
    exact history_greeting hset rfl hs

/-! ### From the reconnect to the greeting -/

theorem connecting_of_reconnect (h : .reconnect ∈ line.callsBy i) :
    (line.step i).1.status = .connecting := by
  obtain ⟨b, hstep⟩ := step_of_call h
  rw [hstep, reconnect_fst]

theorem status_of_history_nil {inputs : List Input} (h : line.history inputs = []) :
    (line.run inputs).1.status = line.status := by
  induction inputs generalizing line with
  | nil => rfl
  | cons i rest ih =>
    rw [history_cons] at h
    obtain ⟨hfirst, hrest⟩ := List.append_eq_nil_iff.mp h
    have hsame : line.status = (line.step i).1.status := by
      by_contra hne
      rw [if_neg hne] at hfirst
      cases hfirst
    rw [run_cons_fst, ih hrest, ← hsame]

section Kept

variable {inputs : List Input} (hrenew : .reconnect ∉ line.calls inputs)
  (hlost : .disconnected ∉ line.history inputs)

include hrenew hlost

/-- A connection that is neither lost nor replaced stays. -/
theorem connected_run (hs : line.status = .connected) :
    (line.run inputs).1.status = .connected := by
  induction inputs generalizing line with
  | nil => exact hs
  | cons i rest ih =>
    obtain ⟨hfirst, hlater⟩ := not_or.mp (List.mem_append.not.mp hrenew)
    rw [history_cons] at hlost
    obtain ⟨hnow, hnext⟩ := not_or.mp (List.mem_append.not.mp hlost)
    refine ih hlater hnext ?_
    have hmoves := (line.shifts_step i).moves
    rw [hs] at hmoves hnow
    generalize (line.step i).1.status = status at hmoves hnow
    cases hmoves with
    | stay => rfl
    | lose => exact absurd (.head _) hnow
    | connect hc h => exact absurd rfl h
    | reconnect _ hc => exact absurd hc hfirst

/-- A line that is still connecting has been connecting all the time. -/
theorem history_of_connecting (hs : line.status = .connecting)
    (hend : (line.run inputs).1.status = .connecting) : line.history inputs = [] := by
  induction inputs generalizing line with
  | nil => rfl
  | cons i rest ih =>
    obtain ⟨hfirst, hlater⟩ := not_or.mp (List.mem_append.not.mp hrenew)
    rw [history_cons] at hlost ⊢
    obtain ⟨hnow, hnext⟩ := not_or.mp (List.mem_append.not.mp hlost)
    have hmoves := (line.shifts_step i).moves
    rw [hs] at hmoves hnow ⊢
    cases hstatus : (line.step i).1.status with
    | connecting => exact ih hlater hnext hstatus hend
    | connected =>
      rw [run_cons_fst, connected_run hlater hnext hstatus] at hend
      cases hend
    | disconnected =>
      rw [hstatus] at hnow
      exact absurd (.head _) hnow
    | unconnected =>
      rw [hstatus] at hmoves
      cases hmoves

end Kept

/-- An attempt greets its link while the line connects, and has not lost the connection since the
reconnect; right afterwards the line is connected, on the same link. -/
structure SoundGreeting (renewed : Line) (since : List Input) (k : Nat) (calls : List Call) :
    Prop where
  connecting : (renewed.run since).1.status = .connecting
  kept : .disconnected ∉ renewed.history since
  confirmed : (renewed.run since).1.history (turn k calls) = [.connected]
  link : ((renewed.run since).1.run (turn k calls)).1.current = (renewed.run since).1.current

/-- **When an attempt greets its link.**  In every schedule in which nobody comes between a task's
look and the status that it sets, an attempt that is due for a greeting

* was started by a reconnect, and by no other input;
* was first told that its link opened, and no other reconnect came since;
* never greets a link again.

So there is at most one greeting for each reconnect, and none for a plain connect, for a reconnect
that failed or for one that was replaced.  It is a greeting of a line that connects, and is right
away followed by the line being connected with this link, if and only if the status was not set
since the reconnect and no call of the greeting disconnects or reconnects the line. -/
theorem greeted_soundly_iff {greets : Bool} {before : List Input}
    (hrun : Uninterrupted { greets } before) {k : Nat}
    (hdue : (run { greets } before).1.isDue k = true) (calls : List Call) :
    ∃ earlier i since, before = earlier ++ i :: since ∧
      (run { greets } earlier).1.Starts i k ∧
      (∀ earlier' i' since', before = earlier' ++ i' :: since' →
        (run { greets } earlier').1.Starts i' k → earlier' = earlier) ∧
      report? k since = some true ∧
      .reconnect ∉ ((run { greets } earlier).1.step i).1.calls since ∧
      (∀ later, (run { greets } (before ++ .greet k calls :: later)).1.isDue k = false) ∧
      (SoundGreeting ((run { greets } earlier).1.step i).1 since k calls ↔
        ((run { greets } earlier).1.step i).1.history since = [] ∧
          .disconnect ∉ calls ∧ .reconnect ∉ calls) := by
  obtain ⟨a, ha, hp⟩ := isDue_iff.mp hdue
  obtain ⟨earlier, i, since, rfl, hlength, htold, hlink, hknown⟩ := known_run rfl before ha
  obtain ⟨hagain, hreport⟩ := hknown.due hp
  have hstarts : (run { greets } earlier).1.Starts i k := ⟨hlength, htold hagain⟩
  have hend : (run { greets } (earlier ++ i :: since)).1 =
      (((run { greets } earlier).1.step i).1.run since).1 := by
    rw [run_append_fst, run_cons_fst]
  have hmade : ∀ inputs : List Input, (run { greets } inputs).1.current <
      (run { greets } inputs).1.forwarders.length := current_lt_run Nat.zero_lt_one
  have hrenewed : ((run { greets } earlier).1.step i).1.current <
      ((run { greets } earlier).1.step i).1.forwarders.length := by
    have hconcat := hmade (earlier ++ [i])
    rwa [run_append_fst] at hconcat
  -- the link is still the current one
  have hcurrent := due_link_run hrun nofun a (List.mem_of_getElem? ha) hp
  have hkept : .reconnect ∉ ((run { greets } earlier).1.step i).1.calls since := by
    rw [← current_run_eq_iff hrenewed, ← hend, ← hcurrent]
    exact hlink
  refine ⟨earlier, i, since, rfl, hstarts, fun earlier' i' since' hsplit h' => ?_, hreport, hkept,
    fun later => ?_, ?_⟩
  · exact starts_unique hsplit hstarts h'
  · rw [run_append_fst, run_cons_fst, greet_of_due hdue]
    exact not_due_run (getElem?_setAttempt_self ha _) rfl later
  · rw [hend] at hdue
    have hstart := connecting_of_reconnect hstarts.told
    obtain ⟨hcalls, hconfirms⟩ := turn_of_due hdue calls
    have hsame := current_run_eq_iff (current_lt_run hrenewed since) (turn k calls)
    rw [hcalls] at hsame
    constructor
    · rintro ⟨hconnecting, hlost, hconfirmed, hlink'⟩
      exact ⟨history_of_connecting hkept hlost hstart hconnecting,
        (hconfirms hconnecting).mp hconfirmed, hsame.mp hlink'⟩
    · rintro ⟨hnone, hdisconnect, hreconnect⟩
      have hconnecting := (status_of_history_nil hnone).trans hstart
      refine ⟨hconnecting, ?_, (hconfirms hconnecting).mpr hdisconnect, hsame.mpr hreconnect⟩
      rw [hnone]
      exact List.not_mem_nil

/-- A reconnect whose link is closed before the attempt looks at it: it has opened, and is still the
current one. -/
def closedEarly : List Input :=
  [.call .reconnect, .event 1 .closed, .act (.forwarder 1), .act (.forwarder 1),
    .act (.forwarder 1), .settled 0 true, .act (.attempt 0)]

/-- The link is greeted although the line is disconnected, and stays so. -/
theorem closed_link_is_greeted :
    Uninterrupted { greets := true } closedEarly ∧
      (run { greets := true } closedEarly).1.isDue 0 = true ∧
      (run { greets := true } closedEarly).1.status = .disconnected ∧
      history { greets := true } (closedEarly ++ turn 0 []) = [.connecting, .disconnected] ∧
      ¬SoundGreeting ((run { greets := true } []).1.step (.call .reconnect)).1
        (closedEarly.drop 1) 0 [] := by
  have hrun : Uninterrupted { greets := true } closedEarly := by decide
  have hdue : (run { greets := true } closedEarly).1.isDue 0 = true := by decide
  refine ⟨hrun, hdue, by decide, by decide, ?_⟩
  obtain ⟨earlier, i, since, hsplit, -, hunique, -, -, -, hiff⟩ :=
    greeted_soundly_iff hrun hdue []
  obtain rfl : [] = earlier := hunique [] (.call .reconnect) (closedEarly.drop 1) rfl
    ⟨rfl, by decide⟩
  obtain ⟨rfl, rfl⟩ := List.cons_eq_cons.mp hsplit
  intro hsound
  obtain ⟨hnone, -⟩ := hiff.mp hsound
  exact absurd hnone (by decide)

end Line
end NodeClient
