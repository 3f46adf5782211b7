import NodeClient.Proofs.Line.Greeting

/-!
# Line uninterrupted — greetings that nobody comes between

If nobody comes between a task's look and the status that it sets, the requests of a greeting are
queued one after the other, and only the attempt of a reconnect confirms the connection on its link,
after its greeting.  Until then the line is not connected, and its draining task does not take up
the link.

* `unqueued`, `unqueued_step`: the requests that a greeting is about to queue, and the next of them.
* `Untouched`: the current link came with a reconnect and was not greeted, and nobody sends on it.
* `Past`: the greeting of the current link, if there is one, has come.
* `Traced`: a line is in one of the two states, and its sends were on links up to the current one.
  Every uninterrupted schedule keeps it (`traced_run`).
* `Past.not_due`: a link is greeted once.
-/

namespace NodeClient
namespace Line

variable {line b : Line} {links : List Nat}

/-! ### The requests of greetings -/

/-- The requests that an attempt is about to queue. -/
def Attempt.requests (a : Attempt) : List String :=
  a.phase.calls.flatMap Call.requests

/-- The requests that greetings are about to queue. -/
def unqueued (line : Line) : List String :=
  line.attempts.flatMap Attempt.requests

/-- What an attempt is about to queue is what it queues now, and what it is about to queue then. -/
theorem Proceeds.unqueued {a : Attempt} {phase : AttemptPhase} {status : Status}
    {texts : List String} (h : Proceeds line a phase status texts) :
    a.requests = texts ++ ({ a with phase } : Attempt).requests := by
  unfold Attempt.requests
  cases h with
  | call hp => rw [hp]; rfl
  | settle opened hp => rw [hp]; rfl
  | _ hp => rw [hp]; rfl

theorem unqueued_of_quiet (h : ∀ a ∈ line.attempts, a.phase.calls = []) : line.unqueued = [] := by
  refine List.flatMap_eq_nil_iff.mpr fun a ha => ?_
  rw [Attempt.requests, h a ha]
  rfl

/-- One attempt of a line goes into another phase. -/
theorem unqueued_setAttempt {index : Nat} {a : Attempt} (ha : line.attempts[index]? = some a)
    (phase : AttemptPhase) (attempts : b.attempts = (setAttempt index phase line).attempts) :
    ∃ (first : List Attempt) (rest : List String),
      (∀ c ∈ first, ∃ j < index, line.attempts[j]? = some c) ∧
      line.unqueued = first.flatMap Attempt.requests ++ (a.requests ++ rest) ∧
      b.unqueued = first.flatMap Attempt.requests ++ (({ a with phase } : Attempt).requests ++ rest)
        := by
  obtain ⟨hlt, hget⟩ := List.getElem?_eq_some_iff.mp ha
  obtain ⟨first, a', later, hsplit, hlength, hmodify⟩ :=
    List.exists_of_modify (fun a : Attempt => { a with phase }) hlt
  obtain rfl : a' = a := by
    rw [← hget]
    simp [hsplit, ← hlength]
  refine ⟨first, later.flatMap Attempt.requests, ?_, ?_, ?_⟩
  · intro c hc
    obtain ⟨j, hj, rfl⟩ := List.mem_iff_getElem.mp hc
    refine ⟨j, hlength ▸ hj, ?_⟩
    rw [hsplit, List.getElem?_append_left hj, List.getElem?_eq_getElem hj]
  · rw [Line.unqueued, hsplit, List.flatMap_append, List.flatMap_cons]
  · rw [Line.unqueued, attempts, setAttempt, hmodify, List.flatMap_append, List.flatMap_cons]

section Alone

variable {i : Input}
  (halone : ∀ task ∈ line.tasks, line.decided task = true → i.task? = some task)

include halone

/-- Whoever makes the calls of a greeting goes on alone. -/
theorem task_of_calls {j : Nat} {a : Attempt} (ha : line.attempts[j]? = some a)
    (hcalls : a.phase.calls ≠ []) : i.task? = some (.attempt j) := by
  have hdecided : line.decided (.attempt j) = true := by
    have hp : a.phase.isDecided = true := by
      cases hp : a.phase with
      | greeting calls => rfl
      | _ => rw [hp] at hcalls; exact absurd rfl hcalls
    simp [decided, ha, hp]
  exact halone _ (mem_tasks_of_decided hdecided) hdecided

/-- The owner calls only when no greeting is about to queue requests. -/
theorem unqueued_of_owner (hi : i.task? = none) : line.unqueued = [] := by
  refine unqueued_of_quiet fun a ha => Decidable.byContradiction fun hcalls => ?_
  obtain ⟨j, hj⟩ := List.mem_iff_getElem?.mp ha
  rw [task_of_calls halone hj hcalls] at hi
  cases hi

/-- A greeting begins when no other one is about to queue requests. -/
theorem unqueued_greet {index : Nat} {calls : List Call} (hi : i = .greet index calls)
    (hdue : line.isDue index = true) :
    line.unqueued = [] ∧ (line.step i).1.unqueued = calls.flatMap Call.requests := by
  subst hi
  obtain ⟨a, ha, hp⟩ := isDue_iff.mp hdue
  have hquiet : line.unqueued = [] := by
    refine unqueued_of_quiet fun c hc => Decidable.byContradiction fun hcalls => ?_
    obtain ⟨j, hj⟩ := List.mem_iff_getElem?.mp hc
    have htask := task_of_calls halone hj hcalls
    obtain rfl : index = j := Task.attempt.inj (Option.some.inj htask)
    obtain rfl := Option.some.inj (ha.symm.trans hj)
    exact hcalls (by rw [hp]; rfl)
  refine ⟨hquiet, ?_⟩
  rw [greet_of_due hdue]
  obtain ⟨first, rest, -, hbefore, hafter⟩ :=
    unqueued_setAttempt (b := setAttempt index (.greeting calls) line) ha (.greeting calls) rfl
  rw [hquiet] at hbefore
  obtain ⟨hfirst, hlater⟩ := List.append_eq_nil_iff.mp hbefore.symm
  rw [hafter, hfirst, (List.append_eq_nil_iff.mp hlater).2, List.nil_append, List.append_nil]
  rfl

/-- **The requests of a greeting are queued in their order.** -/
theorem unqueued_step (ho : line.Owned) (hi : i.lasting = true) :
    line.requestsBy i ++ (line.step i).1.unqueued = line.unqueued := by
  have hgiven : i.given = [] := by
    cases i with
    | call c => cases c <;> first | rfl | cases hi
    | _ => rfl
  cases change_step ho (Input.civil_of_lasting hi) with
  | stay same attempts status requests =>
    rw [requests, hgiven, unqueued, unqueued, attempts, List.nil_append]
  | @proceed index a phase same found proceeds attempts =>
    obtain ⟨first, rest, hfirst, hbefore, hafter⟩ := unqueued_setAttempt found phase attempts
    rw [hbefore, hafter, proceeds.unqueued]
    by_cases hnone : line.requestsBy i = []
    · rw [hnone, List.nil_append, List.nil_append]
    · -- the attempt that queues a request is the only one that is about to
      have hcalls : a.phase.calls ≠ [] := fun hcalls => by
        have hunqueued := proceeds.unqueued
        rw [Attempt.requests, hcalls] at hunqueued
        exact hnone (List.append_eq_nil_iff.mp hunqueued.symm).1
      have hothers : first.flatMap Attempt.requests = [] := by
        refine List.flatMap_eq_nil_iff.mpr fun c hc => ?_
        obtain ⟨j, hj, hget⟩ := hfirst c hc
        by_cases hc' : c.phase.calls = []
        · rw [Attempt.requests, hc']
          rfl
        · have htask :=
            (task_of_calls halone hget hc').symm.trans (task_of_calls halone found hcalls)
          obtain rfl : j = index := Task.attempt.inj (Option.some.inj htask)
          exact absurd hj (Nat.lt_irrefl j)
      rw [hothers, List.nil_append, List.nil_append, List.append_assoc]
  | greet same told => rw [told] at hi; cases hi
  | connect same told => rw [told] at hi; cases hi
  | renew told current attempts =>
    have hnone : line.requestsBy i = [] := by
      rw [told]
      simp [requestsBy, callsBy, ho.owned, Call.requests]
    rw [hnone, List.nil_append, unqueued, unqueued, attempts, List.flatMap_append]
    exact List.append_nil _

end Alone

/-! ### Before and after the greeting of a link -/

/-- An attempt is on its way to a greeting. -/
def AttemptPhase.isComing : AttemptPhase → Bool
  | .waiting | .settled _ | .due => true
  | _ => false

/-- The current link was not greeted, and nobody sends on it. -/
structure Untouched (line : Line) : Prop where
  unmet : line.Unmet
  status : line.status ≠ .connected
  drain : ∀ link, line.drain.link? = some link → link < line.current

/-- No attempt on the current link comes to a greeting any more. -/
def Past (line : Line) : Prop :=
  ∀ a ∈ line.attempts, a.link = line.current → a.phase.isComing = true →
    a.again = false ∧ a.phase ≠ .due

/-- The sends so far were on links up to the current one, and on this one only if its greeting is
over. -/
structure Traced (line : Line) (sends : List (Nat × String)) : Prop where
  bound : ∀ send ∈ sends, send.1 ≤ line.current
  state : (line.Untouched ∧ ∀ send ∈ sends, send.1 < line.current) ∨ line.Past

theorem Untouched.congr (h : line.Untouched) (attempts : b.attempts = line.attempts)
    (current : b.current = line.current) (status : b.status = line.status)
    (drain : b.drain = line.drain) : b.Untouched where
  unmet := h.unmet.congr attempts current status
  status := status ▸ h.status
  drain link hl := by
    rw [current]
    exact h.drain link (drain ▸ hl)

/-! ### What confirms a connection -/

theorem Proceeds.connected {a : Attempt} {phase : AttemptPhase} {status : Status}
    {texts : List String} (h : Proceeds line a phase status texts) (hs : status = .connected) :
    line.status = .connected ∨ a.phase = .confirming := by
  cases h with
  | confirm hp => exact .inr hp
  | lose => cases hs
  | _ => exact .inl hs

/-- Only an attempt that has decided confirms the connection. -/
theorem Change.connected {i : Input} (hc : Change line i b) (hs : b.status = .connected)
    (hnot : line.status ≠ .connected) : ∃ a ∈ line.attempts, a.phase = .confirming := by
  cases hc with
  | stay same attempts status =>
    rcases status with hsame | hlost
    · exact absurd (hsame.symm.trans hs) hnot
    · rw [hs] at hlost
      cases hlost
  | proceed same found proceeds =>
    exact ⟨_, List.mem_of_getElem? found, (proceeds.connected hs).resolve_left hnot⟩
  | greet same told found due attempts status => exact absurd (status.symm.trans hs) hnot
  | connect same told attempts status =>
    rw [hs] at status
    cases status
  | renew told current attempts status =>
    rw [hs] at status
    cases status

theorem link?_of_sendsBy {i : Input} {send : Nat × String} (h : send ∈ line.sendsBy i) :
    line.drain.link? = some send.1 := by
  unfold sendsBy at h
  split at h
  · split at h
    · next link text hd =>
      obtain rfl := List.mem_singleton.mp h
      rw [hd]
      rfl
    · cases h
  · cases h

/-! ### One step -/

section Steps

variable (hk : line.Kept) (hg : line.Grounded links) {i : Input} (hi : i.renewing = true)

include hg in
/-- Who is due is the attempt of the current link, if this was not greeted. -/
theorem due_on_current {index : Nat} (hdue : line.isDue index = true) :
    ∃ a, line.attempts[index]? = some a ∧ a.phase = .due ∧ a.link = line.current := by
  obtain ⟨a, ha, hp⟩ := isDue_iff.mp hdue
  exact ⟨a, ha, hp, hg.decided a (List.mem_of_getElem? ha) (by rw [hp]; rfl)⟩

include hg in
/-- **A link is greeted once.** -/
theorem Past.not_due (h : line.Past) (index : Nat) : line.isDue index ≠ true := by
  intro hdue
  obtain ⟨a, ha, hp, hlink⟩ := due_on_current hg hdue
  exact (h a (List.mem_of_getElem? ha) hlink (by rw [hp]; rfl)).2 hp

/-- An attempt goes on towards a greeting only if it may get one. -/
theorem Proceeds.coming {a : Attempt} {phase : AttemptPhase} {status : Status}
    {texts : List String} (h : Proceeds line a phase status texts)
    (hpast : a.phase.isComing = true → a.again = false ∧ a.phase ≠ .due)
    (hcoming : phase.isComing = true) : a.again = false ∧ phase ≠ .due := by
  cases h with
  | settle opened hp => exact ⟨(hpast (by rw [hp]; rfl)).1, nofun⟩
  | await hp hcurrent hagain =>
    rw [(hpast (by rw [hp]; rfl)).1] at hagain
    cases hagain
  | _ => cases hcoming

/-- The attempts of a line whose greeting is over go on, or get a new one on another link. -/
theorem Past.change (h : line.Past) (hc : Change line i b) (hconnect : i ≠ .call .connect)
    (hrenew : i ≠ .call .reconnect) : b.Past := by
  intro a ha hlink hcoming
  cases hc with
  | stay same attempts => exact h a (attempts ▸ ha) (hlink.trans same.current) hcoming
  | @proceed index a' phase same found proceeds attempts =>
    rw [attempts] at ha
    rcases mem_setAttempt ha with ha | ⟨a'', hfound, rfl⟩
    · exact h a ha (hlink.trans same.current) hcoming
    · obtain rfl := Option.some.inj (found.symm.trans hfound)
      refine proceeds.coming (fun hc => ?_) hcoming
      exact h a' (List.mem_of_getElem? found) (hlink.trans same.current) hc
  | greet same told found due attempts =>
    rw [attempts] at ha
    rcases mem_setAttempt ha with ha | ⟨a'', -, rfl⟩
    · exact h a ha (hlink.trans same.current) hcoming
    · cases hcoming
  | connect same told => exact absurd told hconnect
  | renew told => exact absurd told hrenew

include hg in
/-- A greeting of the current link takes it past its greeting. -/
theorem Untouched.greet (h : line.Untouched) {index : Nat} (hdue : line.isDue index = true)
    (calls : List Call) : (line.step (.greet index calls)).1.Past := by
  obtain ⟨k, a, found, link, again, sole, early⟩ := h.unmet
  obtain ⟨a', ha', -, hlink'⟩ := due_on_current hg hdue
  obtain rfl := sole index a' ha' hlink'
  rw [greet_of_due hdue]
  intro c hc hlink hcoming
  obtain ⟨j, hj⟩ := List.mem_iff_getElem?.mp hc
  rw [getElem?_setAttempt] at hj
  obtain ⟨c', hfound, rfl⟩ := Option.map_eq_some_iff.mp hj
  by_cases hindex : index = j
  · rw [if_pos hindex] at hcoming
    cases hcoming
  · rw [if_neg hindex] at hlink
    exact absurd (sole j c' hfound hlink).symm hindex

include hk hg hi in
/-- Nobody sends on a link before its greeting. -/
theorem Untouched.step (h : line.Untouched) :
    (line.step i).1.Untouched ∨
      ∃ index calls, i = .greet index calls ∧ line.isDue index = true := by
  have hchange := change_step hk.owner (Input.civil_of_renewing hi)
  refine (h.unmet.change hk hchange (Input.ne_connect_of_renewing hi)).imp_left fun hunmet => ?_
  refine ⟨hunmet, fun hs => ?_, fun link hl => ?_⟩
  · -- only an attempt on the current link could confirm the connection, and it was not greeted
    obtain ⟨a, ha, hp⟩ := hchange.connected hs h.status
    obtain ⟨k, a', found, -, -, sole, early⟩ := h.unmet
    obtain ⟨j, hj⟩ := List.mem_iff_getElem?.mp ha
    obtain rfl := sole j a hj (hg.decided a ha (by rw [hp]; rfl))
    obtain rfl := Option.some.inj (found.symm.trans hj)
    rw [hp] at early
    rcases early with early | ⟨hover, -⟩
    · cases early
    · cases hover
  · have hle := (hk.newest.step i).2
    rcases link?_step hl with hbefore | ⟨-, hconnected⟩
    · exact Nat.lt_of_lt_of_le (h.drain link hbefore) hle
    · exact absurd hconnected h.status

include hk in
/-- A new link is untouched. -/
theorem untouched_reconnect :
    (line.step (.call .reconnect)).1.Untouched ∧
      line.current < (line.step (.call .reconnect)).1.current := by
  have hmade := hk.newest.made
  have hstep : (line.step (.call .reconnect)).1 = (line.call .reconnect).1 := by
    simp [step, hk.owner.owned]
  have hcurrent : (line.step (.call .reconnect)).1.current = line.current + 1 := by
    rw [hstep, reconnect_fst]
    exact hmade
  have hlt : line.current < (line.step (.call .reconnect)).1.current := by omega
  refine ⟨⟨?_, ?_, fun link hl => ?_⟩, hlt⟩
  · rw [hstep, reconnect_fst]
    exact unmet_of_renewed hk rfl rfl
  · rw [hstep, reconnect_fst]
    intro hconnected
    cases hconnected
  · rcases link?_step hl with hbefore | ⟨rfl, -⟩
    · exact Nat.lt_of_le_of_lt (hk.newest.drain link hbefore) hlt
    · exact hlt

include hk hg hi in
/-- **A step** sends on a link only when its greeting is over. -/
theorem Traced.step {sends : List (Nat × String)} (h : line.Traced sends) :
    (line.step i).1.Traced (sends ++ line.sendsBy i) := by
  have hle := (hk.newest.step i).2
  have hbound : ∀ send ∈ sends ++ line.sendsBy i, send.1 ≤ line.current := by
    intro send hsend
    rcases List.mem_append.mp hsend with hsend | hsend
    · exact h.bound send hsend
    · exact hk.newest.drain send.1 (link?_of_sendsBy hsend)
  refine ⟨fun send hsend => Nat.le_trans (hbound send hsend) hle, ?_⟩
  by_cases hrenew : i = .call .reconnect
  · subst hrenew
    obtain ⟨huntouched, hlt⟩ := untouched_reconnect hk
    exact .inl ⟨huntouched, fun send hsend => Nat.lt_of_le_of_lt (hbound send hsend) hlt⟩
  · rcases h.state with ⟨huntouched, hsends⟩ | hpast
    · rcases huntouched.step hk hg hi with hnext | ⟨index, calls, rfl, hdue⟩
      · refine .inl ⟨hnext, fun send hsend => Nat.lt_of_lt_of_le ?_ hle⟩
        rcases List.mem_append.mp hsend with hsend | hsend
        · exact hsends send hsend
        · exact huntouched.drain send.1 (link?_of_sendsBy hsend)
      · exact .inr (huntouched.greet hg hdue calls)
    · exact .inr (hpast.change (change_step hk.owner (Input.civil_of_renewing hi))
        (Input.ne_connect_of_renewing hi) hrenew)

end Steps

/-! ### Schedules -/

theorem Uninterrupted.after {first rest : List Input} (h : line.Uninterrupted (first ++ rest)) :
    (line.run first).1.Uninterrupted rest := by
  induction first generalizing line with
  | nil => exact h
  | cons i first ih => exact ih h.2

/-- **An uninterrupted schedule** sends on a link only when its greeting is over. -/
theorem traced_run (hk : line.Kept) (hg : line.Grounded links) {sends : List (Nat × String)}
    (h : line.Traced sends) {inputs : List Input} (hi : ∀ i ∈ inputs, i.renewing = true)
    (hrun : line.Uninterrupted inputs) :
    (line.run inputs).1.Traced (sends ++ line.sends inputs) := by
  induction inputs generalizing line links sends with
  | nil =>
    rw [Line.sends, List.append_nil]
    exact h
  | cons i rest ih =>
    obtain ⟨hfirst, hrest⟩ := List.forall_mem_cons.mp hi
    obtain ⟨halone, hrun⟩ := hrun
    have hcivil := Input.civil_of_renewing hfirst
    rw [Line.sends, ← List.append_assoc]
    exact ih (hk.step hcivil) (grounded_step hg (Input.polite_of_civil hcivil) halone)
      (h.step hk hg hfirst) hrest hrun

/-- A line that is told to connect, or nothing yet, has no greeting to come. -/
theorem past_start {setup : List Input} (hsetup : setup <+: [.call .connect]) :
    (run { greets := true } setup).1.Past := by
  rcases setup with - | ⟨i, rest⟩
  · exact nofun
  · obtain ⟨rfl, hrest⟩ := List.cons_prefix_cons.mp hsetup
    obtain rfl := List.prefix_nil.mp hrest
    intro a ha hlink hcoming
    obtain rfl := List.mem_singleton.mp ha
    exact ⟨rfl, nofun⟩

end Line
end NodeClient
