import NodeClient.Proofs.Line.Changes

/-!
# Line greeting — a new link is greeted before the line is connected

A reconnect makes a new link, and the attempt to connect it is due for a greeting before it confirms
the connection.  The calls of a greeting are made one by one, and only queue requests.

* `Unmet`: the current link came with a reconnect and was not greeted; every step keeps it until a
  greeting (`Unmet.step`), and a line that rests with such a link is not connected.
* `Pending`: a greeting is about to queue a request; a step queues it or leaves it, and a greeting
  makes its requests pending.
-/

namespace NodeClient
namespace Line

variable {line b : Line}

/-! ### Links that were not greeted -/

/-- An attempt has not come to its greeting. -/
def AttemptPhase.isEarly : AttemptPhase → Bool
  | .waiting | .settled _ | .due | .failing | .losing => true
  | _ => false

/-- The attempt of a reconnect, alone on the current link, that has not greeted it: it is on the
way, or has lost the link. -/
structure UnmetBy (line : Line) (k : Nat) (a : Attempt) : Prop where
  found : line.attempts[k]? = some a
  link : a.link = line.current
  again : a.again = true
  sole : ∀ j b, line.attempts[j]? = some b → b.link = line.current → j = k
  early : a.phase.isEarly = true ∨ (a.phase = .over ∧ line.status = .disconnected)

/-- The current link came with a reconnect and was not greeted. -/
def Unmet (line : Line) : Prop :=
  ∃ k a, line.UnmetBy k a

/-- A new link has not been greeted. -/
theorem unmet_of_renewed (h : line.Kept) (current : b.current = line.forwarders.length)
    (attempts : b.attempts = line.attempts ++ [{ link := b.current, again := true }]) :
    b.Unmet := by
  have hmade := h.newest.made
  refine ⟨line.attempts.length, { link := b.current, again := true }, ?_, rfl, rfl, ?_, .inl rfl⟩
  · rw [attempts, List.getElem?_concat_length]
  · intro j a ha hlink
    rw [attempts] at ha
    by_cases hj : j < line.attempts.length
    · rw [List.getElem?_append_left hj] at ha
      have hle := h.links a (List.mem_of_getElem? ha)
      omega
    · have hlt := (List.getElem?_eq_some_iff.mp ha).1
      rw [List.length_append, List.length_singleton] at hlt
      omega

/-- A status that was lost stays lost until a new link comes. -/
theorem Proceeds.disconnected {a : Attempt} {phase : AttemptPhase} {status : Status}
    {texts : List String} (h : Proceeds line a phase status texts)
    (hs : line.status = .disconnected) : status = .disconnected := by
  cases h with
  | confirm hp hconnecting =>
    rw [hs] at hconnecting
    cases hconnecting
  | lose hp => rfl
  | _ => exact hs

/-- The attempt of the current link goes on towards its greeting, or loses the link. -/
theorem Proceeds.early {a : Attempt} {phase : AttemptPhase} {status : Status}
    {texts : List String} (h : Proceeds line a phase status texts) (hlink : a.link = line.current)
    (hagain : a.again = true) (hearly : a.phase.isEarly = true ∨ a.phase = .over) :
    phase.isEarly = true ∨ (phase = .over ∧ status = .disconnected) := by
  have hnot : ∀ {p : AttemptPhase}, a.phase = p → p.isEarly = false → p ≠ .over → False := by
    rintro p rfl hp hover
    rcases hearly with hearly | hearly
    · rw [hp] at hearly
      cases hearly
    · exact hover hearly
  cases h with
  | settle opened hp => exact .inl rfl
  | quit hp hother => exact absurd hlink.symm hother
  | fail hp => exact .inl rfl
  | await hp => exact .inl rfl
  | skip hp hcurrent hfirst =>
    rw [hagain] at hfirst
    cases hfirst
  | call hp => exact (hnot hp rfl nofun).elim
  | finish hp => exact (hnot hp rfl nofun).elim
  | confirm hp => exact (hnot hp rfl nofun).elim
  | keep hp => exact (hnot hp rfl nofun).elim
  | look hp => exact .inl rfl
  | forget hp hother => exact absurd hlink.symm hother
  | lose hp => exact .inr ⟨rfl, rfl⟩

/-- An attempt is due for the greeting of its link. -/
def isDue (line : Line) (index : Nat) : Bool :=
  (line.attempts[index]?).any (·.phase = .due)

theorem isDue_iff {index : Nat} :
    line.isDue index = true ↔ ∃ a, line.attempts[index]? = some a ∧ a.phase = .due := by
  simp only [isDue, Option.any_eq_true, decide_eq_true_eq]

/-- **A new link stays without a greeting** until an attempt on it is told how to greet it. -/
theorem Unmet.change (hk : line.Kept) (h : line.Unmet) {i : Input} (hc : Change line i b)
    (hconnect : i ≠ .call .connect) :
    b.Unmet ∨ ∃ index calls, i = .greet index calls ∧ line.isDue index = true := by
  obtain ⟨k, a, ha, hlink, hagain, hsole, hearly⟩ := h
  cases hc with
  | stay same attempts status =>
    refine .inl ⟨k, a, attempts ▸ ha, hlink.trans same.current.symm, hagain, ?_, ?_⟩
    · rw [attempts, same.current]
      exact hsole
    · refine hearly.imp_right fun ⟨hover, hs⟩ => ⟨hover, ?_⟩
      exact status.elim (fun hsame => hsame.trans hs) id
  | @proceed index a' phase same found proceeds attempts =>
    refine .inl ⟨k, if index = k then { a with phase } else a, ?_, ?_, ?_, ?_, ?_⟩
    · rw [attempts, getElem?_setAttempt, ha]
      rfl
    · rw [same.current]
      split <;> exact hlink
    · split <;> exact hagain
    · intro j b hb hb'
      rw [attempts, getElem?_setAttempt] at hb
      obtain ⟨b', hfound, rfl⟩ := Option.map_eq_some_iff.mp hb
      refine hsole j b' hfound ?_
      rw [← same.current, ← hb']
      split <;> rfl
    · split
      · next hindex =>
        subst hindex
        obtain rfl := Option.some.inj (ha.symm.trans found)
        exact proceeds.early hlink hagain (hearly.imp_right And.left)
      · exact hearly.imp_right fun ⟨hover, hs⟩ => ⟨hover, proceeds.disconnected hs⟩
  | greet same told found due => exact .inr ⟨_, _, told, isDue_iff.mpr ⟨_, found, due⟩⟩
  | connect same told => exact absurd told hconnect
  | renew told current attempts => exact .inl (unmet_of_renewed hk current attempts)

theorem Unmet.step (hk : line.Kept) (h : line.Unmet) {i : Input} (hi : i.lasting = true) :
    (line.step i).1.Unmet := by
  have hconnect : i ≠ .call .connect := by
    rintro rfl
    cases hi
  refine (h.change hk (change_step hk.owner (Input.civil_of_lasting hi)) hconnect).resolve_right ?_
  rintro ⟨index, calls, rfl, -⟩
  cases hi

/-- A step keeps the link, or comes with a new one. -/
theorem current_step_or_unmet (hk : line.Kept) {i : Input} (hi : i.lasting = true) :
    (line.step i).1.current = line.current ∨ (line.step i).1.Unmet := by
  cases change_step hk.owner (Input.civil_of_lasting hi) with
  | stay same | proceed same | greet same | connect same => exact .inl same.current
  | renew told current attempts => exact .inr (unmet_of_renewed hk current attempts)

/-- A line keeps its link until it gets a new one. -/
theorem current_step_of_ne (ho : line.Owned) {i : Input} (hi : i.civil = true)
    (hrenew : i ≠ .call .reconnect) : (line.step i).1.current = line.current := by
  cases change_step ho hi with
  | stay same | proceed same | greet same | connect same => exact same.current
  | renew told => exact absurd told hrenew

/-- Whether the current link was greeted is not a matter of the queue. -/
theorem Unmet.congr (h : line.Unmet) (attempts : b.attempts = line.attempts)
    (current : b.current = line.current) (status : b.status = line.status) : b.Unmet := by
  obtain ⟨k, a, found, link, again, sole, early⟩ := h
  refine ⟨k, a, attempts ▸ found, link.trans current.symm, again, ?_, ?_⟩
  · rw [attempts, current]
    exact sole
  · rw [status]
    exact early

/-- A link that was not greeted has not answered, when a connected line rests. -/
theorem Unmet.waiting (h : line.Unmet) (hrest : line.Resting) (hs : line.status = .connected) :
    ∃ k a, line.UnmetBy k a ∧ a.phase = .waiting := by
  obtain ⟨k, a, hunmet⟩ := h
  refine ⟨k, a, hunmet, (hrest.phase (List.mem_of_getElem? hunmet.found)).resolve_right ?_⟩
  intro hp
  rcases hunmet.early with hearly | ⟨-, hlost⟩
  · rw [hp] at hearly
    cases hearly
  · rw [hs] at hlost
    cases hlost

/-- No other attempt on the link has an outcome then. -/
theorem UnmetBy.not_met {k : Nat} {a : Attempt} (h : line.UnmetBy k a) (hp : a.phase = .waiting) :
    ¬line.Met line.current := by
  rintro ⟨j, b, hb, hlink, hphase⟩
  obtain rfl := h.sole j b hb hlink
  obtain rfl := Option.some.inj (h.found.symm.trans hb)
  exact hphase hp

/-! ### Greetings that are not done -/

/-- A greeting is about to queue a request. -/
def Pending (line : Line) (text : String) : Prop :=
  ∃ a ∈ line.attempts, .queue text ∈ a.phase.calls

theorem pending_of_same (attempts : b.attempts = line.attempts) {text : String} :
    b.Pending text ↔ line.Pending text := by
  unfold Pending
  rw [attempts]

/-- A line that rests has done its greetings. -/
theorem Resting.not_pending (hrest : line.Resting) (text : String) : ¬line.Pending text := by
  rintro ⟨a, ha, hc⟩
  rcases hrest.phase ha with hp | hp <;> rw [hp] at hc <;> cases hc

/-- What an attempt has left to call, and what it queues, it had to call before. -/
theorem Proceeds.pending_iff {a : Attempt} {phase : AttemptPhase} {status : Status}
    {texts : List String} (h : Proceeds line a phase status texts) {text : String} :
    .queue text ∈ a.phase.calls ↔ .queue text ∈ phase.calls ∨ text ∈ texts := by
  cases h with
  | call hp => rw [hp]; simp [AttemptPhase.calls, or_comm]
  | settle opened hp => rw [hp]; simp [AttemptPhase.calls]
  | _ hp => rw [hp]; simp [AttemptPhase.calls]

/-- **A step queues what is pending**, or leaves it pending; and nothing else becomes pending. -/
theorem pending_step (ho : line.Owned) {i : Input} (hi : i.lasting = true) {text : String} :
    line.Pending text ↔ (line.step i).1.Pending text ∨ text ∈ line.requestsBy i := by
  have hgiven : i.given = [] := by
    cases i with
    | call c => cases c <;> first | rfl | cases hi
    | _ => rfl
  have hadded : ∀ {link : Nat}, line.requestsBy i = [] →
      (line.step i).1.attempts = line.attempts ++ [{ link := link, again := true }] →
      (line.Pending text ↔ (line.step i).1.Pending text ∨ text ∈ line.requestsBy i) := by
    intro link hrequests hattempts
    rw [hrequests, or_iff_left List.not_mem_nil]
    unfold Pending
    rw [hattempts]
    constructor
    · rintro ⟨a, ha, hc⟩
      exact ⟨a, List.mem_append_left _ ha, hc⟩
    · rintro ⟨a, ha, hc⟩
      rcases List.mem_append.mp ha with ha | ha
      · exact ⟨a, ha, hc⟩
      · obtain rfl := List.mem_singleton.mp ha
        cases hc
  cases change_step ho (Input.civil_of_lasting hi) with
  | stay same attempts status requests =>
    rw [requests, hgiven, or_iff_left List.not_mem_nil, pending_of_same attempts]
  | @proceed index a phase same found proceeds attempts =>
    unfold Pending
    rw [attempts]
    constructor
    · rintro ⟨a', ha', hc⟩
      obtain ⟨j, hj⟩ := List.mem_iff_getElem?.mp ha'
      have hmoved : (setAttempt index phase line).attempts[j]? =
          some (if index = j then { a' with phase } else a') := by
        rw [getElem?_setAttempt, hj]
        rfl
      by_cases hindex : index = j
      · subst hindex
        obtain rfl := Option.some.inj (found.symm.trans hj)
        rw [if_pos rfl] at hmoved
        refine (proceeds.pending_iff.mp hc).imp_left fun hc => ?_
        exact ⟨_, List.mem_of_getElem? hmoved, hc⟩
      · rw [if_neg hindex] at hmoved
        exact .inl ⟨a', List.mem_of_getElem? hmoved, hc⟩
    · rintro (⟨a', ha', hc⟩ | htext)
      · rcases mem_setAttempt ha' with ha' | ⟨a'', hfound, rfl⟩
        · exact ⟨a', ha', hc⟩
        · obtain rfl := Option.some.inj (found.symm.trans hfound)
          exact ⟨a, List.mem_of_getElem? found, proceeds.pending_iff.mpr (.inl hc)⟩
      · exact ⟨a, List.mem_of_getElem? found, proceeds.pending_iff.mpr (.inr htext)⟩
  | greet same told => rw [told] at hi; cases hi
  | connect same told => rw [told] at hi; cases hi
  | renew told current attempts =>
    refine hadded ?_ attempts
    rw [told]
    simp [requestsBy, callsBy, ho.owned, Call.requests]

/-- Who is due is told how to greet. -/
theorem greet_of_due {index : Nat} (hdue : line.isDue index = true) (calls : List Call) :
    (line.step (.greet index calls)).1 = Line.setAttempt index (.greeting calls) line := by
  obtain ⟨a, ha, hp⟩ := isDue_iff.mp hdue
  rw [step, advanceAttempt, ha]
  exact if_pos hp

/-- **A greeting makes its requests pending**, and leaves those of other greetings so. -/
theorem pending_greet {index : Nat} (hdue : line.isDue index = true) (calls : List Call)
    {text : String} :
    (line.step (.greet index calls)).1.Pending text ↔ line.Pending text ∨ .queue text ∈ calls := by
  obtain ⟨a, ha, hp⟩ := isDue_iff.mp hdue
  rw [greet_of_due hdue]
  constructor
  · rintro ⟨a', ha', hc⟩
    rcases mem_setAttempt ha' with ha' | ⟨a'', -, rfl⟩
    · exact .inl ⟨a', ha', hc⟩
    · exact .inr hc
  · rintro (⟨a', ha', hc⟩ | hc)
    · obtain ⟨j, hj⟩ := List.mem_iff_getElem?.mp ha'
      have hother : index ≠ j := by
        rintro rfl
        obtain rfl := Option.some.inj (ha.symm.trans hj)
        rw [hp] at hc
        cases hc
      refine ⟨a', List.mem_of_getElem? (i := j) ?_, hc⟩
      rw [getElem?_setAttempt, hj, Option.map_some, if_neg hother]
    · exact ⟨_, List.mem_of_getElem? (getElem?_setAttempt_self ha _), hc⟩

end Line
end NodeClient
