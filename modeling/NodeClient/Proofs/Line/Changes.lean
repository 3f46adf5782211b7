import NodeClient.Proofs.Line.Replacing
import NodeClient.Proofs.Line.Rest

/-!
# Line changes — what a step does to a line whose owner keeps it

The attempts of a line are all that a greeting is about: where they stand, which links they are on,
and the status that they leave.  Each step either leaves them, lets one of them go on, tells one how
to greet, or adds one.

* `Input.civil`, `Input.renewing`, `Input.lasting`: what happens to a line whose owner keeps it,
  that moreover gets a new link whenever it is connected, and whose greetings come from elsewhere.
* `Proceeds`: all that an attempt does on such a line; `change_step`: all that a step does.
* `Kept`: the owner keeps the line, and no task of it is on a link that is to come.
* `met_of_opened`: a link that has opened has told an attempt so.
-/

namespace NodeClient
namespace Line

variable {line b : Line}

/-! ### The owner of a lasting line -/

/-- The owner keeps the line and greets its links, and greetings only queue requests. -/
structure Owned (line : Line) : Prop where
  owned : line.dropped = false
  greets : line.greets = true
  polite : ∀ a ∈ line.attempts, ∀ c ∈ a.phase.calls, c.queues = true

/-- The owner keeps the line, and greets its links politely. -/
def Input.civil : Input → Bool
  | .drop => false
  | i => i.polite

/-- The owner keeps the line, tells it to disconnect or to reconnect, and leaves the requests and
the greetings to others. -/
def Input.lasting : Input → Bool
  | .call .disconnect | .call .reconnect => true
  | .call _ | .greet .. | .drop => false
  | _ => true

theorem Input.civil_of_lasting {i : Input} (h : i.lasting = true) : i.civil = true := by
  cases i with
  | greet index calls => cases h
  | drop => cases h
  | _ => rfl

/-- The requests that an input gives to the line at once. -/
def Input.given : Input → List String
  | .call c => c.requests
  | _ => []

theorem Input.polite_of_civil {i : Input} (h : i.civil = true) : i.polite = true := by
  cases i with
  | drop => cases h
  | _ => exact h

theorem Input.civil_of_plain {i : Input} (h : i.plain = true) : i.civil = true := by
  cases i with
  | drop => cases h
  | greet index calls =>
    obtain rfl := List.isEmpty_iff.mp h
    rfl
  | _ => rfl

/-- The line gets a new link whenever it is connected. -/
def Input.renewing : Input → Bool
  | .call .connect => false
  | i => i.civil

theorem Input.civil_of_renewing {i : Input} (h : i.renewing = true) : i.civil = true := by
  unfold renewing at h
  split at h
  · cases h
  · exact h

theorem Input.ne_connect_of_renewing {i : Input} (h : i.renewing = true) : i ≠ .call .connect := by
  rintro rfl
  cases h

theorem Input.renewing_of_lasting {i : Input} (h : i.lasting = true) : i.renewing = true := by
  unfold renewing
  split
  · cases h
  · exact Input.civil_of_lasting h

/-! ### What a step does -/

/-- What an attempt does next: its phase, the status that it leaves, and what it queues. -/
inductive Proceeds (line : Line) (a : Attempt) : AttemptPhase → Status → List String → Prop where
  | settle (opened : Bool) : a.phase = .waiting → Proceeds line a (.settled opened) line.status []
  | quit {opened : Bool} : a.phase = .settled opened → line.current ≠ a.link →
      Proceeds line a .over line.status []
  | fail : a.phase = .settled false → line.current = a.link →
      Proceeds line a .failing line.status []
  | await : a.phase = .settled true → line.current = a.link → a.again = true →
      Proceeds line a .due line.status []
  | skip : a.phase = .settled true → line.current = a.link → a.again = false →
      Proceeds line a .confirming line.status []
  | call {text : String} {calls : List Call} : a.phase = .greeting (.queue text :: calls) →
      Proceeds line a (.greeting calls) line.status [text]
  | finish : a.phase = .greeting [] → Proceeds line a .confirming line.status []
  | confirm : a.phase = .confirming → line.status = .connecting →
      Proceeds line a .over .connected []
  | keep : a.phase = .confirming → line.status ≠ .connecting →
      Proceeds line a .over line.status []
  | look : a.phase = .failing → line.current = a.link → Proceeds line a .losing line.status []
  | forget : a.phase = .failing → line.current ≠ a.link → Proceeds line a .over line.status []
  | lose : a.phase = .losing → Proceeds line a .over .disconnected []

/-- Nothing changes but the attempts, the status, the forwarders and the queue. -/
structure SameOwner (a b : Line) : Prop where
  current : b.current = a.current
  dropped : b.dropped = a.dropped
  greets : b.greets = a.greets

/-- What an input does to the attempts of a line, to its link and to its status. -/
inductive Change (line : Line) (i : Input) (b : Line) : Prop where
  /-- No attempt goes on; the connection may be lost. -/
  | stay (same : SameOwner line b) (attempts : b.attempts = line.attempts)
      (status : b.status = line.status ∨ b.status = .disconnected)
      (requests : line.requestsBy i = i.given)
  /-- An attempt goes on. -/
  | proceed {index : Nat} {a : Attempt} {phase : AttemptPhase} (same : SameOwner line b)
      (found : line.attempts[index]? = some a)
      (proceeds : Proceeds line a phase b.status (line.requestsBy i))
      (attempts : b.attempts = (setAttempt index phase line).attempts)
  /-- An attempt is told how to greet. -/
  | greet {index : Nat} {calls : List Call} {a : Attempt} (same : SameOwner line b)
      (told : i = .greet index calls) (found : line.attempts[index]? = some a)
      (due : a.phase = .due)
      (attempts : b.attempts = (setAttempt index (.greeting calls) line).attempts)
      (status : b.status = line.status)
  /-- The link is connected once more. -/
  | connect (same : SameOwner line b) (told : i = .call .connect)
      (attempts : b.attempts = line.attempts ++ [{ link := line.current, again := false }])
      (status : b.status = .connecting)
  /-- A new link comes. -/
  | renew (told : i = .call .reconnect) (current : b.current = line.forwarders.length)
      (attempts : b.attempts = line.attempts ++ [{ link := b.current, again := true }])
      (status : b.status = .connecting) (dropped : b.dropped = line.dropped)
      (greets : b.greets = line.greets)

/-- An attempt goes on without a call. -/
theorem change_of_quiet {index : Nat} {a : Attempt} (ha : line.attempts[index]? = some a)
    {before after : AttemptPhase} (hp : a.phase = before) (hcalls : before.calls = [])
    (same : SameOwner line b) (attempts : b.attempts = (setAttempt index after line).attempts)
    (h : Proceeds line a after b.status []) : Change line (.act (.attempt index)) b := by
  have hnone : line.requestsBy (.act (.attempt index)) = [] := by
    rw [requestsBy, callsBy_attempt ha, hp, hcalls]
    rfl
  exact .proceed same ha (hnone ▸ h) attempts

/-- An action of an attempt is one that `Proceeds` tells. -/
theorem change_of_act (ho : line.Owned) {index : Nat} {next : Line × List Effect}
    (h : line.actAttempt? index = some next) : Change line (.act (.attempt index)) next.1 := by
  obtain ⟨a, ha, htries⟩ := tries_of_act h
  cases htries with
  | quit hp hleft =>
    have hother : line.current ≠ a.link := by simpa [isHeld, ho.owned] using hleft
    exact change_of_quiet ha hp rfl ⟨rfl, rfl, rfl⟩ rfl (.quit hp hother)
  | fail hp _ hlink =>
    exact change_of_quiet ha hp rfl ⟨rfl, rfl, rfl⟩ rfl (.fail hp hlink)
  | await hp _ hlink hagain =>
    exact change_of_quiet ha hp rfl ⟨rfl, rfl, rfl⟩ rfl (.await hp hlink hagain)
  | skip hp _ hlink hno =>
    have hfirst : a.again = false := hno.resolve_right (by simp [ho.greets])
    exact change_of_quiet ha hp rfl ⟨rfl, rfl, rfl⟩ rfl (.skip hp hlink hfirst)
  | finish hp =>
    exact change_of_quiet ha hp rfl ⟨rfl, rfl, rfl⟩ rfl (.finish hp)
  | @greet c calls hp =>
    have hqueues := ho.polite a (List.mem_of_getElem? ha) c (by rw [hp]; exact .head calls)
    obtain ⟨text, rfl⟩ : ∃ text, c = .queue text := by
      cases c with
      | queue text => exact ⟨text, rfl⟩
      | _ => cases hqueues
    have hrequests : line.requestsBy (.act (.attempt index)) = [text] := by
      rw [requestsBy, callsBy_attempt ha, hp]
      rfl
    exact .proceed ⟨rfl, rfl, rfl⟩ ha (hrequests ▸ .call hp) rfl
  | confirm hp hs =>
    rw [setStatus_fst]
    exact change_of_quiet ha hp rfl ⟨rfl, rfl, rfl⟩ rfl (.confirm hp hs)
  | miss hp hs =>
    exact change_of_quiet ha hp rfl ⟨rfl, rfl, rfl⟩ rfl (.keep hp hs)
  | blame hp hlink =>
    exact change_of_quiet ha hp rfl ⟨rfl, rfl, rfl⟩ rfl (.look hp hlink)
  | forgive hp hlink =>
    exact change_of_quiet ha hp rfl ⟨rfl, rfl, rfl⟩ rfl (.forget hp hlink)
  | lose hp =>
    rw [setStatus_fst]
    exact change_of_quiet ha hp rfl ⟨rfl, rfl, rfl⟩ rfl (.lose hp)

/-- **What a step does** to a line whose owner keeps it. -/
theorem change_step (ho : line.Owned) {i : Input} (hi : i.civil = true) :
    Change line i (line.step i).1 := by
  cases i with
  | call c =>
    have hstep : line.step (.call c) = line.call c := by simp [step, ho.owned]
    have hrequests : line.requestsBy (.call c) = Input.given (.call c) := by
      simp [requestsBy, callsBy, ho.owned, Input.given]
    rw [hstep]
    cases c with
    | queue text => exact .stay ⟨rfl, rfl, rfl⟩ rfl (.inl rfl) hrequests
    | connect =>
      rcases line.connect_fst with heq | heq <;> rw [heq]
      · exact .stay ⟨rfl, rfl, rfl⟩ rfl (.inl rfl) hrequests
      · exact .connect ⟨rfl, rfl, rfl⟩ rfl rfl rfl
    | disconnect =>
      rw [disconnect_fst]
      exact .stay ⟨rfl, rfl, rfl⟩ rfl (.inr rfl) hrequests
    | reconnect =>
      rw [reconnect_fst]
      exact .renew rfl rfl rfl rfl rfl rfl
  | event link e =>
    obtain ⟨forwarders, -, heq⟩ := line.takeEvent_eq link e
    rw [step, heq]
    exact .stay ⟨rfl, rfl, rfl⟩ rfl (.inl rfl) rfl
  | settled index opened =>
    rw [step, advanceAttempt]
    split
    · next a ha =>
      split
      · next hp => exact .proceed ⟨rfl, rfl, rfl⟩ ha (.settle opened hp) rfl
      · exact .stay ⟨rfl, rfl, rfl⟩ rfl (.inl rfl) rfl
    · exact .stay ⟨rfl, rfl, rfl⟩ rfl (.inl rfl) rfl
  | greet index calls =>
    rw [step, advanceAttempt]
    split
    · next a ha =>
      split
      · next hp => exact .greet ⟨rfl, rfl, rfl⟩ rfl ha hp rfl rfl
      · exact .stay ⟨rfl, rfl, rfl⟩ rfl (.inl rfl) rfl
    · exact .stay ⟨rfl, rfl, rfl⟩ rfl (.inl rfl) rfl
  | drop => cases hi
  | sent ok =>
    rw [step, sent]
    split
    · split <;> exact .stay ⟨rfl, rfl, rfl⟩ rfl (.inl rfl) rfl
    · exact .stay ⟨rfl, rfl, rfl⟩ rfl (.inl rfl) rfl
  | act task =>
    rw [step]
    cases hact : line.act? task with
    | none =>
      refine .stay ⟨rfl, rfl, rfl⟩ rfl (.inl rfl) ?_
      rw [requestsBy, callsBy_of_act_none hact]
      rfl
    | some next =>
      cases task with
      | forwarder link =>
        have hstatus := actForwarder_status hact
        obtain ⟨status, forwarders, -, heq⟩ := actForwarder_fst hact
        rw [Option.getD_some]
        rw [heq] at hstatus ⊢
        exact .stay ⟨rfl, rfl, rfl⟩ rfl hstatus rfl
      | attempt index => exact change_of_act ho hact
      | drain =>
        have hdrains := drains_of_act hact
        rw [Option.getD_some]
        generalize next.1 = after at hdrains ⊢
        cases hdrains with
        | lose => exact .stay ⟨rfl, rfl, rfl⟩ rfl (.inr rfl) rfl
        | _ => exact .stay ⟨rfl, rfl, rfl⟩ rfl (.inl rfl) rfl

theorem getElem?_setAttempt (index : Nat) (phase : AttemptPhase) (line : Line) (j : Nat) :
    (setAttempt index phase line).attempts[j]? =
      (line.attempts[j]?).map fun a => if index = j then { a with phase } else a :=
  List.getElem?_modify ..

theorem getElem?_setAttempt_self {index : Nat} {a : Attempt} (ha : line.attempts[index]? = some a)
    (phase : AttemptPhase) :
    (setAttempt index phase line).attempts[index]? = some { a with phase } := by
  rw [getElem?_setAttempt, ha, Option.map_some, if_pos rfl]

/-- An attempt is told to greet politely, or goes on politely. -/
theorem Owned.setAttempt (ho : line.Owned) {index : Nat} {phase : AttemptPhase}
    (hcalls : ∀ c ∈ phase.calls, c.queues = true) (same : SameOwner line b)
    (attempts : b.attempts = (setAttempt index phase line).attempts) : b.Owned := by
  refine ⟨same.dropped.trans ho.owned, same.greets.trans ho.greets, fun a ha c hc => ?_⟩
  rw [attempts] at ha
  rcases mem_setAttempt ha with ha | ⟨a', -, rfl⟩
  · exact ho.polite a ha c hc
  · exact hcalls c hc

/-- A new attempt makes no calls. -/
theorem Owned.concat (ho : line.Owned) {link : Nat} {again : Bool}
    (dropped : b.dropped = line.dropped) (greets : b.greets = line.greets)
    (attempts : b.attempts = line.attempts ++ [{ link := link, again := again }]) : b.Owned := by
  refine ⟨dropped.trans ho.owned, greets.trans ho.greets, fun a ha => ?_⟩
  rw [attempts, List.mem_append, List.mem_singleton] at ha
  rcases ha with ha | rfl
  · exact ho.polite a ha
  · exact nofun

/-- What an attempt has left to call, it had to call before. -/
theorem Proceeds.calls {a : Attempt} {phase : AttemptPhase} {status : Status} {texts : List String}
    (h : Proceeds line a phase status texts) : ∀ c ∈ phase.calls, c ∈ a.phase.calls := by
  cases h with
  | call hp =>
    intro c hc
    rw [hp]
    exact .tail _ hc
  | _ => exact nofun

theorem Proceeds.not_waiting {a : Attempt} {phase : AttemptPhase} {status : Status}
    {texts : List String} (h : Proceeds line a phase status texts) : phase ≠ .waiting := by
  cases h <;> exact nofun

theorem Owned.step (ho : line.Owned) {i : Input} (hi : i.civil = true) :
    (line.step i).1.Owned := by
  cases change_step ho hi with
  | stay same attempts =>
    exact ⟨same.dropped.trans ho.owned, same.greets.trans ho.greets, attempts ▸ ho.polite⟩
  | proceed same found proceeds attempts =>
    refine ho.setAttempt (fun c hc => ?_) same attempts
    exact ho.polite _ (List.mem_of_getElem? found) c (proceeds.calls c hc)
  | greet same told found due attempts status =>
    subst told
    refine ho.setAttempt ?_ same attempts
    exact List.all_eq_true.mp hi
  | connect same told attempts => exact ho.concat same.dropped same.greets attempts
  | renew told current attempts status dropped greets => exact ho.concat dropped greets attempts

/-! ### The links of the attempts -/

/-- The owner keeps the line, and no task of it is on a link that is to come. -/
structure Kept (line : Line) : Prop where
  owner : line.Owned
  newest : line.Newest
  links : ∀ a ∈ line.attempts, a.link ≤ line.current

theorem kept_start : Kept { greets := true } :=
  ⟨⟨rfl, rfl, nofun⟩, newest_start true, nofun⟩

theorem Kept.step (h : line.Kept) {i : Input} (hi : i.civil = true) : (line.step i).1.Kept := by
  obtain ⟨hnewest, hle⟩ := h.newest.step i
  refine ⟨h.owner.step hi, hnewest, fun a ha => ?_⟩
  have hold : ∀ a ∈ line.attempts, a.link ≤ (line.step i).1.current := fun a ha =>
    Nat.le_trans (h.links a ha) hle
  have hmoved : ∀ {index : Nat} {phase : AttemptPhase},
      a ∈ (setAttempt index phase line).attempts → a.link ≤ (line.step i).1.current := by
    intro index phase ha
    rcases mem_setAttempt ha with ha | ⟨a', ha', rfl⟩
    · exact hold a ha
    · exact hold a' (List.mem_of_getElem? ha')
  cases change_step h.owner hi with
  | stay same attempts => exact hold a (attempts ▸ ha)
  | proceed same found proceeds attempts => exact hmoved (attempts ▸ ha)
  | greet same told found due attempts => exact hmoved (attempts ▸ ha)
  | connect same told attempts =>
    rw [attempts, List.mem_append, List.mem_singleton] at ha
    rcases ha with ha | rfl
    · exact hold a ha
    · exact hle
  | renew told current attempts =>
    rw [attempts, List.mem_append, List.mem_singleton] at ha
    rcases ha with ha | rfl
    · exact hold a ha
    · exact Nat.le_refl _

theorem Kept.run (h : line.Kept) {inputs : List Input} (hi : ∀ i ∈ inputs, i.civil = true) :
    (line.run inputs).1.Kept := by
  induction inputs generalizing line with
  | nil => exact h
  | cons i rest ih =>
    obtain ⟨hfirst, hrest⟩ := List.forall_mem_cons.mp hi
    exact ih (h.step hfirst) hrest

/-- An attempt on the link has its outcome. -/
def Met (line : Line) (link : Nat) : Prop :=
  ∃ (j : Nat) (a : Attempt), line.attempts[j]? = some a ∧ a.link = link ∧ a.phase ≠ .waiting

theorem Met.step (ho : line.Owned) {i : Input} (hi : i.civil = true) {link : Nat}
    (h : line.Met link) : (line.step i).1.Met link := by
  obtain ⟨j, a, ha, hlink, hphase⟩ := h
  have hmoved : ∀ {index : Nat} {phase : AttemptPhase}, phase ≠ .waiting →
      (line.step i).1.attempts = (setAttempt index phase line).attempts →
      (line.step i).1.Met link := by
    intro index phase hnew hattempts
    refine ⟨j, if index = j then { a with phase } else a, ?_, ?_, ?_⟩
    · rw [hattempts, getElem?_setAttempt, ha]
      rfl
    · split <;> exact hlink
    · split
      · exact hnew
      · exact hphase
  have hadded : ∀ {new : Attempt}, (line.step i).1.attempts = line.attempts ++ [new] →
      (line.step i).1.Met link := by
    intro new hattempts
    refine ⟨j, a, ?_, hlink, hphase⟩
    rw [hattempts, List.getElem?_append_left (List.getElem?_eq_some_iff.mp ha).1]
    exact ha
  cases change_step ho hi with
  | stay same attempts => exact ⟨j, a, attempts ▸ ha, hlink, hphase⟩
  | proceed same found proceeds attempts => exact hmoved proceeds.not_waiting attempts
  | @greet index calls a same told found due attempts =>
    have hgreeting : AttemptPhase.greeting calls ≠ .waiting := nofun
    exact hmoved hgreeting attempts
  | connect same told attempts => exact hadded attempts
  | renew told current attempts => exact hadded attempts

theorem met_of_openedBy {i : Input} {link : Nat} (h : link ∈ line.openedBy i) :
    (line.step i).1.Met link := by
  unfold openedBy at h
  split at h
  · next index =>
    split at h
    · next a ha =>
      split at h
      · next hp =>
        obtain rfl := List.mem_singleton.mp h
        refine ⟨index, { a with phase := .settled true }, ?_, rfl, nofun⟩
        rw [step, advanceAttempt, ha]
        dsimp only
        rw [if_pos hp]
        exact getElem?_setAttempt_self ha _
      · cases h
    · cases h
  · cases h

/-- A link that has opened has told an attempt so. -/
theorem met_of_opened (ho : line.Owned) {inputs : List Input} (hi : ∀ i ∈ inputs, i.civil = true)
    {link : Nat} (h : line.Met link ∨ link ∈ line.opened inputs) :
    (line.run inputs).1.Met link := by
  induction inputs generalizing line with
  | nil => exact h.resolve_right List.not_mem_nil
  | cons i rest ih =>
    obtain ⟨hfirst, hrest⟩ := List.forall_mem_cons.mp hi
    refine ih (ho.step hfirst) hrest ?_
    rcases h with hmet | hopened
    · exact .inl (hmet.step ho hfirst)
    · rcases List.mem_append.mp hopened with hnow | hlater
      · exact .inl (met_of_openedBy hnow)
      · exact .inr hlater

end Line
end NodeClient
