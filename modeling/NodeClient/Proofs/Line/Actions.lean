import NodeClient.Line.Step

/-!
# Line actions — what each action of a line changes

One lemma for each operation of a line says which fields it changes.  What a line keeps is shown
from these lemmas, and not from the operations.

* `connect_fst`, `disconnect_fst`, `reconnect_fst`: the calls.
* `takeEvent_eq`, `advanceAttempt_cases`: what links and the owner report.
* `Forwards`, `Tries`, `Drains`: all that forwarders, attempts and the draining task can do.
* `actForwarder_fst`, `actAttempt_cases`, `actDrain_cases`: what most proofs need of these.
-/

namespace NodeClient
namespace Line

/-! ### Calls -/

/-- Setting the status changes nothing else. -/
theorem setStatus_fst (s : Status) (line : Line) :
    (setStatus s line).1 = { line with status := s } := by
  unfold setStatus
  split
  · next h => rw [← h]
  · rfl

theorem startConnecting_fst (again : Bool) (line : Line) :
    (startConnecting again line).1 =
      { line with
        status := .connecting
        attempts := line.attempts ++ [{ link := line.current, again }] } := by
  simp only [startConnecting, andThen, setStatus_fst]

theorem connect_fst (line : Line) :
    (line.call .connect).1 = line ∨
      (line.call .connect).1 =
        { line with
          status := .connecting
          attempts := line.attempts ++ [{ link := line.current, again := false }] } := by
  rw [call]
  split
  · exact .inl rfl
  · exact .inr (startConnecting_fst false line)

theorem disconnect_fst (line : Line) :
    (line.call .disconnect).1 = { line with status := .disconnected } :=
  setStatus_fst .disconnected line

theorem reconnect_fst (line : Line) :
    (line.call .reconnect).1 =
      { line with
        status := .connecting
        current := line.forwarders.length
        forwarders := (line.forwarders ++ [({} : Forwarder)]).modify line.current fun f =>
          { f with stopped := true }
        attempts := line.attempts ++ [{ link := line.forwarders.length, again := true }] } := by
  simp only [call, andThen, startConnecting_fst, replaceLink, setStatus_fst, stopForwarder]

/-! ### Outcomes -/

@[simp] theorem setForwarder_length (link : Nat) (phase : ForwarderPhase) (line : Line) :
    (setForwarder link phase line).forwarders.length = line.forwarders.length :=
  List.length_modify ..

@[simp] theorem stopForwarder_length (link : Nat) (line : Line) :
    (stopForwarder link line).forwarders.length = line.forwarders.length :=
  List.length_modify ..

theorem takeEvent_eq (line : Line) (link : Nat) (e : LinkEvent) :
    ∃ forwarders, forwarders.length = line.forwarders.length ∧
      line.takeEvent link e = { line with forwarders } := by
  unfold takeEvent
  split
  · split
    · exact ⟨_, setForwarder_length .., rfl⟩
    · exact ⟨_, rfl, rfl⟩
  · exact ⟨_, rfl, rfl⟩

theorem advanceAttempt_cases (line : Line) (index : Nat) (source target : AttemptPhase) :
    line.advanceAttempt index source target = line ∨
      line.advanceAttempt index source target = setAttempt index target line := by
  unfold advanceAttempt
  split
  · split
    · exact .inr rfl
    · exact .inl rfl
  · exact .inl rfl

/-! ### Forwarders -/

/-- What the forwarder of a link does, by where it stands. -/
inductive Forwards (line : Line) (link : Nat) (f : Forwarder) : Line × List Effect → Prop where
  | leave {e : LinkEvent} : f.phase = .taken e → line.isHeld = false →
      Forwards line link f (stopForwarder link (setForwarder link .listening line), [])
  | keep {e : LinkEvent} : f.phase = .taken e → line.isHeld = true →
      (∃ text, e = .message text) ∨ line.current ≠ link →
        Forwards line link f (setForwarder link (.passing e) line, [])
  | blame {e : LinkEvent} : f.phase = .taken e → line.isHeld = true →
      (∀ text, e ≠ .message text) → line.current = link →
        Forwards line link f (setForwarder link (.losing e) line, [])
  | lose {e : LinkEvent} : f.phase = .losing e →
      Forwards line link f (setStatus .disconnected (setForwarder link (.passing e) line))
  | pass {e : LinkEvent} : f.phase = .passing e →
      Forwards line link f (setForwarder link .listening line, [.event link e])

theorem forwards_of_act {line : Line} {link : Nat} {next : Line × List Effect}
    (h : line.actForwarder? link = some next) :
    ∃ f, line.forwarders[link]? = some f ∧ Forwards line link f next := by
  unfold actForwarder? at h
  split at h
  · cases h
  · next f hf =>
    refine ⟨f, hf, ?_⟩
    split at h
    · cases h
    · next e hp =>
      split at h
      · next hfree =>
        obtain rfl := Option.some.inj h
        exact .leave hp (by simpa using hfree)
      · next hheld =>
        have hheld : line.isHeld = true := by simpa using hheld
        split at h
        · next text =>
          obtain rfl := Option.some.inj h
          exact .keep hp hheld (.inl ⟨text, rfl⟩)
        · next hother =>
          split at h
          · next hlink => obtain rfl := Option.some.inj h; exact .blame hp hheld hother hlink
          · next hlink => obtain rfl := Option.some.inj h; exact .keep hp hheld (.inr hlink)
    · next hp => obtain rfl := Option.some.inj h; exact .lose hp
    · next hp => obtain rfl := Option.some.inj h; exact .pass hp

theorem actForwarder_fst {line : Line} {link : Nat} {next : Line × List Effect}
    (h : line.actForwarder? link = some next) :
    ∃ status forwarders, forwarders.length = line.forwarders.length ∧
      next.1 = { line with status, forwarders } := by
  obtain ⟨f, -, hf⟩ := forwards_of_act h
  cases hf with
  | leave => exact ⟨_, _, (stopForwarder_length ..).trans (setForwarder_length ..), rfl⟩
  | keep | blame | pass => exact ⟨_, _, setForwarder_length .., rfl⟩
  | lose => exact ⟨_, _, setForwarder_length .., setStatus_fst _ _⟩

theorem actForwarder_status {line : Line} {link : Nat} {next : Line × List Effect}
    (h : line.actForwarder? link = some next) :
    next.1.status = line.status ∨ next.1.status = .disconnected := by
  obtain ⟨f, -, hf⟩ := forwards_of_act h
  cases hf with
  | leave | keep | blame | pass => exact .inl rfl
  | lose =>
    rw [setStatus_fst]
    exact .inr rfl

/-! ### Attempts -/

/-- What an attempt does, by where it stands. -/
inductive Tries (line : Line) (index : Nat) (a : Attempt) : Line × List Effect → Prop where
  | quit {opened : Bool} : a.phase = .settled opened →
      line.isHeld = false ∨ line.current ≠ a.link →
        Tries line index a (setAttempt index .over line, [])
  | fail : a.phase = .settled false → line.isHeld = true → line.current = a.link →
      Tries line index a (setAttempt index .failing line, [])
  | await : a.phase = .settled true → line.isHeld = true → line.current = a.link →
      a.again = true → line.greets = true → Tries line index a (setAttempt index .due line, [])
  | skip : a.phase = .settled true → line.isHeld = true → line.current = a.link →
      a.again = false ∨ line.greets = false →
        Tries line index a (setAttempt index .confirming line, [])
  | finish : a.phase = .greeting [] →
      Tries line index a (setAttempt index .confirming line, [])
  | greet {c : Call} {calls : List Call} : a.phase = .greeting (c :: calls) →
      Tries line index a ((setAttempt index (.greeting calls) line).call c)
  | confirm : a.phase = .confirming → line.status = .connecting →
      Tries line index a (setStatus .connected (setAttempt index .over line))
  | miss : a.phase = .confirming → line.status ≠ .connecting →
      Tries line index a (setAttempt index .over line, [])
  | blame : a.phase = .failing → line.current = a.link →
      Tries line index a (setAttempt index .losing line, [])
  | forgive : a.phase = .failing → line.current ≠ a.link →
      Tries line index a (setAttempt index .over line, [])
  | lose : a.phase = .losing →
      Tries line index a (setStatus .disconnected (setAttempt index .over line))

theorem tries_of_act {line : Line} {index : Nat} {next : Line × List Effect}
    (h : line.actAttempt? index = some next) :
    ∃ a, line.attempts[index]? = some a ∧ Tries line index a next := by
  unfold actAttempt? at h
  split at h
  · cases h
  · next a ha =>
    refine ⟨a, ha, ?_⟩
    split at h
    · cases h
    · cases h
    · cases h
    · next opened hp =>
      split at h
      · next hleft =>
        obtain rfl := Option.some.inj h
        exact .quit hp (by simpa using hleft)
      · next hlook =>
        obtain ⟨hheld, hlink⟩ : line.isHeld = true ∧ line.current = a.link := by simpa using hlook
        split at h
        · next hfailed =>
          obtain rfl : opened = false := by simpa using hfailed
          obtain rfl := Option.some.inj h
          exact .fail hp hheld hlink
        · next hopened =>
          obtain rfl : opened = true := by simpa using hopened
          split at h
          · next hboth =>
            obtain ⟨hagain, hgreets⟩ := Bool.and_eq_true_iff.mp hboth
            obtain rfl := Option.some.inj h
            exact .await hp hheld hlink hagain hgreets
          · next hno =>
            obtain rfl := Option.some.inj h
            exact .skip hp hheld hlink (Bool.and_eq_false_iff.mp (Bool.eq_false_iff.mpr hno))
    · next hp => obtain rfl := Option.some.inj h; exact .finish hp
    · next hp => obtain rfl := Option.some.inj h; exact .greet hp
    · next hp =>
      dsimp only at h
      split at h
      · next hs => obtain rfl := Option.some.inj h; exact .confirm hp hs
      · next hs => obtain rfl := Option.some.inj h; exact .miss hp hs
    · next hp =>
      split at h
      · next hlink => obtain rfl := Option.some.inj h; exact .blame hp hlink
      · next hlink => obtain rfl := Option.some.inj h; exact .forgive hp hlink
    · next hp => obtain rfl := Option.some.inj h; exact .lose hp

/-- The calls that an attempt still makes. -/
def AttemptPhase.calls : AttemptPhase → List Call
  | .greeting calls => calls
  | _ => []

/-- An attempt makes the next call of its greeting, or moves on and at most sets the status. -/
theorem actAttempt_cases {line : Line} {index : Nat} {next : Line × List Effect}
    (h : line.actAttempt? index = some next) :
    ∃ a, line.attempts[index]? = some a ∧
      ((∃ c calls, a.phase = .greeting (c :: calls) ∧
          next = (setAttempt index (.greeting calls) line).call c) ∨
        (a.phase.calls = [] ∧ ∃ status phase, AttemptPhase.calls phase = [] ∧
          next.1 = { setAttempt index phase line with status })) := by
  obtain ⟨a, ha, ht⟩ := tries_of_act h
  refine ⟨a, ha, ?_⟩
  cases ht with
  | greet hp => exact .inl ⟨_, _, hp, rfl⟩
  | quit hp | fail hp | await hp | skip hp | finish hp | miss hp | blame hp | forgive hp =>
    exact .inr ⟨by rw [hp]; rfl, _, _, rfl, rfl⟩
  | confirm hp | lose hp => exact .inr ⟨by rw [hp]; rfl, _, .over, rfl, setStatus_fst _ _⟩

/-! ### The draining task -/

/-- The link on which the draining task sends. -/
def Drain.link? : Drain → Option Nat
  | .draining link | .sending link _ | .failed link => some link
  | _ => none

/-- The request that the draining task waits for its link to send. -/
def Drain.text? : Drain → Option String
  | .sending _ text => some text
  | _ => none

/-- What the draining task does, by where it stands. -/
inductive Drains (line : Line) : Line → Prop where
  | leave : line.dropped = true → Drains line { line with drain := .ended }
  | receive {text : String} {rest : List String} :
    line.drain = .idle → line.channel = text :: rest →
      Drains line
        { line with channel := rest, pending := line.pending ++ [text], drain := .holding }
  | see : line.drain = .holding → line.status = .connected →
      Drains line { line with drain := .picking }
  | pick : line.drain = .picking → line.status = .connected →
      Drains line { line with drain := .draining line.current }
  | miss : line.drain = .picking → line.status ≠ .connected →
      Drains line { line with drain := .holding }
  | finish {link : Nat} : line.drain = .draining link → line.pending ++ line.channel = [] →
      Drains line { line with drain := .idle }
  | give {link : Nat} {text : String} {rest : List String} :
    line.drain = .draining link → line.pending ++ line.channel = text :: rest →
      Drains line { line with pending := rest, channel := [], drain := .sending link text }
  | blame {link : Nat} : line.drain = .failed link → line.current = link →
      Drains line { line with drain := .losing }
  | forgive {link : Nat} : line.drain = .failed link → line.current ≠ link →
      Drains line { line with drain := .holding }
  | lose : line.drain = .losing →
      Drains line { line with status := .disconnected, drain := .holding }

theorem drains_of_act {line : Line} {next : Line × List Effect} (h : line.actDrain? = some next) :
    Drains line next.1 := by
  unfold actDrain? at h
  split at h
  · next hd =>
    split at h
    · next hdropped => obtain rfl := Option.some.inj h; exact .leave hdropped
    · split at h
      · cases h
      · next hc => obtain rfl := Option.some.inj h; exact .receive hd hc
  · next hd =>
    split at h
    · next hdropped => obtain rfl := Option.some.inj h; exact .leave hdropped
    · split at h
      · next hs => obtain rfl := Option.some.inj h; exact .see hd hs
      · cases h
  · next hd =>
    split at h
    · next hdropped => obtain rfl := Option.some.inj h; exact .leave hdropped
    · split at h
      · next hs => obtain rfl := Option.some.inj h; exact .pick hd hs
      · next hs => obtain rfl := Option.some.inj h; exact .miss hd hs
  · next hd =>
    split at h
    · next hq => obtain rfl := Option.some.inj h; exact .finish hd hq
    · next hq => obtain rfl := Option.some.inj h; exact .give hd hq
  · cases h
  · next hd =>
    split at h
    · next hc => obtain rfl := Option.some.inj h; exact .blame hd hc
    · next hc => obtain rfl := Option.some.inj h; exact .forgive hd hc
  · next hd =>
    obtain rfl := Option.some.inj h
    rw [setStatus_fst]
    exact .lose hd
  · cases h

/-- The draining task moves on, takes a request from the channel, or gives one to its link. -/
theorem actDrain_cases {line : Line} {next : Line × List Effect} (h : line.actDrain? = some next) :
    (∃ status drain, next.1 = { line with status, drain } ∧
      line.drain.text? = none ∧ drain.text? = none ∧
      ∀ link, drain.link? = some link → link = line.current) ∨
    (∃ text rest, line.drain = .idle ∧ line.channel = text :: rest ∧
      next.1 =
        { line with channel := rest, pending := line.pending ++ [text], drain := .holding }) ∨
    (∃ link text rest, line.drain = .draining link ∧ line.pending ++ line.channel = text :: rest ∧
      next.1 = { line with pending := rest, channel := [], drain := .sending link text }) := by
  have hd := drains_of_act h
  generalize next.1 = b at hd
  cases hd with
  | leave =>
    refine .inl ⟨_, .ended, rfl, ?_, rfl, nofun⟩
    cases hdrain : line.drain with
    | sending link text => simp [actDrain?, hdrain] at h
    | _ => rfl
  | receive hd hc => exact .inr (.inl ⟨_, _, hd, hc, rfl⟩)
  | see hd => exact .inl ⟨_, .picking, rfl, by rw [hd]; rfl, rfl, nofun⟩
  | pick hd =>
    refine .inl ⟨_, .draining line.current, rfl, by rw [hd]; rfl, rfl, fun link hl => ?_⟩
    exact (Option.some.inj hl).symm
  | miss hd => exact .inl ⟨_, .holding, rfl, by rw [hd]; rfl, rfl, nofun⟩
  | finish hd => exact .inl ⟨_, .idle, rfl, by rw [hd]; rfl, rfl, nofun⟩
  | give hd hq => exact .inr (.inr ⟨_, _, _, hd, hq, rfl⟩)
  | blame hd => exact .inl ⟨_, .losing, rfl, by rw [hd]; rfl, rfl, nofun⟩
  | forgive hd => exact .inl ⟨_, .holding, rfl, by rw [hd]; rfl, rfl, nofun⟩
  | lose hd => exact .inl ⟨_, .holding, rfl, by rw [hd]; rfl, rfl, nofun⟩

/-- The draining task gives a request to a link, finds that the line lost its connection, or has no
effect. -/
theorem actDrain_effects {line : Line} {next : Line × List Effect}
    (h : line.actDrain? = some next) :
    (∃ link text, line.drain = .draining link ∧ next.1.drain = .sending link text ∧
      next.2 = [.send link text] ∧ next.1.status = line.status) ∨
    (line.drain = .losing ∧ next = setStatus .disconnected { line with drain := .holding }) ∨
    (next.1.drain.text? = none ∧ next.2 = [] ∧ next.1.status = line.status) := by
  unfold actDrain? at h
  split at h
  · split at h
    · obtain rfl := Option.some.inj h; exact .inr (.inr ⟨rfl, rfl, rfl⟩)
    · split at h
      · cases h
      · obtain rfl := Option.some.inj h; exact .inr (.inr ⟨rfl, rfl, rfl⟩)
  · split at h
    · obtain rfl := Option.some.inj h; exact .inr (.inr ⟨rfl, rfl, rfl⟩)
    · split at h
      · obtain rfl := Option.some.inj h; exact .inr (.inr ⟨rfl, rfl, rfl⟩)
      · cases h
  · split at h
    · obtain rfl := Option.some.inj h; exact .inr (.inr ⟨rfl, rfl, rfl⟩)
    · split at h <;> obtain rfl := Option.some.inj h <;> exact .inr (.inr ⟨rfl, rfl, rfl⟩)
  · next link hd =>
    split at h
    · obtain rfl := Option.some.inj h; exact .inr (.inr ⟨rfl, rfl, rfl⟩)
    · next text rest _ =>
      obtain rfl := Option.some.inj h
      exact .inl ⟨link, text, hd, rfl, rfl, rfl⟩
  · cases h
  · split at h <;> obtain rfl := Option.some.inj h <;> exact .inr (.inr ⟨rfl, rfl, rfl⟩)
  · next hd => exact .inr (.inl ⟨hd, (Option.some.inj h).symm⟩)
  · cases h

end Line
end NodeClient
