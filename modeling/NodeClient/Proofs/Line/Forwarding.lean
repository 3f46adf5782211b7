import NodeClient.Proofs.Line.Actions

/-!
# Line forwarding — what a line does with the event of a link

Only forwarders hand on events, and a forwarder does with an event all that it does before it waits
for the next one.  Calls, attempts and the draining task leave the forwarders alone, but for the one
of a link that is replaced or let go.

* `forward_message`, `forward_loss`: the current link, while somebody holds the line.
* `forward_unheld`: a forwarder of a line that nobody holds hands on nothing, and stops.
* `apart_step`: what all other inputs do to the forwarders.
-/

namespace NodeClient
namespace Line

variable {line : Line}

/-- The event that an effect hands on, with its link. -/
def Effect.event? : Effect → Option (Nat × LinkEvent)
  | .event link e => some (link, e)
  | _ => none

/-! ### What a forwarder does with an event -/

theorem setForwarder_setForwarder (link : Nat) (p q : ForwarderPhase) (line : Line) :
    setForwarder link p (setForwarder link q line) = setForwarder link p line := by
  simp only [setForwarder, List.modify_modify_eq]
  rfl

@[simp] theorem setForwarder_status (link : Nat) (p : ForwarderPhase) (line : Line) :
    (setForwarder link p line).status = line.status := rfl

@[simp] theorem setForwarder_current (link : Nat) (p : ForwarderPhase) (line : Line) :
    (setForwarder link p line).current = line.current := rfl

@[simp] theorem setForwarder_isHeld (link : Nat) (p : ForwarderPhase) (line : Line) :
    (setForwarder link p line).isHeld = line.isHeld := rfl

/-- A forwarder that waits is put where it is. -/
theorem setForwarder_listening {link : Nat} {f : Forwarder} (hf : line.forwarders[link]? = some f)
    (hp : f.phase = .listening) : setForwarder link .listening line = line := by
  have hsame : line.forwarders.modify link (fun f => { f with phase := .listening }) =
      line.forwarders := by
    refine List.ext_getElem? fun j => ?_
    rw [List.getElem?_modify]
    by_cases hj : link = j
    · subst hj
      simp [hf, ← hp]
    · simp [hj]
  rw [setForwarder, hsame]

theorem getElem?_setForwarder {link : Nat} {f : Forwarder} (hf : line.forwarders[link]? = some f)
    (p : ForwarderPhase) :
    (setForwarder link p line).forwarders[link]? = some { f with phase := p } := by
  simp [setForwarder, hf]

/-- The forwarder takes the event and acts until it waits again. -/
def forward (line : Line) (link : Nat) (e : LinkEvent) : Line × List Effect :=
  (line.takeEvent link e).settle (.forwarder link)

/-- A forwarder that waits and was not stopped. -/
def Waits (line : Line) (link : Nat) : Prop :=
  line.forwarders[link]? = some {}

theorem takeEvent_of_waits {link : Nat} (h : line.Waits link) (e : LinkEvent) :
    line.takeEvent link e = setForwarder link (.taken e) line := by
  rw [takeEvent, show line.forwarders[link]? = some {} from h]
  rfl

theorem actUpTo_of_some {task : Task} {next : Line × List Effect} (h : line.act? task = some next)
    (n : Nat) : actUpTo (n + 1) task line = andThen next (actUpTo n task) := by
  rw [actUpTo, h]

theorem actUpTo_of_none {task : Task} (h : line.act? task = none) (n : Nat) :
    actUpTo n task line = (line, []) := by
  cases n with
  | zero => rfl
  | succ n => rw [actUpTo, h]

theorem act_waiting {link : Nat} (h : line.Waits link) : line.act? (.forwarder link) = none := by
  rw [act?, actForwarder?, show line.forwarders[link]? = some {} from h]

theorem act_passing {link : Nat} (h : line.Waits link) (e : LinkEvent) :
    (setForwarder link (.passing e) line).act? (.forwarder link) =
      some (line, [.event link e]) := by
  rw [act?, actForwarder?, getElem?_setForwarder h]
  dsimp only
  rw [setForwarder_setForwarder, setForwarder_listening h rfl]

theorem act_taken_message {link : Nat} (h : line.Waits link) (hheld : line.isHeld = true)
    (text : String) :
    (setForwarder link (.taken (.message text)) line).act? (.forwarder link) =
      some (setForwarder link (.passing (.message text)) line, []) := by
  rw [act?, actForwarder?, getElem?_setForwarder h]
  dsimp only
  rw [setForwarder_isHeld, hheld, if_neg (by decide), setForwarder_setForwarder]

theorem act_taken_loss {link : Nat} (h : line.Waits link) (hheld : line.isHeld = true)
    (hcurrent : line.current = link) {e : LinkEvent} (he : ∀ text, e ≠ .message text) :
    (setForwarder link (.taken e) line).act? (.forwarder link) =
      some (setForwarder link (.losing e) line, []) := by
  rw [act?, actForwarder?, getElem?_setForwarder h]
  dsimp only
  rw [setForwarder_isHeld, hheld, if_neg (by decide), setForwarder_current, if_pos hcurrent]
  cases e with
  | message text => exact absurd rfl (he text)
  | error | closed =>
    dsimp only
    rw [setForwarder_setForwarder]

theorem act_losing {link : Nat} (h : line.Waits link) (e : LinkEvent) :
    (setForwarder link (.losing e) line).act? (.forwarder link) =
      some (setStatus .disconnected (setForwarder link (.passing e) line)) := by
  rw [act?, actForwarder?, getElem?_setForwarder h]
  dsimp only
  rw [setForwarder_setForwarder]

theorem act_unheld {link : Nat} (h : line.Waits link) (hfree : line.isHeld = false)
    (e : LinkEvent) :
    (setForwarder link (.taken e) line).act? (.forwarder link) =
      some (stopForwarder link line, []) := by
  rw [act?, actForwarder?, getElem?_setForwarder h]
  dsimp only
  rw [setForwarder_isHeld, hfree, if_pos (by decide), setForwarder_setForwarder,
    setForwarder_listening h rfl]

/-- **A text is handed on**, and nothing else happens. -/
theorem forward_message {link : Nat} (h : line.Waits link) (hheld : line.isHeld = true)
    (text : String) :
    line.forward link (.message text) = (line, [.event link (.message text)]) := by
  rw [forward, takeEvent_of_waits h, settle, actions,
    actUpTo_of_some (act_taken_message h hheld text), andThen, actUpTo_of_some (act_passing h _),
    andThen, actUpTo_of_none (act_waiting h)]
  rfl

/-- The status is set first when a link is lost. -/
theorem setStatus_setForwarder (link : Nat) (p : ForwarderPhase) (s : Status) (line : Line) :
    setStatus s (setForwarder link p line) =
      (setForwarder link p (setStatus s line).1, (setStatus s line).2) := by
  rw [setStatus, setStatus, setForwarder_status]
  split <;> rfl

theorem waits_setStatus {link : Nat} (h : line.Waits link) (s : Status) :
    (setStatus s line).1.Waits link := by
  rw [setStatus_fst]
  exact h

/-- **The end of the current link is handed on**, after the status was set. -/
theorem forward_loss {link : Nat} (h : line.Waits link) (hheld : line.isHeld = true)
    (hcurrent : line.current = link) {e : LinkEvent} (he : ∀ text, e ≠ .message text) :
    line.forward link e =
      ((setStatus .disconnected line).1, (setStatus .disconnected line).2 ++ [.event link e]) := by
  have hlost := waits_setStatus h .disconnected
  rw [forward, takeEvent_of_waits h, settle, actions,
    actUpTo_of_some (act_taken_loss h hheld hcurrent he), andThen, actUpTo_of_some (act_losing h e),
    setStatus_setForwarder, andThen, actUpTo_of_some (act_passing hlost e), andThen]
  rfl

/-- **A forwarder of a line that nobody holds** hands on nothing, and stops. -/
theorem forward_unheld {link : Nat} (h : line.Waits link) (hfree : line.isHeld = false)
    (e : LinkEvent) : line.forward link e = (stopForwarder link line, []) := by
  have hstopped : (stopForwarder link line).act? (.forwarder link) = none := by
    rw [act?, actForwarder?, stopForwarder]
    simp [show line.forwarders[link]? = some {} from h]
  rw [forward, takeEvent_of_waits h, settle, actions, actUpTo_of_some (act_unheld h hfree e),
    andThen, actUpTo_of_none hstopped]
  rfl

/-! ### What all others do -/

/-- Whether an input is for a forwarder: an event that it takes, or an action of its. -/
def Input.forwards : Input → Bool
  | .event _ _ | .act (.forwarder _) => true
  | _ => false

/-- What the others do to the forwarders. -/
inductive Rewires (a b : Line) : Prop
  | stay (forwarders : b.forwarders = a.forwarders) (current : b.current = a.current)
    (dropped : b.dropped = a.dropped)
  | renew
    (forwarders : b.forwarders =
      (a.forwarders ++ [({} : Forwarder)]).modify a.current fun f => { f with stopped := true })
    (current : b.current = a.forwarders.length) (dropped : b.dropped = a.dropped)
  | leave
    (forwarders : b.forwarders = a.forwarders.modify a.current fun f => { f with stopped := true })
    (current : b.current = a.current) (dropped : b.dropped = true)

/-- A forwarder that was stopped does not wait. -/
theorem waits_of_stopped {forwarders : List Forwarder} {j k : Nat}
    (h : (forwarders.modify j fun f => { f with stopped := true })[k]? = some {}) :
    forwarders[k]? = some {} := by
  rw [List.getElem?_modify] at h
  by_cases hj : j = k
  · cases hf : forwarders[k]? <;> simp [hj, hf] at h
  · simpa [hj] using h

theorem not_waits_stopForwarder (link : Nat) (line : Line) :
    ¬(stopForwarder link line).Waits link := by
  intro h
  rw [Waits, stopForwarder, List.getElem?_modify] at h
  cases hf : line.forwarders[link]? <;> simp [hf] at h

/-- Only the forwarder of a link that is new may start to wait. -/
theorem Rewires.waits {b : Line} (h : Rewires line b) {k : Nat} (hw : b.Waits k) :
    line.Waits k ∨ (k = line.forwarders.length ∧ b.current = k) := by
  cases h with
  | stay forwarders => exact .inl (by rwa [Waits, forwarders] at hw)
  | renew forwarders current =>
    rw [Waits, forwarders] at hw
    have hk := waits_of_stopped hw
    by_cases hlt : k < line.forwarders.length
    · exact .inl (by rwa [List.getElem?_append_left hlt] at hk)
    · have hle := (List.getElem?_eq_some_iff.mp hk).1
      rw [List.length_append, List.length_singleton] at hle
      obtain rfl : k = line.forwarders.length := by omega
      exact .inr ⟨rfl, current⟩
  | leave forwarders =>
    rw [Waits, forwarders] at hw
    exact .inl (waits_of_stopped hw)

/-- Nothing is handed on. -/
def Mute (effects : List Effect) : Prop := effects.filterMap Effect.event? = []

theorem Mute.append {first rest : List Effect} (h : Mute first) (h' : Mute rest) :
    Mute (first ++ rest) := by
  rw [Mute, List.filterMap_append, h, h']
  rfl

theorem setStatus_snd (s : Status) (line : Line) :
    (setStatus s line).2 = if line.status = s then [] else [.status s] := by
  unfold setStatus
  split <;> rfl

theorem mute_setStatus (s : Status) (line : Line) : Mute (setStatus s line).2 := by
  unfold setStatus
  split <;> rfl

theorem mute_startConnecting (again : Bool) (line : Line) : Mute (startConnecting again line).2 :=
  (mute_setStatus ..).append rfl

theorem mute_call (line : Line) (c : Call) : Mute (line.call c).2 := by
  cases c with
  | queue text => rfl
  | connect =>
    rw [call]
    split
    · rfl
    · exact mute_startConnecting ..
  | disconnect => exact (mute_setStatus ..).append rfl
  | reconnect =>
    have hcreate : Mute [.create line.forwarders.length] := rfl
    have hdisconnect : Mute [.disconnect line.current] := rfl
    have hreplace : Mute (replaceLink line).2 := by
      rw [replaceLink, andThen, andThen, setStatus_fst]
      exact (hcreate.append (mute_setStatus ..)).append hdisconnect
    exact hreplace.append (mute_startConnecting ..)

theorem rewires_call (line : Line) (c : Call) : Rewires line (line.call c).1 := by
  cases c with
  | queue text => exact .stay rfl rfl rfl
  | connect => rcases line.connect_fst with h | h <;> rw [h] <;> exact .stay rfl rfl rfl
  | disconnect =>
    rw [disconnect_fst]
    exact .stay rfl rfl rfl
  | reconnect =>
    rw [reconnect_fst]
    exact .renew rfl rfl rfl

theorem rewires_attempt {index : Nat} {next : Line × List Effect}
    (h : line.actAttempt? index = some next) : Rewires line next.1 ∧ Mute next.2 := by
  obtain ⟨a, -, ht⟩ := tries_of_act h
  cases ht with
  | greet =>
    refine ⟨?_, mute_call ..⟩
    cases rewires_call (setAttempt index _ line) _ with
    | stay forwarders current dropped => exact .stay forwarders current dropped
    | renew forwarders current dropped => exact .renew forwarders current dropped
    | leave forwarders current dropped => exact .leave forwarders current dropped
  | confirm | lose =>
    refine ⟨?_, mute_setStatus ..⟩
    rw [setStatus_fst]
    exact .stay rfl rfl rfl
  | quit | fail | await | skip | finish | miss | blame | forgive =>
    exact ⟨.stay rfl rfl rfl, rfl⟩

theorem rewires_drain {next : Line × List Effect} (h : line.actDrain? = some next) :
    Rewires line next.1 ∧ Mute next.2 := by
  refine ⟨?_, ?_⟩
  · have hd := drains_of_act h
    generalize next.1 = b at hd
    cases hd <;> exact .stay rfl rfl rfl
  · rcases actDrain_effects h with
      ⟨link, text, -, -, heffects, -⟩ | ⟨-, hnext⟩ | ⟨-, heffects, -⟩
    · rw [heffects]
      rfl
    · rw [hnext]
      exact mute_setStatus ..
    · rw [heffects]
      rfl

/-- **Only forwarders hand on events**; the others stop one, or make a new one, or leave them. -/
theorem rewires_step (line : Line) {i : Input} (hi : i.forwards = false) :
    Rewires line (line.step i).1 ∧ Mute (line.step i).2 := by
  cases i with
  | call c =>
    rw [step]
    split
    · exact ⟨.stay rfl rfl rfl, rfl⟩
    · exact ⟨rewires_call line c, mute_call line c⟩
  | event link e => cases hi
  | settled index opened =>
    refine ⟨?_, rfl⟩
    rcases line.advanceAttempt_cases index .waiting (.settled opened) with h | h <;>
      rw [step, h] <;> exact .stay rfl rfl rfl
  | greet index calls =>
    refine ⟨?_, rfl⟩
    rcases line.advanceAttempt_cases index .due (.greeting calls) with h | h <;>
      rw [step, h] <;> exact .stay rfl rfl rfl
  | sent ok =>
    refine ⟨?_, rfl⟩
    rw [step, sent]
    split
    · split <;> exact .stay rfl rfl rfl
    · exact .stay rfl rfl rfl
  | drop =>
    rw [step]
    split
    · exact ⟨.stay rfl rfl rfl, rfl⟩
    · exact ⟨.leave rfl rfl rfl, rfl⟩
  | act task =>
    rw [step]
    cases hact : line.act? task with
    | none => exact ⟨.stay rfl rfl rfl, rfl⟩
    | some next =>
      cases task with
      | forwarder link => cases hi
      | attempt index => exact rewires_attempt hact
      | drain => exact rewires_drain hact

end Line
end NodeClient
