import Mathlib.Data.List.Range
import Mathlib.Logic.Function.Basic
import NodeClient.Proofs.Line.Forwarding
import NodeClient.Proofs.Mailbox

/-!
# Feed — the events of a line, over all its links

Every link has a channel to its own forwarder.  A new link gets its forwarder before it becomes the
current one, and the forwarder of the one before is stopped after that.  A run interleaves the
events of all links, the turns of the forwarders and all else that can happen to the line, in any
order; a forwarder takes one event in a turn and does with it all that it does.

* `Tended`: the forwarders of replaced links are stopped, the one of the current link is not.
* `Tended.account`: what a move does with the events of one link, if no channel overflows.
* `Tended.passed_prefix`, `Tended.passed_current`: what is handed on of one link in a run.
* `Tended.handed_eq`: what is handed on of all links.
* `events_follow_links`: a subscription gets, link by link, the first events of each link from its
  own time on, and all of the current one.
-/

namespace NodeClient

/-- A line, and what its links emitted that their forwarders have not taken. -/
structure Feed where
  line : Line
  waiting : Nat → List LinkEvent := fun _ => []

namespace Feed

open Line (Effect)

/-- A channel for events. -/
def channel : Mailbox LinkEvent where
  capacity := 1024
  wanted := fun _ => true

/-- What can happen to a feed. -/
inductive Move where
  /-- A link emits an event. -/
  | emit (link : Nat) (e : LinkEvent)
  /-- The forwarder of a link has its turn. -/
  | forward (link : Nat)
  /-- Anything that is not about a forwarder. -/
  | input (i : Line.Input) (h : i.forwards = false)

instance (line : Line) (link : Nat) : Decidable (line.Waits link) :=
  inferInstanceAs (Decidable (_ = _))

/-- What a move does.  Nobody hears the events of a link whose forwarder was stopped. -/
def step (f : Feed) : Move → Feed × List Effect
  | .emit link e =>
    if f.line.Waits link then
      let kept := channel.keep (f.waiting link) (.item e)
      ({ f with waiting := Function.update f.waiting link kept }, [])
    else (f, [])
  | .forward link =>
    match f.waiting link with
    | [] => (f, [])
    | e :: rest =>
      if f.line.Waits link then
        let next := f.line.forward link e
        ({ line := next.1, waiting := Function.update f.waiting link rest }, next.2)
      else (f, [])
  | .input i _ =>
    let next := f.line.step i
    ({ f with line := next.1 }, next.2)

/-- A run, with its effects. -/
def run (f : Feed) : List Move → Feed × List Effect
  | [] => (f, [])
  | m :: rest => (((f.step m).1.run rest).1, (f.step m).2 ++ ((f.step m).1.run rest).2)

/-- The event that a link emits, if it was made. -/
def emittedBy (f : Feed) (link : Nat) : Move → List LinkEvent
  | .emit j e => if j = link ∧ link < f.line.forwarders.length then [e] else []
  | _ => []

/-- The events that a link emits in a run. -/
def emitted (f : Feed) (link : Nat) : List Move → List LinkEvent
  | [] => []
  | m :: rest => f.emittedBy link m ++ (f.step m).1.emitted link rest

/-- The events that are handed on in a run, with their links. -/
def handed (f : Feed) (moves : List Move) : List (Nat × LinkEvent) :=
  (f.run moves).2.filterMap Effect.event?

/-- The events of a link that are handed on in a run. -/
def passed (f : Feed) (link : Nat) (moves : List Move) : List LinkEvent :=
  (f.handed moves).filterMap fun p => if p.1 = link then some p.2 else none

/-- No channel overflows: there is room for each event that is heard. -/
def Roomy (f : Feed) (moves : List Move) : Prop :=
  ∀ before link e after, moves = before ++ .emit link e :: after →
    (f.run before).1.line.Waits link →
      ((f.run before).1.waiting link).length < channel.capacity

variable {f : Feed}

theorem handed_cons (f : Feed) (m : Move) (rest : List Move) :
    f.handed (m :: rest) =
      (f.step m).2.filterMap Effect.event? ++ (f.step m).1.handed rest := by
  rw [handed, run, List.filterMap_append]
  rfl

theorem handed_singleton (f : Feed) (m : Move) :
    f.handed [m] = (f.step m).2.filterMap Effect.event? := by
  rw [handed_cons]
  exact List.append_nil _

theorem passed_cons (f : Feed) (link : Nat) (m : Move) (rest : List Move) :
    f.passed link (m :: rest) = f.passed link [m] ++ (f.step m).1.passed link rest := by
  rw [passed, handed_cons, List.filterMap_append, passed, handed_singleton]
  rfl

theorem emitted_cons (f : Feed) (link : Nat) (m : Move) (rest : List Move) :
    f.emitted link (m :: rest) = f.emittedBy link m ++ (f.step m).1.emitted link rest :=
  rfl

theorem Roomy.before {first rest : List Move} (h : f.Roomy (first ++ rest)) : f.Roomy first := by
  rintro before link e after rfl
  exact h before link e (after ++ rest) (List.append_assoc ..)

theorem Roomy.head {m : Move} {rest : List Move} (h : f.Roomy (m :: rest)) : f.Roomy [m] := by
  have hsplit : f.Roomy ([m] ++ rest) := h
  exact hsplit.before

theorem Roomy.tail {m : Move} {rest : List Move} (h : f.Roomy (m :: rest)) :
    (f.step m).1.Roomy rest := by
  rintro before link e after rfl
  exact h (m :: before) link e after rfl

theorem Roomy.after {first rest : List Move} (h : f.Roomy (first ++ rest)) :
    (f.run first).1.Roomy rest := by
  induction first generalizing f with
  | nil => exact h
  | cons m first ih => exact ih h.tail

/-- A move adds at most one event to those that wait. -/
theorem length_waiting_step (f : Feed) (m : Move) (k : Nat) :
    ((f.step m).1.waiting k).length ≤ (f.waiting k).length + 1 := by
  cases m with
  | emit link e =>
    rw [step]
    split
    · by_cases hk : k = link
      · simp [hk, Mailbox.keep, Mailbox.newest]
      · simp [hk]
    · exact Nat.le_succ _
  | forward link =>
    rw [step]
    split
    · exact Nat.le_succ _
    · next e rest hwaiting =>
      split
      · by_cases hk : k = link
        · simp [hk, hwaiting, Nat.le_add_right_of_le]
        · simp [hk]
      · exact Nat.le_succ _
  | input i _ => exact Nat.le_succ _

theorem length_waiting_run (f : Feed) (moves : List Move) (k : Nat) :
    ((f.run moves).1.waiting k).length ≤ (f.waiting k).length + moves.length := by
  induction moves generalizing f with
  | nil => exact Nat.le_refl _
  | cons m rest ih =>
    have hstep := f.length_waiting_step m k
    have hrest := ih (f.step m).1
    rw [List.length_cons]
    exact Nat.le_trans hrest (by omega)

/-- There is room if there are few moves. -/
theorem roomy_of_length {moves : List Move}
    (h : ∀ k, (f.waiting k).length + moves.length ≤ channel.capacity) : f.Roomy moves := by
  rintro before link e after rfl -
  have hle := f.length_waiting_run before link
  have hroom := h link
  rw [List.length_append, List.length_cons] at hroom
  omega

/-! ### Forwarders between their turns -/

/-- All forwarders wait for events.  Those of replaced links were stopped, and the one of the
current link was not, unless the owner let go of the line. -/
structure Tended (f : Feed) : Prop where
  made : f.line.forwarders.length = f.line.current + 1
  replaced : ∀ k < f.line.current, f.line.forwarders[k]? = some { stopped := true }
  newest : ∃ stopped, f.line.forwarders[f.line.current]? = some { stopped } ∧
    (f.line.dropped = false → stopped = false)
  unmade : ∀ k, f.line.current < k → f.waiting k = []

theorem tended_start (greets : Bool) : Tended { line := { greets } } :=
  ⟨rfl, nofun, ⟨false, rfl, fun _ => rfl⟩, fun _ _ => rfl⟩

/-- Only the forwarder of the current link takes events. -/
theorem Tended.current_of_waits (h : f.Tended) {k : Nat} (hw : f.line.Waits k) :
    k = f.line.current := by
  have hlt := (List.getElem?_eq_some_iff.mp hw).1
  rw [h.made] at hlt
  rcases Nat.lt_or_eq_of_le (Nat.le_of_lt_succ hlt) with hk | hk
  · rw [Line.Waits, h.replaced k hk] at hw
    cases hw
  · exact hk

theorem Tended.waits (h : f.Tended) (hd : f.line.dropped = false) :
    f.line.Waits f.line.current := by
  obtain ⟨stopped, hcurrent, hstopped⟩ := h.newest
  rw [Line.Waits, hcurrent, hstopped hd]

/-- What a move does to a feed whose forwarders wait. -/
inductive Acts (f : Feed) : Move → Feed × List Effect → Prop where
  | still {m : Move} : (∀ link e, m = .emit link e → ¬f.line.Waits link) → Acts f m (f, [])
  | hear {e : LinkEvent} : f.line.Waits f.line.current →
      Acts f (.emit f.line.current e)
        ({ f with
            waiting := Function.update f.waiting f.line.current
              (channel.keep (f.waiting f.line.current) (.item e)) }, [])
  | pass {e : LinkEvent} {rest : List LinkEvent} {status : Status} {effects : List Effect} :
      f.line.Waits f.line.current → f.waiting f.line.current = e :: rest →
      effects.filterMap Effect.event? = [(f.line.current, e)] →
      ((∀ text, e ≠ .message text) → status = .disconnected ∧
        effects = (if f.line.status = .disconnected then [] else [.status .disconnected]) ++
          [.event f.line.current e]) →
      Acts f (.forward f.line.current)
        ({ line := { f.line with status }
           waiting := Function.update f.waiting f.line.current rest }, effects)
  | leave {e : LinkEvent} {rest : List LinkEvent} : f.line.Waits f.line.current →
      f.line.dropped = true → f.waiting f.line.current = e :: rest →
      Acts f (.forward f.line.current)
        ({ line := Line.stopForwarder f.line.current f.line
           waiting := Function.update f.waiting f.line.current rest }, [])
  | rewire {i : Line.Input} {h : i.forwards = false} {line : Line} {effects : List Effect} :
      Line.Rewires f.line line → Line.Mute effects →
      Acts f (.input i h) ({ f with line }, effects)

/-- The turn of a forwarder that waits and for which there is an event. -/
theorem Tended.acts_forward (h : f.Tended) {link : Nat} {e : LinkEvent} {rest : List LinkEvent}
    (hw : f.line.Waits link) (hwaiting : f.waiting link = e :: rest) :
    Acts f (.forward link)
      ({ line := (f.line.forward link e).1, waiting := Function.update f.waiting link rest },
        (f.line.forward link e).2) := by
  obtain rfl := h.current_of_waits hw
  cases hheld : f.line.isHeld with
  | false =>
    have hdropped : f.line.dropped = true := by
      rw [Line.isHeld, Bool.or_eq_false_iff] at hheld
      simpa using hheld.1
    rw [Line.forward_unheld hw hheld]
    exact .leave hw hdropped hwaiting
  | true =>
    by_cases he : ∃ text, e = .message text
    · obtain ⟨text, rfl⟩ := he
      rw [Line.forward_message hw hheld]
      exact .pass hw hwaiting rfl fun he => absurd rfl (he text)
    · have he : ∀ text, e ≠ .message text := fun text ht => he ⟨text, ht⟩
      rw [Line.forward_loss hw hheld rfl he, Line.setStatus_fst]
      refine .pass hw hwaiting ?_ fun _ => ⟨rfl, by rw [Line.setStatus_snd]⟩
      rw [List.filterMap_append, Line.mute_setStatus]
      rfl

/-- **A move is one of these.** -/
theorem Tended.acts_step (h : f.Tended) (m : Move) : Acts f m (f.step m) := by
  cases m with
  | emit link e =>
    rw [step]
    split
    · next hw =>
      obtain rfl := h.current_of_waits hw
      exact .hear hw
    · next hw => exact .still fun j e' hm => by cases hm; exact hw
  | forward link =>
    rw [step]
    split
    · exact .still nofun
    · next e rest hwaiting =>
      split
      · next hw => exact h.acts_forward hw hwaiting
      · exact .still nofun
  | input i hi =>
    obtain ⟨hline, hmute⟩ := f.line.rewires_step hi
    exact .rewire hline hmute

theorem Tended.update (h : f.Tended) (kept : List LinkEvent) :
    Tended { f with waiting := Function.update f.waiting f.line.current kept } := by
  refine ⟨h.made, h.replaced, h.newest, fun k hk => ?_⟩
  show Function.update f.waiting f.line.current kept k = []
  rw [Function.update_of_ne (Nat.ne_of_gt hk)]
  exact h.unmade k hk

theorem Tended.rewire (h : f.Tended) {line : Line} (hline : Line.Rewires f.line line) :
    Tended { f with line } := by
  obtain ⟨stopped, hnewest, hstopped⟩ := h.newest
  cases hline with
  | stay forwarders current dropped =>
    refine ⟨?_, fun k hk => ?_, ⟨stopped, ?_, fun hd => hstopped ?_⟩, fun k hk => ?_⟩
    · rw [forwarders, current]
      exact h.made
    · rw [forwarders]
      exact h.replaced k (current ▸ hk)
    · rw [forwarders, current]
      exact hnewest
    · exact dropped ▸ hd
    · exact h.unmade k (current ▸ hk)
  | renew forwarders current dropped =>
    rw [h.made] at current
    refine ⟨?_, fun k hk => ?_, ⟨false, ?_, fun _ => rfl⟩, fun k hk => h.unmade k ?_⟩
    · rw [forwarders, current, List.length_modify, List.length_append, h.made]
      rfl
    · rw [current] at hk
      rw [forwarders, List.getElem?_modify, List.getElem?_append_left (by rw [h.made]; exact hk)]
      by_cases hkc : f.line.current = k
      · rw [← hkc, hnewest]
        simp
      · rw [h.replaced k (by omega)]
        simp
    · rw [forwarders, current, List.getElem?_modify]
      simp [h.made]
    · have hlt : line.current < k := hk
      omega
  | leave forwarders current dropped =>
    refine ⟨?_, fun k hk => ?_, ⟨true, ?_, fun hd => ?_⟩, fun k hk => ?_⟩
    · rw [forwarders, current, List.length_modify]
      exact h.made
    · rw [current] at hk
      rw [forwarders, List.getElem?_modify, h.replaced k hk]
      simp
    · rw [forwarders, current, List.getElem?_modify, hnewest]
      simp
    · rw [show line.dropped = false from hd] at dropped
      cases dropped
    · exact h.unmade k (current ▸ hk)

theorem Tended.step (h : f.Tended) (m : Move) : (f.step m).1.Tended := by
  have hacts := h.acts_step m
  generalize f.step m = next at hacts
  cases hacts with
  | still => exact h
  | hear => exact h.update _
  | @pass e rest =>
    have hupdate := h.update rest
    exact ⟨hupdate.made, hupdate.replaced, hupdate.newest, hupdate.unmade⟩
  | leave _ hdropped =>
    have hleave : Line.Rewires f.line (Line.stopForwarder f.line.current f.line) :=
      .leave rfl rfl hdropped
    exact (h.rewire hleave).update _
  | rewire hline => exact h.rewire hline

theorem Tended.run (h : f.Tended) (moves : List Move) : (f.run moves).1.Tended := by
  induction moves generalizing f with
  | nil => exact h
  | cons m rest ih => exact ih (h.step m)

/-- A link that was made and to which nobody listens any more. -/
def Deaf (f : Feed) (k : Nat) : Prop := k ≤ f.line.current ∧ ¬f.line.Waits k

/-- A move keeps the current link, or makes the next one current and nobody listens to the one
before it. -/
theorem Tended.current_step (h : f.Tended) (m : Move) :
    (f.step m).1.line.current = f.line.current ∨
      ((f.step m).1.line.current = f.line.current + 1 ∧ (f.step m).1.Deaf f.line.current) := by
  have hnext := h.step m
  have hacts := h.acts_step m
  generalize f.step m = next at hacts hnext
  cases hacts with
  | still | hear | pass | leave => exact .inl rfl
  | rewire hline =>
    cases hline with
    | stay _ current => exact .inl current
    | leave _ current => exact .inl current
    | renew _ current =>
      rw [h.made] at current
      have hle := Nat.le_trans (Nat.le_succ f.line.current) (Nat.le_of_eq current.symm)
      refine .inr ⟨current, hle, fun hw => ?_⟩
      have hlink := hnext.current_of_waits hw
      exact absurd (hlink.trans current) (Nat.ne_of_lt (Nat.lt_succ_self _))

theorem Tended.current_le (h : f.Tended) (m : Move) :
    f.line.current ≤ (f.step m).1.line.current := by
  rcases h.current_step m with hcurrent | ⟨hcurrent, -⟩ <;> omega

/-- Who let go of the line does not come back. -/
theorem Tended.owned_step (h : f.Tended) {m : Move} (hd : (f.step m).1.line.dropped = false) :
    f.line.dropped = false := by
  have hacts := h.acts_step m
  generalize f.step m = next at hacts hd
  cases hacts with
  | still | hear | pass | leave => exact hd
  | rewire hline =>
    cases hline with
    | stay _ _ dropped => exact dropped ▸ hd
    | renew _ _ dropped => exact dropped ▸ hd
    | leave _ _ dropped => exact absurd (dropped.symm.trans hd) nofun

theorem Tended.onward_run (h : f.Tended) (moves : List Move) :
    f.line.current ≤ (f.run moves).1.line.current ∧
      ((f.run moves).1.line.dropped = false → f.line.dropped = false) := by
  induction moves generalizing f with
  | nil => exact ⟨Nat.le_refl _, id⟩
  | cons m rest ih =>
    obtain ⟨hle, howned⟩ := ih (h.step m)
    exact ⟨Nat.le_trans (h.current_le m) hle, fun hd => h.owned_step (howned hd)⟩

/-! ### What is handed on of one link -/

/-- Only a link that was made emits events. -/
theorem Tended.emittedBy_cases (h : f.Tended) (k : Nat) (m : Move) :
    f.emittedBy k m = [] ∨ ∃ e, m = .emit k e ∧ k ≤ f.line.current := by
  cases m with
  | emit j e =>
    rw [emittedBy]
    split
    · next hj =>
      obtain ⟨rfl, hlt⟩ := hj
      rw [h.made] at hlt
      exact .inr ⟨e, rfl, Nat.le_of_lt_succ hlt⟩
    · exact .inl rfl
  | _ => exact .inl rfl

/-- A move hands on at most one event, and only of the current link. -/
theorem Tended.handed_step (h : f.Tended) (m : Move) :
    f.handed [m] = [] ∨ ∃ e, f.handed [m] = [(f.line.current, e)] ∧
      f.line.Waits f.line.current ∧ (f.step m).1.line.current = f.line.current := by
  rw [handed_singleton]
  have hacts := h.acts_step m
  generalize f.step m = next at hacts
  cases hacts with
  | still | hear | leave => exact .inl rfl
  | pass hw _ heffects _ => exact .inr ⟨_, heffects, hw, rfl⟩
  | rewire _ hmute => exact .inl hmute

/-- Nothing more is handed on of a link to which nobody listens. -/
theorem Tended.deaf_step (h : f.Tended) {k : Nat} (hdeaf : f.Deaf k) (m : Move) :
    f.passed k [m] = [] ∧ (f.step m).1.Deaf k := by
  obtain ⟨hle, hw⟩ := hdeaf
  refine ⟨?_, Nat.le_trans hle (h.current_le m), fun hafter => hw ?_⟩
  · rw [passed]
    rcases h.handed_step m with hnone | ⟨e, hone, hcurrent, -⟩
    · rw [hnone]
      rfl
    · have hne : f.line.current ≠ k := fun hc => hw (hc ▸ hcurrent)
      rw [hone]
      simp [hne]
  · have hacts := h.acts_step m
    generalize f.step m = next at hacts hafter
    cases hacts with
    | still | hear | pass => exact hafter
    | leave => exact Line.waits_of_stopped hafter
    | rewire hline =>
      rcases hline.waits hafter with hbefore | ⟨hk, -⟩
      · exact hbefore
      · rw [h.made] at hk
        omega

theorem Tended.deaf_run (h : f.Tended) {k : Nat} (hdeaf : f.Deaf k) (moves : List Move) :
    f.passed k moves = [] := by
  induction moves generalizing f with
  | nil => rfl
  | cons m rest ih =>
    obtain ⟨hnone, hnext⟩ := h.deaf_step hdeaf m
    rw [passed_cons, hnone, ih (h.step m) hnext]
    rfl

/-- **The account of a link**: what is handed on and what waits after a move waited before it or
came with it, as long as somebody listens. -/
theorem Tended.account (h : f.Tended) {m : Move} (hroom : f.Roomy [m]) (k : Nat) :
    f.passed k [m] ++ (f.step m).1.waiting k = f.waiting k ++ f.emittedBy k m ∨
      (f.passed k [m] = [] ∧ (f.step m).1.Deaf k ∧ (f.Deaf k ∨ f.line.dropped = true)) := by
  have hpassed : f.passed k [m] = ((f.step m).2.filterMap Effect.event?).filterMap
      fun p => if p.1 = k then some p.2 else none := by
    rw [passed, handed_singleton]
  rw [hpassed]
  have hacts := h.acts_step m
  have hdeaf : f.Deaf k → (f.step m).1.Deaf k := fun hk => (h.deaf_step hk m).2
  generalize f.step m = next at hacts hdeaf
  cases hacts with
  | still hm =>
    rcases h.emittedBy_cases k m with hnone | ⟨e, rfl, hle⟩
    · rw [hnone]
      exact .inl (List.append_nil _).symm
    · -- the account of a link is closed once nobody listens to it
      have hk : f.Deaf k := ⟨hle, hm k e rfl⟩
      exact .inr ⟨rfl, hdeaf hk, .inl hk⟩
  | @hear e hw =>
    have hkept : channel.keep (f.waiting f.line.current) (.item e) =
        f.waiting f.line.current ++ [e] := by
      refine channel.newest_of_le ?_
      rw [List.length_append]
      exact hroom [] f.line.current e [] rfl hw
    left
    rw [hkept, emittedBy, h.made]
    by_cases hk : k = f.line.current
    · simp [hk]
    · simp [hk, Ne.symm hk]
  | pass hw hwaiting heffects =>
    left
    rw [heffects]
    by_cases hk : k = f.line.current
    · simp [hk, hwaiting, emittedBy]
    · simp [hk, Ne.symm hk, emittedBy]
  | leave hw hdropped hwaiting =>
    by_cases hk : k = f.line.current
    · refine .inr ⟨rfl, ⟨Nat.le_of_eq hk, ?_⟩, .inr hdropped⟩
      rw [hk]
      exact Line.not_waits_stopForwarder _ _
    · left
      simp [hk, emittedBy]
  | rewire hline hmute =>
    left
    rw [hmute]
    exact (List.append_nil _).symm

/-- **What is handed on of a link** are first events of those that waited or came. -/
theorem Tended.passed_prefix (h : f.Tended) {moves : List Move} (hroom : f.Roomy moves) (k : Nat) :
    f.passed k moves <+: f.waiting k ++ f.emitted k moves := by
  induction moves generalizing f with
  | nil => exact List.nil_prefix
  | cons m rest ih =>
    rw [passed_cons]
    rcases h.account hroom.head k with hkept | ⟨hnone, hdeaf, -⟩
    · rw [emitted_cons, ← List.append_assoc, ← hkept, List.append_assoc]
      exact (List.prefix_append_right_inj _).mpr (ih (h.step m) hroom.tail)
    · rw [hnone, (h.step m).deaf_run hdeaf]
      exact List.nil_prefix

/-- **The events of the current link are handed on**, but for those that its forwarder has not
taken, while the owner holds the line. -/
theorem Tended.passed_current (h : f.Tended) {moves : List Move} (hroom : f.Roomy moves)
    (hd : (f.run moves).1.line.dropped = false) {k : Nat}
    (hk : (f.run moves).1.line.current = k) :
    f.passed k moves ++ (f.run moves).1.waiting k = f.waiting k ++ f.emitted k moves := by
  induction moves generalizing f with
  | nil => exact (List.append_nil _).symm
  | cons m rest ih =>
    have hlast := ih (h.step m) hroom.tail hd hk
    obtain ⟨hle, hdropped⟩ := h.onward_run (m :: rest)
    have hkept : f.passed k [m] ++ (f.step m).1.waiting k = f.waiting k ++ f.emittedBy k m := by
      rcases h.account hroom.head k with hkept | ⟨-, -, ⟨hle', hw⟩ | hleft⟩
      · exact hkept
      · obtain rfl : k = f.line.current := Nat.le_antisymm hle' (hk ▸ hle)
        exact absurd (h.waits (hdropped hd)) hw
      · rw [hdropped hd] at hleft
        cases hleft
    calc f.passed k (m :: rest) ++ (f.run (m :: rest)).1.waiting k
        = f.passed k [m] ++ ((f.step m).1.passed k rest ++
            ((f.step m).1.run rest).1.waiting k) := by
          rw [passed_cons, List.append_assoc]
          rfl
      _ = f.passed k [m] ++ (f.step m).1.waiting k ++ (f.step m).1.emitted k rest := by
          rw [hlast, List.append_assoc]
      _ = f.waiting k ++ f.emitted k (m :: rest) := by
          rw [hkept, List.append_assoc, emitted_cons]

/-! ### What is handed on of all links -/

/-- The links from one to another. -/
def links (first last : Nat) : List Nat := List.range' first (last + 1 - first)

theorem links_cons {first last : Nat} (h : first ≤ last) :
    links first last = first :: links (first + 1) last := by
  rw [links, links, show last + 1 - first = last + 1 - (first + 1) + 1 by omega, List.range'_succ]

theorem mem_links {first last k : Nat} (h : k ∈ links first last) : first ≤ k :=
  (List.mem_range'_1.mp h).1

/-- **What is handed on follows the links**: all of one link before all of the next. -/
theorem Tended.handed_eq (h : f.Tended) (moves : List Move) :
    f.handed moves =
      (links f.line.current (f.run moves).1.line.current).flatMap fun k =>
        (f.passed k moves).map (k, ·) := by
  induction moves generalizing f with
  | nil =>
    have hnone : f.handed [] = [] := rfl
    simp [passed, hnone]
  | cons m rest ih =>
    have hlast : (f.run (m :: rest)).1 = ((f.step m).1.run rest).1 := rfl
    obtain ⟨hle, -⟩ := h.onward_run (m :: rest)
    rw [handed_cons, ← handed_singleton, ih (h.step m), hlast]
    rw [hlast] at hle
    generalize ((f.step m).1.run rest).1.line.current = last at hle
    rcases h.handed_step m with hnone | ⟨e, hone, -, hcurrent⟩
    · have hpassed : ∀ k, f.passed k (m :: rest) = (f.step m).1.passed k rest := fun k => by
        rw [passed_cons, passed, hnone]
        rfl
      simp only [hnone, hpassed, List.nil_append]
      -- a move that replaces the current link puts an empty share of it in front
      rcases h.current_step m with hcurrent | ⟨hcurrent, hdeaf⟩
      · rw [hcurrent]
      · rw [hcurrent, links_cons hle, List.flatMap_cons, (h.step m).deaf_run hdeaf]
        rfl
    · have hfirst : f.passed f.line.current [m] = [e] := by simp [passed, hone]
      have hothers : ∀ k ∈ links (f.line.current + 1) last,
          (f.passed k (m :: rest)).map (k, ·) = ((f.step m).1.passed k rest).map (k, ·) := by
        intro k hk
        have hne : f.line.current ≠ k := Nat.ne_of_lt (mem_links hk)
        rw [passed_cons, passed, hone]
        simp [hne]
      rw [hcurrent, hone, links_cons hle, List.flatMap_cons, List.flatMap_cons,
        List.flatMap_congr hothers, passed_cons, hfirst]
      rfl

/-! ### The end of a link -/

/-- **When the end of a link is handed on** the line is disconnected, and the status was set before
that if it was another one. -/
theorem Tended.told_before_end (h : f.Tended) {m : Move} {k : Nat} {e : LinkEvent}
    (hmem : .event k e ∈ (f.step m).2) (he : ∀ text, e ≠ .message text) :
    k = f.line.current ∧ (f.step m).1.line.status = .disconnected ∧
      (f.step m).2 =
        (if f.line.status = .disconnected then [] else [.status .disconnected]) ++
          [.event k e] := by
  have hevent : (k, e) ∈ (f.step m).2.filterMap Effect.event? :=
    List.mem_filterMap.mpr ⟨_, hmem, rfl⟩
  have hacts := h.acts_step m
  generalize f.step m = next at hacts hevent
  cases hacts with
  | still | hear | leave => cases hevent
  | rewire _ hmute =>
    rw [hmute] at hevent
    cases hevent
  | pass _ _ heffects htold =>
    rw [heffects] at hevent
    obtain ⟨rfl, rfl⟩ := Prod.mk.inj (List.mem_singleton.mp hevent)
    exact ⟨rfl, htold he⟩

/-! ### The main result -/

/-- **A subscription follows the links of a line.**  It begins after any run, and no channel
overflows.

* What is handed on from then on is of the current link and of those that come after it, all of one
  link before all of the next: nothing of a link that was replaced.
* Of each link these are the first events, each once and in the order in which they were emitted,
  from the first one on that its forwarder had not taken; of a link that is made later that is the
  first one that it emits.
* Of the link that is the current one at the end they are all but those that its forwarder has still
  to take, as long as the owner holds the line.
* When the end of a link is handed on, it is that of the current link, and the status is set to
  disconnected before that.
* A reader of the subscription that never falls too far behind gets these events and no others, link
  by link. -/
theorem events_follow_links (greets : Bool) {before since : List Move}
    (hroom : Roomy { line := { greets } } (before ++ since)) :
    let first := (run { line := { greets } } before).1
    let last := (first.run since).1
    let current := last.line.current
    first.handed since =
        (links first.line.current current).flatMap (fun k => (first.passed k since).map (k, ·)) ∧
      (∀ k, first.passed k since <+: first.waiting k ++ first.emitted k since) ∧
      (∀ k, first.line.current < k → first.waiting k = []) ∧
      (last.line.dropped = false →
        first.passed current since ++ last.waiting current =
          first.waiting current ++ first.emitted current since) ∧
      (∀ m k e, .event k e ∈ (last.step m).2 → (∀ text, e ≠ .message text) →
        k = current ∧ (last.step m).1.line.status = .disconnected ∧
          (last.step m).2 =
            (if last.line.status = .disconnected then [] else [.status .disconnected]) ++
              [.event k e]) ∧
      ∀ mail, Mailbox.arrived mail = (first.handed since).map (·.2) →
        channel.Prompt [] mail →
        channel.given [] mail ++ channel.kept [] mail =
          (links first.line.current current).flatMap fun k => first.passed k since := by
  intro first last current
  have hfirst : first.Tended := (tended_start greets).run before
  have hlast : last.Tended := hfirst.run since
  have hhanded := hfirst.handed_eq since
  refine ⟨hhanded, hfirst.passed_prefix hroom.after, hfirst.unmade, fun hd => ?_,
    fun m k e => hlast.told_before_end, fun mail harrived hprompt => ?_⟩
  · exact hfirst.passed_current hroom.after hd rfl
  · have hgiven := channel.given_of_prompt hprompt
    rw [harrived, hhanded, List.nil_append] at hgiven
    simpa [channel, List.map_flatMap, Function.comp_def] using hgiven

/-- A subscription that begins when an event of the first link waits. -/
def firstEvents : List Move :=
  [.emit 0 (.message "one"), .forward 0, .emit 0 (.message "two")]

/-- Another event of the first link comes too late, as the link is replaced before its forwarder has
a turn; and the next link ends. -/
def laterEvents : List Move :=
  [.forward 0, .emit 0 (.message "late"), .input (.call .reconnect) rfl, .forward 0,
    .emit 0 (.message "lost"), .emit 1 (.message "three"), .emit 1 .closed, .forward 1, .forward 1]

theorem events_follow_reconnect :
    let start : Feed := { line := {} }
    let first := (start.run firstEvents).1
    start.Roomy (firstEvents ++ laterEvents) ∧
      first.handed laterEvents =
        [(0, .message "two"), (1, .message "three"), (1, .closed)] ∧
      first.passed 0 laterEvents <+: [.message "two", .message "late", .message "lost"] ∧
      first.passed 1 laterEvents = [.message "three", .closed] := by
  intro start first
  have hroom : start.Roomy (firstEvents ++ laterEvents) := roomy_of_length fun k => by
    show 0 + (firstEvents ++ laterEvents).length ≤ channel.capacity
    decide
  obtain ⟨-, hpassed, -, hcurrent, -⟩ := events_follow_links false hroom
  have hlast : first.passed 1 laterEvents ++ [] = [] ++ [.message "three", .closed] := hcurrent rfl
  exact ⟨hroom, by decide, hpassed 0, by simpa using hlast⟩

end Feed
end NodeClient
