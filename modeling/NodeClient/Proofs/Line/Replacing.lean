import NodeClient.Proofs.Line.Opening

/-!
# Line replacing — what a line sends after it got a new link

A request that a link was given before it was replaced may still be sent on it.  All others are sent
on the links that come after, if a link sends nothing that it is given after it was told to
disconnect (`Faithful`).

* `Newest`: the current link is the newest one, and no task sends on one that is to come.
* `tornDown_of_replaced`: every link before the current one was torn down.
* `underWay`: the send that is under way, if the link ends it well.
* `sends_since`: what is sent from some time on, but for the send that was under way, is sent on the
  links from then on.
-/

namespace NodeClient
namespace Line

variable {line : Line}

/-! ### Links that were replaced -/

/-- The current link is the newest one, and the draining task is on none that is to come. -/
structure Newest (line : Line) : Prop where
  made : line.forwarders.length = line.current + 1
  drain : ∀ link, line.drain.link? = some link → link ≤ line.current

theorem newest_start (greets : Bool) : Newest { greets } :=
  ⟨rfl, nofun⟩

/-- The draining task takes up no link but the current one, and only while it is connected. -/
theorem link?_step {i : Input} {link : Nat} (h : (line.step i).1.drain.link? = some link) :
    line.drain.link? = some link ∨ (link = line.current ∧ line.status = .connected) := by
  by_cases hact : i = .act .drain
  · subst hact
    cases hnext : line.actDrain? with
    | none =>
      rw [step, act?, hnext] at h
      exact .inl h
    | some next =>
      have hdrains := drains_of_act hnext
      rw [step, act?, hnext, Option.getD_some] at h
      generalize next.1 = after at h hdrains
      cases hdrains with
      | pick hd hs => exact .inr ⟨(Option.some.inj h).symm, hs⟩
      | give hd => exact .inl (by rw [hd]; exact h)
      | _ => cases h
  · by_cases hsent : ∀ ok, i ≠ .sent ok
    · exact .inl (drain_step hsent hact ▸ h)
    · obtain ⟨ok, hok⟩ := Classical.not_forall_not.mp hsent
      subst hok
      rw [step, link?_sent] at h
      exact .inl h

/-- A step replaces the link or keeps it; it takes up no link that is to come. -/
theorem Newest.step (h : line.Newest) (i : Input) :
    (line.step i).1.Newest ∧ line.current ≤ (line.step i).1.current := by
  have hlink : ∀ link, (line.step i).1.drain.link? = some link → link ≤ line.current := by
    intro link hl
    rcases link?_step hl with hl | ⟨rfl, -⟩
    · exact h.drain link hl
    · exact Nat.le_refl _
  have hmade := h.made
  rcases line.current_step i with ⟨-, hsame⟩ | ⟨-, hcurrent, hlength⟩
  · have hle : line.current ≤ (line.step i).1.current := Nat.le_of_eq hsame.current.symm
    exact ⟨⟨by rw [hsame.made, hsame.current, hmade],
      fun link hl => Nat.le_trans (hlink link hl) hle⟩, hle⟩
  · have hle : line.current ≤ (line.step i).1.current := by omega
    exact ⟨⟨by rw [hlength, hcurrent], fun link hl => Nat.le_trans (hlink link hl) hle⟩, hle⟩

theorem Newest.run (h : line.Newest) (inputs : List Input) :
    (line.run inputs).1.Newest ∧ line.current ≤ (line.run inputs).1.current := by
  induction inputs generalizing line with
  | nil => exact ⟨h, Nat.le_refl _⟩
  | cons i rest ih =>
    obtain ⟨hnext, hle⟩ := h.step i
    obtain ⟨hlast, hle'⟩ := ih hnext
    exact ⟨hlast, Nat.le_trans hle hle'⟩

/-- **Every link before the current one was torn down.** -/
theorem tornDown_of_replaced (h : line.Newest) {inputs : List Input} {link : Nat}
    (hfirst : line.current ≤ link) (hlast : link < (line.run inputs).1.current) :
    link ∈ line.tornDown inputs := by
  induction inputs generalizing line with
  | nil => exact absurd hlast (Nat.not_lt.mpr hfirst)
  | cons i rest ih =>
    rw [tornDown, List.mem_append]
    have hnext := (h.step i).1
    have hmade := h.made
    rcases line.current_step i with ⟨-, hsame⟩ | ⟨hcalls, hcurrent, -⟩
    · exact .inr (ih hnext (hsame.current ▸ hfirst) hlast)
    · by_cases hlink : link = line.current
      · left
        rw [tornDownBy, if_pos (List.any_eq_true.mpr ⟨_, hcalls, rfl⟩), hlink]
        exact .head _
      · exact .inr (ih hnext (by omega) hlast)

/-! ### Sends -/

/-- The owner sends nothing himself. -/
theorem sends_calls (line : Line) (calls : List Call) : line.sends (calls.map .call) = [] := by
  induction calls generalizing line with
  | nil => rfl
  | cons c rest ih => exact ih _

/-- The send that is under way, if the schedule ends it well. -/
def underWay (line : Line) (inputs : List Input) : List (Nat × String) :=
  match line.drain with
  | .sending link text => if outcome? inputs = some true then [(link, text)] else []
  | _ => []

theorem underWay_of_sending {link : Nat} {text : String} (h : line.drain = .sending link text)
    (inputs : List Input) :
    line.underWay inputs = if outcome? inputs = some true then [(link, text)] else [] := by
  rw [underWay, h]

theorem underWay_of_not_sending (h : ∀ link text, line.drain ≠ .sending link text)
    (inputs : List Input) : line.underWay inputs = [] := by
  unfold underWay
  split
  · next link text hd => exact absurd hd (h link text)
  · rfl

/-- A send under way is of the first request of the backlog. -/
theorem underWay_le_backlog (line : Line) (inputs : List Input) :
    (line.underWay inputs).map (·.2) <+: line.backlog := by
  have hflight : line.inFlight <+: line.backlog := by
    rw [backlog, List.append_assoc]
    exact List.prefix_append _ _
  refine List.IsPrefix.trans ?_ hflight
  unfold underWay
  split
  · next link text hd =>
    split
    · rw [inFlight, hd]
      exact List.prefix_refl _
    · exact List.nil_prefix
  · exact List.nil_prefix

/-- The requests of the backlog, but for one whose send is under way and ends well. -/
def left (line : Line) (inputs : List Input) : List String :=
  line.backlog.drop (line.underWay inputs).length

theorem underWay_append_left (line : Line) (inputs : List Input) :
    (line.underWay inputs).map (·.2) ++ line.left inputs = line.backlog := by
  obtain ⟨more, hmore⟩ := line.underWay_le_backlog inputs
  rw [left, ← hmore]
  congr 1
  exact List.drop_left' (List.length_map _)

/-- What is sent after the send that is under way was left in the queue, or is queued later. -/
theorem others_append_backlog {inputs : List Input} {others : List (Nat × String)}
    (hsends : line.sends inputs = line.underWay inputs ++ others) :
    others.map (·.2) ++ (line.run inputs).1.backlog = line.left inputs ++ line.requests inputs := by
  have hqueue := line.sends_append_backlog inputs
  rw [hsends, ← underWay_append_left line inputs, List.map_append, List.append_assoc,
    List.append_assoc] at hqueue
  exact List.append_cancel_left hqueue

theorem link?_of_underWay {inputs : List Input} {send : Nat × String}
    (h : send ∈ line.underWay inputs) : line.drain.link? = some send.1 := by
  unfold underWay at h
  split at h
  · next link text hd =>
    split at h
    · obtain rfl := List.mem_singleton.mp h
      rw [hd]
      rfl
    · cases h
  · cases h

theorem Succeeds.cons {i : Input} {rest before : List Input} {send : Nat × String}
    (h : (line.step i).1.Succeeds rest before send) :
    line.Succeeds (i :: rest) (i :: before) send := by
  obtain ⟨j, later, rfl, hsend, hsent⟩ := h
  exact ⟨j, later, rfl, hsend, hsent⟩

theorem Succeeds.append {first rest before : List Input} {send : Nat × String}
    (h : (line.run first).1.Succeeds rest before send) :
    line.Succeeds (first ++ rest) (first ++ before) send := by
  induction first generalizing line with
  | nil => exact h
  | cons i first ih => exact (ih h).cons

/-- A link that is sending goes on until it reports an outcome. -/
theorem sending_kept {i : Input} (hi : ∀ ok, i ≠ .sent ok) {link : Nat} {text : String}
    (hd : line.drain = .sending link text) : (line.step i).1.drain = .sending link text := by
  by_cases hact : i = .act .drain
  · subst hact
    have hnone : line.actDrain? = none := by simp only [actDrain?, hd]
    rw [step, act?, hnone]
    exact hd
  · rw [drain_step hi hact, hd]

/-- A step that reports no outcome of a send sends nothing, and leaves the send under way that is
under way, or starts one. -/
theorem underWay_step {P : Nat → Prop} {i : Input} {rest : List Input} (hi : ∀ ok, i ≠ .sent ok)
    (h : ∀ before send, line.Succeeds (i :: rest) before send → P send.1) :
    line.sendsBy i = [] ∧ ∃ others,
      (line.step i).1.underWay rest = line.underWay (i :: rest) ++ others ∧
        ∀ send ∈ others, P send.1 := by
  have hquiet : line.sendsBy i = [] ∧ outcome? (i :: rest) = outcome? rest := by
    cases i with
    | sent ok => exact absurd rfl (hi ok)
    | _ => exact ⟨rfl, rfl⟩
  obtain ⟨hnone, houtcome⟩ := hquiet
  refine ⟨hnone, ?_⟩
  by_cases hsending : ∃ link text, (line.step i).1.drain = .sending link text
  · obtain ⟨link, text, hd⟩ := hsending
    rw [underWay_of_sending hd]
    rcases sending_step hd with hgiven | ⟨hbefore, -⟩
    · have hdraining := (drain_of_send hgiven).1
      have hnow : ∀ link text, line.drain ≠ .sending link text := by
        rw [hdraining]
        exact nofun
      refine ⟨if outcome? rest = some true then [(link, text)] else [], ?_, ?_⟩
      · rw [underWay_of_not_sending hnow, List.nil_append]
      · intro send hsend
        split at hsend
        · next hrest =>
          obtain rfl := List.mem_singleton.mp hsend
          exact h [] _ ⟨i, rest, rfl, hgiven, hrest⟩
        · cases hsend
    · refine ⟨[], ?_, nofun⟩
      rw [underWay_of_sending hbefore, houtcome, List.append_nil]
  · have hafter : ∀ link text, (line.step i).1.drain ≠ .sending link text := fun link text hd =>
      hsending ⟨link, text, hd⟩
    have hbefore : ∀ link text, line.drain ≠ .sending link text := fun link text hd =>
      hafter link text (sending_kept hi hd)
    refine ⟨[], ?_, nofun⟩
    rw [underWay_of_not_sending hafter, underWay_of_not_sending hbefore, List.append_nil]

/-- An outcome ends the send that is under way. -/
theorem underWay_sent (ok : Bool) (rest : List Input) :
    line.underWay (.sent ok :: rest) = line.sendsBy (.sent ok) ∧
      (line.step (.sent ok)).1.underWay rest = [] := by
  have hafter : ∀ link text, (line.sent ok).drain ≠ .sending link text := by
    intro link text
    unfold sent
    split
    · cases ok <;> exact nofun
    · next hother => exact hother link text
  refine ⟨?_, underWay_of_not_sending hafter rest⟩
  by_cases hsending : ∃ link text, line.drain = .sending link text
  · obtain ⟨link, text, hd⟩ := hsending
    rw [underWay_of_sending hd]
    cases ok <;> simp [sendsBy, hd, outcome?]
  · have hbefore : ∀ link text, line.drain ≠ .sending link text := fun link text hd =>
      hsending ⟨link, text, hd⟩
    rw [underWay_of_not_sending hbefore]
    unfold sendsBy
    split
    · split
      · next link text hd => exact absurd hd (hbefore link text)
      · rfl
    · rfl

/-- What a schedule sends, but for the send that was under way, it gives to its links. -/
theorem sends_eq_underWay_append {P : Nat → Prop} {inputs : List Input}
    (h : ∀ before send, line.Succeeds inputs before send → P send.1) :
    ∃ others, line.sends inputs = line.underWay inputs ++ others ∧ ∀ send ∈ others, P send.1 := by
  induction inputs generalizing line with
  | nil =>
    refine ⟨[], ?_, nofun⟩
    unfold underWay
    split <;> rfl
  | cons i rest ih =>
    obtain ⟨others, hsends, hothers⟩ := ih fun before send hs => h _ send hs.cons
    rw [sends, hsends]
    by_cases hi : ∀ ok, i ≠ .sent ok
    · obtain ⟨hnone, more, hmore, hgiven⟩ := underWay_step hi h
      refine ⟨more ++ others, by rw [hnone, hmore, List.nil_append, List.append_assoc], ?_⟩
      intro send hsend
      rcases List.mem_append.mp hsend with hsend | hsend
      · exact hgiven send hsend
      · exact hothers send hsend
    · obtain ⟨ok, hok⟩ := Classical.not_forall_not.mp hi
      subst hok
      obtain ⟨hbefore, hafter⟩ := line.underWay_sent ok rest
      exact ⟨others, by rw [hbefore, hafter, List.nil_append], hothers⟩

/-- Links send nothing that they are given after they were told to disconnect. -/
def Faithful (start : Line) (inputs : List Input) : Prop :=
  ∀ before send, .disconnect send.1 ∈ (start.run before).2 → ¬ start.Succeeds inputs before send

/-- Links are faithful if no send succeeds after they were told to disconnect. -/
theorem faithful_of_checked {start : Line} {inputs : List Input}
    (h : ∀ n < inputs.length, ∀ link ∈ (start.run (inputs.take n)).1.drain.link?,
      (start.run (inputs.take n)).1.drain = .draining link →
      .disconnect link ∈ (start.run (inputs.take n)).2 →
        outcome? (inputs.drop (n + 1)) ≠ some true) : start.Faithful inputs := by
  rintro before send htold ⟨i, rest, rfl, hsend, hsent⟩
  have hdrain := (drain_of_send hsend).1
  have hbefore : (before ++ i :: rest).take before.length = before := List.take_left
  have hrest : (before ++ i :: rest).drop (before.length + 1) = rest := by
    rw [← List.drop_drop, List.drop_left, List.drop_one, List.tail_cons]
  have hlink : send.1 ∈ (start.run before).1.drain.link? := by
    rw [hdrain]
    rfl
  have hcheck := h before.length (by simp) send.1
  rw [hbefore, hrest] at hcheck
  exact hcheck hlink hdrain htold hsent

/-- **What is sent from some time on**, but for the send that was under way, is sent on the link of
that time or on one that came later. -/
theorem sends_since {start : Line} (hnew : start.Newest) (hzero : start.current = 0)
    {first rest : List Input} (h : start.Faithful (first ++ rest)) :
    ∃ others, (start.run first).1.sends rest = (start.run first).1.underWay rest ++ others ∧
      ∀ send ∈ others, (start.run first).1.current ≤ send.1 ∧
        send.1 ≤ (start.run (first ++ rest)).1.current := by
  refine sends_eq_underWay_append
    (P := fun link => (start.run first).1.current ≤ link ∧
      link ≤ (start.run (first ++ rest)).1.current) fun before send hs => ?_
  have hstart := hs.append
  obtain ⟨i, later, rfl, hsend, -⟩ := hs
  have hat : (start.run (first ++ before)).1 = ((start.run first).1.run before).1 :=
    start.run_append_fst first before
  have hdrain := (drain_of_send hsend).1
  rw [← hat] at hdrain
  have hle := (hnew.run (first ++ before)).1.drain send.1 (by rw [hdrain]; rfl)
  -- a link before the current one was told to disconnect
  have hge : (start.run (first ++ before)).1.current ≤ send.1 := by
    by_contra hlt
    have htorn : send.1 ∈ start.tornDown (first ++ before) :=
      tornDown_of_replaced hnew (by omega) (by omega)
    exact h _ send (told_of_tornDown htorn) hstart
  have hfirst := ((hnew.run first).1.run before).2
  have hlast := ((hnew.run (first ++ before)).1.run (i :: later)).2
  rw [← hat] at hfirst
  rw [← run_append_fst, List.append_assoc] at hlast
  exact ⟨Nat.le_trans hfirst hge, Nat.le_trans hle hlast⟩

end Line
end NodeClient
