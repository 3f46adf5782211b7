import NodeClient.Proofs.Exchange.Asking
import NodeClient.Proofs.Line.Uninterrupted
import NodeClient.Proofs.Session.Resumption

/-!
# Session repetition — queries that are asked for twice on one connection

The greeting of a new connection asks for all queries that are held.  A query may also be asked for
by a request that still waits in the queue when the connection is greeted, and is sent on it first:
then the node is asked for it twice.  While no call fails, nothing else repeats a request.

* `requests_in_order`: if nobody comes in between, the line gets the requests of the exchange, those
  of greetings included, in the order in which the exchange makes them.
* `no_greeting_after`: a connection is greeted once.
* `fresh_or_greeted`: a link that came with a reconnect was greeted, or nothing was sent on it yet.
* `asked_twice_iff`: what is asked for twice on a connection.
-/

namespace NodeClient

namespace Session

open Exchange (subscribeText texts AskedLast AskedTwice)

/-! ### The order of the requests -/

section Moves

variable {s : Session} (hs : s.Standing)

include hs

theorem move_in_order {m : Move} (hm : m.ordinary) (hrun : s.line.Uninterrupted (s.lineMoves m)) :
    s.line.requests (s.lineMoves m) ++ (s.move m).line.unqueued =
      s.line.unqueued ++ texts (s.exchange.run (s.exchangeInputs m)).2 := by
  cases m with
  | exchange i =>
    have hunqueued : (s.move (.exchange i)).line.unqueued = s.line.unqueued := by
      rw [(line_exchange hs i).1]
      rfl
    have hrun' : texts (s.exchange.run [i]).2 = texts (s.exchange.step i).2 :=
      congrArg texts (List.append_nil _)
    rw [(line_exchange hs i).2, hunqueued, exchangeInputs, hrun']
    by_cases hnone : texts (s.exchange.step i).2 = []
    · rw [hnone, List.nil_append, List.append_nil]
    · -- the request comes from the owner, and no greeting is under way
      rw [lineMoves, lineCalls_eq] at hrun
      obtain ⟨text, rest, htexts⟩ := List.exists_cons_of_ne_nil hnone
      rw [htexts] at hrun
      rw [Line.unqueued_of_owner hrun.1 rfl, List.append_nil, List.nil_append]
  | line i =>
    have hrequests : s.line.requests (s.lineMoves (.line i)) = s.line.requestsBy i :=
      List.append_nil _
    rw [hrequests, exchangeInputs]
    exact (Line.unqueued_step hrun.1 hs.line.owner hm).trans (List.append_nil _).symm
  | greet k =>
    by_cases hdue : s.line.isDue k = true
    · rw [move, exchangeInputs, lineMoves, if_pos hdue, if_pos hdue] at *
      obtain ⟨hbefore, hafter⟩ := Line.unqueued_greet hrun.1 rfl hdue
      have htexts : (Script.Desk.lineCalls (s.exchange.step .greet).2).flatMap Line.Call.requests =
          texts (s.exchange.step .greet).2 := by
        rw [lineCalls_eq, List.flatMap_map]
        exact List.flatMap_singleton' _
      have hrun' : texts (s.exchange.run [.greet]).2 = texts (s.exchange.step .greet).2 :=
        congrArg texts (List.append_nil _)
      rw [hbefore, hrun', List.nil_append, ← htexts, ← hafter]
      rfl
    · rw [move_of_not_due hdue, exchangeInputs, lineMoves, if_neg hdue, if_neg hdue]
      exact (List.append_nil _).symm

/-- **The line gets the requests in the order in which the exchange makes them.** -/
theorem requests_in_order {moves : List Move} (hm : ∀ m ∈ moves, m.ordinary)
    (hrun : s.line.Uninterrupted (s.carried moves)) :
    s.line.requests (s.carried moves) ++ (s.play moves).line.unqueued =
      s.line.unqueued ++ texts (s.exchange.run (s.heard moves)).2 := by
  induction moves generalizing s with
  | nil => exact (List.append_nil _).symm
  | cons m rest ih =>
    obtain ⟨hfirst, hrest⟩ := List.forall_mem_cons.mp hm
    have hnow := move_in_order hs hfirst hrun.of_append
    have hlater := ih (hs.move hfirst) hrest hrun.after
    rw [carried, heard, Line.requests_append, Exchange.texts_run_append, play, List.append_assoc]
    calc s.line.requests (s.lineMoves m) ++
          ((s.line.run (s.lineMoves m)).1.requests ((s.move m).carried rest) ++
            ((s.move m).play rest).line.unqueued)
        = s.line.requests (s.lineMoves m) ++ ((s.move m).line.unqueued ++
            texts ((s.move m).exchange.run ((s.move m).heard rest)).2) := by rw [← hlater]; rfl
      _ = s.line.unqueued ++ texts (s.exchange.run (s.exchangeInputs m)).2 ++
            texts ((s.move m).exchange.run ((s.move m).heard rest)).2 := by
          rw [← List.append_assoc, hnow]
      _ = _ := by rw [List.append_assoc]; rfl

/-! ### The greeting of a connection -/

omit hs in
/-- An uninterrupted move leaves the line on links that have opened. -/
theorem grounded_move {links : List Nat} (hg : s.line.Grounded links) {m : Move} (hm : m.ordinary)
    (hrun : s.line.Uninterrupted (s.lineMoves m)) : ∃ links, (s.move m).line.Grounded links :=
  ⟨_, Line.grounded_run hg (fun i hi => Line.Input.polite_of_civil
    (Line.Input.civil_of_renewing (s.renewing_lineMoves hm i hi))) hrun⟩

/-- A line whose greeting is over is not greeted, and stays so until it gets a new link. -/
theorem past_move {links : List Nat} (hg : s.line.Grounded links) (hpast : s.line.Past) {m : Move}
    (hm : m.ordinary) (hrenew : m ≠ .line (.call .reconnect)) :
    (s.move m).line.Past ∧ (s.move m).line.current = s.line.current ∧
      .greet ∉ s.exchangeInputs m := by
  cases m with
  | exchange i =>
    rw [(line_exchange hs i).1]
    exact ⟨hpast, rfl, fun hi => hm.2 (List.mem_singleton.mp hi).symm⟩
  | line i =>
    have hi : i ≠ .call .reconnect := fun heq => hrenew (heq ▸ rfl)
    have hcivil := Line.Input.civil_of_lasting hm
    have hconnect := Line.Input.ne_connect_of_renewing (Line.Input.renewing_of_lasting hm)
    exact ⟨hpast.change (Line.change_step hs.line.owner hcivil) hconnect hi,
      Line.current_step_of_ne hs.line.owner hcivil hi, List.not_mem_nil⟩
  | greet k =>
    have hdue := hpast.not_due hg k
    rw [move_of_not_due hdue, exchangeInputs, if_neg hdue]
    exact ⟨hpast, rfl, List.not_mem_nil⟩

/-- **A connection is greeted once**, and the line keeps it until it gets a new link. -/
theorem no_greeting_after {links : List Nat} (hg : s.line.Grounded links) (hpast : s.line.Past)
    {moves : List Move} (hm : ∀ m ∈ moves, m.ordinary)
    (hstay : .line (.call .reconnect) ∉ moves) (hrun : s.line.Uninterrupted (s.carried moves)) :
    .greet ∉ s.heard moves ∧ (s.play moves).line.current = s.line.current := by
  induction moves generalizing s links with
  | nil => exact ⟨List.not_mem_nil, rfl⟩
  | cons m rest ih =>
    obtain ⟨hfirst, hrest⟩ := List.forall_mem_cons.mp hm
    have hrenew : m ≠ .line (.call .reconnect) := fun heq => hstay (heq ▸ .head rest)
    obtain ⟨hpast', hcurrent, hnow⟩ := past_move hs hg hpast hfirst hrenew
    obtain ⟨links', hg'⟩ := grounded_move hg hfirst hrun.of_append
    obtain ⟨hlater, hlast⟩ := ih (hs.move hfirst) hg' hpast' hrest
      (fun h => hstay (.tail m h)) hrun.after
    exact ⟨fun h => (List.mem_append.mp h).elim hnow hlater, hlast.trans hcurrent⟩

end Moves

/-! ### Links that were not greeted -/

theorem sent_concat (s : Session) (moves : List Move) (m : Move) :
    s.sent (moves ++ [m]) =
      s.sent moves ++ (s.play moves).line.sends ((s.play moves).lineMoves m) := by
  rw [sent, carried_concat, Line.sends_append, ← line_play]
  rfl

/-- The last link was greeted in the course. -/
def Greeted (s : Session) (moves : List Move) : Prop :=
  ∃ before k after, moves = before ++ .greet k :: after ∧
    (s.play before).line.isDue k = true ∧ .line (.call .reconnect) ∉ after

theorem Greeted.concat {s : Session} {moves : List Move} (h : s.Greeted moves) {m : Move}
    (hm : m ≠ .line (.call .reconnect)) : s.Greeted (moves ++ [m]) := by
  obtain ⟨before, k, after, rfl, hdue, hstay⟩ := h
  refine ⟨before, k, after ++ [m], by simp, hdue, fun h => ?_⟩
  rcases List.mem_append.mp h with h | h
  · exact hstay h
  · exact hm (List.mem_singleton.mp h).symm

/-- The current link came with a reconnect and was not greeted, and nothing was sent on it. -/
structure Fresh (s : Session) (sends : List (Nat × String)) : Prop where
  untouched : s.line.Untouched
  earlier : ∀ send ∈ sends, send.1 < s.line.current

section Links

variable {s : Session} (hs : s.Standing) {sends : List (Nat × String)}

include hs

theorem fresh_reconnect (hbound : ∀ send ∈ sends, send.1 ≤ s.line.current) :
    (s.move (.line (.call .reconnect))).Fresh
      (sends ++ s.line.sends (s.lineMoves (.line (.call .reconnect)))) := by
  obtain ⟨hnow, hlt⟩ := Line.untouched_reconnect hs.line
  have hnone : s.line.sends (s.lineMoves (.line (.call .reconnect))) = [] := rfl
  rw [hnone, List.append_nil]
  exact ⟨hnow, fun send hsend => Nat.lt_of_le_of_lt (hbound send hsend) hlt⟩

/-- **Nothing is sent on a new link before its greeting.** -/
theorem Fresh.move {links : List Nat} (hg : s.line.Grounded links) (h : s.Fresh sends) {m : Move}
    (hm : m.ordinary) (hrenew : m ≠ .line (.call .reconnect)) :
    (s.move m).Fresh (sends ++ s.line.sends (s.lineMoves m)) ∨
      ∃ k, m = .greet k ∧ s.line.isDue k = true := by
  cases m with
  | exchange i =>
    have hnone : s.line.sends (s.lineMoves (.exchange i)) = [] := Line.sends_calls _ _
    have hline := (line_exchange hs i).1
    rw [hnone, List.append_nil]
    exact .inl ⟨hline ▸ h.untouched.congr rfl rfl rfl rfl, hline ▸ h.earlier⟩
  | line i =>
    have hi : i ≠ .call .reconnect := fun heq => hrenew (heq ▸ rfl)
    have hsends : s.line.sends (s.lineMoves (.line i)) = s.line.sendsBy i := List.append_nil _
    have hcurrent := Line.current_step_of_ne hs.line.owner (Line.Input.civil_of_lasting hm) hi
    have hnext := h.untouched.step hs.line hg (Line.Input.renewing_of_lasting hm)
    refine .inl ⟨hnext.resolve_right ?_, fun send hsend => ?_⟩
    · rintro ⟨index, calls, rfl, -⟩
      cases hm
    · refine Nat.lt_of_lt_of_eq ?_ hcurrent.symm
      rw [hsends] at hsend
      rcases List.mem_append.mp hsend with hsend | hsend
      · exact h.earlier send hsend
      · exact h.untouched.drain send.1 (Line.link?_of_sendsBy hsend)
  | greet k =>
    by_cases hdue : s.line.isDue k = true
    · exact .inr ⟨k, rfl, hdue⟩
    · rw [move_of_not_due hdue, lineMoves, if_neg hdue]
      exact .inl ((List.append_nil sends).symm ▸ h)

/-- **A link that came with a reconnect was greeted**, or nothing was sent on it. -/
theorem fresh_or_greeted {links : List Nat} (hg : s.line.Grounded links)
    (htraced : s.line.Traced []) {moves : List Move} (hm : ∀ m ∈ moves, m.ordinary)
    (hrun : s.line.Uninterrupted (s.carried moves)) :
    (s.play moves).Fresh (s.sent moves) ∨ s.Greeted moves ∨
      .line (.call .reconnect) ∉ moves := by
  induction moves using List.reverseRecOn with
  | nil => exact .inr (.inr List.not_mem_nil)
  | append_singleton moves m ih =>
    have hmoves : ∀ m ∈ moves, m.ordinary := fun m' hm' => hm m' (List.mem_append_left _ hm')
    have hlast : m.ordinary := hm m (List.mem_append_right _ (.head _))
    have hrenewing := s.renewing_carried hmoves
    rw [carried_concat] at hrun
    have hground := Line.grounded_run hg (fun i hi => Line.Input.polite_of_civil
      (Line.Input.civil_of_renewing (hrenewing i hi))) hrun.of_append
    have htrace := Line.traced_run hs.line hg htraced hrenewing hrun.of_append
    rw [← line_play] at hground htrace
    rw [play_concat, sent_concat]
    by_cases hrenew : m = .line (.call .reconnect)
    · subst hrenew
      exact .inl (fresh_reconnect (hs.play hmoves) htrace.bound)
    · rcases ih hmoves hrun.of_append with hfresh | hgreeted | hstay
      · refine (hfresh.move (hs.play hmoves) hground hlast hrenew).imp_right ?_
        rintro ⟨k, rfl, hdue⟩
        exact .inl ⟨moves, k, [], rfl, hdue, List.not_mem_nil⟩
      · exact .inr (.inl (hgreeted.concat hrenew))
      · refine .inr (.inr fun hmem => ?_)
        rcases List.mem_append.mp hmem with hmem | hmem
        · exact hstay hmem
        · exact hrenew (List.mem_singleton.mp hmem).symm

end Links

/-! ### What is sent on the current link -/

/-- The texts that a course sends on the link that is current after it. -/
def sentNow (s : Session) (moves : List Move) : List String :=
  ((s.sent moves).filter (·.1 = (s.play moves).line.current)).map (·.2)

/-- Sends on earlier links and on the current one, and those among them that are on it. -/
theorem filter_link {earlier others : List (Nat × String)} {link : Nat}
    (hearlier : ∀ send ∈ earlier, send.1 < link) (hothers : ∀ send ∈ others, send.1 = link) :
    (earlier ++ others).filter (·.1 = link) = others := by
  have hnone : ∀ send ∈ earlier, ¬decide (send.1 = link) = true := fun send h =>
    of_decide_eq_true.mt (Nat.ne_of_lt (hearlier send h))
  have hall : ∀ send ∈ others, decide (send.1 = link) = true := fun send h =>
    decide_eq_true (hothers send h)
  rw [List.filter_append, List.filter_eq_nil_iff.mpr hnone, List.filter_eq_self.mpr hall,
    List.nil_append]

theorem Fresh.sentNow_eq_nil {s : Session} {moves : List Move}
    (h : (s.play moves).Fresh (s.sent moves)) : s.sentNow moves = [] := by
  have hnone := filter_link h.earlier (List.forall_mem_nil _)
  rw [List.append_nil] at hnone
  exact congrArg (List.map (·.2)) hnone

section Course

variable (timeout : Nat) {setup : List Line.Input} (hsetup : setup <+: [.call .connect])

include hsetup

theorem connecting_of_setup : ∀ i ∈ setup, i.connecting = true := by
  intro i hi
  obtain rfl := List.mem_singleton.mp (hsetup.subset hi)
  rfl

/-- A line that is told to connect, or nothing yet, is on its first link. -/
theorem current_start : (start timeout true setup).line.current = 0 := by
  rcases setup with - | ⟨i, rest⟩
  · rfl
  · obtain ⟨rfl, hrest⟩ := List.cons_prefix_cons.mp hsetup
    obtain rfl := List.prefix_nil.mp hrest
    rfl

theorem traced_start : (start timeout true setup).line.Traced [] :=
  ⟨nofun, .inr (Line.past_start hsetup)⟩

theorem unqueued_start : (start timeout true setup).line.unqueued = [] :=
  Line.unqueued_of_quiet (start_line timeout true (connecting_of_setup hsetup)).1.greeted

variable {moves : List Move} (hm : ∀ m ∈ moves, m.ordinary)
  (hrun : Line.Uninterrupted { greets := true } (schedule timeout setup moves))

include hrun

omit hm in
/-- The line of a session that was set up is on links that have opened. -/
theorem grounded_setup : ∃ links, (start timeout true setup).line.Grounded links := by
  refine ⟨_, Line.grounded_run (Line.grounded_start true) (fun i hi => ?_) hrun.of_append⟩
  obtain rfl := List.mem_singleton.mp (hsetup.subset hi)
  rfl

include hm

/-- What holds after a course: the line is on links that have opened, and it has sent on a link only
what came after its greeting. -/
theorem traced_play : (∃ links, ((start timeout true setup).play moves).line.Grounded links) ∧
    ((start timeout true setup).play moves).line.Traced
      ((start timeout true setup).sent moves) := by
  have hconnecting := connecting_of_setup hsetup
  obtain ⟨links, hg⟩ := grounded_setup timeout hsetup hrun
  have hrenewing := (start timeout true setup).renewing_carried hm
  rw [line_play]
  exact ⟨⟨_, Line.grounded_run hg (fun i hi => Line.Input.polite_of_civil
    (Line.Input.civil_of_renewing (hrenewing i hi))) hrun.after⟩,
    Line.traced_run (standing_start timeout hconnecting).line hg (traced_start timeout hsetup)
      hrenewing hrun.after⟩

/-- What a course sends, what is left of it in the queue, and what a greeting is about to queue are
the requests of the exchange. -/
theorem sent_append_queue :
    ((start timeout true setup).sent moves).map (·.2) ++
        (((start timeout true setup).play moves).line.backlog ++
          ((start timeout true setup).play moves).line.unqueued) =
      texts (Exchange.run { timeout } ((start timeout true setup).heard moves)).2 := by
  have hconnecting := connecting_of_setup hsetup
  have hqueue := Line.sends_append_backlog (start timeout true setup).line
    ((start timeout true setup).carried moves)
  have horder := requests_in_order (standing_start timeout hconnecting) hm hrun.after
  rw [(start_line timeout true hconnecting).2.backlog, List.nil_append, ← line_play] at hqueue
  rw [unqueued_start timeout hsetup, List.nil_append, ← hqueue, List.append_assoc] at horder
  exact horder

/-- On its first link a session sends what the exchange asks for, in its order. -/
theorem sentNow_of_first (hstay : .line (.call .reconnect) ∉ moves) :
    .greet ∉ (start timeout true setup).heard moves ∧
      (start timeout true setup).sentNow moves <+:
        texts (Exchange.run { timeout } ((start timeout true setup).heard moves)).2 := by
  have hstanding := standing_start timeout (connecting_of_setup hsetup)
  obtain ⟨links, hg⟩ := grounded_setup timeout hsetup hrun
  obtain ⟨hgreet, hcurrent⟩ :=
    no_greeting_after hstanding hg (Line.past_start hsetup) hm hstay hrun.after
  refine ⟨hgreet, ?_⟩
  have hzero : ((start timeout true setup).play moves).line.current = 0 :=
    hcurrent.trans (current_start timeout hsetup)
  have hall : ∀ send ∈ (start timeout true setup).sent moves,
      decide (send.1 = ((start timeout true setup).play moves).line.current) = true := by
    intro send hsend
    have hle := (traced_play timeout hsetup hm hrun).2.bound send hsend
    exact decide_eq_true (by omega)
  rw [sentNow, List.filter_eq_self.mpr hall, ← sent_append_queue timeout hsetup hm hrun]
  exact List.prefix_append _ _

end Course

/-! ### What is sent on a link that was greeted -/

/-- The link of a greeting stays after it, and is not greeted again. -/
theorem current_after_greeting {s : Session} (hs : s.Standing) {links : List Nat}
    (hg : s.line.Grounded links) (huntouched : s.line.Untouched) {k : Nat}
    (hdue : s.line.isDue k = true) {after : List Move} (hm : ∀ m ∈ after, m.ordinary)
    (hstay : .line (.call .reconnect) ∉ after)
    (hrun : s.line.Uninterrupted (s.carried (.greet k :: after))) :
    .greet ∉ (s.move (.greet k)).heard after ∧
      (s.play (.greet k :: after)).line.current = s.line.current := by
  have hgreet : (Move.greet k).ordinary := trivial
  have hline : (s.move (.greet k)).line =
      (s.line.step (.greet k (Script.Desk.lineCalls (s.exchange.step .greet).2))).1 := by
    rw [move, lineMoves, if_pos hdue]
    rfl
  have hpast : (s.move (.greet k)).line.Past := by
    rw [hline]
    exact huntouched.greet hg hdue _
  obtain ⟨links', hg'⟩ := grounded_move hg hgreet hrun.of_append
  obtain ⟨hnone, hcurrent⟩ :=
    no_greeting_after (hs.move hgreet) hg' hpast hm hstay hrun.after
  refine ⟨hnone, hcurrent.trans ?_⟩
  rw [hline, Line.greet_of_due hdue]
  rfl

/-- The requests that wait in the queue when an attempt greets its link, but for one that is sent on
the link before. -/
def leftOver (s : Session) (before : List Move) (k : Nat) (after : List Move) : List String :=
  (s.play before).line.left ((s.play before).carried (.greet k :: after))

/-- The requests that the exchange makes from a greeting on. -/
def askedSince (s : Session) (before : List Move) (k : Nat) (after : List Move) : List String :=
  texts ((s.play before).exchange.run ((s.play before).heard (.greet k :: after))).2

section Greeting

variable (timeout : Nat) {setup : List Line.Input} (hsetup : setup <+: [.call .connect])
  {before after : List Move} {k : Nat} (hm : ∀ m ∈ before ++ .greet k :: after, m.ordinary)
  (hrun : Line.Uninterrupted { greets := true }
    (schedule timeout setup (before ++ .greet k :: after)))
  (hdue : ((start timeout true setup).play before).line.isDue k = true)

include hsetup hm hrun hdue

/-- When a link is greeted, nobody has sent on it, and no requests of another greeting are left. -/
theorem fresh_of_due :
    ((start timeout true setup).play before).Fresh ((start timeout true setup).sent before) ∧
      ((start timeout true setup).play before).line.unqueued = [] := by
  have hbefore : ∀ m ∈ before, m.ordinary := fun m h => hm m (List.mem_append_left _ h)
  rw [schedule_append] at hrun
  obtain ⟨⟨links, hg⟩, htraced⟩ := traced_play timeout hsetup hbefore hrun.of_append
  obtain ⟨huntouched, hsends⟩ :=
    htraced.state.resolve_right fun hpast => hpast.not_due hg k hdue
  refine ⟨⟨huntouched, hsends⟩, ?_⟩
  have hnow := hrun.after
  rw [← line_schedule, carried, lineMoves, if_pos hdue] at hnow
  exact (Line.unqueued_greet hnow.1 rfl hdue).1

/-- What is left over when a link is greeted was asked for last of all. -/
theorem leftOver_suffix : (start timeout true setup).leftOver before k after <:+
    texts (Exchange.run { timeout } ((start timeout true setup).heard before)).2 := by
  have hbefore : ∀ m ∈ before, m.ordinary := fun m h => hm m (List.mem_append_left _ h)
  obtain ⟨-, hunqueued⟩ := fresh_of_due timeout hsetup hm hrun hdue
  rw [schedule_append] at hrun
  rw [← sent_append_queue timeout hsetup hbefore hrun.of_append, hunqueued, List.append_nil,
    ← Line.underWay_append_left _ (((start timeout true setup).play before).carried
      (.greet k :: after)), ← List.append_assoc]
  exact List.suffix_append _ _

variable (hfaith : Line.Faithful { greets := true }
    (schedule timeout setup (before ++ .greet k :: after)))
  (hstay : .line (.call .reconnect) ∉ after)

include hfaith hstay

/-- **What is sent on a link that was greeted** is what was left over before its greeting, and then
what the exchange asks for from the greeting on. -/
theorem sentNow_of_greeted :
    .greet ∉ (((start timeout true setup).play before).move (.greet k)).heard after ∧
      (start timeout true setup).sentNow (before ++ .greet k :: after) <+:
        (start timeout true setup).leftOver before k after ++
          (start timeout true setup).askedSince before k after := by
  have hbefore : ∀ m ∈ before, m.ordinary := fun m h => hm m (List.mem_append_left _ h)
  have hrest : ∀ m ∈ .greet k :: after, m.ordinary := fun m h => hm m (List.mem_append_right _ h)
  obtain ⟨⟨huntouched, hlinks⟩, hunqueued⟩ := fresh_of_due timeout hsetup hm hrun hdue
  have hstanding := (standing_start timeout (connecting_of_setup hsetup)).play hbefore
  rw [schedule_append] at hrun hfaith
  obtain ⟨⟨links, hg⟩, -⟩ := traced_play timeout hsetup hbefore hrun.of_append
  have hnow := hrun.after
  rw [← line_schedule] at hnow
  obtain ⟨hnone, hcurrent⟩ := current_after_greeting hstanding hg huntouched hdue
    (fun m h => hrest m (.tail _ h)) hstay hnow
  refine ⟨hnone, ?_⟩
  rw [← play_append] at hcurrent
  -- from the greeting on, all but the send under way is sent on the link
  obtain ⟨others, hsends, hothers⟩ := Line.sends_since (Line.newest_start true) rfl hfaith
  rw [← schedule_append, ← line_schedule, ← line_schedule, hcurrent] at hothers
  rw [← line_schedule] at hsends
  have hsent : (start timeout true setup).sent (before ++ .greet k :: after) =
      ((start timeout true setup).sent before ++
        ((start timeout true setup).play before).line.underWay
          (((start timeout true setup).play before).carried (.greet k :: after))) ++ others := by
    rw [sent, carried_append, Line.sends_append, ← line_play, hsends, List.append_assoc]
    rfl
  have hearlier : ∀ send ∈ (start timeout true setup).sent before ++
      ((start timeout true setup).play before).line.underWay
        (((start timeout true setup).play before).carried (.greet k :: after)),
      send.1 < ((start timeout true setup).play before).line.current := by
    intro send hsend
    rcases List.mem_append.mp hsend with hsend | hsend
    · exact hlinks send hsend
    · exact huntouched.drain send.1 (Line.link?_of_underWay hsend)
  have hlink : ∀ send ∈ others,
      send.1 = ((start timeout true setup).play before).line.current := fun send hsend =>
    Nat.le_antisymm (hothers send hsend).2 (hothers send hsend).1
  rw [sentNow, hcurrent, hsent, filter_link hearlier hlink]
  -- the requests since then leave the queue in their order
  have hqueue := Line.others_append_backlog hsends
  have horder := requests_in_order hstanding hrest hnow
  rw [hunqueued, List.nil_append] at horder
  rw [leftOver, askedSince, ← horder, ← List.append_assoc, ← hqueue, List.append_assoc]
  exact List.prefix_append _ _

end Greeting

/-! ### What is asked for twice -/

/-- The two parts of what was sent of a queue. -/
theorem take_drop_of_sent {sent left more : List String} (h : sent <+: left ++ more) :
    sent.drop left.length <+: more ∧
      (sent.drop left.length ≠ [] → sent.take left.length = left) := by
  obtain ⟨rest, hrest⟩ := h
  rcases List.append_eq_append_iff.mp hrest with ⟨unsent, rfl, -⟩ | ⟨fresh, rfl, rfl⟩
  · have hnone : sent.drop (sent ++ unsent).length = [] :=
      List.drop_eq_nil_of_le (by simp)
    rw [hnone]
    constructor
    · exact List.nil_prefix
    · exact fun hne => absurd rfl hne
  · rw [List.drop_left, List.take_left]
    exact ⟨List.prefix_append _ _, fun _ => rfl⟩

section Unfailing

variable (timeout : Nat) {setup : List Line.Input} (hsetup : setup <+: [.call .connect])

include hsetup

/-- Without a greeting, no query is asked for twice on a connection. -/
theorem greeted_of_askedTwice {moves : List Move} (hm : ∀ m ∈ moves, m.ordinary)
    (hrun : Line.Uninterrupted { greets := true } (schedule timeout setup moves))
    (hkept : Exchange.Unfailing { timeout } ((start timeout true setup).heard moves)) {q : String}
    (h : AskedTwice ((start timeout true setup).sentNow moves) q) :
    (start timeout true setup).Greeted moves := by
  have hstanding := standing_start timeout (connecting_of_setup hsetup)
  obtain ⟨links, hg⟩ := grounded_setup timeout hsetup hrun
  rcases fresh_or_greeted hstanding hg (traced_start timeout hsetup) hm hrun.after with
    hfresh | hgreeted | hstay
  · have htwo := h.two_le
    rw [hfresh.sentNow_eq_nil] at htwo
    cases htwo
  · exact hgreeted
  · obtain ⟨hgreet, more, hmore⟩ := sentNow_of_first timeout hsetup hm hrun hstay
    refine absurd (h.append more) ?_
    rw [hmore]
    exact Exchange.asked_once (ordinary_heard _ hm) hgreet hkept q

/-- What was left over is sent first; who is asked for last by it is held when the link is greeted,
so that the greeting asks for it again. -/
theorem askedTwice_of_greeted_iff {before after : List Move} {k : Nat}
    (hm : ∀ m ∈ before ++ .greet k :: after, m.ordinary)
    (hrun : Line.Uninterrupted { greets := true }
      (schedule timeout setup (before ++ .greet k :: after)))
    (hfaith : Line.Faithful { greets := true }
      (schedule timeout setup (before ++ .greet k :: after)))
    (hkept : Exchange.Unfailing { timeout }
      ((start timeout true setup).heard (before ++ .greet k :: after)))
    (hdue : ((start timeout true setup).play before).line.isDue k = true)
    (hstay : .line (.call .reconnect) ∉ after) (q : String) :
    let s := start timeout true setup
    let sent := s.sentNow (before ++ .greet k :: after)
    let left := s.leftOver before k after
    AskedTwice sent q ↔ AskedTwice (sent.take left.length) q ∨
      (AskedLast (sent.take left.length) q ∧ ∃ n, subscribeText q n ∈ sent.drop left.length) := by
  intro s sent left
  obtain ⟨hgreet, horder⟩ := sentNow_of_greeted timeout hsetup hm hrun hdue hfaith hstay
  obtain ⟨hfresh, hleft⟩ := take_drop_of_sent horder
  have hbefore : ∀ m ∈ before, m.ordinary := fun m h => hm m (List.mem_append_left _ h)
  have hafter : ∀ m ∈ after, m.ordinary := fun m h => hm m (List.mem_append_right _ (.tail _ h))
  have hstanding := (standing_start timeout (connecting_of_setup hsetup)).play hbefore
  have hexchange : (Exchange.run { timeout } (s.heard before)).1 = (s.play before).exchange :=
    (exchange_play s before).symm
  have hinputs : (s.play before).heard (.greet k :: after) =
      .greet :: ((s.play before).move (.greet k)).heard after := by
    rw [heard, exchangeInputs, if_pos hdue]
    rfl
  rw [heard_append] at hkept
  obtain ⟨hfirst, hrest⟩ := Exchange.always_append.mp hkept
  rw [hexchange, hinputs] at hrest
  rw [askedSince, hinputs] at hfresh
  have hpast : AskedLast (texts (Exchange.run { timeout } (s.heard before)).2) q →
      (s.play before).exchange.holders.count q ≠ 0 := by
    intro hlast
    rw [← hexchange]
    exact hlast.held (s.ordinary_heard hbefore) hfirst
  have hsuffix := leftOver_suffix timeout hsetup hm hrun hdue
  have hiff := Exchange.askedTwice_around_greeting hstanding.exchange (ordinary_heard _ hafter)
    hgreet hrest hpast hfresh fun hne => (hleft hne).symm ▸ hsuffix
  rw [List.take_append_drop] at hiff
  exact hiff

end Unfailing

/-! ### The main result -/

/-- **What is asked for twice on a connection**, in a course in which no call fails, nobody comes
between a task's look and the status that it sets, and links fail to send what they are given after
they were told to disconnect:

* A query is asked for twice on the current link only if the link was greeted.
* On a link that was greeted, the requests that were left over in the queue are sent first, and then
  those that the exchange made from the greeting on.  A query is asked for twice just if those left
  over ask for it twice, or ask for it last of all and it is asked for again from the greeting on. -/
theorem asked_twice_iff (timeout : Nat) {setup : List Line.Input}
    (hsetup : setup <+: [.call .connect]) {moves : List Move} (hm : ∀ m ∈ moves, m.ordinary)
    (hrun : Line.Uninterrupted { greets := true } (schedule timeout setup moves))
    (hfaith : Line.Faithful { greets := true } (schedule timeout setup moves))
    (hkept : Exchange.Unfailing { timeout } ((start timeout true setup).heard moves)) :
    let s := start timeout true setup
    let sent := s.sentNow moves
    (∀ q, AskedTwice sent q → s.Greeted moves) ∧
    ∀ before k after, moves = before ++ .greet k :: after →
      (s.play before).line.isDue k = true → .line (.call .reconnect) ∉ after →
      let left := s.leftOver before k after
      sent <+: left ++ s.askedSince before k after ∧
        ∀ q, AskedTwice sent q ↔ AskedTwice (sent.take left.length) q ∨
          (AskedLast (sent.take left.length) q ∧
            ∃ n, subscribeText q n ∈ sent.drop left.length) := by
  intro s sent
  refine ⟨fun q => greeted_of_askedTwice timeout hsetup hm hrun hkept, ?_⟩
  rintro before k after rfl hdue hstay left
  constructor
  · exact (sentNow_of_greeted timeout hsetup hm hrun hdue hfaith hstay).2
  · exact askedTwice_of_greeted_iff timeout hsetup hm hrun hfaith hkept hdue hstay

/-- A query gets its first holder while the line is disconnected; then a new link opens. -/
def heldWhileDown : List Move :=
  [.line (.call .reconnect), .line (.settled 0 true), .line (.act (.attempt 0)), .greet 0,
    .line (.act (.attempt 0)), .line (.act (.attempt 0)), .line (.call .disconnect),
    .exchange (.subscribe "q" .tx .v029), .line (.act .drain), .line (.call .reconnect),
    .line (.settled 1 true), .line (.act (.attempt 1))]

/-- The new link is greeted, and the queue is sent on it. -/
def sentAfterGreeting : List Move :=
  [.line (.act (.attempt 1)), .line (.act (.attempt 1)), .line (.act (.attempt 1)),
    .line (.act .drain), .line (.act .drain), .line (.act .drain), .line (.sent true),
    .line (.act .drain), .line (.sent true)]

/-- The request of the first holder was left over, and the greeting asks for the query again. -/
theorem left_over_query_asked_twice :
    (start 10 true []).sentNow (heldWhileDown ++ .greet 1 :: sentAfterGreeting) =
        [subscribeText "q" 1, subscribeText "q" 2] ∧
      AskedTwice ((start 10 true []).sentNow (heldWhileDown ++ .greet 1 :: sentAfterGreeting))
        "q" := by
  have hm : ∀ m ∈ heldWhileDown ++ .greet 1 :: sentAfterGreeting, m.ordinary := by
    simp [heldWhileDown, sentAfterGreeting, Move.ordinary, Exchange.Input.ordinary,
      Line.Input.lasting]
  have hrun : Line.Uninterrupted { greets := true }
      (schedule 10 [] (heldWhileDown ++ .greet 1 :: sentAfterGreeting)) := by
    decide
  have hfaith : Line.Faithful { greets := true }
      (schedule 10 [] (heldWhileDown ++ .greet 1 :: sentAfterGreeting)) :=
    Line.faithful_of_checked (by decide)
  have hheard : (start 10 true []).heard (heldWhileDown ++ .greet 1 :: sentAfterGreeting) =
      [.greet, .subscribe "q" .tx .v029, .greet] := rfl
  have hkept : Exchange.Unfailing { timeout := 10 }
      ((start 10 true []).heard (heldWhileDown ++ .greet 1 :: sentAfterGreeting)) := by
    rw [hheard]
    refine ⟨fun k e h => ?_, fun k e h => ?_, fun k e h => ?_, trivial⟩
    · cases h
    · cases h with | tail _ h => cases h
    · cases h with | tail _ h => cases h
  have hsent : (start 10 true []).sentNow (heldWhileDown ++ .greet 1 :: sentAfterGreeting) =
      [subscribeText "q" 1, subscribeText "q" 2] := rfl
  have hleft : (start 10 true []).leftOver heldWhileDown 1 sentAfterGreeting =
      [subscribeText "q" 1] := rfl
  have hstay : .line (.call .reconnect) ∉ sentAfterGreeting := by
    simp [sentAfterGreeting]
  obtain ⟨-, htwice⟩ := (asked_twice_iff 10 List.nil_prefix hm hrun hfaith hkept).2
    heldWhileDown 1 sentAfterGreeting rfl rfl hstay
  refine ⟨hsent, (htwice "q").mpr (.inr ?_)⟩
  rw [hsent, hleft]
  exact ⟨⟨[], 1, [], rfl, fun _ => List.not_mem_nil⟩, 2, .head _⟩

end Session
end NodeClient
