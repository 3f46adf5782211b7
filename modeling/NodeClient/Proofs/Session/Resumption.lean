import NodeClient.Proofs.Exchange.Asking
import NodeClient.Proofs.Session.Moves

/-!
# Session resumption — a new connection loses no query

Requests that were queued while there was no connection go out on the next one, before the requests
of its greeting: some ask for queries that nobody holds any more, some stop the events of queries
that somebody took up again since.  In the end the node was asked for every query that is held.

* `Covers`: every query that is held is asked for by a greeting that goes on, or by the last of some
  requests that is about it.  Every step keeps it, and a greeting brings it about.
* `unmet_or_covered`: a link that was not greeted has just come, or else the requests of its time
  cover the queries.
* `held_queries_asked`: what a connected session that rests has sent on its connection.
-/

namespace NodeClient

namespace Session

open Exchange (subscribeText unsubscribeText subscribeText_ne_unsubscribeText texts Queued ownId
  AskedLast askedLast_of_mem)

variable {q : String}

/-! ### Queries that are asked for -/

/-- Every query that is held is asked for: a greeting is about to do it, or the last of the texts
about it does. -/
def Covers (s : Session) (texts : List String) : Prop :=
  ∀ q, s.exchange.holders.count q ≠ 0 →
    (∃ n, s.line.Pending (subscribeText q n)) ∨ AskedLast texts q

section Moves

variable {s : Session} (hs : s.Standing)

include hs

/-- The tasks of a line queue no request to stop events. -/
theorem line_not_telling {i : Line.Input} (hi : i.lasting = true) (q : String) (m : Nat) :
    unsubscribeText q m ∉ s.line.requestsBy i := by
  intro hm
  obtain ⟨q', n, htext⟩ := hs.asking _ ((Line.pending_step hs.line.owner hi).mpr (.inr hm))
  exact subscribeText_ne_unsubscribeText _ _ _ _ htext.symm

/-- A step of the exchange keeps the queries covered. -/
theorem Covers.exchange {texts : List String} (h : s.Covers texts) {i : Exchange.Input}
    (hi : i.ordinary) :
    (s.move (.exchange i)).Covers (texts ++ s.line.requests (s.lineMoves (.exchange i))) := by
  intro q hheld
  have hafter : (s.exchange.step i).1.holders.count q ≠ 0 := hheld
  rw [(line_exchange hs i).2]
  by_cases hbefore : s.exchange.holders.count q = 0
  · have hasks := Exchange.first_holder_asks hs.exchange hbefore hafter
    rw [hasks]
    refine .inr (askedLast_of_mem (.head _) fun m hm => ?_)
    exact subscribeText_ne_unsubscribeText _ _ _ _ (List.mem_singleton.mp hm).symm
  · rcases h q hbefore with ⟨n, hpending⟩ | hasked
    · exact .inl ⟨n, (pending_exchange hs i).mpr hpending⟩
    · exact .inr (hasked.append (Exchange.kept_not_told hs.exchange hi hafter))

/-- A step of the line keeps the queries covered. -/
theorem Covers.line {texts : List String} (h : s.Covers texts) {i : Line.Input}
    (hi : i.lasting = true) :
    (s.move (.line i)).Covers (texts ++ s.line.requests (s.lineMoves (.line i))) := by
  intro q hheld
  have hrequests : s.line.requests (s.lineMoves (.line i)) = s.line.requestsBy i :=
    List.append_nil _
  rw [hrequests]
  rcases h q hheld with ⟨n, hpending⟩ | hasked
  · rcases (Line.pending_step hs.line.owner hi).mp hpending with hlater | hnow
    · exact .inl ⟨n, hlater⟩
    · exact .inr (askedLast_of_mem hnow (line_not_telling hs hi q))
  · exact .inr (hasked.append (line_not_telling hs hi q))

/-- **A greeting covers all queries.** -/
theorem covers_greet {k : Nat} (hdue : s.line.isDue k = true) : (s.move (.greet k)).Covers [] := by
  intro q hheld
  rw [move, exchangeInputs, lineMoves, if_pos hdue, if_pos hdue] at *
  have hbefore : s.exchange.holders.count q ≠ 0 := by
    rw [← Exchange.holders_greet hs.exchange]
    exact hheld
  obtain ⟨n, hn⟩ := Exchange.greet_asks hs.exchange hbefore
  refine .inl ⟨n, (Line.pending_greet hdue _).mpr (.inr ?_)⟩
  rw [lineCalls_eq]
  exact List.mem_map_of_mem hn

end Moves

/-! ### Courses -/

theorem requests_carried_concat (s : Session) (rest : List Move) (m : Move) :
    s.line.requests (s.carried (rest ++ [m])) =
      s.line.requests (s.carried rest) ++
        (s.play rest).line.requests ((s.play rest).lineMoves m) := by
  rw [carried_concat, Line.requests_append, ← line_play]

theorem move_of_not_due {s : Session} {k : Nat} (hdue : s.line.isDue k ≠ true) :
    s.move (.greet k) = s := by
  rw [move, exchangeInputs, lineMoves, if_neg hdue, if_neg hdue]
  rfl

/-- **A link that was not greeted has just come**, or else the requests that were queued since some
time of the current link cover the queries. -/
theorem unmet_or_covered {s : Session} (hs : s.Standing) (hempty : s.exchange.holders = [])
    {moves : List Move} (hm : ∀ m ∈ moves, m.ordinary) :
    (s.play moves).line.Unmet ∨ ∃ first rest, moves = first ++ rest ∧
      (s.play first).line.current = (s.play moves).line.current ∧
      (s.play moves).Covers ((s.play first).line.requests ((s.play first).carried rest)) := by
  induction moves using List.reverseRecOn with
  | nil =>
    refine .inr ⟨[], [], rfl, rfl, fun q hheld => absurd ?_ hheld⟩
    rw [play, hempty]
    rfl
  | append_singleton moves m ih =>
    have hmoves : ∀ m ∈ moves, m.ordinary := fun m' hm' => hm m' (List.mem_append_left _ hm')
    have hlast : m.ordinary := hm m (List.mem_append_right _ (.head _))
    have ht := hs.play hmoves
    rw [play_concat]
    -- the current link stays, and the requests of the move go on covering
    have hgoes : ((s.play moves).line.Unmet → ((s.play moves).move m).line.Unmet) →
        ((s.play moves).move m).line.current = (s.play moves).line.current →
        (∀ texts, (s.play moves).Covers texts → ((s.play moves).move m).Covers
          (texts ++ (s.play moves).line.requests ((s.play moves).lineMoves m))) →
        ((s.play moves).move m).line.Unmet ∨ ∃ first rest, moves ++ [m] = first ++ rest ∧
          (s.play first).line.current = ((s.play moves).move m).line.current ∧
          ((s.play moves).move m).Covers
            ((s.play first).line.requests ((s.play first).carried rest)) := by
      intro hunmet hcurrent hcovers
      refine (ih hmoves).imp hunmet ?_
      rintro ⟨first, rest, rfl, hlink, h⟩
      refine ⟨first, rest ++ [m], List.append_assoc .., hlink.trans hcurrent.symm, ?_⟩
      rw [requests_carried_concat, ← play_append]
      exact hcovers _ h
    cases m with
    | exchange i =>
      have hline := (line_exchange ht i).1
      refine hgoes (fun h => ?_) (by rw [hline]) fun texts h => h.exchange ht hlast.1
      rw [hline]
      exact h.congr rfl rfl rfl
    | line i =>
      rcases Line.current_step_or_unmet ht.line hlast with hcurrent | hunmet
      · exact hgoes (fun h => h.step ht.line hlast) hcurrent fun texts h => h.line ht hlast
      · exact .inl hunmet
    | greet k =>
      by_cases hdue : (s.play moves).line.isDue k = true
      · refine .inr ⟨moves ++ [.greet k], [], (List.append_nil _).symm, ?_, covers_greet ht hdue⟩
        rw [play_concat]
      · rw [move_of_not_due hdue] at hgoes ⊢
        refine hgoes id rfl fun texts h => ?_
        rw [lineMoves, if_neg hdue]
        exact (List.append_nil texts).symm ▸ h

/-! ### The connection of a session that rests -/

/-- A request that was queued last about a query is sent last about it. -/
theorem sent_of_askedLast {sends mine others : List (Nat × String)} {link : Nat}
    {back texts : List String} (hsends : sends = mine ++ others)
    (hlink : ∀ send ∈ others, send.1 = link) (hmine : mine.map (·.2) <+: back)
    (hqueue : sends.map (·.2) = back ++ texts) (h : AskedLast texts q) :
    ∃ n before after, sends = before ++ (link, subscribeText q n) :: after ∧
      ∀ m, (link, unsubscribeText q m) ∉ after := by
  obtain ⟨more, rfl⟩ := hmine
  obtain ⟨before, n, after, rfl, hafter⟩ := h
  have hothers : others.map (·.2) = (more ++ before) ++ subscribeText q n :: after := by
    rw [hsends, List.map_append, List.append_assoc] at hqueue
    rw [List.append_assoc]
    exact List.append_cancel_left hqueue
  obtain ⟨first, rest, rfl, -, hrest⟩ := List.map_eq_append_iff.mp hothers
  obtain ⟨send, later, rfl, htext, rfl⟩ := List.map_eq_cons_iff.mp hrest
  have hsend : send = (link, subscribeText q n) :=
    Prod.ext (hlink send (List.mem_append_right _ (.head later))) htext
  refine ⟨n, mine ++ first, later, ?_, fun m hm => hafter m (List.mem_map_of_mem hm)⟩
  rw [hsends, hsend, List.append_assoc]

/-- A session that was set up on a line that greets. -/
theorem standing_start (timeout : Nat) {setup : List Line.Input}
    (hsetup : ∀ i ∈ setup, i.connecting = true) : (start timeout true setup).Standing where
  exchange := Exchange.tended_start timeout
  line := Line.kept_start.run fun i hi =>
    Line.Input.civil_of_plain (Line.Input.plain_of_connecting (hsetup i hi))
  asking := by
    rintro text ⟨a, ha, hc⟩
    rw [(start_line timeout true hsetup).1.greeted a ha] at hc
    cases hc

/-- All that happens to the line of a session, its setup included. -/
def schedule (timeout : Nat) (setup : List Line.Input) (moves : List Move) : List Line.Input :=
  setup ++ (start timeout true setup).carried moves

theorem line_schedule (timeout : Nat) (setup : List Line.Input) (moves : List Move) :
    ((start timeout true setup).play moves).line =
      (Line.run { greets := true } (schedule timeout setup moves)).1 := by
  rw [line_play, schedule, Line.run_append_fst]
  rfl

theorem schedule_append (timeout : Nat) (setup : List Line.Input) (first rest : List Move) :
    schedule timeout setup (first ++ rest) =
      schedule timeout setup first ++ ((start timeout true setup).play first).carried rest := by
  rw [schedule, carried_append, ← List.append_assoc]
  rfl

section Rest

variable (timeout : Nat) {setup : List Line.Input} (hsetup : ∀ i ∈ setup, i.connecting = true)
  {moves : List Move} (hm : ∀ m ∈ moves, m.ordinary)

include hsetup hm

/-- **The link of a connected session that rests was greeted**, if it has answered: nobody came
between a task's look and the status that it sets, or else its attempt does not wait any more. -/
theorem not_unmet
    (hopen : Line.Uninterrupted { greets := true } (schedule timeout setup moves) ∨
      ∀ a ∈ ((start timeout true setup).play moves).line.attempts,
        a.link = ((start timeout true setup).play moves).line.current → a.phase ≠ .waiting)
    (hrest : ((start timeout true setup).play moves).line.Resting)
    (hs : ((start timeout true setup).play moves).line.status = .connected) :
    ¬((start timeout true setup).play moves).line.Unmet := by
  intro h
  obtain ⟨k, a, hunmet, hp⟩ := h.waiting hrest hs
  rcases hopen with hrun | hanswered
  · have hcivil : ∀ i ∈ schedule timeout setup moves, i.civil = true := fun i hi =>
      (List.mem_append.mp hi).elim
        (fun hi => Line.Input.civil_of_plain (Line.Input.plain_of_connecting (hsetup i hi)))
        fun hi => Line.Input.civil_of_renewing (renewing_carried _ hm i hi)
    have hground := Line.grounded_run (Line.grounded_start true)
      (fun i hi => Line.Input.polite_of_civil (hcivil i hi)) hrun
    rw [← line_schedule] at hground
    have hmet := Line.met_of_opened Line.kept_start.owner hcivil (.inr (hground.connected hs))
    rw [← line_schedule] at hmet
    exact hunmet.not_met hp hmet
  · exact hanswered a (List.mem_of_getElem? hunmet.found) hunmet.link hp

/-- **A connected session that rests has asked for every query that is held**, on its connection,
and not stopped its events since. -/
theorem asked_of_held
    (hfaith : Line.Faithful { greets := true } (schedule timeout setup moves))
    (hmet : ¬((start timeout true setup).play moves).line.Unmet)
    (hrest : ((start timeout true setup).play moves).line.Resting)
    (hqueue : ((start timeout true setup).play moves).line.outstanding = 0)
    (hheld : ((start timeout true setup).play moves).exchange.holders.count q ≠ 0) :
    ∃ n before after, (start timeout true setup).sent moves =
        before ++ (((start timeout true setup).play moves).line.current, subscribeText q n) ::
          after ∧
      ∀ m, (((start timeout true setup).play moves).line.current, unsubscribeText q m) ∉ after := by
  have hstanding := standing_start timeout hsetup
  obtain ⟨first, rest, rfl, hcurrent, hcovers⟩ :=
    (unmet_or_covered hstanding rfl hm).resolve_left hmet
  have hasked := (hcovers q hheld).resolve_left fun ⟨n, hn⟩ => hrest.not_pending _ hn
  have hsplit := schedule_append timeout setup first rest
  -- what is sent since then, but for the request under way, is sent on the current link
  rw [hsplit] at hfaith
  obtain ⟨others, hsends, hlinks⟩ := Line.sends_since (Line.newest_start true) rfl hfaith
  rw [← hsplit, ← line_schedule, ← line_schedule, hcurrent] at hlinks
  rw [← line_schedule] at hsends
  have hlink : ∀ send ∈ others,
      send.1 = ((start timeout true setup).play (first ++ rest)).line.current := fun send hsend =>
    Nat.le_antisymm (hlinks send hsend).2 (hlinks send hsend).1
  -- the queue is empty, so that all requests since then were sent
  have hcount : ((start timeout true setup).play (first ++ rest)).line.Counted := by
    rw [line_schedule]
    exact Line.counted_run _ rfl
  have hback : ((start timeout true setup).play (first ++ rest)).line.backlog = [] :=
    List.eq_nil_of_length_eq_zero (hcount.symm.trans hqueue)
  have hall := Line.sends_append_backlog ((start timeout true setup).play first).line
    (((start timeout true setup).play first).carried rest)
  rw [← line_play, ← play_append, hback, List.append_nil] at hall
  obtain ⟨n, before, after, hfound, hafter⟩ := sent_of_askedLast hsends hlink
    (Line.underWay_le_backlog _ _) hall hasked
  refine ⟨n, (start timeout true setup).sent first ++ before, after, ?_, hafter⟩
  rw [sent, carried_append, Line.sends_append, ← line_play, hfound, List.append_assoc]
  rfl

end Rest

/-! ### The main result -/

/-- **A new connection loses no query**: in every course in which links fail to send what they are
given after they were told to disconnect, a connected session that rests with an empty queue has
asked for every query that is held, on its current link, and not stopped its events there since; if
somebody came between a task's look and the status that it set, then provided that the link has
answered.  The texts that the exchange ever queues are, one by one, those of its requests, each the
call of a client, which is queued once, or an own one; and the ids of its own requests differ from
each other, and from those of its clients. -/
theorem held_queries_asked (timeout : Nat) {setup : List Line.Input}
    (hsetup : ∀ i ∈ setup, i.connecting = true) {moves : List Move}
    (hmoves : ∀ m ∈ moves, m.ordinary) :
    let s := start timeout true setup
    let line := (s.play moves).line
    let x : Exchange := { timeout }
    (Line.Faithful { greets := true } (schedule timeout setup moves) →
      (Line.Uninterrupted { greets := true } (schedule timeout setup moves) ∨
        ∀ a ∈ line.attempts, a.link = line.current → a.phase ≠ .waiting) →
      line.Resting → line.status = .connected → line.outstanding = 0 →
      ∀ q ∈ (s.play moves).exchange.holders.queries, ∃ n before after,
        s.sent moves = before ++ (line.current, subscribeText q n) :: after ∧
          ∀ m, (line.current, unsubscribeText q m) ∉ after) ∧
    (texts (x.run (s.heard moves)).2 = (x.queued (s.heard moves)).map Queued.text ∧
      (x.queued (s.heard moves)).filterMap Queued.client? =
        (s.heard moves).filterMap Exchange.Input.call? ∧
      (x.queued (s.heard moves)).filterMap Queued.own? = x.ownRun (s.heard moves)) ∧
    ((x.ownRun (s.heard moves)).Pairwise fun o o' => (ownId o.2).same (ownId o'.2) = false) ∧
    ∀ c, .call c ∈ s.heard moves → ∀ n, c.id.same (ownId n) = false := by
  intro s line x
  have hheard := s.ordinary_heard hmoves
  have htended : x.Tended := Exchange.tended_start timeout
  refine ⟨?_, ⟨Exchange.texts_run htended hheard, x.client_queued _, x.own_queued _⟩, ?_, ?_⟩
  · intro hfaith hopen hrest hs hqueue q hq
    have hcounted := ((standing_start timeout hsetup).play hmoves).exchange.counted
    have hheld := Nat.ne_of_gt (hcounted.sound.mem_queries.mp hq)
    have hmet := not_unmet timeout hsetup hmoves hopen hrest hs
    exact asked_of_held timeout hsetup hmoves hfaith hmet hrest hqueue hheld
  · refine (Exchange.ownRun_pairwise htended hheard).imp fun {o o'} hlt => ?_
    exact Bool.eq_false_iff.mpr fun hsame => Nat.ne_of_lt hlt (Exchange.ownId_inj hsame)
  · intro c hc n
    obtain ⟨k, hk⟩ := hheard _ hc
    rw [hk]
    rfl

/-- A subscription whose request fails to be sent before the line gets a new link; another one that
comes and goes before the link opens; and a greeting. -/
def lostAndResumed : List Move :=
  [.exchange (.subscribe "a" .tx .v029), .line (.act .drain), .line (.act .drain),
    .line (.act .drain), .line (.act .drain), .line (.sent false), .line (.call .reconnect),
    .line (.act .drain), .exchange (.subscribe "b" .tx .v029), .exchange (.abort 1),
    .line (.settled 1 true), .line (.act (.attempt 1)), .greet 1, .line (.act (.attempt 1)),
    .line (.act (.attempt 1)), .line (.act (.attempt 1)), .line (.act .drain), .line (.act .drain),
    .line (.act .drain), .line (.sent true), .line (.act .drain), .line (.sent true),
    .line (.act .drain), .line (.sent true), .line (.act .drain), .line (.sent true),
    .line (.act .drain)]

/-- The query that is still held is asked for again, and its events are not stopped. -/
theorem held_query_asked_again :
    ((start 10 true connected).play lostAndResumed).exchange.holders.queries = ["a"] ∧
      ∃ n before after, (start 10 true connected).sent lostAndResumed =
          before ++ (2, subscribeText "a" n) :: after ∧
        ∀ m, (2, unsubscribeText "a" m) ∉ after := by
  have hsetup : ∀ i ∈ connected, i.connecting = true := by decide
  have hmoves : ∀ m ∈ lostAndResumed, m.ordinary := by
    simp [lostAndResumed, Move.ordinary, Exchange.Input.ordinary, Line.Input.lasting]
  have hline : ((start 10 true connected).play lostAndResumed).line =
      { status := .connected, current := 2,
        forwarders := [{ stopped := true }, { stopped := true }, {}],
        attempts := [{ link := 1, again := true, phase := .over },
          { link := 2, again := true, phase := .over }],
        greets := true } := by
    decide +kernel
  have hrest : ((start 10 true connected).play lostAndResumed).line.Resting := by
    rw [hline]
    refine ⟨fun task => ?_, by decide⟩
    cases task with
    | forwarder link =>
      match link with
      | 0 | 1 | 2 => rfl
      | _ + 3 => rfl
    | attempt index =>
      match index with
      | 0 | 1 => rfl
      | _ + 2 => rfl
    | drain => rfl
  have hfaith : Line.Faithful { greets := true } (schedule 10 connected lostAndResumed) :=
    Line.faithful_of_checked (by decide)
  have hrun : Line.Uninterrupted { greets := true } (schedule 10 connected lostAndResumed) := by
    decide
  have hheld : ((start 10 true connected).play lostAndResumed).exchange.holders.queries = ["a"] :=
    rfl
  have hasked := (held_queries_asked 10 hsetup hmoves).1 hfaith (.inl hrun) hrest
    (by rw [hline]) (by rw [hline]) "a" (hheld ▸ .head _)
  rw [hline] at hasked
  exact ⟨hheld, hasked⟩

end Session
end NodeClient
