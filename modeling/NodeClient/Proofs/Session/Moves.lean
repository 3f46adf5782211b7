import NodeClient.Proofs.Exchange.Numbering
import NodeClient.Proofs.Line.Greeting
import NodeClient.Proofs.Session

/-!
# Session moves — an exchange and its line over several connections

When the line is told to reconnect, a new link takes the place of the old one.  The exchange greets
the connection on it: while the attempt to connect is due, it asks for the events of all queries
again, and the attempt makes these calls before it confirms the connection.

* `Move`, `play`: the steps of the exchange and of the line in any order, and the greetings.
* `heard`, `carried`: the schedules of the exchange and of the line.
* `Move.ordinary`: the owner stays, and the line is not connected anew without a new link.
* `Standing`: what holds of a session in every such course.
-/

namespace NodeClient

namespace Session

open Exchange (subscribeText unsubscribeText)

/-- What can happen in a session over several connections. -/
inductive Move where
  | exchange (i : Exchange.Input)
  | line (i : Line.Input)
  /-- The exchange greets the new connection of an attempt. -/
  | greet (attempt : Nat)

/-- What a move does to the exchange. -/
def exchangeInputs (s : Session) : Move → List Exchange.Input
  | .exchange i => [i]
  | .line _ => []
  | .greet k => if s.line.isDue k then [.greet] else []

/-- What a move does to the line: what the exchange queues goes there, and what it queues in a
greeting is left to the attempt. -/
def lineMoves (s : Session) : Move → List Line.Input
  | .exchange i => (Script.Desk.lineCalls (s.exchange.step i).2).map .call
  | .line i => [i]
  | .greet k =>
    if s.line.isDue k then [.greet k (Script.Desk.lineCalls (s.exchange.step .greet).2)] else []

/-- What a move does. -/
def move (s : Session) (m : Move) : Session where
  exchange := (s.exchange.run (s.exchangeInputs m)).1
  line := (s.line.run (s.lineMoves m)).1

/-- The state after a course of moves. -/
def play (s : Session) : List Move → Session
  | [] => s
  | m :: rest => (s.move m).play rest

/-- The schedule of the exchange. -/
def heard (s : Session) : List Move → List Exchange.Input
  | [] => []
  | m :: rest => s.exchangeInputs m ++ (s.move m).heard rest

/-- The schedule of the line. -/
def carried (s : Session) : List Move → List Line.Input
  | [] => []
  | m :: rest => s.lineMoves m ++ (s.move m).carried rest

/-- The requests that a course sends, with their links, in the order of the sends. -/
def sent (s : Session) (moves : List Move) : List (Nat × String) :=
  s.line.sends (s.carried moves)

/-! ### Courses -/

theorem play_append (s : Session) (first rest : List Move) :
    s.play (first ++ rest) = (s.play first).play rest := by
  induction first generalizing s with
  | nil => rfl
  | cons m first ih => exact ih (s.move m)

theorem play_concat (s : Session) (moves : List Move) (m : Move) :
    s.play (moves ++ [m]) = (s.play moves).move m :=
  s.play_append moves [m]

theorem heard_append (s : Session) (first rest : List Move) :
    s.heard (first ++ rest) = s.heard first ++ (s.play first).heard rest := by
  induction first generalizing s with
  | nil => rfl
  | cons m first ih =>
    rw [List.cons_append, heard, ih, heard, List.append_assoc]
    rfl

theorem carried_append (s : Session) (first rest : List Move) :
    s.carried (first ++ rest) = s.carried first ++ (s.play first).carried rest := by
  induction first generalizing s with
  | nil => rfl
  | cons m first ih =>
    rw [List.cons_append, carried, ih, carried, List.append_assoc]
    rfl

theorem carried_concat (s : Session) (moves : List Move) (m : Move) :
    s.carried (moves ++ [m]) = s.carried moves ++ (s.play moves).lineMoves m := by
  rw [carried_append, carried, carried, List.append_nil]

theorem exchange_play (s : Session) (moves : List Move) :
    (s.play moves).exchange = (s.exchange.run (s.heard moves)).1 := by
  induction moves generalizing s with
  | nil => rfl
  | cons m rest ih =>
    rw [play, ih, heard, Exchange.run_append_fst]
    rfl

theorem line_play (s : Session) (moves : List Move) :
    (s.play moves).line = (s.line.run (s.carried moves)).1 := by
  induction moves generalizing s with
  | nil => rfl
  | cons m rest ih =>
    rw [play, ih, carried, Line.run_append_fst]
    rfl

/-! ### Ordinary courses -/

/-- The owner stays, and the line gets a new link whenever it is connected anew. -/
def Move.ordinary : Move → Prop
  | .exchange i => i.ordinary ∧ i ≠ .greet
  | .line i => i.lasting = true
  | .greet _ => True

/-- What holds of a session whose owner stays. -/
structure Standing (s : Session) : Prop where
  exchange : s.exchange.Tended
  line : s.line.Kept
  /-- Greetings ask for the events of queries. -/
  asking : ∀ text, s.line.Pending text → ∃ q n, text = subscribeText q n

theorem renewing_lineMoves (s : Session) {m : Move} (hm : m.ordinary) :
    ∀ i ∈ s.lineMoves m, i.renewing = true := by
  intro i hi
  cases m with
  | exchange j =>
    rw [lineMoves, lineCalls_eq, List.map_map] at hi
    obtain ⟨text, -, rfl⟩ := List.mem_map.mp hi
    rfl
  | line j =>
    obtain rfl := List.mem_singleton.mp hi
    exact Line.Input.renewing_of_lasting hm
  | greet k =>
    rw [lineMoves] at hi
    split at hi
    · obtain rfl := List.mem_singleton.mp hi
      refine List.all_eq_true.mpr fun c hc => ?_
      rw [lineCalls_eq] at hc
      obtain ⟨text, -, rfl⟩ := List.mem_map.mp hc
      rfl
    · cases hi

theorem renewing_carried (s : Session) {moves : List Move} (hm : ∀ m ∈ moves, m.ordinary) :
    ∀ i ∈ s.carried moves, i.renewing = true := by
  induction moves generalizing s with
  | nil => exact nofun
  | cons m rest ih =>
    obtain ⟨hfirst, hrest⟩ := List.forall_mem_cons.mp hm
    intro i hi
    rcases List.mem_append.mp hi with hi | hi
    · exact s.renewing_lineMoves hfirst i hi
    · exact ih (s.move m) hrest i hi

theorem ordinary_heard (s : Session) {moves : List Move} (hm : ∀ m ∈ moves, m.ordinary) :
    ∀ i ∈ s.heard moves, i.ordinary := by
  induction moves generalizing s with
  | nil => exact fun i hi => absurd hi List.not_mem_nil
  | cons m rest ih =>
    obtain ⟨hfirst, hrest⟩ := List.forall_mem_cons.mp hm
    intro i hi
    rcases List.mem_append.mp hi with hi | hi
    · cases m with
      | exchange j =>
        obtain rfl := List.mem_singleton.mp hi
        exact hfirst.1
      | line j => cases hi
      | greet k =>
        rw [exchangeInputs] at hi
        split at hi
        · obtain rfl := List.mem_singleton.mp hi
          trivial
        · cases hi
    · exact ih (s.move m) hrest i hi

/-- A line that only gets requests keeps all but its queue. -/
theorem run_queue {line : Line} (hd : line.dropped = false) (texts : List String) :
    (line.run (texts.map fun text => .call (.queue text))).1 =
      { line with
        channel := line.channel ++ texts
        outstanding := line.outstanding + texts.length } := by
  induction texts generalizing line with
  | nil => simp
  | cons text rest ih =>
    have hstep : (line.step (.call (.queue text))).1 =
        { line with
          channel := line.channel ++ [text]
          outstanding := line.outstanding + 1 } := by simp [Line.step, Line.call, hd]
    have hkeeps : (line.step (.call (.queue text))).1.dropped = false := hstep ▸ hd
    rw [List.map_cons, Line.run_cons_fst, ih hkeeps, hstep]
    simp [Nat.add_comm, Nat.add_left_comm]

section Moves

variable {s : Session} (hs : s.Standing)

include hs

/-- A step of the exchange: what it queues is queued on the line, which changes no more. -/
theorem line_exchange (i : Exchange.Input) :
    (s.move (.exchange i)).line =
        { s.line with
          channel := s.line.channel ++ Exchange.texts (s.exchange.step i).2
          outstanding := s.line.outstanding + (Exchange.texts (s.exchange.step i).2).length } ∧
      s.line.requests (s.lineMoves (.exchange i)) = Exchange.texts (s.exchange.step i).2 := by
  have hmoves : s.lineMoves (.exchange i) =
      (Exchange.texts (s.exchange.step i).2).map fun text => .call (.queue text) := by
    rw [lineMoves, lineCalls_eq, List.map_map]
    rfl
  constructor
  · rw [move, hmoves]
    exact run_queue hs.line.owner.owned _
  · rw [hmoves]
    exact requests_queue hs.line.owner.owned _

theorem pending_exchange (i : Exchange.Input) {text : String} :
    (s.move (.exchange i)).line.Pending text ↔ s.line.Pending text := by
  rw [(line_exchange hs i).1]
  exact Line.pending_of_same rfl

/-- **A session stays as it is** while its owner stays. -/
theorem Standing.move {m : Move} (hm : m.ordinary) : (s.move m).Standing := by
  have hline := hs.line.run fun i hi =>
    Line.Input.civil_of_renewing (s.renewing_lineMoves hm i hi)
  cases m with
  | exchange i =>
    refine ⟨hs.exchange.step (Exchange.Input.ordinary_ne_drop hm.1), hline, fun text htext => ?_⟩
    exact hs.asking text ((pending_exchange hs i).mp htext)
  | line i =>
    refine ⟨hs.exchange, hline, fun text htext => hs.asking text ?_⟩
    exact (Line.pending_step hs.line.owner hm).mpr (.inl htext)
  | greet k =>
    by_cases hdue : s.line.isDue k = true
    · refine ⟨?_, hline, fun text htext => ?_⟩
      · rw [Session.move, exchangeInputs, if_pos hdue]
        have hne : Exchange.Input.greet ≠ .drop := nofun
        exact hs.exchange.step hne
      · rw [Session.move, lineMoves, if_pos hdue] at htext
        rcases (Line.pending_greet hdue _).mp htext with htext | htext
        · exact hs.asking text htext
        · rw [lineCalls_eq] at htext
          obtain ⟨text', hmem, heq⟩ := List.mem_map.mp htext
          obtain rfl := Line.Call.queue.inj heq
          exact Exchange.greet_only_asks hs.exchange hmem
    · rw [Session.move, exchangeInputs, lineMoves, if_neg hdue, if_neg hdue]
      exact hs

end Moves

theorem Standing.play {s : Session} (hs : s.Standing) {moves : List Move}
    (hm : ∀ m ∈ moves, m.ordinary) : (s.play moves).Standing := by
  induction moves generalizing s with
  | nil => exact hs
  | cons m rest ih =>
    obtain ⟨hfirst, hrest⟩ := List.forall_mem_cons.mp hm
    exact ih (hs.move hfirst) hrest

end Session
end NodeClient
