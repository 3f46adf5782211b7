import NodeClient.Proofs.Link.Closed

/-!
# Link lifecycle — from the first connect to the end of the task

Whoever calls a link and whatever its task meets, a step is one of the few of `Acts`.  All that a
link does is told from there: where its state goes, which texts it accepts and writes, and which
events it reports.  A schedule is any list of inputs.

* `leads_step`: the state only moves forward.
* `dials_run`: a link dials at most once.
* `accepted_sublist`, `writes_prefix`: what is written is a prefix of what was accepted.
* `acked_sublist`: a send returns well only if its text was written.
* `events_run`: the texts that the task hears, then at most one event that ends the connection.
-/

namespace NodeClient
namespace Link

/-- How the state of a link may change. -/
inductive State.Leads : State → State → Prop
  | stay (s : State) : Leads s s
  | dial : Leads .idle .connecting
  | establish : Leads .connecting .opened
  | fail (reason : String) : Leads .connecting (.failed reason)
  | close (s : State) : Leads s .closed

variable {link : Link}

/-! ### Steps -/

/-- What a step does, by where the link and its task stand. -/
inductive Acts (link : Link) : Input → Link × List Effect → Prop where
  | rest {i : Input} : (∀ text, i ≠ .send text) →
      (∀ text, i = .text text → link.task ≠ .listening) →
      (i = .wrote → ∀ k text, link.task ≠ .writing k text) → Acts link i (link, [])
  | dial : link.state = .idle →
      Acts link .connect ({ link with state := .connecting, task := .dialing }, [.dial])
  | abandon : link.state = .connecting →
      Acts link .disconnect ({ link with state := .closed, task := .ended }, [])
  | tearDown : link.state ≠ .connecting →
      Acts link .disconnect ({ link with state := .closed }, [])
  | accept {text : String} : link.state = .opened →
      Acts link (.send text)
        ({ link with
            nextSend := link.nextSend + 1
            waiting := link.waiting ++ [link.nextSend]
            outbox := link.outbox ++ [(link.nextSend, text)] }, [])
  | decline {text : String} : link.state ≠ .opened →
      Acts link (.send text)
        ({ link with nextSend := link.nextSend + 1 },
          [.answer link.nextSend (.error .notConnected)])
  | expire {k : Nat} :
      Acts link (.sendExpired k) (link.answer k (.error (.sendTimeout link.sendTimeout)))
  | establish : link.task = .dialing → link.state = .connecting →
      Acts link .opened ({ link with state := .opened, task := .listening }, [])
  | giveUp : link.task = .dialing → link.state ≠ .connecting →
      Acts link .opened ({ link with task := .ended }, [])
  | refused {reason : String} : link.task = .dialing →
      Acts link (.refused reason) (link.failDialing reason, [])
  | late : link.task = .dialing →
      Acts link .dialExpired
        (link.failDialing ("timed out after " ++ millisText link.connectTimeout), [])
  | hear {text : String} : link.task = .listening →
      Acts link (.text text) (link, [.event (.message text)])
  | peerClosed : link.task = .listening → Acts link .peerClosed (link.stopWith .closed)
  | broken {reason : String} : link.task = .listening →
      Acts link (.broken reason) (link.stopWith (.error reason))
  | take {k : Nat} {text : String} {rest : List (Nat × String)} : link.task = .listening →
      link.outbox = (k, text) :: rest →
      Acts link .take ({ link with task := .writing k text, outbox := rest }, [])
  | finish : link.task = .listening → Acts link .finish (link.stop.1, .hangUp :: link.stop.2)
  | write {k : Nat} {text : String} : link.task = .writing k text →
      Acts link .wrote
        (({ link with task := .listening }.answer k (.ok ())).1,
          .written text :: ({ link with task := .listening }.answer k (.ok ())).2)
  | failWrite {k : Nat} {text reason : String} : link.task = .writing k text →
      Acts link (.writeFailed reason)
        (((link.answer k (.error (.frame reason))).1.stopWith (.error "write failed")).1,
          (link.answer k (.error (.frame reason))).2 ++
            ((link.answer k (.error (.frame reason))).1.stopWith (.error "write failed")).2)

theorem acts_listen (h : link.task = .listening) {i : Input} (hi : ∀ text, i ≠ .send text) :
    Acts link i (link.listen i) := by
  unfold listen
  split
  · exact .hear h
  · exact .peerClosed h
  · exact .broken h
  · split
    · exact .rest nofun nofun nofun
    · next k text rest ho => exact .take h ho
  · split
    · exact .finish h
    · exact .rest nofun nofun nofun
  · next htext _ _ _ _ =>
    exact .rest hi (fun text ht => absurd ht (htext text)) fun _ k text hw => by
      rw [h] at hw; cases hw

theorem acts_work {i : Input} (hi : ∀ text, i ≠ .send text) : Acts link i (link.work i) := by
  unfold work
  split
  · next h =>
    split
    · next hs => exact .establish h hs
    · next hs => exact .giveUp h hs
  · next h => exact .refused h
  · next h => exact .late h
  · next h => exact acts_listen h hi
  · next h => exact .write h
  · next h => exact .failWrite h
  · next hlisten _ _ _ hwrote _ =>
    exact .rest hi (fun _ _ => hlisten) fun hw k text ht => hwrote k text ht hw

/-- **A step is one of these.** -/
theorem acts_step (link : Link) (i : Input) : Acts link i (link.step i) := by
  cases i with
  | connect =>
    rw [step, connect]
    split
    · next h => exact .dial h
    · exact .rest (by simp) (by simp) (by simp)
  | disconnect =>
    rw [step, disconnect]
    split
    · next h => exact .abandon h
    · next h => exact .tearDown h
  | send text =>
    by_cases h : link.state = .opened
    · simpa [step, send, h] using @Acts.accept link text h
    · simpa [step, send, h] using @Acts.decline link text h
  | sendExpired k => exact .expire
  | _ => exact acts_work fun _ => Input.noConfusion

/-! ### What the steps are made of -/

theorem answer_fst (link : Link) (k : Nat) (result : Except TransportError Unit) :
    ∃ waiting, (link.answer k result).1 = { link with waiting } := by
  unfold answer
  split
  · exact ⟨_, rfl⟩
  · exact ⟨link.waiting, rfl⟩

theorem failDialing_cases (link : Link) (reason : String) :
    (link.state = .connecting ∧
        link.failDialing reason = { link with state := .failed reason, task := .ended }) ∨
      (link.state ≠ .connecting ∧ link.failDialing reason = { link with task := .ended }) := by
  by_cases h : link.state = .connecting
  · exact .inl ⟨h, by simp [failDialing, h]⟩
  · exact .inr ⟨h, by simp [failDialing, h]⟩

/-! ### States -/

/-- **The state only moves forward.** -/
theorem leads_step (link : Link) (i : Input) : link.state.Leads (link.step i).1.state := by
  have h := link.acts_step i
  generalize link.step i = next at h
  cases h with
  | dial h => exact h ▸ .dial
  | abandon | tearDown | peerClosed | broken | finish => exact .close _
  | establish _ h => exact h ▸ .establish
  | refused | late =>
    rcases link.failDialing_cases _ with ⟨hs, hnext⟩ | ⟨-, hnext⟩ <;> rw [hnext]
    · exact hs ▸ .fail _
    · exact .stay _
  | expire => rw [answer_state]; exact .stay _
  | write => rw [answer_state]; exact .stay _
  | failWrite => exact .close _
  | rest | accept | decline | giveUp | hear | take => exact .stay _

/-- The task of a link that has not dialed does not run, and it dials while the link connects. -/
structure Orderly (link : Link) : Prop where
  idle : link.state = .idle → link.task = .unstarted
  connecting : link.state = .connecting → link.task = .dialing

theorem Orderly.not_idle (h : link.Orderly) {task : Task} (ht : link.task = task)
    (htask : task ≠ .unstarted) : link.state ≠ .idle :=
  fun hs => htask (ht ▸ h.idle hs)

theorem Orderly.not_connecting (h : link.Orderly) {task : Task} (ht : link.task = task)
    (htask : task ≠ .dialing) : link.state ≠ .connecting :=
  fun hs => htask (ht ▸ h.connecting hs)

theorem Orderly.step (h : link.Orderly) (i : Input) : (link.step i).1.Orderly := by
  have hacts := link.acts_step i
  generalize link.step i = next at hacts
  cases hacts with
  | rest | hear => exact h
  | accept | decline => exact ⟨h.idle, h.connecting⟩
  | dial => exact ⟨nofun, fun _ => rfl⟩
  | abandon | tearDown | establish | peerClosed | broken | finish | failWrite =>
    exact ⟨nofun, nofun⟩
  | expire =>
    obtain ⟨waiting, hnext⟩ := link.answer_fst _ _
    rw [hnext]
    exact ⟨h.idle, h.connecting⟩
  | giveUp ht hs => exact ⟨fun hi => absurd hi (h.not_idle ht nofun), fun hc => absurd hc hs⟩
  | refused ht | late ht =>
    rcases link.failDialing_cases _ with ⟨-, hnext⟩ | ⟨hs, hnext⟩ <;> rw [hnext]
    · exact ⟨nofun, nofun⟩
    · exact ⟨fun hi => absurd hi (h.not_idle ht nofun), fun hc => absurd hc hs⟩
  | take ht =>
    exact ⟨fun hi => absurd hi (h.not_idle ht nofun),
      fun hc => absurd hc (h.not_connecting ht nofun)⟩
  | write ht =>
    obtain ⟨waiting, hnext⟩ := answer_fst { link with task := .listening } _ _
    rw [hnext]
    exact ⟨fun hi => absurd hi (h.not_idle ht nofun),
      fun hc => absurd hc (h.not_connecting ht nofun)⟩

/-! ### Effects -/

/-- The event that an effect reports. -/
def Effect.event? : Effect → Option LinkEvent
  | .event e => some e
  | _ => none

/-- The text that an effect writes. -/
def Effect.written? : Effect → Option String
  | .written text => some text
  | _ => none

/-- The send that an effect answers well. -/
def Effect.acked? : Effect → Option Nat
  | .answer k (.ok ()) => some k
  | _ => none

def Effect.isDial : Effect → Bool
  | .dial => true
  | _ => false

/-- Effects that dial nothing, write nothing and answer no send well. -/
structure Silent (effects : List Effect) : Prop where
  dials : effects.countP Effect.isDial = 0
  written : effects.filterMap Effect.written? = []
  acked : effects.filterMap Effect.acked? = []

theorem silent_nil : Silent [] := ⟨rfl, rfl, rfl⟩

theorem silent_event (e : LinkEvent) : Silent [.event e] := ⟨rfl, rfl, rfl⟩

theorem Silent.append {first rest : List Effect} (h : Silent first) (h' : Silent rest) :
    Silent (first ++ rest) := by
  refine ⟨?_, ?_, ?_⟩
  · rw [List.countP_append, h.dials, h'.dials]
  · rw [List.filterMap_append, h.written, h'.written]
    rfl
  · rw [List.filterMap_append, h.acked, h'.acked]
    rfl

theorem silent_answer (link : Link) (k : Nat) (error : TransportError) :
    Silent (link.answer k (.error error)).2 := by
  unfold answer
  split <;> exact ⟨rfl, rfl, rfl⟩

theorem events_answer (link : Link) (k : Nat) (result : Except TransportError Unit) :
    (link.answer k result).2.filterMap Effect.event? = [] := by
  unfold answer
  split <;> rfl

/-- With the connection ends what was to be written; nothing more is told of it. -/
theorem silent_stop (link : Link) :
    Silent link.stop.2 ∧ link.stop.2.filterMap Effect.event? = [] := by
  rw [stop]
  generalize (link.outbox.map (·.1)).filter link.waiting.contains = lost
  induction lost with
  | nil => exact ⟨silent_nil, rfl⟩
  | cons k lost ih => exact ⟨⟨ih.1.dials, ih.1.written, ih.1.acked⟩, ih.2⟩

theorem silent_stopWith (link : Link) (e : LinkEvent) : Silent (link.stopWith e).2 :=
  (silent_event e).append link.silent_stop.1

theorem events_stopWith (link : Link) (e : LinkEvent) :
    (link.stopWith e).2.filterMap Effect.event? = [e] :=
  congrArg (e :: ·) (silent_stop link).2

/-! ### What a schedule accepts, writes and hears -/

/-- The text that a caller asks to send. -/
def Input.asked? : Input → Option String
  | .send asked => some asked
  | _ => none

/-- Texts with numbers, from a number on. -/
def numbered (n : Nat) (texts : List String) : List (Nat × String) :=
  (texts.zipIdx n).map Prod.swap

/-- The text that an input brings into the outbox, with the number of its send. -/
def acceptedBy (link : Link) : Input → List (Nat × String)
  | .send text => if link.state = .opened then [(link.nextSend, text)] else []
  | _ => []

/-- The text that the task is writing. -/
def underWay (link : Link) : List (Nat × String) :=
  match link.task with
  | .writing k text => [(k, text)]
  | _ => []

/-- The text that the task has written. -/
def writesBy (link : Link) : Input → List (Nat × String)
  | .wrote => link.underWay
  | _ => []

/-- The text of the peer that the task hears. -/
def heardBy (link : Link) : Input → List String
  | .text text => if link.task = .listening then [text] else []
  | _ => []

/-- The texts that a schedule accepts, in the order of the calls. -/
def accepted (link : Link) : List Input → List (Nat × String)
  | [] => []
  | i :: rest => link.acceptedBy i ++ (link.step i).1.accepted rest

/-- The texts that a schedule writes, in the order in which they are written. -/
def writes (link : Link) : List Input → List (Nat × String)
  | [] => []
  | i :: rest => link.writesBy i ++ (link.step i).1.writes rest

/-- The texts of the peer that a schedule hears. -/
def heard (link : Link) : List Input → List String
  | [] => []
  | i :: rest => link.heardBy i ++ (link.step i).1.heard rest

theorem run_cons (link : Link) (i : Input) (rest : List Input) :
    link.run (i :: rest) =
      (((link.step i).1.run rest).1, (link.step i).2 ++ ((link.step i).1.run rest).2) :=
  rfl

/-- A link is orderly before it is told anything. -/
theorem orderly_start (sendTimeout connectTimeout : Nat) :
    Orderly { sendTimeout, connectTimeout } :=
  ⟨fun _ => rfl, nofun⟩

/-! ### Sends -/

theorem numbered_append (n : Nat) (first rest : List String) :
    numbered n (first ++ rest) = numbered n first ++ numbered (n + first.length) rest := by
  rw [numbered, List.zipIdx_append, List.map_append]
  rfl

theorem numbered_step (link : Link) (i : Input) :
    (link.acceptedBy i).Sublist (numbered link.nextSend ([i].filterMap Input.asked?)) ∧
      (link.step i).1.nextSend = link.nextSend + ([i].filterMap Input.asked?).length := by
  have h := link.acts_step i
  generalize link.step i = next at h
  cases h with
  | rest hi =>
    cases i with
    | send text => exact absurd rfl (hi text)
    | _ => exact ⟨.refl _, rfl⟩
  | accept hs => exact ⟨by rw [acceptedBy, if_pos hs]; exact .refl _, rfl⟩
  | decline hs => exact ⟨by rw [acceptedBy, if_neg hs]; exact List.nil_sublist _, rfl⟩
  | expire =>
    obtain ⟨waiting, hnext⟩ := link.answer_fst _ _
    exact ⟨.refl _, by rw [hnext]; rfl⟩
  | refused | late =>
    rcases link.failDialing_cases _ with ⟨-, hnext⟩ | ⟨-, hnext⟩ <;>
      exact ⟨.refl _, by rw [hnext]; rfl⟩
  | write =>
    obtain ⟨waiting, hnext⟩ := answer_fst { link with task := .listening } _ _
    exact ⟨.refl _, by rw [hnext]; rfl⟩
  | failWrite =>
    obtain ⟨waiting, hnext⟩ := link.answer_fst _ _
    exact ⟨.refl _, by rw [hnext]; rfl⟩
  | _ => exact ⟨.refl _, rfl⟩

/-- **What is accepted are some of the calls to send**, in their order and with their numbers. -/
theorem accepted_sublist (link : Link) (inputs : List Input) :
    (link.accepted inputs).Sublist (numbered link.nextSend (inputs.filterMap Input.asked?)) := by
  induction inputs generalizing link with
  | nil => exact .refl _
  | cons i rest ih =>
    obtain ⟨hi, hnext⟩ := link.numbered_step i
    rw [accepted, show i :: rest = [i] ++ rest from rfl, List.filterMap_append, numbered_append,
      ← hnext]
    exact hi.append (ih _)

/-- The texts that were accepted and not written, but for those that were lost. -/
def backlog (link : Link) : List (Nat × String) :=
  link.underWay ++ link.outbox

theorem underWay_of_not_writing (h : ∀ k text, link.task ≠ .writing k text) :
    link.underWay = [] := by
  unfold underWay
  split
  · next k text ht => exact absurd ht (h k text)
  · rfl

theorem underWay_of_task {task : Task} (ht : link.task = task)
    (htask : ∀ k text, task ≠ .writing k text) : link.underWay = [] :=
  underWay_of_not_writing fun k text hw => htask k text (ht.symm.trans hw)

/-- A step writes from the front of the backlog and accepts at its end, or ends the task. -/
theorem backlog_step (h : link.Orderly) (i : Input) :
    link.writesBy i ++ (link.step i).1.backlog = link.backlog ++ link.acceptedBy i ∨
      (link.writesBy i = [] ∧ (link.step i).1.task = .ended) := by
  have hacts := link.acts_step i
  generalize link.step i = next at hacts
  cases hacts with
  | rest hi _ hwrote =>
    left
    have hwrites : link.writesBy i = [] := by
      cases i with
      | wrote => exact underWay_of_not_writing (hwrote rfl)
      | _ => rfl
    have haccepted : link.acceptedBy i = [] := by
      cases i with
      | send text => exact absurd rfl (hi text)
      | _ => rfl
    rw [hwrites, haccepted, List.nil_append, List.append_nil]
  | dial hs => exact .inl (by simp [writesBy, acceptedBy, backlog, underWay, h.idle hs])
  | accept hs => exact .inl (by simp [writesBy, acceptedBy, backlog, underWay, hs])
  | decline hs => exact .inl (by simp [writesBy, acceptedBy, backlog, underWay, hs])
  | tearDown => exact .inl (by simp [writesBy, acceptedBy, backlog, underWay])
  | expire =>
    obtain ⟨waiting, hnext⟩ := link.answer_fst _ _
    rw [hnext]
    exact .inl (by simp [writesBy, acceptedBy, backlog, underWay])
  | establish ht => exact .inl (by simp [writesBy, acceptedBy, backlog, underWay, ht])
  | hear => exact .inl (by simp [writesBy, acceptedBy])
  | take ht ho => exact .inl (by simp [writesBy, acceptedBy, backlog, underWay, ht, ho])
  | write ht =>
    obtain ⟨waiting, hnext⟩ := answer_fst { link with task := .listening } _ _
    rw [hnext]
    exact .inl (by simp [writesBy, acceptedBy, backlog, underWay, ht])
  | refused | late =>
    rcases link.failDialing_cases _ with ⟨-, hnext⟩ | ⟨-, hnext⟩ <;> rw [hnext] <;>
      exact .inr ⟨rfl, rfl⟩
  | abandon | giveUp | peerClosed | broken | finish | failWrite => exact .inr ⟨rfl, rfl⟩

/-! ### The end of the task -/

/-- A task that has ended does nothing more. -/
theorem ended_step (h : link.Orderly) (ht : link.task = .ended) (i : Input) :
    (link.step i).1.task = .ended ∧ link.writesBy i = [] ∧ link.heardBy i = [] ∧
      (link.step i).2.filterMap Effect.event? = [] := by
  have hwrites : link.writesBy i = [] := by
    cases i with
    | wrote => exact underWay_of_task ht nofun
    | _ => rfl
  have hheard : link.heardBy i = [] := by
    cases i with
    | text text => rw [heardBy, if_neg (by rw [ht]; nofun)]
    | _ => rfl
  have hacts := link.acts_step i
  generalize link.step i = next at hacts
  suffices next.1.task = .ended ∧ next.2.filterMap Effect.event? = [] from
    ⟨this.1, hwrites, hheard, this.2⟩
  cases hacts with
  | dial hs => exact absurd hs (h.not_idle ht nofun)
  | rest | tearDown | accept | decline => exact ⟨ht, rfl⟩
  | abandon => exact ⟨rfl, rfl⟩
  | expire =>
    obtain ⟨waiting, hnext⟩ := link.answer_fst _ _
    exact ⟨by rw [hnext]; exact ht, events_answer ..⟩
  | establish hd | giveUp hd | refused hd | late hd | hear hd | peerClosed hd | broken hd
    | take hd | finish hd | write hd | failWrite hd => rw [ht] at hd; cases hd

theorem ended_run (h : link.Orderly) (ht : link.task = .ended) (inputs : List Input) :
    link.writes inputs = [] ∧ link.heard inputs = [] ∧
      (link.run inputs).2.filterMap Effect.event? = [] := by
  induction inputs generalizing link with
  | nil => exact ⟨rfl, rfl, rfl⟩
  | cons i rest ih =>
    obtain ⟨hnext, hwrites, hheard, hevents⟩ := ended_step h ht i
    obtain ⟨hwrites', hheard', hevents'⟩ := ih (h.step i) hnext
    refine ⟨?_, ?_, ?_⟩
    · rw [writes, hwrites, hwrites']
      rfl
    · rw [heard, hheard, hheard']
      rfl
    · rw [run_cons, List.filterMap_append, hevents, hevents']
      rfl

/-- **What is written is a prefix of what was accepted.** -/
theorem writes_prefix (h : link.Orderly) (inputs : List Input) :
    link.writes inputs <+: link.backlog ++ link.accepted inputs := by
  induction inputs generalizing link with
  | nil => exact List.nil_prefix
  | cons i rest ih =>
    rw [writes, accepted]
    rcases backlog_step h i with hstep | ⟨hnone, hended⟩
    · rw [← List.append_assoc, ← hstep, List.append_assoc]
      exact (List.prefix_append_right_inj _).mpr (ih (h.step i))
    · -- what is left of the backlog is lost, but nothing more is written
      rw [hnone, (ended_run (h.step i) hended rest).1]
      exact List.nil_prefix

/-! ### Effects of a schedule -/

/-- What a step tells of dialing and writing. -/
structure Tells (link : Link) (i : Input) (next : Link × List Effect) : Prop where
  dials : next.2.countP Effect.isDial = 0 ∨
    (next.2.countP Effect.isDial = 1 ∧ link.state = .idle ∧ next.1.state = .connecting)
  written : next.2.filterMap Effect.written? = (link.writesBy i).map (·.2)
  acked : (next.2.filterMap Effect.acked?).Sublist ((link.writesBy i).map (·.1))

theorem Silent.tells {effects : List Effect} (h : Silent effects) {i : Input}
    (hi : link.writesBy i = []) (next : Link) : Tells link i (next, effects) := by
  refine ⟨.inl h.dials, ?_, ?_⟩
  · rw [hi]
    exact h.written
  · rw [hi]
    exact h.acked ▸ .refl _

theorem tells_step (link : Link) (i : Input) : Tells link i (link.step i) := by
  have hacts := link.acts_step i
  generalize link.step i = next at hacts
  cases hacts with
  | rest _ _ hwrote =>
    refine silent_nil.tells ?_ link
    cases i with
    | wrote => exact underWay_of_not_writing (hwrote rfl)
    | _ => rfl
  | dial hs => exact ⟨.inr ⟨rfl, hs, rfl⟩, rfl, .refl _⟩
  | abandon | tearDown | accept | establish | giveUp | refused | late | take =>
    exact silent_nil.tells rfl _
  | decline => exact Silent.tells ⟨rfl, rfl, rfl⟩ rfl _
  | expire => exact (silent_answer ..).tells rfl _
  | hear => exact (silent_event _).tells rfl _
  | peerClosed | broken => exact (link.silent_stopWith _).tells rfl _
  | finish =>
    have hhangUp : Silent [.hangUp] := ⟨rfl, rfl, rfl⟩
    exact (hhangUp.append link.silent_stop.1).tells rfl _
  | @write k text ht =>
    have hwrites : link.writesBy .wrote = [(k, text)] := by rw [writesBy, underWay, ht]
    rw [answer]
    split
    · exact ⟨.inl rfl, by rw [hwrites]; rfl, by rw [hwrites]; exact .refl _⟩
    · exact ⟨.inl rfl, by rw [hwrites]; rfl, List.nil_sublist _⟩
  | failWrite =>
    exact ((silent_answer ..).append (silent_stopWith ..)).tells rfl _

/-- An event that ends the connection. -/
def Final (e : LinkEvent) : Prop := ∀ text, e ≠ .message text

/-- **What a step reports**: the text that the task hears, or an event with which the task ends. -/
theorem events_step (link : Link) (i : Input) :
    (link.step i).2.filterMap Effect.event? = (link.heardBy i).map .message ∨
      (link.heardBy i = [] ∧ (link.step i).1.task = .ended ∧
        ∃ e, Final e ∧ (link.step i).2.filterMap Effect.event? = [e]) := by
  have hacts := link.acts_step i
  generalize link.step i = next at hacts
  cases hacts with
  | rest _ hheard _ =>
    left
    cases i with
    | text text => rw [heardBy, if_neg (hheard text rfl)]; rfl
    | _ => rfl
  | hear ht => exact .inl (by rw [heardBy, if_pos ht]; rfl)
  | peerClosed | broken =>
    exact .inr ⟨rfl, rfl, _, fun _ => LinkEvent.noConfusion, events_stopWith ..⟩
  | finish => exact .inl (silent_stop link).2
  | failWrite =>
    refine .inr ⟨rfl, rfl, .error "write failed", fun _ => LinkEvent.noConfusion, ?_⟩
    rw [List.filterMap_append, events_answer, events_stopWith]
    rfl
  | expire => exact .inl (events_answer ..)
  | write => exact .inl (events_answer ..)
  | dial | abandon | tearDown | accept | decline | establish | giveUp | refused | late | take =>
    exact .inl rfl

/-! ### Schedules -/

/-- A link that was told to connect once is not idle again. -/
theorem State.Leads.not_idle {s t : State} (h : s.Leads t) (hs : s ≠ .idle) : t ≠ .idle := by
  cases h with
  | stay => exact hs
  | dial => exact absurd rfl hs
  | establish | fail | close => exact nofun

theorem dials_of_begun (h : link.state ≠ .idle) (inputs : List Input) :
    (link.run inputs).2.countP Effect.isDial = 0 := by
  induction inputs generalizing link with
  | nil => rfl
  | cons i rest ih =>
    rw [run_cons, List.countP_append, ih ((link.leads_step i).not_idle h)]
    rcases (link.tells_step i).dials with hzero | ⟨-, hidle, -⟩
    · exact hzero
    · exact absurd hidle h

/-- **A link dials at most once.** -/
theorem dials_run (link : Link) (inputs : List Input) :
    (link.run inputs).2.countP Effect.isDial ≤ 1 := by
  induction inputs generalizing link with
  | nil => exact Nat.zero_le 1
  | cons i rest ih =>
    rw [run_cons, List.countP_append]
    rcases (link.tells_step i).dials with hzero | ⟨hone, -, hconnecting⟩
    · rw [hzero, Nat.zero_add]
      exact ih _
    · have hzero := dials_of_begun (by rw [hconnecting]; nofun) rest
      omega

/-- The effects of a schedule tell what is written. -/
theorem written_run (link : Link) (inputs : List Input) :
    (link.run inputs).2.filterMap Effect.written? = (link.writes inputs).map (·.2) := by
  induction inputs generalizing link with
  | nil => rfl
  | cons i rest ih =>
    rw [run_cons, List.filterMap_append, (link.tells_step i).written, ih, writes, List.map_append]

/-- **A send returns well** only if its text was written. -/
theorem acked_sublist (link : Link) (inputs : List Input) :
    ((link.run inputs).2.filterMap Effect.acked?).Sublist ((link.writes inputs).map (·.1)) := by
  induction inputs generalizing link with
  | nil => exact .refl _
  | cons i rest ih =>
    rw [run_cons, List.filterMap_append, writes, List.map_append]
    exact (link.tells_step i).acked.append (ih _)

/-- **What a schedule reports**: the texts that the task hears, then at most one final event. -/
theorem events_run (h : link.Orderly) (inputs : List Input) :
    ∃ ending : List LinkEvent,
      (link.run inputs).2.filterMap Effect.event? =
        (link.heard inputs).map .message ++ ending ∧
      ending.length ≤ 1 ∧ ∀ e ∈ ending, Final e := by
  induction inputs generalizing link with
  | nil => exact ⟨[], rfl, Nat.zero_le 1, nofun⟩
  | cons i rest ih =>
    rw [run_cons, List.filterMap_append, heard]
    rcases link.events_step i with hevents | ⟨hnone, hended, e, hfinal, hevents⟩
    · obtain ⟨ending, hrest, hending⟩ := ih (h.step i)
      refine ⟨ending, ?_, hending⟩
      rw [hevents, hrest, List.map_append, List.append_assoc]
    · obtain ⟨-, hheard, hrest⟩ := ended_run (h.step i) hended rest
      refine ⟨[e], ?_, Nat.le_refl 1, fun e' he => List.mem_singleton.mp he ▸ hfinal⟩
      rw [hevents, hrest, hnone, hheard]
      rfl

end Link
end NodeClient
