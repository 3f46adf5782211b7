import NodeClient.Proofs.Exchange.Pending

/-!
# Operations — what each operation of an exchange does

One equation for each operation that an input calls for, so that later proofs need not open it:

* `tell_eq`, `tellAll_fst`, `release_eq`: calls for whose response nobody waits.
* `route_eq`, `callers_route`: a frame is a response to one id, or it is not a response.
* `effects_finish`, `callers_finish`, `holders_finish`: the end of a wait.
-/

namespace NodeClient

/-- The response that a frame is, if it is one. -/
def Message.response? : Message → Option Response
  | .success s => some (.success s)
  | .failure f => some (.failure f)
  | .event _ => none

/-- The response in the text of a frame. -/
def responseIn? (text : String) : Option Response :=
  (Message.ofText text).toOption.bind Message.response?

namespace Exchange

/-! ### Calls of the exchange's own -/

/-- The text of the exchange's own call with a number. -/
def ownText (request : Request) (n : Nat) : String :=
  (request.toCall (ownId n)).toJson.render

theorem tell_eq (x : Exchange) (request : Request) :
    x.tell request = ({ x with nextId := x.nextId + 1 }, [.queue (ownText request x.nextId)]) :=
  rfl

theorem tellAll_fst (x : Exchange) (queries : List String) :
    (x.tellAll queries).1 = { x with nextId := x.nextId + queries.length } := by
  induction queries generalizing x with
  | nil => rfl
  | cons q rest ih =>
    show ((x.tell (.subscribe q)).1.tellAll rest).1 = _
    rw [ih, tell_eq, List.length_cons, Nat.add_right_comm x.nextId 1]
    rfl

theorem queued_of_mem_tellAll {x : Exchange} {queries : List String} {e : Effect}
    (he : e ∈ (x.tellAll queries).2) : ∃ text, e = .queue text := by
  induction queries generalizing x with
  | nil => cases he
  | cons q rest ih =>
    rcases List.mem_append.mp he with he | he
    · exact ⟨_, List.mem_singleton.mp he⟩
    · exact ih he

theorem release_eq (x : Exchange) (q : String) (telling : Bool) :
    x.release q telling =
      if x.holders.count q = 1 ∧ telling = true then
        ({ x with holders := x.holders.remove q, nextId := x.nextId + 1 },
          [.queue (ownText (.unsubscribe q) x.nextId)])
      else ({ x with holders := x.holders.remove q }, []) := by
  unfold release
  simp only
  rfl

section Release

variable (x : Exchange) (q : String) (telling : Bool)

@[simp] theorem callers_release : (x.release q telling).1.callers = x.callers := by
  rw [release_eq]; split <;> rfl

@[simp] theorem pending_release : (x.release q telling).1.pending = x.pending := by
  rw [release_eq]; split <;> rfl

@[simp] theorem holders_release : (x.release q telling).1.holders = x.holders.remove q := by
  rw [release_eq]; split <;> rfl

theorem release_silent : (x.release q false).2 = [] := by
  simp [release_eq]

theorem matched_release {x : Exchange} (hm : x.Matched) : (x.release q telling).1.Matched :=
  hm.congr (pending_release x q telling) fun k w => by rw [Waits, callers_release]

end Release

/-! ### What the operations leave alone -/

/-- Neither the time nor the owner changes, and the numbers of own calls only grow. -/
structure Steady (x y : Exchange) : Prop where
  timeout : y.timeout = x.timeout
  now : y.now = x.now
  dropped : y.dropped = x.dropped
  nextId : x.nextId ≤ y.nextId

theorem Steady.refl (x : Exchange) : Steady x x := ⟨rfl, rfl, rfl, Nat.le_refl _⟩

theorem Steady.trans {x y z : Exchange} (h : Steady x y) (h' : Steady y z) : Steady x z :=
  ⟨h'.timeout.trans h.timeout, h'.now.trans h.now, h'.dropped.trans h.dropped,
    Nat.le_trans h.nextId h'.nextId⟩

section Steady

variable (x : Exchange)

theorem steady_setCaller (k : Nat) (c : Caller) : Steady x (x.setCaller k c) :=
  ⟨rfl, rfl, rfl, Nat.le_refl _⟩

theorem steady_answer (id : Id) (a : Answer) : Steady x (x.answer id a) :=
  ⟨timeout_answer x id a, now_answer x id a, dropped_answer x id a,
    Nat.le_of_eq (nextId_answer x id a).symm⟩

theorem steady_leave (k : Nat) (id : Id) : Steady x (x.leave k id) :=
  (x.steady_setCaller k .over).trans (steady_answer _ id .abandoned)

theorem steady_await (c : Call) (purpose : Purpose) : Steady x (x.await c purpose).1 := by
  have h := x.steady_answer c.id .abandoned
  exact ⟨h.timeout, h.now, h.dropped, h.nextId⟩

theorem steady_release (q : String) (telling : Bool) : Steady x (x.release q telling).1 := by
  rw [release_eq]
  split
  · exact ⟨rfl, rfl, rfl, Nat.le_succ _⟩
  · exact ⟨rfl, rfl, rfl, Nat.le_refl _⟩

theorem steady_route (text : String) : Steady x (x.route text) := by
  unfold route
  split
  · exact steady_answer _ _ _
  · split
    · exact steady_answer _ _ _
    · exact .refl x
  · exact ⟨rfl, rfl, rfl, Nat.le_refl _⟩
  · exact .refl x

theorem steady_finish (k : Nat) (w : Waiter) (result : Except ClientError Response) :
    Steady x (x.finish k w result).1 := by
  have h := x.steady_leave k w.id
  unfold finish
  cases w.purpose with
  | response => exact h
  | subscription s =>
    cases result.bind Client.resultOf with
    | ok v => exact h.trans (steady_setCaller _ k _)
    | error e => exact h.trans (steady_release _ _ _)

theorem steady_abort (k : Nat) : Steady x (x.abort k).1 := by
  unfold abort
  split
  · next w _ =>
    have h := x.steady_leave k w.id
    cases w.purpose with
    | response => exact h
    | subscription s => exact h.trans (steady_release _ _ _)
  · have h := x.steady_setCaller k .over
    dsimp only
    split
    · exact h.trans (steady_release _ _ _)
    · exact h
  · exact .refl x

end Steady

/-! ### Frames -/

theorem route_eq (x : Exchange) (text : String) :
    x.route text =
      match responseIn? text with
      | some r =>
        match r.id? with
        | some id => x.answer id (.response r)
        | none => x
      | none =>
        match Message.ofText text with
        | .ok (.event e) => { x with events := x.events ++ [e] }
        | _ => x := by
  unfold route responseIn?
  cases Message.ofText text with
  | error e => rfl
  | ok m => cases m <;> rfl

/-- The response to an id in the text of a frame. -/
def responseTo? (id : Id) (text : String) : Option Response :=
  (responseIn? text).filter fun r => r.id?.any id.same

theorem responseTo?_of_id {text : String} {r : Response} (hr : responseIn? text = some r) {id : Id}
    (hid : r.id? = some id) (i : Id) :
    responseTo? i text = if i.same id then some r else none := by
  simp [responseTo?, hr, Option.filter_some, hid]

/-- A frame that is no response, or one without an id, is no response to any id. -/
theorem responseTo?_of_no_id {text : String} (h : (responseIn? text).bind Response.id? = none)
    (i : Id) : responseTo? i text = none := by
  unfold responseTo?
  cases hr : responseIn? text with
  | none => rfl
  | some r =>
    rw [hr] at h
    simp [Option.filter_some, show r.id? = none from h]

/-- A wait after a frame: the first response to its id is its answer. -/
def Waiter.receive (text : String) (w : Waiter) : Waiter :=
  { w with answer := w.answer <|> (responseTo? w.id text).map .response }

/-- A caller after a frame. -/
def Caller.receive (text : String) : Caller → Caller
  | .waiting w => .waiting (w.receive text)
  | c => c

/-- A wait that a frame does not answer. -/
theorem Waiter.receive_of_none {text : String} {w : Waiter} (h : responseTo? w.id text = none) :
    w.receive text = w := by
  obtain ⟨i, purpose, deadline, answer⟩ := w
  unfold Waiter.receive
  rw [h]
  cases answer <;> rfl

theorem receive_eq_self {text : String} (h : ∀ id, responseTo? id text = none) :
    Caller.receive text = id := by
  funext c
  cases c with
  | waiting w => exact congrArg Caller.waiting (Waiter.receive_of_none (h w.id))
  | _ => rfl

/-- **What a frame does to the callers**: each waiting one hears a response to its id. -/
theorem callers_route {x : Exchange} (hm : x.Matched) (text : String) :
    (x.route text).callers = x.callers.map (Caller.receive text) := by
  rw [route_eq]
  cases hr : responseIn? text with
  | none =>
    have hself : Caller.receive text = id :=
      receive_eq_self (responseTo?_of_no_id (by rw [hr]; rfl))
    rw [hself, List.map_id]
    dsimp only
    split <;> rfl
  | some r =>
    cases hid : r.id? with
    | none =>
      have hself : Caller.receive text = id :=
        receive_eq_self (responseTo?_of_no_id (by rw [hr]; exact hid))
      rw [hself, List.map_id]
      simp only [hid]
    | some id =>
      have heq : Caller.receive text = Caller.hear id (.response r) := by
        funext c
        cases c with
        | waiting w =>
          show Caller.waiting (w.receive text) = .waiting (w.hear id (.response r))
          rw [Waiter.receive, Waiter.hear, responseTo?_of_id hr hid]
          cases w.id.same id with
          | true => rfl
          | false => simp
        | _ => rfl
      rw [heq]
      simp only [hid]
      exact callers_answer hm id (.response r)

theorem matched_route {x : Exchange} (hm : x.Matched) (text : String) :
    (x.route text).Matched := by
  rw [route_eq]
  split
  · split
    · exact matched_answer hm _ _
    · exact hm
  · split
    · exact hm.congr rfl fun _ _ => Iff.rfl
    · exact hm

@[simp] theorem holders_route (x : Exchange) (text : String) :
    (x.route text).holders = x.holders := by
  rw [route_eq]; split <;> split <;> simp

/-! ### The end of a wait -/

/-- What a caller is told, by what it wanted of the response. -/
def Purpose.outcome (result : Except ClientError Response) : Purpose → Outcome
  | .response => .ofResult result
  | .subscription s =>
    match result.bind Client.resultOf with
    | .ok _ => .subscribed s.query
    | .error e => .failed e

/-- The state of a caller after its wait. -/
def Purpose.after (result : Except ClientError Response) : Purpose → Caller
  | .response => .over
  | .subscription s =>
    match result.bind Client.resultOf with
    | .ok _ => .subscribed s
    | .error _ => .over

@[simp] theorem Purpose.waits_after (result : Except ClientError Response) (p : Purpose) :
    (p.after result).waits = false := by
  cases p with
  | response => rfl
  | subscription s => unfold after; dsimp only; split <;> rfl

/-- **The end of a wait is told once, and nothing else happens on the line.** -/
theorem effects_finish (x : Exchange) (k : Nat) (w : Waiter)
    (result : Except ClientError Response) :
    (x.finish k w result).2 = [.done k (w.purpose.outcome result)] := by
  unfold finish Purpose.outcome
  cases w.purpose with
  | response => rfl
  | subscription s =>
    cases hr : result.bind Client.resultOf with
    | ok v => simp
    | error e => simp [release_silent]

theorem callers_finish {x : Exchange} (hm : x.Matched) {k : Nat} {w : Waiter}
    (hw : x.Waits k w) (result : Except ClientError Response) :
    (x.finish k w result).1.callers = x.callers.set k (w.purpose.after result) := by
  have hleave := callers_leave hm hw
  unfold finish Purpose.after
  cases w.purpose with
  | response => exact hleave
  | subscription s =>
    cases hr : result.bind Client.resultOf with
    | ok v => simp [setCaller, hleave]
    | error e => simp [hleave]

end Exchange
end NodeClient
