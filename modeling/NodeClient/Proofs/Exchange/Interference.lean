import NodeClient.Proofs.Exchange.Reading

/-!
# Interference — frames that nobody waits for

A frame may be no JSON, no message, a failure that names no call, or a response to a call that
nobody made.  Whatever the node mixes into its answers, these frames (`Irrelevant`) do nothing.

* `irrelevant_iff`: they are the frames that leave an exchange as it is.
* `Thinned`: a run without some of the frames that are irrelevant when they come.
* `irrelevant_frames_change_nothing`: both runs are the same, for the callers and for all readers.
-/

namespace NodeClient
namespace Exchange

/-! ### Irrelevant frames -/

/-- A frame that says nothing to an exchange. -/
inductive Irrelevant (x : Exchange) (text : String) : Prop
  | noJson (h : Json.ofText? text = none)
  | noMessage (json : Json) (e : ProtocolError) (h : Json.ofText? text = some json)
      (he : Message.ofJson json = .error e)
  /-- A failure whose id is null. -/
  | noCall (f : Failure) (h : Message.ofText text = .ok (.failure f)) (hid : f.id = none)
  /-- A response to a call that nobody waits for. -/
  | notPending (r : Response) (id : Id) (h : responseIn? text = some r) (hid : r.id? = some id)
      (hno : ∀ e ∈ x.pending, e.1.same id = false)

/-- A frame that is no message. -/
theorem irrelevant_of_error {x : Exchange} {text : String} {e : ProtocolError}
    (h : Message.ofText text = .error e) : Irrelevant x text := by
  unfold Message.ofText at h
  cases hjson : Json.ofText? text with
  | none => exact .noJson hjson
  | some json =>
    rw [hjson] at h
    exact .noMessage json e hjson h

theorem Irrelevant.step_eq {x : Exchange} {text : String} (h : Irrelevant x text) :
    x.step (.frame text) = (x, []) := by
  have herror : ∀ e, Message.ofText text = .error e → x.step (.frame text) = (x, []) := by
    intro e he
    have hroute : x.route text = x := by rw [route, he]
    rw [step, hroute, ite_self]
  cases h with
  | noJson h => exact herror .json (by rw [Message.ofText, h])
  | noMessage json e h he => exact herror e (by rw [Message.ofText, h]; exact he)
  | noCall f h hid =>
    have hresponse : responseIn? text = some (.failure f) := by rw [responseIn?, h]; rfl
    refine frame_without_entry hresponse fun id hid' => ?_
    rw [show (Response.failure f).id? = f.id from rfl, hid] at hid'
    cases hid'
  | notPending r id h hid hno =>
    refine frame_without_entry h fun id' hid' => ?_
    rw [hid] at hid'
    exact Option.some.inj hid' ▸ hno

/-- An answer to an id that somebody waits for takes its entry out of the table. -/
theorem length_pending_answer {x : Exchange} {id : Id} {a : Answer}
    (h : ∃ e ∈ x.pending, e.1.same id = true) :
    (x.answer id a).pending.length < x.pending.length := by
  obtain ⟨e, he, hsame⟩ := h
  rw [pending_answer, List.length_eraseP_of_mem he hsame]
  have hpos := List.length_pos_of_mem he
  omega

/-- **The irrelevant frames are those that do nothing** to an exchange that somebody holds. -/
theorem irrelevant_iff {x : Exchange} (hheld : x.isHeld = true) {text : String} :
    Irrelevant x text ↔ x.step (.frame text) = (x, []) := by
  refine ⟨Irrelevant.step_eq, fun h => ?_⟩
  have hroute : x.route text = x := by
    rw [step, if_pos hheld] at h
    exact congrArg Prod.fst h
  have hresponse : ∀ r id, responseIn? text = some r → r.id? = some id → Irrelevant x text := by
    intro r id hr hid
    refine .notPending r id hr hid fun e he => Bool.eq_false_iff.mpr fun hsame => ?_
    have hlt := length_pending_answer (a := .response r) ⟨e, he, hsame⟩
    rw [route_eq, hr] at hroute
    simp only [hid] at hroute
    rw [hroute] at hlt
    exact absurd hlt (Nat.lt_irrefl _)
  cases hm : Message.ofText text with
  | error e => exact irrelevant_of_error hm
  | ok m =>
    cases m with
    | success s => exact hresponse (.success s) s.id (by rw [responseIn?, hm]; rfl) rfl
    | failure f =>
      cases hid : f.id with
      | none => exact .noCall f hm hid
      | some id => exact hresponse (.failure f) id (by rw [responseIn?, hm]; rfl) hid
    | event e =>
      rw [route, hm] at hroute
      have hlength := congrArg (fun x => x.events.length) hroute
      simp at hlength

/-! ### Runs without them -/

/-- A run without some of the frames that are irrelevant when they come. -/
inductive Thinned : Exchange → List Input → List Input → Prop
  | nil (x : Exchange) : Thinned x [] []
  | keep {x : Exchange} (i : Input) {inputs kept : List Input}
      (h : Thinned (x.step i).1 inputs kept) : Thinned x (i :: inputs) (i :: kept)
  | skip {x : Exchange} {text : String} (hno : Irrelevant x text) {inputs kept : List Input}
      (h : Thinned (x.step (.frame text)).1 inputs kept) : Thinned x (.frame text :: inputs) kept

theorem Thinned.run_eq {x : Exchange} {inputs kept : List Input} (h : Thinned x inputs kept) :
    x.run kept = x.run inputs := by
  induction h with
  | nil x => rfl
  | keep i h ih => rw [run_cons, run_cons, ih]
  | skip hno h ih =>
    rw [hno.step_eq] at ih
    rw [run_cons, hno.step_eq, ih]
    rfl

theorem Thinned.results_eq {x : Exchange} {inputs kept : List Input} (h : Thinned x inputs kept)
    (k : Nat) : x.results k kept = x.results k inputs := by
  induction h with
  | nil x => rfl
  | keep i h ih => rw [results, results, ih]
  | skip hno h ih =>
    rw [hno.step_eq] at ih
    rw [results, hno.step_eq, ih]
    rfl

/-- A run and a thinner one can be cut at the same times. -/
theorem Thinned.split {x : Exchange} {before after kept : List Input}
    (h : Thinned x (before ++ after) kept) :
    ∃ earlier later, kept = earlier ++ later ∧ Thinned x before earlier ∧
      Thinned (x.run before).1 after later := by
  induction before generalizing x kept with
  | nil => exact ⟨[], kept, rfl, .nil x, h⟩
  | cons i before ih =>
    cases h with
    | keep i h =>
      obtain ⟨earlier, later, rfl, hearlier, hlater⟩ := ih h
      exact ⟨i :: earlier, later, rfl, .keep i hearlier, hlater⟩
    | skip hno h =>
      obtain ⟨earlier, later, rfl, hearlier, hlater⟩ := ih h
      exact ⟨earlier, later, rfl, .skip hno hearlier, hlater⟩

/-- **Irrelevant frames cannot interfere.**  Take any run of an exchange in any state, and leave out
any frames that are irrelevant when they come:

* The exchange ends in the same state, with the same table of pending ids and the same holders, and
  it has done the same on its line and told its callers the same, in the same order.
* Every subscription has yielded the same.
* This holds at any time: each part of the run corresponds to a part of the thinner one.
* As long as somebody holds the exchange, any other frame is still heard: only irrelevant frames
  leave the exchange as it is. -/
theorem irrelevant_frames_change_nothing {x : Exchange} {inputs kept : List Input}
    (h : Thinned x inputs kept) :
    x.run kept = x.run inputs ∧
    (∀ k, x.results k kept = x.results k inputs) ∧
    (∀ before after, inputs = before ++ after → ∃ earlier later, kept = earlier ++ later ∧
      x.run earlier = x.run before ∧ (∀ k, x.results k earlier = x.results k before) ∧
      Thinned (x.run before).1 after later) ∧
    (∀ text, (x.run inputs).1.isHeld = true →
      (Irrelevant (x.run inputs).1 text ↔
        (x.run inputs).1.step (.frame text) = ((x.run inputs).1, []))) := by
  refine ⟨h.run_eq, h.results_eq, ?_, fun text hheld => irrelevant_iff hheld⟩
  rintro before after rfl
  obtain ⟨earlier, later, hkept, hearlier, hlater⟩ := h.split
  exact ⟨earlier, later, hkept, hearlier.run_eq, hearlier.results_eq, hlater⟩

/-- A call, and its response in the middle of frames that nobody waits for. -/
def noisyCall : List Input :=
  [.call (Request.health.toCall (.ofNat 1)), .frame "not json",
    .frame (Json.ofMembers [("jsonrpc", .string "1.0"), ("id", (Id.ofNat 1).toJson)]).render,
    .respond (.failure { id := none, fault := { code := 0, message := "", data := none } }),
    .respond (.success { id := .ofNat 1, result := .null }),
    .respond (.success { id := .ofNat 1, result := .array [] }), .resume 0]

/-- The call and its response alone. -/
def quietCall : List Input :=
  [.call (Request.health.toCall (.ofNat 1)),
    .respond (.success { id := .ofNat 1, result := .null }), .resume 0]

/-- The call ends with its response, as if the other frames had not come. -/
theorem noisy_call_ends_alike :
    Thinned { timeout := 10 } noisyCall quietCall ∧
      run { timeout := 10 } quietCall = run { timeout := 10 } noisyCall ∧
      .done 0 (.response (.success { id := .ofNat 1, result := .null })) ∈
        (run { timeout := 10 } noisyCall).2 := by
  have hversion : ∀ x, Irrelevant x
      (Json.ofMembers [("jsonrpc", .string "1.0"), ("id", (Id.ofNat 1).toJson)]).render := fun x =>
    irrelevant_of_error (e := .version (some (.string "1.0"))) rfl
  have hthinned : Thinned { timeout := 10 } noisyCall quietCall := by
    refine .keep _ (.skip (.noJson rfl) (.skip (hversion _) (.skip (.noCall _ rfl rfl)
      (.keep _ (.skip (.notPending _ _ rfl rfl ?_) (.keep _ (.nil _)))))))
    intro e he
    cases he
  obtain ⟨hrun, -⟩ := irrelevant_frames_change_nothing hthinned
  refine ⟨hthinned, hrun, ?_⟩
  rw [← hrun]
  exact .tail _ (.head _)

end Exchange
end NodeClient
