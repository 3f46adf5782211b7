import NodeClient.Client.Post
import NodeClient.Proofs.Envelope.Responses
import NodeClient.Proofs.Exchange.Correlation

/-!
# Transports — one reply, whether it is posted back or routed

Over HTTP the body of an answer is read as a response, and then its id is checked.  On a line a
frame is sorted first, and then goes to the caller that waits for its id.

* `message_iff_response`: sorting a frame finds the response that reading it finds, unless its id is
  that of an event.
* `responseTo?_iff_read`: a text is a response to an id on a line if it is one over HTTP and bears
  an id.
* `transports_agree`: a call ends on a line as it does over HTTP, or it runs out of time.
-/

namespace NodeClient

open Json (lookup)

/-! ### Sorting frames and reading responses -/

theorem Message.ofJson_success {members : List (String × Json)} {s : Success} :
    Message.ofJson (.object members) = .ok (.success s) ↔
      Response.ofJson (.object members) = .ok (.success s) ∧ isEventId s.id.toJson = false := by
  have hid : ∀ {s : Success}, Success.ofJson (.object members) = .ok s →
      isEventFrame members = isEventId s.id.toJson := fun h => by
    rw [isEventFrame, (Success.ofJson_eq_ok.mp h).2.1]
  show (checkVersion members >>= fun _ => _) = _ ↔ _
  rw [Response.ofJson_success, bind_eq_ok]
  constructor
  · rintro ⟨⟨⟩, -, h⟩
    -- a frame with an error is no event, whatever its id
    cases herror : lookup "error" members with
    | some v =>
      rw [herror, Option.isSome_some, if_pos rfl, map_eq_ok] at h
      obtain ⟨r, hr, heq⟩ := h
      cases r with
      | success s' =>
        rw [(Response.ofJson_success.mp hr).1] at herror
        cases herror
      | failure f => cases heq
    | none =>
      rw [herror, Option.isSome_none, if_neg nofun] at h
      split at h
      · obtain ⟨_, -, heq⟩ := map_eq_ok.mp h
        cases heq
      · next hevent =>
        obtain ⟨s', hs, heq⟩ := map_eq_ok.mp h
        obtain rfl := Message.success.inj heq
        exact ⟨⟨rfl, hs⟩, (hid hs).symm.trans (Bool.eq_false_iff.mpr hevent)⟩
  · rintro ⟨⟨herror, hs⟩, hevent⟩
    refine ⟨(), checkVersion_eq_ok.mpr (Success.ofJson_eq_ok.mp hs).1, ?_⟩
    rw [herror, Option.isSome_none, if_neg nofun, hid hs, hevent, if_neg nofun, hs]
    rfl

theorem Message.ofJson_failure {members : List (String × Json)} {f : Failure} :
    Message.ofJson (.object members) = .ok (.failure f) ↔
      Response.ofJson (.object members) = .ok (.failure f) := by
  show (checkVersion members >>= fun _ => _) = _ ↔ _
  rw [bind_eq_ok]
  constructor
  · rintro ⟨⟨⟩, -, h⟩
    split at h
    · obtain ⟨r, hr, heq⟩ := map_eq_ok.mp h
      cases r with
      | success s => cases heq
      | failure g =>
        obtain rfl := Message.failure.inj heq
        exact hr
    · split at h <;> obtain ⟨_, -, heq⟩ := map_eq_ok.mp h <;> cases heq
  · intro h
    obtain ⟨herror, hf⟩ := Response.ofJson_failure.mp h
    have hversion := (Failure.ofJson_eq_ok.mp hf).1
    -- sorting checks the version of the frame, reading that of the frame without its result
    rw [Json.lookup_erase, if_neg (by decide)] at hversion
    refine ⟨(), checkVersion_eq_ok.mpr hversion, ?_⟩
    rw [if_pos herror, h]
    rfl

/-- Whether a response bears an id. -/
def Response.bears (id : Id) (r : Response) : Bool :=
  r.id?.any id.same

theorem isEventId_of_same {a b : Id} (h : a.same b = true) :
    isEventId b.toJson = isEventId a.toJson := by
  cases a with
  | number m =>
    cases b with
    | number n => rfl
    | string t => cases h
  | string s =>
    cases b with
    | number n => cases h
    | string t => rw [beq_iff_eq.mp h]

/-- **Sorting a frame finds the response that reading it finds**, if that bears an id of a call. -/
theorem message_iff_response {frame : Json} {r : Response} {id : Id}
    (hid : isEventId id.toJson = false) (hbears : r.bears id = true) :
    Message.ofJson frame = .ok r.toMessage ↔ Response.ofJson frame = .ok r := by
  cases frame with
  | object members =>
    cases r with
    | success s =>
      exact Message.ofJson_success.trans (and_iff_left ((isEventId_of_same hbears).trans hid))
    | failure f => exact Message.ofJson_failure
  | _ => exact ⟨nofun, nofun⟩

/-! ### Routing a text and posting it back -/

theorem responseIn?_eq_some {text : String} {r : Response} :
    responseIn? text = some r ↔
      ∃ frame, Json.ofText? text = some frame ∧ Message.ofJson frame = .ok r.toMessage := by
  have hmessage : ∀ m : Message, m.response? = some r ↔ m = r.toMessage := fun m => by
    cases m <;> cases r <;> simp [Message.response?, Response.toMessage]
  unfold responseIn? Message.ofText
  cases Json.ofText? text with
  | none => exact ⟨nofun, nofun⟩
  | some frame =>
    cases hm : Message.ofJson frame with
    | error e => simp [hm, Except.toOption]
    | ok m => simp [hm, Except.toOption, hmessage]

theorem Post.checkId_eq_ok {id : Id} {r r' : Response} :
    Post.checkId id r = .ok r' ↔ r = r' ∧ ∀ got, r.id? = some got → got.same id = true := by
  unfold Post.checkId
  cases r.id? with
  | none => simp
  | some got => by_cases h : got.same id = true <;> simp [h]

theorem Post.read_eq_ok {id : Id} {body : String} {r : Response} :
    Post.read id body = .ok r ↔
      ∃ frame, Json.ofText? body = some frame ∧ Response.ofJson frame = .ok r ∧
        ∀ got, r.id? = some got → got.same id = true := by
  unfold Post.read
  cases Json.ofText? body with
  | none => exact ⟨nofun, nofun⟩
  | some frame =>
    refine bind_eq_ok.trans ?_
    simp only [Post.checkId_eq_ok, Option.some.injEq, exists_eq_left']
    constructor
    · rintro ⟨_, hr, rfl, hgot⟩
      exact ⟨hr, hgot⟩
    · rintro ⟨hr, hgot⟩
      exact ⟨r, hr, rfl, hgot⟩

theorem Post.transport_eq_ok {σ : Type} {wire : Post.Wire σ} {s : σ} {call : Call} {body : String}
    (hwire : (wire s call.toJson.render).1 = .ok body) {r : Response} :
    (Post.transport wire s call).1 = .ok r ↔ Post.read call.id body = .ok r := by
  have hcarried : (Post.transport wire s call).1 = (Post.read call.id body).mapError .protocol := by
    unfold Post.transport
    rw [show wire s call.toJson.render = (.ok body, _) from Prod.ext hwire rfl]
  rw [hcarried, mapError_eq_ok]

/-- **A text is a response to an id on a line if it is one over HTTP that bears an id.** -/
theorem responseTo?_iff_read {id : Id} (hid : isEventId id.toJson = false) {text : String}
    {r : Response} :
    Exchange.responseTo? id text = some r ↔
      Post.read id text = .ok r ∧ r.bears id = true := by
  refine Option.filter_eq_some_iff.trans (and_congr_left fun hbears => ?_)
  have hgot : ∀ got, r.id? = some got → got.same id = true := fun got h => by
    rw [h] at hbears
    exact Id.same_symm hbears
  rw [responseIn?_eq_some, Post.read_eq_ok]
  simp only [message_iff_response hid hbears, and_iff_left hgot]

namespace Exchange

/-! ### One reply to a call -/

/-- The text of the frame that an input brings. -/
def Input.frame? : Input → Option String
  | .frame text => some text
  | _ => none

theorem firstResponse?_eq (id : Id) (inputs : List Input) :
    firstResponse? id inputs = (inputs.filterMap Input.frame?).findSome? (responseTo? id) := by
  induction inputs with
  | nil => rfl
  | cons i rest ih =>
    rw [firstResponse?, List.findSome?_cons]
    cases i with
    | frame text =>
      rw [List.filterMap_cons_some (f := Input.frame?) (b := text) rfl, List.findSome?_cons, ← ih]
      rfl
    | _ => exact ih

theorem verdict?_eq_ok {id : Id} {timeout : Nat} {since : List Input} {r : Response} :
    verdict? id timeout since = some (.ok r) ↔ firstResponse? id since = some r := by
  unfold verdict?
  cases firstResponse? id since with
  | some r' => simp
  | none => by_cases hlate : timeout ≤ elapsed since <;> simp [hlate]

section OneFrame

variable {id : Id} {text : String} {since : List Input} (hid : isEventId id.toJson = false)
  (hframe : since.filterMap Input.frame? = [text])

include hid hframe

theorem verdict?_iff_read (timeout : Nat) {r : Response} :
    verdict? id timeout since = some (.ok r) ↔
      Post.read id text = .ok r ∧ r.bears id = true := by
  rw [verdict?_eq_ok, firstResponse?_eq, hframe, List.findSome?_singleton,
    responseTo?_iff_read hid]

theorem verdict?_of_unread (hno : ∀ r, Post.read id text = .ok r → r.bears id = false)
    (timeout : Nat) :
    verdict? id timeout since =
      if timeout ≤ elapsed since then some (.error (.transport (.responseTimeout timeout)))
      else none := by
  have hnone : firstResponse? id since = none := by
    refine Option.eq_none_iff_forall_ne_some.mpr fun r h => ?_
    obtain ⟨hr, hbears⟩ := (verdict?_iff_read hid hframe timeout).mp (verdict?_eq_ok.mpr h)
    exact absurd hbears (Bool.eq_false_iff.mp (hno r hr))
  rw [verdict?, hnone]

end OneFrame

/-- **A call has one reply, over HTTP and on a line.**  The text of a reply is posted back to the
call, or it is the only frame since the call was made on a line:

* If what is posted back bears the id of the call, the call ends on the line with the same response.
* In any other case it ends on the line when its time is up.
* Neither ends with a success that bears another id. -/
theorem transports_agree {timeout : Nat} {before since : List Input} {call : Call}
    {n : Json.Number} {text : String} {σ : Type} {wire : Post.Wire σ} {s : σ}
    (hid : call.id = .number n)
    (hfresh : FreshRun { timeout } (before ++ .call call :: since))
    (hframe : since.filterMap Input.frame? = [text])
    (hwire : (wire s call.toJson.render).1 = .ok text) :
    let k := (run { timeout } before).1.callers.length
    let inputs := before ++ .call call :: since
    let posted := (Post.transport wire s call).1
    (∀ r, posted = .ok r → r.bears call.id = true → ∀ i o,
      .done k o ∈ ((run { timeout } inputs).1.step i).2 ↔
        i = .resume k ∧ ¬Ended { timeout } k inputs ∧ o = .response r) ∧
    ((∀ r, posted = .ok r → r.bears call.id = false) → ∀ i o,
      .done k o ∈ ((run { timeout } inputs).1.step i).2 ↔
        i = .resume k ∧ ¬Ended { timeout } k inputs ∧ timeout ≤ elapsed since ∧
          o = .failed (.transport (.responseTimeout timeout))) ∧
    (∀ r, posted = .ok (.success r) → r.id.same call.id = true) ∧
    (∀ i r, .done k (.response (.success r)) ∈ ((run { timeout } inputs).1.step i).2 →
      r.id.same call.id = true) := by
  intro k inputs posted
  have hevent : isEventId call.id.toJson = false := by rw [hid]; rfl
  have hposted : ∀ r, posted = .ok r ↔ Post.read call.id text = .ok r := fun r =>
    Post.transport_eq_ok hwire
  have hcalled : Called { timeout } inputs k _ since := ⟨before, .call call, rfl, rfl, rfl⟩
  -- the outcome depends on the frames and the time since the call only
  have hdone : ∀ i o, .done k o ∈ ((run { timeout } inputs).1.step i).2 ↔
      i = .resume k ∧ ¬Ended { timeout } k inputs ∧
        ∃ result, verdict? call.id timeout since = some result ∧ o = .ofResult result :=
    fun i o => hcalled.done_mem_step (matched_start timeout) hfresh
  refine ⟨fun r hr hbears i o => ?_, fun hno i o => ?_, fun r hr => ?_, fun i r hr => ?_⟩
  · rw [hdone, (verdict?_iff_read hevent hframe timeout).mpr ⟨(hposted r).mp hr, hbears⟩]
    simp [Outcome.ofResult]
  · rw [hdone, verdict?_of_unread hevent hframe fun r hr => hno r ((hposted r).mpr hr)]
    by_cases hlate : timeout ≤ elapsed since <;> simp [hlate, Outcome.ofResult]
  · obtain ⟨_, -, -, hgot⟩ := Post.read_eq_ok.mp ((hposted _).mp hr)
    exact hgot r.id rfl
  · obtain ⟨-, -, result, hverdict, ho⟩ := (hdone i _).mp hr
    cases result with
    | ok r' =>
      obtain rfl := Outcome.response.inj ho
      exact Id.same_symm ((verdict?_iff_read hevent hframe timeout).mp hverdict).2
    | error e => cases ho

/-- A wire that brings back one and the same response. -/
def wireOf (r : Response) : Post.Wire Unit :=
  fun s _ => (.ok r.toJson.render, s)

/-- The node answers the first call of a client. -/
def firstReply : Response :=
  .success { id := .ofNat 1, result := .array [] }

/-- The node could not tell which call it answers. -/
def replyToNone : Response :=
  .failure { id := none, fault := { code := -32700, message := "Parse error", data := none } }

/-- A reply to a call ends it on a line as over HTTP; one without an id ends it over HTTP only. -/
theorem first_call_ends_alike :
    ((Post.transport (wireOf firstReply) () Client.firstCall).1 = .ok firstReply ∧
      .done 0 (.response firstReply) ∈
        ((run { timeout := 10 }
          [.call Client.firstCall, .respond firstReply]).1.step (.resume 0)).2) ∧
    (Post.transport (wireOf replyToNone) () Client.firstCall).1 = .ok replyToNone ∧
      .done 0 (.failed (.transport (.responseTimeout 10))) ∈
        ((run { timeout := 10 }
          [.call Client.firstCall, .respond replyToNone, .advance 10]).1.step (.resume 0)).2 := by
  have hfirst : FreshRun { timeout := 10 }
      ([] ++ .call Client.firstCall :: [.respond firstReply]) :=
    freshRun_start 10 (by decide)
  have hnone : FreshRun { timeout := 10 }
      ([] ++ .call Client.firstCall :: [.respond replyToNone, .advance 10]) :=
    freshRun_start 10 (by decide)
  have hopen : ∀ r : Response, ¬Ended { timeout := 10 } 0
      [.call Client.firstCall, .respond r, .advance 10] := by
    rintro r (⟨h, -⟩ | ⟨-, h | ⟨o, ho⟩⟩ | ⟨-, h | ⟨o, ho⟩⟩ | h)
    · cases h
    · cases h
    · cases ho
    · cases h
    · cases ho
    · exact h
  have hposted : ∀ r : Response, ((wireOf r) () Client.firstCall.toJson.render).1 =
      .ok r.toJson.render := fun _ => rfl
  refine ⟨⟨rfl, ?_⟩, rfl, ?_⟩
  · refine ((transports_agree rfl hfirst rfl (hposted firstReply)).1 firstReply rfl rfl _ _).mpr
      ⟨rfl, fun h => hopen firstReply ?_, rfl⟩
    exact ended_append.mpr (.inl h)
  · refine ((transports_agree rfl hnone rfl (hposted replyToNone)).2.1 ?_ _ _).mpr
      ⟨rfl, hopen replyToNone, Nat.le_refl 10, rfl⟩
    rintro r hr
    obtain rfl := Except.ok.inj hr
    rfl

end Exchange
end NodeClient
