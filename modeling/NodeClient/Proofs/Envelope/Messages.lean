import NodeClient.Proofs.Envelope.Responses

/-!
# Messages — which frames are events

`Message.ofJson` takes any frame of a node, `Response.ofJson` and `Event.ofJson` those of one kind.
They check the same members in different orders, and still no frame is read in two ways.

* `EventShaped`: what makes a frame an event, for every value.
* `message_of_not_eventShaped`: any other frame is read as a response is, with the same error.
* `message_of_eventShaped`: an event is read as an event is, with the same error.
* `Event.resultFrame`, `Event.noticeFrame`: the two forms in which a node sends one event.
-/

namespace NodeClient

open Json (lookup)

/-! ### The shape of an event -/

/-- The frame has no error, and its id has the ending of events or it has a method and no id.  A
value that is not an object has no members. -/
def EventShaped (frame : Json) : Prop :=
  frame.get? "error" = none ∧
    ((∃ s, frame.get? "id" = some (.string (s ++ eventIdSuffix))) ∨
      (frame.get? "id" = none ∧ (frame.get? "method").isSome))

theorem isEventId_iff {id : Json} : isEventId id ↔ ∃ s, id = .string (s ++ eventIdSuffix) := by
  cases id with
  | string t =>
    show eventIdSuffix.toList.isSuffixOf t.toList = true ↔ _
    rw [List.isSuffixOf_iff_suffix]
    constructor
    · rintro ⟨front, h⟩
      refine ⟨String.ofList front, congrArg Json.string (String.toList_injective ?_)⟩
      rw [String.toList_append, String.toList_ofList, h]
    · rintro ⟨s, h⟩
      obtain rfl := Json.string.inj h
      exact ⟨s.toList, String.toList_append.symm⟩
  | _ => simp [isEventId]

theorem isEventFrame_iff {members : List (String × Json)} :
    isEventFrame members ↔ (∃ s, lookup "id" members = some (.string (s ++ eventIdSuffix))) ∨
      (lookup "id" members = none ∧ (lookup "method" members).isSome) := by
  unfold isEventFrame
  cases hid : lookup "id" members with
  | none => simp
  | some id => simp [isEventId_iff]

theorem eventShaped_object {members : List (String × Json)} :
    EventShaped (.object members) ↔ lookup "error" members = none ∧ isEventFrame members := by
  rw [isEventFrame_iff]
  rfl

/-- A value with members is an object. -/
theorem EventShaped.object {frame : Json} (h : EventShaped frame) :
    ∃ members, frame = .object members := by
  cases frame with
  | object members => exact ⟨members, rfl⟩
  | _ =>
    obtain ⟨-, ⟨s, hs⟩ | ⟨-, hmethod⟩⟩ := h
    · cases hs
    · cases hmethod

/-! ### Each frame is read in one way -/

/-- Success and failure check the version before anything else. -/
theorem response_of_version {members : List (String × Json)} {e : ProtocolError}
    (hv : checkVersion members = .error e) :
    Response.ofJson (.object members) = .error e := by
  have herased : checkVersion (Json.erase "result" members) = .error e := by
    unfold checkVersion at hv ⊢
    rw [Json.lookup_erase, if_neg (by decide)]
    exact hv
  have hfailure : Failure.ofJson (.object (Json.erase "result" members)) = .error e := by
    show (checkVersion _ >>= fun _ => _) = _
    rw [herased]
    rfl
  have hsuccess : Success.ofJson (.object members) = .error e := by
    show (checkVersion _ >>= fun _ => _) = _
    rw [hv]
    rfl
  show (if (lookup "error" members).isSome then _ else _) = _
  rw [hfailure, hsuccess]
  exact ite_self _

/-- A frame that is not an event is read as a response is. -/
theorem message_of_not_eventShaped {frame : Json} (h : ¬ EventShaped frame) :
    Message.ofJson frame = (Response.ofJson frame).map Response.toMessage := by
  cases frame with
  | object members =>
    rw [eventShaped_object, not_and] at h
    show (checkVersion members >>= fun _ => _) = _
    cases hv : checkVersion members with
    | error e =>
      rw [response_of_version hv]
      rfl
    | ok u =>
      show (if (lookup "error" members).isSome then _ else _) = _
      by_cases herror : (lookup "error" members).isSome
      · exact if_pos herror
      · have hevent : ¬ isEventFrame members :=
          h (Option.not_isSome_iff_eq_none.mp herror)
        have hresponse : Response.ofJson (.object members) =
            (Success.ofJson (.object members)).map .success := if_neg herror
        rw [if_neg herror, if_neg hevent, hresponse]
        cases Success.ofJson (.object members) <;> rfl
  | _ => rfl

/-- A frame that is an event is read as an event is. -/
theorem message_of_eventShaped {frame : Json} (h : EventShaped frame) :
    Message.ofJson frame = (Event.ofJson frame).map .event := by
  obtain ⟨members, rfl⟩ := h.object
  obtain ⟨herror, hevent⟩ := eventShaped_object.mp h
  show (checkVersion members >>= fun _ => _) = _
  cases hv : checkVersion members with
  | error e =>
    have hread : Event.ofJson (.object members) = .error e := by
      show (checkVersion members >>= fun _ => _) = _
      rw [hv]
      rfl
    rw [hread]
    rfl
  | ok u =>
    show (if (lookup "error" members).isSome then _ else _) = _
    rw [herror, Option.isSome_none, if_neg nofun, if_pos hevent]

/-! ### The two forms of an event -/

/-- An event as the result of a subscription. -/
def Event.resultFrame (version : Json) (id : String) (content : Json) : Json :=
  .ofMembers [("jsonrpc", version), ("id", .string (id ++ eventIdSuffix)), ("result", content)]

/-- An event as a notification. -/
def Event.noticeFrame (version content : Json) : Json :=
  .ofMembers [("jsonrpc", version), ("method", .string eventMethod), ("params", content)]

theorem get?_resultFrame (version : Json) (id : String) (content : Json) (key : String) :
    (Event.resultFrame version id content).get? key =
      if key = "result" then some content
      else if key = "id" then some (.string (id ++ eventIdSuffix))
      else if key = "jsonrpc" then some version else none := by
  simp only [Event.resultFrame, Json.ofMembers, Json.get?_object, List.foldl_cons, List.foldl_nil,
    Json.lookup_insert, Json.lookup_nil]

theorem get?_noticeFrame (version content : Json) (key : String) :
    (Event.noticeFrame version content).get? key =
      if key = "params" then some content
      else if key = "method" then some (.string eventMethod)
      else if key = "jsonrpc" then some version else none := by
  simp only [Event.noticeFrame, Json.ofMembers, Json.get?_object, List.foldl_cons, List.foldl_nil,
    Json.lookup_insert, Json.lookup_nil]

theorem eventShaped_resultFrame (version : Json) (id : String) (content : Json) :
    EventShaped (Event.resultFrame version id content) := by
  refine ⟨?_, .inl ⟨id, ?_⟩⟩ <;> rw [get?_resultFrame] <;> simp

theorem eventShaped_noticeFrame (version content : Json) :
    EventShaped (Event.noticeFrame version content) := by
  refine ⟨?_, .inr ⟨?_, ?_⟩⟩ <;> rw [get?_noticeFrame] <;> simp

theorem parts_of_id {members : List (String × Json)} {id : String}
    (hid : lookup "id" members = some (.string (id ++ eventIdSuffix))) :
    Event.parts members = .ok (eventMethod, lookup "result" members) := by
  unfold Event.parts
  rw [hid]
  exact if_pos (isEventId_iff.mpr ⟨id, rfl⟩)

theorem parts_of_method {members : List (String × Json)} {method : String}
    (hid : lookup "id" members = none) (hmethod : lookup "method" members = some (.string method)) :
    Event.parts members = .ok (method, lookup "params" members) := by
  unfold Event.parts
  rw [hid, hmethod]
  rfl

/-- The event of a frame depends on its version and on what it has for method and parameters. -/
theorem event_congr {members others : List (String × Json)}
    (hversion : lookup "jsonrpc" members = lookup "jsonrpc" others)
    (hparts : Event.parts members = Event.parts others) :
    Event.ofJson (.object members) = Event.ofJson (.object others) := by
  have hv : checkVersion members = checkVersion others := by
    unfold checkVersion
    rw [hversion]
  show (checkVersion members >>= fun _ => Event.parts members >>= fun _ => _) =
    (checkVersion others >>= fun _ => Event.parts others >>= fun _ => _)
  rw [hv, hparts]

/-- Both forms have the same event, or the same is wrong with them. -/
theorem event_resultFrame (version : Json) (id : String) (content : Json) :
    Event.ofJson (Event.resultFrame version id content) =
      Event.ofJson (Event.noticeFrame version content) := by
  have hresult := get?_resultFrame version id content
  have hnotice := get?_noticeFrame version content
  refine event_congr ?_ ?_
  · exact (hresult "jsonrpc").trans (hnotice "jsonrpc").symm
  · have hcontent := (hresult "result").trans (hnotice "params").symm
    calc Event.parts _ = .ok (eventMethod, _) := parts_of_id (hresult "id")
      _ = .ok (eventMethod, _) := congrArg (fun found => Except.ok (eventMethod, found)) hcontent
      _ = Event.parts _ := (parts_of_method (hnotice "id") (hnotice "method")).symm

/-- **Frames are sorted by their shape alone**: a frame without the shape of an event is read as a
response, one with it as an event and never as a response, with the error that the reader of its
kind reports; and the two forms of an event are read alike. -/
theorem frames_sorted_by_shape :
    (∀ frame : Json, ¬ EventShaped frame →
      Message.ofJson frame = (Response.ofJson frame).map Response.toMessage) ∧
    (∀ frame : Json, EventShaped frame →
      Message.ofJson frame = (Event.ofJson frame).map .event ∧
        ∀ r : Response, Message.ofJson frame ≠ .ok r.toMessage) ∧
    ∀ (version : Json) (id : String) (content : Json),
      EventShaped (Event.resultFrame version id content) ∧
        EventShaped (Event.noticeFrame version content) ∧
        Event.ofJson (Event.resultFrame version id content) =
          Event.ofJson (Event.noticeFrame version content) ∧
        Message.ofJson (Event.resultFrame version id content) =
          Message.ofJson (Event.noticeFrame version content) := by
  refine ⟨fun frame h => message_of_not_eventShaped h,
    fun frame h => ⟨message_of_eventShaped h, ?_⟩, ?_⟩
  · intro r hr
    rw [message_of_eventShaped h, map_eq_ok] at hr
    obtain ⟨event, -, hevent⟩ := hr
    cases r <;> cases hevent
  · intro version id content
    have hresult := eventShaped_resultFrame version id content
    have hnotice := eventShaped_noticeFrame version content
    refine ⟨hresult, hnotice, event_resultFrame version id content, ?_⟩
    rw [message_of_eventShaped hresult, message_of_eventShaped hnotice, event_resultFrame]

/-- What an event tells of. -/
def sampleContent : Json :=
  .object [("data", .object [("type", .string "tx"), ("value", .bool true)]), ("query", .string "q")]

/-- That event. -/
def sampleEvent : Event :=
  { method := "tm.event", query := "q", kind := "tx", value := .bool true }

/-- An error makes a failure of a frame with the id of an event, and any other id a success of one
with the method of events.  Without the error it is an event, in both of its forms. -/
theorem mixed_frames_sorted :
    let refused : Json := .object [("error", .object [("code", .number (.ofInt64 (-1))),
      ("message", .string "no")]), ("id", .string "7#event"), ("jsonrpc", .string "2.0"),
      ("result", sampleContent)]
    let answered : Json := .object [("id", .string "7"), ("jsonrpc", .string "2.0"),
      ("method", .string "tm.event"), ("result", sampleContent)]
    let told := Event.resultFrame (.string "2.0") "7" sampleContent
    let noticed := Event.noticeFrame (.string "2.0") sampleContent
    let fault : Fault := { code := -1, message := "no", data := none }
    (¬ EventShaped refused ∧
        Message.ofJson refused = .ok (.failure { id := some (.string "7#event"), fault })) ∧
      (¬ EventShaped answered ∧
        Message.ofJson answered = .ok (.success { id := .string "7", result := sampleContent })) ∧
      (EventShaped told ∧ Message.ofJson told = .ok (.event sampleEvent)) ∧
      EventShaped noticed ∧ Message.ofJson noticed = .ok (.event sampleEvent) := by
  intro refused answered told noticed fault
  have hrefused : ¬ EventShaped refused := fun h => nomatch h.1
  have hanswered : ¬ EventShaped answered := by
    rintro ⟨-, ⟨s, hs⟩ | ⟨hid, -⟩⟩
    · exact absurd (isEventId_iff.mpr ⟨s, Option.some.inj hs⟩) (by decide)
    · cases hid
  obtain ⟨hplain, hevent, hforms⟩ := frames_sorted_by_shape
  obtain ⟨htold, hnoticed, -, hsame⟩ := hforms (.string "2.0") "7" sampleContent
  have hread : Message.ofJson told = .ok (.event sampleEvent) := (hevent told htold).1.trans rfl
  exact ⟨⟨hrefused, (hplain refused hrefused).trans rfl⟩,
    ⟨hanswered, (hplain answered hanswered).trans rfl⟩, ⟨htold, hread⟩, hnoticed,
    hsame.symm.trans hread⟩

end NodeClient
