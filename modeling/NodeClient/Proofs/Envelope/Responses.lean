import NodeClient.Envelope.Reader
import NodeClient.Proofs.Json.Members
import NodeClient.Proofs.Outcome

/-!
# Responses — reading and writing are inverse

A reader of the envelope takes some members of a frame and drops the rest.  For each reader one
lemma says what it accepts, in terms of the frame's members.

* `Response.kept`: the members of a frame that a response is read from.
* `response_iff_kept`: a frame is read as the response that is written as its kept part.
* `responses_read_back`: that, and every response is read back from the frame that it is written as.
-/

namespace NodeClient

open Json (lookup)

/-! ### What the readers accept -/

theorem Json.int64?_eq_some {v : Json} {n : Int64} : v.int64? = some n ↔ v = .ofInt64 n := by
  constructor
  · intro h
    cases v with
    | number m =>
      cases m with
      | integer value range =>
        simp only [Json.int64?, Number.int64?] at h
        split at h
        · next hlt =>
          obtain rfl := Option.some.inj h
          simp only [Json.ofInt64, Number.ofInt64, Int64.toInt_ofInt_of_le range.1 hlt]
        · cases h
      | double x => cases h
    | _ => cases h
  · rintro rfl
    have hlt : n.toInt < 0x8000000000000000 := n.toInt_lt
    simp only [Json.ofInt64, Json.int64?, Number.ofInt64, Number.int64?, if_pos hlt,
      Int64.ofInt_toInt]

theorem Json.string?_eq_some {v : Json} {s : String} : v.string? = some s ↔ v = .string s := by
  cases v <;> simp [Json.string?]

theorem checkVersion_eq_ok {members : List (String × Json)} :
    checkVersion members = .ok () ↔
      lookup "jsonrpc" members = some (.string envelopeVersion) := by
  unfold checkVersion
  split
  · next v hv =>
    rw [hv]
    by_cases h : v = envelopeVersion <;> simp [h]
  · next hv =>
    constructor
    · exact nofun
    · exact fun h => absurd h (hv envelopeVersion)

theorem Id.ofJson_eq_ok {found : Option Json} {id : Id} :
    Id.ofJson found = .ok id ↔ found = some id.toJson := by
  unfold Id.ofJson
  split
  · cases id <;> simp [Id.toJson]
  · cases id <;> simp [Id.toJson]
  · next hn hs =>
    constructor
    · exact nofun
    · rintro rfl
      cases id with
      | number n => exact absurd rfl (hn n)
      | string s => exact absurd rfl (hs s)

/-- The id of a failure as it is written. -/
def Failure.idJson : Option Id → Json
  | some id => id.toJson
  | none => .null

theorem Failure.idOfJson_eq_ok {found : Option Json} {id : Option Id} :
    Failure.idOfJson found = .ok id ↔ found = some (Failure.idJson id) := by
  unfold Failure.idOfJson
  split
  · cases id with
    | none => simp [Failure.idJson]
    | some id => cases id <;> simp [Failure.idJson, Id.toJson]
  · next hnull =>
    rw [map_eq_ok]
    constructor
    · rintro ⟨i, hi, rfl⟩
      exact Id.ofJson_eq_ok.mp hi
    · intro h
      cases id with
      | none => exact absurd h hnull
      | some i => exact ⟨i, Id.ofJson_eq_ok.mpr h, rfl⟩

theorem Success.ofJson_eq_ok {members : List (String × Json)} {s : Success} :
    Success.ofJson (.object members) = .ok s ↔
      lookup "jsonrpc" members = some (.string envelopeVersion) ∧
        lookup "id" members = some s.id.toJson ∧ lookup "result" members = some s.result := by
  obtain ⟨id, result⟩ := s
  show (checkVersion members >>= fun _ => _) = _ ↔ _
  simp only [bind_eq_ok, Id.ofJson_eq_ok]
  constructor
  · rintro ⟨⟨⟩, hv, i, hi, h⟩
    split at h
    · next r hr =>
      obtain ⟨rfl, rfl⟩ := Success.mk.injEq .. ▸ Except.ok.inj h
      exact ⟨checkVersion_eq_ok.mp hv, hi, hr⟩
    · cases h
  · rintro ⟨hv, hi, hr⟩
    refine ⟨(), checkVersion_eq_ok.mpr hv, id, hi, ?_⟩
    rw [hr]
    rfl

theorem Fault.ofJson_eq_ok {found : Option Json} {f : Fault} :
    Fault.ofJson found = .ok f ↔
      ∃ members, found = some (.object members) ∧
        lookup "code" members = some (.ofInt64 f.code) ∧
        lookup "message" members = some (.string f.message) ∧ lookup "data" members = f.data := by
  obtain ⟨code, message, data⟩ := f
  unfold Fault.ofJson
  split
  · next members =>
    have hcode : ∀ n, (lookup "code" members).bind Json.int64? = some n ↔
        lookup "code" members = some (.ofInt64 n) := fun n => by
      simp [Option.bind_eq_some_iff, Json.int64?_eq_some]
    have hmessage : ∀ s, (lookup "message" members).bind Json.string? = some s ↔
        lookup "message" members = some (.string s) := fun s => by
      simp [Option.bind_eq_some_iff, Json.string?_eq_some]
    constructor
    · intro h
      split at h
      · cases h
      · next n hn =>
        split at h
        · cases h
        · next s hs =>
          obtain ⟨rfl, rfl, rfl⟩ := Fault.mk.injEq .. ▸ Except.ok.inj h
          exact ⟨members, rfl, (hcode n).mp hn, (hmessage s).mp hs, rfl⟩
    · rintro ⟨_, heq, hc, hm, hd⟩
      obtain rfl := Json.object.inj (Option.some.inj heq)
      rw [(hcode code).mpr hc, (hmessage message).mpr hm, hd]
  · next hobject =>
    constructor
    · exact nofun
    · rintro ⟨members, rfl, -⟩
      exact absurd rfl (hobject members)

theorem Failure.ofJson_eq_ok {members : List (String × Json)} {f : Failure} :
    Failure.ofJson (.object members) = .ok f ↔
      lookup "jsonrpc" members = some (.string envelopeVersion) ∧
        lookup "id" members = some (Failure.idJson f.id) ∧ lookup "result" members = none ∧
        Fault.ofJson (lookup "error" members) = .ok f.fault := by
  obtain ⟨id, fault⟩ := f
  show (checkVersion members >>= fun _ => _) = _ ↔ _
  simp only [bind_eq_ok, Failure.idOfJson_eq_ok]
  constructor
  · rintro ⟨⟨⟩, hv, i, hi, h⟩
    split at h
    · cases h
    · next hr =>
      obtain ⟨g, hg, h⟩ := bind_eq_ok.mp h
      obtain ⟨rfl, rfl⟩ := Failure.mk.injEq .. ▸ Except.ok.inj h
      exact ⟨checkVersion_eq_ok.mp hv, hi, Option.not_isSome_iff_eq_none.mp hr, hg⟩
  · rintro ⟨hv, hi, hr, hf⟩
    refine ⟨(), checkVersion_eq_ok.mpr hv, id, hi, ?_⟩
    rw [hr]
    exact bind_eq_ok.mpr ⟨fault, hf, rfl⟩

/-- A frame without an error is read as a success. -/
theorem Response.ofJson_success {members : List (String × Json)} {s : Success} :
    Response.ofJson (.object members) = .ok (.success s) ↔
      lookup "error" members = none ∧ Success.ofJson (.object members) = .ok s := by
  show (if (lookup "error" members).isSome then _ else _) = _ ↔ _
  by_cases herror : (lookup "error" members).isSome
  · rw [if_pos herror, map_eq_ok]
    refine ⟨fun ⟨_, _, h⟩ => (nomatch h), fun ⟨h, _⟩ => ?_⟩
    rw [h] at herror
    cases herror
  · rw [if_neg herror, map_eq_ok]
    simp [Option.not_isSome_iff_eq_none.mp herror]

/-- A frame with an error is read as a failure, whatever result it has. -/
theorem Response.ofJson_failure {members : List (String × Json)} {f : Failure} :
    Response.ofJson (.object members) = .ok (.failure f) ↔
      (lookup "error" members).isSome ∧
        Failure.ofJson (.object (Json.erase "result" members)) = .ok f := by
  show (if (lookup "error" members).isSome then _ else _) = _ ↔ _
  by_cases herror : (lookup "error" members).isSome
  · rw [if_pos herror, map_eq_ok]
    simp [herror]
  · rw [if_neg herror, map_eq_ok]
    exact ⟨fun ⟨_, _, h⟩ => (nomatch h), fun ⟨h, _⟩ => absurd h herror⟩

/-! ### What a response keeps of its frame -/

/-- The members of a frame that a response is read from, with those of its error. -/
def Response.kept (frame : Json) : Json :=
  if (frame.get? "error").isSome then
    (frame.pick ["jsonrpc", "id", "error"]).modify "error" (Json.pick ["code", "message", "data"])
  else
    frame.pick ["jsonrpc", "id", "result"]

theorem success_iff_picked {members : List (String × Json)} {s : Success} :
    Success.ofJson (.object members) = .ok s ↔
      s.toJson = (Json.object members).pick ["jsonrpc", "id", "result"] := by
  rw [Success.ofJson_eq_ok]
  constructor
  · rintro ⟨hv, hi, hr⟩
    simp [Json.pick, Success.toJson, versionMember, hv, hi, hr]
  · intro h
    have hget : ∀ key, s.toJson.get? key = _ := fun key =>
      (congrArg (Json.get? · key) h).trans (Json.get?_pick ..)
    exact ⟨(hget "jsonrpc").symm, (hget "id").symm, (hget "result").symm⟩

theorem fault_iff_picked {v : Json} {f : Fault} :
    Fault.ofJson (some v) = .ok f ↔ f.toJson = v.pick ["code", "message", "data"] := by
  rw [Fault.ofJson_eq_ok]
  constructor
  · rintro ⟨members, hv, hc, hm, hd⟩
    obtain rfl := Option.some.inj hv
    cases hdata : f.data <;> simp [Json.pick, Fault.toJson, hc, hm, hd, hdata]
  · intro h
    cases v with
    | object members =>
      have hget : ∀ key, f.toJson.get? key = _ := fun key =>
        (congrArg (Json.get? · key) h).trans (Json.get?_pick ..)
      refine ⟨members, rfl, (hget "code").symm, (hget "message").symm, ?_⟩
      refine Eq.trans (hget "data").symm ?_
      cases hdata : f.data <;> simp [Json.get?, Fault.toJson, Json.lookup_cons, hdata]
    | _ => cases h

theorem failure_iff_picked {members : List (String × Json)} {f : Failure}
    (herror : (lookup "error" members).isSome) :
    Failure.ofJson (.object (Json.erase "result" members)) = .ok f ↔
      f.toJson = ((Json.object members).pick ["jsonrpc", "id", "error"]).modify "error"
        (Json.pick ["code", "message", "data"]) := by
  obtain ⟨v, hv⟩ := Option.isSome_iff_exists.mp herror
  simp only [Failure.ofJson_eq_ok, Json.lookup_erase, reduceIte, true_and, String.reduceEq]
  rw [hv, fault_iff_picked]
  constructor
  · rintro ⟨hversion, hid, hf⟩
    obtain ⟨id, fault⟩ := f
    cases id <;>
      simp_all [Json.pick, Json.modify, Failure.toJson, Failure.idJson, versionMember]
  · intro h
    have hget : ∀ key, f.toJson.get? key = _ := fun key =>
      (congrArg (Json.get? · key) h).trans (Json.get?_modify ..)
    simp only [Json.get?_pick] at hget
    refine ⟨(hget "jsonrpc").symm, ?_, ?_⟩
    · refine Eq.trans (hget "id").symm ?_
      obtain ⟨⟨⟩ | id, fault⟩ := f <;> rfl
    · have herr := hget "error"
      simp only [Json.get?, hv] at herr
      exact Option.some.inj herr

/-- A frame is read as the response that is written as what the response keeps of the frame. -/
theorem response_iff_kept (frame : Json) (r : Response) :
    Response.ofJson frame = .ok r ↔ r.toJson = Response.kept frame := by
  cases frame with
  | object members =>
    show _ ↔ r.toJson = if (lookup "error" members).isSome then _ else _
    cases herror : lookup "error" members with
    | some v =>
      rw [Option.isSome_some, if_pos rfl]
      have hsome : (lookup "error" members).isSome := herror ▸ rfl
      cases r with
      | failure f =>
        rw [Response.ofJson_failure, failure_iff_picked hsome]
        exact and_iff_right hsome
      | success s =>
        -- what is kept has an error, and a success is not written with one
        rw [Response.ofJson_success, herror]
        refine ⟨fun ⟨h, _⟩ => (nomatch h), fun h => ?_⟩
        have hget := congrArg (Json.get? · "error") h
        simp only [Json.get?_modify, Json.get?_pick, Json.get?_object, herror] at hget
        cases hget
    | none =>
      rw [Option.isSome_none, if_neg nofun]
      cases r with
      | success s =>
        rw [Response.ofJson_success, success_iff_picked]
        exact and_iff_right herror
      | failure f =>
        rw [Response.ofJson_failure, herror]
        refine ⟨fun ⟨h, _⟩ => (nomatch h), fun h => ?_⟩
        have hget := congrArg (Json.get? · "error") h
        simp only [Json.get?_pick] at hget
        cases hget
  | _ => cases r <;> exact ⟨nofun, nofun⟩

/-- The frame that a response is written as has nothing else. -/
theorem kept_toJson (r : Response) : Response.kept r.toJson = r.toJson := by
  cases r with
  | success s => rfl
  | failure f => obtain ⟨id, code, message, ⟨⟩ | data⟩ := f <;> rfl

/-- **Reading and writing a response are inverse**: a frame is read as exactly the response that is
written as what the response keeps of it, and every response is read back from its own frame. -/
theorem responses_read_back :
    (∀ (frame : Json) (r : Response),
      Response.ofJson frame = .ok r ↔ r.toJson = Response.kept frame) ∧
    ∀ r : Response, Response.ofJson r.toJson = .ok r :=
  ⟨response_iff_kept, fun r => (response_iff_kept _ r).mpr (kept_toJson r).symm⟩

end NodeClient
