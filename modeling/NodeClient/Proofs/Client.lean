import NodeClient.Client.Canned
import NodeClient.Proofs.Version

/-!
# Clients — what the calls of a client come to

A client is known by its family and the number of its calls.  Its transport is any function with a
state of its own, so that nothing is assumed of what it answers; `carry` is what it answers to
calls one after the other.

* `ofStatus_eq_ok`: the answers to the first call that start a client.
* `answered`: what a client makes of the response to a request.
* `askAll_eq`: the calls of a client, and what it makes of the responses.
* `run_determined`: the run of a client is determined by its requests, the answers of the transport
  and the version that was seen first.
-/

namespace NodeClient
namespace Client

/-! ### The start -/

/-- The node reports this version in its status. -/
def Reports (status : Json) (version : String) : Prop :=
  ((status.get? "node_info").bind fun info => info.get? "version") = some (.string version)

theorem nodeVersion_eq_ok {status : Json} {version : String} :
    nodeVersion status = .ok version ↔ Reports status version ∧ version ≠ "" := by
  unfold nodeVersion Reports
  cases (status.get? "node_info").bind fun info => info.get? "version" with
  | none => simp
  | some v =>
    cases v with
    | string found =>
      rw [Option.bind_some, Json.string?, Option.some.injEq, Json.string.injEq]
      dsimp only
      split
      · next h => exact ⟨nofun, fun hfound => absurd (hfound.1.symm.trans h) hfound.2⟩
      · next h =>
        rw [Except.ok.injEq]
        exact ⟨fun heq => ⟨heq, heq ▸ h⟩, And.left⟩
    | _ => simp [Json.string?]

theorem familyFor_eq_ok {version : String} {family : Family} :
    familyFor version = .ok family ↔
      ∃ row ∈ VersionTable.known, row.1.toList <+: version.toList ∧ row.2 = family := by
  rw [← VersionTable.familyOf?_eq_some VersionTable.checkRows_known, familyFor,
    VersionTable.check_known]
  cases VersionTable.known.familyOf? version <;> simp

theorem resultOf_eq_ok {response : Response} {result : Json} :
    resultOf response = .ok result ↔ ∃ s, response = .success s ∧ s.result = result := by
  cases response <;> simp [resultOf]

/-- **The answers that start a client**: successes that report a version with a known beginning. -/
theorem ofStatus_eq_ok {response : Response} {client : Client} :
    ofStatus response = .ok client ↔
      ∃ success version row, response = .success success ∧ Reports success.result version ∧
        version ≠ "" ∧ row ∈ VersionTable.known ∧ row.1.toList <+: version.toList ∧
        client = { family := row.2, nextId := 2 } := by
  simp only [ofStatus, bind_eq_ok, resultOf_eq_ok, mapError_eq_ok, nodeVersion_eq_ok,
    familyFor_eq_ok]
  constructor
  · rintro ⟨_, ⟨success, rfl, rfl⟩, version, ⟨hreports, hne⟩, _, ⟨row, hrow, hstarts, rfl⟩, hclient⟩
    exact ⟨success, version, row, rfl, hreports, hne, hrow, hstarts, (Except.ok.inj hclient).symm⟩
  · rintro ⟨success, version, row, rfl, hreports, hne, hrow, hstarts, rfl⟩
    exact ⟨_, ⟨success, rfl, rfl⟩, version, ⟨hreports, hne⟩, _, ⟨row, hrow, hstarts, rfl⟩, rfl⟩

/-! ### Calls -/

/-- A request with what it came to. -/
abbrev Answered : Type :=
  (request : Request) × Except ClientError request.method.Reply

/-- What a client makes of what its transport brought back: an error as it is, a fault with all that
the node says, and a result as the payload of the method. -/
def answered (family : Family) (request : Request) (response : Except ClientError Response) :
    Answered :=
  ⟨request,
    match response with
    | .error e => .error e
    | .ok (.failure f) => .error (.fault f.fault)
    | .ok (.success s) => ((request.method.format family).decode s.result).mapError .decode⟩

variable {σ : Type}

/-- What a transport answers to calls, one after the other. -/
def carry (execute : Transport σ) (s : σ) : List Call → List (Except ClientError Response) × σ
  | [] => ([], s)
  | call :: rest =>
    let (response, s) := execute s call
    let (others, s) := carry execute s rest
    (response :: others, s)

/-- Makes requests, one after the other. -/
def askAll (execute : Transport σ) (client : Client) (s : σ) :
    List Request → List Answered × Client × σ
  | [] => ([], client, s)
  | request :: rest =>
    let (reply, client, s) := client.ask execute s request
    let (others, client, s) := client.askAll execute s rest
    (⟨request, reply⟩ :: others, client, s)

/-- The calls for these requests, with the ids from `first` on. -/
def numbered (first : Nat) (requests : List Request) : List Call :=
  requests.mapIdx fun k request => request.toCall (.ofNat (first + k))

theorem numbered_cons (first : Nat) (request : Request) (rest : List Request) :
    numbered first (request :: rest) = request.toCall (.ofNat first) :: numbered (first + 1) rest := by
  rw [numbered, List.mapIdx_cons]
  simp only [numbered, Nat.add_zero, Nat.add_assoc, Nat.add_comm 1]

theorem bind_reply (family : Family) (request : Request) (response : Except ClientError Response) :
    (⟨request, response.bind (reply family request.method)⟩ : Answered) =
      answered family request response := by
  rcases response with e | s | f <;> rfl

/-- **The calls of a client** bear one number after the other, whatever is answered, and each is
answered by itself. -/
theorem askAll_eq (execute : Transport σ) (client : Client) (s : σ) (requests : List Request) :
    let responses := carry execute s (numbered client.nextId requests)
    client.askAll execute s requests =
      (requests.zipWith (answered client.family) responses.1,
        { client with nextId := client.nextId + requests.length }, responses.2) := by
  induction requests generalizing client s with
  | nil => rfl
  | cons request rest ih =>
    have hrest := ih { client with nextId := client.nextId + 1 }
      (execute s (request.toCall (.ofNat client.nextId))).2
    simp only [askAll, ask, call, numbered_cons, carry, bind_reply, hrest, List.zipWith_cons_cons,
      List.length_cons, Nat.add_assoc, Nat.add_comm 1]

/-! ### Records -/

/-- A transport that also keeps the calls that it carries. -/
def recording (execute : Transport σ) : Transport (σ × List Call) := fun s call =>
  let (response, t) := execute s.1 call
  (response, t, s.2 ++ [call])

theorem carry_recording (execute : Transport σ) (s : σ) (calls later : List Call) :
    carry (recording execute) (s, calls) later =
      ((carry execute s later).1, (carry execute s later).2, calls ++ later) := by
  induction later generalizing s calls with
  | nil => simp [carry]
  | cons call rest ih => simp [carry, recording, ih]

/-! ### Runs -/

/-- A number that fits into 64 bits is the id itself. -/
theorem ofNat_of_lt {n : Nat} (h : n < UInt64.size) :
    ∃ range, Id.ofNat n = .number (.integer n range) := by
  have hid : ∀ m range, m = (n : Int) →
      ∃ range', Id.number (.integer m range) = .number (.integer n range') := by
    rintro _ range rfl
    exact ⟨range, rfl⟩
  exact hid _ _ (congrArg Int.ofNat (UInt64.toNat_ofNat_of_lt' h))

/-- **The run of a client is determined by its requests, the answers of the transport and the
version that was seen first.**  For any transport, in any state:

* The first call asks for the status, with the id 1 and no arguments.  The start makes this call
  only, and it succeeds if and only if the answer is a success that reports a version with a known
  beginning, which is that of the family.
* From then on the client makes one call for each request, with its method and its arguments and
  the next id, also after calls that failed and after answers that report another version.
* What a request comes to is what the client makes of the answer to its call, in the family that was
  chosen at the start. -/
theorem run_determined {σ : Type} (execute : Transport σ) (s : σ) :
    let response := (execute s firstCall).1
    let begun := (execute s firstCall).2
    (∃ range, firstCall =
      { id := .number (.integer 1 range), method := "status", params := .object [] }) ∧
    (start execute s).2 = begun ∧
    (start (recording execute) (s, [])).2 = (begun, [firstCall]) ∧
    (∀ client, (start execute s).1 = .ok client ↔
      ∃ success version row, response = .ok (.success success) ∧ Reports success.result version ∧
        version ≠ "" ∧ row ∈ VersionTable.known ∧ row.1.toList <+: version.toList ∧
        client = { family := row.2, nextId := 2 }) ∧
    (∀ n < UInt64.size, ∃ range, Id.ofNat n = .number (.integer n range)) ∧
    ∀ client, (start execute s).1 = .ok client → ∀ requests : List Request,
      let calls := requests.mapIdx fun k request =>
        { id := .ofNat (k + 2), method := request.method.name, params := request.params }
      let answers := requests.zipWith (answered client.family) (carry execute begun calls).1
      let later := { client with nextId := requests.length + 2 }
      client.askAll execute begun requests = (answers, later, (carry execute begun calls).2) ∧
      client.askAll (recording execute) (begun, [firstCall]) requests =
        (answers, later, (carry execute begun calls).2, firstCall :: calls) := by
  intro response begun
  have hstart : ∀ client, (start execute s).1 = .ok client ↔ _ := fun client =>
    show response.bind ofStatus = .ok client ↔ _ from bind_eq_ok
  refine ⟨⟨_, rfl⟩, rfl, rfl, fun client => ?_, fun n => ofNat_of_lt,
    fun client hclient requests => ?_⟩
  · rw [hstart]
    simp only [ofStatus_eq_ok]
    constructor
    · rintro ⟨_, hresponse, success, version, row, rfl, hrow⟩
      exact ⟨success, version, row, hresponse, hrow⟩
    · rintro ⟨success, version, row, hresponse, hrow⟩
      exact ⟨_, hresponse, success, version, row, rfl, hrow⟩
  · intro calls answers later
    have htwo : client.nextId = 2 := by
      obtain ⟨_, -, hstatus⟩ := (hstart client).mp hclient
      obtain ⟨success, version, row, -, -, -, -, -, rfl⟩ := ofStatus_eq_ok.mp hstatus
      rfl
    have hcalls : numbered client.nextId requests = calls := by
      simp only [numbered, htwo, Nat.add_comm 2]
      rfl
    constructor
    · rw [askAll_eq, hcalls, htwo, Nat.add_comm 2]
    · rw [askAll_eq, hcalls, carry_recording, htwo, Nat.add_comm 2]
      rfl

/-- The part of a status that a version is chosen from. -/
def statusOf (version : String) : Json :=
  .object [("node_info", .object [("version", .string version)])]

/-- An older node that refuses the next call and then reports the version of a newer one. -/
def upgradedNode : Canned.State where
  replies :=
    [.result (statusOf "0.29.1"),
      .frame (.object [("error", .object [("code", .ofInt64 (-32603)), ("data", .null),
        ("message", .string "no")]), ("id", .ofInt64 2), ("jsonrpc", .string "2.0")]),
      .result (statusOf "0.31.0"),
      .result (.object [("block_height", .string "5"), ("validators", .array [.object
        [("accum", .string "-20"), ("address", .string "AB"),
          ("pub_key", .object [("type", .string Chain.ed25519Type), ("value", .string "AQ==")]),
          ("voting_power", .string "10")]])])]
  calls := []

/-- The client goes on to read the validators as older nodes report them. -/
theorem first_version_counts :
    let client : Client := { family := .v029, nextId := 2 }
    let requests : List Request := [.health, .status, .validators none]
    (start Canned.transport upgradedNode).1 = .ok client ∧
      ((client.askAll Canned.transport (start Canned.transport upgradedNode).2 requests).1.map
        fun a => (a.1.method.name, a.2.toBool)) =
          [("health", false), ("status", false), ("validators", true)] := by
  intro client requests
  obtain ⟨-, hbegun, -, -, -, hruns⟩ := run_determined Canned.transport upgradedNode
  have hstart : (start Canned.transport upgradedNode).1 = .ok client := rfl
  obtain ⟨hrun, -⟩ := hruns client hstart requests
  refine ⟨hstart, ?_⟩
  rw [hbegun, hrun]
  rfl

end Client
end NodeClient
