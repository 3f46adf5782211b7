import NodeClient.Proofs.Client
import NodeClient.Proofs.Schema.Parts

/-!
# Status — the version of a node, read before its family is known and after

A client looks the version up in the raw answer to its first call, since no format is chosen yet.
The format of the answer finds it by a different way, through the checks of the whole payload.  Both
come to the same, so that a status that is read names the version that its family was chosen by.

* `gives_nonempty_text`: fields with a text that must not be empty.
* `status_version`: the version in a status that is read.
* `status_names_version`: both ways compared.
-/

namespace NodeClient

open Schema

/-! ### The version in a status -/

theorem gives_nonempty_text {label : String} {source : Source} {found : Option Json} {s : String}
    (h : (Presence.nonempty label).Gives Chain.text source found s) :
    found = some (.string s) ∧ s ≠ "" := by
  obtain ⟨w, hw, hread⟩ := h
  obtain ⟨-, rfl⟩ | ⟨v, u, rfl, -, hu, rfl⟩ := slot_eq_ok.mp hw
  · cases hread
  · obtain ⟨⟨⟩, hcheck, rfl⟩ := map_eq_ok.mp hu
    cases v with
    | string t =>
      by_cases ht : t = ""
      · subst ht
        cases hread
      · rw [Presence.read_some _ _ fun heq => ht (Json.string.inj heq)] at hread
        obtain rfl : t = s := Except.ok.inj hread
        exact ⟨rfl, ht⟩
    | _ => cases hcheck

theorem nodeInfo_version {source : Source} {info : List (String × Json)} {node : NodeInfo}
    (hordered : (Json.object info).Ordered)
    (h : Chain.nodeInfo.Denotes source (.object info) node) :
    Json.lookup "version" info = some (.string node.version) ∧ node.version ≠ "" := by
  obtain ⟨source', version, hgives, rfl⟩ := record_gives
    (R := fun (node : NodeInfo) version => node.version = version) (by decide) hordered
    (.field (by decide) (.field (by decide) (.field (by decide)
      (.last (by intro _ _ _ _ _ _ _; rfl))))) h
  obtain ⟨hfound, hne⟩ := gives_nonempty_text hgives
  refine ⟨?_, hne⟩
  rw [← hfound]
  cases hlookup : Json.lookup "version" info <;> simp [Layout.look, hlookup]

/-- What a node says about itself stands in its status. -/
theorem status_version {source : Source} {members info : List (String × Json)} {status : NodeStatus}
    (hordered : (Json.object members).Ordered)
    (hinfo : Json.lookup "node_info" members = some (.object info))
    (h : Chain.status.Denotes source (.object members) status) :
    Client.Reports (.object members) status.nodeInfo.version ∧ status.nodeInfo.version ≠ "" := by
  obtain ⟨source', node, hgives, rfl⟩ := record_gives
    (R := fun (status : NodeStatus) node => status.nodeInfo = node) (by decide) hordered
    (.field (by decide) (.field (by decide) (.last (by intro _ _ _; rfl)))) h
  obtain ⟨v, hfound, -, hnode⟩ := gives_required.mp hgives
  obtain rfl : .object info = v := by simpa [Layout.look, hinfo] using hfound
  obtain ⟨hversion, hne⟩ := nodeInfo_version (hordered.lookup hinfo) hnode
  refine ⟨?_, hne⟩
  rw [Client.Reports, Json.get?_object, hinfo]
  exact hversion

/-! ### Both ways -/

/-- **A status that is read names the version that its family was chosen by.**  Take an answer to
`status` that is an object, with an object for what the node says about itself.

* If a value is read of it, in whichever family, then the raw version is the one in this value, and
  it is not empty.
* If there is no raw version, nothing is read of it either.
* So a client that is started by an answer of which it reads a value has the family for the version
  in this value, or is refused for this version. -/
theorem status_names_version (family : Family) (members info : List (String × Json))
    (hordered : (Json.object members).Ordered)
    (hinfo : Json.lookup "node_info" members = some (.object info)) :
    (∀ status : NodeStatus, (Method.status.format family).decode (.object members) = .ok status →
      nodeVersion (.object members) = .ok status.nodeInfo.version ∧
        status.nodeInfo.version ≠ "") ∧
    (∀ e, nodeVersion (.object members) = .error e →
      ∃ e', (Method.status.format family).decode (.object members) = .error e') ∧
    ∀ (id : Id) (status : NodeStatus),
      Client.reply family .status (.success { id, result := .object members }) = .ok status →
        Client.ofStatus (.success { id, result := .object members }) =
          (Client.familyFor status.nodeInfo.version).map fun family => { family, nextId := 2 } := by
  have hread : ∀ status : NodeStatus,
      (Method.status.format family).decode (.object members) = .ok status →
        nodeVersion (.object members) = .ok status.nodeInfo.version ∧
          status.nodeInfo.version ≠ "" := fun status hstatus => by
    obtain ⟨hreports, hne⟩ := status_version hordered hinfo (decode_eq_ok.mp hstatus)
    exact ⟨Client.nodeVersion_eq_ok.mpr ⟨hreports, hne⟩, hne⟩
  refine ⟨hread, fun e he => ?_, fun id status hreply => ?_⟩
  · cases hstatus : (Method.status.format family).decode (.object members) with
    | error e' => exact ⟨e', rfl⟩
    | ok status =>
      rw [(hread status hstatus).1] at he
      cases he
  · have hversion := (hread status (mapError_eq_ok.mp hreply)).1
    show (((nodeVersion (.object members)).mapError ClientError.decode).bind _) = _
    rw [hversion]
    rfl

/-- A status of a node of the newer family. -/
def sampleStatus : List (String × Json) :=
  [("node_info", .object [("channels", .string "40"), ("id", .string "AB"),
      ("listen_addr", .string "0.0.0.0:26656"), ("moniker", .string "node"),
      ("network", .string "chain"), ("other", .object []), ("version", .string "0.31.1")]),
    ("sync_info", .object [("catching_up", .bool false), ("latest_app_hash", .string "00"),
      ("latest_block_hash", .string "01"), ("latest_block_height", .string "5"),
      ("latest_block_time", .string "2019-04-01T13:36:00Z")]),
    ("validator_info", .object [("address", .string "AB"),
      ("pub_key", .object [("type", .string Chain.ed25519Type), ("value", .string "AQ==")]),
      ("voting_power", .string "10")])]

/-- The status that is read names the version with which its family was chosen. -/
theorem sample_status_names_version :
    ∃ status, (Method.status.format .v031).decode (.object sampleStatus) = .ok status ∧
      nodeVersion (.object sampleStatus) = .ok status.nodeInfo.version ∧
      Client.ofStatus (.success { id := .ofNat 1, result := .object sampleStatus }) =
        .ok { family := .v031, nextId := 2 } := by
  have hordered : (Json.object sampleStatus).Ordered := by
    simp only [sampleStatus, Json.Ordered, Json.OrderedMembers]
    decide
  obtain ⟨hread, -, hclient⟩ := status_names_version .v031 sampleStatus _ hordered rfl
  exact ⟨_, rfl, (hread _ rfl).1, (hclient (.ofNat 1) _ rfl).trans rfl⟩

end NodeClient
