import NodeClient.Chain.Results
import NodeClient.Proofs.Schema.Forgetting
import NodeClient.Proofs.Schema.Ignored

/-!
# Payloads — answers and events with members that are missing or that do not count

What holds of formats in general, for the answers to all methods and the events of all topics, in
both families.  That the formats hold together (`Format.isSound`) is computed.

* `omitted_fields_named_or_forgotten`: a payload without one field.
* `ignored_members_invisible`: payloads that differ in members under unknown keys and in `null`s.
-/

namespace NodeClient

open Schema

/-! ### Missing fields -/

theorem Method.format_isSound (family : Family) (method : Method) :
    (method.format family).isSound = true := by
  cases family <;> cases method <;> decide +kernel

theorem Topic.format_isSound (family : Family) (topic : Topic) :
    (topic.format family).isSound = true := by
  cases family <;> cases topic <;> decide +kernel

/-- **Fields are needed exactly as they are declared.**  Take a payload in which all records are
objects, and from which a value is read.  Without one field of one record in it, at any depth,
decoding fails with the label of the field if this must be there; otherwise it gives the same value,
save that the field is missing from it. -/
theorem omitted_fields_named_or_forgotten (family : Family) :
    (∀ (method : Method) (v : Json) (r : method.Reply) (place : List Json.Spot),
      (method.format family).keyed v = true → (method.format family).decode v = .ok r →
        (∀ label, (method.format family).need place v = some (.required label) →
          (method.format family).decode (v.remove place) = .error (.missing label)) ∧
        ((method.format family).need place v = some .optional →
          ∃ r', (method.format family).decode (v.remove place) = .ok r' ∧
            (method.format family).Forgets place r r')) ∧
    ∀ (topic : Topic) (v : Json) (r : topic.Payload) (place : List Json.Spot),
      (topic.format family).keyed v = true → (topic.format family).decode v = .ok r →
        (∀ label, (topic.format family).need place v = some (.required label) →
          (topic.format family).decode (v.remove place) = .error (.missing label)) ∧
        ((topic.format family).need place v = some .optional →
          ∃ r', (topic.format family).decode (v.remove place) = .ok r' ∧
            (topic.format family).Forgets place r r') := by
  refine ⟨fun method v r place hkeyed hr => ?_, fun topic v r place hkeyed hr => ?_⟩
  · have hsound := method.format_isSound family
    exact ⟨fun label hneed => Format.decode_remove hsound hkeyed hr hneed,
      fun hneed => Format.decode_remove hsound hkeyed hr hneed⟩
  · have hsound := topic.format_isSound family
    exact ⟨fun label hneed => Format.decode_remove hsound hkeyed hr hneed,
      fun hneed => Format.decode_remove hsound hkeyed hr hneed⟩

/-- What forgetting a field comes to in a record: a transaction without a code has the code zero. -/
theorem Chain.txData_forgets_code {d d' : TxData} :
    Chain.txData.Forgets [.member "code"] d d' ↔ d' = { d with code := 0 } := by
  simp only [Chain.txData, Chain.txDataFields, Format.Forgets, Fields.Forgets, Fields.Builds,
    Presence.ForgetsAt, Presence.Lacks, Format.isBlank, String.reduceEq, if_true, if_false]
  constructor
  · rintro ⟨_, _, tags, ⟨_, _, data, ⟨_, _, log, ⟨_, code, _, rfl, rfl, rfl, rfl, -⟩, rfl, rfl⟩,
      rfl, rfl⟩, rfl, rfl⟩
    rfl
  · rintro rfl
    exact ⟨_, _, d.tags, ⟨_, _, d.data, ⟨_, _, d.log, ⟨_, d.code, 0, rfl, rfl, rfl, rfl, rfl⟩, rfl,
      rfl⟩, rfl, rfl⟩, rfl, rfl⟩

/-- The answer to a search that found one transaction. -/
def sampleSearch : Json :=
  .object [("total_count", .string "1"), ("txs", .array [.object [("hash", .string "AB"),
    ("height", .string "5"), ("index", .number (.ofUInt64 0)),
    ("proof", .object [("Data", .string "AQ=="), ("Index", .string "0"),
      ("Proof", .object [("aunts", .array [.string "AQ=="])]), ("RootHash", .string "CD"),
      ("Total", .string "1")]),
    ("tx", .string "AQ=="),
    ("tx_result", .object [("code", .number (.ofUInt64 7)),
      ("tags", .array [.object [("key", .string "aw=="), ("value", .string "dg==")]])])]])]

/-- Where the only transaction of that answer stands. -/
def samplePlace : List Json.Spot := [.member "txs", .item 0]

/-- The answer without a container that is looked for first, without the key of a tag, and without
a code. -/
theorem search_without_fields :
    let format := Method.txSearch.format .v031
    ∃ r, format.decode sampleSearch = .ok r ∧
      format.decode (sampleSearch.remove (samplePlace ++ [.member "proof", .member "Proof"])) =
        .error (.missing "proof.Proof") ∧
      format.decode (sampleSearch.remove
        (samplePlace ++ [.member "tx_result", .member "tags", .item 0, .member "key"])) =
          .error (.missing "tag.key") ∧
      ∃ r', format.decode (sampleSearch.remove
        (samplePlace ++ [.member "tx_result", .member "code"])) = .ok r' ∧
          format.Forgets (samplePlace ++ [.member "tx_result", .member "code"]) r r' := by
  intro format
  have hdecoded : ∃ r, format.decode sampleSearch = .ok r := ⟨_, rfl⟩
  obtain ⟨r, hr⟩ := hdecoded
  have hfields := fun place =>
    (omitted_fields_named_or_forgotten .v031).1 .txSearch sampleSearch r place rfl hr
  exact ⟨r, hr, (hfields _).1 _ rfl, (hfields _).1 _ rfl, (hfields _).2 rfl⟩

/-! ### Members that do not count -/

/-- **Members under unknown keys and `null`s are invisible.**  Payloads that differ in nothing but
such members of records, at any depth, are decoded alike: as the same value, or with the same
error. -/
theorem ignored_members_invisible (family : Family) :
    (∀ (method : Method) (v w : Json), (method.format family).Alike v w →
      (method.format family).decode v = (method.format family).decode w) ∧
    ∀ (topic : Topic) (v w : Json), (topic.format family).Alike v w →
      (topic.format family).decode v = (topic.format family).decode w :=
  ⟨fun _ _ _ h => h.decode_eq, fun _ _ _ h => h.decode_eq⟩

/-- The answer to a transaction that was handed in, with these members besides, and these in its
only tag. -/
def sampleBroadcast (besides inTag : List (String × Json)) : Json :=
  .object (besides ++ [("hash", .string "AB"),
    ("tags", .array [.object (inTag ++ [("key", .string "aw=="), ("value", .string "dg==")])])])

/-- An answer with an unknown member and a `null`, and one more unknown member in its tag: the hash
and the tag are read as they are from the answer without them. -/
theorem broadcast_with_more :
    let format := Method.broadcastTxSync.format .v031
    let more := sampleBroadcast [("data", .null), ("gas", .string "7")] [("index", .bool true)]
    format.decode more = format.decode (sampleBroadcast [] []) ∧
      format.decode more = .ok {
        result := {
          code := 0
          log := none
          data := none
          tags := some [{ key := [107], value := [118] }] }
        hash := [0xAB] } := by
  intro format more
  have hnull : Chain.broadcast.Drops more
      (sampleBroadcast [("gas", .string "7")] [("index", .bool true)]) :=
    .null [] _
  have hunknown : Chain.broadcast.Drops
      (sampleBroadcast [("gas", .string "7")] [("index", .bool true)])
      (sampleBroadcast [] [("index", .bool true)]) :=
    .unknown [] _ (by decide)
  have htag : Chain.broadcast.Drops (sampleBroadcast [] [("index", .bool true)])
      (sampleBroadcast [] []) :=
    .member [("hash", .string "AB")] [] .last (.list [] [] (.unknown [] _ (by decide)))
  have halike := Relation.EqvGen.trans _ _ _ (.rel _ _ hnull)
    (.trans _ _ _ (.rel _ _ hunknown) (.rel _ _ htag))
  have hsame : format.decode more = format.decode (sampleBroadcast [] []) :=
    (ignored_members_invisible .v031).1 .broadcastTxSync _ _ halike
  exact ⟨hsame, hsame.trans rfl⟩

end NodeClient
