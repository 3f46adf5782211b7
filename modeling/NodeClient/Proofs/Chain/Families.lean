import NodeClient.Chain.Results
import NodeClient.Proofs.Schema.Refinement

/-!
# Families — what payloads of newer nodes say in the terms of older ones

Newer nodes report more than older ones, and name three members otherwise.  `older` is a value
without what only newer nodes report.  The formats of the two families are compared from the header
outwards, one lemma for each record in which they differ.

* `header_extends`, `consensusParams_refines`, `validatorData_refines`: where the families differ.
* `Method.format_refines`, `Topic.format_extends`: all answers and all events.
* `families_agree`: decoding a payload of a newer node as one of an older node.
-/

namespace NodeClient

/-! ### What only newer nodes report -/

/-- The header as older nodes report it. -/
def Header.older (h : Header) : Header :=
  { h with version := none, nextValidatorsHash := none, proposerAddress := none }

def BlockMeta.older (m : BlockMeta) : BlockMeta :=
  { m with header := m.header.older }

def Block.older (b : Block) : Block :=
  { b with header := b.header.older }

/-- The parameters as older nodes report them. -/
def ConsensusParams.older (p : ConsensusParams) : ConsensusParams :=
  { p with validator := none }

/-- The validator as older nodes report it at the start of a chain. -/
def Validator.older (v : Validator) : Validator :=
  { v with address := none }

def AbciInfo.older (i : AbciInfo) : AbciInfo :=
  { i with version := none, appVersion := none }

def BlockAnswer.older (a : BlockAnswer) : BlockAnswer where
  blockMeta := a.blockMeta.older
  block := a.block.older

def EndBlock.older (e : EndBlock) : EndBlock :=
  { e with consensusUpdates := e.consensusUpdates.map ConsensusParams.older }

def BlockResults.older (r : BlockResults) : BlockResults :=
  { r with endBlock := r.endBlock.older }

def Blockchain.older (c : Blockchain) : Blockchain :=
  { c with blockMetas := c.blockMetas.map BlockMeta.older }

def SignedHeader.older (s : SignedHeader) : SignedHeader :=
  { s with header := s.header.older }

def Genesis.older (g : Genesis) : Genesis :=
  { g with
    consensusParams := g.consensusParams.older
    validators := g.validators.map Validator.older }

namespace Chain

open Json (lookup Renaming)
open Schema

/-- The names of the limits on block size and on evidence. -/
def limitNames : List (String × String) :=
  [((limitKeys .v031).1, (limitKeys .v029).1), ((limitKeys .v031).2, (limitKeys .v029).2)]

/-- The name of the priority of a validator. -/
def priorityNames : List (String × String) :=
  [(priorityKey .v031, priorityKey .v029)]

/-! ### Headers -/

theorem carries_headerFields {α β : Type} {source : Source} {M : List (String × Json)}
    {F : Fields (String → Int64 → Timestamp → Int64 → Int64 → BlockId → Bytes → Bytes →
      Bytes → Bytes → Bytes → Bytes → Bytes → α)}
    {G : Fields (String → Int64 → Timestamp → Int64 → Int64 → BlockId → Bytes → Bytes →
      Bytes → Bytes → Bytes → Bytes → Bytes → β)} {R : α → β → Prop}
    (h : Fields.Carries source M F M G fun make make' => ∀ a b c d e f g h i j k l m,
      R (make a b c d e f g h i j k l m) (make' a b c d e f g h i j k l m)) :
    Fields.Carries source M (headerFields F) M (headerFields G) R := by
  unfold headerFields
  iterate 13 refine carries_same rfl ?_
  exact h

theorem header_extends : (header .v031).Extends (header .v029) Header.older := by
  refine .record (by decide) (by decide) (by decide) fun source M _ => ?_
  refine carries_drop (carries_drop (carries_headerFields (carries_drop (carries_build ?_))))
  intros
  rfl

theorem blockMeta_extends : (blockMeta .v031).Extends (blockMeta .v029) BlockMeta.older := by
  refine .record (by decide) (by decide) (by decide) fun source M hM => ?_
  refine Format.Extends.carries_required header_extends hM rfl (carries_same rfl (carries_build ?_))
  intros
  rfl

theorem block_extends : (block .v031).Extends (block .v029) Block.older := by
  refine .record (by decide) (by decide) (by decide) fun source M hM => ?_
  refine carries_same rfl (carries_same rfl (carries_same rfl ?_))
  refine Format.Extends.carries_required header_extends hM rfl (carries_seek (carries_build ?_))
  intros
  rfl

theorem blockAnswer_extends :
    (blockAnswer .v031).Extends (blockAnswer .v029) BlockAnswer.older := by
  refine .record (by decide) (by decide) (by decide) fun source M hM => ?_
  refine Format.Extends.carries_required block_extends hM rfl ?_
  refine Format.Extends.carries_required blockMeta_extends hM rfl (carries_build ?_)
  intros
  rfl

theorem blockchain_extends : (blockchain .v031).Extends (blockchain .v029) Blockchain.older := by
  refine .record (by decide) (by decide) (by decide) fun source M hM => ?_
  refine Format.Extends.carries_required (.list blockMeta_extends) hM rfl ?_
  refine carries_same rfl (carries_build ?_)
  intros
  rfl

theorem signedHeader_extends :
    (signedHeader .v031).Extends (signedHeader .v029) fun s => (s.1.older, s.2) := by
  refine .record (by decide) (by decide) (by decide) fun source M hM => ?_
  refine carries_same rfl (Format.Extends.carries_required header_extends hM rfl (carries_build ?_))
  intros
  rfl

theorem commitAnswer_extends :
    (commitAnswer .v031).Extends (commitAnswer .v029) SignedHeader.older := by
  refine .record (by decide) (by decide) (by decide) fun source M hM => ?_
  refine Format.Extends.carries_required signedHeader_extends hM rfl ?_
  refine carries_same rfl (carries_seek (carries_build ?_))
  intros
  rfl

theorem newBlock_extends : (newBlock .v031).Extends (newBlock .v029) Block.older := by
  refine .record (by decide) (by decide) (by decide) fun source M hM => ?_
  exact Format.Extends.carries_required block_extends hM rfl (carries_build fun _ => rfl)

theorem newBlockHeader_extends :
    (newBlockHeader .v031).Extends (newBlockHeader .v029) Header.older := by
  refine .record (by decide) (by decide) (by decide) fun source M hM => ?_
  exact Format.Extends.carries_required header_extends hM rfl (carries_build fun _ => rfl)

/-! ### The application -/

theorem abciInfoState_extends :
    (abciInfoState .v031).Extends (abciInfoState .v029) AbciInfo.older := by
  refine .record (by decide) (by decide) (by decide) fun source M _ => ?_
  refine carries_drop (carries_drop ?_)
  refine carries_same rfl (carries_same rfl (carries_same rfl (carries_build ?_)))
  intros
  rfl

theorem abciInfo_extends : (abciInfo .v031).Extends (abciInfo .v029) AbciInfo.older := by
  refine .record (by decide) (by decide) (by decide) fun source M hM => ?_
  exact Format.Extends.carries_required abciInfoState_extends hM rfl (carries_build fun _ => rfl)

/-! ### The limits of consensus -/

theorem blockSize_extends (label label' : String) :
    (blockSize label).Extends (blockSize label') fun size => size := by
  refine .record (by simp [Fields.keys]) (by simp [Fields.keys]) nofun fun source M _ => ?_
  refine carries_nonempty rfl (carries_nonempty rfl (carries_build ?_))
  intros
  rfl

theorem evidenceLimits_extends (label label' : String) :
    (evidenceLimits label).Extends (evidenceLimits label') fun limits => limits := by
  refine .record (by simp [Fields.keys]) (by simp [Fields.keys]) nofun fun source M _ => ?_
  exact carries_nonempty rfl (carries_build fun _ => rfl)

theorem carries_limitFields {α β : Type} {source : Source} {M M' : List (String × Json)}
    {keys keys' : String × String} {F : Fields (BlockSize → EvidenceLimits → α)}
    {G : Fields (BlockSize → EvidenceLimits → β)} {R : α → β → Prop}
    (hM : (Json.object M).Ordered) (hsize : lookup keys'.1 M' = lookup keys.1 M)
    (hevidence : lookup keys'.2 M' = lookup keys.2 M)
    (h : Fields.Carries source M F M' G fun make make' =>
      ∀ size limits, R (make size limits) (make' size limits)) :
    Fields.Carries source M (limitFields keys F) M' (limitFields keys' G) R := by
  refine (evidenceLimits_extends _ _).carries_required hM hevidence ?_
  refine (blockSize_extends _ _).carries_required hM hsize ?_
  exact carries_seek (carries_seek h)

theorem consensusParams_refines :
    (consensusParams .v031).Refines (consensusParams .v029) (Renaming.isFree ⟨[], limitNames⟩)
      (Renaming.apply ⟨[], limitNames⟩) ConsensusParams.older := by
  refine .renamed (by decide) (by decide) (by decide) (by decide) fun source M M' hM hnamed _ => ?_
  refine carries_drop (carries_limitFields hM (hnamed _ (.head _)) (hnamed _ (.tail _ (.head _)))
    (carries_build ?_))
  intros
  rfl

theorem endBlock_refines :
    (endBlock .v031).Refines (endBlock .v029)
      (Renaming.isFree ⟨[.member "consensus_param_updates"], limitNames⟩)
      (Renaming.apply ⟨[.member "consensus_param_updates"], limitNames⟩) EndBlock.older := by
  refine .record_at "consensus_param_updates" (by decide) (by decide) (by decide)
    fun source M M' hM hfree hkeys => ?_
  refine carries_same (hkeys "tags") ?_
  refine Format.Refines.carries_optional consensusParams_refines hM hfree (hkeys _) ?_
  refine carries_same (hkeys "validator_updates") (carries_build ?_)
  intros
  rfl

theorem deliveries_refines :
    (deliveries .v031).Refines (deliveries .v029)
      (Renaming.isFree ⟨[.member "EndBlock", .member "consensus_param_updates"], limitNames⟩)
      (Renaming.apply ⟨[.member "EndBlock", .member "consensus_param_updates"], limitNames⟩)
      fun found => (found.1, found.2.older) := by
  refine .record_at "EndBlock" (by decide) (by decide) (by decide)
    fun source M M' hM hfree hkeys => ?_
  refine Format.Refines.carries_required endBlock_refines hM hfree (hkeys _) ?_
  refine carries_same (hkeys "DeliverTx") (carries_build ?_)
  intros
  rfl

/-- Where the parameters of consensus stand in the answer to `block_results`. -/
def updatesPlace : List Json.Step :=
  [.member "results", .member "EndBlock", .member "consensus_param_updates"]

theorem blockResults_refines :
    (blockResults .v031).Refines (blockResults .v029) (Renaming.isFree ⟨updatesPlace, limitNames⟩)
      (Renaming.apply ⟨updatesPlace, limitNames⟩) BlockResults.older := by
  refine .record_at "results" (by decide) (by decide) (by decide)
    fun source M M' hM hfree hkeys => ?_
  refine Format.Refines.carries_required deliveries_refines hM hfree (hkeys _) ?_
  refine carries_same (hkeys "height") (carries_seek (carries_seek (carries_build ?_)))
  intros
  rfl

/-! ### The start of a chain -/

theorem genesisValidator_extends :
    (genesisValidator .v031).Extends (genesisValidator .v029) Validator.older := by
  refine .record (by decide) (by decide) (by decide) fun source M hM => ?_
  refine carries_same rfl (carries_drop (carries_same rfl (carries_same rfl (carries_build ?_))))
  intros
  rfl

theorem genesisDocument_refines :
    (genesisDocument .v031).Refines (genesisDocument .v029)
      (Renaming.isFree ⟨[.member "consensus_params"], limitNames⟩)
      (Renaming.apply ⟨[.member "consensus_params"], limitNames⟩) Genesis.older := by
  refine .record_at "consensus_params" (by decide) (by decide) (by decide)
    fun source M M' hM hfree hkeys => ?_
  refine carries_same (hkeys "app_state") (carries_same (hkeys "app_hash") ?_)
  refine Format.Extends.carries_required (.list genesisValidator_extends) hM (hkeys "validators") ?_
  refine Format.Refines.carries_required consensusParams_refines hM hfree (hkeys _) ?_
  refine carries_same (hkeys "chain_id") (carries_same (hkeys "genesis_time") (carries_build ?_))
  intros
  rfl

/-- Where the parameters of consensus stand in the answer to `genesis`. -/
def paramsPlace : List Json.Step :=
  [.member "genesis", .member "consensus_params"]

theorem genesis_refines :
    (genesis .v031).Refines (genesis .v029) (Renaming.isFree ⟨paramsPlace, limitNames⟩)
      (Renaming.apply ⟨paramsPlace, limitNames⟩) Genesis.older := by
  refine .record_at "genesis" (by decide) (by decide) (by decide)
    fun source M M' hM hfree hkeys => ?_
  exact Format.Refines.carries_required genesisDocument_refines hM hfree (hkeys _)
    (carries_build fun _ => rfl)

/-! ### Validator sets -/

theorem validatorData_refines :
    (validatorData .v031).Refines (validatorData .v029) (Renaming.isFree ⟨[], priorityNames⟩)
      (Renaming.apply ⟨[], priorityNames⟩) fun validator => validator := by
  refine .renamed (by decide) (by decide) (by decide) (by decide)
    fun source M M' hM hnamed hothers => ?_
  refine carries_same (hothers _ (by decide)) (carries_same (hothers _ (by decide)) ?_)
  refine carries_same (hothers _ (by decide)) ?_
  refine carries_same (hnamed _ (.head _)) (carries_build ?_)
  intros
  rfl

/-- Where validators stand in the answer to `validators`. -/
def validatorsPlace : List Json.Step :=
  [.member "validators", .items]

theorem validatorSet_refines :
    (validatorSet .v031).Refines (validatorSet .v029)
      (Renaming.isFree ⟨validatorsPlace, priorityNames⟩)
      (Renaming.apply ⟨validatorsPlace, priorityNames⟩) fun set => set := by
  refine .record_at "validators" (by decide) (by decide) (by decide)
    fun source M M' hM hfree hkeys => ?_
  refine Format.Refines.carries_required (.list validatorData_refines) hM hfree (hkeys _) ?_
  refine carries_same (hkeys "block_height") (carries_build ?_)
  intro height validators
  rw [List.map_id']

end Chain

/-! ### All answers -/

/-- The members of an answer that older nodes name otherwise. -/
def Method.renaming : Method → Json.Renaming
  | .blockResults => ⟨Chain.updatesPlace, Chain.limitNames⟩
  | .genesis => ⟨Chain.paramsPlace, Chain.limitNames⟩
  | .validators => ⟨Chain.validatorsPlace, Chain.priorityNames⟩
  | _ => .nothing

/-- The answer to a method as older nodes give it. -/
def Method.older : (method : Method) → method.Reply → method.Reply
  | .abciInfo => AbciInfo.older
  | .block => BlockAnswer.older
  | .blockResults => BlockResults.older
  | .blockchain => Blockchain.older
  | .commit => SignedHeader.older
  | .genesis => Genesis.older
  | .abciQuery | .broadcastTxAsync | .broadcastTxSync | .broadcastTxCommit | .health | .status
  | .subscribe | .tx | .txSearch | .unsubscribe | .validators => fun r => r

/-- What an event of a topic carries, as older nodes send it. -/
def Topic.older : (topic : Topic) → topic.Payload → topic.Payload
  | .newBlock => Block.older
  | .newBlockHeader => Header.older
  | .tx => fun r => r

theorem Method.format_refines : (method : Method) →
    (method.format .v031).Refines (method.format .v029) method.renaming.isFree
      method.renaming.apply method.older
  | .abciInfo => Chain.abciInfo_extends.refines
  | .block => Chain.blockAnswer_extends.refines
  | .blockResults => Chain.blockResults_refines
  | .blockchain => Chain.blockchain_extends.refines
  | .commit => Chain.commitAnswer_extends.refines
  | .genesis => Chain.genesis_refines
  | .validators => Chain.validatorSet_refines
  | .abciQuery => (Schema.Format.extends_self _).refines
  | .broadcastTxAsync | .broadcastTxSync => (Schema.Format.extends_self Chain.broadcast).refines
  | .broadcastTxCommit => (Schema.Format.extends_self _).refines
  | .health | .subscribe | .unsubscribe => (Schema.Format.extends_self Chain.nothing).refines
  | .status => (Schema.Format.extends_self _).refines
  | .tx => (Schema.Format.extends_self _).refines
  | .txSearch => (Schema.Format.extends_self _).refines

theorem Topic.format_extends : (topic : Topic) →
    (topic.format .v031).Extends (topic.format .v029) topic.older
  | .newBlock => Chain.newBlock_extends
  | .newBlockHeader => Chain.newBlockHeader_extends
  | .tx => Schema.Format.extends_self _

/-- Whether both families have one format for the answer to a method. -/
def Method.isCommon : Method → Bool
  | .abciQuery | .broadcastTxAsync | .broadcastTxSync | .broadcastTxCommit | .health | .status
  | .subscribe | .tx | .txSearch | .unsubscribe => true
  | .abciInfo | .block | .blockResults | .blockchain | .commit | .genesis | .validators => false

theorem Method.format_common : (method : Method) → method.isCommon = true →
    method.format .v029 = method.format .v031
  | .abciQuery, _ | .broadcastTxAsync, _ | .broadcastTxSync, _ | .broadcastTxCommit, _
  | .health, _ | .status, _ | .subscribe, _ | .tx, _ | .txSearch, _ | .unsubscribe, _ => rfl

/-- **The families agree up to what only newer nodes say.**  What is read of a payload of a newer
node, in which all records are objects, is also read of it in the terms of an older node:

* The answer to a method, once some members are renamed whose older names are free.
* What an event carries.
* Of all other answers and events, both families read the same, and fail alike, on any payload. -/
theorem families_agree :
    (∀ (method : Method) (v : Json) (r : method.Reply), v.Ordered →
      (method.format .v031).keyed v = true → method.renaming.isFree v = true →
        (method.format .v031).decode v = .ok r →
          (method.format .v029).decode (method.renaming.apply v) = .ok (method.older r)) ∧
    (∀ (topic : Topic) (v : Json) (r : topic.Payload), v.Ordered →
      (topic.format .v031).keyed v = true → (topic.format .v031).decode v = .ok r →
        (topic.format .v029).decode v = .ok (topic.older r)) ∧
    (∀ method : Method, method.isCommon = true → ∀ v,
      (method.format .v029).decode v = (method.format .v031).decode v) ∧
    ∀ v, (Topic.tx.format .v029).decode v = (Topic.tx.format .v031).decode v := by
  refine ⟨fun method v r hordered hkeyed hfree hr => ?_, fun topic v r hordered hkeyed hr => ?_,
    fun method hcommon v => ?_, fun v => rfl⟩
  · rw [Schema.decode_eq_ok] at hr ⊢
    exact method.format_refines.denotes ⟨hordered, hkeyed, hfree⟩ hr
  · rw [Schema.decode_eq_ok] at hr ⊢
    exact topic.format_extends.denotes ⟨hordered, hkeyed, rfl⟩ hr
  · rw [method.format_common hcommon]

/-- A validator set as newer nodes report it. -/
def sampleSet : Json :=
  .object [("block_height", .string "5"),
    ("validators", .array [.object [("address", .string "AB"),
      ("proposer_priority", .string "-20"),
      ("pub_key", .object [("type", .string Chain.ed25519Type), ("value", .string "AQ==")]),
      ("voting_power", .string "10")]])]

/-- A header as newer nodes send it. -/
def sampleHeader : Json :=
  .object [("header", .object [("app_hash", .string "00"), ("chain_id", .string "chain"),
    ("consensus_hash", .string "01"), ("data_hash", .string ""), ("evidence_hash", .string ""),
    ("height", .string "1"),
    ("last_block_id", .object [("hash", .string ""),
      ("parts", .object [("hash", .string ""), ("total", .string "0")])]),
    ("last_commit_hash", .string ""), ("last_results_hash", .string ""),
    ("next_validators_hash", .string "02"), ("num_txs", .string "0"),
    ("proposer_address", .string "AB"), ("time", .string "2019-04-01T13:36:00Z"),
    ("total_txs", .string "0"), ("validators_hash", .string "03"),
    ("version", .object [("app", .string "1"), ("block", .string "10")])])]

/-- The priority of a validator is read as an older node names it, and a header without what older
nodes do not report. -/
theorem samples_read_as_older :
    (∃ set, (Method.validators.format .v031).decode sampleSet = .ok set ∧
      (Method.validators.format .v029).decode (Method.validators.renaming.apply sampleSet) =
        .ok (Method.validators.older set)) ∧
    ∃ header, (Topic.newBlockHeader.format .v031).decode sampleHeader = .ok header ∧
      (Topic.newBlockHeader.format .v029).decode sampleHeader =
        .ok (Topic.newBlockHeader.older header) := by
  have hset : sampleSet.Ordered := by
    simp only [sampleSet, Json.Ordered, Json.OrderedItems, Json.OrderedMembers]
    decide
  have hheader : sampleHeader.Ordered := by
    simp only [sampleHeader, Json.Ordered, Json.OrderedMembers]
    decide
  obtain ⟨hmethods, htopics, -⟩ := families_agree
  refine ⟨⟨_, rfl, hmethods .validators _ _ hset rfl rfl rfl⟩,
    ⟨_, rfl, htopics .newBlockHeader _ _ hheader rfl rfl⟩⟩

end NodeClient
