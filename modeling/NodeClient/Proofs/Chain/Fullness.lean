import NodeClient.Proofs.Chain.Payloads
import NodeClient.Proofs.Schema.Fullness

/-!
# Chain fullness — the bytes that chain objects never lack

Which byte fields of the chain objects hold bytes whenever an object was read of a payload: hashes of
headers, addresses and signatures of votes, keys, tags, transactions, nodes.  Each property is stated
for the object, and follows from `Format.Full` for its format.  Other byte fields may be empty: the
first block refers to no block, and some chains start without state.

* `required_bytes_not_empty`: the answers to all methods and the events of all topics.
-/

namespace NodeClient

open Schema

/-! ### Full objects -/

/-- Bytes that are there, and not none. -/
def Given (found : Option Bytes) : Prop :=
  ∃ bytes, found = some bytes ∧ bytes ≠ []

/-- The hashes that a header must have; newer nodes report two fields more. -/
structure Header.Full (family : Family) (h : Header) : Prop where
  appHash : h.appHash ≠ []
  consensusHash : h.consensusHash ≠ []
  validatorsHash : h.validatorsHash ≠ []
  nextValidatorsHash : family = .v031 → Given h.nextValidatorsHash
  proposerAddress : family = .v031 → Given h.proposerAddress

structure Vote.Full (v : Vote) : Prop where
  validatorAddress : v.validatorAddress ≠ []
  signature : v.signature.data ≠ []

/-- The votes of those validators that did vote. -/
def Commit.Full (c : Commit) : Prop :=
  ∀ v, some v ∈ c.precommits → v.Full

def PublicKey.Full (k : PublicKey) : Prop :=
  k.data ≠ []

/-- A validator of which the address is known as well. -/
structure Validator.Full (v : Validator) : Prop where
  pubkey : v.pubkey.Full
  address : Given v.address

structure Block.Full (family : Family) (b : Block) : Prop where
  header : b.header.Full family
  lastCommit : b.lastCommit.Full
  evidence : ∀ es ∈ b.evidence, ∀ e ∈ es, e.validator.Full

structure Tag.Full (t : Tag) : Prop where
  key : t.key ≠ []
  value : t.value ≠ []

def TxData.Full (d : TxData) : Prop :=
  ∀ tags ∈ d.tags, ∀ t ∈ tags, t.Full

structure TxProof.Full (p : TxProof) : Prop where
  data : p.data ≠ []
  rootHash : p.rootHash ≠ []

structure Tx.Full (t : Tx) : Prop where
  tx : t.tx ≠ []
  hash : t.hash ≠ []
  result : t.result.Full
  proof : ∀ p ∈ t.proof, p.Full

structure EndBlock.Full (b : EndBlock) : Prop where
  validatorUpdates : ∀ v ∈ b.validatorUpdates, v.Full
  tags : ∀ tags ∈ b.tags, ∀ t ∈ tags, t.Full

structure NodeStatus.Full (s : NodeStatus) : Prop where
  id : s.nodeInfo.id ≠ []
  latestBlockHash : s.syncInfo.latestBlockHash ≠ []
  latestAppHash : s.syncInfo.latestAppHash ≠ []
  validatorInfo : s.validatorInfo.Full

/-- The bytes that the answer to a method must have, in every part and at every place of a list. -/
def Method.Full (family : Family) : (method : Method) → method.Reply → Prop
  | .block => fun r : BlockAnswer => r.blockMeta.header.Full family ∧ r.block.Full family
  | .blockResults => fun r : BlockResults => (∀ d ∈ r.results, d.Full) ∧ r.endBlock.Full
  | .blockchain => fun r : Blockchain => ∀ m ∈ r.blockMetas, m.header.Full family
  | .broadcastTxAsync | .broadcastTxSync => fun r : Broadcast => r.hash ≠ [] ∧ r.result.Full
  | .broadcastTxCommit => fun r : BroadcastCommit =>
    r.hash ≠ [] ∧ r.checkTx.Full ∧ ∀ d ∈ r.deliverTx, d.Full
  | .commit => fun r : SignedHeader => r.header.Full family ∧ r.commit.Full
  | .genesis => fun r : Genesis => ∀ v ∈ r.validators, v.pubkey.Full
  | .status => NodeStatus.Full
  | .tx => Tx.Full
  | .txSearch => fun r : TxSearch => ∀ t ∈ r.txs, t.Full
  | .validators => fun r : ValidatorSet => ∀ v ∈ r.validators, v.Full
  | .abciInfo | .abciQuery | .health | .subscribe | .unsubscribe => fun _ => True

/-- The bytes that the events of a topic must have. -/
def Topic.Full (family : Family) : (topic : Topic) → topic.Payload → Prop
  | .newBlock => Block.Full family
  | .newBlockHeader => Header.Full family
  | .tx => fun e : TxEvent => e.result.Full

/-! ### Formats of full objects -/

namespace Chain

variable {family : Family}

/-- A list that may be missing. -/
theorem full_of_optional {γ : Type} {format : Format γ} {P : γ → Prop}
    (hP : ∀ {c : γ}, format.Full c → P c) {found : Option (List γ)}
    (h : Presence.optional.Full (.list format) (Format.list format).Full found) :
    ∀ cs ∈ found, ∀ c ∈ cs, P c :=
  fun cs hcs c hc => hP (h cs hcs c hc)

theorem tag_full {t : Tag} (h : tag.Full t) : t.Full := by
  refine Fields.Full.elim h ?_
  intro key hkey value hvalue
  exact ⟨hkey.2, hvalue.2⟩

theorem txData_full {d : TxData} (h : txData.Full d) : d.Full := by
  refine Fields.Full.elim h ?_
  intro code _ log _ data _ tags htags
  exact full_of_optional tag_full htags

theorem txProof_full {p : TxProof} (h : txProof.Full p) : p.Full := by
  refine Fields.Full.elim h ?_
  intro data hdata rootHash hroot total _ index _ aunts _
  exact ⟨hdata.2, hroot.2⟩

theorem tx_full {t : Tx} (h : tx.Full t) : t.Full := by
  refine Fields.Full.elim h ?_
  intro tx htx result hresult height _ index _ hash hhash proof hproof
  exact ⟨htx.2, hhash.2, txData_full hresult, fun p hp => txProof_full (hproof p hp)⟩

theorem header_full {h : Header} (hfull : (header family).Full h) : h.Full family := by
  cases family with
  | v029 =>
    refine Fields.Full.elim hfull ?_
    intro chainId _ height _ time _ numTxs _ totalTxs _ lastBlockId _ appHash happ
      consensusHash hconsensus dataHash _ evidenceHash _ lastCommitHash _ lastResultsHash _
      validatorsHash hvalidators
    exact ⟨happ.2, hconsensus.2, hvalidators.2, nofun, nofun⟩
  | v031 =>
    refine Fields.Full.elim hfull ?_
    intro version _ chainId _ height _ time _ numTxs _ totalTxs _ lastBlockId _ appHash happ
      consensusHash hconsensus dataHash _ evidenceHash _ lastCommitHash _ lastResultsHash _
      validatorsHash hvalidators nextValidatorsHash hnext proposerAddress hproposer
    exact ⟨happ.2, hconsensus.2, hvalidators.2, fun _ => ⟨_, rfl, hnext.2⟩,
      fun _ => ⟨_, rfl, hproposer.2⟩⟩

theorem blockMeta_full {m : BlockMeta} (h : (blockMeta family).Full m) : m.header.Full family := by
  refine Fields.Full.elim (P := fun m : BlockMeta => m.header.Full family) h ?_
  intro blockId _ header hheader
  exact header_full hheader

theorem vote_full {v : Vote} (h : vote.Full v) : v.Full := by
  refine Fields.Full.elim h ?_
  intro kind _ address haddress index _ height _ round _ time _ blockId _ signature hsignature
  exact ⟨haddress.2, hsignature.2⟩

theorem commit_full {c : Commit} (h : commit.Full c) : c.Full := by
  refine Fields.Full.elim h ?_
  intro blockId _ precommits hprecommits v hv
  exact vote_full (hprecommits (some v) hv v rfl)

theorem pubkey_full {k : PublicKey} (h : pubkey.Full k) : k.Full := by
  refine Fields.Full.elim h ?_
  intro algorithm _ data hdata
  exact hdata.2

/-- Validators at the start of a chain may have no address. -/
theorem genesisValidator_full {v : Validator} (h : (genesisValidator family).Full v) :
    v.pubkey.Full := by
  cases family with
  | v029 =>
    refine Fields.Full.elim (P := fun v : Validator => v.pubkey.Full) h ?_
    intro pubkey hpubkey power _ name _
    exact pubkey_full hpubkey
  | v031 =>
    refine Fields.Full.elim (P := fun v : Validator => v.pubkey.Full) h ?_
    intro pubkey hpubkey power _ address _ name _
    exact pubkey_full hpubkey

theorem validatorUpdate_full {v : Validator} (h : validatorUpdate.Full v) : v.Full := by
  refine Fields.Full.elim h ?_
  intro pubkey hpubkey power _ address haddress
  exact ⟨pubkey_full hpubkey, _, rfl, haddress.2⟩

theorem validatorData_full {v : Validator} (h : (validatorData family).Full v) : v.Full := by
  refine Fields.Full.elim h ?_
  intro priority _ pubkey hpubkey power _ address haddress
  exact ⟨pubkey_full hpubkey, _, rfl, haddress.2⟩

theorem evidence_full {e : Evidence} (h : evidence.Full e) : e.validator.Full := by
  refine Fields.Full.elim (P := fun e : Evidence => e.validator.Full) h ?_
  intro kind _ height _ time _ power _ validator hvalidator
  exact validatorUpdate_full hvalidator

theorem evidenceList_full {found : Option (List Evidence)} (h : evidenceList.Full found) :
    ∀ es ∈ found, ∀ e ∈ es, e.validator.Full := by
  refine Fields.Full.elim (P := fun found : Option (List Evidence) => ∀ es ∈ found, ∀ e ∈ es,
    e.validator.Full) h ?_
  intro found hfound
  exact full_of_optional evidence_full hfound

theorem block_full {b : Block} (h : (block family).Full b) : b.Full family := by
  refine Fields.Full.elim h ?_
  intro header hheader lastCommit hcommit txs _ evidence hevidence
  refine ⟨header_full hheader, commit_full hcommit, fun es hes => ?_⟩
  exact evidenceList_full (hevidence _ (Option.join_eq_some_iff.mp hes)) es rfl

theorem endBlock_full {b : EndBlock} (h : (endBlock family).Full b) : b.Full := by
  refine Fields.Full.elim h ?_
  intro updates hupdates consensus _ tags htags
  exact ⟨fun v hv => validatorUpdate_full (hupdates v hv), full_of_optional tag_full htags⟩

theorem deliveries_full {d : List TxData × EndBlock} (h : (deliveries family).Full d) :
    (∀ t ∈ d.1, t.Full) ∧ d.2.Full := by
  refine Fields.Full.elim (P := fun d : List TxData × EndBlock => (∀ t ∈ d.1, t.Full) ∧ d.2.Full)
    h ?_
  intro results hresults last hlast
  exact ⟨fun t ht => txData_full (hresults t ht), endBlock_full hlast⟩

theorem signedHeader_full {s : Header × Commit} (h : (signedHeader family).Full s) :
    s.1.Full family ∧ s.2.Full := by
  refine Fields.Full.elim (P := fun s : Header × Commit => s.1.Full family ∧ s.2.Full) h ?_
  intro header hheader commit hcommit
  exact ⟨header_full hheader, commit_full hcommit⟩

theorem nodeInfo_full {n : NodeInfo} (h : nodeInfo.Full n) : n.id ≠ [] := by
  refine Fields.Full.elim (P := fun n : NodeInfo => n.id ≠ []) h ?_
  intro id hid address _ network _ version _ channels _ moniker _ other _
  exact hid.2

theorem syncInfo_full {s : SyncInfo} (h : syncInfo.Full s) :
    s.latestBlockHash ≠ [] ∧ s.latestAppHash ≠ [] := by
  refine Fields.Full.elim
    (P := fun s : SyncInfo => s.latestBlockHash ≠ [] ∧ s.latestAppHash ≠ []) h ?_
  intro blockHash hblock appHash happ height _ time _ catchingUp _
  exact ⟨hblock.2, happ.2⟩

theorem status_full {s : NodeStatus} (h : status.Full s) : s.Full := by
  refine Fields.Full.elim h ?_
  intro node hnode sync hsync validator hvalidator
  obtain ⟨hblock, happ⟩ := syncInfo_full hsync
  exact ⟨nodeInfo_full hnode, hblock, happ, validatorUpdate_full hvalidator⟩

theorem genesisDocument_full {g : Genesis} (h : (genesisDocument family).Full g) :
    ∀ v ∈ g.validators, v.pubkey.Full := by
  refine Fields.Full.elim (P := fun g : Genesis => ∀ v ∈ g.validators, v.pubkey.Full) h ?_
  intro time _ chainId _ params _ validators hvalidators appHash _ appState _ v hv
  exact genesisValidator_full (hvalidators v hv)

theorem broadcast_full {b : Broadcast} (h : broadcast.Full b) : b.hash ≠ [] ∧ b.result.Full := by
  refine Fields.Full.elim (P := fun b : Broadcast => b.hash ≠ [] ∧ b.result.Full) h ?_
  intro hash hhash code _ log _ data _ tags htags
  exact ⟨hhash.2, full_of_optional tag_full htags⟩

theorem txTaken_full {e : TxEvent} (h : txTaken.Full e) : e.result.Full := by
  refine Fields.Full.elim (P := fun e : TxEvent => e.result.Full) h ?_
  intro tx _ result hresult height _ index _
  exact txData_full hresult

end Chain

/-! ### Answers and events -/

theorem Method.full_of_format {family : Family} {method : Method} {r : method.Reply}
    (h : (method.format family).Full r) : method.Full family r := by
  cases method with
  | block =>
    refine Fields.Full.elim (P := Method.Full family .block) h ?_
    intro blockMeta hmeta block hblock
    exact ⟨Chain.blockMeta_full hmeta, Chain.block_full hblock⟩
  | blockResults =>
    refine Fields.Full.elim (P := Method.Full family .blockResults) h ?_
    intro height _ found hfound
    exact Chain.deliveries_full hfound
  | blockchain =>
    refine Fields.Full.elim (P := Method.Full family .blockchain) h ?_
    intro height _ metas hmetas m hm
    exact Chain.blockMeta_full (hmetas m hm)
  | broadcastTxAsync | broadcastTxSync => exact Chain.broadcast_full h
  | broadcastTxCommit =>
    refine Fields.Full.elim (P := Method.Full family .broadcastTxCommit) h ?_
    intro height _ hash hhash checked hchecked delivered hdelivered
    exact ⟨hhash.2, Chain.txData_full hchecked, fun d hd => Chain.txData_full (hdelivered d hd)⟩
  | commit =>
    refine Fields.Full.elim (P := Method.Full family .commit) h ?_
    intro canonical _ signed hsigned
    exact Chain.signedHeader_full hsigned
  | genesis =>
    refine Fields.Full.elim (P := Method.Full family .genesis) h ?_
    intro document hdocument
    exact Chain.genesisDocument_full hdocument
  | status => exact Chain.status_full h
  | tx => exact Chain.tx_full h
  | txSearch =>
    refine Fields.Full.elim (P := Method.Full family .txSearch) h ?_
    intro total _ txs htxs t ht
    exact Chain.tx_full (htxs t ht)
  | validators =>
    refine Fields.Full.elim (P := Method.Full family .validators) h ?_
    intro height _ validators hvalidators v hv
    exact Chain.validatorData_full (hvalidators v hv)
  | abciInfo | abciQuery | health | subscribe | unsubscribe => trivial

theorem Topic.full_of_format {family : Family} {topic : Topic} {e : topic.Payload}
    (h : (topic.format family).Full e) : topic.Full family e := by
  cases topic with
  | newBlock =>
    refine Fields.Full.elim (P := Topic.Full family .newBlock) h ?_
    intro block hblock
    exact Chain.block_full hblock
  | newBlockHeader =>
    refine Fields.Full.elim (P := Topic.Full family .newBlockHeader) h ?_
    intro header hheader
    exact Chain.header_full hheader
  | tx =>
    refine Fields.Full.elim (P := Topic.Full family .tx) h ?_
    intro taken htaken
    exact Chain.txTaken_full htaken

/-- **Bytes that must not be empty are not empty.**  Only the empty text stands for no bytes, in
hexadecimal as in base64.  So whatever is read of the answer to a method or of an event, by either
family, holds bytes in every field that must not be empty, in every record and at every place of a
list: the hashes of headers, addresses and signatures in votes, public keys, the addresses of
validators other than those at the start of the chain, tags, transactions with their hashes and
proofs, and the identity and hashes of a node.  `Format.Full` says so of all the fields that a format
marks, and `Method.Full` and `Topic.Full` name them. -/
theorem required_bytes_not_empty (family : Family) :
    (∀ s : String, Scalar.readHex s = .ok [] ↔ s = "") ∧
    (∀ s : String, Scalar.readBase64 s = .ok [] ↔ s = "") ∧
    (∀ (method : Method) (v : Json) (r : method.Reply), (method.format family).decode v = .ok r →
      (method.format family).Full r ∧ method.Full family r) ∧
    ∀ (topic : Topic) (v : Json) (e : topic.Payload), (topic.format family).decode v = .ok e →
      (topic.format family).Full e ∧ topic.Full family e := by
  refine ⟨fun s => mapError_eq_ok.trans Hex.decode_eq_nil,
    fun s => mapError_eq_ok.trans Base64.decode_eq_nil, fun method v r hr => ?_,
    fun topic v e he => ?_⟩
  · have hfull := Format.full_of_decode (method.format_isSound family) hr
    exact ⟨hfull, Method.full_of_format hfull⟩
  · have hfull := Format.full_of_decode (topic.format_isSound family) he
    exact ⟨hfull, Topic.full_of_format hfull⟩

/-- The one transaction that a search found, with its tag and its proof. -/
theorem found_transaction_not_empty :
    ∃ r : TxSearch, (Method.txSearch.format .v031).decode sampleSearch = .ok r ∧
      r.txs.length = 1 ∧ ∀ t ∈ r.txs, t.tx ≠ [] ∧ t.result.Full ∧ ∀ p ∈ t.proof, p.Full := by
  refine ⟨_, rfl, rfl, fun t ht => ?_⟩
  obtain ⟨-, -, hmethods, -⟩ := required_bytes_not_empty .v031
  have htx : t.Full := (hmethods .txSearch sampleSearch _ rfl).2 t ht
  exact ⟨htx.tx, htx.result, htx.proof⟩

end NodeClient
