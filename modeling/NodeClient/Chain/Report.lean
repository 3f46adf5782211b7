import NodeClient.Chain.Results

/-!
# Chain report — chain objects as JSON values

One form for every version of a node: bytes in hexadecimal, words as numbers, what is absent as
`null`.
-/

namespace NodeClient
namespace Chain

/-- A value that may be absent. -/
def orNull {α : Type} (write : α → Json) : Option α → Json
  | some a => write a
  | none => .null

/-- The items of a list. -/
def listOf {α : Type} (write : α → Json) (items : List α) : Json :=
  .array (items.map write)

/-- Bytes. -/
def bytesJson (b : Bytes) : Json :=
  .string (Hex.encode b)

/-- An instant. -/
def timeJson (t : Timestamp) : Json :=
  .object [("unix", .ofInt t.unix), ("nanos", .ofNat t.nanos), ("offset", .ofInt t.offset)]

/-- The name of an algorithm. -/
def algorithmJson : KeyAlgorithm → Json
  | .ed25519 => .string "Ed25519"

/-- A public key. -/
def pubkeyJson (k : PublicKey) : Json :=
  .object [("algorithm", algorithmJson k.algorithm), ("data", bytesJson k.data)]

/-- A signature. -/
def signatureJson (s : Signature) : Json :=
  .object [("algorithm", algorithmJson s.algorithm), ("data", bytesJson s.data)]

/-- A reference to a block. -/
def blockIdJson (b : BlockId) : Json :=
  .object [("hash", bytesJson b.hash),
    ("parts", .object [("total", .ofInt64 b.parts.total), ("hash", bytesJson b.parts.hash)])]

/-- The versions in a header. -/
def headerVersionJson (v : HeaderVersion) : Json :=
  .object [("block", .ofInt64 v.block), ("app", .ofInt64 v.app)]

/-- A header. -/
def headerJson (h : Header) : Json :=
  .object [("version", orNull headerVersionJson h.version), ("chain_id", .string h.chainId),
    ("height", .ofInt64 h.height), ("time", timeJson h.time), ("num_txs", .ofInt64 h.numTxs),
    ("total_txs", .ofInt64 h.totalTxs), ("last_block_id", blockIdJson h.lastBlockId),
    ("app_hash", bytesJson h.appHash), ("consensus_hash", bytesJson h.consensusHash),
    ("data_hash", bytesJson h.dataHash), ("evidence_hash", bytesJson h.evidenceHash),
    ("last_commit_hash", bytesJson h.lastCommitHash),
    ("last_results_hash", bytesJson h.lastResultsHash),
    ("validators_hash", bytesJson h.validatorsHash),
    ("next_validators_hash", orNull bytesJson h.nextValidatorsHash),
    ("proposer_address", orNull bytesJson h.proposerAddress)]

/-- A header with the reference to its block. -/
def blockMetaJson (m : BlockMeta) : Json :=
  .object [("block_id", blockIdJson m.blockId), ("header", headerJson m.header)]

/-- The name of a kind of vote. -/
def voteKindJson : VoteKind → Json
  | .prevote => .string "Prevote"
  | .precommit => .string "Precommit"
  | .proposal => .string "Proposal"

/-- A vote. -/
def voteJson (v : Vote) : Json :=
  .object [("type", voteKindJson v.kind), ("validator_address", bytesJson v.validatorAddress),
    ("validator_index", .ofInt64 v.validatorIndex), ("height", .ofInt64 v.height),
    ("round", .ofInt64 v.round), ("timestamp", timeJson v.timestamp),
    ("block_id", blockIdJson v.blockId), ("signature", signatureJson v.signature)]

/-- The votes for a block. -/
def commitJson (c : Commit) : Json :=
  .object [("block_id", blockIdJson c.blockId),
    ("precommits", listOf (orNull voteJson) c.precommits)]

/-- A validator. -/
def validatorJson (v : Validator) : Json :=
  .object [("pubkey", pubkeyJson v.pubkey), ("voting_power", .ofInt64 v.votingPower),
    ("address", orNull bytesJson v.address), ("name", orNull .string v.name),
    ("accum", orNull .ofInt64 v.accum)]

/-- Evidence. -/
def evidenceJson (e : Evidence) : Json :=
  .object [("kind", .string e.kind), ("validator", validatorJson e.validator),
    ("height", .ofInt64 e.height), ("time", .ofInt64 e.time),
    ("total_voting_power", .ofInt64 e.totalVotingPower)]

/-- A block. -/
def blockJson (b : Block) : Json :=
  .object [("header", headerJson b.header), ("last_commit", commitJson b.lastCommit),
    ("txs", listOf bytesJson b.txs), ("evidence", orNull (listOf evidenceJson) b.evidence)]

/-- The parameters of consensus. -/
def consensusJson (c : ConsensusParams) : Json :=
  .object [
    ("block_size", .object [("max_bytes", .ofInt64 c.blockSize.maxBytes),
      ("max_gas", .ofInt64 c.blockSize.maxGas)]),
    ("evidence", .object [("max_age", .ofInt64 c.evidence.maxAge)]),
    ("validator", orNull
      (fun v => .object [("pub_key_types", listOf .string v.pubkeyTypes)]) c.validator)]

/-- The tags of a transaction. -/
def tagsJson (tags : List Tag) : Json :=
  listOf (fun t => .array [bytesJson t.key, bytesJson t.value]) tags

/-- What the application said to a transaction. -/
def txDataJson (d : TxData) : Json :=
  .object [("code", .ofNat d.code.toNat), ("log", orNull .string d.log),
    ("data", orNull bytesJson d.data), ("tags", orNull tagsJson d.tags), ("is_ok", .bool d.isOk)]

/-- The state of the application. -/
def abciInfoJson (a : AbciInfo) : Json :=
  .object [("data", orNull .string a.data),
    ("last_block_height", orNull .ofInt64 a.lastBlockHeight),
    ("last_block_app_hash", orNull bytesJson a.lastBlockAppHash),
    ("version", orNull .string a.version), ("app_version", orNull .ofInt64 a.appVersion)]

/-- The answer of the application to a query. -/
def abciQueryJson (a : AbciQuery) : Json :=
  .object [("key", bytesJson a.key), ("value", bytesJson a.value),
    ("height", orNull .ofInt64 a.height), ("index", orNull .ofInt64 a.index),
    ("code", orNull .ofInt64 a.code), ("log", orNull .string a.log)]

/-- A block with its header set apart. -/
def blockAnswerJson (b : BlockAnswer) : Json :=
  .object [("block_meta", blockMetaJson b.blockMeta), ("block", blockJson b.block)]

/-- What came of the transactions of a block. -/
def blockResultsJson (b : BlockResults) : Json :=
  .object [("height", .ofInt64 b.height), ("results", listOf txDataJson b.results),
    ("end_block", .object [
      ("validator_updates", listOf validatorJson b.endBlock.validatorUpdates),
      ("consensus_updates", orNull consensusJson b.endBlock.consensusUpdates),
      ("tags", orNull tagsJson b.endBlock.tags)])]

/-- The headers of a range of blocks. -/
def blockchainJson (b : Blockchain) : Json :=
  .object [("last_height", .ofInt64 b.lastHeight),
    ("block_metas", listOf blockMetaJson b.blockMetas)]

/-- The answer to a transaction that was checked or handed in. -/
def broadcastJson (b : Broadcast) : Json :=
  .object [("result", txDataJson b.result), ("hash", bytesJson b.hash)]

/-- The answer to a transaction that was waited for. -/
def broadcastCommitJson (b : BroadcastCommit) : Json :=
  .object [("height", orNull .ofInt64 b.height), ("hash", bytesJson b.hash),
    ("check_tx", txDataJson b.checkTx), ("deliver_tx", orNull txDataJson b.deliverTx),
    ("is_committed", .bool b.isCommitted)]

/-- A header with its votes. -/
def signedHeaderJson (s : SignedHeader) : Json :=
  .object [("header", headerJson s.header), ("commit", commitJson s.commit),
    ("canonical", .bool s.canonical)]

/-- The start of a chain. -/
def genesisJson (g : Genesis) : Json :=
  .object [("genesis_time", timeJson g.genesisTime), ("chain_id", .string g.chainId),
    ("consensus_params", consensusJson g.consensusParams),
    ("validators", listOf validatorJson g.validators), ("app_hash", bytesJson g.appHash),
    ("app_state", orNull id g.appState)]

/-- The status of a node. -/
def statusJson (s : NodeStatus) : Json :=
  .object [
    ("node_info", .object [("id", bytesJson s.nodeInfo.id),
      ("listen_addr", .string s.nodeInfo.listenAddr), ("network", .string s.nodeInfo.network),
      ("version", .string s.nodeInfo.version), ("channels", .string s.nodeInfo.channels),
      ("moniker", .string s.nodeInfo.moniker),
      ("other", .object (s.nodeInfo.other.map fun m => (m.1, .string m.2)))]),
    ("sync_info", .object [("latest_block_hash", bytesJson s.syncInfo.latestBlockHash),
      ("latest_app_hash", bytesJson s.syncInfo.latestAppHash),
      ("latest_block_height", .ofInt64 s.syncInfo.latestBlockHeight),
      ("latest_block_time", timeJson s.syncInfo.latestBlockTime),
      ("catching_up", .bool s.syncInfo.catchingUp)]),
    ("validator_info", validatorJson s.validatorInfo)]

/-- The proof that a transaction is in its block. -/
def txProofJson (p : TxProof) : Json :=
  .object [("data", bytesJson p.data), ("root_hash", bytesJson p.rootHash),
    ("total", .ofInt64 p.proof.total), ("index", .ofInt64 p.proof.index),
    ("aunts", listOf bytesJson p.proof.aunts)]

/-- A transaction with what came of it. -/
def txJson (t : Tx) : Json :=
  .object [("tx", bytesJson t.tx), ("hash", bytesJson t.hash), ("height", .ofInt64 t.height),
    ("index", .ofNat t.index.toNat), ("result", txDataJson t.result),
    ("proof", orNull txProofJson t.proof)]

/-- A page of transactions. -/
def txSearchJson (s : TxSearch) : Json :=
  .object [("txs", listOf txJson s.txs), ("total_count", .ofInt64 s.totalCount)]

/-- The validators at a height. -/
def validatorSetJson (v : ValidatorSet) : Json :=
  .object [("block_height", .ofInt64 v.blockHeight),
    ("validators", listOf validatorJson v.validators)]

/-- A transaction that a block took up. -/
def txEventJson (t : TxEvent) : Json :=
  .object [("tx", bytesJson t.tx), ("hash", bytesJson t.hash), ("height", .ofInt64 t.height),
    ("index", .ofNat t.index.toNat), ("result", txDataJson t.result)]

end Chain

/-- The answer to a method as a value. -/
def Method.report : (method : Method) → method.Reply → Json
  | .abciInfo => Chain.abciInfoJson
  | .abciQuery => Chain.abciQueryJson
  | .block => Chain.blockAnswerJson
  | .blockResults => Chain.blockResultsJson
  | .blockchain => Chain.blockchainJson
  | .broadcastTxAsync => Chain.broadcastJson
  | .broadcastTxSync => Chain.broadcastJson
  | .broadcastTxCommit => Chain.broadcastCommitJson
  | .commit => Chain.signedHeaderJson
  | .genesis => Chain.genesisJson
  | .health => fun _ => .null
  | .status => Chain.statusJson
  | .subscribe => fun _ => .null
  | .tx => Chain.txJson
  | .txSearch => Chain.txSearchJson
  | .unsubscribe => fun _ => .null
  | .validators => Chain.validatorSetJson

/-- An event of a topic as a value. -/
def Topic.report : (topic : Topic) → topic.Payload → Json
  | .newBlock => Chain.blockJson
  | .newBlockHeader => Chain.headerJson
  | .tx => Chain.txEventJson

end NodeClient
