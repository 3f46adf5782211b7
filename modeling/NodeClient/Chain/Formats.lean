import NodeClient.Chain.Types
import NodeClient.Encoding.Sha256
import NodeClient.Schema.Format

/-!
# Chain formats — the payloads of nodes, by version family

The formats of the chain types.  Nodes of the older family leave out some fields of headers and
validators and name some others differently; the formats take the family where they differ.  The
fields of a record stand in the order in which they are read.
-/

namespace NodeClient

/-- The families of node versions with one form of payloads each. -/
inductive Family where
  | v029
  | v031
deriving DecidableEq, Repr

/-- The name of a family. -/
def Family.name : Family → String
  | .v029 => "V0_29"
  | .v031 => "V0_31"

/-- All families, the oldest first. -/
def Family.all : List Family := [.v029, .v031]

namespace Chain

open Schema

/-! ### Scalars -/

/-- Text. -/
def text : Format String := .scalar .text

/-- Bytes in hexadecimal. -/
def hex : Format Bytes := .scalar .hex

/-- Bytes in base64. -/
def base64 : Format Bytes := .scalar .base64

/-- A word as decimal text. -/
def integer : Format Int64 := .scalar .integer

/-- An instant. -/
def time : Format Timestamp := .scalar .time

/-- A number that is a signed word. -/
def exactInteger (n : Json.Number) : Except DecodeError Int64 :=
  match n with
  | .integer value _ =>
    if value < 0x8000000000000000 then .ok (Int64.ofInt value) else .error (.integerRange n.render)
  | .double _ => .error (.integer n.render)

/-! ### Transactions -/

/-- A tag. -/
def tag : Format Tag :=
  .record (.plain "RpcTag" ["key", "value"])
    (Fields.build (fun key value => { key, value })
      |>.nonempty "key" "tag.key" base64
      |>.nonempty "value" "tag.value" base64)

/-- The fields of what the application said to a transaction, after those before them. -/
def txDataFields {α : Type}
    (before : Fields (UInt32 → Option String → Option Bytes → Option (List Tag) → α)) : Fields α :=
  before
    |>.orElse "code" (.scalar .word32) 0
    |>.allow "log" text
    |>.allow "data" base64
    |>.allow "tags" (.list tag)

/-- The names of those fields. -/
def txDataKeys : List String := ["code", "log", "data", "tags"]

/-- What the application said to a transaction. -/
def txData : Format TxData :=
  .record (.plain "RpcTxData" txDataKeys)
    (txDataFields (Fields.build (fun code log data tags => { code, log, data, tags })))

/-- The path of a proof. -/
def aunts : Format (List Bytes) :=
  .record (.plain "RpcAunts" ["aunts"])
    (Fields.build (fun aunts => aunts)
      |>.require "aunts" "proof.Proof.aunts" (.list base64))

/-- The proof that a transaction is in its block. -/
def txProof : Format TxProof :=
  .record (.plain "RpcTxProof" ["Data", "RootHash", "Total", "Index", "Proof"])
    (Fields.build (fun data rootHash total index aunts =>
        { data, rootHash, proof := { total, index, aunts } })
      |>.seek ["Proof"] "proof.Proof"
      |>.nonempty "Data" "proof.Data" base64
      |>.nonempty "RootHash" "proof.RootHash" hex
      |>.nonempty "Total" "proof.Total" integer
      |>.nonempty "Index" "proof.Index" integer
      |>.require "Proof" "proof.Proof" aunts)

/-- A transaction with what came of it. -/
def tx : Format Tx :=
  .record (.plain "RpcTxResponse" ["tx", "tx_result", "height", "index", "hash", "proof"])
    (Fields.build (fun tx result height index hash proof =>
        { tx, hash, height, index, result, proof })
      |>.nonempty "tx" "tx.tx" base64
      |>.require "tx_result" "tx.tx_result" txData
      |>.nonempty "height" "tx.height" integer
      |>.require "index" "tx.index" (.scalar .word32)
      |>.nonempty "hash" "tx.hash" hex
      |>.allow "proof" txProof)

/-! ### Blocks -/

/-- The parts of a block; their hash may be empty. -/
def partSet : Format PartSet :=
  .record (.plain "RpcPartSetHeader" ["total", "hash"])
    (Fields.build (fun total hash => { total, hash })
      |>.nonempty "total" "block_id.parts.total" integer
      |>.require "hash" "block_id.parts.hash" hex)

/-- A reference to a block.  Its hash may be empty: the first block refers to no block. -/
def blockId : Format BlockId :=
  .record (.plain "RpcBlockId" ["hash", "parts"])
    (Fields.build (fun hash parts => { hash, parts })
      |>.seek ["parts"] "block_id.parts"
      |>.require "hash" "block_id.hash" hex
      |>.require "parts" "block_id.parts" partSet)

/-- The versions in a header. -/
def headerVersion : Format HeaderVersion :=
  .record (.plain "RpcHeaderVersion" ["block", "app"])
    (Fields.build (fun block app => { block, app })
      |>.nonempty "block" "header.version.block" integer
      |>.nonempty "app" "header.version.app" integer)

/-- The fields that headers of both families have, after those before them. -/
def headerFields {α : Type}
    (before : Fields (String → Int64 → Timestamp → Int64 → Int64 → BlockId → Bytes → Bytes →
      Bytes → Bytes → Bytes → Bytes → Bytes → α)) : Fields α :=
  before
    |>.nonempty "chain_id" "header.chain_id" text
    |>.nonempty "height" "header.height" integer
    |>.nonempty "time" "header.time" time
    |>.nonempty "num_txs" "header.num_txs" integer
    |>.nonempty "total_txs" "header.total_txs" integer
    |>.require "last_block_id" "header.last_block_id" blockId
    |>.nonempty "app_hash" "header.app_hash" hex
    |>.nonempty "consensus_hash" "header.consensus_hash" hex
    |>.require "data_hash" "header.data_hash" hex
    |>.require "evidence_hash" "header.evidence_hash" hex
    |>.require "last_commit_hash" "header.last_commit_hash" hex
    |>.require "last_results_hash" "header.last_results_hash" hex
    |>.nonempty "validators_hash" "header.validators_hash" hex

/-- The names of those fields. -/
def headerKeys : List String :=
  ["chain_id", "height", "time", "num_txs", "total_txs", "last_block_id", "app_hash",
    "consensus_hash", "data_hash", "evidence_hash", "last_commit_hash", "last_results_hash",
    "validators_hash"]

/-- The header of a block. -/
def header : Family → Format Header
  | .v029 =>
    .record (.plain "RpcHeader" headerKeys)
      (headerFields
        (Fields.build (fun chainId height time numTxs totalTxs lastBlockId appHash consensusHash
            dataHash evidenceHash lastCommitHash lastResultsHash validatorsHash =>
          { version := none, chainId, height, time, numTxs, totalTxs, lastBlockId, appHash,
            consensusHash, dataHash, evidenceHash, lastCommitHash, lastResultsHash, validatorsHash,
            nextValidatorsHash := none, proposerAddress := none })))
  | .v031 =>
    .record
      (.plain "RpcHeader" ("version" :: headerKeys ++ ["next_validators_hash", "proposer_address"]))
      (headerFields
        (Fields.build (fun version chainId height time numTxs totalTxs lastBlockId appHash
            consensusHash dataHash evidenceHash lastCommitHash lastResultsHash validatorsHash
            nextValidatorsHash proposerAddress =>
          { version := some version, chainId, height, time, numTxs, totalTxs, lastBlockId, appHash,
            consensusHash, dataHash, evidenceHash, lastCommitHash, lastResultsHash, validatorsHash,
            nextValidatorsHash := some nextValidatorsHash,
            proposerAddress := some proposerAddress })
          |>.require "version" "header.version" headerVersion)
        |>.nonempty "next_validators_hash" "header.next_validators_hash" hex
        |>.nonempty "proposer_address" "header.proposer_address" hex)

/-- A header with the reference to its block. -/
def blockMeta (family : Family) : Format BlockMeta :=
  .record (.plain "RpcBlockMeta" ["block_id", "header"])
    (Fields.build (fun blockId header => { blockId, header })
      |>.require "block_id" "block_meta.block_id" blockId
      |>.require "header" "block_meta.header" (header family))

/-- The kind of a vote by its number. -/
def voteKindOf (n : UInt8) : Except DecodeError VoteKind :=
  if n = 1 then .ok .prevote
  else if n = 2 then .ok .precommit
  else if n = 32 then .ok .proposal
  else .error (.voteType n)

/-- A vote. -/
def vote : Format Vote :=
  .record
    (.plain "RpcVote" ["type", "validator_address", "validator_index", "height", "round",
      "timestamp", "block_id", "signature"])
    (Fields.build (fun kind validatorAddress validatorIndex height round timestamp blockId data =>
        { kind, validatorAddress, validatorIndex, height, round, timestamp, blockId,
          signature := { algorithm := .ed25519, data } })
      |>.require "type" "vote.type" (.refine (.scalar .word8) voteKindOf)
      |>.nonempty "validator_address" "vote.validator_address" hex
      |>.nonempty "validator_index" "vote.validator_index" integer
      |>.nonempty "height" "vote.height" integer
      |>.nonempty "round" "vote.round" integer
      |>.nonempty "timestamp" "vote.timestamp" time
      |>.require "block_id" "vote.block_id" blockId
      |>.nonempty "signature" "vote.signature" base64)

/-- The votes for a block. -/
def commit : Format Commit :=
  .record (.plain "RpcCommit" ["block_id", "precommits"])
    (Fields.build (fun blockId precommits => { blockId, precommits })
      |>.require "block_id" "commit.block_id" blockId
      |>.require "precommits" "commit.precommits" (.list (.nullable vote)))

/-! ### Validators and consensus -/

/-- The only type of public keys. -/
def ed25519Type : String := "tendermint/PubKeyEd25519"

/-- Checks the type of a public key. -/
def keyAlgorithmOf (kind : String) : Except DecodeError KeyAlgorithm :=
  if kind = ed25519Type then .ok .ed25519 else .error (.pubkeyType kind)

/-- A public key. -/
def pubkey : Format PublicKey :=
  .record (.plain "RpcPubkey" ["type", "value"])
    (Fields.build (fun algorithm data => { algorithm, data })
      |>.nonempty "type" "pub_key.type" (.refine text keyAlgorithmOf)
      |>.nonempty "value" "pub_key.value" base64)

/-- A validator at the start of a chain; only newer nodes report its address. -/
def genesisValidator : Family → Format Validator
  | .v029 =>
    .record (.plain "RpcValidatorGenesis" ["pub_key", "power", "name"])
      (Fields.build (fun (pubkey : PublicKey) (votingPower : Int64) (name : Option String) =>
          ({ pubkey, votingPower, address := none, name, accum := none } : Validator))
        |>.require "pub_key" "validator.pub_key" pubkey
        |>.nonempty "power" "validator.power" integer
        |>.allow "name" text)
  | .v031 =>
    .record (.plain "RpcValidatorGenesis" ["address", "pub_key", "power", "name"])
      (Fields.build (fun pubkey votingPower address name =>
          { pubkey, votingPower, address, name, accum := none })
        |>.require "pub_key" "validator.pub_key" pubkey
        |>.nonempty "power" "validator.power" integer
        |>.allow "address" hex
        |>.allow "name" text)

/-- The fields of a validator, after those before them. -/
def validatorFields {α : Type} (before : Fields (PublicKey → Int64 → Bytes → α)) : Fields α :=
  before
    |>.require "pub_key" "validator.pub_key" pubkey
    |>.nonempty "voting_power" "validator.voting_power" integer
    |>.nonempty "address" "validator.address" hex

/-- A validator in a status, in evidence or among updates. -/
def validatorUpdate : Format Validator :=
  .record (.plain "RpcValidatorUpdate" ["address", "pub_key", "voting_power"])
    (validatorFields (Fields.build (fun pubkey votingPower address =>
      { pubkey, votingPower, address := some address, name := none, accum := none })))

/-- The name of the field that holds the priority of a validator as proposer. -/
def priorityKey : Family → String
  | .v029 => "accum"
  | .v031 => "proposer_priority"

/-- A validator in a validator set. -/
def validatorData (family : Family) : Format Validator :=
  .record
    (.plain "RpcValidatorData" ["address", "pub_key", "voting_power", priorityKey family])
    (validatorFields
      (Fields.build (fun accum pubkey votingPower address =>
          { pubkey, votingPower, address := some address, name := none, accum })
        |>.allow (priorityKey family) integer))

/-- The limits on the size of a block; `label` is the name of the field that holds them. -/
def blockSize (label : String) : Format BlockSize :=
  .record (.plain "RpcBlockSizeParams" ["max_bytes", "max_gas"])
    (Fields.build (fun maxBytes maxGas => { maxBytes, maxGas })
      |>.nonempty "max_bytes" (label ++ ".max_bytes") integer
      |>.nonempty "max_gas" (label ++ ".max_gas") integer)

/-- The limits on evidence; `label` is the name of the field that holds them. -/
def evidenceLimits (label : String) : Format EvidenceLimits :=
  .record (.plain "RpcEvidenceParams" ["max_age"])
    (Fields.build (fun maxAge => { maxAge })
      |>.nonempty "max_age" (label ++ ".max_age") integer)

/-- The limits on validators. -/
def validatorLimits : Format ValidatorLimits :=
  .record (.plain "RpcValidatorParams" ["pub_key_types"])
    (Fields.build (fun pubkeyTypes => { pubkeyTypes })
      |>.require "pub_key_types" "consensus_params.validator.pub_key_types" (.list text))

/-- The names of the fields with the limits on block size and on evidence. -/
def limitKeys : Family → String × String
  | .v029 => ("block_size_params", "evidence_params")
  | .v031 => ("block_size", "evidence")

/-- The fields of the limits that both families have, after those before them. -/
def limitFields {α : Type} (keys : String × String)
    (before : Fields (BlockSize → EvidenceLimits → α)) : Fields α :=
  before
    |>.seek [keys.1] ("consensus_params." ++ keys.1)
    |>.seek [keys.2] ("consensus_params." ++ keys.2)
    |>.require keys.1 ("consensus_params." ++ keys.1) (blockSize keys.1)
    |>.require keys.2 ("consensus_params." ++ keys.2) (evidenceLimits keys.2)

/-- The parameters of consensus. -/
def consensusParams : Family → Format ConsensusParams
  | .v029 =>
    .record (.plain "RpcConsensusParams" [(limitKeys .v029).1, (limitKeys .v029).2])
      (limitFields (limitKeys .v029)
        (Fields.build (fun blockSize evidence => { blockSize, evidence, validator := none })))
  | .v031 =>
    .record (.plain "RpcConsensusParams" [(limitKeys .v031).1, (limitKeys .v031).2, "validator"])
      (limitFields (limitKeys .v031)
        (Fields.build (fun blockSize evidence validator => { blockSize, evidence, validator }))
        |>.allow "validator" validatorLimits)

/-- Evidence against a validator. -/
def evidence : Format Evidence :=
  .record
    (.plain "RpcEvidence" ["type", "validator", "height", "time", "totalVotingPower"])
    (Fields.build (fun kind height time totalVotingPower validator =>
        { kind, validator, height, time, totalVotingPower })
      |>.nonempty "type" "evidence.type" text
      |>.nonempty "height" "evidence.height" integer
      |>.nonempty "time" "evidence.time" integer
      |>.nonempty "totalVotingPower" "evidence.totalVotingPower" integer
      |>.require "validator" "evidence.validator" validatorUpdate)

/-- The evidence of a block, which may be missing. -/
def evidenceList : Format (Option (List Evidence)) :=
  .record (.plain "RpcEvidenceList" ["evidence"])
    (Fields.build (fun evidence => evidence)
      |>.allow "evidence" (.list evidence))

/-- The transactions of a block, which may be missing. -/
def blockData : Format (List Bytes) :=
  .record (.plain "RpcBlockData" ["txs"])
    (Fields.build (fun txs => txs)
      |>.orElse "txs" (.list base64) [])

/-- A block. -/
def block (family : Family) : Format Block :=
  .record (.plain "RpcBlock" ["header", "last_commit", "data", "evidence"])
    (Fields.build (fun header lastCommit txs evidence =>
        { header, lastCommit, txs, evidence := evidence.join })
      |>.seek ["data"] "block.data"
      |>.require "header" "block.header" (header family)
      |>.require "last_commit" "block.last_commit" commit
      |>.require "data" "block.data" blockData
      |>.allow "evidence" evidenceList)

/-! ### Nodes -/

/-- What a node says about itself. -/
def nodeInfo : Format NodeInfo :=
  .record
    (.plain "RpcNodeInfo" ["id", "listen_addr", "network", "version", "channels", "moniker",
      "other"])
    (Fields.build (fun id listenAddr network version channels moniker other =>
        { id, listenAddr, network, version, channels, moniker, other })
      |>.nonempty "id" "node_info.id" hex
      |>.nonempty "listen_addr" "node_info.listen_addr" text
      |>.nonempty "network" "node_info.network" text
      |>.nonempty "version" "node_info.version" text
      |>.nonempty "channels" "node_info.channels" text
      |>.nonempty "moniker" "node_info.moniker" text
      |>.require "other" "node_info.other" (.scalar .texts))

/-- How far a node has come. -/
def syncInfo : Format SyncInfo :=
  .record
    (.plain "RpcSyncInfo" ["latest_block_hash", "latest_app_hash", "latest_block_height",
      "latest_block_time", "catching_up"])
    (Fields.build (fun latestBlockHash latestAppHash latestBlockHeight latestBlockTime catchingUp =>
        { latestBlockHash, latestAppHash, latestBlockHeight, latestBlockTime, catchingUp })
      |>.nonempty "latest_block_hash" "sync_info.latest_block_hash" hex
      |>.nonempty "latest_app_hash" "sync_info.latest_app_hash" hex
      |>.nonempty "latest_block_height" "sync_info.latest_block_height" integer
      |>.nonempty "latest_block_time" "sync_info.latest_block_time" time
      |>.require "catching_up" "sync_info.catching_up" (.scalar .flag))

end Chain
end NodeClient
