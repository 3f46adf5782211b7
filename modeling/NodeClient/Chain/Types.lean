import NodeClient.Encoding.Timestamp
import NodeClient.Json.Basic

/-!
# Chain types — blocks, votes, validators and transactions

The objects that payloads stand for, the same for every version of a node.  Byte fields hold decoded
bytes; a field that only some versions report is optional.
-/

namespace NodeClient

/-! ### Keys and signatures -/

/-- The algorithm of keys and signatures. -/
inductive KeyAlgorithm where
  | ed25519
deriving DecidableEq, Repr

/-- The public key of a validator. -/
structure PublicKey where
  algorithm : KeyAlgorithm
  data : Bytes
deriving DecidableEq, Repr

/-- The signature of a validator. -/
structure Signature where
  algorithm : KeyAlgorithm
  data : Bytes
deriving DecidableEq, Repr

/-! ### Blocks -/

/-- The number of parts that a block is sent in, and their hash. -/
structure PartSet where
  total : Int64
  hash : Bytes
deriving DecidableEq, Repr

/-- A reference to a block. -/
structure BlockId where
  hash : Bytes
  parts : PartSet
deriving DecidableEq, Repr

/-- The versions of the block protocol and of the application. -/
structure HeaderVersion where
  block : Int64
  app : Int64
deriving DecidableEq, Repr

/-- The header of a block. -/
structure Header where
  version : Option HeaderVersion
  chainId : String
  height : Int64
  time : Timestamp
  numTxs : Int64
  totalTxs : Int64
  lastBlockId : BlockId
  appHash : Bytes
  consensusHash : Bytes
  dataHash : Bytes
  evidenceHash : Bytes
  lastCommitHash : Bytes
  lastResultsHash : Bytes
  validatorsHash : Bytes
  nextValidatorsHash : Option Bytes
  proposerAddress : Option Bytes
deriving DecidableEq, Repr

/-- A header with the reference to its block. -/
structure BlockMeta where
  blockId : BlockId
  header : Header
deriving DecidableEq, Repr

/-- What a vote is cast in. -/
inductive VoteKind where
  | prevote
  | precommit
  | proposal
deriving DecidableEq, Repr

/-- The signed vote of a validator. -/
structure Vote where
  kind : VoteKind
  validatorAddress : Bytes
  validatorIndex : Int64
  height : Int64
  round : Int64
  timestamp : Timestamp
  blockId : BlockId
  signature : Signature
deriving DecidableEq, Repr

/-- The votes for a block, one place for each validator. -/
structure Commit where
  blockId : BlockId
  precommits : List (Option Vote)
deriving DecidableEq, Repr

/-! ### Validators and consensus -/

/-- A validator, as far as the payload tells. -/
structure Validator where
  pubkey : PublicKey
  votingPower : Int64
  address : Option Bytes
  name : Option String
  accum : Option Int64
deriving DecidableEq, Repr

/-- The limits on the size of a block. -/
structure BlockSize where
  maxBytes : Int64
  maxGas : Int64
deriving DecidableEq, Repr

/-- The limits on evidence. -/
structure EvidenceLimits where
  maxAge : Int64
deriving DecidableEq, Repr

/-- The limits on validators. -/
structure ValidatorLimits where
  pubkeyTypes : List String
deriving DecidableEq, Repr

/-- The parameters of consensus. -/
structure ConsensusParams where
  blockSize : BlockSize
  evidence : EvidenceLimits
  validator : Option ValidatorLimits
deriving DecidableEq, Repr

/-- The proof that a validator misbehaved. -/
structure Evidence where
  kind : String
  validator : Validator
  height : Int64
  time : Int64
  totalVotingPower : Int64
deriving DecidableEq, Repr

/-- A block. -/
structure Block where
  header : Header
  lastCommit : Commit
  txs : List Bytes
  evidence : Option (List Evidence)
deriving DecidableEq, Repr

/-! ### Transactions -/

/-- A tag that an application puts on a transaction. -/
structure Tag where
  key : Bytes
  value : Bytes
deriving DecidableEq, Repr

/-- What the application said to a transaction. -/
structure TxData where
  code : UInt32
  log : Option String
  data : Option Bytes
  tags : Option (List Tag)
deriving DecidableEq, Repr

/-- The application accepted the transaction. -/
def TxData.isOk (data : TxData) : Bool :=
  data.code == 0

/-- The path from a transaction to the root of its block. -/
structure MerkleProof where
  total : Int64
  index : Int64
  aunts : List Bytes
deriving DecidableEq, Repr

/-- The proof that a transaction is in its block. -/
structure TxProof where
  data : Bytes
  rootHash : Bytes
  proof : MerkleProof
deriving DecidableEq, Repr

/-! ### Answers to calls -/

/-- The state of the application. -/
structure AbciInfo where
  data : Option String
  lastBlockHeight : Option Int64
  lastBlockAppHash : Option Bytes
  version : Option String
  appVersion : Option Int64
deriving DecidableEq, Repr

/-- The answer of the application to a query. -/
structure AbciQuery where
  key : Bytes
  value : Bytes
  height : Option Int64
  index : Option Int64
  code : Option Int64
  log : Option String
deriving DecidableEq, Repr

/-- A block with its header set apart. -/
structure BlockAnswer where
  blockMeta : BlockMeta
  block : Block
deriving DecidableEq, Repr

/-- What changed at the end of a block. -/
structure EndBlock where
  validatorUpdates : List Validator
  consensusUpdates : Option ConsensusParams
  tags : Option (List Tag)
deriving DecidableEq, Repr

/-- What came of the transactions of a block. -/
structure BlockResults where
  height : Int64
  results : List TxData
  endBlock : EndBlock
deriving DecidableEq, Repr

/-- The headers of a range of blocks. -/
structure Blockchain where
  lastHeight : Int64
  blockMetas : List BlockMeta
deriving DecidableEq, Repr

/-- The answer to a transaction that was checked or handed in. -/
structure Broadcast where
  result : TxData
  hash : Bytes
deriving DecidableEq, Repr

/-- The answer to a transaction that was waited for. -/
structure BroadcastCommit where
  height : Option Int64
  hash : Bytes
  checkTx : TxData
  deliverTx : Option TxData
deriving DecidableEq, Repr

/-- The transaction was accepted twice: when it was checked and in its block. -/
def BroadcastCommit.isCommitted (b : BroadcastCommit) : Bool :=
  b.checkTx.isOk && match b.deliverTx with
    | some d => d.isOk
    | none => false

/-- A header with the votes for it. -/
structure SignedHeader where
  header : Header
  commit : Commit
  canonical : Bool
deriving DecidableEq, Repr

/-- The start of a chain; the state of the application is any value. -/
structure Genesis where
  genesisTime : Timestamp
  chainId : String
  consensusParams : ConsensusParams
  validators : List Validator
  appHash : Bytes
  appState : Option Json

/-- What a node says about itself. -/
structure NodeInfo where
  id : Bytes
  listenAddr : String
  network : String
  version : String
  channels : String
  moniker : String
  other : List (String × String)
deriving DecidableEq, Repr

/-- How far a node has come. -/
structure SyncInfo where
  latestBlockHash : Bytes
  latestAppHash : Bytes
  latestBlockHeight : Int64
  latestBlockTime : Timestamp
  catchingUp : Bool
deriving DecidableEq, Repr

/-- The status of a node. -/
structure NodeStatus where
  nodeInfo : NodeInfo
  syncInfo : SyncInfo
  validatorInfo : Validator
deriving DecidableEq, Repr

/-- A transaction with what came of it. -/
structure Tx where
  tx : Bytes
  hash : Bytes
  height : Int64
  index : UInt32
  result : TxData
  proof : Option TxProof
deriving DecidableEq, Repr

/-- A page of transactions. -/
structure TxSearch where
  txs : List Tx
  totalCount : Int64
deriving DecidableEq, Repr

/-- The validators at a height. -/
structure ValidatorSet where
  blockHeight : Int64
  validators : List Validator
deriving DecidableEq, Repr

/-- A transaction that a block took up; its hash is computed from its bytes. -/
structure TxEvent where
  tx : Bytes
  hash : Bytes
  height : Int64
  index : UInt32
  result : TxData
deriving DecidableEq, Repr

end NodeClient
