import NodeClient.Chain.Formats
import NodeClient.Request
import NodeClient.Text.Blank

/-!
# Chain results — what the methods and events of a node answer

`Method.Reply` is the type of the answer to a method and `Method.format` the format of its payload
in a family; `Topic` does the same for events.
-/

namespace NodeClient
namespace Chain

open Schema

/-! ### Methods -/

/-- The state of the application; newer nodes also report versions. -/
def abciInfoState : Family → Format AbciInfo
  | .v029 =>
    .record (.plain "RpcAbciInfoResponse" ["data", "last_block_height", "last_block_app_hash"])
      (Fields.build (fun data lastBlockHeight lastBlockAppHash =>
          ({ data, lastBlockHeight, lastBlockAppHash, version := none, appVersion := none } :
            AbciInfo))
        |>.allow "data" text
        |>.allow "last_block_height" integer
        |>.allow "last_block_app_hash" base64)
  | .v031 =>
    .record (.plain "RpcAbciInfoResponse"
        ["data", "last_block_height", "last_block_app_hash", "version", "app_version"])
      (Fields.build AbciInfo.mk
        |>.allow "data" text
        |>.allow "last_block_height" integer
        |>.allow "last_block_app_hash" base64
        |>.allow "version" text
        |>.allow "app_version" integer)

/-- The answer to `abci_info`. -/
def abciInfo (family : Family) : Format AbciInfo :=
  .record (.plain "AbciInfoResult" ["response"])
    (Fields.build id |>.require "response" "abci_info.response" (abciInfoState family))

/-- The answer of the application to a query. -/
def abciQueryAnswer : Format AbciQuery :=
  .record (.plain "RpcAbciQueryResponse" ["key", "value", "height", "index", "code", "log"])
    (Fields.build AbciQuery.mk
      |>.orElse "key" base64 []
      |>.orElse "value" base64 []
      |>.allow "height" integer
      |>.allow "index" integer
      |>.allow "code" (.refine (.scalar .number) exactInteger)
      |>.allow "log" text)

/-- The answer to `abci_query`. -/
def abciQuery : Format AbciQuery :=
  .record (.plain "AbciQueryResult" ["response"])
    (Fields.build id |>.require "response" "abci_query.response" abciQueryAnswer)

/-- The answer to `block`. -/
def blockAnswer (family : Family) : Format BlockAnswer :=
  .record (.plain "RpcBlockResponse" ["block_meta", "block"])
    (Fields.build BlockAnswer.mk
      |>.require "block_meta" "block_meta" (blockMeta family)
      |>.require "block" "block" (block family))

/-- What changed at the end of a block. -/
def endBlock (family : Family) : Format EndBlock :=
  .record (.plain "RpcEndBlock" ["validator_updates", "consensus_param_updates", "tags"])
    (Fields.build EndBlock.mk
      |>.orElse "validator_updates" (.list validatorUpdate) []
      |>.allow "consensus_param_updates" (consensusParams family)
      |>.allow "tags" (.list tag))

/-- The results of transactions with the end of the block. -/
def deliveries (family : Family) : Format (List TxData × EndBlock) :=
  .record (.plain "RpcBlockResults" ["DeliverTx", "EndBlock"])
    (Fields.build Prod.mk
      |>.orElse "DeliverTx" (.list txData) []
      |>.require "EndBlock" "block_results.results.EndBlock" (endBlock family))

/-- The answer to `block_results`. -/
def blockResults (family : Family) : Format BlockResults :=
  .record (.plain "RpcBlockResultsResponse" ["height", "results"])
    (Fields.build (fun (height : Int64) (found : List TxData × EndBlock) =>
        ({ height, results := found.1, endBlock := found.2 } : BlockResults))
      |>.seek ["results"] "block_results.results"
      |>.seek ["results", "EndBlock"] "block_results.results.EndBlock"
      |>.nonempty "height" "block_results.height" integer
      |>.require "results" "block_results.results" (deliveries family))

/-- The answer to `blockchain`. -/
def blockchain (family : Family) : Format Blockchain :=
  .record (.plain "RpcBlockchainResponse" ["last_height", "block_metas"])
    (Fields.build Blockchain.mk
      |>.nonempty "last_height" "blockchain.last_height" integer
      |>.require "block_metas" "blockchain.block_metas" (.list (blockMeta family)))

/-- The answer to a transaction that was checked or handed in: the fields of what the application
said stand beside the hash. -/
def broadcast : Format Broadcast :=
  .record (.merged "RpcBroadcastTxSyncResponse" ["hash"] txDataKeys)
    (txDataFields
      (Fields.build (fun hash code log data tags => { result := { code, log, data, tags }, hash })
        |>.nonempty "hash" "broadcast_tx.hash" hex))

/-- The answer to a transaction that was waited for. -/
def broadcastCommit : Format BroadcastCommit :=
  .record (.plain "RpcBroadcastTxCommitResponse" ["height", "hash", "check_tx", "deliver_tx"])
    (Fields.build BroadcastCommit.mk
      |>.allow "height" integer
      |>.nonempty "hash" "broadcast_tx_commit.hash" hex
      |>.require "check_tx" "broadcast_tx_commit.check_tx" txData
      |>.allow "deliver_tx" txData)

/-- A header with its votes. -/
def signedHeader (family : Family) : Format (Header × Commit) :=
  .record (.plain "RpcSignedHeader" ["header", "commit"])
    (Fields.build Prod.mk
      |>.require "header" "commit.signed_header.header" (header family)
      |>.require "commit" "commit.signed_header.commit" commit)

/-- The answer to `commit`. -/
def commitAnswer (family : Family) : Format SignedHeader :=
  .record (.plain "RpcCommitResponse" ["signed_header", "canonical"])
    (Fields.build (fun (canonical : Bool) (signed : Header × Commit) =>
        ({ header := signed.1, commit := signed.2, canonical } : SignedHeader))
      |>.seek ["signed_header"] "commit.signed_header"
      |>.require "canonical" "commit.canonical" (.scalar .flag)
      |>.require "signed_header" "commit.signed_header" (signedHeader family))

/-- The start of a chain.  The hash of the application may be empty: some start without state. -/
def genesisDocument (family : Family) : Format Genesis :=
  .record
    (.plain "RpcGenesisResponse" ["genesis_time", "chain_id", "consensus_params", "validators",
      "app_hash", "app_state"])
    (Fields.build Genesis.mk
      |>.nonempty "genesis_time" "genesis.genesis_time" time
      |>.nonempty "chain_id" "genesis.chain_id" text
      |>.require "consensus_params" "genesis.consensus_params" (consensusParams family)
      |>.require "validators" "genesis.validators" (.list (genesisValidator family))
      |>.require "app_hash" "genesis.app_hash" hex
      |>.allow "app_state" (.scalar .json))

/-- The answer to `genesis`. -/
def genesis (family : Family) : Format Genesis :=
  .record (.plain "GenesisResult" ["genesis"])
    (Fields.build id |>.require "genesis" "genesis" (genesisDocument family))

/-- The answer to `status`. -/
def status : Format NodeStatus :=
  .record (.plain "RpcStatusResponse" ["node_info", "sync_info", "validator_info"])
    (Fields.build NodeStatus.mk
      |>.require "node_info" "status.node_info" nodeInfo
      |>.require "sync_info" "status.sync_info" syncInfo
      |>.require "validator_info" "status.validator_info" validatorUpdate)

/-- The answer to `tx_search`. -/
def txSearch : Format TxSearch :=
  .record (.plain "RpcTxSearchResponse" ["txs", "total_count"])
    (Fields.build (fun (totalCount : Int64) (txs : List Tx) =>
        ({ txs, totalCount } : TxSearch))
      |>.nonempty "total_count" "tx_search.total_count" integer
      |>.require "txs" "tx_search.txs" (.list tx))

/-- The answer to `validators`. -/
def validatorSet (family : Family) : Format ValidatorSet :=
  .record (.plain "RpcValidatorsResponse" ["block_height", "validators"])
    (Fields.build ValidatorSet.mk
      |>.nonempty "block_height" "validators.block_height" integer
      |>.require "validators" "validators.validators" (.list (validatorData family)))

/-- An answer that says nothing. -/
def nothing : Format Unit :=
  .refine (.scalar .json) fun _ => .ok ()

/-! ### Events -/

/-- A new block. -/
def newBlock (family : Family) : Format Block :=
  .record (.plain "RpcNewBlockEvent" ["block"])
    (Fields.build id |>.require "block" "event.block" (block family))

/-- The header of a new block. -/
def newBlockHeader (family : Family) : Format Header :=
  .record (.plain "RpcNewBlockHeaderEvent" ["header"])
    (Fields.build id |>.require "header" "event.header" (header family))

/-- A transaction that a block took up; its bytes may be empty. -/
def txTaken : Format TxEvent :=
  .record (.plain "RpcTxEvent" ["tx", "result", "height", "index"])
    (Fields.build (fun (tx : Bytes) (result : TxData) (height : Int64) (index : UInt32) =>
        ({ tx, hash := Sha256.hash tx, height, index, result } : TxEvent))
      |>.require "tx" "event.TxResult.tx" base64
      |>.require "result" "event.TxResult.result" txData
      |>.nonempty "height" "event.TxResult.height" integer
      |>.require "index" "event.TxResult.index" (.scalar .word32))

/-- A transaction event. -/
def txEvent : Format TxEvent :=
  .record (.plain "RpcTxEventValue" ["TxResult"])
    (Fields.build id |>.require "TxResult" "event.TxResult" txTaken)

end Chain

/-! ### Answers by method -/

namespace Method

/-- What a method answers. -/
def Reply : Method → Type
  | .abciInfo => AbciInfo
  | .abciQuery => AbciQuery
  | .block => BlockAnswer
  | .blockResults => BlockResults
  | .blockchain => Blockchain
  | .broadcastTxAsync => Broadcast
  | .broadcastTxSync => Broadcast
  | .broadcastTxCommit => BroadcastCommit
  | .commit => SignedHeader
  | .genesis => Genesis
  | .health => Unit
  | .status => NodeStatus
  | .subscribe => Unit
  | .tx => Tx
  | .txSearch => TxSearch
  | .unsubscribe => Unit
  | .validators => ValidatorSet

/-- The format of the answer to a method. -/
def format (family : Family) : (method : Method) → Schema.Format method.Reply
  | .abciInfo => Chain.abciInfo family
  | .abciQuery => Chain.abciQuery
  | .block => Chain.blockAnswer family
  | .blockResults => Chain.blockResults family
  | .blockchain => Chain.blockchain family
  | .broadcastTxAsync => Chain.broadcast
  | .broadcastTxSync => Chain.broadcast
  | .broadcastTxCommit => Chain.broadcastCommit
  | .commit => Chain.commitAnswer family
  | .genesis => Chain.genesis family
  | .health => Chain.nothing
  | .status => Chain.status
  | .subscribe => Chain.nothing
  | .tx => Chain.tx
  | .txSearch => Chain.txSearch
  | .unsubscribe => Chain.nothing
  | .validators => Chain.validatorSet family

end Method

/-! ### Answers by topic -/

/-- What a client can be told about. -/
inductive Topic where
  | newBlock
  | newBlockHeader
  | tx
deriving DecidableEq, Repr

namespace Topic

/-- What an event of a topic carries. -/
def Payload : Topic → Type
  | .newBlock => Block
  | .newBlockHeader => Header
  | .tx => TxEvent

/-- The format of the events of a topic. -/
def format (family : Family) : (topic : Topic) → Schema.Format topic.Payload
  | .newBlock => Chain.newBlock family
  | .newBlockHeader => Chain.newBlockHeader family
  | .tx => Chain.txEvent

/-- The query for all events of a topic. -/
def query : Topic → String
  | .newBlock => "tm.event='NewBlock'"
  | .newBlockHeader => "tm.event='NewBlockHeader'"
  | .tx => "tm.event='Tx'"

/-- The query for the transactions that meet a condition; all of them meet a blank one. -/
def txQuery (condition : String) : String :=
  if Text.isBlank condition then Topic.tx.query else Topic.tx.query ++ " AND " ++ condition

end Topic
end NodeClient
