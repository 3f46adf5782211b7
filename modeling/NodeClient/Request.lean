import NodeClient.Encoding.Base64
import NodeClient.Encoding.Hex
import NodeClient.Encoding.IntegerText
import NodeClient.Envelope.Basic

/-!
# Request — what can be asked of a node

A `Request` is a method with its arguments.  `Request.params` writes the arguments: words as decimal
text, the data of a query in hexadecimal, transactions and hashes in base64; an argument that is not
given has no member.
-/

namespace NodeClient

/-- The methods of a node. -/
inductive Method where
  | abciInfo
  | abciQuery
  | block
  | blockResults
  | blockchain
  | broadcastTxAsync
  | broadcastTxSync
  | broadcastTxCommit
  | commit
  | genesis
  | health
  | status
  | subscribe
  | tx
  | txSearch
  | unsubscribe
  | validators
deriving DecidableEq, Repr

namespace Method

/-- The name of a method in a call. -/
def name : Method → String
  | .abciInfo => "abci_info"
  | .abciQuery => "abci_query"
  | .block => "block"
  | .blockResults => "block_results"
  | .blockchain => "blockchain"
  | .broadcastTxAsync => "broadcast_tx_async"
  | .broadcastTxSync => "broadcast_tx_sync"
  | .broadcastTxCommit => "broadcast_tx_commit"
  | .commit => "commit"
  | .genesis => "genesis"
  | .health => "health"
  | .status => "status"
  | .subscribe => "subscribe"
  | .tx => "tx"
  | .txSearch => "tx_search"
  | .unsubscribe => "unsubscribe"
  | .validators => "validators"

/-- All methods. -/
def all : List Method :=
  [.abciInfo, .abciQuery, .block, .blockResults, .blockchain, .broadcastTxAsync, .broadcastTxSync,
    .broadcastTxCommit, .commit, .genesis, .health, .status, .subscribe, .tx, .txSearch,
    .unsubscribe, .validators]

/-- The method of this name. -/
def ofName? (name : String) : Option Method :=
  all.find? fun m => m.name == name

end Method

/-- A method with its arguments. -/
inductive Request where
  | abciInfo
  | abciQuery (path : String) (data : Bytes) (height : Option Int64) (prove : Bool)
  | block (height : Option Int64)
  | blockResults (height : Option Int64)
  | blockchain (minHeight maxHeight : Option Int64)
  | broadcastTxAsync (tx : Bytes)
  | broadcastTxSync (tx : Bytes)
  | broadcastTxCommit (tx : Bytes)
  | commit (height : Option Int64)
  | genesis
  | health
  | status
  | subscribe (query : String)
  | tx (hash : Bytes) (prove : Bool)
  | txSearch (query : String) (prove : Bool) (page perPage : Option UInt32)
  | unsubscribe (query : String)
  | validators (height : Option Int64)
deriving DecidableEq, Repr

namespace Request

/-- The method of a request. -/
def method : Request → Method
  | .abciInfo => .abciInfo
  | .abciQuery .. => .abciQuery
  | .block _ => .block
  | .blockResults _ => .blockResults
  | .blockchain .. => .blockchain
  | .broadcastTxAsync _ => .broadcastTxAsync
  | .broadcastTxSync _ => .broadcastTxSync
  | .broadcastTxCommit _ => .broadcastTxCommit
  | .commit _ => .commit
  | .genesis => .genesis
  | .health => .health
  | .status => .status
  | .subscribe _ => .subscribe
  | .tx .. => .tx
  | .txSearch .. => .txSearch
  | .unsubscribe _ => .unsubscribe
  | .validators _ => .validators

/-- A word as an argument; no member if it is not given. -/
def heightParam (key : String) : Option Int64 → List (String × Json)
  | some h => [(key, .string (IntegerText.encode h))]
  | none => []

/-- A page number as an argument; no member if it is not given. -/
def pageParam (key : String) : Option UInt32 → List (String × Json)
  | some n => [(key, .string (toString n.toNat))]
  | none => []

/-- The arguments of a request, as an object. -/
def params : Request → Json
  | .abciInfo | .genesis | .health | .status => .object []
  | .abciQuery path data height prove =>
    Json.ofMembers ([("path", .string path), ("data", .string (Hex.encode data))] ++
      heightParam "height" height ++ [("prove", .bool prove)])
  | .block h | .blockResults h | .commit h | .validators h =>
    Json.ofMembers (heightParam "height" h)
  | .blockchain min max =>
    Json.ofMembers (heightParam "minHeight" min ++ heightParam "maxHeight" max)
  | .broadcastTxAsync bytes | .broadcastTxSync bytes | .broadcastTxCommit bytes =>
    Json.ofMembers [("tx", .string (Base64.encode bytes))]
  | .subscribe query | .unsubscribe query => Json.ofMembers [("query", .string query)]
  | .tx hash prove =>
    Json.ofMembers [("hash", .string (Base64.encode hash)), ("prove", .bool prove)]
  | .txSearch query prove page perPage =>
    Json.ofMembers ([("query", .string query), ("prove", .bool prove)] ++
      pageParam "page" page ++ pageParam "per_page" perPage)

/-- The call that makes a request. -/
def toCall (request : Request) (id : Id) : Call where
  id := id
  method := request.method.name
  params := request.params

end Request
end NodeClient
