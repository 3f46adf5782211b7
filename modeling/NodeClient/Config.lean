import NodeClient.Schema.Format
import NodeClient.Url

/-!
# Config — the settings of a connection

`Config.ofJson` reads settings, missing ones taking their defaults; `Config.validate` checks them
and says which transport the URL selects.
-/

namespace NodeClient

/-- How a node is spoken to. -/
inductive TransportKind where
  /-- One connection with events. -/
  | websocket
  /-- One exchange per call, without events. -/
  | http
deriving DecidableEq, Repr

/-- The name of a kind. -/
def TransportKind.name : TransportKind → String
  | .websocket => "Websocket"
  | .http => "Http"

/-- What is wrong with settings. -/
inductive ConfigError where
  | invalidUrl (url : String) (cause : Url.Error)
  | scheme (found : String)
  | sendTimeout
  | rate
  | notHttp (url : String)
  | notWebsocket (url : String)
  | table (flaw : String)
deriving DecidableEq, Repr

/-- The text of the error. -/
def ConfigError.message : ConfigError → String
  | .invalidUrl url cause =>
    "invalid connection `" ++ url ++ "`: expected ws(s) or http(s) URL (" ++ cause.message ++ ")"
  | .scheme found =>
    "unsupported connection scheme `" ++ found ++ "`; expected ws, wss, http or https"
  | .sendTimeout => "send timeout must be greater than zero"
  | .rate => "requests_per_second must be at least 1"
  | .notHttp url => "`" ++ url ++ "` is not an HTTP URL"
  | .notWebsocket url => "`" ++ url ++ "` is not a websocket URL"
  | .table flaw => flaw

/-- The settings of a connection; times are in milliseconds. -/
structure Config where
  url : String := "ws://localhost:26657/websocket"
  sendTimeout : UInt64 := 10000
  connectTimeout : UInt64 := 10000
  requestTimeout : UInt64 := 30000
  /-- The greatest number of calls in a second, if there is one. -/
  rate : Option UInt32 := none
deriving DecidableEq, Repr

namespace Config

open Schema

/-- The settings in the order of an array. -/
def keys : List String :=
  ["url", "send_timeout_ms", "connect_timeout_ms", "request_timeout_ms", "requests_per_second"]

/-- A time span. -/
def asMillis (v : Json) : Except Mismatch UInt64 :=
  (asWord UInt64.size .word64 v).map UInt64.ofNat

/-- A limit on the rate, where `null` is none. -/
def asRate (v : Json) : Except Mismatch (Option UInt32) :=
  match v with
  | .null => .ok none
  | other => (asWord UInt32.size .word32 other).map fun n => some (UInt32.ofNat n)

/-- Takes over one setting; unknown ones do not count. -/
def set (config : Config) (key : String) (v : Json) : Except Mismatch Config :=
  if key = "url" then (asText v).map fun url => { config with url }
  else if key = "send_timeout_ms" then
    (asMillis v).map fun sendTimeout => { config with sendTimeout }
  else if key = "connect_timeout_ms" then
    (asMillis v).map fun connectTimeout => { config with connectTimeout }
  else if key = "request_timeout_ms" then
    (asMillis v).map fun requestTimeout => { config with requestTimeout }
  else if key = "requests_per_second" then (asRate v).map fun rate => { config with rate }
  else .ok config

/-- Takes over settings in turn. -/
def setAll (config : Config) (members : List (String × Json)) : Except Mismatch Config :=
  members.foldlM (fun c m => c.set m.1 m.2) config

/-- Reads settings from an object, or from an array in the order of `keys`. -/
def ofJson (v : Json) : Except Mismatch Config :=
  match v with
  | .object members => setAll {} members
  | .array items => do
    let config ← setAll {} (keys.zip items)
    if keys.length < items.length then throw (.tooLong items.length keys.length .direct)
    pure config
  | other => .error (.kind other (.record "ClientConfig"))

/-- The transport that a URL selects. -/
def transportOf (url : String) : Except ConfigError TransportKind :=
  match Url.scheme url with
  | .error cause => .error (.invalidUrl url cause)
  | .ok scheme =>
    if scheme = "ws" ∨ scheme = "wss" then .ok .websocket
    else if scheme = "http" ∨ scheme = "https" then .ok .http
    else .error (.scheme scheme)

/-- Checks the settings, the URL first. -/
def validate (config : Config) : Except ConfigError TransportKind := do
  let kind ← transportOf config.url
  if config.sendTimeout = 0 then throw .sendTimeout
  if config.rate = some 0 then throw .rate
  pure kind

/-- Checks that the settings are those of a kind of transport. -/
def expect (config : Config) (kind : TransportKind) : Except ConfigError Unit := do
  let found ← config.validate
  if found ≠ kind then
    match kind with
    | .http => throw (.notHttp config.url)
    | .websocket => throw (.notWebsocket config.url)

end Config
end NodeClient
