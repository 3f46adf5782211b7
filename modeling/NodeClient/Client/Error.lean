import NodeClient.Config
import NodeClient.Error

/-!
# Client error — what a call can fail with
-/

namespace NodeClient

/-- Why a call failed. -/
inductive ClientError where
  | transport (cause : TransportError)
  | protocol (cause : ProtocolError)
  | decode (cause : DecodeError)
  | unsupportedVersion (version : String)
  /-- The node answered with a fault. -/
  | fault (fault : Fault)
  | config (cause : ConfigError)

/-- The text of the error. -/
def ClientError.message : ClientError → String
  | .transport cause => cause.message
  | .protocol cause => cause.message
  | .decode cause => cause.message
  | .unsupportedVersion version => "unsupported tendermint version: " ++ version
  | .fault f => "server error " ++ toString f.code.toInt ++ ": " ++ f.message
  | .config cause => "invalid configuration: " ++ cause.message

end NodeClient
