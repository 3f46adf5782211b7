import NodeClient.Client.Error
import NodeClient.Line.Basic

/-!
# Opening — waiting for the first connection

An exchange is opened by connecting its line and watching the statuses that follow.
-/

namespace NodeClient
namespace Exchange

/-- What the statuses that follow a connect come to, once that is known. -/
def opening? : List Status → Option (Except TransportError Unit)
  | [] => none
  | .connected :: _ => some (.ok ())
  | .disconnected :: _ => some (.error (.connect "connection refused or dropped"))
  | _ :: rest => opening? rest

/-- What opening comes to when the time for it, in milliseconds, is up. -/
def opened (timeout : Nat) (statuses : List Status) : Except TransportError Unit :=
  (opening? statuses).getD (.error (.connect ("timed out after " ++ millisText timeout)))

end Exchange
end NodeClient
