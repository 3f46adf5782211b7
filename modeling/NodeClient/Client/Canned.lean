import NodeClient.Client.Basic

/-!
# Canned — a transport with prepared answers

Each call is answered by the next prepared reply, and all calls are kept; after the last reply the
connection counts as closed.
-/

namespace NodeClient

/-- A prepared answer. -/
inductive Canned where
  /-- A success with this result and the id of the call. -/
  | result (value : Json)
  /-- A frame as a node would send it. -/
  | frame (value : Json)

namespace Canned

/-- The response that a prepared answer stands for. -/
def answer (call : Call) : Canned → Except ClientError Response
  | .result value => .ok (.success { id := call.id, result := value })
  | .frame value => (Response.ofJson value).mapError .protocol

/-- The answers that are left, and the calls so far, the last one first. -/
structure State where
  replies : List Canned
  calls : List Call

/-- Carries a call. -/
def transport : Transport State := fun s call =>
  let calls := call :: s.calls
  match s.replies with
  | [] => (.error (.transport .closed), ⟨[], calls⟩)
  | reply :: rest => (reply.answer call, ⟨rest, calls⟩)

end Canned
end NodeClient
