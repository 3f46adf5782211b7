/-!
# Link events — what a link reports
-/

namespace NodeClient

/-- What a link reports. -/
inductive LinkEvent where
  /-- A frame came in. -/
  | message (text : String)
  /-- The connection failed after it was open. -/
  | error (reason : String)
  | closed
deriving DecidableEq, Repr, Inhabited

end NodeClient
