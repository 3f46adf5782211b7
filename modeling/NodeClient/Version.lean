import NodeClient.Chain.Formats

/-!
# Version — choosing the family from the version of a node

A table lists prefixes of versions with the family for each.  `VersionTable.check` reports what
could make it ambiguous; `VersionTable.familyOf?` is the family of the first row whose prefix starts
a version.
-/

namespace NodeClient

/-- Prefixes of versions and the family for each. -/
abbrev VersionTable := List (String × Family)

namespace VersionTable

/-- What is wrong with a table. -/
inductive Flaw where
  | noRows
  | badPrefix (found : String)
  | overlap (first second : String)
  | unreachable (family : Family)
deriving DecidableEq, Repr

/-- The text of a flaw. -/
def Flaw.message : Flaw → String
  | .noRows => "version table is empty"
  | .badPrefix p => "prefix `" ++ p ++ "` must be non-empty and end with `.`"
  | .overlap p q => "prefixes `" ++ p ++ "` and `" ++ q ++ "` overlap"
  | .unreachable family => "family " ++ family.name ++ " is unreachable"

/-- Whether a text starts with another one. -/
def starts (start text : String) : Bool :=
  start.toList.isPrefixOf text.toList

/-- The rows that are left, each checked by itself and against the rows after it. -/
def checkRows : VersionTable → Except Flaw Unit
  | [] => .ok ()
  | (p, _) :: rest =>
    if p.toList.getLast? ≠ some '.' then .error (.badPrefix p)
    else
      match rest.find? fun row => starts p row.1 || starts row.1 p with
      | some (q, _) => .error (.overlap p q)
      | none => checkRows rest

/-- The first thing that is wrong with a table. -/
def check (table : VersionTable) : Except Flaw Unit := do
  if table.isEmpty then throw .noRows
  checkRows table
  match Family.all.find? fun family => !table.any fun row => row.2 == family with
  | some family => throw (.unreachable family)
  | none => pure ()

/-- The family of the first row that matches a version. -/
def familyOf? (table : VersionTable) (version : String) : Option Family :=
  (table.find? fun row => starts row.1 version).map (·.2)

/-- The versions that are known. -/
def known : VersionTable :=
  [("0.29.", .v029), ("0.30.", .v029), ("0.31.", .v031)]

end VersionTable

/-- The version in the raw answer to `status`, before a family is chosen. -/
def nodeVersion (status : Json) : Except DecodeError String :=
  match ((status.get? "node_info").bind fun info => info.get? "version").bind Json.string? with
  | none => .error (.missing "node_info.version")
  | some version => if version = "" then .error (.empty "node_info.version") else .ok version

end NodeClient
