/-!
# Holders — who still wants the events of a query

A table from queries to the number of their holders.  The queries are in ascending order and no
number is zero.
-/

namespace NodeClient

/-- The queries that have holders, with their numbers.  Clients keep them in a hash map, whose keys
come in no fixed order; the ascending order here is a choice that no result depends on. -/
abbrev Holders := List (String × Nat)

namespace Holders

/-- The number of holders of a query. -/
def count (query : String) : Holders → Nat
  | [] => 0
  | (q, n) :: rest => if q = query then n else count query rest

/-- One holder more. -/
def add (query : String) : Holders → Holders
  | [] => [(query, 1)]
  | (q, n) :: rest =>
    if q = query then (q, n + 1) :: rest
    else if query < q then (query, 1) :: (q, n) :: rest
    else (q, n) :: add query rest

/-- One holder less; a query without holders leaves the table. -/
def remove (query : String) : Holders → Holders
  | [] => []
  | (q, n) :: rest =>
    if q = query then (if n ≤ 1 then rest else (q, n - 1) :: rest)
    else (q, n) :: remove query rest

/-- The queries that have holders. -/
def queries (holders : Holders) : List String :=
  holders.map (·.1)

end Holders
end NodeClient
