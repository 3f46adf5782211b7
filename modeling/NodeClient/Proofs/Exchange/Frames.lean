import NodeClient.Proofs.Exchange.Operations
import NodeClient.Proofs.Json.Tokens

/-!
# Frames — which calls of its own an exchange queues

An exchange queues texts.  Its own calls are those that subscribe to a query and those that
unsubscribe from one; their texts tell them apart, with their numbers and their queries.

* `ownId_inj`: the ids of own calls differ.
* `subscribeText_inj`, `unsubscribeText_inj`, `subscribeText_ne_unsubscribeText`.
-/

namespace NodeClient
namespace Exchange

/-! ### Ids -/

theorem toString_nat_inj {m n : Nat} (h : toString m = toString n) : m = n := by
  have hdigits : Nat.toDigits 10 m = Nat.toDigits 10 n := by
    rw [← Nat.toList_repr, ← Nat.toList_repr]
    exact congrArg String.toList h
  rw [← Nat.ofDigitChars_toDigits (b := 10) (n := m) (by decide) (by decide), hdigits,
    Nat.ofDigitChars_toDigits (by decide) (by decide)]

theorem tmrpc_inj {m n : Nat} (h : "tmrpc-" ++ toString m = "tmrpc-" ++ toString n) : m = n := by
  refine toString_nat_inj (String.toList_inj.mp ?_)
  have hlist := congrArg String.toList h
  rw [String.toList_append, String.toList_append] at hlist
  exact List.append_cancel_left hlist

/-- The ids of an exchange's own calls differ. -/
theorem ownId_inj {m n : Nat} (h : (ownId m).same (ownId n) = true) : m = n :=
  tmrpc_inj (beq_iff_eq.mp h)

/-! ### Texts -/

/-- The frame that asks for the events of a query. -/
def subscribeText (query : String) (n : Nat) : String :=
  ownText (.subscribe query) n

/-- The frame that asks for them no longer. -/
def unsubscribeText (query : String) (n : Nat) : String :=
  ownText (.unsubscribe query) n

/-- A quoted string as a token. -/
def textToken (s : String) : Json.Token :=
  .scalar (.string s)

/-- The tokens of a call about a query. -/
def callTokens (id method query : String) : List Json.Token :=
  [.openObject, textToken "jsonrpc", .colon, textToken envelopeVersion, .comma,
    textToken "id", .colon, textToken id, .comma,
    textToken "method", .colon, textToken method, .comma,
    textToken "params", .colon,
      .openObject, textToken "query", .colon, textToken query, .closeObject, .closeObject]

open Json in
theorem reads_call (id method query : String) :
    Json.Reads
      (Call.mk (.string id) method (.object [("query", .string query)])).toJson.render
      (callTokens id method query) := by
  have hmember : ∀ k v : String,
      Reads (quote k ++ ":" ++ quote v) [textToken k, .colon, textToken v] := fun k v =>
    ((reads_quote k).append reads_colon).append (reads_quote v)
  have hmore : ∀ {k v text : String} {tokens : List Token}, Reads text tokens →
      Reads (quote k ++ ":" ++ quote v ++ "," ++ text)
        ([textToken k, .colon, textToken v, .comma] ++ tokens) := fun h =>
    ((hmember _ _).append reads_comma).append h
  have hparams : Reads (quote "params" ++ ":" ++ ("\x7b" ++ (quote "query" ++ ":" ++ quote query) ++
      "\x7d")) ([textToken "params", .colon] ++
        ([.openObject] ++ [textToken "query", .colon, textToken query] ++ [.closeObject])) :=
    ((reads_quote "params").append reads_colon).append
      ((reads_openObject.append (hmember "query" query)).append reads_closeObject)
  simp only [Call.toJson, render, renderMembers, versionMember, Id.toJson]
  exact (reads_openObject.append (hmore (hmore (hmore hparams)))).append reads_closeObject

/-- An exchange's own call about a query is known from its text. -/
theorem call_inj {id id' method method' query query' : String}
    (h : (Call.mk (.string id) method (.object [("query", .string query)])).toJson.render =
      (Call.mk (.string id') method' (.object [("query", .string query')])).toJson.render) :
    id = id' ∧ method = method' ∧ query = query' := by
  have hread := reads_call id method query
  rw [h] at hread
  have htokens := hread.unique (reads_call id' method' query')
  simpa [callTokens, textToken] using htokens

theorem subscribeText_inj {q q' : String} {n n' : Nat} :
    subscribeText q n = subscribeText q' n' ↔ q = q' ∧ n = n' := by
  constructor
  · intro h
    obtain ⟨hid, -, hq⟩ := call_inj h
    exact ⟨hq, tmrpc_inj hid⟩
  · rintro ⟨rfl, rfl⟩
    rfl

theorem unsubscribeText_inj {q q' : String} {n n' : Nat} :
    unsubscribeText q n = unsubscribeText q' n' ↔ q = q' ∧ n = n' := by
  constructor
  · intro h
    obtain ⟨hid, -, hq⟩ := call_inj h
    exact ⟨hq, tmrpc_inj hid⟩
  · rintro ⟨rfl, rfl⟩
    rfl

theorem subscribeText_ne_unsubscribeText (q q' : String) (n n' : Nat) :
    subscribeText q n ≠ unsubscribeText q' n' := by
  intro h
  obtain ⟨-, hmethod, -⟩ := call_inj h
  have hmethod : "subscribe" = "unsubscribe" := hmethod
  exact absurd hmethod (by decide)

end Exchange
end NodeClient
