import Mathlib.Logic.Function.Defs
import NodeClient.Proofs.Encoding.Binary
import NodeClient.Proofs.Encoding.IntegerText
import NodeClient.Proofs.Json.Places
import NodeClient.Request

/-!
# Requests — a request is known by its method and its arguments

`Request.read?` reads a call back, with the decoders that payloads are read with: an argument that
may be missing is missing if it has no member.

* `get?_ofMembers`: what the keys of an object look up that is built from its members.
* `wordIn?_of_get?`, `pageIn?_of_get?`: the arguments that may be missing.
* `request_read_back`: every request is read back, so that no two are written alike.
-/

namespace NodeClient

/-! ### Built objects -/

namespace Json

theorem lookup_foldl_insert (key : String) {members : List (String × Json)} (h : OneEach members)
    (acc : List (String × Json)) :
    lookup key (members.foldl (fun acc m => insert m.1 m.2 acc) acc) =
      (lookup key members).or (lookup key acc) := by
  induction members generalizing acc with
  | nil => rfl
  | cons m rest ih =>
    obtain ⟨k, v⟩ := m
    obtain ⟨hnot, hrest⟩ := List.nodup_cons.mp h
    rw [List.foldl_cons, ih hrest, lookup_cons, lookup_insert]
    by_cases hk : k = key
    · subst hk
      have hnone : lookup k rest = none :=
        lookup_eq_none.mpr fun m hm hmk => hnot (List.mem_map.mpr ⟨m, hm, hmk⟩)
      rw [if_pos rfl, if_pos rfl, hnone]
      rfl
    · rw [if_neg hk, if_neg (Ne.symm hk)]

/-- An object that is built from its members has these members. -/
theorem get?_ofMembers {members : List (String × Json)} (h : OneEach members) (key : String) :
    (ofMembers members).get? key = lookup key members := by
  rw [ofMembers, get?_object, lookup_foldl_insert key h, lookup_nil, Option.or_none]

/-- The truth value of a value. -/
def bool? : Json → Option Bool
  | .bool b => some b
  | _ => none

end Json

namespace Method

theorem ofName?_name (m : Method) : ofName? m.name = some m := by
  cases m <;> decide

end Method

namespace Request

/-! ### Reading -/

section Reading

variable (params : Json) (key : String)

/-- The text in a member. -/
def textIn? : Option String :=
  (params.get? key).bind Json.string?

/-- The truth value in a member. -/
def flagIn? : Option Bool :=
  (params.get? key).bind Json.bool?

/-- The bytes in a member in hexadecimal. -/
def hexIn? : Option Bytes :=
  (textIn? params key).bind fun text => (Hex.decode text).toOption

/-- The bytes in a member in base64. -/
def base64In? : Option Bytes :=
  (textIn? params key).bind fun text => (Base64.decode text).toOption

/-- The word in a member, if there is such a member. -/
def wordIn? : Option (Option Int64) :=
  match params.get? key with
  | none => some none
  | some v => (v.string?.bind fun text => (IntegerText.decode text).toOption).map some

/-- The page number in a member, if there is such a member. -/
def pageIn? : Option (Option UInt32) :=
  (wordIn? params key).bind fun
    | none => some none
    | some n =>
      if 0 ≤ n.toInt ∧ n.toInt < UInt32.size then some (some (UInt32.ofNat n.toInt.toNat)) else none

end Reading

/-- The request with this method and these arguments. -/
def read? (method : String) (params : Json) : Option Request := do
  match ← Method.ofName? method with
  | .abciInfo => some .abciInfo
  | .abciQuery =>
    some (.abciQuery (← textIn? params "path") (← hexIn? params "data") (← wordIn? params "height")
      (← flagIn? params "prove"))
  | .block => some (.block (← wordIn? params "height"))
  | .blockResults => some (.blockResults (← wordIn? params "height"))
  | .blockchain => some (.blockchain (← wordIn? params "minHeight") (← wordIn? params "maxHeight"))
  | .broadcastTxAsync => some (.broadcastTxAsync (← base64In? params "tx"))
  | .broadcastTxSync => some (.broadcastTxSync (← base64In? params "tx"))
  | .broadcastTxCommit => some (.broadcastTxCommit (← base64In? params "tx"))
  | .commit => some (.commit (← wordIn? params "height"))
  | .genesis => some .genesis
  | .health => some .health
  | .status => some .status
  | .subscribe => some (.subscribe (← textIn? params "query"))
  | .tx => some (.tx (← base64In? params "hash") (← flagIn? params "prove"))
  | .txSearch =>
    some (.txSearch (← textIn? params "query") (← flagIn? params "prove") (← pageIn? params "page")
      (← pageIn? params "per_page"))
  | .unsubscribe => some (.unsubscribe (← textIn? params "query"))
  | .validators => some (.validators (← wordIn? params "height"))

/-! ### What is written -/

theorem lookup_heightParam (key : String) (height : Option Int64) (k : String) :
    Json.lookup k (heightParam key height) =
      if key = k then height.map fun n => .string (IntegerText.encode n) else none := by
  cases height with
  | none => exact (ite_self none).symm
  | some n => rfl

theorem lookup_pageParam (key : String) (page : Option UInt32) (k : String) :
    Json.lookup k (pageParam key page) =
      if key = k then page.map fun n => .string (toString n.toNat) else none := by
  cases page with
  | none => exact (ite_self none).symm
  | some n => rfl

section Written

variable {params : Json} {key : String}

theorem hexIn?_of_get? {bytes : Bytes} (h : params.get? key = some (.string (Hex.encode bytes))) :
    hexIn? params key = some bytes := by
  rw [hexIn?, textIn?, h]
  exact congrArg Except.toOption (Hex.decode_encode bytes)

theorem base64In?_of_get? {bytes : Bytes}
    (h : params.get? key = some (.string (Base64.encode bytes))) :
    base64In? params key = some bytes := by
  rw [base64In?, textIn?, h]
  exact congrArg Except.toOption (Base64.decode_encode bytes)

theorem wordIn?_of_get? {height : Option Int64}
    (h : params.get? key = height.map fun n => .string (IntegerText.encode n)) :
    wordIn? params key = some height := by
  rw [wordIn?, h]
  cases height with
  | none => rfl
  | some n =>
    show ((IntegerText.decode (IntegerText.encode n)).toOption).map some = _
    rw [IntegerText.decode_encode]
    rfl

theorem pageIn?_of_get? {page : Option UInt32}
    (h : params.get? key = page.map fun n => .string (toString n.toNat)) :
    pageIn? params key = some page := by
  cases page with
  | none => rw [pageIn?, wordIn?, h]; rfl
  | some n =>
    have hlt : (n.toNat : Int) < UInt32.size := Int.ofNat_lt.mpr n.toNat_lt
    have hword : (UInt32.size : Int) ≤ 0x100000000 := by decide
    have hdecode : IntegerText.decode (toString n.toNat) = .ok (Int64.ofInt n.toNat) :=
      IntegerText.decode_toString (n := n.toNat) (by omega) (by omega)
    have htoInt : (Int64.ofInt n.toNat).toInt = n.toNat :=
      Int64.toInt_ofInt_of_le (by omega) (by omega)
    have hread : wordIn? params key = some (some (Int64.ofInt n.toNat)) := by
      simp only [wordIn?, h, Option.map_some, Json.string?, Option.bind_some, hdecode,
        Except.toOption]
    rw [pageIn?, hread]
    dsimp only [Option.bind_some]
    rw [htoInt, if_pos ⟨Int.natCast_nonneg _, hlt⟩, Int.toNat_natCast, UInt32.ofNat_toNat]

end Written

/-! ### Reading what is written -/

theorem read_height (height : Option Int64) :
    wordIn? (Json.ofMembers (heightParam "height" height)) "height" = some height := by
  refine wordIn?_of_get? ?_
  rw [Json.get?_ofMembers (by cases height <;> simp [Json.OneEach, heightParam]),
    lookup_heightParam, if_pos rfl]

theorem read_blockchain (low high : Option Int64) :
    let params := (Request.blockchain low high).params
    wordIn? params "minHeight" = some low ∧ wordIn? params "maxHeight" = some high := by
  intro params
  have hget : ∀ key, params.get? key = _ := Json.get?_ofMembers (by
    cases low <;> cases high <;> simp [Json.OneEach, heightParam])
  simp only [Json.lookup_append, lookup_heightParam] at hget
  refine ⟨wordIn?_of_get? ?_, wordIn?_of_get? ?_⟩
  · rw [hget]
    exact Option.or_none
  · rw [hget]
    exact Option.none_or

theorem read_tx (bytes : Bytes) :
    base64In? (Json.ofMembers [("tx", .string (Base64.encode bytes))]) "tx" = some bytes :=
  base64In?_of_get? rfl

theorem read_query (query : String) :
    textIn? (Json.ofMembers [("query", .string query)]) "query" = some query :=
  rfl

theorem read_hash (hash : Bytes) (prove : Bool) :
    let params := (Request.tx hash prove).params
    base64In? params "hash" = some hash ∧ flagIn? params "prove" = some prove := by
  intro params
  have hget : ∀ key, params.get? key = _ := Json.get?_ofMembers (by simp [Json.OneEach])
  refine ⟨base64In?_of_get? (hget "hash"), ?_⟩
  rw [flagIn?, hget]
  rfl

theorem read_abciQuery (path : String) (data : Bytes) (height : Option Int64) (prove : Bool) :
    let params := (Request.abciQuery path data height prove).params
    textIn? params "path" = some path ∧ hexIn? params "data" = some data ∧
      wordIn? params "height" = some height ∧ flagIn? params "prove" = some prove := by
  intro params
  have hget : ∀ key, params.get? key = _ := Json.get?_ofMembers (by
    cases height <;> simp [Json.OneEach, heightParam])
  simp only [Json.lookup_append, lookup_heightParam] at hget
  refine ⟨?_, hexIn?_of_get? (hget "data"), wordIn?_of_get? ?_, ?_⟩
  · rw [textIn?, hget]
    rfl
  · rw [hget]
    cases height <;> rfl
  · rw [flagIn?, hget]
    cases height <;> rfl

theorem read_txSearch (query : String) (prove : Bool) (page perPage : Option UInt32) :
    let params := (Request.txSearch query prove page perPage).params
    textIn? params "query" = some query ∧ flagIn? params "prove" = some prove ∧
      pageIn? params "page" = some page ∧ pageIn? params "per_page" = some perPage := by
  intro params
  have hget : ∀ key, params.get? key = _ := Json.get?_ofMembers (by
    cases page <;> cases perPage <;> simp [Json.OneEach, pageParam])
  simp only [Json.lookup_append, lookup_pageParam] at hget
  refine ⟨?_, ?_, pageIn?_of_get? ?_, pageIn?_of_get? ?_⟩
  · rw [textIn?, hget]
    rfl
  · rw [flagIn?, hget]
    rfl
  · rw [hget]
    cases page <;> rfl
  · rw [hget]
    cases perPage <;> rfl

/-! ### All requests -/

/-- **Every request is read back** from its method and its arguments, with the decoders of payloads.
So no two requests have the same method and the same arguments. -/
theorem request_read_back :
    (∀ r : Request, read? r.method.name r.params = some r) ∧
      Function.Injective fun r : Request => (r.method.name, r.params) := by
  have hread : ∀ r : Request, read? r.method.name r.params = some r := fun r => by
    unfold read?
    rw [Method.ofName?_name]
    cases r with
    | abciInfo | genesis | health | status => rfl
    | abciQuery path data height prove =>
      obtain ⟨hpath, hdata, hheight, hprove⟩ := read_abciQuery path data height prove
      simp only [method, hpath, hdata, hheight, hprove, Option.bind_eq_bind, Option.bind_some]
    | block height | blockResults height | commit height | validators height =>
      simp only [method, params, read_height, Option.bind_eq_bind, Option.bind_some]
    | blockchain low high =>
      obtain ⟨hlow, hhigh⟩ := read_blockchain low high
      simp only [method, hlow, hhigh, Option.bind_eq_bind, Option.bind_some]
    | broadcastTxAsync bytes | broadcastTxSync bytes | broadcastTxCommit bytes =>
      simp only [method, params, read_tx, Option.bind_eq_bind, Option.bind_some]
    | subscribe query | unsubscribe query =>
      simp only [method, params, read_query, Option.bind_eq_bind, Option.bind_some]
    | tx hash prove =>
      obtain ⟨hhash, hprove⟩ := read_hash hash prove
      simp only [method, hhash, hprove, Option.bind_eq_bind, Option.bind_some]
    | txSearch query prove page perPage =>
      obtain ⟨hquery, hprove, hpage, hperPage⟩ := read_txSearch query prove page perPage
      simp only [method, hquery, hprove, hpage, hperPage, Option.bind_eq_bind, Option.bind_some]
  refine ⟨hread, fun r r' h => ?_⟩
  obtain ⟨hmethod, hparams⟩ := Prod.mk.inj h
  have hboth := hread r
  rw [hmethod, hparams, hread r'] at hboth
  exact (Option.some.inj hboth).symm

end Request
end NodeClient
