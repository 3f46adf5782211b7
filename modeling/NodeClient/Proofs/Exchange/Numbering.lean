import NodeClient.Proofs.Exchange.Counting

/-!
# Numbering — the requests that an exchange makes of its own

An exchange asks for the events of a query and stops them in requests of its own: one for the first
holder of a query and one for the last, and on a new connection one for each query that is held.

* `ownRequests`, `ownRun_pairwise`: the own requests of an input; their numbers grow in a run.
* `Queued`, `texts_run`: what a run queues, request by request, calls of clients and own ones.
* `clientText_ne`: the calls of clients have other texts.
* `first_holder_asks`, `kept_not_told`, `greet_asks`: what the requests say of the queries held.
-/

namespace NodeClient
namespace Exchange

/-! ### The owner of a lasting exchange -/

/-- What clients, subscribers, the node, time and new connections do; the owner stays. -/
def Input.ordinary : Input → Prop
  | .call c => ∃ n, c.id = .ofNat n
  | .drop => False
  | _ => True

theorem Input.ordinary_ne_drop {i : Input} (h : i.ordinary) : i ≠ .drop := by
  rintro rfl
  exact h

/-- The count of holders is exact, and the owner is there. -/
structure Tended (x : Exchange) : Prop where
  counted : x.Counted
  owned : x.dropped = false

theorem tended_start (timeout : Nat) : Tended { timeout } :=
  ⟨counted_start timeout, rfl⟩

section Tended

variable {x : Exchange} (hx : x.Tended)

include hx

theorem Tended.isHeld : x.isHeld = true := by
  simp [Exchange.isHeld, hx.owned]

theorem Tended.step {i : Input} (hi : i ≠ .drop) : (x.step i).1.Tended := by
  refine ⟨(turn_step hx.isHeld i).counted hx.counted, ?_⟩
  rcases x.steady_step i with ⟨ms, rfl⟩ | rfl | h
  · exact hx.owned
  · exact absurd rfl hi
  · exact h.dropped.trans hx.owned

end Tended

theorem Tended.run {x : Exchange} (hx : x.Tended) {inputs : List Input}
    (hi : ∀ i ∈ inputs, i.ordinary) : (x.run inputs).1.Tended := by
  induction inputs generalizing x with
  | nil => exact hx
  | cons i rest ih =>
    obtain ⟨hfirst, hrest⟩ := List.forall_mem_cons.mp hi
    exact ih (hx.step (Input.ordinary_ne_drop hfirst)) hrest

/-! ### Own requests -/

/-- The requests that an input makes an exchange queue of its own, with their numbers. -/
def ownRequests (x : Exchange) : Input → List (Request × Nat)
  | .greet => (x.holders.queries.zipIdx x.nextId).map fun e => (.subscribe e.1, e.2)
  | i => (x.order? i).toList

/-- The own requests of a run. -/
def ownRun (x : Exchange) : List Input → List (Request × Nat)
  | [] => []
  | i :: rest => x.ownRequests i ++ (x.step i).1.ownRun rest

/-- The own requests of an input take the next numbers. -/
theorem ownRequests_numbers {x : Exchange} (hx : x.Tended) (i : Input) :
    (x.ownRequests i).Pairwise (fun o o' => o.2 < o'.2) ∧
      ∀ o ∈ x.ownRequests i, x.nextId ≤ o.2 ∧ o.2 < (x.step i).1.nextId := by
  have horder : (x.order? i).toList.Pairwise (fun o o' => o.2 < o'.2) ∧
      ∀ o ∈ (x.order? i).toList, x.nextId ≤ o.2 ∧ o.2 < (x.step i).1.nextId := by
    cases ho : x.order? i with
    | none => exact ⟨.nil, nofun⟩
    | some o =>
      obtain ⟨hnum, hlt⟩ := nextId_of_order hx.counted hx.isHeld ho
      refine ⟨List.pairwise_singleton _ _, fun o' ho' => ?_⟩
      obtain rfl := List.mem_singleton.mp ho'
      exact ⟨Nat.le_of_eq hnum.symm, hnum ▸ hlt⟩
  cases i with
  | greet =>
    have hnumbers : (x.ownRequests .greet).map (·.2) =
        List.range' x.nextId x.holders.queries.length := by
      rw [ownRequests, List.map_map]
      exact List.zipIdx_map_snd _ _
    have hnext : (x.step .greet).1.nextId = x.nextId + x.holders.queries.length := by
      rw [step, greet, if_pos hx.isHeld, tellAll_fst]
    constructor
    · have hpair := List.pairwise_lt_range' (s := x.nextId) (n := x.holders.queries.length)
      rw [← hnumbers] at hpair
      exact List.pairwise_map.mp hpair
    · intro o ho
      have hmem : o.2 ∈ (x.ownRequests .greet).map (·.2) := List.mem_map_of_mem ho
      rw [hnumbers, List.mem_range'_1] at hmem
      rw [hnext]
      exact hmem
  | _ => exact horder

theorem nextId_le_of_mem_ownRun {x : Exchange} (hx : x.Tended) {inputs : List Input}
    (hi : ∀ i ∈ inputs, i.ordinary) {o : Request × Nat} (ho : o ∈ x.ownRun inputs) :
    x.nextId ≤ o.2 := by
  induction inputs generalizing x with
  | nil => cases ho
  | cons i rest ih =>
    obtain ⟨hfirst, hrest⟩ := List.forall_mem_cons.mp hi
    rcases List.mem_append.mp ho with ho | ho
    · exact ((ownRequests_numbers hx i).2 o ho).1
    · have hlater := ih (hx.step (Input.ordinary_ne_drop hfirst)) hrest ho
      exact Nat.le_trans (x.nextId_step i) hlater

/-- **The numbers of the own requests grow.** -/
theorem ownRun_pairwise {x : Exchange} (hx : x.Tended) {inputs : List Input}
    (hi : ∀ i ∈ inputs, i.ordinary) : (x.ownRun inputs).Pairwise fun o o' => o.2 < o'.2 := by
  induction inputs generalizing x with
  | nil => exact .nil
  | cons i rest ih =>
    obtain ⟨hfirst, hrest⟩ := List.forall_mem_cons.mp hi
    have hnext := hx.step (Input.ordinary_ne_drop hfirst)
    obtain ⟨hpair, hnumbers⟩ := ownRequests_numbers hx i
    refine List.pairwise_append.mpr ⟨hpair, ih hnext hrest, fun o ho o' ho' => ?_⟩
    exact Nat.lt_of_lt_of_le (hnumbers o ho).2 (nextId_le_of_mem_ownRun hnext hrest ho')

/-! ### What is queued -/

/-- A request that is queued. -/
inductive Queued where
  /-- The call of a client. -/
  | client (c : Call)
  /-- A request of the exchange's own, with its number. -/
  | own (o : Request × Nat)

namespace Queued

/-- The text that is queued. -/
def text : Queued → String
  | client c => c.toJson.render
  | own o => orderText o

/-- The call, if a client makes it. -/
def client? : Queued → Option Call
  | client c => some c
  | own _ => none

/-- The request, if the exchange makes it of its own. -/
def own? : Queued → Option (Request × Nat)
  | client _ => none
  | own o => some o

end Queued

/-- The call that a client makes. -/
def Input.call? : Input → Option Call
  | .call c => some c
  | _ => none

/-- The requests that an input makes an exchange queue. -/
def queuedBy (x : Exchange) : Input → List Queued
  | .call c => [.client c]
  | i => (x.ownRequests i).map .own

/-- The requests that a run queues, in their order. -/
def queued (x : Exchange) : List Input → List Queued
  | [] => []
  | i :: rest => x.queuedBy i ++ (x.step i).1.queued rest

theorem own_queuedBy (x : Exchange) (i : Input) :
    (x.queuedBy i).filterMap Queued.own? = x.ownRequests i := by
  cases i with
  | call c => rfl
  | _ => exact (List.filterMap_map ..).trans List.filterMap_some

theorem client_queuedBy (x : Exchange) (i : Input) :
    (x.queuedBy i).filterMap Queued.client? = [i].filterMap Input.call? := by
  cases i with
  | call c => rfl
  | _ => exact (List.filterMap_map ..).trans (List.filterMap_eq_nil_iff.mpr fun _ _ => rfl)

/-- **The own requests of a run** are those of its requests that no client makes. -/
theorem own_queued (x : Exchange) (inputs : List Input) :
    (x.queued inputs).filterMap Queued.own? = x.ownRun inputs := by
  induction inputs generalizing x with
  | nil => rfl
  | cons i rest ih => rw [queued, List.filterMap_append, own_queuedBy, ih, ownRun]

/-- **Each call of a client is queued once**, in the order of the calls. -/
theorem client_queued (x : Exchange) (inputs : List Input) :
    (x.queued inputs).filterMap Queued.client? = inputs.filterMap Input.call? := by
  induction inputs generalizing x with
  | nil => rfl
  | cons i rest ih =>
    rw [queued, List.filterMap_append, client_queuedBy, ih, ← List.filterMap_append,
      List.singleton_append]

section Texts

variable {x : Exchange} (hx : x.Tended)

include hx

theorem texts_greet :
    texts (x.step .greet).2 = (x.ownRequests .greet).map orderText := by
  rw [step, greet, if_pos hx.isHeld, texts_tellAll, ownRequests, List.map_map]
  rfl

/-- **What an input queues** is the call of a client, or what the exchange asks of its own. -/
theorem texts_queuedBy {i : Input} (hi : i.ordinary) :
    texts (x.step i).2 = (x.queuedBy i).map Queued.text := by
  have hown : (x.ownRequests i).map orderText =
      ((x.ownRequests i).map Queued.own).map Queued.text := by
    rw [List.map_map]
    rfl
  cases i with
  | call c => rfl
  | greet => exact (texts_greet hx).trans hown
  | drop => exact hi.elim
  | _ => exact (texts_step hx.counted hx.isHeld rfl).trans hown

end Texts

theorem texts_run_cons (x : Exchange) (i : Input) (rest : List Input) :
    texts (x.run (i :: rest)).2 = texts (x.step i).2 ++ texts ((x.step i).1.run rest).2 :=
  List.filterMap_append

/-- **What a run queues**, text by text, are its requests. -/
theorem texts_run {x : Exchange} (hx : x.Tended) {inputs : List Input}
    (hi : ∀ i ∈ inputs, i.ordinary) :
    texts (x.run inputs).2 = (x.queued inputs).map Queued.text := by
  induction inputs generalizing x with
  | nil => rfl
  | cons i rest ih =>
    obtain ⟨hfirst, hrest⟩ := List.forall_mem_cons.mp hi
    have hnext := hx.step (Input.ordinary_ne_drop hfirst)
    rw [texts_run_cons, texts_queuedBy hx hfirst, ih hnext hrest, queued, List.map_append]

/-! ### The calls of clients -/

theorem toString_nat_head (n : Nat) : ∃ c rest, (toString n).toList = c :: rest ∧ c ≠ '"' := by
  have hdigits : (toString n).toList = Nat.toDigits 10 n := Nat.toList_repr
  cases hd : Nat.toDigits 10 n with
  | nil => exact absurd hd Nat.toDigits_ne_nil
  | cons c rest =>
    refine ⟨c, rest, hdigits.trans hd, ?_⟩
    rintro rfl
    have hmem : '"' ∈ Nat.toDigits 10 n := by
      rw [hd]
      exact .head rest
    exact absurd (Nat.isDigit_of_mem_toDigits (by decide) (by decide) hmem) (by decide)

/-- The text of a call up to its id. -/
def callHead : String :=
  "\x7b" ++ Json.quote "jsonrpc" ++ ":" ++ Json.quote envelopeVersion ++ "," ++ Json.quote "id" ++ ":"

theorem render_call (c : Call) :
    ∃ tail, c.toJson.render = callHead ++ (c.id.toJson.render ++ tail) := by
  refine ⟨"," ++ Json.renderMembers [("method", .string c.method), ("params", c.params)] ++ "\x7d",
    ?_⟩
  rw [Call.toJson, Json.render, versionMember, Json.renderMembers, Json.renderMembers, callHead]
  · simp only [Json.render, String.append_assoc]
  · intro hnil
    cases hnil
  · intro hnil
    cases hnil

/-- **A client's call is no request of the exchange's own**: their texts differ in the id. -/
theorem clientText_ne {c : Call} (hc : ∃ n, c.id = .ofNat n) (request : Request) (n : Nat) :
    c.toJson.render ≠ ownText request n := by
  intro h
  obtain ⟨k, hk⟩ := hc
  obtain ⟨tail, ht⟩ := render_call c
  obtain ⟨tail', ht'⟩ := render_call (request.toCall (ownId n))
  rw [ownText, ht', ht, hk] at h
  have hlist := congrArg String.toList h
  simp only [String.toList_append] at hlist
  have hids := List.append_cancel_left hlist
  obtain ⟨d, rest, hd, hne⟩ := toString_nat_head (UInt64.ofNat k).toNat
  have hleft : (Id.ofNat k).toJson.render.toList = d :: rest := hd
  have hright : (request.toCall (ownId n)).id.toJson.render.toList = '"' :: _ :=
    String.toList_ofList
  rw [hleft, hright] at hids
  exact hne (List.cons.inj hids).1

/-! ### The queries that are held -/

section Held

variable {x : Exchange} (hx : x.Tended) {q : String}

include hx

/-- A query that gets its first holder is asked for. -/
theorem first_holder_asks {i : Input} (hzero : x.holders.count q = 0)
    (hheld : (x.step i).1.holders.count q ≠ 0) :
    texts (x.step i).2 = [subscribeText q x.nextId] := by
  have hle := (turn_step hx.isHeld i).count_le hx.counted q
  have hseat : i.seat? = some (some q) := by
    by_contra hno
    rw [if_neg hno] at hle
    omega
  obtain ⟨topic, family, rfl⟩ := Input.seat?_eq_query.mp hseat
  rw [(subscribe_counts hx.counted hx.isHeld q topic family).2, if_pos hzero]

/-- The node is not told to stop the events of a query that is held. -/
theorem kept_not_told {i : Input} (hi : i.ordinary) (hheld : (x.step i).1.holders.count q ≠ 0)
    (n : Nat) : unsubscribeText q n ∉ texts (x.step i).2 := by
  intro hmem
  by_cases hcall : ∃ c, i = .call c
  · obtain ⟨c, rfl⟩ := hcall
    exact clientText_ne hi _ n (List.mem_singleton.mp hmem).symm
  · have hlast := (tells_iff_lastOut hx.counted hx.isHeld (fun c hc => hcall ⟨c, hc⟩)).mp
      ⟨n, mem_texts.mp hmem⟩
    exact hheld hlast.left

theorem holders_greet : (x.step .greet).1.holders = x.holders := by
  rw [step, greet, if_pos hx.isHeld, tellAll_fst]

/-- On a new connection, every query that is held is asked for. -/
theorem greet_asks (hheld : x.holders.count q ≠ 0) :
    ∃ n, subscribeText q n ∈ texts (x.step .greet).2 := by
  have hmem : q ∈ x.holders.queries :=
    hx.counted.sound.mem_queries.mpr (Nat.pos_of_ne_zero hheld)
  rw [step, greet, if_pos hx.isHeld, texts_tellAll]
  rw [← List.zipIdx_map_fst x.nextId x.holders.queries] at hmem
  obtain ⟨e, he, rfl⟩ := List.mem_map.mp hmem
  exact ⟨e.2, List.mem_map.mpr ⟨e, he, rfl⟩⟩

/-- Nothing else is queued on a new connection. -/
theorem greet_only_asks {text : String} (htext : text ∈ texts (x.step .greet).2) :
    ∃ q n, text = subscribeText q n := by
  rw [step, greet, if_pos hx.isHeld, texts_tellAll] at htext
  obtain ⟨e, -, rfl⟩ := List.mem_map.mp htext
  exact ⟨e.1, e.2, rfl⟩

end Held

end Exchange
end NodeClient
