import Mathlib.Data.List.Permutation
import NodeClient.Proofs.Chain.Payloads
import NodeClient.Proofs.Schema.Lists

/-!
# Chain lists — the lists in the payloads of nodes

Where lists stand in the answers to the methods and in the events of the topics, and which parts of
the values they are: transactions, votes, validators, results, tags, headers and evidence, each in
their place.  A vote may be `null` in its place, for a validator that did not vote.
-/

namespace NodeClient

open Schema

/-! ### Lists in records -/

namespace Chain

theorem txData_tags : (Format.list tag).Part txData [.member "tags"] TxData.tags :=
  .member (.last (by intro _ _ _ b; exact (Option.bind_fun_some b).symm)) .here

theorem commit_precommits :
    (Format.list (.nullable vote)).Part commit [.member "precommits"] fun c => some c.precommits :=
  .member (.last (by intro _ _; rfl)) .here

theorem block_precommits (family : Family) :
    (Format.list (.nullable vote)).Part (block family)
      [.member "last_commit", .member "precommits"] fun b => some b.lastCommit.precommits :=
  .member (.field (by decide) (.field (by decide) (.last (by intro _ _ _ _; rfl))))
    commit_precommits

theorem block_txs (family : Family) :
    (Format.list base64).Part (block family) [.member "data", .member "txs"]
      fun b => some b.txs :=
  .member (.field (by decide) (.last (by intro _ _ _ _; rfl)))
    (.member (.last (by intro _; rfl)) .here)

theorem evidenceList_evidence :
    (Format.list evidence).Part evidenceList [.member "evidence"] fun e => e :=
  .member (.last (by intro b; exact (Option.bind_fun_some b).symm)) .here

theorem block_evidence (family : Family) :
    (Format.list evidence).Part (block family) [.member "evidence", .member "evidence"]
      Block.evidence :=
  .member (.last (by intro _ _ _ b; rfl)) evidenceList_evidence

theorem signedHeader_precommits (family : Family) :
    (Format.list (.nullable vote)).Part (signedHeader family)
      [.member "commit", .member "precommits"] fun s => some s.2.precommits :=
  .member (.last (by intro _ _; rfl)) commit_precommits

theorem txProof_aunts :
    (Format.list base64).Part txProof [.member "Proof", .member "aunts"]
      fun p => some p.proof.aunts :=
  .member (.last (by intro _ _ _ _ _; rfl)) (.member (.last (by intro _; rfl)) .here)

theorem tx_tags : (Format.list tag).Part tx [.member "tx_result", .member "tags"]
    fun t => t.result.tags :=
  .member (.field (by decide) (.field (by decide) (.field (by decide) (.field (by decide)
    (.last (by intro _ _ _ _ _ _; rfl)))))) txData_tags

theorem tx_aunts :
    (Format.list base64).Part tx [.member "proof", .member "Proof", .member "aunts"]
      fun t => t.proof.map fun p => p.proof.aunts :=
  .member (.last (by intro _ _ _ _ _ b; cases b <;> rfl)) txProof_aunts

theorem txTaken_tags : (Format.list tag).Part txTaken [.member "result", .member "tags"]
    fun e => e.result.tags :=
  .member (.field (by decide) (.field (by decide) (.last (by intro _ _ _ _; rfl)))) txData_tags

theorem validatorLimits_types :
    (Format.list text).Part validatorLimits [.member "pub_key_types"]
      fun l => some l.pubkeyTypes :=
  .member (.last (by intro _; rfl)) .here

theorem consensusParams_types :
    (Format.list text).Part (consensusParams .v031) [.member "validator", .member "pub_key_types"]
      fun c => c.validator.map ValidatorLimits.pubkeyTypes :=
  .member (.last (by intro _ _ b; cases b <;> rfl)) validatorLimits_types

theorem endBlock_updates (family : Family) :
    (Format.list validatorUpdate).Part (endBlock family) [.member "validator_updates"]
      fun b => some b.validatorUpdates :=
  .member (.field (by decide) (.field (by decide) (.last (by intro _ _ _; rfl)))) .here

theorem endBlock_tags (family : Family) :
    (Format.list tag).Part (endBlock family) [.member "tags"] EndBlock.tags :=
  .member (.last (by intro _ _ b; exact (Option.bind_fun_some b).symm)) .here

theorem deliveries_results (family : Family) :
    (Format.list txData).Part (deliveries family) [.member "DeliverTx"] fun d => some d.1 :=
  .member (.field (by decide) (.last (by intro _ _; rfl))) .here

theorem deliveries_tags (family : Family) (index : Nat) :
    (Format.list tag).Part (deliveries family)
      [.member "DeliverTx", .item index, .member "tags"] fun d => d.1[index]?.bind TxData.tags :=
  .member (.field (by decide) (.last (by intro _ _; rfl))) (.item index txData_tags)

end Chain

/-! ### Lists in payloads -/

/-- The types of keys that validators may have; only newer nodes report them. -/
def Chain.keyTypeListing {α : Type} (place : List Json.Spot) (view : α → Option ConsensusParams) :
    Family → List (Listing α)
  | .v029 => []
  | .v031 => [⟨place ++ [.member "validator", .member "pub_key_types"], Chain.text,
      fun a => (view a).bind fun c => c.validator.map ValidatorLimits.pubkeyTypes⟩]

/-- The lists in a block, below a place. -/
def Chain.blockListings {α : Type} (place : List Json.Spot) (view : α → Block) : List (Listing α) :=
  [⟨place ++ [.member "last_commit", .member "precommits"], .nullable Chain.vote,
      fun a => some (view a).lastCommit.precommits⟩,
    ⟨place ++ [.member "data", .member "txs"], Chain.base64, fun a => some (view a).txs⟩,
    ⟨place ++ [.member "evidence", .member "evidence"], Chain.evidence,
      fun a => (view a).evidence⟩]

/-- The lists in the answers to a method; those within the element of a list at `index`. -/
def Method.listings (family : Family) (index : Nat) :
    (method : Method) → List (Listing method.Reply)
  | .block => Chain.blockListings [.member "block"] fun (r : BlockAnswer) => r.block
  | .blockResults =>
    ([⟨[.member "results", .member "DeliverTx"], Chain.txData, fun r => some r.results⟩,
      ⟨[.member "results", .member "DeliverTx", .item index, .member "tags"], Chain.tag,
        fun r => r.results[index]?.bind TxData.tags⟩,
      ⟨[.member "results", .member "EndBlock", .member "validator_updates"], Chain.validatorUpdate,
        fun r => some r.endBlock.validatorUpdates⟩] : List (Listing BlockResults)) ++
    Chain.keyTypeListing
      [.member "results", .member "EndBlock", .member "consensus_param_updates"]
      (fun (r : BlockResults) => r.endBlock.consensusUpdates) family ++
    ([⟨[.member "results", .member "EndBlock", .member "tags"], Chain.tag,
      fun r => r.endBlock.tags⟩] : List (Listing BlockResults))
  | .blockchain =>
    ([⟨[.member "block_metas"], Chain.blockMeta family, fun r => some r.blockMetas⟩] :
      List (Listing Blockchain))
  | .broadcastTxAsync | .broadcastTxSync =>
    ([⟨[.member "tags"], Chain.tag, fun r => r.result.tags⟩] : List (Listing Broadcast))
  | .broadcastTxCommit =>
    ([⟨[.member "check_tx", .member "tags"], Chain.tag, fun r => r.checkTx.tags⟩,
      ⟨[.member "deliver_tx", .member "tags"], Chain.tag,
        fun r => r.deliverTx.bind TxData.tags⟩] : List (Listing BroadcastCommit))
  | .commit =>
    ([⟨[.member "signed_header", .member "commit", .member "precommits"], .nullable Chain.vote,
      fun r => some r.commit.precommits⟩] : List (Listing SignedHeader))
  | .genesis =>
    Chain.keyTypeListing [.member "genesis", .member "consensus_params"]
      (fun (r : Genesis) => some r.consensusParams) family ++
    ([⟨[.member "genesis", .member "validators"], Chain.genesisValidator family,
      fun r => some r.validators⟩] : List (Listing Genesis))
  | .tx =>
    ([⟨[.member "tx_result", .member "tags"], Chain.tag, fun r => r.result.tags⟩,
      ⟨[.member "proof", .member "Proof", .member "aunts"], Chain.base64,
        fun r => r.proof.map fun p => p.proof.aunts⟩] : List (Listing Tx))
  | .txSearch =>
    ([⟨[.member "txs"], Chain.tx, fun r => some r.txs⟩,
      ⟨[.member "txs", .item index, .member "tx_result", .member "tags"], Chain.tag,
        fun r => r.txs[index]?.bind fun t => t.result.tags⟩,
      ⟨[.member "txs", .item index, .member "proof", .member "Proof", .member "aunts"],
        Chain.base64, fun r => r.txs[index]?.bind fun t => t.proof.map fun p => p.proof.aunts⟩] :
      List (Listing TxSearch))
  | .validators =>
    ([⟨[.member "validators"], Chain.validatorData family, fun r => some r.validators⟩] :
      List (Listing ValidatorSet))
  | .abciInfo | .abciQuery | .health | .status | .subscribe | .unsubscribe => []

/-- The lists in the events of a topic. -/
def Topic.listings : (topic : Topic) → List (Listing topic.Payload)
  | .newBlock => Chain.blockListings [.member "block"] fun (b : Block) => b
  | .newBlockHeader => []
  | .tx =>
    ([⟨[.member "TxResult", .member "result", .member "tags"], Chain.tag,
      fun e => e.result.tags⟩] : List (Listing TxEvent))

/-- No list in an answer is left out. -/
theorem Method.listPlaces_eq (family : Family) (method : Method) (index : Nat) :
    (method.format family).listPlaces index = (method.listings family index).map (·.place) := by
  cases family <;> cases method <;> cbv

/-- No list in an event is left out. -/
theorem Topic.listPlaces_eq (family : Family) (topic : Topic) (index : Nat) :
    (topic.format family).listPlaces index = topic.listings.map (·.place) := by
  cases family <;> cases topic <;> cbv

/-- The list stands where the listing says, and gives what it says. -/
def Schema.Listing.IsPart {α : Type} (l : Listing α) (f : Format α) : Prop :=
  (Format.list l.item).Part f l.place l.items

section Parts

variable {α : Type} {f : Format α} {place : List Json.Spot} (family : Family)

theorem Chain.isPart_blockListings {view : α → Block}
    (h : ∀ {γ : Type} {g : Format γ} {rest : List Json.Spot} {get : Block → Option γ},
      g.Part (block family) rest get → g.Part f (place ++ rest) fun a => get (view a)) :
    ∀ l ∈ blockListings place view, l.IsPart f :=
  List.forall_mem_cons.mpr ⟨h (block_precommits family), List.forall_mem_cons.mpr
    ⟨h (block_txs family), List.forall_mem_singleton.mpr (h (block_evidence family))⟩⟩

theorem Chain.isPart_keyTypeListing {view : α → Option ConsensusParams}
    (h : ∀ {γ : Type} {g : Format γ} {rest : List Json.Spot} {get : ConsensusParams → Option γ},
      g.Part (consensusParams family) rest get →
        g.Part f (place ++ rest) fun a => (view a).bind get) :
    ∀ l ∈ keyTypeListing place view family, l.IsPart f := by
  cases family with
  | v029 => nofun
  | v031 => exact List.forall_mem_singleton.mpr (h consensusParams_types)

end Parts

namespace Chain

variable {γ : Type} {g : Format γ} {rest : List Json.Spot} {family : Family}

/-- The parts of what came of the transactions of a block. -/
theorem part_of_deliveries (get : List TxData × EndBlock → Option γ)
    (h : g.Part (deliveries family) rest get) :
    g.Part (blockResults family) (.member "results" :: rest) fun r => get (r.results, r.endBlock) :=
  .member (.last (by intro _ _; rfl)) h

/-- The parts of the end of a block. -/
theorem part_of_endBlock {get : EndBlock → Option γ} (h : g.Part (endBlock family) rest get) :
    g.Part (blockResults family) (.member "results" :: .member "EndBlock" :: rest)
      fun r => get r.endBlock :=
  part_of_deliveries (fun d => get d.2) (.member (.last (by intro _ _; rfl)) h)

/-- The parts of the new parameters of consensus. -/
theorem part_of_updates {get : ConsensusParams → Option γ}
    (h : g.Part (consensusParams family) rest get) :
    g.Part (endBlock family) (.member "consensus_param_updates" :: rest)
      fun b => b.consensusUpdates.bind get :=
  .member (.field (by decide) (.last (by intro _ _ _; rfl))) h

end Chain

theorem Method.isPart_listings (family : Family) (index : Nat) (method : Method) :
    ∀ l ∈ method.listings family index, l.IsPart (method.format family) := by
  cases method with
  | block =>
    exact Chain.isPart_blockListings family fun h => .member (.last (by intro _ _; rfl)) h
  | blockResults =>
    refine List.forall_mem_append.mpr ⟨List.forall_mem_append.mpr ⟨List.forall_mem_cons.mpr
      ⟨?_, List.forall_mem_cons.mpr ⟨?_, List.forall_mem_singleton.mpr ?_⟩⟩, ?_⟩,
      List.forall_mem_singleton.mpr ?_⟩
    · exact Chain.part_of_deliveries _ (Chain.deliveries_results family)
    · exact Chain.part_of_deliveries _ (Chain.deliveries_tags family index)
    · exact Chain.part_of_endBlock (Chain.endBlock_updates family)
    · exact Chain.isPart_keyTypeListing family fun h =>
        Chain.part_of_endBlock (Chain.part_of_updates h)
    · exact Chain.part_of_endBlock (Chain.endBlock_tags family)
  | blockchain =>
    exact List.forall_mem_singleton.mpr (.member (.last (by intro _ _; rfl)) .here)
  | broadcastTxAsync | broadcastTxSync =>
    exact List.forall_mem_singleton.mpr
      (.member (.last (by intro _ _ _ _ b; exact (Option.bind_fun_some b).symm)) .here)
  | broadcastTxCommit =>
    refine List.forall_mem_cons.mpr ⟨?_, List.forall_mem_singleton.mpr ?_⟩
    · exact .member (.field (by decide) (.last (by intro _ _ _ _; rfl))) Chain.txData_tags
    · exact .member (.last (by intro _ _ _ _; rfl)) Chain.txData_tags
  | commit =>
    exact List.forall_mem_singleton.mpr
      (.member (.last (by intro _ _; rfl)) (Chain.signedHeader_precommits family))
  | genesis =>
    refine List.forall_mem_append.mpr ⟨?_, List.forall_mem_singleton.mpr ?_⟩
    · exact Chain.isPart_keyTypeListing family fun h => .member (.last (by intro _; rfl))
        (.member (.field (by decide) (.field (by decide) (.field (by decide)
          (.last (by intro _ _ _ _ _ _; rfl))))) h)
    · exact .member (.last (by intro _; rfl))
        (.member (.field (by decide) (.field (by decide)
          (.last (by intro _ _ _ _ _ _; rfl)))) .here)
  | tx =>
    exact List.forall_mem_cons.mpr
      ⟨Chain.tx_tags, List.forall_mem_singleton.mpr Chain.tx_aunts⟩
  | txSearch =>
    have htxs : ∀ {γ : Type} {g : Format γ} {rest : List Json.Spot} {get : List Tx → Option γ},
        g.Part (.list Chain.tx) rest get →
          g.Part Chain.txSearch (.member "txs" :: rest) fun r => get r.txs :=
      fun h => .member (.last (by intro _ _; rfl)) h
    exact List.forall_mem_cons.mpr ⟨htxs .here, List.forall_mem_cons.mpr
      ⟨htxs (.item index Chain.tx_tags), List.forall_mem_singleton.mpr
        (htxs (.item index Chain.tx_aunts))⟩⟩
  | validators =>
    exact List.forall_mem_singleton.mpr (.member (.last (by intro _ _; rfl)) .here)
  | abciInfo | abciQuery | health | status | subscribe | unsubscribe => nofun

theorem Topic.isPart_listings (family : Family) (topic : Topic) :
    ∀ l ∈ topic.listings, l.IsPart (topic.format family) := by
  cases topic with
  | newBlock =>
    exact Chain.isPart_blockListings family fun h => .member (.last (by intro _; rfl)) h
  | newBlockHeader => nofun
  | tx =>
    exact List.forall_mem_singleton.mpr (.member (.last (by intro _; rfl)) Chain.txTaken_tags)

/-! ### Elements that are not read -/

/-- Payloads with anything else at a place are not read. -/
def Schema.Format.Insists {α : Type} (f : Format α) (place : List Json.Spot) (known : Json → Prop) :
    Prop :=
  ∀ {v u : Json} {put : Json → Json}, v.Ordered → f.focus place v = some (u, put) → ¬known u →
    ∃ e, f.decode v = .error e

theorem Schema.Format.Part.insists {α γ : Type} {g : Format γ} {f : Format α}
    {place : List Json.Spot} {get : α → Option γ} (h : g.Part f place get)
    (hsound : f.isSound = true) {known : Json → Prop}
    (hknown : ∀ {u c}, g.decode u = .ok c → known u) : f.Insists place known := by
  intro v u put hv hu hunknown
  cases ha : f.decode v with
  | error e => exact ⟨e, rfl⟩
  | ok a =>
    obtain ⟨source, c, -, hc⟩ := h.kept hsound hv (decode_eq_ok.mp ha) hu
    exact absurd (hknown hc.decode) hunknown

namespace Chain

/-- A name of the only type of keys. -/
def NamesKeyType (v : Json) : Prop := v = .string ed25519Type

/-- The number of a kind of vote. -/
def NamesVoteKind (v : Json) : Prop :=
  ∃ n range, v = .number (.integer n range) ∧ (n = 1 ∨ n = 2 ∨ n = 32)

theorem namesKeyType_of_decode {v : Json} {a : KeyAlgorithm}
    (h : (Format.refine text keyAlgorithmOf).decode v = .ok a) : NamesKeyType v := by
  obtain ⟨w, hw, hread⟩ := decode_eq_ok.mp h
  obtain ⟨⟨⟩, hcheck, rfl⟩ := map_eq_ok.mp hw
  cases v with
  | string s =>
    obtain ⟨s', hs, hname⟩ := bind_eq_ok.mp hread
    obtain rfl : s = s' := Except.ok.inj hs
    unfold keyAlgorithmOf at hname
    split at hname
    · next heq => exact congrArg Json.string heq
    · cases hname
  | _ => cases hcheck

theorem voteKindOf_eq_ok {n : UInt8} {k : VoteKind} (h : voteKindOf n = .ok k) :
    n = 1 ∨ n = 2 ∨ n = 32 := by
  unfold voteKindOf at h
  split at h
  · next hn => exact .inl hn
  · split at h
    · next hn => exact .inr (.inl hn)
    · split at h
      · next hn => exact .inr (.inr hn)
      · cases h

theorem namesVoteKind_of_decode {v : Json} {k : VoteKind}
    (h : (Format.refine (.scalar .word8) voteKindOf).decode v = .ok k) : NamesVoteKind v := by
  obtain ⟨w, hw, hread⟩ := decode_eq_ok.mp h
  obtain ⟨⟨⟩, hcheck, rfl⟩ := map_eq_ok.mp hw
  obtain ⟨n, hn, hkind⟩ := bind_eq_ok.mp hread
  obtain ⟨m, hm, rfl⟩ := map_eq_ok.mp (mapError_eq_ok.mp hn)
  unfold asWord at hm
  split at hm
  · next value range =>
    split at hm
    · next hrange =>
      obtain rfl := Except.ok.inj hm
      refine ⟨value, range, rfl, ?_⟩
      have hkinds := voteKindOf_eq_ok hkind
      simp only [← UInt8.toNat_inj, UInt8.toNat_ofNat', UInt8.reduceToNat] at hkinds
      omega
    · cases hm
  · cases hm

theorem pubkey_type :
    (Format.refine text keyAlgorithmOf).Part pubkey [.member "type"] fun k => some k.algorithm :=
  .member (.field (by decide) (.last (by intro _ _; rfl))) .here

theorem validatorUpdate_type : (Format.refine text keyAlgorithmOf).Part validatorUpdate
    [.member "pub_key", .member "type"] fun v => some v.pubkey.algorithm :=
  .member (.field (by decide) (.field (by decide) (.last (by intro _ _ _; rfl)))) pubkey_type

theorem validatorData_type (family : Family) :
    (Format.refine text keyAlgorithmOf).Part (validatorData family)
      [.member "pub_key", .member "type"] fun v => some v.pubkey.algorithm :=
  .member (.field (by decide) (.field (by decide) (.last (by intro _ _ _ _; rfl)))) pubkey_type

theorem genesisValidator_type (family : Family) :
    (Format.refine text keyAlgorithmOf).Part (genesisValidator family)
      [.member "pub_key", .member "type"] fun v => some v.pubkey.algorithm := by
  cases family with
  | v029 =>
    exact .member (.field (by decide) (.field (by decide)
      (.last (by intro _ _ _; rfl)))) pubkey_type
  | v031 =>
    exact .member (.field (by decide) (.field (by decide) (.field (by decide)
      (.last (by intro _ _ _ _; rfl))))) pubkey_type

theorem evidence_type : (Format.refine text keyAlgorithmOf).Part evidence
    [.member "validator", .member "pub_key", .member "type"]
      fun e => some e.validator.pubkey.algorithm :=
  .member (.last (by intro _ _ _ _ _; rfl)) validatorUpdate_type

theorem vote_type : (Format.refine (.scalar .word8) voteKindOf).Part vote [.member "type"]
    fun v => some v.kind :=
  .member (.field (by decide) (.field (by decide) (.field (by decide) (.field (by decide)
    (.field (by decide) (.field (by decide) (.field (by decide)
      (.last (by intro _ _ _ _ _ _ _ _; rfl))))))))) .here

/-- A vote is absent from its place exactly where the payload has `null`. -/
theorem absent_iff_null {ws : List Json} {votes : List (Option Vote)} {i : Nat}
    (h : List.Forall₂ (fun w c => (Format.nullable vote).decode w = .ok c) ws votes) :
    votes[i]? = some none ↔ ws[i]? = some .null := by
  constructor
  · intro hnone
    obtain ⟨w, hw, hdecode⟩ := forall₂_getElem? h.flip hnone
    obtain ⟨rfl, -⟩ | ⟨-, c, -, hc⟩ := nullable_denotes (decode_eq_ok.mp hdecode)
    · exact hw
    · cases hc
  · intro hnull
    obtain ⟨c, hc, hdecode⟩ := forall₂_getElem? h hnull
    obtain ⟨-, rfl⟩ | ⟨hne, -⟩ := nullable_denotes (decode_eq_ok.mp hdecode)
    · exact hc
    · exact absurd rfl hne

end Chain

/-! ### All lists -/

/-- **Lists are read element by element, in place, or not at all.**  This holds of every list in the
answers to all methods and in the events of all topics, in both families, and none is left out.

* The list in the value has the length of the list in the payload, and each element is what the one
  in the same place stands for on its own.  A list that is missing or `null` has no elements.
* A vote is absent exactly where the payload has `null`.
* With an element that fails on its own everything fails.  If the payload has the right shape, and
  all else in it is read, the first such element of the list is reported.
* Votes of other kinds fail on their own, and so do validators with other types of keys, also in
  evidence. -/
theorem lists_read_in_place (family : Family) :
    (∀ (method : Method) (index : Nat),
      (method.format family).listPlaces index = (method.listings family index).map (·.place) ∧
        ∀ l ∈ method.listings family index, l.ReadInPlace (method.format family)) ∧
    (∀ (topic : Topic) (index : Nat),
      (topic.format family).listPlaces index = topic.listings.map (·.place) ∧
        ∀ l ∈ topic.listings, l.ReadInPlace (topic.format family)) ∧
    (∀ (ws : List Json) (votes : List (Option Vote)),
      List.Forall₂ (fun w vote => (Format.nullable Chain.vote).decode w = .ok vote) ws votes →
        ∀ i : Nat, votes[i]? = some none ↔ ws[i]? = some .null) ∧
    (Format.nullable Chain.vote).Insists [.member "type"] Chain.NamesVoteKind ∧
    (∀ validator ∈ [Chain.genesisValidator family, Chain.validatorUpdate,
        Chain.validatorData family],
      validator.Insists [.member "pub_key", .member "type"] Chain.NamesKeyType) ∧
    Chain.evidence.Insists [.member "validator", .member "pub_key", .member "type"]
      Chain.NamesKeyType := by
  refine ⟨fun method index => ⟨method.listPlaces_eq family index, fun l hl => ?_⟩,
    fun topic index => ⟨topic.listPlaces_eq family index, fun l hl => ?_⟩,
    fun ws votes hvotes i => Chain.absent_iff_null hvotes, ?_, ?_, ?_⟩
  · exact Format.Part.readInPlace (method.isPart_listings family index l hl)
      (method.format_isSound family)
  · exact Format.Part.readInPlace (topic.isPart_listings family l hl) (topic.format_isSound family)
  · exact (Format.Part.nullable Chain.vote_type).insists (by decide +kernel)
      Chain.namesVoteKind_of_decode
  · refine List.forall_mem_cons.mpr ⟨?_, List.forall_mem_cons.mpr
      ⟨?_, List.forall_mem_singleton.mpr ?_⟩⟩
    · exact (Chain.genesisValidator_type family).insists (by cases family <;> decide +kernel)
        Chain.namesKeyType_of_decode
    · exact Chain.validatorUpdate_type.insists (by decide +kernel) Chain.namesKeyType_of_decode
    · exact (Chain.validatorData_type family).insists (by cases family <;> decide +kernel)
        Chain.namesKeyType_of_decode
  · exact Chain.evidence_type.insists (by decide +kernel) Chain.namesKeyType_of_decode

/-- The hash of a block and of its parts, as in a vote. -/
def sampleBlockId : Json :=
  .object [("hash", .string "AB"),
    ("parts", .object [("hash", .string "CD"), ("total", .string "1")])]

/-- The only vote for a block, of this kind; another validator did not vote. -/
def sampleVotes (kind : UInt64) : Json :=
  .array [.null, .object [("block_id", sampleBlockId), ("height", .string "5"),
    ("round", .string "0"), ("signature", .string "AQ=="),
    ("timestamp", .string "2019-04-01T13:36:00Z"), ("type", .number (.ofUInt64 kind)),
    ("validator_address", .string "AB"), ("validator_index", .string "1")]]

/-- The header of a block with the votes for it, as older nodes report them. -/
def sampleCommit (kind : UInt64) : Json :=
  .object [("canonical", .bool true), ("signed_header", .object [
    ("commit", .object [("block_id", sampleBlockId), ("precommits", sampleVotes kind)]),
    ("header", .object [("app_hash", .string "00"), ("chain_id", .string "chain"),
      ("consensus_hash", .string "01"), ("data_hash", .string ""), ("evidence_hash", .string ""),
      ("height", .string "5"), ("last_block_id", sampleBlockId),
      ("last_commit_hash", .string ""), ("last_results_hash", .string ""),
      ("num_txs", .string "0"), ("time", .string "2019-04-01T13:36:00Z"),
      ("total_txs", .string "0"), ("validators_hash", .string "03")])])]

theorem ordered_sampleCommit (kind : UInt64) : (sampleCommit kind).Ordered := by
  simp only [sampleCommit, sampleVotes, sampleBlockId, Json.Ordered, Json.OrderedItems,
    Json.OrderedMembers, List.map_cons, List.map_nil]
  decide

/-- The vote of the second validator stays in the second place, and is reported if its kind is not
known. -/
theorem sample_votes_in_place :
    (∃ r : SignedHeader, (Method.commit.format .v029).decode (sampleCommit 2) = .ok r ∧
      ∃ vote, r.commit.precommits = [none, some vote]) ∧
    (Method.commit.format .v029).decode (sampleCommit 7) = .error (.voteType 7) := by
  obtain ⟨hmethods, -, hnull, -⟩ := lists_read_in_place .v029
  have hvotes := (hmethods .commit 0).2 _ (.head _)
  have hdecoded : ∃ r, (Method.commit.format .v029).decode (sampleCommit 2) = .ok r := ⟨_, rfl⟩
  obtain ⟨r, hr⟩ := hdecoded
  refine ⟨⟨r, hr, ?_⟩, ?_⟩
  · obtain ⟨ws, as, hws, has, hall⟩ := hvotes.kept (ordered_sampleCommit 2) rfl hr
    obtain rfl := Json.array.inj hws
    have habsent := hnull _ _ hall
    obtain ⟨first, rest, -, hrest, rfl⟩ := List.forall₂_cons_left_iff.mp hall
    obtain ⟨second, rest, -, hnil, rfl⟩ := List.forall₂_cons_left_iff.mp hrest
    cases hnil
    obtain rfl : first = none := Option.some.inj ((habsent 0).mpr rfl)
    cases second with
    | none => cases (habsent 1).mp rfl
    | some vote => exact ⟨vote, Option.some.inj has⟩
  · have hbefore : ∀ u ∈ [Json.null], ∃ c, (Format.nullable Chain.vote).decode u = .ok c :=
      List.forall_mem_singleton.mpr ⟨none, rfl⟩
    exact hvotes.reported (ordered_sampleCommit 7) rfl ⟨_, rfl⟩ ⟨_, rfl⟩ hbefore rfl

end NodeClient
