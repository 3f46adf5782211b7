import NodeClient.Proofs.Exchange.Requests

/-!
# Counting — the count of holders in every run

A query is held by the live subscriptions to it and by the calls for it that are in progress.  The
count of holders is theirs in every run, whatever ids the callers bring and whoever gives up when:
no answer to a caller, right or wrong, changes what the others hold.

* `Served`: nobody comes to an exchange that is gone.
* `counted_run`: the count stays exact while somebody holds the exchange.
* `LastOut`: the last holder of a query leaves, and not because its own call failed.
* `tells_iff_lastOut`: that is when the node is told to stop.
-/

namespace NodeClient
namespace Exchange

/-! ### The holders of a query -/

/-- The caller waits for the events of a query. -/
def Caller.asksFor (q : String) : Caller → Bool
  | .waiting w => w.purpose.query? == some q
  | _ => false

/-- The caller has a subscription to a query. -/
def Caller.subscribesTo (q : String) : Caller → Bool
  | .subscribed s => s.query == q
  | _ => false

theorem count_query?_eq (q : String) (callers : List Caller) :
    (callers.map Caller.query?).count (some q) =
      callers.countP (Caller.asksFor q) + callers.countP (Caller.subscribesTo q) := by
  induction callers with
  | nil => rfl
  | cons c rest ih =>
    rw [List.map_cons, List.count_cons, List.countP_cons, List.countP_cons, ih]
    cases c with
    | waiting w =>
      simp only [Caller.query?, Caller.asksFor, Caller.subscribesTo, beq_iff_eq,
        Bool.false_eq_true, if_false]
      omega
    | subscribed s =>
      simp only [Caller.query?, Caller.asksFor, Caller.subscribesTo, beq_iff_eq,
        Option.some.injEq, Bool.false_eq_true, if_false]
      omega
    | «over» => rfl

/-! ### Who holds the exchange -/

/-- Nobody comes to an exchange that nobody holds any more. -/
abbrev Served (x : Exchange) (inputs : List Input) : Prop :=
  x.Always (fun y i => y.isHeld = true ∨ i.arrivals = 0) inputs

theorem Caller.waits_answered (a : Answer) (c : Caller) : (c.answered a).waits = c.waits := by
  cases c <;> rfl

theorem isHeld_iff {x : Exchange} :
    x.isHeld = true ↔ x.dropped = false ∨ true ∈ x.callers.map Caller.waits := by
  simp [isHeld]

/-- Who waits has come before. -/
theorem waits_mem_step {x : Exchange} {i : Input} (hi : i.arrivals = 0)
    (hw : true ∈ (x.step i).1.callers.map Caller.waits) : true ∈ x.callers.map Caller.waits := by
  have hset : ∀ {k : Nat} {b : Bool}, b = false → true ∈ (x.callers.map Caller.waits).set k b →
      true ∈ x.callers.map Caller.waits := fun hb h =>
    (List.mem_or_eq_of_mem_set h).resolve_right fun h => nomatch hb ▸ h
  cases i with
  | call c => cases hi
  | subscribe query topic family => cases hi
  | frame text =>
    rw [step] at hw
    split at hw
    · rw [map_callers_route Caller.waits_answered] at hw
      exact hw
    · exact hw
  | resume k =>
    rw [step] at hw
    rcases x.resume_cases k with ⟨w, result, -, -, hk⟩ | ⟨-, hk⟩
    · rw [hk, map_callers_finish Caller.waits_answered] at hw
      exact hset (Purpose.waits_after result w.purpose) hw
    · rw [hk] at hw
      exact hw
  | abort k =>
    rw [step, map_callers_abort Caller.waits_answered] at hw
    exact hset rfl hw
  | read k =>
    rw [step, read_snd, map_modify_self (Caller.waits_readOn x.events)] at hw
    exact hw
  | greet =>
    rw [step, greet] at hw
    split at hw
    · rw [tellAll_fst] at hw
      exact hw
    · exact hw
  | advance ms => exact hw
  | drop => exact hw

/-- An exchange that is gone stays gone. -/
theorem isHeld_of_step {x : Exchange} {i : Input} (hi : x.isHeld = true ∨ i.arrivals = 0)
    (h : (x.step i).1.isHeld = true) : x.isHeld = true := by
  rcases hi with hx | hi
  · exact hx
  · rw [isHeld_iff] at h ⊢
    refine h.imp ?_ (waits_mem_step hi)
    intro hd
    rcases x.steady_step i with ⟨ms, rfl⟩ | rfl | hs
    · exact hd
    · cases hd
    · exact hs.dropped.symm.trans hd

/-- **The count of holders is exact** in every run, while somebody holds the exchange. -/
theorem counted_run {x : Exchange} (hx : x.Counted) {inputs : List Input}
    (hs : x.Served inputs) (h : (x.run inputs).1.isHeld = true) : (x.run inputs).1.Counted := by
  induction inputs using List.reverseRecOn with
  | nil => exact hx
  | append_singleton rest i ih =>
    obtain ⟨hrest, hlast, -⟩ := always_append.mp hs
    rw [run_concat_fst] at h ⊢
    have hheld := isHeld_of_step hlast h
    exact (turn_step hheld i).counted (ih hrest hheld)

/-! ### Who leaves -/

/-- The last holder of a query leaves, and not because its own call for the query failed. -/
structure LastOut (x : Exchange) (i : Input) (q : String) : Prop where
  last : x.holders.count q = 1
  left : (x.step i).1.holders.count q = 0
  kept : ∀ k e, .done k (.failed e) ∉ (x.step i).2

/-- Only one that goes on or gives up lets go of a query. -/
theorem Turn.left {x y : Exchange} {i : Input} (hx : x.Counted) (ht : Turn x i y) {q : String}
    (hless : y.holders.count q < x.holders.count q) :
    ∃ k, (i = .resume k ∨ i = .abort k) ∧ x.Holds k q := by
  cases ht with
  | stay hq hh => exact absurd (hh ▸ hless) (Nat.lt_irrefl _)
  | join o hi hq hh =>
    rw [hh] at hless
    cases o with
    | none => exact absurd hless (Nat.lt_irrefl _)
    | some p =>
      rw [Holders.letIn, Holders.count_add hx.sound] at hless
      omega
  | leave k o hi hk hq hh =>
    rw [hh] at hless
    cases o with
    | none => exact absurd hless (Nat.lt_irrefl _)
    | some p =>
      rw [Holders.letGo, Holders.count_remove hx.sound] at hless
      obtain rfl : p = q := Decidable.byContradiction fun hne => by simp [hne] at hless
      exact ⟨k, hi, hk⟩

/-- A call that goes on and lets go of its query has failed. -/
theorem failed_of_resume {x : Exchange} {k : Nat} {q : String} (hk : x.Holds k q)
    (hless : (x.step (.resume k)).1.holders.count q < x.holders.count q) :
    ∃ e, .done k (.failed e) ∈ (x.step (.resume k)).2 := by
  rcases x.resume_cases k with ⟨w, result, hw, -, hstep⟩ | ⟨-, hstep⟩
  · rw [step, hstep] at hless ⊢
    have hq : w.purpose.query? = some q := Option.some.inj (hw.held.symm.trans hk)
    rcases w.purpose.outcome_cases hq result with ⟨_, -, -, hafter⟩ | ⟨-, ⟨e, he⟩, -⟩
    · rw [holders_finish, if_pos (hafter.trans hq.symm)] at hless
      exact absurd hless (Nat.lt_irrefl _)
    · refine ⟨e, ?_⟩
      rw [effects_finish, he]
      exact .head _
  · rw [step, hstep] at hless
    exact absurd hless (Nat.lt_irrefl _)

section Leaving

variable {x : Exchange} (hx : x.Counted) (hheld : x.isHeld = true)

include hx hheld

/-- **The last holder goes out** by giving up. -/
theorem lastOut_iff {i : Input} {q : String} :
    x.LastOut i q ↔ x.holders.count q = 1 ∧ ∃ k, i = .abort k ∧ x.Holds k q := by
  constructor
  · intro h
    have hless : (x.step i).1.holders.count q < x.holders.count q := by
      rw [h.last, h.left]
      exact Nat.one_pos
    obtain ⟨k, rfl | rfl, hk⟩ := (turn_step hheld i).left hx hless
    · obtain ⟨e, he⟩ := failed_of_resume hk hless
      exact absurd he (h.kept k e)
    · exact ⟨h.last, k, rfl, hk⟩
  · rintro ⟨hone, k, rfl, hk⟩
    obtain ⟨y, hy, hh, -⟩ := abort_eq_release hheld hk
    refine ⟨hone, ?_, ?_⟩
    · rw [step, hy, holders_release, hh, Holders.count_remove hx.sound, if_pos rfl, hone]
    · intro j e he
      rw [step, effects_abort hheld hk, if_pos hone] at he
      cases List.mem_singleton.mp he

/-- **The node is told to stop** just when the last holder goes out. -/
theorem tells_iff_lastOut {i : Input} (hi : ∀ c, i ≠ .call c) {q : String} :
    (∃ n, .queue (unsubscribeText q n) ∈ (x.step i).2) ↔ x.LastOut i q := by
  rw [lastOut_iff hx hheld]
  by_cases hsub : i.subscribing = true
  · constructor
    · rintro ⟨n, hn⟩
      obtain ⟨o, ho, htext⟩ := (queue_mem_step hx hheld hsub).mp hn
      obtain rfl := (orderText_eq_unsubscribeText ho).mp htext.symm
      obtain ⟨hone, -, hk⟩ := order?_unsubscribe_iff.mp ho
      exact ⟨hone, hk⟩
    · rintro ⟨hone, hk⟩
      have ho := order?_unsubscribe_iff.mpr ⟨hone, rfl, hk⟩
      exact ⟨_, (queue_mem_step hx hheld hsub).mpr ⟨_, ho, rfl⟩⟩
  · refine iff_of_false ?_ ?_
    · rintro ⟨n, hn⟩
      rw [← mem_texts] at hn
      cases i with
      | call c => exact hi c rfl
      | greet =>
        rw [step, greet, if_pos hheld, texts_tellAll] at hn
        obtain ⟨e, -, he⟩ := List.mem_map.mp hn
        exact subscribeText_ne_unsubscribeText _ _ _ _ he
      | drop => cases hn
      | _ => exact hsub rfl
    · rintro ⟨-, k, rfl, -⟩
      exact hsub rfl

/-- Any other holder leaves in silence. -/
theorem texts_of_leaving {i : Input} {k : Nat} (hi : i = .resume k ∨ i = .abort k) :
    texts (x.step i).2 = [] ∨
      ∃ q, x.LastOut i q ∧ texts (x.step i).2 = [unsubscribeText q x.nextId] := by
  have hsub : i.subscribing = true := by rcases hi with rfl | rfl <;> rfl
  rw [texts_step hx hheld hsub]
  cases ho : x.order? i with
  | none => exact .inl rfl
  | some o =>
    rcases order?_cases ho with ⟨q, rfl⟩ | ⟨q, rfl⟩
    · obtain ⟨-, -, topic, family, rfl⟩ := order?_subscribe_iff.mp ho
      rcases hi with hi | hi <;> cases hi
    · obtain ⟨hone, -, hk⟩ := order?_unsubscribe_iff.mp ho
      exact .inr ⟨q, (lastOut_iff hx hheld).mpr ⟨hone, hk⟩, rfl⟩

/-- A subscription is one holder more, and asks the node for the first one. -/
theorem subscribe_counts (q : String) (topic : Topic) (family : Family) :
    (x.step (.subscribe q topic family)).1.holders.count q = x.holders.count q + 1 ∧
      texts (x.step (.subscribe q topic family)).2 =
        if x.holders.count q = 0 then [subscribeText q x.nextId] else [] := by
  constructor
  · rw [step, holders_subscribe, Holders.count_add hx.sound, if_pos rfl]
  · rw [texts_step hx hheld rfl, order?]
    split <;> rfl

end Leaving

/-- **The count of holders is exact**: in every run, while somebody holds the exchange, a query
counts the live subscriptions to it and the calls for it in progress, and it is in the table just if
there are any.  A subscription asks the node just if it is the first holder; the node is told to
stop just if the last holder goes out; and any other holder leaves in silence. -/
theorem holders_counted_exactly {timeout : Nat} {inputs : List Input}
    (hs : Served { timeout } inputs) (hheld : (run { timeout } inputs).1.isHeld = true) :
    let x := (run { timeout } inputs).1
    (∀ q, x.holders.count q =
        x.callers.countP (Caller.asksFor q) + x.callers.countP (Caller.subscribesTo q) ∧
      (q ∈ x.holders.queries ↔ 0 < x.holders.count q)) ∧
    (∀ q topic family,
      (x.step (.subscribe q topic family)).1.holders.count q = x.holders.count q + 1 ∧
        texts (x.step (.subscribe q topic family)).2 =
          if x.holders.count q = 0 then [subscribeText q x.nextId] else []) ∧
    (∀ i, (∀ c, i ≠ .call c) → ∀ q,
      (∃ n, .queue (unsubscribeText q n) ∈ (x.step i).2) ↔ x.LastOut i q) ∧
    ∀ i k, i = .resume k ∨ i = .abort k →
      texts (x.step i).2 = [] ∨
        ∃ q, x.LastOut i q ∧ texts (x.step i).2 = [unsubscribeText q x.nextId] := by
  intro x
  have hx : x.Counted := counted_run (counted_start timeout) hs hheld
  refine ⟨fun q => ⟨?_, hx.sound.mem_queries⟩, subscribe_counts hx hheld,
    fun i hi q => tells_iff_lastOut hx hheld hi, fun i k hi => texts_of_leaving hx hheld hi⟩
  rw [hx.exact, count_query?_eq]

/-- Two callers want the events of a query, and the one that asked the node gives up. -/
def askerGivesUp : List Input :=
  [.subscribe "a" .tx .v029, .subscribe "a" .tx .v029, .abort 0]

/-- The other one is the last holder then, and tells the node when it goes. -/
theorem survivor_tells :
    Served { timeout := 10 } askerGivesUp ∧ (run { timeout := 10 } askerGivesUp).1.isHeld = true ∧
      (run { timeout := 10 } askerGivesUp).1.holders.count "a" = 1 ∧
      ∃ n, .queue (unsubscribeText "a" n) ∈
        ((run { timeout := 10 } askerGivesUp).1.step (.abort 1)).2 := by
  have hs : Served { timeout := 10 } askerGivesUp := ⟨.inl rfl, .inl rfl, .inl rfl, trivial⟩
  have hcall : ∀ c, Input.abort 1 ≠ .call c := fun _ h => Input.noConfusion h
  obtain ⟨hcount, -, htells, -⟩ := holders_counted_exactly hs rfl
  have hone := (hcount "a").1
  refine ⟨hs, rfl, hone, (htells (.abort 1) hcall "a").mpr ⟨hone, rfl, ?_⟩⟩
  rintro k e he
  cases List.mem_singleton.mp he

end Exchange
end NodeClient
