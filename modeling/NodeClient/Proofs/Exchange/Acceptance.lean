import NodeClient.Proofs.Exchange.Requests

/-!
# Acceptance — which subscriptions the node has accepted

The first holder of a query asks the node for its events; whoever joins it is done at once.  So a
subscription is backed by a success of the node only if nobody joins before the success is there.

* `Unhurried`: nobody subscribes to a query that another caller still waits for without a success.
* `sole_asker`, `request_open`: in unhurried schedules the caller that asked is alone with its
  query, and waits, until the node accepts the query.
* `subscriptions_sound_iff`: the subscriptions to a query are sound just in unhurried schedules.
-/

namespace NodeClient
namespace Exchange

/-! ### Schedules -/

/-- Nobody gives up who waits. -/
def Patient (x : Exchange) (i : Input) : Prop :=
  ∀ k, i = .abort k → ∀ w, ¬x.Waits k w

/-- The node has answered a wait with a success. -/
def Waiter.Accepted (w : Waiter) : Prop :=
  ∃ s, w.answer = some (.response (.success s))

/-- Nobody subscribes to the query while another waits for it without a success. -/
def Unhurried (q : String) (x : Exchange) (i : Input) : Prop :=
  ∀ topic family, i = .subscribe q topic family →
    ∀ k w, x.Waits k w → w.purpose.query? = some q → w.Accepted

/-! ### Sound subscriptions -/

/-- The request that was made when a query last got a holder was answered with a success. -/
def Backed (x : Exchange) (inputs : List Input) (q : String) : Prop :=
  ∃ n since s, x.Requested inputs q n since ∧
    firstResponse? (ownId n) since = some (.success s)

/-- One caller holds the query; when it goes on, it fails with the fault, and lets go. -/
structure Refused (x : Exchange) (k : Nat) (q : String) (f : Failure) : Prop where
  alone : ∀ j, x.Holds j q ↔ j = k
  fails : (x.step (.resume k)).2 = [.done k (.failed (.fault f.fault))]
  released : (x.step (.resume k)).1.holders.count q = 0

/-- The node was told, in the last part of a run, to stop the events of a query. -/
def ToldIn (x : Exchange) (inputs : List Input) (q : String) (since : List Input) : Prop :=
  ∃ earlier first i rest n, inputs = earlier ++ since ∧ since = first ++ i :: rest ∧
    .queue (unsubscribeText q n) ∈ ((x.run (earlier ++ first)).1.step i).2

/-- The subscriptions to a query are sound in a run: who is told that he is subscribed is backed by
a success of the node; and if the node answers with a failure, everybody who shares the request
fails, the query has no holder left, and the node is not told to stop its events. -/
structure Sound (x : Exchange) (inputs : List Input) (q : String) : Prop where
  granted : ∀ before i rest k, inputs = before ++ i :: rest →
    .done k (.subscribed q) ∈ ((x.run before).1.step i).2 → x.Backed before q
  withdrawn : ∀ before rest n since f, inputs = before ++ rest →
    x.Requested before q n since → firstResponse? (ownId n) since = some (.failure f) →
      ¬x.ToldIn before q since ∧
        ∃ k, (x.run before).1.Refused k q f ∧
          ∀ i later, rest = i :: later →
            ((x.run before).1.step i).1.holders.count q = 0 → i = .resume k

/-! ### What becomes of a request -/

/-- Who subscribes to a query is told so after a success of the node, or when it joins others. -/
theorem subscribed_mem_step {x : Exchange} (hx : x.Counted) {i : Input}
    (hi : i.subscribing = true) {k : Nat} {q : String}
    (he : .done k (.subscribed q) ∈ (x.step i).2) :
    (∃ w, i = .resume k ∧ x.Waits k w ∧ w.purpose.query? = some q ∧ w.Accepted) ∨
      ((∃ topic family, i = .subscribe q topic family) ∧ x.holders.count q ≠ 0) := by
  cases i with
  | call c => cases hi
  | greet => cases hi
  | drop => cases hi
  | subscribe query topic family =>
    by_cases hq : (x.holders.add query).count query = 1
    · rw [step, subscribe_asking hq] at he
      cases List.mem_singleton.mp he
    · rw [step, subscribe_joining hq] at he
      injection List.mem_singleton.mp he with _ ho
      obtain rfl := Outcome.subscribed.inj ho
      exact .inr ⟨⟨topic, family, rfl⟩, fun h => hq (hx.asks_iff.mpr h)⟩
  | abort j =>
    obtain ⟨text, h⟩ := queued_of_mem_abort he
    cases h
  | resume j =>
    rcases x.resume_cases j with ⟨w, result, hw, hr, hstep⟩ | ⟨-, hstep⟩
    · rw [step, hstep, effects_finish] at he
      injection List.mem_singleton.mp he with hj ho
      subst hj
      cases hp : w.purpose with
      | response =>
        rw [hp] at ho
        cases result <;> cases ho
      | subscription s =>
        rcases w.purpose.outcome_cases (by rw [hp]; rfl) result with
          ⟨t, rfl, ho', -⟩ | ⟨-, ⟨e, ho'⟩, -⟩
        · obtain rfl := Outcome.subscribed.inj (ho.trans ho')
          exact .inl ⟨w, rfl, hw, by rw [hp]; rfl, t, Waiter.result?_eq_response.mp hr⟩
        · rw [ho'] at ho
          cases ho
    · rw [step, hstep] at he
      cases he
  | _ => cases he

theorem Waiter.Accepted.hearInput {w : Waiter} (h : w.Accepted) (i : Input) :
    (w.hearInput i).Accepted := by
  obtain ⟨s, hs⟩ := h
  refine ⟨s, ?_⟩
  cases i with
  | frame text => rw [Waiter.hearInput, receive, hs]; rfl
  | _ => exact hs

section Runs

variable {timeout : Nat} {inputs : List Input} (hi : ∀ i ∈ inputs, i.subscribing = true)
  {q : String}

include hi

variable (hu : Always { timeout } (Unhurried q) inputs)

include hu

/-- **A caller without a success is alone with its query.** -/
theorem sole_asker {k : Nat} {w : Waiter} (hw : (run { timeout } inputs).1.Waits k w)
    (hq : w.purpose.query? = some q) (ha : ¬w.Accepted) :
    (run { timeout } inputs).1.holders.count q = 1 := by
  induction inputs using List.reverseRecOn generalizing k w with
  | nil => cases hw
  | append_singleton rest i ih =>
    have hrest : ∀ j ∈ rest, j.subscribing = true := fun j hj => hi j (List.mem_append_left _ hj)
    obtain ⟨hurest, hulast, -⟩ := always_append.mp hu
    obtain ⟨hx, hi'⟩ := orderly_split (orderly_start timeout) hi rfl
    have hy := orderly_step hx hi'
    rw [run_concat_fst] at hw ⊢
    have hheld := hy.counted.count_ne_zero (hw.holds hq)
    have hle := (hx.turn i).count_le hx.counted q
    rcases waits_step_cases hx.matched (hx.fresh hi') hw with hnew | ⟨v, hv, rfl⟩
    · obtain ⟨query, topic, family, rfl, hasks, -, hquery, -⟩ := newcomer_subscribing hi' hnew
      obtain rfl : query = q := Option.some.inj (hquery.symm.trans hq)
      rw [hx.counted.asks_iff.mp hasks] at hle
      split at hle <;> omega
    · rw [Waiter.purpose_hearInput] at hq
      have hva : ¬v.Accepted := fun h => ha (h.hearInput i)
      have hone := ih hrest hurest hv hq hva
      have hseat : i.seat? ≠ some (some q) := fun h => by
        obtain ⟨topic, family, hin⟩ := Input.seat?_eq_query.mp h
        exact hva (hulast topic family hin k v hv hq)
      rw [hone, if_neg hseat] at hle
      omega

variable (hp : Always { timeout } Patient inputs)

include hp

/-- **A request is open** while the caller that made it waits, until the node answers it with a
success. -/
theorem request_open {n : Nat} {since : List Input}
    (hreq : Requested { timeout } inputs q n since) :
    (∃ k w, (run { timeout } inputs).1.Waits k w ∧ w.id = ownId n ∧
        w.purpose.query? = some q) ∨
      ∃ s, firstResponse? (ownId n) since = some (.success s) := by
  induction inputs using List.reverseRecOn generalizing n since with
  | nil =>
    obtain ⟨before, i, hnil, -⟩ := hreq
    cases (List.append_eq_nil_iff.mp hnil.symm).2
  | append_singleton rest i ih =>
    have hrest : ∀ j ∈ rest, j.subscribing = true := fun j hj => hi j (List.mem_append_left _ hj)
    obtain ⟨hurest, hulast, -⟩ := always_append.mp hu
    obtain ⟨hprest, hplast, -⟩ := always_append.mp hp
    obtain ⟨hx, hi'⟩ := orderly_split (orderly_start timeout) hi rfl
    rw [run_concat_fst]
    rcases hreq.of_concat with ⟨rfl, hask⟩ | ⟨earlier, rfl, hreq'⟩
    · obtain ⟨w, hw, hid, hq⟩ := hx.waits_of_ask hi' hask
      exact .inl ⟨_, w, hw, hid, hq⟩
    rcases ih hrest hurest hprest hreq' with ⟨k, w, hw, hid, hq⟩ | ⟨s, hs⟩
    · by_cases hend : (run { timeout } rest).1.Ends i k
      · rcases hend with rfl | ⟨o, ho⟩
        · exact absurd hw (hplast k rfl w)
        obtain ⟨rfl, v, result, hv, hr, rfl⟩ :=
          (done_mem_step (List.getElem?_eq_some_iff.mp hw).1).mp ho
        obtain rfl := hw.unique hv
        rcases w.purpose.outcome_cases hq result with ⟨s, rfl, -, -⟩ | ⟨hno, -, hafter⟩
        · obtain ⟨n', since, -, hreq'', hanswer⟩ := hw.requested hrest hq
          obtain ⟨rfl, rfl⟩ := hreq'.unique (orderly_start timeout) hrest hreq''
          rw [Waiter.result?_eq_response.mp hr] at hanswer
          obtain ⟨r, hfirst, hr⟩ := Option.map_eq_some_iff.mp hanswer.symm
          obtain rfl := Answer.response.inj hr
          exact .inr ⟨s, firstResponse?_append hfirst⟩
        · have hna : ¬w.Accepted := by
            rintro ⟨s, hs⟩
            rw [Waiter.result?_eq_response.mpr hs] at hr
            exact hno s (Option.some.inj hr).symm
          have hzero := count_of_failed hx.counted hw hr hq hafter
          rw [sole_asker hrest hurest hw hq hna] at hzero
          exact absurd (by rw [run_concat_fst]; exact hzero) hreq.held
      · refine .inl ⟨k, _, waits_step hx.matched (hx.fresh hi') hw hend, ?_, ?_⟩
        · rw [Waiter.id_hearInput, hid]
        · rw [Waiter.purpose_hearInput, hq]
    · exact .inr ⟨s, firstResponse?_append hs⟩

/-- Who is told that he is subscribed is backed by the node, when nobody hurries. -/
theorem backed_of_subscribed {i : Input} (hi' : i.subscribing = true)
    (hui : Unhurried q (run { timeout } inputs).1 i) {k : Nat}
    (he : .done k (.subscribed q) ∈ ((run { timeout } inputs).1.step i).2) :
    Backed { timeout } inputs q := by
  have hx := orderly_run (orderly_start timeout) hi
  have hback : ∀ {k w}, (run { timeout } inputs).1.Waits k w → w.purpose.query? = some q →
      w.Accepted → Backed { timeout } inputs q := by
    rintro k w hw hq ⟨s, hs⟩
    obtain ⟨n, since, -, hreq, hanswer⟩ := hw.requested hi hq
    rw [hs] at hanswer
    obtain ⟨r, hfirst, hr⟩ := Option.map_eq_some_iff.mp hanswer.symm
    obtain rfl := Answer.response.inj hr
    exact ⟨n, since, s, hreq, hfirst⟩
  rcases subscribed_mem_step hx.counted hi' he with
    ⟨w, -, hw, hq, ha⟩ | ⟨⟨topic, family, hin⟩, hheld⟩
  · exact hback hw hq ha
  · obtain ⟨n, since, hreq⟩ := requested_of_held (orderly_start timeout) hi rfl hheld
    rcases request_open hi hu hp hreq with ⟨k, w, hw, -, hq⟩ | ⟨s, hs⟩
    · exact hback hw hq (hui topic family hin k w hw hq)
    · exact ⟨n, since, s, hreq, hs⟩

/-- A request that the node refuses leaves its caller alone with the query, waiting. -/
theorem waits_of_failure {n : Nat} {since : List Input}
    (hreq : Requested { timeout } inputs q n since)
    (hs : ∀ s, firstResponse? (ownId n) since ≠ some (.success s)) :
    ∃ k w, (run { timeout } inputs).1.Waits k w ∧ w.purpose.query? = some q ∧
      w.answer = (firstResponse? (ownId n) since).map .response ∧
      (run { timeout } inputs).1.holders.count q = 1 ∧
      ∀ j, (run { timeout } inputs).1.Holds j q ↔ j = k := by
  have hx := orderly_run (orderly_start timeout) hi
  obtain ⟨k, w, hw, -, hq⟩ := (request_open hi hu hp hreq).resolve_right fun ⟨s, h⟩ => hs s h
  obtain ⟨n', since', -, hreq', hanswer⟩ := hw.requested hi hq
  obtain ⟨rfl, rfl⟩ := hreq.unique (orderly_start timeout) hi hreq'
  have hna : ¬w.Accepted := by
    rintro ⟨s, h⟩
    rw [h] at hanswer
    obtain ⟨r, hfirst, hr⟩ := Option.map_eq_some_iff.mp hanswer.symm
    obtain rfl := Answer.response.inj hr
    exact hs s hfirst
  have hone := sole_asker hi hu hw hq hna
  have hk := hw.holds hq
  refine ⟨k, w, hw, hq, hanswer, hone, fun j => ⟨fun hj => hx.counted.sole hone hj hk, ?_⟩⟩
  rintro rfl
  exact hk

/-- While the node's refusal waits for its caller, nobody stopped the events of the query. -/
theorem not_toldIn_of_failure {n : Nat} {since : List Input}
    (hreq : Requested { timeout } inputs q n since)
    (hs : ∀ s, firstResponse? (ownId n) since ≠ some (.success s)) :
    ¬ToldIn { timeout } inputs q since := by
  rintro ⟨earlier, first, i, rest, m, rfl, rfl, htold⟩
  rw [← List.append_assoc] at hreq hi hu hp
  have hi₀ : ∀ j ∈ earlier ++ first, j.subscribing = true := fun j hj =>
    hi j (List.mem_append_left _ hj)
  have hi' : i.subscribing = true := hi i (List.mem_append_right _ (.head rest))
  have hx := orderly_run (orderly_start timeout) hi₀
  have hs₀ : ∀ s, firstResponse? (ownId n) first ≠ some (.success s) := fun s h =>
    hs s (firstResponse?_append h)
  obtain ⟨k, w, hw, -, -, -, hsole⟩ :=
    waits_of_failure hi₀ (always_append.mp hu).1 (always_append.mp hp).1 hreq.earlier hs₀
  obtain ⟨-, -, j, rfl, hj⟩ := (hx.tells_iff hi').mp htold
  obtain rfl := (hsole j).mp hj
  exact (always_append.mp hp).2.1 j rfl w hw

/-- A failure of the node is met by a caller that is alone with the query, and fails with it. -/
theorem refused_of_failure {n : Nat} {since : List Input} {f : Failure}
    (hreq : Requested { timeout } inputs q n since)
    (hf : firstResponse? (ownId n) since = some (.failure f)) :
    ∃ k w, (run { timeout } inputs).1.Waits k w ∧ (run { timeout } inputs).1.Refused k q f := by
  have hx := orderly_run (orderly_start timeout) hi
  obtain ⟨k, w, hw, hq, hanswer, hone, hsole⟩ :=
    waits_of_failure hi hu hp hreq (by rw [hf]; simp)
  rw [hf] at hanswer
  have hr : w.result? (run { timeout } inputs).1.now (run { timeout } inputs).1.timeout =
      some (.ok (.failure f)) := Waiter.result?_eq_response.mpr hanswer
  have hfails : w.purpose.outcome (.ok (.failure f)) = .failed (.fault f.fault) ∧
      w.purpose.after (.ok (.failure f)) = .over := by
    cases hp : w.purpose with
    | response => rw [hp] at hq; cases hq
    | subscription s => exact ⟨rfl, rfl⟩
  refine ⟨k, w, hw, hsole, ?_, ?_⟩
  · rw [step, resume_eq_finish hw hr, effects_finish, hfails.1]
  · rw [count_of_failed hx.counted hw hr hq hfails.2, hone]

end Runs

/-- **The subscriptions to a query are sound just when nobody hurries**, on one connection on which
no caller gives up while it waits: a subscription that joins a request before the node accepted it
is granted all the same. -/
theorem subscriptions_sound_iff (timeout : Nat) {inputs : List Input}
    (hi : ∀ i ∈ inputs, i.subscribing = true) (hp : Always { timeout } Patient inputs)
    (q : String) :
    Sound { timeout } inputs q ↔ Always { timeout } (Unhurried q) inputs := by
  constructor
  · intro hsound
    rw [always_iff_split]
    rintro before i rest rfl topic family rfl k w hw hq
    have hi₀ : ∀ j ∈ before, j.subscribing = true := fun j hj => hi j (List.mem_append_left _ hj)
    have hx := orderly_run (orderly_start timeout) hi₀
    have hheld : (run { timeout } before).1.holders.count q ≠ 0 :=
      hx.counted.count_ne_zero (hw.holds hq)
    have hdone : .done (run { timeout } before).1.callers.length (.subscribed q) ∈
        ((run { timeout } before).1.step (.subscribe q topic family)).2 := by
      rw [step, subscribe_joining fun h => hheld (hx.counted.asks_iff.mp h)]
      exact .head []
    obtain ⟨n, since, s, hreq, hs⟩ := hsound.granted before _ rest _ rfl hdone
    obtain ⟨n', since', -, hreq', hanswer⟩ := hw.requested hi₀ hq
    obtain ⟨rfl, rfl⟩ := hreq.unique (orderly_start timeout) hi₀ hreq'
    exact ⟨s, by rw [hanswer, hs]; rfl⟩
  · intro hu
    constructor
    · rintro before i rest k rfl he
      have hi₀ : ∀ j ∈ before, j.subscribing = true := fun j hj => hi j (List.mem_append_left _ hj)
      obtain ⟨hu₀, hui, -⟩ := always_append.mp hu
      exact backed_of_subscribed hi₀ hu₀ (always_append.mp hp).1
        (hi i (List.mem_append_right _ (.head rest))) hui he
    · rintro before rest n since f rfl hreq hf
      have hi₀ : ∀ j ∈ before, j.subscribing = true := fun j hj => hi j (List.mem_append_left _ hj)
      have hu₀ := (always_append.mp hu).1
      obtain ⟨hp₀, hprest⟩ := always_append.mp hp
      obtain ⟨k, w, hw, hrefused⟩ := refused_of_failure hi₀ hu₀ hp₀ hreq hf
      refine ⟨not_toldIn_of_failure hi₀ hu₀ hp₀ hreq (by rw [hf]; simp), k, hrefused, ?_⟩
      rintro i later rfl hzero
      have hi' : i.subscribing = true := hi i (List.mem_append_right _ (.head later))
      have hx := orderly_run (orderly_start timeout) hi₀
      rcases (hx.turn i).holds ((hrefused.alone k).mpr rfl) with hk | hi | rfl
      · exact absurd hzero ((orderly_step hx hi').counted.count_ne_zero hk)
      · exact hi
      · exact absurd hw (hprest.1 k rfl w)

/-- Two callers subscribe to one query before the node refuses it; the second one is dropped. -/
def joinedTooEarly : List Input :=
  [.subscribe "a" .tx .v029, .subscribe "a" .tx .v029,
    .respond (.failure
      { id := some (ownId 1), fault := { code := -1, message := "bad", data := none } }),
    .resume 0, .abort 1]

/-- The second caller is subscribed at once, although the node never accepts the query, and its drop
stops events that were never sent. -/
theorem joined_too_early_is_unsound :
    (run { timeout := 10 } joinedTooEarly).2 =
        [.queue (subscribeText "a" 1), .done 1 (.subscribed "a"),
          .done 0 (.failed (.fault { code := -1, message := "bad", data := none })),
          .queue (unsubscribeText "a" 2)] ∧
      ¬Sound { timeout := 10 } joinedTooEarly "a" := by
  refine ⟨rfl, fun hsound => ?_⟩
  have hi : ∀ i ∈ joinedTooEarly, i.subscribing = true := by decide
  have hp : Always { timeout := 10 } Patient joinedTooEarly := by
    refine ⟨?_, ?_, ?_, ?_, ?_, trivial⟩ <;> rintro k ⟨⟩
    rintro w ⟨⟩
  have hu := (subscriptions_sound_iff 10 hi hp "a").mp hsound
  obtain ⟨s, hs⟩ := hu.2.1 .tx .v029 rfl 0 _ rfl rfl
  cases hs

end Exchange
end NodeClient
