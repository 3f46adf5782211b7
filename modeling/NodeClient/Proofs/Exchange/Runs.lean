import Mathlib.Algebra.GroupWithZero.Nat
import NodeClient.Proofs.Exchange.Progress

/-!
# Runs — what runs of an exchange keep

A run is fresh if nobody comes in it with an id for which somebody waits (`FreshRun`).  In a fresh
run the table of pending ids stays exact, and who waits after a step has come with it or waited
before.

* `Always`: every input of a run meets a state that it suits.
* `waits_step_cases`: who waits after a step.
* `clock_run`, `nextId_run`: what every run keeps, fresh or not.
* `matched_run`: what a fresh run keeps; `freshRun_start` says which schedules are fresh.
-/

namespace NodeClient
namespace Exchange

/-! ### Steps -/

/-- How many callers an input lets in. -/
def Input.arrivals : Input → Nat
  | .call _ | .subscribe .. => 1
  | _ => 0

theorem length_callers_step {x : Exchange} (hm : x.Matched) {i : Input} (hf : x.Fresh i) :
    (x.step i).1.callers.length = x.callers.length + i.arrivals := by
  cases i with
  | call c => rw [(step_newcomer hm hf rfl).1, List.length_append]; rfl
  | subscribe query topic family =>
    by_cases hq : (x.holders.add query).count query = 1
    · rw [(step_newcomer hm hf (if_pos hq)).1, List.length_append]; rfl
    · rw [step, subscribe_joining hq, List.length_append]; rfl
  | frame text => rw [callers_frame hm, List.length_map]; rfl
  | resume k =>
    rcases x.resume_cases k with ⟨w, result, hw, -, hx⟩ | ⟨-, hx⟩
    · rw [step, hx, callers_finish hm hw, List.length_set]; rfl
    · rw [step, hx]; rfl
  | abort k => rw [step, callers_abort hm, List.length_set]; rfl
  | read k => rw [step, read_snd]; exact List.length_modify _ _ _
  | greet =>
    rw [step, greet]
    split
    · rw [tellAll_fst]; rfl
    · rfl
  | _ => rfl

/-- Whoever waits as the newest caller has just come. -/
theorem newcomer_of_waits {x : Exchange} (hm : x.Matched) {i : Input} (hf : x.Fresh i)
    {w : Waiter} (hw : (x.step i).1.Waits x.callers.length w) : x.newcomer? i = some w := by
  have hlast : ∀ {c : Caller}, (x.step i).1.callers = x.callers ++ [c] → c = .waiting w := by
    intro c hc
    rw [Waits, hc, List.getElem?_concat_length] at hw
    exact Option.some.inj hw
  have hlt := (List.getElem?_eq_some_iff.mp hw).1
  rw [length_callers_step hm hf] at hlt
  cases i with
  | call c =>
    injection hlast (step_newcomer hm hf rfl).1 with h
    exact congrArg some h
  | subscribe query topic family =>
    by_cases hq : (x.holders.add query).count query = 1
    · injection hlast (step_newcomer hm hf (if_pos hq)).1 with h
      exact (if_pos hq).trans (congrArg some h)
    · have hc := hlast (congrArg (fun p => p.1.callers) (subscribe_joining hq topic family))
      cases hc
  | _ => exact absurd hlt (Nat.lt_irrefl _)

@[simp] theorem Waiter.id_hearInput (i : Input) (w : Waiter) : (w.hearInput i).id = w.id := by
  cases i <;> rfl

@[simp] theorem Waiter.purpose_hearInput (i : Input) (w : Waiter) :
    (w.hearInput i).purpose = w.purpose := by
  cases i <;> rfl

/-- Whoever waits after a step has come with it, or waits on. -/
theorem waits_step_cases {x : Exchange} (hm : x.Matched) {i : Input} (hf : x.Fresh i) {k : Nat}
    {v : Waiter} (hv : (x.step i).1.Waits k v) :
    x.newcomer? i = some v ∨ ∃ w, x.Waits k w ∧ v = w.hearInput i := by
  by_cases hk : k < x.callers.length
  · obtain ⟨⟨w, hw⟩, hi⟩ := waits_of_step hm hf hk hv
    exact .inr ⟨w, hw, hv.unique (waits_step hm hf hw hi)⟩
  · obtain rfl : k = x.callers.length := by
      have hlt := (List.getElem?_eq_some_iff.mp hv).1
      rw [length_callers_step hm hf] at hlt
      have harr : i.arrivals ≤ 1 := by cases i <;> simp [Input.arrivals]
      omega
    exact .inl (newcomer_of_waits hm hf hv)

/-- The time that an input takes. -/
def Input.duration : Input → Nat
  | .advance ms => ms
  | _ => 0

section Time

variable (x : Exchange)

/-- Only time that goes by, and the owner, change what the operations leave alone. -/
theorem steady_step (i : Input) :
    (∃ ms, i = .advance ms) ∨ i = .drop ∨ Steady x (x.step i).1 := by
  cases i with
  | advance ms => exact .inl ⟨ms, rfl⟩
  | drop => exact .inr (.inl rfl)
  | call c => exact .inr (.inr (x.steady_await c .response))
  | subscribe query topic family =>
    refine .inr (.inr ?_)
    by_cases hq : (x.holders.add query).count query = 1
    · have hasking : Steady x (x.asking query) := ⟨rfl, rfl, rfl, Nat.le_succ _⟩
      rw [step, subscribe_asking hq]
      exact hasking.trans (steady_await _ _ _)
    · rw [step, subscribe_joining hq]
      exact ⟨rfl, rfl, rfl, Nat.le_refl _⟩
  | frame text =>
    refine .inr (.inr ?_)
    rw [step]
    split
    · exact x.steady_route text
    · exact .refl x
  | resume k =>
    refine .inr (.inr ?_)
    rcases x.resume_cases k with ⟨w, result, -, -, hx⟩ | ⟨-, hx⟩
    · rw [step, hx]
      exact x.steady_finish k w result
    · rw [step, hx]
      exact .refl x
  | abort k => exact .inr (.inr (x.steady_abort k))
  | read k =>
    rw [step, read_snd]
    exact .inr (.inr ⟨rfl, rfl, rfl, Nat.le_refl _⟩)
  | greet =>
    refine .inr (.inr ?_)
    rw [step, greet]
    split
    · rw [tellAll_fst]
      exact ⟨rfl, rfl, rfl, Nat.le_add_right _ _⟩
    · exact .refl x

/-- The numbers of own calls only grow. -/
theorem nextId_step (i : Input) : x.nextId ≤ (x.step i).1.nextId := by
  rcases x.steady_step i with ⟨ms, rfl⟩ | rfl | h
  · exact Nat.le_refl _
  · exact Nat.le_refl _
  · exact h.nextId

/-- The clock of an exchange: a step takes the time of its input. -/
theorem clock_step (i : Input) :
    (x.step i).1.timeout = x.timeout ∧ (x.step i).1.now = x.now + i.duration := by
  rcases x.steady_step i with ⟨ms, rfl⟩ | rfl | h
  · exact ⟨rfl, rfl⟩
  · exact ⟨rfl, rfl⟩
  · refine ⟨h.timeout, ?_⟩
    cases i with
    | advance ms => rfl
    | _ => exact h.now

end Time

/-! ### Runs -/

@[simp] theorem run_nil (x : Exchange) : x.run [] = (x, []) := rfl

theorem run_cons (x : Exchange) (i : Input) (rest : List Input) :
    x.run (i :: rest) = (((x.step i).1.run rest).1, (x.step i).2 ++ ((x.step i).1.run rest).2) :=
  rfl

@[simp] theorem run_cons_fst (x : Exchange) (i : Input) (rest : List Input) :
    (x.run (i :: rest)).1 = ((x.step i).1.run rest).1 := rfl

theorem run_append_fst (x : Exchange) (first rest : List Input) :
    (x.run (first ++ rest)).1 = ((x.run first).1.run rest).1 := by
  induction first generalizing x with
  | nil => rfl
  | cons i first ih => exact ih (x.step i).1

/-- Every input of a run meets a state that it suits. -/
def Always (x : Exchange) (P : Exchange → Input → Prop) : List Input → Prop
  | [] => True
  | i :: rest => P x i ∧ (x.step i).1.Always P rest

theorem always_append {x : Exchange} {P : Exchange → Input → Prop} {first rest : List Input} :
    x.Always P (first ++ rest) ↔ x.Always P first ∧ (x.run first).1.Always P rest := by
  induction first generalizing x with
  | nil => simp [Always]
  | cons i first ih => simp [Always, ih, and_assoc]

@[simp] theorem run_concat_fst (x : Exchange) (inputs : List Input) (i : Input) :
    (x.run (inputs ++ [i])).1 = ((x.run inputs).1.step i).1 :=
  x.run_append_fst inputs [i]

theorem always_iff_split {x : Exchange} {P : Exchange → Input → Prop} {inputs : List Input} :
    x.Always P inputs ↔
      ∀ before i rest, inputs = before ++ i :: rest → P (x.run before).1 i := by
  constructor
  · rintro h before i rest rfl
    exact (always_append.mp h).2.1
  · intro h
    induction inputs generalizing x with
    | nil => trivial
    | cons i rest ih =>
      refine ⟨h [] i rest rfl, ih fun before j later hrest => ?_⟩
      exact h (i :: before) j later (by rw [hrest, List.cons_append])

/-- The time that goes by. -/
def elapsed (inputs : List Input) : Nat :=
  (inputs.map Input.duration).sum

theorem clock_run (x : Exchange) (inputs : List Input) :
    (x.run inputs).1.timeout = x.timeout ∧ (x.run inputs).1.now = x.now + elapsed inputs := by
  induction inputs generalizing x with
  | nil => exact ⟨rfl, rfl⟩
  | cons i rest ih =>
    obtain ⟨ht, hn⟩ := x.clock_step i
    obtain ⟨ht', hn'⟩ := ih (x.step i).1
    refine ⟨ht'.trans ht, ?_⟩
    rw [run_cons_fst, hn', hn, elapsed, elapsed, List.map_cons, List.sum_cons, Nat.add_assoc]

theorem nextId_run (x : Exchange) (inputs : List Input) : x.nextId ≤ (x.run inputs).1.nextId := by
  induction inputs generalizing x with
  | nil => exact Nat.le_refl _
  | cons i rest ih => exact Nat.le_trans (x.nextId_step i) (ih (x.step i).1)

/-! ### Fresh runs -/

/-- Nobody comes with an id for which somebody waits. -/
abbrev FreshRun (x : Exchange) (inputs : List Input) : Prop :=
  x.Always Fresh inputs

theorem matched_run {x : Exchange} (hm : x.Matched) {inputs : List Input}
    (hf : x.FreshRun inputs) : (x.run inputs).1.Matched := by
  induction inputs generalizing x with
  | nil => exact hm
  | cons i rest ih => exact ih (matched_step hm hf.1) hf.2

/-- The ids with which callers come in a run. -/
def ids (x : Exchange) : List Input → List Id
  | [] => []
  | i :: rest => ((x.newcomer? i).map Waiter.id).toList ++ (x.step i).1.ids rest

/-- A schedule is fresh if all its ids differ from each other, and from the ids that callers wait
for at its start. -/
theorem freshRun_of_distinct {x : Exchange} (hm : x.Matched) {seen : List Id}
    (hseen : ∀ k w, x.Waits k w → w.id ∈ seen) {inputs : List Input}
    (h : (seen ++ x.ids inputs).Pairwise fun a b => a.same b = false) : x.FreshRun inputs := by
  induction inputs generalizing x seen with
  | nil => trivial
  | cons i rest ih =>
    have hf : x.Fresh i := by
      intro w hw k v hv
      refine (List.pairwise_append.mp h).2.2 _ (hseen k v hv) _ ?_
      rw [ids, hw]
      exact .head _
    refine ⟨hf, ih (matched_step hm hf) ?_ (List.append_assoc _ _ _ ▸ h)⟩
    intro k v hv
    rcases waits_step_cases hm hf hv with hnew | ⟨w, hw, rfl⟩
    · rw [hnew]
      exact List.mem_append_right _ (.head _)
    · rw [Waiter.id_hearInput]
      exact List.mem_append_left _ (hseen k w hw)

/-- From the start, a schedule is fresh if all its ids differ. -/
theorem freshRun_start (timeout : Nat) {inputs : List Input}
    (h : (ids { timeout } inputs).Pairwise fun a b => a.same b = false) :
    FreshRun { timeout } inputs := by
  have hnobody : ∀ k w, Waits { timeout } k w → w.id ∈ ([] : List Id) := by
    intro k w hw
    simp [Waits] at hw
  exact freshRun_of_distinct (matched_start timeout) hnobody h

end Exchange
end NodeClient
