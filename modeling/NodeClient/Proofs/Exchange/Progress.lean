import NodeClient.Proofs.Exchange.Operations

/-!
# Progress — what an input does to a caller

An input is about at most one caller, and the others hear at most a frame.  So one step is known
from three questions: who comes (`newcomer?`), what the rest hears (`getElem?_callers_step`), and
what the caller does that the input is about (`callers_resume`, `callers_abort`, `callers_read`).

* `matched_step`: the table of pending ids stays exact, as long as nobody comes with a claimed id.
-/

namespace NodeClient
namespace Exchange

/-! ### Who comes -/

/-- The caller that an input lets in, if that caller waits. -/
def newcomer? (x : Exchange) : Input → Option Waiter
  | .call c => some { id := c.id, purpose := .response, deadline := x.now + x.timeout }
  | .subscribe query topic family =>
    if (x.holders.add query).count query = 1 then
      some {
        id := ownId x.nextId
        purpose := .subscription { query, topic, family, position := x.events.length }
        deadline := x.now + x.timeout }
    else none
  | _ => none

/-- Whoever comes has an id for which nobody waits. -/
def Fresh (x : Exchange) (i : Input) : Prop :=
  ∀ w, x.newcomer? i = some w → x.Unclaimed w.id

/-- An exchange in which a query has one holder more, for which the next own call will ask. -/
def asking (x : Exchange) (query : String) : Exchange :=
  { x with holders := x.holders.add query, nextId := x.nextId + 1 }

theorem matched_asking {x : Exchange} (hm : x.Matched) (query : String) :
    (x.asking query).Matched :=
  hm.congr rfl fun _ _ => Iff.rfl

/-- A subscription that asks the node is a call for a response. -/
theorem subscribe_asking {x : Exchange} {query : String}
    (hq : (x.holders.add query).count query = 1) (topic : Topic) (family : Family) :
    x.subscribe query topic family =
      (x.asking query).await ((Request.subscribe query).toCall (ownId x.nextId))
        (.subscription { query, topic, family, position := x.events.length }) := by
  simp [subscribe, hq, ownCall, asking]

/-- One that finds other holders is done at once. -/
theorem subscribe_joining {x : Exchange} {query : String}
    (hq : (x.holders.add query).count query ≠ 1) (topic : Topic) (family : Family) :
    x.subscribe query topic family =
      ({ x with
          holders := x.holders.add query
          callers := x.callers ++
            [.subscribed { query, topic, family, position := x.events.length }] },
        [.done x.callers.length (.subscribed query)]) := by
  simp [subscribe, hq]

/-- **A caller that comes** joins the callers, and queues its call. -/
theorem step_newcomer {x : Exchange} (hm : x.Matched) {i : Input} (hf : x.Fresh i) {w : Waiter}
    (hw : x.newcomer? i = some w) :
    (x.step i).1.callers = x.callers ++ [.waiting w] ∧
      (x.step i).1.pending = x.pending ++ [(w.id, x.callers.length)] ∧
      (x.step i).1.now = x.now ∧ (x.step i).1.timeout = x.timeout ∧
      ∃ text, (x.step i).2 = [.queue text] := by
  have hid := hf w hw
  cases i with
  | call c =>
    obtain rfl := Option.some.inj hw
    rw [step, await_eq hm hid]
    exact ⟨rfl, rfl, rfl, rfl, _, rfl⟩
  | subscribe query topic family =>
    rw [newcomer?] at hw
    split at hw
    · next hq =>
      obtain rfl := Option.some.inj hw
      have hid : (x.asking query).Unclaimed
          ((Request.subscribe query).toCall (ownId x.nextId)).id := hid
      rw [step, subscribe_asking hq, await_eq (matched_asking hm query) hid]
      exact ⟨rfl, rfl, rfl, rfl, _, rfl⟩
    · cases hw
  | _ => cases hw

theorem waits_newcomer {x : Exchange} (hm : x.Matched) {i : Input} (hf : x.Fresh i) {w : Waiter}
    (hw : x.newcomer? i = some w) : (x.step i).1.Waits x.callers.length w := by
  rw [Waits, (step_newcomer hm hf hw).1, List.getElem?_concat_length]

/-! ### What the others hear -/

/-- The caller that an input is about. -/
def Input.caller? : Input → Option Nat
  | .resume k | .abort k | .read k => some k
  | _ => none

/-- A caller after an input that is not about it. -/
def Caller.hearInput : Input → Caller → Caller
  | .frame text, c => c.receive text
  | _, c => c

@[simp] theorem Caller.waits_receive (text : String) (c : Caller) :
    (c.receive text).waits = c.waits := by
  cases c <;> rfl

@[simp] theorem Caller.waits_hearInput (i : Input) (c : Caller) :
    (c.hearInput i).waits = c.waits := by
  cases i <;> simp [hearInput]

theorem Waits.isHeld {x : Exchange} {k : Nat} {w : Waiter} (hw : x.Waits k w) :
    x.isHeld = true := by
  have hany : x.callers.any Caller.waits = true :=
    List.any_eq_true.mpr ⟨_, List.mem_of_getElem? hw, rfl⟩
  rw [Exchange.isHeld, hany, Bool.or_true]

theorem Caller.receive_of_not_waits {c : Caller} (hc : c.waits = false) (text : String) :
    c.receive text = c := by
  cases c with
  | waiting w => cases hc
  | _ => rfl

/-- An exchange that nobody holds hears no frames, but nobody waits in it either. -/
theorem callers_frame {x : Exchange} (hm : x.Matched) (text : String) :
    (x.step (.frame text)).1.callers = x.callers.map (Caller.receive text) := by
  rw [step]
  split
  · exact callers_route hm text
  · next hheld =>
    have hwaits : ∀ c ∈ x.callers, c.waits = false := by
      intro c hc
      refine Bool.eq_false_iff.mpr fun hw => hheld ?_
      rw [isHeld, List.any_eq_true.mpr ⟨c, hc, hw⟩, Bool.or_true]
    symm
    rw [List.map_congr_left fun c hc => Caller.receive_of_not_waits (hwaits c hc) text]
    exact List.map_id' x.callers

/-! ### What the caller does that the input is about -/

/-- A caller that is resumed ends its wait, or nothing happens. -/
theorem resume_cases (x : Exchange) (k : Nat) :
    (∃ w result, x.Waits k w ∧ w.result? x.now x.timeout = some result ∧
        x.resume k = x.finish k w result) ∨
      ((∀ w, x.Waits k w → w.result? x.now x.timeout = none) ∧ x.resume k = (x, [])) := by
  unfold resume
  split
  · next w hw =>
    cases hr : w.result? x.now x.timeout with
    | some result => exact .inl ⟨w, result, hw, hr, rfl⟩
    | none => exact .inr ⟨fun v hv => hv.unique hw ▸ hr, rfl⟩
  · next h => exact .inr ⟨fun w hw => absurd hw (h w), rfl⟩

/-- A caller whose wait has come to something. -/
theorem resume_eq_finish {x : Exchange} {k : Nat} {w : Waiter} (hw : x.Waits k w)
    {result : Except ClientError Response} (hr : w.result? x.now x.timeout = some result) :
    x.resume k = x.finish k w result := by
  rcases x.resume_cases k with ⟨v, result', hv, hr', hx⟩ | ⟨hnone, -⟩
  · obtain rfl := hw.unique hv
    obtain rfl := Option.some.inj (hr.symm.trans hr')
    exact hx
  · rw [hnone w hw] at hr
    cases hr

theorem callers_abort {x : Exchange} (hm : x.Matched) (k : Nat) :
    (x.abort k).1.callers = x.callers.set k .over := by
  unfold abort
  split
  · next w hw =>
    have hleave := callers_leave hm hw
    cases w.purpose with
    | response => exact hleave
    | subscription s => exact (callers_release _ _ _).trans hleave
  · next s hs =>
    dsimp only
    split
    · exact callers_release _ _ _
    · rfl
  · next hw hs =>
    have hover : x.callers[k]? = some .over ∨ x.callers.length ≤ k := by
      cases hc : x.callers[k]? with
      | none => exact .inr (List.getElem?_eq_none_iff.mp hc)
      | some c =>
        cases c with
        | waiting w => exact absurd hc (hw w)
        | subscribed s => exact absurd hc (hs s)
        | «over» => exact .inl rfl
    rcases hover with hc | hk
    · obtain ⟨hk, hc⟩ := List.getElem?_eq_some_iff.mp hc
      rw [← hc, List.set_getElem_self]
    · rw [List.set_eq_of_length_le hk]

/-- A caller that reads the next event. -/
def Caller.readOn (events : List Event) : Caller → Caller
  | .subscribed s => .subscribed (s.take events).2
  | c => c

@[simp] theorem Caller.waits_readOn (events : List Event) (c : Caller) :
    (c.readOn events).waits = c.waits := by
  cases c <;> rfl

theorem read_snd (x : Exchange) (k : Nat) :
    (x.read k).2 = { x with callers := x.callers.modify k (Caller.readOn x.events) } := by
  have hcallers : (x.read k).2.callers = x.callers.modify k (Caller.readOn x.events) := by
    refine List.ext_getElem? fun j => ?_
    rw [List.getElem?_modify]
    unfold read
    split
    · next s hs =>
      simp only [setCaller, List.getElem?_set]
      by_cases hj : k = j
      · subst hj
        obtain ⟨hk, hc⟩ := List.getElem?_eq_some_iff.mp hs
        simp [hk, hc, Caller.readOn]
      · simp [hj]
    · next hs =>
      by_cases hj : k = j
      · subst hj
        cases hc : x.callers[k]? with
        | none => rfl
        | some c =>
          cases c with
          | subscribed s => exact absurd hc (hs s)
          | _ => simp [Caller.readOn]
      · simp [hj]
  rw [← hcallers]
  unfold read
  split <;> rfl

/-- **The callers that an input is not about** hear a frame, and notice nothing else. -/
theorem getElem?_callers_step {x : Exchange} (hm : x.Matched) {i : Input} (hf : x.Fresh i)
    {k : Nat} (hk : k < x.callers.length) (hi : i.caller? ≠ some k) :
    (x.step i).1.callers[k]? = x.callers[k]?.map (Caller.hearInput i) := by
  have hself : x.callers[k]?.map id = x.callers[k]? := Option.map_id_apply
  cases i with
  | call c =>
    rw [(step_newcomer hm hf rfl).1, List.getElem?_append_left hk]
    exact hself.symm
  | subscribe query topic family =>
    by_cases hq : (x.holders.add query).count query = 1
    · rw [(step_newcomer hm hf (if_pos hq)).1, List.getElem?_append_left hk]
      exact hself.symm
    · rw [step, subscribe_joining hq]
      exact (List.getElem?_append_left hk).trans hself.symm
  | frame text =>
    rw [callers_frame hm, List.getElem?_map]
    rfl
  | advance ms => exact hself.symm
  | drop => exact hself.symm
  | greet =>
    rw [step, greet]
    split
    · rw [tellAll_fst]
      exact hself.symm
    · exact hself.symm
  | resume j =>
    have hj : j ≠ k := fun h => hi (congrArg some h)
    rcases x.resume_cases j with ⟨w, result, hw, -, hx⟩ | ⟨-, hx⟩
    · rw [step, hx, callers_finish hm hw result, List.getElem?_set_ne hj]
      exact hself.symm
    · rw [step, hx]
      exact hself.symm
  | abort j =>
    have hj : j ≠ k := fun h => hi (congrArg some h)
    rw [step, callers_abort hm, List.getElem?_set_ne hj]
    exact hself.symm
  | read j =>
    have hj : j ≠ k := fun h => hi (congrArg some h)
    rw [step, read_snd]
    exact (List.getElem?_modify_ne _ _ hj).trans hself.symm

/-! ### The end of a call -/

theorem queued_of_mem_release {x : Exchange} {q : String} {telling : Bool} {e : Effect}
    (he : e ∈ (x.release q telling).2) : ∃ text, e = .queue text := by
  rw [release_eq] at he
  split at he
  · exact ⟨_, List.mem_singleton.mp he⟩
  · cases he

theorem queued_of_mem_abort {x : Exchange} {k : Nat} {e : Effect} (he : e ∈ (x.abort k).2) :
    ∃ text, e = .queue text := by
  unfold abort at he
  split at he
  · next w _ =>
    cases hp : w.purpose with
    | response => rw [hp] at he; cases he
    | subscription s => rw [hp] at he; exact queued_of_mem_release he
  · dsimp only at he
    split at he
    · exact queued_of_mem_release he
    · cases he
  · cases he

/-- **A call ends when its caller goes on**, with what the wait has come to then. -/
theorem done_mem_step {x : Exchange} {i : Input} {k : Nat} (hk : k < x.callers.length)
    {o : Outcome} :
    .done k o ∈ (x.step i).2 ↔
      i = .resume k ∧ ∃ w result, x.Waits k w ∧ w.result? x.now x.timeout = some result ∧
        o = w.purpose.outcome result := by
  constructor
  · intro he
    cases i with
    | resume j =>
      rcases x.resume_cases j with ⟨w, result, hw, hr, hx⟩ | ⟨-, hx⟩
      · rw [step, hx, effects_finish, List.mem_singleton] at he
        injection he with hj ho
        subst hj
        exact ⟨rfl, w, result, hw, hr, ho⟩
      · rw [step, hx] at he
        cases he
    | abort j =>
      obtain ⟨text, h⟩ := queued_of_mem_abort he
      cases h
    | greet =>
      rw [step, greet] at he
      split at he
      · obtain ⟨text, h⟩ := queued_of_mem_tellAll he
        cases h
      · cases he
    | subscribe query topic family =>
      by_cases hq : (x.holders.add query).count query = 1
      · rw [step, subscribe_asking hq] at he
        cases List.mem_singleton.mp he
      · rw [step, subscribe_joining hq] at he
        injection List.mem_singleton.mp he with h
        exact absurd h (Nat.ne_of_lt hk)
    | call c => cases List.mem_singleton.mp he
    | _ => cases he
  · rintro ⟨rfl, w, result, hw, hr, rfl⟩
    rw [step, resume_eq_finish hw hr, effects_finish]
    exact .head []

/-- The end of a wait that a step brings: the caller goes on, or gives up. -/
def Ends (x : Exchange) (i : Input) (k : Nat) : Prop :=
  i = .abort k ∨ ∃ o, .done k o ∈ (x.step i).2

/-- A wait after an input that does not end it. -/
def Waiter.hearInput : Input → Waiter → Waiter
  | .frame text, w => w.receive text
  | _, w => w

/-- **A caller waits on** until an input ends its wait. -/
theorem waits_step {x : Exchange} (hm : x.Matched) {i : Input} (hf : x.Fresh i) {k : Nat}
    {w : Waiter} (hw : x.Waits k w) (hi : ¬x.Ends i k) :
    (x.step i).1.Waits k (w.hearInput i) := by
  have hk : k < x.callers.length := (List.getElem?_eq_some_iff.mp hw).1
  by_cases habout : i.caller? = some k
  · cases i with
    | resume j =>
      obtain rfl : j = k := Option.some.inj habout
      rcases x.resume_cases j with ⟨v, result, hv, hr, -⟩ | ⟨-, hx⟩
      · exact absurd (.inr ⟨_, (done_mem_step hk).mpr ⟨rfl, v, result, hv, hr, rfl⟩⟩) hi
      · rw [step, hx]
        exact hw
    | abort j =>
      obtain rfl : j = k := Option.some.inj habout
      exact absurd (.inl rfl) hi
    | read j =>
      obtain rfl : j = k := Option.some.inj habout
      rw [step, read_snd, Waits]
      dsimp only
      rw [List.getElem?_modify_eq, show x.callers[j]? = some (.waiting w) from hw]
      rfl
    | _ => cases habout
  · rw [Waits, getElem?_callers_step hm hf hk habout,
      show x.callers[k]? = some (.waiting w) from hw]
    cases i <;> rfl

/-- A caller waits after a step only if it waited before, and nothing ended its wait. -/
theorem waits_of_step {x : Exchange} (hm : x.Matched) {i : Input} (hf : x.Fresh i) {k : Nat}
    (hk : k < x.callers.length) {v : Waiter} (hv : (x.step i).1.Waits k v) :
    (∃ w, x.Waits k w) ∧ ¬x.Ends i k := by
  have hwaits : ∀ {y : Exchange} {f : Caller → Caller}, (∀ c, (f c).waits = c.waits) →
      y.callers[k]? = x.callers[k]?.map f → y.Waits k v → ∃ w, x.Waits k w := by
    intro y f hf' hy hv
    rw [Waits, hy, List.getElem?_eq_getElem hk] at hv
    have hc := (hf' x.callers[k]).symm.trans (congrArg Caller.waits (Option.some.inj hv))
    cases hx : x.callers[k] with
    | waiting w => exact ⟨w, List.getElem?_eq_some_iff.mpr ⟨hk, hx⟩⟩
    | _ => rw [hx] at hc; cases hc
  have hset : ∀ {y : Exchange} {c : Caller}, c.waits = false → y.callers = x.callers.set k c →
      ¬y.Waits k v := fun hc hy hv => ((waits_of_set hc hy).mp hv).1 rfl
  by_cases habout : i.caller? = some k
  · cases i with
    | resume j =>
      obtain rfl : j = k := Option.some.inj habout
      rcases x.resume_cases j with ⟨w, result, hw, -, hx⟩ | ⟨hnone, hx⟩
      · refine absurd hv (hset (w.purpose.waits_after result) ?_)
        rw [step, hx, callers_finish hm hw result]
      · rw [step, hx] at hv
        refine ⟨⟨v, hv⟩, ?_⟩
        rintro (h | ⟨o, ho⟩)
        · cases h
        · rw [step, hx] at ho
          cases ho
    | abort j =>
      obtain rfl : j = k := Option.some.inj habout
      exact absurd hv (hset rfl (callers_abort hm j))
    | read j =>
      obtain rfl : j = k := Option.some.inj habout
      refine ⟨hwaits (Caller.waits_readOn x.events) ?_ hv, ?_⟩
      · rw [step, read_snd]
        exact List.getElem?_modify_eq _ _ _
      · rintro (h | ⟨o, ho⟩)
        · cases h
        · cases ho
    | _ => cases habout
  · refine ⟨hwaits (Caller.waits_hearInput i) (getElem?_callers_step hm hf hk habout) hv, ?_⟩
    rintro (rfl | ⟨o, ho⟩)
    · exact habout rfl
    · obtain ⟨rfl, -⟩ := (done_mem_step hk).mp ho
      exact habout rfl

/-! ### The table -/

theorem matched_finish {x : Exchange} (hm : x.Matched) {k : Nat} {w : Waiter}
    (hw : x.Waits k w) (result : Except ClientError Response) :
    (x.finish k w result).1.Matched := by
  have hleave := matched_leave hm hw
  have hover : ∀ v, ¬(x.leave k w.id).Waits k v := fun v hv =>
    ((waits_of_set rfl (callers_leave hm hw)).mp hv).1 rfl
  unfold finish
  cases w.purpose with
  | response => exact hleave
  | subscription s =>
    cases hr : result.bind Client.resultOf with
    | ok v =>
      simp only
      exact matched_setCaller hleave rfl hover
    | error e =>
      simp only
      exact matched_release _ _ hleave

theorem not_waits_of_subscribed {x : Exchange} {k : Nat} {s : Subscription}
    (hs : x.callers[k]? = some (.subscribed s)) (w : Waiter) : ¬x.Waits k w := by
  rw [Waits, hs]
  rintro ⟨⟩

theorem matched_abort {x : Exchange} (hm : x.Matched) (k : Nat) : (x.abort k).1.Matched := by
  unfold abort
  split
  · next w hw =>
    have hleave := matched_leave hm hw
    cases w.purpose with
    | response => exact hleave
    | subscription s => exact matched_release _ _ hleave
  · next s hs =>
    have hset : (x.setCaller k .over).Matched :=
      matched_setCaller hm rfl (not_waits_of_subscribed hs)
    dsimp only
    split
    · exact matched_release _ _ hset
    · exact hset
  · exact hm

/-- **The table of pending ids stays exact** in every step in which nobody comes with an id for
which somebody waits. -/
theorem matched_step {x : Exchange} (hm : x.Matched) {i : Input} (hf : x.Fresh i) :
    (x.step i).1.Matched := by
  have hcongr : ∀ y : Exchange, y.pending = x.pending → y.callers = x.callers → y.Matched :=
    fun y hp hc => hm.congr hp fun k w => by rw [Waits, Waits, hc]
  cases i with
  | call c => exact matched_await hm (hf _ rfl) .response
  | subscribe query topic family =>
    by_cases hq : (x.holders.add query).count query = 1
    · have hid : (x.asking query).Unclaimed
          ((Request.subscribe query).toCall (ownId x.nextId)).id := hf _ (if_pos hq)
      rw [step, subscribe_asking hq]
      exact matched_await (matched_asking hm query) hid _
    · rw [step, subscribe_joining hq]
      refine hm.congr rfl fun k w => ?_
      rw [waits_of_append rfl]
      simp
  | frame text =>
    rw [step]
    split
    · exact matched_route hm text
    · exact hm
  | resume k =>
    rcases x.resume_cases k with ⟨w, result, hw, -, hx⟩ | ⟨-, hx⟩
    · rw [step, hx]
      exact matched_finish hm hw result
    · rw [step, hx]
      exact hm
  | abort k => exact matched_abort hm k
  | read k =>
    rw [step, read]
    split
    · next s hs => exact matched_setCaller hm rfl (not_waits_of_subscribed hs)
    · exact hm
  | greet =>
    rw [step, greet]
    split
    · rw [tellAll_fst]
      exact hcongr _ rfl rfl
    · exact hm
  | advance ms => exact hcongr _ rfl rfl
  | drop => exact hcongr _ rfl rfl

end Exchange
end NodeClient
