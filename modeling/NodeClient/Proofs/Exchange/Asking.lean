import NodeClient.Proofs.Exchange.Numbering

/-!
# Asking — what a sequence of requests asks for last, and what it asks for twice

An exchange asks for a query when it gets its first holder, and stops its events when the last one
leaves.  As long as no call fails, the last request about a query asks for it just while it is held.
Only a greeting asks for queries that were asked for before.

* `AskedLast`, `AskedTwice`: a query is asked for, or asked for again, without a request to stop its
  events in between.
* `Unfailing`, `AskedLast.held_run`: while no call fails, who was asked for last is held.
* `not_askedTwice_run`: without a greeting no query is asked for again.
* `askedTwice_around_greeting`: what a greeting asks for again.
-/

namespace NodeClient
namespace Exchange

/-! ### Sequences of requests -/

/-- The last of the texts that is about the query asks for its events. -/
def AskedLast (texts : List String) (q : String) : Prop :=
  ∃ before n after, texts = before ++ subscribeText q n :: after ∧
    ∀ m, unsubscribeText q m ∉ after

/-- One of the texts asks for the events of the query, though the last one before it that is about
the query asks for them already. -/
def AskedTwice (texts : List String) (q : String) : Prop :=
  ∃ before n after, texts = before ++ subscribeText q n :: after ∧ AskedLast before q

section Sequences

variable {first rest : List String} {q : String} {n : Nat}

theorem AskedLast.append (h : AskedLast first q) (hrest : ∀ m, unsubscribeText q m ∉ rest) :
    AskedLast (first ++ rest) q := by
  obtain ⟨before, n, after, rfl, hafter⟩ := h
  refine ⟨before, n, after ++ rest, by simp, fun m hm => ?_⟩
  exact (List.mem_append.mp hm).elim (hafter m) (hrest m)

theorem AskedLast.prepend (h : AskedLast rest q) (first : List String) :
    AskedLast (first ++ rest) q := by
  obtain ⟨before, n, after, rfl, hafter⟩ := h
  exact ⟨first ++ before, n, after, by simp, hafter⟩

theorem AskedLast.mem (h : AskedLast first q) : ∃ n, subscribeText q n ∈ first := by
  obtain ⟨before, n, after, rfl, -⟩ := h
  exact ⟨n, List.mem_append_right _ (.head after)⟩

theorem askedLast_of_mem (h : subscribeText q n ∈ rest) (hrest : ∀ m, unsubscribeText q m ∉ rest) :
    AskedLast (first ++ rest) q := by
  obtain ⟨before, after, rfl⟩ := List.append_of_mem h
  refine ⟨first ++ before, n, after, by simp, fun m hm => hrest m ?_⟩
  exact List.mem_append_right _ (.tail _ hm)

/-- A query that is asked for last was asked for in the second part, or in the first one and not
stopped in the second. -/
theorem askedLast_append (h : AskedLast (first ++ rest) q) :
    AskedLast rest q ∨ (AskedLast first q ∧ ∀ m, unsubscribeText q m ∉ rest) := by
  obtain ⟨before, n, after, heq, hafter⟩ := h
  rcases List.append_eq_append_iff.mp heq with ⟨between, rfl, hrest⟩ | ⟨between, rfl, hrest⟩
  · exact .inl ⟨between, n, after, hrest, hafter⟩
  · cases between with
    | nil => exact .inl ⟨[], n, after, hrest.symm, hafter⟩
    | cons text between =>
      obtain ⟨rfl, rfl⟩ := List.cons.inj hrest
      exact .inr ⟨⟨before, n, between, rfl, fun m hm => hafter m (List.mem_append_left _ hm)⟩,
        fun m hm => hafter m (List.mem_append_right _ hm)⟩

theorem AskedTwice.append (h : AskedTwice first q) (rest : List String) :
    AskedTwice (first ++ rest) q := by
  obtain ⟨before, n, after, rfl, hbefore⟩ := h
  exact ⟨before, n, after ++ rest, by simp, hbefore⟩

/-- A query is asked for twice in one of two parts, or last in the first one and again in the
second. -/
theorem askedTwice_append (h : AskedTwice (first ++ rest) q) :
    AskedTwice first q ∨ AskedTwice rest q ∨
      (AskedLast first q ∧ ∃ n, subscribeText q n ∈ rest) := by
  obtain ⟨before, n, after, heq, hbefore⟩ := h
  rcases List.append_eq_append_iff.mp heq with ⟨between, rfl, hrest⟩ | ⟨between, rfl, hrest⟩
  · have hmem : subscribeText q n ∈ rest := by
      rw [hrest]
      exact List.mem_append_right _ (.head after)
    rcases askedLast_append hbefore with hlater | ⟨hfirst, -⟩
    · exact .inr (.inl ⟨between, n, after, hrest, hlater⟩)
    · exact .inr (.inr ⟨hfirst, n, hmem⟩)
  · cases between with
    | nil =>
      obtain rfl : subscribeText q n :: after = rest := hrest
      rw [List.append_nil]
      exact .inr (.inr ⟨hbefore, n, .head after⟩)
    | cons text between =>
      obtain ⟨rfl, rfl⟩ := List.cons.inj hrest
      exact .inl ⟨before, n, between, rfl, hbefore⟩

/-- A query that is asked for last, and again before its events are stopped, is asked for twice. -/
theorem AskedLast.askedTwice (h : AskedLast first q) {before after : List String}
    (hbefore : ∀ m, unsubscribeText q m ∉ before) :
    AskedTwice (first ++ (before ++ subscribeText q n :: after)) q :=
  ⟨first ++ before, n, after, by simp, h.append hbefore⟩

theorem AskedTwice.two_le (h : AskedTwice first q) : 2 ≤ first.length := by
  obtain ⟨before, n, after, rfl, ⟨earlier, m, between, rfl, -⟩⟩ := h
  simp only [List.length_append, List.length_cons]
  omega

end Sequences

/-! ### One step -/

section Steps

variable {x : Exchange} (hx : x.Tended) {i : Input} {q : String}

include hx

/-- The last holder of a query leaves and tells the node so, if no call fails. -/
theorem told_of_left (hkept : ∀ k e, .done k (.failed e) ∉ (x.step i).2)
    (hheld : x.holders.count q ≠ 0) (hleft : (x.step i).1.holders.count q = 0) :
    ∃ n, unsubscribeText q n ∈ texts (x.step i).2 := by
  have hle := (turn_step hx.isHeld i).le_count hx.counted q
  have hlast : x.LastOut i q := ⟨by omega, hleft, hkept⟩
  obtain ⟨-, k, rfl, -⟩ := (lastOut_iff hx.counted hx.isHeld).mp hlast
  have hcall : ∀ c, Input.abort k ≠ .call c := fun c h => Input.noConfusion h
  obtain ⟨n, hn⟩ := (tells_iff_lastOut hx.counted hx.isHeld hcall).mpr hlast
  exact ⟨n, mem_texts.mpr hn⟩

/-- A query that is asked for is held, and was not held before unless it is asked for again on a new
connection. -/
theorem held_of_asked (hi : i.ordinary) {n : Nat} (hn : subscribeText q n ∈ texts (x.step i).2) :
    (x.step i).1.holders.count q ≠ 0 ∧ (x.holders.count q = 0 ∨ i = .greet) := by
  by_cases hsub : i.subscribing = true
  · obtain ⟨o, ho, htext⟩ := (queue_mem_step hx.counted hx.isHeld hsub).mp (mem_texts.mp hn)
    obtain rfl := (orderText_eq_subscribeText ho).mp htext.symm
    obtain ⟨hzero, -, topic, family, rfl⟩ := order?_subscribe_iff.mp ho
    refine ⟨?_, .inl hzero⟩
    rw [(subscribe_counts hx.counted hx.isHeld q topic family).1]
    exact Nat.succ_ne_zero _
  · cases i with
    | call c => exact absurd (List.mem_singleton.mp hn).symm (clientText_ne hi _ n)
    | greet =>
      refine ⟨?_, .inr rfl⟩
      rw [holders_greet hx]
      rw [step, greet, if_pos hx.isHeld, texts_tellAll] at hn
      obtain ⟨e, he, htext⟩ := List.mem_map.mp hn
      obtain ⟨rfl, -⟩ := subscribeText_inj.mp htext
      have hmem := List.mem_map_of_mem (f := Prod.fst) he
      rw [List.zipIdx_map_fst] at hmem
      exact Nat.ne_of_gt (hx.counted.sound.mem_queries.mp hmem)
    | drop => exact hi.elim
    | _ => exact absurd rfl hsub

/-- While no call fails, a step keeps it so that a query that was asked for last is held. -/
theorem AskedLast.held_step (hi : i.ordinary)
    (hkept : ∀ k e, .done k (.failed e) ∉ (x.step i).2) {past : List String}
    (hpast : AskedLast past q → x.holders.count q ≠ 0)
    (h : AskedLast (past ++ texts (x.step i).2) q) : (x.step i).1.holders.count q ≠ 0 := by
  rcases askedLast_append h with hnow | ⟨hbefore, hnone⟩
  · obtain ⟨n, hn⟩ := hnow.mem
    exact (held_of_asked hx hi hn).1
  · intro hleft
    obtain ⟨n, hn⟩ := told_of_left hx hkept (hpast hbefore) hleft
    exact hnone n hn

theorem length_texts_le (hi : i.ordinary) (hgreet : i ≠ .greet) :
    (texts (x.step i).2).length ≤ 1 := by
  rw [texts_queuedBy hx hi, List.length_map]
  cases i with
  | call c => exact Nat.le_refl 1
  | greet => exact absurd rfl hgreet
  | subscribe | abort =>
    exact Nat.le_trans (Nat.le_of_eq (List.length_map _)) Option.length_toList_le
  | _ => exact Nat.zero_le 1

/-- A step that is no greeting asks for no query again. -/
theorem not_askedTwice_step (hi : i.ordinary) (hgreet : i ≠ .greet) {past : List String}
    (hpast : AskedLast past q → x.holders.count q ≠ 0) (honce : ¬AskedTwice past q) :
    ¬AskedTwice (past ++ texts (x.step i).2) q := by
  intro h
  rcases askedTwice_append h with hbefore | hnow | ⟨hlast, n, hn⟩
  · exact honce hbefore
  · exact absurd (length_texts_le hx hi hgreet) (Nat.not_le.mpr hnow.two_le)
  · exact hpast hlast ((held_of_asked hx hi hn).2.resolve_right hgreet)

/-- A greeting asks for each query once. -/
theorem not_askedTwice_greet : ¬AskedTwice (texts (x.step .greet).2) q := by
  rw [step, greet, if_pos hx.isHeld, texts_tellAll]
  have hqueries : (x.holders.queries.zipIdx x.nextId).Pairwise fun e e' => e.1 ≠ e'.1 := by
    refine List.pairwise_map.mp ?_
    rw [List.zipIdx_map_fst]
    refine List.pairwise_map.mpr (hx.counted.sound.ascending.imp fun hlt heq => ?_)
    exact String.lt_irrefl _ (heq ▸ hlt)
  rintro ⟨before, n, after, heq, hbefore⟩
  obtain ⟨m, hm⟩ := hbefore.mem
  obtain ⟨first, rest, hsplit, rfl, hrest⟩ := List.map_eq_append_iff.mp heq
  obtain ⟨e, later, rfl, he, -⟩ := List.map_eq_cons_iff.mp hrest
  obtain ⟨e', he', htext⟩ := List.mem_map.mp hm
  rw [hsplit] at hqueries
  refine (List.pairwise_append.mp hqueries).2.2 e' he' e (.head later) ?_
  exact (subscribeText_inj.mp htext).1.trans (subscribeText_inj.mp he).1.symm

end Steps

/-! ### Runs -/

/-- No call fails: the node answers in time, and refuses nothing. -/
abbrev Unfailing (x : Exchange) (inputs : List Input) : Prop :=
  x.Always (fun y i => ∀ k e, .done k (.failed e) ∉ (y.step i).2) inputs

theorem texts_run_append (x : Exchange) (first rest : List Input) :
    texts (x.run (first ++ rest)).2 =
      texts (x.run first).2 ++ texts ((x.run first).1.run rest).2 := by
  induction first generalizing x with
  | nil => rfl
  | cons i first ih =>
    rw [List.cons_append, texts_run_cons, ih, texts_run_cons, List.append_assoc]
    rfl

/-- **While no call fails, a query that was asked for last is held.** -/
theorem AskedLast.held_run {x : Exchange} (hx : x.Tended) {inputs : List Input}
    (hi : ∀ i ∈ inputs, i.ordinary) (hkept : x.Unfailing inputs) {past : List String} {q : String}
    (hpast : AskedLast past q → x.holders.count q ≠ 0)
    (h : AskedLast (past ++ texts (x.run inputs).2) q) :
    (x.run inputs).1.holders.count q ≠ 0 := by
  induction inputs generalizing x past with
  | nil =>
    refine hpast ?_
    rw [show texts (x.run []).2 = [] from rfl, List.append_nil] at h
    exact h
  | cons i rest ih =>
    obtain ⟨hfirst, hrest⟩ := List.forall_mem_cons.mp hi
    rw [texts_run_cons, ← List.append_assoc] at h
    exact ih (hx.step (Input.ordinary_ne_drop hfirst)) hrest hkept.2
      (fun hlast => hlast.held_step hx hfirst hkept.1 hpast) h

/-- **Without a greeting no query is asked for again**, while no call fails. -/
theorem not_askedTwice_run {x : Exchange} (hx : x.Tended) {inputs : List Input}
    (hi : ∀ i ∈ inputs, i.ordinary) (hgreet : .greet ∉ inputs) (hkept : x.Unfailing inputs)
    {past : List String} {q : String} (hpast : AskedLast past q → x.holders.count q ≠ 0)
    (honce : ¬AskedTwice past q) : ¬AskedTwice (past ++ texts (x.run inputs).2) q := by
  induction inputs generalizing x past with
  | nil =>
    rw [show texts (x.run []).2 = [] from rfl, List.append_nil]
    exact honce
  | cons i rest ih =>
    obtain ⟨hfirst, hrest⟩ := List.forall_mem_cons.mp hi
    have hi' : i ≠ .greet := fun heq => hgreet (heq ▸ .head rest)
    have hlater : .greet ∉ rest := fun h => hgreet (.tail i h)
    rw [texts_run_cons, ← List.append_assoc]
    exact ih (hx.step (Input.ordinary_ne_drop hfirst)) hrest hlater hkept.2
      (fun hlast => hlast.held_step hx hfirst hkept.1 hpast)
      (not_askedTwice_step hx hfirst hi' hpast honce)

theorem not_askedLast_nil (q : String) : ¬AskedLast [] q := by
  rintro ⟨before, n, after, hnil, -⟩
  cases (List.append_eq_nil_iff.mp hnil.symm).2

/-- In a course of an exchange in which no call fails, a query that was asked for last is held. -/
theorem AskedLast.held {timeout : Nat} {inputs : List Input} (hi : ∀ i ∈ inputs, i.ordinary)
    (hkept : Unfailing { timeout } inputs) {q : String}
    (h : AskedLast (texts (run { timeout } inputs).2) q) :
    (run { timeout } inputs).1.holders.count q ≠ 0 := by
  rw [← List.nil_append (texts _)] at h
  exact h.held_run (tended_start timeout) hi hkept fun hlast => absurd hlast (not_askedLast_nil q)

/-- In a course of an exchange without a greeting in which no call fails, each query is asked for
once. -/
theorem asked_once {timeout : Nat} {inputs : List Input} (hi : ∀ i ∈ inputs, i.ordinary)
    (hgreet : .greet ∉ inputs) (hkept : Unfailing { timeout } inputs) (q : String) :
    ¬AskedTwice (texts (run { timeout } inputs).2) q := by
  rw [← List.nil_append (texts _)]
  refine not_askedTwice_run (tended_start timeout) hi hgreet hkept
    (fun hlast => absurd hlast (not_askedLast_nil q)) fun h => ?_
  cases h.two_le

/-! ### Greetings -/

section Greetings

variable {x : Exchange} (hx : x.Tended) {q : String}

include hx

/-- What is queued from a greeting on asks for a query that is held before it stops its events. -/
theorem asked_before_stopped (hheld : x.holders.count q ≠ 0) {fresh more : List String}
    (hfresh : fresh <+: texts (x.step .greet).2 ++ more) {n : Nat}
    (hn : subscribeText q n ∈ fresh) :
    ∃ before m after, fresh = before ++ subscribeText q m :: after ∧
      ∀ k, unsubscribeText q k ∉ before := by
  have hgreeting : ∀ k, unsubscribeText q k ∉ texts (x.step .greet).2 := by
    have hafter : (x.step .greet).1.holders.count q ≠ 0 := by
      rw [holders_greet hx]
      exact hheld
    exact kept_not_told hx trivial hafter
  obtain ⟨m, hm⟩ := greet_asks hx hheld
  obtain ⟨before, after, hsplit⟩ := List.append_of_mem hm
  have hasks : before ++ [subscribeText q m] <+: texts (x.step .greet).2 ++ more :=
    ⟨after ++ more, by rw [hsplit]; simp⟩
  rcases List.prefix_or_prefix_of_prefix hfresh hasks with hshort | ⟨later, hlong⟩
  · -- the greeting was cut off before
    have hnone : ∀ k, unsubscribeText q k ∉ fresh := fun k hk => by
      refine hgreeting k ?_
      rw [hsplit]
      exact (List.mem_append.mp (hshort.subset hk)).elim (List.mem_append_left _) fun hk =>
        List.mem_append_right _ (List.mem_singleton.mp hk ▸ .head after)
    obtain ⟨before, after, rfl⟩ := List.append_of_mem hn
    exact ⟨before, n, after, rfl, fun k hk => hnone k (List.mem_append_left _ hk)⟩
  · refine ⟨before, m, later, by rw [← hlong]; simp, fun k hk => hgreeting k ?_⟩
    rw [hsplit]
    exact List.mem_append_left _ hk

/-- **What a greeting asks for again**: while no call fails, of the requests that were left before a
greeting and those that are queued from then on, a query is asked for twice just if it is in those
that were left, or if these ask for it last and the others ask for it at all. -/
theorem askedTwice_around_greeting {inputs : List Input} (hi : ∀ i ∈ inputs, i.ordinary)
    (hgreet : .greet ∉ inputs) (hkept : x.Unfailing (.greet :: inputs)) {past : List String}
    (hpast : AskedLast past q → x.holders.count q ≠ 0) {left fresh : List String}
    (hfresh : fresh <+: texts (x.run (.greet :: inputs)).2) (hleft : fresh ≠ [] → left <:+ past) :
    AskedTwice (left ++ fresh) q ↔
      AskedTwice left q ∨ (AskedLast left q ∧ ∃ n, subscribeText q n ∈ fresh) := by
  rw [texts_run_cons] at hfresh
  constructor
  · intro h
    refine (askedTwice_append h).imp_right fun h => h.resolve_left fun hagain => ?_
    have hnow : ¬AskedTwice (texts (x.step .greet).2) q := not_askedTwice_greet hx
    have hheld : AskedLast (texts (x.step .greet).2) q → (x.step .greet).1.holders.count q ≠ 0 :=
      fun hlast => by
        obtain ⟨n, hn⟩ := hlast.mem
        have hordinary : Input.greet.ordinary := trivial
        exact (held_of_asked hx hordinary hn).1
    have hne : Input.greet ≠ .drop := nofun
    obtain ⟨more, hmore⟩ := hfresh
    refine not_askedTwice_run (hx.step hne) hi hgreet hkept.2 hheld hnow ?_
    rw [← hmore]
    exact hagain.append more
  · rintro (h | ⟨hlast, n, hn⟩)
    · exact h.append fresh
    · obtain ⟨earlier, rfl⟩ := hleft (List.ne_nil_of_mem hn)
      obtain ⟨before, m, after, rfl, hbefore⟩ :=
        asked_before_stopped hx (hpast (hlast.prepend earlier)) hfresh hn
      exact hlast.askedTwice hbefore

end Greetings

end Exchange
end NodeClient
