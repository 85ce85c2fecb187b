import PartlyProxy.Stub
import PartlyProxy.Lib.Execution
import Mathlib.Data.List.Nodup

namespace PartlyProxy

/-- A call on a stub store. Its whole effect happens under the write lock, so any
interleaving of callers is a sequence of calls, in the order they got the lock. -/
inductive StubOp where
  | add (entry : StubEntry)
  | clear
  | take (req : ProxyRequest)

namespace StubStore

def apply (stubs : List StubEntry) : StubOp → List StubEntry
  | .add entry => add stubs entry
  | .clear => clear stubs
  | .take req =>
    match takeMatch stubs req with
    | some found => found.2
    | none => stubs

theorem takeMatch_eq_none_iff {stubs : List StubEntry} {req : ProxyRequest} :
    takeMatch stubs req = none ↔ ∀ entry ∈ stubs, entry.matcher.matches req = false := by
  induction stubs with
  | nil => simp
  | cons entry rest ih =>
    by_cases accepts : entry.matcher.matches req = true
    · simp [takeMatch, accepts]
    · simp [takeMatch, accepts, ih]

theorem takeMatch_append {front back : List StubEntry} {entry : StubEntry} {req : ProxyRequest}
    (passed : ∀ other ∈ front, other.matcher.matches req = false) (accepts : entry.matcher.matches req = true) :
    takeMatch (front ++ entry :: back) req = some (entry.response, front ++ (fire entry).toList ++ back) := by
  induction front with
  | nil => simp [takeMatch, accepts]
  | cons other rest ih =>
    have skip := passed other (List.mem_cons_self ..)
    have found := ih fun next member => passed next (List.mem_cons_of_mem _ member)
    simp [takeMatch, skip, found]

/-- The entry that fires is the first one that accepts, and no other entry changes. -/
theorem takeMatch_eq_some_iff {stubs : List StubEntry} {req : ProxyRequest} {found : StubbedResponse × List StubEntry} :
    takeMatch stubs req = some found ↔
      ∃ front entry back, stubs = front ++ entry :: back ∧
        (∀ other ∈ front, other.matcher.matches req = false) ∧ entry.matcher.matches req = true ∧
        found = (entry.response, front ++ (fire entry).toList ++ back) := by
  constructor
  · intro taken
    have someAccepts : ∃ entry ∈ stubs, entry.matcher.matches req = true := by
      by_contra none_
      push Not at none_
      rw [takeMatch_eq_none_iff.mpr (by simpa using none_)] at taken
      cases taken
    obtain ⟨entry, isFirst⟩ := Option.isSome_iff_exists.mp (List.find?_isSome.mpr someAccepts)
    obtain ⟨accepts, front, back, rfl, passed⟩ := List.find?_eq_some_iff_append.mp isFirst
    have skip : ∀ other ∈ front, other.matcher.matches req = false := by simpa using passed
    rw [takeMatch_append skip accepts] at taken
    exact ⟨front, entry, back, rfl, skip, accepts, (Option.some.inj taken).symm⟩
  · rintro ⟨front, entry, back, rfl, passed, accepts, rfl⟩
    exact takeMatch_append passed accepts

theorem fire_matcher {entry rest : StubEntry} (fired : fire entry = some rest) : rest.matcher = entry.matcher := by
  simp only [fire] at fired
  split at fired
  · cases fired
    rfl
  · split at fired
    · cases fired
    · cases fired
      rfl

/-- What is left after a fire accepts nothing that the store did not accept. -/
theorem takeMatch_none_after {stubs : List StubEntry} {req other : ProxyRequest}
    {found : StubbedResponse × List StubEntry} (taken : takeMatch stubs req = some found)
    (free : takeMatch stubs other = none) : takeMatch found.2 other = none := by
  obtain ⟨front, entry, back, rfl, _, _, rfl⟩ := takeMatch_eq_some_iff.mp taken
  rw [takeMatch_eq_none_iff] at free ⊢
  intro kept member
  rcases List.mem_append.mp member with before | after
  · rcases List.mem_append.mp before with inFront | fired
    · exact free kept (List.mem_append_left _ inFront)
    · rw [fire_matcher (Option.mem_toList.mp fired)]
      exact free entry (by simp)
  · exact free kept (List.mem_append_right _ (List.mem_cons_of_mem _ after))

theorem fire_limited {entry rest : StubEntry} {n : Nat} (limited : entry.times = some n)
    (fired : fire entry = some rest) : rest.times = some (n - 1) ∧ 0 < n - 1 := by
  simp only [fire, limited] at fired
  split at fired
  · cases fired
  · cases fired
    exact ⟨rfl, by omega⟩

end StubStore

/-- Every stub has its own number, and the log names only stubs that were added. -/
structure Numbering (stubs : List (Nat × StubEntry)) (added : Nat) (log : List Nat) : Prop where
  distinct : (stubs.map Prod.fst).Nodup
  below : ∀ stub ∈ stubs, stub.1 < added
  past : ∀ number ∈ log, number < added

namespace Numbering
variable {stubs after : List (Nat × StubEntry)} {added : Nat} {log : List Nat}

theorem start : Numbering [] 0 [] := ⟨List.nodup_nil, by simp, by simp⟩

theorem add (numbering : Numbering stubs added log) (entry : StubEntry) :
    Numbering (stubs ++ [(added, entry)]) (added + 1) log := by
  refine ⟨?_, fun stub member => ?_, fun number logged => Nat.lt_succ_of_lt (numbering.past number logged)⟩
  · rw [List.map_append]
    refine List.Nodup.append numbering.distinct (List.nodup_singleton _) fun number old new => ?_
    obtain ⟨stub, member, rfl⟩ := List.mem_map.mp old
    have bound := numbering.below stub member
    have same := List.mem_singleton.mp new
    omega
  · rcases List.mem_append.mp member with old | new
    · exact Nat.lt_succ_of_lt (numbering.below stub old)
    · rw [List.mem_singleton.mp new]
      exact Nat.lt_succ_self added

theorem clear (numbering : Numbering stubs added log) : Numbering [] added log :=
  ⟨List.nodup_nil, by simp, numbering.past⟩

theorem hit (numbering : Numbering stubs added log) {number : Nat}
    (kept : (after.map Prod.fst).Sublist (stubs.map Prod.fst)) (known : number < added) :
    Numbering after added (log ++ [number]) := by
  refine ⟨numbering.distinct.sublist kept, fun stub member => ?_, fun other logged => ?_⟩
  · obtain ⟨before, wasThere, same⟩ := List.mem_map.mp (kept.subset (List.mem_map_of_mem member))
    rw [← same]
    exact numbering.below before wasThere
  · rcases List.mem_append.mp logged with old | new
    · exact numbering.past other old
    · rw [List.mem_singleton.mp new]
      exact known

/-- No stub beside it has the number of a stub. -/
theorem others_apart {front back : List (Nat × StubEntry)} {stub : Nat × StubEntry}
    (distinct : ((front ++ stub :: back).map Prod.fst).Nodup) : ∀ other ∈ front ++ back, other.1 ≠ stub.1 := by
  intro other member same
  rw [List.map_append, List.map_cons, List.nodup_middle, List.nodup_cons, ← List.map_append] at distinct
  exact distinct.1 (List.mem_map.mpr ⟨other, member, same⟩)

end Numbering

/-- A store whose stubs are numbered in the order they were added, together with
the numbers of the stubs that fired. -/
structure StubTrace where
  store : List (Nat × StubEntry)
  added : Nat
  fired : List Nat

namespace StubTrace

def start : StubTrace := ⟨[], 0, []⟩

/-- `take_match` on numbered stubs. -/
def takeNumbered (req : ProxyRequest) : List (Nat × StubEntry) → Option (Nat × List (Nat × StubEntry))
  | [] => none
  | stub :: rest =>
    if stub.2.matcher.matches req then
      some (stub.1, ((StubStore.fire stub.2).map fun entry => (stub.1, entry)).toList ++ rest)
    else (takeNumbered req rest).map fun found => (found.1, stub :: found.2)

def step (t : StubTrace) : StubOp → StubTrace
  | .add entry => { t with store := t.store ++ [(t.added, entry)], added := t.added + 1 }
  | .clear => { t with store := [] }
  | .take req =>
    match takeNumbered req t.store with
    | some (number, store) => { t with store := store, fired := t.fired ++ [number] }
    | none => t

def run (ops : List StubOp) : StubTrace := Execution.exec step start ops

theorem takeMatch_map_snd (req : ProxyRequest) (store : List (Nat × StubEntry)) :
    (StubStore.takeMatch (store.map Prod.snd) req).map Prod.snd =
      (takeNumbered req store).map fun found => found.2.map Prod.snd := by
  induction store with
  | nil => rfl
  | cons stub rest ih =>
    by_cases accepts : stub.2.matcher.matches req = true
    · cases kept : StubStore.fire stub.2 <;> simp [takeNumbered, StubStore.takeMatch, accepts, kept]
    · have both : (StubStore.takeMatch (rest.map Prod.snd) req).map (fun found => stub.2 :: found.2) =
          ((takeNumbered req rest).map fun found => found.2.map Prod.snd).map (stub.2 :: ·) := by
        rw [← ih, Option.map_map]
        rfl
      simpa [takeNumbered, StubStore.takeMatch, accepts, Option.map_map, Function.comp_def] using both

/-- Forgetting the numbers gives the store itself. -/
theorem run_store (ops : List StubOp) : (run ops).store.map Prod.snd = Execution.exec StubStore.apply [] ops := by
  have simulated : ∀ (t : StubTrace) (op : StubOp),
      (t.step op).store.map Prod.snd = StubStore.apply (t.store.map Prod.snd) op := by
    intro t op
    cases op with
    | add entry => simp [step, StubStore.apply, StubStore.add]
    | clear => rfl
    | take req =>
      have erased := takeMatch_map_snd req t.store
      cases taken : takeNumbered req t.store with
      | none =>
        rw [taken, Option.map_none, Option.map_eq_none_iff] at erased
        simp [step, StubStore.apply, taken, erased]
      | some found =>
        rw [taken, Option.map_some, Option.map_eq_some_iff] at erased
        obtain ⟨result, code, same⟩ := erased
        simp [step, StubStore.apply, taken, code, same]
  refine Execution.exec_simulation step (R := fun t store => t.store.map Prod.snd = store) (fun op _ t store same => ?_) rfl
  rw [simulated, same]

theorem takeNumbered_eq_some {req : ProxyRequest} {store after : List (Nat × StubEntry)} {number : Nat}
    (taken : takeNumbered req store = some (number, after)) :
    ∃ front entry back, store = front ++ (number, entry) :: back ∧ entry.matcher.matches req = true ∧
      after = front ++ ((StubStore.fire entry).map fun rest => (number, rest)).toList ++ back := by
  induction store generalizing after with
  | nil => cases taken
  | cons stub rest ih =>
    by_cases accepts : stub.2.matcher.matches req = true
    · simp only [takeNumbered, accepts, if_true, Option.some.injEq, Prod.mk.injEq] at taken
      obtain ⟨rfl, rfl⟩ := taken
      exact ⟨[], stub.2, rest, rfl, accepts, rfl⟩
    · simp only [takeNumbered, accepts] at taken
      obtain ⟨⟨chosen, left⟩, inRest, same⟩ := Option.map_eq_some_iff.mp taken
      obtain ⟨isNumber, isAfter⟩ := Prod.mk.inj same
      simp only at isNumber isAfter
      subst isNumber isAfter
      obtain ⟨front, entry, back, held, matched, isLeft⟩ := ih inRest
      exact ⟨stub :: front, entry, back, by rw [held]; rfl, matched, by rw [isLeft]; rfl⟩

theorem step_take_cases (t : StubTrace) (req : ProxyRequest) :
    t.step (.take req) = t ∨
    ∃ front number entry back, t.store = front ++ (number, entry) :: back ∧ entry.matcher.matches req = true ∧
      t.step (.take req) =
        ⟨front ++ ((StubStore.fire entry).map fun rest => (number, rest)).toList ++ back, t.added,
          t.fired ++ [number]⟩ := by
  cases taken : takeNumbered req t.store with
  | none => exact Or.inl (by simp [step, taken])
  | some found =>
    obtain ⟨front, entry, back, held, accepts, after⟩ := takeNumbered_eq_some taken
    exact Or.inr ⟨front, found.1, entry, back, held, accepts, by simp [step, taken, after]⟩

theorem fire_numbers (number : Nat) (entry : StubEntry) :
    ∀ stub ∈ ((StubStore.fire entry).map fun rest => (number, rest)).toList, stub.1 = number := by
  intro stub member
  obtain ⟨rest, _, rfl⟩ := Option.map_eq_some_iff.mp (Option.mem_toList.mp member)
  rfl

theorem numbering_step {t : StubTrace} (numbering : Numbering t.store t.added t.fired) (op : StubOp) :
    Numbering (t.step op).store (t.step op).added (t.step op).fired := by
  cases op with
  | add entry => exact numbering.add entry
  | clear => exact numbering.clear
  | take req =>
    rcases step_take_cases t req with same | ⟨front, number, entry, back, held, _, next⟩
    · rw [same]
      exact numbering
    · rw [next]
      refine numbering.hit ?_ (numbering.below (number, entry) (by simp [held]))
      rw [held]
      cases StubStore.fire entry <;> simp

theorem numbering_run (ops : List StubOp) : Numbering (run ops).store (run ops).added (run ops).fired :=
  Execution.exec_invariant step (I := fun t => Numbering t.store t.added t.fired)
    (fun _ op numbering => numbering_step numbering op) .start ops

/-- What a hit does to the stubs: the one that fired is put back or gone, any
other is where it was. -/
theorem mem_after_hit {front back : List (Nat × StubEntry)} {number : Nat} {entry : StubEntry}
    (distinct : ((front ++ (number, entry) :: back).map Prod.fst).Nodup) {stub : Nat × StubEntry}
    (member : stub ∈ front ++ ((StubStore.fire entry).map fun rest => (number, rest)).toList ++ back) :
    stub.1 = number ∧ StubStore.fire entry = some stub.2 ∨
      stub.1 ≠ number ∧ stub ∈ front ++ (number, entry) :: back := by
  have other : stub ∈ front ++ back → stub.1 ≠ number := Numbering.others_apart distinct stub
  rcases List.mem_append.mp member with inFront | inBack
  · rcases List.mem_append.mp inFront with early | fired
    · exact Or.inr ⟨other (by simp [early]), by simp [early]⟩
    · obtain ⟨rest, isRest, rfl⟩ := Option.map_eq_some_iff.mp (Option.mem_toList.mp fired)
      exact Or.inl ⟨rfl, isRest⟩
  · exact Or.inr ⟨other (by simp [inBack]), by simp [inBack]⟩

/-- What is left of the budget `n` of the stub with this number. -/
structure WithinBudget (number n : Nat) (t : StubTrace) : Prop where
  numbering : Numbering t.store t.added t.fired
  known : number < t.added
  spent : t.fired.count number ≤ n
  left : ∀ entry, (number, entry) ∈ t.store →
    ∃ rest, entry.times = some rest ∧ 0 < rest ∧ t.fired.count number + rest ≤ n

theorem WithinBudget.step {number n : Nat} {t : StubTrace} (within : WithinBudget number n t) (op : StubOp) :
    WithinBudget number n (t.step op) := by
  have numbering := numbering_step within.numbering op
  obtain ⟨⟨distinct, below, _⟩, known, spent, left⟩ := within
  cases op with
  | add entry =>
    refine ⟨numbering, Nat.lt_succ_of_lt known, spent, fun other member => ?_⟩
    rcases List.mem_append.mp member with old | new
    · exact left other old
    · have same := (Prod.mk.inj (List.mem_singleton.mp new)).1
      omega
  | clear => exact ⟨numbering, known, spent, by simp [StubTrace.step]⟩
  | take req =>
    rcases step_take_cases t req with same | ⟨front, chosen, entry, back, held, _, next⟩
    · rw [same] at numbering ⊢
      exact ⟨numbering, known, spent, left⟩
    · rw [next] at numbering ⊢
      rw [held] at distinct
      by_cases mine : chosen = number
      · subst mine
        obtain ⟨rest, limited, positive, enough⟩ := left entry (by simp [held])
        refine ⟨numbering, known, ?_, fun after member => ?_⟩
        · simp only [List.count_append, List.count_cons_self, List.count_nil]
          omega
        · rcases mem_after_hit distinct member with ⟨_, fired⟩ | ⟨other, _⟩
          · obtain ⟨times, more⟩ := StubStore.fire_limited limited fired
            refine ⟨rest - 1, times, more, ?_⟩
            simp only [List.count_append, List.count_cons_self, List.count_nil]
            omega
          · exact (other rfl).elim
      · have same : (t.fired ++ [chosen]).count number = t.fired.count number := by
          rw [List.count_append, List.count_cons_of_ne mine]
          rfl
        refine ⟨numbering, known, by simpa only [same] using spent, fun after member => ?_⟩
        rcases mem_after_hit distinct member with ⟨clash, _⟩ | ⟨_, wasThere⟩
        · exact (mine clash.symm).elim
        · simp only [same]
          exact left after (held ▸ wasThere)

/-- A stub that no request matches. -/
structure Unmatched (number : Nat) (t : StubTrace) : Prop where
  known : number < t.added
  silent : number ∉ t.fired
  deaf : ∀ entry, (number, entry) ∈ t.store → ∀ req, entry.matcher.matches req = false

theorem Unmatched.step {number : Nat} {t : StubTrace} (unmatched : Unmatched number t) (op : StubOp) :
    Unmatched number (t.step op) := by
  obtain ⟨known, silent, deaf⟩ := unmatched
  cases op with
  | add entry =>
    refine ⟨Nat.lt_succ_of_lt known, silent, fun other member => ?_⟩
    rcases List.mem_append.mp member with old | new
    · exact deaf other old
    · have same := (Prod.mk.inj (List.mem_singleton.mp new)).1
      omega
  | clear => exact ⟨known, silent, by simp [StubTrace.step]⟩
  | take req =>
    rcases step_take_cases t req with same | ⟨front, chosen, entry, back, held, accepts, next⟩
    · rw [same]
      exact ⟨known, silent, deaf⟩
    · have mine : chosen ≠ number := by
        rintro rfl
        rw [deaf entry (by simp [held]) req] at accepts
        cases accepts
      rw [next]
      refine ⟨known, by simp [silent, mine.symm], fun after member => deaf after ?_⟩
      rcases List.mem_append.mp member with inFront | inBack
      · rcases List.mem_append.mp inFront with early | fired
        · simp [held, early]
        · exact absurd (fire_numbers chosen entry _ fired).symm mine
      · simp [held, inBack]

theorem run_append (front back : List StubOp) : run (front ++ back) = Execution.exec step (run front) back :=
  Execution.exec_append step start front back

theorem count_added_run (before : List StubOp) : (run before).fired.count (run before).added = 0 :=
  List.count_eq_zero.mpr fun fired => Nat.lt_irrefl _ ((numbering_run before).past _ fired)

theorem mem_add_run {before : List StubOp} {entry found : StubEntry}
    (member : ((run before).added, found) ∈ ((run before).step (.add entry)).store) : found = entry := by
  rcases List.mem_append.mp member with old | new
  · exact (Nat.lt_irrefl _ ((numbering_run before).below _ old)).elim
  · exact (Prod.mk.inj (List.mem_singleton.mp new)).2

/-- A stub added with `times = Some(n)` never fires more than `n` times exactly
when `n` is not zero, or nothing matches the stub at all. -/
theorem fire_budget_iff {entry : StubEntry} {n : Nat} (limited : entry.times = some n) :
    (∀ before after : List StubOp, (run (before ++ .add entry :: after)).fired.count (run before).added ≤ n) ↔
      n ≠ 0 ∨ ∀ req, entry.matcher.matches req = false := by
  constructor
  · intro within
    rcases Nat.eq_zero_or_pos n with rfl | positive
    · refine Or.inr fun req => ?_
      by_contra accepts
      have once := within [] [.take req]
      rw [Bool.not_eq_false] at accepts
      simp [run, start, step, takeNumbered, accepts] at once
    · exact Or.inl (by omega)
  · intro usable before after
    rw [run_append, Execution.exec_cons]
    have unfired : ((run before).step (.add entry)).fired.count (run before).added = 0 := count_added_run before
    rcases usable with positive | deaf
    · refine (Execution.exec_invariant step (I := WithinBudget (run before).added n)
        (fun _ op within => within.step op) ?_ after).spent
      refine ⟨numbering_step (numbering_run before) _, Nat.lt_succ_self _, by omega, fun found member => ?_⟩
      rw [mem_add_run member]
      exact ⟨n, limited, by omega, by omega⟩
    · have unmatched := Execution.exec_invariant step (I := Unmatched (run before).added)
        (fun _ op silent => silent.step op)
        ⟨Nat.lt_succ_self _, List.count_eq_zero.mp unfired, fun found member => by rw [mem_add_run member]; exact deaf⟩
        after
      rw [List.count_eq_zero.mpr unmatched.silent]
      exact Nat.zero_le n

/-- A stub with a budget of two, whatever happens before and after. -/
theorem fire_budget_iff_two :
    let entry : StubEntry := ⟨.any, ⟨.ok, [], [], none⟩, some 2⟩
    ∀ before after : List StubOp, (run (before ++ .add entry :: after)).fired.count (run before).added ≤ 2 :=
  (fire_budget_iff rfl).mpr (Or.inl (by decide))

/-- A stub with `times = Some(0)` answers the next request it matches. -/
theorem zero_budget_fires :
    let entry : StubEntry := ⟨.any, ⟨.ok, [], [7], none⟩, some 0⟩
    let req : ProxyRequest := ⟨"GET", .ofData "/a" (by decide), .empty, [], .http11⟩
    (StubStore.takeMatch (Execution.exec StubStore.apply [] [.add entry]) req).map (fun found => found.1.body) =
        some [7] ∧
      (run ([] ++ .add entry :: [.take req])).fired.count (run []).added = 1 ∧
      ¬ ∀ before after : List StubOp, (run (before ++ .add entry :: after)).fired.count (run before).added ≤ 0 := by
  intro entry req
  have fired : (run ([] ++ .add entry :: [.take req])).fired.count (run []).added = 1 := by decide +kernel
  refine ⟨by decide +kernel, fired, fun within => ?_⟩
  have none_ := within [] [.take req]
  omega

end StubTrace

/-- What is remembered of the calls on a store: the stubs added since the last
`clear`, numbered in the order of all `add` calls, and the numbers of the stubs
that answered. -/
structure StubHistory where
  since : List (Nat × StubEntry)
  added : Nat
  hits : List Nat

namespace StubHistory

def start : StubHistory := ⟨[], 0, []⟩

def exhausted (h : StubHistory) (stub : Nat × StubEntry) : Bool :=
  match stub.2.times with
  | none => false
  | some n => decide (n ≤ h.hits.count stub.1)

def unspent (h : StubHistory) : List (Nat × StubEntry) := h.since.filter fun stub => !h.exhausted stub

/-- The stub with what is left of its count. -/
def current (h : StubHistory) (stub : Nat × StubEntry) : StubEntry :=
  { stub.2 with times := stub.2.times.map fun n => n - h.hits.count stub.1 }

def choice (h : StubHistory) (req : ProxyRequest) : Option (Nat × StubEntry) :=
  h.unspent.find? fun stub => stub.2.matcher.matches req

def hit (h : StubHistory) (number : Nat) : StubHistory := { h with hits := h.hits ++ [number] }

def step (h : StubHistory) : StubOp → StubHistory
  | .add entry => { h with since := h.since ++ [(h.added, entry)], added := h.added + 1 }
  | .clear => { h with since := [] }
  | .take req =>
    match h.choice req with
    | some stub => h.hit stub.1
    | none => h

def run (ops : List StubOp) : StubHistory := Execution.exec step start ops

theorem choice_eq_some {h : StubHistory} {req : ProxyRequest} {stub : Nat × StubEntry} (chosen : h.choice req = some stub) :
    ∃ front back, h.unspent = front ++ stub :: back ∧ stub.2.matcher.matches req = true ∧
      ∀ other ∈ front, other.2.matcher.matches req = false := by
  obtain ⟨accepts, front, back, split, passed⟩ := List.find?_eq_some_iff_append.mp chosen
  exact ⟨front, back, split, accepts, by simpa using passed⟩

theorem mem_unspent {h : StubHistory} {stub : Nat × StubEntry} :
    stub ∈ h.unspent ↔ stub ∈ h.since ∧ h.exhausted stub = false := by
  simp [unspent]

theorem numbering_step {h : StubHistory} (numbering : Numbering h.since h.added h.hits) (op : StubOp) :
    Numbering (h.step op).since (h.step op).added (h.step op).hits := by
  cases op with
  | add entry => exact numbering.add entry
  | clear => exact numbering.clear
  | take req =>
    cases chosen : h.choice req with
    | none => simpa only [step, chosen] using numbering
    | some stub =>
      have member := (mem_unspent.mp (List.mem_of_find?_eq_some chosen)).1
      simp only [step, chosen]
      exact numbering.hit (List.Sublist.refl _) (numbering.below stub member)

section Hit
variable (h : StubHistory) (number : Nat)

theorem count_other {stub : Nat × StubEntry} (other : stub.1 ≠ number) :
    (h.hit number).hits.count stub.1 = h.hits.count stub.1 := by
  rw [hit, List.count_append, List.count_cons_of_ne (Ne.symm other)]
  rfl

theorem count_hit : (h.hit number).hits.count number = h.hits.count number + 1 := by
  simp [hit]

theorem current_hit_other {stub : Nat × StubEntry} (other : stub.1 ≠ number) :
    (h.hit number).current stub = h.current stub := by
  simp only [current, count_other h number other]

theorem exhausted_hit_other {stub : Nat × StubEntry} (other : stub.1 ≠ number) :
    (h.hit number).exhausted stub = h.exhausted stub := by
  simp only [exhausted, count_other h number other]

theorem exhausted_mono {stub : Nat × StubEntry} (spent : h.exhausted stub = true) :
    (h.hit number).exhausted stub = true := by
  unfold exhausted at spent ⊢
  split at spent
  · cases spent
  · have more : h.hits.count stub.1 ≤ (h.hit number).hits.count stub.1 :=
      (List.sublist_append_left h.hits [number]).count_le stub.1
    simp only [decide_eq_true_eq] at spent ⊢
    omega

/-- Firing the stub takes one off its count, and removes it if this was the last
hit of its budget. -/
theorem fire_current {entry : StubEntry} (left : h.exhausted (number, entry) = false) :
    StubStore.fire (h.current (number, entry)) =
      if entry.times = some (h.hits.count number + 1) then none else some ((h.hit number).current (number, entry)) := by
  cases limit : entry.times with
  | none => simp [StubStore.fire, current, limit]
  | some n =>
    have open_ : h.hits.count number < n := by simpa [exhausted, limit] using left
    simp only [StubStore.fire, current, limit, Option.map_some, count_hit, Option.some.injEq]
    by_cases last : n = h.hits.count number + 1
    · rw [if_pos (by omega), if_pos last]
    · rw [if_neg (by omega), if_neg last, Nat.sub_sub]

theorem exhausted_hit {entry : StubEntry} (left : h.exhausted (number, entry) = false) :
    (h.hit number).exhausted (number, entry) = true ↔ entry.times = some (h.hits.count number + 1) := by
  cases limit : entry.times with
  | none => simp [exhausted, limit]
  | some n =>
    have open_ : h.hits.count number < n := by simpa [exhausted, limit] using left
    simp only [exhausted, limit, count_hit, decide_eq_true_eq, Option.some.injEq]
    omega

variable {h number} in
theorem unspent_hit (distinct : (h.since.map Prod.fst).Nodup) {front back : List (Nat × StubEntry)} {entry : StubEntry}
    (split : h.unspent = front ++ (number, entry) :: back) :
    (h.hit number).unspent.map (h.hit number).current =
      front.map h.current ++ (StubStore.fire (h.current (number, entry))).toList ++ back.map h.current := by
  have left : h.exhausted (number, entry) = false := (mem_unspent.mp (by simp [split])).2
  have numbers : ((front ++ (number, entry) :: back).map Prod.fst).Nodup := by
    rw [← split]
    exact distinct.sublist (List.filter_sublist.map Prod.fst)
  have others : ∀ stub ∈ front ++ back, stub.1 ≠ number := Numbering.others_apart numbers
  have kept : ∀ part : List (Nat × StubEntry), (∀ stub ∈ part, stub ∈ front ++ back ∧ stub ∈ h.unspent) →
      (part.filter fun stub => !(h.hit number).exhausted stub).map (h.hit number).current = part.map h.current := by
    intro part inside
    rw [List.filter_eq_self.mpr]
    · exact List.map_congr_left fun stub member => current_hit_other h number (others stub (inside stub member).1)
    · intro stub member
      rw [exhausted_hit_other h number (others stub (inside stub member).1), (mem_unspent.mp (inside stub member).2).2]
      rfl
  have narrowed : (h.hit number).unspent = h.unspent.filter fun stub => !(h.hit number).exhausted stub := by
    rw [unspent, unspent, List.filter_filter]
    refine List.filter_congr fun stub _ => ?_
    cases spent : h.exhausted stub with
    | true => rw [exhausted_mono h number spent]; rfl
    | false => simp
  rw [narrowed, split, List.filter_append, List.filter_cons, List.map_append, fire_current h number left,
    kept front fun stub member => ⟨by simp [member], by simp [split, member]⟩]
  have rest := kept back fun stub member => ⟨by simp [member], by simp [split, member]⟩
  have gone := exhausted_hit h number left
  by_cases last : entry.times = some (h.hits.count number + 1)
  · simp [gone.mpr last, last, rest]
  · have stays : (h.hit number).exhausted (number, entry) = false := by
      rw [← Bool.not_eq_true, gone]
      exact last
    simp [stays, last, rest]

end Hit

/-- The store holds what the history says is left of it. -/
def Describes (h : StubHistory) (store : List StubEntry) : Prop :=
  store = h.unspent.map h.current ∧ Numbering h.since h.added h.hits

theorem Describes.choice_none {h : StubHistory} {store : List StubEntry} (describes : h.Describes store)
    {req : ProxyRequest} (nothing : h.choice req = none) : StubStore.takeMatch store req = none := by
  rw [describes.1, StubStore.takeMatch_eq_none_iff]
  intro entry member
  obtain ⟨stub, isUnspent, rfl⟩ := List.mem_map.mp member
  have refuses : stub.2.matcher.matches req = false := by simpa using List.find?_eq_none.mp nothing stub isUnspent
  exact refuses

theorem Describes.choice_some {h : StubHistory} {store : List StubEntry} (describes : h.Describes store)
    {req : ProxyRequest} {front back : List (Nat × StubEntry)} {number : Nat} {entry : StubEntry}
    (split : h.unspent = front ++ (number, entry) :: back) (accepts : entry.matcher.matches req = true)
    (passed : ∀ other ∈ front, other.2.matcher.matches req = false) :
    StubStore.takeMatch store req = some (entry.response,
      front.map h.current ++ (StubStore.fire (h.current (number, entry))).toList ++ back.map h.current) := by
  rw [describes.1, split, List.map_append, List.map_cons]
  refine StubStore.takeMatch_append (fun other member => ?_) accepts
  obtain ⟨stub, inFront, rfl⟩ := List.mem_map.mp member
  exact passed stub inFront

theorem Describes.step {h : StubHistory} {store : List StubEntry} (describes : h.Describes store) {op : StubOp}
    (limits : ∀ entry, op = .add entry → entry.times ≠ some 0) : (h.step op).Describes (StubStore.apply store op) := by
  refine ⟨?_, numbering_step describes.2 op⟩
  cases op with
  | add entry =>
    have unfired : h.hits.count h.added = 0 :=
      List.count_eq_zero.mpr fun fired => Nat.lt_irrefl _ (describes.2.past _ fired)
    have fresh : h.exhausted (h.added, entry) = false := by
      cases limit : entry.times with
      | none => simp [exhausted, limit]
      | some n =>
        have positive : n ≠ 0 := fun zero => limits entry rfl (by rw [limit, zero])
        simp only [exhausted, limit, unfired, decide_eq_false_iff_not]
        omega
    have whole : h.current (h.added, entry) = entry := by
      have untouched : (entry.times.map fun n => n - h.hits.count h.added) = entry.times := by
        rw [unfired]
        exact Option.map_id'
      simp only [current, untouched]
    have grown : (h.step (.add entry)).unspent = h.unspent ++ [(h.added, entry)] := by
      simp only [StubHistory.step, unspent, List.filter_append]
      congr 1
      simpa [exhausted] using fresh
    rw [grown, List.map_append]
    change store ++ [entry] = h.unspent.map h.current ++ [h.current (h.added, entry)]
    rw [whole, describes.1]
  | clear => rfl
  | take req =>
    cases chosen : h.choice req with
    | none =>
      simp only [StubStore.apply, StubHistory.step, chosen, describes.choice_none chosen]
      exact describes.1
    | some stub =>
      obtain ⟨front, back, split, accepts, passed⟩ := choice_eq_some chosen
      simp only [StubStore.apply, StubHistory.step, chosen, describes.choice_some split accepts passed]
      exact (unspent_hit describes.2.distinct split).symm

theorem describes_run {ops : List StubOp} (limits : ∀ entry, StubOp.add entry ∈ ops → entry.times ≠ some 0) :
    (run ops).Describes (Execution.exec StubStore.apply [] ops) := by
  refine Execution.exec_simulation StubHistory.step (R := Describes) (fun op member h store describes => ?_) ⟨rfl, .start⟩
  refine describes.step fun entry same => limits entry ?_
  rwa [← same]

/-- The store is at any time what the history of the calls leaves of the stubs
added since the last `clear`. `take_match` answers with the earliest of them that
accepts the request. A miss changes nothing. A hit takes one off the count of the
stub that answered, and removes it exactly if this was the `n`-th hit of `Some(n)`. -/
theorem stubs_refine_history {ops : List StubOp}
    (limits : ∀ entry, StubOp.add entry ∈ ops → entry.times ≠ some 0) :
    let store := Execution.exec StubStore.apply [] ops
    let h := run ops
    store = h.unspent.map h.current ∧
      ∀ req, (StubStore.takeMatch store req).map Prod.fst = (h.choice req).map (fun stub => stub.2.response) ∧
        (h.choice req = none → StubStore.apply store (.take req) = store ∧ h.step (.take req) = h) ∧
        ∀ number entry, h.choice req = some (number, entry) → h.step (.take req) = h.hit number ∧
          ∃ front back, h.unspent = front ++ (number, entry) :: back ∧ entry.matcher.matches req = true ∧
            (∀ other ∈ front, other.2.matcher.matches req = false) ∧
            StubStore.apply store (.take req) = front.map h.current ++
              (if entry.times = some (h.hits.count number + 1) then []
                else [{ entry with times := entry.times.map fun n => n - (h.hits.count number + 1) }]) ++
              back.map h.current := by
  intro store h
  have describes : h.Describes store := describes_run limits
  refine ⟨describes.1, fun req => ⟨?_, fun nothing => ?_, fun number entry chosen => ?_⟩⟩
  · cases chosen : h.choice req with
    | none => rw [describes.choice_none chosen]; rfl
    | some stub =>
      obtain ⟨front, back, split, accepts, passed⟩ := choice_eq_some chosen
      rw [describes.choice_some split accepts passed]
      rfl
  · simp [StubStore.apply, describes.choice_none nothing, StubHistory.step, nothing]
  · obtain ⟨front, back, split, accepts, passed⟩ := choice_eq_some chosen
    refine ⟨by simp [StubHistory.step, chosen], front, back, split, accepts, passed, ?_⟩
    have left : h.exhausted (number, entry) = false := (mem_unspent.mp (by simp [split])).2
    simp only [StubStore.apply, describes.choice_some split accepts passed, fire_current h number left]
    by_cases last : entry.times = some (h.hits.count number + 1)
    · simp [last]
    · simp [last, current, count_hit]

/-- A stub for two requests in front of an unlimited one: the second hit removes it. -/
theorem stubs_refine_history_two :
    let req : ProxyRequest := ⟨"GET", .ofData "/a" (by decide), .empty, [], .http11⟩
    let twice : StubEntry := ⟨.any, ⟨.ok, [], [1], none⟩, some 2⟩
    let ever : StubEntry := ⟨.any, ⟨.ok, [], [2], none⟩, none⟩
    let store := fun ops => Execution.exec StubStore.apply [] (.add twice :: .add ever :: ops)
    store [.take req] = [{ twice with times := some 1 }, ever] ∧ store [.take req, .take req] = [ever] ∧
      store [.take req, .take req, .take req] = [ever] := by
  intro req twice ever store
  have limits : ∀ ops : List ProxyRequest, ∀ entry,
      StubOp.add entry ∈ .add twice :: .add ever :: ops.map .take → entry.times ≠ some 0 := by
    intro ops entry member
    simp only [List.mem_cons, StubOp.add.injEq, List.mem_map, reduceCtorEq, and_false, exists_false, or_false] at member
    rcases member with rfl | rfl <;> simp [twice, ever]
  refine ⟨?_, ?_, ?_⟩
  · exact (stubs_refine_history (limits [req])).1
  · exact (stubs_refine_history (limits [req, req])).1
  · exact (stubs_refine_history (limits [req, req, req])).1

end StubHistory

end PartlyProxy
