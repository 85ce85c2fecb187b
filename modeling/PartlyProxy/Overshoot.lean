import PartlyProxy.Verdicts

namespace PartlyProxy
variable {σ : Type} {pred : RecordedExchange → Bool} {cap expected : Nat} {buffer : List RecordedExchange}

theorem length_pushRing (fits : buffer.length ≤ cap) (e : RecordedExchange) : (pushRing cap buffer e).length ≤ cap := by
  unfold pushRing
  split
  · exact fits
  · rw [makeRoom_eq_drop, List.length_append, List.length_drop, List.length_singleton]
    omega

variable (pred) in
/-- Below the cap a push only adds. -/
theorem countMatching_pushRing_of_lt (room : buffer.length < cap) (e : RecordedExchange) :
    countMatching pred (pushRing cap buffer e) = countMatching pred buffer + countMatching pred [e] := by
  have nothingToDrop : buffer.length + 1 - cap = 0 := by omega
  have positive : cap ≠ 0 := by omega
  rw [pushRing, if_neg positive, makeRoom_eq_drop, nothingToDrop, List.drop_zero, countMatching, List.filter_append,
    List.length_append, countMatching, countMatching]

variable (pred) in
/-- At the cap a push also evicts the oldest exchange. -/
theorem countMatching_pushRing_full (oldest : RecordedExchange) (rest : List RecordedExchange) (e : RecordedExchange) :
    countMatching pred (pushRing (rest.length + 1) (oldest :: rest) e) + countMatching pred [oldest] =
      countMatching pred (oldest :: rest) + countMatching pred [e] := by
  have one : (oldest :: rest).length + 1 - (rest.length + 1) = 1 := by simp
  have split : countMatching pred (oldest :: rest) = countMatching pred [oldest] + countMatching pred rest := by
    simp only [countMatching, ← List.length_append, ← List.filter_append, List.singleton_append]
  have pushed : countMatching pred (rest ++ [e]) = countMatching pred rest + countMatching pred [e] := by
    simp only [countMatching, List.filter_append, List.length_append]
  rw [pushRing, if_neg (Nat.succ_ne_zero _), makeRoom_eq_drop, one, List.drop_succ_cons, List.drop_zero, pushed, split]
  omega

@[simp] theorem countMatching_singleton (pred : RecordedExchange → Bool) (e : RecordedExchange) :
    countMatching pred [e] = if pred e then 1 else 0 := by
  cases matched : pred e <;> simp [countMatching, matched]

namespace Recorder

/-- The medium of the exchange, if it has one, accepts it. -/
def Accepts (storage : SnapshotStorage σ) (rec : Recorder) (state : RecorderState σ) (e : RecordedExchange) : Prop :=
  ∀ m, rec.medium e = some m → (storage.append (state.media m) e).1 = .ok ()

/-- A `record` call that takes the last match above `expected` out of the ring: the
ring is full, its oldest exchange matches and the new one does not. -/
structure Recedes (storage : SnapshotStorage σ) (rec : Recorder) (pred : RecordedExchange → Bool) (expected : Nat)
    (state : RecorderState σ) (e : RecordedExchange) : Prop where
  enabled : rec.config.enabled = true
  accepts : rec.Accepts storage state e
  full : state.buffer.length = rec.config.maxInMemory
  evicts : ∃ oldest rest, state.buffer = oldest :: rest ∧ pred oldest = true
  unmatched : pred e = false
  last : countMatching pred state.buffer = expected + 1

section Calls
variable (storage : SnapshotStorage σ) {rec : Recorder} {state : RecorderState σ} {e : RecordedExchange}

/-- One more call of `record`, whatever it returns. -/
def recordNext (rec : Recorder) (state : RecorderState σ) (e : RecordedExchange) : RecorderState σ :=
  (rec.record storage state e).2

/-- A call pushes its exchange, or leaves the ring alone because recording is off or
the medium refuses. -/
theorem recordNext_buffer (rec : Recorder) (state : RecorderState σ) (e : RecordedExchange) :
    (rec.config.enabled = true ∧ rec.Accepts storage state e ∧
        (rec.recordNext storage state e).buffer = pushRing rec.config.maxInMemory state.buffer e) ∨
      ((rec.config.enabled = false ∨ ¬ rec.Accepts storage state e) ∧
        (rec.recordNext storage state e).buffer = state.buffer) := by
  cases on : rec.config.enabled with
  | false => exact Or.inr ⟨Or.inl rfl, by simp [recordNext, record, on]⟩
  | true =>
    cases routed : rec.medium e with
    | none => exact Or.inl ⟨rfl, by simp [Accepts, routed], by simp [recordNext, record, on, routed]⟩
    | some m =>
      cases written : (storage.append (state.media m) e).1 with
      | ok done => exact Or.inl ⟨rfl, by simp [Accepts, routed, written], by simp [recordNext, record, on, routed, written]⟩
      | error err =>
        refine Or.inr ⟨Or.inr fun accepts => ?_, by simp [recordNext, record, on, routed, written]⟩
        rw [accepts m routed] at written
        cases written

theorem recordNext_fits (fits : state.buffer.length ≤ rec.config.maxInMemory) (e : RecordedExchange) :
    (rec.recordNext storage state e).buffer.length ≤ rec.config.maxInMemory := by
  rcases recordNext_buffer storage rec state e with ⟨_, _, pushed⟩ | ⟨_, kept⟩
  · rw [pushed]
    exact length_pushRing fits e
  · rwa [kept]

/-- One call keeps the count above `expected` exactly if it does not recede. -/
theorem overshot_recordNext_iff (fits : state.buffer.length ≤ rec.config.maxInMemory)
    (overshot : expected < countMatching pred state.buffer) :
    expected < countMatching pred (rec.recordNext storage state e).buffer ↔
      ¬ rec.Recedes storage pred expected state e := by
  rcases recordNext_buffer storage rec state e with ⟨on, accepts, pushed⟩ | ⟨off, kept⟩
  · rw [pushed]
    rcases Nat.lt_or_eq_of_le fits with room | full
    · have more := countMatching_pushRing_of_lt pred room e
      have notFull : ¬ rec.Recedes storage pred expected state e := fun recedes => by
        have := recedes.full
        omega
      simp only [notFull, not_false_eq_true, iff_true]
      omega
    · cases ring : state.buffer with
      | nil =>
        rw [ring] at overshot
        cases overshot
      | cons oldest rest =>
        have size : rec.config.maxInMemory = rest.length + 1 := by rw [← full, ring, List.length_cons]
        have balance := countMatching_pushRing_full pred oldest rest e
        rw [ring] at overshot
        rw [countMatching_singleton, countMatching_singleton] at balance
        rw [size]
        constructor
        · intro still recedes
          obtain ⟨oldest', rest', same, matched⟩ := recedes.evicts
          have last := recedes.last
          rw [ring] at same last
          cases same
          simp only [matched, recedes.unmatched, if_true, Bool.false_eq_true, if_false] at balance
          omega
        · intro stays
          by_contra fell
          have evicted : pred oldest = true := by
            by_contra other
            simp only [other, if_false] at balance
            omega
          have unmatched : pred e = false := by
            by_contra other
            simp only [evicted, Bool.not_eq_false] at other balance
            simp only [other, if_true] at balance
            omega
          simp only [evicted, unmatched, if_true, Bool.false_eq_true, if_false] at balance
          exact stays ⟨on, accepts, full, ⟨oldest, rest, ring, evicted⟩, unmatched, by rw [ring]; omega⟩
  · rw [kept]
    refine iff_of_true overshot fun recedes => ?_
    rcases off with off | refused
    · rw [recedes.enabled] at off
      cases off
    · exact refused recedes.accepts

theorem overshot_recordNext_along_iff (fits : state.buffer.length ≤ rec.config.maxInMemory)
    (overshot : expected < countMatching pred state.buffer) (more : List RecordedExchange) :
    (∀ front, front <+: more → expected < countMatching pred (Execution.exec (rec.recordNext storage) state front).buffer) ↔
      Execution.Along (rec.recordNext storage) (fun state e => ¬ rec.Recedes storage pred expected state e) state more := by
  induction more generalizing state with
  | nil => simpa [Execution.Along] using overshot
  | cons e rest ih =>
    have step := overshot_recordNext_iff storage (e := e) fits overshot
    constructor
    · intro always
      have next := always [e] (by simp)
      refine ⟨step.mp next, (ih (recordNext_fits storage fits e) next).mp fun front cut => ?_⟩
      exact always (e :: front) (by simpa using cut)
    · rintro ⟨stays, along⟩ front cut
      cases front with
      | nil => exact overshot
      | cons e' front =>
        obtain ⟨rfl, tail⟩ := List.cons_prefix_cons.mp cut
        exact (ih (recordNext_fits storage fits e') (step.mpr stays)).mpr along front tail

end Calls

/-- Once the matches in a ring exceed `expected`, an `AssertCount` is judged failed
at any later moment, however many calls of `record` follow, exactly if none of
them drops the last match too many from a full ring. -/
theorem overshoot_final_iff (deps : Deps) (storage : SnapshotStorage σ) (rec : Recorder) (filter : TrafficFilter)
    (expected : Nat) {state : RecorderState σ} (fits : state.buffer.length ≤ rec.config.maxInMemory)
    (overshot : expected < countMatching (filter.matches deps) state.buffer) (more : List RecordedExchange) :
    (∀ front, front <+: more → ∃ message,
      evaluate (.count expected) (countMatching (filter.matches deps)
        (Execution.exec (rec.recordNext storage) state front).buffer) = .failed message) ↔
      Execution.Along (rec.recordNext storage)
        (fun state e => ¬ rec.Recedes storage (filter.matches deps) expected state e) state more := by
  rw [← overshot_recordNext_along_iff storage fits overshot more]
  refine forall_congr' fun front => forall_congr' fun _ => ?_
  rw [evaluate_failed_iff]
  simp [AssertionShape.Overshot]

def getOnly : TrafficFilter := { TrafficFilter.new with method := some "GET" }

def postExchange : RecordedExchange := { Waiting.orderExchange with request := ⟨"POST", "/orders", [], [], ""⟩ }

/-- In a ring with room for one more nothing can be dropped. -/
theorem overshoot_final_iff_room :
    let storage : SnapshotStorage Unit := ⟨fun s _ => (.ok (), s), fun _ => .ok []⟩
    let wide : Recorder := ⟨.inMemory 2, fun _ => none⟩
    ∀ front, front <+: [postExchange] → ∃ message,
      evaluate (.count 0) (countMatching (getOnly.matches referenceDeps)
        (Execution.exec (wide.recordNext storage) ⟨[Waiting.orderExchange], fun _ => ()⟩ front).buffer) =
          .failed message := by
  intro storage wide
  refine (overshoot_final_iff referenceDeps storage wide getOnly 0 (by decide) (by decide) [postExchange]).mpr ⟨?_, trivial⟩
  intro recedes
  exact absurd recedes.full (by decide)

/-- One order too many, and a ring of one: the next exchange, which does not match,
takes it away, and the count is what was expected. -/
theorem overshoot_recedes :
    let storage : SnapshotStorage Unit := ⟨fun s _ => (.ok (), s), fun _ => .ok []⟩
    let narrow : Recorder := ⟨.inMemory 1, fun _ => none⟩
    let before : RecorderState Unit := ⟨[Waiting.orderExchange], fun _ => ()⟩
    let after := narrow.recordNext storage before postExchange
    0 < countMatching (getOnly.matches referenceDeps) before.buffer ∧
      countMatching (getOnly.matches referenceDeps) after.buffer = 0 ∧
      evaluate (.count 0) (countMatching (getOnly.matches referenceDeps) after.buffer) =
        .passed "matched exactly 0" := by
  decide +kernel

end Recorder

end PartlyProxy
