import PartlyProxy.Replay
import PartlyProxy.Lib.Execution

namespace PartlyProxy

namespace ReplaySource
variable {deps : Deps}

/-- The index has for each key the slot of the earliest exchange that is filed under
it, and no other slot. -/
def Earliest (source : ReplaySource deps) : Prop :=
  ∀ k, source.index k = source.exchanges.findIdx? fun e => responseKey deps e = some k

theorem earliest_new (exchanges : List RecordedExchange) : (new deps exchanges).Earliest := by
  intro k
  simp only [new, buildIndex]
  rw [KeyedLog.indexFrom_eq]
  simp

/-- A slot is only added for a key that no stored exchange has. -/
theorem Earliest.insert {source : ReplaySource deps} (earliest : source.Earliest) (exchange : RecordedExchange) :
    (source.insert exchange).Earliest := by
  intro k
  unfold ReplaySource.insert
  split
  · exact earliest k
  · rename_i key keyed
    split
    · exact earliest k
    · rename_i free
      simp only [List.findIdx?_append]
      by_cases same : k = key
      · subst same
        rw [← earliest k, free]
        simp [keyed]
      · have other : ¬ key = k := fun equal => same equal.symm
        rw [← earliest k]
        simp [same, keyed, other]

theorem earliest_exec (loaded added : List RecordedExchange) :
    (Execution.exec ReplaySource.insert (new deps loaded) added).Earliest :=
  Execution.exec_invariant ReplaySource.insert (I := Earliest) (fun _ exchange earliest => earliest.insert exchange)
    (earliest_new loaded) added

theorem Earliest.slot {source : ReplaySource deps} (earliest : source.Earliest) {k : IndexKey} {i : Nat}
    (filed : source.index k = some i) : ∃ e resp, source.exchanges[i]? = some e ∧ e.outcome = .response resp ∧
      recordedKey deps e.request = k ∧
      ∀ j < i, ∀ e', source.exchanges[j]? = some e' → responseKey deps e' ≠ some k := by
  rw [earliest k] at filed
  obtain ⟨bound, here, before⟩ := List.findIdx?_eq_some_iff_getElem.mp filed
  have keyed : responseKey deps source.exchanges[i] = some k := by simpa using here
  have missed : ∀ j < i, ∀ e', source.exchanges[j]? = some e' → responseKey deps e' ≠ some k := by
    intro j earlier e' stored
    obtain ⟨_, rfl⟩ := List.getElem?_eq_some_iff.mp stored
    simpa using before j earlier
  cases outcome : source.exchanges[i].outcome with
  | error message => simp [responseKey, outcome] at keyed
  | response resp =>
    refine ⟨source.exchanges[i], resp, List.getElem?_eq_getElem bound, outcome, ?_, missed⟩
    simpa [responseKey, outcome] using keyed

theorem entry_exec (source : ReplaySource deps) (added : List RecordedExchange) (k : IndexKey) :
    (Execution.exec ReplaySource.insert source added).entry k =
      (source.entry k).or (KeyedLog.first (responseKey deps) added k) := by
  induction added generalizing source with
  | nil => simp
  | cons exchange rest ih =>
    have split : KeyedLog.first (responseKey deps) (exchange :: rest) k =
        (KeyedLog.first (responseKey deps) [exchange] k).or (KeyedLog.first (responseKey deps) rest k) :=
      KeyedLog.first_append _ [exchange] rest k
    rw [Execution.exec_cons, ih, entry_insert, split, Option.or_assoc]

/-- To insert exchanges one by one after a load answers every lookup as a load of them
all. In whatever order loaded, failed and repeated exchanges come, each entry of the
index is the slot of the earliest response with its key, so a lookup whose key is in
the index always ends in the response it is for. -/
theorem incremental_eq_batch (deps : Deps) (loaded added : List RecordedExchange) :
    let source := Execution.exec ReplaySource.insert (new deps loaded) added
    (∀ req chain, source.lookup req chain = (new deps (loaded ++ added)).lookup req chain) ∧
      (∀ k i, source.index k = some i → ∃ e resp, source.exchanges[i]? = some e ∧ e.outcome = .response resp ∧
        recordedKey deps e.request = k ∧
        ∀ j < i, ∀ e', source.exchanges[j]? = some e' → responseKey deps e' ≠ some k) ∧
      ∀ req chain i, source.index (liveKey deps (redactRequest chain req)) = some i → ∃ e resp,
        source.exchanges[i]? = some e ∧ e.outcome = .response resp ∧ source.lookup req chain = some (replayed resp) := by
  intro source
  have earliest : source.Earliest := earliest_exec loaded added
  have entries : ∀ k, source.entry k = (new deps (loaded ++ added)).entry k := by
    intro k
    rw [entry_exec, entry_new, entry_new, KeyedLog.first_append]
  refine ⟨fun req chain => ?_, fun k i filed => earliest.slot filed, fun req chain i filed => ?_⟩
  · rw [lookup, lookup, answer, answer, entries]
  · obtain ⟨e, resp, stored, outcome, _⟩ := earliest.slot filed
    refine ⟨e, resp, stored, outcome, ?_⟩
    have found : source.entry (liveKey deps (redactRequest chain req)) = some e := by
      rw [entry, filed, Option.bind_some, stored]
    rw [lookup, answer, found]
    simp [outcome, ExchangeOutcome.asResponse]

end ReplaySource

end PartlyProxy
