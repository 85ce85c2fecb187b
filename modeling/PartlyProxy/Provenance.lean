import PartlyProxy.Concurrent

namespace PartlyProxy
variable {deps : Deps} {σ : Type}

/-- A response that is about to be recorded was forwarded, or it cannot become a
new snapshot: the medium refuses it or already holds a response under its key. -/
def RecordsForwarded (storage : SnapshotStorage σ) (m : Nat) (l : Live deps σ) : Move → Prop
  | .handler i =>
    match l.phase i with
    | .recording (.ok _) source e =>
      source = some .upstream ∨ (∃ err, (storage.append (l.shared.recorder.media m) e).1 = .error err) ∨
        ∃ k, responseKey deps e = some k ∧ HoldsKey deps storage (l.shared.recorder.media m) k
    | _ => True
  | _ => True

section
variable {storage : SnapshotStorage σ} {law : storage.Lawful} {rt : UpstreamRuntime} {m : Nat}
  {arrivals : Nat → Arrival} {log : List RecordedExchange} {l : Live deps σ} {added : List (Nat × RecordedExchange)}

theorem Ledger.new_winner (ledger : Ledger law rt m arrivals log l added) {move : Move} {i : Nat} {e' : RecordedExchange}
    (records : RecordsAs storage m l move i e') (forwarded : RecordsForwarded storage m l move) {k : IndexKey}
    (free : KeyedLog.first (responseKey deps) (log ++ added.map Prod.snd) k = none)
    (keyed : responseKey deps e' = some k) :
    RecordOf rt arrivals (liveStep storage rt arrivals l move) i e' := by
  obtain ⟨outcome, source, e, rfl, at_, accepted, same⟩ := records
  rw [← same.responseKey] at keyed
  obtain ⟨resp, rfl, isSuccess⟩ := offered_response (ledger.pending i _ _ _ at_) keyed
  simp only [RecordsForwarded, at_] at forwarded
  have isDone : (liveStep storage rt arrivals l (.handler i)).phase i = .done (.ok resp) source := by
    simp [liveStep, at_, advance]
  rcases forwarded with rfl | ⟨err, refused⟩ | ⟨k', keyed', holds⟩
  · exact ⟨resp, isDone, isSuccess ▸ same⟩
  · rw [accepted] at refused
    cases refused
  · rw [keyed] at keyed'
    cases keyed'
    exact absurd free ((holdsKey_iff law ledger.held k).mp holds)

/-- Whatever wins its key on the medium did so before the run or stems from a
forwarded request. -/
def Sourced (rt : UpstreamRuntime) (arrivals : Nat → Arrival) (log : List RecordedExchange) (l : Live deps σ)
    (added : List (Nat × RecordedExchange)) : Prop :=
  ∀ k e, KeyedLog.first (responseKey deps) (log ++ added.map Prod.snd) k = some e →
    KeyedLog.first (responseKey deps) log k = some e ∨ ∃ i, RecordOf rt arrivals l i e

theorem Sourced.step (sourced : Sourced rt arrivals log l added) (move : Move) :
    Sourced rt arrivals log (liveStep storage rt arrivals l move) added := by
  intro k e found
  exact (sourced k e found).imp_right fun ⟨i, record⟩ => ⟨i, record.step move⟩

theorem Sourced.record_step (sourced : Sourced rt arrivals log l added) (ledger : Ledger law rt m arrivals log l added)
    {move : Move} {i : Nat} {e' : RecordedExchange} (records : RecordsAs storage m l move i e')
    (forwarded : RecordsForwarded storage m l move) :
    Sourced rt arrivals log (liveStep storage rt arrivals l move) (added ++ [(i, e')]) := by
  intro k e found
  rw [List.map_append, ← List.append_assoc, KeyedLog.first_append] at found
  cases before : KeyedLog.first (responseKey deps) (log ++ added.map Prod.snd) k with
  | some old =>
    rw [before, Option.some_or] at found
    cases found
    exact sourced.step move k _ before
  | none =>
    rw [before, Option.none_or] at found
    have isNew : e = e' := by simpa using KeyedLog.first_mem found
    subst isNew
    exact Or.inr ⟨i, ledger.new_winner records forwarded before (KeyedLog.first_key found)⟩

theorem ledger_sourced (routed : rt.recorder.routes rt.name = some m) {s : Shared deps σ}
    (held : law.Holds (s.recorder.media m) log) {moves : List Move}
    (along : Execution.Along (liveStep storage rt arrivals) (RecordsForwarded storage m) (.start s) moves) :
    ∃ added, Ledger law rt m arrivals log (interleave storage rt arrivals (.start s) moves) added ∧
      Sourced rt arrivals log (interleave storage rt arrivals (.start s) moves) added := by
  refine Execution.exec_invariant_along (liveStep storage rt arrivals)
    (I := fun l => ∃ added, Ledger law rt m arrivals log l added ∧ Sourced rt arrivals log l added) ?_
    ⟨[], ledger_start held, fun k e found => Or.inl (by simpa using found)⟩ along
  rintro l move forwarded ⟨added, ledger, sourced⟩
  rcases ledger.step routed move with ⟨_, kept⟩ | ⟨i, e', records, grown⟩
  · exact ⟨added, kept, sourced.step move⟩
  · exact ⟨added ++ [(i, e')], grown, sourced.record_step ledger records forwarded⟩

variable (law) in
/-- In a run that records no response but forwarded ones, every entry of the index
that a reload builds was there before or stems from a forwarded request, and so
does every answer of a later run. -/
theorem reload_entries_forwarded (routed : rt.recorder.routes rt.name = some m) {s : Shared deps σ}
    (held : law.Holds (s.recorder.media m) log) (moves : List Move)
    (along : Execution.Along (liveStep storage rt arrivals) (RecordsForwarded storage m) (.start s) moves) :
    ∃ reloaded source, openShared deps storage (some m)
        (interleave storage rt arrivals (.start s) moves).shared.recorder.media = .ok reloaded ∧
      reloaded.replay = some source ∧
      (∀ k e, source.entry k = some e → (ReplaySource.new deps log).entry k = some e ∨
        ∃ i, RecordOf rt arrivals (interleave storage rt arrivals (.start s) moves) i e) ∧
      ∀ req answer, source.lookup req rt.middleware = some answer →
        (ReplaySource.new deps log).lookup req rt.middleware = some answer ∨
        ∃ i resp, (interleave storage rt arrivals (.start s) moves).phase i = .done (.ok resp) (some .upstream) ∧
          answer = replayed (.fromParts (redactResponse rt.middleware resp)) := by
  obtain ⟨added, ledger, sourced⟩ := ledger_sourced routed held along
  refine ⟨_, _, openShared_eq_ok.mpr ⟨_, law.load_eq ledger.held, rfl⟩, rfl, ?_, ?_⟩
  · intro k e found
    rw [ReplaySource.entry_new] at found ⊢
    exact sourced k e found
  · intro req answer found
    obtain ⟨e, resp, stored, isResponse, rfl⟩ := ReplaySource.entry_of_answer found
    rw [ReplaySource.entry_new] at stored
    rcases sourced _ e stored with old | ⟨i, forwarded, finished, same⟩
    · obtain ⟨resp', isResponse', answers⟩ := ReplaySource.answer_of_entry
        ((ReplaySource.entry_new log _).trans old)
      rw [isResponse] at isResponse'
      cases isResponse'
      exact Or.inl answers
    · have content := same.2
      rw [isResponse] at content
      cases content
      exact Or.inr ⟨i, forwarded, finished, rfl⟩

end

/-- Under a chain that passes everything through and without stubs, nothing but
forwarded responses is ever recorded. -/
theorem recordsForwarded_race {storage : SnapshotStorage σ} {rt : UpstreamRuntime} {m : Nat} {arrivals : Nat → Arrival}
    (plain : PlainRecording rt m) {s : Shared deps σ} (noStubs : s.stubs = []) {source : ReplaySource deps}
    (attached : s.replay = some source) (schedule : List Nat) :
    Execution.Along (liveStep storage rt arrivals) (RecordsForwarded storage m) (.start s) (schedule.map .handler) := by
  rw [Execution.along_iff_forall_cut]
  intro front move back cut
  obtain ⟨before, rest, _, rfl, isRest⟩ := List.map_eq_append_iff.mp cut
  obtain ⟨i, _, _, rfl, _⟩ := List.map_eq_cons_iff.mp isRest
  obtain ⟨live, run⟩ := plainRun_race storage arrivals plain noStubs attached before
  have phase := run.phases i
  change RecordsForwarded storage m (race storage rt arrivals s before) (.handler i)
  simp only [RecordsForwarded]
  split
  · rename_i at_
    rw [at_] at phase
    exact Or.inl phase
  · trivial

theorem reload_entries_forwarded_get :
    let rt := referenceRuntime [] .record
    let s : Shared referenceDeps _ := emptyShared referenceDeps fun _ => []
    let arrivals := fun _ => referenceGet referencePath (answering [1])
    let l := race inMemoryStorage rt arrivals s (List.replicate 6 0)
    ∃ reloaded source, openShared referenceDeps inMemoryStorage (some 0) l.shared.recorder.media = .ok reloaded ∧
      reloaded.replay = some source ∧ ∀ k e, source.entry k = some e → ∃ i, RecordOf rt arrivals l i e := by
  intro rt s arrivals l
  have routed : rt.recorder.routes rt.name = some 0 := rfl
  have held : inMemoryStorage_lawful.Holds (s.recorder.media 0) [] := rfl
  have along : Execution.Along (liveStep inMemoryStorage rt arrivals) (RecordsForwarded inMemoryStorage 0) (.start s)
      ((List.replicate 6 0).map .handler) := recordsForwarded_race referenceRuntime_plain rfl rfl _
  obtain ⟨reloaded, source, opened, attached, entries, _⟩ :=
    reload_entries_forwarded inMemoryStorage_lawful routed held _ along
  refine ⟨reloaded, source, opened, attached, fun k e found => ?_⟩
  exact (entries k e found).resolve_left (by rw [ReplaySource.entry_new]; simp)

/-- The answer of a stub is recorded like a forwarded one: after a reload it is
served although nothing was ever forwarded. -/
theorem stub_answer_becomes_snapshot :
    let rt := referenceRuntime [] .record
    let s : Shared referenceDeps _ := emptyShared referenceDeps fun _ => []
    let arrivals := fun _ => referenceGet referencePath (answering [1])
    let stub : StubEntry := ⟨.any, ⟨.ok, [], [2], none⟩, none⟩
    let l := interleave inMemoryStorage rt arrivals (.start s) (.stub stub :: List.replicate 6 (.handler 0))
    ∃ reloaded source k e, openShared referenceDeps inMemoryStorage (some 0) l.shared.recorder.media = .ok reloaded ∧
      reloaded.replay = some source ∧ source.entry k = some e ∧ (ReplaySource.new referenceDeps []).entry k = none ∧
      ¬ (∃ i, RecordOf rt arrivals l i e) ∧
      source.lookup (arrivals 0).original [] = some stub.response.intoProxy := by
  intro rt s arrivals stub l
  let e := successExchange referenceDeps rt referenceStamp (arrivals 0).original stub.response.intoProxy
  have ran : l = ⟨serveStep inMemoryStorage rt { s with stubs := [stub] } (arrivals 0), Function.update (fun _ => .arrived) 0
      (.done (ending rt (arrivals 0) { s with stubs := [stub] }).outcome
        (ending rt (arrivals 0) { s with stubs := [stub] }).source)⟩ := by
    simp only [l]
    rw [interleave_cons, interleave_alone _ _ _ (by rfl)]
    rfl
  have marked : (ending rt (arrivals 0) { s with stubs := [stub] }).source = some .stub := by decide
  have written : (serveStep inMemoryStorage rt { s with stubs := [stub] } (arrivals 0)).recorder.media 0 = [e] := by
    decide +kernel
  have loaded : inMemoryStorage.load (l.shared.recorder.media 0) = .ok [e] := by
    rw [ran, ← written]
    rfl
  refine ⟨_, _, ("GET", "/a", referenceSha256Hex []), e, openShared_eq_ok.mpr ⟨[e], loaded, rfl⟩, rfl, by decide +kernel,
    by decide +kernel, ?_, by decide +kernel⟩
  rintro ⟨i, resp, finished, _⟩
  rw [ran] at finished
  by_cases first : i = 0
  · subst first
    simp [marked] at finished
  · simp [Function.update_of_ne first] at finished

end PartlyProxy
