import PartlyProxy.Concurrent

namespace PartlyProxy
variable {deps : Deps} {σ : Type}

def requestKey (deps : Deps) (rt : UpstreamRuntime) (a : Arrival) : IndexKey :=
  liveKey deps (redactRequest rt.middleware a.original)

def Forwarded : Outcome → Option ResponseSource → Prop
  | .ok _, some .upstream => True
  | _, _ => False

def Inserted : Phase → Prop
  | .recording outcome source _ | .done outcome source => Forwarded outcome source
  | _ => False

/-- The handler has missed the index and not yet inserted its own response. -/
def InFlight : Phase → Prop
  | .forwarding .. => True
  | .ended outcome source => Forwarded outcome source
  | _ => False

def BeforeLookup : Phase → Prop
  | .arrived | .scanning .. | .lookingUp .. => True
  | _ => False

/-- Every inserted response is found under the key of its request. -/
def Indexed (rt : UpstreamRuntime) (arrivals : Nat → Arrival) (l : Live deps σ) (source : ReplaySource deps) : Prop :=
  ∀ i, Inserted (l.phase i) → (source.entry (requestKey deps rt (arrivals i))).isSome

/-- The phases on the way to an answer from the snapshot. -/
inductive SnapshotPath (a : Arrival) (stored : ProxyResponse) : Phase → Prop
  | arrived : SnapshotPath a stored .arrived
  | scanning : SnapshotPath a stored (.scanning a.original (.new a.contextId) Prod.mk)
  | lookingUp : SnapshotPath a stored (.lookingUp a.original (.new a.contextId) Prod.mk)
  | ended : SnapshotPath a stored (.ended (.ok stored) (some .snapshot))
  | done : SnapshotPath a stored (.done (.ok stored) (some .snapshot))

section Steps
variable {storage : SnapshotStorage σ} {rt : UpstreamRuntime} {a : Arrival} {source : ReplaySource deps}
  {s s' : Shared deps σ} {p p' : Phase}

theorem PlainStep.inserted (step : PlainStep storage rt a source s p p' s') (trip : deps.UriRoundTrip)
    (slashed : (redactRequest rt.middleware a.original).uri.Slashed) (after : Inserted p') :
    Inserted p ∨ ∃ source', s'.replay = some source' ∧ (source'.entry (requestKey deps rt a)).isSome := by
  cases step with
  | promote =>
    refine Or.inr ⟨_, rfl, ?_⟩
    rw [ReplaySource.entry_insert, KeyedLog.first_singleton, responseKey_successExchange,
      recordedKey_fromParts trip slashed]
    simp [requestKey]
  | record => exact Or.inl after
  | rest => exact Or.inl after
  | forward => exact after.elim
  | _ => exact after.elim

theorem PlainStep.inFlight (step : PlainStep storage rt a source s p p' s') (after : InFlight p') :
    InFlight p ∨ source.lookup a.original rt.middleware = none := by
  cases step with
  | miss missed => exact Or.inr missed
  | forward => exact Or.inl trivial
  | _ => exact after.elim

theorem PlainStep.beforeInserted (step : PlainStep storage rt a source s p p' s') (after : Inserted p') :
    Inserted p ∨ InFlight p := by
  cases step with
  | promote => exact Or.inr trivial
  | record => exact Or.inl after
  | rest => exact Or.inl after
  | _ => exact after.elim

/-- A handler whose key is known walks to the stored answer, and none of its
steps touches the shared state. -/
theorem PlainStep.snapshotPath (step : PlainStep storage rt a source s p p' s') {body : Bytes}
    (read : a.inbound.body = .ok body) {stored : ProxyResponse}
    (known : source.answer (requestKey deps rt a) = some stored) (path : SnapshotPath a stored p) :
    s' = s ∧ SnapshotPath a stored p' := by
  cases path with
  | arrived =>
    cases step with
    | unreadable unread => rw [read] at unread; cases unread
    | enter _ => exact ⟨rfl, .scanning⟩
  | scanning =>
    cases step
    exact ⟨rfl, .lookingUp⟩
  | lookingUp =>
    cases step with
    | hit found =>
      have same := found.symm.trans known
      cases same
      exact ⟨rfl, .ended⟩
    | miss missed => exact absurd (missed.symm.trans known) (by simp)
  | ended =>
    cases step
    exact ⟨rfl, .done⟩
  | done =>
    cases step
    exact ⟨rfl, .done⟩

theorem answer_of_grows {source source' : ReplaySource deps}
    (grows : ∀ k e, source.entry k = some e → source'.entry k = some e) {k : IndexKey} {stored : ProxyResponse}
    (known : source.answer k = some stored) : source'.answer k = some stored := by
  obtain ⟨e, resp, found, isResponse, rfl⟩ := ReplaySource.entry_of_answer known
  obtain ⟨resp', isResponse', answers⟩ := ReplaySource.answer_of_entry (grows k e found)
  rw [isResponse] at isResponse'
  cases isResponse'
  exact answers

theorem PlainPhase.snapshotPath {stored : ProxyResponse} (phase : PlainPhase a p) (before : BeforeLookup p) :
    SnapshotPath a stored p := by
  cases p with
  | arrived => exact .arrived
  | scanning req ctx resume =>
    obtain ⟨_, rfl, rfl, rfl⟩ := phase
    exact .scanning
  | lookingUp req ctx resume =>
    obtain ⟨_, rfl, rfl, rfl⟩ := phase
    exact .lookingUp
  | _ => exact before.elim

end Steps

section Races
variable {storage : SnapshotStorage σ} {rt : UpstreamRuntime} {m : Nat} {arrivals : Nat → Arrival}
  {s : Shared deps σ} {source : ReplaySource deps}

variable (storage) in
theorem indexed_race (plain : PlainRecording rt m) (trip : deps.UriRoundTrip)
    (slashed : ∀ i, (redactRequest rt.middleware (arrivals i).original).uri.Slashed) (noStubs : s.stubs = [])
    (attached : s.replay = some source) (schedule : List Nat) :
    ∃ source', PlainRun arrivals (race storage rt arrivals s schedule) source' ∧
      Indexed rt arrivals (race storage rt arrivals s schedule) source' := by
  induction schedule using List.reverseRecOn with
  | nil => exact ⟨source, ⟨noStubs, attached, fun _ => trivial⟩, fun _ inserted => inserted.elim⟩
  | append_singleton front i ih =>
    obtain ⟨before, run, indexed⟩ := ih
    rw [race_snoc]
    obtain ⟨after, next, grows⟩ := run.step storage plain i
    refine ⟨after, next, fun j inserted => ?_⟩
    have keep : Inserted ((race storage rt arrivals s front).phase j) →
        (after.entry (requestKey deps rt (arrivals j))).isSome := by
      intro old
      obtain ⟨e, found⟩ := Option.isSome_iff_exists.mp (indexed j old)
      exact Option.isSome_iff_exists.mpr ⟨e, grows _ _ found⟩
    by_cases same : j = i
    · subst same
      rcases (run.plainStep storage plain j).inserted trip (slashed j) inserted with old | ⟨source', here, known⟩
      · exact keep old
      · rw [next.attached] at here
        cases here
        exact known
    · rw [liveStep_phase_other storage rt arrivals _ same] at inserted
      exact keep inserted

/-- Once a request with some key was forwarded, answered and finished, the index
has one answer for the key: whatever the handlers do from then on, each request
with that key which had not looked up yet walks to that answer without touching
the shared state, and has it once it has taken its steps. -/
theorem seen_requests_replayed (plain : PlainRecording rt m) (trip : deps.UriRoundTrip)
    (slashed : ∀ i, (redactRequest rt.middleware (arrivals i).original).uri.Slashed) (noStubs : s.stubs = [])
    (attached : s.replay = some source) (schedule : List Nat) {i : Nat} {resp : ProxyResponse}
    (forwarded : (race storage rt arrivals s schedule).phase i = .done (.ok resp) (some .upstream)) :
    ∃ stored, ∀ j body, (arrivals j).inbound.body = .ok body →
      requestKey deps rt (arrivals j) = requestKey deps rt (arrivals i) →
      BeforeLookup ((race storage rt arrivals s schedule).phase j) → ∀ later : List Nat,
        (∃ live, (race storage rt arrivals s (schedule ++ later)).shared.replay = some live ∧
          live.answer (requestKey deps rt (arrivals i)) = some stored) ∧
        SnapshotPath (arrivals j) stored ((race storage rt arrivals s (schedule ++ later)).phase j) ∧
        (race storage rt arrivals s (schedule ++ later ++ [j])).shared =
          (race storage rt arrivals s (schedule ++ later)).shared ∧
        (6 ≤ later.count j →
          (race storage rt arrivals s (schedule ++ later)).phase j = .done (.ok stored) (some .snapshot)) := by
  obtain ⟨live, run, indexed⟩ := indexed_race storage plain trip slashed noStubs attached schedule
  obtain ⟨e, found⟩ := Option.isSome_iff_exists.mp (indexed i (by rw [forwarded]; trivial))
  obtain ⟨recorded, _, known⟩ := ReplaySource.answer_of_entry found
  refine ⟨replayed recorded, fun j body read sameKey before later => ?_⟩
  have walk : ∃ live, PlainRun arrivals (race storage rt arrivals s (schedule ++ later)) live ∧
      live.answer (requestKey deps rt (arrivals i)) = some (replayed recorded) ∧
      SnapshotPath (arrivals j) (replayed recorded) ((race storage rt arrivals s (schedule ++ later)).phase j) := by
    -- Induction on the steps taken since; the answer in the index carries the path along.
    induction later using List.reverseRecOn with
    | nil => exact ⟨live, by simpa using run, known, by simpa using (run.phases j).snapshotPath before⟩
    | append_singleton front h ih =>
      obtain ⟨middle, run, known, path⟩ := ih
      rw [← List.append_assoc, race_snoc]
      obtain ⟨next, run', grows⟩ := run.step storage plain h
      refine ⟨next, run', answer_of_grows grows known, ?_⟩
      by_cases same : j = h
      · subst same
        exact ((run.plainStep storage plain j).snapshotPath read (sameKey ▸ known) path).2
      · rw [liveStep_phase_other storage rt arrivals _ same]
        exact path
  obtain ⟨final, run', known', path⟩ := walk
  refine ⟨⟨final, run'.attached, known'⟩, path, ?_, fun enough => ?_⟩
  · rw [race_snoc]
    exact ((run'.plainStep storage plain j).snapshotPath read (sameKey ▸ known') path).1
  · obtain ⟨outcome, marker, finished⟩ := race_done storage rt arrivals s
      (show 6 ≤ (schedule ++ later).count j by rw [List.count_append]; omega)
    rw [finished] at path ⊢
    cases path
    rfl

theorem seen_requests_replayed_second_get :
    let rt := referenceRuntime [] .record
    let s : Shared referenceDeps _ := emptyShared referenceDeps fun _ => []
    let arrivals := fun _ => referenceGet referencePath (answering [1])
    ∃ stored, (race inMemoryStorage rt arrivals s (List.replicate 6 0 ++ List.replicate 6 1)).phase 1 =
      .done (.ok stored) (some .snapshot) := by
  intro rt s arrivals
  have ended : (ending rt (arrivals 0) s).outcome = .ok ⟨.ok, .empty, [1], .http11⟩ ∧
      (ending rt (arrivals 0) s).source = some .upstream := by decide +kernel
  have forwarded : (race inMemoryStorage rt arrivals s (List.replicate 6 0)).phase 0 =
      .done (.ok ⟨.ok, .empty, [1], .http11⟩) (some .upstream) := by
    simp only [race_alone, Function.update_self, ended]
  have waiting : BeforeLookup ((race inMemoryStorage rt arrivals s (List.replicate 6 0)).phase 1) := by
    rw [race_alone]
    trivial
  have slashed : ∀ i, (redactRequest rt.middleware (arrivals i).original).uri.Slashed := fun _ => referencePath_slashed
  obtain ⟨stored, all⟩ := seen_requests_replayed referenceRuntime_plain referenceDeps_uriRoundTrip slashed rfl rfl
    (List.replicate 6 0) forwarded
  exact ⟨stored, (all 1 [] rfl rfl waiting (List.replicate 6 1)).2.2.2 (by decide)⟩

/-- At some moment of the race both handlers had missed the index and neither had
inserted its response. -/
def Overlapped (storage : SnapshotStorage σ) (rt : UpstreamRuntime) (arrivals : Nat → Arrival) (s : Shared deps σ)
    (schedule : List Nat) (i j : Nat) : Prop :=
  ∃ front, front <+: schedule ∧ InFlight ((race storage rt arrivals s front).phase i) ∧
    InFlight ((race storage rt arrivals s front).phase j)

theorem Overlapped.symm {schedule : List Nat} {i j : Nat} (overlap : Overlapped storage rt arrivals s schedule i j) :
    Overlapped storage rt arrivals s schedule j i := by
  obtain ⟨front, cut, left, right⟩ := overlap
  exact ⟨front, cut, right, left⟩

theorem Overlapped.snoc {schedule : List Nat} {i j : Nat} (overlap : Overlapped storage rt arrivals s schedule i j)
    (h : Nat) : Overlapped storage rt arrivals s (schedule ++ [h]) i j := by
  obtain ⟨front, cut, both⟩ := overlap
  exact ⟨front, cut.trans (List.prefix_append ..), both⟩

/-- Of two requests with one key, the second can be in flight or inserted beside
an inserted first only if they overlapped. -/
theorem overlapped_of_inserted (plain : PlainRecording rt m) (trip : deps.UriRoundTrip)
    (slashed : ∀ i, (redactRequest rt.middleware (arrivals i).original).uri.Slashed) (noStubs : s.stubs = [])
    (attached : s.replay = some source) (schedule : List Nat) {i j : Nat} (distinct : i ≠ j)
    (sameKey : requestKey deps rt (arrivals i) = requestKey deps rt (arrivals j))
    (first : Inserted ((race storage rt arrivals s schedule).phase i))
    (second : Inserted ((race storage rt arrivals s schedule).phase j) ∨
      InFlight ((race storage rt arrivals s schedule).phase j)) :
    Overlapped storage rt arrivals s schedule i j := by
  induction schedule using List.reverseRecOn generalizing i j with
  | nil => exact first.elim
  | append_singleton front h ih =>
    obtain ⟨live, run, indexed⟩ := indexed_race storage plain trip slashed noStubs attached front
    rw [race_snoc] at first second
    by_cases isI : i = h
    · subst isI
      rw [liveStep_phase_other storage rt arrivals _ distinct.symm] at second
      rcases (run.plainStep storage plain i).beforeInserted first with old | flying
      · exact (ih distinct sameKey old second).snoc i
      · rcases second with done | alsoFlying
        · exact (ih distinct.symm sameKey.symm done (Or.inr flying)).symm.snoc i
        · exact ⟨front, List.prefix_append .., flying, alsoFlying⟩
    · rw [liveStep_phase_other storage rt arrivals _ isI] at first
      by_cases isJ : j = h
      · subst isJ
        have step := run.plainStep storage plain j
        rcases second with done | flying
        · exact (ih distinct sameKey first (step.beforeInserted done)).snoc j
        · rcases step.inFlight flying with old | missed
          · exact (ih distinct sameKey first (Or.inr old)).snoc j
          · have known := indexed i first
            rw [sameKey, (live.answer_eq_none_iff (requestKey deps rt (arrivals j))).mp missed] at known
            cases known
      · rw [liveStep_phase_other storage rt arrivals _ isJ] at second
        exact (ih distinct sameKey first second).snoc h

theorem RecordOf.inserted {l : Live deps σ} {i : Nat} {e : RecordedExchange} (record : RecordOf rt arrivals l i e) :
    Inserted (l.phase i) := by
  obtain ⟨resp, finished, _⟩ := record
  rw [finished]
  trivial

theorem Ledger.owner_record {law : storage.Lawful} {log : List RecordedExchange} {l : Live deps σ}
    {added : List (Nat × RecordedExchange)} (ledger : Ledger law rt m arrivals log l added)
    (run : PlainRun arrivals l source) (trip : deps.UriRoundTrip)
    (slashed : ∀ i, (redactRequest rt.middleware (arrivals i).original).uri.Slashed) {i : Nat} {e : RecordedExchange}
    (member : (i, e) ∈ added) {k : IndexKey} (keyed : responseKey deps e = some k) :
    RecordOf rt arrivals l i e ∧ requestKey deps rt (arrivals i) = k := by
  obtain ⟨outcome, marker, e₀, finished, offer, same⟩ := ledger.finished (i, e) member
  rw [← same.responseKey] at keyed
  obtain ⟨resp, rfl, rfl⟩ := offered_response offer keyed
  refine ⟨?_, ?_⟩
  · have phase := run.phases i
    rw [finished] at phase
    rcases phase with rfl | rfl
    · simp [offered] at offer
    · exact ⟨resp, finished, same⟩
  · rw [responseKey_successExchange, recordedKey_fromParts trip (slashed i)] at keyed
    exact Option.some.inj keyed

/-- Two responses under one key stand on a medium that was empty only if the
requests behind them overlapped. -/
theorem duplicates_overlapped (law : storage.Lawful) (plain : PlainRecording rt m) (trip : deps.UriRoundTrip)
    (slashed : ∀ i, (redactRequest rt.middleware (arrivals i).original).uri.Slashed) (noStubs : s.stubs = [])
    (attached : s.replay = some source) (empty : law.Holds (s.recorder.media m) []) (schedule : List Nat) :
    ∃ log, storage.load ((race storage rt arrivals s schedule).shared.recorder.media m) = .ok log ∧
      ∀ (x y : Nat) e f k, x ≠ y → log[x]? = some e → log[y]? = some f → responseKey deps e = some k →
        responseKey deps f = some k → ∃ i j, i ≠ j ∧
          RecordOf rt arrivals (race storage rt arrivals s schedule) i e ∧
          RecordOf rt arrivals (race storage rt arrivals s schedule) j f ∧
          Overlapped storage rt arrivals s schedule i j := by
  obtain ⟨live, run⟩ := plainRun_race storage arrivals plain noStubs attached schedule
  obtain ⟨added, ledger⟩ : ∃ added, Ledger law rt m arrivals [] (race storage rt arrivals s schedule) added :=
    ledger_interleave law plain.routed empty (schedule.map .handler)
  refine ⟨added.map Prod.snd, by simpa using law.load_eq ledger.held, ?_⟩
  intro x y e f k apart atX atY keyE keyF
  rw [List.getElem?_map] at atX atY
  obtain ⟨⟨i, _⟩, inX, rfl⟩ := Option.map_eq_some_iff.mp atX
  obtain ⟨⟨j, _⟩, inY, rfl⟩ := Option.map_eq_some_iff.mp atY
  obtain ⟨recordI, keyI⟩ := ledger.owner_record run trip slashed (List.mem_of_getElem? inX) keyE
  obtain ⟨recordJ, keyJ⟩ := ledger.owner_record run trip slashed (List.mem_of_getElem? inY) keyF
  have distinct : i ≠ j := by
    rintro rfl
    refine apart ((List.getElem?_inj ?_ ledger.owners).mp ?_)
    · rw [List.length_map]
      exact (List.getElem?_eq_some_iff.mp inX).1
    · rw [List.getElem?_map, List.getElem?_map, inX, inY]
      rfl
  exact ⟨i, j, distinct, recordI, recordJ, overlapped_of_inserted plain trip slashed noStubs attached schedule distinct
    (keyI.trans keyJ.symm) recordI.inserted (Or.inl recordJ.inserted)⟩

end Races

/-- Two identical requests that both look up before either inserts: both are
forwarded, and the medium holds two responses under one key. -/
theorem concurrent_gets_recorded_twice :
    let rt := referenceRuntime [] .record
    let s : Shared referenceDeps _ := emptyShared referenceDeps fun _ => []
    let arrivals := fun _ => referenceGet referencePath (answering [1])
    let log := (race inMemoryStorage rt arrivals s [0, 0, 0, 1, 1, 1, 0, 0, 0, 1, 1, 1]).shared.recorder.media 0
    ∃ e f k, log[0]? = some e ∧ log[1]? = some f ∧ responseKey referenceDeps e = some k ∧
      responseKey referenceDeps f = some k := by
  intro rt s arrivals log
  let e := successExchange referenceDeps rt referenceStamp (arrivals 0).original ⟨.ok, .empty, [1], .http11⟩
  have both : log = [e, e] := by decide +kernel
  exact ⟨e, e, _, by rw [both]; rfl, by rw [both]; rfl, rfl, rfl⟩

theorem duplicates_overlapped_concurrent_gets :
    let rt := referenceRuntime [] .record
    let s : Shared referenceDeps _ := emptyShared referenceDeps fun _ => []
    let arrivals := fun _ => referenceGet referencePath (answering [1])
    ∃ i j, i ≠ j ∧ Overlapped inMemoryStorage rt arrivals s [0, 0, 0, 1, 1, 1, 0, 0, 0, 1, 1, 1] i j := by
  intro rt s arrivals
  let e := successExchange referenceDeps rt referenceStamp (arrivals 0).original ⟨.ok, .empty, [1], .http11⟩
  have both :
      (race inMemoryStorage rt arrivals s [0, 0, 0, 1, 1, 1, 0, 0, 0, 1, 1, 1]).shared.recorder.media 0 = [e, e] := by
    decide +kernel
  have slashed : ∀ i, (redactRequest rt.middleware (arrivals i).original).uri.Slashed := fun _ => referencePath_slashed
  obtain ⟨log, loaded, all⟩ := duplicates_overlapped (s := s) inMemoryStorage_lawful referenceRuntime_plain
    referenceDeps_uriRoundTrip slashed rfl rfl rfl [0, 0, 0, 1, 1, 1, 0, 0, 0, 1, 1, 1]
  rw [both] at loaded
  cases loaded
  obtain ⟨i, j, distinct, _, _, overlap⟩ := all 0 1 e e _ (by decide) rfl rfl rfl rfl
  exact ⟨i, j, distinct, overlap⟩

end PartlyProxy
