import PartlyProxy.Concurrent

namespace PartlyProxy
variable {deps : Deps} {σ : Type}

/-- No handler is between two of its steps. -/
def Quiescent (l : Live deps σ) : Prop :=
  ∀ i, l.phase i = .arrived ∨ ∃ outcome source, l.phase i = .done outcome source

/-- A response that is about to be recorded is not the first of its key on the
medium, or it is the response the live index has under the key. -/
def RecordsWinner (storage : SnapshotStorage σ) (m : Nat) (l : Live deps σ) : Move → Prop
  | .handler i =>
    match l.phase i with
    | .recording _ _ e =>
      ∀ k, responseKey deps e = some k →
        HoldsKey deps storage (l.shared.recorder.media m) k ∨
        ∃ live winner, l.shared.replay = some live ∧ live.entry k = some winner ∧ winner.outcome = e.outcome
    | _ => True
  | _ => True

/-- How the live index and the medium agree while handlers are in flight: what
the index has is on the medium or about to be recorded, and the first response
on the medium under a key is the one in the index. -/
structure Agreement (m : Nat) (l : Live deps σ) (log : List RecordedExchange) (live : ReplaySource deps) : Prop where
  attached : l.shared.replay = some live
  pending : ∀ k e, live.entry k = some e →
    (∃ i outcome source e₀, l.phase i = .recording outcome source e₀ ∧ responseKey deps e₀ = some k) ∨
      (KeyedLog.first (responseKey deps) log k).isSome
  logged : ∀ k e', KeyedLog.first (responseKey deps) log k = some e' →
    ∃ e, live.entry k = some e ∧ e.outcome = e'.outcome

section
variable {storage : SnapshotStorage σ} {law : storage.Lawful} {rt : UpstreamRuntime} {m : Nat}
  {arrivals : Nat → Arrival} {log : List RecordedExchange} {l : Live deps σ} {live : ReplaySource deps}

theorem Agreement.quiescent (agree : Agreement m l log live) (quiet : Quiescent l) (k : IndexKey) :
    live.answer k = (ReplaySource.new deps log).answer k := by
  cases logged : KeyedLog.first (responseKey deps) log k with
  | some e' =>
    obtain ⟨e, found, same⟩ := agree.logged k e' logged
    simp only [ReplaySource.answer, found, ReplaySource.entry_new, logged, Option.bind_some, same]
  | none =>
    have absent : live.entry k = none := by
      cases found : live.entry k with
      | none => rfl
      | some e =>
        rcases agree.pending k e found with ⟨i, _, _, _, at_, _⟩ | onMedium
        · rcases quiet i with rest | ⟨_, _, rest⟩ <;> rw [rest] at at_ <;> cases at_
        · rw [logged] at onMedium
          cases onMedium
    simp only [ReplaySource.answer, absent, ReplaySource.entry_new, logged]

/-- A step that writes neither the index nor the medium keeps the agreement,
unless it leaves the record step behind. -/
theorem Agreement.other_step (agree : Agreement m l log live) (move : Move)
    (index : (liveStep storage rt arrivals l move).shared.replay = l.shared.replay)
    (still : ∀ i outcome source e, l.phase i = .recording outcome source e →
      (liveStep storage rt arrivals l move).phase i = .recording outcome source e) :
    Agreement m (liveStep storage rt arrivals l move) log live := by
  refine ⟨index.trans agree.attached, fun k e found => ?_, agree.logged⟩
  rcases agree.pending k e found with ⟨i, outcome, source, e₀, at_, keyed⟩ | onMedium
  · exact Or.inl ⟨i, outcome, source, e₀, still i outcome source e₀ at_, keyed⟩
  · exact Or.inr onMedium

theorem liveStep_recording {i : Nat} (elsewhere : ∀ outcome source e, l.phase i ≠ .recording outcome source e) (j : Nat)
    (outcome : Outcome) (source : Option ResponseSource) (e : RecordedExchange)
    (at_ : l.phase j = .recording outcome source e) :
    (liveStep storage rt arrivals l (.handler i)).phase j = .recording outcome source e := by
  by_cases same : j = i
  · subst same
    exact absurd at_ (elsewhere outcome source e)
  · rw [liveStep_phase_other storage rt arrivals l same, at_]

variable (storage rt arrivals) in
theorem Agreement.insert_step (agree : Agreement m l log live) {i : Nat} {outcome : Outcome}
    {source : Option ResponseSource} (at_ : l.phase i = .ended outcome source) :
    ∃ live', Agreement m (liveStep storage rt arrivals l (.handler i)) log live' := by
  have index := advance_replay storage rt (arrivals i) l.shared (l.phase i)
  have elsewhere : ∀ outcome source e, l.phase i ≠ .recording outcome source e := by
    intro _ _ _ clash
    rw [at_] at clash
    cases clash
  simp only [at_] at index
  cases promotion : promoted deps rt (arrivals i).stamp (arrivals i).original outcome source with
  | none =>
    rw [promotion] at index
    refine ⟨live, agree.other_step (.handler i) ?_ (liveStep_recording elsewhere)⟩
    simp only [liveStep, at_]
    exact index
  | some e =>
    obtain ⟨offer, _⟩ := promoted_offered promotion
    have next : (liveStep storage rt arrivals l (.handler i)).phase i = .recording outcome source e := by
      simp [liveStep, at_, advance, offer]
    rw [promotion, insertPromoted, agree.attached] at index
    refine ⟨live.insert e, ?_, fun k found stored => ?_, fun k e' logged => ?_⟩
    · simp only [liveStep, at_]
      exact index
    · rw [ReplaySource.entry_insert, KeyedLog.first_singleton] at stored
      cases old : live.entry k with
      | some e₁ =>
        rcases agree.pending k e₁ old with ⟨j, outcome', source', e₀, atJ, keyed⟩ | onMedium
        · exact Or.inl ⟨j, outcome', source', e₀, liveStep_recording elsewhere j _ _ _ atJ, keyed⟩
        · exact Or.inr onMedium
      | none =>
        rw [old, Option.none_or] at stored
        split at stored
        · rename_i keyed
          exact Or.inl ⟨i, outcome, source, e, next, keyed⟩
        · cases stored
    · obtain ⟨e₁, found, same⟩ := agree.logged k e' logged
      exact ⟨e₁, ReplaySource.entry_insert_of_some found e, same⟩

variable (rt arrivals) in
theorem Agreement.record_step (agree : Agreement m l log live) (held : law.Holds (l.shared.recorder.media m) log)
    {i : Nat} {outcome : Outcome} {source : Option ResponseSource} {e e' : RecordedExchange}
    (at_ : l.phase i = .recording outcome source e) (same : e.SameReplay e')
    (winner : RecordsWinner storage m l (.handler i)) :
    Agreement m (liveStep storage rt arrivals l (.handler i)) (log ++ [e']) live := by
  have index := advance_replay storage rt (arrivals i) l.shared (l.phase i)
  simp only [at_] at index
  simp only [RecordsWinner, at_] at winner
  refine ⟨?_, fun k e₁ found => ?_, fun k e₁ logged => ?_⟩
  · simp only [liveStep, at_]
    exact index.trans agree.attached
  · rw [first_append_same same]
    by_cases keyed : responseKey deps e = some k
    -- The key of the new entry is on the medium now, whoever inserted it.
    · exact Or.inr (by rw [if_pos keyed]; cases KeyedLog.first (responseKey deps) log k <;> rfl)
    · rw [if_neg keyed, Option.or_none]
      rcases agree.pending k e₁ found with ⟨j, outcome', source', e₀, atJ, keyed'⟩ | onMedium
      · refine Or.inl ⟨j, outcome', source', e₀, ?_, keyed'⟩
        by_cases isI : j = i
        · subst isI
          rw [at_] at atJ
          cases atJ
          exact absurd keyed' keyed
        · rw [liveStep_phase_other storage rt arrivals l isI, atJ]
      · exact Or.inr onMedium
  · rw [first_append_same same] at logged
    cases old : KeyedLog.first (responseKey deps) log k with
    | some e₂ =>
      rw [old, Option.some_or] at logged
      exact agree.logged k e₁ (old.trans logged)
    | none =>
      rw [old, Option.none_or] at logged
      split at logged
      · rename_i keyed
        cases logged
        -- The new entry is the first of its key, so it must be the one the index has.
        rcases winner k keyed with holds | ⟨live', first, attached, found, sameOutcome⟩
        · exact absurd old ((holdsKey_iff law held k).mp holds)
        · rw [agree.attached] at attached
          cases attached
          exact ⟨first, found, sameOutcome.trans same.2⟩
      · cases logged

theorem Agreement.step {added : List (Nat × RecordedExchange)} (ledger : Ledger law rt m arrivals log l added)
    (agree : Agreement m l (log ++ added.map Prod.snd) live) (routed : rt.recorder.routes rt.name = some m)
    (accepts : ∀ state e, (storage.append state e).1 = .ok ()) {move : Move} (winner : RecordsWinner storage m l move) :
    ∃ added' live', Ledger law rt m arrivals log (liveStep storage rt arrivals l move) added' ∧
      Agreement m (liveStep storage rt arrivals l move) (log ++ added'.map Prod.snd) live' := by
  rcases ledger.step routed move with ⟨nothing, kept⟩ | ⟨i, e', ⟨outcome, source, e, rfl, at_, _, same⟩, grown⟩
  · cases move with
    | stub entry => exact ⟨added, live, kept, agree.other_step _ rfl fun _ _ _ _ => id⟩
    | clearStubs => exact ⟨added, live, kept, agree.other_step _ rfl fun _ _ _ _ => id⟩
    | handler i =>
      have index := advance_replay storage rt (arrivals i) l.shared (l.phase i)
      cases at_ : l.phase i with
      | recording outcome source e => exact absurd ⟨outcome, source, e, rfl, at_, accepts _ _, rfl, rfl⟩ (nothing i e)
      | ended outcome source =>
        obtain ⟨live', next⟩ := agree.insert_step storage rt arrivals at_
        exact ⟨added, live', kept, next⟩
      | _ =>
        simp only [at_] at index
        refine ⟨added, live, kept, agree.other_step _ (by simp only [liveStep, at_]; exact index) ?_⟩
        exact liveStep_recording (by simp [at_])
  · refine ⟨added ++ [(i, e')], live, grown, ?_⟩
    have next := agree.record_step rt arrivals ledger.held at_ same winner
    simpa using next

variable (law) in
/-- In a run in which every first response of its key on the medium is the one
the live index has, the live index answers every request as a reload of the
medium would, whenever no handler is in flight. -/
theorem live_index_matches_reload (routed : rt.recorder.routes rt.name = some m)
    (accepts : ∀ state e, (storage.append state e).1 = .ok ()) {media : Nat → σ} {s : Shared deps σ}
    (opened : openShared deps storage (some m) media = .ok s) (held : law.Holds (media m) log) (moves : List Move)
    (along : Execution.Along (liveStep storage rt arrivals) (RecordsWinner storage m) (.start s) moves)
    (quiet : Quiescent (interleave storage rt arrivals (.start s) moves)) :
    ∃ live reloaded source, (interleave storage rt arrivals (.start s) moves).shared.replay = some live ∧
      openShared deps storage (some m) (interleave storage rt arrivals (.start s) moves).shared.recorder.media =
        .ok reloaded ∧
      reloaded.replay = some source ∧ ∀ req, live.lookup req rt.middleware = source.lookup req rt.middleware := by
  obtain ⟨exchanges, loaded, rfl⟩ := openShared_eq_ok.mp opened
  rw [law.load_eq held] at loaded
  cases loaded
  obtain ⟨added, live, ledger, agree⟩ := Execution.exec_invariant_along (liveStep storage rt arrivals)
    (I := fun l => ∃ added live, Ledger law rt m arrivals log l added ∧ Agreement m l (log ++ added.map Prod.snd) live)
    (fun l move winner ⟨added, live, ledger, agree⟩ => agree.step ledger routed accepts winner)
    ⟨[], .new deps log, ledger_start held, rfl, fun k e found => Or.inr (by simp [← ReplaySource.entry_new, found]),
      fun k e' logged => ⟨e', by simpa [ReplaySource.entry_new] using logged, rfl⟩⟩ along
  exact ⟨live, _, _, agree.attached, openShared_eq_ok.mpr ⟨_, law.load_eq ledger.held, rfl⟩, rfl,
    fun req => agree.quiescent quiet _⟩

end

/-- The upstream answers requests that share a key alike, up to redaction. -/
def SameAnswers (deps : Deps) (rt : UpstreamRuntime) (arrivals : Nat → Arrival) : Prop :=
  ∀ i j resp resp', rt.forwarder.forward deps (arrivals i).net (arrivals i).original = .ok resp →
    rt.forwarder.forward deps (arrivals j).net (arrivals j).original = .ok resp' →
    responseKey deps (successExchange deps rt (arrivals i).stamp (arrivals i).original resp) =
      responseKey deps (successExchange deps rt (arrivals j).stamp (arrivals j).original resp') →
    RecordedResponse.fromParts (redactResponse rt.middleware resp) =
      RecordedResponse.fromParts (redactResponse rt.middleware resp')

def AnswerOf (deps : Deps) (rt : UpstreamRuntime) (a : Arrival) (e : RecordedExchange) : Prop :=
  ∃ resp, rt.forwarder.forward deps a.net a.original = .ok resp ∧ e = successExchange deps rt a.stamp a.original resp

/-- What is on the way to the index and the medium is what the upstream answered,
and what is about to be recorded has a winner in the index. -/
def OnTheWay (rt : UpstreamRuntime) (a : Arrival) (live : ReplaySource deps) : Phase → Prop
  | .ended (.ok resp) (some .upstream) => rt.forwarder.forward deps a.net a.original = .ok resp
  | .recording (.ok _) _ e => AnswerOf deps rt a e ∧ ∀ k, responseKey deps e = some k → (live.entry k).isSome
  | .recording (.error _) _ e => responseKey deps e = none
  | _ => True

section Deterministic
variable {storage : SnapshotStorage σ} {rt : UpstreamRuntime} {m : Nat} {arrivals : Nat → Arrival} {s : Shared deps σ}

theorem OnTheWay.grows {a : Arrival} {live live' : ReplaySource deps} {p : Phase} (way : OnTheWay rt a live p)
    (grows : ∀ k e, live.entry k = some e → live'.entry k = some e) : OnTheWay rt a live' p := by
  unfold OnTheWay at way ⊢
  split
  · simpa using way
  · refine ⟨way.1, fun k keyed => ?_⟩
    obtain ⟨e, found⟩ := Option.isSome_iff_exists.mp (way.2 k keyed)
    exact Option.isSome_iff_exists.mpr ⟨e, grows k e found⟩
  · simpa using way
  · trivial

theorem PlainStep.onTheWay {a : Arrival} {live : ReplaySource deps} {p p' : Phase} {s' : Shared deps σ}
    (step : PlainStep storage rt a live s p p' s') (attached : s.replay = some live) (way : OnTheWay rt a live p)
    {live' : ReplaySource deps} (attached' : s'.replay = some live') :
    OnTheWay rt a live' p' ∧ ∀ k e, live'.entry k = some e → live.entry k = some e ∨ AnswerOf deps rt a e := by
  have same (unchanged : s'.replay = s.replay) : live' = live := by
    rw [unchanged, attached] at attached'
    exact (Option.some.inj attached').symm
  cases step with
  | @promote resp =>
    cases Option.some.inj attached'
    refine ⟨⟨⟨resp, way, rfl⟩, fun k keyed => ?_⟩, fun k e found => ?_⟩
    · rw [ReplaySource.entry_insert, KeyedLog.first_singleton, if_pos keyed]
      cases live.entry k <;> rfl
    · rw [ReplaySource.entry_insert, KeyedLog.first_singleton] at found
      cases old : live.entry k with
      | some e₁ =>
        rw [old, Option.some_or] at found
        exact Or.inl found
      | none =>
        rw [old, Option.none_or] at found
        split at found
        · exact Or.inr ⟨resp, way, (Option.some.inj found).symm⟩
        · cases found
  | forward =>
    rw [same rfl]
    refine ⟨?_, fun _ _ => Or.inl⟩
    cases answered : rt.forwarder.forward deps a.net a.original with
    | error err => trivial
    | ok resp => exact answered
  | fail => rw [same rfl]; exact ⟨rfl, fun _ _ => Or.inl⟩
  | _ => rw [same rfl]; exact ⟨trivial, fun _ _ => Or.inl⟩

variable (storage arrivals) in
theorem onTheWay_race (plain : PlainRecording rt m) (noStubs : s.stubs = []) {source : ReplaySource deps}
    (attached : s.replay = some source) (empty : ∀ k, source.entry k = none) (schedule : List Nat) :
    ∃ live, PlainRun arrivals (race storage rt arrivals s schedule) live ∧
      (∀ i, OnTheWay rt (arrivals i) live ((race storage rt arrivals s schedule).phase i)) ∧
      ∀ k e, live.entry k = some e → ∃ i, AnswerOf deps rt (arrivals i) e := by
  induction schedule using List.reverseRecOn with
  | nil =>
    refine ⟨source, ⟨noStubs, attached, fun _ => trivial⟩, fun _ => trivial, fun k e found => ?_⟩
    rw [empty k] at found
    cases found
  | append_singleton front i ih =>
    obtain ⟨live, run, ways, origins⟩ := ih
    rw [race_snoc]
    obtain ⟨live', run', grows⟩ := run.step storage plain i
    obtain ⟨way, entries⟩ := (run.plainStep storage plain i).onTheWay run.attached (ways i) run'.attached
    refine ⟨live', run', fun j => ?_, fun k e found => ?_⟩
    · by_cases same : j = i
      · subst same
        exact way
      · rw [liveStep_phase_other storage rt arrivals _ same]
        exact (ways j).grows grows
    · rcases entries k e found with old | new
      · exact origins k e old
      · exact ⟨i, new⟩

/-- Where the upstream answers requests with one key alike, no race makes the
medium and the index disagree. -/
theorem recordsWinner_race (plain : PlainRecording rt m) (noStubs : s.stubs = []) {source : ReplaySource deps}
    (attached : s.replay = some source) (empty : ∀ k, source.entry k = none) (alike : SameAnswers deps rt arrivals)
    (schedule : List Nat) :
    Execution.Along (liveStep storage rt arrivals) (RecordsWinner storage m) (.start s) (schedule.map .handler) := by
  rw [Execution.along_iff_forall_cut]
  intro front move back cut
  obtain ⟨before, rest, _, rfl, isRest⟩ := List.map_eq_append_iff.mp cut
  obtain ⟨i, _, _, rfl, _⟩ := List.map_eq_cons_iff.mp isRest
  obtain ⟨live, run, ways, origins⟩ := onTheWay_race storage arrivals plain noStubs attached
    empty before
  change RecordsWinner storage m (race storage rt arrivals s before) (.handler i)
  simp only [RecordsWinner]
  split
  · rename_i outcome source e at_
    intro k keyed
    have way := ways i
    rw [at_] at way
    cases outcome with
    | error err =>
      rw [show responseKey deps e = none from way] at keyed
      cases keyed
    | ok resp =>
      obtain ⟨⟨answer, answered, rfl⟩, known⟩ := way
      obtain ⟨winner, found⟩ := Option.isSome_iff_exists.mp (known k keyed)
      obtain ⟨j, answer', answered', rfl⟩ := origins k winner found
      have same := alike j i answer' answer answered' answered ((ReplaySource.entry_key found).trans keyed.symm)
      exact Or.inr ⟨live, _, run.attached, found, congrArg ExchangeOutcome.response same⟩
  · trivial

end Deterministic

theorem live_index_matches_reload_get :
    let rt := referenceRuntime [] .record
    let s : Shared referenceDeps _ := emptyShared referenceDeps fun _ => []
    let arrivals := fun _ => referenceGet referencePath (answering [1])
    let l := race inMemoryStorage rt arrivals s (List.replicate 6 0)
    ∃ live reloaded source, l.shared.replay = some live ∧
      openShared referenceDeps inMemoryStorage (some 0) l.shared.recorder.media = .ok reloaded ∧
      reloaded.replay = some source ∧ ∀ req, live.lookup req [] = source.lookup req [] := by
  intro rt s arrivals l
  have along : Execution.Along (liveStep inMemoryStorage rt arrivals) (RecordsWinner inMemoryStorage 0) (.start s)
      ((List.replicate 6 0).map .handler) := by
    refine recordsWinner_race referenceRuntime_plain rfl rfl (fun k => by rw [ReplaySource.entry_new]; rfl) ?_ _
    intro i j resp resp' answered answered' _
    rw [Except.ok.inj (answered.symm.trans answered')]
  have quiet : Quiescent l := by
    intro i
    by_cases isZero : i = 0
    · subst isZero
      exact Or.inr (race_done _ _ _ _ (by decide))
    · exact Or.inl (race_arrived _ _ _ _ (by simpa using isZero))
  let media : Nat → List RecordedExchange := fun _ => []
  have routed : rt.recorder.routes rt.name = some 0 := rfl
  have opened : openShared referenceDeps inMemoryStorage (some 0) media = .ok s := rfl
  have held : inMemoryStorage_lawful.Holds (media 0) [] := rfl
  exact live_index_matches_reload inMemoryStorage_lawful routed (fun _ _ => rfl) opened held _ along quiet

/-- Two racing requests with different answers: the first to insert is the second
to record, so the live index and a reload answer differently. -/
theorem racing_inserts_disagree :
    let rt := referenceRuntime [] .record
    let s : Shared referenceDeps _ := emptyShared referenceDeps fun _ => []
    let arrivals := fun i => referenceGet referencePath (answering [if i = 0 then 1 else 2])
    let l := race inMemoryStorage rt arrivals s [0, 0, 0, 0, 1, 1, 1, 1, 0, 1, 1, 0]
    Quiescent l ∧ ∃ live reloaded source, l.shared.replay = some live ∧
      openShared referenceDeps inMemoryStorage (some 0) l.shared.recorder.media = .ok reloaded ∧
      reloaded.replay = some source ∧
      live.lookup (arrivals 0).original [] ≠ source.lookup (arrivals 0).original [] := by
  intro rt s arrivals l
  refine ⟨fun i => ?_, ?_⟩
  · by_cases isZero : i = 0
    · subst isZero
      exact Or.inr (race_done _ _ _ _ (by decide))
    · by_cases isOne : i = 1
      · subst isOne
        exact Or.inr (race_done _ _ _ _ (by decide))
      · exact Or.inl (race_arrived _ _ _ _ (by simp [isZero, isOne]))
  · have live : (l.shared.replay.bind fun live => live.lookup (arrivals 0).original []) =
        some ⟨.ok, .empty, [1], .http11⟩ := by decide +kernel
    have reload : (ReplaySource.new referenceDeps (l.shared.recorder.media 0)).lookup (arrivals 0).original [] =
        some ⟨.ok, .empty, [2], .http11⟩ := by decide +kernel
    obtain ⟨index, attached, answers⟩ := Option.bind_eq_some_iff.mp live
    refine ⟨index, _, _, attached, openShared_eq_ok.mpr ⟨_, rfl, rfl⟩, rfl, ?_⟩
    rw [answers, reload]
    decide

end PartlyProxy
