import PartlyProxy.Sequential
import PartlyProxy.Reference

namespace PartlyProxy
variable {deps : Deps} {σ : Type}

/-- Nothing of a run reached the medium or the ring, so an upstream opened on the
medium afterwards has the replay source it would have had before. -/
structure Unrecorded (storage : SnapshotStorage σ) (m : Nat) (before after : Shared deps σ) : Prop where
  contents : storage.load (after.recorder.media m) = storage.load (before.recorder.media m)
  ring : after.recorder.buffer = before.recorder.buffer
  reopened : (openShared deps storage (some m) after.recorder.media).map Shared.replay =
    (openShared deps storage (some m) before.recorder.media).map Shared.replay

def KeepsSnapshot (ended : Outcome × RequestContext) : Prop :=
  ∃ resp, ended.1 = .ok resp ∧ ended.2.responseSource = some .snapshot

/-- The request is answered from the snapshot: in the state before it, what the
chain makes of the stub's, the snapshot's or the miss handler's response, or what
it returns without asking, is a response that carries the `Snapshot` marker. -/
def AnsweredFromSnapshot (rt : UpstreamRuntime) (s : Shared deps σ) (a : Arrival) : Prop :=
  ∃ body, a.inbound.body = .ok body ∧
    match descend rt.middleware (a.inbound.original body) (.new a.contextId) with
    | .ret outcome ctx => KeepsSnapshot (outcome, ctx)
    | .next req ctx resume =>
      match StubStore.takeMatch s.stubs req, s.replay.bind fun source => source.lookup req rt.middleware with
      | some (response, _), _ => KeepsSnapshot (resume (.ok response.intoProxy) (ctx.stamp .stub))
      | none, some resp => KeepsSnapshot (resume (.ok resp) (ctx.stamp .snapshot))
      | none, none => KeepsSnapshot (resume (.ok (rt.replayMissHandler req)) (ctx.stamp .replayMiss))

def LeavesNoRecord (rt : UpstreamRuntime) (s : Shared deps σ) (a : Arrival) : Prop :=
  rt.recorder.config.enabled = false ∨ AnsweredFromSnapshot rt s a

theorem ending_keepsSnapshot_iff {rt : UpstreamRuntime} (replay : rt.mode = .replay) (s : Shared deps σ) (a : Arrival) :
    (∃ resp, (ending rt a s).outcome = .ok resp ∧ (ending rt a s).source = some .snapshot) ↔
      AnsweredFromSnapshot rt s a := by
  unfold AnsweredFromSnapshot ending
  cases read : a.inbound.body with
  | error text => simp
  | ok body =>
    simp only [Except.ok.injEq, exists_eq_left', chainOutcome, runChain_eq_descend]
    cases descend rt.middleware (a.inbound.original body) (.new a.contextId) with
    | ret outcome ctx => rfl
    | next req ctx resume =>
      simp only [invoke, lookupOrMiss, replay]
      cases StubStore.takeMatch s.stubs req with
      | some found => rfl
      | none => cases s.replay.bind fun source => source.lookup req rt.middleware <;> rfl

theorem offered_eq_none_iff {rt : UpstreamRuntime} {stamp : Stamp} {original : ProxyRequest} {outcome : Outcome}
    {source : Option ResponseSource} :
    offered deps rt stamp original outcome source = none ↔
      rt.recorder.config.enabled = false ∨ ∃ resp, outcome = .ok resp ∧ source = some .snapshot := by
  unfold offered
  cases rt.recorder.config.enabled <;> cases outcome <;> simp

theorem leavesNoRecord_iff {rt : UpstreamRuntime} (replay : rt.mode = .replay) (s : Shared deps σ) (a : Arrival) :
    LeavesNoRecord rt s a ↔ (ending rt a s).offered rt a = none := by
  rw [Ending.offered, offered_eq_none_iff, ending_keepsSnapshot_iff replay]
  rfl

theorem serveStep_recorder {storage : SnapshotStorage σ} {rt : UpstreamRuntime} {s : Shared deps σ} {a : Arrival}
    (quiet : (ending rt a s).offered rt a = none) : (serveStep storage rt s a).recorder = s.recorder := by
  rw [serveStep_eq, commit_recorder, quiet]
  exact (ending_frame rt a s).2

section
variable {storage : SnapshotStorage σ} (law : storage.Lawful) {rt : UpstreamRuntime} {m : Nat}
  (routed : rt.recorder.routes rt.name = some m) (accepts : ∀ state e, (storage.append state e).1 = .ok ())

include routed accepts in
theorem serveStep_log {s : Shared deps σ} {log : List RecordedExchange}
    (held : law.Holds (s.recorder.media m) log) (a : Arrival) :
    ∃ added, law.Holds ((serveStep storage rt s a).recorder.media m) (log ++ added) ∧
      (added = [] → (ending rt a s).offered rt a = none) := by
  rcases serveStep_medium law routed held a with ⟨kept, nothing | ⟨e, err, _, refused⟩⟩ | ⟨e, e', _, _, grown⟩
  · exact ⟨[], by simpa using kept, fun _ => nothing⟩
  · rw [accepts] at refused
    cases refused
  · exact ⟨[e'], grown, by simp⟩

include routed accepts in
theorem serve_log {s : Shared deps σ} {log : List RecordedExchange} (held : law.Holds (s.recorder.media m) log)
    (arrivals : List Arrival) :
    ∃ added, law.Holds ((serve storage rt s arrivals).recorder.media m) (log ++ added) ∧
      (added = [] →
        Execution.Along (serveStep storage rt) (fun s a => (ending rt a s).offered rt a = none) s arrivals) := by
  induction arrivals generalizing s log with
  | nil => exact ⟨[], by simpa [serve] using held, fun _ => trivial⟩
  | cons a rest ih =>
    obtain ⟨here, grown, quiet⟩ := serveStep_log law routed accepts held a
    obtain ⟨added, final, still⟩ := ih grown
    refine ⟨here ++ added, by simpa [serve] using final, fun nothing => ?_⟩
    obtain ⟨noneHere, noneLater⟩ := List.append_eq_nil_iff.mp nothing
    exact ⟨quiet noneHere, still noneLater⟩

include routed in
/-- An upstream in `Mode::Replay` leaves its medium and the ring as they were when
every request of the run leaves no record, and on a medium that refuses nothing
only then: the mode itself keeps no stub answer, miss, short-circuit or failure
from being recorded. -/
theorem replay_mode_unrecorded_iff (replay : rt.mode = .replay) {s : Shared deps σ} {log : List RecordedExchange}
    (held : law.Holds (s.recorder.media m) log) (arrivals : List Arrival) :
    (Execution.Along (serveStep storage rt) (LeavesNoRecord rt) s arrivals →
      Unrecorded storage m s (serve storage rt s arrivals)) ∧
    ((∀ state e, (storage.append state e).1 = .ok ()) →
      Unrecorded storage m s (serve storage rt s arrivals) →
      Execution.Along (serveStep storage rt) (LeavesNoRecord rt) s arrivals) := by
  constructor
  · intro along
    have kept : (serve storage rt s arrivals).recorder = s.recorder := by
      refine Execution.exec_invariant_along (serveStep storage rt) (I := fun t => t.recorder = s.recorder) ?_ rfl along
      intro t a quiet same
      rw [serveStep_recorder ((leavesNoRecord_iff replay t a).mp quiet), same]
    exact ⟨by rw [kept], by rw [kept], by rw [kept]⟩
  · intro accepts unrecorded
    obtain ⟨added, final, quiet⟩ := serve_log law routed accepts held arrivals
    have same := unrecorded.contents
    rw [law.load_eq final, law.load_eq held] at same
    refine Execution.Along.imp (serveStep storage rt) ?_ (quiet (by simpa using same))
    intro t a none_
    exact (leavesNoRecord_iff replay t a).mpr none_

end

theorem replay_mode_unrecorded_iff_hit :
    let rt := referenceRuntime [] .replay
    let a := referenceGet referencePath (answering [])
    let log := [successExchange referenceDeps rt referenceStamp a.original (.new .ok)]
    let s : Shared referenceDeps _ := ⟨[], some (.new _ log), ⟨[], fun _ => log⟩, []⟩
    LeavesNoRecord rt s a ∧ Unrecorded inMemoryStorage 0 s (serve inMemoryStorage rt s [a]) := by
  intro rt a log s
  have hit : LeavesNoRecord rt s a :=
    Or.inr ((ending_keepsSnapshot_iff rfl s a).mp ⟨.new .ok, by decide, by decide⟩)
  have replay : rt.mode = .replay := rfl
  have routed : rt.recorder.routes rt.name = some 0 := rfl
  have held : inMemoryStorage_lawful.Holds (s.recorder.media 0) log := rfl
  have holds := replay_mode_unrecorded_iff inMemoryStorage_lawful routed replay held [a]
  exact ⟨hit, holds.1 ⟨hit, trivial⟩⟩

/-- With the defaults of the builder a replay miss lands on the medium and in the
ring, and the next run answers the same request from the snapshot. -/
theorem replay_mode_records_miss :
    let builder := ProxyClusterBuilder.new.addUpstreamWithMode "api" referenceTarget [] (some 0) .replay
    let a := referenceGet referencePath (answering [])
    ∃ rt s, builder.run referenceDeps inMemoryStorage (fun _ => []) = .ok [(rt, s)] ∧ rt.mode = .replay ∧
      ¬ Unrecorded inMemoryStorage 0 s (serve inMemoryStorage rt s [a]) ∧
      (ending rt a s).source = some .replayMiss ∧
      ∃ s', openShared referenceDeps inMemoryStorage (some 0) (serve inMemoryStorage rt s [a]).recorder.media = .ok s' ∧
        (ending rt a s').source = some .snapshot := by
  intro builder a
  refine ⟨_, emptyShared referenceDeps fun _ => [], ProxyClusterBuilder.run_single rfl rfl forwarder_new_reference, rfl,
    ?_, by decide, _, openShared_eq_ok.mpr ⟨_, rfl, rfl⟩, by decide⟩
  intro unrecorded
  exact absurd (congrArg List.length unrecorded.ring) (by decide)

end PartlyProxy
