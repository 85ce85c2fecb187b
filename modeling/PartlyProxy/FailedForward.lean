import PartlyProxy.Sequential
import PartlyProxy.Reference

namespace PartlyProxy
variable {deps : Deps} {σ : Type}

/-- If the request reaches the upstream and the forward fails, the chain hands an
`Err` back, or what it puts in its place is not recorded: recording is off or the
chain left the `Snapshot` marker. -/
def HandsFailureOn (rt : UpstreamRuntime) (s : Shared deps σ) (a : Arrival) : Prop :=
  ∀ body req ctx resume err, a.inbound.body = .ok body →
    descend rt.middleware (a.inbound.original body) (.new a.contextId) = .next req ctx resume →
    StubStore.takeMatch s.stubs req = none →
    (∀ source, s.replay = some source → source.lookup req rt.middleware = none) →
    rt.forwarder.forward deps a.net req = .error err →
    rt.recorder.config.enabled = false ∨
      (∃ err', (resume (.error err) (ctx.stamp .upstream)).1 = .error err') ∨
      (resume (.error err) (ctx.stamp .upstream)).2.responseSource = some .snapshot

/-- Handling the request left no snapshot behind: the live index and the index of
a reload are as before, and the request the chain forwarded would be forwarded again. -/
structure LeavesNoSnapshot (storage : SnapshotStorage σ) (rt : UpstreamRuntime) (m : Nat) (s s' : Shared deps σ)
    (req : ProxyRequest) : Prop where
  index : s'.replay = s.replay
  reload : ∃ log log', storage.load (s.recorder.media m) = .ok log ∧ storage.load (s'.recorder.media m) = .ok log' ∧
    ∀ k, (ReplaySource.new deps log').entry k = (ReplaySource.new deps log).entry k
  again : ∀ net ctx, StubStore.takeMatch s'.stubs req = none →
    (invoke rt net req ctx s').2.calls = s'.calls ++ [(req, rt.forwarder.forward deps net req)]

theorem failed_call_cases {storage : SnapshotStorage σ} {rt : UpstreamRuntime} {s : Shared deps σ} {a : Arrival}
    {req : ProxyRequest} {err : ProxyError}
    (failed : (serveStep storage rt s a).calls = s.calls ++ [(req, .error err)]) :
    ∃ body ctx resume, a.inbound.body = .ok body ∧
      descend rt.middleware (a.inbound.original body) (.new a.contextId) = .next req ctx resume ∧
      StubStore.takeMatch s.stubs req = none ∧
      (∀ source, s.replay = some source → source.lookup req rt.middleware = none) ∧ rt.mode = .record ∧
      rt.forwarder.forward deps a.net req = .error err ∧
      (ending rt a s).outcome = (resume (.error err) (ctx.stamp .upstream)).1 ∧
      (ending rt a s).source = (resume (.error err) (ctx.stamp .upstream)).2.responseSource := by
  have same (calls : (ending rt a s).state.calls = s.calls) : False := by
    rw [serveStep_eq, commit_calls, calls] at failed
    simpa using congrArg List.length failed
  rcases ending_cases rt a s with untouched | ⟨body, req', ctx, resume, read, down, ended⟩
  · exact (same (by rw [untouched])).elim
  · rcases invoke_cases rt a.net req' ctx s with
      ⟨_, _, _, run⟩ | ⟨_, _, _, _, _, run⟩ | ⟨_, _, _, run⟩ | ⟨scan, missed, mode, run⟩
    · exact (same (by rw [ended, run])).elim
    · exact (same (by rw [ended, run])).elim
    · exact (same (by rw [ended, run])).elim
    · rw [serveStep_eq, commit_calls, ended, run] at failed
      simp only [List.append_cancel_left_eq, List.cons.injEq, Prod.mk.injEq, and_true] at failed
      obtain ⟨rfl, forwarded⟩ := failed
      refine ⟨body, ctx, resume, read, down, scan, missed, mode, forwarded, ?_, ?_⟩ <;> rw [ended, run, forwarded]

section
variable {storage : SnapshotStorage σ} (law : storage.Lawful) {rt : UpstreamRuntime} {m : Nat}
  (routed : rt.recorder.routes rt.name = some m)

include routed in
theorem serve_held {s : Shared deps σ} {log : List RecordedExchange} (held : law.Holds (s.recorder.media m) log)
    (arrivals : List Arrival) : ∃ log', law.Holds ((serve storage rt s arrivals).recorder.media m) log' := by
  refine Execution.exec_invariant (serveStep storage rt) (I := fun t => ∃ log', law.Holds (t.recorder.media m) log') ?_
    ⟨log, held⟩ arrivals
  rintro t a ⟨log', held'⟩
  rcases serveStep_medium law routed held' a with ⟨kept, _⟩ | ⟨_, e', _, _, grown⟩
  · exact ⟨log', kept⟩
  · exact ⟨log' ++ [e'], grown⟩

include routed in
theorem serveStep_failed_forward {s : Shared deps σ} {log : List RecordedExchange}
    (held : law.Holds (s.recorder.media m) log) {a : Arrival} (handsOn : HandsFailureOn rt s a) {req : ProxyRequest}
    {err : ProxyError} (failed : (serveStep storage rt s a).calls = s.calls ++ [(req, .error err)]) :
    LeavesNoSnapshot storage rt m s (serveStep storage rt s a) req := by
  obtain ⟨body, ctx, resume, read, down, scan, missed, mode, forwarded, isOutcome, isSource⟩ := failed_call_cases failed
  have handed := handsOn body req ctx resume err read down scan missed forwarded
  rw [← isOutcome, ← isSource] at handed
  have unpromoted : (ending rt a s).promoted rt a = none := by
    rcases handed with off | ⟨err', isError⟩ | marked
    · simp [Ending.promoted, promoted, off]
    · simp [Ending.promoted, promoted, isError]
    · simp [Ending.promoted, promoted, marked]
  have unkeyed : ∀ e, (ending rt a s).offered rt a = some e → responseKey deps e = none := by
    intro e offer
    cases keyed : responseKey deps e with
    | none => rfl
    | some k =>
      obtain ⟨resp, isOk, _⟩ := offered_response offer keyed
      rcases handed with off | ⟨err', isError⟩ | marked
      · simp [Ending.offered, offered, off] at offer
      · rw [isError] at isOk
        cases isOk
      · simp [Ending.offered, offered, isOk, marked] at offer
  have index : (serveStep storage rt s a).replay = s.replay := by
    rw [serveStep_eq, commit_replay, unpromoted]
    exact (ending_frame rt a s).1
  refine ⟨index, ?_, fun net ctx' free => ?_⟩
  · rcases serveStep_medium law routed held a with ⟨kept, _⟩ | ⟨e, e', offer, same, grown⟩
    · exact ⟨log, log, law.load_eq held, law.load_eq kept, fun _ => rfl⟩
    · refine ⟨log, log ++ [e'], law.load_eq held, law.load_eq grown, fun k => ?_⟩
      rw [ReplaySource.entry_new, ReplaySource.entry_new, first_append_same same, unkeyed e offer]
      simp
  -- The index is as it was, so the same request misses it again and is forwarded.
  · rcases invoke_cases rt net req ctx' (serveStep storage rt s a) with
      ⟨_, _, taken, _⟩ | ⟨_, source, resp, attached, hit, _⟩ | ⟨_, _, replay, _⟩ | ⟨_, _, _, run⟩
    · rw [free] at taken
      cases taken
    · rw [missed source (index ▸ attached)] at hit
      cases hit
    · rw [mode] at replay
      cases replay
    · rw [run]

include routed in
/-- In a run in which every chain hands failures on, no failed forward leaves a
snapshot behind, in the live index or on the medium. -/
theorem failed_forwards_leave_no_snapshot {s : Shared deps σ} {log : List RecordedExchange}
    (held : law.Holds (s.recorder.media m) log) (arrivals : List Arrival)
    (along : Execution.Along (serveStep storage rt) (HandsFailureOn rt) s arrivals) (front : List Arrival) (a : Arrival)
    (rest : List Arrival) (cut : arrivals = front ++ a :: rest) (req : ProxyRequest) (err : ProxyError)
    (failed : (serveStep storage rt (serve storage rt s front) a).calls =
      (serve storage rt s front).calls ++ [(req, .error err)]) :
    LeavesNoSnapshot storage rt m (serve storage rt s front) (serveStep storage rt (serve storage rt s front) a) req := by
  obtain ⟨log', held'⟩ := serve_held law routed held front
  exact serveStep_failed_forward law routed held' ((Execution.along_iff_forall_cut _).mp along front a rest cut) failed

end

theorem failed_forwards_leave_no_snapshot_refused :
    let rt := referenceRuntime [] .record
    let s : Shared referenceDeps _ := emptyShared referenceDeps fun _ => []
    let a := referenceGet referencePath fun _ => .connectError "connection refused"
    LeavesNoSnapshot inMemoryStorage rt 0 s (serveStep inMemoryStorage rt s a) a.original := by
  intro rt s a
  have handsOn : HandsFailureOn rt s a := by
    intro _ _ _ _ err _ down _ _ _
    cases down
    exact Or.inr (Or.inl ⟨err, rfl⟩)
  have failed : (serveStep inMemoryStorage rt s a).calls =
      s.calls ++ [(a.original, .error (.upstreamConnect "connect to http://up/a" (some "connection refused")))] := by
    decide +kernel
  have routed : rt.recorder.routes rt.name = some 0 := rfl
  have held : inMemoryStorage_lawful.Holds (s.recorder.media 0) [] := rfl
  exact failed_forwards_leave_no_snapshot inMemoryStorage_lawful routed held [a] ⟨handsOn, trivial⟩ [] a [] rfl _ _ failed

def recover : ProxyMiddleware where
  handle req ctx := .next req ctx fun outcome ctx =>
    match outcome with
    | .ok resp => (.ok resp, ctx)
    | .error _ => (.ok ((ProxyResponse.new .ok).withBody "recovered".toUTF8.toList), ctx)
  redactRequestForSnapshot req := req
  redactResponseForSnapshot resp := resp

/-- The recovery response carries the `Upstream` marker, so it is promoted and
recorded: the next identical request is answered from the snapshot and the
upstream is not tried again. -/
theorem recovered_failure_becomes_snapshot :
    let rt := referenceRuntime [recover] .record
    let s : Shared referenceDeps _ := emptyShared referenceDeps fun _ => []
    let a := referenceGet referencePath fun _ => .connectError "connection refused"
    let s' := serveStep inMemoryStorage rt s a
    (∃ err, s'.calls = s.calls ++ [(a.original, .error err)]) ∧ ¬ LeavesNoSnapshot inMemoryStorage rt 0 s s' a.original ∧
      (ending rt a s').source = some .snapshot ∧ (s'.recorder.media 0).map (·.outcome.asResponse.isSome) = [true] := by
  intro rt s a s'
  refine ⟨⟨.upstreamConnect "connect to http://up/a" (some "connection refused"), by decide +kernel⟩, ?_, by decide +kernel,
    by decide +kernel⟩
  intro quiet
  have hit : (s'.replay.bind fun live => live.lookup a.original [recover]).isSome := by decide +kernel
  rw [quiet.index] at hit
  exact absurd hit (by decide +kernel)

end PartlyProxy
