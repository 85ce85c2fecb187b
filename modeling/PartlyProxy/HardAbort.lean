import PartlyProxy.Accounting
import PartlyProxy.Isolation

namespace PartlyProxy
variable {deps : Deps} {σ : Type}

/-- The handler has returned: there is nothing left to drop. -/
def RequestPhase.isDone : RequestPhase → Bool
  | .handling (.done _ _) => true
  | _ => false

namespace Cluster

/-- A cluster whose requests can be cut off: their connection is hard-aborted, or the
client goes away, and the handler is dropped at an await point. -/
structure CutCluster (deps : Deps) (σ : Type) extends Cluster deps σ where
  cut : String → Nat → Bool

/-- A move of the cluster, or the end of a request. A request that is cut off while it
records can leave its medium in any state `left`: its append was on the way. -/
inductive CutMove (σ : Type) where
  | step (move : ClusterMove)
  | cut (upstream : String) (i : Nat) (left : σ)

/-- The media after a handler was dropped at a phase. -/
def mediaLeft (rec : Recorder) (left : σ) (media : Nat → σ) : RequestPhase → Nat → σ
  | .handling (.recording _ _ exchange) =>
    match rec.config.enabled, rec.medium exchange with
    | true, some m => Function.update media m left
    | _, _ => media
  | _ => media

/-- Request `i` of `u` joins the requests marked so far. -/
def mark (marked : String → Nat → Bool) (u : String) (i : Nat) : String → Nat → Bool :=
  Function.update marked u (Function.update (marked u) i true)

theorem mark_iff {marked : String → Nat → Bool} {u v : String} {i j : Nat} :
    mark marked u i v j = true ↔ (v, j) = (u, i) ∨ marked v j = true := by
  by_cases here : v = u
  · subst here
    by_cases later : j = i
    · subst later
      simp [mark]
    · simp [mark, later]
  · simp [mark, here]

namespace CutCluster

def step (storage : SnapshotStorage σ) (reg : UpstreamRegistry) (arrivals : String → Nat → Arrival)
    (c : CutCluster deps σ) : CutMove σ → CutCluster deps σ
  | .step (.request u i) =>
    if c.cut u i then c else { c with toCluster := c.toCluster.step storage reg arrivals (.request u i) }
  | .step (.command cmd) => { c with toCluster := c.toCluster.step storage reg arrivals (.command cmd) }
  | .cut u i left =>
    if c.cut u i || (c.phase u i).isDone then c
    else
      { c with
        recorder := { c.recorder with media := mediaLeft reg.recorder left c.recorder.media (c.phase u i) }
        cut := mark c.cut u i }

def run (storage : SnapshotStorage σ) (reg : UpstreamRegistry) (arrivals : String → Nat → Arrival)
    (s : ClusterState deps σ) (moves : List (CutMove σ)) : CutCluster deps σ :=
  Execution.exec (step storage reg arrivals) ⟨start s, fun _ _ => false⟩ moves

end CutCluster

/-- The schedule in which nothing is dropped, but a request that is `stopped`, or would be
cut off, is not scheduled again from there on. -/
def scheduled (stopped : String → Nat → Bool) : List (CutMove σ) → List ClusterMove
  | [] => []
  | .step (.request u i) :: rest =>
    if stopped u i then scheduled stopped rest else .request u i :: scheduled stopped rest
  | .step (.command cmd) :: rest => .command cmd :: scheduled stopped rest
  | .cut u i _ :: rest => scheduled (mark stopped u i) rest

/-- Two clusters that differ in what their media hold, and in nothing else. -/
structure SameButMedia (c c' : Cluster deps σ) : Prop where
  upstream : c.upstream = c'.upstream
  buffer : c.recorder.buffer = c'.recorder.buffer
  phase : c.phase = c'.phase
  pushes : c.pushes = c'.pushes

section Steps
variable {storage : SnapshotStorage σ} {reg : UpstreamRegistry} {arrivals : String → Nat → Arrival}
  {c c' : Cluster deps σ}

/-- On media that accept everything, what is in them does not show in the ring. -/
theorem record_buffer_congr (accepts : ∀ state e, (storage.append state e).1 = .ok ()) (rec : Recorder)
    {s s' : RecorderState σ} (same : s.buffer = s'.buffer) (e : RecordedExchange) :
    (rec.record storage s e).1 = (rec.record storage s' e).1 ∧
      (rec.record storage s e).2.buffer = (rec.record storage s' e).2.buffer := by
  cases on : rec.config.enabled with
  | false => simpa [Recorder.record, on] using same
  | true => cases routed : rec.medium e <;> simp [Recorder.record, on, routed, accepts, same]

theorem dispatch_buffer_congr {s s' : ClusterState deps σ} (same : s.recorder.buffer = s'.recorder.buffer)
    (cmd : Command) : (dispatch reg s cmd).2.recorder.buffer = (dispatch reg s' cmd).2.recorder.buffer := by
  cases cmd with
  | stub upstream matcher response times =>
    simp only [dispatch]
    cases resolveUpstream reg upstream <;> exact same
  | clearStubs upstream | pause upstream | resume upstream =>
    simp only [dispatch, setPause, onUpstreams_recorder, same]
  | clearRecordings => rfl
  | queryTraffic filter | assertSeen filter timeout | assertCount filter expected timeout => exact same

theorem SameButMedia.setPhase (same : SameButMedia c c') (u : String) (i : Nat) (p : RequestPhase) :
    SameButMedia (c.setPhase u i p) (c'.setPhase u i p) :=
  ⟨same.upstream, same.buffer, by simp only [Cluster.setPhase, same.phase], same.pushes⟩

theorem SameButMedia.handle (accepts : ∀ state e, (storage.append state e).1 = .ok ()) (same : SameButMedia c c')
    (rt : UpstreamRuntime) (a : Arrival) (u : String) (i : Nat) (p : Phase) :
    SameButMedia (c.handle storage rt a u i p) (c'.handle storage rt a u i p) := by
  have shared : c'.shared u = (c.shared u).withRecorder c'.recorder := by
    simp [ClusterState.shared, Shared.withRecorder, same.upstream]
  obtain ⟨samePhase, sameStubs, sameReplay, sameCalls⟩ :=
    advance_withRecorder storage rt a (c.shared u) c'.recorder p
  rw [← shared] at samePhase sameStubs sameReplay sameCalls
  have recorder := advance_recorder storage rt a (c.shared u) p
  have recorder' := advance_recorder storage rt a (c'.shared u) p
  refine ⟨?_, ?_, ?_, ?_⟩
  · simp only [Cluster.handle, ClusterState.setShared, same.upstream, sameStubs, sameReplay, sameCalls]
  · simp only [Cluster.handle, ClusterState.setShared, recorder, recorder']
    cases p with
    | recording outcome source e => exact (record_buffer_congr accepts rt.recorder same.buffer e).2
    | _ => exact same.buffer
  · simp only [Cluster.handle, Cluster.setPhase, same.phase, samePhase]
  · have pushed : Cluster.pushed storage rt.recorder c.recorder p = Cluster.pushed storage rt.recorder c'.recorder p := by
      cases p with
      | recording outcome source e =>
        simp only [Cluster.pushed, (record_buffer_congr accepts rt.recorder same.buffer e).1]
      | _ => rfl
    simp only [Cluster.handle, same.pushes, pushed]

theorem SameButMedia.step (accepts : ∀ state e, (storage.append state e).1 = .ok ()) (same : SameButMedia c c')
    (move : ClusterMove) : SameButMedia (c.step storage reg arrivals move) (c'.step storage reg arrivals move) := by
  cases move with
  | command cmd =>
    refine ⟨?_, dispatch_buffer_congr same.buffer cmd, same.phase, same.pushes⟩
    funext u
    exact dispatch_upstream_congr reg (congrFun same.upstream u) cmd
  | request u i =>
    simp only [Cluster.step, ← same.phase, ← same.upstream]
    cases reg.get u with
    | none => exact same
    | some rt =>
      cases c.phase u i with
      | gated g =>
        dsimp only
        cases pauseGate (c.upstream u).pause g <;> exact same.setPhase u i _
      | handling p => exact same.handle accepts rt _ u i p

theorem isDone_iff {u : String} {i : Nat} : (c.phase u i).isDone = true ↔ c.Completed u i := by
  rw [Completed]
  cases c.phase u i with
  | gated g => simp [RequestPhase.isDone]
  | handling p => cases p <;> simp [RequestPhase.isDone]

/-- A request that has its answer takes no further step. -/
theorem sameButMedia_of_completed (reg : UpstreamRegistry) {u : String} {i : Nat} (finished : c.Completed u i) :
    SameButMedia c (c.step storage reg arrivals (.request u i)) := by
  obtain ⟨outcome, source, at_⟩ := finished
  simp only [Cluster.step, at_]
  cases reg.get u with
  | none => exact ⟨rfl, rfl, rfl, rfl⟩
  | some rt =>
    refine ⟨?_, rfl, ?_, ?_⟩
    · exact (Function.update_eq_self u c.upstream).symm
    · simp only [Cluster.handle, Cluster.setPhase, advance, ← at_, Function.update_eq_self]
    · simp [Cluster.handle, Cluster.pushed]

theorem phase_step_other {u v : String} {i j : Nat} (apart : (v, j) ≠ (u, i)) :
    (c.step storage reg arrivals (.request u i)).phase v j = c.phase v j := by
  have next := stepped storage reg arrivals c (.request u i)
  generalize c.step storage reg arrivals (.request u i) = c' at next
  cases next with
  | unknown missing => rfl
  | gate at_ => exact setPhase_other c apart _
  | enter at_ => exact setPhase_other c apart _
  | handle found at_ => exact setPhase_other c apart _

theorem SameButMedia.trans {c'' : Cluster deps σ} (first : SameButMedia c c') (second : SameButMedia c' c'') :
    SameButMedia c c'' :=
  ⟨first.upstream.trans second.upstream, first.buffer.trans second.buffer, first.phase.trans second.phase,
    first.pushes.trans second.pushes⟩

theorem SameButMedia.symm (same : SameButMedia c c') : SameButMedia c' c :=
  ⟨same.upstream.symm, same.buffer.symm, same.phase.symm, same.pushes.symm⟩

theorem SameButMedia.completed (same : SameButMedia c c') (u : String) (i : Nat) :
    c.Completed u i ↔ c'.Completed u i := by
  rw [Completed, Completed, same.phase]

end Steps

/-- The cluster with cut-offs over the ordinary one, in which the stopped requests
take no more steps. -/
structure Follows (stopped : String → Nat → Bool) (c : CutCluster deps σ) (d : Cluster deps σ) : Prop where
  same : SameButMedia c.toCluster d
  cut_open : ∀ u i, c.cut u i = true → ¬ c.Completed u i
  stopped_ended : ∀ u i, stopped u i = true → (c.cut u i = true ∨ c.Completed u i)
  cut_stopped : ∀ u i, c.cut u i = true → stopped u i = true

section Runs
variable {storage : SnapshotStorage σ} {reg : UpstreamRegistry} {arrivals : String → Nat → Arrival}

theorem CutCluster.step_of_cut {c : CutCluster deps σ} {u : String} {i : Nat} (cut : c.cut u i = true) :
    CutCluster.step storage reg arrivals c (.step (.request u i)) = c := if_pos cut

theorem CutCluster.step_of_not_cut {c : CutCluster deps σ} {u : String} {i : Nat} (uncut : ¬ c.cut u i = true) :
    CutCluster.step storage reg arrivals c (.step (.request u i)) =
      { c with toCluster := c.toCluster.step storage reg arrivals (.request u i) } := if_neg uncut

/-- A request that is not stopped moves in both. -/
theorem Follows.request (accepts : ∀ state e, (storage.append state e).1 = .ok ()) {stopped : String → Nat → Bool}
    {c : CutCluster deps σ} {d : Cluster deps σ} (follows : Follows stopped c d) {u : String} {i : Nat}
    (runs : ¬ stopped u i = true) :
    Follows stopped (CutCluster.step storage reg arrivals c (.step (.request u i)))
      (d.step storage reg arrivals (.request u i)) := by
  have uncut : ¬ c.cut u i = true := fun cut => runs (follows.cut_stopped u i cut)
  have others : ∀ {v j}, stopped v j = true →
      ((c.toCluster.step storage reg arrivals (.request u i)).Completed v j ↔ c.Completed v j) := by
    intro v j halted
    have apart : (v, j) ≠ (u, i) := by
      rintro same
      cases same
      exact runs halted
    rw [Completed, Completed, phase_step_other apart]
  rw [CutCluster.step_of_not_cut uncut]
  refine ⟨follows.same.step accepts (.request u i), fun v j cut finished => ?_, fun v j halted => ?_,
    follows.cut_stopped⟩
  · exact follows.cut_open v j cut ((others (follows.cut_stopped v j cut)).mp finished)
  · exact (follows.stopped_ended v j halted).imp_right (others halted).mpr

/-- A request that is stopped moves in neither, or has come to its end. -/
theorem Follows.halted {stopped : String → Nat → Bool} {c : CutCluster deps σ} {d : Cluster deps σ}
    (follows : Follows stopped c d) {u : String} {i : Nat} (halted : stopped u i = true) :
    Follows stopped (CutCluster.step storage reg arrivals c (.step (.request u i))) d := by
  by_cases cut : c.cut u i = true
  · rwa [CutCluster.step_of_cut cut]
  · have finished : c.Completed u i := (follows.stopped_ended u i halted).resolve_left cut
    have rests : SameButMedia c.toCluster (c.toCluster.step storage reg arrivals (.request u i)) :=
      sameButMedia_of_completed reg finished
    rw [CutCluster.step_of_not_cut cut]
    refine ⟨rests.symm.trans follows.same, fun v j cut now => ?_, fun v j halted => ?_, follows.cut_stopped⟩
    · exact follows.cut_open v j cut ((rests.completed v j).mpr now)
    · exact (follows.stopped_ended v j halted).imp_right (rests.completed v j).mp

theorem Follows.command (accepts : ∀ state e, (storage.append state e).1 = .ok ()) {stopped : String → Nat → Bool}
    {c : CutCluster deps σ} {d : Cluster deps σ} (follows : Follows stopped c d) (cmd : Command) :
    Follows stopped (CutCluster.step storage reg arrivals c (.step (.command cmd)))
      (d.step storage reg arrivals (.command cmd)) :=
  ⟨follows.same.step accepts (.command cmd), follows.cut_open, follows.stopped_ended, follows.cut_stopped⟩

/-- To drop a request is to stop it, but for its medium. -/
theorem Follows.cut {stopped : String → Nat → Bool} {c : CutCluster deps σ} {d : Cluster deps σ}
    (follows : Follows stopped c d) (u : String) (i : Nat) (left : σ) :
    Follows (mark stopped u i) (CutCluster.step storage reg arrivals c (.cut u i left)) d := by
  by_cases settled : c.cut u i = true ∨ c.Completed u i
  · have still : CutCluster.step storage reg arrivals c (.cut u i left) = c := by
      rw [← isDone_iff] at settled
      exact if_pos (by simpa using settled)
    rw [still]
    refine ⟨follows.same, follows.cut_open, fun v j marked => ?_, fun v j cut => mark_iff.mpr (Or.inr ?_)⟩
    · rcases mark_iff.mp marked with same | halted
      · cases same
        exact settled
      · exact follows.stopped_ended v j halted
    · exact follows.cut_stopped v j cut
  · rw [← isDone_iff] at settled
    simp only [CutCluster.step, if_neg (show ¬ (c.cut u i || (c.phase u i).isDone) = true by simpa using settled)]
    rw [isDone_iff] at settled
    have same : SameButMedia c.toCluster d := follows.same
    refine ⟨⟨same.upstream, same.buffer, same.phase, same.pushes⟩, fun v j cut finished => ?_, fun v j marked => ?_,
      fun v j cut => ?_⟩
    · rcases mark_iff.mp cut with same | cut
      · cases same
        exact settled (Or.inr finished)
      · exact follows.cut_open v j cut finished
    · rcases mark_iff.mp marked with same | halted
      · exact Or.inl (mark_iff.mpr (Or.inl same))
      · exact (follows.stopped_ended v j halted).imp_left fun cut => mark_iff.mpr (Or.inr cut)
    · exact mark_iff.mpr ((mark_iff.mp cut).imp_right (follows.cut_stopped v j))

variable (storage reg arrivals) in
theorem Follows.exec (accepts : ∀ state e, (storage.append state e).1 = .ok ()) {stopped : String → Nat → Bool}
    {c : CutCluster deps σ} {d : Cluster deps σ} (follows : Follows stopped c d) (moves : List (CutMove σ)) :
    ∃ stopped', Follows stopped' (Execution.exec (CutCluster.step storage reg arrivals) c moves)
      (Execution.exec (Cluster.step storage reg arrivals) d (scheduled stopped moves)) := by
  induction moves generalizing stopped c d with
  | nil => exact ⟨stopped, follows⟩
  | cons m rest ih =>
    cases m with
    | cut u i left => exact ih (follows.cut u i left)
    | step move =>
      cases move with
      | command cmd => exact ih (follows.command accepts cmd)
      | request u i =>
        simp only [scheduled]
        split
        · exact ih (follows.halted ‹_›)
        · exact ih (follows.request accepts ‹_›)

variable (storage reg arrivals) in
theorem booked_run (accepts : ∀ state e, (storage.append state e).1 = .ok ())
    (on : reg.recorder.config.enabled = true) (room : reg.recorder.config.maxInMemory ≠ 0) (s : ClusterState deps σ)
    (moves : List ClusterMove) : Booked reg arrivals (Cluster.run storage reg arrivals s moves) :=
  Execution.exec_invariant (Cluster.step storage reg arrivals) (I := Booked reg arrivals)
    (fun c move booked => booked.step accepts on room (stepped storage reg arrivals c move))
    ⟨by simp [start], by simp [start], fun _ _ => rfl⟩ moves

variable (storage reg arrivals) in
theorem suffix_run (s : ClusterState deps σ) (moves : List ClusterMove) :
    (Cluster.run storage reg arrivals s moves).recorder.buffer <:+
      s.recorder.buffer ++ (Cluster.run storage reg arrivals s moves).pushes.map Prod.snd := by
  refine Execution.exec_invariant (Cluster.step storage reg arrivals)
    (I := fun c => c.recorder.buffer <:+ s.recorder.buffer ++ c.pushes.map Prod.snd)
    (fun c move kept => suffix_step kept (stepped storage reg arrivals c move)) ?_ moves
  simp [start]

variable (storage reg arrivals) in
/-- A request that is dropped at any await point, by a hard abort or a client that
goes away, has pushed nothing into the ring and never will; one that got its answer
has pushed what the recorder was offered for it. But for the media, the cluster is
as if the dropped requests had not been scheduled again, with all they had taken
from stubs and added to live indexes until then. -/
theorem dropped_requests_unrecorded (accepts : ∀ state e, (storage.append state e).1 = .ok ())
    (on : reg.recorder.config.enabled = true) (room : reg.recorder.config.maxInMemory ≠ 0)
    (s : ClusterState deps σ) (moves : List (CutMove σ)) :
    let c := CutCluster.run storage reg arrivals s moves
    SameButMedia c.toCluster (Cluster.run storage reg arrivals s (scheduled (fun _ _ => false) moves)) ∧
    (∀ u i, c.cut u i = true → ¬ c.Completed u i ∧ c.pushesOf u i = []) ∧
    (∀ u i rt outcome source, reg.get u = some rt → c.phase u i = .handling (.done outcome source) →
      c.pushesOf u i = (offered deps rt (arrivals u i).stamp (arrivals u i).original outcome source).toList) ∧
    c.recorder.buffer <:+ s.recorder.buffer ++ c.pushes.map Prod.snd := by
  intro c
  have begins : Follows (fun _ _ => false) (⟨start s, fun _ _ => false⟩ : CutCluster deps σ) (start s) :=
    ⟨⟨rfl, rfl, rfl, rfl⟩, by simp, by simp, by simp⟩
  obtain ⟨stopped, follows⟩ := begins.exec storage reg arrivals accepts moves
  have same : SameButMedia c.toCluster (Cluster.run storage reg arrivals s (scheduled (fun _ _ => false) moves)) :=
    follows.same
  have booked := booked_run storage reg arrivals accepts on room s (scheduled (fun _ _ => false) moves)
  have kept := suffix_run storage reg arrivals s (scheduled (fun _ _ => false) moves)
  generalize Cluster.run storage reg arrivals s (scheduled (fun _ _ => false) moves) = d at same booked kept ⊢
  have pushesOf : ∀ u i, c.pushesOf u i = d.pushesOf u i := by
    intro u i
    rw [Cluster.pushesOf, Cluster.pushesOf, same.pushes]
  refine ⟨same, fun u i cut => ?_, fun u i rt outcome source found at_ => ?_, ?_⟩
  · have unfinished : ¬ c.Completed u i := follows.cut_open u i cut
    rw [pushesOf]
    exact ⟨unfinished, booked.pushesOf_open fun now => unfinished ((same.completed u i).mpr now)⟩
  · rw [pushesOf]
    exact booked.pushesOf_done found (by rw [← same.phase]; exact at_)
  · rw [← same.buffer, ← same.pushes] at kept
    exact kept

theorem dropped_requests_unrecorded_while_recording :
    let moves := List.replicate 3 (.step (.request "api" 0)) ++ [.cut "api" 0 []] ++
      List.replicate 5 (.step (.request "api" 1))
    let c := CutCluster.run inMemoryStorage (referenceRegistry [failing]) (fun _ _ => posted .http11)
      (emptyState referenceDeps fun _ => []) moves
    c.cut "api" 0 = true ∧ c.pushesOf "api" 0 = [] ∧ ∃ e, c.pushesOf "api" 1 = [e] := by
  intro moves c
  obtain ⟨_, dropped, answered, _⟩ := dropped_requests_unrecorded inMemoryStorage (referenceRegistry [failing])
    (fun _ _ => posted .http11) (fun _ _ => rfl) rfl (by decide) (emptyState referenceDeps fun _ => []) moves
  have cut : c.cut "api" 0 = true := rfl
  exact ⟨cut, (dropped "api" 0 cut).2, _, answered "api" 1 _ _ _ rfl rfl⟩

end Runs

end Cluster

end PartlyProxy
