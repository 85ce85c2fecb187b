import PartlyProxy.Cluster
import PartlyProxy.Ledger
import PartlyProxy.Reference

namespace PartlyProxy
variable {deps : Deps} {σ : Type}

section Advance
variable (storage : SnapshotStorage σ) (rt : UpstreamRuntime) (a : Arrival)

/-- The same upstream, with another recorder behind it. -/
def Shared.withRecorder (s : Shared deps σ) (r : RecorderState σ) : Shared deps σ := { s with recorder := r }

/-- Nothing a handler does but its record step depends on the recorder. -/
theorem advance_withRecorder (s : Shared deps σ) (r : RecorderState σ) (p : Phase) :
    (advance storage rt a (s.withRecorder r) p).1 = (advance storage rt a s p).1 ∧
      (advance storage rt a (s.withRecorder r) p).2.stubs = (advance storage rt a s p).2.stubs ∧
      (advance storage rt a (s.withRecorder r) p).2.replay = (advance storage rt a s p).2.replay ∧
      (advance storage rt a (s.withRecorder r) p).2.calls = (advance storage rt a s p).2.calls := by
  cases p with
  | arrived =>
    simp only [advance]
    split
    · exact ⟨rfl, rfl, rfl, rfl⟩
    · split <;> exact ⟨rfl, rfl, rfl, rfl⟩
  | scanning req ctx resume =>
    simp only [advance, Shared.withRecorder]
    split <;> exact ⟨rfl, rfl, rfl, rfl⟩
  | lookingUp req ctx resume =>
    simp only [advance, Shared.withRecorder]
    split
    · exact ⟨rfl, rfl, rfl, rfl⟩
    · split <;> exact ⟨rfl, rfl, rfl, rfl⟩
  | forwarding req ctx resume => exact ⟨rfl, rfl, rfl, rfl⟩
  | ended outcome source =>
    simp only [advance, Shared.withRecorder]
    split
    · exact ⟨rfl, rfl, rfl, rfl⟩
    · unfold insertPromoted
      split <;> exact ⟨rfl, rfl, rfl, rfl⟩
  | recording outcome source exchange => exact ⟨rfl, rfl, rfl, rfl⟩
  | done outcome source => exact ⟨rfl, rfl, rfl, rfl⟩

end Advance

namespace Cluster

/-- An exchange on its way to the recorder carries the name of its upstream. -/
def Tagged (c : Cluster deps σ) : Prop :=
  ∀ u i outcome source e, c.phase u i = .handling (.recording outcome source e) → e.upstream = some u

section Steps
variable {storage : SnapshotStorage σ} {reg : UpstreamRegistry} {arrivals : String → Nat → Arrival} {c c' : Cluster deps σ}
  {move : ClusterMove}

theorem Tagged.setPhase (tagged : c.Tagged) {u : String} {i : Nat} {p : RequestPhase}
    (here : ∀ outcome source e, p = .handling (.recording outcome source e) → e.upstream = some u)
    (same : c'.phase = (c.setPhase u i p).phase) : c'.Tagged := by
  intro v j outcome source e at_
  rw [same] at at_
  by_cases mine : (v, j) = (u, i)
  · cases mine
    rw [setPhase_self] at at_
    exact here outcome source e at_
  · rw [setPhase_other c mine] at at_
    exact tagged v j outcome source e at_

theorem Tagged.step (tagged : c.Tagged) (next : Stepped storage reg arrivals c move c') : c'.Tagged := by
  cases next with
  | unknown missing => exact tagged
  | gate at_ => exact tagged.setPhase (by simp) rfl
  | enter at_ => exact tagged.setPhase (by simp) rfl
  | @handle u i p rt found at_ =>
    refine tagged.setPhase (fun outcome source e next => ?_) rfl
    have offer := (advance_eq_recording storage rt (arrivals u i) (c.shared u) (RequestPhase.handling.inj next)).2
    rw [offered_upstream offer, (UpstreamRegistry.get_eq_some found).1]
  | command => exact tagged

end Steps

/-- What can be seen of an upstream: its stubs, pause flag, live index and calls,
its medium, and where each of its requests stands, with the answer it got. -/
def view (reg : UpstreamRegistry) (u : String) (c : Cluster deps σ) :
    UpstreamState deps × Option σ × (Nat → RequestPhase) :=
  (c.upstream u, (reg.recorder.routes u).map c.recorder.media, c.phase u)

/-- The moves that concern an upstream: the steps of its requests, and the commands
that name it or name none. -/
def concerns (u : String) : ClusterMove → Bool
  | .request v _ => v = u
  | .command cmd =>
    match cmd.target with
    | some name => name = u
    | none => true

theorem view_eq_iff {reg : UpstreamRegistry} {u : String} {c c' : Cluster deps σ} :
    view reg u c = view reg u c' ↔ c.upstream u = c'.upstream u ∧
      (∀ m, reg.recorder.routes u = some m → c.recorder.media m = c'.recorder.media m) ∧ c.phase u = c'.phase u := by
  simp only [view, Prod.mk.injEq]
  refine and_congr_right fun _ => and_congr_left fun _ => ?_
  cases reg.recorder.routes u with
  | none => simp
  | some m => simp

section Views
variable {storage : SnapshotStorage σ} {reg : UpstreamRegistry} {arrivals arrivals' : String → Nat → Arrival}
  {u : String}

theorem handle_upstream_other (rt : UpstreamRuntime) (a : Arrival) (c : Cluster deps σ) {v : String} (apart : u ≠ v)
    (i : Nat) (p : Phase) : (c.handle storage rt a v i p).upstream u = c.upstream u := Function.update_of_ne apart ..

/-- The steps of another upstream's requests, and the commands for it, cannot be seen. -/
theorem view_hidden (distinct : ∀ v m, reg.recorder.routes u = some m → reg.recorder.routes v = some m → v = u)
    {c c' : Cluster deps σ} {move : ClusterMove} (tagged : c.Tagged) (next : Stepped storage reg arrivals c move c')
    (unseen : concerns u move = false) : view reg u c' = view reg u c := by
  cases next with
  | unknown missing => rfl
  | @gate v i g g' at_ =>
    have apart : u ≠ v := by rintro rfl; simp [concerns] at unseen
    exact view_eq_iff.mpr ⟨rfl, fun _ _ => rfl, setPhase_upstream_other c apart i _⟩
  | @enter v i g at_ =>
    have apart : u ≠ v := by rintro rfl; simp [concerns] at unseen
    exact view_eq_iff.mpr ⟨rfl, fun _ _ => rfl, setPhase_upstream_other c apart i _⟩
  | @handle v i p rt found at_ =>
    have apart : u ≠ v := by rintro rfl; simp [concerns] at unseen
    refine view_eq_iff.mpr ⟨handle_upstream_other rt _ c apart i p, fun m routed => ?_,
      setPhase_upstream_other c apart i _⟩
    have recorder := advance_recorder storage rt (arrivals v i) (c.shared v) p
    simp only [handle, ClusterState.setShared, recorder]
    cases p with
    | recording outcome source e =>
      refine Recorder.record_media_of_ne ?_ _
      rw [(UpstreamRegistry.get_eq_some found).2, Recorder.medium, tagged v i outcome source e at_, Option.bind_some]
      exact fun clash => apart (distinct v m routed clash).symm
    | _ => rfl
  | @command cmd =>
    cases named : cmd.target with
    | none => simp [concerns, named] at unseen
    | some name =>
      have apart : u ≠ name := by rintro rfl; simp [concerns, named] at unseen
      refine view_eq_iff.mpr ⟨dispatch_upstream_other reg named apart, fun m _ => ?_, rfl⟩
      rw [dispatch_media]

theorem setPhase_view {c c' : Cluster deps σ} (same : view reg u c = view reg u c') (i : Nat) (p : RequestPhase) :
    view reg u (c.setPhase u i p) = view reg u (c'.setPhase u i p) := by
  obtain ⟨upstream, medium, phase⟩ := view_eq_iff.mp same
  refine view_eq_iff.mpr ⟨upstream, medium, ?_⟩
  simp only [setPhase, Function.update_self, phase]

theorem handle_view {c c' : Cluster deps σ} (same : view reg u c = view reg u c') (rt : UpstreamRuntime) (a : Arrival)
    (i : Nat) (p : Phase) : view reg u (c.handle storage rt a u i p) = view reg u (c'.handle storage rt a u i p) := by
  obtain ⟨upstream, medium, phase⟩ := view_eq_iff.mp same
  have shared : c'.shared u = (c.shared u).withRecorder c'.recorder := by
    simp [ClusterState.shared, Shared.withRecorder, upstream]
  obtain ⟨samePhase, sameStubs, sameReplay, sameCalls⟩ :=
    advance_withRecorder storage rt a (c.shared u) c'.recorder p
  rw [← shared] at samePhase sameStubs sameReplay sameCalls
  refine view_eq_iff.mpr ⟨?_, fun m routed => ?_, ?_⟩
  · simp only [handle, ClusterState.setShared, Function.update_self, upstream, sameStubs, sameReplay, sameCalls]
  · have recorder := advance_recorder storage rt a (c.shared u) p
    have recorder' := advance_recorder storage rt a (c'.shared u) p
    simp only [handle, ClusterState.setShared, recorder, recorder']
    cases p with
    | recording outcome source e => exact Recorder.record_media_congr (medium m routed) e
    | _ => exact medium m routed
  · simp only [handle, setPhase, Function.update_self, phase, samePhase]

/-- What its own steps and commands do to an upstream depends on nothing else. -/
theorem view_determined (sameRequests : arrivals u = arrivals' u) {c c' : Cluster deps σ} {move : ClusterMove}
    (seen : concerns u move = true) (same : view reg u c = view reg u c') :
    view reg u (c.step storage reg arrivals move) = view reg u (c'.step storage reg arrivals' move) := by
  obtain ⟨upstream, medium, phase⟩ := view_eq_iff.mp same
  cases move with
  | command cmd =>
    refine view_eq_iff.mpr ⟨dispatch_upstream_congr reg upstream cmd, fun m routed => ?_, phase⟩
    simp only [step, dispatch_media]
    exact medium m routed
  | request v i =>
    have mine : v = u := by simpa [concerns] using seen
    subst mine
    simp only [step, ← phase, ← upstream, sameRequests]
    cases reg.get v with
    | none => exact same
    | some rt =>
      cases c.phase v i with
      | gated g =>
        dsimp only
        cases pauseGate (c.upstream v).pause g <;> exact setPhase_view same i _
      | handling p => exact handle_view same rt _ i p

/-- Two runs of a cluster in which the upstream `u` shares its medium with no other,
that agree on the requests to `u` and on the moves that concern it, in the same
order, and differ in anything else: the stubs, the pause flag, the live index, the
medium and the requests of `u`, with their answers, are the same. -/
theorem upstreams_do_not_interfere (storage : SnapshotStorage σ) (reg : UpstreamRegistry) {u : String}
    (distinct : ∀ v m, reg.recorder.routes u = some m → reg.recorder.routes v = some m → v = u)
    {arrivals arrivals' : String → Nat → Arrival} (sameRequests : arrivals u = arrivals' u) {s s' : ClusterState deps σ}
    (sameUpstream : s.upstream u = s'.upstream u)
    (sameMedium : ∀ m, reg.recorder.routes u = some m → s.recorder.media m = s'.recorder.media m)
    {moves moves' : List ClusterMove} (alike : moves.filter (concerns u) = moves'.filter (concerns u)) :
    let c := run storage reg arrivals s moves
    let c' := run storage reg arrivals' s' moves'
    c.upstream u = c'.upstream u ∧
      (∀ m, reg.recorder.routes u = some m → c.recorder.media m = c'.recorder.media m) ∧ c.phase u = c'.phase u := by
  intro c c'
  have begins : ∀ s : ClusterState deps σ, (start s).Tagged := by
    intro s u i outcome source e at_
    cases at_
  refine view_eq_iff.mp (Execution.view_exec_eq (step storage reg arrivals) (I := Tagged) (J := Tagged)
    (fun c move tagged => tagged.step (stepped storage reg arrivals c move))
    (fun c move tagged => tagged.step (stepped storage reg arrivals' c move))
    (fun c move tagged => view_hidden distinct tagged (stepped storage reg arrivals c move))
    (fun c move tagged => view_hidden distinct tagged (stepped storage reg arrivals' c move))
    (fun c c' move _ _ => view_determined sameRequests) (begins s) (begins s') ?_ alike)
  exact view_eq_iff.mpr ⟨sameUpstream, sameMedium, rfl⟩

end Views

def pairRecorder : Recorder :=
  ⟨.default, fun name => if name = "api" then some 0 else if name = "billing" then some 1 else none⟩

/-- Two upstreams, each with a medium of its own. -/
def pairRegistry : UpstreamRegistry where
  recorder := pairRecorder
  upstreams :=
    let api := { referenceRuntime [] .record with recorder := pairRecorder }
    [api, { api with name := "billing" }]
  distinct := by simp [referenceRuntime]
  shared := by simp

theorem pairRegistry_distinct (v : String) (m : Nat) (mine : pairRegistry.recorder.routes "api" = some m)
    (other : pairRegistry.recorder.routes v = some m) : v = "api" := by
  cases mine
  by_cases api : v = "api"
  · exact api
  · by_cases billing : v = "billing" <;> simp [pairRegistry, pairRecorder, api, billing] at other

theorem upstreams_do_not_interfere_pair :
    let get : Arrival := referenceGet referencePath (answering [])
    let quiet : List ClusterMove := List.replicate 8 (.request "api" 0)
    let busy : List ClusterMove := [.command (.pause (some "billing")), .request "billing" 0] ++
      List.replicate 4 (.request "api" 0) ++ [.command (.resume (some "billing")), .command (.clearStubs (some "nobody"))] ++
        List.replicate 8 (.request "billing" 0) ++ List.replicate 4 (.request "api" 0)
    let start := emptyState referenceDeps fun _ => []
    (run inMemoryStorage pairRegistry (fun _ _ => get) start busy).phase "api" =
      (run inMemoryStorage pairRegistry (fun _ _ => get) start quiet).phase "api" := by
  intro get quiet busy start
  have alike : busy.filter (concerns "api") = quiet.filter (concerns "api") := by
    simp [busy, quiet, concerns, Command.target, List.replicate]
  have requests : (fun (_ : String) (_ : Nat) => get) "api" = (fun (_ : String) (_ : Nat) => get) "api" := rfl
  exact (upstreams_do_not_interfere inMemoryStorage pairRegistry pairRegistry_distinct requests (s := start) rfl
    (fun _ _ => rfl) alike).2.2

end Cluster

end PartlyProxy
