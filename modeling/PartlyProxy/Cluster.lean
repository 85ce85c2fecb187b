import PartlyProxy.Command
import PartlyProxy.PauseGate
import PartlyProxy.Interleaving

namespace PartlyProxy
variable {deps : Deps} {σ : Type}

/-- Where a request stands: at the pause gate, or behind it. -/
inductive RequestPhase where
  | gated (g : GatePhase)
  | handling (p : Phase)

/-- Behind the gate a request has left it. -/
def RequestPhase.gatePhase : RequestPhase → GatePhase
  | .gated g => g
  | .handling _ => .left

/-- A running cluster. Each upstream numbers its own requests. `pushes` lists every
exchange ever pushed into the ring with the request that it records. -/
structure Cluster (deps : Deps) (σ : Type) extends ClusterState deps σ where
  phase : String → Nat → RequestPhase
  pushes : List ((String × Nat) × RecordedExchange)

inductive ClusterMove where
  | request (upstream : String) (i : Nat)
  | command (cmd : Command)

namespace ClusterState

/-- The state behind one upstream as its handlers see it. -/
def shared (c : ClusterState deps σ) (name : String) : Shared deps σ :=
  ⟨(c.upstream name).stubs, (c.upstream name).replay, c.recorder, (c.upstream name).calls⟩

def setShared (c : ClusterState deps σ) (name : String) (s : Shared deps σ) : ClusterState deps σ :=
  ⟨Function.update c.upstream name { c.upstream name with stubs := s.stubs, replay := s.replay, calls := s.calls },
    s.recorder⟩

end ClusterState

namespace Cluster

def setPhase (c : Cluster deps σ) (u : String) (i : Nat) (p : RequestPhase) : Cluster deps σ :=
  { c with phase := Function.update c.phase u (Function.update (c.phase u) i p) }

/-- The exchange that the next step of a handler pushes into the ring. -/
def pushed (storage : SnapshotStorage σ) (rec : Recorder) (s : RecorderState σ) : Phase → Option RecordedExchange
  | .recording _ _ exchange =>
    match rec.config.enabled, rec.config.maxInMemory, (rec.record storage s exchange).1 with
    | true, _ + 1, .ok () => some exchange
    | _, _, _ => none
  | _ => none

/-- One step of the handler of request `i` of `u`, behind the gate. -/
def handle (storage : SnapshotStorage σ) (rt : UpstreamRuntime) (a : Arrival) (c : Cluster deps σ) (u : String)
    (i : Nat) (p : Phase) : Cluster deps σ :=
  { c.toClusterState.setShared u (advance storage rt a (c.shared u) p).2 with
    phase := (c.setPhase u i (.handling (advance storage rt a (c.shared u) p).1)).phase
    pushes := c.pushes ++ ((pushed storage rt.recorder c.recorder p).map fun e => ((u, i), e)).toList }

/-- One step of a cluster: of a request, or of the command processor. A command is
one step, for the assertions the one that answers them. -/
def step (storage : SnapshotStorage σ) (reg : UpstreamRegistry) (arrivals : String → Nat → Arrival)
    (c : Cluster deps σ) : ClusterMove → Cluster deps σ
  | .request u i =>
    match reg.get u, c.phase u i with
    | none, _ => c
    | some _, .gated g =>
      match pauseGate (c.upstream u).pause g with
      | .left => c.setPhase u i (.handling .arrived)
      | g => c.setPhase u i (.gated g)
    | some rt, .handling p => c.handle storage rt (arrivals u i) u i p
  | .command cmd => { c with toClusterState := (dispatch reg c.toClusterState cmd).2 }

def start (s : ClusterState deps σ) : Cluster deps σ := ⟨s, fun _ _ => .gated .outside, []⟩

/-- Running upstreams with empty media. -/
def emptyState (deps : Deps) (media : Nat → σ) : ClusterState deps σ :=
  ⟨fun _ => ⟨[], .channel false, some (.new deps []), []⟩, ⟨[], media⟩⟩

def run (storage : SnapshotStorage σ) (reg : UpstreamRegistry) (arrivals : String → Nat → Arrival)
    (s : ClusterState deps σ) (moves : List ClusterMove) : Cluster deps σ :=
  Execution.exec (step storage reg arrivals) (start s) moves

theorem setPhase_self (c : Cluster deps σ) (u : String) (i : Nat) (p : RequestPhase) :
    (c.setPhase u i p).phase u i = p := by
  simp [setPhase]

theorem setPhase_other (c : Cluster deps σ) {u v : String} {i j : Nat} (apart : (v, j) ≠ (u, i)) (p : RequestPhase) :
    (c.setPhase u i p).phase v j = c.phase v j := by
  by_cases here : v = u
  · subst here
    have later : j ≠ i := fun same => apart (by rw [same])
    simp [setPhase, Function.update_of_ne later]
  · simp [setPhase, Function.update_of_ne here]

theorem setPhase_upstream_other (c : Cluster deps σ) {u v : String} (apart : v ≠ u) (i : Nat) (p : RequestPhase) :
    (c.setPhase u i p).phase v = c.phase v := Function.update_of_ne apart ..

/-- All that a move can do. -/
inductive Stepped (storage : SnapshotStorage σ) (reg : UpstreamRegistry) (arrivals : String → Nat → Arrival)
    (c : Cluster deps σ) : ClusterMove → Cluster deps σ → Prop
  | unknown {u i} : reg.get u = none → Stepped storage reg arrivals c (.request u i) c
  | gate {u i g g'} : c.phase u i = .gated g → Stepped storage reg arrivals c (.request u i) (c.setPhase u i (.gated g'))
  | enter {u i g} : c.phase u i = .gated g →
      Stepped storage reg arrivals c (.request u i) (c.setPhase u i (.handling .arrived))
  | handle {u i p rt} : reg.get u = some rt → c.phase u i = .handling p →
      Stepped storage reg arrivals c (.request u i) (c.handle storage rt (arrivals u i) u i p)
  | command {cmd} : Stepped storage reg arrivals c (.command cmd)
      { c with toClusterState := (dispatch reg c.toClusterState cmd).2 }

theorem stepped (storage : SnapshotStorage σ) (reg : UpstreamRegistry) (arrivals : String → Nat → Arrival)
    (c : Cluster deps σ) (move : ClusterMove) : Stepped storage reg arrivals c move (c.step storage reg arrivals move) := by
  cases move with
  | command cmd => exact .command
  | request u i =>
    simp only [step]
    split
    · exact .unknown ‹_›
    · split
      · exact .enter ‹_›
      · exact .gate ‹_›
    · exact .handle ‹_› ‹_›

def gate (c : Cluster deps σ) (u : String) : Gate := ⟨(c.upstream u).pause, fun i => (c.phase u i).gatePhase⟩

/-- What a move of the cluster is to the gate of an upstream. -/
def gateMoves (reg : UpstreamRegistry) (u : String) : ClusterMove → List GateMove
  | .request v i => if (reg.get u).isSome ∧ v = u then [.request i] else []
  | .command (.pause target) =>
    if (reg.get u).isSome ∧ (target = none ∨ target = some u) then [.set true] else []
  | .command (.resume target) =>
    if (reg.get u).isSome ∧ (target = none ∨ target = some u) then [.set false] else []
  | .command _ => []

section Gates
variable {storage : SnapshotStorage σ} {reg : UpstreamRegistry} {arrivals : String → Nat → Arrival} {u : String}

theorem gate_eq {c c' : Cluster deps σ} {i : Nat} {p : RequestPhase}
    (pause : (c'.upstream u).pause = (c.upstream u).pause) (phase : c'.phase = (c.setPhase u i p).phase) :
    c'.gate u = { c.gate u with phase := Function.update (c.gate u).phase i p.gatePhase } := by
  have phases : (fun j => (c'.phase u j).gatePhase) = Function.update (c.gate u).phase i p.gatePhase := by
    funext j
    rw [phase]
    by_cases same : j = i
    · subst same
      rw [setPhase_self, Function.update_self]
    · rw [setPhase_other c (by simp [same]), Function.update_of_ne same]
      rfl
  rw [gate, pause, phases]
  rfl

theorem gate_setPhase (c : Cluster deps σ) (i : Nat) (p : RequestPhase) :
    (c.setPhase u i p).gate u = { c.gate u with phase := Function.update (c.gate u).phase i p.gatePhase } :=
  gate_eq rfl rfl

theorem gate_setPause (c : Cluster deps σ) (target : Option String) (paused : Bool) :
    gate { c with toClusterState := (setPause reg c.toClusterState target paused).2 } u =
      Execution.exec Gate.step (c.gate u)
        (if (reg.get u).isSome ∧ (target = none ∨ target = some u) then [.set paused] else []) := by
  simp only [gate, setPause, onUpstreams_upstream]
  split <;> rfl

/-- Every upstream's gate runs by itself as `Gate` says. -/
theorem gate_step (c : Cluster deps σ) (move : ClusterMove) :
    (c.step storage reg arrivals move).gate u = Execution.exec Gate.step (c.gate u) (gateMoves reg u move) := by
  cases move with
  | command cmd =>
    cases cmd with
    | pause target => exact gate_setPause c target true
    | resume target => exact gate_setPause c target false
    | clearStubs target =>
      simp only [step, dispatch, gate, gateMoves, onUpstreams_upstream]
      split <;> rfl
    | stub target matcher response times =>
      have pause : ((dispatch reg c.toClusterState (.stub target matcher response times)).2.upstream u).pause =
          (c.upstream u).pause := by
        simp only [dispatch]
        cases resolveUpstream reg target with
        | error err => rfl
        | ok rt =>
          dsimp only
          by_cases here : u = rt.name
          · subst here
            rw [ClusterState.modify_self]
          · rw [ClusterState.modify_of_ne _ here]
      rw [step, gate, pause]
      rfl
    | _ => rfl
  | request v i =>
    by_cases mine : v = u
    · subst mine
      simp only [step, gateMoves]
      cases reg.get v with
      | none => rfl
      | some rt =>
        cases phase : c.phase v i with
        | gated g =>
          have here : pauseGate (c.gate v).pause ((c.gate v).phase i) = pauseGate (c.upstream v).pause g := by
            simp [gate, phase, RequestPhase.gatePhase]
          simp only [Option.isSome_some, and_self, if_true, Execution.exec_cons, Execution.exec_nil, Gate.step, here]
          cases pauseGate (c.upstream v).pause g <;> exact gate_setPhase c i _
        | handling p =>
          have here : pauseGate (c.gate v).pause ((c.gate v).phase i) = .left := by
            simp [gate, phase, RequestPhase.gatePhase, pauseGate]
          have pause : ((c.handle storage rt (arrivals v i) v i p).upstream v).pause = (c.upstream v).pause := by
            simp [handle, ClusterState.setShared]
          simp only [Option.isSome_some, and_self, if_true, Execution.exec_cons, Execution.exec_nil, Gate.step, here]
          exact gate_eq pause rfl
    · have elsewhere := stepped storage reg arrivals c (.request v i)
      generalize c.step storage reg arrivals (.request v i) = c' at elsewhere
      simp only [gateMoves, mine, and_false, if_false, Execution.exec_nil]
      cases elsewhere with
      | unknown missing => rfl
      | gate at_ => rw [gate, setPhase_upstream_other c (Ne.symm mine)]; rfl
      | enter at_ => rw [gate, setPhase_upstream_other c (Ne.symm mine)]; rfl
      | handle found at_ =>
        simp only [gate, handle, ClusterState.setShared, Function.update_of_ne (Ne.symm mine),
          setPhase_upstream_other c (Ne.symm mine)]

theorem gate_run (s : ClusterState deps σ) (fresh : (s.upstream u).pause = .channel false) (moves : List ClusterMove) :
    (run storage reg arrivals s moves).gate u = Gate.run (moves.flatMap (gateMoves reg u)) := by
  have begins : (start s).gate u = Gate.start := by
    rw [gate, start, fresh]
    rfl
  have whole := Execution.exec_refines (step storage reg arrivals) (f := fun c => c.gate u) gate_step (start s) moves
  rw [run, whole, begins, Gate.run]

end Gates

end Cluster

end PartlyProxy
