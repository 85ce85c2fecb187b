import PartlyProxy.ControlPlane
import PartlyProxy.Accounting

namespace PartlyProxy
variable {deps : Deps} {σ : Type}

namespace ControlPlane

/-- The request sleeps in `changed`: as things stand a poll finds no new version. -/
def Blocked (c : ControlPlane deps σ) (u : String) (i : Nat) : Prop :=
  ∃ seen, c.cluster.phase u i = .gated (.parked seen) ∧ (c.cluster.upstream u).pause.changed seen = .pending

/-- The processor dispatches a `Pause` for an upstream whose listener has cleared the
flag for the drain. -/
def LatePause (u : String) (c : ControlPlane deps σ) (move : ControlMove) : Prop :=
  move = .process ∧ c.listener u = .cleared ∧
    ∃ env target, c.processor = .dispatching env ∧ env.cmd = .pause target ∧ (target = none ∨ target = some u)

/-- What a step is to the gate of an upstream. -/
def gateMoves (reg : UpstreamRegistry) (u : String) (c : ControlPlane deps σ) : ControlMove → List GateMove
  | .request v i => Cluster.gateMoves reg u (.request v i)
  | .process =>
    match c.processor with
    | .dispatching env => Cluster.gateMoves reg u (.command env.cmd)
    | _ => []
  | .clear v => if v = u ∧ c.listener v = .stopped then [.set false] else []
  | _ => []

section Frame
variable (c : ControlPlane deps σ) (reg : UpstreamRegistry)

theorem reply_cluster (env : Envelope) (resp : CommandResponse) :
    (c.reply env resp).cluster = c.cluster ∧ (c.reply env resp).listener = c.listener := by
  unfold reply
  split
  · split <;> exact ⟨rfl, rfl⟩
  · exact ⟨rfl, rfl⟩

theorem send_cluster (p : Party) : (c.send p).cluster = c.cluster ∧ (c.send p).listener = c.listener := by
  unfold send
  split
  · split
    · exact ⟨rfl, rfl⟩
    · split <;> exact ⟨rfl, rfl⟩
  · exact ⟨rfl, rfl⟩

theorem conclude_cluster (verdict : Assertion → Option CommandResponse) :
    (c.conclude verdict).cluster = c.cluster ∧ (c.conclude verdict).listener = c.listener := by
  unfold conclude
  split
  · split
    · exact c.reply_cluster _ _
    · exact ⟨rfl, rfl⟩
  · exact ⟨rfl, rfl⟩

theorem dispatchTaken_cluster (env : Envelope) :
    (c.dispatchTaken reg env).cluster = (c.execute reg env).cluster ∧
      (c.dispatchTaken reg env).listener = c.listener := by
  unfold dispatchTaken
  split
  · exact (c.execute reg env).reply_cluster _ _
  · exact ⟨rfl, rfl⟩

end Frame

section Gates
variable {storage : SnapshotStorage σ} {reg : UpstreamRegistry} {arrivals : String → Nat → Arrival}
  {fromStr : String → Except String WireCommand} {u : String}

theorem gate_clear (c : ControlPlane deps σ) (v : String) :
    (c.clear v).cluster.gate u =
      Execution.exec Gate.step (c.cluster.gate u) (if v = u ∧ c.listener v = .stopped then [.set false] else []) := by
  unfold clear
  split
  · rename_i stopped
    by_cases here : v = u
    · subst here
      simp [stopped, Cluster.gate, Gate.step]
    · simp [here, Cluster.gate, ClusterState.modify_of_ne _ (Ne.symm here)]
  · rename_i other
    have notStopped : ¬ (v = u ∧ c.listener v = .stopped) := fun both => other both.2
    rw [if_neg notStopped]
    rfl

variable (storage reg arrivals fromStr u) in
/-- The gate of each upstream runs as `Gate` says, through the drain too. -/
theorem gate_step (c : ControlPlane deps σ) (move : ControlMove) :
    (c.step storage reg arrivals fromStr move).cluster.gate u =
      Execution.exec Gate.step (c.cluster.gate u) (gateMoves reg u c move) := by
  cases move with
  | request v i => exact Cluster.gate_step c.cluster (.request v i)
  | process =>
    simp only [step, process, gateMoves]
    cases c.processor with
    | idle =>
      dsimp only
      split
      · rfl
      · split <;> rfl
    | dispatching env =>
      have commanded : (c.cluster.step storage reg arrivals (.command env.cmd)).gate u = _ :=
        Cluster.gate_step c.cluster (.command env.cmd)
      dsimp only
      rw [(c.dispatchTaken_cluster reg env).1]
      exact commanded
    | waiting env a => rfl
    | exited => rfl
  | clear v => exact gate_clear c v
  | send p => rw [step, (c.send_cluster p).1]; rfl
  | look late => rw [step, (c.conclude_cluster _).1]; rfl
  | expire => rw [step, (c.conclude_cluster _).1]; rfl
  | read k text =>
    simp only [step]
    split
    · split <;> rfl
    · rfl
  | call k cmd => simp only [step]; split <;> rfl
  | lost p => simp only [step, lost]; split <;> rfl
  | answer p => simp only [step, answer]; split <;> rfl
  | close p => simp only [step, close]; split <;> rfl
  | stop v => simp only [step]; split <;> rfl
  | signal => rfl

theorem listener_step (c : ControlPlane deps σ) (move : ControlMove)
    (cleared : (c.step storage reg arrivals fromStr move).listener u = .cleared) :
    c.listener u = .cleared ∨ move = .clear u ∧ c.listener u = .stopped := by
  cases move with
  | clear v =>
    simp only [step, clear] at cleared
    split at cleared
    · rename_i stopped
      by_cases here : v = u
      · subst here
        exact Or.inr ⟨rfl, stopped⟩
      · exact Or.inl (by simpa [Function.update_of_ne (Ne.symm here)] using cleared)
    · exact Or.inl cleared
  | stop v =>
    simp only [step] at cleared
    split at cleared
    · by_cases here : u = v
      · subst here
        simp at cleared
      · exact Or.inl (by simpa [Function.update_of_ne here] using cleared)
    · exact Or.inl cleared
  | process =>
    simp only [step, process] at cleared
    left
    split at cleared
    · split at cleared
      · exact cleared
      · split at cleared <;> exact cleared
    · rwa [(c.dispatchTaken_cluster reg _).2] at cleared
    · exact cleared
  | send p => exact Or.inl (by rwa [step, (c.send_cluster p).2] at cleared)
  | look late => exact Or.inl (by rwa [step, (c.conclude_cluster _).2] at cleared)
  | expire => exact Or.inl (by rwa [step, (c.conclude_cluster _).2] at cleared)
  | read k text =>
    simp only [step] at cleared
    left
    split at cleared
    · split at cleared <;> exact cleared
    · exact cleared
  | call k cmd => simp only [step] at cleared; split at cleared <;> exact Or.inl cleared
  | lost p => simp only [step, lost] at cleared; split at cleared <;> exact Or.inl cleared
  | answer p => simp only [step, answer] at cleared; split at cleared <;> exact Or.inl cleared
  | close p => simp only [step, close] at cleared; split at cleared <;> exact Or.inl cleared
  | signal => exact Or.inl cleared
  | request v i => exact Or.inl cleared

/-- The gate is in order, and its flag is down once it was cleared for the drain. -/
structure Draining (u : String) (c : ControlPlane deps σ) : Prop where
  valid : (c.cluster.gate u).Valid
  down : c.listener u = .cleared → (c.cluster.upstream u).pause.value = false

/-- Only a `Pause` raises the flag of a gate. -/
theorem gateMoves_raise {c : ControlPlane deps σ} {move : ControlMove} (raises : .set true ∈ gateMoves reg u c move) :
    move = .process ∧
      ∃ env target, c.processor = .dispatching env ∧ env.cmd = .pause target ∧ (target = none ∨ target = some u) := by
  cases move with
  | request v i =>
    simp only [gateMoves, Cluster.gateMoves] at raises
    split at raises <;> simp at raises
  | clear v =>
    simp only [gateMoves] at raises
    split at raises <;> simp at raises
  | process =>
    simp only [gateMoves] at raises
    split at raises
    · rename_i env taken
      refine ⟨rfl, env, ?_⟩
      cases cmd : env.cmd with
      | pause target =>
        simp only [cmd, Cluster.gateMoves] at raises
        split at raises
        · rename_i reaches
          exact ⟨target, taken, rfl, reaches.2⟩
        · simp at raises
      | resume target =>
        simp only [cmd, Cluster.gateMoves] at raises
        split at raises <;> simp at raises
      | _ => simp [cmd, Cluster.gateMoves] at raises
    · simp at raises
  | _ => simp [gateMoves] at raises

theorem value_exec_of_not_raised {g : Gate} {moves : List GateMove} (down : g.pause.value = false)
    (never : GateMove.set true ∉ moves) : (Execution.exec Gate.step g moves).pause.value = false := by
  induction moves generalizing g with
  | nil => exact down
  | cons move rest ih =>
    rw [Execution.exec_cons]
    refine ih ?_ fun later => never (List.mem_cons_of_mem _ later)
    cases move with
    | request i => exact down
    | set paused =>
      cases paused with
      | false => rfl
      | true => exact (never (List.mem_cons_self ..)).elim

theorem Draining.keep {c : ControlPlane deps σ} (draining : Draining u c) {move : ControlMove}
    (punctual : ¬ LatePause u c move) : Draining u (c.step storage reg arrivals fromStr move) := by
  have gate := gate_step storage reg arrivals fromStr u c move
  refine ⟨by rw [gate]; exact draining.valid.exec _, fun cleared => ?_⟩
  have value : ((c.step storage reg arrivals fromStr move).cluster.upstream u).pause.value =
      (Execution.exec Gate.step (c.cluster.gate u) (gateMoves reg u c move)).pause.value := by
    rw [← gate]
    rfl
  rw [value]
  rcases listener_step c move cleared with before | ⟨rfl, stopped⟩
  · refine value_exec_of_not_raised (draining.down before) fun raises => ?_
    obtain ⟨isProcess, pauses⟩ := gateMoves_raise raises
    exact punctual ⟨isProcess, before, pauses⟩
  · simp [gateMoves, stopped, Gate.step, Watch.sendReplace]

/-- On a gate whose flag is down nobody sleeps, and every request that has arrived is
two of its own steps from the way out. -/
theorem Draining.nobody {c : ControlPlane deps σ} (draining : Draining u c) (cleared : c.listener u = .cleared) (i : Nat) :
    ¬ Blocked c u i := by
  rintro ⟨seen, parked, pending⟩
  have informed := draining.valid.informed i
  have at_ : (c.cluster.gate u).phase i = .parked seen := by simp [Cluster.gate, parked, RequestPhase.gatePhase]
  rw [at_] at informed
  have woken : (c.cluster.upstream u).pause.changed seen = .ok (c.cluster.upstream u).pause.version :=
    Watch.Fresh.changed informed (by simp [draining.down cleared])
  rw [woken] at pending
  cases pending

theorem Draining.leaves {c : ControlPlane deps σ} (draining : Draining u c) (registered : (reg.get u).isSome)
    (cleared : c.listener u = .cleared) {i : Nat} (arrived : c.cluster.phase u i ≠ .gated .outside) :
    ((Execution.exec (ControlPlane.step storage reg arrivals fromStr) c
      [.request u i, .request u i]).cluster.phase u i).gatePhase = .left := by
  have inside : (c.cluster.gate u).phase i ≠ .outside := by
    intro outside
    cases phase : c.cluster.phase u i with
    | gated g =>
      simp only [Cluster.gate, phase, RequestPhase.gatePhase] at outside
      exact arrived (by rw [phase, outside])
    | handling p => simp [Cluster.gate, phase, RequestPhase.gatePhase] at outside
  have own : ∀ c : ControlPlane deps σ,
      (c.step storage reg arrivals fromStr (.request u i)).cluster.gate u = (c.cluster.gate u).step (.request i) := by
    intro c
    rw [gate_step]
    simp [gateMoves, Cluster.gateMoves, registered]
  have left := draining.valid.leaves inside (draining.down cleared)
  simp only [Execution.exec_cons, Execution.exec_nil, ← own] at left
  exact left

end Gates

section Runs
variable (storage : SnapshotStorage σ) {reg : UpstreamRegistry} (arrivals : String → Nat → Arrival)
  (fromStr : String → Except String WireCommand)

/-- Where no `Pause` is dispatched once the flag was cleared for the drain, the drain
leaves no request of the upstream behind the gate. -/
theorem drain_leaves_nobody {s : ClusterState deps σ} {u : String} (registered : (reg.get u).isSome)
    (fresh : (s.upstream u).pause = .channel false) {moves : List ControlMove}
    (punctual : Execution.Along (step storage reg arrivals fromStr) (fun c move => ¬ LatePause u c move) (start s) moves) :
    let c := run storage reg arrivals fromStr s moves
    c.listener u = .cleared → ∀ i, ¬ Blocked c u i ∧ (c.cluster.phase u i ≠ .gated .outside →
      ((Execution.exec (step storage reg arrivals fromStr) c [.request u i, .request u i]).cluster.phase u i).gatePhase =
        .left) := by
  intro c cleared i
  have begins : Draining u (start s) := by
    refine ⟨?_, by simp [start]⟩
    have gate : (start s).cluster.gate u = Gate.start := by
      simp only [start, Cluster.start, Cluster.gate, fresh]
      rfl
    rw [gate]
    exact Gate.valid_start
  have draining : Draining u c :=
    Execution.exec_invariant_along (step storage reg arrivals fromStr) (I := Draining u)
      (fun c move punctual draining => draining.keep punctual) begins punctual
  exact ⟨draining.nobody cleared i, draining.leaves registered cleared⟩

end Runs

/-- A caller pauses all upstreams, a request is parked, and the signal starts the
drain; the processor then exits. -/
def pausedThenDrained : List ControlMove :=
  [.call 0 (.pause none), .send (.caller 0), .process, .process, .request "api" 0, .request "api" 0, .request "api" 0,
    .signal, .stop "api", .clear "api", .process]

/-- The same, but the processor has only taken the `Pause` when the flag is cleared. -/
def drainedThenPaused : List ControlMove :=
  [.call 0 (.pause none), .send (.caller 0), .process, .signal, .stop "api", .clear "api", .process,
    .request "api" 0, .request "api" 0, .request "api" 0]

def refuseAll (_ : String) : Except String WireCommand := .error "expected value at line 1 column 1"

/-- A cluster of one upstream, `api`, whose connections send nothing that is JSON. -/
def sampleRun (moves : List ControlMove) : ControlPlane referenceDeps (List RecordedExchange) :=
  run inMemoryStorage (Cluster.referenceRegistry []) (fun _ _ => referenceGet referencePath (answering [])) refuseAll
    (Cluster.emptyState referenceDeps fun _ => []) moves

theorem drain_leaves_nobody_parked :
    let c := sampleRun pausedThenDrained
    c.listener "api" = .cleared ∧ c.cluster.phase "api" 0 = .gated (.parked 1) ∧ ¬ Blocked c "api" 0 := by
  intro c
  have punctual : Execution.Along (step inMemoryStorage (Cluster.referenceRegistry [])
      (fun _ _ => referenceGet referencePath (answering [])) refuseAll) (fun c move => ¬ LatePause "api" c move)
      (start (Cluster.emptyState referenceDeps fun _ => [])) pausedThenDrained := by
    refine ⟨?_, ?_, ?_, ?_, ?_, ?_, ?_, ?_, ?_, ?_, ?_, trivial⟩
    iterate 10
      · rintro ⟨_, ⟨⟩, _⟩
    · rintro ⟨_, _, env, target, ⟨⟩, _⟩
  exact ⟨rfl, rfl, (drain_leaves_nobody inMemoryStorage _ refuseAll rfl rfl punctual rfl 0).1⟩

theorem late_pause_blocks :
    let c := sampleRun drainedThenPaused
    c.listener "api" = .cleared ∧ Blocked c "api" 0 := by
  intro c
  exact ⟨rfl, 2, rfl, rfl⟩

end ControlPlane

end PartlyProxy
