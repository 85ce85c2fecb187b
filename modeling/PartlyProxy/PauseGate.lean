import PartlyProxy.Lib.Execution
import PartlyProxy.Lib.Watch
import Mathlib.Logic.Function.Basic
import Mathlib.Data.List.Induction

namespace PartlyProxy

/-- Where a request stands in `pause_gate`: before it, about to borrow the flag,
about to poll `changed`, parked in `changed`, and behind it. -/
inductive GatePhase where
  | outside
  | looking (seen : Nat)
  | awaiting (seen : Nat)
  | parked (seen : Nat)
  | left

/-- One poll of `rx.changed()`. When the sender is gone the gate is open. -/
def GatePhase.polled (pause : Watch Bool) (seen : Nat) : GatePhase :=
  match pause.changed seen with
  | .ok seen => .looking seen
  | .closed => .left
  | .pending => .parked seen

/-- The next step of a request in `pause_gate`. -/
def pauseGate (pause : Watch Bool) : GatePhase → GatePhase
  | .outside => .looking pause.subscribe
  | .looking seen => if pause.borrow then .awaiting seen else .left
  | .awaiting seen | .parked seen => .polled pause seen
  | .left => .left

/-- The gate of one upstream with any number of requests. The sender is part of
the runtime that every request holds, so that no move drops it. -/
structure Gate where
  pause : Watch Bool
  phase : Nat → GatePhase

/-- `set` is a `Pause` or a `Resume`, and also the unblocking at the start of the
drain. -/
inductive GateMove where
  | set (paused : Bool)
  | request (i : Nat)
deriving DecidableEq, Repr

namespace Gate

def start : Gate := ⟨.channel false, fun _ => .outside⟩

def step (g : Gate) : GateMove → Gate
  | .set paused => { g with pause := g.pause.sendReplace paused }
  | .request i => { g with phase := Function.update g.phase i (pauseGate g.pause (g.phase i)) }

def run (moves : List GateMove) : Gate := Execution.exec step start moves

/-- A request that is about to wait has seen a version whose value was `true`. -/
def Informed (pause : Watch Bool) : GatePhase → Prop
  | .looking seen => seen ≤ pause.version
  | .awaiting seen | .parked seen => pause.Fresh (· = true) seen
  | .outside | .left => True

theorem Informed.sendReplace {pause : Watch Bool} {p : GatePhase} (informed : Informed pause p) (paused : Bool) :
    Informed (pause.sendReplace paused) p := by
  cases p with
  | looking seen => exact Nat.le_succ_of_le informed
  | awaiting seen => exact Watch.Fresh.sendReplace informed paused
  | parked seen => exact Watch.Fresh.sendReplace informed paused
  | outside => trivial
  | left => trivial

theorem informed_polled {pause : Watch Bool} {seen : Nat} (fresh : pause.Fresh (· = true) seen) :
    Informed pause (.polled pause seen) := by
  unfold GatePhase.polled Watch.changed
  split_ifs
  · exact Nat.le_refl pause.version
  · trivial
  · exact fresh

theorem Informed.pauseGate {pause : Watch Bool} {p : GatePhase} (informed : Informed pause p) :
    Informed pause (pauseGate pause p) := by
  cases p with
  | outside => exact Nat.le_refl pause.version
  | looking seen =>
    by_cases paused : pause.borrow = true
    · rw [PartlyProxy.pauseGate, if_pos paused]
      exact Watch.fresh_borrow informed paused
    · rw [PartlyProxy.pauseGate, if_neg paused]
      trivial
  | awaiting seen => exact informed_polled informed
  | parked seen => exact informed_polled informed
  | left => trivial

structure Valid (g : Gate) : Prop where
  alive : g.pause.closed = false
  informed : ∀ i, Informed g.pause (g.phase i)

theorem Valid.step {g : Gate} (valid : Valid g) (move : GateMove) : Valid (g.step move) := by
  cases move with
  | set paused => exact ⟨valid.alive, fun i => (valid.informed i).sendReplace paused⟩
  | request i =>
    refine ⟨valid.alive, fun j => ?_⟩
    by_cases same : j = i
    · subst same
      simpa only [Gate.step, Function.update_self] using (valid.informed j).pauseGate
    · simpa only [Gate.step, Function.update_of_ne same] using valid.informed j

theorem Valid.exec {g : Gate} (valid : Valid g) (moves : List GateMove) : Valid (Execution.exec Gate.step g moves) :=
  Execution.exec_invariant Gate.step (I := Valid) (fun _ move valid => valid.step move) valid moves

theorem valid_start : Valid start := ⟨rfl, fun _ => trivial⟩

theorem valid_run (moves : List GateMove) : Valid (run moves) := valid_start.exec moves

/-- The flag turns from `true` to `false` by a `Resume` or the drain only. -/
theorem resumed_between {g : Gate} {moves : List GateMove} (before : g.pause.value = true)
    (after : (Execution.exec step g moves).pause.value = false) : GateMove.set false ∈ moves := by
  induction moves generalizing g with
  | nil =>
    rw [Execution.exec_nil, before] at after
    cases after
  | cons move rest ih =>
    rw [Execution.exec_cons] at after
    cases move with
    | set paused =>
      cases paused with
      | false => exact List.mem_cons_self ..
      | true => exact List.mem_cons_of_mem _ (ih rfl after)
    | request i => exact List.mem_cons_of_mem _ (ih (g := g.step (.request i)) before after)

/-- With a sender that is alive the only way out is to read `false`. -/
theorem leaves_looking {g : Gate} {i : Nat} (alive : g.pause.closed = false)
    (inside : g.phase i ≠ .left) (leaves : pauseGate g.pause (g.phase i) = .left) :
    (∃ seen, g.phase i = .looking seen) ∧ g.pause.value = false := by
  have stays : ∀ seen, GatePhase.polled g.pause seen ≠ .left := by
    intro seen
    unfold GatePhase.polled Watch.changed
    split_ifs <;> simp_all
  cases phase : g.phase i with
  | outside => simp [phase, pauseGate] at leaves
  | looking seen =>
    refine ⟨⟨seen, rfl⟩, ?_⟩
    cases flag : g.pause.value with
    | false => rfl
    | true => simp [phase, pauseGate, Watch.borrow, flag] at leaves
  | awaiting seen => exact (stays seen (by simpa only [phase, pauseGate] using leaves)).elim
  | parked seen => exact (stays seen (by simpa only [phase, pauseGate] using leaves)).elim
  | left => exact (inside phase).elim

theorem left_after_reading_false {g : Gate} (valid : Valid g) {moves : List GateMove} {i : Nat}
    (inside : g.phase i ≠ .left) (left : (Execution.exec step g moves).phase i = .left) :
    ∃ front back, moves = front ++ .request i :: back ∧
      (∃ seen, (Execution.exec step g front).phase i = .looking seen) ∧
      (Execution.exec step g front).pause.value = false := by
  induction moves using List.reverseRecOn with
  | nil => exact (inside left).elim
  | append_singleton front move ih =>
    by_cases before : (Execution.exec step g front).phase i = .left
    · obtain ⟨front', back, rfl, looks, read⟩ := ih before
      exact ⟨front', back ++ [move], by simp, looks, read⟩
    · rw [Execution.exec_snoc] at left
      cases move with
      | set paused => exact (before left).elim
      | request j =>
        by_cases same : i = j
        · subst same
          simp only [step, Function.update_self] at left
          exact ⟨front, [], rfl, leaves_looking (valid.exec front).alive before left⟩
        · simp only [step, Function.update_of_ne same] at left
          exact (before left).elim

/-- While the flag is down, two of its own steps take any request out of the gate. -/
theorem Valid.leaves {g : Gate} (valid : Valid g) {i : Nat} (arrived : g.phase i ≠ .outside)
    (open_ : g.pause.value = false) :
    (Execution.exec Gate.step g [.request i, .request i]).phase i = .left := by
  have woken : ∀ {seen}, g.pause.Fresh (· = true) seen → g.pause.changed seen = .ok g.pause.version :=
    fun fresh => fresh.changed (by simp [open_])
  have informed := valid.informed i
  cases phase : g.phase i with
  | outside => exact (arrived phase).elim
  | looking seen => simp [Gate.step, pauseGate, phase, Watch.borrow, open_]
  | awaiting seen =>
    rw [phase] at informed
    simp [Gate.step, pauseGate, phase, GatePhase.polled, woken informed, Watch.borrow, open_]
  | parked seen =>
    rw [phase] at informed
    simp [Gate.step, pauseGate, phase, GatePhase.polled, woken informed, Watch.borrow, open_]
  | left => simp [Gate.step, pauseGate, phase]

/-- For any interleaving of `Pause`, `Resume` and requests: a request leaves the
gate by reading the flag as `false` after it has arrived; one that arrives after
the flag was up leaves only after a later `Resume` or the drain; a parked request
whose version is current waits on a raised flag, and once the flag is down every
request finds its way out. -/
theorem pause_gate_safe (moves : List GateMove) (i : Nat) :
    let g := run moves
    (g.phase i = .left → ∃ front back, moves = front ++ .request i :: back ∧
      (∃ seen, (run front).phase i = .looking seen) ∧ (run front).pause.value = false) ∧
    (∀ front back, moves = front ++ back → (run front).pause.value = true → (run front).phase i = .outside →
      g.phase i = .left → GateMove.set false ∈ back) ∧
    (∀ seen, g.phase i = .parked seen → seen = g.pause.version → g.pause.value = true) ∧
    (g.phase i ≠ .outside → g.pause.value = false →
      (run (moves ++ [.request i, .request i])).phase i = .left) := by
  intro g
  have valid : Valid g := valid_run moves
  refine ⟨left_after_reading_false valid_start (by simp [start]), ?_, ?_, fun arrived open_ => ?_⟩
  · rintro front back rfl paused outside left
    have later : (Execution.exec step (run front) back).phase i = .left := by
      rwa [run, ← Execution.exec_append]
    obtain ⟨middle, rest, rfl, _, read⟩ :=
      left_after_reading_false (valid_run front) (by simp [outside]) later
    exact List.mem_append_left _ (resumed_between paused read)
  · intro seen parked current
    have informed := valid.informed i
    rw [parked] at informed
    exact informed.known current
  · rw [run, Execution.exec_append]
    exact valid.leaves arrived open_

end Gate

end PartlyProxy
