import Mathlib.Algebra.GroupWithZero.Nat
import PartlyProxy.Shutdown
import PartlyProxy.ControlPlane
import PartlyProxy.Lib.History

namespace PartlyProxy

/-- `std::io::ErrorKind`, as far as it is told apart. -/
inductive ErrorKind where
  | connectionReset
  | connectionAborted
  | interrupted
  | other
deriving DecidableEq, Repr

def isFatalAccept (kind : ErrorKind) : Bool :=
  !(kind = .connectionReset || kind = .connectionAborted || kind = .interrupted)

/-- What `listener.accept()` returns. -/
inductive Accepted where
  | stream
  | error (kind : ErrorKind)

inductive ConnectionEnd where
  | resolved
  | handshakeFailed
  | handshakeAborted
  | aborted
deriving DecidableEq, Repr

/-- Where `serve_one` stands: at the TLS handshake, or at its first or second `select!`. -/
inductive ConnectionPhase where
  | handshaking
  | serving
  | draining
  | ended (how : ConnectionEnd)
deriving DecidableEq, Repr

/-- A connection with the exchanges that are in flight on it. -/
structure Connection where
  phase : ConnectionPhase
  exchanges : List Nat
deriving DecidableEq, Repr

def Connection.isEnded (conn : Connection) : Bool :=
  match conn.phase with
  | .ended _ => true
  | _ => false

/-- Where `accept_loop` stands: in its loop, behind it, behind the unblocking of the pause
gate, in the wait for the tracker with the instant at which that times out, in the wait
behind the abort, or at its end; or its task was aborted from outside. -/
inductive LoopPhase where
  | accepting
  | stopped
  | cleared
  | draining (deadline : Nat)
  | aborting
  | exited
  | killed
deriving DecidableEq, Repr

/-- An exchange that was dropped by the abort, and when. -/
structure CutExchange where
  connection : Nat
  exchange : Nat
  time : Nat

/-- The accept loop of one upstream with its connections, in the order in which they were
accepted. `begun` tells when the drain began and which deadline it took. -/
structure AcceptLoop where
  clock : Nat
  shutdown : Watch (Option Nat)
  seen : Nat
  phase : LoopPhase
  accepted : Nat
  connection : Nat → Connection
  drain : Bool
  abort : Bool
  begun : Option (Nat × Nat)
  exitedAt : Option Nat
  cut : List CutExchange

/-- What can happen next: the signal is sent or its sender dropped, the loop is polled, a
handshake ends, an exchange begins or completes, a connection resolves or is woken by a
token, the task of the loop is aborted, or time passes. -/
inductive AcceptMove where
  | signal (timeout : Nat)
  | dropSender
  | poll (accepted : Option Accepted)
  | proceed
  | handshake (k : Nat) (ok : Bool)
  | begin (k x : Nat)
  | complete (k x : Nat)
  | resolve (k : Nat)
  | wake (k : Nat)
  | kill
  | tick (n : Nat)

def defaultDeadline : Nat := 5 * oneSecond

namespace AcceptLoop

def start : AcceptLoop where
  clock := 0
  shutdown := .channel none
  seen := 0
  phase := .accepting
  accepted := 0
  connection _ := ⟨.ended .resolved, []⟩
  drain := false
  abort := false
  begun := none
  exitedAt := none
  cut := []

def setConnection (c : AcceptLoop) (k : Nat) (conn : Connection) : AcceptLoop :=
  { c with connection := Function.update c.connection k conn }

/-- `tracker.wait()` returns. -/
def drained (c : AcceptLoop) : Bool := (List.range c.accepted).all fun k => (c.connection k).isEnded

section Step
variable (tls : Bool)

/-- A connection is spawned. With TLS it begins with the handshake. -/
def accept (c : AcceptLoop) : AcceptLoop :=
  { c with
    connection := Function.update c.connection c.accepted ⟨if tls then .handshaking else .serving, []⟩
    accepted := c.accepted + 1 }

/-- One turn of the `select!`, which is biased: the signal is looked at first. -/
def poll (c : AcceptLoop) (accepted : Option Accepted) : AcceptLoop :=
  match c.phase with
  | .accepting =>
    match c.shutdown.changed c.seen with
    | .closed => { c with phase := .stopped }
    | .ok seen =>
      if c.shutdown.borrow.isSome then { c with phase := .stopped, seen := seen } else { c with seen := seen }
    | .pending =>
      match accepted with
      | none => c
      | some .stream => c.accept tls
      | some (.error kind) => if isFatalAccept kind then { c with phase := .stopped } else c
  | _ => c

/-- A step of the loop behind its `select!`. -/
def proceed (c : AcceptLoop) : AcceptLoop :=
  match c.phase with
  | .stopped => { c with phase := .cleared }
  | .cleared =>
    -- Without a signal there is a deadline, too.
    let timeout := c.shutdown.borrow.getD defaultDeadline
    { c with phase := .draining (c.clock + timeout), drain := true, begun := some (c.clock, timeout) }
  | .draining deadline =>
    if c.drained then { c with phase := .exited, exitedAt := some c.clock }
    else if deadline ≤ c.clock then { c with phase := .aborting, abort := true }
    else c
  | .aborting => if c.drained then { c with phase := .exited, exitedAt := some c.clock } else c
  | _ => c

/-- A task of a connection is woken by the token that it waits for. -/
def wake (c : AcceptLoop) (k : Nat) : AcceptLoop :=
  match (c.connection k).phase with
  | .handshaking => if c.drain then c.setConnection k ⟨.ended .handshakeAborted, []⟩ else c
  | .serving => if c.drain then c.setConnection k { c.connection k with phase := .draining } else c
  | .draining =>
    if c.abort then
      { c.setConnection k ⟨.ended .aborted, []⟩ with
        cut := c.cut ++ (c.connection k).exchanges.map fun x => ⟨k, x, c.clock⟩ }
    else c
  | .ended _ => c

def handshake (c : AcceptLoop) (k : Nat) (ok : Bool) : AcceptLoop :=
  match (c.connection k).phase with
  | .handshaking => c.setConnection k ⟨if ok then .serving else .ended .handshakeFailed, []⟩
  | _ => c

/-- What hyper does with a connection that is served or drains. -/
def exchange (c : AcceptLoop) (k : Nat) (f : List Nat → List Nat) : AcceptLoop :=
  match (c.connection k).phase with
  | .serving | .draining => c.setConnection k { c.connection k with exchanges := f (c.connection k).exchanges }
  | _ => c

/-- The future of a connection resolves: the peer is gone, or it has nothing left to do. -/
def resolve (c : AcceptLoop) (k : Nat) : AcceptLoop :=
  match (c.connection k).phase with
  | .serving | .draining => c.setConnection k ⟨.ended .resolved, []⟩
  | _ => c

def step (c : AcceptLoop) : AcceptMove → AcceptLoop
  | .signal timeout => { c with shutdown := c.shutdown.sendReplace (some timeout) }
  | .dropSender => { c with shutdown := { c.shutdown with closed := true } }
  | .poll accepted => c.poll tls accepted
  | .proceed => c.proceed
  | .handshake k ok => c.handshake k ok
  | .begin k x => c.exchange k fun exchanges => exchanges ++ [x]
  | .complete k x => c.exchange k fun exchanges => exchanges.erase x
  | .resolve k => c.resolve k
  | .wake k => c.wake k
  | .kill => if c.phase = .exited then c else { c with phase := .killed }
  | .tick n => { c with clock := c.clock + n }

def run (moves : List AcceptMove) : AcceptLoop := Execution.exec (step tls) start moves

/-- All that a move can do. -/
inductive Stepped (c : AcceptLoop) : AcceptMove → AcceptLoop → Prop
  | rests (move : AcceptMove) : Stepped c move c
  | signals (timeout : Nat) : Stepped c (.signal timeout) { c with shutdown := c.shutdown.sendReplace (some timeout) }
  | drops : Stepped c .dropSender { c with shutdown := { c.shutdown with closed := true } }
  | sees {accepted} : c.phase = .accepting → c.shutdown.borrow = none →
      Stepped c (.poll accepted) { c with seen := c.shutdown.version }
  | stops {accepted} (seen : Nat) : c.phase = .accepting → Stepped c (.poll accepted) { c with phase := .stopped, seen := seen }
  | accepts : c.phase = .accepting → c.shutdown.changed c.seen = .pending → Stepped c (.poll (some .stream)) (c.accept tls)
  | clears : c.phase = .stopped → Stepped c .proceed { c with phase := .cleared }
  | drains {timeout} : c.phase = .cleared → timeout = c.shutdown.borrow.getD defaultDeadline →
      Stepped c .proceed
        { c with phase := .draining (c.clock + timeout), drain := true, begun := some (c.clock, timeout) }
  | aborts {deadline} : c.phase = .draining deadline → deadline ≤ c.clock →
      Stepped c .proceed { c with phase := .aborting, abort := true }
  | exits : (∃ deadline, c.phase = .draining deadline) ∨ c.phase = .aborting → c.drained = true →
      Stepped c .proceed { c with phase := .exited, exitedAt := some c.clock }
  | moves {move k conn} : (c.connection k).isEnded = false →
      (conn.phase = .draining → (c.connection k).phase = .draining ∨ c.drain = true) →
      (conn.phase = .ended .handshakeAborted → c.drain = true) → conn.phase ≠ .ended .aborted →
      Stepped c move (c.setConnection k conn)
  | cuts {k} : (c.connection k).phase = .draining → c.abort = true →
      Stepped c (.wake k) { c.setConnection k ⟨.ended .aborted, []⟩ with
        cut := c.cut ++ (c.connection k).exchanges.map fun x => ⟨k, x, c.clock⟩ }
  | kills : c.phase ≠ .exited → Stepped c .kill { c with phase := .killed }
  | ticks (n : Nat) : Stepped c (.tick n) { c with clock := c.clock + n }

theorem stepped_poll (c : AcceptLoop) (accepted : Option Accepted) : Stepped tls c (.poll accepted) (c.poll tls accepted) := by
  unfold poll
  split
  · rename_i accepting
    split
    · exact .stops c.seen accepting
    · rename_i seen changed
      have seenVersion : seen = c.shutdown.version := by
        unfold Watch.changed at changed
        split at changed
        · cases changed
          rfl
        · split at changed <;> cases changed
      split
      · exact .stops seen accepting
      · rename_i unset
        rw [seenVersion]
        exact .sees accepting (by simpa using unset)
    · rename_i unchanged
      split
      · exact .rests _
      · exact .accepts accepting unchanged
      · split
        · exact .stops c.seen accepting
        · exact .rests _
  · exact .rests _

theorem stepped_proceed (c : AcceptLoop) : Stepped tls c .proceed c.proceed := by
  unfold proceed
  split
  · exact .clears ‹_›
  · exact .drains ‹_› rfl
  · rename_i deadline draining
    split
    · exact .exits (Or.inl ⟨deadline, draining⟩) ‹_›
    · split
      · exact .aborts draining ‹_›
      · exact .rests _
  · rename_i aborting
    split
    · exact .exits (Or.inr aborting) ‹_›
    · exact .rests _
  · exact .rests _

theorem isEnded_of_phase {conn : Connection} (alive : ∀ how, conn.phase ≠ .ended how) : conn.isEnded = false := by
  unfold Connection.isEnded
  split
  · exact (alive _ ‹_›).elim
  · rfl

theorem stepped_wake (c : AcceptLoop) (k : Nat) : Stepped tls c (.wake k) (c.wake k) := by
  unfold wake
  split
  · rename_i at_
    split
    · rename_i drain
      exact .moves (isEnded_of_phase (by simp [at_])) (by simp) (fun _ => drain) (by simp)
    · exact .rests _
  · rename_i at_
    split
    · rename_i drain
      exact .moves (isEnded_of_phase (by simp [at_])) (fun _ => Or.inr drain) (fun _ => drain) (by simp)
    · exact .rests _
  · rename_i at_
    split
    · exact .cuts at_ ‹_›
    · exact .rests _
  · exact .rests _

theorem stepped_exchange (c : AcceptLoop) (move : AcceptMove) (k : Nat) (f : List Nat → List Nat) :
    Stepped tls c move (c.exchange k f) := by
  unfold exchange
  split
  · rename_i at_
    exact .moves (isEnded_of_phase (by simp [at_])) (by simp [at_]) (by simp [at_]) (by simp [at_])
  · rename_i at_
    exact .moves (isEnded_of_phase (by simp [at_])) (by simp [at_]) (by simp [at_]) (by simp [at_])
  · exact .rests _

theorem stepped (c : AcceptLoop) (move : AcceptMove) : Stepped tls c move (c.step tls move) := by
  cases move with
  | signal timeout => exact .signals timeout
  | dropSender => exact .drops
  | poll accepted => exact stepped_poll tls c accepted
  | proceed => exact stepped_proceed tls c
  | handshake k ok =>
    simp only [step, handshake]
    split
    · rename_i at_
      cases ok <;> exact .moves (isEnded_of_phase (by simp [at_])) (by simp) (by simp) (by simp)
    · exact .rests _
  | begin k x => exact stepped_exchange tls c (.begin k x) k fun exchanges => exchanges ++ [x]
  | complete k x => exact stepped_exchange tls c (.complete k x) k fun exchanges => exchanges.erase x
  | resolve k =>
    simp only [step, resolve]
    split
    · rename_i at_
      exact .moves (isEnded_of_phase (by simp [at_])) (by simp) (by simp) (by simp)
    · rename_i at_
      exact .moves (isEnded_of_phase (by simp [at_])) (by simp) (by simp) (by simp)
    · exact .rests _
  | wake k => exact stepped_wake tls c k
  | kill =>
    simp only [step]
    split
    · exact .rests _
    · exact .kills ‹_›
  | tick n => exact .ticks n

end Step

section Invariant

/-- What holds whenever the loop runs. -/
structure Sound (c : AcceptLoop) : Prop where
  fresh : c.phase = .accepting → c.shutdown.Fresh (fun value => value = none) c.seen
  early : c.phase = .accepting ∨ c.phase = .stopped ∨ c.phase = .cleared → c.begun = none
  tokens : c.drain = c.begun.isSome
  deadline : ∀ d, c.phase = .draining d → ∃ at_ timeout, c.begun = some (at_, timeout) ∧ d = at_ + timeout
  abort : c.abort = true → ∃ at_ timeout, c.begun = some (at_, timeout) ∧ at_ + timeout ≤ c.clock
  aborting : c.phase = .aborting → c.abort = true
  draining : ∀ k, (c.connection k).phase = .draining ∨ (c.connection k).phase = .ended .handshakeAborted → c.drain = true
  aborted : ∀ k, (c.connection k).phase = .ended .aborted → c.abort = true
  later : ∀ k, c.accepted ≤ k → (c.connection k).isEnded = true
  exited : c.phase = .exited → ∀ k, (c.connection k).isEnded = true
  exitedAt : c.phase ≠ .exited → c.exitedAt = none
  cut : ∀ x ∈ c.cut, ∃ at_ timeout, c.begun = some (at_, timeout) ∧ at_ + timeout ≤ x.time

theorem sound_start : Sound start where
  fresh _ := Watch.fresh_borrow (Nat.le_refl 0) rfl
  early _ := rfl
  tokens := rfl
  deadline := by
    intro d phase
    cases phase
  abort := by
    intro aborted
    cases aborted
  aborting := by
    intro phase
    cases phase
  draining := by
    intro k phase
    rcases phase with phase | phase <;> cases phase
  aborted := by
    intro k phase
    cases phase
  later _ _ := rfl
  exited _ _ := rfl
  exitedAt _ := rfl
  cut := by
    intro x member
    cases member

variable {tls : Bool}

theorem setConnection_self (c : AcceptLoop) (k : Nat) (conn : Connection) : (c.setConnection k conn).connection k = conn :=
  Function.update_self ..

theorem setConnection_other (c : AcceptLoop) {k j : Nat} (apart : j ≠ k) (conn : Connection) :
    (c.setConnection k conn).connection j = c.connection j := Function.update_of_ne apart ..

/-- What holds of the new connection and of all the old ones holds of all. -/
theorem forall_setConnection {P : Nat → Connection → Prop} {c : AcceptLoop} {k : Nat} {conn : Connection}
    (all : ∀ j, P j (c.connection j)) (here : P k conn) (j : Nat) : P j ((c.setConnection k conn).connection j) := by
  by_cases same : j = k
  · subst same
    rw [setConnection_self]
    exact here
  · rw [setConnection_other c same]
    exact all j

theorem drained_iff {c : AcceptLoop} (sound : c.Sound) : c.drained = true ↔ ∀ k, (c.connection k).isEnded = true := by
  simp only [drained, List.all_eq_true, List.mem_range]
  constructor
  · intro ended k
    by_cases accepted : k < c.accepted
    · exact ended k accepted
    · exact sound.later k (by omega)
  · exact fun ended k _ => ended k

/-- A connection that is not ended has been accepted, and the loop has not come to its end. -/
theorem Sound.alive {c : AcceptLoop} (sound : c.Sound) {k : Nat} (alive : (c.connection k).isEnded = false) :
    k < c.accepted ∧ c.phase ≠ .exited := by
  constructor
  · by_contra later
    rw [sound.later k (by omega)] at alive
    cases alive
  · intro exited
    rw [sound.exited exited k] at alive
    cases alive

theorem Sound.setConnection {c : AcceptLoop} (sound : c.Sound) {k : Nat} {conn : Connection}
    (alive : (c.connection k).isEnded = false)
    (drains : conn.phase = .draining ∨ conn.phase = .ended .handshakeAborted → c.drain = true)
    (aborts : conn.phase = .ended .aborted → c.abort = true) : (c.setConnection k conn).Sound := by
  obtain ⟨accepted, running⟩ := sound.alive alive
  exact
    { fresh := sound.fresh
      early := sound.early
      tokens := sound.tokens
      deadline := sound.deadline
      abort := sound.abort
      aborting := sound.aborting
      draining := forall_setConnection
        (P := fun _ conn => conn.phase = .draining ∨ conn.phase = .ended .handshakeAborted → c.drain = true)
        sound.draining drains
      aborted := forall_setConnection (P := fun _ conn => conn.phase = .ended .aborted → c.abort = true)
        sound.aborted aborts
      later := forall_setConnection (P := fun j conn => c.accepted ≤ j → conn.isEnded = true) sound.later
        fun unaccepted => absurd accepted (Nat.not_lt.mpr unaccepted)
      exited := fun exited => absurd exited running
      exitedAt := sound.exitedAt
      cut := sound.cut }

theorem Sound.accept {c : AcceptLoop} (sound : c.Sound) (accepting : c.phase = .accepting) : (c.accept tls).Sound := by
  have unbegun := sound.early (Or.inl accepting)
  have running : c.phase ≠ .exited := by simp [accepting]
  have news : ∀ j, (c.accept tls).connection j = c.connection j ∨
      (c.accept tls).connection j = ⟨if tls then .handshaking else .serving, []⟩ := by
    intro j
    by_cases here : j = c.accepted
    · subst here
      exact Or.inr (Function.update_self ..)
    · exact Or.inl (Function.update_of_ne here ..)
  refine
    { fresh := sound.fresh
      early := sound.early
      tokens := sound.tokens
      deadline := sound.deadline
      abort := sound.abort
      aborting := sound.aborting
      draining := fun j phase => ?_
      aborted := fun j phase => ?_
      later := fun j unaccepted => ?_
      exited := fun exited => absurd exited running
      exitedAt := sound.exitedAt
      cut := sound.cut }
  · rcases news j with old | new
    · rw [old] at phase
      exact sound.draining j phase
    · rw [new] at phase
      cases tls <;> simp at phase
  · rcases news j with old | new
    · rw [old] at phase
      exact sound.aborted j phase
    · rw [new] at phase
      cases tls <;> simp at phase
  · have unaccepted : c.accepted + 1 ≤ j := unaccepted
    have other : (c.accept tls).connection j = c.connection j := Function.update_of_ne (by omega) ..
    rw [other]
    exact sound.later j (by omega)

theorem Sound.step {c c' : AcceptLoop} {move : AcceptMove} (sound : c.Sound) (steps : Stepped tls c move c') : c'.Sound := by
  cases steps with
  | rests => exact sound
  | signals timeout => exact { sound with fresh := fun accepting => (sound.fresh accepting).sendReplace _ }
  | drops =>
    refine { sound with fresh := fun accepting => ?_ }
    obtain ⟨past, known⟩ := sound.fresh accepting
    exact ⟨past, known⟩
  | sees accepting unset => exact { sound with fresh := fun _ => Watch.fresh_borrow (Nat.le_refl _) unset }
  | stops seen accepting =>
    have unbegun := sound.early (Or.inl accepting)
    have unexited := sound.exitedAt (by simp [accepting])
    refine
      { sound with
        fresh := ?_
        early := fun _ => unbegun
        deadline := ?_
        aborting := ?_
        exited := ?_
        exitedAt := fun _ => unexited }
    · simp
    · simp
    · simp
    · simp
  | accepts accepting => exact sound.accept accepting
  | clears stopped =>
    have unbegun := sound.early (Or.inr (Or.inl stopped))
    have unexited := sound.exitedAt (by simp [stopped])
    refine
      { sound with
        fresh := ?_
        early := fun _ => unbegun
        deadline := ?_
        aborting := ?_
        exited := ?_
        exitedAt := fun _ => unexited }
    · simp
    · simp
    · simp
    · simp
  | @drains timeout cleared isTimeout =>
    have unbegun := sound.early (Or.inr (Or.inr cleared))
    have undrained : c.drain = false := by rw [sound.tokens, unbegun, Option.isSome_none]
    have unaborted : c.abort = false := by
      cases aborted : c.abort with
      | false => rfl
      | true =>
        obtain ⟨_, _, begun, _⟩ := sound.abort aborted
        rw [unbegun] at begun
        cases begun
    refine
      { sound with
        fresh := ?_
        early := ?_
        tokens := rfl
        deadline := ?_
        abort := ?_
        aborting := ?_
        draining := fun _ _ => rfl
        exited := ?_
        exitedAt := fun _ => sound.exitedAt (by simp [cleared])
        cut := ?_ }
    · simp
    · simp
    · intro d phase
      cases phase
      exact ⟨c.clock, timeout, rfl, rfl⟩
    · intro aborted
      rw [show c.abort = true from aborted] at unaborted
      cases unaborted
    · simp
    · simp
    · intro x member
      obtain ⟨_, _, begun, _⟩ := sound.cut x member
      rw [unbegun] at begun
      cases begun
  | @aborts deadline draining due =>
    obtain ⟨at_, timeout, begun, isDeadline⟩ := sound.deadline deadline draining
    refine
      { sound with
        fresh := ?_
        early := ?_
        deadline := ?_
        abort := fun _ => ⟨at_, timeout, begun, isDeadline ▸ due⟩
        aborting := fun _ => rfl
        aborted := fun _ _ => rfl
        exited := ?_
        exitedAt := fun _ => sound.exitedAt (by simp [draining]) }
    · simp
    · simp
    · simp
    · simp
  | exits waiting drained =>
    refine
      { sound with
        fresh := ?_
        early := ?_
        deadline := ?_
        aborting := ?_
        exited := fun _ => (drained_iff sound).mp drained
        exitedAt := ?_ }
    · simp
    · simp
    · simp
    · simp
    · simp
  | moves alive toDraining toAborted notAborted =>
    refine sound.setConnection alive ?_ fun aborted => absurd aborted notAborted
    rintro (draining | aborted)
    · rcases toDraining draining with before | drain
      · exact sound.draining _ (Or.inl before)
      · exact drain
    · exact toAborted aborted
  | @cuts k draining abort =>
    have alive : (c.connection k).isEnded = false := isEnded_of_phase (by simp [draining])
    have moved : (c.setConnection k ⟨.ended .aborted, []⟩).Sound :=
      sound.setConnection alive (by simp) fun _ => abort
    refine { moved with cut := ?_ }
    intro x member
    rcases List.mem_append.mp member with old | new
    · exact sound.cut x old
    · obtain ⟨_, _, rfl⟩ := List.mem_map.mp new
      exact sound.abort abort
  | kills running =>
    have unexited := sound.exitedAt running
    refine
      { sound with
        fresh := ?_
        early := ?_
        deadline := ?_
        aborting := ?_
        exited := ?_
        exitedAt := fun _ => unexited }
    · simp
    · simp
    · simp
    · simp
    · simp
  | ticks n =>
    refine { sound with abort := fun aborted => ?_ }
    obtain ⟨at_, timeout, begun, due⟩ := sound.abort aborted
    exact ⟨at_, timeout, begun, Nat.le_trans due (Nat.le_add_right _ _)⟩

theorem sound_run (moves : List AcceptMove) : (run tls moves).Sound :=
  Execution.exec_invariant (step tls) (fun c move sound => sound.step (stepped tls c move)) sound_start moves

end Invariant

section Drain
variable {tls : Bool}

/-- The signal was sent, or the loop has been left. -/
def Stopping (c : AcceptLoop) : Prop := c.shutdown.borrow.isSome = true ∨ c.phase ≠ .accepting

theorem exitedAt_step {c c' : AcceptLoop} {move : AcceptMove} (steps : Stepped tls c move c')
    (left : c.phase = .exited → c.exitedAt.isSome = true) (exited : c'.phase = .exited) : c'.exitedAt.isSome = true := by
  cases steps with
  | exits => rfl
  | stops | clears | drains | aborts | kills => cases exited
  | _ => exact left exited

theorem exitedAt_run {moves : List AcceptMove} (exited : (run tls moves).phase = .exited) :
    (run tls moves).exitedAt.isSome = true := by
  have left : (run tls moves).phase = .exited → (run tls moves).exitedAt.isSome = true :=
    Execution.exec_invariant (I := fun c => c.phase = .exited → c.exitedAt.isSome = true) (step tls)
      (fun c move left => exitedAt_step (stepped tls c move) left) (by simp [start]) moves
  exact left exited

end Drain

section Time
variable {tls : Bool}

/-- A token that the task of the connection waits for is cancelled. -/
def wakeable (c : AcceptLoop) (k : Nat) : Bool :=
  match (c.connection k).phase with
  | .handshaking | .serving => c.drain
  | .draining => c.abort
  | .ended _ => false

/-- The loop could go on without anything from outside. -/
def ready (c : AcceptLoop) : Bool :=
  match c.phase with
  | .accepting =>
    match c.shutdown.changed c.seen with
    | .pending => false
    | _ => true
  | .stopped | .cleared => true
  | .draining deadline => c.drained || deadline ≤ c.clock
  | .aborting => c.drained
  | .exited | .killed => false

def busy (c : AcceptLoop) : Bool := c.ready || (List.range c.accepted).any c.wakeable

/-- The time that a move lets pass while a task is ready, or after a timer is due. -/
def lag (c : AcceptLoop) : AcceptMove → Nat
  | .tick n =>
    if c.busy then n
    else match c.phase with
      | .draining deadline => c.clock + n - deadline
      | _ => 0
  | _ => 0

/-- How late the runtime is in a run, all in all. -/
def totalLag (tls : Bool) (c : AcceptLoop) (moves : List AcceptMove) : Nat :=
  (Execution.history (step tls) (fun d move => [d.lag move]) c moves).sum

/-- What holds after a signal with this timeout, whose loop is late by at most `late - timeout`. -/
structure Timely (signalledAt timeout late : Nat) (c : AcceptLoop) : Prop where
  signal : c.shutdown.borrow = some timeout
  since : signalledAt ≤ c.clock
  begun : ∀ at_ timeout', c.begun = some (at_, timeout') → signalledAt ≤ at_ ∧ timeout' = timeout
  alive : c.phase ≠ .killed
  before : c.phase = .accepting ∨ c.phase = .stopped ∨ c.phase = .cleared → c.clock ≤ signalledAt + late
  deadline : ∀ d, c.phase = .draining d → d ≤ signalledAt + timeout + late
  running : c.phase ≠ .exited → c.clock ≤ signalledAt + timeout + late
  exited : ∀ e, c.exitedAt = some e → e ≤ signalledAt + timeout + late

/-- A loop that has been signalled only rests to wait for its connections until the deadline. -/
theorem Timely.idle {c : AcceptLoop} {signalledAt timeout late : Nat} (sound : c.Sound)
    (timely : c.Timely signalledAt timeout late) (idle : c.busy = false) :
    (∃ d, c.phase = .draining d) ∨ c.phase = .exited := by
  simp only [busy, Bool.or_eq_false_iff] at idle
  obtain ⟨unready, asleep⟩ := idle
  cases at_ : c.phase with
  | accepting =>
    have outdated : ¬ c.shutdown.value = none := by
      have signal := timely.signal
      simp only [Watch.borrow] at signal
      simp [signal]
    simp [ready, at_, (sound.fresh at_).changed outdated] at unready
  | stopped => simp [ready, at_] at unready
  | cleared => simp [ready, at_] at unready
  | draining d => exact Or.inl ⟨d, rfl⟩
  | aborting =>
    -- Whoever is not at its end is woken by the abort, if not by the drain.
    exfalso
    have abort := sound.aborting at_
    have drain : c.drain = true := by
      obtain ⟨_, _, begun, _⟩ := sound.abort abort
      rw [sound.tokens, begun, Option.isSome_some]
    have undrained : c.drained = false := by simpa [ready, at_] using unready
    obtain ⟨k, accepted, alive⟩ := List.all_eq_false.mp undrained
    have woken : c.wakeable k = true := by
      unfold Connection.isEnded at alive
      unfold wakeable
      split at alive
      · exact absurd rfl alive
      · rename_i notEnded
        split
        · exact drain
        · exact drain
        · exact abort
        · rename_i ended
          exact (notEnded _ ended).elim
    have sleeps := List.any_eq_false.mp asleep k accepted
    exact sleeps woken
  | exited => exact Or.inr rfl
  | killed => exact (timely.alive at_).elim

theorem Timely.mono {c : AcceptLoop} {signalledAt timeout late late' : Nat} (timely : c.Timely signalledAt timeout late)
    (later : late ≤ late') : c.Timely signalledAt timeout late' where
  signal := timely.signal
  since := timely.since
  begun := timely.begun
  alive := timely.alive
  before phase := by
    have bound := timely.before phase
    omega
  deadline d draining := by
    have bound := timely.deadline d draining
    omega
  running running := by
    have bound := timely.running running
    omega
  exited e exitedAt := by
    have bound := timely.exited e exitedAt
    omega

/-- Time passes: beyond the deadline only as far as the runtime is late. -/
theorem Timely.tick {c : AcceptLoop} {signalledAt timeout late : Nat} (sound : c.Sound)
    (timely : c.Timely signalledAt timeout late) (n : Nat) :
    Timely signalledAt timeout (late + c.lag (.tick n)) { c with clock := c.clock + n } := by
  have later := timely.mono (Nat.le_add_right late (c.lag (.tick n)))
  have since : signalledAt ≤ c.clock + n := Nat.le_trans timely.since (Nat.le_add_right _ _)
  cases busy : c.busy with
  | true =>
    have isLag : c.lag (.tick n) = n := by simp [lag, busy]
    refine { later with since, before := fun phase => ?_, running := fun running => ?_ }
    · have bound := timely.before phase
      simp only [isLag]
      omega
    · have bound := timely.running running
      simp only [isLag]
      omega
  | false =>
    rcases timely.idle sound busy with ⟨d, draining⟩ | exited
    · have isLag : c.lag (.tick n) = c.clock + n - d := by simp [lag, busy, draining]
      have due := timely.deadline d draining
      refine { later with since, before := ?_, running := fun _ => ?_ }
      · simp [draining]
      · simp only [isLag]
        omega
    · refine { later with since, before := ?_, running := fun running => ?_ }
      · simp [exited]
      · exact (running exited).elim

theorem Timely.step {c : AcceptLoop} {signalledAt timeout late : Nat} {move : AcceptMove} (sound : c.Sound)
    (timely : c.Timely signalledAt timeout late) (unsignalled : ∀ timeout', move ≠ .signal timeout')
    (unkilled : move ≠ .kill) : (c.step tls move).Timely signalledAt timeout (late + c.lag move) := by
  have later := timely.mono (Nat.le_add_right late (c.lag move))
  have steps := stepped tls c move
  generalize c.step tls move = c' at steps
  cases steps with
  | rests => exact later
  | signals timeout' => exact (unsignalled timeout' rfl).elim
  | drops => exact { later with }
  | sees accepting => exact { later with }
  | stops seen accepting =>
    refine { later with
      alive := by simp
      before := fun _ => later.before (Or.inl accepting)
      deadline := by simp
      running := fun _ => later.running (by simp [accepting]) }
  | accepts accepting => exact { later with }
  | clears stopped =>
    refine { later with
      alive := by simp
      before := fun _ => later.before (Or.inr (Or.inl stopped))
      deadline := by simp
      running := fun _ => later.running (by simp [stopped]) }
  | @drains timeout' cleared isTimeout =>
    rw [timely.signal, Option.getD_some] at isTimeout
    have bound := later.before (Or.inr (Or.inr cleared))
    refine { later with
      begun := ?_
      alive := by simp
      before := by simp
      deadline := ?_
      running := fun _ => later.running (by simp [cleared]) }
    · intro at_ timeout'' begins
      cases begins
      exact ⟨timely.since, isTimeout⟩
    · intro d draining
      cases draining
      omega
  | @aborts deadline draining =>
    refine { later with
      alive := by simp
      before := by simp
      deadline := by simp
      running := fun _ => later.running (by simp [draining]) }
  | exits waiting =>
    have running : c.phase ≠ .exited := by
      rcases waiting with ⟨_, draining⟩ | aborting
      · simp [draining]
      · simp [aborting]
    refine { later with
      alive := by simp
      before := by simp
      deadline := by simp
      running := by simp
      exited := ?_ }
    intro e exitedAt
    cases exitedAt
    exact later.running running
  | moves => exact { later with }
  | cuts => exact { later with }
  | kills => exact (unkilled rfl).elim
  | ticks n => exact timely.tick sound n

theorem Timely.exec {c : AcceptLoop} {signalledAt timeout late : Nat} {moves : List AcceptMove} (sound : c.Sound)
    (timely : c.Timely signalledAt timeout late) (unsignalled : ∀ timeout', .signal timeout' ∉ moves)
    (unkilled : .kill ∉ moves) :
    (Execution.exec (AcceptLoop.step tls) c moves).Timely signalledAt timeout (late + totalLag tls c moves) := by
  induction moves generalizing c late with
  | nil => exact timely
  | cons move rest ih =>
    have once : ∀ timeout', move ≠ .signal timeout' :=
      fun timeout' here => unsignalled timeout' (List.mem_cons.mpr (Or.inl here.symm))
    have next : (c.step tls move).Timely signalledAt timeout (late + c.lag move) :=
      timely.step sound once fun here => unkilled (List.mem_cons.mpr (Or.inl here.symm))
    have after := ih (sound.step (stepped tls c move)) next
      (fun timeout' later => unsignalled timeout' (List.mem_cons_of_mem _ later))
      fun later => unkilled (List.mem_cons_of_mem _ later)
    have total : totalLag tls c (move :: rest) = c.lag move + totalLag tls (c.step tls move) rest := by
      simp [totalLag]
    rw [Execution.exec_cons, total, ← Nat.add_assoc]
    exact after

/-- However late the runtime is, and whatever the connections do: a loop that still accepts
when the signal comes is done after the timeout and what the runtime was late, and up to
the timeout it cuts off no exchange. -/
theorem drains_in_time (tls : Bool) (early late : List AcceptMove) (timeout : Nat)
    (accepting : (run tls early).phase = .accepting) (once : ∀ timeout', .signal timeout' ∉ late) (unkilled : .kill ∉ late) :
    let signalled := (run tls early).step tls (.signal timeout)
    let after := run tls (early ++ .signal timeout :: late)
    (after.phase ≠ .exited → after.clock ≤ signalled.clock + timeout + totalLag tls signalled late) ∧
      (∀ e, after.exitedAt = some e → e ≤ signalled.clock + timeout + totalLag tls signalled late) ∧
      ∀ x ∈ after.cut, signalled.clock + timeout ≤ x.time := by
  intro signalled after
  have sound : (run tls early).Sound := sound_run early
  have startTimely : signalled.Timely signalled.clock timeout 0 :=
    { signal := rfl
      since := Nat.le_refl _
      begun := by simp [signalled, step, sound.early (Or.inl accepting)]
      alive := by simp [signalled, step, accepting]
      before := fun _ => Nat.le_refl _
      deadline := by simp [signalled, step, accepting]
      running := fun _ => Nat.le_add_right _ _
      exited := by simp [signalled, step, sound.exitedAt, accepting] }
  have timely : (Execution.exec (step tls) signalled late).Timely signalled.clock timeout
      (0 + totalLag tls signalled late) :=
    startTimely.exec (sound.step (stepped tls (run tls early) (.signal timeout))) once unkilled
  have splits : after = Execution.exec (step tls) signalled late := by
    rw [show after = Execution.exec (step tls) start (early ++ .signal timeout :: late) from rfl,
      Execution.exec_append, Execution.exec_cons]
    rfl
  rw [Nat.zero_add, ← splits] at timely
  refine ⟨timely.running, timely.exited, fun x member => ?_⟩
  have soundAfter : after.Sound := sound_run _
  obtain ⟨at_, timeout', begun, due⟩ := soundAfter.cut x member
  obtain ⟨since, rfl⟩ := timely.begun at_ timeout' begun
  omega

/-- An exchange hangs: after the timeout of seven it is cut off, and the loop ends. -/
theorem drains_in_time_cut :
    let early : List AcceptMove := [.poll (some .stream), .begin 0 3]
    let late : List AcceptMove := [.poll none, .proceed, .proceed, .wake 0, .tick 7, .proceed, .wake 0, .proceed]
    let signalled := (run false early).step false (.signal 7)
    let after := run false (early ++ .signal 7 :: late)
    after.exitedAt = some 7 ∧ after.cut = [⟨0, 3, 7⟩] ∧ totalLag false signalled late = 0 ∧
      (∀ e, after.exitedAt = some e → e ≤ signalled.clock + 7 + totalLag false signalled late) ∧
        ∀ x ∈ after.cut, signalled.clock + 7 ≤ x.time := by
  intro early late signalled after
  have inTime := drains_in_time false early late 7 rfl (by simp [late]) (by simp [late])
  exact ⟨rfl, rfl, rfl, inTime.2⟩

end Time

section Progress
variable {tls : Bool}

/-- A move that needs neither a peer nor an upstream. -/
def own : AcceptMove → Bool
  | .poll none | .proceed | .wake _ | .tick _ => true
  | _ => false

/-- Without anybody's help and without being late the loop can come to its end. -/
def Completes (tls : Bool) (c : AcceptLoop) : Prop :=
  ∃ more, (∀ move ∈ more, own move = true) ∧ totalLag tls c more = 0 ∧
    (Execution.exec (step tls) c more).phase = .exited

theorem completes_of_step {c : AcceptLoop} {move : AcceptMove} (alone : own move = true) (prompt : c.lag move = 0)
    (completes : Completes tls (c.step tls move)) : Completes tls c := by
  obtain ⟨more, owns, lag, exited⟩ := completes
  refine ⟨move :: more, ?_, ?_, exited⟩
  · intro m member
    rcases List.mem_cons.mp member with rfl | later
    · exact alone
    · exact owns m later
  · have total : totalLag tls c (move :: more) = c.lag move + totalLag tls (c.step tls move) more := by
      simp [totalLag]
    rw [total, prompt, lag]

/-- What a task does when it is woken shows in its own connection only. -/
theorem wake_frame (c : AcceptLoop) (k : Nat) :
    (c.wake k).phase = c.phase ∧ (c.wake k).clock = c.clock ∧ (c.wake k).accepted = c.accepted ∧
      (c.wake k).drain = c.drain ∧ (c.wake k).abort = c.abort ∧
      ∀ j, j ≠ k → (c.wake k).connection j = c.connection j := by
  unfold wake
  split
  · split
    · exact ⟨rfl, rfl, rfl, rfl, rfl, fun j apart => setConnection_other c apart _⟩
    · exact ⟨rfl, rfl, rfl, rfl, rfl, fun _ _ => rfl⟩
  · split
    · exact ⟨rfl, rfl, rfl, rfl, rfl, fun j apart => setConnection_other c apart _⟩
    · exact ⟨rfl, rfl, rfl, rfl, rfl, fun _ _ => rfl⟩
  · split
    · exact ⟨rfl, rfl, rfl, rfl, rfl, fun j apart => setConnection_other c apart _⟩
    · exact ⟨rfl, rfl, rfl, rfl, rfl, fun _ _ => rfl⟩
  · exact ⟨rfl, rfl, rfl, rfl, rfl, fun _ _ => rfl⟩

/-- The connection is at its end or only waits for its exchanges. -/
def Rested (conn : Connection) : Prop := conn.phase = .draining ∨ conn.isEnded = true

theorem wake_rested {c : AcceptLoop} (drain : c.drain = true) (k : Nat) : Rested ((c.wake k).connection k) := by
  unfold wake
  split
  · rw [if_pos drain, setConnection_self]
    exact Or.inr rfl
  · rw [if_pos drain, setConnection_self]
    exact Or.inl rfl
  · rename_i draining
    split
    · exact Or.inr (congrArg Connection.isEnded (setConnection_self c k _))
    · exact Or.inl draining
  · rename_i ended
    refine Or.inr ?_
    rw [Connection.isEnded, ended]

theorem wake_ended {c : AcceptLoop} (abort : c.abort = true) {k : Nat} (rested : Rested (c.connection k)) :
    ((c.wake k).connection k).isEnded = true := by
  unfold wake
  rcases rested with draining | ended
  · simp only [draining, if_pos abort]
    exact congrArg Connection.isEnded (setConnection_self c k _)
  · unfold Connection.isEnded at ended
    split at ended
    · rename_i how at_
      simp only [at_]
      rw [Connection.isEnded, at_]
    · cases ended

/-- All the tasks are woken, one after the other. -/
theorem completes_of_wakes {P Q : Connection → Prop} {c : AcceptLoop} (sound : c.Sound) (all : ∀ k, P (c.connection k))
    (wakes : ∀ (d : AcceptLoop) k, d.drain = c.drain → d.abort = c.abort → P (d.connection k) →
      P ((d.wake k).connection k) ∧ Q ((d.wake k).connection k))
    (onward : ∀ d : AcceptLoop, d.Sound → d.phase = c.phase → d.clock = c.clock → d.accepted = c.accepted →
      d.drain = c.drain → d.abort = c.abort → (∀ k, P (d.connection k)) → (∀ k < c.accepted, Q (d.connection k)) →
      Completes tls d) : Completes tls c := by
  suffices woken : ∀ (n : Nat) (d : AcceptLoop), d.Sound → d.phase = c.phase → d.clock = c.clock → d.accepted = c.accepted →
      d.drain = c.drain → d.abort = c.abort → (∀ k, P (d.connection k)) →
      (∀ k < c.accepted, n ≤ k → Q (d.connection k)) → Completes tls d from
    woken c.accepted c sound rfl rfl rfl rfl rfl all fun k accepted late => absurd accepted (Nat.not_lt.mpr late)
  intro n
  -- The tasks are woken from the last one to the first.
  induction n with
  | zero =>
    intro d sound phase clock accepted drain abort all done
    exact onward d sound phase clock accepted drain abort all fun k here => done k here (Nat.zero_le k)
  | succ n ih =>
    intro d sound phase clock accepted drain abort all done
    obtain ⟨phase', clock', accepted', drain', abort', others⟩ := wake_frame d n
    obtain ⟨kept, reached⟩ := wakes d n drain abort (all n)
    refine completes_of_step (show own (.wake n) = true from rfl) (show d.lag (.wake n) = 0 from rfl)
      (ih (d.wake n) (sound.step (stepped tls d (.wake n))) (phase'.trans phase) (clock'.trans clock)
        (accepted'.trans accepted) (drain'.trans drain) (abort'.trans abort) ?_ ?_)
    · intro k
      by_cases here : k = n
      · subst here
        exact kept
      · rw [others k here]
        exact all k
    · intro k here late
      by_cases now : k = n
      · subst now
        exact reached
      · rw [others k now]
        exact done k here (by omega)

theorem completes_of_drained {c : AcceptLoop} (waiting : (∃ d, c.phase = .draining d) ∨ c.phase = .aborting)
    (drained : c.drained = true) : Completes tls c := by
  refine ⟨[.proceed], by simp [own], rfl, ?_⟩
  rcases waiting with ⟨d, draining⟩ | aborting
  · simp [step, proceed, draining, drained]
  · simp [step, proceed, aborting, drained]

theorem Sound.completes_of_aborting {c : AcceptLoop} (sound : c.Sound) (aborting : c.phase = .aborting)
    (drain : c.drain = true) (abort : c.abort = true) : Completes tls c := by
  refine completes_of_wakes (P := fun _ => True) (Q := Rested) sound (fun _ => trivial)
    (fun d k drain' _ _ => ⟨trivial, wake_rested (drain'.trans drain) k⟩) ?_
  intro d sound phase _ accepted drain' abort' _ rested
  have allRested : ∀ k, Rested (d.connection k) := by
    intro k
    by_cases here : k < c.accepted
    · exact rested k here
    · exact Or.inr (sound.later k (by omega))
  refine completes_of_wakes (P := Rested) (Q := fun conn => conn.isEnded = true) sound allRested
    (fun e k _ abort'' restedHere =>
      have ended := wake_ended (abort''.trans (abort'.trans abort)) restedHere
      ⟨Or.inr ended, ended⟩) ?_
  intro e sound phase' _ _ _ _ _ ended
  refine completes_of_drained (Or.inr (phase'.trans (phase.trans aborting))) ((drained_iff sound).mpr ?_)
  intro k
  by_cases here : k < d.accepted
  · exact ended k here
  · exact sound.later k (by omega)

theorem Sound.completes_of_draining {c : AcceptLoop} (sound : c.Sound) {deadline : Nat}
    (draining : c.phase = .draining deadline) (drain : c.drain = true) : Completes tls c := by
  refine completes_of_wakes (P := fun _ => True) (Q := Rested) sound (fun _ => trivial)
    (fun d k drain' _ _ => ⟨trivial, wake_rested (drain'.trans drain) k⟩) ?_
  intro d sound phase clock accepted drain' _ _ rested
  have drainingStill : d.phase = .draining deadline := phase.trans draining
  by_cases drained : d.drained = true
  · exact completes_of_drained (Or.inl ⟨deadline, drainingStill⟩) drained
  have undrained : d.drained = false := by simpa using drained
  have atDeadline : ∀ e : AcceptLoop, e.Sound → e.phase = .draining deadline → e.drained = false → e.drain = true →
      deadline ≤ e.clock → Completes tls e := by
    intro e sound draining undrained drain due
    have aborts : e.proceed = { e with phase := .aborting, abort := true } := by
      simp [proceed, draining, undrained, due]
    refine completes_of_step (show own .proceed = true from rfl) (show e.lag .proceed = 0 from rfl) ?_
    have next := sound.step (stepped tls e .proceed)
    simp only [AcceptLoop.step, aborts] at next ⊢
    exact next.completes_of_aborting rfl drain rfl
  by_cases due : deadline ≤ d.clock
  · exact atDeadline d sound drainingStill undrained (drain'.trans drain) due
  -- Nobody has anything to do before the deadline.
  have asleep : d.busy = false := by
    simp only [busy, ready, drainingStill, Bool.or_eq_false_iff, decide_eq_false_iff_not]
    refine ⟨⟨undrained, due⟩, List.any_eq_false.mpr ?_⟩
    intro k member
    have here : k < c.accepted := accepted ▸ List.mem_range.mp member
    have unaborted : d.abort = false := by
      cases abort : d.abort with
      | false => rfl
      | true =>
        obtain ⟨at_, timeout, begun, past⟩ := sound.abort abort
        obtain ⟨at', timeout', begun', isDeadline⟩ := sound.deadline deadline drainingStill
        rw [begun] at begun'
        cases begun'
        omega
    rcases rested k here with waiting | ended
    · simp [wakeable, waiting, unaborted]
    · unfold Connection.isEnded at ended
      split at ended
      · rename_i at_
        simp [wakeable, at_]
      · cases ended
  have prompt : d.lag (.tick (deadline - d.clock)) = 0 := by
    simp only [lag, asleep, drainingStill]
    simp only [Bool.false_eq_true, if_false]
    omega
  refine completes_of_step (show own (.tick (deadline - d.clock)) = true from rfl) prompt ?_
  refine atDeadline _ (sound.step (stepped tls d _)) drainingStill undrained (drain'.trans drain) ?_
  simp only [AcceptLoop.step]
  omega

theorem Sound.completes {c : AcceptLoop} (sound : c.Sound) (stopping : c.Stopping) (unkilled : c.phase ≠ .killed) :
    Completes tls c := by
  have cleared : ∀ d : AcceptLoop, d.Sound → d.phase = .cleared → Completes tls d := by
    intro d sound cleared
    refine completes_of_step (show own .proceed = true from rfl) (show d.lag .proceed = 0 from rfl) ?_
    have next := sound.step (stepped tls d .proceed)
    simp only [AcceptLoop.step, AcceptLoop.proceed, cleared] at next ⊢
    exact next.completes_of_draining rfl rfl
  have stopped : ∀ d : AcceptLoop, d.Sound → d.phase = .stopped → Completes tls d := by
    intro d sound stopped
    refine completes_of_step (show own .proceed = true from rfl) (show d.lag .proceed = 0 from rfl) ?_
    have next := sound.step (stepped tls d .proceed)
    simp only [AcceptLoop.step, AcceptLoop.proceed, stopped] at next ⊢
    exact cleared _ next rfl
  cases at_ : c.phase with
  | accepting =>
    have signalled : c.shutdown.borrow.isSome = true := stopping.resolve_right fun left => left at_
    have outdated : ¬ c.shutdown.value = none := by
      intro none_
      simp [Watch.borrow, none_] at signalled
    refine completes_of_step (show own (.poll none) = true from rfl) (show c.lag (.poll none) = 0 from rfl) ?_
    have next := sound.step (stepped tls c (.poll none))
    simp only [AcceptLoop.step, AcceptLoop.poll, at_, (sound.fresh at_).changed outdated, if_pos signalled] at next ⊢
    exact stopped _ next rfl
  | stopped => exact stopped c sound at_
  | cleared => exact cleared c sound at_
  | draining deadline =>
    refine sound.completes_of_draining at_ ?_
    obtain ⟨_, _, begun, _⟩ := sound.deadline deadline at_
    rw [sound.tokens, begun, Option.isSome_some]
  | aborting =>
    have abort := sound.aborting at_
    obtain ⟨_, _, begun, _⟩ := sound.abort abort
    exact sound.completes_of_aborting at_ (by rw [sound.tokens, begun, Option.isSome_some]) abort
  | exited => exact ⟨[], by simp, rfl, at_⟩
  | killed => exact (unkilled at_).elim

/-- Whatever happened before, and whatever its connections are at: a loop that is to stop
can come to its end without anybody's help, and without being late. -/
theorem drain_completes (tls : Bool) (moves : List AcceptMove) (stopping : (run tls moves).Stopping)
    (unkilled : (run tls moves).phase ≠ .killed) :
    ∃ more, (∀ move ∈ more, own move = true) ∧ totalLag tls (run tls moves) more = 0 ∧
      (run tls (moves ++ more)).phase = .exited := by
  have sound : (run tls moves).Sound := sound_run moves
  obtain ⟨more, owns, prompt, exited⟩ : Completes tls (run tls moves) := sound.completes stopping unkilled
  refine ⟨more, owns, prompt, ?_⟩
  rw [run, Execution.exec_append]
  exact exited

/-- The same exchange hangs, and nobody but the loop and its connection moves. -/
theorem drain_completes_hanging :
    let moves : List AcceptMove := [.poll (some .stream), .begin 0 3, .signal 7]
    ∃ more, (∀ move ∈ more, own move = true) ∧ totalLag false (run false moves) more = 0 ∧
      (run false (moves ++ more)).phase = .exited :=
  drain_completes false _ (Or.inl rfl) (by decide)

end Progress

end AcceptLoop

end PartlyProxy
