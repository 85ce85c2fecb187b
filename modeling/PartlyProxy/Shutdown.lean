import PartlyProxy.Forwarder

namespace PartlyProxy

/-- `Duration::MAX`. All times here are in nanoseconds. -/
def durationMax : Nat := UInt64.size * 1000000000 - 1

def oneSecond : Nat := 1000000000

/-- A spawned task as the handle awaits it: how long after the shutdown signal it
finishes, if ever, and the panic it ends with, if any. -/
structure TaskRun where
  finishes : Option Nat
  panics : Option String

inductive Joined where
  | ok
  | panicked (joinErr : String)
  | elapsed

/-- `tokio::time::timeout(budget, task).await`, begun at `now`, with the time at which
it returns. The task is polled before the timer. -/
def joinWithin (budget : Nat) (task : TaskRun) (now : Nat) : Joined × Nat :=
  match task.finishes with
  | some t =>
    if t ≤ now + budget then
      match task.panics with
      | none => (.ok, max now t)
      | some joinErr => (.panicked joinErr, max now t)
    else (.elapsed, now + budget)
  | none => (.elapsed, now + budget)

/-- What `ClusterHandle` awaits: the listener tasks in the order of the map, the
answers of the registered backends to `flush`, and the two control tasks. -/
structure ClusterHandle where
  upstreams : List (String × TaskRun)
  media : List (Except ProxyError Unit)
  commandTask : TaskRun
  tcpControl : Option TaskRun

/-- What `shutdown_with_timeout` does: a listener task is joined or, if it does not
leave, aborted; a backend is flushed; a control task is joined or given up. -/
inductive ShutdownEvent where
  | listener (name : String) (joined : Joined)
  | flush (backend : Nat) (outcome : Except ProxyError Unit)
  | control (label : String) (joined : Joined)

/-- The shutdown under way, with what it has done so far. -/
structure Shutdown where
  now : Nat
  errors : List String
  events : List ShutdownEvent

namespace Shutdown

def start : Shutdown := ⟨0, [], []⟩

def joinUpstream (outer : Nat) (s : Shutdown) (up : String × TaskRun) : Shutdown :=
  let joined := joinWithin outer up.2 s.now
  let s := { s with now := joined.2, events := s.events ++ [.listener up.1 joined.1] }
  match joined.1 with
  | .ok => s
  | .panicked joinErr => { s with errors := s.errors ++ [s!"upstream {up.1} task panic: {joinErr}"] }
  | .elapsed =>
    { s with errors := s.errors ++ [s!"upstream {up.1} accept loop did not exit within {debugDuration outer}"] }

/-- The two control tasks are awaited alike, and not aborted. -/
def joinControl (label : String) (timeout : Nat) (s : Shutdown) (task : TaskRun) : Shutdown :=
  let joined := joinWithin timeout task s.now
  let s := { s with now := joined.2, events := s.events ++ [.control label joined.1] }
  match joined.1 with
  | .ok => s
  | .panicked joinErr => { s with errors := s.errors ++ [s!"{label} panic: {joinErr}"] }
  | .elapsed => { s with errors := s.errors ++ [s!"{label} did not exit within {debugDuration timeout}"] }

/-- `Recorder::flush`, from one backend on: the first that fails ends it. -/
def flushMedia (backend : Nat) : List (Except ProxyError Unit) → List ShutdownEvent × Except ProxyError Unit
  | [] => ([], .ok ())
  | .ok () :: rest =>
    let later := flushMedia (backend + 1) rest
    (.flush backend (.ok ()) :: later.1, later.2)
  | .error err :: _ => ([.flush backend (.error err)], .error err)

def fence (s : Shutdown) (media : List (Except ProxyError Unit)) : Shutdown :=
  let flushed := flushMedia 0 media
  let s := { s with events := s.events ++ flushed.1 }
  match flushed.2 with
  | .ok () => s
  | .error err => { s with errors := s.errors ++ [s!"recorder flush failed: {err.toText}"] }

def result (s : Shutdown) : Except ProxyError Unit :=
  if s.errors = [] then .ok () else .error (.shutdown ("; ".intercalate s.errors))

end Shutdown

namespace ClusterHandle

/-- `shutdown_with_timeout`; `none` where the sum of the durations overflows, which
panics. -/
def shutdownWithTimeout (handle : ClusterHandle) (timeout : Nat) : Option Shutdown :=
  let outer := timeout + oneSecond
  if durationMax < outer then none
  else
    let drained := handle.upstreams.foldl (Shutdown.joinUpstream outer) .start
    let commanded := (drained.fence handle.media).joinControl "command processor" timeout handle.commandTask
    some (handle.tcpControl.toList.foldl (Shutdown.joinControl "TCP control plane" timeout) commanded)

end ClusterHandle

/-- The task has finished `t` after the signal. -/
def TaskRun.By (t : Nat) (task : TaskRun) : Prop := ∃ finish, task.finishes = some finish ∧ finish ≤ t

section Times
variable {budget now t : Nat}

variable (budget now t) in
theorem joinWithin_le_iff (task : TaskRun) :
    (joinWithin budget task now).2 ≤ t ↔ now ≤ t ∧ (task.By t ∨ now + budget ≤ t) := by
  cases finishes : task.finishes with
  | none =>
    have never : ¬ task.By t := by simp [TaskRun.By, finishes]
    simp only [joinWithin, finishes, never, false_or]
    omega
  | some finish =>
    have by_ : task.By t ↔ finish ≤ t := by simp [TaskRun.By, finishes]
    rw [by_]
    by_cases inTime : finish ≤ now + budget
    · have returns : (joinWithin budget task now).2 = max now finish := by
        simp only [joinWithin, finishes, if_pos inTime]
        cases task.panics <;> rfl
      rw [returns]
      omega
    · simp only [joinWithin, finishes, if_neg inTime]
      omega

theorem joinUpstream_now (s : Shutdown) (up : String × TaskRun) :
    (s.joinUpstream budget up).now = (joinWithin budget up.2 s.now).2 := by
  simp only [Shutdown.joinUpstream]
  split <;> rfl

theorem joinControl_now (label : String) (s : Shutdown) (task : TaskRun) :
    (s.joinControl label budget task).now = (joinWithin budget task s.now).2 := by
  simp only [Shutdown.joinControl]
  split <;> rfl

theorem fence_now (s : Shutdown) (media : List (Except ProxyError Unit)) : (s.fence media).now = s.now := by
  simp only [Shutdown.fence]
  split <;> rfl

end Times

/-- All of these tasks are joined by `t`, at most one of them by running out its
budget of `outer`: those awaited before it had finished at once. -/
def JoinedBy (outer t : Nat) (tasks : List (String × TaskRun)) : Prop :=
  (∀ up ∈ tasks, up.2.By t) ∨
    t = outer ∧ ∃ front late back, tasks = front ++ late :: back ∧
      (∀ up ∈ front, up.2.By 0) ∧ ∀ up ∈ back, up.2.By t

section Listeners
variable {outer t : Nat}

/-- Once time has passed, no further task may run out its budget. -/
theorem foldl_joinUpstream_le_iff_of_started (within : t ≤ outer) {s : Shutdown} (started : 0 < s.now)
    (tasks : List (String × TaskRun)) :
    (tasks.foldl (Shutdown.joinUpstream outer) s).now ≤ t ↔ s.now ≤ t ∧ ∀ up ∈ tasks, up.2.By t := by
  induction tasks generalizing s with
  | nil => simp
  | cons up rest ih =>
    have step := joinWithin_le_iff outer s.now t up.2
    rw [← joinUpstream_now] at step
    have later : 0 < (s.joinUpstream outer up).now := by
      have kept := (joinWithin_le_iff outer s.now _ up.2).mp
        (Nat.le_refl (joinWithin outer up.2 s.now).2)
      rw [joinUpstream_now]
      omega
    have beyond : ¬ s.now + outer ≤ t := by omega
    rw [List.foldl_cons, ih later, step, List.forall_mem_cons]
    simp only [beyond, or_false, and_assoc]

theorem foldl_joinUpstream_le_iff (positive : 0 < outer) (within : t ≤ outer) {s : Shutdown} (fresh : s.now = 0)
    (tasks : List (String × TaskRun)) :
    (tasks.foldl (Shutdown.joinUpstream outer) s).now ≤ t ↔ JoinedBy outer t tasks := by
  induction tasks generalizing s with
  | nil => simp [JoinedBy, fresh]
  | cons up rest ih =>
    have stepAt : ∀ t', (s.joinUpstream outer up).now ≤ t' ↔ up.2.By t' ∨ outer ≤ t' := by
      intro t'
      have step := joinWithin_le_iff outer s.now t' up.2
      rw [← joinUpstream_now, fresh, Nat.zero_add] at step
      rw [step]
      simp
    rw [List.foldl_cons]
    by_cases atOnce : (s.joinUpstream outer up).now = 0
    · have finished : up.2.By 0 := by
        have here := (stepAt 0).mp (Nat.le_of_eq atOnce)
        rcases here with done | beyond
        · exact done
        · omega
      have inTime : up.2.By t := by
        obtain ⟨finish, isFinish, zero⟩ := finished
        exact ⟨finish, isFinish, by omega⟩
      rw [ih atOnce]
      constructor
      · rintro (all | ⟨isOuter, front, late, back, rfl, early, later⟩)
        · exact Or.inl (List.forall_mem_cons.mpr ⟨inTime, all⟩)
        · exact Or.inr ⟨isOuter, up :: front, late, back, rfl, List.forall_mem_cons.mpr ⟨finished, early⟩, later⟩
      · rintro (all | ⟨isOuter, front, late, back, cut, early, later⟩)
        · exact Or.inl (List.forall_mem_cons.mp all).2
        · cases front with
          | nil =>
            cases cut
            exact Or.inl later
          | cons first front =>
            cases cut
            exact Or.inr ⟨isOuter, front, late, back, rfl, (List.forall_mem_cons.mp early).2, later⟩
    · rw [foldl_joinUpstream_le_iff_of_started within (Nat.pos_of_ne_zero atOnce), stepAt]
      have notAtOnce : ¬ up.2.By 0 := fun done => atOnce (Nat.le_zero.mp ((stepAt 0).mpr (Or.inl done)))
      constructor
      · rintro ⟨done | beyond, all⟩
        · exact Or.inl (List.forall_mem_cons.mpr ⟨done, all⟩)
        · exact Or.inr ⟨by omega, [], up, rest, rfl, by simp, all⟩
      · rintro (all | ⟨isOuter, front, late, back, cut, early, later⟩)
        · exact ⟨Or.inl (List.forall_mem_cons.mp all).1, (List.forall_mem_cons.mp all).2⟩
        · cases front with
          | nil =>
            cases cut
            exact ⟨Or.inr (by omega), later⟩
          | cons first front =>
            cases cut
            exact (notAtOnce (List.forall_mem_cons.mp early).1).elim

end Listeners

/-- The listeners are joined within the budget, and a control task that is not
finished by then is awaited early enough to run out its own. -/
structure InBudget (handle : ClusterHandle) (timeout : Nat) : Prop where
  listeners : JoinedBy (timeout + oneSecond) (timeout + oneSecond) handle.upstreams
  command : handle.commandTask.By (timeout + oneSecond) ∨ JoinedBy (timeout + oneSecond) oneSecond handle.upstreams
  control : ∀ task, handle.tcpControl = some task → task.By (timeout + oneSecond) ∨
    JoinedBy (timeout + oneSecond) oneSecond handle.upstreams ∧
      (handle.commandTask.By oneSecond ∨
        timeout ≤ oneSecond ∧ JoinedBy (timeout + oneSecond) (oneSecond - timeout) handle.upstreams)

/-- `shutdown_with_timeout(d)` returns within `d + 1s` of the signal exactly if at
most one listener is wedged, the first that takes any time, and each control task
that is still running at `d + 1s` was reached with `d` to spare. -/
theorem shutdown_in_budget_iff (handle : ClusterHandle) {timeout : Nat}
    (representable : timeout + oneSecond ≤ durationMax) :
    ∃ s, handle.shutdownWithTimeout timeout = some s ∧
      (s.now ≤ timeout + oneSecond ↔ InBudget handle timeout) := by
  have positive : 0 < oneSecond := by decide
  have fits : ¬ durationMax < timeout + oneSecond := Nat.not_lt.mpr representable
  have drainedBy : ∀ t, t ≤ timeout + oneSecond →
      ((handle.upstreams.foldl (Shutdown.joinUpstream (timeout + oneSecond)) .start).now ≤ t ↔
        JoinedBy (timeout + oneSecond) t handle.upstreams) :=
    fun t within => foldl_joinUpstream_le_iff (by omega) within rfl handle.upstreams
  refine ⟨_, by simp only [ClusterHandle.shutdownWithTimeout, if_neg fits]; rfl, ?_⟩
  generalize handle.upstreams.foldl (Shutdown.joinUpstream (timeout + oneSecond)) .start = drained at drainedBy ⊢
  have commandedBy : ∀ t, t ≤ timeout + oneSecond →
      (((drained.fence handle.media).joinControl "command processor" timeout handle.commandTask).now ≤ t ↔
        JoinedBy (timeout + oneSecond) t handle.upstreams ∧
          (handle.commandTask.By t ∨ timeout ≤ t ∧ JoinedBy (timeout + oneSecond) (t - timeout) handle.upstreams)) := by
    intro t within
    rw [joinControl_now, fence_now, joinWithin_le_iff, drainedBy t within, ← drainedBy (t - timeout) (by omega)]
    have early : drained.now + timeout ≤ t ↔ timeout ≤ t ∧ drained.now ≤ t - timeout := by omega
    rw [early]
  have wholeSecond : timeout + oneSecond - timeout = oneSecond := by omega
  have commanded := commandedBy (timeout + oneSecond) (Nat.le_refl _)
  rw [wholeSecond] at commanded
  simp only [Nat.le_add_right, true_and] at commanded
  cases control : handle.tcpControl with
  | none =>
    simp only [Option.toList_none, List.foldl_nil]
    rw [commanded]
    exact ⟨fun ⟨listeners, command⟩ => ⟨listeners, command, by simp [control]⟩,
      fun inBudget => ⟨inBudget.listeners, inBudget.command⟩⟩
  | some task =>
    simp only [Option.toList_some, List.foldl_cons, List.foldl_nil]
    rw [joinControl_now, joinWithin_le_iff, commanded]
    have early := commandedBy oneSecond (by omega)
    have spare : ∀ now, now + timeout ≤ timeout + oneSecond ↔ now ≤ oneSecond := by
      intro now
      omega
    rw [spare, early]
    constructor
    · rintro ⟨⟨listeners, command⟩, last⟩
      refine ⟨listeners, command, fun task' same => ?_⟩
      rw [control] at same
      cases same
      exact last
    · rintro ⟨listeners, command, last⟩
      exact ⟨⟨listeners, command⟩, last task control⟩

/-- Two listeners that drain for two and for five seconds, and control tasks that
leave at once. -/
theorem shutdown_in_budget_iff_two :
    let handle : ClusterHandle := ⟨[("api", ⟨some 2000000000, none⟩), ("billing", ⟨some 5000000000, none⟩)], [],
      ⟨some 0, none⟩, none⟩
    ∃ s, handle.shutdownWithTimeout 5000000000 = some s ∧ s.now ≤ 5000000000 + oneSecond := by
  intro handle
  obtain ⟨s, returns, inBudget⟩ := shutdown_in_budget_iff handle (show 5000000000 + oneSecond ≤ durationMax by decide)
  refine ⟨s, returns, inBudget.mpr ⟨Or.inl ?_, Or.inl ⟨0, rfl, by decide⟩, by simp [handle]⟩⟩
  simp [handle, TaskRun.By, oneSecond]

/-- A connection drains for four of the five seconds, and the command processor
still waits on an assertion of a minute: shutdown gives it up, and returns, at nine
seconds. -/
theorem shutdown_over_budget :
    let handle : ClusterHandle := ⟨[("api", ⟨some 4000000000, none⟩)], [], ⟨some 60000000000, none⟩, none⟩
    (handle.shutdownWithTimeout 5000000000).map Shutdown.now = some 9000000000 ∧
      ¬ 9000000000 ≤ 5000000000 + oneSecond := by
  decide

end PartlyProxy
