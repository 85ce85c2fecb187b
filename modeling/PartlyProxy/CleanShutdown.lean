import PartlyProxy.AcceptLoop
import PartlyProxy.Fence

namespace PartlyProxy

/-- A listener of the cluster: what its loop did until it was signalled, and since. -/
structure Listening where
  name : String
  tls : Bool
  early : List AcceptMove
  late : List AcceptMove

namespace Listening
variable (l : Listening) (timeout : Nat)

def signalled : AcceptLoop := (AcceptLoop.run l.tls l.early).step l.tls (.signal timeout)

def loop : AcceptLoop := AcceptLoop.run l.tls (l.early ++ .signal timeout :: l.late)

/-- The task of the loop, as the handle awaits it. -/
def task : TaskRun := ⟨(l.loop timeout).exitedAt.map fun e => e - (l.signalled timeout).clock, none⟩

/-- The loop still accepts when the signal comes, it is left alone, the runtime is late by
no more than the slack of a second, and more than the timeout and that second go by. -/
structure Drains : Prop where
  accepting : (AcceptLoop.run l.tls l.early).phase = .accepting
  once : ∀ timeout', .signal timeout' ∉ l.late
  unkilled : .kill ∉ l.late
  prompt : AcceptLoop.totalLag l.tls (l.signalled timeout) l.late ≤ oneSecond
  past : (l.signalled timeout).clock + timeout + oneSecond < (l.loop timeout).clock

end Listening

section
variable {timeout : Nat}

/-- With that much time gone by the loop has come to its end, and within the budget. -/
theorem Listening.Drains.task_by {l : Listening} (drains : l.Drains timeout) :
    (l.task timeout).By (timeout + oneSecond) := by
  obtain ⟨running, inTime, _⟩ :=
    AcceptLoop.drains_in_time l.tls l.early l.late timeout drains.accepting drains.once drains.unkilled
  have prompt := drains.prompt
  have past := drains.past
  simp only [Listening.signalled] at prompt past
  have exited : (l.loop timeout).phase = .exited := by
    by_contra alive
    have bound : (l.loop timeout).clock ≤ _ := running alive
    omega
  obtain ⟨e, exitedAt⟩ : ∃ e, (l.loop timeout).exitedAt = some e :=
    Option.isSome_iff_exists.mp (AcceptLoop.exitedAt_run exited)
  have bound := inTime e exitedAt
  refine ⟨e - (l.signalled timeout).clock, by simp [Listening.task, exitedAt], ?_⟩
  simp only [Listening.signalled]
  omega

/-- A task that is done within the budget is joined, however late it is awaited. -/
theorem joinWithin_of_by {budget : Nat} {task : TaskRun} (done : task.By budget) (fine : task.panics = none) (now : Nat) :
    (joinWithin budget task now).1 = .ok ∧ (joinWithin budget task now).2 ≤ max now budget := by
  obtain ⟨finish, isFinish, inTime⟩ := done
  have within : finish ≤ now + budget := by omega
  have joined : joinWithin budget task now = (.ok, max now finish) := by
    simp only [joinWithin, isFinish, if_pos within, fine]
  rw [joined]
  refine ⟨rfl, ?_⟩
  show max now finish ≤ max now budget
  omega

theorem joinUpstream_of_by {outer : Nat} {up : String × TaskRun} (done : up.2.By outer) (fine : up.2.panics = none)
    (s : Shutdown) :
    ∃ now, s.joinUpstream outer up = ⟨now, s.errors, s.events ++ [.listener up.1 .ok]⟩ ∧ now ≤ max s.now outer := by
  obtain ⟨joined, bound⟩ := joinWithin_of_by done fine s.now
  refine ⟨_, ?_, bound⟩
  simp only [Shutdown.joinUpstream, joined]

theorem joinControl_of_by {budget : Nat} {task : TaskRun} (done : task.By budget) (fine : task.panics = none)
    (label : String) (s : Shutdown) :
    ∃ now, s.joinControl label budget task = ⟨now, s.errors, s.events ++ [.control label .ok]⟩ ∧ now ≤ max s.now budget := by
  obtain ⟨joined, bound⟩ := joinWithin_of_by done fine s.now
  refine ⟨_, ?_, bound⟩
  simp only [Shutdown.joinControl, joined]

theorem foldl_joinUpstream_of_by {outer : Nat} {ups : List (String × TaskRun)} (s : Shutdown)
    (done : ∀ up ∈ ups, up.2.By outer) (fine : ∀ up ∈ ups, up.2.panics = none) :
    ∃ now, ups.foldl (Shutdown.joinUpstream outer) s =
        ⟨now, s.errors, s.events ++ ups.map fun up => .listener up.1 .ok⟩ ∧ now ≤ max s.now outer := by
  induction ups generalizing s with
  | nil => exact ⟨s.now, by simp, by omega⟩
  | cons up rest ih =>
    obtain ⟨done, doneLater⟩ := List.forall_mem_cons.mp done
    obtain ⟨fine, fineLater⟩ := List.forall_mem_cons.mp fine
    obtain ⟨first, isFirst, firstBound⟩ := joinUpstream_of_by done fine s
    obtain ⟨now, isNow, bound⟩ := ih (s.joinUpstream outer up) doneLater fineLater
    rw [isFirst] at isNow bound
    refine ⟨now, ?_, ?_⟩
    · rw [List.foldl_cons, isFirst, isNow, List.map_cons, List.append_assoc]
      rfl
    · simp only at bound
      omega

theorem flushMedia_of_ok {media : List (Except ProxyError Unit)} (flushed : ∀ answer ∈ media, answer = .ok ())
    (backend : Nat) :
    Shutdown.flushMedia backend media = ((media.zipIdx backend).map fun answer => .flush answer.2 answer.1, .ok ()) := by
  induction media generalizing backend with
  | nil => rfl
  | cons answer rest ih =>
    obtain ⟨rfl, later⟩ := List.forall_mem_cons.mp flushed
    simp [Shutdown.flushMedia, ih later, List.zipIdx_cons]

/-- A cluster whose listeners still accept when it is shut down, whose backends flush and
whose control tasks leave comes down without an error: every listener is joined and none
aborted, every backend is flushed, and no exchange is cut off before the timeout. -/
theorem clean_shutdown (handle : ClusterHandle) (timeout : Nat) (listeners : List Listening)
    (representable : timeout + oneSecond ≤ durationMax)
    (upstreams : handle.upstreams = listeners.map fun l => (l.name, l.task timeout))
    (drains : ∀ l ∈ listeners, l.Drains timeout) (flushed : ∀ answer ∈ handle.media, answer = .ok ())
    (command : handle.commandTask.By timeout ∧ handle.commandTask.panics = none)
    (control : ∀ task, handle.tcpControl = some task → task.By timeout ∧ task.panics = none) :
    ∃ s, handle.shutdownWithTimeout timeout = some s ∧ s.result = .ok () ∧
      s.events = (handle.upstreams.map fun up => .listener up.1 .ok) ++
        ((handle.media.zipIdx.map fun answer => .flush answer.2 answer.1) ++
          handle.controls.map fun task => .control task.1 .ok) ∧
      s.now ≤ timeout + oneSecond ∧
      ∀ l ∈ listeners, ∀ x ∈ (l.loop timeout).cut, (l.signalled timeout).clock + timeout ≤ x.time := by
  have fits : ¬ durationMax < timeout + oneSecond := Nat.not_lt.mpr representable
  have joined : ∀ up ∈ handle.upstreams, up.2.By (timeout + oneSecond) ∧ up.2.panics = none := by
    intro up member
    rw [upstreams] at member
    obtain ⟨l, here, rfl⟩ := List.mem_map.mp member
    exact ⟨(drains l here).task_by, rfl⟩
  obtain ⟨drained, isDrained, drainedBound⟩ := foldl_joinUpstream_of_by Shutdown.start
    (fun up member => (joined up member).1) fun up member => (joined up member).2
  have fenced : (handle.upstreams.foldl (Shutdown.joinUpstream (timeout + oneSecond)) .start).fence handle.media =
      ⟨drained, [], (handle.upstreams.map fun up => .listener up.1 .ok) ++
        handle.media.zipIdx.map fun answer => .flush answer.2 answer.1⟩ := by
    rw [isDrained]
    simp only [Shutdown.fence, flushMedia_of_ok flushed, Shutdown.start, List.nil_append]
  obtain ⟨commanded, isCommanded, commandedBound⟩ := joinControl_of_by command.1 command.2 "command processor"
    ((handle.upstreams.foldl (Shutdown.joinUpstream (timeout + oneSecond)) .start).fence handle.media)
  rw [fenced] at isCommanded commandedBound
  obtain ⟨last, isLast, lastBound⟩ : ∃ now, handle.tcpControl.toList.foldl (Shutdown.joinControl "TCP control plane" timeout)
      (((handle.upstreams.foldl (Shutdown.joinUpstream (timeout + oneSecond)) .start).fence handle.media).joinControl
        "command processor" timeout handle.commandTask) =
      ⟨now, [], (handle.upstreams.map fun up => .listener up.1 .ok) ++
        ((handle.media.zipIdx.map fun answer => .flush answer.2 answer.1) ++
          handle.controls.map fun task => .control task.1 .ok)⟩ ∧ now ≤ max commanded timeout := by
    rw [fenced, isCommanded]
    cases tcp : handle.tcpControl with
    | none => exact ⟨commanded, by simp [ClusterHandle.controls, tcp], by omega⟩
    | some task =>
      obtain ⟨done, fine⟩ := control task tcp
      obtain ⟨now, isNow, bound⟩ := joinControl_of_by done fine "TCP control plane"
        ⟨commanded, [], (handle.upstreams.map fun up => .listener up.1 .ok) ++
          (handle.media.zipIdx.map fun answer => .flush answer.2 answer.1) ++ [.control "command processor" .ok]⟩
      refine ⟨now, ?_, bound⟩
      rw [Option.toList_some, List.foldl_cons, List.foldl_nil, isNow]
      simp [ClusterHandle.controls, tcp]
  refine ⟨_, by simp only [ClusterHandle.shutdownWithTimeout, if_neg fits]; rfl, ?_⟩
  rw [isLast]
  refine ⟨rfl, rfl, ?_, ?_⟩
  · simp only [Shutdown.start] at drainedBound
    simp only at commandedBound
    show last ≤ timeout + oneSecond
    omega
  · intro l here
    have drain := drains l here
    exact (AcceptLoop.drains_in_time l.tls l.early l.late timeout drain.accepting drain.once drain.unkilled).2.2

/-- Two listeners, of which the second has an exchange that hangs. -/
theorem clean_shutdown_two :
    let listeners : List Listening :=
      [⟨"api", false, [.poll (some .stream)], [.poll none, .proceed, .proceed, .wake 0, .resolve 0, .proceed, .tick 2000000000]⟩,
       ⟨"billing", false, [.poll (some .stream), .begin 0 3],
        [.poll none, .proceed, .proceed, .wake 0, .tick 7, .proceed, .wake 0, .proceed, .tick 2000000000]⟩]
    let handle : ClusterHandle := ⟨listeners.map fun l => (l.name, l.task 7), [.ok ()], ⟨some 0, none⟩, none⟩
    ∃ s, handle.shutdownWithTimeout 7 = some s ∧ s.result = .ok () ∧ s.now ≤ 7 + oneSecond ∧
      ∀ l ∈ listeners, ∀ x ∈ (l.loop 7).cut, (l.signalled 7).clock + 7 ≤ x.time := by
  intro listeners handle
  obtain ⟨s, returns, fine, _, inTime, whole⟩ := clean_shutdown handle 7 listeners (by decide) rfl
    (fun l member => by
      simp only [listeners, List.mem_cons, List.not_mem_nil, or_false] at member
      rcases member with rfl | rfl
      · exact ⟨rfl, by simp, by simp, by decide, by decide⟩
      · exact ⟨rfl, by simp, by simp, by decide, by decide⟩)
    (fun answer member => by simpa [handle] using member) ⟨⟨0, rfl, by omega⟩, rfl⟩ (by simp [handle])
  exact ⟨s, returns, fine, inTime, whole⟩

end

end PartlyProxy
