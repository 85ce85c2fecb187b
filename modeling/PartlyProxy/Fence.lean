import PartlyProxy.Shutdown

namespace PartlyProxy

namespace ShutdownEvent

def flushed : ShutdownEvent → Option (Except ProxyError Unit × Nat)
  | flush backend outcome => some (outcome, backend)
  | _ => none

/-- The message that is pushed. -/
def error (timeout : Nat) : ShutdownEvent → Option String
  | listener _ .ok | control _ .ok | flush _ (.ok ()) => none
  | listener name (.panicked joinErr) => some s!"upstream {name} task panic: {joinErr}"
  | listener name .elapsed => some s!"upstream {name} accept loop did not exit within {debugDuration (timeout + oneSecond)}"
  | flush _ (.error err) => some s!"recorder flush failed: {err.toText}"
  | control label (.panicked joinErr) => some s!"{label} panic: {joinErr}"
  | control label .elapsed => some s!"{label} did not exit within {debugDuration timeout}"

end ShutdownEvent

def ClusterHandle.controls (handle : ClusterHandle) : List (String × TaskRun) :=
  ("command processor", handle.commandTask) :: handle.tcpControl.toList.map ("TCP control plane", ·)

section Flush
open Shutdown

theorem flushMedia_failed (timeout backend : Nat) (media : List (Except ProxyError Unit)) :
    (flushMedia backend media).1.filterMap (ShutdownEvent.error timeout) =
      match (flushMedia backend media).2 with
      | .ok () => []
      | .error err => [s!"recorder flush failed: {err.toText}"] := by
  induction media generalizing backend with
  | nil => rfl
  | cons outcome rest ih =>
    cases outcome with
    | error err => rfl
    | ok done =>
      have silent : (ShutdownEvent.flush backend (.ok ())).error timeout = none := rfl
      simp only [flushMedia, List.filterMap_cons_none silent]
      exact ih (backend + 1)

end Flush

namespace Shutdown

/-- The messages are those of what was done. -/
def Told (timeout : Nat) (s : Shutdown) : Prop := s.errors = s.events.filterMap (ShutdownEvent.error timeout)

section Steps
variable {timeout : Nat} {s : Shutdown}

theorem joinUpstream_events (outer : Nat) (s : Shutdown) (up : String × TaskRun) :
    (s.joinUpstream outer up).events = s.events ++ [.listener up.1 (joinWithin outer up.2 s.now).1] := by
  simp only [joinUpstream]
  split <;> rfl

theorem joinControl_events (label : String) (timeout : Nat) (s : Shutdown) (task : TaskRun) :
    (s.joinControl label timeout task).events = s.events ++ [.control label (joinWithin timeout task s.now).1] := by
  simp only [joinControl]
  split <;> rfl

theorem fence_events (s : Shutdown) (media : List (Except ProxyError Unit)) :
    (s.fence media).events = s.events ++ (flushMedia 0 media).1 := by
  simp only [fence]
  split <;> rfl

theorem Told.joinUpstream (told : s.Told timeout) (up : String × TaskRun) :
    (s.joinUpstream (timeout + oneSecond) up).Told timeout := by
  rw [Told, joinUpstream_events, List.filterMap_append, ← told]
  simp only [Shutdown.joinUpstream]
  split
  case h_1 joined | h_2 joined | h_3 joined => simp [joined, ShutdownEvent.error]

theorem Told.joinControl (told : s.Told timeout) (label : String) (task : TaskRun) :
    (s.joinControl label timeout task).Told timeout := by
  rw [Told, joinControl_events, List.filterMap_append, ← told]
  simp only [Shutdown.joinControl]
  split
  case h_1 joined | h_2 joined | h_3 joined => simp [joined, ShutdownEvent.error]

theorem Told.fence (told : s.Told timeout) (media : List (Except ProxyError Unit)) : (s.fence media).Told timeout := by
  rw [Told, fence_events, List.filterMap_append, ← told, flushMedia_failed]
  cases flushed : (Shutdown.flushMedia 0 media).2 with
  | ok _ => simp [Shutdown.fence, flushed]
  | error err => simp [Shutdown.fence, flushed]

end Steps

end Shutdown

section Entries
open Shutdown

end Entries

section Return
variable {handle : ClusterHandle} {timeout : Nat} {s : Shutdown}

end Return

end PartlyProxy
