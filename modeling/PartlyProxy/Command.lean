import PartlyProxy.Listener
import PartlyProxy.Assertions
import PartlyProxy.WaitFor
import PartlyProxy.Lib.Watch

namespace PartlyProxy
variable {deps : Deps} {σ : Type}

/-- `UpstreamRegistry`: the runtimes of a cluster, each under a name of its own. All
of them hold the one recorder. The order of the map is nowhere visible. -/
structure UpstreamRegistry where
  recorder : Recorder
  upstreams : List UpstreamRuntime
  distinct : upstreams.Pairwise fun a b => a.name ≠ b.name
  shared : ∀ rt ∈ upstreams, rt.recorder = recorder

namespace UpstreamRegistry

def get (reg : UpstreamRegistry) (name : String) : Option UpstreamRuntime :=
  reg.upstreams.find? fun rt => rt.name = name

theorem get_eq_some {reg : UpstreamRegistry} {name : String} {rt : UpstreamRuntime} (found : reg.get name = some rt) :
    rt.name = name ∧ rt.recorder = reg.recorder :=
  ⟨by simpa using List.find?_some found, reg.shared rt (List.mem_of_find?_eq_some found)⟩

end UpstreamRegistry

/-- The mutable fields of one `UpstreamRuntime`. `calls` lists what was handed to
its forwarder. -/
structure UpstreamState (deps : Deps) where
  stubs : List StubEntry
  pause : Watch Bool
  replay : Option (ReplaySource deps)
  calls : List (ProxyRequest × Outcome)

/-- What the command processor and the listeners share. -/
structure ClusterState (deps : Deps) (σ : Type) where
  upstream : String → UpstreamState deps
  recorder : RecorderState σ

def ClusterState.modify (c : ClusterState deps σ) (name : String) (f : UpstreamState deps → UpstreamState deps) :
    ClusterState deps σ := { c with upstream := Function.update c.upstream name (f (c.upstream name)) }

@[simp] theorem ClusterState.modify_self (c : ClusterState deps σ) (name : String)
    (f : UpstreamState deps → UpstreamState deps) : (c.modify name f).upstream name = f (c.upstream name) :=
  Function.update_self ..

theorem ClusterState.modify_of_ne (c : ClusterState deps σ) {name other : String} (apart : other ≠ name)
    (f : UpstreamState deps → UpstreamState deps) : (c.modify name f).upstream other = c.upstream other :=
  Function.update_of_ne apart ..

theorem ClusterState.modify_congr {c c' : ClusterState deps σ} {u : String} (same : c.upstream u = c'.upstream u)
    (name : String) (f : UpstreamState deps → UpstreamState deps) :
    (c.modify name f).upstream u = (c'.modify name f).upstream u := by
  by_cases here : u = name
  · subst here
    rw [modify_self, modify_self, same]
  · rw [modify_of_ne c here, modify_of_ne c' here, same]

inductive Command where
  | stub (upstream : Option String) (matcher : RequestMatcher) (response : StubbedResponse) (times : Option Nat)
  | clearStubs (upstream : Option String)
  | pause (upstream : Option String)
  | resume (upstream : Option String)
  | queryTraffic (filter : TrafficFilter)
  | clearRecordings
  | assertSeen (filter : TrafficFilter) (timeout : Duration)
  | assertCount (filter : TrafficFilter) (expected : Nat) (timeout : Duration)

inductive CommandResponse where
  | ok
  | error (message : String)
  | exchanges (found : List RecordedExchange)
  | assertionResult (passed : Bool) (message : String)
deriving DecidableEq, Repr

/-- An assertion is not answered at once but handed to `wait_for_assertion`. -/
inductive Dispatched where
  | reply (response : CommandResponse)
  | wait (a : Assertion)

def errorResponse (err : ProxyError) : Dispatched := .reply (.error err.toText)

/-- `resolve_upstream`: without a name the only upstream is meant. -/
def resolveUpstream (reg : UpstreamRegistry) (target : Option String) : Except ProxyError UpstreamRuntime :=
  match target with
  | some name =>
    match reg.get name with
    | some rt => .ok rt
    | none => .error (.unknownUpstream name)
  | none =>
    match reg.upstreams with
    | [rt] => .ok rt
    | upstreams =>
      .error (.command s!"upstream not specified and cluster has {upstreams.length} upstreams")

/-- One upstream, or all of them without a name. -/
def onUpstreams (reg : UpstreamRegistry) (c : ClusterState deps σ) (target : Option String)
    (f : UpstreamState deps → UpstreamState deps) : Dispatched × ClusterState deps σ :=
  match target with
  | some name =>
    match reg.get name with
    | some rt => (.reply .ok, c.modify rt.name f)
    | none => (errorResponse (.unknownUpstream name), c)
  | none => (.reply .ok, reg.upstreams.foldl (fun c rt => c.modify rt.name f) c)

def setPause (reg : UpstreamRegistry) (c : ClusterState deps σ) (name : Option String) (paused : Bool) :
    Dispatched × ClusterState deps σ :=
  onUpstreams reg c name fun up => { up with pause := up.pause.sendReplace paused }

def dispatch (reg : UpstreamRegistry) (c : ClusterState deps σ) : Command → Dispatched × ClusterState deps σ
  | .stub upstream matcher response times =>
    match resolveUpstream reg upstream with
    | .ok rt =>
      (.reply .ok, c.modify rt.name fun up => { up with stubs := StubStore.add up.stubs ⟨matcher, response, times⟩ })
    | .error err => (errorResponse err, c)
  | .clearStubs upstream => onUpstreams reg c upstream fun up => { up with stubs := StubStore.clear up.stubs }
  | .pause upstream => setPause reg c upstream true
  | .resume upstream => setPause reg c upstream false
  | .queryTraffic filter => (.reply (.exchanges (c.recorder.buffer.filter (filter.matches deps))), c)
  | .clearRecordings => (.reply .ok, { c with recorder := { c.recorder with buffer := [] } })
  | .assertSeen filter timeout => (.wait ⟨filter, .seen, timeout⟩, c)
  | .assertCount filter expected timeout => (.wait ⟨filter, .count expected, timeout⟩, c)

/-- The upstream a command names; `none` when it is unscoped. -/
def Command.target : Command → Option String
  | .stub upstream _ _ _ | .clearStubs upstream | .pause upstream | .resume upstream => upstream
  | .queryTraffic filter | .assertSeen filter _ | .assertCount filter _ _ => filter.upstream
  | .clearRecordings => none

section Frame
variable (reg : UpstreamRegistry) {c c' : ClusterState deps σ} {u : String}

theorem foldl_modify_recorder (upstreams : List UpstreamRuntime) (f : UpstreamState deps → UpstreamState deps) :
    (upstreams.foldl (fun c rt => c.modify rt.name f) c).recorder = c.recorder := by
  induction upstreams generalizing c with
  | nil => rfl
  | cons rt rest ih => exact ih

theorem onUpstreams_recorder (target : Option String) (f : UpstreamState deps → UpstreamState deps) :
    (onUpstreams reg c target f).2.recorder = c.recorder := by
  unfold onUpstreams
  split
  · split <;> rfl
  · exact foldl_modify_recorder reg.upstreams f

/-- No command touches a medium. -/
theorem dispatch_media (cmd : Command) : (dispatch reg c cmd).2.recorder.media = c.recorder.media := by
  cases cmd with
  | stub upstream matcher response times =>
    simp only [dispatch]
    split <;> rfl
  | clearStubs upstream => exact congrArg RecorderState.media (onUpstreams_recorder reg upstream _)
  | pause upstream => exact congrArg RecorderState.media (onUpstreams_recorder reg upstream _)
  | resume upstream => exact congrArg RecorderState.media (onUpstreams_recorder reg upstream _)
  | _ => rfl

/-- A command leaves the ring as it is, or empties it. -/
theorem dispatch_buffer (cmd : Command) :
    (dispatch reg c cmd).2.recorder.buffer = c.recorder.buffer ∨ (dispatch reg c cmd).2.recorder.buffer = [] := by
  cases cmd with
  | stub upstream matcher response times =>
    left
    simp only [dispatch]
    split <;> rfl
  | clearStubs upstream => exact Or.inl (congrArg RecorderState.buffer (onUpstreams_recorder reg upstream _))
  | pause upstream => exact Or.inl (congrArg RecorderState.buffer (onUpstreams_recorder reg upstream _))
  | resume upstream => exact Or.inl (congrArg RecorderState.buffer (onUpstreams_recorder reg upstream _))
  | clearRecordings => exact Or.inr rfl
  | _ => exact Or.inl rfl

theorem foldl_modify_upstream {upstreams : List UpstreamRuntime} (distinct : upstreams.Pairwise fun a b => a.name ≠ b.name)
    (f : UpstreamState deps → UpstreamState deps) :
    (upstreams.foldl (fun c rt => c.modify rt.name f) c).upstream u =
      if ∃ rt ∈ upstreams, rt.name = u then f (c.upstream u) else c.upstream u := by
  induction upstreams generalizing c with
  | nil => simp
  | cons rt rest ih =>
    obtain ⟨others, distinct⟩ := List.pairwise_cons.mp distinct
    rw [List.foldl_cons, ih distinct]
    by_cases here : rt.name = u
    · subst here
      have later : ¬ ∃ rt' ∈ rest, rt'.name = rt.name := by
        rintro ⟨rt', member, same⟩
        exact others rt' member same.symm
      simp [later]
    · simp [here, c.modify_of_ne (Ne.symm here)]

/-- A command for one upstream or for all reaches every registered one that it
means, once. -/
theorem onUpstreams_upstream (target : Option String) (f : UpstreamState deps → UpstreamState deps) :
    (onUpstreams reg c target f).2.upstream u =
      if (reg.get u).isSome ∧ (target = none ∨ target = some u) then f (c.upstream u) else c.upstream u := by
  have registered : (reg.get u).isSome ↔ ∃ rt ∈ reg.upstreams, rt.name = u := by
    simp [UpstreamRegistry.get, List.find?_isSome]
  cases target with
  | none => simp [onUpstreams, foldl_modify_upstream reg.distinct, registered]
  | some name =>
    simp only [onUpstreams]
    cases found : reg.get name with
    | none =>
      have missing : ¬ ((reg.get u).isSome ∧ (some name = none ∨ some name = some u)) := by
        rintro ⟨present, same | same⟩
        · cases same
        · cases same
          simp [found] at present
      rw [if_neg missing]
    | some rt =>
      have isName := (UpstreamRegistry.get_eq_some found).1
      by_cases same : name = u
      · subst same
        simp [found, isName]
      · have apart : u ≠ rt.name := by
          rw [isName]
          exact Ne.symm same
        simp [c.modify_of_ne apart, same]

theorem onUpstreams_upstream_other {target : Option String} {name : String} (named : target = some name) (apart : u ≠ name)
    (f : UpstreamState deps → UpstreamState deps) : (onUpstreams reg c target f).2.upstream u = c.upstream u := by
  subst named
  rw [onUpstreams_upstream, if_neg]
  rintro ⟨_, same | same⟩ <;> cases same
  exact apart rfl

theorem onUpstreams_upstream_congr (same : c.upstream u = c'.upstream u) (target : Option String)
    (f : UpstreamState deps → UpstreamState deps) :
    (onUpstreams reg c target f).2.upstream u = (onUpstreams reg c' target f).2.upstream u := by
  rw [onUpstreams_upstream, onUpstreams_upstream, same]

/-- A command that names another upstream leaves this one alone. -/
theorem dispatch_upstream_other {cmd : Command} {name : String} (named : cmd.target = some name) (apart : u ≠ name) :
    (dispatch reg c cmd).2.upstream u = c.upstream u := by
  cases cmd with
  | stub upstream matcher response times =>
    have named : upstream = some name := named
    subst named
    simp only [dispatch, resolveUpstream]
    cases found : reg.get name with
    | none => rfl
    | some rt =>
      have apart : u ≠ rt.name := by rwa [(UpstreamRegistry.get_eq_some found).1]
      dsimp only
      exact c.modify_of_ne apart _
  | clearStubs upstream => exact onUpstreams_upstream_other reg named apart _
  | pause upstream => exact onUpstreams_upstream_other reg named apart _
  | resume upstream => exact onUpstreams_upstream_other reg named apart _
  | _ => rfl

/-- What a command does to an upstream depends on that upstream only. -/
theorem dispatch_upstream_congr (same : c.upstream u = c'.upstream u) (cmd : Command) :
    (dispatch reg c cmd).2.upstream u = (dispatch reg c' cmd).2.upstream u := by
  cases cmd with
  | stub upstream matcher response times =>
    simp only [dispatch]
    cases resolveUpstream reg upstream with
    | error err => exact same
    | ok rt =>
      dsimp only
      exact ClusterState.modify_congr same rt.name _
  | clearStubs upstream => exact onUpstreams_upstream_congr reg same upstream _
  | pause upstream => exact onUpstreams_upstream_congr reg same upstream _
  | resume upstream => exact onUpstreams_upstream_congr reg same upstream _
  | _ => exact same

end Frame

end PartlyProxy
