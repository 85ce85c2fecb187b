import PartlyProxy.Listener

namespace PartlyProxy

/-- `UpstreamSpec`. A storage backend is named by its medium. -/
structure UpstreamSpec where
  name : String
  target : UpstreamTarget
  middleware : List ProxyMiddleware
  storage : Option Nat
  mode : Mode
  replayMissHandler : ProxyRequest → ProxyResponse

structure ProxyClusterBuilder where
  recording : RecordingConfig
  defaultMode : Mode
  upstreams : List UpstreamSpec
  globalMiddleware : List ProxyMiddleware
  replayMissHandler : ProxyRequest → ProxyResponse

def defaultReplayMissHandler (_ : ProxyRequest) : ProxyResponse :=
  ((ProxyResponse.new .serviceUnavailable).withHeader "content-type" "application/json".toUTF8.toList).withBody
    "{}".toUTF8.toList

namespace ProxyClusterBuilder

def new : ProxyClusterBuilder := ⟨.default, .record, [], [], defaultReplayMissHandler⟩

/-- `default_mode` also replaces the recording configuration. -/
def withDefaultMode (b : ProxyClusterBuilder) (mode : Mode) : ProxyClusterBuilder :=
  { b with
    recording := match mode with | .record => .default | .replay => .disabled
    defaultMode := mode }

/-- `add_upstream_with_mode`; the miss handler is the builder's current one. -/
def addUpstreamWithMode (b : ProxyClusterBuilder) (name : String) (target : UpstreamTarget)
    (middleware : List ProxyMiddleware) (storage : Option Nat) (mode : Mode) : ProxyClusterBuilder :=
  { b with upstreams := b.upstreams ++ [⟨name, target, middleware, storage, mode, b.replayMissHandler⟩] }

def addUpstreamWith (b : ProxyClusterBuilder) (name : String) (target : UpstreamTarget)
    (middleware : List ProxyMiddleware) (storage : Option Nat) : ProxyClusterBuilder :=
  b.addUpstreamWithMode name target middleware storage b.defaultMode

def routes (b : ProxyClusterBuilder) (name : String) : Option Nat :=
  (b.upstreams.find? fun spec => spec.name = name).bind UpstreamSpec.storage

end ProxyClusterBuilder

variable {σ : Type}

/-- The state an upstream starts from: no stubs, an empty ring, and a replay
source loaded from its medium if it has one. -/
def openShared (deps : Deps) (storage : SnapshotStorage σ) (medium : Option Nat) (media : Nat → σ) :
    Except ProxyError (Shared deps σ) :=
  match medium with
  | none => .ok ⟨[], none, ⟨[], media⟩, []⟩
  | some m =>
    match storage.load (media m) with
    | .error err => .error err
    | .ok exchanges => .ok ⟨[], some (.new deps exchanges), ⟨[], media⟩, []⟩

namespace ProxyClusterBuilder

/-- The runtime `run` makes of a spec: the effective chain is global ++ per-upstream. -/
def runtime (deps : Deps) (b : ProxyClusterBuilder) (spec : UpstreamSpec) : Except ProxyError UpstreamRuntime :=
  match Forwarder.new deps spec.target with
  | .error err => .error err
  | .ok forwarder =>
    .ok ⟨spec.name, forwarder, ⟨b.recording, b.routes⟩, b.globalMiddleware ++ spec.middleware, spec.mode,
      spec.replayMissHandler⟩

def duplicateName (seen : List String) : List UpstreamSpec → Option String
  | [] => none
  | spec :: rest => if spec.name ∈ seen then some spec.name else duplicateName (spec.name :: seen) rest

/-- `run`, up to sockets and tasks: duplicate names are refused, every medium is
loaded, then every forwarder is built. -/
def run (deps : Deps) (storage : SnapshotStorage σ) (media : Nat → σ) (b : ProxyClusterBuilder) :
    Except ProxyError (List (UpstreamRuntime × Shared deps σ)) :=
  match duplicateName [] b.upstreams with
  | some name => .error (.command ("duplicate upstream name in cluster: " ++ name))
  | none => do
    let opened ← b.upstreams.mapM fun spec => openShared deps storage spec.storage media
    let runtimes ← b.upstreams.mapM (b.runtime deps)
    pure (runtimes.zip opened)

end ProxyClusterBuilder

theorem openShared_eq_ok {deps : Deps} {storage : SnapshotStorage σ} {m : Nat} {media : Nat → σ} {s : Shared deps σ} :
    openShared deps storage (some m) media = .ok s ↔
      ∃ exchanges, storage.load (media m) = .ok exchanges ∧ s = ⟨[], some (.new deps exchanges), ⟨[], media⟩, []⟩ := by
  simp only [openShared]
  cases storage.load (media m) with
  | error err => simp
  | ok exchanges => simp [eq_comm]

theorem ProxyClusterBuilder.run_single {deps : Deps} {storage : SnapshotStorage σ} {media : Nat → σ}
    {b : ProxyClusterBuilder} {spec : UpstreamSpec} (one : b.upstreams = [spec]) {s : Shared deps σ}
    (opened : openShared deps storage spec.storage media = .ok s) {forwarder : Forwarder}
    (parsed : Forwarder.new deps spec.target = .ok forwarder) :
    b.run deps storage media = .ok [(⟨spec.name, forwarder, ⟨b.recording, b.routes⟩,
      b.globalMiddleware ++ spec.middleware, spec.mode, spec.replayMissHandler⟩, s)] := by
  simp [run, one, duplicateName, opened, runtime, parsed, bind, Except.bind, pure, Except.pure]

end PartlyProxy
