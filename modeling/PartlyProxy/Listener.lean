import PartlyProxy.Replay
import PartlyProxy.Recorder
import PartlyProxy.Stub
import PartlyProxy.Forwarder

namespace PartlyProxy

inductive Mode where
  | record
  | replay
deriving DecidableEq, Repr

structure UpstreamRuntime where
  name : String
  forwarder : Forwarder
  recorder : Recorder
  middleware : List ProxyMiddleware
  mode : Mode
  replayMissHandler : ProxyRequest → ProxyResponse

/-- The mutable state behind one upstream: its stubs, its live replay source and
the recorder. `calls` lists the requests handed to the forwarder with the
outcome of each, as the real upstream would see them. -/
structure Shared (deps : Deps) (σ : Type) where
  stubs : List StubEntry
  replay : Option (ReplaySource deps)
  recorder : RecorderState σ
  calls : List (ProxyRequest × Outcome)

structure Inbound where
  method : Method
  uri : Uri
  headers : HeaderMap
  version : Version
  body : Except String Bytes

/-- One request together with what its environment will contribute: the context
id, the upstream's behaviour while it is handled and the stamp of its record. -/
structure Arrival where
  inbound : Inbound
  contextId : String
  net : ProxyRequest → ClientResult
  stamp : Stamp

def Inbound.original (inbound : Inbound) (body : Bytes) : ProxyRequest :=
  ⟨inbound.method, inbound.uri, inbound.headers, body, inbound.version⟩

/-- The request that will be recorded; its body is empty if it could not be read. -/
def Arrival.original (a : Arrival) : ProxyRequest :=
  match a.inbound.body with
  | .ok body => a.inbound.original body
  | .error _ => a.inbound.original []

variable {deps : Deps} {σ : Type}

def forwardCall (rt : UpstreamRuntime) (net : ProxyRequest → ClientResult) (req : ProxyRequest)
    (s : Shared deps σ) : Outcome × Shared deps σ :=
  let outcome := rt.forwarder.forward deps net req
  (outcome, { s with calls := s.calls ++ [(req, outcome)] })

/-- The replay lookup and the miss handling of the terminal stage. The `Upstream`
marker is stamped before the forward and stays if the forward fails. -/
def lookupOrMiss (rt : UpstreamRuntime) (net : ProxyRequest → ClientResult) (req : ProxyRequest)
    (ctx : RequestContext) (s : Shared deps σ) : (Outcome × RequestContext) × Shared deps σ :=
  match s.replay.bind fun source => source.lookup req rt.middleware with
  | some resp => ((.ok resp, ctx.stamp .snapshot), s)
  | none =>
    match rt.mode with
    | .replay => ((.ok (rt.replayMissHandler req), ctx.stamp .replayMiss), s)
    | .record => (((forwardCall rt net req s).1, ctx.stamp .upstream), (forwardCall rt net req s).2)

/-- `LiveTerminal::invoke`: stub scan, replay lookup, miss handling. -/
def invoke (rt : UpstreamRuntime) (net : ProxyRequest → ClientResult) (req : ProxyRequest)
    (ctx : RequestContext) (s : Shared deps σ) : (Outcome × RequestContext) × Shared deps σ :=
  match StubStore.takeMatch s.stubs req with
  | some (response, stubs) => ((.ok response.intoProxy, ctx.stamp .stub), { s with stubs := stubs })
  | none => lookupOrMiss rt net req ctx s

def successExchange (deps : Deps) (rt : UpstreamRuntime) (stamp : Stamp) (original : ProxyRequest)
    (resp : ProxyResponse) : RecordedExchange :=
  .new (some rt.name) (.fromParts deps (redactRequest rt.middleware original))
    (.response (.fromParts (redactResponse rt.middleware resp))) stamp

/-- The exchange of `record_error_exchange`. The request is rebuilt from its
parts with a fixed HTTP version before it is redacted. -/
def errorExchange (deps : Deps) (rt : UpstreamRuntime) (stamp : Stamp) (original : ProxyRequest)
    (err : ProxyError) : RecordedExchange :=
  .new (some rt.name) (.fromParts deps (redactRequest rt.middleware { original with version := .http11 }))
    (.error err.toText) stamp

/-- `persist_exchange`; a rejected exchange is only logged. -/
def persistExchange (storage : SnapshotStorage σ) (rt : UpstreamRuntime) (exchange : RecordedExchange)
    (s : Shared deps σ) : Shared deps σ :=
  { s with recorder := (rt.recorder.record storage s.recorder exchange).2 }

def promote (source : Option ResponseSource) (exchange : RecordedExchange) (s : Shared deps σ) : Shared deps σ :=
  if source = some .upstream then { s with replay := s.replay.map fun index => index.insert exchange } else s

def recordSuccessExchange (storage : SnapshotStorage σ) (rt : UpstreamRuntime) (stamp : Stamp)
    (original : ProxyRequest) (resp : ProxyResponse) (source : Option ResponseSource)
    (s : Shared deps σ) : Shared deps σ :=
  if rt.recorder.config.enabled = false then s
  else if source = some .snapshot then s
  else
    -- The live index has the exchange before the medium has accepted it.
    let exchange := successExchange deps rt stamp original resp
    persistExchange storage rt exchange (promote source exchange s)

def recordErrorExchange (storage : SnapshotStorage σ) (rt : UpstreamRuntime) (stamp : Stamp)
    (original : ProxyRequest) (err : ProxyError) (s : Shared deps σ) : Shared deps σ :=
  if rt.recorder.config.enabled = false then s
  else persistExchange storage rt (errorExchange deps rt stamp original err) s

def bodyReadError (source : String) : ProxyError := .upstreamRequest "inbound body read failed" (some source)

def reply : Outcome → ProxyResponse
  | .ok resp => intoHyper resp
  | .error err => badGateway err

def recordOutcome (storage : SnapshotStorage σ) (rt : UpstreamRuntime) (stamp : Stamp) (original : ProxyRequest)
    (outcome : Outcome) (source : Option ResponseSource) (s : Shared deps σ) : Shared deps σ :=
  match outcome with
  | .ok resp => recordSuccessExchange storage rt stamp original resp source s
  | .error err => recordErrorExchange storage rt stamp original err s

def chainOutcome (rt : UpstreamRuntime) (a : Arrival) (original : ProxyRequest) (s : Shared deps σ) :
    (Outcome × RequestContext) × Shared deps σ :=
  runChain rt.middleware (invoke rt a.net) original (.new a.contextId) s

/-- `handle_request` behind the pause gate. -/
def handleRequest (storage : SnapshotStorage σ) (rt : UpstreamRuntime) (a : Arrival) (s : Shared deps σ) :
    ProxyResponse × Shared deps σ :=
  match a.inbound.body with
  | .error source =>
    -- The chain is never entered, and the request is recorded with an empty body.
    (badGateway (bodyReadError source),
      recordErrorExchange storage rt a.stamp (a.inbound.original []) (bodyReadError source) s)
  | .ok body =>
    let original := a.inbound.original body
    let ended := chainOutcome rt a original s
    (reply ended.1.1,
      recordOutcome storage rt a.stamp original ended.1.1 ended.1.2.responseSource ended.2)

end PartlyProxy
