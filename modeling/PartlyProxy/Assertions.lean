import PartlyProxy.Replay
import PartlyProxy.Recorder

namespace PartlyProxy

/-- `parse_path`: the path of a parsed URI, else what is left of the text without
query, scheme and authority. -/
def parsePath (deps : Deps) (uri : String) : String :=
  match deps.parseUri uri with
  | .ok parsed => parsed.path
  | .error _ =>
    let noQuery := uri.toList.takeWhile (· ≠ '?')
    match afterScheme noQuery with
    | some rest =>
      match rest.dropWhile (· ≠ '/') with
      | [] => "/"
      | path => String.ofList path
    | none => String.ofList noQuery

structure TrafficFilter where
  upstream : Option String
  method : Option String
  pathPattern : Option String
  status : Option UInt16
  labels : Labels

namespace TrafficFilter

def new : TrafficFilter := ⟨none, none, none, none, .empty⟩

def matchesPath (deps : Deps) (pattern : String) (e : RecordedExchange) : Bool :=
  let path := parsePath deps e.request.uri
  match deps.compileRegex pattern with
  | some isMatch => isMatch path
  | none => path == pattern

def matchesStatus (want : UInt16) (e : RecordedExchange) : Bool :=
  match e.outcome.asResponse with
  | some resp => resp.status == want
  | none => false

/-- `TrafficFilter::matches`: every set constraint must hold. -/
def «matches» (deps : Deps) (filter : TrafficFilter) (e : RecordedExchange) : Bool :=
  (filter.upstream.all fun name => e.upstream == some name) &&
    (filter.method.all fun method => e.request.method == method) &&
    (filter.pathPattern.all fun pattern => matchesPath deps pattern e) &&
    (filter.status.all fun want => matchesStatus want e) &&
    filter.labels.entries.all fun label => e.labels.entries.lookup label.1 == some label.2

end TrafficFilter

/-- `Recorder::count_matching`. -/
def countMatching (pred : RecordedExchange → Bool) (buffer : List RecordedExchange) : Nat :=
  (buffer.filter pred).length

@[simp] theorem countMatching_nil (pred : RecordedExchange → Bool) : countMatching pred [] = 0 := rfl

end PartlyProxy
