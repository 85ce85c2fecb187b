import PartlyProxy.Command
import PartlyProxy.Jsonl

namespace PartlyProxy

structure WireFilter where
  upstream : Option String
  method : Option String
  pathPattern : Option String
  status : Option UInt16
  labels : Labels

def WireFilter.intoFilter (f : WireFilter) : TrafficFilter :=
  ⟨f.upstream, f.method, f.pathPattern, f.status,
    f.labels.entries.foldl (fun labels entry => labels.insert entry.1 entry.2) .empty⟩

structure StubFields where
  upstream : Option String
  method : Option String
  pathPattern : Option String
  headerContains : Labels
  bodyContains : Option String
  status : UInt16
  responseHeaders : Labels
  body : String
  delayMs : Option UInt64
  times : Option UInt32

inductive WireCommand where
  | stub (fields : StubFields)
  | clearStubs (upstream : Option String)
  | pause (upstream : Option String)
  | resume (upstream : Option String)
  | assertSeen (filter : WireFilter) (timeoutMs : UInt64)
  | assertCount (filter : WireFilter) (expected : Nat) (timeoutMs : UInt64)
  | queryTraffic (filter : WireFilter)
  | clearRecordings

structure WireError where
  text : String

def WireError.toText (err : WireError) : String := "wire decode: " ++ err.text

/-- `Method::from_str` takes any token. -/
def parseMethod (text : String) : Except WireError Method :=
  if text ≠ "" ∧ text.toList.all isTokenChar then .ok text
  else .error ⟨"invalid method: invalid HTTP method"⟩

def parseStatus (n : UInt16) : Except WireError StatusCode :=
  match StatusCode.fromU16 n.toNat with
  | some status => .ok status
  | none => .error ⟨"invalid status: invalid status code"⟩

namespace StubFields

def matcher (deps : Deps) (s : StubFields) : Except WireError RequestMatcher := do
  let m ← match s.method with
    | some text => (parseMethod text).map RequestMatcher.any.withMethod
    | none => pure .any
  let m := match s.pathPattern with
    | some pattern => m.withPath deps pattern
    | none => m
  let m := s.headerContains.entries.foldl (fun m entry => m.withHeader entry.1 entry.2) m
  pure (match s.bodyContains with
    | some needle => m.withBodyContains needle.toUTF8.toList
    | none => m)

def response (s : StubFields) : Except WireError StubbedResponse := do
  let status ← parseStatus s.status
  pure ⟨status, s.responseHeaders.entries, s.body.toUTF8.toList, s.delayMs.map fun ms => fromMillis ms.toNat⟩

end StubFields

/-- `WireCommand::into_command`. -/
def WireCommand.intoCommand (deps : Deps) : WireCommand → Except WireError Command
  | .stub s => do
    let matcher ← s.matcher deps
    let response ← s.response
    pure (.stub s.upstream matcher response (s.times.map UInt32.toNat))
  | .clearStubs upstream => .ok (.clearStubs upstream)
  | .pause upstream => .ok (.pause upstream)
  | .resume upstream => .ok (.resume upstream)
  | .assertSeen filter timeoutMs => .ok (.assertSeen filter.intoFilter (fromMillis timeoutMs.toNat))
  | .assertCount filter expected timeoutMs =>
    .ok (.assertCount filter.intoFilter expected (fromMillis timeoutMs.toNat))
  | .queryTraffic filter => .ok (.queryTraffic filter.intoFilter)
  | .clearRecordings => .ok .clearRecordings

inductive WireResponse where
  | ok
  | error (message : String)
  | exchanges (found : List RecordedExchange)
  | assertionResult (passed : Bool) (message : String)
deriving DecidableEq, Repr

def WireResponse.fromResponse : CommandResponse → WireResponse
  | .ok => .ok
  | .error message => .error message
  | .exchanges found => .exchanges found
  | .assertionResult passed message => .assertionResult passed message

/-- `str::trim`. -/
def trim (line : String) : String :=
  String.ofList (((line.toList.dropWhile isWhitespace).reverse.dropWhile isWhitespace).reverse)

/-- The part of `handle_line` before the command is sent, with `serde_json` as a
parameter. -/
def parseLine (deps : Deps) (fromStr : String → Except String WireCommand) (line : String) :
    Except WireResponse Command :=
  match fromStr (trim line) with
  | .error err => .error (.error s!"invalid JSON: {err}")
  | .ok wire =>
    match wire.intoCommand deps with
    | .error err => .error (.error err.toText)
    | .ok cmd => .ok cmd

end PartlyProxy
