import PartlyProxy.Deps
import Mathlib.Data.List.Infix

namespace PartlyProxy

def replacementChar : Char := Char.ofNat 0xFFFD

/-- For a lead byte of a multi-byte sequence: the range of the second byte, the
bits the lead contributes and how many bytes follow the second. -/
def utf8Lead (b : UInt8) : Option (UInt8 × UInt8 × Nat × Nat) :=
  if 0xC2 ≤ b ∧ b ≤ 0xDF then some (0x80, 0xBF, b.toNat - 0xC0, 0)
  else if b = 0xE0 then some (0xA0, 0xBF, 0, 1)
  else if b = 0xED then some (0x80, 0x9F, 13, 1)
  else if 0xE1 ≤ b ∧ b ≤ 0xEF then some (0x80, 0xBF, b.toNat - 0xE0, 1)
  else if b = 0xF0 then some (0x90, 0xBF, 0, 2)
  else if 0xF1 ≤ b ∧ b ≤ 0xF3 then some (0x80, 0xBF, b.toNat - 0xF0, 2)
  else if b = 0xF4 then some (0x80, 0x8F, 4, 2)
  else none

/-- The continuation bytes after the second; the ill-formed part ends before the
first byte that is none. -/
def utf8Tail (acc : Nat) : Nat → Bytes → Char × Bytes
  | 0, rest => (Char.ofNat acc, rest)
  | n + 1, b :: rest =>
    if 0x80 ≤ b ∧ b ≤ 0xBF then utf8Tail (acc * 64 + (b.toNat - 0x80)) n rest else (replacementChar, b :: rest)
  | _ + 1, [] => (replacementChar, [])

def utf8Step (b : UInt8) (rest : Bytes) : Char × Bytes :=
  if b < 0x80 then (Char.ofNat b.toNat, rest)
  else
    match utf8Lead b, rest with
    | some (low, high, acc, more), second :: rest =>
      if low ≤ second ∧ second ≤ high then utf8Tail (acc * 64 + (second.toNat - 0x80)) more rest
      else (replacementChar, second :: rest)
    | _, rest => (replacementChar, rest)

/-- `String::from_utf8_lossy`; each step consumes a byte, so the length is fuel enough. -/
def fromUtf8LossyFuel : Nat → Bytes → List Char
  | _, [] => []
  | 0, _ :: _ => []
  | fuel + 1, b :: rest => (utf8Step b rest).1 :: fromUtf8LossyFuel fuel (utf8Step b rest).2

def fromUtf8Lossy (bytes : Bytes) : List Char := fromUtf8LossyFuel bytes.length bytes

/-- A compiled regex by its `is_match`, or an exact path. -/
inductive PathPattern where
  | regex (isMatch : String → Bool)
  | exact (path : String)

structure RequestMatcher where
  method : Option Method
  pathPattern : Option PathPattern
  headerContains : List (String × String)
  bodyContains : Option Bytes

namespace RequestMatcher

def any : RequestMatcher := ⟨none, none, [], none⟩

def withMethod (m : RequestMatcher) (method : Method) : RequestMatcher := { m with method := some method }

def withPath (deps : Deps) (m : RequestMatcher) (pattern : String) : RequestMatcher :=
  { m with pathPattern := some (match deps.compileRegex pattern with
    | some isMatch => .regex isMatch
    | none => .exact pattern) }

/-- `header`: the map is keyed by the lowercased name, so a second call with the
same name replaces the first. -/
def withHeader (m : RequestMatcher) (name valueSubstr : String) : RequestMatcher :=
  let name := String.ofList (name.toList.map Char.toLower)
  { m with headerContains := m.headerContains.filter (fun entry => entry.1 ≠ name) ++ [(name, valueSubstr)] }

def withBodyContains (m : RequestMatcher) (needle : Bytes) : RequestMatcher :=
  { m with bodyContains := some needle }

def matchesMethod (m : RequestMatcher) (req : ProxyRequest) : Bool :=
  match m.method with
  | some method => req.method == method
  | none => true

def matchesPath (m : RequestMatcher) (req : ProxyRequest) : Bool :=
  match m.pathPattern with
  | some (.regex isMatch) => isMatch req.uri.path
  | some (.exact path) => req.uri.path == path
  | none => true

/-- Only the first value of each named header is looked at. -/
def matchesHeaders (m : RequestMatcher) (req : ProxyRequest) : Bool :=
  m.headerContains.all fun entry =>
    match (req.headers.get entry.1).bind headerValueToStr with
    | some value => decide (entry.2.toList <:+: value.toList)
    | none => false

def matchesBody (m : RequestMatcher) (req : ProxyRequest) : Bool :=
  match m.bodyContains with
  | some needle => decide (fromUtf8Lossy needle <:+: fromUtf8Lossy req.body)
  | none => true

def «matches» (m : RequestMatcher) (req : ProxyRequest) : Bool :=
  m.matchesMethod req && m.matchesPath req && m.matchesHeaders req && m.matchesBody req

end RequestMatcher

structure StubbedResponse where
  status : StatusCode
  headers : List (String × String)
  body : Bytes
  delay : Option Duration

def StubbedResponse.intoProxy (resp : StubbedResponse) : ProxyResponse where
  status := resp.status
  headers := insertPairs resp.headers
  body := resp.body
  version := .http11

/-- `times = none` never runs out. -/
structure StubEntry where
  matcher : RequestMatcher
  response : StubbedResponse
  times : Option Nat

namespace StubStore

def add (stubs : List StubEntry) (entry : StubEntry) : List StubEntry := stubs ++ [entry]

def clear (_ : List StubEntry) : List StubEntry := []

/-- The chosen entry after one fire; absent once its counter reaches zero. The
counter is decremented with saturation before it is tested. -/
def fire (entry : StubEntry) : Option StubEntry :=
  match entry.times with
  | none => some entry
  | some remaining => if remaining - 1 = 0 then none else some { entry with times := some (remaining - 1) }

/-- `StubStore::take_match`: the first matching entry fires. The delay that the
source returns beside the response is a field of it. -/
def takeMatch (stubs : List StubEntry) (req : ProxyRequest) : Option (StubbedResponse × List StubEntry) :=
  match stubs with
  | [] => none
  | entry :: rest =>
    if entry.matcher.matches req then some (entry.response, (fire entry).toList ++ rest)
    else (takeMatch rest req).map fun found => (found.1, entry :: found.2)

@[simp] theorem takeMatch_nil (req : ProxyRequest) : takeMatch [] req = none := rfl

end StubStore

end PartlyProxy
