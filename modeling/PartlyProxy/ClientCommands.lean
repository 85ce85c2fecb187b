import PartlyProxy.WireJson
import PartlyProxy.ProxyClient

namespace PartlyProxy

/-- A `number` by what `JSON.stringify` writes of it: a natural of 64 bits, any other
number (negative, with a fraction or an exponent, or larger), or `null`. -/
inductive JsNumber where
  | natural (n : Nat) (small : n < UInt64.size)
  | decimal (text : String) (number : Json.IsDecimal text)
  | notFinite

namespace JsNumber

def toJson : JsNumber → Json
  | natural n _ => .num n
  | decimal text _ => .decimal text
  | notFinite => .null

/-- The natural that it is, below `size`. -/
def toNat (size : Nat) : JsNumber → Option Nat
  | natural n _ => if n < size then some n else none
  | decimal _ _ | notFinite => none

def toU16 (n : JsNumber) : Option UInt16 := (n.toNat UInt16.size).map .ofNat

def toU32 (n : JsNumber) : Option UInt32 := (n.toNat UInt32.size).map .ofNat

def toU64 (n : JsNumber) : Option UInt64 := (n.toNat UInt64.size).map .ofNat

/-- A number that may be left out. The server takes `null` as left out, too. -/
def optionally {α : Type} (read : JsNumber → Option α) : Option JsNumber → Option (Option α)
  | none | some notFinite => some none
  | some n => (read n).map some

/-- A number that may be left out, but not be `null`. -/
def ifThere {α : Type} (read : JsNumber → Option α) : Option JsNumber → Option (Option α)
  | none => some none
  | some n => (read n).map some

end JsNumber

/-- A `Record<string, string>`, in the order of its properties. -/
abbrev StringRecord := List (String × String)

def StringRecord.toJson (record : StringRecord) : Json := .obj (record.map fun entry => (entry.1, .str entry.2))

/-- `TrafficFilter` of the client. A property that is `undefined` is not there. -/
structure FilterOptions where
  upstream : Option String
  method : Option String
  pathPattern : Option String
  status : Option JsNumber
  labels : Option StringRecord

structure StubOptions where
  upstream : Option String
  method : Option String
  pathPattern : Option String
  headerContains : Option StringRecord
  bodyContains : Option String
  status : Option JsNumber
  responseHeaders : Option StringRecord
  body : Option String
  delayMs : Option JsNumber
  times : Option JsNumber

/-- The methods of `ProxyClient` that send a command. -/
inductive ClientMethod where
  | stub (options : StubOptions)
  | clearStubs (upstream : Option String)
  | pause (upstream : Option String)
  | resume (upstream : Option String)
  | assertSeen (filter : FilterOptions) (timeoutMs : Option JsNumber)
  | assertCount (filter : FilterOptions) (expected : JsNumber) (timeoutMs : Option JsNumber)
  | queryTraffic (filter : Option FilterOptions)
  | clearRecordings

def FilterOptions.none : FilterOptions := ⟨Option.none, Option.none, Option.none, Option.none, Option.none⟩

def FilterOptions.fields (f : FilterOptions) : List (String × Option Json) :=
  [("upstream", f.upstream.map .str), ("method", f.method.map .str), ("path_pattern", f.pathPattern.map .str),
    ("status", f.status.map JsNumber.toJson), ("labels", f.labels.map StringRecord.toJson)]

def StubOptions.fields (s : StubOptions) : List (String × Option Json) :=
  [("upstream", s.upstream.map .str), ("method", s.method.map .str), ("path_pattern", s.pathPattern.map .str),
    ("header_contains", s.headerContains.map StringRecord.toJson), ("body_contains", s.bodyContains.map .str),
    ("status", s.status.map JsNumber.toJson), ("response_headers", s.responseHeaders.map StringRecord.toJson),
    ("body", s.body.map .str), ("delay_ms", s.delayMs.map JsNumber.toJson),
    ("times", s.times.map JsNumber.toJson)]

namespace ClientMethod

def typeName : ClientMethod → String
  | .stub _ => "Stub"
  | .clearStubs _ => "ClearStubs"
  | .pause _ => "Pause"
  | .resume _ => "Resume"
  | .assertSeen _ _ => "AssertSeen"
  | .assertCount _ _ _ => "AssertCount"
  | .queryTraffic _ => "QueryTraffic"
  | .clearRecordings => "ClearRecordings"

/-- The properties of the command object but for its type, with those that are
`undefined`. The client has a default for the timeout of an assertion. -/
def fields (defaultTimeout : JsNumber) : ClientMethod → List (String × Option Json)
  | .stub options => options.fields
  | .clearStubs upstream | .pause upstream | .resume upstream => [("upstream", upstream.map .str)]
  | .assertSeen filter timeoutMs => ("timeout_ms", some (timeoutMs.getD defaultTimeout).toJson) :: filter.fields
  | .assertCount filter expected timeoutMs =>
    ("expected", some expected.toJson) :: ("timeout_ms", some (timeoutMs.getD defaultTimeout).toJson) :: filter.fields
  | .queryTraffic filter => (filter.getD .none).fields
  | .clearRecordings => []

/-- What `JSON.stringify` writes of the command object. -/
def members (defaultTimeout : JsNumber) (m : ClientMethod) : List (String × Json) :=
  ("type", .str m.typeName) :: written (m.fields defaultTimeout)

end ClientMethod

/-- A record as the map that it stands for. -/
def StringRecord.labels (record : StringRecord) : Labels :=
  record.foldl (fun labels entry => labels.insert entry.1 entry.2) .empty

/-- What the caller means, where the numbers are in range. -/
def FilterOptions.meaning (f : FilterOptions) : Option WireFilter :=
  (JsNumber.optionally JsNumber.toU16 f.status).map fun status =>
    ⟨f.upstream, f.method, f.pathPattern, status, (f.labels.map StringRecord.labels).getD .empty⟩

def StubOptions.meaning (s : StubOptions) : Option StubFields := do
  let status ← JsNumber.ifThere JsNumber.toU16 s.status
  let delayMs ← JsNumber.optionally JsNumber.toU64 s.delayMs
  let times ← JsNumber.optionally JsNumber.toU32 s.times
  some {
    upstream := s.upstream
    method := s.method
    pathPattern := s.pathPattern
    headerContains := (s.headerContains.map StringRecord.labels).getD .empty
    bodyContains := s.bodyContains
    status := status.getD 200
    responseHeaders := (s.responseHeaders.map StringRecord.labels).getD .empty
    body := s.body.getD ""
    delayMs := delayMs
    times := times }

def ClientMethod.meaning (defaultTimeout : JsNumber) : ClientMethod → Option WireCommand
  | .stub options => options.meaning.map .stub
  | .clearStubs upstream => some (.clearStubs upstream)
  | .pause upstream => some (.pause upstream)
  | .resume upstream => some (.resume upstream)
  | .assertSeen filter timeoutMs => do
    some (.assertSeen (← filter.meaning) (← (timeoutMs.getD defaultTimeout).toU64))
  | .assertCount filter expected timeoutMs => do
    some (.assertCount (← filter.meaning) (← expected.toNat UInt64.size) (← (timeoutMs.getD defaultTimeout).toU64))
  | .queryTraffic filter => (filter.getD .none).meaning.map .queryTraffic
  | .clearRecordings => some .clearRecordings

/-- A natural that the type of this size holds. -/
def JsNumber.Below (size : Nat) (n : JsNumber) : Prop := ∃ k small, n = .natural k small ∧ k < size

/-- The numbers fit the types of the server. -/
def FilterOptions.Fits (f : FilterOptions) : Prop := ∀ status ∈ f.status, status = .notFinite ∨ status.Below UInt16.size

structure StubOptions.Fits (s : StubOptions) : Prop where
  status : ∀ status ∈ s.status, status.Below UInt16.size
  delayMs : ∀ delay ∈ s.delayMs, delay = .notFinite ∨ delay.Below UInt64.size
  times : ∀ times ∈ s.times, times = .notFinite ∨ times.Below UInt32.size

def ClientMethod.Fits (defaultTimeout : JsNumber) : ClientMethod → Prop
  | .stub options => options.Fits
  | .assertSeen filter timeoutMs => filter.Fits ∧ (timeoutMs.getD defaultTimeout).Below UInt64.size
  | .assertCount filter expected timeoutMs =>
    filter.Fits ∧ expected.Below UInt64.size ∧ (timeoutMs.getD defaultTimeout).Below UInt64.size
  | .queryTraffic filter => (filter.getD .none).Fits
  | .clearStubs _ | .pause _ | .resume _ | .clearRecordings => True

section Fits
variable {size : Nat} {α : Type} {f : Nat → α}

theorem JsNumber.toNat_iff (n : JsNumber) : (∃ k, n.toNat size = some k) ↔ n.Below size := by
  cases n with
  | natural k small => simp [toNat, Below, small]
  | decimal text number => simp [toNat, Below]
  | notFinite => simp [toNat, Below]

theorem JsNumber.read_iff (n : JsNumber) : (∃ a, (n.toNat size).map f = some a) ↔ n.Below size := by
  rw [← n.toNat_iff]
  simp

variable (size f) in
theorem JsNumber.ifThere_iff (value : Option JsNumber) :
    (∃ a, ifThere (fun n => (n.toNat size).map f) value = some a) ↔ ∀ n ∈ value, n.Below size := by
  cases value with
  | none => simp [ifThere]
  | some n => simp [ifThere, ← n.toNat_iff]

variable (size f) in
theorem JsNumber.optionally_iff (value : Option JsNumber) :
    (∃ a, optionally (fun n => (n.toNat size).map f) value = some a) ↔ ∀ n ∈ value, n = .notFinite ∨ n.Below size := by
  rcases value with _ | n
  · simp [optionally]
  · cases n with
    | notFinite => simp [optionally]
    | natural k small => simp [optionally, ← JsNumber.toNat_iff]
    | decimal text number => simp [optionally, ← JsNumber.toNat_iff]

theorem FilterOptions.meaning_iff (f : FilterOptions) : (∃ wire, f.meaning = some wire) ↔ f.Fits := by
  rw [Fits, ← JsNumber.optionally_iff UInt16.size UInt16.ofNat]
  simp only [meaning, Option.map_eq_some_iff]
  constructor
  · rintro ⟨_, status, read, _⟩
    exact ⟨status, read⟩
  · rintro ⟨status, read⟩
    exact ⟨_, status, read, rfl⟩

theorem StubOptions.meaning_iff (s : StubOptions) : (∃ fields, s.meaning = some fields) ↔ s.Fits := by
  have status := JsNumber.ifThere_iff UInt16.size UInt16.ofNat s.status
  have delay := JsNumber.optionally_iff UInt64.size UInt64.ofNat s.delayMs
  have times := JsNumber.optionally_iff UInt32.size UInt32.ofNat s.times
  simp only [meaning, Option.bind_eq_bind, Option.bind_eq_some_iff]
  constructor
  · rintro ⟨_, a, readStatus, b, readDelay, c, readTimes, _⟩
    exact ⟨status.mp ⟨a, readStatus⟩, delay.mp ⟨b, readDelay⟩, times.mp ⟨c, readTimes⟩⟩
  · intro fits
    obtain ⟨a, readStatus⟩ := status.mpr fits.status
    obtain ⟨b, readDelay⟩ := delay.mpr fits.delayMs
    obtain ⟨c, readTimes⟩ := times.mpr fits.times
    exact ⟨_, a, readStatus, b, readDelay, c, readTimes, rfl⟩

/-- A method has a meaning exactly if its numbers fit. -/
theorem ClientMethod.meaning_iff (defaultTimeout : JsNumber) (m : ClientMethod) :
    (∃ wire, m.meaning defaultTimeout = some wire) ↔ m.Fits defaultTimeout := by
  have long : ∀ n : JsNumber, (∃ k, n.toU64 = some k) ↔ n.Below UInt64.size := fun n => n.read_iff
  cases m with
  | stub options =>
    rw [Fits, ← options.meaning_iff]
    simp [meaning]
  | assertSeen filter timeoutMs =>
    rw [Fits, ← filter.meaning_iff, ← long]
    simp only [meaning, Option.bind_eq_bind, Option.bind_eq_some_iff]
    constructor
    · rintro ⟨_, wire, read, ms, readMs, _⟩
      exact ⟨⟨wire, read⟩, ms, readMs⟩
    · rintro ⟨⟨wire, read⟩, ms, readMs⟩
      exact ⟨_, wire, read, ms, readMs, rfl⟩
  | assertCount filter expected timeoutMs =>
    rw [Fits, ← filter.meaning_iff, ← long (timeoutMs.getD defaultTimeout), ← expected.toNat_iff]
    simp only [meaning, Option.bind_eq_bind, Option.bind_eq_some_iff]
    constructor
    · rintro ⟨_, wire, read, count, readCount, ms, readMs, _⟩
      exact ⟨⟨wire, read⟩, ⟨count, readCount⟩, ms, readMs⟩
    · rintro ⟨⟨wire, read⟩, ⟨count, readCount⟩, ms, readMs⟩
      exact ⟨_, wire, read, count, readCount, ms, readMs, rfl⟩
  | queryTraffic filter =>
    rw [Fits, ← (filter.getD .none).meaning_iff]
    simp [meaning]
  | clearStubs upstream | pause upstream | resume upstream => simp [meaning, Fits]
  | clearRecordings => simp [meaning, Fits]

end Fits

section Decode
variable {members : List (String × Json)} {name : String}

theorem decodeNat_toJson (size : Nat) (n : JsNumber) : decodeNat size n.toJson = n.toNat size := by
  cases n <;> rfl

theorem defaulted_optionally {α : Type} {value : Option JsNumber} {decode : Json → Option α} {read : JsNumber → Option α}
    (here : field members name = some (value.map JsNumber.toJson)) (decodes : ∀ n : JsNumber, decode n.toJson = read n) :
    defaulted members name none (decodeNullable decode) = JsNumber.optionally read value := by
  rw [defaulted, here]
  rcases value with _ | n
  · rfl
  · cases n with
    | notFinite => rfl
    | natural n small => exact congrArg (Option.map some) (decodes (.natural n small))
    | decimal text number => exact congrArg (Option.map some) (decodes (.decimal text number))

theorem defaulted_ifThere {α : Type} {value : Option JsNumber} {default : α} {decode : Json → Option α}
    {read : JsNumber → Option α} (here : field members name = some (value.map JsNumber.toJson))
    (decodes : ∀ n : JsNumber, decode n.toJson = read n) :
    defaulted members name default decode = (JsNumber.ifThere read value).map fun given => given.getD default := by
  rw [defaulted, here]
  rcases value with _ | n
  · rfl
  · refine (decodes n).trans ?_
    rw [JsNumber.ifThere]
    cases read n <;> rfl

theorem decodeU16_toJson (n : JsNumber) : decodeU16 n.toJson = n.toU16 := congrArg (Option.map _) (decodeNat_toJson _ n)

theorem decodeU32_toJson (n : JsNumber) : decodeU32 n.toJson = n.toU32 := congrArg (Option.map _) (decodeNat_toJson _ n)

theorem decodeU64_toJson (n : JsNumber) : decodeU64 n.toJson = n.toU64 := congrArg (Option.map _) (decodeNat_toJson _ n)

theorem decodeLabels_toJson_record (record : StringRecord) : decodeLabels record.toJson = some record.labels := by
  have walk : ∀ labels : Labels, (record.map fun entry => (entry.1, Json.str entry.2)).foldlM
      (fun labels member => do some (Labels.insert labels member.1 (← decodeString member.2))) labels =
        some (record.foldl (fun labels entry => labels.insert entry.1 entry.2) labels) := by
    induction record with
    | nil => exact fun _ => rfl
    | cons entry rest ih => exact fun labels => ih (labels.insert entry.1 entry.2)
  exact walk .empty

theorem defaulted_record {value : Option StringRecord} (here : field members name = some (value.map StringRecord.toJson)) :
    defaulted members name .empty decodeLabels = some ((value.map StringRecord.labels).getD .empty) := by
  rw [defaulted, here]
  cases value with
  | none => rfl
  | some record => exact decodeLabels_toJson_record record

theorem decodeFilter_meaning (f : FilterOptions)
    (read : ∀ field' ∈ f.fields, field members field'.1 = some field'.2) : decodeFilter members = f.meaning := by
  simp only [FilterOptions.fields, List.forall_mem_cons, List.not_mem_nil, false_imp_iff, implies_true, and_true] at read
  obtain ⟨upstream, method, path, status, labels⟩ := read
  rw [decodeFilter, defaulted_nullable upstream decodeNullable_str, defaulted_nullable method decodeNullable_str,
    defaulted_nullable path decodeNullable_str, defaulted_optionally status decodeU16_toJson, defaulted_record labels,
    FilterOptions.meaning]
  cases JsNumber.optionally JsNumber.toU16 f.status <;> rfl

theorem decodeStubMembers_meaning (s : StubOptions)
    (read : ∀ field' ∈ s.fields, field members field'.1 = some field'.2) : decodeStubMembers members = s.meaning := by
  simp only [StubOptions.fields, List.forall_mem_cons, List.not_mem_nil, false_imp_iff, implies_true, and_true] at read
  obtain ⟨upstream, method, path, headers, needle, status, response, body, delay, times⟩ := read
  have bodyRead : defaulted members "body" "" decodeString = some (s.body.getD "") := by
    rw [defaulted, body]
    cases s.body <;> rfl
  rw [decodeStubMembers, defaulted_nullable upstream decodeNullable_str, defaulted_nullable method decodeNullable_str,
    defaulted_nullable path decodeNullable_str, defaulted_record headers, defaulted_nullable needle decodeNullable_str,
    defaulted_ifThere status decodeU16_toJson, defaulted_record response, bodyRead,
    defaulted_optionally delay decodeU64_toJson, defaulted_optionally times decodeU32_toJson, StubOptions.meaning]
  cases JsNumber.ifThere JsNumber.toU16 s.status with
  | none => rfl
  | some status =>
    cases JsNumber.optionally JsNumber.toU64 s.delayMs with
    | none => rfl
    | some delay => cases JsNumber.optionally JsNumber.toU32 s.times <;> rfl

namespace ClientMethod

theorem names_distinct (defaultTimeout : JsNumber) (m : ClientMethod) :
    ("type" :: (m.fields defaultTimeout).map Prod.fst).Nodup := by
  cases m <;> exact of_decide_eq_true rfl

theorem decodeVariant_meaning (defaultTimeout : JsNumber) (m : ClientMethod)
    (read : ∀ field' ∈ m.fields defaultTimeout, field members field'.1 = some field'.2) :
    decodeVariant m.typeName (.obj members) = m.meaning defaultTimeout := by
  cases m with
  | stub options => exact congrArg (Option.map WireCommand.stub) (decodeStubMembers_meaning options read)
  | clearStubs upstream =>
    have target : decodeTarget members = some upstream :=
      defaulted_nullable (read _ (List.mem_singleton_self _)) decodeNullable_str
    exact congrArg (Option.map WireCommand.clearStubs) target
  | pause upstream =>
    have target : decodeTarget members = some upstream :=
      defaulted_nullable (read _ (List.mem_singleton_self _)) decodeNullable_str
    exact congrArg (Option.map WireCommand.pause) target
  | resume upstream =>
    have target : decodeTarget members = some upstream :=
      defaulted_nullable (read _ (List.mem_singleton_self _)) decodeNullable_str
    exact congrArg (Option.map WireCommand.resume) target
  | assertSeen filter timeoutMs =>
    obtain ⟨first, inFilter⟩ := List.forall_mem_cons.mp read
    have timeout : required members "timeout_ms" decodeU64 = (timeoutMs.getD defaultTimeout).toU64 := by
      rw [required, first]
      exact decodeU64_toJson _
    change (do
      let filter ← decodeFilter members
      some (WireCommand.assertSeen filter (← required members "timeout_ms" decodeU64))) = _
    rw [decodeFilter_meaning filter inFilter, timeout, meaning]
  | assertCount filter expected timeoutMs =>
    obtain ⟨first, others⟩ := List.forall_mem_cons.mp read
    obtain ⟨second, inFilter⟩ := List.forall_mem_cons.mp others
    have count : required members "expected" (decodeNat UInt64.size) = expected.toNat UInt64.size := by
      rw [required, first]
      exact decodeNat_toJson _ _
    have timeout : required members "timeout_ms" decodeU64 = (timeoutMs.getD defaultTimeout).toU64 := by
      rw [required, second]
      exact decodeU64_toJson _
    change (do
      let filter ← decodeFilter members
      some (WireCommand.assertCount filter (← required members "expected" (decodeNat UInt64.size))
        (← required members "timeout_ms" decodeU64))) = _
    rw [decodeFilter_meaning filter inFilter, count, timeout, meaning]
  | queryTraffic filter =>
    exact congrArg (Option.map WireCommand.queryTraffic) (decodeFilter_meaning (filter.getD .none) read)
  | clearRecordings => rfl

/-- The server reads from the object what the caller means, in whatever order the
properties stand. -/
theorem decodeWire_meaning (defaultTimeout : JsNumber) (m : ClientMethod)
    (perm : members.Perm (m.members defaultTimeout)) : decodeWire (.obj members) = m.meaning defaultTimeout := by
  have perm' : members.Perm ((("type", .str m.typeName) :: written (m.fields defaultTimeout)) ++ []) := by
    rw [List.append_nil]
    exact perm
  rw [decodeWire_obj (type_of_perm (m.names_distinct defaultTimeout) perm' (by simp))]
  exact m.decodeVariant_meaning defaultTimeout (fields_of_perm (m.names_distinct defaultTimeout) perm' (by simp))

end ClientMethod

end Decode

section Text

/-- The number is no decimal, or those may occur. -/
def JsNumber.Allowed (decimals : Bool) : JsNumber → Prop
  | decimal _ _ => decimals = true
  | natural _ _ | notFinite => True

def FilterOptions.numbers (f : FilterOptions) : List JsNumber := f.status.toList

def StubOptions.numbers (s : StubOptions) : List JsNumber := s.status.toList ++ s.delayMs.toList ++ s.times.toList

def ClientMethod.numbers (defaultTimeout : JsNumber) : ClientMethod → List JsNumber
  | .stub options => options.numbers
  | .assertSeen filter timeoutMs => timeoutMs.getD defaultTimeout :: filter.numbers
  | .assertCount filter expected timeoutMs => expected :: timeoutMs.getD defaultTimeout :: filter.numbers
  | .queryTraffic filter => (filter.getD .none).numbers
  | .clearStubs _ | .pause _ | .resume _ | .clearRecordings => []

theorem JsNumber.allowed (n : JsNumber) : n.Allowed true := by
  cases n <;> trivial

theorem JsNumber.Below.allowed {size : Nat} {n : JsNumber} (below : n.Below size) : n.Allowed false := by
  obtain ⟨k, small, rfl, _⟩ := below
  trivial

theorem JsNumber.allowed_of_optional {size : Nat} {n : JsNumber} (fits : n = .notFinite ∨ n.Below size) : n.Allowed false := by
  rcases fits with rfl | below
  · trivial
  · exact below.allowed

theorem FilterOptions.Fits.allowed {f : FilterOptions} (fits : f.Fits) : ∀ n ∈ f.numbers, n.Allowed false :=
  fun n member => JsNumber.allowed_of_optional (fits n (Option.mem_toList.mp member))

/-- Where the numbers fit there is no decimal among them. -/
theorem ClientMethod.Fits.allowed {defaultTimeout : JsNumber} {m : ClientMethod} (fits : m.Fits defaultTimeout) :
    ∀ n ∈ m.numbers defaultTimeout, n.Allowed false := by
  cases m with
  | stub options =>
    simp only [numbers, StubOptions.numbers, List.forall_mem_append]
    refine ⟨⟨fun n member => ?_, fun n member => ?_⟩, fun n member => ?_⟩
    · exact (fits.status n (Option.mem_toList.mp member)).allowed
    · exact JsNumber.allowed_of_optional (fits.delayMs n (Option.mem_toList.mp member))
    · exact JsNumber.allowed_of_optional (fits.times n (Option.mem_toList.mp member))
  | assertSeen filter timeoutMs => exact List.forall_mem_cons.mpr ⟨fits.2.allowed, fits.1.allowed⟩
  | assertCount filter expected timeoutMs =>
    exact List.forall_mem_cons.mpr ⟨fits.2.1.allowed, List.forall_mem_cons.mpr ⟨fits.2.2.allowed, fits.1.allowed⟩⟩
  | queryTraffic filter => exact FilterOptions.Fits.allowed fits
  | clearStubs upstream | pause upstream | resume upstream => simp [numbers]
  | clearRecordings => simp [numbers]

section Plain
variable {decimals : Bool} {depth : Nat}

theorem StringRecord.toJson_plain (record : StringRecord) : record.toJson.Plain decimals (depth + 1) := by
  refine .obj fun member inMembers => ?_
  obtain ⟨entry, _, rfl⟩ := List.mem_map.mp inMembers
  exact .str _

theorem JsNumber.toJson_plain {n : JsNumber} (allowed : n.Allowed decimals) : n.toJson.Plain decimals depth := by
  cases n with
  | natural k small => exact .num small
  | decimal text number => exact .decimal allowed number
  | notFinite => exact .null

theorem map_number_plain {value : Option JsNumber} (allowed : ∀ n ∈ value.toList, n.Allowed decimals) {json : Json}
    (isValue : value.map JsNumber.toJson = some json) : json.Plain decimals depth := by
  obtain ⟨n, rfl, rfl⟩ := Option.map_eq_some_iff.mp isValue
  exact JsNumber.toJson_plain (allowed n (by simp))

theorem map_record_plain {value : Option StringRecord} {json : Json}
    (isValue : value.map StringRecord.toJson = some json) : json.Plain decimals (depth + 1) := by
  obtain ⟨record, _, rfl⟩ := Option.map_eq_some_iff.mp isValue
  exact record.toJson_plain

theorem FilterOptions.fields_plain {f : FilterOptions} (allowed : ∀ n ∈ f.numbers, n.Allowed decimals) :
    ∀ field ∈ f.fields, ∀ json, field.2 = some json → json.Plain decimals (depth + 1) := by
  intro field inFields json isValue
  simp only [fields, List.mem_cons, List.not_mem_nil, or_false] at inFields
  rcases inFields with rfl | rfl | rfl | rfl | rfl
  · exact map_str_plain isValue
  · exact map_str_plain isValue
  · exact map_str_plain isValue
  · exact map_number_plain allowed isValue
  · exact map_record_plain isValue

theorem StubOptions.fields_plain {s : StubOptions} (allowed : ∀ n ∈ s.numbers, n.Allowed decimals) :
    ∀ field ∈ s.fields, ∀ json, field.2 = some json → json.Plain decimals (depth + 1) := by
  intro field inFields json isValue
  simp only [numbers, List.forall_mem_append] at allowed
  simp only [fields, List.mem_cons, List.not_mem_nil, or_false] at inFields
  rcases inFields with rfl | rfl | rfl | rfl | rfl | rfl | rfl | rfl | rfl | rfl
  · exact map_str_plain isValue
  · exact map_str_plain isValue
  · exact map_str_plain isValue
  · exact map_record_plain isValue
  · exact map_str_plain isValue
  · exact map_number_plain allowed.1.1 isValue
  · exact map_record_plain isValue
  · exact map_str_plain isValue
  · exact map_number_plain allowed.1.2 isValue
  · exact map_number_plain allowed.2 isValue

namespace ClientMethod
variable {defaultTimeout : JsNumber} {m : ClientMethod} {members : List (String × Json)}

theorem fields_plain (allowed : ∀ n ∈ m.numbers defaultTimeout, n.Allowed decimals) :
    ∀ field ∈ m.fields defaultTimeout, ∀ json, field.2 = some json → json.Plain decimals (depth + 1) := by
  intro field inFields json isValue
  cases m with
  | stub options => exact StubOptions.fields_plain allowed field inFields json isValue
  | clearStubs upstream | pause upstream | resume upstream =>
    rw [List.mem_singleton.mp inFields] at isValue
    exact map_str_plain isValue
  | assertSeen filter timeoutMs =>
    obtain ⟨timeout, rest⟩ := List.forall_mem_cons.mp allowed
    rcases List.mem_cons.mp inFields with rfl | inFilter
    · cases isValue
      exact JsNumber.toJson_plain timeout
    · exact FilterOptions.fields_plain rest field inFilter json isValue
  | assertCount filter expected timeoutMs =>
    obtain ⟨count, rest⟩ := List.forall_mem_cons.mp allowed
    obtain ⟨timeout, rest⟩ := List.forall_mem_cons.mp rest
    rcases List.mem_cons.mp inFields with rfl | others
    · cases isValue
      exact JsNumber.toJson_plain count
    · rcases List.mem_cons.mp others with rfl | inFilter
      · cases isValue
        exact JsNumber.toJson_plain timeout
      · exact FilterOptions.fields_plain rest field inFilter json isValue
  | queryTraffic filter => exact FilterOptions.fields_plain allowed field inFields json isValue
  | clearRecordings => cases inFields

theorem json_plain (perm : members.Perm (m.members defaultTimeout)) (allowed : ∀ n ∈ m.numbers defaultTimeout, n.Allowed decimals) :
    (Json.obj members).Plain decimals (depth + 2) := by
  refine .obj fun member inMembers => ?_
  rcases List.mem_cons.mp (perm.subset inMembers) with rfl | field
  · exact .str _
  · exact written_plain (fields_plain allowed) member field

end ClientMethod

end Plain

theorem renderMembers_closes (members : List (String × Json)) : ∃ front, Json.renderMembers members = front ++ ['}'] := by
  induction members with
  | nil => exact ⟨[], rfl⟩
  | cons member rest ih =>
    obtain ⟨front, closes⟩ := ih
    obtain ⟨name, value⟩ := member
    exact ⟨',' :: (Json.renderString name ++ ':' :: Json.renderValue value) ++ front, by
      rw [Json.renderMembers, closes, List.append_assoc]⟩

/-- An object stands between braces. -/
theorem render_obj_braced (members : List (String × Json)) :
    ∃ inner, (Json.render (.obj members)).toList = '{' :: inner ++ ['}'] := by
  rw [Json.render, String.toList_ofList]
  cases members with
  | nil => exact ⟨[], rfl⟩
  | cons member rest =>
    obtain ⟨front, closes⟩ := renderMembers_closes rest
    exact ⟨(Json.renderString member.1 ++ ':' :: Json.renderValue member.2) ++ front, by
      simp only [Json.renderValue, closes, List.cons_append, List.append_assoc]⟩

/-- What begins and ends with a solid character is not cut by `trim`. -/
theorem trim_braced {text : String} {inner : List Char} (braced : text.toList = '{' :: inner ++ ['}']) :
    trim text = text ∧ isBlank text = false := by
  have opening : isWhitespace '{' = false := by decide
  have closing : isWhitespace '}' = false := by decide
  constructor
  · have front : ('{' :: inner ++ ['}']).dropWhile isWhitespace = '{' :: inner ++ ['}'] := by
      rw [List.cons_append, List.dropWhile_cons_of_neg (by simp [opening])]
    have back : ('{' :: inner ++ ['}']).reverse.dropWhile isWhitespace = ('{' :: inner ++ ['}']).reverse := by
      rw [List.reverse_append, List.reverse_singleton, List.singleton_append,
        List.dropWhile_cons_of_neg (by simp [closing])]
    rw [trim, braced, front, back, List.reverse_reverse, ← braced, String.ofList_toList]
  · rw [isBlank, braced, List.cons_append, List.all_cons, opening, Bool.false_and]

/-- `serde_json` reads the compact text that `JSON.stringify` writes. It refuses numbers
that no double holds. -/
structure Serde.Reads (serde : Serde) : Prop where
  parse_text : ∀ json : Json, json.Plain false deepest → serde.parse (Json.render json) = some json
  parse_decimals : ∀ json : Json, json.Plain true deepest → ∀ read ∈ serde.parse (Json.render json), read = json

theorem referenceSerde_reads : referenceSerde.Reads where
  parse_text _ plain := Json.parse_render plain
  parse_decimals json plain read isRead := by
    have parses : referenceSerde.parse (Json.render json) = some json := Json.parse_render plain
    rw [parses] at isRead
    exact (Option.some.inj isRead).symm

/-- A decoded command as the server goes on with it. -/
def lowerWire (deps : Deps) (refused : String) : Option WireCommand → Except WireResponse Command
  | some wire =>
    match wire.intoCommand deps with
    | .ok cmd => .ok cmd
    | .error err => .error (.error err.toText)
  | none => .error (.error ("invalid JSON: " ++ refused))

theorem command_line_filled (members : List (String × Json)) : isBlank (Json.render (.obj members)) = false := by
  obtain ⟨inner, braced⟩ := render_obj_braced members
  exact (trim_braced braced).2

theorem parse_command_line (deps : Deps) {serde : Serde} (reads : serde.Reads) {defaultTimeout : JsNumber}
    {m : ClientMethod} {members : List (String × Json)} (perm : members.Perm (m.members defaultTimeout)) :
    parseLine deps (fromStr serde) (Json.render (.obj members)) =
      lowerWire deps (serde.errorText (Json.render (.obj members))) (m.meaning defaultTimeout) := by
  obtain ⟨inner, braced⟩ := render_obj_braced members
  have decoded : (serde.parse (Json.render (.obj members))).bind decodeWire = m.meaning defaultTimeout := by
    by_cases fits : m.Fits defaultTimeout
    · rw [reads.parse_text _ (ClientMethod.json_plain perm fits.allowed), Option.bind_some,
        m.decodeWire_meaning defaultTimeout perm]
    · have none_ : m.meaning defaultTimeout = none := by
        rw [← m.meaning_iff, not_exists] at fits
        exact Option.eq_none_iff_forall_ne_some.mpr fits
      have sole := reads.parse_decimals _ (ClientMethod.json_plain perm fun n _ => n.allowed)
      cases parsed : serde.parse (Json.render (.obj members)) with
      | none => exact none_.symm
      | some json => rw [sole json parsed, Option.bind_some, m.decodeWire_meaning defaultTimeout perm]
  rw [parseLine, (trim_braced braced).1, fromStr, decoded]
  cases m.meaning defaultTimeout with
  | none => rfl
  | some wire =>
    simp only [lowerWire]
    cases wire.intoCommand deps <;> rfl

end Text

section Results

/-- `JSON.parse`, and the double that is nearest to a natural number. -/
structure JsonParser where
  parse : String → Option Json
  double : Nat → Nat

/-- `JSON.parse` reads the text that `serde_json` writes, but for the last digits of
large numbers. -/
structure JsonParser.Reads (js : JsonParser) (serde : Serde) : Prop where
  parse_render : ∀ json : Json, json.Plain false deepest → js.parse (serde.render json) = some (json.mapNum js.double)

/-- A property of a value. Of two of one name the last is kept. -/
def property (name : String) : Json → Option Json
  | .obj members => (members.reverse.find? fun member => member.1 = name).map Prod.snd
  | _ => none

def hasType (name : String) (resp : Json) : Bool :=
  match property "type" resp with
  | some (.str text) => text = name
  | _ => false

/-- How a method ends that has its response. -/
inductive MethodResult where
  | void
  | assertion (passed message : Option Json)
  | exchanges (found : Option Json)
  | thrown (message : Option Json)

def asProxyError (resp : Json) : MethodResult :=
  if hasType "Error" resp then .thrown (property "message" resp)
  else .thrown (some (.str ("unexpected response: " ++ Json.render resp)))

def expectOk (resp : Json) : MethodResult := if hasType "Ok" resp then .void else asProxyError resp

def expectAssertion (resp : Json) : MethodResult :=
  if hasType "AssertionResult" resp then .assertion (property "passed" resp) (property "message" resp)
  else asProxyError resp

/-- What a method makes of its response. -/
def ClientMethod.result (resp : Json) : ClientMethod → MethodResult
  | .stub _ | .clearStubs _ | .pause _ | .resume _ | .clearRecordings => expectOk resp
  | .assertSeen _ _ | .assertCount _ _ _ => expectAssertion resp
  | .queryTraffic _ =>
    if hasType "Exchanges" resp then .exchanges (property "exchanges" resp) else asProxyError resp

/-- The responses that a method can use. -/
def ClientMethod.Expects : ClientMethod → WireResponse → Prop
  | _, .error _ => True
  | .queryTraffic _, .exchanges _ => True
  | .assertSeen _ _, .assertionResult _ _ | .assertCount _ _ _, .assertionResult _ _ => True
  | .stub _, .ok | .clearStubs _, .ok | .pause _, .ok | .resume _, .ok | .clearRecordings, .ok => True
  | _, _ => False

/-- The typed value of a response. -/
def WireResponse.typed (serde : Serde) (js : JsonParser) : WireResponse → MethodResult
  | .ok => .void
  | .error message => .thrown (some (.str message))
  | .exchanges found => .exchanges (some (.arr (found.map fun e => (e.toJson serde).mapNum js.double)))
  | .assertionResult passed message => .assertion (some (.bool passed)) (some (.str message))

/-- A method gets its typed value, or throws the message of the server; it never meets a
response that it did not expect. -/
theorem result_of_expected (serde : Serde) (js : JsonParser) {m : ClientMethod} {resp : WireResponse}
    (expects : m.Expects resp) : m.result ((resp.toJson serde).mapNum js.double) = resp.typed serde js := by
  cases resp with
  | ok => cases m <;> first | exact expects.elim | rfl
  | error message => cases m <;> rfl
  | exchanges found =>
    have whole : ((WireResponse.exchanges found).toJson serde).mapNum js.double =
        .obj [("type", .str "Exchanges"), ("exchanges", .arr (found.map fun e => (e.toJson serde).mapNum js.double))] := by
      simp only [WireResponse.toJson, Json.mapNum, Json.mapMembers, Json.mapItems_eq_map, List.map_map]
      rfl
    rw [whole]
    cases m <;> first | exact expects.elim | rfl
  | assertionResult passed message => cases m <;> first | exact expects.elim | rfl

end Results

end PartlyProxy
