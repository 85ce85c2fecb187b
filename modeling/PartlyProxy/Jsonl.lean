import PartlyProxy.Storage
import PartlyProxy.Lib.Json
import PartlyProxy.Lib.Lines

namespace PartlyProxy

/-- What the NDJSON backend takes from `serde_json`, `base64`, `uuid` and `chrono`:
JSON trees to compact text and back, the message for a line that is refused, and
the codecs of the leaves. -/
structure Serde where
  render : Json → String
  parse : String → Option Json
  errorText : String → String
  base64Encode : Bytes → String
  base64Decode : String → Option Bytes
  parseUuid : String → Option Uuid
  parseTimestamp : String → Option Timestamp

def isWhitespace (c : Char) : Bool :=
  let n := c.toNat
  (9 ≤ n && n ≤ 13) || n == 32 || n == 0x85 || n == 0xA0 || n == 0x1680 || (0x2000 ≤ n && n ≤ 0x200A) || n == 0x2028 ||
    n == 0x2029 || n == 0x202F || n == 0x205F || n == 0x3000

def isBlank (line : String) : Bool := line.toList.all isWhitespace

/-- The recursion limit of `serde_json`. -/
def deepest : Nat := 127

/-- The codecs read back what they wrote, a JSON text has no raw control
characters, and a blank text is no JSON. -/
structure Serde.Lawful (serde : Serde) : Prop where
  parse_render : ∀ json : Json, json.Plain false deepest → serde.parse (serde.render json) = some json
  printable : ∀ json : Json, json.Plain false deepest → ∀ c ∈ (serde.render json).toList, 32 ≤ c.toNat
  blank : ∀ text, isBlank text = true → serde.parse text = none
  base64 : ∀ bytes, serde.base64Decode (serde.base64Encode bytes) = some bytes
  uuid : ∀ id : Uuid, serde.parseUuid id.text = some id
  timestamp : ∀ time : Timestamp, serde.parseTimestamp time.text = some time

/-- `duration_ms::serialize`: whole milliseconds, saturating at 64 bits. -/
def asMillis (d : Duration) : Nat := min (d / 1000000) (UInt64.size - 1)

def fromMillis (ms : Nat) : Duration := ms * 1000000

section Serialize
variable (serde : Serde)

def headersJson (headers : List (String × String)) : Json :=
  .arr (headers.map fun pair => .arr [.str pair.1, .str pair.2])

def RecordedRequest.toJson (req : RecordedRequest) : Json :=
  .obj [("method", .str req.method), ("uri", .str req.uri), ("headers", headersJson req.headers),
    ("body", .str (serde.base64Encode req.body)), ("body_sha256", .str req.bodySha256)]

def RecordedResponse.members (resp : RecordedResponse) : List (String × Json) :=
  [("status", .num resp.status.toNat), ("headers", headersJson resp.headers),
    ("body", .str (serde.base64Encode resp.body))]

def ExchangeOutcome.toJson : ExchangeOutcome → Json
  | .response resp => .obj (("kind", .str "response") :: resp.members serde)
  | .error message => .obj [("kind", .str "error"), ("message", .str message)]

/-- An absent upstream and empty labels are skipped. -/
def RecordedExchange.toJson (e : RecordedExchange) : Json :=
  .obj ([("id", .str e.id.text)] ++ (e.upstream.map fun name => ("upstream", Json.str name)).toList ++
    [("timestamp", .str e.timestamp.text), ("duration_ms", .num (asMillis e.duration)),
      ("request", e.request.toJson serde), ("outcome", e.outcome.toJson serde)] ++
    (if e.labels.entries = [] then [] else
      [("labels", .obj (e.labels.entries.map fun entry => (entry.1, .str entry.2)))]))

end Serialize

section Deserialize
variable (serde : Serde)

/-- A derived visitor refuses a field that is given twice. -/
def field (members : List (String × Json)) (name : String) : Option (Option Json) :=
  match members.filter fun member => member.1 = name with
  | [] => some none
  | [member] => some (some member.2)
  | _ => none

def required {α : Type} (members : List (String × Json)) (name : String) (decode : Json → Option α) : Option α :=
  match field members name with
  | some (some json) => decode json
  | _ => none

def defaulted {α : Type} (members : List (String × Json)) (name : String) (default : α) (decode : Json → Option α) :
    Option α :=
  match field members name with
  | some (some json) => decode json
  | some none => some default
  | none => none

/-- A derived struct is read from a map, unknown fields ignored, or from a
sequence in declaration order. -/
def structMembers (names : List String) : Json → Option (List (String × Json))
  | .obj members => some members
  | .arr items => if items.length ≤ names.length then some (names.zip items) else none
  | _ => none

def decodeString : Json → Option String
  | .str text => some text
  | _ => none

def decodeNat (size : Nat) : Json → Option Nat
  | .num n => if n < size then some n else none
  | _ => none

def decodePair : Json → Option (String × String)
  | .arr [first, second] => do some (← decodeString first, ← decodeString second)
  | _ => none

def decodeHeaders : Json → Option (List (String × String))
  | .arr items => items.mapM decodePair
  | _ => none

def decodeBytes (json : Json) : Option Bytes := (decodeString json).bind serde.base64Decode

def decodeRequest (json : Json) : Option RecordedRequest := do
  let members ← structMembers ["method", "uri", "headers", "body", "body_sha256"] json
  some ⟨← required members "method" decodeString, ← required members "uri" decodeString,
    ← required members "headers" decodeHeaders, ← required members "body" (decodeBytes serde),
    ← required members "body_sha256" decodeString⟩

def decodeResponse (json : Json) : Option RecordedResponse := do
  let members ← structMembers ["status", "headers", "body"] json
  some ⟨.ofNat (← required members "status" (decodeNat UInt16.size)), ← required members "headers" decodeHeaders,
    ← required members "body" (decodeBytes serde)⟩

/-- The tag of an internally tagged value, under its name, and the rest of it. -/
def splitTag (name : String) : Json → Option (String × Json)
  | .obj members => do
    some (← required members name decodeString, .obj (members.filter fun member => member.1 ≠ name))
  | .arr (tag :: rest) => do some (← decodeString tag, .arr rest)
  | _ => none

def decodeOutcome (json : Json) : Option ExchangeOutcome := do
  let (tag, rest) ← splitTag "kind" json
  if tag = "response" then some (.response (← decodeResponse serde rest))
  else if tag = "error" then
    let members ← structMembers ["message"] rest
    some (.error (← required members "message" decodeString))
  else none

def decodeOption : Json → Option (Option String)
  | .null => some none
  | json => (decodeString json).map some

def decodeLabels : Json → Option Labels
  | .obj members => members.foldlM (fun labels member => do some (labels.insert member.1 (← decodeString member.2))) .empty
  | _ => none

def decodeExchange (json : Json) : Option RecordedExchange := do
  let members ← structMembers ["id", "upstream", "timestamp", "duration_ms", "request", "outcome", "labels"] json
  some {
    id := ← required members "id" fun json => (decodeString json).bind serde.parseUuid
    upstream := ← defaulted members "upstream" none decodeOption
    timestamp := ← required members "timestamp" fun json => (decodeString json).bind serde.parseTimestamp
    duration := fromMillis (← required members "duration_ms" (decodeNat UInt64.size))
    request := ← required members "request" (decodeRequest serde)
    outcome := ← required members "outcome" (decodeOutcome serde)
    labels := ← defaulted members "labels" .empty decodeLabels }

end Deserialize

section Backend
variable (serde : Serde)

def jsonlLine (e : RecordedExchange) : Bytes := Lines.encode (serde.render (e.toJson serde)) ++ [10]

def parseNdjsonLine (line : String) (lineno : Nat) : Except ProxyError RecordedExchange :=
  match (serde.parse line).bind (decodeExchange serde) with
  | some e => .ok e
  | none => .error (.recording ("line " ++ toString (lineno + 1) ++ ": " ++ serde.errorText line))

def loadLines : Nat → List Bytes → Except ProxyError (List RecordedExchange)
  | _, [] => .ok []
  | lineno, piece :: rest =>
    match Lines.decode (Lines.chomp piece) with
    | none => .error (.recording "stream did not contain valid UTF-8")
    | some line =>
      if isBlank line then loadLines (lineno + 1) rest
      else
        match parseNdjsonLine serde line lineno with
        | .error err => .error err
        | .ok e => (loadLines (lineno + 1) rest).map fun exchanges => e :: exchanges

def jsonlStorage : SnapshotStorage Bytes where
  append file exchange := (.ok (), file ++ jsonlLine serde exchange)
  load file := loadLines serde 0 (Lines.pieces file)

end Backend

section RoundTrip
variable {serde : Serde} (law : serde.Lawful)

theorem filter_of_notMem {members : List (String × Json)} {name : String} (absent : name ∉ members.map Prod.fst) :
    (members.filter fun member => member.1 = name) = [] := by
  rw [List.filter_eq_nil_iff]
  intro member inMembers same
  exact absent (List.mem_map.mpr ⟨member, inMembers, of_decide_eq_true same⟩)

theorem field_of_notMem {members : List (String × Json)} {name : String} (absent : name ∉ members.map Prod.fst) :
    field members name = some none := by
  rw [field, filter_of_notMem absent]

/-- Where no name is given twice, a field is read whatever its place. -/
theorem field_of_mem {members : List (String × Json)} {name : String} {json : Json}
    (distinct : (members.map Prod.fst).Nodup) (present : (name, json) ∈ members) :
    field members name = some (some json) := by
  induction members with
  | nil => cases present
  | cons first rest ih =>
    obtain ⟨alone, distinct⟩ := List.nodup_cons.mp distinct
    rcases List.mem_cons.mp present with rfl | later
    · simp [field, filter_of_notMem alone]
    · have other : first.1 ≠ name := by
        rintro rfl
        exact alone (List.mem_map.mpr ⟨_, later, rfl⟩)
      rw [← ih distinct later]
      simp [field, other]

theorem decodeHeaders_headersJson (headers : List (String × String)) :
    decodeHeaders (headersJson headers) = some headers := by
  simp only [decodeHeaders, headersJson]
  induction headers with
  | nil => rfl
  | cons pair rest ih => simp [List.mapM_cons, decodePair, decodeString, ih]

theorem decodeNat_num {size n : Nat} (small : n < size) : decodeNat size (.num n) = some n := if_pos small

include law in
theorem decodeBytes_str (bytes : Bytes) : decodeBytes serde (.str (serde.base64Encode bytes)) = some bytes := by
  simp [decodeBytes, decodeString, law.base64]

include law in
theorem decodeRequest_toJson (req : RecordedRequest) : decodeRequest serde (req.toJson serde) = some req := by
  simp [decodeRequest, RecordedRequest.toJson, structMembers, required, field, decodeString,
    decodeHeaders_headersJson, decodeBytes_str law]

include law in
theorem decodeOutcome_toJson (outcome : ExchangeOutcome) :
    decodeOutcome serde (outcome.toJson serde) = some outcome := by
  cases outcome with
  | response resp =>
    have small : resp.status.toNat < UInt16.size := resp.status.toNat_lt
    simp [decodeOutcome, ExchangeOutcome.toJson, RecordedResponse.members, splitTag, decodeResponse, structMembers, required,
      field, decodeString, decodeNat_num small, decodeHeaders_headersJson, decodeBytes_str law]
  | error message =>
    simp [decodeOutcome, ExchangeOutcome.toJson, splitTag, structMembers, required, field, decodeString]

theorem insertEntry_last {key : String} {entries : List (String × String)} (last : ∀ entry ∈ entries, entry.1 < key)
    (value : String) : Labels.insertEntry key value entries = entries ++ [(key, value)] := by
  induction entries with
  | nil => rfl
  | cons first rest ih =>
    have above := last first (List.mem_cons_self ..)
    have notBelow : ¬ key < first.1 := String.lt_asymm above
    have differ : ¬ key = first.1 := by
      rintro rfl
      exact String.lt_irrefl _ above
    simp only [Labels.insertEntry, if_neg notBelow, if_neg differ, List.cons_append, List.cons.injEq, true_and]
    exact ih fun entry member => last entry (List.mem_cons_of_mem _ member)

theorem decodeLabels_entries (front labels : Labels) (back : List (String × String))
    (split : labels.entries = front.entries ++ back) :
    (back.map fun entry => (entry.1, Json.str entry.2)).foldlM
      (fun labels member => do some (Labels.insert labels member.1 (← decodeString member.2))) front = some labels := by
  induction back generalizing front with
  | nil =>
    rw [List.append_nil] at split
    cases front
    cases labels
    cases split
    rfl
  | cons entry back ih =>
    have sorted := labels.sorted
    rw [split] at sorted
    have last : ∀ other ∈ front.entries, other.1 < entry.1 := fun other member =>
      (List.pairwise_append.mp sorted).2.2 other member entry (List.mem_cons_self ..)
    have next : (front.insert entry.1 entry.2).entries = front.entries ++ [entry] := insertEntry_last last entry.2
    have later := ih (front.insert entry.1 entry.2) (by rw [next, split]; simp)
    simpa [decodeString] using later

theorem decodeLabels_toJson (labels : Labels) :
    decodeLabels (.obj (labels.entries.map fun entry => (entry.1, .str entry.2))) = some labels :=
  decodeLabels_entries .empty labels labels.entries rfl

/-- The exchange as it comes back from the file: its duration in whole milliseconds. -/
def RecordedExchange.rounded (e : RecordedExchange) : RecordedExchange :=
  { e with duration := fromMillis (asMillis e.duration) }

theorem asMillis_lt (d : Duration) : asMillis d < UInt64.size :=
  Nat.lt_of_le_of_lt (Nat.min_le_right _ _) (by decide)

include law in
theorem decodeExchange_toJson (e : RecordedExchange) : decodeExchange serde (e.toJson serde) = some e.rounded := by
  obtain ⟨members, shape⟩ : ∃ members, e.toJson serde = .obj members := ⟨_, rfl⟩
  have listed := Json.obj.inj shape
  have distinct : (members.map Prod.fst).Nodup := by
    rw [← listed]
    split <;> cases e.upstream <;> simp
  have id : field members "id" = some (some (.str e.id.text)) := field_of_mem distinct (by simp [← listed])
  have upstream : defaulted members "upstream" none decodeOption = some e.upstream := by
    cases named : e.upstream with
    | none =>
      have absent : "upstream" ∉ members.map Prod.fst := by
        rw [← listed, named]
        split <;> simp
      simp [defaulted, field_of_notMem absent]
    | some name =>
      have present : ("upstream", .str name) ∈ members := by simp [← listed, named]
      simp [defaulted, field_of_mem distinct present, decodeOption, decodeString]
  have timestamp : field members "timestamp" = some (some (.str e.timestamp.text)) :=
    field_of_mem distinct (by simp [← listed])
  have duration : field members "duration_ms" = some (some (.num (asMillis e.duration))) :=
    field_of_mem distinct (by simp [← listed])
  have request : field members "request" = some (some (e.request.toJson serde)) :=
    field_of_mem distinct (by simp [← listed])
  have outcome : field members "outcome" = some (some (e.outcome.toJson serde)) :=
    field_of_mem distinct (by simp [← listed])
  have labels : defaulted members "labels" .empty decodeLabels = some e.labels := by
    by_cases unlabelled : e.labels.entries = []
    · have absent : "labels" ∉ members.map Prod.fst := by
        rw [← listed, if_pos unlabelled]
        cases e.upstream <;> simp
      have isEmpty : e.labels = .empty := by
        generalize e.labels = labels at unlabelled
        cases labels
        cases unlabelled
        rfl
      simp [defaulted, field_of_notMem absent, isEmpty]
    · have present : ("labels", .obj (e.labels.entries.map fun entry => (entry.1, .str entry.2))) ∈ members := by
        simp [← listed, unlabelled]
      simp [defaulted, field_of_mem distinct present, decodeLabels_toJson]
  rw [shape]
  simp [decodeExchange, RecordedExchange.rounded, structMembers, required, id, timestamp, duration, request, outcome,
    upstream, labels, decodeString, decodeNat_num (asMillis_lt _), law.uuid, law.timestamp, decodeRequest_toJson law,
    decodeOutcome_toJson law]

theorem headersJson_plain {depth : Nat} (headers : List (String × String)) :
    (headersJson headers).Plain false (depth + 2) := by
  refine .arr fun item member => ?_
  obtain ⟨pair, _, rfl⟩ := List.mem_map.mp member
  refine .arr fun leaf inPair => ?_
  simp only [List.mem_cons, List.not_mem_nil, or_false] at inPair
  rcases inPair with rfl | rfl <;> exact .str _

variable (serde) in
theorem RecordedRequest.toJson_plain {depth : Nat} (req : RecordedRequest) : (req.toJson serde).Plain false (depth + 3) := by
  refine .obj fun member inMembers => ?_
  simp only [List.mem_cons, List.not_mem_nil, or_false] at inMembers
  rcases inMembers with rfl | rfl | rfl | rfl | rfl
  · exact .str _
  · exact .str _
  · exact headersJson_plain _
  · exact .str _
  · exact .str _

variable (serde) in
theorem ExchangeOutcome.toJson_plain {depth : Nat} (outcome : ExchangeOutcome) :
    (outcome.toJson serde).Plain false (depth + 3) := by
  cases outcome with
  | response resp =>
    refine .obj fun member inMembers => ?_
    simp only [RecordedResponse.members, List.mem_cons, List.not_mem_nil, or_false] at inMembers
    rcases inMembers with rfl | rfl | rfl | rfl
    · exact .str _
    · exact .num (Nat.lt_trans resp.status.toNat_lt (by decide))
    · exact headersJson_plain _
    · exact .str _
  | error message =>
    refine .obj fun member inMembers => ?_
    simp only [List.mem_cons, List.not_mem_nil, or_false] at inMembers
    rcases inMembers with rfl | rfl <;> exact .str _

variable (serde) in
theorem RecordedExchange.toJson_plain {depth : Nat} (e : RecordedExchange) : (e.toJson serde).Plain false (depth + 4) := by
  refine .obj fun member inMembers => ?_
  rcases List.mem_append.mp inMembers with early | late
  · rcases List.mem_append.mp early with front | fields
    · rcases List.mem_append.mp front with id | upstream
      · cases List.mem_singleton.mp id
        exact .str _
      · obtain ⟨name, _, rfl⟩ := Option.map_eq_some_iff.mp (Option.mem_toList.mp upstream)
        exact .str _
    · simp only [List.mem_cons, List.not_mem_nil, or_false] at fields
      rcases fields with rfl | rfl | rfl | rfl
      · exact .str _
      · exact .num (asMillis_lt _)
      · exact e.request.toJson_plain serde
      · exact e.outcome.toJson_plain serde
  · split at late
    · cases late
    · cases List.mem_singleton.mp late
      refine .obj fun entry inLabels => ?_
      obtain ⟨label, _, rfl⟩ := List.mem_map.mp inLabels
      exact .str _

end RoundTrip

section Log
variable {serde : Serde} (law : serde.Lawful)

include law in
theorem parseNdjsonLine_render (e : RecordedExchange) (lineno : Nat) :
    parseNdjsonLine serde (serde.render (e.toJson serde)) lineno = .ok e.rounded := by
  simp [parseNdjsonLine, law.parse_render _ (e.toJson_plain serde), decodeExchange_toJson law]

include law in
theorem render_not_blank (e : RecordedExchange) : isBlank (serde.render (e.toJson serde)) = false := by
  cases blank : isBlank (serde.render (e.toJson serde)) with
  | false => rfl
  | true =>
    have parsed := law.parse_render _ (e.toJson_plain serde)
    rw [law.blank _ blank] at parsed
    cases parsed

include law in
/-- A file of written lines loads as the exchanges, rounded, in order. -/
theorem loadLines_written (written : List RecordedExchange) (lineno : Nat) :
    loadLines serde lineno (Lines.pieces (written.flatMap (jsonlLine serde))) =
      .ok (written.map RecordedExchange.rounded) := by
  induction written generalizing lineno with
  | nil => rfl
  | cons e rest ih =>
    have printable := Lines.encode_printable (law.printable _ (e.toJson_plain serde))
    have noFeed : ∀ b ∈ Lines.encode (serde.render (e.toJson serde)), b ≠ 10 := by
      rintro b member rfl
      exact absurd (printable _ member) (by decide)
    have noReturn : ∀ b ∈ Lines.encode (serde.render (e.toJson serde)), b ≠ 13 := by
      rintro b member rfl
      exact absurd (printable _ member) (by decide)
    rw [List.flatMap_cons, jsonlLine, List.append_assoc, List.singleton_append, Lines.pieces_line noFeed, loadLines,
      Lines.chomp_line noReturn, Lines.decode_encode]
    simp only [render_not_blank law, Bool.false_eq_true, if_false, parseNdjsonLine_render law, ih]
    rfl

/-- The NDJSON file carries the exchanges that were appended, rounded. -/
def jsonlStorage_lawful : (jsonlStorage serde).Lawful where
  Holds file log := ∃ written : List RecordedExchange,
    file = written.flatMap (jsonlLine serde) ∧ log = written.map RecordedExchange.rounded
  load_eq := by
    rintro file log ⟨written, rfl, rfl⟩
    exact loadLines_written law written 0
  append_ok := by
    rintro file log e ⟨written, rfl, rfl⟩ _
    refine ⟨e.rounded, ⟨rfl, rfl⟩, written ++ [e], ?_, ?_⟩
    · simp [jsonlStorage]
    · simp
  append_error := by
    intro file log e err _ failed
    cases failed

end Log

end PartlyProxy
