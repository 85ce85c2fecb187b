import PartlyProxy.Deps

namespace PartlyProxy

/-- `RecordedRequest`. The hash is taken after redaction. -/
structure RecordedRequest where
  method : String
  uri : String
  headers : List (String × String)
  body : Bytes
  bodySha256 : String
deriving DecidableEq, Repr

structure RecordedResponse where
  status : UInt16
  headers : List (String × String)
  body : Bytes
deriving DecidableEq, Repr

inductive ExchangeOutcome where
  | response (resp : RecordedResponse)
  | error (message : String)
deriving DecidableEq, Repr

/-- A text of a fixed shape: `x` stands for a lower case hex digit, `0` for a
decimal digit, any other character for itself. -/
def fits : List Char → List Char → Bool
  | [], [] => true
  | shape :: shapes, c :: text =>
    (if shape = 'x' then c.isDigit || ('a' ≤ c && c ≤ 'f') else if shape = '0' then c.isDigit else c = shape) &&
      fits shapes text
  | _, _ => false

structure Uuid where
  text : String
  canonical : fits "xxxxxxxx-xxxx-xxxx-xxxx-xxxxxxxxxxxx".toList text.toList = true
deriving DecidableEq, Repr

/-- The shapes in which `chrono` writes a UTC time: whole seconds, or a fraction
of three, six or nine digits. -/
def timestampShapes : List String :=
  ["0000-00-00T00:00:00Z", "0000-00-00T00:00:00.000Z", "0000-00-00T00:00:00.000000Z",
    "0000-00-00T00:00:00.000000000Z"]

/-- `chrono::DateTime<Utc>` by its RFC 3339 text. -/
structure Timestamp where
  text : String
  canonical : (timestampShapes.any fun shape => fits shape.toList text.toList) = true
deriving DecidableEq, Repr

/-- What `RecordedExchange::new` and its caller read from the environment: a
fresh id, the wall clock and the elapsed time. -/
structure Stamp where
  id : Uuid
  timestamp : Timestamp
  duration : Duration
deriving DecidableEq, Repr

/-- `BTreeMap<String, String>`: its entries in key order, each key once. -/
structure Labels where
  entries : List (String × String)
  sorted : entries.Pairwise fun a b => a.1 < b.1
deriving DecidableEq, Repr

namespace Labels

def empty : Labels := ⟨[], List.Pairwise.nil⟩

def insertEntry (key value : String) : List (String × String) → List (String × String)
  | [] => [(key, value)]
  | entry :: rest =>
    if key < entry.1 then (key, value) :: entry :: rest
    else if key = entry.1 then (key, value) :: rest
    else entry :: insertEntry key value rest

theorem mem_insertEntry {key value : String} {entries : List (String × String)} {entry : String × String}
    (member : entry ∈ insertEntry key value entries) : entry = (key, value) ∨ entry ∈ entries := by
  induction entries with
  | nil => exact Or.inl (List.mem_singleton.mp member)
  | cons first rest ih =>
    simp only [insertEntry] at member
    split_ifs at member with before same
    · exact List.mem_cons.mp member
    · rcases List.mem_cons.mp member with new | old
      · exact Or.inl new
      · exact Or.inr (List.mem_cons_of_mem _ old)
    · rcases List.mem_cons.mp member with rfl | later
      · exact Or.inr (List.mem_cons_self ..)
      · exact (ih later).imp_right (List.mem_cons_of_mem _)

theorem sorted_insertEntry (key value : String) {entries : List (String × String)}
    (sorted : entries.Pairwise fun a b => a.1 < b.1) : (insertEntry key value entries).Pairwise fun a b => a.1 < b.1 := by
  induction entries with
  | nil => exact List.pairwise_singleton _ _
  | cons first rest ih =>
    obtain ⟨below, later⟩ := List.pairwise_cons.mp sorted
    simp only [insertEntry]
    split_ifs with before same
    · refine List.pairwise_cons.mpr ⟨?_, sorted⟩
      intro entry member
      rcases List.mem_cons.mp member with rfl | inRest
      · exact before
      · exact String.lt_trans before (below entry inRest)
    · exact List.pairwise_cons.mpr ⟨fun entry member => same ▸ below entry member, later⟩
    · refine List.pairwise_cons.mpr ⟨?_, ih later⟩
      intro entry member
      rcases mem_insertEntry member with rfl | inRest
      · by_contra above
        exact same (String.le_antisymm above before)
      · exact below entry inRest

def insert (labels : Labels) (key value : String) : Labels :=
  ⟨insertEntry key value labels.entries, sorted_insertEntry key value labels.sorted⟩

end Labels

structure RecordedExchange where
  id : Uuid
  upstream : Option String
  timestamp : Timestamp
  duration : Duration
  request : RecordedRequest
  outcome : ExchangeOutcome
  labels : Labels
deriving DecidableEq, Repr

/-- `header_pairs`. A value that is not visible ASCII is kept as a marker only. -/
def headerPairs (headers : HeaderMap) : List (String × String) :=
  headers.entries.map fun entry => (entry.1, (headerValueToStr entry.2).getD "<binary>")

def RecordedRequest.fromParts (deps : Deps) (req : ProxyRequest) : RecordedRequest where
  method := req.method
  uri := req.uri.toText
  headers := headerPairs req.headers
  body := req.body
  bodySha256 := deps.sha256Hex req.body

namespace RecordedResponse

def fromParts (resp : ProxyResponse) : RecordedResponse where
  status := .ofNat resp.status.asU16
  headers := headerPairs resp.headers
  body := resp.body

/-- `RecordedResponse::status`, falling back to 502 on an impossible code. -/
def statusCode (resp : RecordedResponse) : StatusCode :=
  (StatusCode.fromU16 resp.status.toNat).getD .badGateway

@[simp] theorem fromParts_statusCode (resp : ProxyResponse) : (fromParts resp).statusCode = resp.status := by
  have small : resp.status.asU16 < UInt16.size := Nat.lt_of_le_of_lt resp.status.upper (by decide)
  simp only [fromParts, statusCode, UInt16.toNat_ofNat_of_lt' small, StatusCode.fromU16_asU16, Option.getD_some]

@[simp] theorem fromParts_body (resp : ProxyResponse) : (fromParts resp).body = resp.body := rfl

end RecordedResponse

def ExchangeOutcome.asResponse : ExchangeOutcome → Option RecordedResponse
  | .response resp => some resp
  | .error _ => none

def RecordedExchange.new (upstream : Option String) (request : RecordedRequest)
    (outcome : ExchangeOutcome) (stamp : Stamp) : RecordedExchange where
  id := stamp.id
  upstream := upstream
  timestamp := stamp.timestamp
  duration := stamp.duration
  request := request
  outcome := outcome
  labels := .empty

/-- Equal up to id, timestamp and duration. -/
def RecordedExchange.SameContent (a b : RecordedExchange) : Prop :=
  a.upstream = b.upstream ∧ a.request = b.request ∧ a.outcome = b.outcome ∧ a.labels = b.labels

instance (a b : RecordedExchange) : Decidable (a.SameContent b) :=
  inferInstanceAs (Decidable (_ ∧ _ ∧ _ ∧ _))

end PartlyProxy
