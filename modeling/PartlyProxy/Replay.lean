import PartlyProxy.Recorded
import PartlyProxy.Middleware
import PartlyProxy.Lib.KeyedLog

namespace PartlyProxy

/-- `IndexKey`: method, path and query, hex SHA-256 of the body. -/
abbrev IndexKey := String × String × String

def pathAndQueryOfUri (u : Uri) : String := u.pathAndQuery.getD u.path

def afterScheme : List Char → Option (List Char)
  | ':' :: '/' :: '/' :: rest => some rest
  | _ :: rest => afterScheme rest
  | [] => none

/-- `path_and_query_of_str`: a parsed URI, else the tolerant fallback that drops
scheme and authority if there are any. -/
def pathAndQueryOfStr (deps : Deps) (text : String) : String :=
  match deps.parseUri text with
  | .ok u => pathAndQueryOfUri u
  | .error _ =>
    match afterScheme text.toList with
    | some rest =>
      match rest.dropWhile (· ≠ '/') with
      | [] => "/"
      | path => String.ofList path
    | none => text

def recordedKey (deps : Deps) (req : RecordedRequest) : IndexKey :=
  (req.method, pathAndQueryOfStr deps req.uri, req.bodySha256)

def liveKey (deps : Deps) (req : ProxyRequest) : IndexKey :=
  (req.method, pathAndQueryOfUri req.uri, deps.sha256Hex req.body)

/-- Only `Response` outcomes are ever indexed. -/
def responseKey (deps : Deps) (e : RecordedExchange) : Option IndexKey :=
  match e.outcome with
  | .response _ => some (recordedKey deps e.request)
  | .error _ => none

def buildHeaderMap (pairs : List (String × String)) : HeaderMap := insertPairs pairs

def replayed (resp : RecordedResponse) : ProxyResponse where
  status := resp.statusCode
  headers := buildHeaderMap resp.headers
  body := resp.body
  version := .http11

/-- `ReplaySource`. Every index entry points at a stored exchange that is filed
under its key, so a lookup never meets a missing slot or an `Error` outcome. -/
structure ReplaySource (deps : Deps) where
  exchanges : List RecordedExchange
  index : IndexKey → Option Nat
  sound : ∀ k i, index k = some i → ∃ e, exchanges[i]? = some e ∧ responseKey deps e = some k

namespace ReplaySource
variable {deps : Deps}

def buildIndex (deps : Deps) (exchanges : List RecordedExchange) : IndexKey → Option Nat :=
  KeyedLog.indexFrom (responseKey deps) 0 exchanges fun _ => none

theorem buildIndex_sound (exchanges : List RecordedExchange) (k : IndexKey) (i : Nat)
    (filed : buildIndex deps exchanges k = some i) :
    ∃ e, exchanges[i]? = some e ∧ responseKey deps e = some k := by
  simp only [buildIndex] at filed
  rw [KeyedLog.indexFrom_eq] at filed
  simp only [Option.none_or, Nat.add_zero, Option.map_id'] at filed
  obtain ⟨bound, here, _⟩ := List.findIdx?_eq_some_iff_getElem.mp filed
  exact ⟨exchanges[i], List.getElem?_eq_getElem bound, by simpa using here⟩

def new (deps : Deps) (exchanges : List RecordedExchange) : ReplaySource deps where
  exchanges := exchanges
  index := buildIndex deps exchanges
  sound := buildIndex_sound exchanges

/-- `ReplaySource::insert`: errors are skipped and the first write wins. -/
def insert (source : ReplaySource deps) (exchange : RecordedExchange) : ReplaySource deps :=
  match keyed : responseKey deps exchange with
  | none => source
  | some key =>
    match source.index key with
    | some _ => source
    | none =>
      { exchanges := source.exchanges ++ [exchange]
        index := fun k => if k = key then some source.exchanges.length else source.index k
        sound := by
          intro k i filed
          by_cases same : k = key
          · simp only [same, if_true, Option.some.injEq] at filed
            exact ⟨exchange, by simp [← filed], by rw [keyed, same]⟩
          · simp only [same, if_false] at filed
            obtain ⟨e, at_i, at_k⟩ := source.sound k i filed
            have bound := (List.getElem?_eq_some_iff.mp at_i).1
            exact ⟨e, by rw [List.getElem?_append_left bound, at_i], at_k⟩ }

def entry (source : ReplaySource deps) (k : IndexKey) : Option RecordedExchange :=
  (source.index k).bind fun i => source.exchanges[i]?

def answer (source : ReplaySource deps) (k : IndexKey) : Option ProxyResponse :=
  (source.entry k).bind fun e => e.outcome.asResponse.map replayed

/-- `ReplaySource::lookup`: the key of the redacted working copy decides. -/
def lookup (source : ReplaySource deps) (req : ProxyRequest) (chain : List ProxyMiddleware) :
    Option ProxyResponse :=
  source.answer (liveKey deps (redactRequest chain req))

theorem index_eq_none_iff (source : ReplaySource deps) (k : IndexKey) :
    source.index k = none ↔ source.entry k = none := by
  cases filed : source.index k with
  | none => simp [entry, filed]
  | some i =>
    obtain ⟨e, stored, _⟩ := source.sound k i filed
    simp [entry, filed, stored]

theorem entry_key {source : ReplaySource deps} {k : IndexKey} {e : RecordedExchange}
    (stored : source.entry k = some e) : responseKey deps e = some k := by
  obtain ⟨i, filed, at_i⟩ := Option.bind_eq_some_iff.mp stored
  obtain ⟨e', at_i', at_k⟩ := source.sound k i filed
  rw [at_i] at at_i'
  rwa [Option.some.inj at_i']

theorem entry_new (exchanges : List RecordedExchange) (k : IndexKey) :
    (new deps exchanges).entry k = KeyedLog.first (responseKey deps) exchanges k :=
  KeyedLog.indexFrom_bind_getElem? _ _ _

/-- Inserting is the same as writing at the end of the log that was loaded. -/
theorem entry_insert (source : ReplaySource deps) (exchange : RecordedExchange) (k : IndexKey) :
    (source.insert exchange).entry k =
      (source.entry k).or (KeyedLog.first (responseKey deps) [exchange] k) := by
  rw [KeyedLog.first_singleton]
  unfold insert
  split
  · rename_i unkeyed
    simp [unkeyed]
  · rename_i key keyed
    split
    · rename_i i filed
      by_cases same : key = k
      · subst same
        obtain ⟨e, stored, _⟩ := source.sound key i filed
        have found : source.entry key = some e := by simp [entry, filed, stored]
        simp [found]
      · simp [keyed, same]
    · rename_i free
      by_cases same : k = key
      · subst same
        have missing := (source.index_eq_none_iff k).mp free
        simp only [missing, Option.none_or, if_pos keyed]
        simp [entry]
      · have differ : ¬ key = k := fun equal => same equal.symm
        simp only [entry, same, if_false, keyed, Option.some.injEq, differ, Option.or_none]
        cases filed : source.index k with
        | none => rfl
        | some i =>
          obtain ⟨e, stored, _⟩ := source.sound k i filed
          have bound := (List.getElem?_eq_some_iff.mp stored).1
          simp [List.getElem?_append_left bound]

theorem entry_insert_of_some {source : ReplaySource deps} {k : IndexKey} {e : RecordedExchange}
    (stored : source.entry k = some e) (exchange : RecordedExchange) :
    (source.insert exchange).entry k = some e := by
  rw [entry_insert, stored, Option.some_or]

/-- A stored exchange always answers: the `Error` arm of `lookup` is dead. -/
theorem answer_of_entry {source : ReplaySource deps} {k : IndexKey} {e : RecordedExchange}
    (stored : source.entry k = some e) :
    ∃ resp, e.outcome = .response resp ∧ source.answer k = some (replayed resp) := by
  have keyed := entry_key stored
  unfold responseKey at keyed
  split at keyed
  · rename_i resp isResponse
    exact ⟨resp, isResponse, by simp [answer, stored, isResponse, ExchangeOutcome.asResponse]⟩
  · cases keyed

theorem entry_of_answer {source : ReplaySource deps} {k : IndexKey} {answered : ProxyResponse}
    (found : source.answer k = some answered) :
    ∃ e resp, source.entry k = some e ∧ e.outcome = .response resp ∧ answered = replayed resp := by
  obtain ⟨e, stored, _⟩ := Option.bind_eq_some_iff.mp found
  obtain ⟨resp, isResponse, answers⟩ := answer_of_entry stored
  exact ⟨e, resp, stored, isResponse, Option.some.inj (found.symm.trans answers)⟩

theorem answer_eq_none_iff (source : ReplaySource deps) (k : IndexKey) :
    source.answer k = none ↔ source.entry k = none := by
  cases stored : source.entry k with
  | none => simp [answer, stored]
  | some e =>
    obtain ⟨resp, _, answered⟩ := answer_of_entry stored
    simp [answered]

end ReplaySource

theorem pathAndQueryOfStr_toText {deps : Deps} (trip : deps.UriRoundTrip) {u : Uri} (slashed : u.Slashed) :
    pathAndQueryOfStr deps u.toText = pathAndQueryOfUri u := by
  obtain ⟨v, parsed, same⟩ := trip u slashed
  simp only [pathAndQueryOfStr, parsed, pathAndQueryOfUri, same, slashed.pathAndQuery_eq.1, Option.getD_some]

/-- The key of a recorded request is the key its live form is looked up by. -/
theorem recordedKey_fromParts {deps : Deps} (trip : deps.UriRoundTrip) {req : ProxyRequest}
    (slashed : req.uri.Slashed) : recordedKey deps (.fromParts deps req) = liveKey deps req := by
  simp only [recordedKey, RecordedRequest.fromParts, liveKey, pathAndQueryOfStr_toText trip slashed]

end PartlyProxy
