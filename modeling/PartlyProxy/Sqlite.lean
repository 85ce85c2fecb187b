import PartlyProxy.JsonlFile
import PartlyProxy.Lib.Execution
import PartlyProxy.Lib.RowTable

namespace PartlyProxy

/-- A row of the table `exchanges`, but for its `seq`. -/
structure ExchangeRow where
  id : String
  upstream : Option String
  timestamp : String
  durationMs : Nat
  method : String
  uri : String
  bodySha256 : String
  payload : Bytes

def maxI64 : Nat := 9223372036854775807

/-- `to_rfc3339`, which gives UTC as an offset. -/
def Timestamp.toRfc3339 (time : Timestamp) : String := String.ofList (time.text.toList.dropLast ++ "+00:00".toList)

section Backend
variable (serde : Serde)

/-- The canonical encoding, which is also the line of the NDJSON file. -/
def payloadOf (e : RecordedExchange) : Bytes := Lines.encode (serde.render (e.toJson serde))

/-- What `append` binds to the columns. -/
def exchangeRow (e : RecordedExchange) : ExchangeRow where
  id := e.id.text
  upstream := e.upstream
  timestamp := e.timestamp.toRfc3339
  durationMs := min (e.duration / 1000000) maxI64
  method := e.request.method
  uri := e.request.uri
  bodySha256 := e.request.bodySha256
  payload := payloadOf serde e

/-- `serde_json::from_slice`, with the text of its errors. -/
def fromSlice (sliceError : Bytes → String) (payload : Bytes) : Except ProxyError RecordedExchange :=
  match ((Lines.decode payload).bind serde.parse).bind (decodeExchange serde) with
  | some e => .ok e
  | none => .error (.recording (sliceError payload))

/-- A database with the number of inserts that were tried on it. -/
structure SqliteDatabase where
  exchanges : RowTable ExchangeRow
  inserts : Nat

/-- `run_migration`: the table is made if it is not there. -/
def runMigration : Option (RowTable ExchangeRow) → SqliteDatabase
  | some exchanges => ⟨exchanges, 0⟩
  | none => ⟨.empty, 0⟩

/-- Each insert commits on its own, or fails for a reason of the database and changes
nothing. A table whose last id is the greatest of all is full. -/
def sqliteStorage (sliceError : Bytes → String) (fault : Nat → Option String) : SnapshotStorage SqliteDatabase where
  append db exchange :=
    match fault db.inserts with
    | some text => (.error (.recording text), { db with inserts := db.inserts + 1 })
    | none =>
      match db.exchanges.insert maxI64 (exchangeRow serde exchange) with
      | some exchanges => (.ok (), ⟨exchanges, db.inserts + 1⟩)
      | none =>
        (.error (.recording "error returned from database: (code: 13) database or disk is full"),
          { db with inserts := db.inserts + 1 })
  load db := db.exchanges.select.mapM fun row => fromSlice serde sliceError row.2.payload

end Backend

section Payload
variable {serde : Serde} (law : serde.Lawful) (sliceError : Bytes → String)

include law in
theorem fromSlice_payload (e : RecordedExchange) : fromSlice serde sliceError (payloadOf serde e) = .ok e.rounded := by
  rw [fromSlice, payloadOf, Lines.decode_encode, Option.bind_some, law.parse_render _ (e.toJson_plain serde),
    Option.bind_some, decodeExchange_toJson law]

theorem asMillis_fromMillis (d : Duration) : asMillis (fromMillis (asMillis d)) = asMillis d := by
  have small := asMillis_lt d
  simp only [asMillis, fromMillis] at small ⊢
  omega

theorem toJson_rounded (serde : Serde) (e : RecordedExchange) : e.rounded.toJson serde = e.toJson serde := by
  rw [RecordedExchange.toJson, RecordedExchange.toJson, RecordedExchange.rounded, asMillis_fromMillis]

/-- The columns are those of what the payload decodes to. -/
theorem exchangeRow_rounded (serde : Serde) (e : RecordedExchange) : exchangeRow serde e.rounded = exchangeRow serde e := by
  have millis : min (fromMillis (asMillis e.duration) / 1000000) maxI64 = min (e.duration / 1000000) maxI64 := by
    have room : maxI64 ≤ UInt64.size - 1 := by decide
    rw [fromMillis, Nat.mul_div_cancel _ (by decide), asMillis, Nat.min_assoc, Nat.min_eq_right room]
  rw [exchangeRow, exchangeRow, payloadOf, payloadOf, toJson_rounded]
  simp only [RecordedExchange.rounded, millis]

end Payload

/-- The table holds one row for each exchange, in order. -/
def SqliteDatabase.Rows (serde : Serde) (db : SqliteDatabase) (written : List RecordedExchange) : Prop :=
  db.exchanges.select.map Prod.snd = written.map (exchangeRow serde)

section Run
variable {serde : Serde} (law : serde.Lawful) {sliceError : Bytes → String} {fault : Nat → Option String}
  {db : SqliteDatabase} {written : List RecordedExchange}

include law in
theorem load_rows (rows : db.Rows serde written) :
    (sqliteStorage serde sliceError fault).load db = .ok (written.map RecordedExchange.rounded) := by
  have payloads : (db.exchanges.select.mapM fun row => fromSlice serde sliceError row.2.payload) =
      (db.exchanges.select.map Prod.snd).mapM fun row => fromSlice serde sliceError row.payload := by
    rw [List.mapM_map]
    rfl
  have decoded : (fun row => fromSlice serde sliceError row.payload) ∘ exchangeRow serde =
      fun e => pure e.rounded := funext fun e => fromSlice_payload law sliceError e
  change (db.exchanges.select.mapM fun row => fromSlice serde sliceError row.2.payload) = _
  rw [payloads, rows, List.mapM_map, decoded, List.mapM_pure]
  rfl

/-- An append that is refused leaves the table as it is; one that is not adds a row. -/
theorem append_cases (rows : db.Rows serde written) (e : RecordedExchange) :
    let next := (sqliteStorage serde sliceError fault).append db e
    next.1 = .ok () ∧ next.2.Rows serde (written ++ [e]) ∧ next.2.exchanges.last = db.exchanges.last + 1 ∧
        db.exchanges.select <+: next.2.exchanges.select ∨
      (∃ err, next.1 = .error err) ∧ next.2.exchanges = db.exchanges ∧
        ((fault db.inserts).isSome ∨ maxI64 ≤ db.exchanges.last) := by
  intro next
  simp only [next, sqliteStorage]
  cases faulty : fault db.inserts with
  | some text => exact Or.inr ⟨⟨_, rfl⟩, rfl, Or.inl rfl⟩
  | none =>
    cases inserted : db.exchanges.insert maxI64 (exchangeRow serde e) with
    | none => exact Or.inr ⟨⟨_, rfl⟩, rfl, Or.inr (RowTable.insert_eq_none.mp inserted)⟩
    | some exchanges =>
      obtain ⟨last, _, selected⟩ := RowTable.insert_eq_some inserted
      refine Or.inl ⟨rfl, ?_, last, ?_⟩
      · change exchanges.select.map Prod.snd = _
        rw [selected, List.map_append, rows, List.map_append]
        rfl
      · rw [selected]
        exact List.prefix_append _ _

include law in
/-- The table carries the exchanges that it accepted, rounded. -/
def sqliteStorage_lawful : (sqliteStorage serde sliceError fault).Lawful where
  Holds db log := ∃ written : List RecordedExchange,
    db.Rows serde written ∧ log = written.map RecordedExchange.rounded
  load_eq := by
    rintro db log ⟨written, rows, rfl⟩
    exact load_rows law rows
  append_ok := by
    rintro db log e ⟨written, rows, rfl⟩ accepted
    rcases append_cases rows e with ⟨_, added, _⟩ | ⟨⟨err, failed⟩, _⟩
    · exact ⟨e.rounded, ⟨rfl, rfl⟩, written ++ [e], added, by simp⟩
    · rw [accepted] at failed
      cases failed
  append_error := by
    rintro db log e err ⟨written, rows, rfl⟩ failed
    rcases append_cases rows e with ⟨accepted, _⟩ | ⟨_, same, _⟩
    · rw [accepted] at failed
      cases failed
    · refine ⟨written, ?_, rfl⟩
      rw [SqliteDatabase.Rows, same]
      exact rows

end Run

inductive DatabaseMove where
  | append (exchange : RecordedExchange)
  | reopen

/-- A database file over its whole life, with the exchanges whose append returned `Ok`. -/
structure DatabaseFile where
  db : SqliteDatabase
  accepted : List RecordedExchange

namespace DatabaseFile
variable (serde : Serde) (sliceError : Bytes → String) (fault : Nat → Option String)

def step (f : DatabaseFile) : DatabaseMove → DatabaseFile
  | .append exchange =>
    let written := (sqliteStorage serde sliceError fault).append f.db exchange
    match written.1 with
    | .ok () => ⟨written.2, f.accepted ++ [exchange]⟩
    | .error _ => ⟨written.2, f.accepted⟩
  | .reopen => { f with db := runMigration (some f.db.exchanges) }

def run (moves : List DatabaseMove) : DatabaseFile :=
  Execution.exec (step serde sliceError fault) ⟨runMigration none, []⟩ moves

variable {serde sliceError fault}

theorem step_cases {f : DatabaseFile} (rows : f.db.Rows serde f.accepted) (move : DatabaseMove) :
    (f.step serde sliceError fault move).db.Rows serde (f.step serde sliceError fault move).accepted ∧
      f.db.exchanges.select <+: (f.step serde sliceError fault move).db.exchanges.select := by
  cases move with
  | reopen => exact ⟨rows, List.prefix_rfl⟩
  | append e =>
    simp only [step]
    rcases append_cases rows e with ⟨accepted, added, _, grown⟩ | ⟨⟨err, failed⟩, same, _⟩
    · rw [accepted]
      exact ⟨added, grown⟩
    · rw [failed]
      simp only [SqliteDatabase.Rows, same]
      exact ⟨rows, List.prefix_rfl⟩

theorem rows_run (moves : List DatabaseMove) :
    (run serde sliceError fault moves).db.Rows serde (run serde sliceError fault moves).accepted := by
  have fresh : (runMigration none).Rows serde [] := rfl
  exact Execution.exec_invariant (step serde sliceError fault) (I := fun f => f.db.Rows serde f.accepted)
    (fun _ move rows => (step_cases rows move).1) fresh moves

theorem select_grows (early late : List DatabaseMove) :
    (run serde sliceError fault early).db.exchanges.select <+:
      (run serde sliceError fault (early ++ late)).db.exchanges.select := by
  rw [run, run, Execution.exec_append]
  exact (Execution.exec_invariant (step serde sliceError fault)
    (I := fun f => f.db.Rows serde f.accepted ∧
      (run serde sliceError fault early).db.exchanges.select <+: f.db.exchanges.select)
    (fun f move ⟨rows, grown⟩ => ⟨(step_cases rows move).1, grown.trans (step_cases rows move).2⟩)
    ⟨rows_run early, List.prefix_rfl⟩ late).2

/-- Whatever inserts fail, and however often the file is reopened: it loads as the
exchanges that were accepted, rounded, in order; rows are only ever added, each behind all
others; the columns of a row are those of the exchange in its payload, so the first row
with given indexed columns holds the first exchange with that request. -/
theorem database_tells_exchanges (law : serde.Lawful) (moves : List DatabaseMove) :
    let f := run serde sliceError fault moves
    (sqliteStorage serde sliceError fault).load f.db = .ok (f.accepted.map RecordedExchange.rounded) ∧
      (f.db.exchanges.select.map Prod.fst).Pairwise (· < ·) ∧
      (∀ early late, moves = early ++ late →
        (run serde sliceError fault early).db.exchanges.select <+: f.db.exchanges.select) ∧
      (∀ seq row, (seq, row) ∈ f.db.exchanges.select →
        ∃ e ∈ f.accepted.map RecordedExchange.rounded,
          fromSlice serde sliceError row.payload = .ok e ∧ row = exchangeRow serde e) ∧
      ∀ method uri bodySha256,
        ((f.db.exchanges.select.find? fun row =>
          row.2.method = method ∧ row.2.uri = uri ∧ row.2.bodySha256 = bodySha256).map fun row =>
            fromSlice serde sliceError row.2.payload) =
        ((f.accepted.map RecordedExchange.rounded).find? fun e =>
          e.request.method = method ∧ e.request.uri = uri ∧ e.request.bodySha256 = bodySha256).map .ok := by
  intro f
  have rows : f.db.exchanges.select.map Prod.snd = f.accepted.map (exchangeRow serde) := rows_run moves
  refine ⟨load_rows law rows, RowTable.select_increasing _, ?_, fun seq row member => ?_, fun method uri bodySha256 => ?_⟩
  · rintro early late rfl
    exact select_grows early late
  · have inRows : row ∈ f.accepted.map (exchangeRow serde) := by
      rw [← rows]
      exact List.mem_map_of_mem member
    obtain ⟨e, isAccepted, rfl⟩ := List.mem_map.mp inRows
    exact ⟨e.rounded, List.mem_map_of_mem isAccepted, fromSlice_payload law sliceError e,
      (exchangeRow_rounded serde e).symm⟩
  · have onRows : ((f.db.exchanges.select.find? fun row =>
          row.2.method = method ∧ row.2.uri = uri ∧ row.2.bodySha256 = bodySha256).map fun row =>
            fromSlice serde sliceError row.2.payload) =
        ((f.db.exchanges.select.map Prod.snd).find? fun row =>
          row.method = method ∧ row.uri = uri ∧ row.bodySha256 = bodySha256).map fun row =>
            fromSlice serde sliceError row.payload := by
      rw [List.find?_map, Option.map_map]
      rfl
    rw [onRows, rows, List.find?_map, List.find?_map, Option.map_map, Option.map_map]
    refine Option.map_congr fun e _ => ?_
    exact fromSlice_payload law sliceError e

/-- The second insert meets a locked database. -/
theorem database_tells_exchanges_locked :
    let fault := fun n => if n = 1 then some "database is locked" else none
    let f := run referenceSerde (fun _ => "") fault
      [.append (JsonlFile.sampleExchange "a"), .append (JsonlFile.sampleExchange "b"), .reopen, .append (JsonlFile.sampleExchange "c")]
    (sqliteStorage referenceSerde (fun _ => "") fault).load f.db =
      .ok [(JsonlFile.sampleExchange "a").rounded, (JsonlFile.sampleExchange "c").rounded] :=
  (database_tells_exchanges referenceSerde_lawful _).1

end DatabaseFile

end PartlyProxy
