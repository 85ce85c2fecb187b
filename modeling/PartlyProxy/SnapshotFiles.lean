import PartlyProxy.Sessions
import PartlyProxy.WireJson

namespace PartlyProxy

section Verdict
variable (serde : Serde)

/-- What a line of a file gives: nothing, or an exchange. -/
def Reads (piece : Bytes) (read : Option RecordedExchange) : Prop :=
  ∃ line, Lines.decode (Lines.chomp piece) = some line ∧
    (isBlank line = true ∧ read = none ∨
      isBlank line = false ∧ ∃ e, (serde.parse line).bind (decodeExchange serde) = some e ∧ read = some e)

/-- Why line number `lineno`, counted from zero, is refused. -/
def Refuses (lineno : Nat) (piece : Bytes) (err : ProxyError) : Prop :=
  Lines.decode (Lines.chomp piece) = none ∧ err = .recording "stream did not contain valid UTF-8" ∨
    ∃ line, Lines.decode (Lines.chomp piece) = some line ∧ isBlank line = false ∧
      (serde.parse line).bind (decodeExchange serde) = none ∧
      err = .recording ("line " ++ toString (lineno + 1) ++ ": " ++ serde.errorText line)

variable {serde}

theorem loadLines_reads {piece : Bytes} {read : Option RecordedExchange} (reads : Reads serde piece read) (lineno : Nat)
    (rest : List Bytes) :
    loadLines serde lineno (piece :: rest) = (loadLines serde (lineno + 1) rest).map fun later => read.toList ++ later := by
  obtain ⟨line, decoded, ⟨blank, rfl⟩ | ⟨solid, e, parsed, rfl⟩⟩ := reads
  · simp only [loadLines, decoded, blank, if_true]
    cases loadLines serde (lineno + 1) rest <;> rfl
  · simp only [loadLines, decoded, solid, Bool.false_eq_true, if_false, parseNdjsonLine, parsed]
    rfl

theorem loadLines_refuses {lineno : Nat} {piece : Bytes} {err : ProxyError} (refuses : Refuses serde lineno piece err)
    (rest : List Bytes) : loadLines serde lineno (piece :: rest) = .error err := by
  rcases refuses with ⟨undecoded, rfl⟩ | ⟨line, decoded, solid, unparsed, rfl⟩
  · simp only [loadLines, undecoded]
  · simp only [loadLines, decoded, solid, Bool.false_eq_true, if_false, parseNdjsonLine, unparsed]

variable (serde) in
/-- A line is read or refused. -/
theorem reads_or_refuses (lineno : Nat) (piece : Bytes) :
    (∃ read, Reads serde piece read) ∨ ∃ err, Refuses serde lineno piece err := by
  cases decoded : Lines.decode (Lines.chomp piece) with
  | none => exact Or.inr ⟨_, Or.inl ⟨decoded, rfl⟩⟩
  | some line =>
    cases blank : isBlank line with
    | true => exact Or.inl ⟨none, line, decoded, Or.inl ⟨blank, rfl⟩⟩
    | false =>
      cases parsed : (serde.parse line).bind (decodeExchange serde) with
      | none => exact Or.inr ⟨_, Or.inr ⟨line, decoded, blank, parsed, rfl⟩⟩
      | some e => exact Or.inl ⟨some e, line, decoded, Or.inr ⟨blank, e, parsed, rfl⟩⟩

theorem loadLines_of_reads {pieces : List Bytes} {reads : List (Option RecordedExchange)}
    (all : List.Forall₂ (Reads serde) pieces reads) (lineno : Nat) :
    loadLines serde lineno pieces = .ok (reads.flatMap Option.toList) := by
  induction all generalizing lineno with
  | nil => rfl
  | cons here _ ih =>
    rw [loadLines_reads here, ih]
    rfl

theorem loadLines_of_refused {front : List Bytes} (good : ∀ before ∈ front, ∃ read, Reads serde before read) {lineno : Nat}
    {piece : Bytes} {err : ProxyError} (refuses : Refuses serde (lineno + front.length) piece err) (back : List Bytes) :
    loadLines serde lineno (front ++ piece :: back) = .error err := by
  induction front generalizing lineno with
  | nil => exact loadLines_refuses refuses back
  | cons before front ih =>
    obtain ⟨⟨read, reads⟩, good⟩ := List.forall_mem_cons.mp good
    have later : lineno + (before :: front).length = lineno + 1 + front.length := by
      simp only [List.length_cons]
      omega
    rw [later] at refuses
    rw [List.cons_append, loadLines_reads reads, ih good refuses]
    rfl

/-- The lines are read up to the first that is refused. -/
theorem reads_until (lineno : Nat) (pieces : List Bytes) :
    (∃ reads, List.Forall₂ (Reads serde) pieces reads) ∨
      ∃ front piece back err, pieces = front ++ piece :: back ∧ (∀ before ∈ front, ∃ read, Reads serde before read) ∧
        Refuses serde (lineno + front.length) piece err := by
  induction pieces generalizing lineno with
  | nil => exact Or.inl ⟨[], .nil⟩
  | cons piece rest ih =>
    rcases reads_or_refuses serde lineno piece with ⟨read, reads⟩ | ⟨err, refuses⟩
    · rcases ih (lineno + 1) with ⟨later, all⟩ | ⟨front, bad, back, err, rfl, good, refuses⟩
      · exact Or.inl ⟨read :: later, .cons reads all⟩
      · have same : lineno + (piece :: front).length = lineno + 1 + front.length := by
          simp only [List.length_cons]
          omega
        exact Or.inr ⟨piece :: front, bad, back, err, rfl, List.forall_mem_cons.mpr ⟨⟨read, reads⟩, good⟩, same ▸ refuses⟩
    · exact Or.inr ⟨[], piece, rest, err, rfl, by simp, refuses⟩

theorem reads_of_ok {lineno : Nat} {pieces : List Bytes} {exchanges : List RecordedExchange}
    (loaded : loadLines serde lineno pieces = .ok exchanges) :
    ∃ reads, List.Forall₂ (Reads serde) pieces reads ∧ exchanges = reads.flatMap Option.toList := by
  rcases reads_until lineno pieces with ⟨reads, all⟩ | ⟨front, piece, back, err, rfl, good, refuses⟩
  · rw [loadLines_of_reads all] at loaded
    cases loaded
    exact ⟨reads, all, rfl⟩
  · rw [loadLines_of_refused good refuses] at loaded
    cases loaded

/-- A file loads exactly if each of its lines is blank or an exchange, and gives the
exchanges in order; otherwise the error is that of the first line which is neither, and
names it by its number, blank lines counted. -/
theorem load_verdict (serde : Serde) (file : Bytes) :
    (∀ exchanges, (jsonlStorage serde).load file = .ok exchanges ↔
      ∃ reads, List.Forall₂ (Reads serde) (Lines.pieces file) reads ∧ exchanges = reads.flatMap Option.toList) ∧
    ∀ err, (jsonlStorage serde).load file = .error err ↔
      ∃ front piece back, Lines.pieces file = front ++ piece :: back ∧
        (∀ before ∈ front, ∃ read, Reads serde before read) ∧ Refuses serde front.length piece err := by
  have loads : ∀ {reads}, List.Forall₂ (Reads serde) (Lines.pieces file) reads →
      (jsonlStorage serde).load file = .ok (reads.flatMap Option.toList) := fun all => loadLines_of_reads all 0
  have fails : ∀ {front piece back err}, Lines.pieces file = front ++ piece :: back →
      (∀ before ∈ front, ∃ read, Reads serde before read) → Refuses serde front.length piece err →
      (jsonlStorage serde).load file = .error err := by
    intro front piece back err split good refuses
    show loadLines serde 0 (Lines.pieces file) = .error err
    rw [split]
    exact loadLines_of_refused good (by rwa [Nat.zero_add]) back
  constructor
  · intro exchanges
    constructor
    · exact reads_of_ok
    · rintro ⟨reads, all, rfl⟩
      exact loads all
  · intro err
    constructor
    · intro failed
      rcases reads_until 0 (Lines.pieces file) with ⟨reads, all⟩ | ⟨front, piece, back, err', split, good, refuses⟩
      · rw [loads all] at failed
        cases failed
      · rw [Nat.zero_add] at refuses
        rw [fails split good refuses] at failed
        cases failed
        exact ⟨front, piece, back, split, good, refuses⟩
    · rintro ⟨front, piece, back, split, good, refuses⟩
      exact fails split good refuses

end Verdict

section Copies
variable {serde : Serde}

theorem millis_small {ms : Nat} (small : ms < UInt64.size) : asMillis (fromMillis ms) = ms := by
  simp only [asMillis, fromMillis] at small ⊢
  omega

/-- What has been read once has whole milliseconds already. -/
theorem decodeExchange_rounded {json : Json} {e : RecordedExchange} (decodes : decodeExchange serde json = some e) :
    e.rounded = e := by
  simp only [decodeExchange, Option.bind_eq_bind, Option.bind_eq_some_iff] at decodes
  obtain ⟨members, _, id, _, upstream, _, timestamp, _, ms, duration, request, _, outcome, _, labels, _, same⟩ := decodes
  cases same
  have small : ms < UInt64.size := by
    unfold required decodeNat at duration
    split at duration
    · split at duration
      · split at duration
        · cases duration
          assumption
        · cases duration
      · cases duration
    · cases duration
  simp only [RecordedExchange.rounded, millis_small small]

theorem exists_left_of_forall₂ {α β : Type} {R : α → β → Prop} {items : List α} {results : List β}
    (all : List.Forall₂ R items results) {b : β} (member : b ∈ results) : ∃ a, R a b := by
  induction all with
  | nil => cases member
  | cons here _ ih =>
    rcases List.mem_cons.mp member with rfl | later
    · exact ⟨_, here⟩
    · exact ih later

theorem reads_rounded {piece : Bytes} {e : RecordedExchange} (reads : Reads serde piece (some e)) : e.rounded = e := by
  obtain ⟨line, _, ⟨_, none_⟩ | ⟨_, e', parsed, same⟩⟩ := reads
  · cases none_
  · cases same
    obtain ⟨json, _, decodes⟩ := Option.bind_eq_some_iff.mp parsed
    exact decodeExchange_rounded decodes

/-- What an NDJSON file tells has whole milliseconds. -/
theorem jsonl_loaded_rounded {file : Bytes} {exchanges : List RecordedExchange}
    (loaded : (jsonlStorage serde).load file = .ok exchanges) : ∀ e ∈ exchanges, e.rounded = e := by
  obtain ⟨reads, all, rfl⟩ := reads_of_ok loaded
  intro e member
  obtain ⟨read, inReads, inRead⟩ := List.mem_flatMap.mp member
  rw [Option.mem_toList] at inRead
  cases inRead
  obtain ⟨piece, here⟩ := exists_left_of_forall₂ all inReads
  exact reads_rounded here

/-- So has what a database tells. -/
theorem sqlite_loaded_rounded {sliceError : Bytes → String} {fault : Nat → Option String} {db : SqliteDatabase}
    {exchanges : List RecordedExchange} (loaded : (sqliteStorage serde sliceError fault).load db = .ok exchanges) :
    ∀ e ∈ exchanges, e.rounded = e := by
  have all := mapM_eq_ok_iff.mp loaded
  intro e member
  obtain ⟨row, here⟩ := exists_left_of_forall₂ all member
  unfold fromSlice at here
  split at here
  · rename_i decodes
    cases here
    obtain ⟨json, _, decoded⟩ := Option.bind_eq_some_iff.mp decodes
    exact decodeExchange_rounded decoded
  · cases here

/-- Exchanges are appended one after the other, until one is refused. -/
def appendAll {σ : Type} (storage : SnapshotStorage σ) : σ → List RecordedExchange → Except ProxyError σ
  | s, [] => .ok s
  | s, exchange :: rest =>
    match storage.append s exchange with
    | (.ok (), next) => appendAll storage next rest
    | (.error err, _) => .error err

/-- A medium that tells `old` takes all of `added`, and then tells both as they were. -/
def TakesOn {σ : Type} (storage : SnapshotStorage σ) (s : σ) (old added : List RecordedExchange) : Prop :=
  ∃ after, appendAll storage s added = .ok after ∧ storage.load after = .ok (old ++ added)

/-- The durations are whole milliseconds of 64 bits. -/
def Whole (exchanges : List RecordedExchange) : Prop := ∀ e ∈ exchanges, e.rounded = e

theorem map_rounded_eq_iff {exchanges : List RecordedExchange} :
    exchanges.map RecordedExchange.rounded = exchanges ↔ Whole exchanges := by
  have pointwise := List.map_inj_left (l := exchanges) (f := RecordedExchange.rounded) (g := id)
  rw [List.map_id] at pointwise
  exact pointwise

/-- Whether a medium takes exchanges on as they are, where it gives them back rounded. -/
theorem takesOn_iff_of_rounded {σ : Type} {storage : SnapshotStorage σ} {s after : σ} {old added : List RecordedExchange}
    (appended : appendAll storage s added = .ok after)
    (loads : storage.load after = .ok (old ++ added.map RecordedExchange.rounded)) :
    TakesOn storage s old added ↔ Whole added := by
  rw [← map_rounded_eq_iff]
  constructor
  · rintro ⟨after', appended', loads'⟩
    rw [appended] at appended'
    cases appended'
    rw [loads] at loads'
    exact List.append_cancel_left (Except.ok.inj loads')
  · intro whole
    refine ⟨after, appended, ?_⟩
    rw [loads, whole]

theorem appendAll_jsonl (file : Bytes) (exchanges : List RecordedExchange) :
    appendAll (jsonlStorage serde) file exchanges = .ok (file ++ exchanges.flatMap (jsonlLine serde)) := by
  induction exchanges generalizing file with
  | nil => simp [appendAll]
  | cons e rest ih =>
    show appendAll (jsonlStorage serde) (file ++ jsonlLine serde e) rest = _
    rw [ih, List.flatMap_cons, List.append_assoc]

theorem loadLines_append {lineno : Nat} {front : List Bytes} {old : List RecordedExchange}
    (loaded : loadLines serde lineno front = .ok old) (back : List Bytes) :
    loadLines serde lineno (front ++ back) = (loadLines serde (lineno + front.length) back).map fun later => old ++ later := by
  obtain ⟨reads, all, rfl⟩ := reads_of_ok loaded
  clear loaded
  induction all generalizing lineno with
  | nil =>
    simp only [List.nil_append, List.length_nil, Nat.add_zero, List.flatMap_nil]
    cases loadLines serde lineno back <;> rfl
  | @cons piece read front reads here _ ih =>
    have later : lineno + (piece :: front).length = lineno + 1 + front.length := by
      simp only [List.length_cons]
      omega
    rw [List.cons_append, loadLines_reads here, ih, later]
    cases loadLines serde (lineno + 1 + front.length) back with
    | error err => rfl
    | ok exchanges => simp [Except.map]

theorem takesOn_jsonl_iff (law : serde.Lawful) {file : Bytes} {old added : List RecordedExchange}
    (ends : Lines.AtEnd file) (loaded : (jsonlStorage serde).load file = .ok old) :
    TakesOn (jsonlStorage serde) file old added ↔ Whole added := by
  refine takesOn_iff_of_rounded (appendAll_jsonl file added) ?_
  show loadLines serde 0 (Lines.pieces (file ++ added.flatMap (jsonlLine serde))) = _
  rw [Lines.pieces_append ends, loadLines_append loaded, loadLines_written law]
  rfl

variable (serde) in
theorem appendAll_sqlite (sliceError : Bytes → String) {db : SqliteDatabase} {exchanges : List RecordedExchange}
    (room : db.exchanges.last + exchanges.length ≤ maxI64) :
    ∃ after, appendAll (sqliteStorage serde sliceError fun _ => none) db exchanges = .ok after ∧
      after.exchanges.select.map Prod.snd = db.exchanges.select.map Prod.snd ++ exchanges.map (exchangeRow serde) := by
  induction exchanges generalizing db with
  | nil => exact ⟨db, rfl, by simp⟩
  | cons e rest ih =>
    rw [List.length_cons] at room
    cases inserted : db.exchanges.insert maxI64 (exchangeRow serde e) with
    | none =>
      have full := RowTable.insert_eq_none.mp inserted
      omega
    | some exchanges =>
      obtain ⟨last, _, selected⟩ := RowTable.insert_eq_some inserted
      have roomLeft : exchanges.last + rest.length ≤ maxI64 := by omega
      obtain ⟨after, appended, rows⟩ := ih (show (SqliteDatabase.mk exchanges (db.inserts + 1)).exchanges.last + rest.length ≤ maxI64
        from roomLeft)
      refine ⟨after, ?_, ?_⟩
      · simpa only [appendAll, sqliteStorage, inserted] using appended
      · rw [rows, selected]
        simp

theorem load_payloads (serde : Serde) (sliceError : Bytes → String) (fault : Nat → Option String) (db : SqliteDatabase) :
    (sqliteStorage serde sliceError fault).load db =
      (db.exchanges.select.map Prod.snd).mapM fun row => fromSlice serde sliceError row.payload := by
  rw [List.mapM_map]
  rfl

theorem takesOn_sqlite_iff (law : serde.Lawful) {sliceError : Bytes → String} {db : SqliteDatabase}
    {old added : List RecordedExchange} (room : db.exchanges.last + added.length ≤ maxI64)
    (loaded : (sqliteStorage serde sliceError fun _ => none).load db = .ok old) :
    TakesOn (sqliteStorage serde sliceError fun _ => none) db old added ↔ Whole added := by
  obtain ⟨after, appended, rows⟩ := appendAll_sqlite serde sliceError room
  refine takesOn_iff_of_rounded appended ?_
  have decoded : (fun row => fromSlice serde sliceError row.payload) ∘ exchangeRow serde = fun e => pure e.rounded :=
    funext fun e => fromSlice_payload law sliceError e
  rw [load_payloads] at loaded ⊢
  rw [rows, List.mapM_append, loaded, List.mapM_map, decoded, List.mapM_pure]
  rfl

/-- A file that ends with a line, and a database with room, take exchanges on without a
loss, whatever they held before, exactly if the durations are whole milliseconds; and so
are those of all that was ever loaded from either. -/
theorem snapshots_merge {serde : Serde} (law : serde.Lawful) (sliceError : Bytes → String) (added : List RecordedExchange) :
    (∀ file old, Lines.AtEnd file → (jsonlStorage serde).load file = .ok old →
      (TakesOn (jsonlStorage serde) file old added ↔ Whole added)) ∧
    (∀ db old, db.exchanges.last + added.length ≤ maxI64 →
      (sqliteStorage serde sliceError fun _ => none).load db = .ok old →
      (TakesOn (sqliteStorage serde sliceError fun _ => none) db old added ↔ Whole added)) ∧
    ((∃ file, (jsonlStorage serde).load file = .ok added) ∨
      (∃ fault db, (sqliteStorage serde sliceError fault).load db = .ok added) → Whole added) := by
  refine ⟨fun file old ends loaded => takesOn_jsonl_iff law ends loaded,
    fun db old room loaded => takesOn_sqlite_iff law room loaded, ?_⟩
  rintro (⟨file, loaded⟩ | ⟨fault, db, loaded⟩)
  · exact jsonl_loaded_rounded loaded
  · exact sqlite_loaded_rounded loaded

/-- An exchange of 1.5 ms is rounded by either. -/
theorem snapshots_merge_half :
    ¬ TakesOn (jsonlStorage referenceSerde) [] [] [JsonlFile.sampleExchange "lost"] ∧
      ¬ TakesOn (sqliteStorage referenceSerde (fun _ => "") fun _ => none) ⟨.empty, 0⟩ []
        [JsonlFile.sampleExchange "lost"] := by
  have merge := snapshots_merge referenceSerde_lawful (fun _ => "") [JsonlFile.sampleExchange "lost"]
  have fraction : ¬ Whole [JsonlFile.sampleExchange "lost"] := by
    intro whole
    have same := congrArg RecordedExchange.duration (whole _ (List.mem_singleton_self _))
    simp [RecordedExchange.rounded, JsonlFile.sampleExchange, fromMillis, asMillis, UInt64.size] at same
  exact ⟨(merge.1 [] [] (Or.inl rfl) rfl).not.mpr fraction,
    (merge.2.1 ⟨.empty, 0⟩ [] (by decide) rfl).not.mpr fraction⟩

end Copies

end PartlyProxy
