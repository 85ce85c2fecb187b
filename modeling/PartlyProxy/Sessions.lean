import PartlyProxy.Backends
import PartlyProxy.Drain

namespace PartlyProxy
variable {deps : Deps} {σ σ' : Type}

theorem mapM_eq_ok_iff {α β ε : Type} {f : α → Except ε β} {items : List α} {results : List β} :
    items.mapM f = .ok results ↔ List.Forall₂ (fun a b => f a = .ok b) items results := by
  induction items generalizing results with
  | nil => cases results <;> simp [pure, Except.pure]
  | cons a rest ih =>
    rw [List.mapM_cons]
    cases first : f a with
    | error err => cases results <;> simp [bind, Except.bind, first]
    | ok b =>
      cases later : rest.mapM f with
      | error err => cases results <;> simp [bind, Except.bind, ← ih, later, first]
      | ok bs => cases results <;> simp [bind, Except.bind, pure, Except.pure, ← ih, later, first]

namespace ProxyClusterBuilder

theorem duplicateName_eq_none {seen : List String} {specs : List UpstreamSpec} (fresh : duplicateName seen specs = none) :
    (∀ spec ∈ specs, spec.name ∉ seen) ∧ (specs.map UpstreamSpec.name).Nodup := by
  induction specs generalizing seen with
  | nil => exact ⟨by simp, List.nodup_nil⟩
  | cons spec rest ih =>
    rw [duplicateName] at fresh
    split at fresh
    · cases fresh
    · rename_i unseen
      obtain ⟨others, distinct⟩ := ih fresh
      refine ⟨?_, ?_⟩
      · intro other member
        rcases List.mem_cons.mp member with rfl | later
        · exact unseen
        · exact fun inSeen => others other later (List.mem_cons_of_mem _ inSeen)
      · rw [List.map_cons, List.nodup_cons]
        refine ⟨fun member => ?_, distinct⟩
        obtain ⟨other, inRest, same⟩ := List.mem_map.mp member
        exact others other inRest (same ▸ List.mem_cons_self ..)

theorem runtime_eq_ok {b : ProxyClusterBuilder} {spec : UpstreamSpec} {rt : UpstreamRuntime}
    (built : b.runtime deps spec = .ok rt) : rt.name = spec.name ∧ rt.recorder = ⟨b.recording, b.routes⟩ := by
  unfold runtime at built
  split at built
  · cases built
  · cases built
    exact ⟨rfl, rfl⟩

theorem runtimes_built {b : ProxyClusterBuilder} {specs : List UpstreamSpec} {runtimes : List UpstreamRuntime}
    (built : List.Forall₂ (fun spec rt => b.runtime deps spec = .ok rt) specs runtimes) :
    runtimes.map UpstreamRuntime.name = specs.map UpstreamSpec.name ∧
      ∀ rt ∈ runtimes, rt.recorder = ⟨b.recording, b.routes⟩ := by
  induction built with
  | nil => exact ⟨rfl, by simp⟩
  | cons here _ ih =>
    obtain ⟨name, recorder⟩ := runtime_eq_ok here
    refine ⟨by rw [List.map_cons, List.map_cons, name, ih.1], fun rt member => ?_⟩
    rcases List.mem_cons.mp member with rfl | later
    · exact recorder
    · exact ih.2 rt later

/-- The registry of `run`: one runtime for each name, all with the one recorder. -/
def registry (deps : Deps) (b : ProxyClusterBuilder) : Except ProxyError UpstreamRegistry :=
  match fresh : duplicateName [] b.upstreams with
  | some name => .error (.command ("duplicate upstream name in cluster: " ++ name))
  | none =>
    match built : b.upstreams.mapM (b.runtime deps) with
    | .error err => .error err
    | .ok runtimes => .ok
      { recorder := ⟨b.recording, b.routes⟩
        upstreams := runtimes
        distinct := by
          have nodup := (duplicateName_eq_none fresh).2
          rw [← (runtimes_built (mapM_eq_ok_iff.mp built)).1] at nodup
          exact List.pairwise_map.mp nodup
        shared := (runtimes_built (mapM_eq_ok_iff.mp built)).2 }

/-- The upstream as `UpstreamRuntime::new` makes it, not paused. -/
def openedUpstream (opened : List (UpstreamRuntime × Shared deps σ)) (name : String) : UpstreamState deps :=
  match opened.find? fun up => up.1.name = name with
  | some up => ⟨up.2.stubs, .channel false, up.2.replay, up.2.calls⟩
  | none => ⟨[], .channel false, none, []⟩

theorem openedUpstream_cons (up : UpstreamRuntime × Shared deps σ) (rest : List (UpstreamRuntime × Shared deps σ))
    (name : String) :
    openedUpstream (up :: rest) name =
      if up.1.name = name then ⟨up.2.stubs, .channel false, up.2.replay, up.2.calls⟩ else openedUpstream rest name := by
  simp only [openedUpstream, List.find?_cons]
  by_cases here : up.1.name = name <;> simp [here]

/-- `run` with the registry and the shared state that it starts the tasks with. -/
def boot (deps : Deps) (storage : SnapshotStorage σ) (media : Nat → σ) (b : ProxyClusterBuilder) :
    Except ProxyError (UpstreamRegistry × ClusterState deps σ) := do
  let opened ← b.run deps storage media
  let reg ← b.registry deps
  pure (reg, ⟨openedUpstream opened, ⟨[], media⟩⟩)

/-- What is left of `boot` when every medium has loaded. -/
theorem boot_of_opened {storage : SnapshotStorage σ} {media : Nat → σ} {b : ProxyClusterBuilder}
    {opened : List (Shared deps σ)}
    (loads : (b.upstreams.mapM fun spec => openShared deps storage spec.storage media) = .ok opened) :
    b.boot deps storage media =
      match duplicateName [] b.upstreams with
      | some name => .error (.command ("duplicate upstream name in cluster: " ++ name))
      | none =>
        (b.upstreams.mapM (b.runtime deps)).bind fun runtimes => (b.registry deps).map fun reg =>
          (reg, ⟨openedUpstream (runtimes.zip opened), ⟨[], media⟩⟩) := by
  rw [boot, run]
  cases duplicateName [] b.upstreams with
  | some name => rfl
  | none =>
    rw [loads]
    cases b.upstreams.mapM (b.runtime deps) with
    | error err => rfl
    | ok runtimes => cases b.registry deps <;> rfl

end ProxyClusterBuilder

/-- A cluster from its bring-up on, with what happens to it. -/
structure Session where
  builder : ProxyClusterBuilder
  arrivals : String → Nat → Arrival
  moves : List ControlMove

/-- The total number of steps of some sessions. -/
def totalMoves (sessions : List Session) : Nat := (sessions.map fun session => session.moves.length).sum

section Play
variable (deps : Deps) (storage : SnapshotStorage σ) (fromStr : String → Except String WireCommand)

def Session.play (session : Session) (media : Nat → σ) : Except ProxyError (ControlPlane deps σ) :=
  (session.builder.boot deps storage media).map fun booted =>
    ControlPlane.run storage booted.1 session.arrivals fromStr booted.2 session.moves

/-- Sessions one after the other over the same media. -/
def playAll : List Session → (Nat → σ) → List (Except ProxyError (ControlPlane deps σ))
  | [], _ => []
  | session :: rest, media =>
    match session.play deps storage fromStr media with
    | .error err => .error err :: playAll rest media
    | .ok c => .ok c :: playAll rest c.cluster.recorder.media

end Play

/-- Two sessions that end alike: with one error of the bring-up, or with two clusters that
nobody can tell apart. -/
inductive SessionAlike (M : σ → σ' → Prop) :
    Except ProxyError (ControlPlane deps σ) → Except ProxyError (ControlPlane deps σ') → Prop
  | failed (err : ProxyError) : SessionAlike M (.error err) (.error err)
  | ran {c c'} : ControlPlane.Alike M c c' → SessionAlike M (.ok c) (.ok c')

section Mirrored
variable {storage : SnapshotStorage σ} {storage' : SnapshotStorage σ'} {M : Nat → σ → σ' → Prop}
  (mirrors : Mirrors storage storage' M) {media : Nat → σ} {media' : Nat → σ'} {n : Nat}

include mirrors

theorem Mirrors.fewer {k : Nat} {s : σ} {s' : σ'} (mirrored : M (n + k) s s') : M n s s' := by
  induction k with
  | zero => exact mirrored
  | succ k ih => exact ih (mirrors.shorter mirrored)

theorem Mirrors.openShared (deps : Deps) (mirrored : ∀ m, M n (media m) (media' m)) (medium : Option Nat) :
    ∃ s s', openShared deps storage medium media = .ok s ∧ openShared deps storage' medium media' = .ok s' ∧
      s.Alike (M n) s' := by
  cases medium with
  | none => exact ⟨_, _, rfl, rfl, rfl, .none, ⟨rfl, mirrored⟩, rfl⟩
  | some m =>
    obtain ⟨log, log', loads, loads', same⟩ := mirrors.load (mirrored m)
    exact ⟨_, _, openShared_eq_ok.mpr ⟨log, loads, rfl⟩, openShared_eq_ok.mpr ⟨log', loads', rfl⟩, rfl,
      .some (ReplaySource.alike_new same), ⟨rfl, mirrored⟩, rfl⟩

theorem Mirrors.openAll (deps : Deps) (mirrored : ∀ m, M n (media m) (media' m)) (specs : List UpstreamSpec) :
    ∃ opened opened', (specs.mapM fun spec => PartlyProxy.openShared deps storage spec.storage media) = .ok opened ∧
      (specs.mapM fun spec => PartlyProxy.openShared deps storage' spec.storage media') = .ok opened' ∧
      List.Forall₂ (Shared.Alike (M n)) opened opened' := by
  induction specs with
  | nil => exact ⟨[], [], rfl, rfl, .nil⟩
  | cons spec rest ih =>
    obtain ⟨opened, opened', isOpened, isOpened', same⟩ := ih
    obtain ⟨s, s', isFirst, isFirst', alike⟩ := mirrors.openShared deps mirrored spec.storage
    exact ⟨s :: opened, s' :: opened', mapM_eq_ok_iff.mpr (.cons isFirst (mapM_eq_ok_iff.mp isOpened)),
      mapM_eq_ok_iff.mpr (.cons isFirst' (mapM_eq_ok_iff.mp isOpened')), .cons alike same⟩

omit mirrors in
theorem openedUpstream_alike {M : σ → σ' → Prop} {opened : List (Shared deps σ)} {opened' : List (Shared deps σ')}
    (same : List.Forall₂ (Shared.Alike M) opened opened') (runtimes : List UpstreamRuntime) (name : String) :
    (ProxyClusterBuilder.openedUpstream (runtimes.zip opened) name).Alike
      (ProxyClusterBuilder.openedUpstream (runtimes.zip opened') name) := by
  induction same generalizing runtimes with
  | nil =>
    rw [List.zip_nil_right, List.zip_nil_right]
    exact ⟨rfl, rfl, .none, rfl⟩
  | @cons s s' rest rest' here _ ih =>
    cases runtimes with
    | nil => exact ⟨rfl, rfl, .none, rfl⟩
    | cons rt runtimes =>
      rw [List.zip_cons_cons, List.zip_cons_cons, ProxyClusterBuilder.openedUpstream_cons,
        ProxyClusterBuilder.openedUpstream_cons]
      split
      · exact ⟨here.stubs, rfl, here.replay, here.calls⟩
      · exact ih runtimes

/-- Over media that mirror each other a bring-up fails alike or gives alike clusters. -/
theorem Mirrors.boot (deps : Deps) (mirrored : ∀ m, M n (media m) (media' m)) (b : ProxyClusterBuilder) :
    (∃ err, b.boot deps storage media = .error err ∧ b.boot deps storage' media' = .error err) ∨
      ∃ reg c c', b.boot deps storage media = .ok (reg, c) ∧ b.boot deps storage' media' = .ok (reg, c') ∧
        c.Alike (M n) c' := by
  obtain ⟨opened, opened', isOpened, isOpened', same⟩ := mirrors.openAll deps mirrored b.upstreams
  rw [ProxyClusterBuilder.boot_of_opened isOpened, ProxyClusterBuilder.boot_of_opened isOpened']
  cases ProxyClusterBuilder.duplicateName [] b.upstreams with
  | some name => exact Or.inl ⟨_, rfl, rfl⟩
  | none =>
    cases b.upstreams.mapM (b.runtime deps) with
    | error err => exact Or.inl ⟨_, rfl, rfl⟩
    | ok runtimes =>
      cases b.registry deps with
      | error err => exact Or.inl ⟨_, rfl, rfl⟩
      | ok reg =>
        exact Or.inr ⟨reg, _, _, rfl, rfl, fun name => openedUpstream_alike same runtimes name, rfl, mirrored⟩

/-- Any sessions over two backends that mirror each other end alike. -/
theorem Mirrors.playAll (deps : Deps) (fromStr : String → Except String WireCommand) {sessions : List Session}
    (mirrored : ∀ m, M (n + totalMoves sessions) (media m) (media' m)) :
    List.Forall₂ (SessionAlike (M n)) (playAll deps storage fromStr sessions media)
      (playAll deps storage' fromStr sessions media') := by
  induction sessions generalizing media media' with
  | nil => exact .nil
  | cons session rest ih =>
    have split : n + totalMoves (session :: rest) = n + totalMoves rest + session.moves.length := by
      simp only [totalMoves, List.map_cons, List.sum_cons]
      omega
    rw [split] at mirrored
    rcases mirrors.boot deps mirrored session.builder with
      ⟨err, fails, fails'⟩ | ⟨reg, c, c', boots, boots', alike⟩
    · simp only [PartlyProxy.playAll, Session.play, fails, fails', Except.map]
      refine .cons (.failed err) (ih fun m => ?_)
      exact mirrors.fewer (mirrored m)
    · have start : (ControlPlane.start c).Alike (M (n + totalMoves rest + session.moves.length)) (ControlPlane.start c') :=
        ⟨⟨alike, rfl, rfl⟩, rfl, rfl, rfl, rfl, rfl⟩
      have ended := start.run mirrors reg session.arrivals fromStr session.moves
      simp only [PartlyProxy.playAll, Session.play, boots, boots', Except.map]
      refine .cons (.ran ?_) (ih ended.cluster.state.recorder.media)
      exact ended.imp mirrors.fewer

end Mirrored

section Lawful
variable {storage : SnapshotStorage σ} {storage' : SnapshotStorage σ'}

/-- Two media that carry exchanges which replay alike. -/
def CarryAlike (law : storage.Lawful) (law' : storage'.Lawful) (s : σ) (s' : σ') : Prop :=
  ∃ log log', law.Holds s log ∧ law'.Holds s' log' ∧ List.Forall₂ RecordedExchange.SameReplay log log'

def SnapshotStorage.Lawful.Accepts (law : storage.Lawful) : Prop :=
  ∀ s log e, law.Holds s log → (storage.append s e).1 = .ok ()

theorem lawful_mirrors {law : storage.Lawful} {law' : storage'.Lawful} (accepts : law.Accepts) (accepts' : law'.Accepts) :
    Mirrors storage storage' fun _ => CarryAlike law law' where
  append e := by
    rintro ⟨log, log', held, held', same⟩
    have taken := accepts _ _ e held
    have taken' := accepts' _ _ e held'
    obtain ⟨e₁, alike, written⟩ := law.append_ok held taken
    obtain ⟨e₂, alike', written'⟩ := law'.append_ok held' taken'
    have last : e₁.SameReplay e₂ := ⟨alike.1.symm.trans alike'.1, alike.2.symm.trans alike'.2⟩
    refine ⟨by rw [taken, taken'], log ++ [e₁], log' ++ [e₂], written, written', ?_⟩
    exact List.rel_append same (.cons last .nil)
  shorter mirrored := mirrored
  load := by
    rintro _ s s' ⟨log, log', held, held', same⟩
    exact ⟨log, log', law.load_eq held, law'.load_eq held', same⟩

/-- Backends that keep the contract of `SnapshotStorage` and refuse nothing are
interchangeable: whatever a host does in any number of sessions, with restarts and changes
of mode between them, every request gets the same answer, every command the same response,
and the rings are the same. -/
theorem backends_interchangeable (deps : Deps) {law : storage.Lawful} {law' : storage'.Lawful} (accepts : law.Accepts)
    (accepts' : law'.Accepts) (fromStr : String → Except String WireCommand) (sessions : List Session)
    {media : Nat → σ} {media' : Nat → σ'} (alike : ∀ m, CarryAlike law law' (media m) (media' m)) :
    List.Forall₂ (SessionAlike (CarryAlike law law')) (playAll deps storage fromStr sessions media)
      (playAll deps storage' fromStr sessions media') :=
  (lawful_mirrors accepts accepts').playAll deps (n := 0) fromStr alike

/-- A recording, and a replay of it behind a client that pauses the upstream. -/
def recordThenReplay : List Session :=
  [⟨ProxyClusterBuilder.new.addUpstreamWith "api" referenceTarget [] (some 0),
      fun _ _ => referenceGet referencePath (answering [1, 2]), List.replicate 8 (.request "api" 0)⟩,
    ⟨(ProxyClusterBuilder.new.withDefaultMode .replay).addUpstreamWith "api" referenceTarget [] (some 0),
      fun _ _ => referenceGet referencePath (answering []),
      [.call 0 (.pause none), .send (.caller 0), .process, .process, .request "api" 0]⟩]

theorem backends_interchangeable_memory :
    List.Forall₂ (SessionAlike (CarryAlike inMemoryStorage_lawful (jsonlStorage_lawful referenceSerde_lawful)))
      (playAll referenceDeps inMemoryStorage ControlPlane.refuseAll recordThenReplay fun _ => [])
      (playAll referenceDeps (jsonlStorage referenceSerde) ControlPlane.refuseAll recordThenReplay fun _ => []) :=
  backends_interchangeable referenceDeps (fun _ _ _ _ => rfl) (fun _ _ _ _ => rfl) ControlPlane.refuseAll recordThenReplay
    fun _ => ⟨[], [], rfl, ⟨[], rfl, rfl⟩, .nil⟩

end Lawful

section Sqlite
variable {serde : Serde}

/-- A file and a database that hold the same exchanges, as the same bytes. -/
structure MirroredFile (serde : Serde) (file : Bytes) (db : SqliteDatabase) : Prop where
  bytes : file = db.exchanges.select.flatMap fun row => row.2.payload ++ [10]
  rows : ∃ written, db.Rows serde written

theorem payload_lines {db : SqliteDatabase} {written : List RecordedExchange} (rows : db.Rows serde written) :
    (db.exchanges.select.flatMap fun row => row.2.payload ++ [10]) = written.flatMap (jsonlLine serde) := by
  have byRow : (db.exchanges.select.flatMap fun row => row.2.payload ++ [10]) =
      (db.exchanges.select.map Prod.snd).flatMap fun row => row.payload ++ [10] := by
    rw [List.flatMap_map]
  rw [byRow, rows, List.flatMap_map]
  rfl

theorem sqlite_mirrors_jsonl (law : serde.Lawful) (sliceError : Bytes → String) :
    Mirrors (jsonlStorage serde) (sqliteStorage serde sliceError fun _ => none)
      fun n file db => MirroredFile serde file db ∧ db.exchanges.last + n ≤ maxI64 where
  append := by
    rintro n file db e ⟨⟨bytes, written, rows⟩, room⟩
    rcases append_cases rows e with ⟨accepted, added, last, _⟩ | ⟨_, _, faulty | full⟩
    · refine ⟨by rw [accepted]; rfl, ⟨?_, written ++ [e], added⟩, by omega⟩
      rw [payload_lines added, List.flatMap_append, ← payload_lines rows, ← bytes, List.flatMap_singleton]
      rfl
    · cases faulty
    · omega
  shorter := fun ⟨mirrored, room⟩ => ⟨mirrored, by omega⟩
  load := by
    rintro n file db ⟨⟨bytes, written, rows⟩, _⟩
    refine ⟨_, _, ?_, load_rows law rows, List.forall₂_same.mpr fun e _ => ⟨rfl, rfl⟩⟩
    rw [bytes, payload_lines rows]
    exact loadLines_written law written 0

/-- A SQLite database does for a host what an NDJSON file does: over any sessions, as long
as there are row ids left, both give the same answers and responses, and at the end of
each session the file is made of the payloads of the rows, a line for each. -/
theorem sqlite_replaces_jsonl (deps : Deps) (law : serde.Lawful) (sliceError : Bytes → String)
    (fromStr : String → Except String WireCommand) (sessions : List Session) {files : Nat → Bytes}
    {dbs : Nat → SqliteDatabase} (mirrored : ∀ m, MirroredFile serde (files m) (dbs m))
    (room : ∀ m, (dbs m).exchanges.last + totalMoves sessions ≤ maxI64) :
    List.Forall₂ (SessionAlike fun file db => MirroredFile serde file db)
      (playAll deps (jsonlStorage serde) fromStr sessions files)
      (playAll deps (sqliteStorage serde sliceError fun _ => none) fromStr sessions dbs) := by
  have start : ∀ m, MirroredFile serde (files m) (dbs m) ∧ (dbs m).exchanges.last + (0 + totalMoves sessions) ≤ maxI64 :=
    fun m => ⟨mirrored m, by rw [Nat.zero_add]; exact room m⟩
  have alike := (sqlite_mirrors_jsonl law sliceError).playAll deps fromStr start
  refine alike.imp fun r r' same => ?_
  cases same with
  | failed err => exact .failed err
  | ran same => exact .ran (same.imp And.left)

theorem sqlite_replaces_jsonl_fresh :
    List.Forall₂ (SessionAlike fun file db => MirroredFile referenceSerde file db)
      (playAll referenceDeps (jsonlStorage referenceSerde) ControlPlane.refuseAll recordThenReplay fun _ => [])
      (playAll referenceDeps (sqliteStorage referenceSerde (fun _ => "") fun _ => none) ControlPlane.refuseAll recordThenReplay
        fun _ => runMigration none) :=
  sqlite_replaces_jsonl referenceDeps referenceSerde_lawful (fun _ => "") ControlPlane.refuseAll recordThenReplay
    (fun _ => ⟨rfl, [], rfl⟩) fun _ => by decide

end Sqlite

end PartlyProxy
