import PartlyProxy.Builder
import PartlyProxy.ControlPlane
import PartlyProxy.RecordReplay
import PartlyProxy.Sqlite

namespace PartlyProxy
variable {deps : Deps} {σ σ' : Type}

/-- Two replay sources that hold, under every key, exchanges that replay alike. -/
def ReplaySource.Alike (a b : ReplaySource deps) : Prop :=
  ∀ k, Option.Rel RecordedExchange.SameReplay (a.entry k) (b.entry k)

namespace ReplaySource

theorem Alike.refl (a : ReplaySource deps) : a.Alike a := by
  intro k
  cases a.entry k with
  | none => exact .none
  | some e => exact .some ⟨rfl, rfl⟩

theorem responseKey_same {e e' : RecordedExchange} (same : e.SameReplay e') : responseKey deps e = responseKey deps e' := by
  rw [responseKey, responseKey, same.1, same.2]

theorem alike_new {log log' : List RecordedExchange} (same : List.Forall₂ RecordedExchange.SameReplay log log') :
    (new deps log).Alike (new deps log') := by
  intro k
  rw [entry_new, entry_new]
  exact KeyedLog.first_related (fun _ _ alike => responseKey_same alike) same k

theorem Alike.insert {a b : ReplaySource deps} (alike : a.Alike b) (exchange : RecordedExchange) :
    (a.insert exchange).Alike (b.insert exchange) := by
  intro k
  rw [entry_insert, entry_insert]
  refine optionRel_or (alike k) ?_
  cases KeyedLog.first (responseKey deps) [exchange] k with
  | none => exact .none
  | some e => exact .some ⟨rfl, rfl⟩

theorem Alike.answer {a b : ReplaySource deps} (alike : a.Alike b) (k : IndexKey) : a.answer k = b.answer k := by
  have related := alike k
  rw [ReplaySource.answer, ReplaySource.answer]
  generalize a.entry k = found at related
  generalize b.entry k = found' at related
  cases related with
  | none => rfl
  | some same => rw [Option.bind_some, Option.bind_some, same.2]

end ReplaySource

/-- Two backends that take the same appends and load what replays alike, from any two
media that mirror each other for `n` more appends. -/
structure Mirrors (storage : SnapshotStorage σ) (storage' : SnapshotStorage σ') (M : Nat → σ → σ' → Prop) : Prop where
  append : ∀ {n s s'} e, M (n + 1) s s' → ((storage.append s e).1.isOk = (storage'.append s' e).1.isOk) ∧
    M n (storage.append s e).2 (storage'.append s' e).2
  shorter : ∀ {n s s'}, M (n + 1) s s' → M n s s'
  load : ∀ {n s s'}, M n s s' → ∃ log log', storage.load s = .ok log ∧ storage'.load s' = .ok log' ∧
    List.Forall₂ RecordedExchange.SameReplay log log'

structure RecorderState.Alike (M : σ → σ' → Prop) (r : RecorderState σ) (r' : RecorderState σ') : Prop where
  buffer : r.buffer = r'.buffer
  media : ∀ m, M (r.media m) (r'.media m)

/-- What the handlers of one upstream share, over two backends. -/
structure Shared.Alike (M : σ → σ' → Prop) (s : Shared deps σ) (s' : Shared deps σ') : Prop where
  stubs : s.stubs = s'.stubs
  replay : Option.Rel ReplaySource.Alike s.replay s'.replay
  recorder : s.recorder.Alike M s'.recorder
  calls : s.calls = s'.calls

structure UpstreamState.Alike (a b : UpstreamState deps) : Prop where
  stubs : a.stubs = b.stubs
  pause : a.pause = b.pause
  replay : Option.Rel ReplaySource.Alike a.replay b.replay
  calls : a.calls = b.calls

structure ClusterState.Alike (M : σ → σ' → Prop) (c : ClusterState deps σ) (c' : ClusterState deps σ') : Prop where
  upstream : ∀ u, (c.upstream u).Alike (c'.upstream u)
  recorder : c.recorder.Alike M c'.recorder

structure Cluster.Alike (M : σ → σ' → Prop) (c : Cluster deps σ) (c' : Cluster deps σ') : Prop where
  state : c.toClusterState.Alike M c'.toClusterState
  phase : c.phase = c'.phase
  pushes : c.pushes = c'.pushes

/-- Two clusters that nobody can tell apart: their requests stand at the same places with
the same answers, their rings and their parties are the same. -/
structure ControlPlane.Alike (M : σ → σ' → Prop) (c : ControlPlane deps σ) (c' : ControlPlane deps σ') : Prop where
  cluster : c.cluster.Alike M c'.cluster
  client : c.client = c'.client
  queue : c.queue = c'.queue
  processor : c.processor = c'.processor
  signalled : c.signalled = c'.signalled
  listener : c.listener = c'.listener

section Handlers
variable {storage : SnapshotStorage σ} {storage' : SnapshotStorage σ'} {M : Nat → σ → σ' → Prop}
  (mirrors : Mirrors storage storage' M) {n : Nat}

theorem RecorderState.Alike.imp {M M' : σ → σ' → Prop} (weaker : ∀ {s s'}, M s s' → M' s s') {r : RecorderState σ}
    {r' : RecorderState σ'} (alike : r.Alike M r') : r.Alike M' r' := ⟨alike.buffer, fun m => weaker (alike.media m)⟩

include mirrors in
/-- A record step is taken alike and writes alike. -/
theorem RecorderState.Alike.record {r : RecorderState σ} {r' : RecorderState σ'} (alike : r.Alike (M (n + 1)) r')
    (rec : Recorder) (exchange : RecordedExchange) :
    (rec.record storage r exchange).1.isOk = (rec.record storage' r' exchange).1.isOk ∧
      (rec.record storage r exchange).2.Alike (M n) (rec.record storage' r' exchange).2 := by
  simp only [Recorder.record]
  split
  · exact ⟨rfl, alike.imp mirrors.shorter⟩
  · split
    · rename_i m _
      obtain ⟨sameResult, written⟩ := mirrors.append exchange (alike.media m)
      have media : ∀ k, M n (Function.update r.media m (storage.append (r.media m) exchange).2 k)
          (Function.update r'.media m (storage'.append (r'.media m) exchange).2 k) := by
        intro k
        by_cases here : k = m
        · subst here
          rw [Function.update_self, Function.update_self]
          exact written
        · rw [Function.update_of_ne here, Function.update_of_ne here]
          exact mirrors.shorter (alike.media k)
      cases result : (storage.append (r.media m) exchange).1 with
      | ok =>
        cases result' : (storage'.append (r'.media m) exchange).1 with
        | ok => exact ⟨rfl, by rw [alike.buffer], media⟩
        | error err =>
          rw [result, result'] at sameResult
          cases sameResult
      | error err =>
        cases result' : (storage'.append (r'.media m) exchange).1 with
        | ok =>
          rw [result, result'] at sameResult
          cases sameResult
        | error err' => exact ⟨rfl, alike.buffer, media⟩
    · exact ⟨rfl, by rw [alike.buffer], fun k => mirrors.shorter (alike.media k)⟩

theorem Shared.Alike.lookup {M : σ → σ' → Prop} {s : Shared deps σ} {s' : Shared deps σ'} (alike : s.Alike M s')
    (req : ProxyRequest) (chain : List ProxyMiddleware) :
    (s.replay.bind fun source => source.lookup req chain) = s'.replay.bind fun source => source.lookup req chain := by
  have related := alike.replay
  generalize s.replay = replay at related
  generalize s'.replay = replay' at related
  cases related with
  | none => rfl
  | some same => exact same.answer _

theorem Shared.Alike.insertPromoted {M : σ → σ' → Prop} {s : Shared deps σ} {s' : Shared deps σ'}
    (alike : s.Alike M s') (promoted : Option RecordedExchange) :
    (insertPromoted promoted s).Alike M (insertPromoted promoted s') := by
  cases promoted with
  | none => exact alike
  | some exchange =>
    refine ⟨alike.stubs, ?_, alike.recorder, alike.calls⟩
    have related := alike.replay
    simp only [PartlyProxy.insertPromoted]
    generalize s.replay = replay at related
    generalize s'.replay = replay' at related
    cases related with
    | none => exact .none
    | some same => exact .some (same.insert exchange)

include mirrors in
/-- One step of a handler. -/
theorem Shared.Alike.advance {s : Shared deps σ} {s' : Shared deps σ'} (alike : s.Alike (M (n + 1)) s')
    (rt : UpstreamRuntime) (a : Arrival) (p : Phase) :
    (advance storage rt a s p).1 = (advance storage' rt a s' p).1 ∧
      (advance storage rt a s p).2.Alike (M n) (advance storage' rt a s' p).2 := by
  have rest : s.Alike (M n) s' := ⟨alike.stubs, alike.replay, alike.recorder.imp mirrors.shorter, alike.calls⟩
  cases p with
  | arrived =>
    simp only [PartlyProxy.advance]
    split
    · exact ⟨rfl, rest⟩
    · split <;> exact ⟨rfl, rest⟩
  | scanning req ctx resume =>
    simp only [PartlyProxy.advance, alike.stubs]
    split
    · exact ⟨rfl, rfl, rest.replay, rest.recorder, rest.calls⟩
    · exact ⟨rfl, rest⟩
  | lookingUp req ctx resume =>
    simp only [PartlyProxy.advance, alike.lookup req rt.middleware]
    split
    · exact ⟨rfl, rest⟩
    · split <;> exact ⟨rfl, rest⟩
  | forwarding req ctx resume =>
    refine ⟨rfl, rest.stubs, rest.replay, rest.recorder, ?_⟩
    simp only [PartlyProxy.advance, forwardCall, alike.calls]
  | ended outcome source =>
    simp only [PartlyProxy.advance]
    split
    · exact ⟨rfl, rest⟩
    · exact ⟨rfl, rest.insertPromoted _⟩
  | recording outcome source exchange =>
    exact ⟨rfl, rest.stubs, rest.replay, (alike.recorder.record mirrors rt.recorder exchange).2, rest.calls⟩
  | done outcome source => exact ⟨rfl, rest⟩

include mirrors in
theorem RecorderState.Alike.pushed {r : RecorderState σ} {r' : RecorderState σ'} (alike : r.Alike (M (n + 1)) r')
    (rec : Recorder) (p : Phase) : Cluster.pushed storage rec r p = Cluster.pushed storage' rec r' p := by
  cases p with
  | recording outcome source exchange =>
    have sameResult := (alike.record mirrors rec exchange).1
    simp only [Cluster.pushed]
    generalize (rec.record storage r exchange).1 = result at sameResult
    generalize (rec.record storage' r' exchange).1 = result' at sameResult
    cases result with
    | ok =>
      cases result' with
      | ok => rfl
      | error err => cases sameResult
    | error err =>
      cases result' with
      | ok => cases sameResult
      | error err' => cases rec.config.enabled <;> cases rec.config.maxInMemory <;> rfl
  | _ => rfl

end Handlers

section Steps
variable {storage : SnapshotStorage σ} {storage' : SnapshotStorage σ'} {M : Nat → σ → σ' → Prop} {n : Nat}

theorem UpstreamState.Alike.withStubs {a b : UpstreamState deps} (alike : a.Alike b)
    (f : List StubEntry → List StubEntry) :
    UpstreamState.Alike { a with stubs := f a.stubs } { b with stubs := f b.stubs } :=
  ⟨by rw [alike.stubs], alike.pause, alike.replay, alike.calls⟩

theorem UpstreamState.Alike.withPause {a b : UpstreamState deps} (alike : a.Alike b) (paused : Bool) :
    UpstreamState.Alike { a with pause := a.pause.sendReplace paused } { b with pause := b.pause.sendReplace paused } :=
  ⟨alike.stubs, by rw [alike.pause], alike.replay, alike.calls⟩

theorem ClusterState.Alike.shared {M : σ → σ' → Prop} {c : ClusterState deps σ} {c' : ClusterState deps σ'}
    (alike : c.Alike M c') (u : String) : (c.shared u).Alike M (c'.shared u) :=
  ⟨(alike.upstream u).stubs, (alike.upstream u).replay, alike.recorder, (alike.upstream u).calls⟩

theorem ClusterState.Alike.setShared {M M' : σ → σ' → Prop} {c : ClusterState deps σ} {c' : ClusterState deps σ'}
    (alike : c.Alike M c') {s : Shared deps σ} {s' : Shared deps σ'} (same : s.Alike M' s') (u : String) :
    (c.setShared u s).Alike M' (c'.setShared u s') := by
  refine ⟨fun v => ?_, same.recorder⟩
  by_cases here : v = u
  · subst here
    simp only [ClusterState.setShared, Function.update_self]
    exact ⟨same.stubs, (alike.upstream v).pause, same.replay, same.calls⟩
  · simp only [ClusterState.setShared, Function.update_of_ne here]
    exact alike.upstream v

theorem ClusterState.Alike.modify {M : σ → σ' → Prop} {c : ClusterState deps σ} {c' : ClusterState deps σ'}
    (alike : c.Alike M c') (name : String) {f : UpstreamState deps → UpstreamState deps}
    (keeps : ∀ a b : UpstreamState deps, a.Alike b → (f a).Alike (f b)) : (c.modify name f).Alike M (c'.modify name f) := by
  refine ⟨fun u => ?_, alike.recorder⟩
  by_cases here : u = name
  · subst here
    rw [ClusterState.modify_self, ClusterState.modify_self]
    exact keeps _ _ (alike.upstream u)
  · rw [ClusterState.modify_of_ne c here, ClusterState.modify_of_ne c' here]
    exact alike.upstream u

theorem ClusterState.Alike.onUpstreams {M : σ → σ' → Prop} {c : ClusterState deps σ} {c' : ClusterState deps σ'}
    (alike : c.Alike M c') (reg : UpstreamRegistry) (target : Option String)
    {f : UpstreamState deps → UpstreamState deps}
    (keeps : ∀ a b : UpstreamState deps, a.Alike b → (f a).Alike (f b)) :
    (onUpstreams reg c target f).1 = (onUpstreams reg c' target f).1 ∧
      (onUpstreams reg c target f).2.Alike M (onUpstreams reg c' target f).2 := by
  unfold PartlyProxy.onUpstreams
  cases target with
  | some name =>
    dsimp only
    split
    · exact ⟨rfl, alike.modify _ keeps⟩
    · exact ⟨rfl, alike⟩
  | none =>
    refine ⟨rfl, ?_⟩
    generalize reg.upstreams = upstreams
    induction upstreams generalizing c c' with
    | nil => exact alike
    | cons rt rest ih => exact ih (alike.modify rt.name keeps)

/-- A command gets the same answer and does the same. -/
theorem ClusterState.Alike.dispatch {M : σ → σ' → Prop} {c : ClusterState deps σ} {c' : ClusterState deps σ'}
    (alike : c.Alike M c') (reg : UpstreamRegistry) (cmd : Command) :
    (dispatch reg c cmd).1 = (dispatch reg c' cmd).1 ∧ (dispatch reg c cmd).2.Alike M (dispatch reg c' cmd).2 := by
  cases cmd with
  | stub upstream matcher response times =>
    simp only [PartlyProxy.dispatch]
    split
    · exact ⟨rfl, alike.modify _ fun a b same => same.withStubs fun stubs => StubStore.add stubs ⟨matcher, response, times⟩⟩
    · exact ⟨rfl, alike⟩
  | clearStubs upstream => exact alike.onUpstreams reg upstream fun a b same => same.withStubs StubStore.clear
  | pause upstream => exact alike.onUpstreams reg upstream fun a b same => same.withPause true
  | resume upstream => exact alike.onUpstreams reg upstream fun a b same => same.withPause false
  | queryTraffic filter => exact ⟨by simp only [PartlyProxy.dispatch, alike.recorder.buffer], alike⟩
  | clearRecordings => exact ⟨rfl, alike.upstream, rfl, alike.recorder.media⟩
  | assertSeen filter timeout => exact ⟨rfl, alike⟩
  | assertCount filter expected timeout => exact ⟨rfl, alike⟩

theorem Cluster.Alike.imp {M M' : σ → σ' → Prop} (weaker : ∀ {s s'}, M s s' → M' s s') {c : Cluster deps σ}
    {c' : Cluster deps σ'} (alike : c.Alike M c') : c.Alike M' c' :=
  ⟨⟨alike.state.upstream, alike.state.recorder.imp weaker⟩, alike.phase, alike.pushes⟩

theorem Cluster.Alike.setPhase {M : σ → σ' → Prop} {c : Cluster deps σ} {c' : Cluster deps σ'} (alike : c.Alike M c')
    (u : String) (i : Nat) (p : RequestPhase) : (c.setPhase u i p).Alike M (c'.setPhase u i p) :=
  ⟨alike.state, by simp only [Cluster.setPhase, alike.phase], alike.pushes⟩

theorem Cluster.Alike.step (mirrors : Mirrors storage storage' M) {c : Cluster deps σ} {c' : Cluster deps σ'}
    (alike : c.Alike (M (n + 1)) c') (reg : UpstreamRegistry) (arrivals : String → Nat → Arrival) (move : ClusterMove) :
    (c.step storage reg arrivals move).Alike (M n) (c'.step storage' reg arrivals move) := by
  have rest : c.Alike (M n) c' := alike.imp mirrors.shorter
  cases move with
  | command cmd =>
    exact ⟨(rest.state.dispatch reg cmd).2, alike.phase, alike.pushes⟩
  | request u i =>
    simp only [Cluster.step, ← alike.phase, ← (alike.state.upstream u).pause]
    split
    · exact rest
    · split
      · exact rest.setPhase u i _
      · exact rest.setPhase u i _
    · rename_i rt p _ _
      obtain ⟨samePhase, written⟩ := (alike.state.shared u).advance mirrors rt (arrivals u i) p
      refine ⟨alike.state.setShared written u, ?_, ?_⟩
      · simp only [Cluster.handle, Cluster.setPhase, alike.phase, samePhase]
      · simp only [Cluster.handle, alike.pushes, alike.state.recorder.pushed mirrors rt.recorder p]

end Steps

namespace ControlPlane

section Steps
variable {M : σ → σ' → Prop} {c : ControlPlane deps σ} {c' : ControlPlane deps σ'} (alike : c.Alike M c')

include alike

theorem Alike.setClient (p : Party) (cl : Client) : (c.setClient p cl).Alike M (c'.setClient p cl) :=
  { alike with client := by simp only [ControlPlane.setClient, alike.client] }

theorem Alike.setPhase (p : Party) (phase : PartyPhase) : (c.setPhase p phase).Alike M (c'.setPhase p phase) := by
  rw [ControlPlane.setPhase, ControlPlane.setPhase, ← alike.client]
  exact alike.setClient p _

theorem Alike.reply (env : Envelope) (resp : CommandResponse) : (c.reply env resp).Alike M (c'.reply env resp) := by
  simp only [ControlPlane.reply, ← alike.client]
  split
  · split
    · exact alike.setPhase _ _
    · exact alike
  · exact alike

theorem Alike.send (p : Party) : (c.send p).Alike M (c'.send p) := by
  simp only [ControlPlane.send, ← alike.client, ← alike.processor, ← alike.queue]
  split
  · split
    · exact alike.setPhase _ _
    · split
      · exact { alike.setPhase p _ with queue := rfl }
      · exact alike
  · exact alike

theorem Alike.execute (reg : UpstreamRegistry) (env : Envelope) : (c.execute reg env).Alike M (c'.execute reg env) :=
  { alike with cluster := ⟨(alike.cluster.state.dispatch reg env.cmd).2, alike.cluster.phase, alike.cluster.pushes⟩ }

theorem Alike.process (reg : UpstreamRegistry) : (c.process reg).Alike M (c'.process reg) := by
  simp only [ControlPlane.process, ← alike.processor, ← alike.signalled, ← alike.queue]
  split
  · split
    · exact ⟨alike.cluster, alike.client, rfl, rfl, rfl, alike.listener⟩
    · split
      · exact alike
      · exact ⟨alike.cluster, alike.client, rfl, rfl, rfl, alike.listener⟩
  · rename_i env _
    simp only [dispatchTaken, ← (alike.cluster.state.dispatch reg env.cmd).1]
    split
    · exact { (alike.execute reg env).reply env _ with processor := rfl }
    · exact { alike.execute reg env with processor := rfl }
  · exact alike

theorem Alike.conclude (verdict : Assertion → Option CommandResponse) :
    (c.conclude verdict).Alike M (c'.conclude verdict) := by
  simp only [ControlPlane.conclude, ← alike.processor]
  split
  · split
    · exact { alike.reply _ _ with processor := rfl }
    · exact alike
  · exact alike

theorem Alike.lost (p : Party) : (c.lost p).Alike M (c'.lost p) := by
  simp only [ControlPlane.lost, ← alike.client, ← alike.processor]
  split
  · exact alike.setPhase _ _
  · exact alike

theorem Alike.answer (p : Party) : (c.answer p).Alike M (c'.answer p) := by
  simp only [ControlPlane.answer, ← alike.client]
  split
  · exact alike.setClient _ _
  · exact alike

theorem Alike.close (p : Party) : (c.close p).Alike M (c'.close p) := by
  simp only [ControlPlane.close, ← alike.client]
  split
  · exact alike
  · exact alike
  · exact alike.setPhase _ _

theorem Alike.clear (u : String) : (c.clear u).Alike M (c'.clear u) := by
  simp only [ControlPlane.clear, ← alike.listener]
  split
  · refine { alike with cluster := ⟨?_, alike.cluster.phase, alike.cluster.pushes⟩, listener := rfl }
    exact alike.cluster.state.modify u fun a b same => same.withPause false
  · exact alike

end Steps

section Runs
variable {storage : SnapshotStorage σ} {storage' : SnapshotStorage σ'} {M : Nat → σ → σ' → Prop}
  (mirrors : Mirrors storage storage' M) (reg : UpstreamRegistry) (arrivals : String → Nat → Arrival)
  (fromStr : String → Except String WireCommand)

include mirrors

omit mirrors in
theorem Alike.imp {M M' : σ → σ' → Prop} (weaker : ∀ {s s'}, M s s' → M' s s') {c : ControlPlane deps σ}
    {c' : ControlPlane deps σ'} (alike : c.Alike M c') : c.Alike M' c' :=
  { alike with cluster := alike.cluster.imp weaker }

/-- One step of any of the tasks over two backends. -/
theorem Alike.step {n : Nat} {c : ControlPlane deps σ} {c' : ControlPlane deps σ'} (alike : c.Alike (M (n + 1)) c')
    (move : ControlMove) :
    (c.step storage reg arrivals fromStr move).Alike (M n) (c'.step storage' reg arrivals fromStr move) := by
  have rest : c.Alike (M n) c' := alike.imp mirrors.shorter
  cases move with
  | request u i => exact { rest with cluster := alike.cluster.step mirrors reg arrivals (.request u i) }
  | read k text =>
    simp only [ControlPlane.step, ← alike.client, ← alike.signalled]
    split
    · split
      · exact rest.setPhase _ _
      · exact rest.setClient _ _
    · exact rest
  | call k cmd =>
    simp only [ControlPlane.step, ← alike.client]
    split
    · exact rest.setClient _ _
    · exact rest
  | send p => exact rest.send p
  | process => exact rest.process reg
  | look late =>
    simp only [ControlPlane.step, ← alike.cluster.state.recorder.buffer]
    exact rest.conclude _
  | expire =>
    simp only [ControlPlane.step, ← alike.cluster.state.recorder.buffer]
    exact rest.conclude _
  | lost p => exact rest.lost p
  | answer p => exact rest.answer p
  | close p => exact rest.close p
  | signal => exact { rest with signalled := rfl }
  | stop u =>
    simp only [ControlPlane.step, ← alike.listener]
    split
    · exact { rest with listener := rfl }
    · exact rest
  | clear u => exact rest.clear u

/-- A run of two clusters takes at most one append with each of its steps. -/
theorem Alike.run {n : Nat} {c : ControlPlane deps σ} {c' : ControlPlane deps σ'} (moves : List ControlMove)
    (alike : c.Alike (M (n + moves.length)) c') :
    (Execution.exec (ControlPlane.step storage reg arrivals fromStr) c moves).Alike (M n)
      (Execution.exec (ControlPlane.step storage' reg arrivals fromStr) c' moves) := by
  induction moves generalizing c c' with
  | nil => exact alike
  | cons move moves ih => exact ih (alike.step mirrors reg arrivals fromStr move)

end Runs

end ControlPlane

end PartlyProxy
