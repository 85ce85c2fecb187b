import PartlyProxy.Cluster
import PartlyProxy.Ledger
import PartlyProxy.ReplayMode
import Mathlib.Data.Set.Card

namespace PartlyProxy
variable {deps : Deps} {σ : Type}

theorem advance_eq_done {storage : SnapshotStorage σ} {rt : UpstreamRuntime} {a : Arrival} {s : Shared deps σ} {p : Phase}
    {outcome : Outcome} {source : Option ResponseSource} (next : (advance storage rt a s p).1 = .done outcome source) :
    p = .done outcome source ∨ (∃ e, p = .recording outcome source e) ∨
      p = .ended outcome source ∧ offered deps rt a.stamp a.original outcome source = none := by
  rcases advance_late_cases storage rt a s p with ⟨_, early⟩ |
    ⟨_, _, ⟨was, nothing, done⟩ | ⟨_, _, _, recording⟩ | ⟨was, done⟩⟩
  · exact (early outcome source next).elim
  · rw [done] at next
    cases next
    exact Or.inr (Or.inr ⟨was, nothing⟩)
  · simp [recording] at next
  · rw [done] at next
    cases next
    rcases was with isDone | isRecording
    · exact Or.inl isDone
    · exact Or.inr (Or.inl isRecording)

namespace Cluster

/-- The exchanges that one request has pushed. -/
def pushesOf (c : Cluster deps σ) (u : String) (i : Nat) : List RecordedExchange :=
  (c.pushes.filter fun entry => entry.1 = (u, i)).map Prod.snd

/-- What a request has pushed by the time it stands at a phase. -/
def expected (deps : Deps) (reg : UpstreamRegistry) (u : String) (a : Arrival) : RequestPhase → List RecordedExchange
  | .handling (.done outcome source) =>
    match reg.get u with
    | some rt => (offered deps rt a.stamp a.original outcome source).toList
    | none => []
  | _ => []

structure Booked (reg : UpstreamRegistry) (arrivals : String → Nat → Arrival) (c : Cluster deps σ) : Prop where
  pending : ∀ u i outcome source e, c.phase u i = .handling (.recording outcome source e) → ∀ rt, reg.get u = some rt →
    offered deps rt (arrivals u i).stamp (arrivals u i).original outcome source = some e
  registered : ∀ u i outcome source, c.phase u i = .handling (.done outcome source) → (reg.get u).isSome
  pushed : ∀ u i, c.pushesOf u i = expected deps reg u (arrivals u i) (c.phase u i)

section Steps
variable {storage : SnapshotStorage σ} {reg : UpstreamRegistry} {arrivals : String → Nat → Arrival} {c c' : Cluster deps σ}
  {move : ClusterMove}

theorem pushed_recording (accepts : ∀ state e, (storage.append state e).1 = .ok ()) {rec : Recorder}
    (on : rec.config.enabled = true) (room : rec.config.maxInMemory ≠ 0) (s : RecorderState σ) (outcome : Outcome)
    (source : Option ResponseSource) (e : RecordedExchange) :
    Cluster.pushed storage rec s (.recording outcome source e) = some e := by
  have accepted : (rec.record storage s e).1 = .ok () := by
    simp only [Recorder.record, on, Bool.true_eq_false, if_false]
    cases rec.medium e with
    | none => rfl
    | some m => simp [accepts]
  obtain ⟨cap, isCap⟩ := Nat.exists_eq_succ_of_ne_zero room
  simp only [Cluster.pushed, on, isCap, accepted]

theorem pushesOf_snoc_other {u v : String} {i j : Nat} (apart : (v, j) ≠ (u, i)) (entries : Option RecordedExchange)
    (more : c'.pushes = c.pushes ++ (entries.map fun e => ((u, i), e)).toList) : c'.pushesOf v j = c.pushesOf v j := by
  cases entries with
  | none => simp [pushesOf, more]
  | some e => simp [pushesOf, more, Ne.symm apart]

theorem pushesOf_snoc_self {u : String} {i : Nat} (entries : Option RecordedExchange)
    (more : c'.pushes = c.pushes ++ (entries.map fun e => ((u, i), e)).toList) :
    c'.pushesOf u i = c.pushesOf u i ++ entries.toList := by
  cases entries with
  | none => simp [pushesOf, more]
  | some e => simp [pushesOf, more]

/-- A step that takes one request from its phase to `p` and pushes `entries`. -/
theorem Booked.update (booked : Booked reg arrivals c) {u : String} {i : Nat} {p : RequestPhase}
    (entries : Option RecordedExchange) (phase : c'.phase = (c.setPhase u i p).phase)
    (more : c'.pushes = c.pushes ++ (entries.map fun e => ((u, i), e)).toList)
    (pending : ∀ outcome source e, p = .handling (.recording outcome source e) → ∀ rt, reg.get u = some rt →
      offered deps rt (arrivals u i).stamp (arrivals u i).original outcome source = some e)
    (registered : ∀ outcome source, p = .handling (.done outcome source) → (reg.get u).isSome)
    (balance : expected deps reg u (arrivals u i) (c.phase u i) ++ entries.toList =
      expected deps reg u (arrivals u i) p) : Booked reg arrivals c' := by
  have here : c'.phase u i = p := by rw [phase, setPhase_self]
  have elsewhere : ∀ {v j}, (v, j) ≠ (u, i) → c'.phase v j = c.phase v j := by
    intro v j apart
    rw [phase, setPhase_other c apart]
  refine ⟨fun v j outcome source e at_ => ?_, fun v j outcome source at_ => ?_, fun v j => ?_⟩
  · by_cases mine : (v, j) = (u, i)
    · cases mine
      exact pending outcome source e (here ▸ at_)
    · exact booked.pending v j outcome source e (elsewhere mine ▸ at_)
  · by_cases mine : (v, j) = (u, i)
    · cases mine
      exact registered outcome source (here ▸ at_)
    · exact booked.registered v j outcome source (elsewhere mine ▸ at_)
  · by_cases mine : (v, j) = (u, i)
    · cases mine
      rw [pushesOf_snoc_self entries more, booked.pushed, balance, here]
    · rw [pushesOf_snoc_other mine entries more, booked.pushed, elsewhere mine]

theorem expected_of_not_done {u : String} {a : Arrival} {p : Phase} (open_ : ∀ outcome source, p ≠ .done outcome source) :
    expected deps reg u a (.handling p) = [] := by
  cases p with
  | done outcome source => exact (open_ outcome source rfl).elim
  | _ => rfl

theorem Booked.handle (booked : Booked reg arrivals c) (accepts : ∀ state e, (storage.append state e).1 = .ok ())
    (on : reg.recorder.config.enabled = true) (room : reg.recorder.config.maxInMemory ≠ 0) {u : String} {i : Nat}
    {p : Phase} {rt : UpstreamRuntime} (found : reg.get u = some rt) (at_ : c.phase u i = .handling p) :
    Booked reg arrivals (c.handle storage rt (arrivals u i) u i p) := by
  have recorder := (UpstreamRegistry.get_eq_some found).2
  refine booked.update (Cluster.pushed storage rt.recorder c.recorder p) rfl rfl ?_ (by simp [found]) ?_
  · intro outcome source e next rt' found'
    cases found.symm.trans found'
    exact (advance_eq_recording storage rt (arrivals u i) (c.shared u) (RequestPhase.handling.inj next)).2
  · rw [at_]
    cases p with
    | recording outcome source e =>
      rw [pushed_recording accepts (recorder ▸ on) (recorder ▸ room)]
      have offer := booked.pending u i outcome source e at_ rt found
      simp [expected, advance, found, offer]
    | done outcome source => simp [Cluster.pushed, advance]
    | ended outcome source =>
      simp only [Cluster.pushed, advance]
      split
      · rename_i nothing
        simp [expected, found, nothing]
      · rfl
    | _ =>
      refine (expected_of_not_done fun outcome source next => ?_).symm
      rcases advance_eq_done next with same | ⟨_, same⟩ | ⟨same, _⟩ <;> cases same

theorem Booked.step (booked : Booked reg arrivals c) (accepts : ∀ state e, (storage.append state e).1 = .ok ())
    (on : reg.recorder.config.enabled = true) (room : reg.recorder.config.maxInMemory ≠ 0)
    (next : Stepped storage reg arrivals c move c') : Booked reg arrivals c' := by
  cases next with
  | unknown missing => exact booked
  | gate at_ =>
    refine booked.update none rfl (by simp [setPhase]) (by simp) (by simp) ?_
    rw [at_]
    rfl
  | enter at_ =>
    refine booked.update none rfl (by simp [setPhase]) (by simp) (by simp) ?_
    rw [at_]
    rfl
  | handle found at_ => exact booked.handle accepts on room found at_
  | command => exact ⟨booked.pending, booked.registered, booked.pushed⟩

variable (storage) in
/-- The ring takes up what a step pushes, and changes by nothing else. -/
theorem handle_buffer (c : Cluster deps σ) (rt : UpstreamRuntime) (a : Arrival) (u : String) (i : Nat) (p : Phase) :
    (c.handle storage rt a u i p).recorder.buffer = c.recorder.buffer ∧
        Cluster.pushed storage rt.recorder c.recorder p = none ∨
      ∃ e, Cluster.pushed storage rt.recorder c.recorder p = some e ∧ rt.recorder.config.maxInMemory ≠ 0 ∧
        (c.handle storage rt a u i p).recorder.buffer =
          pushRing rt.recorder.config.maxInMemory c.recorder.buffer e := by
  have recorder : (c.handle storage rt a u i p).recorder = _ := advance_recorder storage rt a (c.shared u) p
  rw [recorder]
  cases p with
  | recording outcome source e =>
    have shared : (c.shared u).recorder = c.recorder := rfl
    simp only [Cluster.pushed, shared]
    cases on : rt.recorder.config.enabled with
    | false => exact Or.inl ⟨by simp [Recorder.record, on], rfl⟩
    | true =>
      rw [Recorder.record_buffer_eq storage on]
      cases (rt.recorder.record storage c.recorder e).1 with
      | error err => exact Or.inl ⟨rfl, by cases rt.recorder.config.maxInMemory <;> rfl⟩
      | ok done =>
        cases cap : rt.recorder.config.maxInMemory with
        | zero => exact Or.inl ⟨by simp [pushRing], rfl⟩
        | succ more => exact Or.inr ⟨e, rfl, by simp, rfl⟩
  | _ => exact Or.inl ⟨rfl, rfl⟩

theorem suffix_step {ring : List RecordedExchange} (kept : c.recorder.buffer <:+ ring ++ c.pushes.map Prod.snd)
    (next : Stepped storage reg arrivals c move c') : c'.recorder.buffer <:+ ring ++ c'.pushes.map Prod.snd := by
  cases next with
  | unknown missing => exact kept
  | gate at_ => exact kept
  | enter at_ => exact kept
  | @handle u i p rt found at_ =>
    have pushes : (c.handle storage rt (arrivals u i) u i p).pushes = c.pushes ++ _ := rfl
    rw [pushes]
    rcases handle_buffer storage c rt (arrivals u i) u i p with ⟨same, nothing⟩ | ⟨e, pushed, room, buffer⟩
    · rw [same, nothing]
      simpa using kept
    · rw [buffer, pushed]
      refine (pushRing_suffix room _ _).trans ?_
      obtain ⟨dropped, whole⟩ := kept
      exact ⟨dropped, by simp [← List.append_assoc, whole]⟩
  | @command cmd =>
    rcases dispatch_buffer reg (c := c.toClusterState) cmd with same | emptied
    · simpa [same] using kept
    · simp [emptied]

end Steps

/-- The request has got its answer. -/
def Completed (c : Cluster deps σ) (u : String) (i : Nat) : Prop :=
  ∃ outcome source, c.phase u i = .handling (.done outcome source)

/-- Its chain returned a response that carries the `Snapshot` marker. -/
def SnapshotServed (c : Cluster deps σ) (u : String) (i : Nat) : Prop :=
  ∃ resp, c.phase u i = .handling (.done (.ok resp) (some .snapshot))

section Counting
variable {storage : SnapshotStorage σ} {reg : UpstreamRegistry} {arrivals : String → Nat → Arrival} {c : Cluster deps σ}

theorem finite_step {c' : Cluster deps σ} {move : ClusterMove} {u : String}
    (finite : {i | c.phase u i ≠ .gated .outside}.Finite) (next : Stepped storage reg arrivals c move c') :
    {i | c'.phase u i ≠ .gated .outside}.Finite := by
  have grows : ∀ {v j p}, c'.phase = (c.setPhase v j p).phase → {i | c'.phase u i ≠ .gated .outside}.Finite := by
    intro v j p same
    refine (finite.insert j).subset fun i started => ?_
    by_cases mine : (u, i) = (v, j)
    · cases mine
      exact Set.mem_insert ..
    · refine Set.mem_insert_of_mem _ ?_
      rwa [Set.mem_ofPred_eq, same, setPhase_other c mine] at started
  cases next with
  | unknown missing => exact finite
  | gate at_ => exact grows rfl
  | enter at_ => exact grows rfl
  | handle found at_ => exact grows rfl
  | command => exact finite

variable (storage reg arrivals) in
theorem finite_run (s : ClusterState deps σ) (moves : List ClusterMove) (u : String) :
    {i | (run storage reg arrivals s moves).phase u i ≠ .gated .outside}.Finite := by
  refine Execution.exec_invariant (step storage reg arrivals)
    (I := fun c => {i | c.phase u i ≠ .gated .outside}.Finite)
    (fun c move finite => finite_step finite (stepped storage reg arrivals c move)) ?_ moves
  simp [start]

/-- The numbers of the requests whose exchanges were pushed for an upstream. -/
def pushers (c : Cluster deps σ) (u : String) : List Nat :=
  (c.pushes.filter fun entry => entry.1.1 = u).map fun entry => entry.1.2

theorem count_pushers (u : String) (i : Nat) : (c.pushers u).count i = (c.pushesOf u i).length := by
  rw [pushers, pushesOf, List.length_map, List.count, List.countP_map, List.countP_filter, List.countP_eq_length_filter]
  congr 2
  funext entry
  obtain ⟨⟨v, j⟩, e⟩ := entry
  by_cases first : v = u <;> by_cases second : j = i <;> simp [first, second]

theorem Booked.pushesOf_open (booked : Booked reg arrivals c) {u : String} {i : Nat} (unfinished : ¬ c.Completed u i) :
    c.pushesOf u i = [] := by
  rw [booked.pushed]
  cases phase : c.phase u i with
  | gated g => rfl
  | handling p => exact expected_of_not_done fun outcome source same => unfinished ⟨outcome, source, same ▸ phase⟩

theorem Booked.pushesOf_done (booked : Booked reg arrivals c) {u : String} {i : Nat} {rt : UpstreamRuntime}
    {outcome : Outcome} {source : Option ResponseSource} (found : reg.get u = some rt)
    (at_ : c.phase u i = .handling (.done outcome source)) :
    c.pushesOf u i = (offered deps rt (arrivals u i).stamp (arrivals u i).original outcome source).toList := by
  rw [booked.pushed, at_, expected, found]

theorem Booked.length_pushesOf (booked : Booked reg arrivals c) (on : reg.recorder.config.enabled = true) (u : String)
    (i : Nat) : (c.pushesOf u i).length ≤ 1 ∧
      (0 < (c.pushesOf u i).length ↔ c.Completed u i ∧ ¬ c.SnapshotServed u i) := by
  by_cases finished : c.Completed u i
  · obtain ⟨outcome, source, at_⟩ := finished
    obtain ⟨rt, found⟩ := Option.isSome_iff_exists.mp (booked.registered u i outcome source at_)
    have enabled : rt.recorder.config.enabled = true := by rw [(UpstreamRegistry.get_eq_some found).2, on]
    have served : c.SnapshotServed u i ↔
        offered deps rt (arrivals u i).stamp (arrivals u i).original outcome source = none := by
      rw [offered_eq_none_iff, SnapshotServed, at_]
      simp [enabled]
    rw [booked.pushesOf_done found at_, served]
    cases offered deps rt (arrivals u i).stamp (arrivals u i).original outcome source with
    | none => simp
    | some e => simpa using ⟨outcome, source, at_⟩
  · simp [booked.pushesOf_open finished, finished]

theorem Booked.length_pushes (booked : Booked reg arrivals c) (on : reg.recorder.config.enabled = true) (u : String)
    (finite : {i | c.Completed u i}.Finite) :
    (c.pushes.filter fun entry => entry.1.1 = u).length + {i | c.SnapshotServed u i}.ncard =
      {i | c.Completed u i}.ncard := by
  have nodup : (c.pushers u).Nodup := by
    rw [List.nodup_iff_count_le_one]
    intro i
    rw [count_pushers]
    exact (booked.length_pushesOf on u i).1
  have members : {i | c.Completed u i ∧ ¬ c.SnapshotServed u i} = ↑(c.pushers u).toFinset := by
    ext i
    rw [Set.mem_ofPred_eq, Finset.mem_coe, List.mem_toFinset, ← List.count_pos_iff, count_pushers]
    exact (booked.length_pushesOf on u i).2.symm
  have recorded : {i | c.Completed u i ∧ ¬ c.SnapshotServed u i}.ncard = (c.pushers u).length := by
    rw [members, Set.ncard_coe_finset, List.toFinset_card_of_nodup nodup]
  have served : {i | c.SnapshotServed u i} ⊆ {i | c.Completed u i} := fun i ⟨resp, at_⟩ => ⟨_, _, at_⟩
  have parts : {i | c.Completed u i} \ {i | c.SnapshotServed u i} = {i | c.Completed u i ∧ ¬ c.SnapshotServed u i} := rfl
  rw [← Set.ncard_sdiff_add_ncard_of_subset served finite, parts, recorded, pushers, List.length_map]

end Counting

/-- What the recorder has to show for a completed request: nothing if the snapshot
served it, else one exchange, with the name of its upstream, its redacted original
and the redacted response, or the error that the client was told of. -/
def AccountedFor (deps : Deps) (rt : UpstreamRuntime) (a : Arrival) (outcome : Outcome) (source : Option ResponseSource)
    (mine : List RecordedExchange) : Prop :=
  match outcome with
  | .ok resp =>
    if source = some .snapshot then mine = []
    else ∃ e, mine = [e] ∧ e.upstream = some rt.name ∧
      e.request = .fromParts deps (redactRequest rt.middleware a.original) ∧
      e.outcome = .response (.fromParts (redactResponse rt.middleware resp))
  | .error err => ∃ e, mine = [e] ∧ e.upstream = some rt.name ∧
      e.request = .fromParts deps (redactRequest rt.middleware a.original) ∧ e.outcome = .error err.toText

/-- Redaction makes the same of the request as if it had come over HTTP/1.1. -/
def VersionBlind (deps : Deps) (rt : UpstreamRuntime) (a : Arrival) : Prop :=
  RecordedRequest.fromParts deps (redactRequest rt.middleware { a.original with version := .http11 }) =
    .fromParts deps (redactRequest rt.middleware a.original)

theorem accountedFor_iff {rt : UpstreamRuntime} (on : rt.recorder.config.enabled = true) (a : Arrival) (outcome : Outcome)
    (source : Option ResponseSource) :
    AccountedFor deps rt a outcome source (offered deps rt a.stamp a.original outcome source).toList ↔
      ∀ err, outcome = .error err → VersionBlind deps rt a := by
  cases outcome with
  | ok resp =>
    by_cases served : source = some .snapshot
    · simp [AccountedFor, offered, served]
    · simp [AccountedFor, offered, served, on, successExchange, RecordedExchange.new]
  | error err =>
    simp [AccountedFor, offered, on, errorExchange, RecordedExchange.new, VersionBlind]

section Runs
variable (storage : SnapshotStorage σ) (reg : UpstreamRegistry) (arrivals : String → Nat → Arrival)
  (s : ClusterState deps σ) (moves : List ClusterMove)

/-- With recording on, room in the ring and media that accept everything, in any
interleaving of requests and commands on all upstreams: every completed request is
accounted for exactly when the hooks do not tell the version of the failed ones
from HTTP/1.1. In any case each completed request pushes one exchange, or none if
it was served from the snapshot, an unfinished one none, and the ring holds the
last of what was pushed. -/
theorem one_exchange_per_request (accepts : ∀ state e, (storage.append state e).1 = .ok ())
    (on : reg.recorder.config.enabled = true) (room : reg.recorder.config.maxInMemory ≠ 0) :
    let c := run storage reg arrivals s moves
    ((∀ u i rt outcome source, reg.get u = some rt → c.phase u i = .handling (.done outcome source) →
        AccountedFor deps rt (arrivals u i) outcome source (c.pushesOf u i)) ↔
      ∀ u i rt err source, reg.get u = some rt → c.phase u i = .handling (.done (.error err) source) →
        VersionBlind deps rt (arrivals u i)) ∧
    (∀ u i, ¬ c.Completed u i → c.pushesOf u i = []) ∧
    (∀ u, (c.pushes.filter fun entry => entry.1.1 = u).length + {i | c.SnapshotServed u i}.ncard =
      {i | c.Completed u i}.ncard) ∧
    c.recorder.buffer <:+ s.recorder.buffer ++ c.pushes.map Prod.snd := by
  intro c
  have booked : Booked reg arrivals c :=
    Execution.exec_invariant (step storage reg arrivals) (I := Booked reg arrivals)
      (fun c move booked => booked.step accepts on room (stepped storage reg arrivals c move))
      ⟨by simp [start], by simp [start], fun _ _ => rfl⟩ moves
  have enabled : ∀ {u rt}, reg.get u = some rt → rt.recorder.config.enabled = true := by
    intro u rt found
    rw [(UpstreamRegistry.get_eq_some found).2, on]
  refine ⟨⟨fun all u i rt err source found at_ => ?_, fun blind u i rt outcome source found at_ => ?_⟩,
    fun u i unfinished => booked.pushesOf_open unfinished, fun u => booked.length_pushes on u ?_, ?_⟩
  · have accounted := all u i rt _ source found at_
    rw [booked.pushesOf_done found at_, accountedFor_iff (enabled found)] at accounted
    exact accounted err rfl
  · rw [booked.pushesOf_done found at_, accountedFor_iff (enabled found)]
    rintro err rfl
    exact blind u i rt err source found at_
  · refine (finite_run storage reg arrivals s moves u).subset ?_
    rintro i ⟨outcome, source, at_⟩
    simp [show (run storage reg arrivals s moves).phase u i = _ from at_]
  · refine Execution.exec_invariant (step storage reg arrivals)
      (I := fun c => c.recorder.buffer <:+ s.recorder.buffer ++ c.pushes.map Prod.snd)
      (fun c move kept => suffix_step kept (stepped storage reg arrivals c move)) ?_ moves
    simp [start]

end Runs

def referenceRegistry (chain : List ProxyMiddleware) : UpstreamRegistry where
  recorder := (referenceRuntime chain .record).recorder
  upstreams := [referenceRuntime chain .record]
  distinct := by simp
  shared := by simp

/-- Fails every request, and removes the body of an HTTP/2 request from its record. -/
def failing : ProxyMiddleware where
  handle _ ctx := .ret (.error (.middleware "down")) ctx
  redactRequestForSnapshot req := if req.version = .http2 then { req with body := [] } else req
  redactResponseForSnapshot := id

def posted (version : Version) : Arrival where
  inbound := ⟨"POST", referencePath, .empty, version, .ok [1]⟩
  contextId := "1"
  net := answering []
  stamp := referenceStamp

theorem one_exchange_per_request_http11 :
    let c := run inMemoryStorage (referenceRegistry [failing]) (fun _ _ => posted .http11)
      (emptyState referenceDeps fun _ => []) (List.replicate 5 (.request "api" 0))
    ∃ err source, c.phase "api" 0 = .handling (.done (.error err) source) ∧
      AccountedFor referenceDeps (referenceRuntime [failing] .record) (posted .http11) (.error err) source
        (c.pushesOf "api" 0) := by
  intro c
  have holds := (one_exchange_per_request inMemoryStorage (referenceRegistry [failing]) (fun _ _ => posted .http11)
    (emptyState referenceDeps fun _ => []) (List.replicate 5 (.request "api" 0)) (fun _ _ => rfl) rfl (by decide)).1.mpr
    fun _ _ _ _ _ _ _ => rfl
  exact ⟨_, _, rfl, holds "api" 0 _ _ _ rfl rfl⟩

/-- The hook that removes the body is shown an HTTP/1.1 request, and the body stays
on record. -/
theorem failed_http2_request_keeps_body :
    let reg := referenceRegistry [failing]
    let c := run inMemoryStorage reg (fun _ _ => posted .http2) (emptyState referenceDeps fun _ => [])
      (List.replicate 5 (.request "api" 0))
    reg.recorder.config.enabled = true ∧ reg.recorder.config.maxInMemory ≠ 0 ∧
      ∃ err source, c.phase "api" 0 = .handling (.done (.error err) source) ∧
        ¬ AccountedFor referenceDeps (referenceRuntime [failing] .record) (posted .http2) (.error err) source
          (c.pushesOf "api" 0) := by
  intro reg c
  refine ⟨rfl, by decide, _, _, rfl, ?_⟩
  rintro ⟨e, isMine, _, isRedacted, _⟩
  have kept : e.request.body = [1] := by
    cases isMine
    rfl
  rw [isRedacted] at kept
  exact absurd kept (by decide)

end Cluster

end PartlyProxy
