import PartlyProxy.Concurrent

namespace PartlyProxy
variable {deps : Deps} {σ : Type}

/-- What a `Mode::Replay` upstream without stubs makes of a request: a function of
the request, the loaded snapshot, the chain and the miss handler. -/
def replayAnswer (chain : List ProxyMiddleware) (missHandler : ProxyRequest → ProxyResponse)
    (source : ReplaySource deps) (inbound : Inbound) (contextId : String) : Outcome × Option ResponseSource :=
  match inbound.body with
  | .error text => (.error (bodyReadError text), none)
  | .ok body =>
    match descend chain (inbound.original body) (.new contextId) with
    | .ret outcome ctx => (outcome, ctx.responseSource)
    | .next req ctx resume =>
      let ended :=
        match source.lookup req chain with
        | some resp => resume (.ok resp) (ctx.stamp .snapshot)
        | none => resume (.ok (missHandler req)) (ctx.stamp .replayMiss)
      (ended.1, ended.2.responseSource)

section Handlers
variable (storage : SnapshotStorage σ) (rt : UpstreamRuntime) (source : ReplaySource deps)

def Arrival.replayed (a : Arrival) : Outcome × Option ResponseSource :=
  replayAnswer rt.middleware rt.replayMissHandler source a.inbound a.contextId

/-- The index keeps its entries when the request is served: nothing is recorded, or
what its chain passes off as an answer of the upstream is in the snapshot already. -/
def KeepsIndex (a : Arrival) : Prop :=
  rt.recorder.config.enabled = false ∨ ∀ resp, a.replayed rt source = (.ok resp, some .upstream) →
    (source.entry (recordedKey deps (.fromParts deps (redactRequest rt.middleware a.original)))).isSome

/-- Where a handler can stand in `Mode::Replay`, with the outcome it is bound for. -/
def ReplayPhase (a : Arrival) : Phase → Prop
  | .arrived => True
  | .scanning req ctx resume | .lookingUp req ctx resume =>
    ∃ body, a.inbound.body = .ok body ∧
      descend rt.middleware (a.inbound.original body) (.new a.contextId) = .next req ctx resume
  | .forwarding .. => False
  | .ended outcome marker | .recording outcome marker _ | .done outcome marker =>
    (outcome, marker) = a.replayed rt source

/-- The state that no handler changes. -/
structure Frozen (calls : List (ProxyRequest × Outcome)) (s : Shared deps σ) : Prop where
  noStubs : s.stubs = []
  attached : s.replay = some source
  uncalled : s.calls = calls

end Handlers

section Steps
variable {storage : SnapshotStorage σ} {rt : UpstreamRuntime} {source : ReplaySource deps} {a : Arrival}
  {s : Shared deps σ} {calls : List (ProxyRequest × Outcome)}

theorem ReplaySource.insert_of_entry {e : RecordedExchange} {k : IndexKey} (keyed : responseKey deps e = some k)
    (filed : (source.entry k).isSome) : source.insert e = source := by
  have indexed : source.index k ≠ none := by
    intro missing
    rw [(source.index_eq_none_iff k).mp missing] at filed
    cases filed
  unfold ReplaySource.insert
  split
  · rfl
  · rename_i key keyed'
    cases keyed.symm.trans keyed'
    split
    · rfl
    · rename_i free
      exact (indexed free).elim

theorem KeepsIndex.insertPromoted (keeps : KeepsIndex rt source a) (frozen : Frozen source calls s) {outcome : Outcome}
    {marker : Option ResponseSource} (bound : (outcome, marker) = a.replayed rt source) :
    Frozen source calls (insertPromoted (promoted deps rt a.stamp a.original outcome marker) s) := by
  cases promotion : promoted deps rt a.stamp a.original outcome marker with
  | none => exact frozen
  | some e =>
    have on : rt.recorder.config.enabled = true := by
      cases on : rt.recorder.config.enabled with
      | true => rfl
      | false => simp [promoted, on] at promotion
    have fromUpstream : marker = some .upstream := by
      by_contra other
      simp [promoted, other] at promotion
    subst fromUpstream
    cases outcome with
    | error err => simp [promoted] at promotion
    | ok resp =>
      have isSuccess : successExchange deps rt a.stamp a.original resp = e := by
        simpa [promoted, on] using promotion
      have filed := (keeps.resolve_left (by simp [on])) resp bound.symm
      have unchanged : source.insert e = source := by
        rw [← isSuccess]
        exact ReplaySource.insert_of_entry rfl filed
      refine ⟨frozen.noStubs, ?_, frozen.uncalled⟩
      simp only [PartlyProxy.insertPromoted, frozen.attached, Option.map_some, unchanged]

variable (storage) in
theorem advance_frozen (replay : rt.mode = .replay) (keeps : KeepsIndex rt source a) (frozen : Frozen source calls s)
    {p : Phase} (phase : ReplayPhase rt source a p) :
    ReplayPhase rt source a (advance storage rt a s p).1 ∧ Frozen source calls (advance storage rt a s p).2 := by
  cases p with
  | arrived =>
    cases read : a.inbound.body with
    | error text => simpa [advance, read, ReplayPhase, Arrival.replayed, replayAnswer] using frozen
    | ok body =>
      cases down : descend rt.middleware (a.inbound.original body) (.new a.contextId) with
      | ret outcome ctx => simpa [advance, read, down, ReplayPhase, Arrival.replayed, replayAnswer] using frozen
      | next req ctx resume => simpa [advance, read, down, ReplayPhase] using frozen
  | scanning req ctx resume =>
    simp only [advance, frozen.noStubs, StubStore.takeMatch_nil]
    exact ⟨phase, frozen⟩
  | lookingUp req ctx resume =>
    obtain ⟨body, read, down⟩ := phase
    cases found : source.lookup req rt.middleware with
    | some resp =>
      simpa [advance, frozen.attached, found, ReplayPhase, Phase.resumed, Arrival.replayed, replayAnswer, read, down]
        using frozen
    | none =>
      simpa [advance, frozen.attached, found, replay, ReplayPhase, Phase.resumed, Arrival.replayed, replayAnswer, read,
        down] using frozen
  | forwarding req ctx resume => exact phase.elim
  | ended outcome marker =>
    simp only [advance]
    split
    · exact ⟨phase, frozen⟩
    · exact ⟨phase, keeps.insertPromoted frozen phase⟩
  | recording outcome marker e => exact ⟨phase, frozen.noStubs, frozen.attached, frozen.uncalled⟩
  | done outcome marker => exact ⟨phase, frozen⟩

end Steps

/-- What every state of a replay run keeps. -/
structure ReplayRun (rt : UpstreamRuntime) (source : ReplaySource deps) (calls : List (ProxyRequest × Outcome))
    (arrivals : Nat → Arrival) (l : Live deps σ) : Prop where
  frozen : Frozen source calls l.shared
  phases : ∀ i, ReplayPhase rt source (arrivals i) (l.phase i)

theorem replayRun_race (storage : SnapshotStorage σ) {rt : UpstreamRuntime} (replay : rt.mode = .replay)
    {source : ReplaySource deps} {arrivals : Nat → Arrival} {s : Shared deps σ} (frozen : Frozen source s.calls s)
    {schedule : List Nat} (keeps : ∀ i ∈ schedule, KeepsIndex rt source (arrivals i)) :
    ReplayRun rt source s.calls arrivals (race storage rt arrivals s schedule) := by
  induction schedule using List.reverseRecOn with
  | nil => exact ⟨frozen, fun _ => trivial⟩
  | append_singleton front i ih =>
    have run := ih fun j member => keeps j (List.mem_append_left _ member)
    have step := advance_frozen storage replay (keeps i (by simp)) run.frozen (run.phases i)
    rw [race_snoc]
    refine ⟨step.2, fun j => ?_⟩
    by_cases same : j = i
    · subst same
      simpa only [liveStep, Function.update_self] using step.1
    · rw [liveStep_phase_other storage rt arrivals _ same]
      exact run.phases j

def RequestContext.withId (ctx : RequestContext) (id : String) : RequestContext := { ctx with id := id }

/-- The second call does the same in a context with the id `id`. -/
inductive Handled.Alike (id : String) : Handled → Handled → Prop
  | ret {outcome : Outcome} {ctx : RequestContext} : Alike id (.ret outcome ctx) (.ret outcome (ctx.withId id))
  | next {req : ProxyRequest} {ctx : RequestContext} {resume resume' : Resume} :
      (∀ outcome ctx, resume' outcome (ctx.withId id) = ((resume outcome ctx).1, (resume outcome ctx).2.withId id)) →
      Alike id (.next req ctx resume) (.next req (ctx.withId id) resume')

/-- The middleware acts alike whatever the id of the context. -/
def ProxyMiddleware.IdFree (mw : ProxyMiddleware) : Prop :=
  ∀ req ctx id, (mw.handle req ctx).Alike id (mw.handle req (ctx.withId id))

theorem descend_idFree {chain : List ProxyMiddleware} (idFree : ∀ mw ∈ chain, mw.IdFree) (req : ProxyRequest)
    (ctx : RequestContext) (id : String) : (descend chain req ctx).Alike id (descend chain req (ctx.withId id)) := by
  induction chain generalizing req ctx with
  | nil => exact .next fun _ _ => rfl
  | cons first rest ih =>
    have below := ih fun mw member => idFree mw (List.mem_cons_of_mem _ member)
    have here := idFree first (List.mem_cons_self ..) req ctx id
    simp only [descend]
    generalize first.handle req ctx = handled at here
    generalize first.handle req (ctx.withId id) = handled' at here
    cases here with
    | ret => exact .ret
    | @next inner within resume resume' carries =>
      have deeper := below inner within
      simp only
      generalize descend rest inner within = handled at deeper
      generalize descend rest inner (within.withId id) = handled' at deeper
      cases deeper with
      | ret =>
        simp only [carries]
        exact .ret
      | next carriesInside =>
        refine .next fun outcome ctx => ?_
        simp only [carriesInside, carries]

theorem replayAnswer_idFree {chain : List ProxyMiddleware} (idFree : ∀ mw ∈ chain, mw.IdFree)
    (missHandler : ProxyRequest → ProxyResponse) (source : ReplaySource deps) (inbound : Inbound) (id id' : String) :
    replayAnswer chain missHandler source inbound id' = replayAnswer chain missHandler source inbound id := by
  unfold replayAnswer
  cases inbound.body with
  | error text => rfl
  | ok body =>
    have alike := descend_idFree idFree (inbound.original body) (.new id) id'
    have same : (RequestContext.new id).withId id' = .new id' := rfl
    rw [same] at alike
    simp only
    generalize descend chain (inbound.original body) (.new id) = handled at alike
    generalize descend chain (inbound.original body) (.new id') = handled' at alike
    cases alike with
    | ret => rfl
    | @next req ctx resume resume' carries =>
      have stamped : ∀ marker, (ctx.withId id').stamp marker = (ctx.stamp marker).withId id' := fun _ => rfl
      simp only [stamped]
      cases source.lookup req chain <;> simp only [carries] <;> rfl

section Playback
variable (storage : SnapshotStorage σ) {rt : UpstreamRuntime} (replay : rt.mode = .replay)
  {loaded : List RecordedExchange} {s : Shared deps σ} (noStubs : s.stubs = [])
  (attached : s.replay = some (.new deps loaded)) {arrivals : Nat → Arrival} {schedule : List Nat}

include replay noStubs attached in
/-- In any interleaving of the handlers of a `Mode::Replay` upstream without stubs,
when none of the requests adds to the index: the index stays what was loaded, the
forwarder is never called, every handler comes to its end, and its outcome is
`replayAnswer`, so that identical requests get identical answers from a chain that
does not look at the context id. -/
theorem replay_deterministic (keeps : ∀ i ∈ schedule, KeepsIndex rt (.new deps loaded) (arrivals i)) :
    let l := race storage rt arrivals s schedule
    let answer := replayAnswer rt.middleware rt.replayMissHandler (.new deps loaded)
    l.shared.replay = some (.new deps loaded) ∧ l.shared.calls = s.calls ∧
      (∀ i, 6 ≤ schedule.count i → ∃ outcome marker, l.phase i = .done outcome marker) ∧
      (∀ i outcome marker, l.phase i = .done outcome marker →
        (outcome, marker) = answer (arrivals i).inbound (arrivals i).contextId) ∧
      ((∀ mw ∈ rt.middleware, mw.IdFree) → ∀ i j outcome outcome' marker marker',
        l.phase i = .done outcome marker → l.phase j = .done outcome' marker' →
        (arrivals i).inbound = (arrivals j).inbound → outcome = outcome') := by
  intro l answer
  have run : ReplayRun rt (.new deps loaded) s.calls arrivals l :=
    replayRun_race storage replay ⟨noStubs, attached, rfl⟩ keeps
  have answered : ∀ i outcome marker, l.phase i = .done outcome marker →
      (outcome, marker) = answer (arrivals i).inbound (arrivals i).contextId := by
    intro i outcome marker done
    have phase := run.phases i
    rw [done] at phase
    exact phase
  refine ⟨run.frozen.attached, run.frozen.uncalled, fun i enough => race_done storage rt arrivals s enough, answered, ?_⟩
  intro idFree i j outcome outcome' marker marker' done done' same
  have first := answered i outcome marker done
  have second := answered j outcome' marker' done'
  have anyId : answer (arrivals i).inbound (arrivals i).contextId = answer (arrivals j).inbound (arrivals j).contextId := by
    rw [← same]
    exact replayAnswer_idFree idFree ..
  exact congrArg Prod.fst (first.trans (anyId.trans second.symm))

end Playback

theorem replay_deterministic_misses :
    let rt := referenceRuntime [] .replay
    let a := referenceGet referencePath (answering [])
    let schedule := [0, 1, 1, 0, 0, 1, 0, 1, 1, 0, 0, 1]
    let l := race inMemoryStorage rt (fun _ => a) (emptyShared referenceDeps fun _ => []) schedule
    ∃ outcome marker marker', l.phase 0 = .done outcome marker ∧ l.phase 1 = .done outcome marker' ∧
      (reply outcome).body = (intoHyper (defaultReplayMissHandler a.original)).body := by
  intro rt a schedule l
  have keeps : ∀ i ∈ schedule, KeepsIndex rt (.new referenceDeps []) a := by
    intro i _
    refine Or.inr fun resp forwarded => ?_
    have missed : (a.replayed rt (.new referenceDeps [])).2 = some .replayMiss := by decide
    rw [forwarded] at missed
    cases missed
  have replay : rt.mode = .replay := rfl
  obtain ⟨_, _, finish, answered, alike⟩ := replay_deterministic inMemoryStorage replay
    (s := emptyShared referenceDeps fun _ => []) rfl rfl keeps
  obtain ⟨outcome, marker, first⟩ := finish 0 (by decide)
  obtain ⟨outcome', marker', second⟩ := finish 1 (by decide)
  have same := alike (by simp [rt, referenceRuntime]) 0 1 _ _ _ _ first second rfl
  refine ⟨outcome, marker, marker', first, same ▸ second, ?_⟩
  rw [show outcome = _ from congrArg Prod.fst (answered 0 outcome marker first)]
  rfl

/-- A middleware that tells a hit from a miss in the body and marks both as an
answer of the upstream. -/
def relabelling : ProxyMiddleware where
  handle req ctx := .next req ctx fun outcome ctx =>
    (outcome.map fun resp => resp.withBody (if ctx.responseSource = some .snapshot then [1] else [0]),
      ctx.stamp .upstream)
  redactRequestForSnapshot := id
  redactResponseForSnapshot := id

theorem race_one_then_other (storage : SnapshotStorage σ) (rt : UpstreamRuntime) (arrivals : Nat → Arrival)
    (s : Shared deps σ) :
    let first := ending rt (arrivals 0) s
    let second := ending rt (arrivals 1) (serveStep storage rt s (arrivals 0))
    let l := race storage rt arrivals s (List.replicate 6 0 ++ List.replicate 6 1)
    l.phase 0 = .done first.outcome first.source ∧ l.phase 1 = .done second.outcome second.source := by
  intro first second l
  have whole : l = interleave storage rt arrivals (race storage rt arrivals s (List.replicate 6 0))
      (List.replicate 6 (.handler 1)) := by
    simp only [l, race, List.map_append, List.map_replicate]
    exact Execution.exec_append _ _ _ _
  rw [whole, race_alone, interleave_alone storage rt arrivals (by simp)]
  exact ⟨by simp [first], by simp [second]⟩

/-- The answer to the first request is promoted into the index of the replaying
upstream, and the second, identical request is answered from it. -/
theorem replay_answers_drift :
    let rt := referenceRuntime [relabelling] .replay
    let a := referenceGet referencePath (answering [])
    let l := race inMemoryStorage rt (fun _ => a) (emptyShared referenceDeps fun _ => [])
      (List.replicate 6 0 ++ List.replicate 6 1)
    relabelling.IdFree ∧ ∃ outcome outcome' marker marker', l.phase 0 = .done outcome marker ∧
      l.phase 1 = .done outcome' marker' ∧ (reply outcome).body ≠ (reply outcome').body := by
  intro rt a l
  obtain ⟨first, second⟩ := race_one_then_other inMemoryStorage rt (fun _ => a) (emptyShared referenceDeps fun _ => [])
  exact ⟨fun _ _ _ => .next fun _ _ => rfl, _, _, _, _, first, second, by decide⟩

end PartlyProxy
