import PartlyProxy.UriForms
import PartlyProxy.StubHistory
import PartlyProxy.Determinism

namespace PartlyProxy

variable {deps : Deps} {σ : Type}

/-- A request that misses the index and is forwarded successfully in `Mode::Record`
with recording enabled. `passed` is the request as the chain hands it to the terminal. -/
structure FreshForward (rt : UpstreamRuntime) (a : Arrival) (s : Shared deps σ) where
  body : Bytes
  passed : ProxyRequest
  ctx : RequestContext
  resume : Outcome → RequestContext → Outcome × RequestContext
  source : ReplaySource deps
  resp : ProxyResponse
  mode : rt.mode = .record
  enabled : rt.recorder.config.enabled = true
  read : a.inbound.body = .ok body
  down : descend rt.middleware (a.inbound.original body) (.new a.contextId) = .next passed ctx resume
  unstubbed : StubStore.takeMatch s.stubs passed = none
  attached : s.replay = some source
  missed : source.lookup passed rt.middleware = none
  forwarded : rt.forwarder.forward deps a.net passed = .ok resp

/-- The exchange of `a` is stored under the key that `lookup` computes for every later
arrival of the same request, whatever was served in between, and the terminal answers
that arrival from the snapshot. -/
def RepeatHits (storage : SnapshotStorage σ) (rt : UpstreamRuntime) (a : Arrival) (s : Shared deps σ) : Prop :=
  ∃ e, (ending rt a s).offered rt a = some e ∧ ∀ (between : List Arrival) (again : Arrival) (body : Bytes),
    again.inbound = a.inbound → again.inbound.body = .ok body → ∃ passed ctx resume recorded,
      descend rt.middleware (again.inbound.original body) (.new again.contextId) = .next passed ctx resume ∧
      responseKey deps e = some (liveKey deps (redactRequest rt.middleware passed)) ∧ e.outcome = .response recorded ∧
      invoke rt again.net passed ctx (serve storage rt s (a :: between)) =
        ((.ok (replayed recorded), ctx.stamp .snapshot), serve storage rt s (a :: between))

namespace FreshForward
variable {rt : UpstreamRuntime} {a : Arrival} {s : Shared deps σ}

/-- What the chain makes of the upstream's response is a response, and the marker of
the forward is still on the context. -/
def Marked (first : FreshForward rt a s) : Prop :=
  ∃ resp ctx, first.resume (.ok first.resp) (first.ctx.stamp .upstream) = (.ok resp, ctx) ∧
    ctx.responseSource = some .upstream

theorem entry_eq_none (first : FreshForward rt a s) :
    first.source.entry (liveKey deps (redactRequest rt.middleware first.passed)) = none :=
  (first.source.answer_eq_none_iff _).mp first.missed

theorem ending_eq (first : FreshForward rt a s) :
    let back := first.resume (.ok first.resp) (first.ctx.stamp .upstream)
    ending rt a s = ⟨back.1, back.2.responseSource, { s with calls := s.calls ++ [(first.passed, .ok first.resp)] }⟩ := by
  have called : invoke rt a.net first.passed first.ctx s = ((.ok first.resp, first.ctx.stamp .upstream),
      { s with calls := s.calls ++ [(first.passed, .ok first.resp)] }) := by
    rcases invoke_cases rt a.net first.passed first.ctx s with
      ⟨_, _, scan, _⟩ | ⟨_, source, _, attached, hit, _⟩ | ⟨_, _, replaying, _⟩ | ⟨_, _, _, run⟩
    · simp [first.unstubbed] at scan
    · rw [first.attached] at attached
      cases attached
      simp [first.missed] at hit
    · simp [first.mode] at replaying
    · rw [run, first.forwarded]
  intro back
  simp only [ending, first.read, chainOutcome, runChain_eq_descend, first.down, called]
  rfl

theorem replay_eq (first : FreshForward rt a s) (storage : SnapshotStorage σ) :
    (serveStep storage rt s a).replay = some (match (ending rt a s).promoted rt a with
      | some e => first.source.insert e
      | none => first.source) := by
  rw [serveStep_eq, commit_replay, (ending_frame rt a s).1, first.attached]
  cases (ending rt a s).promoted rt a <;> rfl

theorem stubs_eq (first : FreshForward rt a s) (storage : SnapshotStorage σ) :
    (serveStep storage rt s a).stubs = s.stubs := by
  rw [serveStep_eq, commit_stubs, first.ending_eq]

/-- The exchange enters the index exactly if the chain keeps the response and its marker. -/
theorem promoted_eq_some_iff (first : FreshForward rt a s) {e : RecordedExchange} :
    (ending rt a s).promoted rt a = some e ↔ ∃ resp ctx,
      first.resume (.ok first.resp) (first.ctx.stamp .upstream) = (.ok resp, ctx) ∧
      ctx.responseSource = some .upstream ∧ e = successExchange deps rt a.stamp a.original resp := by
  rw [first.ending_eq]
  simp only [Ending.promoted, promoted]
  generalize first.resume (.ok first.resp) (first.ctx.stamp .upstream) = back
  obtain ⟨outcome, ctx⟩ := back
  by_cases upstream : ctx.responseSource = some .upstream
  · cases outcome with
    | error err => simp [first.enabled, upstream]
    | ok resp =>
      simp only [first.enabled, upstream, Bool.true_eq_false, ne_eq, not_true_eq_false, or_self, if_false,
        Option.some.injEq, Prod.mk.injEq, Except.ok.injEq]
      constructor
      · intro same
        exact ⟨resp, ctx, ⟨rfl, rfl⟩, upstream, same.symm⟩
      · rintro ⟨_, _, ⟨rfl, rfl⟩, _, same⟩
        exact same.symm
  · simp only [upstream, ne_eq, not_false_eq_true, or_true, if_true, reduceCtorEq, Prod.mk.injEq, false_iff]
    rintro ⟨_, _, ⟨_, rfl⟩, marked, _⟩
    exact upstream marked

end FreshForward

section Serving
variable (storage : SnapshotStorage σ) (rt : UpstreamRuntime)

theorem serveStep_unstubbed {s : Shared deps σ} {req : ProxyRequest} (free : StubStore.takeMatch s.stubs req = none)
    (a : Arrival) : StubStore.takeMatch (serveStep storage rt s a).stubs req = none := by
  rw [serveStep_eq, commit_stubs]
  rcases ending_cases rt a s with same | ⟨_, passed, ctx, _, _, _, ended⟩
  · rwa [same]
  · rw [ended]
    rcases invoke_cases rt a.net passed ctx s with
      ⟨_, _, taken, run⟩ | ⟨_, _, _, _, _, run⟩ | ⟨_, _, _, run⟩ | ⟨_, _, _, run⟩ <;> rw [run]
    · exact StubStore.takeMatch_none_after taken free
    · exact free
    · exact free
    · exact free

theorem serveStep_entry {s : Shared deps σ} {source : ReplaySource deps} (attached : s.replay = some source)
    {k : IndexKey} {e : RecordedExchange} (stored : source.entry k = some e) (a : Arrival) :
    ∃ after, (serveStep storage rt s a).replay = some after ∧ after.entry k = some e := by
  rw [serveStep_eq, commit_replay, (ending_frame rt a s).1, attached]
  cases (ending rt a s).promoted rt a with
  | none => exact ⟨source, rfl, stored⟩
  | some exchange => exact ⟨source.insert exchange, rfl, ReplaySource.entry_insert_of_some stored exchange⟩

/-- A request without a stub whose key is in the index: no traffic changes that. -/
def Cached (req : ProxyRequest) (e : RecordedExchange) (s : Shared deps σ) : Prop :=
  StubStore.takeMatch s.stubs req = none ∧ ∃ source, s.replay = some source ∧
    source.entry (liveKey deps (redactRequest rt.middleware req)) = some e

theorem serve_cached {s : Shared deps σ} {req : ProxyRequest} {e : RecordedExchange} (cached : Cached rt req e s)
    (arrivals : List Arrival) : Cached rt req e (serve storage rt s arrivals) := by
  refine Execution.exec_invariant (serveStep storage rt) ?_ cached arrivals
  rintro t a ⟨free, source, attached, stored⟩
  exact ⟨serveStep_unstubbed storage rt free a, serveStep_entry storage rt attached stored a⟩

variable {rt} in
theorem Cached.invoke_eq {s : Shared deps σ} {req : ProxyRequest} {e : RecordedExchange} (cached : Cached rt req e s)
    (net : ProxyRequest → ClientResult) (ctx : RequestContext) : ∃ recorded, e.outcome = .response recorded ∧
      invoke rt net req ctx s = ((.ok (replayed recorded), ctx.stamp .snapshot), s) := by
  obtain ⟨free, source, attached, stored⟩ := cached
  obtain ⟨recorded, isResponse, answers⟩ := ReplaySource.answer_of_entry stored
  have hit : source.lookup req rt.middleware = some (replayed recorded) := answers
  exact ⟨recorded, isResponse, by simp [invoke, free, lookupOrMiss, attached, hit]⟩

end Serving

/-- The chain leaves alone, up to redaction, what the key is made of: the method, the
body by its hash and the path and query. Where the URI is of a form whose text does not
keep the key, the chain has put in its place what that form is read back as. -/
def KeyUnmoved (deps : Deps) (original passed : ProxyRequest) : Prop :=
  passed.method = original.method ∧ deps.sha256Hex passed.body = deps.sha256Hex original.body ∧
    (original.uri.KeyKept ∧ pathAndQueryOfUri passed.uri = pathAndQueryOfUri original.uri ∨
      ¬ original.uri.KeyKept ∧ pathAndQueryOfUri passed.uri = original.uri.readBack)

theorem keyUnmoved_iff (parses : deps.ParsesUri) (original passed : ProxyRequest) :
    KeyUnmoved deps original passed ↔ recordedKey deps (.fromParts deps original) = liveKey deps passed := by
  have keys : recordedKey deps (.fromParts deps original) = liveKey deps passed ↔ original.method = passed.method ∧
      original.uri.readBack = pathAndQueryOfUri passed.uri ∧
      deps.sha256Hex original.body = deps.sha256Hex passed.body := by
    simp [recordedKey, liveKey, RecordedRequest.fromParts, pathAndQueryOfStr_readBack parses]
  rw [keys, KeyUnmoved]
  by_cases kept : original.uri.KeyKept
  · have same : original.uri.readBack = pathAndQueryOfUri original.uri := by
      rw [← pathAndQueryOfStr_readBack parses, (pathAndQueryOfStr_toText_iff parses original.uri).mpr kept]
    rw [same]
    simp only [kept, true_and, not_true_eq_false, false_and, or_false]
    grind
  · simp only [kept, false_and, not_false_eq_true, true_and, false_or]
    grind

theorem cached_of_snapshot {rt : UpstreamRuntime} {net : ProxyRequest → ClientResult} {req : ProxyRequest}
    {ctx : RequestContext} {s s' : Shared deps σ} {resp : ProxyResponse}
    (hit : invoke rt net req ctx s = ((.ok resp, ctx.stamp .snapshot), s')) : ∃ e, Cached rt req e s := by
  have marker : (invoke rt net req ctx s).1.2.responseSource = some .snapshot := by rw [hit]; rfl
  rcases invoke_cases rt net req ctx s with
    ⟨_, _, _, run⟩ | ⟨free, source, answered, attached, found, _⟩ | ⟨_, _, _, run⟩ | ⟨_, _, _, run⟩
  · rw [run] at marker
    cases marker
  · obtain ⟨e, _, stored, _, _⟩ := ReplaySource.entry_of_answer found
    exact ⟨e, free, source, attached, stored⟩
  · rw [run] at marker
    cases marker
  · rw [run] at marker
    cases marker

section Repeats
variable (storage : SnapshotStorage σ) {rt : UpstreamRuntime} {a : Arrival} {s : Shared deps σ}

/-- After the forward the index answers the request as passed on exactly with the
exchange that was promoted, if that is filed under the key of the lookup. -/
theorem FreshForward.cached_iff (first : FreshForward rt a s) {e : RecordedExchange} :
    Cached rt first.passed e (serveStep storage rt s a) ↔ (ending rt a s).promoted rt a = some e ∧
      responseKey deps e = some (liveKey deps (redactRequest rt.middleware first.passed)) := by
  simp only [Cached, first.stubs_eq storage, first.unstubbed, first.replay_eq storage, Option.some.injEq, true_and,
    exists_eq_left']
  cases (ending rt a s).promoted rt a with
  | none => simp [first.entry_eq_none]
  | some exchange =>
    simp only [ReplaySource.entry_insert, first.entry_eq_none, Option.none_or, KeyedLog.first_singleton,
      Option.some.injEq]
    constructor
    · intro found
      split at found
      · rename_i keyed
        cases found
        exact ⟨rfl, keyed⟩
      · cases found
    · rintro ⟨rfl, keyed⟩
      rw [if_pos keyed]

theorem FreshForward.descend_again (first : FreshForward rt a s) (idFree : ∀ mw ∈ rt.middleware, mw.IdFree) (id : String) :
    ∃ resume, descend rt.middleware (a.inbound.original first.body) (.new id) =
      .next first.passed (first.ctx.withId id) resume := by
  have alike := descend_idFree idFree (a.inbound.original first.body) (.new a.contextId) id
  have same : (RequestContext.new a.contextId).withId id = .new id := rfl
  rw [same, first.down] at alike
  generalize descend rt.middleware (a.inbound.original first.body) (.new id) = handled at alike ⊢
  cases alike with
  | @next _ _ _ resume _ => exact ⟨resume, rfl⟩

/-- The record key is the lookup key, and the repeated request a snapshot hit, exactly
if the chain keeps the response and the marker of the forward on the way back and on
the way down moves nothing that the key of the redacted request is made of. -/
theorem repeat_hits_iff (parses : deps.ParsesUri) (idFree : ∀ mw ∈ rt.middleware, mw.IdFree)
    (first : FreshForward rt a s) :
    RepeatHits storage rt a s ↔ first.Marked ∧
      KeyUnmoved deps (redactRequest rt.middleware a.original) (redactRequest rt.middleware first.passed) := by
  rw [keyUnmoved_iff parses]
  constructor
  · rintro ⟨_, _, all⟩
    obtain ⟨passed, ctx, resume, recorded, down, _, _, hit⟩ := all [] a first.body rfl first.read
    rw [first.down] at down
    cases down
    obtain ⟨e, cached⟩ := cached_of_snapshot hit
    obtain ⟨promotion, keyed⟩ := (first.cached_iff storage).mp cached
    obtain ⟨resp, ctx, back, marked, rfl⟩ := first.promoted_eq_some_iff.mp promotion
    rw [responseKey_successExchange] at keyed
    exact ⟨⟨resp, ctx, back, marked⟩, Option.some.inj keyed⟩
  · rintro ⟨⟨resp, ctx, back, marked⟩, sameKey⟩
    have promotion := first.promoted_eq_some_iff.mpr ⟨resp, ctx, back, marked, rfl⟩
    have keyed : responseKey deps (successExchange deps rt a.stamp a.original resp) =
        some (liveKey deps (redactRequest rt.middleware first.passed)) := by
      rw [responseKey_successExchange, sameKey]
    refine ⟨_, (promoted_offered promotion).1, fun between again body sameInbound readAgain => ?_⟩
    have sameBody : body = first.body := by
      rw [sameInbound, first.read] at readAgain
      exact (Except.ok.inj readAgain).symm
    obtain ⟨resume, down⟩ := first.descend_again idFree again.contextId
    have cached := serve_cached storage rt ((first.cached_iff storage).mpr ⟨promotion, keyed⟩) between
    obtain ⟨recorded, isResponse, hit⟩ := cached.invoke_eq again.net (first.ctx.withId again.contextId)
    exact ⟨first.passed, first.ctx.withId again.contextId, resume, recorded, by rw [sameInbound, sameBody, down], keyed,
      isResponse, hit⟩

end Repeats

/-- A middleware that tags the live request with a header. -/
def tagging : ProxyMiddleware where
  handle req ctx := .next { req with headers := req.headers.insert "x-tag" [49] } ctx Prod.mk
  redactRequestForSnapshot := id
  redactResponseForSnapshot := id

theorem repeat_hits_iff_tagged :
    RepeatHits inMemoryStorage (referenceRuntime [tagging] .record) (referenceGet referencePath (answering [1]))
      (emptyShared referenceDeps fun _ => []) := by
  have idFree : ∀ mw ∈ (referenceRuntime [tagging] .record).middleware, mw.IdFree := by
    intro mw member req ctx id
    cases List.mem_singleton.mp member
    exact .next fun _ _ => rfl
  let first : FreshForward (referenceRuntime [tagging] .record) (referenceGet referencePath (answering [1]))
      (emptyShared referenceDeps fun _ => ([] : List RecordedExchange)) :=
    { body := []
      passed := ⟨"GET", referencePath, ⟨[("x-tag", [49])]⟩, [], .http11⟩
      ctx := .new "1"
      resume := Prod.mk
      source := .new referenceDeps []
      resp := (ProxyResponse.new .ok).withBody [1]
      mode := rfl
      enabled := rfl
      read := rfl
      down := rfl
      unstubbed := rfl
      attached := rfl
      missed := rfl
      forwarded := forward_answering [tagging] .record [1] _ }
  refine (repeat_hits_iff inMemoryStorage referenceDeps_parsesUri idFree first).mpr ⟨⟨_, _, rfl, rfl⟩, rfl, rfl, ?_⟩
  exact Or.inl ⟨Or.inl ⟨Or.inr (Or.inl (by decide)), by decide⟩, rfl⟩

/-- A middleware that sends every request to `/moved`. -/
def rewriting : ProxyMiddleware where
  handle req ctx := .next { req with uri := .ofData "/moved" (by decide) } ctx Prod.mk
  redactRequestForSnapshot := id
  redactResponseForSnapshot := id

/-- The exchange of `GET /a` is stored under `/a` and looked up under `/moved`, so
the repeated request is forwarded again. -/
theorem rewritten_request_missed :
    let rt := referenceRuntime [rewriting] .record
    let s : Shared referenceDeps (List RecordedExchange) := emptyShared referenceDeps fun _ => []
    let a := referenceGet referencePath (answering [1])
    rewriting.IdFree ∧ Nonempty (FreshForward rt a s) ∧ ¬ RepeatHits inMemoryStorage rt a s ∧
      (serve inMemoryStorage rt s [a, a]).calls.map (fun call => call.1.uri.toText) = ["/moved", "/moved"] := by
  intro rt s a
  refine ⟨fun _ _ _ => .next fun _ _ => rfl, ?_, ?_, by decide +kernel⟩
  · exact ⟨[], ⟨"GET", .ofData "/moved" (by decide), .empty, [], .http11⟩, .new "1", Prod.mk, .new referenceDeps [],
      (ProxyResponse.new .ok).withBody [1], rfl, rfl, rfl, rfl, rfl, rfl, rfl, forward_answering [rewriting] .record [1] _⟩
  · rintro ⟨e, offer, all⟩
    obtain ⟨passed, _, _, _, down, keyed, _⟩ := all [] a [] rfl rfl
    cases down
    have filed : ((ending rt a s).offered rt a).bind (responseKey referenceDeps) =
        some ("GET", "/a", referenceSha256Hex []) := by decide +kernel
    rw [offer, Option.bind_some, keyed] at filed
    exact absurd filed (by decide)

end PartlyProxy
