import PartlyProxy.Sequential
import PartlyProxy.Reference

namespace PartlyProxy
variable {deps : Deps} {σ : Type}

def ProxyMiddleware.NoRedaction (mw : ProxyMiddleware) : Prop :=
  (∀ req, mw.redactRequestForSnapshot req = req) ∧ ∀ resp, mw.redactResponseForSnapshot resp = resp

theorem redactRequest_noRedaction {chain : List ProxyMiddleware} (plain : ∀ mw ∈ chain, mw.NoRedaction)
    (req : ProxyRequest) : redactRequest chain req = req := by
  induction chain with
  | nil => rfl
  | cons first rest ih =>
    rw [redactRequest, List.foldl_cons, (plain first (List.mem_cons_self ..)).1]
    exact ih fun mw member => plain mw (List.mem_cons_of_mem _ member)

theorem redactResponse_noRedaction {chain : List ProxyMiddleware} (plain : ∀ mw ∈ chain, mw.NoRedaction)
    (resp : ProxyResponse) : redactResponse chain resp = resp := by
  induction chain with
  | nil => rfl
  | cons first rest ih =>
    rw [redactResponse, List.foldl_cons, (plain first (List.mem_cons_self ..)).2]
    exact ih fun mw member => plain mw (List.mem_cons_of_mem _ member)

def content (outcome : Outcome) : StatusCode × Bytes := ((reply outcome).status, (reply outcome).body)

def replies (storage : SnapshotStorage σ) (rt : UpstreamRuntime) : Shared deps σ → List Arrival → List ProxyResponse
  | _, [] => []
  | s, a :: rest => (handleRequest storage rt a s).1 :: replies storage rt (handleRequest storage rt a s).2 rest

def received (storage : SnapshotStorage σ) (rt : UpstreamRuntime) (s : Shared deps σ) (arrivals : List Arrival) :
    List (StatusCode × Bytes) := (replies storage rt s arrivals).map fun resp => (resp.status, resp.body)

def UpstreamRuntime.detached (rt : UpstreamRuntime) : UpstreamRuntime :=
  { rt with recorder := { rt.recorder with routes := Function.update rt.recorder.routes rt.name none } }

/-- What the chain makes of a request when nothing is replayed. -/
def directOutcome (deps : Deps) (rt : UpstreamRuntime) (a : Arrival) : Outcome :=
  match a.inbound.body with
  | .error source => .error (bodyReadError source)
  | .ok body =>
    match descend rt.middleware (a.inbound.original body) (.new a.contextId) with
    | .ret outcome _ => outcome
    | .next req ctx resume => (resume (rt.forwarder.forward deps a.net req) (ctx.stamp .upstream)).1

def filedKey (deps : Deps) (req : ProxyRequest) : IndexKey := recordedKey deps (.fromParts deps req)

/-- What a run against the upstream `net` can put into the live index: the
response that the chain returned with the `Upstream` marker, whether the request
was forwarded, or the chain set the marker itself on a response of its own or on
a replayed one. -/
inductive Promotes (deps : Deps) (rt : UpstreamRuntime) (net : ProxyRequest → ClientResult) :
    ProxyRequest → ProxyResponse → Prop where
  | shortCircuit {req : ProxyRequest} {id : String} {resp : ProxyResponse} {ctx : RequestContext}
      (down : descend rt.middleware req (.new id) = .ret (.ok resp) ctx)
      (marked : ctx.responseSource = some .upstream) : Promotes deps rt net req resp
  | forwarded {req inner : ProxyRequest} {id : String} {resp : ProxyResponse} {ctx ctx' : RequestContext}
      {resume : Outcome → RequestContext → Outcome × RequestContext}
      (down : descend rt.middleware req (.new id) = .next inner ctx resume)
      (up : resume (rt.forwarder.forward deps net inner) (ctx.stamp .upstream) = (.ok resp, ctx'))
      (marked : ctx'.responseSource = some .upstream) : Promotes deps rt net req resp
  | replayed {req inner earlier : ProxyRequest} {id : String} {resp stored : ProxyResponse} {ctx ctx' : RequestContext}
      {resume : Outcome → RequestContext → Outcome × RequestContext}
      (down : descend rt.middleware req (.new id) = .next inner ctx resume)
      (before : Promotes deps rt net earlier stored) (hit : liveKey deps inner = filedKey deps earlier)
      (up : resume (.ok (replayed (.fromParts stored))) (ctx.stamp .snapshot) = (.ok resp, ctx'))
      (marked : ctx'.responseSource = some .upstream) : Promotes deps rt net req resp

/-- Whatever the index can hold under the key of a request that reaches the
terminal, the chain makes the same status and body of its replay as of the
upstream's own answer to that request. -/
def Coherent (deps : Deps) (rt : UpstreamRuntime) (net : ProxyRequest → ClientResult) : Prop :=
  ∀ earlier stored, Promotes deps rt net earlier stored → ∀ req id inner ctx resume,
    descend rt.middleware req (.new id) = .next inner ctx resume → liveKey deps inner = filedKey deps earlier →
    content (resume (.ok (replayed (.fromParts stored))) (ctx.stamp .snapshot)).1 =
      content (resume (rt.forwarder.forward deps net inner) (ctx.stamp .upstream)).1

/-- A state whose index holds only what a run against `net` puts there. -/
structure CacheSound (rt : UpstreamRuntime) (net : ProxyRequest → ClientResult) (s : Shared deps σ) : Prop where
  noStubs : s.stubs = []
  index : ∀ source k e, s.replay = some source → source.entry k = some e →
    ∃ earlier stored, Promotes deps rt net earlier stored ∧ filedKey deps earlier = k ∧
      e.outcome = .response (.fromParts stored)

theorem CacheSound.ending_cases {rt : UpstreamRuntime} {s : Shared deps σ} {a : Arrival}
    (sound : CacheSound rt a.net s) (mode : rt.mode = .record) (plain : ∀ mw ∈ rt.middleware, mw.NoRedaction) :
    (∃ text, a.inbound.body = .error text ∧ ending rt a s = ⟨.error (bodyReadError text), none, s⟩) ∨
    ∃ body, a.inbound.body = .ok body ∧
      ((∃ outcome ctx, descend rt.middleware (a.inbound.original body) (.new a.contextId) = .ret outcome ctx ∧
        ending rt a s = ⟨outcome, ctx.responseSource, s⟩) ∨
      ∃ inner ctx resume, descend rt.middleware (a.inbound.original body) (.new a.contextId) = .next inner ctx resume ∧
        ((∃ earlier stored, Promotes deps rt a.net earlier stored ∧ liveKey deps inner = filedKey deps earlier ∧
          ending rt a s = ⟨(resume (.ok (replayed (.fromParts stored))) (ctx.stamp .snapshot)).1,
            (resume (.ok (replayed (.fromParts stored))) (ctx.stamp .snapshot)).2.responseSource, s⟩) ∨
        ending rt a s = ⟨(resume (rt.forwarder.forward deps a.net inner) (ctx.stamp .upstream)).1,
            (resume (rt.forwarder.forward deps a.net inner) (ctx.stamp .upstream)).2.responseSource,
            { s with calls := s.calls ++ [(inner, rt.forwarder.forward deps a.net inner)] }⟩)) := by
  cases read : a.inbound.body with
  | error text => exact Or.inl ⟨text, rfl, by simp [ending, read]⟩
  | ok body =>
    refine Or.inr ⟨body, rfl, ?_⟩
    cases down : descend rt.middleware (a.inbound.original body) (.new a.contextId) with
    | ret outcome ctx =>
      exact Or.inl ⟨outcome, ctx, rfl, by simp [ending, read, chainOutcome, runChain_eq_descend, down]⟩
    | next inner ctx resume =>
      refine Or.inr ⟨inner, ctx, resume, rfl, ?_⟩
      have ended : ending rt a s = ⟨(resume (invoke rt a.net inner ctx s).1.1 (invoke rt a.net inner ctx s).1.2).1,
          (resume (invoke rt a.net inner ctx s).1.1 (invoke rt a.net inner ctx s).1.2).2.responseSource,
          (invoke rt a.net inner ctx s).2⟩ := by
        simp [ending, read, chainOutcome, runChain_eq_descend, down]
      rcases invoke_cases rt a.net inner ctx s with
        ⟨_, _, scan, _⟩ | ⟨_, source, resp, attached, hit, run⟩ | ⟨_, _, replaying, _⟩ | ⟨_, _, _, run⟩
      · simp [sound.noStubs] at scan
      · rw [ReplaySource.lookup, redactRequest_noRedaction plain] at hit
        obtain ⟨e, recorded, filed, isResponse, rfl⟩ := ReplaySource.entry_of_answer hit
        obtain ⟨earlier, stored, promotes, key, isStored⟩ := sound.index source _ e attached filed
        obtain rfl : recorded = .fromParts stored := by simpa [isResponse] using isStored
        exact Or.inl ⟨earlier, stored, promotes, key.symm, by rw [ended, run]⟩
      · rw [mode] at replaying
        cases replaying
      · exact Or.inr (by rw [ended, run])

/-- On a coherent upstream the client cannot tell the index from the upstream. -/
theorem CacheSound.content_eq {rt : UpstreamRuntime} {s : Shared deps σ} {a : Arrival}
    (sound : CacheSound rt a.net s) (coherent : Coherent deps rt a.net) (mode : rt.mode = .record)
    (plain : ∀ mw ∈ rt.middleware, mw.NoRedaction) :
    content (ending rt a s).outcome = content (directOutcome deps rt a) := by
  rcases sound.ending_cases mode plain with ⟨text, read, ended⟩ | ⟨body, read, ⟨outcome, ctx, down, ended⟩ |
    ⟨inner, ctx, resume, down, ⟨earlier, stored, promotes, key, ended⟩ | ended⟩⟩
  · simp only [directOutcome, read, ended]
  · simp only [directOutcome, read, down, ended]
  · simp only [directOutcome, read, down, ended]
    exact coherent earlier stored promotes _ _ inner ctx resume down key
  · simp only [directOutcome, read, down, ended]

theorem promoted_ok {rt : UpstreamRuntime} {stamp : Stamp} {original : ProxyRequest} {outcome : Outcome}
    {source : Option ResponseSource} {e : RecordedExchange}
    (promotion : promoted deps rt stamp original outcome source = some e) :
    ∃ resp, outcome = .ok resp ∧ source = some .upstream ∧ e = successExchange deps rt stamp original resp := by
  unfold promoted at promotion
  split at promotion
  · cases promotion
  · rename_i marked
    push Not at marked
    split at promotion
    · rename_i resp
      exact ⟨resp, rfl, marked.2, (Option.some.inj promotion).symm⟩
    · cases promotion

theorem CacheSound.promoted_from {rt : UpstreamRuntime} {s : Shared deps σ} {a : Arrival}
    (sound : CacheSound rt a.net s) (mode : rt.mode = .record) (plain : ∀ mw ∈ rt.middleware, mw.NoRedaction)
    {e : RecordedExchange} (promotion : (ending rt a s).promoted rt a = some e) :
    ∃ stored, Promotes deps rt a.net a.original stored ∧ e = successExchange deps rt a.stamp a.original stored := by
  obtain ⟨stored, isOk, marked, isExchange⟩ := promoted_ok promotion
  refine ⟨stored, ?_, isExchange⟩
  have original : ∀ {body}, a.inbound.body = .ok body → a.original = a.inbound.original body := by
    intro body read
    simp [Arrival.original, read]
  rcases sound.ending_cases mode plain with ⟨text, read, ended⟩ | ⟨body, read, ⟨outcome, ctx, down, ended⟩ |
    ⟨inner, ctx, resume, down, ⟨earlier, replay, promotes, key, ended⟩ | ended⟩⟩
  · rw [ended] at marked
    cases marked
  · rw [ended] at isOk marked
    rw [original read]
    exact .shortCircuit (down.trans (by rw [← isOk])) marked
  · rw [ended] at isOk marked
    rw [original read]
    exact .replayed down promotes key (Prod.ext isOk rfl) marked
  · rw [ended] at isOk marked
    rw [original read]
    exact .forwarded down (Prod.ext isOk rfl) marked

theorem CacheSound.step {rt : UpstreamRuntime} {s : Shared deps σ} {a : Arrival} (sound : CacheSound rt a.net s)
    (mode : rt.mode = .record) (plain : ∀ mw ∈ rt.middleware, mw.NoRedaction) (storage : SnapshotStorage σ) :
    CacheSound rt a.net (handleRequest storage rt a s).2 := by
  rw [handleRequest_eq]
  refine ⟨?_, ?_⟩
  · rw [commit_stubs]
    rcases sound.ending_cases mode plain with ⟨_, _, ended⟩ | ⟨_, _, ⟨_, _, _, ended⟩ |
      ⟨_, _, _, _, ⟨_, _, _, _, ended⟩ | ended⟩⟩ <;> rw [ended] <;> exact sound.noStubs
  · intro source k e attached filed
    rw [commit_replay, (ending_frame rt a s).1] at attached
    cases promotion : (ending rt a s).promoted rt a with
    | none =>
      rw [promotion] at attached
      exact sound.index source k e attached filed
    | some exchange =>
      rw [promotion] at attached
      obtain ⟨before, attachedBefore, rfl⟩ := Option.map_eq_some_iff.mp attached
      rw [ReplaySource.entry_insert] at filed
      rcases Option.or_eq_some_iff.mp filed with old | ⟨_, new⟩
      · exact sound.index before k e attachedBefore old
      · obtain ⟨stored, promotes, rfl⟩ := sound.promoted_from mode plain promotion
        rw [KeyedLog.first_singleton] at new
        split at new
        · rename_i keyed
          cases Option.some.inj new
          rw [responseKey_successExchange, redactRequest_noRedaction plain] at keyed
          refine ⟨a.original, stored, promotes, Option.some.inj keyed, ?_⟩
          rw [successExchange, redactResponse_noRedaction plain]
          rfl
        · cases new

theorem received_detached {rt : UpstreamRuntime} (mode : rt.mode = .record) (storage : SnapshotStorage σ)
    {t : Shared deps σ} (noStubs : t.stubs = []) (bare : t.replay = none) (arrivals : List Arrival) :
    received storage rt t arrivals = arrivals.map fun a => content (directOutcome deps rt a) := by
  induction arrivals generalizing t with
  | nil => rfl
  | cons a rest ih =>
    have ended : (ending rt a t).outcome = directOutcome deps rt a ∧ (ending rt a t).state.stubs = [] := by
      unfold directOutcome ending
      cases a.inbound.body with
      | error text => exact ⟨rfl, noStubs⟩
      | ok body =>
        simp only [chainOutcome, runChain_eq_descend]
        cases descend rt.middleware (a.inbound.original body) (.new a.contextId) with
        | ret outcome ctx => exact ⟨rfl, noStubs⟩
        | next inner ctx resume =>
          simp [invoke, noStubs, lookupOrMiss, bare, mode, forwardCall]
    have later := ih (t := (handleRequest storage rt a t).2) (by rw [handleRequest_eq, commit_stubs, ended.2]) (by
      rw [handleRequest_eq, commit_replay, (ending_frame rt a t).1, bare]
      cases (ending rt a t).promoted rt a <;> rfl)
    rw [received, replies, List.map_cons, ← received, later, List.map_cons, handleRequest_eq, ended.1]
    rfl

theorem CacheSound.received_eq {rt : UpstreamRuntime} {net : ProxyRequest → ClientResult} {s : Shared deps σ}
    (sound : CacheSound rt net s) (coherent : Coherent deps rt net) (mode : rt.mode = .record)
    (plain : ∀ mw ∈ rt.middleware, mw.NoRedaction) (storage : SnapshotStorage σ) {arrivals : List Arrival}
    (same : ∀ a ∈ arrivals, a.net = net) :
    received storage rt s arrivals = arrivals.map fun a => content (directOutcome deps rt a) := by
  induction arrivals generalizing s with
  | nil => rfl
  | cons a rest ih =>
    obtain rfl := same a (List.mem_cons_self ..)
    have later := ih (sound.step mode plain storage) fun b member => same b (List.mem_cons_of_mem _ member)
    rw [received, replies, List.map_cons, ← received, later, List.map_cons, handleRequest_eq]
    exact congrArg (· :: _) (sound.content_eq coherent mode plain)

theorem cacheSound_opened {rt : UpstreamRuntime} {net : ProxyRequest → ClientResult} {storage : SnapshotStorage σ}
    {m : Nat} {media : Nat → σ} (empty : storage.load (media m) = .ok []) {s : Shared deps σ}
    (opened : openShared deps storage (some m) media = .ok s) : CacheSound rt net s := by
  obtain ⟨exchanges, loaded, rfl⟩ := openShared_eq_ok.mp opened
  cases loaded.symm.trans empty
  refine ⟨rfl, ?_⟩
  rintro source k e attached filed
  cases Option.some.inj attached
  rw [ReplaySource.entry_new] at filed
  cases filed

/-- On a coherent upstream the clients receive, request by request, what they
would receive without a medium. -/
theorem cache_transparent {rt : UpstreamRuntime} (mode : rt.mode = .record)
    (plain : ∀ mw ∈ rt.middleware, mw.NoRedaction) {net : ProxyRequest → ClientResult}
    (coherent : Coherent deps rt net) {storage : SnapshotStorage σ} {m : Nat} {media : Nat → σ}
    (empty : storage.load (media m) = .ok []) {s t : Shared deps σ}
    (opened : openShared deps storage (some m) media = .ok s) (bare : openShared deps storage none media = .ok t)
    {arrivals : List Arrival} (same : ∀ a ∈ arrivals, a.net = net) :
    received storage rt s arrivals = received storage rt.detached t arrivals := by
  cases Except.ok.inj bare
  have detached : rt.detached.mode = .record := mode
  rw [received_detached detached storage rfl rfl,
    (cacheSound_opened empty opened).received_eq coherent mode plain storage same]
  rfl

/-- The chain never sets the `Upstream` marker on a response of its own and hands
the marker of the terminal back. -/
def KeepsMarker (chain : List ProxyMiddleware) : Prop :=
  ∀ req id, match descend chain req (.new id) with
    | .ret _ ctx => ctx.responseSource ≠ some .upstream
    | .next _ _ resume => ∀ outcome ctx, (resume outcome ctx).2.responseSource = ctx.responseSource

theorem Promotes.forwarded_of_keepsMarker {rt : UpstreamRuntime} {net : ProxyRequest → ClientResult}
    (keeps : KeepsMarker rt.middleware) {req : ProxyRequest} {resp : ProxyResponse}
    (promotes : Promotes deps rt net req resp) :
    ∃ id inner ctx resume, descend rt.middleware req (.new id) = .next inner ctx resume ∧
      (resume (rt.forwarder.forward deps net inner) (ctx.stamp .upstream)).1 = .ok resp ∧
      (resume (rt.forwarder.forward deps net inner) (ctx.stamp .upstream)).2.responseSource = some .upstream := by
  cases promotes with
  | @shortCircuit _ id _ _ down marked =>
    have unmarked := keeps req id
    rw [down] at unmarked
    exact (unmarked marked).elim
  | @forwarded _ inner id _ ctx _ resume down up marked =>
    exact ⟨id, inner, ctx, resume, down, by rw [up], by rw [up]; exact marked⟩
  | @replayed _ inner _ id _ stored ctx ctx' resume down before hit up marked =>
    have kept := keeps req id
    rw [down] at kept
    have snapshot := kept (.ok (PartlyProxy.replayed (.fromParts stored))) (ctx.stamp .snapshot)
    rw [up, marked] at snapshot
    cases snapshot

def arrivalOf (net : ProxyRequest → ClientResult) (req : ProxyRequest) (id : String) (stamp : Stamp) : Arrival :=
  ⟨⟨req.method, req.uri, req.headers, req.version, .ok req.body⟩, id, net, stamp⟩

theorem directOutcome_arrivalOf {rt : UpstreamRuntime} {net : ProxyRequest → ClientResult} {req inner : ProxyRequest}
    {id : String} {ctx : RequestContext} {resume : Outcome → RequestContext → Outcome × RequestContext}
    (down : descend rt.middleware req (.new id) = .next inner ctx resume) (stamp : Stamp) :
    directOutcome deps rt (arrivalOf net req id stamp) =
      (resume (rt.forwarder.forward deps net inner) (ctx.stamp .upstream)).1 := by
  simp [directOutcome, arrivalOf, Inbound.original, down]

theorem handleRequest_forwarded {rt : UpstreamRuntime} (mode : rt.mode = .record)
    (enabled : rt.recorder.config.enabled = true) {net : ProxyRequest → ClientResult} {req inner : ProxyRequest}
    {resp : ProxyResponse} {id : String} {ctx : RequestContext}
    {resume : Outcome → RequestContext → Outcome × RequestContext}
    (down : descend rt.middleware req (.new id) = .next inner ctx resume)
    (isOk : (resume (rt.forwarder.forward deps net inner) (ctx.stamp .upstream)).1 = .ok resp)
    (marked : (resume (rt.forwarder.forward deps net inner) (ctx.stamp .upstream)).2.responseSource = some .upstream)
    (storage : SnapshotStorage σ) (stamp : Stamp) {s : Shared deps σ} (noStubs : s.stubs = [])
    {source : ReplaySource deps} (attached : s.replay = some source)
    (missed : source.lookup inner rt.middleware = none) :
    (handleRequest storage rt (arrivalOf net req id stamp) s).2.stubs = [] ∧
      (handleRequest storage rt (arrivalOf net req id stamp) s).2.replay =
        some (source.insert (successExchange deps rt stamp req resp)) := by
  have ended : (ending rt (arrivalOf net req id stamp) s).outcome = .ok resp ∧
      (ending rt (arrivalOf net req id stamp) s).source = some .upstream ∧
      (ending rt (arrivalOf net req id stamp) s).state.stubs = [] := by
    simp [ending, arrivalOf, Inbound.original, chainOutcome, runChain_eq_descend, down, invoke, lookupOrMiss, noStubs,
      attached, missed, mode, forwardCall, isOk, marked]
  have promotion : (ending rt (arrivalOf net req id stamp) s).promoted rt (arrivalOf net req id stamp) =
      some (successExchange deps rt stamp req resp) := by
    simp only [Ending.promoted, promoted, ended.1, ended.2.1, enabled]
    rfl
  constructor
  · rw [handleRequest_eq, commit_stubs, ended.2.2]
  · rw [handleRequest_eq, commit_replay, promotion, (ending_frame rt (arrivalOf net req id stamp) s).1, attached]
    rfl

theorem ending_hit {rt : UpstreamRuntime} {net : ProxyRequest → ClientResult} {req inner : ProxyRequest} {id : String}
    {ctx : RequestContext} {resume : Outcome → RequestContext → Outcome × RequestContext}
    (down : descend rt.middleware req (.new id) = .next inner ctx resume)
    (stamp : Stamp) {s : Shared deps σ} (noStubs : s.stubs = []) {source : ReplaySource deps}
    (attached : s.replay = some source) {resp : ProxyResponse} (hit : source.lookup inner rt.middleware = some resp) :
    (ending rt (arrivalOf net req id stamp) s).outcome = (resume (.ok resp) (ctx.stamp .snapshot)).1 := by
  simp [ending, arrivalOf, Inbound.original, chainOutcome, runChain_eq_descend, down, invoke, lookupOrMiss, noStubs,
    attached, hit]

/-- Coherence is no more than transparency takes: behind a chain that keeps the
marker, two requests tell the cache of an incoherent upstream from the upstream. -/
theorem coherent_of_transparent {rt : UpstreamRuntime} (mode : rt.mode = .record)
    (enabled : rt.recorder.config.enabled = true) (plain : ∀ mw ∈ rt.middleware, mw.NoRedaction)
    (keeps : KeepsMarker rt.middleware) {net : ProxyRequest → ClientResult} {storage : SnapshotStorage σ} {m : Nat}
    {media : Nat → σ} (empty : storage.load (media m) = .ok []) {s t : Shared deps σ}
    (opened : openShared deps storage (some m) media = .ok s) (bare : openShared deps storage none media = .ok t)
    (stamp : Stamp)
    (transparent : ∀ arrivals : List Arrival, (∀ a ∈ arrivals, a.net = net) →
      received storage rt s arrivals = received storage rt.detached t arrivals) : Coherent deps rt net := by
  intro earlier stored promotes req id inner ctx resume down key
  obtain ⟨id₀, inner₀, ctx₀, resume₀, down₀, isOk, marked⟩ := promotes.forwarded_of_keepsMarker keeps
  obtain ⟨exchanges, loaded, rfl⟩ := openShared_eq_ok.mp opened
  cases loaded.symm.trans empty
  cases Except.ok.inj bare
  have missed : (ReplaySource.new deps []).lookup inner₀ rt.middleware = none :=
    (ReplaySource.answer_eq_none_iff _ _).mpr (ReplaySource.entry_new _ _)
  let s : Shared deps σ := ⟨[], some (.new deps []), ⟨[], media⟩, []⟩
  have attached : s.replay = some (.new deps []) := rfl
  obtain ⟨stubs₁, replay₁⟩ := handleRequest_forwarded mode enabled down₀ isOk marked storage stamp rfl attached missed
  let e := successExchange deps rt stamp earlier stored
  have filed : responseKey deps e = some (liveKey deps inner) := by
    rw [key, responseKey_successExchange, redactRequest_noRedaction plain, filedKey]
  have stored₁ : ((ReplaySource.new deps []).insert e).entry (liveKey deps inner) = some e := by
    rw [ReplaySource.entry_insert, ReplaySource.entry_new, KeyedLog.first_singleton, if_pos filed]
    rfl
  have hit : ((ReplaySource.new deps []).insert e).lookup inner rt.middleware = some (replayed (.fromParts stored)) := by
    rw [ReplaySource.lookup, redactRequest_noRedaction plain, ReplaySource.answer, stored₁]
    simp [e, successExchange, RecordedExchange.new, ExchangeOutcome.asResponse, redactResponse_noRedaction plain]
  -- The first request files the response, the second is answered with it.
  have alike := transparent [arrivalOf net earlier id₀ stamp, arrivalOf net req id stamp] (by simp [arrivalOf])
  have detached : rt.detached.mode = .record := mode
  rw [received_detached detached storage rfl rfl] at alike
  simp only [received, replies, List.map_cons, List.map_nil, List.cons.injEq, and_true] at alike
  have last := alike.2
  rw [handleRequest_eq] at last
  rw [← ending_hit down stamp stubs₁ replay₁ hit, ← directOutcome_arrivalOf down stamp]
  exact last

/-- Behind a chain that passes everything through, an upstream whose status and
body depend on the key alone is coherent. -/
theorem coherent_of_passThrough {rt : UpstreamRuntime} (pass : ∀ mw ∈ rt.middleware, mw.PassThrough)
    {net : ProxyRequest → ClientResult}
    (keyed : ∀ p q, liveKey deps q = filedKey deps p →
      content (rt.forwarder.forward deps net p) = content (rt.forwarder.forward deps net q)) :
    Coherent deps rt net := by
  intro earlier stored promotes req id inner ctx resume down key
  rw [descend_passThrough pass] at down
  cases down
  have direct : rt.forwarder.forward deps net earlier = .ok stored := by
    cases promotes with
    | shortCircuit reached marked =>
      rw [descend_passThrough pass] at reached
      cases reached
    | forwarded reached up marked =>
      rw [descend_passThrough pass] at reached
      cases reached
      exact (Prod.mk.inj up).1
    | replayed reached before hit up marked =>
      rw [descend_passThrough pass] at reached
      cases reached
      rw [← (Prod.mk.inj up).2] at marked
      cases marked
  rw [← keyed earlier req key, direct]
  simp [content, reply, replayed]

theorem cache_transparent_two_gets :
    let rt := referenceRuntime [] .record
    let media : Nat → List RecordedExchange := fun _ => []
    let get := referenceGet referencePath (answering [1])
    received inMemoryStorage rt (emptyShared referenceDeps media) [get, get] =
      received inMemoryStorage rt.detached (⟨[], none, ⟨[], media⟩, []⟩ : Shared referenceDeps _) [get, get] := by
  intro rt media get
  have coherent : Coherent referenceDeps rt (answering [1]) := by
    refine coherent_of_passThrough (by simp [rt, referenceRuntime]) fun p q key => ?_
    rw [forward_answering, forward_answering]
  exact cache_transparent rfl (by simp [rt, referenceRuntime]) coherent (m := 0) rfl rfl rfl (by simp [get, referenceGet])

def echoHeader (req : ProxyRequest) : ClientResult :=
  .response .ok .empty .http11 (.ok ((req.headers.get "x").getD []))

def echoTarget (req : ProxyRequest) : ClientResult :=
  .response .ok .empty .http11 (.ok (req.uri.pathAndQuery.getD "").toUTF8.toList)

def appendByte : ProxyMiddleware where
  handle req ctx :=
    .next req ctx fun outcome ctx => (outcome.map fun resp => { resp with body := resp.body ++ [33] }, ctx)
  redactRequestForSnapshot req := req
  redactResponseForSnapshot resp := resp

def rewriteTarget : ProxyMiddleware where
  handle req ctx :=
    .next { req with uri := if req.uri = referencePath then .ofData "/b" (by decide) else referencePath } ctx
    fun outcome ctx => (outcome, ctx)
  redactRequestForSnapshot req := req
  redactResponseForSnapshot resp := resp

def attachedAndBare (chain : List ProxyMiddleware) (arrivals : List Arrival) :
    List (StatusCode × Bytes) × List (StatusCode × Bytes) :=
  (received inMemoryStorage (referenceRuntime chain .record) (emptyShared referenceDeps fun _ => []) arrivals,
    received inMemoryStorage (referenceRuntime chain .record).detached
      (⟨[], none, ⟨[], fun _ => []⟩, []⟩ : Shared referenceDeps _) arrivals)

/-- Three ways to tell the cache from the upstream: a header the key leaves out, a
response that goes through the chain a second time, and a request that is looked
up as rewritten and filed as received. -/
theorem cache_observable :
    let withHeader (value : Bytes) : Arrival :=
      { referenceGet referencePath echoHeader with inbound := ⟨"GET", referencePath, ⟨[("x", value)]⟩, .http11, .ok []⟩ }
    let get := referenceGet referencePath (answering [1])
    let other := referenceGet (.ofData "/b" (by decide)) echoTarget
    (∀ mw ∈ [appendByte, rewriteTarget], mw.NoRedaction) ∧
      attachedAndBare [] [withHeader [49], withHeader [50]] = ([(.ok, [49]), (.ok, [49])], [(.ok, [49]), (.ok, [50])]) ∧
      attachedAndBare [appendByte] [get, get] = ([(.ok, [1, 33]), (.ok, [1, 33, 33])], [(.ok, [1, 33]), (.ok, [1, 33])]) ∧
      attachedAndBare [rewriteTarget] [referenceGet referencePath echoTarget, other] =
        ([(.ok, [47, 98]), (.ok, [47, 98])], [(.ok, [47, 98]), (.ok, [47, 97])]) := by
  intro withHeader get other
  refine ⟨?_, by decide +kernel, by decide +kernel, by decide +kernel⟩
  intro mw member
  rcases List.mem_pair.mp member with rfl | rfl <;> exact ⟨fun _ => rfl, fun _ => rfl⟩

end PartlyProxy
