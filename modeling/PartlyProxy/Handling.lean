import PartlyProxy.Listener
import PartlyProxy.Lib.Execution

namespace PartlyProxy
variable {deps : Deps} {σ : Type}

/-- How the handling of a request ends before anything is recorded: the outcome
of the chain, the marker it left behind and the state it leaves. -/
structure Ending (deps : Deps) (σ : Type) where
  outcome : Outcome
  source : Option ResponseSource
  state : Shared deps σ

/-- The part of `handle_request` before the recording. A request whose body
cannot be read ends without entering the chain. -/
def ending (rt : UpstreamRuntime) (a : Arrival) (s : Shared deps σ) : Ending deps σ :=
  match a.inbound.body with
  | .error source => ⟨.error (bodyReadError source), none, s⟩
  | .ok body =>
    let ended := chainOutcome rt a (a.inbound.original body) s
    ⟨ended.1.1, ended.1.2.responseSource, ended.2⟩

def offered (deps : Deps) (rt : UpstreamRuntime) (stamp : Stamp) (original : ProxyRequest) (outcome : Outcome)
    (source : Option ResponseSource) : Option RecordedExchange :=
  if rt.recorder.config.enabled = false then none
  else
    match outcome with
    | .ok resp => if source = some .snapshot then none else some (successExchange deps rt stamp original resp)
    | .error err => some (errorExchange deps rt stamp original err)

def promoted (deps : Deps) (rt : UpstreamRuntime) (stamp : Stamp) (original : ProxyRequest) (outcome : Outcome)
    (source : Option ResponseSource) : Option RecordedExchange :=
  if rt.recorder.config.enabled = false ∨ source ≠ some .upstream then none
  else
    match outcome with
    | .ok resp => some (successExchange deps rt stamp original resp)
    | .error _ => none

def Ending.offered (rt : UpstreamRuntime) (a : Arrival) (e : Ending deps σ) : Option RecordedExchange :=
  PartlyProxy.offered deps rt a.stamp a.original e.outcome e.source

def Ending.promoted (rt : UpstreamRuntime) (a : Arrival) (e : Ending deps σ) : Option RecordedExchange :=
  PartlyProxy.promoted deps rt a.stamp a.original e.outcome e.source

def insertPromoted (promoted : Option RecordedExchange) (s : Shared deps σ) : Shared deps σ :=
  match promoted with
  | some exchange => { s with replay := s.replay.map fun index => index.insert exchange }
  | none => s

def commit (storage : SnapshotStorage σ) (rt : UpstreamRuntime) (promoted offered : Option RecordedExchange)
    (s : Shared deps σ) : Shared deps σ :=
  match offered with
  | some exchange => persistExchange storage rt exchange (insertPromoted promoted s)
  | none => insertPromoted promoted s

/-- All that the recording stage does: it inserts what is promoted and records
what is offered. -/
theorem recordOutcome_eq_commit (storage : SnapshotStorage σ) (rt : UpstreamRuntime) (stamp : Stamp)
    (original : ProxyRequest) (outcome : Outcome) (source : Option ResponseSource) (s : Shared deps σ) :
    recordOutcome storage rt stamp original outcome source s =
      commit storage rt (promoted deps rt stamp original outcome source)
        (offered deps rt stamp original outcome source) s := by
  cases on : rt.recorder.config.enabled with
  | false =>
    cases outcome <;>
      simp [recordOutcome, recordSuccessExchange, recordErrorExchange, promoted, offered, commit, insertPromoted, on]
  | true =>
    cases outcome with
    | error err => simp [recordOutcome, recordErrorExchange, promoted, offered, commit, insertPromoted, on]
    | ok resp =>
      by_cases hit : source = some .snapshot
      · simp [recordOutcome, recordSuccessExchange, promoted, offered, commit, insertPromoted, on, hit]
      · by_cases forwarded : source = some .upstream
        · simp [recordOutcome, recordSuccessExchange, promoted, offered, commit, insertPromoted, on, promote, forwarded]
        · simp [recordOutcome, recordSuccessExchange, promoted, offered, commit, insertPromoted, on, promote, hit,
            forwarded]

theorem handleRequest_eq (storage : SnapshotStorage σ) (rt : UpstreamRuntime) (a : Arrival) (s : Shared deps σ) :
    handleRequest storage rt a s =
      (reply (ending rt a s).outcome,
        commit storage rt ((ending rt a s).promoted rt a) ((ending rt a s).offered rt a)
          (ending rt a s).state) := by
  simp only [Ending.promoted, Ending.offered, ← recordOutcome_eq_commit]
  unfold handleRequest ending Arrival.original
  cases a.inbound.body <;> rfl

section Terminal
variable (rt : UpstreamRuntime) (net : ProxyRequest → ClientResult)

/-- The four ways the terminal can end, with everything each of them does. -/
theorem invoke_cases (req : ProxyRequest) (ctx : RequestContext) (s : Shared deps σ) :
    (∃ response stubs, StubStore.takeMatch s.stubs req = some (response, stubs) ∧
      invoke rt net req ctx s = ((.ok response.intoProxy, ctx.stamp .stub), { s with stubs := stubs })) ∨
    (StubStore.takeMatch s.stubs req = none ∧ ∃ source resp, s.replay = some source ∧
      source.lookup req rt.middleware = some resp ∧
      invoke rt net req ctx s = ((.ok resp, ctx.stamp .snapshot), s)) ∨
    (StubStore.takeMatch s.stubs req = none ∧
      (∀ source, s.replay = some source → source.lookup req rt.middleware = none) ∧
      rt.mode = .replay ∧
      invoke rt net req ctx s = ((.ok (rt.replayMissHandler req), ctx.stamp .replayMiss), s)) ∨
    (StubStore.takeMatch s.stubs req = none ∧
      (∀ source, s.replay = some source → source.lookup req rt.middleware = none) ∧
      rt.mode = .record ∧
      invoke rt net req ctx s = ((rt.forwarder.forward deps net req, ctx.stamp .upstream),
        { s with calls := s.calls ++ [(req, rt.forwarder.forward deps net req)] })) := by
  cases scan : StubStore.takeMatch s.stubs req with
  | some found => exact Or.inl ⟨found.1, found.2, rfl, by simp only [invoke, scan]⟩
  | none =>
    right
    cases replay : s.replay with
    | none =>
      cases mode : rt.mode with
      | replay => exact Or.inr (Or.inl ⟨rfl, by simp, rfl, by simp [invoke, scan, lookupOrMiss, replay, mode]⟩)
      | record =>
        exact Or.inr (Or.inr ⟨rfl, by simp, rfl, by simp [invoke, scan, lookupOrMiss, replay, mode, forwardCall]⟩)
    | some source =>
      cases hit : source.lookup req rt.middleware with
      | some resp => exact Or.inl ⟨rfl, source, resp, rfl, hit, by simp [invoke, scan, lookupOrMiss, replay, hit]⟩
      | none =>
        have missed : ∀ other, some source = some other → other.lookup req rt.middleware = none := by
          intro other same
          rwa [← Option.some.inj same]
        cases mode : rt.mode with
        | replay =>
          exact Or.inr (Or.inl ⟨rfl, missed, rfl, by simp [invoke, scan, lookupOrMiss, replay, hit, mode]⟩)
        | record =>
          exact Or.inr (Or.inr ⟨rfl, missed, rfl,
            by simp [invoke, scan, lookupOrMiss, replay, hit, mode, forwardCall]⟩)

theorem invoke_frame (req : ProxyRequest) (ctx : RequestContext) (s : Shared deps σ) :
    (invoke rt net req ctx s).2.replay = s.replay ∧ (invoke rt net req ctx s).2.recorder = s.recorder := by
  rcases invoke_cases rt net req ctx s with
    ⟨_, _, _, run⟩ | ⟨_, _, _, _, _, run⟩ | ⟨_, _, _, run⟩ | ⟨_, _, _, run⟩ <;> rw [run] <;> exact ⟨rfl, rfl⟩

end Terminal

section Ends
variable (rt : UpstreamRuntime) (a : Arrival)

/-- An ending either never reached the terminal, and then the state is as it was,
or it resumed from exactly one terminal call. -/
theorem ending_cases (s : Shared deps σ) :
    ((ending rt a s).state = s) ∨
    (∃ body req ctx resume, a.inbound.body = .ok body ∧
      descend rt.middleware (a.inbound.original body) (.new a.contextId) = .next req ctx resume ∧
      ending rt a s = ⟨(resume (invoke rt a.net req ctx s).1.1 (invoke rt a.net req ctx s).1.2).1,
        (resume (invoke rt a.net req ctx s).1.1 (invoke rt a.net req ctx s).1.2).2.responseSource,
        (invoke rt a.net req ctx s).2⟩) := by
  cases read : a.inbound.body with
  | error source => exact Or.inl (by simp [ending, read])
  | ok body =>
    cases down : descend rt.middleware (a.inbound.original body) (.new a.contextId) with
    | ret outcome ctx => exact Or.inl (by simp [ending, read, chainOutcome, runChain_eq_descend, down])
    | next req ctx resume =>
      exact Or.inr ⟨body, req, ctx, resume, rfl, down,
        by simp [ending, read, chainOutcome, runChain_eq_descend, down]⟩

theorem ending_frame (s : Shared deps σ) :
    (ending rt a s).state.replay = s.replay ∧ (ending rt a s).state.recorder = s.recorder := by
  rcases ending_cases rt a s with same | ⟨_, req, ctx, _, _, _, ended⟩
  · rw [same]; exact ⟨rfl, rfl⟩
  · rw [ended]; exact invoke_frame rt a.net req ctx s

theorem ending_passThrough (pass : ∀ mw ∈ rt.middleware, mw.PassThrough) {body : Bytes}
    (read : a.inbound.body = .ok body) (s : Shared deps σ) :
    ending rt a s = ⟨(invoke rt a.net (a.inbound.original body) (.new a.contextId) s).1.1,
      (invoke rt a.net (a.inbound.original body) (.new a.contextId) s).1.2.responseSource,
      (invoke rt a.net (a.inbound.original body) (.new a.contextId) s).2⟩ := by
  simp [ending, read, chainOutcome, runChain_passThrough pass]

end Ends

section Commit
variable (storage : SnapshotStorage σ) (rt : UpstreamRuntime)

theorem commit_replay (promoted offered : Option RecordedExchange) (s : Shared deps σ) :
    (commit storage rt promoted offered s).replay =
      match promoted with
      | some exchange => s.replay.map fun index => index.insert exchange
      | none => s.replay := by
  unfold commit insertPromoted
  cases promoted <;> cases offered <;> rfl

theorem commit_recorder (promoted offered : Option RecordedExchange) (s : Shared deps σ) :
    (commit storage rt promoted offered s).recorder =
      match offered with
      | some exchange => (rt.recorder.record storage s.recorder exchange).2
      | none => s.recorder := by
  unfold commit insertPromoted
  cases promoted <;> cases offered <;> rfl

@[simp] theorem commit_calls (promoted offered : Option RecordedExchange) (s : Shared deps σ) :
    (commit storage rt promoted offered s).calls = s.calls := by
  unfold commit insertPromoted
  cases promoted <;> cases offered <;> rfl

@[simp] theorem commit_stubs (promoted offered : Option RecordedExchange) (s : Shared deps σ) :
    (commit storage rt promoted offered s).stubs = s.stubs := by
  unfold commit insertPromoted
  cases promoted <;> cases offered <;> rfl

end Commit

theorem offered_upstream {rt : UpstreamRuntime} {stamp : Stamp} {original : ProxyRequest} {outcome : Outcome}
    {source : Option ResponseSource} {e : RecordedExchange}
    (offer : offered deps rt stamp original outcome source = some e) : e.upstream = some rt.name := by
  unfold offered at offer
  split at offer
  · cases offer
  · split at offer
    · split at offer
      · cases offer
      · cases Option.some.inj offer; rfl
    · cases Option.some.inj offer; rfl

theorem offered_enabled {rt : UpstreamRuntime} {stamp : Stamp} {original : ProxyRequest} {outcome : Outcome}
    {source : Option ResponseSource} {e : RecordedExchange}
    (offer : offered deps rt stamp original outcome source = some e) : rt.recorder.config.enabled = true := by
  unfold offered at offer
  split at offer
  · cases offer
  · rename_i on
    simpa using on

theorem promoted_offered {rt : UpstreamRuntime} {stamp : Stamp} {original : ProxyRequest} {outcome : Outcome}
    {source : Option ResponseSource} {e : RecordedExchange}
    (promotion : promoted deps rt stamp original outcome source = some e) :
    offered deps rt stamp original outcome source = some e ∧ source = some .upstream := by
  unfold promoted at promotion
  split at promotion
  · cases promotion
  · rename_i marked
    push Not at marked
    split at promotion
    · cases promotion
      simp [offered, marked.1, marked.2]
    · cases promotion

/-- One medium, carrying `log`, after an exchange was offered to it: it carries
`log`, or `log` and the exchange. -/
theorem record_holds {storage : SnapshotStorage σ} (law : storage.Lawful) {rec : Recorder}
    (on : rec.config.enabled = true) {exchange : RecordedExchange} {m : Nat}
    (routed : rec.medium exchange = some m) {state : RecorderState σ} {log : List RecordedExchange}
    (held : law.Holds (state.media m) log) :
    match (storage.append (state.media m) exchange).1 with
    | .ok () => ∃ e', exchange.SameReplay e' ∧
        law.Holds ((rec.record storage state exchange).2.media m) (log ++ [e'])
    | .error _ => law.Holds ((rec.record storage state exchange).2.media m) log := by
  rw [Recorder.record_media on routed, Function.update_self]
  cases written : (storage.append (state.media m) exchange).1 with
  | ok accepted => exact law.append_ok held written
  | error err => exact law.append_error held written

def serveStep (storage : SnapshotStorage σ) (rt : UpstreamRuntime) (s : Shared deps σ) (a : Arrival) :
    Shared deps σ := (handleRequest storage rt a s).2

def serve (storage : SnapshotStorage σ) (rt : UpstreamRuntime) (s : Shared deps σ) (arrivals : List Arrival) :
    Shared deps σ := Execution.exec (serveStep storage rt) s arrivals

theorem serveStep_eq (storage : SnapshotStorage σ) (rt : UpstreamRuntime) (s : Shared deps σ) (a : Arrival) :
    serveStep storage rt s a =
      commit storage rt ((ending rt a s).promoted rt a) ((ending rt a s).offered rt a)
        (ending rt a s).state := by
  rw [serveStep, handleRequest_eq]

end PartlyProxy
