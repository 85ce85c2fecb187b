import PartlyProxy.Handling
import PartlyProxy.Builder

namespace PartlyProxy
variable {deps : Deps} {σ : Type}

/-- The plain recording set-up: `Mode::Record`, recording on, a medium attached
and a chain whose `handle` passes everything through. -/
structure PlainRecording (rt : UpstreamRuntime) (m : Nat) : Prop where
  mode : rt.mode = .record
  enabled : rt.recorder.config.enabled = true
  routed : rt.recorder.routes rt.name = some m
  pass : ∀ mw ∈ rt.middleware, mw.PassThrough

theorem responseKey_successExchange (rt : UpstreamRuntime) (stamp : Stamp) (original : ProxyRequest)
    (resp : ProxyResponse) :
    responseKey deps (successExchange deps rt stamp original resp) =
      some (recordedKey deps (.fromParts deps (redactRequest rt.middleware original))) := rfl

theorem responseKey_errorExchange (rt : UpstreamRuntime) (stamp : Stamp) (original : ProxyRequest)
    (err : ProxyError) : responseKey deps (errorExchange deps rt stamp original err) = none := rfl

theorem offered_response {rt : UpstreamRuntime} {stamp : Stamp} {original : ProxyRequest} {outcome : Outcome}
    {source : Option ResponseSource} {e : RecordedExchange}
    (offer : offered deps rt stamp original outcome source = some e) {k : IndexKey}
    (keyed : responseKey deps e = some k) :
    ∃ resp, outcome = .ok resp ∧ e = successExchange deps rt stamp original resp := by
  unfold offered at offer
  split at offer
  · cases offer
  · split at offer
    · rename_i resp
      split at offer
      · cases offer
      · exact ⟨resp, rfl, (Option.some.inj offer).symm⟩
    · cases Option.some.inj offer
      rw [responseKey_errorExchange] at keyed
      cases keyed

theorem RecordedExchange.SameReplay.responseKey {a b : RecordedExchange} (same : a.SameReplay b) :
    PartlyProxy.responseKey deps a = PartlyProxy.responseKey deps b := by
  simp only [PartlyProxy.responseKey, same.1, same.2]

theorem first_append_same {log : List RecordedExchange} {e e' : RecordedExchange} (same : e.SameReplay e')
    (k : IndexKey) :
    KeyedLog.first (responseKey deps) (log ++ [e']) k =
      (KeyedLog.first (responseKey deps) log k).or (if responseKey deps e = some k then some e' else none) := by
  rw [KeyedLog.first_append, KeyedLog.first_singleton, same.responseKey]

/-- What a request leaves on the medium: its exchange if one is offered and
accepted, and nothing otherwise. -/
theorem serveStep_medium {storage : SnapshotStorage σ} (law : storage.Lawful) {rt : UpstreamRuntime} {m : Nat}
    (routed : rt.recorder.routes rt.name = some m) {s : Shared deps σ} {log : List RecordedExchange}
    (held : law.Holds (s.recorder.media m) log) (a : Arrival) :
    (law.Holds ((serveStep storage rt s a).recorder.media m) log ∧
      ((ending rt a s).offered rt a = none ∨
        ∃ e err, (ending rt a s).offered rt a = some e ∧ (storage.append (s.recorder.media m) e).1 = .error err)) ∨
    ∃ e e', (ending rt a s).offered rt a = some e ∧ e.SameReplay e' ∧
      law.Holds ((serveStep storage rt s a).recorder.media m) (log ++ [e']) := by
  rw [serveStep_eq, commit_recorder, (ending_frame rt a s).2]
  cases offer : (ending rt a s).offered rt a with
  | none => exact Or.inl ⟨held, Or.inl rfl⟩
  | some e =>
    have medium : rt.recorder.medium e = some m := by simpa [Recorder.medium, offered_upstream offer] using routed
    have written := record_holds law (offered_enabled offer) medium held
    cases accepted : (storage.append (s.recorder.media m) e).1 with
    | error err =>
      rw [accepted] at written
      exact Or.inl ⟨written, Or.inr ⟨e, err, rfl, accepted⟩⟩
    | ok done =>
      rw [accepted] at written
      obtain ⟨e', same, grown⟩ := written
      exact Or.inr ⟨e, e', rfl, same, grown⟩

def HoldsKey (deps : Deps) (storage : SnapshotStorage σ) (medium : σ) (k : IndexKey) : Prop :=
  ∃ exchanges, storage.load medium = .ok exchanges ∧ ∃ stored ∈ exchanges, responseKey deps stored = some k

theorem holdsKey_iff {storage : SnapshotStorage σ} (law : storage.Lawful) {medium : σ} {log : List RecordedExchange}
    (held : law.Holds medium log) (k : IndexKey) :
    HoldsKey deps storage medium k ↔ KeyedLog.first (responseKey deps) log k ≠ none := by
  rw [ne_eq, KeyedLog.first_eq_none_iff]
  push Not
  constructor
  · rintro ⟨exchanges, loaded, found⟩
    rw [law.load_eq held] at loaded
    cases loaded
    exact found
  · exact fun found => ⟨log, law.load_eq held, found⟩

/-- Everything one request can do in the plain set-up without stubs. -/
theorem plain_step_cases {rt : UpstreamRuntime} {m : Nat} (plain : PlainRecording rt m)
    (storage : SnapshotStorage σ) {s : Shared deps σ} (noStubs : s.stubs = []) {source : ReplaySource deps}
    (attached : s.replay = some source) (a : Arrival) :
    (∃ text, a.inbound.body = .error text ∧ serveStep storage rt s a =
        persistExchange storage rt (errorExchange deps rt a.stamp a.original (bodyReadError text)) s) ∨
    (∃ resp, source.lookup a.original rt.middleware = some resp ∧ serveStep storage rt s a = s) ∨
    (∃ err, source.lookup a.original rt.middleware = none ∧
      rt.forwarder.forward deps a.net a.original = .error err ∧ serveStep storage rt s a =
        persistExchange storage rt (errorExchange deps rt a.stamp a.original err)
          { s with calls := s.calls ++ [(a.original, .error err)] }) ∨
    (∃ resp, (∃ body, a.inbound.body = .ok body) ∧ source.lookup a.original rt.middleware = none ∧
      rt.forwarder.forward deps a.net a.original = .ok resp ∧
      serveStep storage rt s a =
        persistExchange storage rt (successExchange deps rt a.stamp a.original resp)
          { s with
            replay := some (source.insert (successExchange deps rt a.stamp a.original resp))
            calls := s.calls ++ [(a.original, .ok resp)] }) := by
  rw [serveStep_eq]
  cases read : a.inbound.body with
  | error text =>
    exact Or.inl ⟨text, rfl, by simp [ending, read, Ending.promoted, Ending.offered, promoted, offered, commit,
      insertPromoted, plain.enabled]⟩
  | ok body =>
    have original : a.inbound.original body = a.original := by simp [Arrival.original, read]
    right
    rw [ending_passThrough rt a plain.pass read, original]
    simp only [Ending.promoted, Ending.offered]
    rcases invoke_cases rt a.net a.original (.new a.contextId) s with
      ⟨_, _, scan, _⟩ | ⟨_, source', resp, replay, hit, run⟩ | ⟨_, _, mode, _⟩ | ⟨_, missed, _, run⟩
    · simp [noStubs] at scan
    · rw [attached] at replay
      cases Option.some.inj replay
      refine Or.inl ⟨resp, hit, ?_⟩
      rw [run]
      simp [promoted, offered, commit, insertPromoted]
    · rw [plain.mode] at mode
      cases mode
    · have missed := missed source attached
      rw [run]
      cases forwarded : rt.forwarder.forward deps a.net a.original with
      | error err =>
        refine Or.inr (Or.inl ⟨err, missed, rfl, ?_⟩)
        simp [promoted, offered, commit, insertPromoted, plain.enabled]
      | ok resp =>
        refine Or.inr (Or.inr ⟨resp, ⟨body, rfl⟩, missed, rfl, ?_⟩)
        simp [promoted, offered, commit, insertPromoted, plain.enabled, attached]

end PartlyProxy
