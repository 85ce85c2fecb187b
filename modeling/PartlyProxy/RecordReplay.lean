import PartlyProxy.Sequential
import Mathlib.Data.List.Nodup

namespace PartlyProxy
variable {deps : Deps} {σ : Type}

theorem persistExchange_accepted {storage : SnapshotStorage σ} (law : storage.Lawful) {rt : UpstreamRuntime} {m : Nat}
    (plain : PlainRecording rt m) {s : Shared deps σ} {log : List RecordedExchange}
    (held : law.Holds (s.recorder.media m) log) {e : RecordedExchange} (named : e.upstream = some rt.name)
    (accepted : (storage.append (s.recorder.media m) e).1 = .ok ()) :
    ∃ e', e.SameReplay e' ∧ law.Holds ((persistExchange storage rt e s).recorder.media m) (log ++ [e']) := by
  have routed : rt.recorder.medium e = some m := by simpa [Recorder.medium, named] using plain.routed
  have written := record_holds law plain.enabled routed held
  rw [accepted] at written
  exact written

def callKey (deps : Deps) (chain : List ProxyMiddleware) (call : ProxyRequest × Outcome) : Option IndexKey :=
  match call.2 with
  | .ok _ => some (liveKey deps (redactRequest chain call.1))
  | .error _ => none

def Answers (chain : List ProxyMiddleware) (call : ProxyRequest × Outcome) (e : RecordedExchange) : Prop :=
  ∃ resp, call.2 = .ok resp ∧ e.outcome = .response (.fromParts (redactResponse chain resp))

/-- What a sequential record run keeps: the medium carries `log`, the live index
answers as a reload of `log` would, the earliest response in `log` under a key
is the answer of the earliest answered call with that key, and no two answered
calls share a key. -/
structure RecordRun {storage : SnapshotStorage σ} (law : storage.Lawful) (rt : UpstreamRuntime) (m : Nat)
    (arrivals : List Arrival) (s : Shared deps σ) (log : List RecordedExchange) : Prop where
  held : law.Holds (s.recorder.media m) log
  noStubs : s.stubs = []
  live : ∃ source, s.replay = some source ∧
    ∀ k, Option.Rel RecordedExchange.SameReplay (source.entry k) (KeyedLog.first (responseKey deps) log k)
  calls : ∀ k, Option.Rel (Answers rt.middleware) (KeyedLog.first (callKey deps rt.middleware) s.calls k)
    (KeyedLog.first (responseKey deps) log k)
  distinct : (s.calls.filterMap (callKey deps rt.middleware)).Nodup
  origin : ∀ call ∈ s.calls, ∃ a ∈ arrivals, call.1 = a.original

theorem optionRel_none_right {α β : Type*} {r : α → β → Prop} {a : Option α} (related : Option.Rel r a none) :
    a = none := by
  cases related; rfl

theorem optionRel_none_left {α β : Type*} {r : α → β → Prop} {b : Option β} (related : Option.Rel r none b) :
    b = none := by
  cases related; rfl

theorem optionRel_or {α β : Type*} {r : α → β → Prop} {a a' : Option α} {b b' : Option β}
    (left : Option.Rel r a b) (right : Option.Rel r a' b') : Option.Rel r (a.or a') (b.or b') := by
  cases left with
  | some related => exact .some related
  | none => exact right

section RecordStep
variable {storage : SnapshotStorage σ} {law : storage.Lawful} {rt : UpstreamRuntime} {m : Nat}
  {arrivals : List Arrival} {s : Shared deps σ} {log : List RecordedExchange}

theorem RecordRun.persist_error (run : RecordRun law rt m arrivals s log) (plain : PlainRecording rt m)
    (accepts : ∀ state e, (storage.append state e).1 = .ok ()) (stamp : Stamp) (original : ProxyRequest)
    (err : ProxyError) :
    ∃ log', RecordRun law rt m arrivals
      (persistExchange storage rt (errorExchange deps rt stamp original err) s) log' := by
  obtain ⟨e', same, held⟩ := persistExchange_accepted law plain run.held
    (e := errorExchange deps rt stamp original err) rfl (accepts _ _)
  have unchanged : ∀ k, KeyedLog.first (responseKey deps) (log ++ [e']) k = KeyedLog.first (responseKey deps) log k := by
    intro k
    rw [first_append_same same, responseKey_errorExchange]
    simp
  obtain ⟨source, attached, agree⟩ := run.live
  exact ⟨log ++ [e'], held, run.noStubs, ⟨source, attached, fun k => by rw [unchanged]; exact agree k⟩,
    fun k => by rw [unchanged]; exact run.calls k, run.distinct, run.origin⟩

theorem RecordRun.failed_call (run : RecordRun law rt m arrivals s log) {a : Arrival} (member : a ∈ arrivals)
    (err : ProxyError) :
    RecordRun law rt m arrivals { s with calls := s.calls ++ [(a.original, .error err)] } log := by
  refine ⟨run.held, run.noStubs, run.live, ?_, ?_, ?_⟩
  · intro k
    simp only [KeyedLog.first_append, KeyedLog.first_singleton, callKey, reduceCtorEq, if_false, Option.or_none]
    exact run.calls k
  · have unkeyed : callKey deps rt.middleware (a.original, .error err) = none := rfl
    simpa [List.filterMap_append, List.filterMap_cons_none unkeyed] using run.distinct
  · intro call inCalls
    rcases List.mem_append.mp inCalls with old | new
    · exact run.origin call old
    · exact ⟨a, member, by rw [List.mem_singleton.mp new]⟩

theorem RecordRun.answered_call (run : RecordRun law rt m arrivals s log) (plain : PlainRecording rt m)
    (accepts : ∀ state e, (storage.append state e).1 = .ok ()) (trip : deps.UriRoundTrip)
    {a : Arrival} (member : a ∈ arrivals) (slashed : (redactRequest rt.middleware a.original).uri.Slashed)
    {source : ReplaySource deps} (attached : s.replay = some source)
    (missed : source.lookup a.original rt.middleware = none) (resp : ProxyResponse) :
    ∃ log', RecordRun law rt m arrivals
      (persistExchange storage rt (successExchange deps rt a.stamp a.original resp)
        { s with
          replay := some (source.insert (successExchange deps rt a.stamp a.original resp))
          calls := s.calls ++ [(a.original, .ok resp)] }) log' := by
  obtain ⟨source', attached', agree⟩ := run.live
  rw [attached] at attached'
  cases Option.some.inj attached'
  let e := successExchange deps rt a.stamp a.original resp
  let key := liveKey deps (redactRequest rt.middleware a.original)
  obtain ⟨e', same, held⟩ := persistExchange_accepted law plain
    (s := { s with
      replay := some (source.insert e)
      calls := s.calls ++ [(a.original, .ok resp)] }) run.held (e := e) rfl (accepts _ _)
  have keyed : responseKey deps e = some key := by
    rw [responseKey_successExchange, recordedKey_fromParts trip slashed]
  -- The miss in the index carries over to the log and from there to the calls.
  have freeIndex : source.entry key = none := (source.answer_eq_none_iff key).mp missed
  have freeLog : KeyedLog.first (responseKey deps) log key = none :=
    optionRel_none_left (by simpa only [freeIndex] using agree key)
  have freeCalls : KeyedLog.first (callKey deps rt.middleware) s.calls key = none :=
    optionRel_none_right (by simpa only [freeLog] using run.calls key)
  refine ⟨log ++ [e'], held, run.noStubs, ⟨source.insert e, rfl, ?_⟩, ?_, ?_, ?_⟩
  · intro k
    rw [ReplaySource.entry_insert, first_append_same same, KeyedLog.first_singleton]
    refine optionRel_or (agree k) ?_
    split
    · exact .some same
    · exact .none
  · intro k
    change Option.Rel _ (KeyedLog.first _ (s.calls ++ [(a.original, .ok resp)]) k) _
    rw [first_append_same same, KeyedLog.first_append, KeyedLog.first_singleton, keyed]
    refine optionRel_or (run.calls k) ?_
    rw [show callKey deps rt.middleware (a.original, Except.ok resp) = some key from rfl]
    split
    · exact .some ⟨resp, rfl, by rw [← same.2]; rfl⟩
    · exact .none
  · change ((s.calls ++ [(a.original, Except.ok resp)]).filterMap _).Nodup
    rw [List.filterMap_append]
    refine List.Nodup.append run.distinct (by simp [callKey]) ?_
    intro k inCalls isNew
    obtain ⟨call, inCall, filed⟩ := List.mem_filterMap.mp inCalls
    have isKey : k = key := by simpa [callKey, key] using isNew
    subst isKey
    exact KeyedLog.first_eq_none_iff.mp freeCalls call inCall filed
  · intro call inCalls
    rcases List.mem_append.mp inCalls with old | new
    · exact run.origin call old
    · exact ⟨a, member, by rw [List.mem_singleton.mp new]⟩

theorem RecordRun.step (run : RecordRun law rt m arrivals s log) (plain : PlainRecording rt m)
    (accepts : ∀ state e, (storage.append state e).1 = .ok ()) (trip : deps.UriRoundTrip)
    {a : Arrival} (member : a ∈ arrivals) (slashed : (redactRequest rt.middleware a.original).uri.Slashed) :
    ∃ log', RecordRun law rt m arrivals (serveStep storage rt s a) log' := by
  obtain ⟨source, attached, _⟩ := run.live
  rcases plain_step_cases plain storage run.noStubs attached a with
    ⟨text, _, step⟩ | ⟨_, _, step⟩ | ⟨err, _, _, step⟩ | ⟨resp, _, missed, _, step⟩
  · rw [step]
    exact run.persist_error plain accepts _ _ _
  · rw [step]
    exact ⟨log, run⟩
  · rw [step]
    exact (run.failed_call member err).persist_error plain accepts _ _ _
  · rw [step]
    exact run.answered_call plain accepts trip member slashed attached missed resp

end RecordStep

/-- A record run over an empty medium, from start to end. -/
theorem recordRun_serve {storage : SnapshotStorage σ} (law : storage.Lawful) {rt : UpstreamRuntime} {m : Nat}
    (plain : PlainRecording rt m) (accepts : ∀ state e, (storage.append state e).1 = .ok ())
    (trip : deps.UriRoundTrip) {media : Nat → σ} (empty : law.Holds (media m) []) {s : Shared deps σ}
    (opened : openShared deps storage (some m) media = .ok s) {arrivals : List Arrival}
    (slashed : ∀ a ∈ arrivals, (redactRequest rt.middleware a.original).uri.Slashed) :
    ∃ log, RecordRun law rt m arrivals (serve storage rt s arrivals) log := by
  obtain ⟨exchanges, loaded, rfl⟩ := openShared_eq_ok.mp opened
  rw [law.load_eq empty] at loaded
  cases loaded
  refine Execution.exec_invariant_along (serveStep storage rt)
    (I := fun s => ∃ log, RecordRun law rt m arrivals s log)
    (C := fun _ a => a ∈ arrivals ∧ (redactRequest rt.middleware a.original).uri.Slashed) ?_ ?_ ?_
  · rintro s a ⟨member, slash⟩ ⟨log, run⟩
    exact run.step plain accepts trip member slash
  · refine ⟨[], empty, rfl, ⟨_, rfl, fun k => ?_⟩, fun k => ?_, by simp, by simp⟩
    · rw [ReplaySource.entry_new]
      exact .none
    · exact .none
  · exact Execution.along_of_forall_mem _ fun a member => ⟨member, slashed a member⟩

def sameRedacted (chain : List ProxyMiddleware) (a b : ProxyRequest) : Bool :=
  (redactRequest chain a).method == (redactRequest chain b).method &&
    pathAndQueryOfUri (redactRequest chain a).uri == pathAndQueryOfUri (redactRequest chain b).uri &&
    (redactRequest chain a).body == (redactRequest chain b).body

/-- The first upstream response to a request with the same redacted form. -/
def firstUpstreamResponse (chain : List ProxyMiddleware) (calls : List (ProxyRequest × Outcome))
    (req : ProxyRequest) : Option ProxyResponse :=
  calls.findSome? fun call =>
    match call.2 with
    | .ok resp => if sameRedacted chain call.1 req then some resp else none
    | .error _ => none

theorem liveKey_of_sameRedacted {chain : List ProxyMiddleware} {a b : ProxyRequest}
    (same : sameRedacted chain a b = true) :
    liveKey deps (redactRequest chain a) = liveKey deps (redactRequest chain b) := by
  simp only [sameRedacted, Bool.and_eq_true, beq_iff_eq] at same
  simp only [liveKey, same.1.1, same.1.2, same.2]

theorem first_callKey_of_firstUpstreamResponse {chain : List ProxyMiddleware}
    {calls : List (ProxyRequest × Outcome)} (distinct : (calls.filterMap (callKey deps chain)).Nodup)
    {req : ProxyRequest} {resp : ProxyResponse} (found : firstUpstreamResponse chain calls req = some resp) :
    ∃ call, KeyedLog.first (callKey deps chain) calls (liveKey deps (redactRequest chain req)) = some call ∧
      call.2 = .ok resp := by
  obtain ⟨call, inCalls, hit⟩ := List.exists_of_findSome?_eq_some found
  split at hit
  · rename_i resp' isOk
    split at hit
    · rename_i same
      cases Option.some.inj hit
      have filed : callKey deps chain call = some (liveKey deps (redactRequest chain req)) := by
        simp only [callKey, isOk, liveKey_of_sameRedacted same]
      obtain ⟨winner, isFirst⟩ := Option.isSome_iff_exists.mp (KeyedLog.first_isSome_of_mem inCalls filed)
      have unique := KeyedLog.eq_of_nodup_keys distinct inCalls (KeyedLog.first_mem isFirst) filed
        (KeyedLog.first_key isFirst)
      exact ⟨winner, isFirst, by rw [← unique, isOk]⟩
    · cases hit
  · cases hit

variable (deps) in
/-- Without a response to the redacted form its key is free, unless SHA-256 maps
the body of some answered call to the same hash. -/
theorem first_callKey_of_no_response {chain : List ProxyMiddleware} {calls : List (ProxyRequest × Outcome)}
    {req : ProxyRequest} (absent : firstUpstreamResponse chain calls req = none)
    (noCollision : ∀ call ∈ calls,
      deps.sha256Hex (redactRequest chain call.1).body = deps.sha256Hex (redactRequest chain req).body →
      (redactRequest chain call.1).body = (redactRequest chain req).body) :
    KeyedLog.first (callKey deps chain) calls (liveKey deps (redactRequest chain req)) = none := by
  rw [KeyedLog.first_eq_none_iff]
  intro call inCalls filed
  have silent := List.findSome?_eq_none_iff.mp absent call inCalls
  unfold callKey at filed
  split at filed
  · rename_i resp isOk
    simp only [isOk] at silent
    simp only [liveKey, Option.some.injEq, Prod.mk.injEq] at filed
    have sameBody := noCollision call inCalls filed.2.2
    simp [sameRedacted, filed.1, filed.2.1, sameBody] at silent
  · cases filed

section ReplaySide
variable {storage : SnapshotStorage σ} {rt : UpstreamRuntime} {s : Shared deps σ}

variable (storage) in
/-- In `Mode::Replay` without stubs nothing is ever marked as forwarded, so the
index stays what was loaded. -/
theorem replay_step_frame (mode : rt.mode = .replay) (pass : ∀ mw ∈ rt.middleware, mw.PassThrough)
    (noStubs : s.stubs = []) (a : Arrival) :
    (serveStep storage rt s a).replay = s.replay ∧ (serveStep storage rt s a).stubs = [] := by
  rw [serveStep_eq, commit_replay, commit_stubs]
  cases read : a.inbound.body with
  | error text => simp [ending, read, Ending.promoted, promoted, noStubs]
  | ok body =>
    rw [ending_passThrough rt a pass read]
    rcases invoke_cases rt a.net (a.inbound.original body) (.new a.contextId) s with
      ⟨_, _, scan, _⟩ | ⟨_, _, _, _, _, run⟩ | ⟨_, _, _, run⟩ | ⟨_, _, recording, _⟩
    · simp [noStubs] at scan
    · simp [run, Ending.promoted, promoted, noStubs]
    · simp [run, Ending.promoted, promoted, noStubs]
    · rw [mode] at recording
      cases recording

variable (storage) in
theorem replay_serve_frame (mode : rt.mode = .replay) (pass : ∀ mw ∈ rt.middleware, mw.PassThrough)
    (noStubs : s.stubs = []) (arrivals : List Arrival) :
    (serve storage rt s arrivals).replay = s.replay ∧ (serve storage rt s arrivals).stubs = [] := by
  refine Execution.exec_invariant (serveStep storage rt)
    (I := fun t => t.replay = s.replay ∧ t.stubs = []) ?_ ⟨rfl, noStubs⟩ arrivals
  rintro t a ⟨same, empty⟩
  obtain ⟨kept, still⟩ := replay_step_frame storage mode pass empty a
  exact ⟨kept.trans same, still⟩

theorem replay_ending (mode : rt.mode = .replay) (pass : ∀ mw ∈ rt.middleware, mw.PassThrough)
    (noStubs : s.stubs = []) {source : ReplaySource deps} (attached : s.replay = some source)
    {a : Arrival} {body : Bytes} (read : a.inbound.body = .ok body) :
    (∃ resp, source.lookup (a.inbound.original body) rt.middleware = some resp ∧
      ending rt a s = ⟨.ok resp, some .snapshot, s⟩) ∨
    (source.lookup (a.inbound.original body) rt.middleware = none ∧
      ending rt a s = ⟨.ok (rt.replayMissHandler (a.inbound.original body)), some .replayMiss, s⟩) := by
  rw [ending_passThrough rt a pass read]
  rcases invoke_cases rt a.net (a.inbound.original body) (.new a.contextId) s with
    ⟨_, _, scan, _⟩ | ⟨_, source', resp, replay, hit, run⟩ | ⟨_, missed, _, run⟩ | ⟨_, _, recording, _⟩
  · simp [noStubs] at scan
  · rw [attached] at replay
    cases Option.some.inj replay
    exact Or.inl ⟨resp, hit, by rw [run]; rfl⟩
  · exact Or.inr ⟨missed source attached, by rw [run]; rfl⟩
  · rw [mode] at recording
    cases recording

end ReplaySide

end PartlyProxy
