import PartlyProxy.RecordReplay
import PartlyProxy.Reference

namespace PartlyProxy
variable {deps : Deps} {σ : Type}

/-- Every key of the live index has a response on the medium. -/
def Backed (storage : SnapshotStorage σ) (m : Nat) (s : Shared deps σ) : Prop :=
  ∃ live, s.replay = some live ∧ ∀ k e, live.entry k = some e → HoldsKey deps storage (s.recorder.media m) k

/-- The index has no phantom: its keys are on the medium, and a request whose key
is not there is forwarded and offered to the medium. -/
structure PhantomFree (storage : SnapshotStorage σ) (rt : UpstreamRuntime) (m : Nat) (s : Shared deps σ) : Prop where
  backed : Backed storage m s
  retried : ∀ (a : Arrival) body, a.inbound.body = .ok body →
    ¬ HoldsKey deps storage (s.recorder.media m) (liveKey deps (redactRequest rt.middleware a.original)) →
    (ending rt a s).source = some .upstream ∧ ((ending rt a s).offered rt a).isSome

/-- If the request is forwarded and answered, the medium accepts the exchange or
holds a response under its key already. -/
def AcceptsForwarded (storage : SnapshotStorage σ) (rt : UpstreamRuntime) (m : Nat) (s : Shared deps σ)
    (a : Arrival) : Prop :=
  ∀ body live resp, a.inbound.body = .ok body → s.replay = some live →
    live.lookup a.original rt.middleware = none → rt.forwarder.forward deps a.net a.original = .ok resp →
    (storage.append (s.recorder.media m) (successExchange deps rt a.stamp a.original resp)).1 = .ok () ∨
      HoldsKey deps storage (s.recorder.media m)
        (recordedKey deps (.fromParts deps (redactRequest rt.middleware a.original)))

structure Between {storage : SnapshotStorage σ} (law : storage.Lawful) (m : Nat) (s : Shared deps σ)
    (live : ReplaySource deps) (log : List RecordedExchange) : Prop where
  noStubs : s.stubs = []
  attached : s.replay = some live
  held : law.Holds (s.recorder.media m) log

section
variable {storage : SnapshotStorage σ} {law : storage.Lawful} {rt : UpstreamRuntime} {m : Nat} {s : Shared deps σ}
  {live : ReplaySource deps} {log : List RecordedExchange}

theorem Between.backed_iff (between : Between law m s live log) :
    Backed storage m s ↔
      ∀ k e, live.entry k = some e → KeyedLog.first (responseKey deps) log k ≠ none := by
  constructor
  · rintro ⟨live', attached, all⟩ k e found
    rw [between.attached] at attached
    cases attached
    exact (holdsKey_iff law between.held k).mp (all k e found)
  · exact fun all => ⟨live, between.attached, fun k e found => (holdsKey_iff law between.held k).mpr (all k e found)⟩

theorem Between.persist (between : Between law m s live log) (plain : PlainRecording rt m) {e : RecordedExchange}
    (named : e.upstream = some rt.name) :
    ((storage.append (s.recorder.media m) e).1 = .ok () ∧
      ∃ e', e.SameReplay e' ∧ Between law m (persistExchange storage rt e s) live (log ++ [e'])) ∨
    ((storage.append (s.recorder.media m) e).1 ≠ .ok () ∧ Between law m (persistExchange storage rt e s) live log) := by
  have routed : rt.recorder.medium e = some m := by simpa [Recorder.medium, named] using plain.routed
  have written := record_holds law plain.enabled routed between.held
  cases accepted : (storage.append (s.recorder.media m) e).1 with
  | ok done =>
    rw [accepted] at written
    obtain ⟨e', same, held⟩ := written
    exact Or.inl ⟨rfl, e', same, between.noStubs, between.attached, held⟩
  | error err =>
    rw [accepted] at written
    exact Or.inr ⟨by simp, between.noStubs, between.attached, written⟩

theorem Between.persist_error (between : Between law m s live log) (plain : PlainRecording rt m) (stamp : Stamp)
    (original : ProxyRequest) (err : ProxyError)
    (backed : ∀ k e, live.entry k = some e → KeyedLog.first (responseKey deps) log k ≠ none) :
    ∃ log', Between law m (persistExchange storage rt (errorExchange deps rt stamp original err) s) live log' ∧
      ∀ k e, live.entry k = some e → KeyedLog.first (responseKey deps) log' k ≠ none := by
  rcases between.persist plain (e := errorExchange deps rt stamp original err) rfl with
    ⟨_, e', same, after⟩ | ⟨_, after⟩
  · refine ⟨log ++ [e'], after, fun k e found => ?_⟩
    rw [first_append_same same, responseKey_errorExchange]
    simpa using backed k e found
  · exact ⟨log, after, backed⟩

theorem exists_entry_insert_iff (e : RecordedExchange) (k : IndexKey) :
    (∃ found, (live.insert e).entry k = some found) ↔
      (∃ found, live.entry k = some found) ∨ responseKey deps e = some k := by
  rw [ReplaySource.entry_insert, KeyedLog.first_singleton]
  cases live.entry k with
  | some old => simp
  | none => by_cases keyed : responseKey deps e = some k <;> simp [keyed]

/-- The index grows before the medium does, so a refused append is harmless only
where the medium has a response under the key already. -/
theorem Between.persist_forwarded {stamp : Stamp} {original : ProxyRequest} {resp : ProxyResponse}
    (inserted : Between law m s (live.insert (successExchange deps rt stamp original resp)) log)
    (plain : PlainRecording rt m)
    (backed : ∀ k e, live.entry k = some e → KeyedLog.first (responseKey deps) log k ≠ none) :
    ∃ log', Between law m (persistExchange storage rt (successExchange deps rt stamp original resp) s)
        (live.insert (successExchange deps rt stamp original resp)) log' ∧
      (Backed storage m (persistExchange storage rt (successExchange deps rt stamp original resp) s) ↔
        (storage.append (s.recorder.media m) (successExchange deps rt stamp original resp)).1 = .ok () ∨
          KeyedLog.first (responseKey deps) log
            (recordedKey deps (.fromParts deps (redactRequest rt.middleware original))) ≠ none) := by
  let e := successExchange deps rt stamp original resp
  have keyed : responseKey deps e = some (recordedKey deps (.fromParts deps (redactRequest rt.middleware original))) :=
    responseKey_successExchange rt stamp original resp
  rcases inserted.persist plain (e := e) rfl with ⟨accepted, e', same, after⟩ | ⟨refused, after⟩
  · refine ⟨_, after, iff_of_true (after.backed_iff.mpr fun k found stored => ?_) (Or.inl accepted)⟩
    rw [first_append_same same]
    rcases (exists_entry_insert_iff e k).mp ⟨found, stored⟩ with ⟨old, wasThere⟩ | isNew
    · obtain ⟨first, isFirst⟩ := Option.ne_none_iff_exists'.mp (backed k old wasThere)
      simp [isFirst]
    · rw [if_pos isNew]
      simp
  · refine ⟨_, after, ?_⟩
    rw [after.backed_iff]
    constructor
    · intro still
      obtain ⟨found, stored⟩ := (exists_entry_insert_iff e _).mpr (Or.inr keyed)
      exact Or.inr (still _ found stored)
    · rintro (accepted | onMedium) k found stored
      · exact absurd accepted refused
      · rcases (exists_entry_insert_iff e k).mp ⟨found, stored⟩ with ⟨old, wasThere⟩ | isNew
        · exact backed k old wasThere
        · rw [keyed] at isNew
          cases isNew
          exact onMedium

/-- One request keeps every key of the index backed exactly when the medium
accepts what was forwarded. -/
theorem Between.step (between : Between law m s live log) (plain : PlainRecording rt m) (backed : Backed storage m s)
    (a : Arrival) :
    ∃ live' log', Between law m (serveStep storage rt s a) live' log' ∧
      (Backed storage m (serveStep storage rt s a) ↔ AcceptsForwarded storage rt m s a) := by
  rw [between.backed_iff] at backed
  rcases plain_step_cases plain storage between.noStubs between.attached a with
    ⟨text, unread, step⟩ | ⟨resp, hit, step⟩ | ⟨err, _, failed, step⟩ | ⟨resp, ⟨body, read⟩, missed, answered, step⟩
  -- In the first three cases nothing was forwarded and answered: there is nothing to accept.
  · obtain ⟨log', after, still⟩ := between.persist_error plain a.stamp a.original (bodyReadError text) backed
    rw [step]
    refine ⟨live, log', after, iff_of_true (after.backed_iff.mpr still) ?_⟩
    intro body _ _ read
    rw [unread] at read
    cases read
  · rw [step]
    refine ⟨live, log, between, iff_of_true (between.backed_iff.mpr backed) ?_⟩
    intro _ live' _ _ attached missed
    rw [between.attached] at attached
    cases attached
    rw [hit] at missed
    cases missed
  · have called : Between law m { s with calls := s.calls ++ [(a.original, .error err)] } live log :=
      ⟨between.noStubs, between.attached, between.held⟩
    obtain ⟨log', after, still⟩ := called.persist_error plain a.stamp a.original err backed
    rw [step]
    refine ⟨live, log', after, iff_of_true (after.backed_iff.mpr still) ?_⟩
    intro _ _ _ _ _ _ answered
    rw [failed] at answered
    cases answered
  · let e := successExchange deps rt a.stamp a.original resp
    have inserted : Between law m
        { s with replay := some (live.insert e), calls := s.calls ++ [(a.original, .ok resp)] } (live.insert e) log :=
      ⟨between.noStubs, rfl, between.held⟩
    obtain ⟨log', after, still_iff⟩ := inserted.persist_forwarded plain backed
    rw [step]
    refine ⟨_, log', after, still_iff.trans ?_⟩
    rw [← holdsKey_iff law between.held]
    constructor
    · intro accepts _ _ resp' _ _ _ answered'
      rw [answered] at answered'
      cases answered'
      exact accepts
    · exact fun accepts => accepts body live resp read between.attached missed answered

/-- As long as the index is backed, a request whose key is not on the medium is
forwarded and offered to the medium. -/
theorem Between.phantomFree_iff (between : Between law m s live log) (plain : PlainRecording rt m) :
    PhantomFree storage rt m s ↔ Backed storage m s := by
  refine ⟨PhantomFree.backed, fun backed => ⟨backed, fun a body read absent => ?_⟩⟩
  have original : a.inbound.original body = a.original := by simp [Arrival.original, read]
  rw [ending_passThrough rt a plain.pass read, original]
  rcases invoke_cases rt a.net a.original (.new a.contextId) s with
    ⟨_, _, scan, _⟩ | ⟨_, source, resp, attached, hit, _⟩ | ⟨_, _, mode, _⟩ | ⟨_, _, _, run⟩
  · simp [between.noStubs] at scan
  · rw [between.attached] at attached
    cases attached
    obtain ⟨e, _, found, _⟩ := ReplaySource.entry_of_answer hit
    exact absurd ((holdsKey_iff law between.held _).mpr (between.backed_iff.mp backed _ e found)) absent
  · rw [plain.mode] at mode
    cases mode
  · rw [run]
    refine ⟨rfl, ?_⟩
    cases rt.forwarder.forward deps a.net a.original <;> simp [Ending.offered, offered, plain.enabled]

theorem Between.phantomFree_along_iff (between : Between law m s live log) (plain : PlainRecording rt m)
    (backed : Backed storage m s) (arrivals : List Arrival) :
    (∀ front, front <+: arrivals → PhantomFree storage rt m (serve storage rt s front)) ↔
      Execution.Along (serveStep storage rt) (AcceptsForwarded storage rt m) s arrivals := by
  induction arrivals generalizing s live log with
  | nil => simpa [serve, Execution.Along, between.phantomFree_iff plain] using backed
  | cons a rest ih =>
    obtain ⟨live', log', between', step⟩ := between.step plain backed a
    constructor
    · intro all
      have next : Backed storage m (serveStep storage rt s a) := (all [a] (by simp)).backed
      refine ⟨step.mp next, (ih between' next).mp fun front cut => ?_⟩
      exact all (a :: front) (by simpa using cut)
    · rintro ⟨accepts, along⟩ front cut
      have next := step.mpr accepts
      cases front with
      | nil => exact (between.phantomFree_iff plain).mpr backed
      | cons b front =>
        obtain ⟨rfl, tail⟩ := List.cons_prefix_cons.mp cut
        exact (ih between' next).mpr along front tail

variable (law) in
/-- In a sequential record run no phantom is ever in the live index exactly when
each exchange that was forwarded and answered is accepted by the medium, or has
its key there already. -/
theorem phantomFree_run_iff (plain : PlainRecording rt m) {media : Nat → σ} (held : law.Holds (media m) log)
    (opened : openShared deps storage (some m) media = .ok s) (arrivals : List Arrival) :
    (∀ front, front <+: arrivals → PhantomFree storage rt m (serve storage rt s front)) ↔
      Execution.Along (serveStep storage rt) (AcceptsForwarded storage rt m) s arrivals := by
  obtain ⟨exchanges, loaded, rfl⟩ := openShared_eq_ok.mp opened
  rw [law.load_eq held] at loaded
  cases loaded
  have between : Between law m (⟨[], some (.new deps log), ⟨[], media⟩, []⟩ : Shared deps σ) (.new deps log) log :=
    ⟨rfl, rfl, held⟩
  refine between.phantomFree_along_iff plain (between.backed_iff.mpr fun k e found => ?_) arrivals
  rw [ReplaySource.entry_new] at found
  simp [found]

end

theorem phantomFree_run_iff_accepted :
    let rt := referenceRuntime [] .record
    let s : Shared referenceDeps _ := emptyShared referenceDeps fun _ => ([], 0)
    let a := referenceGet referencePath (answering [1])
    ∀ front, front <+: [a, a] →
      PhantomFree (flakyStorage fun _ => false) rt 0 (serve (flakyStorage fun _ => false) rt s front) := by
  intro rt s a
  let storage := flakyStorage fun _ => false
  have opened : openShared referenceDeps storage (some 0) (fun _ => ([], 0)) = .ok s := rfl
  refine (phantomFree_run_iff (flakyStorage_lawful fun _ => false) referenceRuntime_plain rfl opened [a, a]).mpr
    ⟨?_, ?_, trivial⟩ <;> exact fun _ _ _ _ _ _ _ => Or.inl rfl

/-- The medium refuses the first append: the response is served from memory from
then on, although it is on no medium, and is never offered again. -/
theorem refused_append_leaves_phantom :
    let rt := referenceRuntime [] .record
    let storage := flakyStorage fun n => n = 0
    let s : Shared referenceDeps _ := emptyShared referenceDeps fun _ => ([], 0)
    let a := referenceGet referencePath (answering [1])
    ¬ Backed storage 0 (serve storage rt s [a]) ∧
      (ending rt a (serve storage rt s [a])).source = some .snapshot ∧
      ((serve storage rt s [a, a]).recorder.media 0).1 = [] := by
  intro rt storage s a
  refine ⟨?_, by decide +kernel, by decide +kernel⟩
  rintro ⟨live, attached, all⟩
  have served : ((serve storage rt s [a]).replay.bind fun live => live.lookup a.original []) =
      some ⟨.ok, .empty, [1], .http11⟩ := by decide +kernel
  have nothing : ((serve storage rt s [a]).recorder.media 0).1 = [] := by decide +kernel
  rw [attached] at served
  obtain ⟨e, _, found, _⟩ := ReplaySource.entry_of_answer served
  obtain ⟨exchanges, loaded, stored, member, _⟩ := all _ e found
  have isEmpty : ((serve storage rt s [a]).recorder.media 0).1 = exchanges := Except.ok.inj loaded
  rw [← isEmpty, nothing] at member
  cases member

end PartlyProxy
