import PartlyProxy.RecordReplay
import PartlyProxy.Reference
import PartlyProxy.Jsonl
import PartlyProxy.Lib.Base64

namespace PartlyProxy
variable {deps : Deps}

section Reload
variable {σ : Type} {storage : SnapshotStorage σ} {law : storage.Lawful} {rt : UpstreamRuntime} {m : Nat}
  {arrivals : List Arrival} {s : Shared deps σ} {log : List RecordedExchange}

/-- A reload of the medium answers a request whose redacted form the upstream has
answered with its first answer. -/
theorem RecordRun.lookup_answered (run : RecordRun law rt m arrivals s log) {req : ProxyRequest} {resp : ProxyResponse}
    (first : firstUpstreamResponse rt.middleware s.calls req = some resp) :
    (ReplaySource.new deps log).lookup req rt.middleware =
      some (replayed (.fromParts (redactResponse rt.middleware resp))) := by
  obtain ⟨call, isFirst, isOk⟩ := first_callKey_of_firstUpstreamResponse run.distinct first
  have answers := run.calls (liveKey deps (redactRequest rt.middleware req))
  rw [isFirst] at answers
  cases filed : KeyedLog.first (responseKey deps) log (liveKey deps (redactRequest rt.middleware req)) with
  | none =>
    rw [filed] at answers
    cases answers
  | some e =>
    rw [filed] at answers
    cases answers with
    | some answered =>
      obtain ⟨resp', isOk', isResponse⟩ := answered
      cases Except.ok.inj (isOk.symm.trans isOk')
      simp [ReplaySource.lookup, ReplaySource.answer, ReplaySource.entry_new, filed, isResponse, ExchangeOutcome.asResponse]

theorem RecordRun.lookup_unanswered (run : RecordRun law rt m arrivals s log) {req : ProxyRequest}
    (absent : firstUpstreamResponse rt.middleware s.calls req = none)
    (noCollision : ∀ a ∈ arrivals,
      deps.sha256Hex (redactRequest rt.middleware a.original).body =
        deps.sha256Hex (redactRequest rt.middleware req).body →
      (redactRequest rt.middleware a.original).body = (redactRequest rt.middleware req).body) :
    (ReplaySource.new deps log).lookup req rt.middleware = none := by
  have free := first_callKey_of_no_response deps absent fun call inCalls collides => by
    obtain ⟨a, member, isOriginal⟩ := run.origin call inCalls
    rw [isOriginal] at collides ⊢
    exact noCollision a member collides
  have answers := run.calls (liveKey deps (redactRequest rt.middleware req))
  rw [free] at answers
  refine (ReplaySource.answer_eq_none_iff _ _).mpr ?_
  rw [ReplaySource.entry_new]
  exact optionRel_none_left answers

end Reload

/-- A record run over an empty NDJSON file, reloaded in `Mode::Replay` with the
same chain: however many requests were replayed before, one whose redacted form
the upstream has answered gets the redacted first answer from the snapshot, and
any other gets the answer of the miss handler. -/
theorem record_once_replay_forever {serde : Serde} (law : serde.Lawful) (trip : deps.UriRoundTrip) {rt : UpstreamRuntime}
    {m : Nat} (plain : PlainRecording rt m) {media : Nat → Bytes} (empty : media m = []) {s : Shared deps Bytes}
    (opened : openShared deps (jsonlStorage serde) (some m) media = .ok s) {arrivals : List Arrival}
    (slashed : ∀ a ∈ arrivals, (redactRequest rt.middleware a.original).uri.Slashed) {rt' : UpstreamRuntime}
    (mode : rt'.mode = .replay) (sameChain : rt'.middleware = rt.middleware) :
    let recorded := serve (jsonlStorage serde) rt s arrivals
    ∃ s', openShared deps (jsonlStorage serde) (some m) recorded.recorder.media = .ok s' ∧
      ∀ (earlier : List Arrival) (a : Arrival), (∃ body, a.inbound.body = .ok body) →
        let current := serve (jsonlStorage serde) rt' s' earlier
        let answer := (handleRequest (jsonlStorage serde) rt' a current).1
        (∀ resp, firstUpstreamResponse rt.middleware recorded.calls a.original = some resp →
          (ending rt' a current).source = some .snapshot ∧
            answer.status = (redactResponse rt.middleware resp).status ∧
            answer.body = (redactResponse rt.middleware resp).body) ∧
        (firstUpstreamResponse rt.middleware recorded.calls a.original = none →
          (∀ b ∈ arrivals, deps.sha256Hex (redactRequest rt.middleware b.original).body =
              deps.sha256Hex (redactRequest rt.middleware a.original).body →
            (redactRequest rt.middleware b.original).body = (redactRequest rt.middleware a.original).body) →
          (ending rt' a current).outcome = .ok (rt'.replayMissHandler a.original) ∧
            answer = intoHyper (rt'.replayMissHandler a.original)) := by
  intro recorded
  obtain ⟨log, run⟩ := recordRun_serve (jsonlStorage_lawful law) plain (fun _ _ => rfl) trip
    (⟨[], by rw [empty]; rfl, rfl⟩ : (jsonlStorage_lawful law).Holds (media m) []) opened slashed
  have loaded : (jsonlStorage serde).load (recorded.recorder.media m) = .ok log :=
    (jsonlStorage_lawful law).load_eq run.held
  refine ⟨_, openShared_eq_ok.mpr ⟨log, loaded, rfl⟩, ?_⟩
  intro earlier a readable current answer
  obtain ⟨body, read⟩ := readable
  -- Replaying never changes the loaded index, whatever was asked before.
  have pass : ∀ mw ∈ rt'.middleware, mw.PassThrough := by rw [sameChain]; exact plain.pass
  obtain ⟨kept, noStubs⟩ := replay_serve_frame (jsonlStorage serde) mode pass
    (s := ⟨[], some (.new deps log), ⟨[], recorded.recorder.media⟩, []⟩) rfl earlier
  have original : a.inbound.original body = a.original := by simp [Arrival.original, read]
  have ends := replay_ending mode pass noStubs kept read
  rw [original, sameChain] at ends
  refine ⟨fun resp first => ?_, fun absent noCollision => ?_⟩
  · rcases ends with ⟨hit, found, ended⟩ | ⟨missed, _⟩
    · rw [run.lookup_answered first] at found
      cases Option.some.inj found
      refine ⟨by rw [ended], ?_, ?_⟩ <;> simp [answer, handleRequest_eq, current, ended, reply, replayed]
    · rw [run.lookup_answered first] at missed
      cases missed
  · rcases ends with ⟨hit, found, _⟩ | ⟨_, ended⟩
    · rw [run.lookup_unanswered absent noCollision] at found
      cases found
    · refine ⟨by rw [ended], ?_⟩
      simp [answer, handleRequest_eq, current, ended, reply]

theorem startsValue_isWhitespace {c : Char} (starts : Json.startsValue c = true) : isWhitespace c = false := by
  simp only [Json.startsValue, Bool.or_eq_true, decide_eq_true_eq] at starts
  rcases starts with ((((((rfl | rfl) | rfl) | rfl) | rfl) | rfl) | rfl) | digit
  iterate 7 decide
  simp only [Char.isDigit, Bool.and_eq_true, decide_eq_true_eq] at digit
  have lower : 48 ≤ c.toNat := UInt32.le_iff_toNat_le.mp digit.1
  have upper : c.toNat ≤ 57 := UInt32.le_iff_toNat_le.mp digit.2
  simp only [isWhitespace, Bool.or_eq_false_iff, Bool.and_eq_false_iff, beq_eq_false_iff_ne, decide_eq_false_iff_not]
  omega

/-- The codecs as the libraries document them: compact JSON, standard base64 with
padding, and the canonical texts of ids and times. -/
def referenceSerde : Serde where
  render := Json.render
  parse := Json.parse
  errorText _ := "expected value at line 1 column 1"
  base64Encode bytes := String.ofList (Base64.encode bytes)
  base64Decode text := Base64.decode text.toList
  parseUuid text :=
    if canonical : fits "xxxxxxxx-xxxx-xxxx-xxxx-xxxxxxxxxxxx".toList text.toList = true then some ⟨text, canonical⟩
    else none
  parseTimestamp text :=
    if canonical : (timestampShapes.any fun shape => fits shape.toList text.toList) = true then some ⟨text, canonical⟩
    else none

theorem referenceSerde_lawful : referenceSerde.Lawful where
  parse_render _ plain := Json.parse_render plain
  printable json plain := by
    intro c member
    have inText : c ∈ (Json.render json).toList := member
    rw [Json.render, String.toList_ofList] at inText
    exact plain.printable c inText
  blank text blank := by
    refine Json.parse_eq_none fun c member => ?_
    have space : isWhitespace c = true := List.all_eq_true.mp blank c member
    by_contra starts
    rw [startsValue_isWhitespace (by simpa using starts)] at space
    cases space
  base64 bytes := by
    change Base64.decode (String.ofList (Base64.encode bytes)).toList = some bytes
    rw [String.toList_ofList, Base64.decode_encode]
  uuid id := dif_pos id.canonical
  timestamp time := dif_pos time.canonical

theorem record_once_replay_forever_get :
    let rt := referenceRuntime [] .record
    let rt' := referenceRuntime [] .replay
    let storage := jsonlStorage referenceSerde
    let media : Nat → Bytes := fun _ => []
    let get := referenceGet referencePath (answering [1])
    let other := referenceGet (.ofData "/b" (by decide)) (answering [2])
    ∃ s s', openShared referenceDeps storage (some 0) media = .ok s ∧
      openShared referenceDeps storage (some 0) (serve storage rt s [get]).recorder.media = .ok s' ∧
      (handleRequest storage rt' get s').1.body = [1] ∧
      (handleRequest storage rt' other s').1 = intoHyper (defaultReplayMissHandler other.original) := by
  intro rt rt' storage media get other
  have opened : openShared referenceDeps storage (some 0) media = .ok (emptyShared referenceDeps media) := rfl
  have slashed : ∀ a ∈ [get], (redactRequest rt.middleware a.original).uri.Slashed := by
    intro a member
    cases List.mem_singleton.mp member
    exact referencePath_slashed
  have replaying : rt'.mode = .replay := rfl
  obtain ⟨s', reloaded, answers⟩ := record_once_replay_forever referenceSerde_lawful referenceDeps_uriRoundTrip
    referenceRuntime_plain rfl opened slashed replaying rfl
  refine ⟨emptyShared referenceDeps media, s', rfl, reloaded, ?_, ?_⟩
  · exact ((answers [] get ⟨[], rfl⟩).1 ((ProxyResponse.new .ok).withBody [1]) (by decide +kernel)).2.2
  · refine ((answers [] other ⟨[], rfl⟩).2 (by decide +kernel) fun b member _ => ?_).2
    cases List.mem_singleton.mp member
    rfl

end PartlyProxy
