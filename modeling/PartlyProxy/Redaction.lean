import PartlyProxy.Sequential
import PartlyProxy.Reference

namespace PartlyProxy
variable {deps : Deps} {σ : Type}

/-- How a chain can end the same way for two requests: with one response, or with
one failure of the outbound call. -/
inductive SharedEnd where
  | response (resp : ProxyResponse)
  | failure (result : ClientResult)

def EndsAs (rt : UpstreamRuntime) (a : Arrival) (s : Shared deps σ) (outbound : Uri) : SharedEnd → Prop
  | .response resp => (ending rt a s).outcome = .ok resp
  | .failure result => ∃ req err, rt.forwarder.buildOutboundUri deps req.uri = .ok outbound ∧
      rt.forwarder.settle outbound result = .error err ∧
      (ending rt a s).state.calls = s.calls ++ [(req, .error err)] ∧ (ending rt a s).outcome = .error err

def ClientResult.bodyUnread : ClientResult → Bool
  | .response _ _ _ (.error _) => true
  | _ => false

/-- The request `record_error_exchange` records: rebuilt with a fixed version, then redacted. -/
def failedRequest (deps : Deps) (rt : UpstreamRuntime) (original : ProxyRequest) : RecordedRequest :=
  .fromParts deps (redactRequest rt.middleware { original with version := .http11 })

/-- Nothing that redaction removes tells the two requests apart on record: they
end in a response, or in a failure that names no URI or the same URI, and their
redacted forms still agree once both carry the fixed version. -/
def KeepsSecret (deps : Deps) (rt : UpstreamRuntime) (a b : Arrival) (outboundA outboundB : Uri) : SharedEnd → Prop
  | .response _ => True
  | .failure result => failedRequest deps rt a.original = failedRequest deps rt b.original ∧
      (result.bodyUnread = true ∨ outboundA.toText = outboundB.toText)

/-- The recorded text of a failed call depends on the outbound URI, and on nothing
else of the request. -/
theorem settle_text_eq_iff {fwd : Forwarder} {u v : Uri} {result : ClientResult} {err err' : ProxyError}
    (left : fwd.settle u result = .error err) (right : fwd.settle v result = .error err') :
    err.toText = err'.toText ↔ result.bodyUnread = true ∨ u.toText = v.toText := by
  cases result with
  | timedOut =>
    simp only [Forwarder.settle, Except.error.injEq] at left right
    simp only [← left, ← right, ProxyError.toText_upstreamRequest, ClientResult.bodyUnread, String.append_assoc,
      String.append_right_inj, String.append_left_inj, Bool.false_eq_true, false_or]
  | connectError source =>
    simp only [Forwarder.settle, Except.error.injEq] at left right
    simp only [← left, ← right, ProxyError.toText_upstreamConnect, ClientResult.bodyUnread, String.append_right_inj,
      Bool.false_eq_true, false_or]
  | requestError source =>
    simp only [Forwarder.settle, Except.error.injEq] at left right
    simp only [← left, ← right, ProxyError.toText_upstreamRequest, ClientResult.bodyUnread, String.append_right_inj,
      Bool.false_eq_true, false_or]
  | response status headers version body =>
    cases body with
    | error source =>
      simp only [Forwarder.settle, Except.error.injEq] at left right
      simp only [← left, ← right, ClientResult.bodyUnread, true_or]
    | ok body => cases left

theorem offered_ok {rt : UpstreamRuntime} {stamp : Stamp} {original : ProxyRequest} {resp : ProxyResponse}
    {source : Option ResponseSource} {e : RecordedExchange}
    (offer : offered deps rt stamp original (.ok resp) source = some e) :
    e = successExchange deps rt stamp original resp := by
  simp only [offered] at offer
  split at offer
  · cases offer
  · split at offer
    · cases offer
    · exact (Option.some.inj offer).symm

theorem offered_error {rt : UpstreamRuntime} {stamp : Stamp} {original : ProxyRequest} {err : ProxyError}
    {source : Option ResponseSource} {e : RecordedExchange}
    (offer : offered deps rt stamp original (.error err) source = some e) :
    e = errorExchange deps rt stamp original err := by
  simp only [offered] at offer
  split at offer
  · cases offer
  · exact (Option.some.inj offer).symm

/-- Two requests that redaction makes equal and whose chain ends the same way are
recorded with the same content exactly when the ending keeps the secret. -/
theorem recorded_alike_iff {rt : UpstreamRuntime} {a b : Arrival} {s t : Shared deps σ}
    (same : redactRequest rt.middleware a.original = redactRequest rt.middleware b.original) {shared : SharedEnd}
    {outboundA outboundB : Uri} (endsA : EndsAs rt a s outboundA shared) (endsB : EndsAs rt b t outboundB shared)
    {e f : RecordedExchange} (offerA : (ending rt a s).offered rt a = some e)
    (offerB : (ending rt b t).offered rt b = some f) :
    e.SameContent f ↔ KeepsSecret deps rt a b outboundA outboundB shared := by
  rw [Ending.offered] at offerA offerB
  cases shared with
  | response resp =>
    rw [endsA] at offerA
    rw [endsB] at offerB
    rw [offered_ok offerA, offered_ok offerB]
    refine iff_of_true ⟨rfl, ?_, rfl, rfl⟩ trivial
    simp only [successExchange, RecordedExchange.new, same]
  | failure result =>
    obtain ⟨_, errA, _, settledA, _, isErrA⟩ := endsA
    obtain ⟨_, errB, _, settledB, _, isErrB⟩ := endsB
    rw [isErrA] at offerA
    rw [isErrB] at offerB
    rw [offered_error offerA, offered_error offerB, KeepsSecret, ← settle_text_eq_iff settledA settledB]
    simp [RecordedExchange.SameContent, errorExchange, RecordedExchange.new, failedRequest]

def forgetTarget : ProxyMiddleware where
  handle req ctx := .next req ctx fun outcome ctx => (outcome, ctx)
  redactRequestForSnapshot req := { req with uri := referencePath }
  redactResponseForSnapshot resp := resp

theorem recorded_alike_iff_answered :
    let rt := referenceRuntime [forgetTarget] .record
    let s : Shared referenceDeps (List RecordedExchange) := emptyShared referenceDeps fun _ => []
    let a := referenceGet (.ofData "/a?token=1" (by decide)) (answering [])
    let b := referenceGet (.ofData "/a?token=2" (by decide)) (answering [])
    ∃ e f, (ending rt a s).offered rt a = some e ∧ (ending rt b s).offered rt b = some f ∧ e.SameContent f := by
  intro rt s a b
  have offerA : ((ending rt a s).offered rt a).isSome := by decide +kernel
  have offerB : ((ending rt b s).offered rt b).isSome := by decide +kernel
  obtain ⟨e, offeredA⟩ := Option.isSome_iff_exists.mp offerA
  obtain ⟨f, offeredB⟩ := Option.isSome_iff_exists.mp offerB
  have endsA : EndsAs rt a s referencePath (.response (.new .ok)) := by
    change (ending rt a s).outcome = .ok (.new .ok)
    decide +kernel
  have endsB : EndsAs rt b s referencePath (.response (.new .ok)) := by
    change (ending rt b s).outcome = .ok (.new .ok)
    decide +kernel
  exact ⟨e, f, offeredA, offeredB, (recorded_alike_iff (a := a) (b := b) rfl endsA endsB offeredA offeredB).mpr trivial⟩

/-- The same two targets and an upstream that refuses the connection: the token
stands in the recorded error message. -/
theorem refused_connection_records_query :
    let rt := referenceRuntime [forgetTarget] .record
    let s : Shared referenceDeps (List RecordedExchange) := emptyShared referenceDeps fun _ => []
    let refuse : ProxyRequest → ClientResult := fun _ => .connectError "connection refused"
    let a := referenceGet (.ofData "/a?token=1" (by decide)) refuse
    let b := referenceGet (.ofData "/a?token=2" (by decide)) refuse
    redactRequest rt.middleware a.original = redactRequest rt.middleware b.original ∧
      (∃ u, EndsAs rt a s u (.failure (.connectError "connection refused"))) ∧
      (∃ v, EndsAs rt b s v (.failure (.connectError "connection refused"))) ∧
      ∃ e f, (ending rt a s).offered rt a = some e ∧ (ending rt b s).offered rt b = some f ∧ ¬ e.SameContent f ∧
        e.outcome = .error "upstream connection failed: connect to http://up/a?token=1" := by
  intro rt s refuse a b
  let err (text : String) : ProxyError := .upstreamConnect ("connect to http://up" ++ text) (some "connection refused")
  have endsA : EndsAs rt a s (.ofParts "http" "up" "/a?token=1" (by decide) (by decide) (by decide))
      (.failure (.connectError "connection refused")) :=
    ⟨a.original, err "/a?token=1", by decide +kernel, by decide +kernel, by decide +kernel, by decide +kernel⟩
  have endsB : EndsAs rt b s (.ofParts "http" "up" "/a?token=2" (by decide) (by decide) (by decide))
      (.failure (.connectError "connection refused")) :=
    ⟨b.original, err "/a?token=2", by decide +kernel, by decide +kernel, by decide +kernel, by decide +kernel⟩
  refine ⟨rfl, ⟨_, endsA⟩, ⟨_, endsB⟩, errorExchange referenceDeps rt referenceStamp a.original (err "/a?token=1"),
    errorExchange referenceDeps rt referenceStamp b.original (err "/a?token=2"), by decide +kernel, by decide +kernel,
    by decide +kernel, by decide +kernel⟩

end PartlyProxy
