import PartlyProxy.Sequential

namespace PartlyProxy

def hexDigit (n : Nat) : Char := if n < 10 then Char.ofNat (48 + n) else Char.ofNat (87 + n)

/-- The digest of the empty body, and for any other body its own hex text, which
no two bodies share. -/
def referenceSha256Hex (body : Bytes) : String :=
  if body = [] then "e3b0c44298fc1c149afbf4c8996fb92427ae41e4649b934ca495991b7852b855"
  else String.ofList (body.flatMap fun b => [hexDigit (b.toNat / 16), hexDigit (b.toNat % 16)])

def Uri.build (scheme authority pathAndQuery : String) : Except String Uri :=
  if schemeOk : validScheme scheme.toList = true then
    if authorityOk : validAuthority authority.toList = true then
      if dataOk : validData (parseData pathAndQuery.toList) = true then
        .ok (.ofParts scheme authority (String.ofList (parseData pathAndQuery.toList)) schemeOk authorityOk
          (validData_ofParsed dataOk))
      else .error "invalid uri character"
    else .error "invalid authority"
  else .error "invalid scheme"

/-- Regular expressions without any special character, which match wherever
their text occurs. -/
def literalRegex (pattern : String) : Option (String → Bool) :=
  if pattern.toList.all (fun c => c.isAlphanum || c = '/' || c = '-' || c = '_') then
    some fun text => decide (pattern.toList <:+: text.toList)
  else none

/-- An instance of the third-party functions on which the models can be run. -/
def referenceDeps : Deps where
  parseUri := Uri.parse
  buildUri := Uri.build
  sha256Hex := referenceSha256Hex
  compileRegex := literalRegex

theorem referenceDeps_uriRoundTrip : referenceDeps.UriRoundTrip := fun _ slashed => Uri.parse_toText slashed

def referenceTarget : UpstreamTarget := ⟨"http://up", none, 30000000000⟩

def referenceRuntime (chain : List ProxyMiddleware) (mode : Mode) : UpstreamRuntime where
  name := "api"
  forwarder := ⟨referenceTarget, ⟨"http", "up", ""⟩⟩
  recorder := ⟨.default, fun name => if name = "api" then some 0 else none⟩
  middleware := chain
  mode := mode
  replayMissHandler := defaultReplayMissHandler

theorem referenceRuntime_plain : PlainRecording (referenceRuntime [] .record) 0 :=
  ⟨rfl, rfl, rfl, by simp [referenceRuntime]⟩

theorem forwarder_new_reference :
    Forwarder.new referenceDeps referenceTarget = .ok (referenceRuntime [] .record).forwarder := by
  decide

def referenceStamp : Stamp :=
  ⟨⟨"67e55044-10b1-426f-9247-bb680e5fe0c8", by decide⟩, ⟨"2026-01-01T00:00:00Z", by decide⟩, 1500000⟩

def referencePath : Uri := .ofData "/a" (by decide)

theorem referencePath_slashed : referencePath.Slashed := ⟨by decide, ['a'], by decide⟩

def referenceGet (uri : Uri) (net : ProxyRequest → ClientResult) : Arrival where
  inbound := ⟨"GET", uri, .empty, .http11, .ok []⟩
  contextId := "1"
  net := net
  stamp := referenceStamp

def answering (body : Bytes) : ProxyRequest → ClientResult := fun _ => .response .ok .empty .http11 (.ok body)

theorem buildOutboundUri_reference (chain : List ProxyMiddleware) (mode : Mode) (u : Uri) :
    ∃ v, (referenceRuntime chain mode).forwarder.buildOutboundUri referenceDeps u = .ok v := by
  have valid : validData (u.pathAndQuery.getD "/").toList = true := by
    unfold Uri.pathAndQuery
    split
    · exact u.validData_pathAndQueryText
    · decide
  have parsed : validData (Uri.parseData (u.pathAndQuery.getD "/").toList) = true := by
    rwa [Uri.parseData_valid valid]
  have scheme : validScheme "http".toList = true := by decide
  have authority : validAuthority "up".toList = true := by decide
  simp only [Forwarder.buildOutboundUri, referenceRuntime, referenceDeps, Uri.build, String.empty_append, scheme,
    authority, parsed, dif_pos]
  exact ⟨_, rfl⟩

theorem forward_answering (chain : List ProxyMiddleware) (mode : Mode) (body : Bytes) (req : ProxyRequest) :
    (referenceRuntime chain mode).forwarder.forward referenceDeps (answering body) req =
      .ok ((ProxyResponse.new .ok).withBody body) := by
  obtain ⟨v, built⟩ := buildOutboundUri_reference chain mode req.uri
  simp only [Forwarder.forward, built]
  rfl

def emptyShared {σ : Type} (deps : Deps) (media : Nat → σ) : Shared deps σ := ⟨[], some (.new deps []), ⟨[], media⟩, []⟩

end PartlyProxy
