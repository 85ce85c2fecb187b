import PartlyProxy.UriForms

namespace PartlyProxy

/-- A stub and a filter for one method and one path pattern. -/
def stubFor (deps : Deps) (method : Method) (pattern : String) : RequestMatcher :=
  (RequestMatcher.any.withMethod method).withPath deps pattern

def filterFor (method pattern : String) : TrafficFilter :=
  { TrafficFilter.new with
    method := some method
    pathPattern := some pattern }

/-- The pattern, compiled or else compared. -/
def patternMatches (deps : Deps) (pattern path : String) : Bool :=
  match deps.compileRegex pattern with
  | some isMatch => isMatch path
  | none => path == pattern

section Both
variable {deps : Deps} (m p : String)

theorem stubFor_matches (r : ProxyRequest) :
    (stubFor deps m p).matches r = (r.method == m && patternMatches deps p r.uri.path) := by
  have path : (stubFor deps m p).matchesPath r = patternMatches deps p r.uri.path := by
    cases compiled : deps.compileRegex p <;>
      simp only [stubFor, RequestMatcher.withPath, RequestMatcher.matchesPath, patternMatches, compiled]
  have method : (stubFor deps m p).matchesMethod r = (r.method == m) := rfl
  have headers : (stubFor deps m p).matchesHeaders r = true := rfl
  have body : (stubFor deps m p).matchesBody r = true := rfl
  rw [RequestMatcher.matches, path, method, headers, body, Bool.and_true, Bool.and_true]

theorem filterFor_matches (e : RecordedExchange) :
    (filterFor m p).matches deps e = (e.request.method == m && patternMatches deps p (parsePath deps e.request.uri)) := by
  have path : TrafficFilter.matchesPath deps p e = patternMatches deps p (parsePath deps e.request.uri) := by
    cases compiled : deps.compileRegex p <;> simp only [TrafficFilter.matchesPath, patternMatches, compiled]
  simp [TrafficFilter.matches, filterFor, TrafficFilter.new, Labels.empty, path]

end Both

/-- The stub matches the request and the filter its exchange, or neither, whatever
method and pattern they have. -/
def Agree (deps : Deps) (r : ProxyRequest) (e : RecordedExchange) : Prop :=
  ∀ m p, (stubFor deps m p).matches r = (filterFor m p).matches deps e

/-- Some pattern is met by this path alone, as `^` and `$` around its escaped text. -/
def Deps.MatchesLiterally (deps : Deps) (path : String) : Prop :=
  ∃ pattern isMatch, deps.compileRegex pattern = some isMatch ∧ ∀ other, isMatch other = true ↔ other = path

theorem agree_iff {deps : Deps} (parses : deps.ParsesUri) {r : ProxyRequest} (literally : deps.MatchesLiterally r.uri.path)
    {e : RecordedExchange} (method : e.request.method = r.method) (uri : e.request.uri = r.uri.toText) :
    Agree deps r e ↔ r.uri.PathKept := by
  rw [← parsePath_toText_iff parses, Agree]
  simp only [stubFor_matches, filterFor_matches, method, uri]
  constructor
  · intro agree
    obtain ⟨pattern, isMatch, compiled, only⟩ := literally
    have here := agree r.method pattern
    simp only [patternMatches, compiled, beq_self_eq_true, Bool.true_and] at here
    rw [(only r.uri.path).mpr rfl] at here
    exact (only _).mp here.symm
  · intro kept m p
    rw [kept]

/-- If redaction leaves method and URI alone, stubs and traffic filters of one method
and path pattern agree on a request exactly if its path can be read back from the text
of its URI, for recorded responses and for recorded errors. -/
theorem stub_filter_agree_iff {deps : Deps} (parses : deps.ParsesUri) (rt : UpstreamRuntime) {r : ProxyRequest}
    (literally : deps.MatchesLiterally r.uri.path) (stamp : Stamp) :
    (∀ resp, (redactRequest rt.middleware r).method = r.method → (redactRequest rt.middleware r).uri = r.uri →
      (Agree deps r (successExchange deps rt stamp r resp) ↔ r.uri.PathKept)) ∧
    ∀ err, (redactRequest rt.middleware { r with version := .http11 }).method = r.method →
      (redactRequest rt.middleware { r with version := .http11 }).uri = r.uri →
      (Agree deps r (errorExchange deps rt stamp r err) ↔ r.uri.PathKept) := by
  constructor
  · intro resp method uri
    exact agree_iff parses literally method (congrArg Uri.toText uri)
  · intro err method uri
    exact agree_iff parses literally method (congrArg Uri.toText uri)

/-- A pattern anchored at both ends whose text has no special character. -/
def anchoredRegex (pattern : String) : Option (String → Bool) :=
  let text := (pattern.toList.drop 1).dropLast
  if pattern.toList = '^' :: text ++ ['$'] ∧ (literalRegex (String.ofList text)).isSome then
    some fun path => decide (path = String.ofList text)
  else literalRegex pattern

theorem stub_filter_agree_iff_origin :
    let deps : Deps := { referenceDeps with compileRegex := anchoredRegex }
    let r : ProxyRequest := ⟨"GET", referencePath, .empty, [], .http11⟩
    Agree deps r (successExchange deps (referenceRuntime [] .record) referenceStamp r (.new .ok)) := by
  intro deps r
  have compiled : anchoredRegex "^/a$" = some fun path => decide (path = "/a") := by
    rw [anchoredRegex, if_pos (by decide)]
    rfl
  have literally : deps.MatchesLiterally r.uri.path := by
    have path : r.uri.path = "/a" := by decide
    rw [path]
    exact ⟨"^/a$", _, compiled, fun other => decide_eq_true_iff⟩
  have parses : deps.ParsesUri := referenceDeps_parsesUri
  exact ((stub_filter_agree_iff parses (referenceRuntime [] .record) literally referenceStamp).1 (.new .ok) rfl rfl).mpr
    (Or.inl (Or.inr (Or.inl (by decide))))

/-- `OPTIONS *` over HTTP/2, where the target comes with scheme and authority: the
stub for it fires, and the filter for it finds nothing, as the recorded text
`http://h*` has another host and no path. -/
theorem stub_filter_disagree :
    let r : ProxyRequest := ⟨"OPTIONS", .ofParts "http" "h" "*" (by decide) (by decide) (by decide), .empty, [], .http2⟩
    let e := successExchange referenceDeps (referenceRuntime [] .record) referenceStamp r (.new .ok)
    e.request.uri = "http://h*" ∧ (stubFor referenceDeps "OPTIONS" "*").matches r = true ∧
      (filterFor "OPTIONS" "*").matches referenceDeps e = false := by
  decide

end PartlyProxy
