import PartlyProxy.BodyContains
import PartlyProxy.HeaderLists
import PartlyProxy.Wire
import PartlyProxy.Reference

namespace PartlyProxy

/-- A call on the builder of `RequestMatcher`. -/
inductive MatcherCall where
  | method (method : Method)
  | path (pattern : String)
  | header (name valueSubstr : String)
  | bodyContains (needle : Bytes)

def MatcherCall.apply (deps : Deps) (m : RequestMatcher) : MatcherCall → RequestMatcher
  | .method wanted => m.withMethod wanted
  | .path pattern => m.withPath deps pattern
  | .header name valueSubstr => m.withHeader name valueSubstr
  | .bodyContains needle => m.withBodyContains needle

def RequestMatcher.ofCalls (deps : Deps) (calls : List MatcherCall) : RequestMatcher :=
  calls.foldl (MatcherCall.apply deps) .any

/-- The calls that `into_command` makes for a wire stub. -/
def StubFields.calls (s : StubFields) : List MatcherCall :=
  s.method.toList.map .method ++ s.pathPattern.toList.map .path ++
    s.headerContains.entries.map (fun entry => .header entry.1 entry.2) ++
    s.bodyContains.toList.map fun needle => .bodyContains needle.toUTF8.toList

theorem foldl_headerCalls (deps : Deps) (m : RequestMatcher) (entries : List (String × String)) :
    (entries.map fun entry => MatcherCall.header entry.1 entry.2).foldl (MatcherCall.apply deps) m =
      entries.foldl (fun m entry => m.withHeader entry.1 entry.2) m := by
  rw [List.foldl_map]
  rfl

theorem StubFields.matcher_eq_ofCalls {deps : Deps} {s : StubFields} {m : RequestMatcher}
    (lowered : s.matcher deps = .ok m) : m = .ofCalls deps s.calls := by
  simp only [RequestMatcher.ofCalls, StubFields.calls, List.foldl_append, foldl_headerCalls]
  unfold StubFields.matcher at lowered
  cases method : s.method with
  | none =>
    rw [method] at lowered
    obtain rfl := Except.ok.inj lowered
    cases s.pathPattern <;> cases s.bodyContains <;> rfl
  | some text =>
    rw [method] at lowered
    dsimp only at lowered
    by_cases valid : text ≠ "" ∧ text.toList.all isTokenChar
    · have parsed : parseMethod text = .ok text := if_pos valid
      rw [parsed] at lowered
      obtain rfl := Except.ok.inj lowered
      cases s.pathPattern <;> cases s.bodyContains <;> rfl
    · have refused : parseMethod text = .error ⟨"invalid method: invalid HTTP method"⟩ := if_neg valid
      rw [refused] at lowered
      cases lowered

/-- What the calls ask for: the last method, path and needle, and every header
constraint, its name in lower case. -/
def lastMethod (calls : List MatcherCall) : Option Method :=
  (calls.filterMap fun | .method wanted => some wanted | _ => none).getLast?

def lastPath (calls : List MatcherCall) : Option String :=
  (calls.filterMap fun | .path pattern => some pattern | _ => none).getLast?

def lastNeedle (calls : List MatcherCall) : Option Bytes :=
  (calls.filterMap fun | .bodyContains needle => some needle | _ => none).getLast?

def headerConstraints (calls : List MatcherCall) : List (String × String) :=
  calls.filterMap fun
    | .header name valueSubstr => some (String.ofList (name.toList.map Char.toLower), valueSubstr)
    | _ => none

/-- The constraint is the last on its header, so that no later call replaced it. -/
def InForce (constraints : List (String × String)) (c : String × String) : Prop :=
  ∃ front back, constraints = front ++ c :: back ∧ ∀ later ∈ back, later.1 ≠ c.1

theorem InForce.mem {constraints : List (String × String)} {c : String × String} (inForce : InForce constraints c) :
    c ∈ constraints := by
  obtain ⟨front, back, rfl, _⟩ := inForce
  simp

theorem inForce_concat_iff (constraints : List (String × String)) (new c : String × String) :
    InForce (constraints ++ [new]) c ↔ c = new ∨ InForce constraints c ∧ c.1 ≠ new.1 := by
  constructor
  · rintro ⟨front, back, cut, last⟩
    rcases List.eq_nil_or_concat back with rfl | ⟨middle, final, rfl⟩
    · exact Or.inl (List.append_inj_right' cut rfl |> List.cons.inj |>.1).symm
    · rw [List.concat_eq_append, ← List.cons_append, ← List.append_assoc] at cut
      obtain ⟨rfl, rfl⟩ : constraints = front ++ c :: middle ∧ new = final := by
        simpa using List.append_inj' cut rfl
      rw [List.concat_eq_append, List.forall_mem_append] at last
      exact Or.inr ⟨⟨front, middle, rfl, last.1⟩, fun same => last.2 _ (by simp) same.symm⟩
  · rintro (rfl | ⟨⟨front, back, rfl, last⟩, different⟩)
    · exact ⟨constraints, [], rfl, by simp⟩
    · refine ⟨front, back ++ [new], by simp, ?_⟩
      rw [List.forall_mem_append]
      exact ⟨last, by simpa using different.symm⟩

/-- The last call on a header is in force. -/
theorem exists_inForce {constraints : List (String × String)} {c : String × String} (member : c ∈ constraints) :
    ∃ last, InForce constraints last ∧ last.1 = c.1 := by
  induction constraints using List.reverseRecOn with
  | nil => cases member
  | append_singleton constraints new ih =>
    by_cases sameName : new.1 = c.1
    · exact ⟨new, (inForce_concat_iff _ _ _).mpr (Or.inl rfl), sameName⟩
    · have earlier : c ∈ constraints := by
        rcases List.mem_append.mp member with earlier | isNew
        · exact earlier
        · exact (sameName (congrArg Prod.fst (List.mem_singleton.mp isNew)).symm).elim
      obtain ⟨last, inForce, same⟩ := ih earlier
      exact ⟨last, (inForce_concat_iff _ _ _).mpr (Or.inr ⟨inForce, fun clash => sameName (clash.symm.trans same)⟩), same⟩

/-- There is one on each header. -/
theorem InForce.unique {constraints : List (String × String)} {c c' : String × String} (inForce : InForce constraints c)
    (inForce' : InForce constraints c') (sameName : c.1 = c'.1) : c = c' := by
  induction constraints using List.reverseRecOn with
  | nil => cases inForce.mem
  | append_singleton constraints new ih =>
    rcases (inForce_concat_iff _ _ _).mp inForce with rfl | ⟨before, other⟩ <;>
      rcases (inForce_concat_iff _ _ _).mp inForce' with rfl | ⟨before', other'⟩
    · rfl
    · exact (other' sameName.symm).elim
    · exact (other sameName).elim
    · exact ih before before'

/-- The fields of the matcher after any calls. -/
theorem ofCalls_fields (deps : Deps) (calls : List MatcherCall) :
    (RequestMatcher.ofCalls deps calls).method = lastMethod calls ∧
      (RequestMatcher.ofCalls deps calls).pathPattern = (lastPath calls).map (fun pattern =>
        match deps.compileRegex pattern with
        | some isMatch => .regex isMatch
        | none => .exact pattern) ∧
      (RequestMatcher.ofCalls deps calls).bodyContains = lastNeedle calls ∧
      ∀ c, c ∈ (RequestMatcher.ofCalls deps calls).headerContains ↔ InForce (headerConstraints calls) c := by
  induction calls using List.reverseRecOn with
  | nil => exact ⟨rfl, rfl, rfl, fun c => by simp [RequestMatcher.ofCalls, RequestMatcher.any, headerConstraints, InForce]⟩
  | append_singleton calls call ih =>
    obtain ⟨method, path, needle, headers⟩ := ih
    have step : RequestMatcher.ofCalls deps (calls ++ [call]) = call.apply deps (RequestMatcher.ofCalls deps calls) := by
      simp [RequestMatcher.ofCalls]
    rw [step]
    cases call with
    | method wanted =>
      simp [MatcherCall.apply, RequestMatcher.withMethod, lastMethod, lastPath, lastNeedle, headerConstraints, *]
    | path pattern =>
      cases compiled : deps.compileRegex pattern <;>
        simp [MatcherCall.apply, RequestMatcher.withPath, lastMethod, lastPath, lastNeedle, headerConstraints, *]
    | bodyContains bytes =>
      simp [MatcherCall.apply, RequestMatcher.withBodyContains, lastMethod, lastPath, lastNeedle, headerConstraints, *]
    | header name valueSubstr =>
      have constraints : headerConstraints (calls ++ [.header name valueSubstr]) =
          headerConstraints calls ++ [(String.ofList (name.toList.map Char.toLower), valueSubstr)] := by
        simp [headerConstraints]
      rw [constraints]
      refine ⟨by simp [MatcherCall.apply, RequestMatcher.withHeader, lastMethod, method],
        by simp [MatcherCall.apply, RequestMatcher.withHeader, lastPath, path],
        by simp [MatcherCall.apply, RequestMatcher.withHeader, lastNeedle, needle], fun c => ?_⟩
      rw [inForce_concat_iff, ← headers c]
      simp [MatcherCall.apply, RequestMatcher.withHeader, or_comm]

/-- The request meets the last method, path and needle. -/
structure OthersHold (deps : Deps) (calls : List MatcherCall) (req : ProxyRequest) : Prop where
  method : ∀ wanted ∈ lastMethod calls, req.method = wanted
  path : ∀ pattern ∈ lastPath calls,
    (∀ isMatch ∈ deps.compileRegex pattern, isMatch req.uri.path = true) ∧
      (deps.compileRegex pattern = none → req.uri.path = pattern)
  body : ∀ needle ∈ lastNeedle calls, fromUtf8Lossy needle <:+: fromUtf8Lossy req.body

/-- Some value of the header contains the substring. -/
def SomeValue (req : ProxyRequest) (c : String × String) : Prop :=
  ∃ value ∈ req.headers.getAll c.1, c.2.toUTF8.toList <:+: value

/-- The first value of the header is visible ASCII and contains the substring. -/
def FirstValue (req : ProxyRequest) (c : String × String) : Prop :=
  ∃ value ∈ (req.headers.getAll c.1).head?, value.all isVisibleAscii = true ∧ c.2.toUTF8.toList <:+: value

/-- What the calls together ask of a request: every header constraint ever added
counts, and any value of its header may meet it. -/
def Conjunction (deps : Deps) (calls : List MatcherCall) (req : ProxyRequest) : Prop :=
  OthersHold deps calls req ∧ ∀ c ∈ headerConstraints calls, SomeValue req c

theorem FirstValue.some {req : ProxyRequest} {c : String × String} (first : FirstValue req c) : SomeValue req c := by
  obtain ⟨value, isFirst, _, contains⟩ := first
  exact ⟨value, List.mem_of_mem_head? isFirst, contains⟩

theorem get_eq_head? (headers : HeaderMap) (name : String) : headers.get name = (headers.getAll name).head? := by
  rw [HeaderMap.get, HeaderMap.getAll, List.head?_map, List.head?_filter]

theorem chars_infix_iff {value : Bytes} (visible : value.all isVisibleAscii = true) (substr : String) :
    substr.toList <:+: value.map (fun b => Char.ofNat b.toNat) ↔ substr.toUTF8.toList <:+: value := by
  have decoded : fromUtf8Lossy value = value.map fun b => Char.ofNat b.toNat := by
    have bytes := bytes_of_visible visible
    rw [Utf8.bytes_eq, String.toList_ofList] at bytes
    have whole := fromUtf8Lossy_encode (value.map fun b => Char.ofNat b.toNat) []
    rw [List.append_nil, bytes] at whole
    rw [whole]
    exact List.append_nil _
  have plain : replacementChar ∉ value.map fun b => Char.ofNat b.toNat := by
    intro member
    obtain ⟨b, inValue, replaced⟩ := List.mem_map.mp member
    have small := (visible_lt (List.all_eq_true.mp visible b inValue)).1
    have code := congrArg Char.toNat replaced
    have own : (Char.ofNat b.toNat).toNat = b.toNat := Utf8.ofNat_val (Or.inl (by omega))
    rw [own] at code
    have large : replacementChar.toNat = 0xFFFD := by decide
    omega
  rw [Utf8.bytes_eq, ← decoded]
  rw [← decoded] at plain
  exact ⟨fun occurs => encode_infix_of_decoded (fun member => plain (occurs.subset member)) occurs,
    decoded_of_encode_infix⟩

theorem matchesHeaders_iff (m : RequestMatcher) (req : ProxyRequest) :
    m.matchesHeaders req = true ↔ ∀ c ∈ m.headerContains, FirstValue req c := by
  rw [RequestMatcher.matchesHeaders, List.all_eq_true]
  refine forall₂_congr fun c _ => ?_
  rw [FirstValue, get_eq_head?]
  cases (req.headers.getAll c.1).head? with
  | none => simp
  | some value =>
    by_cases visible : value.all isVisibleAscii = true
    · have text : headerValueToStr value = some (String.ofList (value.map fun b => Char.ofNat b.toNat)) := if_pos visible
      simp only [Option.bind_some, text, String.toList_ofList, chars_infix_iff visible, decide_eq_true_eq, Option.mem_def,
        Option.some.injEq, exists_eq_left', visible, true_and]
    · have text : headerValueToStr value = none := if_neg visible
      simp only [Option.bind_some, text, Option.mem_def, Option.some.injEq, exists_eq_left', visible, false_and,
        Bool.false_eq_true]

theorem matchesOthers_iff (deps : Deps) (calls : List MatcherCall) (req : ProxyRequest) :
    ((RequestMatcher.ofCalls deps calls).matchesMethod req = true ∧ (RequestMatcher.ofCalls deps calls).matchesPath req = true ∧
      (RequestMatcher.ofCalls deps calls).matchesBody req = true) ↔ OthersHold deps calls req := by
  obtain ⟨method, path, needle, _⟩ := ofCalls_fields deps calls
  have methods : (RequestMatcher.ofCalls deps calls).matchesMethod req = true ↔
      ∀ wanted ∈ lastMethod calls, req.method = wanted := by
    rw [RequestMatcher.matchesMethod, method]
    cases lastMethod calls <;> simp
  have bodies : (RequestMatcher.ofCalls deps calls).matchesBody req = true ↔
      ∀ needle ∈ lastNeedle calls, fromUtf8Lossy needle <:+: fromUtf8Lossy req.body := by
    rw [RequestMatcher.matchesBody, needle]
    cases lastNeedle calls <;> simp
  have paths : (RequestMatcher.ofCalls deps calls).matchesPath req = true ↔ ∀ pattern ∈ lastPath calls,
      (∀ isMatch ∈ deps.compileRegex pattern, isMatch req.uri.path = true) ∧
        (deps.compileRegex pattern = none → req.uri.path = pattern) := by
    rw [RequestMatcher.matchesPath, path]
    cases lastPath calls with
    | none => simp
    | some pattern => cases compiled : deps.compileRegex pattern <;> simp [compiled]
  rw [methods, paths, bodies]
  constructor
  · rintro ⟨m, p, b⟩
    exact ⟨m, p, b⟩
  · intro others
    exact ⟨others.method, others.path, others.body⟩

theorem ofCalls_matches_iff (deps : Deps) (calls : List MatcherCall) (req : ProxyRequest) :
    (RequestMatcher.ofCalls deps calls).matches req = true ↔
      OthersHold deps calls req ∧ ∀ c, InForce (headerConstraints calls) c → FirstValue req c := by
  have headers : (RequestMatcher.ofCalls deps calls).matchesHeaders req = true ↔
      ∀ c, InForce (headerConstraints calls) c → FirstValue req c := by
    rw [matchesHeaders_iff]
    simp only [(ofCalls_fields deps calls).2.2.2]
  rw [← matchesOthers_iff, ← headers, RequestMatcher.matches]
  simp only [Bool.and_eq_true]
  tauto

/-- Whatever the last call on a header asks for contains what the calls on it before,
its name taken in lower case, have asked for. -/
def LastAsksAll (calls : List MatcherCall) : Prop :=
  ∀ c ∈ headerConstraints calls, ∀ last, InForce (headerConstraints calls) last → last.1 = c.1 →
    c.2.toUTF8.toList <:+: last.2.toUTF8.toList

/-- A constrained header has one value, be it repeated, and that is visible ASCII; or it
has none. -/
def OneValue (calls : List MatcherCall) (req : ProxyRequest) : Prop :=
  ∀ c ∈ headerConstraints calls, ∀ value ∈ req.headers.getAll c.1,
    value ∈ (req.headers.getAll c.1).head? ∧ value.all isVisibleAscii = true

theorem LastAsksAll.someValue {calls : List MatcherCall} {req : ProxyRequest} (asksAll : LastAsksAll calls)
    (some : ∀ last, InForce (headerConstraints calls) last → SomeValue req last) {c : String × String}
    (member : c ∈ headerConstraints calls) : SomeValue req c := by
  obtain ⟨last, inForce, sameName⟩ := exists_inForce member
  obtain ⟨value, inHeader, contains⟩ := some last inForce
  rw [sameName] at inHeader
  exact ⟨value, inHeader, (asksAll c member last inForce sameName).trans contains⟩

theorem OneValue.firstValue_iff {calls : List MatcherCall} {req : ProxyRequest} (one : OneValue calls req)
    {c : String × String} (member : c ∈ headerConstraints calls) : FirstValue req c ↔ SomeValue req c := by
  refine ⟨FirstValue.some, ?_⟩
  rintro ⟨value, inHeader, contains⟩
  obtain ⟨first, visible⟩ := one c member value inHeader
  exact ⟨value, first, visible, contains⟩

theorem ofCalls_matches_of_one (deps : Deps) {calls : List MatcherCall} {req : ProxyRequest}
    (asksAll : LastAsksAll calls) (value : OneValue calls req) :
    (RequestMatcher.ofCalls deps calls).matches req = true ↔ Conjunction deps calls req := by
  rw [ofCalls_matches_iff, Conjunction]
  refine and_congr_right fun _ => ⟨fun first c member => ?_, fun some c inForce => ?_⟩
  · exact asksAll.someValue (fun last inForce => (first last inForce).some) member
  · exact (value.firstValue_iff inForce.mem).mpr (some c inForce.mem)

/-- A request that has for each constraint in force a header with just its substring is
matched, and meets no constraint that asks for anything else. -/
theorem lastAsksAll_of_agree {deps : Deps} {calls : List MatcherCall} {req : ProxyRequest} (others : OthersHold deps calls req)
    (visible : ∀ c, InForce (headerConstraints calls) c → c.2.toUTF8.toList.all isVisibleAscii = true)
    (agree : ∀ req, OneValue calls req → ((RequestMatcher.ofCalls deps calls).matches req = true ↔ Conjunction deps calls req)) :
    LastAsksAll calls := by
  let headers : HeaderMap :=
    ⟨(RequestMatcher.ofCalls deps calls).headerContains.map fun c => (c.1, c.2.toUTF8.toList)⟩
  have values : ∀ name value, value ∈ headers.getAll name ↔
      ∃ c, InForce (headerConstraints calls) c ∧ c.1 = name ∧ c.2.toUTF8.toList = value := by
    intro name value
    simp only [← (ofCalls_fields deps calls).2.2.2]
    simp [headers, HeaderMap.getAll]
  have first : ∀ c, InForce (headerConstraints calls) c → c.2.toUTF8.toList ∈ (headers.getAll c.1).head? := by
    intro c inForce
    have inHeader := (values c.1 _).mpr ⟨c, inForce, rfl, rfl⟩
    obtain ⟨value, isFirst⟩ := Option.isSome_iff_exists.mp (List.isSome_head?.mpr (List.ne_nil_of_mem inHeader))
    obtain ⟨c', inForce', sameName, rfl⟩ := (values c.1 value).mp (List.mem_of_mem_head? isFirst)
    rwa [inForce'.unique inForce sameName] at isFirst
  have one : OneValue calls { req with headers := headers } := by
    intro c _ value inHeader
    obtain ⟨last, inForce, sameName, rfl⟩ := (values c.1 value).mp inHeader
    exact ⟨sameName ▸ first last inForce, visible last inForce⟩
  have matched : (RequestMatcher.ofCalls deps calls).matches { req with headers := headers } = true :=
    (ofCalls_matches_iff deps calls _).mpr ⟨⟨others.method, others.path, others.body⟩, fun c inForce =>
      ⟨_, first c inForce, visible c inForce, List.infix_refl _⟩⟩
  intro c member last inForce sameName
  obtain ⟨value, inHeader, contains⟩ := ((agree _ one).mp matched).2 c member
  obtain ⟨last', inForce', sameName', rfl⟩ := (values c.1 value).mp inHeader
  rwa [inForce'.unique inForce (sameName'.trans sameName.symm)] at contains

/-- A stub matcher decides the conjunction of its constraints, built by calls or lowered
from the wire, where the last call on a header asks for all that those before it did, and the
constrained headers of the request have no more than one value, in visible ASCII. Calls
of which the last does not ask for all fail on some such request. -/
theorem matcher_conjunction (deps : Deps) :
    (∀ calls req, LastAsksAll calls → OneValue calls req →
      ((RequestMatcher.ofCalls deps calls).matches req = true ↔ Conjunction deps calls req)) ∧
    (∀ calls, (∃ req, OthersHold deps calls req) →
      (∀ c, InForce (headerConstraints calls) c → c.2.toUTF8.toList.all isVisibleAscii = true) → ¬ LastAsksAll calls →
        ∃ req, OneValue calls req ∧
          ¬ ((RequestMatcher.ofCalls deps calls).matches req = true ↔ Conjunction deps calls req)) ∧
    ∀ (fields : StubFields) (m : RequestMatcher), fields.matcher deps = .ok m → ∀ req,
      LastAsksAll fields.calls → OneValue fields.calls req →
        (m.matches req = true ↔ Conjunction deps fields.calls req) := by
  refine ⟨fun calls req => ofCalls_matches_of_one deps, ?_, fun fields m lowered req asksAll value => ?_⟩
  · rintro calls ⟨req, others⟩ visible shadows
    by_contra agree
    push Not at agree
    exact shadows (lastAsksAll_of_agree others visible agree)
  · rw [StubFields.matcher_eq_ofCalls lowered]
    exact ofCalls_matches_of_one deps asksAll value

def acceptRequest (values : List Bytes) : ProxyRequest :=
  ⟨"GET", referencePath, ⟨values.map fun value => ("accept", value)⟩, [], .http11⟩

/-- A wire stub for `Accept: xml`, and a request that accepts `text/xml`. -/
theorem matcher_conjunction_accept :
    let fields : StubFields := ⟨none, some "GET", none, Labels.empty.insert "Accept" "xml", none, 200, .empty, "", none, none⟩
    let req := acceptRequest [[116, 101, 120, 116, 47, 120, 109, 108]]
    ∃ m, fields.matcher referenceDeps = .ok m ∧ (m.matches req = true ↔ Conjunction referenceDeps fields.calls req) := by
  intro fields req
  have only : headerConstraints fields.calls = [("accept", "xml")] := by decide
  have values : req.headers.getAll "accept" = [[116, 101, 120, 116, 47, 120, 109, 108]] := by decide
  refine ⟨_, rfl, (matcher_conjunction referenceDeps).2.2 fields _ rfl req ?_ ?_⟩
  · intro c member last inForce _
    have isLast := inForce.mem
    rw [only, List.mem_singleton] at member isLast
    rw [member, isLast]
  · intro c member value inHeader
    rw [only, List.mem_singleton] at member
    subst member
    rw [values, List.mem_singleton] at inHeader
    subst inHeader
    exact ⟨by rw [values]; rfl, by decide⟩

/-- The second call for one header replaces the first, so the stub fires although
`json` is nowhere in the request; and of two values only the first is looked at. -/
theorem header_constraint_lost :
    let calls : List MatcherCall := [.header "Accept" "json", .header "accept" "xml"]
    let xml := acceptRequest [[120, 109, 108]]
    let both := acceptRequest [[106, 115, 111, 110], [120, 109, 108]]
    ((RequestMatcher.ofCalls referenceDeps calls).matches xml = true ∧ ¬ Conjunction referenceDeps calls xml) ∧
      (RequestMatcher.ofCalls referenceDeps calls).matches both = false ∧ Conjunction referenceDeps calls both := by
  intro calls xml both
  refine ⟨⟨by decide, ?_⟩, by decide, ⟨⟨by simp [calls, lastMethod], by simp [calls, lastPath], by simp [calls, lastNeedle]⟩, ?_⟩⟩
  · rintro ⟨_, all⟩
    obtain ⟨value, member, contains⟩ := all ("accept", "json") (by decide)
    have isXml : value = [120, 109, 108] := by simpa [xml, acceptRequest, HeaderMap.getAll] using member
    rw [isXml, Utf8.bytes_eq] at contains
    revert contains
    decide
  · have two : headerConstraints calls = [("accept", "json"), ("accept", "xml")] := by decide
    intro c member
    rw [two] at member
    simp only [List.mem_cons, List.not_mem_nil, or_false] at member
    rcases member with rfl | rfl
    · refine ⟨[106, 115, 111, 110], by decide, ?_⟩
      rw [Utf8.bytes_eq]
      decide
    · refine ⟨[120, 109, 108], by decide, ?_⟩
      rw [Utf8.bytes_eq]
      decide

end PartlyProxy
