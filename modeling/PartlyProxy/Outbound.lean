import PartlyProxy.UriForms

namespace PartlyProxy

/-- The builder of `http::uri` does as `Uri.build` does, but for the text of its
errors. -/
def Deps.BuildsUri (deps : Deps) : Prop :=
  ∀ scheme authority pathAndQuery, match Uri.build scheme authority pathAndQuery with
    | .ok u => deps.buildUri scheme authority pathAndQuery = .ok u
    | .error _ => ∃ err, deps.buildUri scheme authority pathAndQuery = .error err

namespace Uri

theorem data_of_parse {text : String} {u : Uri} (parsed : parse text = .ok u) (hasScheme : u.scheme.isSome = true) :
    u.data = "" ∨ u.data.toList.head? = some '/' ∨ u.data.toList.head? = some '?' := by
  unfold parse at parsed
  split_ifs at parsed
  · cases parsed
    cases hasScheme
  · cases parsed
    cases hasScheme
  · cases isCut : splitScheme text.toList with
    | some cut => exact (data_of_splitScheme isCut parsed).2
    | none =>
      simp only [parseFull, isCut] at parsed
      split_ifs at parsed
      cases parsed
      cases hasScheme

theorem pathChars (u : Uri) : ∀ c ∈ u.path.toList, isPathChar c = true := by
  have valid := u.validData_shown
  rw [validData, Bool.and_eq_true, List.all_eq_true] at valid
  rw [path_toList]
  exact valid.1

/-- An authority on its own has no path and query, and its text is a slash as well. -/
theorem pathAndQuery_getD (u : Uri) : u.pathAndQuery.getD "/" = u.pathAndQueryText := by
  unfold pathAndQuery
  split
  · rfl
  · rename_i form
    rw [not_or] at form
    have empty := u.authorityForm (by simpa using form.1) (Option.isSome_iff_ne_none.mpr form.2)
    rw [pathAndQueryText, if_pos empty]
    rfl

theorem pathAndQueryText_ne (u : Uri) : u.pathAndQueryText ≠ "" := by
  unfold pathAndQueryText
  split
  · decide
  · assumption

theorem build_valid {scheme authority text : String} (schemeOk : validScheme scheme.toList = true)
    (authorityOk : validAuthority authority.toList = true) (dataOk : validData text.toList = true) :
    build scheme authority text = .ok (.ofParts scheme authority text schemeOk authorityOk dataOk) := by
  have parsed : validData (parseData text.toList) = true := by rwa [parseData_valid dataOk]
  rw [build, dif_pos schemeOk, dif_pos authorityOk, dif_pos parsed]
  simp only [parseData_valid dataOk, String.ofList_toList]

end Uri

/-- What every parsed base URL promises: its parts are valid, and a prefix that is not
empty begins with a slash. -/
structure BaseUri.Sound (base : BaseUri) : Prop where
  scheme : validScheme base.scheme.toList = true
  authority : validAuthority base.authority.toList = true
  chars : ∀ c ∈ base.pathPrefix.toList, isPathChar c = true
  slash : base.pathPrefix ≠ "" → base.pathPrefix.toList.head? = some '/'

theorem path_of_parseUri {deps : Deps} (parses : deps.ParsesUri) {text : String} {v : Uri} (parsed : deps.parseUri text = .ok v)
    (hasScheme : v.scheme.isSome = true) : v.path.toList.head? = some '/' := by
  refine Uri.path_of_data hasScheme ?_
  rcases parseUri_cases parses text with ⟨u, v', own, parsed', sameScheme, _, sameData⟩ | ⟨_, err, _, refused⟩
  · obtain rfl : v = v' := Except.ok.inj (parsed.symm.trans parsed')
    rw [sameData]
    exact Uri.data_of_parse own (sameScheme ▸ hasScheme)
  · rw [parsed] at refused
    cases refused

theorem parseBaseUrl_sound {deps : Deps} (parses : deps.ParsesUri) {s : String} {base : BaseUri}
    (accepted : parseBaseUrl deps s = .ok base) : base.Sound := by
  unfold parseBaseUrl at accepted
  split at accepted
  · cases accepted
  · rename_i v isParsed
    split at accepted
    · cases accepted
    · rename_i scheme hasScheme
      split_ifs at accepted
      split at accepted
      · cases accepted
      · rename_i authority hasAuthority
        obtain rfl := Except.ok.inj accepted
        have rooted := path_of_parseUri parses isParsed (by rw [hasScheme]; rfl)
        have trimmed : (v.path.toList.reverse.dropWhile (· = '/')).reverse <+: v.path.toList := by
          rw [← List.reverse_suffix, List.reverse_reverse]
          exact List.dropWhile_suffix _
        refine ⟨v.schemeValid scheme (by rw [hasScheme]; rfl), v.authorityValid authority (by rw [hasAuthority]; rfl), ?_, ?_⟩
        · intro c member
          rw [String.toList_ofList] at member
          exact v.pathChars c (trimmed.subset member)
        · intro present
          rw [String.toList_ofList]
          obtain ⟨rest, whole⟩ := trimmed
          cases front : (v.path.toList.reverse.dropWhile (· = '/')).reverse with
          | nil => exact (present (by rw [front])).elim
          | cons first more =>
            rw [← whole, front] at rooted
            simpa using rooted

theorem noMark_of_pathChars {front : List Char} (chars : ∀ c ∈ front, isPathChar c = true) :
    ∀ c ∈ front, decide (c ≠ '?') = true := by
  intro c member
  rw [decide_eq_true_eq]
  rintro rfl
  exact absurd (chars '?' member) (by decide)

theorem validData_append {front data : List Char} (chars : ∀ c ∈ front, isPathChar c = true) (valid : validData data = true) :
    validData (front ++ data) = true := by
  have noMark := noMark_of_pathChars chars
  rw [validData, Bool.and_eq_true] at valid ⊢
  rw [List.takeWhile_append_of_pos noMark, List.dropWhile_append_of_pos noMark, List.all_append, Bool.and_eq_true]
  exact ⟨⟨List.all_eq_true.mpr chars, valid.1⟩, valid.2⟩

namespace Forwarder

/-- A URI that is returned has the base's scheme and authority, the prefix followed by
the inbound path, a slash if that has no path of its own, and the inbound query. -/
def UnderBase (deps : Deps) (fwd : Forwarder) (inbound : Uri) : Prop :=
  ∀ v, fwd.buildOutboundUri deps inbound = .ok v →
    v.scheme = some fwd.base.scheme ∧ v.authority = some fwd.base.authority ∧
      v.path = fwd.base.pathPrefix ++ (if inbound.path.toList.head? = some '/' then inbound.path else "/") ∧
      v.query = inbound.query

/-- The combined text is always accepted. -/
theorem buildOutboundUri_eq {deps : Deps} (builds : deps.BuildsUri) {fwd : Forwarder} (sound : fwd.base.Sound)
    (inbound : Uri) : ∃ v, fwd.buildOutboundUri deps inbound = .ok v ∧ v.scheme = some fwd.base.scheme ∧
      v.authority = some fwd.base.authority ∧
      v.data = fwd.base.pathPrefix ++ inbound.pathAndQueryText := by
  have combined : validData (fwd.base.pathPrefix ++ inbound.pathAndQueryText).toList = true := by
    rw [String.toList_append]
    exact validData_append sound.chars inbound.validData_pathAndQueryText
  have built := builds fwd.base.scheme fwd.base.authority (fwd.base.pathPrefix ++ inbound.pathAndQueryText)
  rw [Uri.build_valid sound.scheme sound.authority combined] at built
  dsimp only at built
  rw [buildOutboundUri, inbound.pathAndQuery_getD, built]
  exact ⟨_, rfl, rfl, rfl, rfl⟩

/-- The path of what is built, by how the inbound text begins. -/
theorem path_of_combined {fwd : Forwarder} (sound : fwd.base.Sound) {v : Uri} {text : String} (present : text ≠ "")
    (data : v.data = fwd.base.pathPrefix ++ text) :
    v.path.toList = if fwd.base.pathPrefix = "" ∧ text.toList.head? = some '?' then ['/']
      else fwd.base.pathPrefix.toList ++ text.toList.takeWhile (· ≠ '?') := by
  have chars : v.data.toList = fwd.base.pathPrefix.toList ++ text.toList := by rw [data, String.toList_append]
  have nonempty : v.data ≠ "" := by
    intro empty
    simp [empty, present] at chars
  have taken : v.data.toList.takeWhile (· ≠ '?') = fwd.base.pathPrefix.toList ++ text.toList.takeWhile (· ≠ '?') := by
    rw [chars, List.takeWhile_append_of_pos (noMark_of_pathChars sound.chars)]
  have head : v.data.toList.head? = some '?' ↔ fwd.base.pathPrefix = "" ∧ text.toList.head? = some '?' := by
    rw [chars]
    by_cases empty : fwd.base.pathPrefix = ""
    · simp [empty]
    · have slash := sound.slash empty
      rw [List.head?_append_of_ne_nil _ (mt String.toList_eq_nil_iff.mp empty), slash]
      simp [empty]
  rw [Uri.path_toList, Uri.shown, if_neg nonempty, ← taken]
  by_cases mark : v.data.toList.head? = some '?'
  · obtain ⟨rest, begins⟩ := List.head?_eq_some_iff.mp mark
    rw [if_pos mark, if_pos (head.mp mark), begins]
    simp
  · rw [if_neg mark, if_neg (mt head.mpr mark)]

theorem query_of_combined {fwd : Forwarder} (sound : fwd.base.Sound) {v inbound : Uri}
    (data : v.data = fwd.base.pathPrefix ++ inbound.pathAndQueryText) : v.query = inbound.query := by
  have noMark := noMark_of_pathChars sound.chars
  have same : inbound.pathAndQueryText.toList.dropWhile (· ≠ '?') = inbound.data.toList.dropWhile (· ≠ '?') := by
    unfold Uri.pathAndQueryText
    split
    · rename_i empty
      rw [empty]
      decide
    · rfl
  rw [Uri.query, Uri.query, data, String.toList_append, List.dropWhile_append_of_pos noMark, same]

/-- The inbound path, or a slash, by how the text begins. -/
theorem inboundPath_toList (u : Uri) :
    (if u.path.toList.head? = some '/' then u.path else "/").toList =
      if u.pathAndQueryText.toList.head? = some '/' then u.pathAndQueryText.toList.takeWhile (· ≠ '?') else ['/'] := by
  by_cases empty : u.data = ""
  · have text : u.pathAndQueryText = "/" := if_pos empty
    rw [text]
    by_cases hasScheme : u.scheme.isSome <;> simp [Uri.path, Uri.dataPath, empty, hasScheme]
  · have text : u.pathAndQueryText = u.data := if_neg empty
    rw [text]
    by_cases mark : u.data.toList.head? = some '?'
    · rw [Uri.path_of_mark mark, mark, if_pos (by decide), if_neg (by decide)]
      rfl
    · obtain ⟨isPath, start⟩ := Uri.path_of_text empty mark
      rw [isPath, start]
      by_cases slash : u.data.toList.head? = some '/'
      · rw [if_pos slash, if_pos slash, Uri.dataPath, String.toList_ofList]
      · rw [if_neg slash, if_neg slash]
        rfl

theorem under_base_iff {deps : Deps} (builds : deps.BuildsUri) {fwd : Forwarder} (sound : fwd.base.Sound) (inbound : Uri) :
    fwd.UnderBase deps inbound ↔ inbound.pathAndQueryText.toList.head? = some '/' ∨
      inbound.pathAndQueryText.toList.head? = some '?' ∧ fwd.base.pathPrefix = "" := by
  obtain ⟨v, built, scheme, authority, data⟩ := buildOutboundUri_eq builds sound inbound
  have path := path_of_combined sound inbound.pathAndQueryText_ne data
  have wanted := inboundPath_toList inbound
  have reduced : fwd.UnderBase deps inbound ↔
      v.path = fwd.base.pathPrefix ++ (if inbound.path.toList.head? = some '/' then inbound.path else "/") := by
    constructor
    · exact fun under => (under v built).2.2.1
    · intro kept v' built'
      obtain rfl : v = v' := Except.ok.inj (built.symm.trans built')
      exact ⟨scheme, authority, kept, query_of_combined sound data⟩
  rw [reduced, ← String.toList_inj, String.toList_append, wanted, path]
  by_cases slash : inbound.pathAndQueryText.toList.head? = some '/'
  · simp [slash]
  · by_cases mark : inbound.pathAndQueryText.toList.head? = some '?'
    · obtain ⟨rest, begins⟩ := List.head?_eq_some_iff.mp mark
      by_cases empty : fwd.base.pathPrefix = ""
      · simp [begins, empty]
      · simp [begins, empty]
    · -- a text that begins otherwise follows the prefix without a boundary
      obtain ⟨first, rest, begins⟩ := List.exists_cons_of_ne_nil (mt String.toList_eq_nil_iff.mp inbound.pathAndQueryText_ne)
      have notSlash : first ≠ '/' := by simpa [begins] using slash
      have notMark : first ≠ '?' := by simpa [begins] using mark
      simp [begins, notSlash, notMark]

end Forwarder

/-- For every accepted base URL, what `build_outbound_uri` returns stays under it
exactly if the inbound URI has no path and query, or one that begins with a slash, or
one that begins with the query while the base has no prefix. -/
theorem outbound_under_base_iff {deps : Deps} (parses : deps.ParsesUri) (builds : deps.BuildsUri) {target : UpstreamTarget}
    {fwd : Forwarder} (made : Forwarder.new deps target = .ok fwd) (inbound : Uri) :
    fwd.UnderBase deps inbound ↔ ∀ text ∈ inbound.pathAndQuery,
      text.toList.head? = some '/' ∨ text.toList.head? = some '?' ∧ fwd.base.pathPrefix = "" := by
  have sound : fwd.base.Sound := by
    cases accepted : parseBaseUrl deps target.baseUrl with
    | error err => simp [Forwarder.new, accepted, Except.map] at made
    | ok base =>
      obtain rfl : (⟨target, base⟩ : Forwarder) = fwd := by simpa [Forwarder.new, accepted, Except.map] using made
      exact parseBaseUrl_sound parses accepted
  rw [Forwarder.under_base_iff builds sound, ← inbound.pathAndQuery_getD]
  cases inbound.pathAndQuery <;> simp

theorem referenceDeps_buildsUri : referenceDeps.BuildsUri := by
  intro scheme authority pathAndQuery
  cases built : Uri.build scheme authority pathAndQuery with
  | ok u => exact built
  | error err => exact ⟨err, built⟩

def versioned : Forwarder := ⟨.new "http://up/v1/", ⟨"http", "up", "/v1"⟩⟩

theorem outbound_under_base_iff_versioned :
    Forwarder.new referenceDeps (.new "http://up/v1/") = .ok versioned ∧ versioned.UnderBase referenceDeps referencePath := by
  have made : Forwarder.new referenceDeps (.new "http://up/v1/") = .ok versioned := by decide
  refine ⟨made, (outbound_under_base_iff referenceDeps_parsesUri referenceDeps_buildsUri made referencePath).mpr ?_⟩
  decide

/-- `OPTIONS *` and a proxy request for `http://h?x=1`, sent on to a base with the
prefix `/v1`: the first leaves the prefix, the second has no slash after it. -/
theorem outbound_leaves_base :
    let star : Uri := .ofData "*" (by decide)
    let noPath : Uri := .ofParts "http" "h" "?x=1" (by decide) (by decide) (by decide)
    (versioned.buildOutboundUri referenceDeps star).map Uri.toText = .ok "http://up/v1*" ∧
      (versioned.buildOutboundUri referenceDeps noPath).map Uri.toText = .ok "http://up/v1?x=1" ∧
      ¬ versioned.UnderBase referenceDeps star ∧ ¬ versioned.UnderBase referenceDeps noPath := by
  intro star noPath
  have outStar : versioned.buildOutboundUri referenceDeps star =
      .ok (.ofParts "http" "up" "/v1*" (by decide) (by decide) (by decide)) := by decide
  have outNoPath : versioned.buildOutboundUri referenceDeps noPath =
      .ok (.ofParts "http" "up" "/v1?x=1" (by decide) (by decide) (by decide)) := by decide
  refine ⟨by rw [outStar]; decide, by rw [outNoPath]; decide, fun under => ?_, fun under => ?_⟩
  · exact absurd (under _ outStar).2.2.1 (by decide)
  · exact absurd (under _ outNoPath).2.2.1 (by decide)

end PartlyProxy
