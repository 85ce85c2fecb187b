import PartlyProxy.Replay
import PartlyProxy.Assertions
import PartlyProxy.Reference

namespace PartlyProxy

/-- `str::parse::<http::Uri>` does as `Uri.parse` does, but for the text of its errors
and the spelling of the scheme, which the crate writes in lower case. -/
def Deps.ParsesUri (deps : Deps) : Prop :=
  ∀ text, match Uri.parse text with
    | .ok u => ∃ v, deps.parseUri text = .ok v ∧ v.scheme.isSome = u.scheme.isSome ∧ v.authority = u.authority ∧
        v.data = u.data
    | .error _ => ∃ err, deps.parseUri text = .error err

def Deps.withParse (deps : Deps) : Deps := { deps with parseUri := Uri.parse }

namespace Uri

theorem path_congr {u v : Uri} (scheme : v.scheme.isSome = u.scheme.isSome) (data : v.data = u.data) :
    v.path = u.path := by
  rw [path, path, dataPath, dataPath, scheme, data]

theorem pathAndQuery_congr {u v : Uri} (scheme : v.scheme.isSome = u.scheme.isSome) (authority : v.authority = u.authority)
    (data : v.data = u.data) : v.pathAndQuery = u.pathAndQuery := by
  rw [pathAndQuery, pathAndQuery, pathAndQueryText, pathAndQueryText, scheme, authority, data]

end Uri

section Parser
variable {deps : Deps} (parses : deps.ParsesUri) (text : String)
include parses

theorem parseUri_cases :
    (∃ u v, Uri.parse text = .ok u ∧ deps.parseUri text = .ok v ∧ v.scheme.isSome = u.scheme.isSome ∧
      v.authority = u.authority ∧ v.data = u.data) ∨
    ∃ err err', Uri.parse text = .error err ∧ deps.parseUri text = .error err' := by
  have parsed := parses text
  cases own : Uri.parse text with
  | ok u =>
    rw [own] at parsed
    obtain ⟨v, isParsed, same⟩ := parsed
    exact Or.inl ⟨u, v, rfl, isParsed, same⟩
  | error err =>
    rw [own] at parsed
    obtain ⟨err', refused⟩ := parsed
    exact Or.inr ⟨err, err', rfl, refused⟩

theorem pathAndQueryOfStr_withParse : pathAndQueryOfStr deps text = pathAndQueryOfStr deps.withParse text := by
  rcases parseUri_cases parses text with ⟨u, v, own, parsed, scheme, authority, data⟩ | ⟨err, err', own, refused⟩
  · simp only [pathAndQueryOfStr, Deps.withParse, own, parsed, pathAndQueryOfUri,
      Uri.pathAndQuery_congr scheme authority data, Uri.path_congr scheme data]
  · simp only [pathAndQueryOfStr, Deps.withParse, own, refused]

theorem parsePath_withParse : parsePath deps text = parsePath deps.withParse text := by
  rcases parseUri_cases parses text with ⟨u, v, own, parsed, scheme, _, data⟩ | ⟨err, err', own, refused⟩
  · simp only [parsePath, Deps.withParse, own, parsed, Uri.path_congr scheme data]
  · simp only [parsePath, Deps.withParse, own, refused]

end Parser

namespace Uri

/-- What `Display` writes after the authority. -/
def shown (u : Uri) : List Char :=
  if u.data = "" then (if u.scheme.isSome then ['/'] else [])
  else if u.data.toList.head? = some '?' then '/' :: u.data.toList else u.data.toList

theorem ne_empty_of_head? {text : String} {c : Char} (head : text.toList.head? = some c) : text ≠ "" := by
  rintro rfl
  cases head

theorem path_of_mark {u : Uri} (mark : u.data.toList.head? = some '?') : u.path = "/" := by
  obtain ⟨rest, chars⟩ := List.head?_eq_some_iff.mp mark
  have noPath : u.dataPath = "" := by simp [dataPath, chars]
  simp [path, ne_empty_of_head? mark, noPath]

theorem path_of_text {u : Uri} (present : u.data ≠ "") (noMark : u.data.toList.head? ≠ some '?') :
    u.path = u.dataPath ∧ u.dataPath.toList.head? = u.data.toList.head? := by
  cases chars : u.data.toList with
  | nil => exact (present (String.toList_eq_nil_iff.mp chars)).elim
  | cons first rest =>
    have other : first ≠ '?' := by simpa [chars] using noMark
    have start : u.dataPath.toList = first :: rest.takeWhile (· ≠ '?') := by simp [dataPath, chars, other]
    have isPath : u.dataPath ≠ "" := by simp [← String.toList_inj, start]
    exact ⟨by simp [path, present, isPath], by rw [start]; rfl⟩

theorem toText_toList (u : Uri) : u.toText.toList = u.origin.toList ++ u.shown := by
  have parts : u.toText.toList = u.origin.toList ++ (u.path.toList ++ u.data.toList.dropWhile (· ≠ '?')) := by
    rw [toText, query]
    rcases dropWhile_mark u.data.toList with found | ⟨tail, found⟩ <;> rw [found] <;> simp
  rw [parts]
  congr 1
  by_cases empty : u.data = ""
  · by_cases hasScheme : u.scheme.isSome <;> simp [path, shown, dataPath, empty, hasScheme]
  · by_cases mark : u.data.toList.head? = some '?'
    · obtain ⟨rest, chars⟩ := List.head?_eq_some_iff.mp mark
      rw [path_of_mark mark, shown, if_neg empty, if_pos mark, chars]
      simp
    · rw [(path_of_text empty mark).1, shown, if_neg empty, if_neg mark, dataPath, String.toList_ofList]
      exact List.takeWhile_append_dropWhile

/-- A text with a scheme, taken apart. -/
theorem splitScheme_eq {text scheme rest : List Char} (cut : splitScheme text = some (scheme, rest)) :
    text = scheme ++ ':' :: '/' :: '/' :: rest ∧ ∀ c ∈ scheme, isSchemeChar c = true := by
  unfold splitScheme at cut
  split at cut
  · rename_i rest' found
    obtain ⟨rfl, rfl⟩ := Prod.mk.inj (Option.some.inj cut)
    refine ⟨?_, fun c member => List.mem_takeWhile_imp member⟩
    rw [← found]
    exact List.takeWhile_append_dropWhile.symm
  · cases cut

theorem afterScheme_append {scheme : List Char} (chars : ∀ c ∈ scheme, isSchemeChar c = true) (rest : List Char) :
    afterScheme (scheme ++ ':' :: '/' :: '/' :: rest) = some rest := by
  induction scheme with
  | nil => rfl
  | cons first scheme ih =>
    obtain ⟨here, later⟩ := List.forall_mem_cons.mp chars
    have notColon : first ≠ ':' := by
      rintro rfl
      exact absurd here (by decide)
    rw [List.cons_append, afterScheme]
    · exact ih later
    · intro tail isColon
      exact (notColon isColon).elim

theorem noMark_of_scheme {scheme : List Char} (chars : ∀ c ∈ scheme, isSchemeChar c = true) :
    ∀ c ∈ scheme ++ [':', '/', '/'], c ≠ '?' := by
  rintro c member rfl
  rcases List.mem_append.mp member with inScheme | inMark
  · exact absurd (chars '?' inScheme) (by decide)
  · exact absurd inMark (by decide)

theorem parse_eq_parseFull {text : String} (present : text ≠ "") (notStar : text ≠ "*")
    (noSlash : text.toList.head? ≠ some '/') : parse text = parseFull text.toList := by
  rw [parse, if_neg present, if_neg notStar, if_neg noSlash]

theorem parse_of_splitScheme {text : String} {cut : List Char × List Char} (isCut : splitScheme text.toList = some cut) :
    parse text = parseFull text.toList := by
  obtain ⟨isText, chars⟩ := splitScheme_eq isCut
  apply parse_eq_parseFull
  · rintro rfl
    simp at isText
  · rintro rfl
    have length := congrArg List.length isText
    simp at length
    omega
  · intro slash
    rw [isText] at slash
    cases scheme : cut.1 with
    | nil => simp [scheme] at slash
    | cons first rest =>
      obtain rfl : first = '/' := by simpa [scheme] using slash
      exact absurd (chars '/' (by simp [scheme])) (by decide)

/-- What is parsed from a text with a scheme has no path text, or one that begins with
a slash or a question mark. -/
theorem data_of_splitScheme {text : List Char} {cut : List Char × List Char} (isCut : splitScheme text = some cut) {u : Uri}
    (parsed : parseFull text = .ok u) :
    u.scheme.isSome = true ∧ (u.data = "" ∨ u.data.toList.head? = some '/' ∨ u.data.toList.head? = some '?') := by
  simp only [parseFull, isCut] at parsed
  split_ifs at parsed
  cases parsed
  refine ⟨rfl, ?_⟩
  simp only [ofParts, String.toList_ofList]
  cases left : cut.2.dropWhile (fun c => !isAuthorityEnd c) with
  | nil => exact Or.inl rfl
  | cons first rest =>
    have ends := Lines.not_of_dropWhile left
    simp only [Bool.not_eq_false', isAuthorityEnd, Bool.or_eq_true, decide_eq_true_eq] at ends
    rcases ends with (rfl | rfl) | rfl <;> simp [parseData]

theorem parse_slash {text : String} (slash : text.toList.head? = some '/') (valid : validData text.toList = true) :
    parse text = .ok (.ofData text valid) := by
  have notStar : text ≠ "*" := by
    rintro rfl
    cases slash
  simp only [parse, if_neg (ne_empty_of_head? slash), if_neg notStar, if_pos slash, parseData_valid valid, valid, dif_pos, String.ofList_toList]

theorem validData_slash {data : List Char} (mark : data.head? = some '?') (valid : validData data = true) :
    validData ('/' :: data) = true := by
  obtain ⟨rest, rfl⟩ := List.head?_eq_some_iff.mp mark
  simp only [validData, ne_eq, decide_not, List.takeWhile_cons, List.dropWhile_cons] at valid ⊢
  simpa [isPathChar] using valid

/-- A text that is neither a path nor `*` nor has a scheme is read as an authority or
not at all. -/
theorem parse_bare {text : String} (present : text ≠ "") (notStar : text ≠ "*") (noSlash : text.toList.head? ≠ some '/')
    (noScheme : splitScheme text.toList = none) :
    (∀ valid : validAuthority text.toList = true, parse text = .ok (.ofAuthority text valid)) ∧
      (validAuthority text.toList = false → parse text = .error "invalid format") := by
  rw [parse_eq_parseFull present notStar noSlash]
  constructor
  · intro valid
    simp only [parseFull, noScheme, valid, dif_pos, String.ofList_toList]
  · intro invalid
    simp only [parseFull, noScheme, invalid, Bool.false_eq_true, dif_neg, not_false_eq_true]

theorem splitScheme_eq_none {text : List Char} (noSlash : '/' ∉ text) : splitScheme text = none := by
  cases cut : splitScheme text with
  | none => rfl
  | some parts =>
    obtain ⟨isText, _⟩ := splitScheme_eq cut
    exact (noSlash (by simp [isText])).elim

theorem head?_pathAndQueryText (u : Uri) :
    u.pathAndQueryText.toList.head? = if u.data = "" then some '/' else u.data.toList.head? := by
  rw [pathAndQueryText]
  split <;> rfl

theorem path_of_data {u : Uri} (hasScheme : u.scheme.isSome = true)
    (data : u.data = "" ∨ u.data.toList.head? = some '/' ∨ u.data.toList.head? = some '?') :
    u.path.toList.head? = some '/' := by
  rcases data with empty | slash | mark
  · simp [path, dataPath, empty, hasScheme]
  · obtain ⟨isPath, start⟩ := path_of_text (ne_empty_of_head? slash) (by rw [slash]; decide)
    rw [isPath, start, slash]
  · rw [path_of_mark mark]
    rfl

theorem validData_shown (u : Uri) : validData u.shown = true := by
  unfold shown
  split_ifs with empty hasScheme mark
  · decide
  · decide
  · exact validData_slash mark u.dataValid
  · exact u.dataValid

theorem path_toList (u : Uri) : u.path.toList = u.shown.takeWhile (· ≠ '?') := by
  unfold shown
  split_ifs with empty hasScheme mark
  · simp [path, dataPath, empty, hasScheme]
  · simp [path, empty, hasScheme]
  · obtain ⟨rest, chars⟩ := List.head?_eq_some_iff.mp mark
    rw [path_of_mark mark, chars]
    simp
  · rw [(path_of_text empty mark).1, dataPath, String.toList_ofList]

/-- Where a path that begins with a slash is shown, it is parsed back. -/
theorem parse_shown {u : Uri} (slash : u.shown.head? = some '/') :
    ∃ v, parse u.toText = .ok v ∧ v.data.toList = u.shown ∧ v.shown = u.shown ∧
      v.pathAndQuery = some (String.ofList u.shown) := by
  obtain ⟨rest, begins⟩ := List.head?_eq_some_iff.mp slash
  have valid := u.validData_shown
  have kept : ∀ v : Uri, v.data.toList = u.shown → (v.scheme.isSome ∨ v.authority = none) →
      v.shown = u.shown ∧ v.pathAndQuery = some (String.ofList u.shown) := by
    intro v data form
    have present : v.data ≠ "" := by simp [← String.toList_inj, data, begins]
    have noMark : v.data.toList.head? ≠ some '?' := by simp [data, begins]
    rw [shown, if_neg present, if_neg noMark, pathAndQuery_of_data form present, ← data, String.ofList_toList]
    exact ⟨rfl, rfl⟩
  cases hasScheme : u.scheme with
  | none =>
    have noAuthority : u.authority = none := by
      by_contra some_
      have empty := u.authorityForm hasScheme (Option.isSome_iff_ne_none.mpr some_)
      simp [shown, empty, hasScheme] at slash
    have text : u.toText = String.ofList u.shown := by
      rw [← String.toList_inj, toText_toList]
      simp [origin, hasScheme, noAuthority]
    have valid' : validData (String.ofList u.shown).toList = true := by simpa using valid
    refine ⟨.ofData (String.ofList u.shown) valid', ?_, by simp [ofData], ?_⟩
    · rw [text, parse_slash (by simpa using slash) valid']
    · exact kept _ (by simp [ofData]) (Or.inr rfl)
  | some scheme =>
    obtain ⟨authority, hasAuthority⟩ := Option.isSome_iff_exists.mp (u.absolute (by simp [hasScheme]))
    have schemeOk := u.schemeValid scheme (by simp [hasScheme])
    have authorityOk := u.authorityValid authority (by simp [hasAuthority])
    have chars : u.toText.toList = scheme.toList ++ "://".toList ++ authority.toList ++ u.shown := by
      rw [toText_toList]
      simp [origin, hasScheme, hasAuthority]
    have cut : splitScheme u.toText.toList = some (scheme.toList, authority.toList ++ u.shown) := by
      rw [chars, List.append_assoc]
      exact splitScheme_append (schemeChars_of_valid schemeOk) _
    refine ⟨_, by rw [parse_of_splitScheme cut, chars, parseFull_absolute schemeOk authorityOk valid begins],
      by simp [ofParts], ?_⟩
    exact kept _ (by simp [ofParts]) (Or.inl rfl)

end Uri

section Recorded
variable (deps : Deps) {text : String}

/-- The fallback of both readers, on a text with a scheme. -/
theorem head?_fallback (rest : List Char) :
    (match rest.dropWhile (· ≠ '/') with | [] => "/" | path => String.ofList path).toList.head? = some '/' := by
  cases left : rest.dropWhile (· ≠ '/') with
  | nil => rfl
  | cons first rest' =>
    obtain rfl : first = '/' := Lines.eq_of_dropWhile left
    simp

theorem head?_pathAndQueryOfStr {cut : List Char × List Char} (isCut : Uri.splitScheme text.toList = some cut) :
    (pathAndQueryOfStr deps.withParse text).toList.head? = some '/' ∨
      (pathAndQueryOfStr deps.withParse text).toList.head? = some '?' := by
  obtain ⟨isText, chars⟩ := Uri.splitScheme_eq isCut
  simp only [pathAndQueryOfStr, Deps.withParse, Uri.parse_of_splitScheme isCut]
  cases parsed : Uri.parseFull text.toList with
  | ok u =>
    obtain ⟨hasScheme, data⟩ := Uri.data_of_splitScheme isCut parsed
    simp only [pathAndQueryOfUri, Uri.pathAndQuery, hasScheme, true_or, if_true, Option.getD_some,
      Uri.head?_pathAndQueryText]
    split
    · exact Or.inl rfl
    · exact data.resolve_left (by assumption)
  | error err =>
    left
    simp only [isText, Uri.afterScheme_append chars]
    exact head?_fallback cut.2

theorem afterScheme_noQuery {cut : List Char × List Char} (isCut : Uri.splitScheme text.toList = some cut) :
    afterScheme (text.toList.takeWhile (· ≠ '?')) = some (cut.2.takeWhile (· ≠ '?')) := by
  obtain ⟨isText, chars⟩ := Uri.splitScheme_eq isCut
  have noMark : ∀ c ∈ cut.1 ++ [':', '/', '/'], decide (c ≠ '?') = true :=
    fun c member => decide_eq_true (Uri.noMark_of_scheme chars c member)
  have noQuery : text.toList.takeWhile (· ≠ '?') = cut.1 ++ ':' :: '/' :: '/' :: cut.2.takeWhile (· ≠ '?') := by
    have whole : text.toList = (cut.1 ++ [':', '/', '/']) ++ cut.2 := by simp [isText]
    rw [whole, List.takeWhile_append_of_pos noMark]
    simp
  rw [noQuery]
  exact Uri.afterScheme_append chars _

theorem head?_parsePath {cut : List Char × List Char} (isCut : Uri.splitScheme text.toList = some cut) :
    (parsePath deps.withParse text).toList.head? = some '/' := by
  simp only [parsePath, Deps.withParse, Uri.parse_of_splitScheme isCut]
  cases parsed : Uri.parseFull text.toList with
  | ok u =>
    obtain ⟨hasScheme, data⟩ := Uri.data_of_splitScheme isCut parsed
    exact Uri.path_of_data hasScheme data
  | error err =>
    simp only [afterScheme_noQuery isCut]
    exact head?_fallback _

/-- A text that is neither a path nor has a scheme is kept by the fallback, and lost
if it passes for an authority or has a scheme further on. -/
theorem pathAndQueryOfStr_bare_iff (present : text ≠ "") (notStar : text ≠ "*") (noSlash : text.toList.head? ≠ some '/')
    (noMark : text.toList.head? ≠ some '?') :
    pathAndQueryOfStr deps.withParse text = text ↔
      validAuthority text.toList = false ∧ afterScheme text.toList = none := by
  cases isCut : Uri.splitScheme text.toList with
  | some cut =>
    obtain ⟨isText, chars⟩ := Uri.splitScheme_eq isCut
    have after : afterScheme text.toList = some cut.2 := by
      rw [isText]
      exact Uri.afterScheme_append chars cut.2
    have head := head?_pathAndQueryOfStr deps isCut
    constructor
    · intro same
      rw [same] at head
      rcases head with slash | mark
      · exact (noSlash slash).elim
      · exact (noMark mark).elim
    · rintro ⟨_, none⟩
      simp [after] at none
  | none =>
    obtain ⟨asAuthority, refused⟩ := Uri.parse_bare present notStar noSlash isCut
    cases valid : validAuthority text.toList with
    | true =>
      simp only [pathAndQueryOfStr, Deps.withParse, asAuthority valid, Bool.true_eq_false, false_and, iff_false]
      exact fun same => present same.symm
    | false =>
      simp only [pathAndQueryOfStr, Deps.withParse, refused valid, true_and]
      cases after : afterScheme text.toList with
      | none => simp
      | some rest =>
        have slash := head?_fallback rest
        simp only [reduceCtorEq, iff_false]
        intro same
        exact noSlash ((congrArg (fun s : String => s.toList.head?) same).symm.trans slash)

theorem parsePath_bare_iff (present : text ≠ "") (notStar : text ≠ "*") (noSlash : text.toList.head? ≠ some '/')
    (noMark : text.toList.head? ≠ some '?') :
    parsePath deps.withParse text = String.ofList (text.toList.takeWhile (· ≠ '?')) ↔
      validAuthority text.toList = false ∧ afterScheme (text.toList.takeWhile (· ≠ '?')) = none := by
  obtain ⟨first, rest, chars⟩ := List.exists_cons_of_ne_nil (mt String.toList_eq_nil_iff.mp present)
  have other : first ≠ '?' := by simpa [chars] using noMark
  have start : (text.toList.takeWhile (· ≠ '?')).head? = text.toList.head? := by simp [chars, other]
  have notPath : ∀ path : String, path.toList.head? = some '/' → path ≠ String.ofList (text.toList.takeWhile (· ≠ '?')) := by
    rintro path slash rfl
    rw [String.toList_ofList, start] at slash
    exact noSlash slash
  cases isCut : Uri.splitScheme text.toList with
  | some cut =>
    simp only [afterScheme_noQuery isCut, reduceCtorEq, and_false, iff_false]
    exact notPath _ (head?_parsePath deps isCut)
  | none =>
    obtain ⟨asAuthority, refused⟩ := Uri.parse_bare present notStar noSlash isCut
    cases valid : validAuthority text.toList with
    | true =>
      simp only [parsePath, Deps.withParse, asAuthority valid, Bool.true_eq_false, false_and, iff_false]
      intro same
      have empty := congrArg (fun s : String => s.toList.head?) same
      rw [String.toList_ofList, start, chars] at empty
      cases empty
    | false =>
      simp only [parsePath, Deps.withParse, refused valid, true_and]
      cases after : afterScheme (text.toList.takeWhile (· ≠ '?')) with
      | none => simp
      | some rest =>
        simp only [reduceCtorEq, iff_false]
        exact notPath _ (head?_fallback rest)

end Recorded

namespace Uri

/-- The text has a path that begins with a slash, or `Display` puts the slash. -/
def Rooted (u : Uri) : Prop :=
  u.data = "" ∧ u.scheme.isSome = true ∨ u.data.toList.head? = some '/' ∨ u.data.toList.head? = some '?'

theorem shown_slash_iff (u : Uri) : u.shown.head? = some '/' ↔ u.Rooted := by
  unfold shown Rooted
  split_ifs with empty hasScheme mark
  · simp [empty, hasScheme]
  · simp [empty, hasScheme]
  · simp [mark]
  · simp [empty, mark]

theorem Rooted.pathAndQuery_eq {u : Uri} (rooted : u.Rooted) : u.pathAndQuery = some u.pathAndQueryText := by
  refine if_pos ?_
  by_contra form
  rw [not_or] at form
  have noScheme : u.scheme = none := by simpa using form.1
  have empty := u.authorityForm noScheme (Option.isSome_iff_ne_none.mpr form.2)
  rcases rooted with ⟨_, hasScheme⟩ | slash | mark
  · exact form.1 hasScheme
  · simp [empty] at slash
  · simp [empty] at mark

/-- The forms that are not rooted: an authority alone, or a path text that begins
otherwise, alone or after scheme and authority. -/
theorem form_of_not_rooted {u : Uri} (not : ¬ u.Rooted) :
    (∃ cut, splitScheme u.toText.toList = some cut ∧ u.scheme.isSome = true ∧ u.data ≠ "") ∨
      (∃ authority, u.scheme = none ∧ u.authority = some authority ∧ u.data = "" ∧ u.toText = authority ∧
        validAuthority authority.toList = true) ∨
      (u.scheme = none ∧ u.authority = none ∧ u.toText = u.data) := by
  have text := u.toText_toList
  cases hasScheme : u.scheme with
  | none =>
    cases hasAuthority : u.authority with
    | none =>
      refine Or.inr (Or.inr ⟨rfl, rfl, ?_⟩)
      have noMark : u.data.toList.head? ≠ some '?' := fun mark => not (Or.inr (Or.inr mark))
      rw [← String.toList_inj, text]
      by_cases empty : u.data = ""
      · simp [origin, shown, hasScheme, hasAuthority, empty]
      · simp [origin, shown, hasScheme, hasAuthority, empty, noMark]
    | some authority =>
      have empty := u.authorityForm hasScheme (by simp [hasAuthority])
      refine Or.inr (Or.inl ⟨authority, rfl, rfl, empty, ?_, u.authorityValid authority (by simp [hasAuthority])⟩)
      rw [← String.toList_inj, text]
      simp [origin, shown, hasScheme, hasAuthority, empty]
  | some scheme =>
    obtain ⟨authority, hasAuthority⟩ := Option.isSome_iff_exists.mp (u.absolute (by simp [hasScheme]))
    have schemeOk := u.schemeValid scheme (by simp [hasScheme])
    refine Or.inl ⟨(scheme.toList, authority.toList ++ u.shown), ?_, rfl, fun empty => not (Or.inl ⟨empty, by simp [hasScheme]⟩)⟩
    rw [text]
    have cut := splitScheme_append (schemeChars_of_valid schemeOk) (authority.toList ++ u.shown)
    simpa [origin, hasScheme, hasAuthority] using cut

/-- The path that is read back from the text is the path. -/
def PathKept (u : Uri) : Prop :=
  u.Rooted ∨ u.scheme = none ∧ (u.data = "" ∧ u.authority ≠ some "*" ∨ u.data = "*" ∨
    u.data ≠ "" ∧ validAuthority u.data.toList = false ∧ afterScheme u.dataPath.toList = none)

/-- The path and query that are read back from the text are those of the URI. -/
def KeyKept (u : Uri) : Prop :=
  u.Rooted ∧ u.data.toList.head? ≠ some '?' ∨
    u.scheme = none ∧ (u.data = "" ∧ u.authority ≠ none ∧ u.authority ≠ some "*" ∨ u.data = "*" ∨
      u.data ≠ "" ∧ u.data.toList.head? ≠ some '?' ∧ validAuthority u.data.toList = false ∧
        afterScheme u.data.toList = none)

end Uri

theorem parsePath_of_rooted {deps : Deps} {u : Uri} (rooted : u.Rooted) : parsePath deps.withParse u.toText = u.path := by
  obtain ⟨v, parsed, _, shown, _⟩ := Uri.parse_shown (u.shown_slash_iff.mpr rooted)
  simp only [parsePath, Deps.withParse, parsed]
  rw [← String.toList_inj, Uri.path_toList, Uri.path_toList, shown]

theorem pathAndQueryOfStr_of_rooted {deps : Deps} {u : Uri} (rooted : u.Rooted) :
    pathAndQueryOfStr deps.withParse u.toText = String.ofList u.shown := by
  obtain ⟨v, parsed, _, _, key⟩ := Uri.parse_shown (u.shown_slash_iff.mpr rooted)
  simp only [pathAndQueryOfStr, Deps.withParse, parsed, pathAndQueryOfUri, key, Option.getD_some]

theorem parsePath_star {deps : Deps} : parsePath deps.withParse "*" = "*" := by
  rfl

theorem pathAndQueryOfStr_star {deps : Deps} : pathAndQueryOfStr deps.withParse "*" = "*" := by
  rfl

/-- An authority on its own is read back as one, unless it is `*`. -/
theorem parse_authority {authority : String} (valid : validAuthority authority.toList = true) (notStar : authority ≠ "*") :
    Uri.parse authority = .ok (.ofAuthority authority valid) := by
  have present : authority ≠ "" := by
    rintro rfl
    exact absurd valid (by decide)
  have noSlash : '/' ∉ authority.toList := fun member => absurd (Uri.validAuthority_no_end valid '/' member) (by decide)
  have head : authority.toList.head? ≠ some '/' := fun slash => noSlash (List.mem_of_mem_head? slash)
  exact (Uri.parse_bare present notStar head (Uri.splitScheme_eq_none noSlash)).1 valid

/-- `parse_path` gives back the path from the text of a URI exactly if it is kept. -/
theorem parsePath_toText_iff {deps : Deps} (parses : deps.ParsesUri) (u : Uri) :
    parsePath deps u.toText = u.path ↔ u.PathKept := by
  rw [parsePath_withParse parses]
  by_cases rooted : u.Rooted
  · exact ⟨fun _ => Or.inl rooted, fun _ => parsePath_of_rooted rooted⟩
  have noMark : u.data.toList.head? ≠ some '?' := fun mark => rooted (Or.inr (Or.inr mark))
  have noSlash : u.data.toList.head? ≠ some '/' := fun slash => rooted (Or.inr (Or.inl slash))
  rcases u.form_of_not_rooted rooted with ⟨cut, isCut, hasScheme, present⟩ |
    ⟨authority, noScheme, hasAuthority, empty, text, valid⟩ | ⟨noScheme, noAuthority, text⟩
  · have slash := head?_parsePath deps isCut
    obtain ⟨isPath, start⟩ := Uri.path_of_text present noMark
    constructor
    · intro same
      rw [same, isPath, start] at slash
      exact (noSlash slash).elim
    · rintro (is | ⟨none, _⟩)
      · exact (rooted is).elim
      · simp [none] at hasScheme
  · have isPath : u.path = "" := by simp [Uri.path, empty, noScheme]
    rw [text, isPath]
    by_cases isStar : authority = "*"
    · subst isStar
      rw [parsePath_star]
      simp [Uri.PathKept, rooted, noScheme, empty, hasAuthority]
    · simp only [parsePath, Deps.withParse, parse_authority valid isStar]
      simp [Uri.PathKept, rooted, noScheme, empty, hasAuthority, Uri.path, Uri.ofAuthority, isStar]
  · rw [text]
    by_cases empty : u.data = ""
    · have isPath : u.path = "" := by simp [Uri.path, empty, noScheme]
      have read : parsePath deps.withParse "" = "" := rfl
      simp [Uri.PathKept, noScheme, noAuthority, isPath, empty, read]
    · have isPath := (Uri.path_of_text empty noMark).1
      by_cases isStar : u.data = "*"
      · rw [isPath, Uri.dataPath, isStar, parsePath_star]
        simp [Uri.PathKept, noScheme, isStar]
      · rw [isPath, Uri.dataPath, parsePath_bare_iff deps empty isStar noSlash noMark]
        simp [Uri.PathKept, rooted, noScheme, empty, isStar, Uri.dataPath]

/-- `path_and_query_of_str` gives the key of the live URI from its text exactly if the
key is kept. -/
theorem pathAndQueryOfStr_toText_iff {deps : Deps} (parses : deps.ParsesUri) (u : Uri) :
    pathAndQueryOfStr deps u.toText = pathAndQueryOfUri u ↔ u.KeyKept := by
  rw [pathAndQueryOfStr_withParse parses]
  by_cases rooted : u.Rooted
  · rw [pathAndQueryOfStr_of_rooted rooted, pathAndQueryOfUri, rooted.pathAndQuery_eq, Option.getD_some]
    by_cases mark : u.data.toList.head? = some '?'
    · obtain ⟨rest, chars⟩ := List.head?_eq_some_iff.mp mark
      have present := Uri.ne_empty_of_head? mark
      have notStar : u.data ≠ "*" := by simp [← String.toList_inj, chars]
      have longer : String.ofList u.shown ≠ u.pathAndQueryText := by
        rw [Uri.shown, if_neg present, if_pos mark, Uri.pathAndQueryText, if_neg present, ne_eq, ← String.toList_inj,
          String.toList_ofList]
        simp
      simp [Uri.KeyKept, longer, mark, present, notStar]
    · have kept : String.ofList u.shown = u.pathAndQueryText := by
        rw [← String.toList_inj, String.toList_ofList, Uri.shown, Uri.pathAndQueryText]
        rcases rooted with ⟨empty, hasScheme⟩ | slash | isMark
        · simp [empty, hasScheme]
        · simp [Uri.ne_empty_of_head? slash, mark]
        · exact (mark isMark).elim
      simp [Uri.KeyKept, rooted, kept, mark]
  have noMark : u.data.toList.head? ≠ some '?' := fun mark => rooted (Or.inr (Or.inr mark))
  have noSlash : u.data.toList.head? ≠ some '/' := fun slash => rooted (Or.inr (Or.inl slash))
  rcases u.form_of_not_rooted rooted with ⟨cut, isCut, hasScheme, present⟩ |
    ⟨authority, noScheme, hasAuthority, empty, text, valid⟩ | ⟨noScheme, noAuthority, text⟩
  · have head := head?_pathAndQueryOfStr deps isCut
    have key : pathAndQueryOfUri u = u.data := by
      rw [pathAndQueryOfUri, Uri.pathAndQuery_of_data (Or.inl hasScheme) present, Option.getD_some]
    constructor
    · intro same
      rw [same, key] at head
      rcases head with slash | mark
      · exact (noSlash slash).elim
      · exact (noMark mark).elim
    · rintro (⟨is, _⟩ | ⟨none, _⟩)
      · exact (rooted is).elim
      · simp [none] at hasScheme
  · have key : pathAndQueryOfUri u = "" := by
      simp [pathAndQueryOfUri, Uri.pathAndQuery, Uri.path, empty, noScheme, hasAuthority]
    rw [text, key]
    by_cases isStar : authority = "*"
    · subst isStar
      rw [pathAndQueryOfStr_star]
      simp [Uri.KeyKept, rooted, noScheme, empty, hasAuthority]
    · simp only [pathAndQueryOfStr, Deps.withParse, parse_authority valid isStar]
      simp [Uri.KeyKept, rooted, noScheme, empty, hasAuthority, pathAndQueryOfUri, Uri.pathAndQuery, Uri.path,
        Uri.ofAuthority, isStar]
  · rw [text]
    by_cases empty : u.data = ""
    · have key : pathAndQueryOfUri u = "/" := by
        simp [pathAndQueryOfUri, Uri.pathAndQuery, Uri.pathAndQueryText, empty, noAuthority]
      have read : pathAndQueryOfStr deps.withParse "" = "" := rfl
      simp [Uri.KeyKept, rooted, noScheme, noAuthority, key, empty, read]
    · have key : pathAndQueryOfUri u = u.data := by
        rw [pathAndQueryOfUri, Uri.pathAndQuery_of_data (Or.inr noAuthority) empty, Option.getD_some]
      rw [key]
      by_cases isStar : u.data = "*"
      · rw [isStar, pathAndQueryOfStr_star]
        simp [Uri.KeyKept, noScheme, isStar]
      · rw [pathAndQueryOfStr_bare_iff deps empty isStar noSlash noMark]
        simp [Uri.KeyKept, rooted, noScheme, empty, isStar, noMark]

namespace Uri

/-- Path and query behind the `://` of a text: what follows the authority, or all from
the first slash on where no authority is found. -/
def behindScheme (schemeOk : Bool) (rest : List Char) : List Char :=
  let data :=
    if schemeOk = true ∧ validAuthority (rest.takeWhile fun c => !isAuthorityEnd c) = true then
      rest.dropWhile fun c => !isAuthorityEnd c
    else rest.dropWhile (· ≠ '/')
  if data = [] then ['/'] else data

/-- A text without origin may pass for something else: for one with a scheme, or for
an authority. -/
def bareReadBack (text : List Char) : List Char :=
  if text = [] ∨ text = ['*'] ∨ text.head? = some '/' then text
  else
    match splitScheme text with
    | some (scheme, rest) => behindScheme (validScheme scheme) rest
    | none =>
      if validAuthority text = true then []
      else
        match afterScheme text with
        | some rest => behindScheme false rest
        | none => text

/-- The path and query that the text of a URI is read back as. -/
def readBack (u : Uri) : String :=
  match u.scheme, u.authority with
  | some _, authority => String.ofList (behindScheme true ((authority.getD "").toList ++ u.shown))
  | none, some authority => if authority = "*" then "*" else ""
  | none, none => String.ofList (bareReadBack u.shown)

theorem validData_of_append {front rest : List Char} (noMark : ∀ c ∈ front, c ≠ '?')
    (valid : validData (front ++ rest) = true) : validData rest = true := by
  have passes : ∀ c ∈ front, decide (c ≠ '?') = true := fun c member => decide_eq_true (noMark c member)
  simp only [validData, List.takeWhile_append_of_pos passes, List.dropWhile_append_of_pos passes, List.all_append,
    Bool.and_eq_true] at valid ⊢
  exact ⟨valid.1.2, valid.2⟩

theorem validData_afterAuthority {data : List Char} (valid : validData data = true) :
    validData (data.dropWhile fun c => !isAuthorityEnd c) = true := by
  have parts : data.takeWhile (fun c => !isAuthorityEnd c) ++ data.dropWhile (fun c => !isAuthorityEnd c) = data :=
    List.takeWhile_append_dropWhile
  refine validData_of_append ?_ (parts.symm ▸ valid)
  rintro c member rfl
  exact absurd (List.mem_takeWhile_imp member) (by decide)

end Uri

section ReadBack
variable {deps : Deps}

theorem fallback_eq (rest : List Char) :
    (match rest.dropWhile (· ≠ '/') with | [] => "/" | path => String.ofList path) =
      String.ofList (Uri.behindScheme false rest) := by
  simp only [Uri.behindScheme, Bool.false_eq_true, false_and, if_false]
  cases rest.dropWhile (· ≠ '/') with
  | nil => rfl
  | cons first rest' => simp

theorem pathAndQueryOfStr_of_splitScheme {text : String} {scheme rest : List Char}
    (isCut : Uri.splitScheme text.toList = some (scheme, rest))
    (valid : validData (rest.dropWhile fun c => !Uri.isAuthorityEnd c) = true) :
    pathAndQueryOfStr deps.withParse text = String.ofList (Uri.behindScheme (validScheme scheme) rest) := by
  have after : afterScheme text.toList = some rest := by
    obtain ⟨isText, chars⟩ := Uri.splitScheme_eq isCut
    rw [isText]
    exact Uri.afterScheme_append chars rest
  by_cases found : validScheme scheme = true ∧ validAuthority (rest.takeWhile fun c => !Uri.isAuthorityEnd c) = true
  · obtain ⟨schemeOk, authorityOk⟩ := found
    simp only [pathAndQueryOfStr, Deps.withParse, Uri.parse_of_splitScheme isCut, Uri.parseFull, isCut,
      Uri.parseData_valid valid, schemeOk, authorityOk, valid, dif_pos, pathAndQueryOfUri, Uri.pathAndQuery,
      Uri.pathAndQueryText, Uri.ofParts, Uri.behindScheme, and_self, if_true, Option.isSome_some, true_or, Option.getD_some]
    cases left : rest.dropWhile fun c => !Uri.isAuthorityEnd c with
    | nil => rfl
    | cons first rest' => simp [← String.toList_inj]
  · have refused : ∃ err, Uri.parseFull text.toList = .error err := by
      simp only [Uri.parseFull, isCut]
      split_ifs with schemeOk authorityOk
      · exact (found ⟨schemeOk, authorityOk⟩).elim
      · exact (found ⟨schemeOk, authorityOk⟩).elim
      · exact ⟨_, rfl⟩
      · exact ⟨_, rfl⟩
    obtain ⟨err, refused⟩ := refused
    have behind : Uri.behindScheme (validScheme scheme) rest = Uri.behindScheme false rest := by
      simp only [Uri.behindScheme, if_neg found, Bool.false_eq_true, false_and, if_false]
    simp only [pathAndQueryOfStr, Deps.withParse, Uri.parse_of_splitScheme isCut, refused, after]
    rw [behind]
    exact fallback_eq rest

/-- A text without origin that does not begin with a slash, read by its own form. -/
theorem pathAndQueryOfStr_bare {text : String} (valid : validData text.toList = true) (noMark : text.toList.head? ≠ some '?')
    (noSlash : text.toList.head? ≠ some '/') :
    pathAndQueryOfStr deps.withParse text = String.ofList (Uri.bareReadBack text.toList) := by
  by_cases empty : text = ""
  · subst empty
    rfl
  by_cases isStar : text = "*"
  · subst isStar
    rfl
  have other : ¬ (text.toList = [] ∨ text.toList = ['*'] ∨ text.toList.head? = some '/') := by
    rintro (isEmpty | star | slash)
    · exact empty (String.toList_eq_nil_iff.mp isEmpty)
    · exact isStar (String.toList_inj.mp star)
    · exact noSlash slash
  rw [Uri.bareReadBack, if_neg other]
  cases isCut : Uri.splitScheme text.toList with
  | some cut =>
    obtain ⟨isText, chars⟩ := Uri.splitScheme_eq isCut
    have behind : validData cut.2 = true := by
      refine Uri.validData_of_append (Uri.noMark_of_scheme chars) ?_
      rw [List.append_assoc]
      exact isText ▸ valid
    exact pathAndQueryOfStr_of_splitScheme isCut (Uri.validData_afterAuthority behind)
  | none =>
    obtain ⟨asAuthority, refused⟩ := Uri.parse_bare empty isStar noSlash isCut
    cases isAuthority : validAuthority text.toList with
    | true =>
      simp only [pathAndQueryOfStr, Deps.withParse, asAuthority isAuthority, if_true]
      rfl
    | false =>
      simp only [pathAndQueryOfStr, Deps.withParse, refused isAuthority, Bool.false_eq_true, if_false]
      cases afterScheme text.toList with
      | none => simp
      | some rest => exact fallback_eq rest

/-- What `path_and_query_of_str` makes of the text of a URI, by the parts of the URI. -/
theorem pathAndQueryOfStr_readBack (parses : deps.ParsesUri) (u : Uri) : pathAndQueryOfStr deps u.toText = u.readBack := by
  rw [pathAndQueryOfStr_withParse parses]
  have text := u.toText_toList
  cases hasScheme : u.scheme with
  | some scheme =>
    obtain ⟨authority, hasAuthority⟩ := Option.isSome_iff_exists.mp (u.absolute (by simp [hasScheme]))
    have schemeOk := u.schemeValid scheme (by simp [hasScheme])
    have authorityOk := u.authorityValid authority (by simp [hasAuthority])
    have isCut : Uri.splitScheme u.toText.toList = some (scheme.toList, authority.toList ++ u.shown) := by
      have cut := Uri.splitScheme_append (Uri.schemeChars_of_valid schemeOk) (authority.toList ++ u.shown)
      rw [text]
      simpa [Uri.origin, hasScheme, hasAuthority] using cut
    have valid : validData ((authority.toList ++ u.shown).dropWhile fun c => !Uri.isAuthorityEnd c) = true := by
      rw [List.dropWhile_append_of_pos (Uri.validAuthority_chars authorityOk)]
      exact Uri.validData_afterAuthority u.validData_shown
    rw [pathAndQueryOfStr_of_splitScheme isCut valid, schemeOk]
    simp only [Uri.readBack, hasScheme, hasAuthority, Option.getD_some]
  | none =>
    cases hasAuthority : u.authority with
    | some authority =>
      have empty := u.authorityForm hasScheme (by simp [hasAuthority])
      have isText : u.toText = authority := by
        rw [← String.toList_inj, text]
        simp [Uri.origin, Uri.shown, hasScheme, hasAuthority, empty]
      have valid := u.authorityValid authority (by simp [hasAuthority])
      simp only [isText, Uri.readBack, hasScheme, hasAuthority]
      by_cases isStar : authority = "*"
      · subst isStar
        rfl
      · rw [if_neg isStar]
        simp only [pathAndQueryOfStr, Deps.withParse, parse_authority valid isStar]
        rfl
    | none =>
      have isText : u.toText.toList = u.shown := by
        rw [text]
        simp [Uri.origin, hasScheme, hasAuthority]
      have valid := u.validData_shown
      simp only [Uri.readBack, hasScheme, hasAuthority]
      by_cases slash : u.shown.head? = some '/'
      · rw [pathAndQueryOfStr_of_rooted (u.shown_slash_iff.mp slash), Uri.bareReadBack, if_pos (Or.inr (Or.inr slash))]
      · have noMark : u.shown.head? ≠ some '?' := by
          unfold Uri.shown
          split_ifs with empty isScheme mark
          · simp
          · simp
          · simp
          · exact mark
        rw [← isText] at valid slash noMark ⊢
        exact pathAndQueryOfStr_bare valid noMark slash

end ReadBack

/-- The text of a recorded URI yields the live key exactly on the URIs whose key is
kept, and then the two keys of a request agree. -/
theorem recorded_uri_key_iff {deps : Deps} (parses : deps.ParsesUri) :
    (∀ u : Uri, pathAndQueryOfStr deps u.toText = pathAndQueryOfUri u ↔ u.KeyKept) ∧
      ∀ req : ProxyRequest, recordedKey deps (.fromParts deps req) = liveKey deps req ↔ req.uri.KeyKept := by
  refine ⟨fun u => pathAndQueryOfStr_toText_iff parses u, fun req => ?_⟩
  rw [← pathAndQueryOfStr_toText_iff parses]
  simp [recordedKey, liveKey, RecordedRequest.fromParts]

theorem referenceDeps_parsesUri : referenceDeps.ParsesUri := by
  intro text
  cases parsed : Uri.parse text with
  | ok u => exact ⟨u, parsed, rfl, rfl, rfl⟩
  | error err => exact ⟨err, parsed⟩

theorem recorded_uri_key_iff_absolute :
    let u : Uri := .ofParts "http" "api.example.com" "/vehicle?plate=ABC123" (by decide) (by decide) (by decide)
    pathAndQueryOfStr referenceDeps u.toText = pathAndQueryOfUri u := by
  intro u
  exact ((recorded_uri_key_iff referenceDeps_parsesUri).1 u).mpr (Or.inl ⟨Or.inr (Or.inl (by decide)), by decide⟩)

/-- A proxy request for `http://h?x=1`, which has no path: `Display` writes the slash
that the live key does not have. -/
theorem recorded_uri_key_differs :
    let u : Uri := .ofParts "http" "h" "?x=1" (by decide) (by decide) (by decide)
    Uri.parse "http://h?x=1" = .ok u ∧ u.toText = "http://h/?x=1" ∧
      pathAndQueryOfStr referenceDeps u.toText = "/?x=1" ∧ pathAndQueryOfUri u = "?x=1" := by
  decide

end PartlyProxy
