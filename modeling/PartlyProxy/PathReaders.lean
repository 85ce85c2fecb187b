import PartlyProxy.UriForms

namespace PartlyProxy

/-- Whatever `str::parse::<http::Uri>` accepts, it reads as `Uri.parse` does. It may
refuse more, as it does with a text that is too long. -/
def Deps.ParsesSoundly (deps : Deps) : Prop :=
  ∀ text v, deps.parseUri text = .ok v → ∃ u, Uri.parse text = .ok u ∧ v.scheme.isSome = u.scheme.isSome ∧
    v.authority = u.authority ∧ v.data = u.data

theorem Deps.ParsesUri.soundly {deps : Deps} (parses : deps.ParsesUri) : deps.ParsesSoundly := by
  intro text v parsed
  rcases parseUri_cases parses text with ⟨u, v', own, parsed', same⟩ | ⟨_, err, _, refused⟩
  · obtain rfl : v = v' := Except.ok.inj (parsed.symm.trans parsed')
    exact ⟨u, own, same⟩
  · rw [parsed] at refused
    cases refused

/-- The two readers of a recorded URI split it alike: `parse_path` has what stands
before the first question mark of what `path_and_query_of_str` has, and that keeps an
origin-form text, but for its fragment where it parses. -/
structure ReadAlike (deps : Deps) (text : String) : Prop where
  path : (parsePath deps text).toList = (pathAndQueryOfStr deps text).toList.takeWhile (· ≠ '?')
  uncut : text.toList.head? = some '/' → afterScheme (text.toList.takeWhile (· ≠ '?')) = none →
    (pathAndQueryOfStr deps text).toList =
      match deps.parseUri text with
      | .ok _ => text.toList.takeWhile (· ≠ '#')
      | .error _ => text.toList

/-- The URI of a text that parses does not begin with its query. In one that does not
parse, the first `://`, if there is one, stands before the first question mark, and so
does the slash after it, unless nothing follows that slash before the next one. -/
def SplitsOnce (deps : Deps) (text : String) : Prop :=
  match deps.parseUri text with
  | .ok v => v.data.toList.head? ≠ some '?'
  | .error _ => ∀ rest, afterScheme text.toList = some rest →
      (afterScheme (text.toList.takeWhile (· ≠ '?'))).isSome = true ∧
        ('/' ∈ rest.takeWhile (· ≠ '?') ∨ ((rest.dropWhile (· ≠ '/')).drop 1).takeWhile (· ≠ '?') = [])

section Parsed

theorem parse_ne_empty {text : String} {u : Uri} (parsed : Uri.parse text = .ok u) :
    u.scheme.isSome = true ∨ u.authority ≠ none ∨ u.data ≠ "" := by
  unfold Uri.parse at parsed
  split_ifs at parsed with empty star slash valid
  · cases parsed
    exact Or.inr (Or.inr (by decide))
  · cases parsed
    refine Or.inr (Or.inr (Uri.ne_empty_of_head? (c := '/') ?_))
    obtain ⟨rest, chars⟩ := List.head?_eq_some_iff.mp slash
    simp [Uri.ofData, Uri.parseData, chars]
  · cases isCut : Uri.splitScheme text.toList with
    | some cut => exact Or.inl (Uri.data_of_splitScheme isCut parsed).1
    | none =>
      simp only [Uri.parseFull, isCut] at parsed
      split_ifs at parsed
      cases parsed
      exact Or.inr (Or.inl (by simp [Uri.ofAuthority]))

/-- The path of a URI and the path of its key, but for the empty URI, which no text
parses to. -/
theorem path_eq_key_iff {v : Uri} (present : v.scheme.isSome = true ∨ v.authority ≠ none ∨ v.data ≠ "") :
    v.path.toList = (pathAndQueryOfUri v).toList.takeWhile (· ≠ '?') ↔ v.data.toList.head? ≠ some '?' := by
  by_cases form : v.scheme.isSome = true ∨ v.authority = none
  · by_cases empty : v.data = ""
    · have hasScheme : v.scheme.isSome = true := by
        rcases present with is | other | data
        · exact is
        · exact form.resolve_right other
        · exact (data empty).elim
      simp [pathAndQueryOfUri, Uri.pathAndQuery, Uri.pathAndQueryText, Uri.path, Uri.dataPath, hasScheme, empty]
    · rw [pathAndQueryOfUri, Uri.pathAndQuery_of_data form empty, Option.getD_some]
      by_cases mark : v.data.toList.head? = some '?'
      · obtain ⟨rest, chars⟩ := List.head?_eq_some_iff.mp mark
        rw [Uri.path_of_mark mark, chars]
        simp
      · rw [(Uri.path_of_text empty mark).1, Uri.dataPath, String.toList_ofList]
        simp [mark]
  · -- authority-form has neither path nor query
    rw [not_or] at form
    have empty := v.authorityForm (by simpa using form.1) (Option.isSome_iff_ne_none.mpr form.2)
    simp [pathAndQueryOfUri, Uri.pathAndQuery, Uri.path, form.1, form.2, empty]

theorem key_of_origin {text : String} {u : Uri} (parsed : Uri.parse text = .ok u) (slash : text.toList.head? = some '/') :
    (pathAndQueryOfUri u).toList = text.toList.takeWhile (· ≠ '#') := by
  obtain ⟨rest, chars⟩ := List.head?_eq_some_iff.mp slash
  have notStar : text ≠ "*" := by
    rintro rfl
    cases slash
  rw [Uri.parse, if_neg (Uri.ne_empty_of_head? slash), if_neg notStar, if_pos slash] at parsed
  split_ifs at parsed with valid
  cases parsed
  have data : Uri.parseData text.toList ≠ [] := by simp [Uri.parseData, chars]
  have present : String.ofList (Uri.parseData text.toList) ≠ "" := by
    rw [ne_eq, ← String.toList_inj, String.toList_ofList]
    exact data
  rw [pathAndQueryOfUri, Uri.pathAndQuery_of_data (Or.inr rfl) present, Option.getD_some]
  exact String.toList_ofList

end Parsed

section Fallback
variable {text : List Char}

/-- A `://` before the question mark is the first one of the whole text. -/
theorem afterScheme_takeWhile {found : List Char} (here : afterScheme (text.takeWhile (· ≠ '?')) = some found) :
    ∃ rest, afterScheme text = some rest ∧ found = rest.takeWhile (· ≠ '?') := by
  induction text using afterScheme.induct with
  | case1 rest =>
    refine ⟨rest, rfl, ?_⟩
    simpa [afterScheme] using here.symm
  | case2 first rest other ih =>
    rw [afterScheme.eq_2 _ _ other]
    by_cases mark : first = '?'
    · simp [mark, afterScheme] at here
    · rw [List.takeWhile_cons, if_pos (by simpa using mark), afterScheme] at here
      · exact ih here
      · intro tail isColon slashes
        have whole := List.takeWhile_append_dropWhile (p := (· ≠ '?')) (l := rest)
        rw [slashes] at whole
        exact other _ isColon whole.symm
  | case3 => simp [afterScheme] at here

theorem length_afterScheme {rest : List Char} (found : afterScheme text = some rest) : rest.length + 3 ≤ text.length := by
  induction text using afterScheme.induct with
  | case1 rest' =>
    obtain rfl : rest' = rest := by simpa [afterScheme] using found
    simp
  | case2 first rest' other ih =>
    rw [afterScheme.eq_2 _ _ other] at found
    have shorter := ih found
    rw [List.length_cons]
    omega
  | case3 => simp [afterScheme] at found

/-- Behind a `://` that both find, the readers agree if they find the same slash, or
if the one in the query has nothing to show for it. -/
theorem fallback_eq_iff (rest : List Char) :
    (match (rest.takeWhile (· ≠ '?')).dropWhile (· ≠ '/') with | [] => "/" | path => String.ofList path).toList =
        (match rest.dropWhile (· ≠ '/') with | [] => "/" | path => String.ofList path).toList.takeWhile (· ≠ '?') ↔
      '/' ∈ rest.takeWhile (· ≠ '?') ∨ ((rest.dropWhile (· ≠ '/')).drop 1).takeWhile (· ≠ '?') = [] := by
  by_cases slash : '/' ∈ rest.takeWhile (· ≠ '?')
  · have stops : ∃ c ∈ rest.takeWhile (· ≠ '?'), decide (c ≠ '/') = false := ⟨'/', slash, by simp⟩
    rw [Lines.dropWhile_takeWhile stops]
    simp only [slash, true_or, iff_true]
    cases left : rest.dropWhile (· ≠ '/') with
    | nil => simp
    | cons first more =>
      obtain rfl : first = '/' := Lines.eq_of_dropWhile left
      simp
  · have nothing : (rest.takeWhile (· ≠ '?')).dropWhile (· ≠ '/') = [] :=
      List.dropWhile_eq_nil_iff.mpr (Lines.passes_of_not_mem slash)
    rw [nothing]
    simp only [slash, false_or]
    cases left : rest.dropWhile (· ≠ '/') with
    | nil => simp
    | cons first more =>
      obtain rfl : first = '/' := Lines.eq_of_dropWhile left
      have shown : ('/' :: more).takeWhile (· ≠ '?') = '/' :: more.takeWhile (· ≠ '?') := by simp
      simp only [String.toList_ofList, shown, List.drop_one, List.tail_cons]
      exact ⟨fun same => (List.cons.inj same).2.symm, fun empty => congrArg ('/' :: ·) empty.symm⟩

theorem length_fallback (rest : List Char) :
    (match rest.dropWhile (· ≠ '/') with | [] => "/" | path => String.ofList path).toList.length ≤ rest.length + 1 := by
  have shorter := (List.dropWhile_suffix (fun c => decide (c ≠ '/')) (l := rest)).length_le
  cases left : rest.dropWhile (· ≠ '/') with
  | nil => exact Nat.le_add_left 1 rest.length
  | cons slash more =>
    rw [left] at shorter
    simp only [String.toList_ofList]
    omega

end Fallback

/-- A text that does not parse. -/
theorem readAlike_error_iff {deps : Deps} {text : String} {err : String} (refused : deps.parseUri text = .error err) :
    ReadAlike deps text ↔ SplitsOnce deps text := by
  have once : SplitsOnce deps text ↔ ∀ rest, afterScheme text.toList = some rest →
      (afterScheme (text.toList.takeWhile (· ≠ '?'))).isSome = true ∧
        ('/' ∈ rest.takeWhile (· ≠ '?') ∨ ((rest.dropWhile (· ≠ '/')).drop 1).takeWhile (· ≠ '?') = []) := by
    simp only [SplitsOnce, refused]
  rw [once]
  cases before : afterScheme (text.toList.takeWhile (· ≠ '?')) with
  | some found =>
    obtain ⟨rest, here, rfl⟩ := afterScheme_takeWhile before
    have path : (parsePath deps text).toList = (pathAndQueryOfStr deps text).toList.takeWhile (· ≠ '?') ↔
        '/' ∈ rest.takeWhile (· ≠ '?') ∨ ((rest.dropWhile (· ≠ '/')).drop 1).takeWhile (· ≠ '?') = [] := by
      simp only [parsePath, pathAndQueryOfStr, refused, before, here]
      exact fallback_eq_iff rest
    constructor
    · rintro ⟨same, _⟩ other isRest
      obtain rfl : rest = other := Option.some.inj (here.symm.trans isRest)
      exact ⟨rfl, path.mp same⟩
    · intro splits
      refine ⟨path.mpr (splits rest here).2, fun _ none => ?_⟩
      rw [before] at none
      cases none
  | none =>
    have noQuery : parsePath deps text = String.ofList (text.toList.takeWhile (· ≠ '?')) := by
      simp only [parsePath, refused, before]
    cases here : afterScheme text.toList with
    | none =>
      have whole : pathAndQueryOfStr deps text = text := by simp only [pathAndQueryOfStr, refused, here]
      constructor
      · intro _ rest found
        cases found
      · intro _
        refine ⟨by rw [noQuery, whole, String.toList_ofList], fun _ _ => ?_⟩
        rw [whole, refused]
    | some rest =>
      -- the mark stands in the query, and only one of the readers finds it
      refine ⟨fun alike => ?_, fun splits => ?_⟩
      · have starts : (pathAndQueryOfStr deps text).toList.head? = some '/' := by
          simp only [pathAndQueryOfStr, refused, here]
          exact head?_fallback rest
        have short : (pathAndQueryOfStr deps text).toList.length ≤ rest.length + 1 := by
          simp only [pathAndQueryOfStr, refused, here]
          exact length_fallback rest
        by_cases slash : text.toList.head? = some '/'
        · have kept := alike.uncut slash before
          simp only [refused] at kept
          have behind := length_afterScheme here
          rw [kept] at short
          omega
        · have same := alike.path
          obtain ⟨more, begins⟩ := List.head?_eq_some_iff.mp starts
          rw [noQuery, begins, String.toList_ofList] at same
          have whole := List.takeWhile_append_dropWhile (p := (· ≠ '?')) (l := text.toList)
          rw [same] at whole
          rw [← whole] at slash
          simp at slash
      · have clash := (splits rest rfl).1
        simp at clash

/-- A text that parses. Its URI is one of the text, so it is not empty. -/
theorem readAlike_ok_iff {deps : Deps} (parses : deps.ParsesSoundly) {text : String} {v : Uri}
    (parsed : deps.parseUri text = .ok v) : ReadAlike deps text ↔ SplitsOnce deps text := by
  obtain ⟨u, own, scheme, authority, data⟩ := parses text v parsed
  have present : v.scheme.isSome = true ∨ v.authority ≠ none ∨ v.data ≠ "" := by
    rw [scheme, authority, data]
    exact parse_ne_empty own
  have isPath : parsePath deps text = v.path := by simp only [parsePath, parsed]
  have isKey : pathAndQueryOfStr deps text = pathAndQueryOfUri v := by simp only [pathAndQueryOfStr, parsed]
  have once : SplitsOnce deps text ↔ v.data.toList.head? ≠ some '?' := by simp only [SplitsOnce, parsed]
  rw [once, ← path_eq_key_iff present]
  constructor
  · rintro ⟨same, _⟩
    rwa [isPath, isKey] at same
  · intro same
    refine ⟨by rwa [isPath, isKey], fun slash _ => ?_⟩
    have sameKey : pathAndQueryOfUri v = pathAndQueryOfUri u := by
      rw [pathAndQueryOfUri, pathAndQueryOfUri, Uri.pathAndQuery_congr scheme authority data, Uri.path_congr scheme data]
    simp only [isKey, sameKey, parsed]
    exact key_of_origin own slash

theorem path_readers_agree_iff {deps : Deps} (parses : deps.ParsesSoundly) (text : String) :
    ReadAlike deps text ↔ SplitsOnce deps text := by
  cases parsed : deps.parseUri text with
  | ok v => exact readAlike_ok_iff parses parsed
  | error err => exact readAlike_error_iff parsed

/-- A URL that does not parse, for its host has a space, with another in its query. -/
theorem path_readers_agree_behind_host :
    SplitsOnce referenceDeps "http://a b/c?next=http://x/y" ∧ ReadAlike referenceDeps "http://a b/c?next=http://x/y" := by
  have splits : SplitsOnce referenceDeps "http://a b/c?next=http://x/y" := by
    have refused : referenceDeps.parseUri "http://a b/c?next=http://x/y" = .error "invalid authority" := by decide
    have first : afterScheme "http://a b/c?next=http://x/y".toList = some "a b/c?next=http://x/y".toList := by decide
    have before : (afterScheme ("http://a b/c?next=http://x/y".toList.takeWhile (· ≠ '?'))).isSome = true := by decide
    have slash : '/' ∈ "a b/c?next=http://x/y".toList.takeWhile (· ≠ '?') := by decide
    rw [SplitsOnce, refused]
    intro rest found
    rw [first] at found
    rw [← Option.some.inj found]
    exact ⟨before, Or.inl slash⟩
  refine ⟨splits, ?_⟩
  rw [path_readers_agree_iff referenceDeps_parsesUri.soundly]
  exact splits

/-- A path with a space does not parse, and is cut at the URL in its query. A URL with
no path parses, and the one reader supplies a slash that the other does not. -/
theorem path_readers_disagree :
    parsePath referenceDeps "/a b?next=http://x/y" = "/a b" ∧
      pathAndQueryOfStr referenceDeps "/a b?next=http://x/y" = "/y" ∧
      parsePath referenceDeps "http://h?x=1" = "/" ∧ pathAndQueryOfStr referenceDeps "http://h?x=1" = "?x=1" ∧
      ¬ ReadAlike referenceDeps "/a b?next=http://x/y" ∧ ¬ ReadAlike referenceDeps "http://h?x=1" := by
  have spaced : pathAndQueryOfStr referenceDeps "/a b?next=http://x/y" = "/y" := by decide
  have noPath : pathAndQueryOfStr referenceDeps "http://h?x=1" = "?x=1" := by decide
  have kept : parsePath referenceDeps "/a b?next=http://x/y" = "/a b" := by decide
  have slash : parsePath referenceDeps "http://h?x=1" = "/" := by decide
  refine ⟨kept, spaced, slash, noPath, fun alike => ?_, fun alike => ?_⟩
  · have same := alike.path
    rw [kept, spaced] at same
    exact absurd same (by decide)
  · have same := alike.path
    rw [slash, noPath] at same
    exact absurd same (by decide)

end PartlyProxy
