import PartlyProxy.Lib.Lines
import Mathlib.Data.List.TakeWhile
import Mathlib.Data.Option.Basic

namespace PartlyProxy

def isPathChar (c : Char) : Bool :=
  let n := c.toNat
  n = 0x21 || n = 0x22 || (0x24 ≤ n && n ≤ 0x3B) || n = 0x3D || (0x40 ≤ n && n ≤ 0x5F) || 0x61 ≤ n

def isQueryChar (c : Char) : Bool :=
  let n := c.toNat
  n = 0x21 || (0x24 ≤ n && n ≤ 0x3B) || n = 0x3D || 0x3F ≤ n

def validData (data : List Char) : Bool :=
  (data.takeWhile (· ≠ '?')).all isPathChar && ((data.dropWhile (· ≠ '?')).drop 1).all isQueryChar

def isSchemeChar (c : Char) : Bool := c.isAlphanum || c = '+' || c = '-' || c = '.'

def validScheme (scheme : List Char) : Bool := scheme.all isSchemeChar && scheme.length ≤ 64

/-- What `Authority::parse` remembers between two characters. -/
structure AuthorityScan where
  colons : Nat
  opened : Bool
  closed : Bool
  percent : Bool
  afterAt : Bool

/-- One character of `Authority::parse`; a colon, bracket, at sign or percent
sign is counted, any other character only has to be allowed. -/
def AuthorityScan.next (scan : AuthorityScan) (c : Char) : Option AuthorityScan :=
  if c = ':' then
    if 8 ≤ scan.colons then none else some { scan with colons := scan.colons + 1, afterAt := false }
  else if c = '[' then
    if scan.percent || scan.opened then none else some { scan with opened := true, afterAt := false }
  else if c = ']' then
    if !scan.opened || scan.closed then none
    else some { scan with closed := true, colons := 0, percent := false, afterAt := false }
  else if c = '@' then some { scan with colons := 0, percent := false, afterAt := true }
  else if c = '%' then some { scan with percent := true, afterAt := false }
  else if c.isAlphanum || c ∈ "!$&()*+,-.;=_~".toList || c = Char.ofNat 39 then some { scan with afterAt := false }
  else none

def validAuthority (authority : List Char) : Bool :=
  match authority.foldlM AuthorityScan.next ⟨0, false, false, false, false⟩ with
  | none => false
  | some scan =>
    authority ≠ [] && scan.opened == scan.closed && scan.colons ≤ 1 && !scan.afterAt && !scan.percent

/-- `http::Uri` by its three parts, with the form restrictions of the crate.
`data` is the raw path-and-query text and may be empty. -/
structure Uri where
  scheme : Option String
  authority : Option String
  data : String
  absolute : scheme.isSome → authority.isSome
  authorityForm : scheme = none → authority.isSome → data = ""
  schemeValid : ∀ text ∈ scheme, validScheme text.toList = true
  authorityValid : ∀ text ∈ authority, validAuthority text.toList = true
  dataValid : validData data.toList = true
deriving DecidableEq

namespace Uri

def ofData (data : String) (valid : validData data.toList = true) : Uri where
  scheme := none
  authority := none
  data := data
  absolute := by simp
  authorityForm := by simp
  schemeValid := by simp
  authorityValid := by simp
  dataValid := valid

def ofAuthority (authority : String) (valid : validAuthority authority.toList = true) : Uri where
  scheme := none
  authority := some authority
  data := ""
  absolute := by simp
  authorityForm := by simp
  schemeValid := by simp
  authorityValid := by simpa using valid
  dataValid := by decide

def ofParts (scheme authority data : String) (schemeOk : validScheme scheme.toList = true)
    (authorityOk : validAuthority authority.toList = true) (dataOk : validData data.toList = true) : Uri where
  scheme := some scheme
  authority := some authority
  data := data
  absolute := by simp
  authorityForm := by simp
  schemeValid := by simpa using schemeOk
  authorityValid := by simpa using authorityOk
  dataValid := dataOk

def pathAndQueryText (u : Uri) : String := if u.data = "" then "/" else u.data

def pathAndQuery (u : Uri) : Option String :=
  if u.scheme.isSome ∨ u.authority = none then some u.pathAndQueryText else none

def dataPath (u : Uri) : String := String.ofList (u.data.toList.takeWhile (· ≠ '?'))

/-- `Uri::path`: empty only in authority-form, and `/` when the text has no path. -/
def path (u : Uri) : String :=
  if u.data ≠ "" ∨ u.scheme.isSome then (if u.dataPath = "" then "/" else u.dataPath) else ""

def query (u : Uri) : Option String :=
  match u.data.toList.dropWhile (· ≠ '?') with
  | [] => none
  | _ :: rest => some (String.ofList rest)

def origin (u : Uri) : String :=
  (match u.scheme with | some scheme => scheme ++ "://" | none => "") ++ u.authority.getD ""

def toText (u : Uri) : String :=
  u.origin ++ u.path ++ (match u.query with | some query => "?" ++ query | none => "")

def parseData (text : List Char) : List Char := text.takeWhile (· ≠ '#')

theorem validData_ofParsed {text : String} (valid : validData (parseData text.toList) = true) :
    validData (String.ofList (parseData text.toList)).toList = true := by
  simpa using valid

def splitScheme (text : List Char) : Option (List Char × List Char) :=
  match text.dropWhile isSchemeChar with
  | ':' :: '/' :: '/' :: rest => some (text.takeWhile isSchemeChar, rest)
  | _ => none

def isAuthorityEnd (c : Char) : Bool := c = '/' || c = '?' || c = '#'

/-- `parse_full`: an absolute-form target, else authority-form. -/
def parseFull (text : List Char) : Except String Uri :=
  match splitScheme text with
  | some (scheme, rest) =>
    let authority := rest.takeWhile fun c => !isAuthorityEnd c
    let data := parseData (rest.dropWhile fun c => !isAuthorityEnd c)
    if schemeOk : validScheme scheme = true then
      if authorityOk : validAuthority authority = true then
        if dataOk : validData data = true then
          .ok (.ofParts (String.ofList scheme) (String.ofList authority) (String.ofList data)
            (by simpa using schemeOk) (by simpa using authorityOk) (by simpa using dataOk))
        else .error "invalid uri character"
      else .error "invalid authority"
    else .error "scheme too long"
  | none =>
    if authorityOk : validAuthority text = true then
      .ok (.ofAuthority (String.ofList text) (by simpa using authorityOk))
    else .error "invalid format"

def parse (text : String) : Except String Uri :=
  if text = "" then .error "empty string"
  else if text = "*" then .ok (.ofData "*" (by decide))
  else if text.toList.head? = some '/' then
    if dataOk : validData (parseData text.toList) = true then
      .ok (.ofData (String.ofList (parseData text.toList)) (validData_ofParsed dataOk))
    else .error "invalid uri character"
  else parseFull text.toList

/-- The path-and-query text is present and begins with a slash, as it does in
every origin-form target and in every absolute-form target with a path. The
empty URI, whose text only defaults to a slash, is left out by its empty path. -/
def Slashed (u : Uri) : Prop := u.path ≠ "" ∧ ∃ rest, u.pathAndQuery.map String.toList = some ('/' :: rest)

theorem Slashed.pathAndQuery_eq {u : Uri} (slashed : u.Slashed) :
    u.pathAndQuery = some u.pathAndQueryText ∧ ∃ rest, u.pathAndQueryText.toList = '/' :: rest := by
  obtain ⟨_, rest, begins⟩ := slashed
  unfold pathAndQuery at begins ⊢
  split at begins
  · exact ⟨if_pos (by assumption), rest, by simpa using begins⟩
  · simp at begins

theorem dropWhile_mark (data : List Char) :
    data.dropWhile (· ≠ '?') = [] ∨ ∃ query, data.dropWhile (· ≠ '?') = '?' :: query := by
  cases found : data.dropWhile (· ≠ '?') with
  | nil => exact Or.inl rfl
  | cons head tail =>
    obtain rfl : head = '?' := Lines.eq_of_dropWhile found
    exact Or.inr ⟨tail, rfl⟩

theorem Slashed.toText_eq {u : Uri} (slashed : u.Slashed) : u.toText = u.origin ++ u.pathAndQueryText := by
  obtain ⟨_, rest, begins⟩ := slashed.pathAndQuery_eq
  by_cases empty : u.data = ""
  · have hasScheme : u.scheme.isSome := by
      by_contra none
      exact slashed.1 (by simp [path, empty, none])
    simp [toText, path, query, dataPath, pathAndQueryText, empty, hasScheme]
  · have text : u.pathAndQueryText = u.data := if_neg empty
    rw [text] at begins ⊢
    have isPath : u.path = u.dataPath := by
      have start : u.dataPath ≠ "" := by simp [dataPath, begins, ← String.toList_inj]
      simp [path, empty, start]
    rw [toText, isPath, ← String.toList_inj]
    have whole := List.takeWhile_append_dropWhile (p := (· ≠ '?')) (l := u.data.toList)
    simp only [String.toList_append, dataPath, String.toList_ofList, List.append_assoc, List.append_cancel_left_eq]
    refine Eq.trans ?_ whole
    rw [List.append_cancel_left_eq, query]
    rcases dropWhile_mark u.data.toList with found | ⟨tail, found⟩ <;> rw [found] <;> simp

theorem validData_no_fragment {data : List Char} (valid : validData data = true) : ∀ c ∈ data, c ≠ '#' := by
  simp only [validData, Bool.and_eq_true, List.all_eq_true] at valid
  rintro c member rfl
  rw [← List.takeWhile_append_dropWhile (p := (· ≠ '?')) (l := data)] at member
  rcases List.mem_append.mp member with inPath | inQuery
  · exact absurd (valid.1 _ inPath) (by decide)
  · rcases dropWhile_mark data with found | ⟨tail, found⟩
    · rw [found] at inQuery
      cases inQuery
    · rw [found] at inQuery
      rcases List.mem_cons.mp inQuery with clash | inTail
      · exact absurd clash (by decide)
      · exact absurd (valid.2 _ (by rw [found]; exact inTail)) (by decide)

theorem parseData_valid {data : List Char} (valid : validData data = true) : parseData data = data := by
  rw [parseData, List.takeWhile_eq_self_iff]
  intro c member
  simpa using validData_no_fragment valid c member

theorem validAuthority_no_end {authority : List Char} (valid : validAuthority authority = true) :
    ∀ c ∈ authority, isAuthorityEnd c = false := by
  have scanned (scan : AuthorityScan) : (authority.foldlM AuthorityScan.next scan).isSome →
      ∀ c ∈ authority, isAuthorityEnd c = false := by
    clear valid
    induction authority generalizing scan with
    | nil => simp
    | cons head tail ih =>
      intro some_ c member
      rw [List.foldlM_cons] at some_
      cases next : scan.next head with
      | none => simp [next] at some_
      | some after =>
        rcases List.mem_cons.mp member with rfl | inTail
        · by_contra ends
          simp only [isAuthorityEnd, Bool.not_eq_false, Bool.or_eq_true, decide_eq_true_eq] at ends
          rcases ends with (rfl | rfl) | rfl <;> simp [AuthorityScan.next] at next
        · exact ih after (by simpa [next] using some_) c inTail
  refine scanned ⟨0, false, false, false, false⟩ ?_
  unfold validAuthority at valid
  split at valid
  · cases valid
  · simp [*]

theorem validAuthority_chars {authority : List Char} (valid : validAuthority authority = true) :
    ∀ c ∈ authority, (!isAuthorityEnd c) = true := by
  intro c member
  rw [validAuthority_no_end valid c member]
  rfl

theorem pathAndQuery_of_data {u : Uri} (form : u.scheme.isSome ∨ u.authority = none) (present : u.data ≠ "") :
    u.pathAndQuery = some u.data := by
  simp [pathAndQuery, form, pathAndQueryText, present]

theorem validData_pathAndQueryText (u : Uri) : validData u.pathAndQueryText.toList = true := by
  unfold pathAndQueryText
  split
  · decide
  · exact u.dataValid

theorem schemeChars_of_valid {scheme : List Char} (valid : validScheme scheme = true) : ∀ c ∈ scheme, isSchemeChar c = true :=
  List.all_eq_true.mp (Bool.and_eq_true_iff.mp valid).1

theorem splitScheme_append {scheme : List Char} (chars : ∀ c ∈ scheme, isSchemeChar c = true) (rest : List Char) :
    splitScheme (scheme ++ "://".toList ++ rest) = some (scheme, rest) := by
  simp only [splitScheme, List.append_assoc]
  rw [List.dropWhile_append_of_pos chars, List.takeWhile_append_of_pos chars]
  simp [isSchemeChar]

theorem parseFull_absolute {scheme authority data : List Char} {rest : List Char} (schemeOk : validScheme scheme = true)
    (authorityOk : validAuthority authority = true) (dataOk : validData data = true) (begins : data = '/' :: rest) :
    parseFull (scheme ++ "://".toList ++ authority ++ data) =
      .ok (.ofParts (String.ofList scheme) (String.ofList authority) (String.ofList data)
        (by simpa using schemeOk) (by simpa using authorityOk) (by simpa using dataOk)) := by
  have authorityChars := validAuthority_chars authorityOk
  have cut : splitScheme (scheme ++ "://".toList ++ authority ++ data) = some (scheme, authority ++ data) := by
    rw [List.append_assoc]
    exact splitScheme_append (schemeChars_of_valid schemeOk) (authority ++ data)
  have taken : (authority ++ data).takeWhile (fun c => !isAuthorityEnd c) = authority := by
    rw [List.takeWhile_append_of_pos authorityChars, begins]
    simp [isAuthorityEnd]
  have dropped : (authority ++ data).dropWhile (fun c => !isAuthorityEnd c) = data := by
    rw [List.dropWhile_append_of_pos authorityChars, begins]
    simp [isAuthorityEnd]
  simp only [parseFull, cut, taken, dropped, parseData_valid dataOk, schemeOk, authorityOk, dataOk, dif_pos]

/-- Parsing what `Display` wrote recovers the path-and-query of a slashed URI. -/
theorem parse_toText {u : Uri} (slashed : u.Slashed) :
    ∃ v, parse u.toText = .ok v ∧ v.pathAndQuery = u.pathAndQuery := by
  obtain ⟨present, rest, begins⟩ := slashed.pathAndQuery_eq
  have valid := u.validData_pathAndQueryText
  rw [slashed.toText_eq, present]
  cases hasScheme : u.scheme with
  | none =>
    -- An authority without a scheme is authority-form, which has no path at all.
    have noAuthority : u.authority = none := by
      by_contra some_
      exact slashed.1 (by simp [path, u.authorityForm hasScheme (Option.isSome_iff_ne_none.mpr some_), hasScheme])
    have noOrigin : u.origin = "" := by simp [origin, hasScheme, noAuthority]
    have notEmpty : u.pathAndQueryText ≠ "" := by simp [← String.toList_inj, begins]
    have notStar : u.pathAndQueryText ≠ "*" := by simp [← String.toList_inj, begins]
    have slash : u.pathAndQueryText.toList.head? = some '/' := by rw [begins]; rfl
    refine ⟨.ofData u.pathAndQueryText valid, ?_, ?_⟩
    · simp only [noOrigin, String.empty_append, parse, notEmpty, notStar, slash, if_true, if_false, parseData_valid valid, valid,
        dif_pos, String.ofList_toList]
    · exact pathAndQuery_of_data (Or.inr rfl) notEmpty
  | some scheme =>
    obtain ⟨authority, hasAuthority⟩ := Option.isSome_iff_exists.mp (u.absolute (by simp [hasScheme]))
    have schemeOk := u.schemeValid scheme (by simp [hasScheme])
    have authorityOk := u.authorityValid authority (by simp [hasAuthority])
    have chars : (u.origin ++ u.pathAndQueryText).toList =
        scheme.toList ++ "://".toList ++ authority.toList ++ u.pathAndQueryText.toList := by
      simp [origin, hasScheme, hasAuthority]
    have notSlash : (u.origin ++ u.pathAndQueryText).toList.head? ≠ some '/' := by
      rw [chars]
      cases first : scheme.toList with
      | nil => simp
      | cons c cs =>
        rintro same
        have isScheme : isSchemeChar c = true := by
          simp only [first, validScheme, List.all_cons, Bool.and_eq_true] at schemeOk
          exact schemeOk.1.1
        rw [show c = '/' by simpa using same] at isScheme
        exact absurd isScheme (by decide)
    have long : 2 ≤ (u.origin ++ u.pathAndQueryText).toList.length := by
      rw [chars]
      simp
      omega
    have notEmpty : u.origin ++ u.pathAndQueryText ≠ "" := by
      intro empty
      simp [empty] at long
    have notStar : u.origin ++ u.pathAndQueryText ≠ "*" := by
      intro star
      simp [star] at long
    refine ⟨_, by rw [parse, if_neg notEmpty, if_neg notStar, if_neg notSlash, chars,
      parseFull_absolute schemeOk authorityOk valid begins], ?_⟩
    rw [pathAndQuery_of_data (Or.inl rfl) (by simp [ofParts, begins, ← String.toList_inj])]
    simp [ofParts]

end Uri

end PartlyProxy
