import Mathlib.Data.List.Basic
import Mathlib.Data.List.TakeWhile

/-- A JSON text as a tree. A number other than a 64-bit natural is kept as its text. -/
inductive Json where
  | null
  | bool (b : Bool)
  | num (n : Nat)
  | decimal (text : String)
  | str (text : String)
  | arr (items : List Json)
  | obj (members : List (String × Json))

namespace Json

def quote : Char := Char.ofNat 34
def backslash : Char := Char.ofNat 92

/-- Quotes, backslashes and control characters are escaped, nothing else. -/
def escape (c : Char) : List Char :=
  if c = quote ∨ c = backslash then [backslash, c]
  else if c = Char.ofNat 8 then [backslash, 'b']
  else if c = Char.ofNat 9 then [backslash, 't']
  else if c = Char.ofNat 10 then [backslash, 'n']
  else if c = Char.ofNat 12 then [backslash, 'f']
  else if c = Char.ofNat 13 then [backslash, 'r']
  else if c.toNat < 32 then [backslash, 'u', '0', '0', Nat.digitChar (c.toNat / 16), Nat.digitChar (c.toNat % 16)]
  else [c]

def renderString (text : String) : List Char := quote :: text.toList.flatMap escape ++ [quote]

mutual

def renderValue : Json → List Char
  | .null => ['n', 'u', 'l', 'l']
  | .bool true => ['t', 'r', 'u', 'e']
  | .bool false => ['f', 'a', 'l', 's', 'e']
  | .num n => Nat.toDigits 10 n
  | .decimal text => text.toList
  | .str text => renderString text
  | .arr [] => ['[', ']']
  | .arr (item :: items) => '[' :: renderValue item ++ renderItems items
  | .obj [] => ['{', '}']
  | .obj ((name, value) :: members) => '{' :: (renderString name ++ ':' :: renderValue value) ++ renderMembers members

def renderItems : List Json → List Char
  | [] => [']']
  | item :: items => ',' :: renderValue item ++ renderItems items

def renderMembers : List (String × Json) → List Char
  | [] => ['}']
  | (name, value) :: members => ',' :: (renderString name ++ ':' :: renderValue value) ++ renderMembers members

end

def render (json : Json) : String := String.ofList (renderValue json)

def isSpace (c : Char) : Bool := c = ' ' || c = '\t' || c = '\n' || c = '\r'

def skipSpace (text : List Char) : List Char := text.dropWhile isSpace

def expect (wanted : Char) (text : List Char) : Option (List Char) :=
  match skipSpace text with
  | [] => none
  | c :: rest => if c = wanted then some rest else none

def hexValue (c : Char) : Option Nat :=
  if '0' ≤ c ∧ c ≤ '9' then some (c.toNat - 48)
  else if 'a' ≤ c ∧ c ≤ 'f' then some (c.toNat - 87)
  else if 'A' ≤ c ∧ c ≤ 'F' then some (c.toNat - 55)
  else none

def hexUnit : List Char → Option (Nat × List Char)
  | a :: b :: c :: d :: rest => do
    let a ← hexValue a
    let b ← hexValue b
    let c ← hexValue c
    let d ← hexValue d
    some (((a * 16 + b) * 16 + c) * 16 + d, rest)
  | _ => none

/-- A code unit in hex. A leading surrogate needs its trailing one, which is
never accepted alone. -/
def unescapeUnit (text : List Char) : Option (Char × List Char) := do
  let (unit, rest) ← hexUnit text
  if 0xD800 ≤ unit ∧ unit < 0xDC00 then
    let rest ← (rest.head?.filter (· = backslash)).map fun _ => rest.drop 1
    let rest ← (rest.head?.filter (· = 'u')).map fun _ => rest.drop 1
    let (trail, rest) ← hexUnit rest
    if 0xDC00 ≤ trail ∧ trail < 0xE000 then
      some (Char.ofNat (0x10000 + (unit - 0xD800) * 0x400 + (trail - 0xDC00)), rest)
    else none
  else if 0xDC00 ≤ unit ∧ unit < 0xE000 then none
  else some (Char.ofNat unit, rest)

def unescape : List Char → Option (Char × List Char)
  | [] => none
  | c :: rest =>
    if c = quote ∨ c = backslash ∨ c = '/' then some (c, rest)
    else if c = 'b' then some (Char.ofNat 8, rest)
    else if c = 't' then some (Char.ofNat 9, rest)
    else if c = 'n' then some (Char.ofNat 10, rest)
    else if c = 'f' then some (Char.ofNat 12, rest)
    else if c = 'r' then some (Char.ofNat 13, rest)
    else if c = 'u' then unescapeUnit rest
    else none

def scanString : Nat → List Char → Option (List Char × List Char)
  | 0, _ => none
  | _ + 1, [] => none
  | fuel + 1, c :: rest =>
    if c = quote then some ([], rest)
    else if c = backslash then do
      let (c, rest) ← unescape rest
      let (text, rest) ← scanString fuel rest
      some (c :: text, rest)
    else if c.toNat < 32 then none
    else do
      let (text, rest) ← scanString fuel rest
      some (c :: text, rest)

def skipDigits (text : List Char) : Option (List Char) :=
  if (text.takeWhile Char.isDigit).isEmpty then none else some (text.dropWhile Char.isDigit)

def skipFraction : List Char → Option (List Char)
  | [] => some []
  | c :: rest => if c = '.' then skipDigits rest else some (c :: rest)

def skipExponent : List Char → Option (List Char)
  | [] => some []
  | c :: rest =>
    if c = 'e' ∨ c = 'E' then
      skipDigits (if rest.head? = some '+' ∨ rest.head? = some '-' then rest.drop 1 else rest)
    else some (c :: rest)

/-- A number. Leading zeros are refused; a sign, a fraction, an exponent or more
than 64 bits make it a decimal. -/
def scanNumber (text : List Char) : Option (Json × List Char) :=
  let unsigned := if text.head? = some '-' then text.drop 1 else text
  let whole := unsigned.takeWhile Char.isDigit
  let rest := unsigned.dropWhile Char.isDigit
  if whole = [] ∨ (whole.head? = some '0' ∧ 1 < whole.length) then none
  else do
    let behind ← (skipFraction rest).bind skipExponent
    if text.head? ≠ some '-' ∧ behind = rest ∧ Nat.ofDigitChars 10 whole 0 < UInt64.size then
      some (.num (Nat.ofDigitChars 10 whole 0), rest)
    else some (.decimal (String.ofList (text.take (text.length - behind.length))), behind)

/-- A JSON number that is no natural of 64 bits. -/
def IsDecimal (text : String) : Prop := scanNumber text.toList = some (.decimal text, [])

/-- Nested no deeper than `depth`, and without numbers that are kept as their texts, but
where there may be `decimals`. -/
inductive Plain (decimals : Bool) : Nat → Json → Prop where
  | null {depth : Nat} : Plain decimals depth .null
  | bool {depth : Nat} (b : Bool) : Plain decimals depth (.bool b)
  | num {depth n : Nat} (small : n < UInt64.size) : Plain decimals depth (.num n)
  | decimal {depth : Nat} {text : String} (allowed : decimals = true) (number : IsDecimal text) :
      Plain decimals depth (.decimal text)
  | str {depth : Nat} (text : String) : Plain decimals depth (.str text)
  | arr {depth : Nat} {items : List Json} (all : ∀ item ∈ items, Plain decimals depth item) :
      Plain decimals (depth + 1) (.arr items)
  | obj {depth : Nat} {members : List (String × Json)} (all : ∀ member ∈ members, Plain decimals depth member.2) :
      Plain decimals (depth + 1) (.obj members)

def scanWord (word : List Char) (value : Json) (text : List Char) : Option (Json × List Char) :=
  if word.isPrefixOf text then some (value, text.drop word.length) else none

mutual

/-- One value; the fuel bounds the nesting and the number of items. -/
def scanValue : Nat → List Char → Option (Json × List Char)
  | 0, _ => none
  | _ + 1, [] => none
  | fuel + 1, c :: rest =>
    if c = 'n' then scanWord ['u', 'l', 'l'] .null rest
    else if c = 't' then scanWord ['r', 'u', 'e'] (.bool true) rest
    else if c = 'f' then scanWord ['a', 'l', 's', 'e'] (.bool false) rest
    else if c = quote then do
      let (text, rest) ← scanString rest.length rest
      some (.str (String.ofList text), rest)
    else if c = '[' then
      match expect ']' rest with
      | some rest => some (.arr [], rest)
      | none => do
        let (item, rest) ← scanValue fuel (skipSpace rest)
        let (items, rest) ← scanItems fuel rest
        some (.arr (item :: items), rest)
    else if c = '{' then
      match expect '}' rest with
      | some rest => some (.obj [], rest)
      | none => do
        let (member, rest) ← scanMember fuel rest
        let (members, rest) ← scanMembers fuel rest
        some (.obj (member :: members), rest)
    else scanNumber (c :: rest)

def scanItems : Nat → List Char → Option (List Json × List Char)
  | 0, _ => none
  | fuel + 1, text =>
    match expect ']' text with
    | some rest => some ([], rest)
    | none => do
      let rest ← expect ',' text
      let (item, rest) ← scanValue fuel (skipSpace rest)
      let (items, rest) ← scanItems fuel rest
      some (item :: items, rest)

def scanMember : Nat → List Char → Option ((String × Json) × List Char)
  | 0, _ => none
  | fuel + 1, text => do
    let rest ← expect quote text
    let (name, rest) ← scanString rest.length rest
    let rest ← expect ':' rest
    let (value, rest) ← scanValue fuel (skipSpace rest)
    some ((String.ofList name, value), rest)

def scanMembers : Nat → List Char → Option (List (String × Json) × List Char)
  | 0, _ => none
  | fuel + 1, text =>
    match expect '}' text with
    | some rest => some ([], rest)
    | none => do
      let rest ← expect ',' text
      let (member, rest) ← scanMember fuel rest
      let (members, rest) ← scanMembers fuel rest
      some (member :: members, rest)

end

def parse (text : String) : Option Json := do
  let (json, rest) ← scanValue (text.toList.length + 1) (skipSpace text.toList)
  if (skipSpace rest).isEmpty then some json else none

section Spaces

theorem skipSpace_cons {c : Char} (solid : isSpace c = false) (rest : List Char) :
    skipSpace (c :: rest) = c :: rest := by
  simp [skipSpace, solid]

theorem expect_here {c : Char} (solid : isSpace c = false) (rest : List Char) : expect c (c :: rest) = some rest := by
  simp [expect, skipSpace_cons solid]

theorem expect_other {wanted c : Char} (solid : isSpace c = false) (differ : c ≠ wanted) (rest : List Char) :
    expect wanted (c :: rest) = none := by
  simp [expect, skipSpace_cons solid, differ]

end Spaces

section Strings

theorem hexValue_digitChar : ∀ n : Fin 16, hexValue (Nat.digitChar n) = some n.val := by decide

theorem unescapeUnit_control {c : Char} (control : c.toNat < 32) (rest : List Char) :
    unescapeUnit ('0' :: '0' :: Nat.digitChar (c.toNat / 16) :: Nat.digitChar (c.toNat % 16) :: rest) = some (c, rest) := by
  have zero : hexValue '0' = some 0 := by decide
  have high : hexValue (Nat.digitChar (c.toNat / 16)) = some (c.toNat / 16) :=
    hexValue_digitChar ⟨c.toNat / 16, by omega⟩
  have low : hexValue (Nat.digitChar (c.toNat % 16)) = some (c.toNat % 16) :=
    hexValue_digitChar ⟨c.toNat % 16, by omega⟩
  have unit : ((0 * 16 + 0) * 16 + c.toNat / 16) * 16 + c.toNat % 16 = c.toNat := by omega
  have noLead : ¬ (0xD800 ≤ c.toNat ∧ c.toNat < 0xDC00) := by omega
  have noTrail : ¬ (0xDC00 ≤ c.toNat ∧ c.toNat < 0xE000) := by omega
  simp only [unescapeUnit, hexUnit, zero, high, low, Option.bind_eq_bind, Option.bind_some, unit, if_neg noLead,
    if_neg noTrail, Char.ofNat_toNat]

theorem scanString_escape (fuel : Nat) (c : Char) (rest : List Char) :
    scanString (fuel + 1) (escape c ++ rest) = (scanString fuel rest).bind fun r => some (c :: r.1, r.2) := by
  have slash : ¬ backslash = quote := by decide
  unfold escape
  split
  · rename_i special
    rcases special with rfl | rfl <;> simp [scanString, unescape, slash]
  · rename_i ordinary
    push Not at ordinary
    split_ifs with bell tab line form back control
    · simp [scanString, unescape, bell, quote, backslash]
    · simp [scanString, unescape, tab, quote, backslash]
    · simp [scanString, unescape, line, quote, backslash]
    · simp [scanString, unescape, form, quote, backslash]
    · simp [scanString, unescape, back, quote, backslash]
    · have unit : unescape ('u' :: '0' :: '0' :: Nat.digitChar (c.toNat / 16) :: Nat.digitChar (c.toNat % 16) :: rest) =
          some (c, rest) := by
        rw [← unescapeUnit_control control rest]
        simp [unescape, quote, backslash]
      simp [scanString, slash, unit]
    · simp [scanString, ordinary, control]

theorem escape_ne_nil (c : Char) : escape c ≠ [] := by
  unfold escape
  split_ifs <;> simp

theorem length_le_escaped (text : List Char) : text.length ≤ (text.flatMap escape).length := by
  induction text with
  | nil => simp
  | cons c rest ih =>
    have := List.length_pos_iff.mpr (escape_ne_nil c)
    simp only [List.flatMap_cons, List.length_append, List.length_cons]
    omega

theorem scanString_escaped {text : List Char} {fuel : Nat} (enough : text.length < fuel) (rest : List Char) :
    scanString fuel (text.flatMap escape ++ quote :: rest) = some (text, rest) := by
  induction text generalizing fuel with
  | nil =>
    obtain ⟨fuel, rfl⟩ : ∃ n, fuel = n + 1 := ⟨fuel - 1, by simp only [List.length_nil] at enough; omega⟩
    simp [scanString]
  | cons c text ih =>
    obtain ⟨fuel, rfl⟩ : ∃ n, fuel = n + 1 := ⟨fuel - 1, by omega⟩
    rw [List.flatMap_cons, List.append_assoc, scanString_escape, ih (by simpa using enough)]
    rfl

/-- A string is read back from its text, whatever follows. -/
theorem scanString_render (text : String) (rest : List Char) :
    scanString (text.toList.flatMap escape ++ quote :: rest).length (text.toList.flatMap escape ++ quote :: rest) =
      some (text.toList, rest) := by
  refine scanString_escaped ?_ rest
  have := length_le_escaped text.toList
  simp only [List.length_append, List.length_cons]
  omega

end Strings

section Numbers

/-- What may follow a value: nothing, or a character that goes on with no number. -/
def Ends (rest : List Char) : Prop :=
  ∀ c ∈ rest.head?, c.isDigit = false ∧ c ≠ '.' ∧ c ≠ 'e' ∧ c ≠ 'E'

theorem ends_nil : Ends [] := by simp [Ends]

theorem ends_cons {c : Char} (mark : c = ',' ∨ c = ']' ∨ c = '}') (rest : List Char) : Ends (c :: rest) := by
  intro d isHead
  cases Option.some.inj isHead
  rcases mark with rfl | rfl | rfl <;> decide

theorem skipFraction_ends {rest : List Char} (ends : Ends rest) : skipFraction rest = some rest := by
  cases rest with
  | nil => rfl
  | cons c rest => simp [skipFraction, (ends c rfl).2.1]

theorem skipExponent_ends {rest : List Char} (ends : Ends rest) : skipExponent rest = some rest := by
  cases rest with
  | nil => rfl
  | cons c rest => simp [skipExponent, (ends c rfl).2.2.1, (ends c rfl).2.2.2]

theorem isDigit_of_mem_toDigits {n : Nat} {c : Char} (member : c ∈ Nat.toDigits 10 n) : c.isDigit = true :=
  Nat.isDigit_of_mem_toDigits (by decide) (by decide) member

theorem eq_zero_of_head_toDigits (n : Nat) (leading : (Nat.toDigits 10 n).head? = some '0') : n = 0 := by
  induction n using Nat.strongRecOn with
  | _ n ih =>
    by_cases small : n < 10
    · rw [Nat.toDigits_of_lt_base small] at leading
      have digit : ∀ d : Fin 10, Nat.digitChar d = '0' → d.val = 0 := by decide
      exact digit ⟨n, small⟩ (Option.some.inj leading)
    · rw [Nat.toDigits_of_base_le (by decide) (by omega), List.head?_append] at leading
      have front : (Nat.toDigits 10 (n / 10)).head? = some '0' := by
        cases digits : Nat.toDigits 10 (n / 10) with
        | nil => exact (Nat.toDigits_ne_nil digits).elim
        | cons d ds => simpa [digits] using leading
      have := ih (n / 10) (by omega) front
      omega

theorem scanNumber_render {n : Nat} (small : n < UInt64.size) {rest : List Char} (ends : Ends rest) :
    scanNumber (Nat.toDigits 10 n ++ rest) = some (.num n, rest) := by
  have digits : ∀ c ∈ Nat.toDigits 10 n, c.isDigit = true := fun c => isDigit_of_mem_toDigits
  have unsigned : (Nat.toDigits 10 n ++ rest).head? ≠ some '-' := by
    cases text : Nat.toDigits 10 n with
    | nil => exact (Nat.toDigits_ne_nil text).elim
    | cons d ds =>
      have isDigit := digits d (by simp [text])
      rintro sign
      cases Option.some.inj sign
      revert isDigit
      decide
  have stop : rest.takeWhile Char.isDigit = [] ∧ rest.dropWhile Char.isDigit = rest := by
    cases rest with
    | nil => exact ⟨rfl, rfl⟩
    | cons c rest => simp [(ends c rfl).1]
  have whole : (Nat.toDigits 10 n ++ rest).takeWhile Char.isDigit = Nat.toDigits 10 n := by
    rw [List.takeWhile_append_of_pos digits, stop.1, List.append_nil]
  have behind : (Nat.toDigits 10 n ++ rest).dropWhile Char.isDigit = rest := by
    rw [List.dropWhile_append_of_pos digits, stop.2]
  have leading : ¬ (Nat.toDigits 10 n = [] ∨ (Nat.toDigits 10 n).head? = some '0' ∧ 1 < (Nat.toDigits 10 n).length) := by
    rintro (none | ⟨zero, long⟩)
    · exact Nat.toDigits_ne_nil none
    · rw [eq_zero_of_head_toDigits n zero] at long
      simp at long
  simp only [scanNumber, if_neg unsigned, whole, behind, if_neg leading, skipFraction_ends ends,
    skipExponent_ends ends, Option.bind_some, Option.bind_eq_bind, Nat.ofDigitChars_ten_toDigits]
  rw [if_pos ⟨unsigned, trivial, small⟩]

theorem digits_append (text : List Char) {rest : List Char} (ends : Ends rest) :
    (text ++ rest).takeWhile Char.isDigit = text.takeWhile Char.isDigit ∧
      (text ++ rest).dropWhile Char.isDigit = text.dropWhile Char.isDigit ++ rest := by
  induction text with
  | nil =>
    cases rest with
    | nil => exact ⟨rfl, rfl⟩
    | cons c rest => simp [(ends c rfl).1]
  | cons c text ih =>
    by_cases digit : c.isDigit = true
    · simp [digit, ih.1, ih.2]
    · simp [digit]

theorem skipDigits_append {text behind rest : List Char} (ends : Ends rest) (skips : skipDigits text = some behind) :
    skipDigits (text ++ rest) = some (behind ++ rest) := by
  unfold skipDigits at skips ⊢
  rw [(digits_append text ends).1, (digits_append text ends).2]
  split at skips
  · cases skips
  · rename_i some_
    cases skips
    exact if_neg some_

theorem skipFraction_append {text behind rest : List Char} (ends : Ends rest) (skips : skipFraction text = some behind) :
    skipFraction (text ++ rest) = some (behind ++ rest) := by
  cases text with
  | nil =>
    cases skips
    exact skipFraction_ends ends
  | cons c text =>
    rw [List.cons_append, skipFraction]
    rw [skipFraction] at skips
    by_cases point : c = '.'
    · rw [if_pos point] at skips ⊢
      exact skipDigits_append ends skips
    · rw [if_neg point] at skips ⊢
      cases skips
      rfl

theorem skipExponent_append {text behind rest : List Char} (ends : Ends rest) (skips : skipExponent text = some behind) :
    skipExponent (text ++ rest) = some (behind ++ rest) := by
  cases text with
  | nil =>
    cases skips
    exact skipExponent_ends ends
  | cons c text =>
    rw [List.cons_append, skipExponent]
    rw [skipExponent] at skips
    by_cases mark : c = 'e' ∨ c = 'E'
    · rw [if_pos mark] at skips ⊢
      cases text with
      | nil => cases skips
      | cons d text =>
        simp only [List.cons_append, List.head?_cons, List.drop_succ_cons, List.drop_zero] at skips ⊢
        by_cases sign : some d = some '+' ∨ some d = some '-'
        · rw [if_pos sign] at skips ⊢
          exact skipDigits_append ends skips
        · rw [if_neg sign] at skips ⊢
          exact skipDigits_append ends skips
    · rw [if_neg mark] at skips ⊢
      cases skips
      rfl

/-- What follows a number does not change how it is read. -/
theorem scanNumber_append {text behind rest : List Char} {value : Json} (ends : Ends rest)
    (scans : scanNumber text = some (value, behind)) : scanNumber (text ++ rest) = some (value, behind ++ rest) := by
  have some_ : text ≠ [] := by
    rintro rfl
    cases scans
  have head : (text ++ rest).head? = text.head? := List.head?_append_of_ne_nil text some_
  have unsigned : (if (text ++ rest).head? = some '-' then (text ++ rest).drop 1 else text ++ rest) =
      (if text.head? = some '-' then text.drop 1 else text) ++ rest := by
    rw [head]
    split
    · cases text with
      | nil => exact (some_ rfl).elim
      | cons c text => rfl
    · rfl
  unfold scanNumber at scans ⊢
  rw [unsigned, head]
  generalize (if text.head? = some '-' then text.drop 1 else text) = digits at scans ⊢
  dsimp only at scans ⊢
  rw [(digits_append digits ends).1, (digits_append digits ends).2]
  split at scans
  · cases scans
  next leading =>
    obtain ⟨after, skips, scans⟩ := Option.bind_eq_some_iff.mp scans
    obtain ⟨between, fraction, exponent⟩ := Option.bind_eq_some_iff.mp skips
    rw [if_neg leading, skipFraction_append ends fraction, Option.bind_some, skipExponent_append ends exponent]
    simp only [Option.bind_eq_bind, Option.bind_some, List.append_left_inj, List.length_append, Nat.add_sub_add_right]
    split at scans
    next natural =>
      cases scans
      rw [if_pos natural]
    next other =>
      cases scans
      rw [if_neg other, List.take_append_of_le_length (Nat.sub_le _ _)]

/-- A number begins with a sign or a digit. -/
theorem scanNumber_starts {text behind : List Char} {value : Json} (scans : scanNumber text = some (value, behind)) :
    ∃ c rest, text = c :: rest ∧ (c = '-' ∨ c.isDigit = true) := by
  cases text with
  | nil => cases scans
  | cons c rest =>
    refine ⟨c, rest, rfl, ?_⟩
    by_contra neither
    obtain ⟨noSign, noDigit⟩ := not_or.mp neither
    have nothing : scanNumber (c :: rest) = none := by
      simp [scanNumber, noSign, noDigit]
    rw [nothing] at scans
    cases scans

end Numbers

section Values
variable {decimals : Bool} {depth : Nat}

def startsValue (c : Char) : Bool :=
  c = 'n' || c = 't' || c = 'f' || c = quote || c = '[' || c = '{' || c = '-' || c.isDigit

theorem startsValue_solid {c : Char} (starts : startsValue c = true) : isSpace c = false ∧ c ≠ ']' ∧ c ≠ '}' := by
  simp only [startsValue, Bool.or_eq_true, decide_eq_true_eq] at starts
  rcases starts with ((((((rfl | rfl) | rfl) | rfl) | rfl) | rfl) | rfl) | digit
  all_goals first | decide | skip
  refine ⟨?_, ?_, ?_⟩
  · by_contra space
    simp only [isSpace, Bool.or_eq_true, decide_eq_true_eq, Bool.not_eq_false] at space
    rcases space with ((rfl | rfl) | rfl) | rfl <;> revert digit <;> decide
  · rintro rfl
    revert digit
    decide
  · rintro rfl
    revert digit
    decide

theorem renderValue_starts {json : Json} (plain : json.Plain decimals depth) :
    ∃ c rest, renderValue json = c :: rest ∧ startsValue c = true := by
  cases plain with
  | null => exact ⟨_, _, rfl, by decide⟩
  | bool b => cases b <;> exact ⟨_, _, rfl, by decide⟩
  | @num _ n small =>
    cases text : Nat.toDigits 10 n with
    | nil => exact (Nat.toDigits_ne_nil text).elim
    | cons d ds =>
      have isDigit : d.isDigit = true := isDigit_of_mem_toDigits (n := n) (by simp [text])
      exact ⟨d, ds, by rw [renderValue, text], by simp [startsValue, isDigit]⟩
  | decimal allowed number =>
    obtain ⟨c, rest, text, begins⟩ := scanNumber_starts number
    refine ⟨c, rest, text, ?_⟩
    rcases begins with rfl | digit
    · decide
    · simp [startsValue, digit]
  | str text => exact ⟨_, _, rfl, by decide⟩
  | @arr _ items all => cases items <;> exact ⟨_, _, rfl, by decide⟩
  | @obj _ members all => rcases members with _ | ⟨⟨name, value⟩, members⟩ <;> exact ⟨_, _, rfl, by decide⟩

/-- A value is read back from its text with as much fuel as the text is long. -/
def ReadsBack (json : Json) : Prop :=
  ∀ fuel rest, (renderValue json).length ≤ fuel → Ends rest →
    scanValue fuel (renderValue json ++ rest) = some (json, rest)

theorem skipSpace_renderValue {json : Json} (plain : json.Plain decimals depth) (rest : List Char) :
    skipSpace (renderValue json ++ rest) = renderValue json ++ rest := by
  obtain ⟨c, tail, text, starts⟩ := renderValue_starts plain
  rw [text, List.cons_append, skipSpace_cons (startsValue_solid starts).1]

theorem scanValue_number {c : Char} (begins : c = '-' ∨ c.isDigit = true) (fuel : Nat) (rest : List Char) :
    scanValue (fuel + 1) (c :: rest) = scanNumber (c :: rest) := by
  have other : ∀ d : Char, d ≠ '-' ∧ d.isDigit = false → c ≠ d := by
    rintro d ⟨noSign, noDigit⟩ rfl
    rcases begins with sign | digit
    · exact noSign sign
    · rw [digit] at noDigit
      cases noDigit
  simp only [scanValue, if_neg (other 'n' (by decide)), if_neg (other 't' (by decide)), if_neg (other 'f' (by decide)),
    if_neg (other quote (by decide)), if_neg (other '[' (by decide)), if_neg (other '{' (by decide))]

theorem expect_mark {c : Char} (mark : c = ',' ∨ c = ':' ∨ c = ']' ∨ c = '}' ∨ c = quote) (rest : List Char) :
    expect c (c :: rest) = some rest :=
  expect_here (by rcases mark with rfl | rfl | rfl | rfl | rfl <;> decide) rest

theorem expect_close_comma {c : Char} (close : c = ']' ∨ c = '}') (rest : List Char) : expect c (',' :: rest) = none :=
  expect_other (by decide) (by rcases close with rfl | rfl <;> decide) rest

theorem renderItems_ends (items : List Json) (rest : List Char) : Ends (renderItems items ++ rest) := by
  cases items <;> exact ends_cons (by simp) _

theorem renderMembers_ends (members : List (String × Json)) (rest : List Char) :
    Ends (renderMembers members ++ rest) := by
  rcases members with _ | ⟨⟨name, value⟩, members⟩ <;> exact ends_cons (by simp) _

theorem scanItems_render {items : List Json} (plain : ∀ item ∈ items, item.Plain decimals depth)
    (reads : ∀ item ∈ items, item.ReadsBack) {fuel : Nat} (enough : (renderItems items).length ≤ fuel)
    (rest : List Char) : scanItems fuel (renderItems items ++ rest) = some (items, rest) := by
  induction items generalizing fuel with
  | nil =>
    obtain ⟨fuel, rfl⟩ : ∃ n, fuel = n + 1 := ⟨fuel - 1, by simp only [renderItems, List.length_singleton] at enough; omega⟩
    simp only [renderItems, List.cons_append, List.nil_append, scanItems, expect_mark (c := ']') (by simp)]
  | cons item items ih =>
    simp only [renderItems, List.length_cons, List.length_append, List.cons_append] at enough
    obtain ⟨fuel, rfl⟩ : ∃ n, fuel = n + 1 := ⟨fuel - 1, by omega⟩
    have here :=
      reads item (List.mem_cons_self ..) fuel (renderItems items ++ rest) (by omega) (renderItems_ends items rest)
    have later : scanItems fuel (renderItems items ++ rest) = some (items, rest) :=
      ih (fun other member => plain other (List.mem_cons_of_mem _ member))
        (fun other member => reads other (List.mem_cons_of_mem _ member)) (by omega)
    simp only [renderItems, List.cons_append, List.append_assoc, scanItems, expect_close_comma (Or.inl rfl),
      expect_mark (c := ',') (by simp), Option.bind_eq_bind, Option.bind_some,
      skipSpace_renderValue (plain item (List.mem_cons_self ..)), here, later]

theorem scanMember_render (name : String) {value : Json} (plain : value.Plain decimals depth) (reads : value.ReadsBack) {fuel : Nat}
    (enough : (renderString name ++ ':' :: renderValue value).length ≤ fuel) {rest : List Char} (ends : Ends rest) :
    scanMember fuel (renderString name ++ ':' :: renderValue value ++ rest) = some ((name, value), rest) := by
  simp only [renderString, List.length_cons, List.length_append, List.cons_append] at enough
  obtain ⟨fuel, rfl⟩ : ∃ n, fuel = n + 1 := ⟨fuel - 1, by omega⟩
  have here := reads fuel rest (by omega) ends
  simp only [renderString, List.cons_append, List.append_assoc, List.nil_append, scanMember,
    expect_mark (c := quote) (by simp), Option.bind_eq_bind, Option.bind_some, scanString_render,
    expect_mark (c := ':') (by simp), skipSpace_renderValue plain, here, String.ofList_toList]

theorem scanMembers_render {members : List (String × Json)} (plain : ∀ member ∈ members, member.2.Plain decimals depth)
    (reads : ∀ member ∈ members, member.2.ReadsBack) {fuel : Nat} (enough : (renderMembers members).length ≤ fuel)
    (rest : List Char) : scanMembers fuel (renderMembers members ++ rest) = some (members, rest) := by
  induction members generalizing fuel with
  | nil =>
    obtain ⟨fuel, rfl⟩ : ∃ n, fuel = n + 1 := ⟨fuel - 1, by simp only [renderMembers, List.length_singleton] at enough; omega⟩
    simp only [renderMembers, List.cons_append, List.nil_append, scanMembers, expect_mark (c := '}') (by simp)]
  | cons member members ih =>
    obtain ⟨name, value⟩ := member
    rw [renderMembers, List.cons_append] at enough ⊢
    rw [List.length_cons, List.length_append] at enough
    obtain ⟨fuel, rfl⟩ : ∃ n, fuel = n + 1 := ⟨fuel - 1, by omega⟩
    have valuePlain : value.Plain decimals depth := plain (name, value) (List.mem_cons_self ..)
    have valueReads : value.ReadsBack := reads (name, value) (List.mem_cons_self ..)
    have here : scanMember fuel (renderString name ++ ':' :: renderValue value ++ (renderMembers members ++ rest)) =
        some ((name, value), renderMembers members ++ rest) :=
      scanMember_render name valuePlain valueReads (by omega) (renderMembers_ends members rest)
    have later : scanMembers fuel (renderMembers members ++ rest) = some (members, rest) :=
      ih (fun other member => plain other (List.mem_cons_of_mem _ member))
        (fun other member => reads other (List.mem_cons_of_mem _ member)) (by omega)
    rw [List.cons_append, List.append_assoc, scanMembers, expect_close_comma (Or.inr rfl)]
    simp only [expect_mark (c := ',') (by simp), Option.bind_eq_bind, Option.bind_some, here, later]

theorem readsBack_of_succ {json : Json} (plain : json.Plain decimals depth)
    (reads : ∀ fuel rest, (renderValue json).length ≤ fuel + 1 → Ends rest →
      scanValue (fuel + 1) (renderValue json ++ rest) = some (json, rest)) : json.ReadsBack := by
  intro fuel rest enough ends
  obtain ⟨c, tail, text, _⟩ := renderValue_starts plain
  obtain ⟨fuel, rfl⟩ : ∃ n, fuel = n + 1 := ⟨fuel - 1, by rw [text, List.length_cons] at enough; omega⟩
  exact reads fuel rest enough ends

theorem readsBack_num {n : Nat} (small : n < UInt64.size) : (num n).ReadsBack := by
  refine readsBack_of_succ (.num small : Plain false 0 _) fun fuel rest enough ends => ?_
  rw [renderValue, ← scanNumber_render small ends]
  cases text : Nat.toDigits 10 n with
  | nil => exact (Nat.toDigits_ne_nil text).elim
  | cons d ds =>
    have isDigit : d.isDigit = true := isDigit_of_mem_toDigits (n := n) (by simp [text])
    rw [List.cons_append, scanValue_number (Or.inr isDigit)]

theorem readsBack_decimal {text : String} (number : IsDecimal text) : (decimal text).ReadsBack := by
  refine readsBack_of_succ (.decimal rfl number : Plain true 0 _) fun fuel rest enough ends => ?_
  obtain ⟨c, tail, isText, begins⟩ := scanNumber_starts number
  have scans := scanNumber_append ends number
  rw [renderValue, isText, List.cons_append, scanValue_number begins, ← List.cons_append, ← isText, scans, List.nil_append]

theorem readsBack_str (text : String) : (str text).ReadsBack := by
  refine readsBack_of_succ (.str text : Plain false 0 _) fun fuel rest enough ends => ?_
  have word : quote ≠ 'n' ∧ quote ≠ 't' ∧ quote ≠ 'f' := by decide
  simp only [renderValue, renderString, List.cons_append, List.append_assoc, List.nil_append, scanValue, if_neg word.1,
    if_neg word.2.1, if_neg word.2.2, if_true, scanString_render, Option.bind_eq_bind, Option.bind_some, String.ofList_toList]

theorem scanValue_bracket (fuel : Nat) (rest : List Char) :
    scanValue (fuel + 1) ('[' :: rest) =
      match expect ']' rest with
      | some rest => some (.arr [], rest)
      | none => (scanValue fuel (skipSpace rest)).bind fun item =>
        (scanItems fuel item.2).bind fun items => some (.arr (item.1 :: items.1), items.2) := by
  have other : '[' ≠ 'n' ∧ '[' ≠ 't' ∧ '[' ≠ 'f' ∧ '[' ≠ quote := by decide
  rw [scanValue, if_neg other.1, if_neg other.2.1, if_neg other.2.2.1, if_neg other.2.2.2, if_pos rfl]
  rfl

theorem scanValue_brace (fuel : Nat) (rest : List Char) :
    scanValue (fuel + 1) ('{' :: rest) =
      match expect '}' rest with
      | some rest => some (.obj [], rest)
      | none => (scanMember fuel rest).bind fun member =>
        (scanMembers fuel member.2).bind fun members => some (.obj (member.1 :: members.1), members.2) := by
  have other : '{' ≠ 'n' ∧ '{' ≠ 't' ∧ '{' ≠ 'f' ∧ '{' ≠ quote ∧ '{' ≠ '[' := by decide
  rw [scanValue, if_neg other.1, if_neg other.2.1, if_neg other.2.2.1, if_neg other.2.2.2.1, if_neg other.2.2.2.2,
    if_pos rfl]
  rfl

theorem readsBack_arr {items : List Json} (all : ∀ item ∈ items, item.Plain decimals depth) (reads : ∀ item ∈ items, item.ReadsBack) :
    (arr items).ReadsBack := by
  refine readsBack_of_succ (.arr all) fun fuel rest enough ends => ?_
  cases items with
  | nil => simp only [renderValue, List.cons_append, List.nil_append, scanValue_bracket, expect_mark (c := ']') (by simp)]
  | cons item items =>
    have plain := all item (List.mem_cons_self ..)
    obtain ⟨c, tail, text, starts⟩ := renderValue_starts plain
    have noClose : expect ']' (renderValue item ++ (renderItems items ++ rest)) = none := by
      rw [text, List.cons_append]
      exact expect_other (startsValue_solid starts).1 (startsValue_solid starts).2.1 _
    simp only [renderValue, List.length_cons, List.length_append] at enough
    have here :=
      reads item (List.mem_cons_self ..) fuel (renderItems items ++ rest) (by omega) (renderItems_ends items rest)
    have later : scanItems fuel (renderItems items ++ rest) = some (items, rest) :=
      scanItems_render (fun other member => all other (List.mem_cons_of_mem _ member))
        (fun other member => reads other (List.mem_cons_of_mem _ member)) (by omega) rest
    simp only [renderValue, List.cons_append, List.append_assoc, scanValue_bracket, noClose, skipSpace_renderValue plain,
      here, later, Option.bind_some]

theorem readsBack_obj {members : List (String × Json)} (all : ∀ member ∈ members, member.2.Plain decimals depth)
    (reads : ∀ member ∈ members, member.2.ReadsBack) : (obj members).ReadsBack := by
  refine readsBack_of_succ (.obj all) fun fuel rest enough ends => ?_
  rcases members with _ | ⟨⟨name, value⟩, members⟩
  · simp only [renderValue, List.cons_append, List.nil_append, scanValue_brace, expect_mark (c := '}') (by simp)]
  · have valuePlain : value.Plain decimals depth := all (name, value) (List.mem_cons_self ..)
    have valueReads : value.ReadsBack := reads (name, value) (List.mem_cons_self ..)
    have noClose : ∀ more, expect '}' (renderString name ++ more) = none := fun more =>
      expect_other (by decide) (by decide) _
    rw [renderValue, List.cons_append, List.length_cons, List.length_append] at enough
    have here : scanMember fuel (renderString name ++ ':' :: renderValue value ++ (renderMembers members ++ rest)) =
        some ((name, value), renderMembers members ++ rest) :=
      scanMember_render name valuePlain valueReads (by omega) (renderMembers_ends members rest)
    have later : scanMembers fuel (renderMembers members ++ rest) = some (members, rest) :=
      scanMembers_render (fun other member => all other (List.mem_cons_of_mem _ member))
        (fun other member => reads other (List.mem_cons_of_mem _ member)) (by omega) rest
    rw [renderValue, List.cons_append, List.cons_append, scanValue_brace, List.append_assoc, List.append_assoc, noClose,
      ← List.append_assoc]
    simp only [here, later, Option.bind_some]

/-- Every plain tree is read back from its text. -/
theorem Plain.readsBack {json : Json} (plain : json.Plain decimals depth) : json.ReadsBack := by
  induction plain with
  | null => exact readsBack_of_succ (.null : Plain false 0 _) fun fuel rest _ _ => by simp [renderValue, scanValue, scanWord]
  | bool b =>
    refine readsBack_of_succ (.bool b : Plain false 0 _) fun fuel rest _ _ => ?_
    cases b <;> simp [renderValue, scanValue, scanWord]
  | num small => exact readsBack_num small
  | decimal _ number => exact readsBack_decimal number
  | str text => exact readsBack_str text
  | arr all ih => exact readsBack_arr all ih
  | obj all ih => exact readsBack_obj all ih

theorem parse_render {json : Json} (plain : json.Plain decimals depth) : parse (render json) = some json := by
  have reads := plain.readsBack ((renderValue json).length + 1) [] (by omega) ends_nil
  have start := skipSpace_renderValue plain []
  rw [List.append_nil] at reads start
  simp only [parse, render, String.toList_ofList, start, reads, Option.bind_eq_bind, Option.bind_some]
  rfl

/-- A name that no colon follows ends the reading of an object. -/
theorem parse_eq_none_of_name {value : Json} (plain : value.Plain decimals depth) (first second : String) {c : Char}
    (solid : isSpace c = false) (noColon : c ≠ ':') (rest : List Char) :
    parse (String.ofList
      ('{' :: (renderString first ++ ':' :: renderValue value ++ ',' :: (renderString second ++ c :: rest)))) = none := by
  have noClose : ∀ more, expect '}' (renderString first ++ more) = none := fun more =>
    expect_other (by decide) (by decide) _
  have refused : ∀ fuel, scanMember fuel (renderString second ++ c :: rest) = none := by
    intro fuel
    cases fuel with
    | zero => rfl
    | succ fuel =>
      simp only [renderString, List.cons_append, List.append_assoc, List.nil_append, scanMember,
        expect_mark (c := quote) (by simp), Option.bind_eq_bind, Option.bind_some, scanString_render,
        expect_other solid noColon, Option.bind_none]
  have here : scanMember (('{' :: (renderString first ++ ':' :: renderValue value ++
        ',' :: (renderString second ++ c :: rest))).length)
      (renderString first ++ ':' :: renderValue value ++ ',' :: (renderString second ++ c :: rest)) =
      some ((first, value), ',' :: (renderString second ++ c :: rest)) :=
    scanMember_render first plain plain.readsBack (by simp only [List.length_cons, List.length_append]; omega)
      (ends_cons (Or.inl rfl) _)
  have later : ∀ fuel, scanMembers fuel (',' :: (renderString second ++ c :: rest)) = none := by
    intro fuel
    cases fuel with
    | zero => rfl
    | succ fuel =>
      simp only [scanMembers, expect_close_comma (Or.inr rfl), expect_mark (c := ',') (by simp), Option.bind_eq_bind,
        Option.bind_some, refused, Option.bind_none]
  have open_ : isSpace '{' = false := by decide
  simp only [parse, String.toList_ofList, skipSpace_cons open_, scanValue_brace, Option.bind_eq_bind]
  rw [List.append_assoc, noClose, ← List.append_assoc]
  simp only [here, later, Option.bind_some, Option.bind_none]

theorem parse_eq_none {text : String} (noStart : ∀ c ∈ text.toList, startsValue c = false) : parse text = none := by
  cases start : skipSpace text.toList with
  | nil => simp [parse, start, scanValue]
  | cons c rest =>
    have member : c ∈ text.toList := (List.dropWhile_sublist _).subset (by rw [← skipSpace, start]; simp)
    have other := noStart c member
    simp only [startsValue, Bool.or_eq_false_iff, decide_eq_false_iff_not] at other
    obtain ⟨⟨⟨⟨⟨⟨⟨null, true⟩, false⟩, string⟩, bracket⟩, brace⟩, sign⟩, digit⟩ := other
    have number : scanNumber (c :: rest) = none := by
      simp [scanNumber, sign, digit]
    have value : scanValue (text.toList.length + 1) (c :: rest) = none := by
      rw [scanValue, if_neg null, if_neg true, if_neg false, if_neg string, if_neg bracket, if_neg brace, number]
    simp only [parse, start, value, Option.bind_eq_bind, Option.bind_none]

end Values

section Printable
variable {decimals : Bool} {depth : Nat}

theorem digitChar_printable : ∀ n : Fin 16, 32 ≤ (Nat.digitChar n).toNat := by decide

theorem digit_printable {c : Char} (digit : c.isDigit = true) : 32 ≤ c.toNat := by
  simp only [Char.isDigit, Bool.and_eq_true, decide_eq_true_eq] at digit
  have zero : (48 : Nat) ≤ c.val.toNat := UInt32.le_iff_toNat_le.mp digit.1
  exact Nat.le_trans (by decide) zero

theorem escape_printable (c : Char) : ∀ d ∈ escape c, 32 ≤ d.toNat := by
  intro d member
  unfold escape at member
  split_ifs at member with special bell tab line form back control
  all_goals simp only [List.mem_cons, List.not_mem_nil, or_false] at member
  · rcases member with rfl | rfl
    · decide
    · rcases special with rfl | rfl <;> decide
  · rcases member with rfl | rfl <;> decide
  · rcases member with rfl | rfl <;> decide
  · rcases member with rfl | rfl <;> decide
  · rcases member with rfl | rfl <;> decide
  · rcases member with rfl | rfl <;> decide
  · rcases member with rfl | rfl | rfl | rfl | rfl | rfl
    · decide
    · decide
    · decide
    · decide
    · exact digitChar_printable ⟨c.toNat / 16, by omega⟩
    · exact digitChar_printable ⟨c.toNat % 16, by omega⟩
  · cases member
    omega

def Printable (text : List Char) : Prop := ∀ c ∈ text, 32 ≤ c.toNat

theorem Printable.append {front back : List Char} (left : Printable front) (right : Printable back) :
    Printable (front ++ back) := by
  intro c member
  rcases List.mem_append.mp member with inFront | inBack
  · exact left c inFront
  · exact right c inBack

theorem Printable.cons {c : Char} {rest : List Char} (here : 32 ≤ c.toNat) (later : Printable rest) :
    Printable (c :: rest) := by
  intro d member
  rcases List.mem_cons.mp member with rfl | inRest
  · exact here
  · exact later d inRest

theorem skipDigits_printable {text behind : List Char} (skips : skipDigits text = some behind) (printable : Printable behind) :
    Printable text := by
  have isBehind : text.dropWhile Char.isDigit = behind := by
    unfold skipDigits at skips
    split at skips
    · cases skips
    · exact Option.some.inj skips
  rw [← List.takeWhile_append_dropWhile (p := Char.isDigit) (l := text), isBehind]
  exact Printable.append (fun c member => digit_printable (List.mem_takeWhile_imp member)) printable

theorem skipFraction_printable {text behind : List Char} (skips : skipFraction text = some behind)
    (printable : Printable behind) : Printable text := by
  cases text with
  | nil => simp [Printable]
  | cons c text =>
    rw [skipFraction] at skips
    split at skips
    next point => exact Printable.cons (by rw [point]; decide) (skipDigits_printable skips printable)
    next => exact Option.some.inj skips ▸ printable

theorem skipExponent_printable {text behind : List Char} (skips : skipExponent text = some behind)
    (printable : Printable behind) : Printable text := by
  cases text with
  | nil => simp [Printable]
  | cons c text =>
    rw [skipExponent] at skips
    split at skips
    next mark =>
      refine Printable.cons (by rcases mark with rfl | rfl <;> decide) ?_
      split at skips
      next sign =>
        cases text with
        | nil => simp [Printable]
        | cons d text =>
          refine Printable.cons ?_ (skipDigits_printable skips printable)
          rcases sign with sign | sign <;> cases Option.some.inj sign <;> decide
      next => exact skipDigits_printable skips printable
    next => exact Option.some.inj skips ▸ printable

/-- A number is written with digits, signs, a point and an exponent. -/
theorem scanNumber_printable {text behind : List Char} {value : Json} (scans : scanNumber text = some (value, behind))
    (printable : Printable behind) : Printable text := by
  have unsigned : Printable (if text.head? = some '-' then text.drop 1 else text) → Printable text := by
    intro later
    split at later
    next sign =>
      cases text with
      | nil => cases sign
      | cons c text =>
        cases Option.some.inj sign
        exact Printable.cons (by decide) later
    next => exact later
  refine unsigned ?_
  unfold scanNumber at scans
  generalize (if text.head? = some '-' then text.drop 1 else text) = digits at scans ⊢
  dsimp only at scans
  split at scans
  next => cases scans
  next =>
    obtain ⟨after, skips, scans⟩ := Option.bind_eq_some_iff.mp scans
    obtain ⟨between, fraction, exponent⟩ := Option.bind_eq_some_iff.mp skips
    have isAfter : after = behind := by
      split at scans
      next natural =>
        cases scans
        exact natural.2.1
      next =>
        cases scans
        rfl
    subst isAfter
    rw [← List.takeWhile_append_dropWhile (p := Char.isDigit) (l := digits)]
    exact Printable.append (fun c member => digit_printable (List.mem_takeWhile_imp member))
      (skipFraction_printable fraction (skipExponent_printable exponent printable))

theorem renderString_printable (text : String) : Printable (renderString text) := by
  refine (Printable.cons (by decide) ?_).append (by simp [Printable, quote])
  intro c member
  obtain ⟨d, _, inEscape⟩ := List.mem_flatMap.mp member
  exact escape_printable d c inEscape

theorem renderMember_printable (name : String) {value : Json} (printable : Printable (renderValue value)) :
    Printable (renderString name ++ ':' :: renderValue value) :=
  (renderString_printable name).append (printable.cons (by decide))

theorem renderItems_printable {items : List Json} (all : ∀ item ∈ items, Printable (renderValue item)) :
    Printable (renderItems items) := by
  induction items with
  | nil => simp [Printable, renderItems]
  | cons item items ih =>
    have later := ih fun other member => all other (List.mem_cons_of_mem _ member)
    exact ((all item (List.mem_cons_self ..)).cons (by decide)).append later

theorem renderMembers_printable {members : List (String × Json)}
    (all : ∀ member ∈ members, Printable (renderValue member.2)) : Printable (renderMembers members) := by
  induction members with
  | nil => simp [Printable, renderMembers]
  | cons member members ih =>
    have later := ih fun other member => all other (List.mem_cons_of_mem _ member)
    exact ((renderMember_printable member.1 (all member (List.mem_cons_self ..))).cons (by decide)).append later

theorem Plain.printable {json : Json} (plain : json.Plain decimals depth) : Printable (renderValue json) := by
  induction plain with
  | null => simp [Printable, renderValue]
  | bool b => cases b <;> simp [Printable, renderValue]
  | num small => exact fun c member => digit_printable (isDigit_of_mem_toDigits member)
  | decimal _ number => exact scanNumber_printable number (by simp [Printable])
  | str text => exact renderString_printable text
  | @arr _ items all ih =>
    cases items with
    | nil => simp [Printable, renderValue]
    | cons item items =>
      have later := renderItems_printable fun other member => ih other (List.mem_cons_of_mem _ member)
      exact ((ih item (List.mem_cons_self ..)).cons (by decide)).append later
  | @obj _ members all ih =>
    rcases members with _ | ⟨⟨name, value⟩, members⟩
    · simp [Printable, renderValue]
    · have later := renderMembers_printable fun other member => ih other (List.mem_cons_of_mem _ member)
      exact ((renderMember_printable name (ih (name, value) (List.mem_cons_self ..))).cons (by decide)).append later

end Printable

section Numbers

mutual

/-- A tree with `f` applied to every number. -/
def mapNum (f : Nat → Nat) : Json → Json
  | .num n => .num (f n)
  | .arr items => .arr (mapItems f items)
  | .obj members => .obj (mapMembers f members)
  | .null => .null
  | .bool b => .bool b
  | .decimal text => .decimal text
  | .str text => .str text

def mapItems (f : Nat → Nat) : List Json → List Json
  | [] => []
  | item :: items => mapNum f item :: mapItems f items

def mapMembers (f : Nat → Nat) : List (String × Json) → List (String × Json)
  | [] => []
  | (name, value) :: members => (name, mapNum f value) :: mapMembers f members

end

theorem mapItems_eq_map (f : Nat → Nat) (items : List Json) : mapItems f items = items.map (mapNum f) := by
  induction items with
  | nil => rfl
  | cons item items ih => rw [mapItems, ih, List.map_cons]

mutual

theorem mapNum_id : (json : Json) → json.mapNum id = json
  | .num _ | .null | .bool _ | .decimal _ | .str _ => rfl
  | .arr items => by rw [mapNum, mapItems_id items]
  | .obj members => by rw [mapNum, mapMembers_id members]

theorem mapItems_id : (items : List Json) → mapItems id items = items
  | [] => rfl
  | item :: items => by rw [mapItems, mapNum_id item, mapItems_id items]

theorem mapMembers_id : (members : List (String × Json)) → mapMembers id members = members
  | [] => rfl
  | (name, value) :: members => by rw [mapMembers, mapNum_id value, mapMembers_id members]

end

end Numbers

end Json
