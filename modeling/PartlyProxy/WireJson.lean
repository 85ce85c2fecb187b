import PartlyProxy.Wire
import PartlyProxy.JsonlReplay
import Mathlib.Data.List.Perm.Basic

namespace PartlyProxy

section Serialize

/-- The fields of a struct in their order. One without a value is skipped. -/
def written (fields : List (String × Option Json)) : List (String × Json) :=
  fields.filterMap fun field => field.2.map fun json => (field.1, json)

/-- An empty map is skipped. -/
def optionalLabels (labels : Labels) : Option Json :=
  if labels.entries = [] then none else some (.obj (labels.entries.map fun entry => (entry.1, .str entry.2)))

def WireFilter.fields (f : WireFilter) : List (String × Option Json) :=
  [("upstream", f.upstream.map .str), ("method", f.method.map .str), ("path_pattern", f.pathPattern.map .str),
    ("status", f.status.map fun n => .num n.toNat), ("labels", optionalLabels f.labels)]

def StubFields.fields (s : StubFields) : List (String × Option Json) :=
  [("upstream", s.upstream.map .str), ("method", s.method.map .str), ("path_pattern", s.pathPattern.map .str),
    ("header_contains", optionalLabels s.headerContains), ("body_contains", s.bodyContains.map .str),
    ("status", some (.num s.status.toNat)), ("response_headers", optionalLabels s.responseHeaders),
    ("body", some (.str s.body)), ("delay_ms", s.delayMs.map fun n => .num n.toNat),
    ("times", s.times.map fun n => .num n.toNat)]

def WireCommand.typeName : WireCommand → String
  | .stub _ => "Stub"
  | .clearStubs _ => "ClearStubs"
  | .pause _ => "Pause"
  | .resume _ => "Resume"
  | .assertSeen _ _ => "AssertSeen"
  | .assertCount _ _ _ => "AssertCount"
  | .queryTraffic _ => "QueryTraffic"
  | .clearRecordings => "ClearRecordings"

/-- What stands behind the tag. A flattened filter is written among the other fields. -/
def WireCommand.fields : WireCommand → List (String × Option Json)
  | .stub s => s.fields
  | .clearStubs upstream | .pause upstream | .resume upstream => [("upstream", upstream.map .str)]
  | .assertSeen filter timeoutMs => filter.fields ++ [("timeout_ms", some (.num timeoutMs.toNat))]
  | .assertCount filter expected timeoutMs =>
    filter.fields ++ [("expected", some (.num expected)), ("timeout_ms", some (.num timeoutMs.toNat))]
  | .queryTraffic filter => filter.fields
  | .clearRecordings => []

def WireCommand.members (wire : WireCommand) : List (String × Json) :=
  ("type", .str wire.typeName) :: written wire.fields

def WireCommand.toJson (wire : WireCommand) : Json := .obj wire.members

def WireResponse.toJson (serde : Serde) : WireResponse → Json
  | .ok => .obj [("type", .str "Ok")]
  | .error message => .obj [("type", .str "Error"), ("message", .str message)]
  | .exchanges found =>
    .obj [("type", .str "Exchanges"), ("exchanges", .arr (found.map (RecordedExchange.toJson serde)))]
  | .assertionResult passed message =>
    .obj [("type", .str "AssertionResult"), ("passed", .bool passed), ("message", .str message)]

end Serialize

section Deserialize

def decodeNullable {α : Type} (decode : Json → Option α) : Json → Option (Option α)
  | .null => some none
  | json => (decode json).map some

def decodeU16 (json : Json) : Option UInt16 := (decodeNat UInt16.size json).map .ofNat
def decodeU32 (json : Json) : Option UInt32 := (decodeNat UInt32.size json).map .ofNat
def decodeU64 (json : Json) : Option UInt64 := (decodeNat UInt64.size json).map .ofNat

def decodeFilter (members : List (String × Json)) : Option WireFilter := do
  some ⟨← defaulted members "upstream" none (decodeNullable decodeString),
    ← defaulted members "method" none (decodeNullable decodeString),
    ← defaulted members "path_pattern" none (decodeNullable decodeString),
    ← defaulted members "status" none (decodeNullable decodeU16), ← defaulted members "labels" .empty decodeLabels⟩

def StubFields.fieldNames : List String :=
  ["upstream", "method", "path_pattern", "header_contains", "body_contains", "status", "response_headers", "body",
    "delay_ms", "times"]

def defaultStatus : UInt16 := 200

def decodeStubMembers (members : List (String × Json)) : Option StubFields := do
  some ⟨← defaulted members "upstream" none (decodeNullable decodeString),
    ← defaulted members "method" none (decodeNullable decodeString),
    ← defaulted members "path_pattern" none (decodeNullable decodeString),
    ← defaulted members "header_contains" .empty decodeLabels,
    ← defaulted members "body_contains" none (decodeNullable decodeString),
    ← defaulted members "status" defaultStatus decodeU16, ← defaulted members "response_headers" .empty decodeLabels,
    ← defaulted members "body" "" decodeString, ← defaulted members "delay_ms" none (decodeNullable decodeU64),
    ← defaulted members "times" none (decodeNullable decodeU32)⟩

def decodeTarget (members : List (String × Json)) : Option (Option String) :=
  defaulted members "upstream" none (decodeNullable decodeString)

/-- A variant with a flattened field is read from a map only. -/
def flattenMembers : Json → Option (List (String × Json))
  | .obj members => some members
  | _ => none

/-- A unit variant: any map, or a sequence without elements. -/
def decodeUnit : Json → Option Unit
  | .obj _ | .arr [] => some ()
  | _ => none

def decodeVariant (tag : String) (rest : Json) : Option WireCommand :=
  if tag = "Stub" then
    (structMembers StubFields.fieldNames rest).bind fun members => (decodeStubMembers members).map .stub
  else if tag = "ClearStubs" then
    (structMembers ["upstream"] rest).bind fun members => (decodeTarget members).map .clearStubs
  else if tag = "Pause" then
    (structMembers ["upstream"] rest).bind fun members => (decodeTarget members).map .pause
  else if tag = "Resume" then
    (structMembers ["upstream"] rest).bind fun members => (decodeTarget members).map .resume
  else if tag = "AssertSeen" then do
    let members ← flattenMembers rest
    some (.assertSeen (← decodeFilter members) (← required members "timeout_ms" decodeU64))
  else if tag = "AssertCount" then do
    let members ← flattenMembers rest
    some (.assertCount (← decodeFilter members) (← required members "expected" (decodeNat UInt64.size))
      (← required members "timeout_ms" decodeU64))
  else if tag = "QueryTraffic" then (flattenMembers rest).bind fun members => (decodeFilter members).map .queryTraffic
  else if tag = "ClearRecordings" then (decodeUnit rest).map fun _ => .clearRecordings
  else none

/-- The derived `Deserialize` of `WireCommand`. -/
def decodeWire (json : Json) : Option WireCommand := do
  let (tag, rest) ← splitTag "type" json
  decodeVariant tag rest

/-- `serde_json::from_str::<WireCommand>`. -/
def fromStr (serde : Serde) (line : String) : Except String WireCommand :=
  match (serde.parse line).bind decodeWire with
  | some wire => .ok wire
  | none => .error (serde.errorText line)

end Deserialize

/-- `expected` is a `usize`. -/
def WireCommand.Fits : WireCommand → Prop
  | .assertCount _ expected _ => expected < UInt64.size
  | _ => True

/-- The fields that a command reads. -/
def WireCommand.fieldNames (wire : WireCommand) : List String := wire.fields.map Prod.fst

section Fields
variable {members members' others : List (String × Json)} {name : String}

/-- A field is read the same in whatever order the members stand. -/
theorem field_perm (perm : members.Perm members') (name : String) : field members name = field members' name := by
  have same := perm.filter fun member => decide (member.1 = name)
  unfold field
  generalize members.filter (fun member => decide (member.1 = name)) = here at same ⊢
  generalize members'.filter (fun member => decide (member.1 = name)) = there at same ⊢
  have length := same.length_eq
  match here, there with
  | [], there => rw [List.nil_perm.mp same]
  | [first], there => rw [List.singleton_perm.mp same]
  | _ :: _ :: _, [] => cases length
  | _ :: _ :: _, [_] => simp at length
  | _ :: _ :: _, _ :: _ :: _ => rfl

/-- Members of other names make no difference. -/
theorem field_append (absent : name ∉ others.map Prod.fst) : field (members ++ others) name = field members name := by
  rw [field, field, List.filter_append, filter_of_notMem absent, List.append_nil]

theorem field_filter {other : String} (apart : name ≠ other) :
    field (members.filter fun member => member.1 ≠ other) name = field members name := by
  have same : (members.filter fun member => member.1 ≠ other).filter (fun member => member.1 = name) =
      members.filter fun member => member.1 = name := by
    rw [List.filter_filter]
    refine List.filter_congr fun member _ => ?_
    by_cases here : member.1 = name
    · simp [here, apart]
    · simp [here]
  rw [field, field, same]

theorem written_names {fields : List (String × Option Json)} {member : String × Json}
    (inMembers : member ∈ written fields) : member.1 ∈ fields.map Prod.fst := by
  obtain ⟨field, inFields, isMember⟩ := List.mem_filterMap.mp inMembers
  obtain ⟨json, _, rfl⟩ := Option.map_eq_some_iff.mp isMember
  exact List.mem_map.mpr ⟨field, inFields, rfl⟩

theorem notMem_written {fields : List (String × Option Json)} (absent : name ∉ fields.map Prod.fst) :
    name ∉ (written fields).map Prod.fst := by
  intro present
  obtain ⟨member, inMembers, rfl⟩ := List.mem_map.mp present
  exact absent (written_names inMembers)

/-- A field is read as it was written, or not at all. -/
theorem field_written {fields : List (String × Option Json)} {value : Option Json}
    (distinct : (fields.map Prod.fst).Nodup) (present : (name, value) ∈ fields) :
    field (written fields) name = some value := by
  induction fields with
  | nil => cases present
  | cons first rest ih =>
    obtain ⟨alone, distinct⟩ := List.nodup_cons.mp distinct
    rcases List.mem_cons.mp present with rfl | later
    · have nothing : field (written rest) name = some none := field_of_notMem (notMem_written alone)
      cases value with
      | none => exact nothing
      | some json =>
        have front : written ((name, some json) :: rest) = (name, json) :: written rest := rfl
        rw [front, field, List.filter_cons_of_pos (by simp), filter_of_notMem (notMem_written alone)]
    · have other : first.1 ≠ name := by
        rintro rfl
        exact alone (List.mem_map.mpr ⟨_, later, rfl⟩)
      rw [← ih distinct later]
      obtain ⟨given, value'⟩ := first
      cases value' with
      | none => rfl
      | some json =>
        have front : written ((given, some json) :: rest) = (given, json) :: written rest := rfl
        rw [front, field, List.filter_cons_of_neg (by simpa using other)]
        rfl

theorem written_plain {decimals : Bool} {depth : Nat} {fields : List (String × Option Json)}
    (plain : ∀ field ∈ fields, ∀ json, field.2 = some json → json.Plain decimals depth) :
    ∀ member ∈ written fields, member.2.Plain decimals depth := by
  intro member inMembers
  obtain ⟨field, inFields, isMember⟩ := List.mem_filterMap.mp inMembers
  obtain ⟨json, isValue, rfl⟩ := Option.map_eq_some_iff.mp isMember
  exact plain field inFields json isValue

theorem defaulted_some {α : Type} {json : Json} {default a : α} {decode : Json → Option α}
    (here : field members name = some (some json)) (decodes : decode json = some a) :
    defaulted members name default decode = some a := by
  rw [defaulted, here]
  exact decodes

theorem required_some {α : Type} {json : Json} {a : α} {decode : Json → Option α}
    (here : field members name = some (some json)) (decodes : decode json = some a) :
    required members name decode = some a := by
  rw [required, here]
  exact decodes

theorem defaulted_nullable {α : Type} {value : Option α} {encode : α → Json} {decode : Json → Option α}
    (here : field members name = some (value.map encode))
    (decodes : ∀ a, decodeNullable decode (encode a) = some (some a)) :
    defaulted members name none (decodeNullable decode) = some value := by
  rw [defaulted, here]
  cases value with
  | none => rfl
  | some a => exact decodes a

theorem defaulted_labels {labels : Labels}
    (here : field members name = some (optionalLabels labels)) :
    defaulted members name .empty decodeLabels = some labels := by
  rw [defaulted, here, optionalLabels]
  by_cases unlabelled : labels.entries = []
  · rw [if_pos unlabelled]
    cases labels
    cases unlabelled
    rfl
  · rw [if_neg unlabelled]
    exact decodeLabels_toJson labels

theorem decodeU16_num (n : UInt16) : decodeU16 (.num n.toNat) = some n := by
  rw [decodeU16, decodeNat_num n.toNat_lt, Option.map_some, UInt16.ofNat_toNat]

theorem decodeU32_num (n : UInt32) : decodeU32 (.num n.toNat) = some n := by
  rw [decodeU32, decodeNat_num n.toNat_lt, Option.map_some, UInt32.ofNat_toNat]

theorem decodeU64_num (n : UInt64) : decodeU64 (.num n.toNat) = some n := by
  rw [decodeU64, decodeNat_num n.toNat_lt, Option.map_some, UInt64.ofNat_toNat]

theorem decodeNullable_str (text : String) : decodeNullable decodeString (.str text) = some (some text) := rfl

theorem decodeNullable_num {α : Type} {decode : Json → Option α} {n : Nat} {a : α} (decodes : decode (.num n) = some a) :
    decodeNullable decode (.num n) = some (some a) := by
  rw [decodeNullable, decodes]
  · rfl
  · rintro ⟨⟩

end Fields

section RoundTrip
variable {members : List (String × Json)}

/-- The fields of a filter are read wherever they stand. -/
theorem decodeFilter_of_fields (f : WireFilter)
    (read : ∀ field' ∈ f.fields, field members field'.1 = some field'.2) : decodeFilter members = some f := by
  simp only [WireFilter.fields, List.forall_mem_cons, List.not_mem_nil, false_imp_iff, implies_true, and_true] at read
  obtain ⟨upstream, method, path, status, labels⟩ := read
  rw [decodeFilter, defaulted_nullable upstream decodeNullable_str, defaulted_nullable method decodeNullable_str,
    defaulted_nullable path decodeNullable_str,
    defaulted_nullable status fun n => decodeNullable_num (decodeU16_num n), defaulted_labels labels]
  rfl

theorem decodeStubMembers_of_fields (s : StubFields)
    (read : ∀ field' ∈ s.fields, field members field'.1 = some field'.2) : decodeStubMembers members = some s := by
  simp only [StubFields.fields, List.forall_mem_cons, List.not_mem_nil, false_imp_iff, implies_true, and_true] at read
  obtain ⟨upstream, method, path, headers, needle, status, response, body, delay, times⟩ := read
  rw [decodeStubMembers, defaulted_nullable upstream decodeNullable_str, defaulted_nullable method decodeNullable_str,
    defaulted_nullable path decodeNullable_str, defaulted_labels headers, defaulted_nullable needle decodeNullable_str,
    defaulted_some status (decodeU16_num s.status), defaulted_labels response,
    defaulted_some body (rfl : decodeString (.str s.body) = some s.body),
    defaulted_nullable delay fun n => decodeNullable_num (decodeU64_num n),
    defaulted_nullable times fun n => decodeNullable_num (decodeU32_num n)]
  rfl

namespace WireCommand

/-- No two fields of a command have one name, and none has that of the tag. -/
theorem names_distinct (wire : WireCommand) : ("type" :: wire.fieldNames).Nodup := by
  cases wire <;> exact of_decide_eq_true rfl

end WireCommand

/-- The variant behind the tag is read from its own fields. -/
theorem decodeVariant_of_fields {wire : WireCommand} (fits : wire.Fits)
    (read : ∀ field' ∈ wire.fields, field members field'.1 = some field'.2) :
    decodeVariant wire.typeName (.obj members) = some wire := by
  cases wire with
  | stub s => exact congrArg (Option.map WireCommand.stub) (decodeStubMembers_of_fields s read)
  | clearStubs upstream =>
    have target : decodeTarget members = some upstream :=
      defaulted_nullable (read _ (List.mem_singleton_self _)) decodeNullable_str
    exact congrArg (Option.map WireCommand.clearStubs) target
  | pause upstream =>
    have target : decodeTarget members = some upstream :=
      defaulted_nullable (read _ (List.mem_singleton_self _)) decodeNullable_str
    exact congrArg (Option.map WireCommand.pause) target
  | resume upstream =>
    have target : decodeTarget members = some upstream :=
      defaulted_nullable (read _ (List.mem_singleton_self _)) decodeNullable_str
    exact congrArg (Option.map WireCommand.resume) target
  | assertSeen filter timeoutMs =>
    obtain ⟨inFilter, others⟩ := List.forall_mem_append.mp read
    have timeout : required members "timeout_ms" decodeU64 = some timeoutMs :=
      required_some (others _ (List.mem_singleton_self _)) (decodeU64_num timeoutMs)
    change (do
      let filter ← decodeFilter members
      some (WireCommand.assertSeen filter (← required members "timeout_ms" decodeU64))) = _
    rw [decodeFilter_of_fields filter inFilter, timeout]
    rfl
  | assertCount filter expected timeoutMs =>
    obtain ⟨inFilter, others⟩ := List.forall_mem_append.mp read
    obtain ⟨first, others⟩ := List.forall_mem_cons.mp others
    have count : required members "expected" (decodeNat UInt64.size) = some expected :=
      required_some first (decodeNat_num fits)
    have timeout : required members "timeout_ms" decodeU64 = some timeoutMs :=
      required_some (others _ (List.mem_singleton_self _)) (decodeU64_num timeoutMs)
    change (do
      let filter ← decodeFilter members
      some (WireCommand.assertCount filter (← required members "expected" (decodeNat UInt64.size))
        (← required members "timeout_ms" decodeU64))) = _
    rw [decodeFilter_of_fields filter inFilter, count, timeout]
    rfl
  | queryTraffic filter => exact congrArg (Option.map WireCommand.queryTraffic) (decodeFilter_of_fields filter read)
  | clearRecordings => rfl

section Search
variable {tag : String} {fields : List (String × Option Json)} {others : List (String × Json)}

theorem notMem_others (unknown : ∀ member ∈ others, member.1 ≠ "type" ∧ member.1 ∉ fields.map Prod.fst) {name : String}
    (known : name = "type" ∨ name ∈ fields.map Prod.fst) : name ∉ others.map Prod.fst := by
  intro isOther
  obtain ⟨member, inOthers, rfl⟩ := List.mem_map.mp isOther
  rcases known with isType | isField
  · exact (unknown member inOthers).1 isType
  · exact (unknown member inOthers).2 isField

/-- The tag is found in any order, among any others of other names. -/
theorem type_of_perm (distinct : ("type" :: fields.map Prod.fst).Nodup)
    (perm : members.Perm ((("type", .str tag) :: written fields) ++ others))
    (unknown : ∀ member ∈ others, member.1 ≠ "type" ∧ member.1 ∉ fields.map Prod.fst) :
    required members "type" decodeString = some tag := by
  have untyped := (List.nodup_cons.mp distinct).1
  have here : field members "type" = some (some (.str tag)) := by
    rw [field_perm perm, field_append (notMem_others unknown (Or.inl rfl)), field, List.filter_cons_of_pos (by simp),
      filter_of_notMem (notMem_written untyped)]
  exact required_some here rfl

/-- So are the fields behind it. -/
theorem fields_of_perm (distinct : ("type" :: fields.map Prod.fst).Nodup)
    (perm : members.Perm ((("type", .str tag) :: written fields) ++ others))
    (unknown : ∀ member ∈ others, member.1 ≠ "type" ∧ member.1 ∉ fields.map Prod.fst) :
    ∀ field' ∈ fields, field (members.filter fun member => member.1 ≠ "type") field'.1 = some field'.2 := by
  obtain ⟨untyped, distinct⟩ := List.nodup_cons.mp distinct
  intro given present
  have known : given.1 ∈ fields.map Prod.fst := List.mem_map.mpr ⟨given, present, rfl⟩
  have apart : given.1 ≠ "type" := by
    intro isType
    exact untyped (isType ▸ known)
  rw [field_filter apart, field_perm perm, field_append (notMem_others unknown (Or.inr known)), field,
    List.filter_cons_of_neg (by simpa using Ne.symm apart)]
  exact field_written distinct present

end Search

theorem decodeWire_obj {tag : String} (typed : required members "type" decodeString = some tag) :
    decodeWire (.obj members) = decodeVariant tag (.obj (members.filter fun member => member.1 ≠ "type")) := by
  rw [decodeWire, splitTag, typed]
  rfl

theorem decodeNat_lt {size n : Nat} {json : Json} (read : decodeNat size json = some n) : n < size := by
  cases json with
  | num n =>
    rw [decodeNat] at read
    split at read
    · cases read
      assumption
    · cases read
  | _ => cases read

theorem required_decodes {α : Type} {name : String} {decode : Json → Option α} {a : α}
    (read : required members name decode = some a) : ∃ json, decode json = some a := by
  unfold required at read
  split at read
  · exact ⟨_, read⟩
  · cases read

/-- What is accepted is a value of the Rust type. -/
theorem decodeWire_fits {json : Json} {wire : WireCommand} (accepted : decodeWire json = some wire) : wire.Fits := by
  obtain ⟨⟨tag, rest⟩, _, accepted⟩ := Option.bind_eq_some_iff.mp accepted
  cases wire with
  | assertCount filter expected timeoutMs =>
    simp only [decodeVariant, Option.bind_eq_bind] at accepted
    split_ifs at accepted
    all_goals
      simp only [Option.bind_eq_some_iff, Option.map_eq_some_iff, Option.some.injEq, reduceCtorEq, and_false, exists_false,
        WireCommand.assertCount.injEq] at accepted
    obtain ⟨members, _, _, _, count, read, _, _, _, rfl, _⟩ := accepted
    obtain ⟨json, read⟩ := required_decodes read
    exact decodeNat_lt read
  | _ => trivial

section Plain
variable {decimals : Bool} {depth : Nat}

theorem map_str_plain {value : Option String} {json : Json} (isValue : value.map Json.str = some json) :
    json.Plain decimals depth := by
  obtain ⟨text, _, rfl⟩ := Option.map_eq_some_iff.mp isValue
  exact .str text

theorem map_num_plain {α : Type} {value : Option α} {toNat : α → Nat} (small : ∀ a, toNat a < UInt64.size) {json : Json}
    (isValue : (value.map fun a => Json.num (toNat a)) = some json) : json.Plain decimals depth := by
  obtain ⟨a, _, rfl⟩ := Option.map_eq_some_iff.mp isValue
  exact .num (small a)

theorem optionalLabels_plain {labels : Labels} {json : Json} (isValue : optionalLabels labels = some json) :
    json.Plain decimals (depth + 1) := by
  unfold optionalLabels at isValue
  split at isValue
  · cases isValue
  · cases isValue
    refine .obj fun member inMembers => ?_
    obtain ⟨entry, _, rfl⟩ := List.mem_map.mp inMembers
    exact .str _

theorem uint16_small (n : UInt16) : n.toNat < UInt64.size := Nat.lt_trans n.toNat_lt (by decide)

theorem uint32_small (n : UInt32) : n.toNat < UInt64.size := Nat.lt_trans n.toNat_lt (by decide)

theorem WireFilter.fields_plain (f : WireFilter) :
    ∀ field ∈ f.fields, ∀ json, field.2 = some json → json.Plain decimals (depth + 1) := by
  intro field inFields json isValue
  simp only [fields, List.mem_cons, List.not_mem_nil, or_false] at inFields
  rcases inFields with rfl | rfl | rfl | rfl | rfl
  · exact map_str_plain isValue
  · exact map_str_plain isValue
  · exact map_str_plain isValue
  · exact map_num_plain uint16_small isValue
  · exact optionalLabels_plain isValue

theorem StubFields.fields_plain (s : StubFields) :
    ∀ field ∈ s.fields, ∀ json, field.2 = some json → json.Plain decimals (depth + 1) := by
  intro field inFields json isValue
  simp only [fields, List.mem_cons, List.not_mem_nil, or_false] at inFields
  rcases inFields with rfl | rfl | rfl | rfl | rfl | rfl | rfl | rfl | rfl | rfl
  · exact map_str_plain isValue
  · exact map_str_plain isValue
  · exact map_str_plain isValue
  · exact optionalLabels_plain isValue
  · exact map_str_plain isValue
  · cases isValue
    exact .num (uint16_small _)
  · exact optionalLabels_plain isValue
  · cases isValue
    exact .str _
  · exact map_num_plain UInt64.toNat_lt isValue
  · exact map_num_plain uint32_small isValue

theorem WireCommand.fields_plain {wire : WireCommand} (fits : wire.Fits) :
    ∀ field ∈ wire.fields, ∀ json, field.2 = some json → json.Plain decimals (depth + 1) := by
  intro field inFields json isValue
  cases wire with
  | stub s => exact s.fields_plain field inFields json isValue
  | clearStubs upstream | pause upstream | resume upstream =>
    rw [List.mem_singleton.mp inFields] at isValue
    exact map_str_plain isValue
  | assertSeen filter timeoutMs =>
    rcases List.mem_append.mp inFields with inFilter | rest
    · exact filter.fields_plain field inFilter json isValue
    · rw [List.mem_singleton.mp rest] at isValue
      cases isValue
      exact .num timeoutMs.toNat_lt
  | assertCount filter expected timeoutMs =>
    rcases List.mem_append.mp inFields with inFilter | rest
    · exact filter.fields_plain field inFilter json isValue
    · simp only [List.mem_cons, List.not_mem_nil, or_false] at rest
      rcases rest with rfl | rfl
      · cases isValue
        exact .num fits
      · cases isValue
        exact .num timeoutMs.toNat_lt
  | queryTraffic filter => exact filter.fields_plain field inFields json isValue
  | clearRecordings => cases inFields

theorem WireCommand.members_plain {wire : WireCommand} (fits : wire.Fits) :
    ∀ member ∈ wire.members, member.2.Plain decimals (depth + 1) :=
  List.forall_mem_cons.mpr ⟨.str _, written_plain (fields_plain fits)⟩

end Plain

theorem WireResponse.toJson_plain {depth : Nat} (serde : Serde) (resp : WireResponse) :
    (resp.toJson serde).Plain false (depth + 6) := by
  cases resp with
  | ok =>
    refine .obj fun member inMembers => ?_
    rw [List.mem_singleton.mp inMembers]
    exact .str _
  | error message =>
    refine .obj fun member inMembers => ?_
    simp only [List.mem_cons, List.not_mem_nil, or_false] at inMembers
    rcases inMembers with rfl | rfl <;> exact .str _
  | exchanges found =>
    refine .obj fun member inMembers => ?_
    simp only [List.mem_cons, List.not_mem_nil, or_false] at inMembers
    rcases inMembers with rfl | rfl
    · exact .str _
    · refine .arr fun item inFound => ?_
      obtain ⟨e, _, rfl⟩ := List.mem_map.mp inFound
      exact e.toJson_plain serde
  | assertionResult passed message =>
    refine .obj fun member inMembers => ?_
    simp only [List.mem_cons, List.not_mem_nil, or_false] at inMembers
    rcases inMembers with rfl | rfl | rfl
    · exact .str _
    · exact .bool _
    · exact .str _

end RoundTrip

end PartlyProxy
