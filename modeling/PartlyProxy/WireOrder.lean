import PartlyProxy.MemberOrder

namespace PartlyProxy
open Json (Reordered Blind blind_leaf blind_of_steps)

section Order
variable {members members' : List (String × Json)}

theorem decodeFilter_alike (alike : FieldsAlike members members') : decodeFilter members = decodeFilter members' := by
  have text : Blind (decodeNullable decodeString) := blind_leaf (fun _ => rfl) fun _ => rfl
  have status : Blind (decodeNullable decodeU16) := blind_leaf (fun _ => rfl) fun _ => rfl
  rw [decodeFilter, (alike "upstream" text).2, (alike "method" text).2, (alike "path_pattern" text).2,
    (alike "status" status).2, (alike "labels" blind_labels).2]
  rfl

theorem decodeStubMembers_alike (alike : FieldsAlike members members') :
    decodeStubMembers members = decodeStubMembers members' := by
  have text : Blind (decodeNullable decodeString) := blind_leaf (fun _ => rfl) fun _ => rfl
  have status : Blind decodeU16 := blind_leaf (fun _ => rfl) fun _ => rfl
  have delay : Blind (decodeNullable decodeU64) := blind_leaf (fun _ => rfl) fun _ => rfl
  have times : Blind (decodeNullable decodeU32) := blind_leaf (fun _ => rfl) fun _ => rfl
  rw [decodeStubMembers, (alike "upstream" text).2, (alike "method" text).2, (alike "path_pattern" text).2,
    (alike "header_contains" blind_labels).2, (alike "body_contains" text).2, (alike "status" status).2,
    (alike "response_headers" blind_labels).2, (alike "body" blind_string).2, (alike "delay_ms" delay).2,
    (alike "times" times).2]
  rfl

theorem decodeTarget_alike (alike : FieldsAlike members members') : decodeTarget members = decodeTarget members' :=
  (alike "upstream" (blind_leaf (fun _ => rfl) fun _ => rfl)).2 none

/-- A variant with a flattened field is read alike where its fields are. -/
theorem blind_flatten {α : Type} {make : List (String × Json) → Option α}
    (alike : ∀ {members members'}, FieldsAlike members members' → make members = make members') :
    Blind fun json => (flattenMembers json).bind make :=
  blind_of_steps (fun _ _ _ _ _ => rfl) (fun front back name _ _ same => alike (fieldsAlike_member front back name same))
    fun _ _ _ perm => alike (fieldsAlike_perm perm)

theorem blind_unit : Blind decodeUnit := by
  refine blind_of_steps ?_ (fun _ _ _ _ _ _ => rfl) fun _ _ _ _ => rfl
  intro front back x y _
  cases front <;> rfl

theorem blind_variant (tag : String) : Blind (decodeVariant tag) := by
  intro x y same
  have timeout : Blind decodeU64 := blind_leaf (fun _ => rfl) fun _ => rfl
  have target : ∀ make : Option String → WireCommand,
      (structMembers ["upstream"] x).bind (fun members => (decodeTarget members).map make) =
        (structMembers ["upstream"] y).bind fun members => (decodeTarget members).map make := fun make =>
    blind_struct ["upstream"] (fun alike => by rw [decodeTarget_alike alike]) x y same
  have stub : Blind fun json => (structMembers StubFields.fieldNames json).bind fun members =>
      (decodeStubMembers members).map WireCommand.stub :=
    blind_struct StubFields.fieldNames fun alike => by rw [decodeStubMembers_alike alike]
  unfold decodeVariant
  split_ifs
  · exact stub x y same
  · exact target .clearStubs
  · exact target .pause
  · exact target .resume
  · exact blind_flatten (fun alike => by
      rw [decodeFilter_alike alike, (alike "timeout_ms" timeout).1]) x y same
  · exact blind_flatten (fun alike => by
      rw [decodeFilter_alike alike, (alike "expected" (blind_nat _)).1, (alike "timeout_ms" timeout).1]) x y same
  · exact blind_flatten (fun alike => by rw [decodeFilter_alike alike]) x y same
  · rw [blind_unit x y same]
  · rfl

theorem blind_wire : Blind decodeWire := fun x y same => blind_split "type" blind_variant x y same

end Order

/-- The members that may be left out of a stub with these values: they are the defaults. -/
def WireCommand.optional : WireCommand → List (String × Json)
  | .stub _ => [("status", .num defaultStatus.toNat), ("body", .str "")]
  | _ => []

section LeftOut
variable {members left others rest : List (String × Json)}

/-- A member that has the default reads as if it was left out. -/
theorem defaulted_append_left {α : Type} {name : String} {default : α} {decode : Json → Option α}
    (absent : ∀ member ∈ left, member.1 ∉ rest.map Prod.fst) (distinct : (left.map Prod.fst).Nodup)
    (isDefault : ∀ member ∈ left, member.1 = name → decode member.2 = some default) :
    defaulted (rest ++ left) name default decode = defaulted rest name default decode := by
  by_cases named : name ∈ left.map Prod.fst
  · obtain ⟨member, inLeft, rfl⟩ := List.mem_map.mp named
    have gone : field rest member.1 = some none := field_of_notMem (absent member inLeft)
    have given : field (rest ++ left) member.1 = some (some member.2) := by
      rw [field_perm List.perm_append_comm, field_append (absent member inLeft), field_of_mem distinct inLeft]
    rw [defaulted, defaulted, gone, given]
    exact isDefault member inLeft rfl
  · rw [defaulted, defaulted, field_append named]

theorem decodeStubMembers_append_left (s : StubFields) (optional : ∀ member ∈ left, member ∈ (WireCommand.stub s).optional)
    (absent : ∀ member ∈ left, member.1 ∉ rest.map Prod.fst) (distinct : (left.map Prod.fst).Nodup) :
    decodeStubMembers (rest ++ left) = decodeStubMembers rest := by
  have other : ∀ (name : String), name ≠ "status" → name ≠ "body" → ∀ {α : Type} (default : α) (decode : Json → Option α),
      defaulted (rest ++ left) name default decode = defaulted rest name default decode := by
    intro name noStatus noBody α default decode
    refine defaulted_append_left absent distinct fun member inLeft isName => ?_
    rcases List.mem_cons.mp (optional member inLeft) with rfl | isBody
    · exact (noStatus isName.symm).elim
    · rw [List.mem_singleton.mp isBody] at isName
      exact (noBody isName.symm).elim
  have status : defaulted (rest ++ left) "status" defaultStatus decodeU16 = defaulted rest "status" defaultStatus decodeU16 := by
    refine defaulted_append_left absent distinct fun member inLeft isName => ?_
    rcases List.mem_cons.mp (optional member inLeft) with rfl | isBody
    · exact decodeU16_num _
    · rw [List.mem_singleton.mp isBody] at isName
      exact absurd isName (by decide)
  have body : defaulted (rest ++ left) "body" "" decodeString = defaulted rest "body" "" decodeString := by
    refine defaulted_append_left absent distinct fun member inLeft isName => ?_
    rcases List.mem_cons.mp (optional member inLeft) with rfl | isBody
    · exact absurd isName (by decide)
    · rw [List.mem_singleton.mp isBody]
      rfl
  rw [decodeStubMembers, decodeStubMembers, status, body, other "upstream" (by decide) (by decide),
    other "method" (by decide) (by decide), other "path_pattern" (by decide) (by decide),
    other "header_contains" (by decide) (by decide), other "body_contains" (by decide) (by decide),
    other "response_headers" (by decide) (by decide), other "delay_ms" (by decide) (by decide),
    other "times" (by decide) (by decide)]

theorem decodeVariant_append_left {wire : WireCommand} (optional : ∀ member ∈ left, member ∈ wire.optional)
    (absent : ∀ member ∈ left, member.1 ∉ rest.map Prod.fst) (distinct : (left.map Prod.fst).Nodup) :
    decodeVariant wire.typeName (.obj (rest ++ left)) = decodeVariant wire.typeName (.obj rest) := by
  cases wire with
  | stub s => exact congrArg (Option.map WireCommand.stub) (decodeStubMembers_append_left s optional absent distinct)
  | _ =>
    have nothing : left = [] := List.eq_nil_iff_forall_not_mem.mpr fun member inLeft => by cases optional member inLeft
    rw [nothing, List.append_nil]

theorem written_sublist (fields : List (String × Option Json)) :
    ((written fields).map Prod.fst).Sublist (fields.map Prod.fst) := by
  induction fields with
  | nil => exact List.Sublist.refl _
  | cons first rest ih =>
    obtain ⟨name, value⟩ := first
    cases value with
    | none => exact ih.cons name
    | some json => exact ih.cons_cons name

theorem WireCommand.members_distinct (wire : WireCommand) : (wire.members.map Prod.fst).Nodup :=
  wire.names_distinct.sublist ((written_sublist wire.fields).cons_cons "type")

theorem WireCommand.optional_known {wire : WireCommand} {member : String × Json} (optional : member ∈ wire.optional) :
    member.1 ≠ "type" ∧ member.1 ∈ wire.fieldNames := by
  cases wire with
  | stub s =>
    simp only [WireCommand.optional, List.mem_cons, List.not_mem_nil, or_false] at optional
    rcases optional with rfl | rfl <;> simp [fieldNames, fields, StubFields.fields]
  | _ => cases optional

/-- Each name of the command is in what is there or in what is left out, once. -/
theorem left_apart {wire : WireCommand} (optional : ∀ member ∈ left, member ∈ wire.optional)
    (perm : (members ++ left).Perm (wire.members ++ others))
    (unknown : ∀ member ∈ others, member.1 ≠ "type" ∧ member.1 ∉ wire.fieldNames) :
    (∀ member ∈ left, member.1 ∉ members.map Prod.fst) ∧ (left.map Prod.fst).Nodup := by
  have once : ∀ member ∈ left, (members.map Prod.fst).count member.1 + (left.map Prod.fst).count member.1 ≤ 1 := by
    intro member inLeft
    have counts := (perm.map Prod.fst).count_eq member.1
    have own := List.nodup_iff_count_le_one.mp wire.members_distinct member.1
    have other : (others.map Prod.fst).count member.1 = 0 :=
      List.count_eq_zero.mpr (notMem_others unknown (Or.inr (WireCommand.optional_known (optional member inLeft)).2))
    simp only [List.map_append, List.count_append] at counts
    omega
  refine ⟨fun member inLeft present => ?_, List.nodup_iff_count_le_one.mpr fun name => ?_⟩
  · have here := List.count_pos_iff.mpr present
    have there := List.count_pos_iff.mpr (List.mem_map_of_mem (f := Prod.fst) inLeft)
    have bound := once member inLeft
    omega
  · by_cases named : name ∈ left.map Prod.fst
    · obtain ⟨member, inLeft, rfl⟩ := List.mem_map.mp named
      have bound := once member inLeft
      omega
    · rw [List.count_eq_zero.mpr named]
      exact Nat.zero_le 1

/-- A command is read from what is left of its members, in any order, among any others
that it does not know. -/
theorem decodeWire_of_left {wire : WireCommand} (fits : wire.Fits) (optional : ∀ member ∈ left, member ∈ wire.optional)
    (perm : (members ++ left).Perm (wire.members ++ others))
    (unknown : ∀ member ∈ others, member.1 ≠ "type" ∧ member.1 ∉ wire.fieldNames) :
    decodeWire (.obj members) = some wire := by
  obtain ⟨absent, distinct⟩ := left_apart optional perm unknown
  have noType : "type" ∉ left.map Prod.fst := by
    intro present
    obtain ⟨member, inLeft, isType⟩ := List.mem_map.mp present
    exact (WireCommand.optional_known (optional member inLeft)).1 isType
  have typed : required members "type" decodeString = some wire.typeName := by
    have whole := type_of_perm wire.names_distinct perm unknown
    rwa [required, field_append noType] at whole
  have keeps : (members ++ left).filter (fun member => member.1 ≠ "type") =
      members.filter (fun member => member.1 ≠ "type") ++ left := by
    have untyped : left.filter (fun member => member.1 ≠ "type") = left :=
      List.filter_eq_self.mpr fun member inLeft => by simpa using (WireCommand.optional_known (optional member inLeft)).1
    rw [List.filter_append, untyped]
  have read := fields_of_perm wire.names_distinct perm unknown
  rw [keeps] at read
  have absent' : ∀ member ∈ left, member.1 ∉ (members.filter fun member => member.1 ≠ "type").map Prod.fst :=
    fun member inLeft present => absent member inLeft ((List.filter_sublist.map Prod.fst).subset present)
  rw [decodeWire_obj typed, ← decodeVariant_append_left optional absent' distinct]
  exact decodeVariant_of_fields fits read

end LeftOut

section Lines
variable {serde : Serde} (law : serde.Lawful) {members left others : List (String × Json)}

include law in
theorem fromStr_of_left {wire : WireCommand} (fits : wire.Fits) (optional : ∀ member ∈ left, member ∈ wire.optional)
    (perm : (members ++ left).Perm (wire.members ++ others))
    (unknown : ∀ member ∈ others, member.1 ≠ "type" ∧ member.1 ∉ wire.fieldNames)
    (plain : ∀ member ∈ others, member.2.Plain false (deepest - 1)) :
    fromStr serde (serde.render (.obj members)) = .ok wire := by
  have whole : (Json.obj members).Plain false deepest := by
    refine .obj fun member inMembers => ?_
    rcases List.mem_append.mp (perm.subset (List.mem_append_left left inMembers)) with own | other
    · exact WireCommand.members_plain fits member own
    · exact plain member other
  simp only [fromStr, law.parse_render _ whole, Option.bind_some, decodeWire_of_left fits optional perm unknown]

theorem fromStr_ok_iff {line : String} {wire : WireCommand} :
    fromStr serde line = .ok wire ↔ ∃ json, serde.parse line = some json ∧ decodeWire json = some wire := by
  unfold fromStr
  rw [← Option.bind_eq_some_iff]
  cases (serde.parse line).bind decodeWire <;> simp

/-- Every command is read back from its text, whatever the order of the members, with any
that have their defaults left out, and whatever other fields stand among them as deep as
`serde_json` reads. What is read from a line does not depend on the order of the members
at any depth; and what is accepted as a command, from whatever text, is written so that
it is accepted again as the same command. -/
theorem wire_command_round_trip {serde : Serde} (law : serde.Lawful) :
    (∀ (wire : WireCommand) (members left others : List (String × Json)), wire.Fits →
      (∀ member ∈ left, member ∈ wire.optional) → (members ++ left).Perm (wire.members ++ others) →
      (∀ member ∈ others, member.1 ≠ "type" ∧ member.1 ∉ wire.fieldNames) →
      (∀ member ∈ others, member.2.Plain false (deepest - 1)) → fromStr serde (serde.render (.obj members)) = .ok wire) ∧
    (∀ (line line' : String) (json json' : Json), serde.parse line = some json → serde.parse line' = some json' →
      Reordered json json' → ∀ wire, fromStr serde line = .ok wire ↔ fromStr serde line' = .ok wire) ∧
    ∀ (line : String) (wire : WireCommand), fromStr serde line = .ok wire →
      fromStr serde (serde.render wire.toJson) = .ok wire := by
  refine ⟨fun wire members left others fits optional perm unknown plain =>
    fromStr_of_left law fits optional perm unknown plain, ?_, ?_⟩
  · intro line line' json json' parses parses' same wire
    simp only [fromStr_ok_iff, parses, parses', Option.some.injEq, exists_eq_left', blind_wire json json' same]
  · intro line wire accepted
    obtain ⟨json, _, decoded⟩ := fromStr_ok_iff.mp accepted
    have perm : (wire.members ++ []).Perm (wire.members ++ []) := List.Perm.refl _
    exact fromStr_of_left law (decodeWire_fits decoded) (by simp) perm (by simp) (by simp)

/-- A stub without its status and body, and with a field of another command in front of
its tag. -/
theorem wire_command_round_trip_stub :
    let stub : StubFields := ⟨some "api", none, none, .empty, none, 200, .empty, "", none, none⟩
    fromStr referenceSerde (referenceSerde.render
      (.obj [("timeout_ms", .num 1), ("type", .str "Stub"), ("upstream", .str "api")])) = .ok (.stub stub) := by
  intro stub
  refine (wire_command_round_trip referenceSerde_lawful).1 (.stub stub) _ (WireCommand.stub stub).optional
    [("timeout_ms", .num 1)] trivial (fun member inLeft => inLeft) ?_ ?_ ?_
  · exact (List.perm_append_comm : ([("timeout_ms", Json.num 1)] ++ (WireCommand.stub stub).members).Perm _)
  · simp [stub, WireCommand.fieldNames, WireCommand.fields, StubFields.fields]
  · simpa using Json.Plain.num (by decide)

end Lines

end PartlyProxy
