import PartlyProxy.SnapshotFiles
import PartlyProxy.Lib.JsonOrder
import Mathlib.Data.List.Perm.Basic

namespace PartlyProxy
open Json (Reordered Blind blind_leaf blind_of_steps)

section Leaves
variable (serde : Serde)

theorem blind_string : Blind decodeString := blind_leaf (fun _ => rfl) fun _ => rfl

theorem blind_nat (size : Nat) : Blind (decodeNat size) := blind_leaf (fun _ => rfl) fun _ => rfl

theorem blind_option : Blind decodeOption := blind_leaf (fun _ => rfl) fun _ => rfl

theorem blind_bytes : Blind (decodeBytes serde) := blind_string.bind serde.base64Decode

theorem blind_pair : Blind decodePair := by
  refine blind_of_steps ?_ (fun _ _ _ _ _ _ => rfl) fun _ _ _ _ => rfl
  intro front back x y same
  have alike := blind_string x y same
  -- A pair has two items, of which the change is in one.
  rcases front with _ | ⟨first, _ | ⟨second, more⟩⟩
  · rcases back with _ | ⟨second, _ | ⟨third, more⟩⟩
    · rfl
    · simp only [List.nil_append, decodePair, alike]
    · rfl
  · rcases back with _ | ⟨third, more⟩
    · simp only [List.cons_append, List.nil_append, decodePair, alike]
    · rfl
  · cases more <;> rfl

theorem blind_headers : Blind decodeHeaders :=
  blind_of_steps (fun front back _ _ same => Json.mapM_blind blind_pair front back same) (fun _ _ _ _ _ _ => rfl)
    fun _ _ _ _ => rfl

end Leaves

section Fields

/-- Members from which every field is read alike. -/
def FieldsAlike (members members' : List (String × Json)) : Prop :=
  ∀ {α : Type} (name : String) {decode : Json → Option α}, Blind decode →
    required members name decode = required members' name decode ∧
      ∀ default, defaulted members name default decode = defaulted members' name default decode

theorem fieldsAlike_perm {members members' : List (String × Json)} (perm : members.Perm members') :
    FieldsAlike members members' := by
  intro α name decode _
  simp only [required, defaulted, field_perm perm name, implies_true, and_self]

theorem fieldsAlike_member (front back : List (String × Json)) (name : String) {x y : Json} (same : Reordered x y) :
    FieldsAlike (front ++ (name, x) :: back) (front ++ (name, y) :: back) := by
  intro α wanted decode blind
  simp only [required, defaulted, field, List.filter_append, List.filter_cons]
  by_cases here : name = wanted
  · simp only [here, decide_true, if_true]
    -- The changed member is the only one of this name, or there are too many.
    generalize front.filter (fun member => decide (member.1 = wanted)) = before
    generalize back.filter (fun member => decide (member.1 = wanted)) = behind
    rcases before with _ | ⟨other, more⟩
    · rcases behind with _ | ⟨other, more⟩
      · simp [blind x y same]
      · simp
    · cases more <;> simp
  · simp [here]

theorem fieldsAlike_zip (names : List String) (front back : List Json) {x y : Json} (same : Reordered x y)
    (fits : (front ++ x :: back).length ≤ names.length) :
    FieldsAlike (names.zip (front ++ x :: back)) (names.zip (front ++ y :: back)) := by
  rw [List.length_append, List.length_cons] at fits
  obtain ⟨before, name, behind, rfl, length⟩ : ∃ before name behind, names = before ++ name :: behind ∧
      before.length = front.length := by
    have inside : front.length < names.length := by omega
    exact ⟨names.take front.length, names.get ⟨front.length, inside⟩, names.drop (front.length + 1), by simp, by simp; omega⟩
  rw [List.zip_append length, List.zip_append length, List.zip_cons_cons, List.zip_cons_cons]
  exact fieldsAlike_member _ _ name same

/-- A struct is read alike where its fields are. -/
theorem blind_struct {α : Type} (names : List String) {make : List (String × Json) → Option α}
    (alike : ∀ {members members'}, FieldsAlike members members' → make members = make members') :
    Blind fun json => (structMembers names json).bind make := by
  refine blind_of_steps ?_ ?_ ?_
  · intro front back x y same
    have length : (front ++ y :: back).length = (front ++ x :: back).length := by simp
    simp only [structMembers, length]
    split
    · rename_i fits
      exact alike (fieldsAlike_zip names front back same fits)
    · rfl
  · intro front back name x y same
    exact alike (fieldsAlike_member front back name same)
  · intro members members' _ perm
    exact alike (fieldsAlike_perm perm)

end Fields

section Structs
variable (serde : Serde)

theorem blind_request : Blind (decodeRequest serde) := by
  refine blind_struct ["method", "uri", "headers", "body", "body_sha256"] fun {members members'} alike => ?_
  rw [(alike "method" blind_string).1, (alike "uri" blind_string).1, (alike "headers" blind_headers).1,
    (alike "body" (blind_bytes serde)).1, (alike "body_sha256" blind_string).1]

theorem blind_response : Blind (decodeResponse serde) := by
  refine blind_struct ["status", "headers", "body"] fun {members members'} alike => ?_
  rw [(alike "status" (blind_nat _)).1, (alike "headers" blind_headers).1, (alike "body" (blind_bytes serde)).1]

/-- What follows the tag of an outcome. -/
def decodeTagged (tag : String) (rest : Json) : Option ExchangeOutcome :=
  if tag = "response" then (decodeResponse serde rest).map .response
  else if tag = "error" then
    (structMembers ["message"] rest).bind fun members => (required members "message" decodeString).map .error
  else none

theorem decodeOutcome_eq (json : Json) :
    decodeOutcome serde json = (splitTag "kind" json).bind fun split => decodeTagged serde split.1 split.2 := by
  unfold decodeOutcome
  cases splitTag "kind" json with
  | none => rfl
  | some split =>
    obtain ⟨tag, rest⟩ := split
    simp only [Option.bind_eq_bind, Option.bind_some, decodeTagged]
    split
    · cases decodeResponse serde rest <;> rfl
    · split
      · cases structMembers ["message"] rest with
        | none => rfl
        | some members => cases h : required members "message" decodeString <;> simp [h]
      · rfl

theorem blind_tagged (tag : String) : Blind (decodeTagged serde tag) := by
  intro x y same
  have message : Blind fun json => (structMembers ["message"] json).bind fun members =>
      (required members "message" decodeString).map ExchangeOutcome.error :=
    blind_struct ["message"] fun {members members'} alike => by rw [(alike "message" blind_string).1]
  unfold decodeTagged
  split
  · rw [blind_response serde x y same]
  · split
    · exact message x y same
    · rfl

/-- The tag is found alike, and what is left of the members differs in their order only. -/
theorem blind_split {α : Type} (name : String) {decode : String → Json → Option α} (blind : ∀ tag, Blind (decode tag)) :
    Blind fun json => (splitTag name json).bind fun split => decode split.1 split.2 := by
  refine blind_of_steps ?_ ?_ ?_
  · intro front back x y same
    cases front with
    | nil => simp only [List.nil_append, splitTag, blind_string x y same]
    | cons tag front =>
      simp only [List.cons_append, splitTag]
      cases decodeString tag with
      | none => rfl
      | some tag => exact blind tag _ _ (.item front back same)
  · intro front back other x y same
    have alike := (fieldsAlike_member front back other same name blind_string).1
    simp only [splitTag, alike]
    cases required (front ++ (other, y) :: back) name decodeString with
    | none => rfl
    | some tag =>
      refine blind tag _ _ ?_
      simp only [List.filter_append, List.filter_cons]
      split
      · exact .member _ _ other same
      · exact .refl _
  · intro members members' distinct perm
    have alike := (fieldsAlike_perm perm name blind_string).1
    simp only [splitTag, alike]
    cases required members' name decodeString with
    | none => rfl
    | some tag => exact blind tag _ _ (.filter distinct perm _)

theorem blind_outcome : Blind (decodeOutcome serde) := by
  intro x y same
  rw [decodeOutcome_eq, decodeOutcome_eq]
  exact blind_split "kind" (blind_tagged serde) x y same

end Structs

section LabelOrder
variable {key key' : String}

theorem text_trichotomy (a b : String) : a < b ∨ a = b ∨ b < a := by
  by_cases below : a < b
  · exact Or.inl below
  · by_cases above : b < a
    · exact Or.inr (Or.inr above)
    · exact Or.inr (Or.inl (String.le_antisymm above below))

theorem insertEntry_before {first : String × String} (before : key < first.1) (value : String) (rest : List (String × String)) :
    Labels.insertEntry key value (first :: rest) = (key, value) :: first :: rest := if_pos before

theorem insertEntry_here {first : String × String} (here : key = first.1) (value : String) (rest : List (String × String)) :
    Labels.insertEntry key value (first :: rest) = (key, value) :: rest := by
  rw [Labels.insertEntry, if_neg (here ▸ String.lt_irrefl _), if_pos here]

theorem insertEntry_after {first : String × String} (after : first.1 < key) (value : String) (rest : List (String × String)) :
    Labels.insertEntry key value (first :: rest) = first :: Labels.insertEntry key value rest := by
  have apart : ¬ key = first.1 := by
    rintro rfl
    exact String.lt_irrefl _ after
  rw [Labels.insertEntry, if_neg (String.lt_asymm after), if_neg apart]

theorem insertEntry_comm_of_lt (ordered : key < key') (value value' : String) (entries : List (String × String)) :
    Labels.insertEntry key' value' (Labels.insertEntry key value entries) =
      Labels.insertEntry key value (Labels.insertEntry key' value' entries) := by
  have pastFirst : ∀ rest, Labels.insertEntry key' value' ((key, value) :: rest) =
      (key, value) :: Labels.insertEntry key' value' rest := insertEntry_after ordered value'
  have beforeSecond : ∀ rest, Labels.insertEntry key value ((key', value') :: rest) =
      (key, value) :: (key', value') :: rest := insertEntry_before ordered value
  induction entries with
  | nil => rw [Labels.insertEntry, pastFirst, Labels.insertEntry, beforeSecond]
  | cons first rest ih =>
    rcases text_trichotomy key first.1 with before | here | after
    · rw [insertEntry_before before, pastFirst]
      rcases text_trichotomy key' first.1 with before' | here' | after'
      · rw [insertEntry_before before', beforeSecond]
      · rw [insertEntry_here here', beforeSecond]
      · rw [insertEntry_after after', insertEntry_before before]
    · have after' : first.1 < key' := here ▸ ordered
      rw [insertEntry_here here, pastFirst, insertEntry_after after', insertEntry_here here]
    · have after' : first.1 < key' := String.lt_trans after ordered
      rw [insertEntry_after after, insertEntry_after after', insertEntry_after after', insertEntry_after after, ih]

/-- Two labels of different keys go in in either order. -/
theorem insert_comm (apart : key ≠ key') (value value' : String) (labels : Labels) :
    (labels.insert key value).insert key' value' = (labels.insert key' value').insert key value := by
  have entries : Labels.insertEntry key' value' (Labels.insertEntry key value labels.entries) =
      Labels.insertEntry key value (Labels.insertEntry key' value' labels.entries) := by
    rcases text_trichotomy key key' with before | here | after
    · exact insertEntry_comm_of_lt before value value' labels.entries
    · exact absurd here apart
    · exact (insertEntry_comm_of_lt after value' value labels.entries).symm
  simp only [Labels.insert, entries]

/-- One step of the decoding of labels. -/
def insertDecoded (labels : Labels) (member : String × Json) : Option Labels :=
  (decodeString member.2).map fun value => labels.insert member.1 value

theorem insertDecoded_comm {first second : String × Json} (apart : first.1 ≠ second.1) (labels : Labels) :
    (insertDecoded labels first).bind (insertDecoded · second) = (insertDecoded labels second).bind (insertDecoded · first) := by
  unfold insertDecoded
  cases decodeString first.2 with
  | none => cases decodeString second.2 <;> rfl
  | some value =>
    cases decodeString second.2 with
    | none => rfl
    | some value' =>
      exact congrArg some (insert_comm apart value value' labels)

theorem foldlM_insertDecoded {members members' : List (String × Json)} (perm : members.Perm members')
    (distinct : (members.map Prod.fst).Nodup) (labels : Labels) :
    members.foldlM insertDecoded labels = members'.foldlM insertDecoded labels := by
  induction perm generalizing labels with
  | nil => rfl
  | cons member _ ih =>
    simp only [List.foldlM_cons]
    exact congrArg _ (funext fun labels => ih (List.nodup_cons.mp distinct).2 labels)
  | swap first second rest =>
    have apart : second.1 ≠ first.1 := by
      intro same
      exact (List.nodup_cons.mp distinct).1 (List.mem_cons.mpr (Or.inl same))
    have comm := insertDecoded_comm apart labels
    simp only [List.foldlM_cons, Option.bind_eq_bind, ← Option.bind_assoc, comm]
  | trans first _ ih ih' =>
    exact (ih distinct labels).trans (ih' ((first.map Prod.fst).nodup_iff.mp distinct) labels)

theorem decodeLabels_obj (members : List (String × Json)) :
    decodeLabels (.obj members) = members.foldlM insertDecoded .empty := by
  have steps : (fun (labels : Labels) (member : String × Json) => do some (labels.insert member.1 (← decodeString member.2))) =
      insertDecoded := by
    funext labels member
    unfold insertDecoded
    cases decodeString member.2 <;> rfl
  rw [decodeLabels, steps]

theorem blind_labels : Blind decodeLabels := by
  refine blind_of_steps (fun _ _ _ _ _ => rfl) ?_ ?_
  · intro front back name x y same
    have alike : ∀ labels, insertDecoded labels (name, x) = insertDecoded labels (name, y) := by
      intro labels
      simp only [insertDecoded, blind_string x y same]
    simp only [decodeLabels_obj, List.foldlM_append, List.foldlM_cons, alike]
  · intro members members' distinct perm
    rw [decodeLabels_obj, decodeLabels_obj, foldlM_insertDecoded perm distinct]

end LabelOrder

section Exchanges
variable (serde : Serde)

theorem blind_exchange : Blind (decodeExchange serde) := by
  refine blind_struct ["id", "upstream", "timestamp", "duration_ms", "request", "outcome", "labels"]
    fun {members members'} alike => ?_
  rw [(alike "id" (blind_string.bind serde.parseUuid)).1, (alike "upstream" blind_option).2,
    (alike "timestamp" (blind_string.bind serde.parseTimestamp)).1, (alike "duration_ms" (blind_nat _)).1,
    (alike "request" (blind_request serde)).1, (alike "outcome" (blind_outcome serde)).1, (alike "labels" blind_labels).2]

/-- The line is the same, or the members of its objects have another order. -/
def Rewritten (piece piece' : Bytes) : Prop :=
  piece = piece' ∨ ∃ line line' json json', Lines.decode (Lines.chomp piece) = some line ∧
    Lines.decode (Lines.chomp piece') = some line' ∧ serde.parse line = some json ∧ serde.parse line' = some json' ∧
    Reordered json json'

variable {serde}

theorem not_blank_of_parse (law : serde.Lawful) {line : String} {json : Json} (parses : serde.parse line = some json) :
    isBlank line = false := by
  cases blank : isBlank line with
  | false => rfl
  | true =>
    rw [law.blank line blank] at parses
    cases parses

theorem Reads.rewritten (law : serde.Lawful) {piece piece' : Bytes} {read : Option RecordedExchange}
    (reads : Reads serde piece read) (rewritten : Rewritten serde piece piece') : Reads serde piece' read := by
  rcases rewritten with rfl | ⟨line, line', json, json', decoded, decoded', parses, parses', same⟩
  · exact reads
  · have solid := not_blank_of_parse law parses
    obtain ⟨line₀, decoded₀, ⟨blank, _⟩ | ⟨_, e, exchange, rfl⟩⟩ := reads
    · rw [decoded] at decoded₀
      cases decoded₀
      rw [blank] at solid
      cases solid
    · rw [decoded] at decoded₀
      cases decoded₀
      refine ⟨line', decoded', Or.inr ⟨not_blank_of_parse law parses', e, ?_, rfl⟩⟩
      rw [parses, Option.bind_some, blind_exchange serde json json' same] at exchange
      rw [parses', Option.bind_some]
      exact exchange

/-- A file whose lines were rewritten with another order of members, at any depth, loads as
the same exchanges. -/
theorem reordered_file_loads (law : serde.Lawful) {file file' : Bytes}
    (rewritten : List.Forall₂ (Rewritten serde) (Lines.pieces file) (Lines.pieces file')) {exchanges : List RecordedExchange}
    (loaded : (jsonlStorage serde).load file = .ok exchanges) : (jsonlStorage serde).load file' = .ok exchanges := by
  obtain ⟨reads, all, rfl⟩ := reads_of_ok loaded
  clear loaded
  refine loadLines_of_reads ?_ 0
  generalize Lines.pieces file = pieces at rewritten all
  generalize Lines.pieces file' = pieces' at rewritten ⊢
  induction rewritten generalizing reads with
  | nil => cases all; exact .nil
  | cons here _ ih =>
    cases all with
    | cons readsHere later => exact .cons (readsHere.rewritten law here) (ih _ later)

theorem written_line (law : serde.Lawful) {json : Json} (plain : json.Plain false deepest) :
    Lines.pieces (Lines.encode (serde.render json) ++ [10]) = [Lines.encode (serde.render json) ++ [10]] ∧
      Lines.decode (Lines.chomp (Lines.encode (serde.render json) ++ [10])) = some (serde.render json) := by
  have printable := Lines.encode_printable (law.printable json plain)
  have noFeed : ∀ b ∈ Lines.encode (serde.render json), b ≠ 10 := by
    rintro b member rfl
    exact absurd (printable _ member) (by decide)
  have noReturn : ∀ b ∈ Lines.encode (serde.render json), b ≠ 13 := by
    rintro b member rfl
    exact absurd (printable _ member) (by decide)
  refine ⟨Lines.pieces_line noFeed [], ?_⟩
  rw [Lines.chomp_line noReturn, Lines.decode_encode]

/-- An exchange written from its last member to its first. -/
theorem reordered_file_loads_backwards :
    let e := JsonlFile.sampleExchange "lost"
    ∃ members, e.toJson referenceSerde = .obj members ∧
      (jsonlStorage referenceSerde).load (Lines.encode (referenceSerde.render (.obj members.reverse)) ++ [10]) =
        .ok [e.rounded] := by
  intro e
  obtain ⟨members, shape⟩ : ∃ members, e.toJson referenceSerde = .obj members := ⟨_, rfl⟩
  refine ⟨members, shape, ?_⟩
  have plain : (Json.obj members).Plain false deepest := shape ▸ e.toJson_plain referenceSerde
  have backwards : (Json.obj members.reverse).Plain false deepest := by
    cases plain with
    | obj all => exact .obj fun member here => all member (List.mem_reverse.mp here)
  have distinct : (members.map Prod.fst).Nodup := by
    rw [← Json.obj.inj shape]
    simp [e, JsonlFile.sampleExchange, Labels.empty]
  have loaded := loadLines_written referenceSerde_lawful [e] 0
  simp only [List.flatMap_cons, List.flatMap_nil, List.append_nil, List.map_cons, List.map_nil, jsonlLine, shape] at loaded
  refine reordered_file_loads referenceSerde_lawful ?_ loaded
  rw [(written_line referenceSerde_lawful plain).1, (written_line referenceSerde_lawful backwards).1]
  refine .cons (Or.inr ⟨_, _, _, _, (written_line referenceSerde_lawful plain).2,
    (written_line referenceSerde_lawful backwards).2, referenceSerde_lawful.parse_render _ plain,
    referenceSerde_lawful.parse_render _ backwards, .members distinct ?_⟩) .nil
  exact (List.reverse_perm members).symm

end Exchanges

end PartlyProxy
