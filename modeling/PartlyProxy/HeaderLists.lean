import PartlyProxy.Replay
import PartlyProxy.Stub
import PartlyProxy.Lib.Utf8
import Mathlib.Data.List.Nodup

namespace PartlyProxy

/-- A pair of the list as a header, unless its name or value is invalid. -/
def headerOfPair (pair : String × String) : Option (String × Bytes) :=
  match headerNameFromBytes pair.1, headerValueFromBytes pair.2.toUTF8.toList with
  | some name, some value => some (name, value)
  | _, _ => none

/-- The headers that the valid pairs stand for, in list order. -/
def validHeaders (pairs : List (String × String)) : List (String × Bytes) := pairs.filterMap headerOfPair

namespace HeaderMap

/-- `HeaderMap::get_all`. -/
def getAll (headers : HeaderMap) (name : String) : List Bytes :=
  (headers.entries.filter fun entry => entry.1 = name).map Prod.snd

theorem count_names (entries : List (String × Bytes)) (name : String) :
    (entries.map Prod.fst).count name = (getAll ⟨entries⟩ name).length := by
  rw [List.count_eq_countP, List.countP_map, List.countP_eq_length_filter, getAll, List.length_map]
  congr 2

theorem filter_other {name other : String} (different : other ≠ name) (entries : List (String × Bytes)) :
    ((entries.filter fun entry => entry.1 ≠ name).filter fun entry => entry.1 = other) =
      entries.filter fun entry => entry.1 = other := by
  rw [List.filter_filter]
  refine List.filter_congr fun entry _ => ?_
  by_cases here : entry.1 = other
  · simp [here, different]
  · simp [here]

theorem getAll_insert (headers : HeaderMap) (name other : String) (value : Bytes) :
    (headers.insert name value).getAll other = if other = name then [value] else headers.getAll other := by
  obtain ⟨entries⟩ := headers
  simp only [insert]
  induction entries with
  | nil =>
    by_cases same : other = name
    · simp [insertEntry, getAll, same]
    · simp [insertEntry, getAll, same, Ne.symm same]
  | cons entry rest ih =>
    by_cases same : other = name
    · subst same
      rw [if_pos rfl] at ih ⊢
      by_cases here : entry.1 = other
      · simp [insertEntry, getAll, here]
      · simpa [insertEntry, getAll, here] using ih
    · rw [if_neg same] at ih ⊢
      by_cases here : entry.1 = name
      · have kept := filter_other same rest
        simp only [getAll, insertEntry, if_pos here]
        rw [List.filter_cons_of_neg (by simpa using Ne.symm same),
          List.filter_cons_of_neg (by simpa [here] using Ne.symm same), kept]
      · by_cases wanted : entry.1 = other
        · simpa [insertEntry, getAll, same, wanted] using ih
        · simpa [insertEntry, getAll, here, wanted] using ih

def insertAll (headers : HeaderMap) (entries : List (String × Bytes)) : HeaderMap :=
  entries.foldl (fun map entry => map.insert entry.1 entry.2) headers

/-- Entries under new names are added, and keep their values. -/
theorem getAll_insertAll {headers : HeaderMap} {entries : List (String × Bytes)} (distinct : (entries.map Prod.fst).Nodup)
    (fresh : ∀ entry ∈ entries, headers.getAll entry.1 = []) (name : String) :
    (headers.insertAll entries).getAll name = headers.getAll name ++ getAll ⟨entries⟩ name := by
  induction entries generalizing headers with
  | nil => simp [insertAll, getAll]
  | cons entry rest ih =>
    obtain ⟨new, distinctRest⟩ := List.nodup_cons.mp distinct
    obtain ⟨here, freshRest⟩ := List.forall_mem_cons.mp fresh
    have later : ∀ other ∈ rest, (headers.insert entry.1 entry.2).getAll other.1 = [] := by
      intro other member
      have different : other.1 ≠ entry.1 := fun same => new (same ▸ List.mem_map_of_mem member)
      rw [getAll_insert, if_neg different]
      exact freshRest other member
    have step := ih distinctRest later
    rw [insertAll, List.foldl_cons]
    refine step.trans ?_
    rw [getAll_insert]
    split
    · rename_i same
      subst same
      rw [here]
      simp [getAll]
    · rename_i different
      have notHere : ¬ entry.1 = name := fun same => different same.symm
      simp [getAll, notHere]

theorem length_getAll_insertAll {headers : HeaderMap} {name : String} (single : (headers.getAll name).length ≤ 1)
    (entries : List (String × Bytes)) : ((headers.insertAll entries).getAll name).length ≤ 1 := by
  induction entries generalizing headers with
  | nil => exact single
  | cons entry rest ih =>
    refine ih ?_
    rw [getAll_insert]
    split
    · simp
    · exact single

end HeaderMap

theorem insertPairs_eq (pairs : List (String × String)) : insertPairs pairs = HeaderMap.empty.insertAll (validHeaders pairs) := by
  rw [insertPairs]
  generalize HeaderMap.empty = headers
  induction pairs generalizing headers with
  | nil => rfl
  | cons pair rest ih =>
    rw [List.foldl_cons, ih, validHeaders, validHeaders, List.filterMap_cons, headerOfPair]
    cases headerNameFromBytes pair.1 with
    | none => rfl
    | some name => cases headerValueFromBytes pair.2.toUTF8.toList <;> rfl

/-- Every header of the list has all its values in the map exactly if no two valid
pairs name the same header: an insert replaces what was there. -/
theorem getAll_insertPairs_iff (pairs : List (String × String)) :
    (∀ name, (insertPairs pairs).getAll name = HeaderMap.getAll ⟨validHeaders pairs⟩ name) ↔
      ((validHeaders pairs).map Prod.fst).Nodup := by
  rw [insertPairs_eq]
  generalize validHeaders pairs = entries
  constructor
  · intro kept
    rw [List.nodup_iff_count_le_one]
    intro name
    have none : HeaderMap.empty.getAll name = [] := rfl
    have single := HeaderMap.length_getAll_insertAll (by rw [none]; exact Nat.zero_le 1) entries
    rw [kept name] at single
    exact HeaderMap.count_names entries name ▸ single
  · intro distinct name
    rw [HeaderMap.getAll_insertAll distinct (by simp [HeaderMap.getAll, HeaderMap.empty])]
    simp [HeaderMap.getAll, HeaderMap.empty]

theorem visible_lt {b : UInt8} (visible : isVisibleAscii b = true) : b.toNat < 127 ∧ isHeaderValueByte b = true := by
  simp only [isVisibleAscii, isHeaderValueByte, Bool.or_eq_true, Bool.and_eq_true, decide_eq_true_eq, beq_iff_eq, bne_iff_ne,
    UInt8.le_iff_toNat_le, UInt8.lt_iff_toNat_lt, ← UInt8.toNat_inj, ne_eq, UInt8.reduceToNat] at visible ⊢
  omega

/-- The text of a visible value has the same bytes. -/
theorem bytes_of_visible {value : Bytes} (visible : value.all isVisibleAscii = true) :
    (String.ofList (value.map fun b => Char.ofNat b.toNat)).toUTF8.toList = value := by
  rw [Utf8.bytes_eq, String.toList_ofList]
  induction value with
  | nil => rfl
  | cons b rest ih =>
    rw [List.all_cons, Bool.and_eq_true] at visible
    have small := (visible_lt visible.1).1
    have one := (Utf8.WellFormed.one (b := b) (by omega) rfl).encode
    rw [List.map_cons, List.flatMap_cons, one, ih visible.2]
    rfl

/-- What the types of the `http` crate promise of a header map: its names are header
names, in lower case. -/
def HeaderMap.Named (headers : HeaderMap) : Prop :=
  ∀ entry ∈ headers.entries, headerNameFromBytes entry.1 = some entry.1

def HeaderMap.Visible (headers : HeaderMap) : Prop := ∀ entry ∈ headers.entries, entry.2.all isVisibleAscii = true

/-- A header map of visible values is written as pairs that stand for its entries. -/
theorem validHeaders_headerPairs {headers : HeaderMap} (named : headers.Named) (visible : headers.Visible) :
    validHeaders (headerPairs headers) = headers.entries := by
  rw [validHeaders, headerPairs, List.filterMap_map]
  conv_rhs => rw [← List.filterMap_some (l := headers.entries)]
  refine List.filterMap_congr fun entry member => ?_
  have shown := visible entry member
  have allowed : entry.2.all isHeaderValueByte = true := by
    rw [List.all_eq_true] at shown ⊢
    exact fun b inValue => (visible_lt (shown b inValue)).2
  have value : headerValueFromBytes ((headerValueToStr entry.2).getD "<binary>").toUTF8.toList = some entry.2 := by
    rw [headerValueToStr, if_pos shown, Option.getD_some, bytes_of_visible shown, headerValueFromBytes, if_pos allowed]
  simp only [Function.comp_apply, headerOfPair, named entry member, value]

/-- Both loops over a header list keep every value of every header exactly if no two
valid pairs have the same name but for case, and a recorded header map comes back from
its replay exactly if none of its names has more than one value. -/
theorem header_lists_kept_iff (pairs : List (String × String)) (stubbed : StubbedResponse) (h : HeaderMap) :
    ((∀ name, (buildHeaderMap pairs).getAll name = HeaderMap.getAll ⟨validHeaders pairs⟩ name) ↔
      ((validHeaders pairs).map Prod.fst).Nodup) ∧
    ((∀ name, stubbed.intoProxy.headers.getAll name = HeaderMap.getAll ⟨validHeaders stubbed.headers⟩ name) ↔
      ((validHeaders stubbed.headers).map Prod.fst).Nodup) ∧
    (h.Named → h.Visible →
      ((∀ name, (buildHeaderMap (headerPairs h)).getAll name = h.getAll name) ↔ (h.entries.map Prod.fst).Nodup)) := by
  refine ⟨getAll_insertPairs_iff pairs, getAll_insertPairs_iff stubbed.headers, fun named visible => ?_⟩
  have kept := getAll_insertPairs_iff (headerPairs h)
  rw [validHeaders_headerPairs named visible] at kept
  exact kept

theorem header_lists_kept_iff_two :
    let h : HeaderMap := ⟨[("content-type", [116, 101, 120, 116]), ("x-id", [55])]⟩
    ∀ name, (buildHeaderMap (headerPairs h)).getAll name = h.getAll name := by
  intro h
  have named : h.Named := by unfold HeaderMap.Named; decide
  have visible : h.Visible := by unfold HeaderMap.Visible; decide
  have kept := (header_lists_kept_iff [] ⟨.ok, [], [], none⟩ h).2.2 named visible
  exact kept.mpr (by decide)

/-- Of two cookies that a response sets the replay sets only the second. -/
theorem repeated_header_lost :
    let h : HeaderMap := ⟨[("set-cookie", [97]), ("set-cookie", [98])]⟩
    h.Named ∧ h.Visible ∧ h.getAll "set-cookie" = [[97], [98]] ∧
      (buildHeaderMap (headerPairs h)).getAll "set-cookie" = [[98]] := by
  intro h
  have named : h.Named := by unfold HeaderMap.Named; decide
  have visible : h.Visible := by unfold HeaderMap.Visible; decide
  refine ⟨named, visible, by decide, ?_⟩
  rw [buildHeaderMap, insertPairs_eq, validHeaders_headerPairs named visible]
  decide

end PartlyProxy
