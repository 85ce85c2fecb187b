import Mathlib.Data.Option.Basic
import Mathlib.Data.List.Basic

namespace KeyedLog
variable {α κ ν : Type*} [DecidableEq κ]

/-- The earliest entry of a log filed under a key. Entries without a key are
never found. -/
def first (key : α → Option κ) (log : List α) (k : κ) : Option α :=
  log.find? fun a => key a = some k

@[simp] theorem first_nil (key : α → Option κ) (k : κ) : first key [] k = none := rfl

theorem first_append (key : α → Option κ) (front back : List α) (k : κ) :
    first key (front ++ back) k = (first key front k).or (first key back k) :=
  List.find?_append

theorem first_singleton (key : α → Option κ) (a : α) (k : κ) :
    first key [a] k = if key a = some k then some a else none := by
  simp only [first, List.find?_cons, List.find?_nil]
  split <;> simp_all

theorem first_key {key : α → Option κ} {log : List α} {k : κ} {a : α}
    (found : first key log k = some a) : key a = some k := by
  simpa using List.find?_some found

theorem first_mem {key : α → Option κ} {log : List α} {k : κ} {a : α}
    (found : first key log k = some a) : a ∈ log :=
  List.mem_of_find?_eq_some found

theorem first_eq_none_iff {key : α → Option κ} {log : List α} {k : κ} :
    first key log k = none ↔ ∀ a ∈ log, key a ≠ some k := by
  simp [first]

theorem first_isSome_of_mem {key : α → Option κ} {log : List α} {k : κ} {a : α}
    (member : a ∈ log) (filed : key a = some k) : (first key log k).isSome := by
  rw [Option.isSome_iff_ne_none, ne_eq, first_eq_none_iff]
  exact fun absent => absent a member filed

/-- Two logs that are related entry by entry have related first entries under each key. -/
theorem first_related {β : Type*} {key : α → Option κ} {key' : β → Option κ} {R : α → β → Prop}
    (sameKey : ∀ a b, R a b → key a = key' b) {log : List α} {log' : List β} (related : List.Forall₂ R log log') (k : κ) :
    Option.Rel R (first key log k) (first key' log' k) := by
  induction related with
  | nil => exact .none
  | @cons a b rest rest' here _ ih =>
    simp only [first, List.find?_cons, sameKey a b here]
    split
    · exact .some here
    · exact ih

omit [DecidableEq κ] in
theorem eq_of_nodup_keys {key : α → Option κ} {log : List α} (distinct : (log.filterMap key).Nodup)
    {a b : α} {k : κ} (inA : a ∈ log) (inB : b ∈ log) (atA : key a = some k) (atB : key b = some k) : a = b := by
  induction log with
  | nil => cases inA
  | cons head rest ih =>
    have fresh (c : α) (member : c ∈ rest) (filed : key c = some k) : key head ≠ some k := by
      intro clash
      rw [List.filterMap_cons_some clash, List.nodup_cons] at distinct
      exact distinct.1 (List.mem_filterMap.mpr ⟨c, member, filed⟩)
    have tail : (rest.filterMap key).Nodup := by
      cases filed : key head with
      | none => rwa [List.filterMap_cons_none filed] at distinct
      | some k' => rw [List.filterMap_cons_some filed, List.nodup_cons] at distinct; exact distinct.2
    rcases List.mem_cons.mp inA with headA | tailA <;> rcases List.mem_cons.mp inB with headB | tailB
    · rw [headA, headB]
    · exact absurd (headA ▸ atA) (fresh b tailB atB)
    · exact absurd (headB ▸ atB) (fresh a tailA atA)
    · exact ih tail tailA tailB

def orInsert (index : κ → Option ν) (k : κ) (v : ν) : κ → Option ν :=
  fun k' => if k' = k then (index k).or (some v) else index k'

/-- The positions of the earliest entries, collected in one pass over the log.
`start` is the position of the head of the remaining list. -/
def indexFrom (key : α → Option κ) : Nat → List α → (κ → Option Nat) → κ → Option Nat
  | _, [], index => index
  | start, a :: rest, index =>
    match key a with
    | none => indexFrom key (start + 1) rest index
    | some k => indexFrom key (start + 1) rest (orInsert index k start)

theorem indexFrom_eq (key : α → Option κ) (start : Nat) (log : List α) (index : κ → Option Nat) (k : κ) :
    indexFrom key start log index k =
      (index k).or ((log.findIdx? fun a => key a = some k).map (· + start)) := by
  induction log generalizing start index with
  | nil => simp [indexFrom]
  | cons a rest ih =>
    simp only [List.findIdx?_cons]
    cases filed : key a with
    | none =>
      simp only [indexFrom, filed, ih, reduceCtorEq, decide_false, Bool.false_eq_true, if_false,
        Option.map_map]
      congr 2
      funext i
      simp only [Function.comp_apply]
      omega
    | some k' =>
      simp only [indexFrom, filed, ih, Option.some.injEq, orInsert]
      by_cases same : k' = k
      · subst k'
        cases index k <;> simp
      · simp only [Ne.symm same, same, if_false, decide_false, Bool.false_eq_true, Option.map_map]
        congr 2
        funext i
        simp only [Function.comp_apply]
        omega

/-- Reading the log at the collected position finds the earliest entry. -/
theorem indexFrom_bind_getElem? (key : α → Option κ) (log : List α) (k : κ) :
    (indexFrom key 0 log (fun _ => none) k).bind (fun i => log[i]?) = first key log k := by
  rw [indexFrom_eq, first, List.find?_eq_bind_findIdx?_getElem?]
  simp only [Option.none_or, Nat.add_zero, Option.map_id']

end KeyedLog
