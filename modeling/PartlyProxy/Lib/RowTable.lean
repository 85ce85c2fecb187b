import Mathlib.Data.List.Basic
import Mathlib.Data.List.Infix
import Mathlib.Data.List.Range

/-- A table whose rows are kept under increasing row ids. `last` is the greatest id that
was ever given. -/
structure RowTable (α : Type*) where
  rows : Nat → Option α
  last : Nat
  bounded : ∀ id, last < id → rows id = none

namespace RowTable
variable {α β : Type*}

def empty : RowTable α := ⟨fun _ => none, 0, fun _ _ => rfl⟩

/-- A new row gets the id after the last one. After `limit` there is none. -/
def insert (limit : Nat) (t : RowTable α) (a : α) : Option (RowTable α) :=
  if t.last < limit then
    some
      { rows := fun id => if id = t.last + 1 then some a else t.rows id
        last := t.last + 1
        bounded := fun id above => by
          rw [if_neg (by omega)]
          exact t.bounded id (by omega) }
  else none

/-- All rows in the order of their ids. -/
def select (t : RowTable α) : List (Nat × α) :=
  (List.range (t.last + 1)).filterMap fun id => (t.rows id).map fun a => (id, a)

@[simp] theorem select_empty : (empty : RowTable α).select = [] := rfl

theorem select_increasing (t : RowTable α) : (t.select.map Prod.fst).Pairwise (· < ·) := by
  have ids : t.select.map Prod.fst = (List.range (t.last + 1)).filter fun id => (t.rows id).isSome := by
    rw [select, List.map_filterMap, ← List.filterMap_eq_filter]
    congr 1
    funext id
    cases here : t.rows id <;> simp [Option.guard, here]
  rw [ids]
  exact (List.pairwise_lt_range).filter _

theorem insert_eq_some {limit : Nat} {t t' : RowTable α} {a : α} (inserted : t.insert limit a = some t') :
    t'.last = t.last + 1 ∧ t.last < limit ∧ t'.select = t.select ++ [(t.last + 1, a)] := by
  unfold insert at inserted
  split at inserted
  · rename_i room
    cases inserted
    refine ⟨rfl, room, ?_⟩
    have before : (List.range (t.last + 1)).filterMap
        (fun id => (if id = t.last + 1 then some a else t.rows id).map fun a => (id, a)) = t.select := by
      refine List.filterMap_congr fun id inRange => ?_
      rw [if_neg (by have := List.mem_range.mp inRange; omega)]
    simp only [select]
    rw [List.range_succ, List.filterMap_append, before, select]
    simp
  · cases inserted

theorem insert_eq_none {limit : Nat} {t : RowTable α} {a : α} : t.insert limit a = none ↔ limit ≤ t.last := by
  unfold insert
  split
  · simp only [reduceCtorEq, false_iff]
    omega
  · simp only [true_iff]
    omega

end RowTable
