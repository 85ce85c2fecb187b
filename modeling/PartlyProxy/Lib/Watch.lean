import Mathlib.Order.Basic

/-- A channel that keeps its latest value only. Every send takes a new version;
a receiver remembers the version it has seen. -/
structure Watch (α : Type*) where
  value : α
  version : Nat
  closed : Bool

namespace Watch
variable {α : Type*}

def channel (value : α) : Watch α := ⟨value, 0, false⟩

def sendReplace (w : Watch α) (value : α) : Watch α := { w with value := value, version := w.version + 1 }

def subscribe (w : Watch α) : Nat := w.version

def borrow (w : Watch α) : α := w.value

inductive Changed where
  | ok (seen : Nat)
  | closed
  | pending

/-- One poll of `changed` by a receiver that has seen the version `seen`. -/
def changed (w : Watch α) (seen : Nat) : Changed :=
  if seen ≠ w.version then .ok w.version
  else if w.closed then .closed
  else .pending

/-- What a receiver knows of the value: if nothing was sent since the version it
has seen, `known` holds of the current value. -/
structure Fresh (known : α → Prop) (w : Watch α) (seen : Nat) : Prop where
  past : seen ≤ w.version
  known : seen = w.version → known w.value

variable {known : α → Prop} {w : Watch α} {seen : Nat}

/-- However often the value changes, what a receiver knows stays true. -/
theorem Fresh.sendReplace (fresh : w.Fresh known seen) (value : α) : (w.sendReplace value).Fresh known seen := by
  refine ⟨Nat.le_succ_of_le fresh.past, fun same => ?_⟩
  have past := fresh.past
  simp only [Watch.sendReplace] at same
  omega

theorem fresh_borrow (past : seen ≤ w.version) (read : known w.borrow) : w.Fresh known seen :=
  ⟨past, fun _ => read⟩

/-- Whoever knows something that is not true of the current value is woken. -/
theorem Fresh.changed (fresh : w.Fresh known seen) (outdated : ¬ known w.value) : w.changed seen = .ok w.version := by
  rw [Watch.changed, if_pos]
  exact fun same => outdated (fresh.known same)

end Watch
