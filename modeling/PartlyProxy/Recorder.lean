import PartlyProxy.Storage
import Mathlib.Logic.Function.Basic

namespace PartlyProxy

structure RecordingConfig where
  enabled : Bool
  maxInMemory : Nat
deriving DecidableEq, Repr

namespace RecordingConfig

def default : RecordingConfig := ⟨true, 10000⟩
def disabled : RecordingConfig := { default with enabled := false }
def inMemory (maxInMemory : Nat) : RecordingConfig := ⟨true, maxInMemory⟩

end RecordingConfig

/-- `RecorderInner` without its state: the configuration and the routing map
from upstream names to attached media. -/
structure Recorder where
  config : RecordingConfig
  routes : String → Option Nat

structure RecorderState (σ : Type) where
  buffer : List RecordedExchange
  media : Nat → σ

/-- The eviction loop of `record`: drop the oldest while the ring is full. -/
def makeRoom (cap : Nat) : List RecordedExchange → List RecordedExchange
  | [] => []
  | oldest :: rest => if cap ≤ rest.length + 1 then makeRoom cap rest else oldest :: rest

/-- The in-memory half of `record`. A cap of zero keeps nothing. -/
def pushRing (cap : Nat) (buffer : List RecordedExchange) (exchange : RecordedExchange) :
    List RecordedExchange :=
  if cap = 0 then buffer else makeRoom cap buffer ++ [exchange]

theorem makeRoom_eq_drop (cap : Nat) (buffer : List RecordedExchange) :
    makeRoom cap buffer = buffer.drop (buffer.length + 1 - cap) := by
  induction buffer with
  | nil => rw [makeRoom, List.drop_nil]
  | cons oldest rest ih =>
    rw [makeRoom, List.length_cons]
    split
    · rw [ih, show rest.length + 1 + 1 - cap = (rest.length + 1 - cap) + 1 by omega, List.drop_succ_cons]
    · rw [show rest.length + 1 + 1 - cap = 0 by omega, List.drop_zero]

/-- A ring that holds the last `cap` of `log` holds the last `cap` of the longer
log after a push. -/
theorem pushRing_window {cap : Nat} (positive : cap ≠ 0) (log : List RecordedExchange) (exchange : RecordedExchange) :
    pushRing cap (log.drop (log.length - cap)) exchange =
      (log ++ [exchange]).drop ((log ++ [exchange]).length - cap) := by
  rw [pushRing, if_neg positive, makeRoom_eq_drop, List.drop_drop, List.length_drop, List.length_append,
    List.length_singleton, List.drop_append_of_le_length (by omega)]
  congr 2
  omega

theorem pushRing_suffix {cap : Nat} (positive : cap ≠ 0) (buffer : List RecordedExchange) (exchange : RecordedExchange) :
    pushRing cap buffer exchange <:+ buffer ++ [exchange] := by
  rw [pushRing, if_neg positive, makeRoom_eq_drop]
  obtain ⟨dropped, whole⟩ := List.drop_suffix (buffer.length + 1 - cap) buffer
  exact ⟨dropped, by rw [← List.append_assoc, whole]⟩

namespace Recorder
variable {σ : Type}

def medium (rec : Recorder) (exchange : RecordedExchange) : Option Nat :=
  exchange.upstream.bind rec.routes

/-- `Recorder::record`. The durable append comes first; when it fails the ring
is not touched. -/
def record (storage : SnapshotStorage σ) (rec : Recorder) (state : RecorderState σ)
    (exchange : RecordedExchange) : Except ProxyError Unit × RecorderState σ :=
  if rec.config.enabled = false then (.ok (), state)
  else
    match rec.medium exchange with
    | some m =>
      let written := storage.append (state.media m) exchange
      let media := Function.update state.media m written.2
      match written.1 with
      | .error err => (.error err, { state with media := media })
      | .ok () => (.ok (), ⟨pushRing rec.config.maxInMemory state.buffer exchange, media⟩)
    -- Without an attached medium the exchange lives in the ring only.
    | none => (.ok (), { state with buffer := pushRing rec.config.maxInMemory state.buffer exchange })

theorem record_media {storage : SnapshotStorage σ} {rec : Recorder} (on : rec.config.enabled = true)
    {exchange : RecordedExchange} {m : Nat} (routed : rec.medium exchange = some m) (state : RecorderState σ) :
    (rec.record storage state exchange).2.media =
      Function.update state.media m (storage.append (state.media m) exchange).2 := by
  simp only [record, on, routed, Bool.true_eq_false, if_false]
  split <;> rfl

/-- Whether `record` returns `Ok` decides whether the exchange is pushed. -/
theorem record_buffer_eq (storage : SnapshotStorage σ) {rec : Recorder} (on : rec.config.enabled = true)
    (state : RecorderState σ) (exchange : RecordedExchange) :
    (rec.record storage state exchange).2.buffer =
      match (rec.record storage state exchange).1 with
      | .ok () => pushRing rec.config.maxInMemory state.buffer exchange
      | .error _ => state.buffer := by
  simp only [record, on, Bool.true_eq_false, if_false]
  cases rec.medium exchange with
  | none => rfl
  | some m =>
    dsimp only
    cases (storage.append (state.media m) exchange).1 <;> rfl

/-- A call of `record` writes to the medium of its exchange and to no other. -/
theorem record_media_of_ne {storage : SnapshotStorage σ} {rec : Recorder} {exchange : RecordedExchange} {m : Nat}
    (other : rec.medium exchange ≠ some m) (state : RecorderState σ) :
    (rec.record storage state exchange).2.media m = state.media m := by
  cases on : rec.config.enabled with
  | false => simp [record, on]
  | true =>
    cases routed : rec.medium exchange with
    | none => simp [record, on, routed]
    | some m' =>
      have apart : m ≠ m' := by
        rintro rfl
        exact other routed
      rw [record_media on routed, Function.update_of_ne apart]

/-- What it writes there depends on that medium only. -/
theorem record_media_congr {storage : SnapshotStorage σ} {rec : Recorder} {m : Nat} {state state' : RecorderState σ}
    (same : state.media m = state'.media m) (exchange : RecordedExchange) :
    (rec.record storage state exchange).2.media m = (rec.record storage state' exchange).2.media m := by
  by_cases other : rec.medium exchange ≠ some m
  · rw [record_media_of_ne other, record_media_of_ne other, same]
  · have routed : rec.medium exchange = some m := not_not.mp other
    cases on : rec.config.enabled with
    | false => simpa [record, on] using same
    | true => rw [record_media on routed, record_media on routed, Function.update_self, Function.update_self, same]

end Recorder

end PartlyProxy
