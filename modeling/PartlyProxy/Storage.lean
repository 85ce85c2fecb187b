import PartlyProxy.Recorded
import PartlyProxy.Error

namespace PartlyProxy

/-- `SnapshotStorage` over a medium with state `σ`. A failed append may still
have changed the medium. `load` is the drained stream. -/
structure SnapshotStorage (σ : Type) where
  append : σ → RecordedExchange → Except ProxyError Unit × σ
  load : σ → Except ProxyError (List RecordedExchange)

/-- Two exchanges that replay alike: only id, clock data, upstream and labels may differ. -/
def RecordedExchange.SameReplay (a b : RecordedExchange) : Prop :=
  a.request = b.request ∧ a.outcome = b.outcome

/-- A medium that keeps what it accepted, in order: `Holds s log` says that the
medium in state `s` carries `log`. An append that returns `Ok` adds the exchange
(up to what replay ignores), one that returns `Err` adds nothing. -/
structure SnapshotStorage.Lawful {σ : Type} (storage : SnapshotStorage σ) where
  Holds : σ → List RecordedExchange → Prop
  load_eq : ∀ {s log}, Holds s log → storage.load s = .ok log
  append_ok : ∀ {s log e}, Holds s log → (storage.append s e).1 = .ok () →
    ∃ e', e.SameReplay e' ∧ Holds (storage.append s e).2 (log ++ [e'])
  append_error : ∀ {s log e err}, Holds s log → (storage.append s e).1 = .error err →
    Holds (storage.append s e).2 log

def inMemoryStorage : SnapshotStorage (List RecordedExchange) where
  append exchanges exchange := (.ok (), exchanges ++ [exchange])
  load exchanges := .ok exchanges

def inMemoryStorage_lawful : inMemoryStorage.Lawful where
  Holds s log := s = log
  load_eq held := by rw [← held]; rfl
  append_ok := by
    rintro s log e rfl _
    exact ⟨e, ⟨rfl, rfl⟩, rfl⟩
  append_error := by
    intro s log e err _ failed
    cases failed

/-- A medium whose `append` fails on a chosen set of calls, counted from zero. -/
def flakyStorage (refuses : Nat → Bool) : SnapshotStorage (List RecordedExchange × Nat) where
  append s exchange :=
    if refuses s.2 then (.error (.recording "append refused"), (s.1, s.2 + 1))
    else (.ok (), (s.1 ++ [exchange], s.2 + 1))
  load s := .ok s.1

def flakyStorage_lawful (refuses : Nat → Bool) : (flakyStorage refuses).Lawful where
  Holds s log := s.1 = log
  load_eq held := by rw [← held]; rfl
  append_ok := by
    rintro s log e rfl accepted
    simp only [flakyStorage] at accepted ⊢
    split at accepted
    · cases accepted
    · rename_i accepts
      exact ⟨e, ⟨rfl, rfl⟩, by rw [if_neg accepts]⟩
  append_error := by
    rintro s log e err rfl failed
    simp only [flakyStorage] at failed ⊢
    split at failed
    · rename_i refused
      rw [if_pos refused]
    · cases failed

end PartlyProxy
