import PartlyProxy.Interleaving
import PartlyProxy.Sequential

namespace PartlyProxy
variable {deps : Deps} {σ : Type}

@[simp] theorem insertPromoted_recorder (promoted : Option RecordedExchange) (s : Shared deps σ) :
    (insertPromoted promoted s).recorder = s.recorder := by
  cases promoted <;> rfl

section Advance
variable (storage : SnapshotStorage σ) (rt : UpstreamRuntime) (a : Arrival) (s : Shared deps σ)

/-- The recorder and the index are written to when the chain has ended, not before. -/
theorem advance_early {p : Phase} (running : ∀ outcome source, p ≠ .ended outcome source)
    (unrecorded : ∀ outcome source e, p ≠ .recording outcome source e) :
    (advance storage rt a s p).2.recorder = s.recorder ∧ (advance storage rt a s p).2.replay = s.replay := by
  cases p with
  | arrived =>
    simp only [advance]
    repeat' split
    all_goals exact ⟨rfl, rfl⟩
  | scanning req ctx resume =>
    simp only [advance]
    split <;> exact ⟨rfl, rfl⟩
  | lookingUp req ctx resume =>
    simp only [advance]
    split
    · exact ⟨rfl, rfl⟩
    · split <;> exact ⟨rfl, rfl⟩
  | forwarding req ctx resume => exact ⟨rfl, rfl⟩
  | ended outcome source => exact (running outcome source rfl).elim
  | recording outcome source exchange => exact (unrecorded outcome source exchange rfl).elim
  | done outcome source => exact ⟨rfl, rfl⟩

/-- Only the record step writes to the recorder. -/
theorem advance_recorder (p : Phase) :
    (advance storage rt a s p).2.recorder =
      match p with
      | .recording _ _ exchange => (rt.recorder.record storage s.recorder exchange).2
      | _ => s.recorder := by
  cases p with
  | ended outcome source => simp only [advance]; split <;> simp
  | recording outcome source exchange => rfl
  | arrived | scanning | lookingUp | forwarding | done => exact (advance_early storage rt a s (by simp) (by simp)).1

theorem advance_replay (p : Phase) :
    (advance storage rt a s p).2.replay =
      match p with
      | .ended outcome source => (insertPromoted (promoted deps rt a.stamp a.original outcome source) s).replay
      | _ => s.replay := by
  cases p with
  | ended outcome source =>
    simp only [advance]
    split
    · rename_i nothing
      cases promotion : promoted deps rt a.stamp a.original outcome source with
      | none => rfl
      | some e => rw [(promoted_offered promotion).1] at nothing; cases nothing
    · rfl
  | recording outcome source exchange => rfl
  | arrived | scanning | lookingUp | forwarding | done => exact (advance_early storage rt a s (by simp) (by simp)).2

/-- The recording and the end of the handling are reached from the ended chain only. -/
theorem advance_late_cases (p : Phase) :
    ((∀ outcome source e, (advance storage rt a s p).1 ≠ .recording outcome source e) ∧
      ∀ outcome source, (advance storage rt a s p).1 ≠ .done outcome source) ∨
    ∃ outcome source,
      (p = .ended outcome source ∧ offered deps rt a.stamp a.original outcome source = none ∧
        (advance storage rt a s p).1 = .done outcome source) ∨
      (∃ e, p = .ended outcome source ∧ offered deps rt a.stamp a.original outcome source = some e ∧
        (advance storage rt a s p).1 = .recording outcome source e) ∨
      ((p = .done outcome source ∨ ∃ e, p = .recording outcome source e) ∧
        (advance storage rt a s p).1 = .done outcome source) := by
  cases p with
  | arrived =>
    left
    simp only [advance]
    split
    · simp
    · split <;> simp
  | scanning req ctx resume =>
    left
    simp only [advance]
    split <;> simp [Phase.resumed]
  | lookingUp req ctx resume =>
    left
    simp only [advance]
    split
    · simp [Phase.resumed]
    · split <;> simp [Phase.resumed]
  | forwarding req ctx resume => exact Or.inl (by simp [advance, Phase.resumed])
  | ended outcome source =>
    refine Or.inr ⟨outcome, source, ?_⟩
    cases offer : offered deps rt a.stamp a.original outcome source with
    | none => exact Or.inl ⟨rfl, rfl, by simp [advance, offer]⟩
    | some e => exact Or.inr (Or.inl ⟨e, rfl, rfl, by simp [advance, offer]⟩)
  | recording outcome source e => exact Or.inr ⟨outcome, source, Or.inr (Or.inr ⟨Or.inr ⟨e, rfl⟩, rfl⟩)⟩
  | done outcome source => exact Or.inr ⟨outcome, source, Or.inr (Or.inr ⟨Or.inl rfl, rfl⟩)⟩

theorem advance_eq_recording {p : Phase} {outcome : Outcome} {source : Option ResponseSource} {e : RecordedExchange}
    (next : (advance storage rt a s p).1 = .recording outcome source e) :
    p = .ended outcome source ∧ offered deps rt a.stamp a.original outcome source = some e := by
  rcases advance_late_cases storage rt a s p with ⟨early, _⟩ |
    ⟨_, _, ⟨_, _, done⟩ | ⟨_, was, offer, here⟩ | ⟨_, done⟩⟩
  · exact (early outcome source e next).elim
  · simp [done] at next
  · rw [here] at next
    cases next
    exact ⟨was, offer⟩
  · simp [done] at next

end Advance

section LiveStep
variable (storage : SnapshotStorage σ) (rt : UpstreamRuntime) (arrivals : Nat → Arrival)

theorem liveStep_phase_other (l : Live deps σ) {i j : Nat} (other : j ≠ i) :
    (liveStep storage rt arrivals l (.handler i)).phase j = l.phase j := Function.update_of_ne other ..

theorem liveStep_phase (l : Live deps σ) (move : Move) (j : Nat) :
    (liveStep storage rt arrivals l move).phase j = l.phase j ∨
    (move = .handler j ∧ (liveStep storage rt arrivals l move).phase j =
      (advance storage rt (arrivals j) l.shared (l.phase j)).1) := by
  cases move with
  | handler i =>
    by_cases same : j = i
    · subst same
      exact Or.inr ⟨rfl, Function.update_self ..⟩
    · exact Or.inl (liveStep_phase_other storage rt arrivals l same)
  | stub entry => exact Or.inl rfl
  | clearStubs => exact Or.inl rfl

theorem liveStep_done {l : Live deps σ} {i : Nat} {outcome : Outcome} {source : Option ResponseSource}
    (finished : l.phase i = .done outcome source) (move : Move) :
    (liveStep storage rt arrivals l move).phase i = .done outcome source := by
  rcases liveStep_phase storage rt arrivals l move i with same | ⟨_, next⟩
  · rw [same, finished]
  · rw [next, finished, advance]

end LiveStep

/-- What stands on the medium behind the exchanges it had at the start: one entry
for each of some finished handlers, in the order of their record steps, and each
entry is what the end of that handler's chain offered. -/
structure Ledger {storage : SnapshotStorage σ} (law : storage.Lawful) (rt : UpstreamRuntime) (m : Nat)
    (arrivals : Nat → Arrival) (log : List RecordedExchange) (l : Live deps σ)
    (added : List (Nat × RecordedExchange)) : Prop where
  held : law.Holds (l.shared.recorder.media m) (log ++ added.map Prod.snd)
  owners : (added.map Prod.fst).Nodup
  finished : ∀ entry ∈ added, ∃ outcome source e, l.phase entry.1 = .done outcome source ∧
    offered deps rt (arrivals entry.1).stamp (arrivals entry.1).original outcome source = some e ∧ e.SameReplay entry.2
  pending : ∀ i outcome source e, l.phase i = .recording outcome source e →
    offered deps rt (arrivals i).stamp (arrivals i).original outcome source = some e

/-- The exchange is on record for a finished request whose response was marked `Upstream`. -/
def RecordOf (rt : UpstreamRuntime) (arrivals : Nat → Arrival) (l : Live deps σ) (i : Nat)
    (e : RecordedExchange) : Prop :=
  ∃ resp, l.phase i = .done (.ok resp) (some .upstream) ∧
    (successExchange deps rt (arrivals i).stamp (arrivals i).original resp).SameReplay e

def RecordsAs (storage : SnapshotStorage σ) (m : Nat) (l : Live deps σ) (move : Move) (i : Nat)
    (e' : RecordedExchange) : Prop :=
  ∃ outcome source e, move = .handler i ∧ l.phase i = .recording outcome source e ∧
    (storage.append (l.shared.recorder.media m) e).1 = .ok () ∧ e.SameReplay e'

section LedgerRun
variable {storage : SnapshotStorage σ} {law : storage.Lawful} {rt : UpstreamRuntime} {m : Nat}
  {arrivals : Nat → Arrival} {log : List RecordedExchange} {l : Live deps σ} {added : List (Nat × RecordedExchange)}

theorem RecordOf.step {i : Nat} {e : RecordedExchange} (record : RecordOf rt arrivals l i e) (move : Move) :
    RecordOf rt arrivals (liveStep storage rt arrivals l move) i e := by
  obtain ⟨resp, finished, same⟩ := record
  exact ⟨resp, liveStep_done storage rt arrivals finished move, same⟩

theorem ledger_start {s : Shared deps σ} (held : law.Holds (s.recorder.media m) log) :
    Ledger law rt m arrivals log (.start s) [] where
  held := by simpa [Live.start] using held
  owners := by simp
  finished := by simp
  pending := by
    intro i outcome source e at_
    cases at_

theorem Ledger.pending_step (ledger : Ledger law rt m arrivals log l added) (move : Move) (i : Nat)
    (outcome : Outcome) (source : Option ResponseSource) (e : RecordedExchange)
    (next : (liveStep storage rt arrivals l move).phase i = .recording outcome source e) :
    offered deps rt (arrivals i).stamp (arrivals i).original outcome source = some e := by
  rcases liveStep_phase storage rt arrivals l move i with same | ⟨_, advanced⟩
  · exact ledger.pending i outcome source e (same ▸ next)
  · exact (advance_eq_recording storage rt (arrivals i) l.shared (advanced ▸ next)).2

theorem Ledger.finished_step (ledger : Ledger law rt m arrivals log l added) (move : Move) :
    ∀ entry ∈ added, ∃ outcome source e, (liveStep storage rt arrivals l move).phase entry.1 = .done outcome source ∧
      offered deps rt (arrivals entry.1).stamp (arrivals entry.1).original outcome source = some e ∧
      e.SameReplay entry.2 := by
  intro entry member
  obtain ⟨outcome, source, e, finished, rest⟩ := ledger.finished entry member
  exact ⟨outcome, source, e, liveStep_done storage rt arrivals finished move, rest⟩

theorem Ledger.grow (ledger : Ledger law rt m arrivals log l added) {i : Nat} {outcome : Outcome}
    {source : Option ResponseSource} {e e' : RecordedExchange} (at_ : l.phase i = .recording outcome source e)
    (same : e.SameReplay e')
    (grown : law.Holds ((liveStep storage rt arrivals l (.handler i)).shared.recorder.media m)
      (log ++ added.map Prod.snd ++ [e'])) :
    Ledger law rt m arrivals log (liveStep storage rt arrivals l (.handler i)) (added ++ [(i, e')]) := by
  have isDone : (liveStep storage rt arrivals l (.handler i)).phase i = .done outcome source := by
    simp [liveStep, at_, advance]
  refine ⟨by simpa using grown, ?_, ?_, ledger.pending_step _⟩
  -- A finished handler never records again, so the new owner is none of the old ones.
  · rw [List.map_append, List.nodup_append]
    refine ⟨ledger.owners, by simp, ?_⟩
    intro owner old other new clash
    obtain ⟨entry, member, isOwner⟩ := List.mem_map.mp old
    obtain ⟨_, _, _, finished, _⟩ := ledger.finished entry member
    have isI : other = i := by simpa using new
    rw [isOwner, clash, isI, at_] at finished
    cases finished
  · intro entry member
    rcases List.mem_append.mp member with old | new
    · exact ledger.finished_step _ entry old
    · rw [List.mem_singleton.mp new]
      exact ⟨outcome, source, e, isDone, ledger.pending i outcome source e at_, same⟩

/-- One move: the medium is as it was and nothing was accepted, or it has one more
entry, whose owner is the handler that just recorded. -/
theorem Ledger.step (ledger : Ledger law rt m arrivals log l added) (routed : rt.recorder.routes rt.name = some m)
    (move : Move) :
    ((∀ i e', ¬ RecordsAs storage m l move i e') ∧
      Ledger law rt m arrivals log (liveStep storage rt arrivals l move) added) ∨
    ∃ i e', RecordsAs storage m l move i e' ∧
      Ledger law rt m arrivals log (liveStep storage rt arrivals l move) (added ++ [(i, e')]) := by
  have keep (same : law.Holds ((liveStep storage rt arrivals l move).shared.recorder.media m)
      (log ++ added.map Prod.snd)) : Ledger law rt m arrivals log (liveStep storage rt arrivals l move) added :=
    ⟨same, ledger.owners, ledger.finished_step move, ledger.pending_step move⟩
  cases move with
  | stub entry => exact Or.inl ⟨fun _ _ ⟨_, _, _, other, _⟩ => (nomatch other), keep ledger.held⟩
  | clearStubs => exact Or.inl ⟨fun _ _ ⟨_, _, _, other, _⟩ => (nomatch other), keep ledger.held⟩
  | handler i =>
    have recorder := advance_recorder storage rt (arrivals i) l.shared (l.phase i)
    cases at_ : l.phase i with
    | recording outcome source e =>
      have offer := ledger.pending i outcome source e at_
      have medium : rt.recorder.medium e = some m := by simpa [Recorder.medium, offered_upstream offer] using routed
      have written := record_holds law (offered_enabled offer) medium ledger.held
      simp only [at_] at recorder
      cases accepted : (storage.append (l.shared.recorder.media m) e).1 with
      | error err =>
        rw [accepted] at written
        refine Or.inl ⟨?_, keep ?_⟩
        · rintro j e' ⟨_, _, _, same, at_', accepted', _⟩
          cases same
          rw [at_] at at_'
          cases at_'
          rw [accepted] at accepted'
          cases accepted'
        · simp only [liveStep, at_, recorder]
          exact written
      | ok done =>
        rw [accepted] at written
        obtain ⟨e', same, grown⟩ := written
        refine Or.inr ⟨i, e', ⟨outcome, source, e, rfl, at_, accepted, same⟩, ledger.grow at_ same ?_⟩
        simp only [liveStep, at_, recorder]
        exact grown
    | _ =>
      simp only [at_] at recorder
      refine Or.inl ⟨?_, keep ?_⟩
      · rintro j e' ⟨_, _, _, same, at_', _, _⟩
        cases same
        rw [at_] at at_'
        cases at_'
      · simp only [liveStep, at_, recorder]
        exact ledger.held

/-- Every interleaving keeps such a ledger. -/
theorem ledger_interleave (law : storage.Lawful) (routed : rt.recorder.routes rt.name = some m) {s : Shared deps σ}
    (held : law.Holds (s.recorder.media m) log) (moves : List Move) :
    ∃ added, Ledger law rt m arrivals log (interleave storage rt arrivals (.start s) moves) added := by
  refine Execution.exec_invariant (liveStep storage rt arrivals)
    (I := fun l => ∃ added, Ledger law rt m arrivals log l added) ?_ ⟨[], ledger_start held⟩ moves
  rintro l move ⟨added, ledger⟩
  rcases ledger.step routed move with ⟨_, kept⟩ | ⟨i, e', _, grown⟩
  · exact ⟨added, kept⟩
  · exact ⟨added ++ [(i, e')], grown⟩

end LedgerRun

end PartlyProxy
