import PartlyProxy.Ledger
import PartlyProxy.Reference
import Mathlib.Data.List.Induction

namespace PartlyProxy
variable {deps : Deps} {σ : Type}

/-- Any number of handlers and no stub command: `schedule` says whose step is next. -/
def race (storage : SnapshotStorage σ) (rt : UpstreamRuntime) (arrivals : Nat → Arrival) (s : Shared deps σ)
    (schedule : List Nat) : Live deps σ := interleave storage rt arrivals (.start s) (schedule.map .handler)

theorem race_snoc (storage : SnapshotStorage σ) (rt : UpstreamRuntime) (arrivals : Nat → Arrival) (s : Shared deps σ)
    (schedule : List Nat) (i : Nat) :
    race storage rt arrivals s (schedule ++ [i]) =
      liveStep storage rt arrivals (race storage rt arrivals s schedule) (.handler i) := by
  simp only [race, List.map_append, List.map_cons, List.map_nil]
  exact Execution.exec_snoc _ _ _ _

theorem race_alone (storage : SnapshotStorage σ) (rt : UpstreamRuntime) (arrivals : Nat → Arrival)
    (s : Shared deps σ) (i : Nat) :
    race storage rt arrivals s (List.replicate 6 i) = ⟨serveStep storage rt s (arrivals i),
      Function.update (fun _ => .arrived) i
        (.done (ending rt (arrivals i) s).outcome (ending rt (arrivals i) s).source)⟩ := by
  rw [race, List.map_replicate, interleave_alone storage rt arrivals rfl]
  rfl

def Phase.rank : Phase → Nat
  | .arrived => 6
  | .scanning .. => 5
  | .lookingUp .. => 4
  | .forwarding .. => 3
  | .ended .. => 2
  | .recording .. => 1
  | .done .. => 0

/-- Whatever the chain does, each step of a handler brings it closer to its end. -/
theorem advance_rank (storage : SnapshotStorage σ) (rt : UpstreamRuntime) (a : Arrival) (s : Shared deps σ) (p : Phase) :
    (advance storage rt a s p).1.rank ≤ p.rank - 1 := by
  cases p with
  | arrived => simp only [advance]; repeat' split
               all_goals simp [Phase.rank]
  | scanning req ctx resume => simp only [advance]; split <;> simp [Phase.rank, Phase.resumed]
  | lookingUp req ctx resume =>
    simp only [advance]
    split
    · simp [Phase.rank, Phase.resumed]
    · split <;> simp [Phase.rank, Phase.resumed]
  | forwarding req ctx resume => simp [advance, Phase.rank, Phase.resumed]
  | ended outcome source => simp only [advance]; split <;> simp [Phase.rank]
  | recording outcome source exchange => simp [advance, Phase.rank]
  | done outcome source => simp [advance, Phase.rank]

theorem race_rank (storage : SnapshotStorage σ) (rt : UpstreamRuntime) (arrivals : Nat → Arrival) (s : Shared deps σ)
    (schedule : List Nat) (i : Nat) :
    ((race storage rt arrivals s schedule).phase i).rank ≤ 6 - schedule.count i := by
  induction schedule using List.reverseRecOn with
  | nil => exact Nat.le_refl 6
  | append_singleton front h ih =>
    rw [race_snoc, List.count_append]
    by_cases same : i = h
    · subst same
      have step := advance_rank storage rt (arrivals i) (race storage rt arrivals s front).shared
        ((race storage rt arrivals s front).phase i)
      simp only [liveStep, Function.update_self, List.count_cons_self, List.count_nil]
      omega
    · rw [liveStep_phase_other storage rt arrivals _ same, List.count_cons_of_ne (Ne.symm same)]
      exact ih

/-- Six of its own steps take any handler to its end, however they are interleaved. -/
theorem race_done (storage : SnapshotStorage σ) (rt : UpstreamRuntime) (arrivals : Nat → Arrival) (s : Shared deps σ)
    {schedule : List Nat} {i : Nat} (enough : 6 ≤ schedule.count i) :
    ∃ outcome source, (race storage rt arrivals s schedule).phase i = .done outcome source := by
  have left := race_rank storage rt arrivals s schedule i
  cases phase : (race storage rt arrivals s schedule).phase i with
  | done outcome source => exact ⟨outcome, source, rfl⟩
  | _ =>
    rw [phase] at left
    simp only [Phase.rank] at left
    omega

theorem race_arrived (storage : SnapshotStorage σ) (rt : UpstreamRuntime) (arrivals : Nat → Arrival) (s : Shared deps σ)
    {schedule : List Nat} {i : Nat} (idle : i ∉ schedule) :
    (race storage rt arrivals s schedule).phase i = .arrived := by
  induction schedule using List.reverseRecOn with
  | nil => rfl
  | append_singleton front h ih =>
    rw [List.mem_append, List.mem_singleton, not_or] at idle
    rw [race_snoc, liveStep_phase_other storage rt arrivals _ idle.2, ih idle.1]

def PlainPhase (a : Arrival) : Phase → Prop
  | .scanning req ctx resume | .lookingUp req ctx resume =>
    (∃ body, a.inbound.body = .ok body) ∧ req = a.original ∧ ctx = .new a.contextId ∧ resume = Prod.mk
  | .forwarding req ctx resume =>
    (∃ body, a.inbound.body = .ok body) ∧ req = a.original ∧ ctx = (RequestContext.new a.contextId).stamp .upstream ∧
      resume = Prod.mk
  | .ended (.ok _) source | .done (.ok _) source => source = some .snapshot ∨ source = some .upstream
  | .recording (.ok _) source _ => source = some .upstream
  | _ => True

/-- All that a handler can do under a chain that passes everything through. -/
inductive PlainStep (storage : SnapshotStorage σ) (rt : UpstreamRuntime) (a : Arrival) (source : ReplaySource deps)
    (s : Shared deps σ) : Phase → Phase → Shared deps σ → Prop
  | unreadable {text} : a.inbound.body = .error text →
      PlainStep storage rt a source s .arrived (.ended (.error (bodyReadError text)) none) s
  | enter {body} : a.inbound.body = .ok body →
      PlainStep storage rt a source s .arrived (.scanning a.original (.new a.contextId) Prod.mk) s
  | scan : PlainStep storage rt a source s (.scanning a.original (.new a.contextId) Prod.mk)
      (.lookingUp a.original (.new a.contextId) Prod.mk) s
  | hit {resp} : source.lookup a.original rt.middleware = some resp →
      PlainStep storage rt a source s (.lookingUp a.original (.new a.contextId) Prod.mk)
        (.ended (.ok resp) (some .snapshot)) s
  | miss : source.lookup a.original rt.middleware = none →
      PlainStep storage rt a source s (.lookingUp a.original (.new a.contextId) Prod.mk)
        (.forwarding a.original ((RequestContext.new a.contextId).stamp .upstream) Prod.mk) s
  | forward : PlainStep storage rt a source s
      (.forwarding a.original ((RequestContext.new a.contextId).stamp .upstream) Prod.mk)
      (.ended (rt.forwarder.forward deps a.net a.original) (some .upstream)) (forwardCall rt a.net a.original s).2
  | quiet {resp} :
    PlainStep storage rt a source s (.ended (.ok resp) (some .snapshot)) (.done (.ok resp) (some .snapshot)) s
  | promote {resp} : PlainStep storage rt a source s (.ended (.ok resp) (some .upstream))
      (.recording (.ok resp) (some .upstream) (successExchange deps rt a.stamp a.original resp))
      { s with replay := some (source.insert (successExchange deps rt a.stamp a.original resp)) }
  | fail {err marker} : PlainStep storage rt a source s (.ended (.error err) marker)
      (.recording (.error err) marker (errorExchange deps rt a.stamp a.original err)) s
  | record {outcome marker e} : PlainStep storage rt a source s (.recording outcome marker e) (.done outcome marker)
      (persistExchange storage rt e s)
  | rest {outcome marker} : PlainStep storage rt a source s (.done outcome marker) (.done outcome marker) s

section Steps
variable {storage : SnapshotStorage σ} {rt : UpstreamRuntime} {m : Nat} {a : Arrival} {source : ReplaySource deps}
  {s : Shared deps σ}

variable (storage) in
theorem advance_plain (plain : PlainRecording rt m) (noStubs : s.stubs = []) (attached : s.replay = some source)
    {p : Phase} (phase : PlainPhase a p) :
    PlainStep storage rt a source s p (advance storage rt a s p).1 (advance storage rt a s p).2 := by
  cases p with
  | arrived =>
    cases read : a.inbound.body with
    | error text => simpa only [advance, read] using .unreadable read
    | ok body =>
      have original : a.inbound.original body = a.original := by simp [Arrival.original, read]
      simpa only [advance, read, descend_passThrough plain.pass, original] using .enter read
  | scanning req ctx resume =>
    obtain ⟨_, rfl, rfl, rfl⟩ := phase
    simpa only [advance, noStubs, StubStore.takeMatch_nil] using .scan
  | lookingUp req ctx resume =>
    obtain ⟨_, rfl, rfl, rfl⟩ := phase
    cases found : source.lookup a.original rt.middleware with
    | some resp => simpa only [advance, attached, Option.bind_some, found] using .hit found
    | none => simpa only [advance, attached, Option.bind_some, found, plain.mode] using .miss found
  | forwarding req ctx resume =>
    obtain ⟨_, rfl, rfl, rfl⟩ := phase
    exact .forward
  | ended outcome marker =>
    cases outcome with
    | error err =>
      have offer : offered deps rt a.stamp a.original (.error err) marker =
          some (errorExchange deps rt a.stamp a.original err) := by
        simp [offered, plain.enabled]
      have nothing : promoted deps rt a.stamp a.original (.error err) marker = none := by simp [promoted]
      simpa only [advance, offer, nothing, insertPromoted] using .fail
    | ok resp =>
      rcases phase with rfl | rfl
      · have nothing : offered deps rt a.stamp a.original (.ok resp) (some .snapshot) = none := by simp [offered]
        simpa only [advance, nothing] using .quiet
      · have offer : offered deps rt a.stamp a.original (.ok resp) (some .upstream) =
            some (successExchange deps rt a.stamp a.original resp) := by simp [offered, plain.enabled]
        have promotion : promoted deps rt a.stamp a.original (.ok resp) (some .upstream) =
            some (successExchange deps rt a.stamp a.original resp) := by simp [promoted, plain.enabled]
        simpa only [advance, offer, promotion, insertPromoted, attached, Option.map_some] using .promote
  | recording outcome marker e => exact .record
  | done outcome marker => exact .rest

theorem PlainStep.phase {p p' : Phase} {s' : Shared deps σ} (step : PlainStep storage rt a source s p p' s')
    (phase : PlainPhase a p) : PlainPhase a p' := by
  cases step with
  | unreadable _ => trivial
  | enter read => exact ⟨⟨_, read⟩, rfl, rfl, rfl⟩
  | scan => exact phase
  | hit _ => exact Or.inl rfl
  | miss _ => exact ⟨phase.1, rfl, rfl, rfl⟩
  | forward => cases rt.forwarder.forward deps a.net a.original with
    | error err => trivial
    | ok resp => exact Or.inr rfl
  | quiet => exact Or.inl rfl
  | promote => rfl
  | fail => trivial
  | @record outcome marker e =>
    cases outcome with
    | error err => trivial
    | ok resp => exact Or.inr phase
  | rest => exact phase

theorem PlainStep.stubs {p p' : Phase} {s' : Shared deps σ} (step : PlainStep storage rt a source s p p' s') :
    s'.stubs = s.stubs := by
  cases step <;> rfl

theorem PlainStep.index {p p' : Phase} {s' : Shared deps σ} (step : PlainStep storage rt a source s p p' s')
    (attached : s.replay = some source) :
    ∃ source', s'.replay = some source' ∧ ∀ k e, source.entry k = some e → source'.entry k = some e := by
  cases step with
  | promote => exact ⟨_, rfl, fun k e stored => ReplaySource.entry_insert_of_some stored _⟩
  | _ => exact ⟨source, attached, fun _ _ => id⟩

end Steps

/-- What every state of a race keeps. -/
structure PlainRun (arrivals : Nat → Arrival) (l : Live deps σ) (source : ReplaySource deps) : Prop where
  noStubs : l.shared.stubs = []
  attached : l.shared.replay = some source
  phases : ∀ i, PlainPhase (arrivals i) (l.phase i)

section Runs
variable {storage : SnapshotStorage σ} {rt : UpstreamRuntime} {m : Nat} {arrivals : Nat → Arrival}
  {l : Live deps σ} {source : ReplaySource deps}

variable (storage) in
theorem PlainRun.plainStep (run : PlainRun arrivals l source) (plain : PlainRecording rt m) (i : Nat) :
    PlainStep storage rt (arrivals i) source l.shared (l.phase i)
      ((liveStep storage rt arrivals l (.handler i)).phase i) (liveStep storage rt arrivals l (.handler i)).shared := by
  have step := advance_plain storage plain run.noStubs run.attached (run.phases i)
  simpa only [liveStep, Function.update_self] using step

variable (storage) in
theorem PlainRun.step (run : PlainRun arrivals l source) (plain : PlainRecording rt m) (i : Nat) :
    ∃ source', PlainRun arrivals (liveStep storage rt arrivals l (.handler i)) source' ∧
      ∀ k e, source.entry k = some e → source'.entry k = some e := by
  have step := run.plainStep storage plain i
  obtain ⟨source', attached, grows⟩ := step.index run.attached
  refine ⟨source', ⟨step.stubs.trans run.noStubs, attached, fun j => ?_⟩, grows⟩
  by_cases same : j = i
  · subst same
    exact step.phase (run.phases j)
  · rw [liveStep_phase_other storage rt arrivals l same]
    exact run.phases j

variable (storage arrivals) in
theorem plainRun_race (plain : PlainRecording rt m) {s : Shared deps σ} (noStubs : s.stubs = [])
    (attached : s.replay = some source) (schedule : List Nat) :
    ∃ source', PlainRun arrivals (race storage rt arrivals s schedule) source' := by
  induction schedule using List.reverseRecOn with
  | nil => exact ⟨source, noStubs, attached, fun _ => trivial⟩
  | append_singleton front i ih =>
    obtain ⟨source', run⟩ := ih
    rw [race_snoc]
    exact (run.step storage plain i).imp fun _ => And.left

end Runs

end PartlyProxy
