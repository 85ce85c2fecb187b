import PartlyProxy.Handling

namespace PartlyProxy
variable {deps : Deps} {σ : Type}

abbrev Resume := Outcome → RequestContext → Outcome × RequestContext

/-- Where a request handler stands between two of its steps on shared state. -/
inductive Phase where
  | arrived
  | scanning (req : ProxyRequest) (ctx : RequestContext) (resume : Resume)
  | lookingUp (req : ProxyRequest) (ctx : RequestContext) (resume : Resume)
  | forwarding (req : ProxyRequest) (ctx : RequestContext) (resume : Resume)
  | ended (outcome : Outcome) (source : Option ResponseSource)
  | recording (outcome : Outcome) (source : Option ResponseSource) (exchange : RecordedExchange)
  | done (outcome : Outcome) (source : Option ResponseSource)

def Phase.resumed (resume : Resume) (outcome : Outcome) (ctx : RequestContext) : Phase :=
  .ended (resume outcome ctx).1 (resume outcome ctx).2.responseSource

/-- The next step of a handler. Stub scan, lookup, forward, index insert and
record are one step each; the record step holds the recorder lock throughout. -/
def advance (storage : SnapshotStorage σ) (rt : UpstreamRuntime) (a : Arrival) (s : Shared deps σ) :
    Phase → Phase × Shared deps σ
  | .arrived =>
    match a.inbound.body with
    | .error source => (.ended (.error (bodyReadError source)) none, s)
    | .ok body =>
      match descend rt.middleware (a.inbound.original body) (.new a.contextId) with
      | .ret outcome ctx => (.ended outcome ctx.responseSource, s)
      | .next req ctx resume => (.scanning req ctx resume, s)
  | .scanning req ctx resume =>
    match StubStore.takeMatch s.stubs req with
    | some (response, stubs) => (.resumed resume (.ok response.intoProxy) (ctx.stamp .stub), { s with stubs := stubs })
    | none => (.lookingUp req ctx resume, s)
  | .lookingUp req ctx resume =>
    match s.replay.bind fun source => source.lookup req rt.middleware with
    | some resp => (.resumed resume (.ok resp) (ctx.stamp .snapshot), s)
    | none =>
      match rt.mode with
      | .replay => (.resumed resume (.ok (rt.replayMissHandler req)) (ctx.stamp .replayMiss), s)
      -- The marker is set although nothing has been forwarded yet.
      | .record => (.forwarding req (ctx.stamp .upstream) resume, s)
  | .forwarding req ctx resume =>
    (.resumed resume (forwardCall rt a.net req s).1 ctx, (forwardCall rt a.net req s).2)
  | .ended outcome source =>
    match offered deps rt a.stamp a.original outcome source with
    | none => (.done outcome source, s)
    | some exchange =>
      (.recording outcome source exchange, insertPromoted (promoted deps rt a.stamp a.original outcome source) s)
  | .recording outcome source exchange => (.done outcome source, persistExchange storage rt exchange s)
  | .done outcome source => (.done outcome source, s)

structure Live (deps : Deps) (σ : Type) where
  shared : Shared deps σ
  phase : Nat → Phase

inductive Move where
  | handler (i : Nat)
  | stub (entry : StubEntry)
  | clearStubs

/-- The interleaved system. Handler `i` serves `arrivals i`. -/
def liveStep (storage : SnapshotStorage σ) (rt : UpstreamRuntime) (arrivals : Nat → Arrival) (l : Live deps σ) :
    Move → Live deps σ
  | .handler i =>
    ⟨(advance storage rt (arrivals i) l.shared (l.phase i)).2,
      Function.update l.phase i (advance storage rt (arrivals i) l.shared (l.phase i)).1⟩
  | .stub entry => { l with shared := { l.shared with stubs := StubStore.add l.shared.stubs entry } }
  | .clearStubs => { l with shared := { l.shared with stubs := StubStore.clear l.shared.stubs } }

def Live.start (s : Shared deps σ) : Live deps σ := ⟨s, fun _ => .arrived⟩

def interleave (storage : SnapshotStorage σ) (rt : UpstreamRuntime) (arrivals : Nat → Arrival) (l : Live deps σ)
    (moves : List Move) : Live deps σ := Execution.exec (liveStep storage rt arrivals) l moves

theorem interleave_cons (storage : SnapshotStorage σ) (rt : UpstreamRuntime) (arrivals : Nat → Arrival) (l : Live deps σ)
    (move : Move) (moves : List Move) :
    interleave storage rt arrivals l (move :: moves) =
      interleave storage rt arrivals (liveStep storage rt arrivals l move) moves := rfl

section Solo
variable (storage : SnapshotStorage σ) (rt : UpstreamRuntime)

def solo (a : Arrival) : Nat → Phase × Shared deps σ → Phase × Shared deps σ
  | 0, at_ => at_
  | n + 1, at_ => solo a n (advance storage rt a at_.2 at_.1)

theorem solo_done (a : Arrival) (n : Nat) (outcome : Outcome) (source : Option ResponseSource) (s : Shared deps σ) :
    solo storage rt a n (.done outcome source, s) = (.done outcome source, s) := by
  induction n with
  | zero => rfl
  | succ n ih => simpa only [solo, advance] using ih

theorem solo_ended (a : Arrival) (n : Nat) (outcome : Outcome) (source : Option ResponseSource) (s : Shared deps σ) :
    solo storage rt a (n + 2) (.ended outcome source, s) =
      (.done outcome source, commit storage rt (promoted deps rt a.stamp a.original outcome source)
        (offered deps rt a.stamp a.original outcome source) s) := by
  simp only [solo, advance]
  cases offer : offered deps rt a.stamp a.original outcome source with
  | none =>
    cases promotion : promoted deps rt a.stamp a.original outcome source with
    | none => simp only [solo_done, commit, insertPromoted]
    | some e => rw [(promoted_offered promotion).1] at offer; cases offer
  | some exchange => simp only [solo_done, commit]

/-- At most three steps lead from the terminal call to the end of the chain, and
they do what `invoke` does. -/
theorem solo_scanning (a : Arrival) (n : Nat) (req : ProxyRequest) (ctx : RequestContext) (resume : Resume)
    (s : Shared deps σ) :
    ∃ more, solo storage rt a (n + 3) (.scanning req ctx resume, s) =
      solo storage rt a (n + more) (.resumed resume (invoke rt a.net req ctx s).1.1 (invoke rt a.net req ctx s).1.2,
        (invoke rt a.net req ctx s).2) := by
  cases scan : StubStore.takeMatch s.stubs req with
  | some found => exact ⟨2, by simp only [solo, advance, scan, invoke]⟩
  | none =>
    cases hit : s.replay.bind fun source => source.lookup req rt.middleware with
    | some resp => exact ⟨1, by simp only [solo, advance, scan, hit, invoke, lookupOrMiss]⟩
    | none =>
      cases mode : rt.mode with
      | replay => exact ⟨1, by simp only [solo, advance, scan, hit, mode, invoke, lookupOrMiss]⟩
      | record => exact ⟨0, by simp only [solo, advance, scan, hit, mode, invoke, lookupOrMiss, Nat.add_zero]⟩

/-- The steps of one handler, taken without interruption, are `handle_request`. -/
theorem solo_eq_handleRequest (a : Arrival) (s : Shared deps σ) :
    ∃ outcome source, solo storage rt a 6 (.arrived, s) = (.done outcome source, (handleRequest storage rt a s).2) ∧
      reply outcome = (handleRequest storage rt a s).1 ∧
      outcome = (ending rt a s).outcome ∧ source = (ending rt a s).source := by
  rw [handleRequest_eq]
  refine ⟨(ending rt a s).outcome, (ending rt a s).source, ?_, rfl, rfl, rfl⟩
  simp only [Ending.promoted, Ending.offered]
  rw [← solo_ended storage rt a 3]
  cases read : a.inbound.body with
  | error source => simp only [solo, advance, read, ending]
  | ok body =>
    cases down : descend rt.middleware (a.inbound.original body) (.new a.contextId) with
    | ret outcome ctx => simp only [solo, advance, read, down, ending, chainOutcome, runChain_eq_descend]
    | next req ctx resume =>
      obtain ⟨more, run⟩ := solo_scanning storage rt a 2 req ctx resume s
      have enter : solo storage rt a 6 (.arrived, s) = solo storage rt a 5 (.scanning req ctx resume, s) := by
        rw [solo]
        simp only [advance, read, down]
      rw [enter, run, show 2 + more = more + 2 by omega, Phase.resumed, solo_ended, solo_ended]
      simp only [ending, read, chainOutcome, runChain_eq_descend, down]

theorem interleave_replicate (arrivals : Nat → Arrival) (i n : Nat) (l : Live deps σ) :
    interleave storage rt arrivals l (List.replicate n (.handler i)) =
      ⟨(solo storage rt (arrivals i) n (l.phase i, l.shared)).2,
        Function.update l.phase i (solo storage rt (arrivals i) n (l.phase i, l.shared)).1⟩ := by
  induction n generalizing l with
  | zero => simp [interleave, solo]
  | succ n ih =>
    have next := ih (liveStep storage rt arrivals l (.handler i))
    simp only [interleave, List.replicate_succ, Execution.exec_cons] at next ⊢
    rw [next]
    simp only [liveStep, solo, Function.update_self, Function.update_idem]

theorem interleave_alone (arrivals : Nat → Arrival) {l : Live deps σ} {i : Nat} (atRest : l.phase i = .arrived) :
    interleave storage rt arrivals l (List.replicate 6 (.handler i)) =
      ⟨serveStep storage rt l.shared (arrivals i), Function.update l.phase i
        (.done (ending rt (arrivals i) l.shared).outcome (ending rt (arrivals i) l.shared).source)⟩ := by
  obtain ⟨outcome, source, alone, _, rfl, rfl⟩ := solo_eq_handleRequest storage rt (arrivals i) l.shared
  rw [interleave_replicate, atRest, alone]
  rfl

def inTurn (n : Nat) : List Move := (List.range n).flatMap fun i => List.replicate 6 (.handler i)

/-- Serving requests one after another is one of the interleavings, so what holds
of every interleaving holds of every sequential run. -/
theorem interleave_inTurn (arrivals : Nat → Arrival) (n : Nat) (s : Shared deps σ) :
    (interleave storage rt arrivals (.start s) (inTurn n)).shared = serve storage rt s ((List.range n).map arrivals) ∧
      ∀ i, n ≤ i → (interleave storage rt arrivals (.start s) (inTurn n)).phase i = .arrived := by
  induction n with
  | zero => exact ⟨rfl, fun _ _ => rfl⟩
  | succ n ih =>
    have block : inTurn (n + 1) = inTurn n ++ List.replicate 6 (.handler n) := by
      simp [inTurn, List.range_succ]
    have run : interleave storage rt arrivals (.start s) (inTurn (n + 1)) =
        interleave storage rt arrivals (interleave storage rt arrivals (.start s) (inTurn n))
          (List.replicate 6 (.handler n)) := by
      rw [block]
      exact Execution.exec_append _ _ _ _
    rw [run, interleave_alone storage rt arrivals (ih.2 n (Nat.le_refl n)), ih.1]
    refine ⟨?_, ?_⟩
    · rw [List.range_succ, List.map_append, serve, serve, Execution.exec_append]
      rfl
    · intro i later
      exact (Function.update_of_ne (by omega) _ _).trans (ih.2 i (by omega))

end Solo

end PartlyProxy
