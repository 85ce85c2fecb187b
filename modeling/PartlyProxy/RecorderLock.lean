import PartlyProxy.Recorder
import PartlyProxy.Lib.Execution
import Mathlib.Data.List.Nodup

namespace PartlyProxy
variable {σ : Type}

/-- Where a `record` call stands between two of its steps. From `holding` to its
push it holds the write lock. -/
inductive RecordPhase where
  | called
  | waiting
  | holding
  | appended
  | notifying
  | returned (result : Except ProxyError Unit)
  | cancelled

def RecordPhase.Critical : RecordPhase → Prop
  | .holding | .appended => True
  | _ => False

/-- The call has pushed its exchange. -/
def RecordPhase.Settled : RecordPhase → Prop
  | .notifying | .returned (.ok ()) => True
  | _ => False

/-- The recorder under any number of concurrent calls. `appends` lists the calls
whose append was accepted, with the medium each went to, and `pushed` the calls
that have pushed since the last `clear`. -/
structure Recording (σ : Type) where
  state : RecorderState σ
  lock : Option Nat
  phase : Nat → RecordPhase
  appends : List (Nat × Nat)
  pushed : List Nat

/-- `left` is the state in which an append leaves the medium, be it accepted,
refused or cut off in the middle. -/
inductive RecordMove (σ : Type) where
  | call (i : Nat)
  | acquire (i : Nat)
  | append (i : Nat) (result : Except ProxyError Unit) (left : σ)
  | push (i : Nat)
  | notify (i : Nat)
  | cancel (i : Nat) (left : σ)
  | clear

def RecordMove.caller : RecordMove σ → Option Nat
  | .call i | .acquire i | .append i _ _ | .push i | .notify i | .cancel i _ => some i
  | .clear => none

namespace Recording

def start (media : Nat → σ) : Recording σ := ⟨⟨[], media⟩, none, fun _ => .called, [], []⟩

def setPhase (r : Recording σ) (i : Nat) (p : RecordPhase) : Recording σ :=
  { r with phase := Function.update r.phase i p }

def unlock (r : Recording σ) : Recording σ := { r with lock := none }

def setMedium (r : Recording σ) (m : Nat) (left : σ) : Recording σ :=
  { r with state := { r.state with media := Function.update r.state.media m left } }

/-- Eviction and push, the release of the lock included. -/
def pushExchange (rec : Recorder) (exchange : Nat → RecordedExchange) (r : Recording σ) (i : Nat) : Recording σ :=
  { r with
    state := { r.state with buffer := pushRing rec.config.maxInMemory r.state.buffer (exchange i) }
    pushed := if rec.config.maxInMemory = 0 then r.pushed else r.pushed ++ [i]
    lock := none
    phase := Function.update r.phase i .notifying }

/-- One step of a call. Call `i` records `exchange i`. A call can be cancelled only
where it awaits: for the lock, and inside the append. A move that is not possible
in the phase of its call changes nothing. -/
def step (rec : Recorder) (exchange : Nat → RecordedExchange) (r : Recording σ) : RecordMove σ → Recording σ
  | .call i =>
    match r.phase i with
    | .called => r.setPhase i (if rec.config.enabled then .waiting else .returned (.ok ()))
    | _ => r
  | .acquire i =>
    match r.phase i, r.lock with
    | .waiting, none => { r with lock := some i, phase := Function.update r.phase i .holding }
    | _, _ => r
  | .append i result left =>
    match r.phase i, rec.medium (exchange i), result with
    | .holding, some m, .ok () =>
      { (r.setMedium m left).setPhase i .appended with appends := r.appends ++ [(i, m)] }
    | .holding, some m, .error err => ((r.setMedium m left).setPhase i (.returned (.error err))).unlock
    | _, _, _ => r
  | .push i =>
    match r.phase i, rec.medium (exchange i) with
    | .appended, _ => r.pushExchange rec exchange i
    | .holding, none => r.pushExchange rec exchange i
    | _, _ => r
  | .notify i =>
    match r.phase i with
    | .notifying => r.setPhase i (.returned (.ok ()))
    | _ => r
  | .cancel i left =>
    match r.phase i, rec.medium (exchange i) with
    | .waiting, _ => r.setPhase i .cancelled
    | .holding, some m => ((r.setMedium m left).setPhase i .cancelled).unlock
    | _, _ => r
  | .clear =>
    match r.lock with
    | none => { r with state := { r.state with buffer := [] }, pushed := [] }
    | some _ => r

def run (rec : Recorder) (exchange : Nat → RecordedExchange) (media : Nat → σ) (moves : List (RecordMove σ)) :
    Recording σ := Execution.exec (step rec exchange) (start media) moves

/-- The steps of one call, taken without interruption, are `Recorder::record`. -/
theorem exec_alone (storage : SnapshotStorage σ) (rec : Recorder) (exchange : Nat → RecordedExchange)
    {r : Recording σ} {i : Nat} (fresh : r.phase i = .called) (free : r.lock = none) (m : Nat)
    (routed : ∀ m', rec.medium (exchange i) = some m' → m' = m) :
    let written := storage.append (r.state.media m) (exchange i)
    let after := Execution.exec (step rec exchange) r
      [.call i, .acquire i, .append i written.1 written.2, .push i, .notify i]
    after.state = (rec.record storage r.state (exchange i)).2 ∧
      after.phase i = .returned (rec.record storage r.state (exchange i)).1 ∧ after.lock = none := by
  intro written after
  cases on : rec.config.enabled with
  | false => simp [after, step, fresh, on, setPhase, Recorder.record, free]
  | true =>
    cases medium : rec.medium (exchange i) with
    | none =>
      simp [after, step, fresh, on, setPhase, Recorder.record, free, medium, pushExchange]
    | some m' =>
      have same := routed m' medium
      subst same
      cases result : written.1 with
      | error err =>
        simp [after, step, fresh, on, setPhase, setMedium, unlock, Recorder.record, free, medium, result, written]
      | ok done =>
        simp [after, step, fresh, on, setPhase, setMedium, Recorder.record, free, medium, result, written, pushExchange]

/-- All that a move can do. -/
inductive Stepped (rec : Recorder) (exchange : Nat → RecordedExchange) (r : Recording σ) :
    RecordMove σ → Recording σ → Prop
  | idle {move} : Stepped rec exchange r move r
  | call {i} : r.phase i = .called →
      Stepped rec exchange r (.call i) (r.setPhase i (if rec.config.enabled then .waiting else .returned (.ok ())))
  | acquire {i} : r.phase i = .waiting → r.lock = none →
      Stepped rec exchange r (.acquire i) { r with lock := some i, phase := Function.update r.phase i .holding }
  | accept {i m left} : r.phase i = .holding → rec.medium (exchange i) = some m →
      Stepped rec exchange r (.append i (.ok ()) left)
        { (r.setMedium m left).setPhase i .appended with appends := r.appends ++ [(i, m)] }
  | refuse {i m err left} : r.phase i = .holding → rec.medium (exchange i) = some m →
      Stepped rec exchange r (.append i (.error err) left)
        ((r.setMedium m left).setPhase i (.returned (.error err))).unlock
  | push {i} : r.phase i = .appended ∨ r.phase i = .holding ∧ rec.medium (exchange i) = none →
      Stepped rec exchange r (.push i) (r.pushExchange rec exchange i)
  | notify {i} : r.phase i = .notifying → Stepped rec exchange r (.notify i) (r.setPhase i (.returned (.ok ())))
  | giveUp {i left} : r.phase i = .waiting → Stepped rec exchange r (.cancel i left) (r.setPhase i .cancelled)
  | cutOff {i m left} : r.phase i = .holding → rec.medium (exchange i) = some m →
      Stepped rec exchange r (.cancel i left) ((r.setMedium m left).setPhase i .cancelled).unlock
  | clear : r.lock = none →
      Stepped rec exchange r .clear { r with state := { r.state with buffer := [] }, pushed := [] }

theorem stepped (rec : Recorder) (exchange : Nat → RecordedExchange) (r : Recording σ) (move : RecordMove σ) :
    Stepped rec exchange r move (r.step rec exchange move) := by
  cases move with
  | call i =>
    simp only [step]
    split
    · exact .call ‹_›
    · exact .idle
  | acquire i =>
    simp only [step]
    split
    · exact .acquire ‹_› ‹_›
    · exact .idle
  | append i result left =>
    simp only [step]
    split
    · exact .accept ‹_› ‹_›
    · exact .refuse ‹_› ‹_›
    · exact .idle
  | push i =>
    simp only [step]
    split
    · exact .push (Or.inl ‹_›)
    · exact .push (Or.inr ⟨‹_›, ‹_›⟩)
    · exact .idle
  | notify i =>
    simp only [step]
    split
    · exact .notify ‹_›
    · exact .idle
  | cancel i left =>
    simp only [step]
    split
    · exact .giveUp ‹_›
    · exact .cutOff ‹_› ‹_›
    · exact .idle
  | clear =>
    simp only [step]
    split
    · exact .clear ‹_›
    · exact .idle

/-- Exactly the call that holds the lock is in its critical section. -/
def Exclusive (r : Recording σ) : Prop := ∀ i, r.lock = some i ↔ (r.phase i).Critical

theorem Exclusive.update {r r' : Recording σ} (exclusive : Exclusive r) {i : Nat} {p : RecordPhase}
    (moved : r'.phase = Function.update r.phase i p) (here : r'.lock = some i ↔ p.Critical)
    (elsewhere : ∀ j, j ≠ i → (r'.lock = some j ↔ r.lock = some j)) : Exclusive r' := by
  intro j
  rw [moved]
  by_cases same : j = i
  · subst same
    rw [Function.update_self]
    exact here
  · rw [Function.update_of_ne same, elsewhere j same]
    exact exclusive j

/-- The lock stays where it is, and the call stays on its side of it. -/
theorem Exclusive.keep {r r' : Recording σ} (exclusive : Exclusive r) {i : Nat} {p q : RecordPhase} (at_ : r.phase i = p)
    (moved : r'.phase = Function.update r.phase i q) (alike : p.Critical ↔ q.Critical) (sameLock : r'.lock = r.lock) :
    Exclusive r' := by
  have here := exclusive i
  rw [at_, alike, ← sameLock] at here
  refine exclusive.update moved here fun j _ => ?_
  rw [sameLock]

/-- The call that holds the lock leaves its critical section with it. -/
theorem Exclusive.release {r r' : Recording σ} (exclusive : Exclusive r) {i : Nat} {p : RecordPhase}
    (inside : (r.phase i).Critical) (moved : r'.phase = Function.update r.phase i p) (outside : ¬ p.Critical)
    (unlocked : r'.lock = none) : Exclusive r' := by
  have held := (exclusive i).mpr inside
  refine exclusive.update moved (by simp [unlocked, outside]) fun j other => ?_
  simp [unlocked, held, Ne.symm other]

section Steps
variable {rec : Recorder} {exchange : Nat → RecordedExchange} {r r' : Recording σ} {move : RecordMove σ}

theorem Exclusive.step (exclusive : Exclusive r) (next : Stepped rec exchange r move r') : Exclusive r' := by
  cases next with
  | idle => exact exclusive
  | call at_ =>
    refine exclusive.keep at_ rfl ?_ rfl
    cases rec.config.enabled <;> exact Iff.rfl
  | acquire at_ free =>
    refine exclusive.update rfl (by simp [RecordPhase.Critical]) fun j other => ?_
    simp [free, Ne.symm other]
  | accept at_ routed => exact exclusive.keep at_ rfl Iff.rfl rfl
  | refuse at_ routed => exact exclusive.release (by rw [at_]; trivial) rfl id rfl
  | @push i at_ =>
    refine exclusive.release (i := i) ?_ rfl id rfl
    rcases at_ with at_ | ⟨at_, _⟩ <;> rw [at_] <;> trivial
  | notify at_ => exact exclusive.keep at_ rfl Iff.rfl rfl
  | giveUp at_ => exact exclusive.keep at_ rfl Iff.rfl rfl
  | cutOff at_ routed => exact exclusive.release (by rw [at_]; trivial) rfl id rfl
  | clear free => exact exclusive

theorem Settled.step {i : Nat} (settled : (r.phase i).Settled) (next : Stepped rec exchange r move r') :
    (r'.phase i).Settled := by
  have moved : ∀ {j : Nat} {p q : RecordPhase}, r.phase j = p → (p.Settled → q.Settled) →
      (Function.update r.phase j q i).Settled := by
    intro j p q at_ onwards
    by_cases same : i = j
    · subst same
      rw [Function.update_self]
      exact onwards (at_ ▸ settled)
    · rwa [Function.update_of_ne same]
  cases next with
  | idle => exact settled
  | call at_ => exact moved at_ False.elim
  | acquire at_ free => exact moved at_ False.elim
  | accept at_ routed => exact moved at_ False.elim
  | refuse at_ routed => exact moved at_ False.elim
  | push at_ => exact moved rfl fun _ => trivial
  | notify at_ => exact moved at_ fun _ => trivial
  | giveUp at_ => exact moved at_ False.elim
  | cutOff at_ routed => exact moved at_ False.elim
  | clear free => exact settled

end Steps

/-- The calls whose exchange the medium accepted, in order. -/
def appendsTo (r : Recording σ) (m : Nat) : List Nat :=
  (r.appends.filter fun entry => entry.2 = m).map Prod.fst

/-- The call whose exchange is on the medium and about to be pushed. -/
def pending (rec : Recorder) (exchange : Nat → RecordedExchange) (r : Recording σ) (m : Nat) : List Nat :=
  match r.lock with
  | none => []
  | some i =>
    match r.phase i with
    | .appended => if rec.medium (exchange i) = some m then [i] else []
    | _ => []

def pushedTo (rec : Recorder) (exchange : Nat → RecordedExchange) (r : Recording σ) (m : Nat) : List Nat :=
  r.pushed.filter fun i => rec.medium (exchange i) = some m

/-- The ring is the window of the last pushes, and every medium has accepted what
was pushed for it, in the order of the pushes. -/
structure Consistent (rec : Recorder) (exchange : Nat → RecordedExchange) (r : Recording σ) : Prop where
  exclusive : Exclusive r
  window : r.state.buffer = (r.pushed.map exchange).drop (r.pushed.length - rec.config.maxInMemory)
  routed : ∀ i m, (i, m) ∈ r.appends → rec.medium (exchange i) = some m
  ordered : ∀ m, (pushedTo rec exchange r m ++ pending rec exchange r m).Sublist (r.appendsTo m)

section Steps
variable {rec : Recorder} {exchange : Nat → RecordedExchange} {r r' : Recording σ} {move : RecordMove σ}

theorem pending_setPhase (exclusive : Exclusive r) {i : Nat} (outside : ¬ (r.phase i).Critical) (p : RecordPhase)
    (m : Nat) : pending rec exchange (r.setPhase i p) m = pending rec exchange r m := by
  cases held : r.lock with
  | none => simp [pending, setPhase, held]
  | some j =>
    have other : j ≠ i := by
      rintro rfl
      exact outside ((exclusive j).mp held)
    simp [pending, setPhase, held, Function.update_of_ne other]

/-- A step that pushes nothing and has nothing accepted. -/
theorem Consistent.quiet (consistent : Consistent rec exchange r) (next : Stepped rec exchange r move r')
    (sameBuffer : r'.state.buffer = r.state.buffer) (samePushed : r'.pushed = r.pushed)
    (sameAppends : r'.appends = r.appends)
    (fewer : ∀ m, (pending rec exchange r' m).Sublist (pending rec exchange r m)) : Consistent rec exchange r' := by
  refine ⟨consistent.exclusive.step next, ?_, ?_, fun m => ?_⟩
  · rw [sameBuffer, samePushed]
    exact consistent.window
  · rw [sameAppends]
    exact consistent.routed
  · rw [pushedTo, appendsTo, samePushed, sameAppends]
    exact ((List.Sublist.refl _).append (fewer m)).trans (consistent.ordered m)

theorem Consistent.setPhase (consistent : Consistent rec exchange r) {i : Nat} {p : RecordPhase}
    (next : Stepped rec exchange r move (r.setPhase i p)) (outside : ¬ (r.phase i).Critical) :
    Consistent rec exchange (r.setPhase i p) :=
  consistent.quiet next rfl rfl rfl fun m => by rw [pending_setPhase consistent.exclusive outside]

theorem Consistent.accept (consistent : Consistent rec exchange r) {i m : Nat} {left : σ} (at_ : r.phase i = .holding)
    (routed : rec.medium (exchange i) = some m) :
    Consistent rec exchange { (r.setMedium m left).setPhase i .appended with appends := r.appends ++ [(i, m)] } := by
  have next : Stepped rec exchange r (.append i (.ok ()) left) _ := .accept at_ routed
  have held := (consistent.exclusive i).mpr (at_ ▸ trivial)
  refine ⟨consistent.exclusive.step next, consistent.window, fun j m' member => ?_, fun m' => ?_⟩
  · rcases List.mem_append.mp member with old | new
    · exact consistent.routed j m' old
    · cases List.mem_singleton.mp new
      exact routed
  · have before := (List.sublist_append_left _ _).trans (consistent.ordered m')
    by_cases here : m = m'
    · subst here
      simpa [appendsTo, pending, pushedTo, Recording.setPhase, setMedium, held, routed] using before
    · simpa [appendsTo, pending, pushedTo, Recording.setPhase, setMedium, held, routed, here] using before

theorem Consistent.push (consistent : Consistent rec exchange r) {i : Nat}
    (at_ : r.phase i = .appended ∨ r.phase i = .holding ∧ rec.medium (exchange i) = none) :
    Consistent rec exchange (r.pushExchange rec exchange i) := by
  have next : Stepped rec exchange r (.push i) _ := .push at_
  have held : r.lock = some i := (consistent.exclusive i).mpr (by rcases at_ with at_ | ⟨at_, _⟩ <;> rw [at_] <;> trivial)
  refine ⟨consistent.exclusive.step next, ?_, consistent.routed, fun m => ?_⟩
  · by_cases nothing : rec.config.maxInMemory = 0
    · simpa [pushExchange, pushRing, nothing] using consistent.window
    · simp only [pushExchange, if_neg nothing, List.map_append, List.map_cons, List.map_nil]
      rw [consistent.window, ← r.pushed.length_map (f := exchange), pushRing_window nothing]
      simp
  · have before := consistent.ordered m
    have mine : pending rec exchange r m = if rec.medium (exchange i) = some m then [i] else [] := by
      rcases at_ with at_ | ⟨at_, unrouted⟩
      · simp [pending, held, at_]
      · simp [pending, held, at_, unrouted]
    rw [mine] at before
    by_cases nothing : rec.config.maxInMemory = 0
    · have kept := (List.sublist_append_left _ _).trans before
      simpa [pushExchange, pushedTo, pending, appendsTo, nothing] using kept
    · by_cases here : rec.medium (exchange i) = some m
      · simpa [pushExchange, pushedTo, pending, appendsTo, nothing, here] using before
      · simpa [pushExchange, pushedTo, pending, appendsTo, nothing, here] using before

theorem Consistent.step (consistent : Consistent rec exchange r) (next : Stepped rec exchange r move r') :
    Consistent rec exchange r' := by
  have unlocked : ∀ {r' : Recording σ}, r'.lock = none → ∀ m, (pending rec exchange r' m).Sublist
      (pending rec exchange r m) := by
    intro r' free m
    simp [pending, free]
  cases next with
  | idle => exact consistent
  | call at_ => exact consistent.setPhase (.call at_) (by rw [at_]; exact id)
  | acquire at_ free =>
    refine consistent.quiet (.acquire at_ free) rfl rfl rfl fun m => ?_
    simp [pending]
  | accept at_ routed => exact consistent.accept at_ routed
  | refuse at_ routed => exact consistent.quiet (.refuse at_ routed) rfl rfl rfl (unlocked rfl)
  | push at_ => exact consistent.push at_
  | notify at_ => exact consistent.setPhase (.notify at_) (by rw [at_]; exact id)
  | @giveUp i left at_ =>
    have next : Stepped rec exchange r (.cancel i left) _ := .giveUp at_
    exact consistent.setPhase next (by rw [at_]; exact id)
  | cutOff at_ routed => exact consistent.quiet (.cutOff at_ routed) rfl rfl rfl (unlocked rfl)
  | clear free =>
    refine ⟨consistent.exclusive, by simp, consistent.routed, fun m => ?_⟩
    simp [pushedTo, pending, free]

/-- Of the steps of a call only its push touches the ring. -/
theorem Stepped.buffer {i : Nat} (next : Stepped rec exchange r move r') (mine : move.caller = some i) :
    r'.state.buffer = r.state.buffer ∨ (r'.phase i).Settled := by
  cases next with
  | idle => exact Or.inl rfl
  | clear free => cases mine
  | push at_ =>
    cases mine
    exact Or.inr (by simp [pushExchange, RecordPhase.Settled])
  | _ => exact Or.inl rfl

end Steps

theorem consistent_run (rec : Recorder) (exchange : Nat → RecordedExchange) (media : Nat → σ)
    (moves : List (RecordMove σ)) : Consistent rec exchange (run rec exchange media moves) := by
  refine Execution.exec_invariant (step rec exchange) (I := Consistent rec exchange)
    (fun r move consistent => consistent.step (stepped rec exchange r move)) ?_ moves
  refine ⟨fun i => by simp [start, RecordPhase.Critical], by simp [start], by simp [start], fun m => ?_⟩
  simp [pushedTo, pending, start]

theorem mem_appendsTo {r : Recording σ} {i m : Nat} : i ∈ r.appendsTo m ↔ (i, m) ∈ r.appends := by
  simp [appendsTo]

/-- For any interleaving of `record` and `clear` calls, with any failures and
cancellations: the ring is the window of the last pushes since the last `clear`; a
call that fails or is cancelled never touches it; what the ring holds of an
upstream with a medium was accepted by that medium and by no other, and in the
same order. -/
theorem ring_consistent (rec : Recorder) (exchange : Nat → RecordedExchange) (media : Nat → σ)
    (moves : List (RecordMove σ)) :
    let r := run rec exchange media moves
    let window := r.pushed.drop (r.pushed.length - rec.config.maxInMemory)
    r.state.buffer = window.map exchange ∧
      r.state.buffer.length = min rec.config.maxInMemory r.pushed.length ∧
      (∀ i, r.phase i = .cancelled ∨ (∃ err, r.phase i = .returned (.error err)) →
        ∀ front move back, moves = front ++ move :: back → move.caller = some i →
          (run rec exchange media (front ++ [move])).state.buffer = (run rec exchange media front).state.buffer) ∧
      (∀ i ∈ window, ∀ m, rec.medium (exchange i) = some m → ∀ m', (i, m') ∈ r.appends ↔ m' = m) ∧
      ∀ name m, rec.routes name = some m →
        (r.state.buffer.filter fun e => e.upstream = some name).Sublist ((r.appendsTo m).map exchange) := by
  intro r window
  have consistent : Consistent rec exchange r := consistent_run rec exchange media moves
  have isWindow : r.state.buffer = window.map exchange := by rw [consistent.window, List.map_drop]
  have logged : ∀ i ∈ r.pushed, ∀ m, rec.medium (exchange i) = some m → (i, m) ∈ r.appends := by
    intro i member m routed
    refine mem_appendsTo.mp ((consistent.ordered m).subset (List.mem_append_left _ ?_))
    simp [pushedTo, member, routed]
  refine ⟨isWindow, ?_, ?_, ?_, ?_⟩
  · rw [isWindow, List.length_map, List.length_drop]
    omega
  · rintro i failed front move back rfl mine
    have isNext : run rec exchange media (front ++ [move]) = (run rec exchange media front).step rec exchange move :=
      Execution.exec_snoc _ _ _ _
    rcases (stepped rec exchange (run rec exchange media front) move).buffer mine with same | settled
    · rw [isNext, same]
    · -- A call that has pushed can neither fail nor be cancelled any more.
      have final : (r.phase i).Settled := by
        have later : r = Execution.exec (step rec exchange)
            ((run rec exchange media front).step rec exchange move) back := Execution.exec_append _ _ _ _
        rw [later]
        exact Execution.exec_invariant (step rec exchange) (I := fun r => (r.phase i).Settled)
          (fun r move settled => Settled.step settled (stepped rec exchange r move)) settled back
      rcases failed with cancelled | ⟨err, refused⟩
      · rw [cancelled] at final
        exact final.elim
      · rw [refused] at final
        exact final.elim
  · intro i member m routed m'
    constructor
    · intro appended
      rw [consistent.routed i m' appended] at routed
      exact Option.some.inj routed
    · rintro rfl
      exact logged i (List.mem_of_mem_drop member) m' routed
  · intro name m routed
    have ofName : ∀ i, (exchange i).upstream = some name → rec.medium (exchange i) = some m := by
      intro i named
      simp [Recorder.medium, named, routed]
    have narrowed : (window.filter fun i => (exchange i).upstream = some name).Sublist (pushedTo rec exchange r m) := by
      refine ((List.drop_sublist _ r.pushed).filter _).trans ?_
      refine List.monotone_filter_right r.pushed fun i named => ?_
      simpa using ofName i (by simpa using named)
    have inOrder := narrowed.trans ((List.sublist_append_left _ _).trans (consistent.ordered m))
    rw [isWindow, List.filter_map]
    exact inOrder.map exchange

end Recording

end PartlyProxy
