import PartlyProxy.Assertions
import PartlyProxy.RecorderLock
import PartlyProxy.Forwarder
import Mathlib.Data.List.Induction

namespace PartlyProxy
variable {σ : Type}

inductive AssertionShape where
  | seen
  | count (expected : Nat)
deriving DecidableEq, Repr

inductive AssertionVerdict where
  | pending
  | passed (message : String)
  | failed (message : String)
deriving DecidableEq, Repr

def evaluate (shape : AssertionShape) (count : Nat) : AssertionVerdict :=
  match shape with
  | .seen => if 1 ≤ count then .passed s!"matched {count} exchanges" else .pending
  | .count expected =>
    if count = expected then .passed s!"matched exactly {expected}"
    else if expected < count then
      .failed s!"matched {count} exchanges; expected exactly {expected} (overshoot)"
    else .pending

/-- The condition an assertion waits for. -/
def AssertionShape.Satisfied (shape : AssertionShape) (count : Nat) : Prop :=
  match shape with
  | .seen => 1 ≤ count
  | .count expected => count = expected

instance (shape : AssertionShape) (count : Nat) : Decidable (shape.Satisfied count) :=
  match shape with
  | .seen => inferInstanceAs (Decidable (1 ≤ count))
  | .count expected => inferInstanceAs (Decidable (count = expected))

theorem evaluate_passed_iff {shape : AssertionShape} {count : Nat} :
    (∃ message, evaluate shape count = .passed message) ↔ shape.Satisfied count := by
  cases shape with
  | seen => by_cases some_ : 1 ≤ count <;> simp [evaluate, AssertionShape.Satisfied, some_]
  | count expected =>
    simp only [evaluate, AssertionShape.Satisfied]
    split_ifs with equal more <;> simp [equal]

/-- The count is above what the assertion expects. -/
def AssertionShape.Overshot (shape : AssertionShape) (count : Nat) : Prop :=
  ∃ expected, shape = .count expected ∧ expected < count

theorem AssertionShape.Overshot.not_satisfied {shape : AssertionShape} {count : Nat} (beyond : shape.Overshot count) :
    ¬ shape.Satisfied count := by
  obtain ⟨expected, rfl, more⟩ := beyond
  intro satisfied
  exact Nat.ne_of_gt more satisfied

theorem evaluate_failed_iff {shape : AssertionShape} {count : Nat} :
    (∃ message, evaluate shape count = .failed message) ↔ shape.Overshot count := by
  cases shape with
  | seen => by_cases some_ : 1 ≤ count <;> simp [evaluate, AssertionShape.Overshot, some_]
  | count expected =>
    simp only [evaluate, AssertionShape.Overshot, AssertionShape.count.injEq, exists_eq_left']
    split_ifs with equal more
    · simp [equal]
    · simp [more]
    · simp [more]

/-- Fewer matches never decide an assertion that was open at a greater count. -/
theorem evaluate_pending_zero {shape : AssertionShape} {count : Nat} (open_ : evaluate shape count = .pending) :
    evaluate shape 0 = .pending := by
  cases shape with
  | seen => simp [evaluate]
  | count expected =>
    simp only [evaluate] at open_ ⊢
    split_ifs at open_ with equal more
    have positive : ¬ 0 = expected := by omega
    simp [positive]

theorem not_satisfied_of_pending {shape : AssertionShape} {count : Nat} (open_ : evaluate shape count = .pending) :
    ¬ shape.Satisfied count := by
  intro satisfied
  obtain ⟨message, passes⟩ := evaluate_passed_iff.mpr satisfied
  rw [open_] at passes
  cases passes

/-- The arguments of `AssertSeen` and `AssertCount`. -/
structure Assertion where
  filter : TrafficFilter
  shape : AssertionShape
  timeout : Duration

/-- The exits of `wait_for_assertion`. All but the first are failures. -/
inductive WaitExit where
  | satisfied
  | overshoot
  | immediate
  | outOfTime
  | timedOut
deriving DecidableEq, Repr

/-- The reply of `wait_for_assertion`, with the count its message reports. -/
structure WaitReply where
  exit : WaitExit
  message : String
  counted : Nat
deriving DecidableEq, Repr

def WaitReply.passed (reply : WaitReply) : Bool := reply.exit = .satisfied

/-- The verdict of the reply is the verdict on the count it reports. -/
structure WaitReply.Sound (a : Assertion) (reply : WaitReply) : Prop where
  satisfied : reply.exit = .satisfied → a.shape.Satisfied reply.counted
  overshoot : reply.exit = .overshoot → a.shape.Overshot reply.counted
  undecided : reply.exit = .immediate ∨ reply.exit = .outOfTime → evaluate a.shape reply.counted = .pending

/-- Where the wait-for loop stands. The waiter is registered from `enabled` to
`polled`. One poll of `tokio::time::timeout` polls the waiter and then the timer;
`polled` is between the two. -/
inductive WaitPhase where
  | looping
  | enabled
  | sampled (count : Nat)
  | parked
  | polled
  | expired
  | replied (reply : WaitReply)
deriving DecidableEq, Repr

def WaitPhase.Listening : WaitPhase → Bool
  | .enabled | .sampled _ | .parked | .polled => true
  | _ => false

/-- The wait-for loop beside the recorder it watches. `notified` says that the
registered waiter has been notified. -/
structure Waiting (σ : Type) where
  recorder : Recording σ
  clock : Nat
  deadline : Option Nat
  phase : WaitPhase
  notified : Bool

inductive WaitMove (σ : Type) where
  | record (move : RecordMove σ)
  | tick (elapsed : Nat)
  | enable
  | sample
  | decide
  | poll
  | timer
  | recount

/-- The move is a call of `notify_waiters`. -/
def Recording.notifies (r : Recording σ) : RecordMove σ → Bool
  | .notify i =>
    match r.phase i with
    | .notifying => true
    | _ => false
  | _ => false

namespace Waiting

/-- `limit` is the last instant the clock of the platform can represent. -/
def start (a : Assertion) (limit now : Nat) (r : Recording σ) : Waiting σ :=
  ⟨r, now, if now + a.timeout ≤ limit then some (now + a.timeout) else none, .looping, false⟩

def count (deps : Deps) (a : Assertion) (w : Waiting σ) : Nat :=
  countMatching (a.filter.matches deps) w.recorder.state.buffer

def expiryMessage (a : Assertion) (count : Nat) : String :=
  s!"timeout after {debugDuration a.timeout}; matched {count} exchanges at expiry"

def remaining (w : Waiting σ) : Nat :=
  match w.deadline with
  | some deadline => deadline - w.clock
  | none => 0

/-- What the loop does with the count it has sampled. -/
def decided (a : Assertion) (w : Waiting σ) (count : Nat) : WaitPhase :=
  match evaluate a.shape count with
  | .passed message => .replied ⟨.satisfied, message, count⟩
  | .failed message => .replied ⟨.overshoot, message, count⟩
  | .pending =>
    if a.timeout = 0 then
      .replied ⟨.immediate, s!"matched {count}; timeout=0 collapsed to immediate eval", count⟩
    else if w.remaining = 0 then .replied ⟨.outOfTime, expiryMessage a count, count⟩
    else .parked

/-- One step of the recorder, of the clock or of `wait_for_assertion`. The loop
reads the ring only while no call holds the write lock. -/
def step (deps : Deps) (rec : Recorder) (exchange : Nat → RecordedExchange) (a : Assertion) (w : Waiting σ) :
    WaitMove σ → Waiting σ
  | .record move =>
    { w with
      recorder := w.recorder.step rec exchange move
      notified := w.notified || (w.phase.Listening && w.recorder.notifies move) }
  | .tick elapsed => { w with clock := w.clock + elapsed }
  | .enable =>
    match w.phase with
    | .looping => { w with phase := .enabled, notified := false }
    | _ => w
  | .sample =>
    match w.phase, w.recorder.lock with
    | .enabled, none => { w with phase := .sampled (w.count deps a) }
    | _, _ => w
  | .decide =>
    match w.phase with
    | .sampled count => { w with phase := w.decided a count }
    | _ => w
  | .poll =>
    match w.phase with
    | .parked => { w with phase := if w.notified then .looping else .polled }
    | _ => w
  | .timer =>
    match w.phase with
    | .polled => { w with phase := if w.remaining = 0 then .expired else .parked }
    | _ => w
  | .recount =>
    match w.phase, w.recorder.lock with
    | .expired, none =>
      { w with phase := .replied ⟨.timedOut, expiryMessage a (w.count deps a), w.count deps a⟩ }
    | _, _ => w

/-- The wait on a recorder that starts in the state `r`. -/
def run (deps : Deps) (rec : Recorder) (exchange : Nat → RecordedExchange) (a : Assertion) (limit now : Nat)
    (r : Recording σ) (moves : List (WaitMove σ)) : Waiting σ :=
  Execution.exec (step deps rec exchange a) (start a limit now r) moves

/-- All that a move can do. -/
inductive Stepped (deps : Deps) (rec : Recorder) (exchange : Nat → RecordedExchange) (a : Assertion) (w : Waiting σ) :
    WaitMove σ → Waiting σ → Prop
  | idle {move} : Stepped deps rec exchange a w move w
  | record {move r} : Recording.Stepped rec exchange w.recorder move r →
      r = w.recorder.step rec exchange move →
      Stepped deps rec exchange a w (.record move)
        { w with recorder := r, notified := w.notified || (w.phase.Listening && w.recorder.notifies move) }
  | tick {elapsed} : Stepped deps rec exchange a w (.tick elapsed) { w with clock := w.clock + elapsed }
  | enable : w.phase = .looping →
      Stepped deps rec exchange a w .enable { w with phase := .enabled, notified := false }
  | sample : w.phase = .enabled → w.recorder.lock = none →
      Stepped deps rec exchange a w .sample { w with phase := .sampled (w.count deps a) }
  | decide {count} : w.phase = .sampled count →
      Stepped deps rec exchange a w .decide { w with phase := w.decided a count }
  | wake : w.phase = .parked → w.notified = true → Stepped deps rec exchange a w .poll { w with phase := .looping }
  | poll : w.phase = .parked → w.notified = false → Stepped deps rec exchange a w .poll { w with phase := .polled }
  | expire : w.phase = .polled → w.remaining = 0 → Stepped deps rec exchange a w .timer { w with phase := .expired }
  | park : w.phase = .polled → w.remaining ≠ 0 → Stepped deps rec exchange a w .timer { w with phase := .parked }
  | recount : w.phase = .expired → w.recorder.lock = none →
      Stepped deps rec exchange a w .recount
        { w with phase := .replied ⟨.timedOut, expiryMessage a (w.count deps a), w.count deps a⟩ }

theorem stepped (deps : Deps) (rec : Recorder) (exchange : Nat → RecordedExchange) (a : Assertion) (w : Waiting σ)
    (move : WaitMove σ) : Stepped deps rec exchange a w move (w.step deps rec exchange a move) := by
  cases move with
  | record move => exact .record (Recording.stepped rec exchange w.recorder move) rfl
  | tick elapsed => exact .tick
  | enable =>
    simp only [step]
    split
    · exact .enable ‹_›
    · exact .idle
  | sample =>
    simp only [step]
    split
    · exact .sample ‹_› ‹_›
    · exact .idle
  | decide =>
    simp only [step]
    split
    · exact .decide ‹_›
    · exact .idle
  | poll =>
    simp only [step]
    split
    · by_cases heard : w.notified = true
      · rw [if_pos heard]
        exact .wake ‹_› heard
      · rw [if_neg heard]
        exact .poll ‹_› (by simpa using heard)
    · exact .idle
  | timer =>
    simp only [step]
    split
    · by_cases beyond : w.remaining = 0
      · rw [if_pos beyond]
        exact .expire ‹_› beyond
      · rw [if_neg beyond]
        exact .park ‹_› beyond
    · exact .idle
  | recount =>
    simp only [step]
    split
    · exact .recount ‹_› ‹_›
    · exact .idle

end Waiting

/-- A push makes its call owe a notification; only `clear` changes the ring without. -/
theorem Recording.Stepped.owed {rec : Recorder} {exchange : Nat → RecordedExchange} {r r' : Recording σ}
    {move : RecordMove σ} (next : Recording.Stepped rec exchange r move r') :
    r'.state.buffer = r.state.buffer ∨ r'.state.buffer = [] ∨ ∃ i, move = .push i ∧ r'.phase i = .notifying := by
  cases next with
  | @push i at_ => exact Or.inr (Or.inr ⟨i, rfl, by simp [Recording.pushExchange]⟩)
  | clear free => exact Or.inr (Or.inl rfl)
  | _ => exact Or.inl rfl

theorem Recording.Stepped.notifying {rec : Recorder} {exchange : Nat → RecordedExchange} {r r' : Recording σ}
    {move : RecordMove σ} (next : Recording.Stepped rec exchange r move r') {i : Nat} (owing : r.phase i = .notifying) :
    r'.phase i = .notifying ∨ r.notifies move = true := by
  have kept : ∀ {j : Nat} {p q : RecordPhase}, r.phase j = p → p ≠ .notifying →
      Function.update r.phase j q i = .notifying := by
    rintro j p q at_ other
    have apart : i ≠ j := by
      rintro rfl
      exact other (at_ ▸ owing)
    rwa [Function.update_of_ne apart]
  cases next with
  | idle => exact Or.inl owing
  | call at_ => exact Or.inl (kept at_ (by simp))
  | acquire at_ free => exact Or.inl (kept at_ (by simp))
  | accept at_ routed => exact Or.inl (kept at_ (by simp))
  | refuse at_ routed => exact Or.inl (kept at_ (by simp))
  | push at_ =>
    rcases at_ with at_ | ⟨at_, _⟩
    · exact Or.inl (kept at_ (by simp))
    · exact Or.inl (kept at_ (by simp))
  | notify at_ => exact Or.inr (by simp [Recording.notifies, at_])
  | giveUp at_ => exact Or.inl (kept at_ (by simp))
  | cutOff at_ routed => exact Or.inl (kept at_ (by simp))
  | clear free => exact Or.inl owing

namespace Waiting

/-- The loop waits inside `tokio::time::timeout`. -/
def Parked (w : Waiting σ) : Prop := w.phase = .parked ∨ w.phase = .polled

/-- What the loop believes of the ring is still true of it, up to a `clear`. -/
structure UpToDate (deps : Deps) (a : Assertion) (w : Waiting σ) : Prop where
  sampled : ∀ count, w.phase = .sampled count → w.count deps a = count ∨ w.count deps a = 0
  parked : w.Parked → evaluate a.shape (w.count deps a) = .pending

/-- A loop that is not up to date has been notified, or is about to be. -/
def Attentive (deps : Deps) (a : Assertion) (w : Waiting σ) : Prop :=
  w.notified = true ∨ (∃ i, w.recorder.phase i = .notifying) ∨ w.UpToDate deps a

section Steps
variable {deps : Deps} {rec : Recorder} {exchange : Nat → RecordedExchange} {a : Assertion} {w w' : Waiting σ}
  {move : WaitMove σ}

theorem UpToDate.of_phase {w : Waiting σ} (notSampled : ∀ count, w.phase ≠ .sampled count) (notParked : ¬ w.Parked) :
    w.UpToDate deps a :=
  ⟨fun count at_ => (notSampled count at_).elim, fun parked => (notParked parked).elim⟩

theorem UpToDate.record (current : w.UpToDate deps a) (samePhase : w'.phase = w.phase)
    (buffer : w'.recorder.state.buffer = w.recorder.state.buffer ∨ w'.recorder.state.buffer = []) :
    w'.UpToDate deps a := by
  rcases buffer with same | emptied
  · have sameCount : w'.count deps a = w.count deps a := by rw [Waiting.count, same, Waiting.count]
    refine ⟨fun count at_ => ?_, fun parked => ?_⟩
    · rw [sameCount]
      exact current.sampled count (samePhase ▸ at_)
    · rw [sameCount]
      exact current.parked (by rwa [Parked, samePhase] at parked)
  · have none_ : w'.count deps a = 0 := by rw [Waiting.count, emptied, countMatching_nil]
    refine ⟨fun count at_ => Or.inr none_, fun parked => ?_⟩
    rw [none_]
    exact evaluate_pending_zero (current.parked (by rwa [Parked, samePhase] at parked))

theorem decided_cases (a : Assertion) (w : Waiting σ) (count : Nat) :
    (∃ reply, w.decided a count = .replied reply) ∨ w.decided a count = .parked ∧ evaluate a.shape count = .pending := by
  unfold decided
  split
  · exact Or.inl ⟨_, rfl⟩
  · exact Or.inl ⟨_, rfl⟩
  · split_ifs
    · exact Or.inl ⟨_, rfl⟩
    · exact Or.inl ⟨_, rfl⟩
    · exact Or.inr ⟨rfl, ‹_›⟩

theorem Attentive.step (attentive : w.Attentive deps a) (next : Stepped deps rec exchange a w move w') :
    w'.Attentive deps a := by
  cases next with
  | idle => exact attentive
  | @record move r next _ =>
    rcases attentive with heard | ⟨i, owing⟩ | current
    · exact Or.inl (by simp [heard])
    · rcases next.notifying owing with still | notifies
      · exact Or.inr (Or.inl ⟨i, still⟩)
      · -- The notification reaches the waiter if it is registered; elsewhere nothing is believed.
        cases listening : w.phase.Listening with
        | true => exact Or.inl (by simp [notifies])
        | false =>
          refine Or.inr (Or.inr (.of_phase (fun count at_ => ?_) fun parked => ?_))
          · rw [show w.phase = .sampled count from at_] at listening
            cases listening
          · rcases parked with at_ | at_ <;> rw [show w.phase = _ from at_] at listening <;> cases listening
    · rcases next.owed with same | emptied | ⟨i, _, owing⟩
      · exact Or.inr (Or.inr (current.record rfl (Or.inl same)))
      · exact Or.inr (Or.inr (current.record rfl (Or.inr emptied)))
      · exact Or.inr (Or.inl ⟨i, owing⟩)
  | tick => exact attentive.imp id (Or.imp id fun current => current.record rfl (Or.inl rfl))
  | enable at_ => exact Or.inr (Or.inr (.of_phase (by simp) (by simp [Parked])))
  | sample at_ free =>
    refine Or.inr (Or.inr ⟨fun count sampled => Or.inl ?_, by simp [Parked]⟩)
    simpa [Waiting.count] using sampled
  | @decide count at_ =>
    refine attentive.imp id (Or.imp id fun current => ?_)
    rcases decided_cases a w count with ⟨reply, ends⟩ | ⟨parks, open_⟩
    · exact .of_phase (by simp [ends]) (by simp [Parked, ends])
    · refine ⟨by simp [parks], fun _ => ?_⟩
      rcases current.sampled count at_ with same | emptied
      · exact (congrArg _ same).trans open_
      · exact (congrArg _ emptied).trans (evaluate_pending_zero open_)
  | wake at_ heard => exact Or.inl heard
  | poll at_ quiet =>
    exact attentive.imp id (Or.imp id fun current => ⟨by simp, fun _ => current.parked (Or.inl at_)⟩)
  | expire at_ beyond => exact attentive.imp id (Or.imp id fun _ => .of_phase (by simp) (by simp [Parked]))
  | park at_ time =>
    exact attentive.imp id (Or.imp id fun current => ⟨by simp, fun _ => current.parked (Or.inr at_)⟩)
  | recount at_ free => exact attentive.imp id (Or.imp id fun _ => .of_phase (by simp) (by simp [Parked]))

theorem decided_sound {count : Nat} {reply : WaitReply} (ends : w.decided a count = .replied reply) :
    reply.counted = count ∧ reply.exit ≠ .timedOut ∧ reply.Sound a := by
  unfold decided at ends
  split at ends
  · rename_i message passes
    cases ends
    exact ⟨rfl, by simp, fun _ => evaluate_passed_iff.mp ⟨message, passes⟩, by simp, by simp⟩
  · rename_i message fails
    cases ends
    exact ⟨rfl, by simp, by simp, fun _ => evaluate_failed_iff.mp ⟨message, fails⟩, by simp⟩
  · rename_i open_
    split_ifs at ends
    · cases ends
      exact ⟨rfl, by simp, by simp, by simp, fun _ => open_⟩
    · cases ends
      exact ⟨rfl, by simp, by simp, by simp, fun _ => open_⟩

end Steps

section Runs
variable (deps : Deps) (rec : Recorder) (exchange : Nat → RecordedExchange) (a : Assertion) (limit now : Nat)
  (r : Recording σ)

theorem run_snoc (moves : List (WaitMove σ)) (move : WaitMove σ) :
    run deps rec exchange a limit now r (moves ++ [move]) =
      (run deps rec exchange a limit now r moves).step deps rec exchange a move :=
  Execution.exec_snoc _ _ _ _

theorem attentive_run (moves : List (WaitMove σ)) : (run deps rec exchange a limit now r moves).Attentive deps a :=
  Execution.exec_invariant (step deps rec exchange a) (I := fun w => w.Attentive deps a)
    (fun w move attentive => attentive.step (stepped deps rec exchange a w move))
    (Or.inr (Or.inr (.of_phase (by simp [start]) (by simp [Parked, start])))) moves

/-- The ring held `count` matches at some moment of the run before the reply. -/
def CountedIn (moves : List (WaitMove σ)) (count : Nat) : Prop :=
  ∃ front back, moves = front ++ back ∧ (∀ reply, (run deps rec exchange a limit now r front).phase ≠ .replied reply) ∧
    (run deps rec exchange a limit now r front).count deps a = count

variable {deps rec exchange a limit now r} in
theorem CountedIn.snoc {moves : List (WaitMove σ)} {count : Nat}
    (counted : CountedIn deps rec exchange a limit now r moves count) (move : WaitMove σ) :
    CountedIn deps rec exchange a limit now r (moves ++ [move]) count := by
  obtain ⟨front, back, rfl, running, held⟩ := counted
  exact ⟨front, back ++ [move], List.append_assoc .., running, held⟩

/-- Every count that the loop uses is one that it took itself. -/
theorem counted_run (moves : List (WaitMove σ)) :
    (∀ count, (run deps rec exchange a limit now r moves).phase = .sampled count →
      CountedIn deps rec exchange a limit now r moves count) ∧
    ∀ reply, (run deps rec exchange a limit now r moves).phase = .replied reply →
      CountedIn deps rec exchange a limit now r moves reply.counted ∧ reply.Sound a := by
  induction moves using List.reverseRecOn with
  | nil => exact ⟨by simp [run, start], by simp [run, start]⟩
  | append_singleton front move ih =>
    obtain ⟨sampled, replied⟩ := ih
    have kept : ∀ {w : Waiting σ}, w.phase = (run deps rec exchange a limit now r front).phase →
        (∀ count, w.phase = .sampled count → CountedIn deps rec exchange a limit now r (front ++ [move]) count) ∧
        ∀ reply, w.phase = .replied reply →
          CountedIn deps rec exchange a limit now r (front ++ [move]) reply.counted ∧ reply.Sound a :=
      fun same => ⟨fun count at_ => (sampled count (same ▸ at_)).snoc move,
        fun reply at_ => (replied reply (same ▸ at_)).imp_left fun counted => counted.snoc move⟩
    have here : ∀ {p : WaitPhase}, (run deps rec exchange a limit now r front).phase = p →
        (∀ reply, p ≠ .replied reply) → CountedIn deps rec exchange a limit now r (front ++ [move])
          ((run deps rec exchange a limit now r front).count deps a) :=
      fun at_ running => ⟨front, [move], rfl, fun reply => at_ ▸ running reply, rfl⟩
    rw [run_snoc]
    generalize next : (run deps rec exchange a limit now r front).step deps rec exchange a move = w'
    have stepped := stepped deps rec exchange a (run deps rec exchange a limit now r front) move
    rw [next] at stepped
    cases stepped with
    | idle => exact kept rfl
    | record _ _ => exact kept rfl
    | tick => exact kept rfl
    | sample at_ free =>
      refine ⟨fun count same => ?_, by simp⟩
      cases same
      exact here at_ (by simp)
    | @decide count at_ =>
      rcases decided_cases a (run deps rec exchange a limit now r front) count with ⟨reply, ends⟩ | ⟨parks, _⟩
      · refine ⟨by simp [ends], fun reply' same => ?_⟩
        obtain ⟨counted, _, sound⟩ := decided_sound (same : decided a _ count = .replied reply')
        rw [counted]
        exact ⟨(sampled count at_).snoc _, sound⟩
      · exact ⟨by simp [parks], by simp [parks]⟩
    | recount at_ free =>
      refine ⟨by simp, fun reply same => ?_⟩
      cases same
      exact ⟨here at_ (by simp), by simp, by simp, by simp⟩
    | _ => exact ⟨by simp, by simp⟩

/-- In any interleaving with `record` and `clear` calls: a loop that waits, with
no notification delivered and none owed, waits on a ring that does not decide its
assertion; a passing reply and an overshoot speak of a count the ring really held
while the loop was running. -/
theorem wakeup_not_lost (moves : List (WaitMove σ)) :
    let w := run deps rec exchange a limit now r moves
    (w.Parked → w.notified = false → (∀ i, w.recorder.phase i ≠ .notifying) →
      evaluate a.shape (w.count deps a) = .pending) ∧
    ∀ reply, w.phase = .replied reply → ∃ front back, moves = front ++ back ∧
      (∀ earlier, (run deps rec exchange a limit now r front).phase ≠ .replied earlier) ∧
      (run deps rec exchange a limit now r front).count deps a = reply.counted ∧
      (reply.passed = true → a.shape.Satisfied reply.counted) ∧
      (reply.exit = .overshoot → ∃ expected, a.shape = .count expected ∧ expected < reply.counted) := by
  intro w
  refine ⟨fun parked quiet unowed => ?_, fun reply at_ => ?_⟩
  · rcases attentive_run deps rec exchange a limit now r moves with heard | ⟨i, owing⟩ | current
    · rw [show w.notified = true from heard] at quiet
      cases quiet
    · exact (unowed i owing).elim
    · exact current.parked parked
  · obtain ⟨⟨front, back, cut, running, held⟩, sound⟩ := (counted_run deps rec exchange a limit now r moves).2 reply at_
    refine ⟨front, back, cut, running, held, fun passed => sound.satisfied ?_, sound.overshoot⟩
    simpa [WaitReply.passed] using passed

end Runs

end Waiting

end PartlyProxy
