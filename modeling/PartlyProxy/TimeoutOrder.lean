import PartlyProxy.Verdicts

namespace PartlyProxy

/-- The reply is a failure for want of time. -/
def WaitReply.ByTimeout (reply : WaitReply) : Prop :=
  reply.exit = .immediate ∨ reply.exit = .outOfTime ∨ reply.exit = .timedOut

namespace Waiting
variable {σ : Type} {deps : Deps} {rec : Recorder} {exchange : Nat → RecordedExchange}

def Passed (w : Waiting σ) : Prop := ∃ reply, w.phase = .replied reply ∧ reply.passed = true

/-- The wait has failed, or is about to say so. -/
def Lost (w : Waiting σ) : Prop := w.phase = .expired ∨ ∃ reply, w.phase = .replied reply ∧ reply.passed = false

/-- A wait that fails for want of time does so when its timeout has passed. -/
structure Punctual (now : Nat) (a : Assertion) (w : Waiting σ) : Prop where
  deadline : w.deadline = some (now + a.timeout)
  started : now ≤ w.clock
  expired : w.phase = .expired → now + a.timeout ≤ w.clock
  replied : ∀ reply, w.phase = .replied reply → reply.ByTimeout → now + a.timeout ≤ w.clock

section Steps
variable {a : Assertion} {w : Waiting σ} {move : WaitMove σ} {now : Nat}

theorem decided_byTimeout {count : Nat} {reply : WaitReply} (ends : w.decided a count = .replied reply)
    (late : reply.ByTimeout) : a.timeout = 0 ∨ w.remaining = 0 := by
  unfold decided at ends
  split at ends
  · cases ends
    simp [WaitReply.ByTimeout] at late
  · cases ends
    simp [WaitReply.ByTimeout] at late
  · split_ifs at ends with zero beyond
    · exact Or.inl zero
    · exact Or.inr beyond

theorem Punctual.of_remaining (punctual : w.Punctual now a) (beyond : w.remaining = 0) : now + a.timeout ≤ w.clock := by
  simp only [remaining, punctual.deadline] at beyond
  omega

theorem Punctual.step (punctual : w.Punctual now a) {w' : Waiting σ} (next : Stepped deps rec exchange a w move w') :
    w'.Punctual now a := by
  obtain ⟨deadline, started, expired, replied⟩ := punctual
  have past := Punctual.of_remaining ⟨deadline, started, expired, replied⟩
  cases next with
  | idle => exact ⟨deadline, started, expired, replied⟩
  | record _ _ => exact ⟨deadline, started, expired, replied⟩
  | @tick elapsed =>
    have later : ∀ t, t ≤ w.clock → t ≤ w.clock + elapsed := fun t before => Nat.le_add_right_of_le before
    exact ⟨deadline, later _ started, fun at_ => later _ (expired at_), fun reply at_ late => later _ (replied reply at_ late)⟩
  | @decide count at_ =>
    refine ⟨deadline, started, fun is => ?_, fun reply ends late => ?_⟩
    · rcases decided_cases a w count with ⟨reply, ends⟩ | ⟨parks, _⟩
      · simp [ends] at is
      · simp [parks] at is
    · rcases decided_byTimeout ends late with zero | beyond
      · rw [zero]
        exact started
      · exact past beyond
  | expire at_ beyond => exact ⟨deadline, started, fun _ => past beyond, by simp⟩
  | recount at_ free => exact ⟨deadline, started, by simp, fun _ _ _ => expired at_⟩
  | _ => exact ⟨deadline, started, by simp, by simp⟩

theorem Lost.step (lost : w.Lost) {w' : Waiting σ} (next : Stepped deps rec exchange a w move w') : w'.Lost := by
  have ended : w.phase ≠ .looping ∧ w.phase ≠ .enabled ∧ (∀ count, w.phase ≠ .sampled count) ∧ w.phase ≠ .parked ∧
      w.phase ≠ .polled := by
    rcases lost with is | ⟨reply, is, _⟩ <;> simp [is]
  cases next with
  | idle => exact lost
  | record _ _ => exact lost
  | tick => exact lost
  | recount at_ free => exact Or.inr ⟨_, rfl, rfl⟩
  | enable at_ => exact (ended.1 at_).elim
  | sample at_ _ => exact (ended.2.1 at_).elim
  | decide at_ => exact (ended.2.2.1 _ at_).elim
  | wake at_ _ => exact (ended.2.2.2.1 at_).elim
  | poll at_ _ => exact (ended.2.2.2.1 at_).elim
  | expire at_ _ => exact (ended.2.2.2.2 at_).elim
  | park at_ _ => exact (ended.2.2.2.2 at_).elim

end Steps

/-- Two waits on one recorder that differ in the timeout only: they are in the same
phase, unless the shorter one has failed. -/
structure Ahead (now t t' : Nat) (w w' : Waiting σ) : Prop where
  recorder : w'.recorder = w.recorder
  clock : w'.clock = w.clock
  short : w.deadline = some (now + t)
  long : w'.deadline = some (now + t')
  together : w'.phase = w.phase ∧ w'.notified = w.notified ∨ w.Lost

section Lockstep
variable {filter : TrafficFilter} {shape : AssertionShape} {now t t' : Nat} {w w' : Waiting σ}

theorem Stepped.deadline {a : Assertion} {move : WaitMove σ} (next : Stepped deps rec exchange a w move w') :
    w'.deadline = w.deadline := by
  cases next <;> rfl

variable (deps rec exchange) in
/-- The recorder and the clock go on as they would without the loop. -/
theorem step_outside (a : Assertion) (w : Waiting σ) (move : WaitMove σ) :
    (w.step deps rec exchange a move).recorder =
        (match move with | .record move => w.recorder.step rec exchange move | _ => w.recorder) ∧
      (w.step deps rec exchange a move).clock =
        (match move with | .tick elapsed => w.clock + elapsed | _ => w.clock) := by
  cases move with
  | record move => exact ⟨rfl, rfl⟩
  | tick elapsed => exact ⟨rfl, rfl⟩
  | enable => simp only [step]; split <;> exact ⟨rfl, rfl⟩
  | sample => simp only [step]; split <;> exact ⟨rfl, rfl⟩
  | decide => simp only [step]; split <;> exact ⟨rfl, rfl⟩
  | poll => simp only [step]; split <;> exact ⟨rfl, rfl⟩
  | timer => simp only [step]; split <;> exact ⟨rfl, rfl⟩
  | recount => simp only [step]; split <;> exact ⟨rfl, rfl⟩

theorem Ahead.remaining_le (ahead : Ahead now t t' w w') (longer : t ≤ t') : w.remaining ≤ w'.remaining := by
  simp only [remaining, ahead.short, ahead.long, ahead.clock]
  omega

/-- What decides the shorter wait decides the longer one alike, but for the time. -/
theorem Ahead.decided (ahead : Ahead now t t' w w') (longer : t ≤ t') (filter : TrafficFilter) (shape : AssertionShape)
    (count : Nat) :
    w'.decided ⟨filter, shape, t'⟩ count = w.decided ⟨filter, shape, t⟩ count ∨
      ∃ reply, w.decided ⟨filter, shape, t⟩ count = .replied reply ∧ reply.passed = false := by
  have later := ahead.remaining_le longer
  simp only [Waiting.decided]
  cases evaluate shape count with
  | passed message => exact Or.inl rfl
  | failed message => exact Or.inl rfl
  | pending =>
    dsimp only
    by_cases zero : t = 0
    · rw [if_pos zero]
      exact Or.inr ⟨_, rfl, rfl⟩
    · by_cases beyond : w.remaining = 0
      · rw [if_neg zero, if_pos beyond]
        exact Or.inr ⟨_, rfl, rfl⟩
      · have zero' : ¬ t' = 0 := by omega
        have beyond' : ¬ w'.remaining = 0 := by omega
        rw [if_neg zero, if_neg beyond, if_neg zero', if_neg beyond']
        exact Or.inl rfl

/-- One move takes both waits on alike, or ends the shorter one. -/
theorem Ahead.together_step (ahead : Ahead now t t' w w') (longer : t ≤ t') (move : WaitMove σ) :
    (w'.step deps rec exchange ⟨filter, shape, t'⟩ move).phase = (w.step deps rec exchange ⟨filter, shape, t⟩ move).phase ∧
        (w'.step deps rec exchange ⟨filter, shape, t'⟩ move).notified =
          (w.step deps rec exchange ⟨filter, shape, t⟩ move).notified ∨
      (w.step deps rec exchange ⟨filter, shape, t⟩ move).Lost := by
  rcases ahead.together with ⟨phase, notified⟩ | lost
  · have later := ahead.remaining_le longer
    cases move with
    | record move =>
      left
      simp only [step, phase, notified, ahead.recorder, and_self]
    | tick elapsed => exact Or.inl ⟨phase, notified⟩
    | enable =>
      left
      simp only [step, phase]
      cases w.phase <;> simp [phase, notified]
    | sample =>
      left
      simp only [step, phase, ahead.recorder, Waiting.count]
      cases w.phase <;> cases w.recorder.lock <;> simp [phase, notified]
    | decide =>
      cases at_ : w.phase with
      | sampled count =>
        rcases ahead.decided longer filter shape count with same | ⟨reply, ends, failed⟩
        · left
          simp [step, phase, at_, same, notified]
        · right
          exact Or.inr ⟨reply, by simp [step, at_, ends], failed⟩
      | _ =>
        left
        simp [step, phase, at_, notified]
    | poll =>
      left
      simp only [step, phase]
      cases w.phase <;> simp [phase, notified]
    | timer =>
      cases at_ : w.phase with
      | polled =>
        by_cases beyond : w.remaining = 0
        · right
          exact Or.inl (by simp [step, at_, beyond])
        · have beyond' : ¬ w'.remaining = 0 := by omega
          left
          simp [step, phase, at_, beyond, beyond', notified]
      | _ =>
        left
        simp [step, phase, at_, notified]
    | recount =>
      cases at_ : w.phase with
      | expired => exact Or.inr (Lost.step (Or.inl at_) (stepped deps rec exchange _ w _))
      | _ =>
        left
        simp [step, phase, at_, notified]
  · exact Or.inr (lost.step (stepped deps rec exchange _ w move))

theorem Ahead.step (ahead : Ahead now t t' w w') (longer : t ≤ t') (move : WaitMove σ) :
    Ahead now t t' (w.step deps rec exchange ⟨filter, shape, t⟩ move) (w'.step deps rec exchange ⟨filter, shape, t'⟩ move) := by
  obtain ⟨recorder, clock⟩ := step_outside deps rec exchange ⟨filter, shape, t⟩ w move
  obtain ⟨recorder', clock'⟩ := step_outside deps rec exchange ⟨filter, shape, t'⟩ w' move
  refine ⟨?_, ?_, ?_, ?_, ahead.together_step longer move⟩
  · rw [recorder, recorder', ahead.recorder]
  · rw [clock, clock', ahead.clock]
  · rw [(stepped deps rec exchange _ w move).deadline, ahead.short]
  · rw [(stepped deps rec exchange _ w' move).deadline, ahead.long]

end Lockstep

section Runs
variable {limit now t t' : Nat}

theorem start_deadline {a : Assertion} (representable : now + a.timeout ≤ limit) (r : Recording σ) :
    (start a limit now r).deadline = some (now + a.timeout) := if_pos representable

theorem punctual_run (deps : Deps) (rec : Recorder) (exchange : Nat → RecordedExchange) {a : Assertion}
    (representable : now + a.timeout ≤ limit) (r : Recording σ) (moves : List (WaitMove σ)) :
    (run deps rec exchange a limit now r moves).Punctual now a :=
  Execution.exec_invariant (step deps rec exchange a) (I := Punctual now a)
    (fun w move punctual => punctual.step (stepped deps rec exchange a w move))
    ⟨start_deadline representable r, Nat.le_refl now, by simp [start], by simp [start]⟩ moves

theorem ahead_run (deps : Deps) (rec : Recorder) (exchange : Nat → RecordedExchange) (filter : TrafficFilter)
    (shape : AssertionShape) (longer : t ≤ t') (representable : now + t' ≤ limit) (r : Recording σ) (moves : List (WaitMove σ)) :
    Ahead now t t' (run deps rec exchange ⟨filter, shape, t⟩ limit now r moves)
      (run deps rec exchange ⟨filter, shape, t'⟩ limit now r moves) := by
  have earlier : now + t ≤ limit := by omega
  refine Execution.exec_simulation (step deps rec exchange ⟨filter, shape, t⟩) (R := Ahead now t t')
    (fun move _ w w' ahead => ahead.step longer move) ?_
  exact ⟨rfl, rfl, start_deadline earlier r, start_deadline representable r, Or.inl ⟨rfl, rfl⟩⟩

/-- A deadline past the last instant is no deadline, and no time remains. -/
theorem fails_at_first_look (limit now t : Nat) (beyond : ¬ now + t ≤ limit) (positive : ¬ t = 0) :
    let w := run referenceDeps orderRecorder (fun _ => orderExchange) ⟨.new, .seen, t⟩ limit now (.start fun _ => ())
      [.enable, .sample, .decide]
    w.phase = .replied ⟨.outOfTime, expiryMessage ⟨.new, .seen, t⟩ 0, 0⟩ ∧ w.clock = now := by
  intro w
  let looked : Waiting Unit := ⟨.start fun _ => (), now, none, .sampled 0, false⟩
  have isW : w = { looked with phase := looked.decided ⟨.new, .seen, t⟩ 0 } := by
    have noDeadline : start ⟨.new, .seen, t⟩ limit now (.start fun _ => ()) =
        ({ looked with phase := .looping } : Waiting Unit) := by
      rw [start, if_neg beyond]
    rw [show w = run _ _ _ _ _ _ _ _ from rfl, run, noDeadline]
    rfl
  rw [isW]
  refine ⟨?_, rfl⟩
  have open_ : evaluate .seen 0 = .pending := rfl
  have noTime : looked.remaining = 0 := rfl
  simp only [decided, open_, if_neg positive, noTime, if_true]

/-- On every schedule, the assertion with the longer timeout passes if the one with
the shorter does, and neither fails for want of time before its timeout, exactly if
the clock can represent the longer deadline: past the last instant there is no
deadline, and the wait fails at its first look. -/
theorem longer_timeout_iff (onClock : now ≤ limit) (longer : t ≤ t') :
    (∀ (σ : Type) (deps : Deps) (rec : Recorder) (exchange : Nat → RecordedExchange) (filter : TrafficFilter)
        (shape : AssertionShape) (r : Recording σ) (moves : List (WaitMove σ)),
      let short := run deps rec exchange ⟨filter, shape, t⟩ limit now r moves
      let long := run deps rec exchange ⟨filter, shape, t'⟩ limit now r moves
      (short.Passed → long.Passed) ∧
        (∀ reply, short.phase = .replied reply → reply.ByTimeout → now + t ≤ short.clock) ∧
        ∀ reply, long.phase = .replied reply → reply.ByTimeout → now + t' ≤ long.clock) ↔
      now + t' ≤ limit := by
  constructor
  · intro holds
    by_contra beyond
    -- the loop looks once, at an empty ring
    obtain ⟨_, _, late⟩ := holds Unit referenceDeps orderRecorder (fun _ => orderExchange) .new .seen (.start fun _ => ())
      [.enable, .sample, .decide]
    obtain ⟨ends, clock⟩ := fails_at_first_look limit now t' beyond (by omega)
    have inTime := late _ ends (Or.inr (Or.inl rfl))
    omega
  · intro representable σ deps rec exchange filter shape r moves short long
    have ahead := ahead_run deps rec exchange filter shape longer representable r moves
    have earlier : now + t ≤ limit := by omega
    refine ⟨?_, (punctual_run deps rec exchange earlier r moves).replied,
      (punctual_run deps rec exchange representable r moves).replied⟩
    rintro ⟨reply, at_, passed⟩
    rcases ahead.together with ⟨phase, _⟩ | is | ⟨reply', is, failed⟩
    · exact ⟨reply, phase.trans at_, passed⟩
    · cases at_.symm.trans is
    · obtain rfl : reply = reply' := by simpa using at_.symm.trans is
      rw [passed] at failed
      cases failed

/-- A wait of 5 ns and one of 10 ns, both on a clock that ends at 100. -/
theorem longer_timeout_iff_ten :
    let wait (t : Nat) := run referenceDeps orderRecorder (fun _ => orderExchange) ⟨.new, .seen, t⟩ 100 0 (.start fun _ => ())
      [.record (.call 0), .record (.acquire 0), .record (.push 0), .enable, .sample, .decide]
    (wait 5).Passed ∧ (wait 10).Passed := by
  intro wait
  have short : (wait 5).Passed := ⟨⟨.satisfied, "matched 1 exchanges", 1⟩, by decide, by decide⟩
  have onClock : 0 ≤ 100 := by decide
  have longer : 5 ≤ 10 := by decide
  have representable : 0 + 10 ≤ 100 := by decide
  exact ⟨short, ((longer_timeout_iff onClock longer).mpr representable Unit referenceDeps orderRecorder (fun _ => orderExchange)
    .new .seen (.start fun _ => ()) _).1 short⟩

/-- An order comes while a wait of five seconds is parked, and passes it. A wait of
`Duration::MAX` on the clock of Linux, whose seconds are an `i64`, has failed by then,
at the moment it began. -/
theorem longer_timeout_fails_earlier :
    let wait (t : Nat) := run referenceDeps orderRecorder (fun _ => orderExchange) ⟨.new, .seen, t⟩
      9223372036854775807999999999 0 (.start fun _ => ())
      [.enable, .sample, .decide, .record (.call 0), .record (.acquire 0), .record (.push 0), .record (.notify 0), .poll,
        .enable, .sample, .decide]
    (wait 5000000000).Passed ∧ ¬ (wait 18446744073709551615999999999).Passed ∧
      (wait 18446744073709551615999999999).phase =
        .replied ⟨.outOfTime, "timeout after 18446744073709551615.999999999s; matched 0 exchanges at expiry", 0⟩ ∧
      (wait 18446744073709551615999999999).clock = 0 := by
  intro wait
  have short : (wait 5000000000).Passed := ⟨⟨.satisfied, "matched 1 exchanges", 1⟩, by decide, by decide⟩
  have long : (wait 18446744073709551615999999999).phase =
      .replied ⟨.outOfTime, "timeout after 18446744073709551615.999999999s; matched 0 exchanges at expiry", 0⟩ := by decide
  refine ⟨short, ?_, long, by decide⟩
  rintro ⟨reply, at_, passed⟩
  rw [long] at at_
  cases at_
  cases passed

end Runs

end Waiting

end PartlyProxy
