import PartlyProxy.WaitFor
import PartlyProxy.Reference

namespace PartlyProxy.Waiting
variable {σ : Type} {deps : Deps} {rec : Recorder} {exchange : Nat → RecordedExchange} {a : Assertion}

@[simp] theorem remaining_tick (w : Waiting σ) (elapsed : Nat) :
    ({ w with clock := w.clock + elapsed } : Waiting σ).remaining = w.remaining - elapsed := by
  cases limit : w.deadline with
  | none => simp [remaining, limit]
  | some deadline => simp [remaining, limit, Nat.sub_add_eq]

/-- Nothing has told the loop of what came into the ring after its last look. -/
def Unaware (a : Assertion) (w : Waiting σ) : Prop :=
  (∃ count, w.phase = .sampled count ∧ ¬ a.shape.Satisfied count) ∨ w.phase = .parked ∧ w.notified = false ∨
    w.phase = .polled

/-- The ring never leaves what the assertion waits for before the loop has looked,
and never comes back to it once the loop has seen too many matches; and the time
does not run out between a satisfying push and the notification of the loop. -/
def Observable (deps : Deps) (rec : Recorder) (exchange : Nat → RecordedExchange) (a : Assertion) (w : Waiting σ) :
    WaitMove σ → Prop
  | .record move =>
    let after := (w.step deps rec exchange a (.record move)).count deps a
    ((∀ reply, w.phase ≠ .replied reply) → a.shape.Satisfied (w.count deps a) → a.shape.Satisfied after) ∧
      (w.phase ≠ .looping → w.phase ≠ .enabled → a.shape.Overshot (w.count deps a) → a.shape.Overshot after)
  | .tick elapsed =>
    a.shape.Satisfied (w.count deps a) → w.Unaware a → w.remaining ≠ 0 → elapsed < w.remaining
  | _ => True

/-- What has been decided against the assertion is final. -/
structure Justified (deps : Deps) (a : Assertion) (now : Nat) (w : Waiting σ) : Prop where
  deadline : w.deadline = some (now + a.timeout)
  started : now ≤ w.clock
  sampled : ∀ count, w.phase = .sampled count → a.shape.Overshot count → a.shape.Overshot (w.count deps a)
  expired : w.phase = .expired → w.remaining = 0
  replied : ∀ reply, w.phase = .replied reply → reply.passed = false →
    w.remaining = 0 ∨ a.shape.Overshot (w.count deps a)

/-- The wait is going to pass. -/
structure Due (deps : Deps) (a : Assertion) (w : Waiting σ) : Prop where
  replied : ∀ reply, w.phase = .replied reply → reply.passed = true
  satisfied : (∀ reply, w.phase ≠ .replied reply) → a.shape.Satisfied (w.count deps a)
  sampled : ∀ count, w.phase = .sampled count → ¬ a.shape.Overshot count
  running : w.phase ≠ .expired
  inTime : w.Unaware a → w.remaining ≠ 0

section Steps
variable {w w' : Waiting σ} {move : WaitMove σ} {now : Nat}

theorem decided_failed {count : Nat} {reply : WaitReply} (ends : w.decided a count = .replied reply)
    (failed : reply.passed = false) : a.timeout = 0 ∨ w.remaining = 0 ∨ a.shape.Overshot count := by
  unfold decided at ends
  split at ends
  · cases ends
    simp [WaitReply.passed] at failed
  · rename_i message fails
    exact Or.inr (Or.inr (evaluate_failed_iff.mp ⟨message, fails⟩))
  · split_ifs at ends with zero beyond
    · exact Or.inl zero
    · exact Or.inr (Or.inl beyond)

theorem Justified.step (justified : Justified deps a now w) (observable : Observable deps rec exchange a w move)
    (next : Stepped deps rec exchange a w move w') : Justified deps a now w' := by
  obtain ⟨deadline, started, sampled, expired, replied⟩ := justified
  cases next with
  | idle => exact ⟨deadline, started, sampled, expired, replied⟩
  | record _ same =>
    subst same
    refine ⟨deadline, started, fun count at_ beyond => ?_, expired, fun reply at_ failed => ?_⟩
    · have at_ : w.phase = .sampled count := at_
      exact observable.2 (by simp [at_]) (by simp [at_]) (sampled count at_ beyond)
    · have at_ : w.phase = .replied reply := at_
      exact (replied reply at_ failed).imp id (observable.2 (by simp [at_]) (by simp [at_]))
  | tick =>
    refine ⟨deadline, Nat.le_add_right_of_le started, sampled, fun at_ => ?_, fun reply at_ failed => ?_⟩
    · rw [remaining_tick, expired at_, Nat.zero_sub]
    · refine (replied reply at_ failed).imp (fun beyond => ?_) id
      rw [remaining_tick, beyond, Nat.zero_sub]
  | sample at_ free =>
    refine ⟨deadline, started, fun count same beyond => ?_, by simp, by simp⟩
    cases same
    exact beyond
  | @decide count at_ =>
    have spent : a.timeout = 0 → w.remaining = 0 := by
      intro zero
      simp only [remaining, deadline, zero]
      omega
    rcases decided_cases a w count with ⟨reply, ends⟩ | ⟨parks, _⟩
    · refine ⟨deadline, started, by simp [ends], by simp [ends], fun reply' same failed => ?_⟩
      rcases decided_failed (same : w.decided a count = .replied reply') failed with zero | beyond | beyond
      · exact Or.inl (spent zero)
      · exact Or.inl beyond
      · exact Or.inr (sampled count at_ beyond)
    · exact ⟨deadline, started, by simp [parks], by simp [parks], by simp [parks]⟩
  | expire at_ beyond => exact ⟨deadline, started, by simp, fun _ => beyond, by simp⟩
  | recount at_ free => exact ⟨deadline, started, by simp, by simp, fun _ _ _ => Or.inl (expired at_)⟩
  | _ => exact ⟨deadline, started, by simp, by simp, by simp⟩

theorem Due.step (due : Due deps a w) (positive : a.timeout ≠ 0) (observable : Observable deps rec exchange a w move)
    (next : Stepped deps rec exchange a w move w') : Due deps a w' := by
  obtain ⟨replied, satisfied, sampled, running, inTime⟩ := due
  cases next with
  | idle => exact ⟨replied, satisfied, sampled, running, inTime⟩
  | record _ same =>
    subst same
    refine ⟨replied, fun open_ => observable.1 open_ (satisfied open_), sampled, running, fun unaware => inTime ?_⟩
    rcases unaware with before | ⟨parked, quiet⟩ | polled
    · exact Or.inl before
    · exact Or.inr (Or.inl ⟨parked, by simp_all⟩)
    · exact Or.inr (Or.inr polled)
  | @tick elapsed =>
    refine ⟨replied, satisfied, sampled, running, fun unaware => ?_⟩
    have open_ : ∀ reply, w.phase ≠ .replied reply := by
      rcases unaware with ⟨count, at_, _⟩ | ⟨at_, _⟩ | at_ <;> simp_all
    have left : w.remaining ≠ 0 := inTime unaware
    have short : elapsed < w.remaining := observable (satisfied open_) unaware left
    rw [remaining_tick]
    omega
  | enable at_ => exact ⟨by simp, fun _ => satisfied (by simp [at_]), by simp, by simp, by simp [Unaware]⟩
  | sample at_ free =>
    have now_ := satisfied (by simp [at_])
    refine ⟨by simp, fun _ => now_, fun count same => ?_, by simp, fun unaware => ?_⟩
    · cases same
      exact fun beyond => beyond.not_satisfied now_
    · rcases unaware with ⟨count, same, not_⟩ | ⟨other, _⟩ | other
      · cases same
        exact (not_ now_).elim
      · cases other
      · cases other
  | @decide count at_ =>
    by_cases seen : a.shape.Satisfied count
    · obtain ⟨message, passes⟩ := evaluate_passed_iff.mpr seen
      have ends : w.decided a count = .replied ⟨.satisfied, message, count⟩ := by simp only [decided, passes]
      refine ⟨fun reply same => ?_, fun open_ => (open_ _ ends).elim, ?_, ?_, ?_⟩
      · cases ends.symm.trans same
        rfl
      all_goals simp [ends, Unaware]
    · -- The loop goes by an old count, but there is time left to wait.
      have left : w.remaining ≠ 0 := inTime (Or.inl ⟨count, at_, seen⟩)
      rcases decided_cases a w count with ⟨reply, ends⟩ | ⟨parks, _⟩
      · cases verdict : reply.passed with
        | true =>
          obtain ⟨same, _, sound⟩ := decided_sound ends
          exact (seen (same ▸ sound.satisfied (by simpa [WaitReply.passed] using verdict))).elim
        | false =>
          rcases decided_failed ends verdict with zero | beyond | beyond
          · exact (positive zero).elim
          · exact (left beyond).elim
          · exact (sampled count at_ beyond).elim
      · exact ⟨by simp [parks], fun _ => satisfied (by simp [at_]), by simp [parks], by simp [parks], fun _ => left⟩
  | wake at_ heard => exact ⟨by simp, fun _ => satisfied (by simp [at_]), by simp, by simp, by simp [Unaware]⟩
  | poll at_ quiet =>
    have left := inTime (Or.inr (Or.inl ⟨at_, quiet⟩))
    exact ⟨by simp, fun _ => satisfied (by simp [at_]), by simp, by simp, fun _ => left⟩
  | expire at_ beyond => exact (inTime (Or.inr (Or.inr at_)) beyond).elim
  | park at_ left => exact ⟨by simp, fun _ => satisfied (by simp [at_]), by simp, by simp, fun _ => left⟩
  | recount at_ free => exact (running at_).elim

end Steps

/-- The moves that take the loop, left alone, from any phase to its reply. -/
def ownMoves : List (WaitMove σ) := [.decide, .timer, .poll, .enable, .sample, .decide]

theorem looks_and_passes {w : Waiting σ} (satisfied : a.shape.Satisfied (w.count deps a))
    (free : w.recorder.lock = none) (waiting : w.phase = .looping ∨ w.phase = .enabled) :
    ∃ reply, (Execution.exec (step deps rec exchange a) w [.enable, .sample, .decide]).phase = .replied reply ∧
      reply.passed = true := by
  obtain ⟨message, passes⟩ := evaluate_passed_iff.mpr satisfied
  have same : ∀ notified phase, ({ w with notified := notified, phase := phase } : Waiting σ).count deps a =
      w.count deps a := fun _ _ => rfl
  refine ⟨⟨.satisfied, message, w.count deps a⟩, ?_, rfl⟩
  rcases waiting with at_ | at_
  · simp only [Execution.exec_cons, Execution.exec_nil, step, at_, free, decided, same, passes]
  · simp only [Execution.exec_cons, Execution.exec_nil, step, at_, free, decided, passes]

/-- A loop that is going to pass, while no call is on its way. -/
structure Settled (deps : Deps) (a : Assertion) (w : Waiting σ) : Prop where
  due : Due deps a w
  attentive : w.Attentive deps a
  free : w.recorder.lock = none
  unowed : ∀ i, w.recorder.phase i ≠ .notifying

section Settled
variable {w : Waiting σ}

variable (rec exchange) in
theorem Settled.step (settled : Settled deps a w) (positive : a.timeout ≠ 0) (move : WaitMove σ)
    (own : move = .decide ∨ move = .timer ∨ move = .poll) :
    Settled deps a (w.step deps rec exchange a move) := by
  have next := stepped deps rec exchange a w move
  have same : (w.step deps rec exchange a move).recorder = w.recorder := by
    rcases own with rfl | rfl | rfl <;> simp only [Waiting.step] <;> split <;> rfl
  have observable : Observable deps rec exchange a w move := by rcases own with rfl | rfl | rfl <;> trivial
  exact ⟨settled.due.step positive observable next, settled.attentive.step next, same ▸ settled.free,
    same ▸ settled.unowed⟩

theorem Settled.notified (settled : Settled deps a w) (parked : w.phase = .parked) : w.notified = true := by
  rcases settled.attentive with heard | ⟨i, owing⟩ | current
  · exact heard
  · exact (settled.unowed i owing).elim
  · have satisfied := settled.due.satisfied (by simp [parked])
    exact (not_satisfied_of_pending (current.parked (Or.inl parked)) satisfied).elim

variable (deps rec exchange a) in
/-- The given moves end in a passing reply. -/
def PassesBy (w : Waiting σ) (moves : List (WaitMove σ)) : Prop :=
  ∃ reply, (Execution.exec (Waiting.step deps rec exchange a) w moves).phase = .replied reply ∧ reply.passed = true

theorem Settled.passes_replied (settled : Settled deps a w) {reply : WaitReply} (at_ : w.phase = .replied reply)
    {moves : List (WaitMove σ)} (own : moves.Sublist ownMoves) : PassesBy deps rec exchange a w moves := by
  refine ⟨reply, ?_, settled.due.replied reply at_⟩
  have idle : ∀ move ∈ ownMoves, w.step deps rec exchange a move = w := by
    simp [ownMoves, Waiting.step, at_]
  have stays : Execution.exec (Waiting.step deps rec exchange a) w moves = w := by
    clear settled
    induction moves with
    | nil => rfl
    | cons move rest ih =>
      rw [Execution.exec_cons, idle move (own.subset (List.mem_cons_self ..))]
      exact ih ((List.sublist_cons_self move rest).trans own)
  rw [stays, at_]

theorem Settled.passes_looking (settled : Settled deps a w) (waiting : w.phase = .looping ∨ w.phase = .enabled) :
    PassesBy deps rec exchange a w [.enable, .sample, .decide] := by
  refine looks_and_passes (settled.due.satisfied ?_) settled.free waiting
  rcases waiting with at_ | at_ <;> simp [at_]

theorem Settled.passes_polling (settled : Settled deps a w) (positive : a.timeout ≠ 0)
    (notSampled : ∀ count, w.phase ≠ .sampled count) (notPolled : w.phase ≠ .polled) :
    PassesBy deps rec exchange a w [.poll, .enable, .sample, .decide] := by
  have next := settled.step rec exchange positive .poll (by simp)
  cases phase : w.phase with
  | looping => exact next.passes_looking (by simp [Waiting.step, phase])
  | enabled => exact next.passes_looking (by simp [Waiting.step, phase])
  | sampled count => exact (notSampled count phase).elim
  | parked => exact next.passes_looking (by simp [Waiting.step, phase, settled.notified phase])
  | polled => exact (notPolled phase).elim
  | expired => exact (settled.due.running phase).elim
  | replied reply => exact settled.passes_replied phase (by simp [ownMoves])

theorem Settled.passes_timing (settled : Settled deps a w) (positive : a.timeout ≠ 0)
    (notSampled : ∀ count, w.phase ≠ .sampled count) :
    PassesBy deps rec exchange a w [.timer, .poll, .enable, .sample, .decide] := by
  have next := settled.step rec exchange positive .timer (by simp)
  refine next.passes_polling positive (fun count => ?_) ?_
  all_goals
    have left : w.phase = .polled → w.remaining ≠ 0 := fun at_ => settled.due.inTime (Or.inr (Or.inr at_))
    simp only [Waiting.step]
    split <;> simp_all

theorem Settled.passes (settled : Settled deps a w) (positive : a.timeout ≠ 0) :
    PassesBy deps rec exchange a w ownMoves := by
  have next := settled.step rec exchange positive .decide (by simp)
  refine next.passes_timing positive fun count => ?_
  simp only [Waiting.step]
  split
  · rename_i sample at_
    rcases decided_cases a w sample with ⟨reply, ends⟩ | ⟨parks, _⟩
    · simp [ends]
    · simp [parks]
  · rename_i other
    exact other count

end Settled

section Runs
variable (deps rec exchange a) (limit now : Nat) (r : Recording σ)

theorem start_justified {limit now : Nat} (representable : now + a.timeout ≤ limit) :
    Justified deps a now (start a limit now r) := by
  refine ⟨?_, Nat.le_refl now, by simp [start], by simp [start], by simp [start]⟩
  simp [start, representable]

variable {limit now} in
/-- When the ring keeps what the assertion waits for until the loop looks, does
not return to it after an overshoot, and the loop hears of it in time: an
assertion that is satisfied at some moment before its timeout never fails, and
passes once no call is on its way. -/
theorem satisfied_passes (representable : now + a.timeout ≤ limit) {front back : List (WaitMove σ)}
    (observable : Execution.Along (step deps rec exchange a) (Observable deps rec exchange a) (start a limit now r)
      (front ++ back))
    (inTime : (run deps rec exchange a limit now r front).clock < now + a.timeout)
    (satisfied : a.shape.Satisfied ((run deps rec exchange a limit now r front).count deps a)) :
    let w := run deps rec exchange a limit now r (front ++ back)
    (∀ reply, w.phase = .replied reply → reply.passed = true) ∧
      (w.recorder.lock = none → (∀ i, w.recorder.phase i ≠ .notifying) →
        ∃ reply, (Execution.exec (step deps rec exchange a) w ownMoves).phase = .replied reply ∧
          reply.passed = true) := by
  intro w
  obtain ⟨before, after⟩ := (Execution.along_append _).mp observable
  have justified : Justified deps a now (run deps rec exchange a limit now r front) :=
    Execution.exec_invariant_along (step deps rec exchange a) (I := Justified deps a now)
      (fun w move observable justified => justified.step observable (stepped deps rec exchange a w move))
      (start_justified deps a r representable) before
  have left : (run deps rec exchange a limit now r front).remaining ≠ 0 := by
    simp only [remaining, justified.deadline]
    omega
  have positive : a.timeout ≠ 0 := by
    intro zero
    rw [zero] at inTime
    exact Nat.not_lt.mpr justified.started inTime
  have notOver : ¬ a.shape.Overshot ((run deps rec exchange a limit now r front).count deps a) :=
    fun beyond => beyond.not_satisfied satisfied
  have here : Due deps a (run deps rec exchange a limit now r front) := by
    refine ⟨fun reply at_ => ?_, fun _ => satisfied, fun count at_ beyond => notOver (justified.sampled count at_ beyond),
      fun at_ => left (justified.expired at_), fun _ => left⟩
    cases verdict : reply.passed with
    | true => rfl
    | false => exact ((justified.replied reply at_ verdict).elim left notOver).elim
  have due : Due deps a w := by
    have whole : w = Execution.exec (step deps rec exchange a) (run deps rec exchange a limit now r front) back :=
      Execution.exec_append _ _ _ _
    rw [whole]
    exact Execution.exec_invariant_along (step deps rec exchange a) (I := Due deps a)
      (fun w move observable due => due.step positive observable (stepped deps rec exchange a w move)) here after
  refine ⟨due.replied, fun free unowed => ?_⟩
  exact Settled.passes ⟨due, attentive_run deps rec exchange a limit now r _, free, unowed⟩ positive

end Runs

/-- A recorded order, and a wait of 10 ns on a ring of ten such. -/
def orderExchange : RecordedExchange :=
  ⟨referenceStamp.id, some "api", referenceStamp.timestamp, referenceStamp.duration, ⟨"GET", "/orders", [], [], ""⟩,
    .response ⟨200, [], []⟩, .empty⟩

def orderRecorder : Recorder := ⟨.inMemory 10, fun _ => none⟩

def waitForOrders (shape : AssertionShape) (moves : List (WaitMove Unit)) : Waiting Unit :=
  run referenceDeps orderRecorder (fun _ => orderExchange) ⟨.new, shape, 10⟩ 100 0 (.start fun _ => ()) moves

/-- Two orders come between two looks of the loop: the count was right, and the
wait fails. -/
theorem burst_overshoots :
    let front : List (WaitMove Unit) :=
      [.enable, .sample, .decide, .record (.call 0), .record (.acquire 0), .record (.push 0)]
    let back : List (WaitMove Unit) := [.record (.notify 0), .record (.call 1), .record (.acquire 1),
      .record (.push 1), .record (.notify 1), .poll, .enable, .sample, .decide]
    (waitForOrders (.count 1) front).clock < 0 + 10 ∧
      AssertionShape.Satisfied (.count 1) ((waitForOrders (.count 1) front).count referenceDeps ⟨.new, .count 1, 10⟩) ∧
      ∃ message, (waitForOrders (.count 1) (front ++ back)).phase = .replied ⟨.overshoot, message, 2⟩ ∧
        (⟨.overshoot, message, 2⟩ : WaitReply).passed = false := by
  intro front back
  exact ⟨by decide, by decide, _, rfl, rfl⟩

theorem one_order_passes :
    let front : List (WaitMove Unit) :=
      [.enable, .sample, .decide, .record (.call 0), .record (.acquire 0), .record (.push 0)]
    let back : List (WaitMove Unit) := [.record (.notify 0), .poll, .enable, .sample, .decide]
    ∃ message, (waitForOrders .seen (front ++ back)).phase = .replied ⟨.satisfied, message, 1⟩ ∧
      (⟨.satisfied, message, 1⟩ : WaitReply).passed = true := by
  intro front back
  let a : Assertion := ⟨.new, .seen, 10⟩
  have keeps : ∀ (w : Waiting Unit) move,
      (1 ≤ w.count referenceDeps a →
        1 ≤ (w.step referenceDeps orderRecorder (fun _ => orderExchange) a (.record move)).count referenceDeps a) →
      Observable referenceDeps orderRecorder (fun _ => orderExchange) a w (.record move) :=
    fun w move kept => ⟨fun _ => kept, fun _ _ ⟨expected, other, _⟩ => by cases other⟩
  have observable : Execution.Along (step referenceDeps orderRecorder (fun _ => orderExchange) a)
      (Observable referenceDeps orderRecorder (fun _ => orderExchange) a)
      (start a 100 0 (.start fun _ => ())) (front ++ back) :=
    ⟨trivial, trivial, trivial, keeps _ _ (by decide), keeps _ _ (by decide), keeps _ _ (by decide),
      keeps _ _ (by decide), trivial, trivial, trivial, trivial, trivial⟩
  exact ⟨_, rfl, (satisfied_passes referenceDeps orderRecorder (fun _ => orderExchange) a (.start fun _ => ())
    (by decide) observable (by decide) (by decide)).1 _ rfl⟩

/-- From the moment the timer fires to the last look at the ring, the ring does not
satisfy the assertion. -/
def Unraced (deps : Deps) (rec : Recorder) (exchange : Nat → RecordedExchange) (a : Assertion) (w : Waiting σ) :
    WaitMove σ → Prop
  | .timer => w.phase = .polled → w.remaining = 0 → ¬ a.shape.Satisfied (w.count deps a)
  | .record (.push i) =>
    w.phase = .expired → ¬ a.shape.Satisfied ((w.step deps rec exchange a (.record (.push i))).count deps a)
  | _ => True

/-- A failure, given or on its way, agrees with its count. -/
structure Consonant (deps : Deps) (a : Assertion) (w : Waiting σ) : Prop where
  open_ : w.Parked ∨ w.phase = .expired → evaluate a.shape 0 = .pending
  expired : w.phase = .expired → ¬ a.shape.Satisfied (w.count deps a)
  replied : ∀ reply, w.phase = .replied reply → reply.passed = false → ¬ a.shape.Satisfied reply.counted

section Steps
variable {w w' : Waiting σ} {move : WaitMove σ}

theorem Sound.not_satisfied {reply : WaitReply} (sound : reply.Sound a) (failed : reply.passed = false)
    (inTime : reply.exit ≠ .timedOut) : ¬ a.shape.Satisfied reply.counted := by
  cases exit : reply.exit with
  | satisfied => simp [WaitReply.passed, exit] at failed
  | overshoot => exact (sound.overshoot exit).not_satisfied
  | immediate => exact not_satisfied_of_pending (sound.undecided (Or.inl exit))
  | outOfTime => exact not_satisfied_of_pending (sound.undecided (Or.inr exit))
  | timedOut => exact (inTime exit).elim

theorem Consonant.step (consonant : Consonant deps a w) (unraced : Unraced deps rec exchange a w move)
    (next : Stepped deps rec exchange a w move w') : Consonant deps a w' := by
  obtain ⟨open_, expired, replied⟩ := consonant
  cases next with
  | idle => exact ⟨open_, expired, replied⟩
  | @record move r next same =>
    refine ⟨open_, fun at_ => ?_, replied⟩
    have at_ : w.phase = .expired := at_
    rcases next.owed with kept | emptied | ⟨i, rfl, _⟩
    · simpa only [Waiting.count, kept] using expired at_
    · have none_ := not_satisfied_of_pending (open_ (Or.inr at_))
      simpa only [Waiting.count, emptied, countMatching_nil] using none_
    · subst same
      exact unraced at_
  | tick => exact ⟨open_, expired, replied⟩
  | @decide count at_ =>
    rcases decided_cases a w count with ⟨reply, ends⟩ | ⟨parks, pending⟩
    · refine ⟨by simp [Parked, ends], by simp [ends], fun reply' same failed => ?_⟩
      obtain ⟨_, inTime, sound⟩ := decided_sound (same : w.decided a count = .replied reply')
      exact Sound.not_satisfied sound failed inTime
    · exact ⟨fun _ => evaluate_pending_zero pending, by simp [parks], by simp [parks]⟩
  | poll at_ quiet => exact ⟨fun _ => open_ (Or.inl (Or.inl at_)), by simp, by simp⟩
  | expire at_ beyond => exact ⟨fun _ => open_ (Or.inl (Or.inr at_)), fun _ => unraced at_ beyond, by simp⟩
  | park at_ left => exact ⟨fun _ => open_ (Or.inl (Or.inr at_)), by simp, by simp⟩
  | recount at_ free =>
    refine ⟨by simp [Parked], by simp, fun reply same _ => ?_⟩
    cases same
    exact expired at_
  | _ => exact ⟨by simp [Parked], by simp, by simp⟩

end Steps

/-- When no push races with the timer, a failing reply never reports a count that
satisfies the assertion. -/
theorem failure_agrees_with_count (deps : Deps) (rec : Recorder) (exchange : Nat → RecordedExchange) (a : Assertion)
    (limit now : Nat) (r : Recording σ) {moves : List (WaitMove σ)}
    (unraced : Execution.Along (step deps rec exchange a) (Unraced deps rec exchange a) (start a limit now r) moves)
    {reply : WaitReply} (replied : (run deps rec exchange a limit now r moves).phase = .replied reply)
    (failed : reply.passed = false) : ¬ a.shape.Satisfied reply.counted := by
  have consonant : Consonant deps a (run deps rec exchange a limit now r moves) :=
    Execution.exec_invariant_along (step deps rec exchange a) (I := Consonant deps a)
      (fun w move unraced consonant => consonant.step unraced (stepped deps rec exchange a w move))
      ⟨by simp [Parked, start], by simp [start], by simp [start]⟩ unraced
  exact consonant.replied reply replied failed

theorem failure_agrees_with_count_none :
    let moves : List (WaitMove Unit) := [.enable, .sample, .decide, .tick 10, .poll, .timer, .recount]
    ∃ message, (waitForOrders .seen moves).phase = .replied ⟨.timedOut, message, 0⟩ ∧
      ¬ AssertionShape.seen.Satisfied (⟨.timedOut, message, 0⟩ : WaitReply).counted := by
  intro moves
  have unraced : Execution.Along (step referenceDeps orderRecorder (fun _ => orderExchange) ⟨.new, .seen, 10⟩)
      (Unraced referenceDeps orderRecorder (fun _ => orderExchange) ⟨.new, .seen, 10⟩)
      (start ⟨.new, .seen, 10⟩ 100 0 (.start fun _ => ())) moves :=
    ⟨trivial, trivial, trivial, trivial, trivial, fun _ _ => by decide, trivial, trivial⟩
  exact ⟨_, rfl, failure_agrees_with_count referenceDeps orderRecorder (fun _ => orderExchange) ⟨.new, .seen, 10⟩ 100 0
    (.start fun _ => ()) unraced rfl rfl⟩

/-- The order is in the ring and its notification is still owed when the timer
fires: the wait fails and reports the match. -/
theorem late_order_reported_as_failure :
    let moves : List (WaitMove Unit) := [.enable, .sample, .decide, .record (.call 0), .record (.acquire 0), .tick 10,
      .record (.push 0), .poll, .timer, .recount]
    ∃ message, (waitForOrders .seen moves).phase = .replied ⟨.timedOut, message, 1⟩ ∧
      (⟨.timedOut, message, 1⟩ : WaitReply).passed = false ∧ AssertionShape.seen.Satisfied 1 := by
  intro moves
  exact ⟨_, rfl, rfl, by decide⟩

end PartlyProxy.Waiting
