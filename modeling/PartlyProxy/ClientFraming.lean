import PartlyProxy.ProxyClient
import PartlyProxy.Lib.Lines
import Mathlib.Data.List.TakeWhile

namespace PartlyProxy

namespace ProxyClient
variable {opts : ProxyClientOptions} {calls : Nat → ClientCall} {c : ProxyClient}

/-- The states of a client whose socket may bring anything at any time. -/
inductive Reached (opts : ProxyClientOptions) (calls : Nat → ClientCall) : ProxyClient → Prop
  | connects : Reached opts calls connect
  | steps {c : ProxyClient} (server : ControlServer) (move : ClientMove) : Reached opts calls c →
      Reached opts calls (c.step opts calls server move)
  | receives {c : ProxyClient} (chunk : List Char) : Reached opts calls c → Reached opts calls (c.onData chunk)

/-- Between two events the buffer has no whole line, and each of the waiters is there
once and waits. -/
structure Framed (c : ProxyClient) : Prop where
  broken : '\n' ∉ c.buffer
  once : c.pending.Nodup
  waiting : ∀ k ∈ c.pending, c.reply k = none

/-- The lines go to the waiters in order, one each, as long as there are both; a line
with no waiter is dropped, and no other promise is touched. -/
structure HandsOut (c : ProxyClient) (lines : List (List Char)) (d : ProxyClient) : Prop where
  served : ∀ (i : Nat) waiter line, c.pending[i]? = some waiter → lines[i]? = some line →
    c.reply waiter = none ∧ d.reply waiter = some (.line line)
  others : ∀ k, k ∉ c.pending.take lines.length → d.reply k = c.reply k
  pending : d.pending = c.pending.drop lines.length

section Resolving

theorem resolveNext_withBuffer (c : ProxyClient) (line rest : List Char) :
    { c with buffer := rest }.resolveNext line = { c.resolveNext line with buffer := rest } := by
  cases waiters : c.pending with
  | nil => simp only [resolveNext, waiters]
  | cons waiter others => simp only [resolveNext, waiters]

theorem foldl_resolveNext_withBuffer (lines : List (List Char)) (c : ProxyClient) (rest : List Char) :
    lines.foldl resolveNext { c with buffer := rest } = { lines.foldl resolveNext c with buffer := rest } := by
  induction lines generalizing c with
  | nil => rfl
  | cons line lines ih => rw [List.foldl_cons, resolveNext_withBuffer, ih, List.foldl_cons]

theorem pending_foldl_resolveNext (lines : List (List Char)) (c : ProxyClient) :
    (lines.foldl resolveNext c).pending = c.pending.drop lines.length := by
  induction lines generalizing c with
  | nil => rfl
  | cons line lines ih =>
    rw [List.foldl_cons, ih, List.length_cons]
    cases waiters : c.pending with
    | nil => simp [resolveNext, waiters]
    | cons waiter others => simp [resolveNext, waiters]

theorem foldl_resolveNext_frame (lines : List (List Char)) (c : ProxyClient) :
    (lines.foldl resolveNext c).fatal = c.fatal ∧ (lines.foldl resolveNext c).socket = c.socket := by
  induction lines generalizing c with
  | nil => exact ⟨rfl, rfl⟩
  | cons line lines ih =>
    obtain ⟨fatal, socket⟩ := ih (c.resolveNext line)
    rw [List.foldl_cons, fatal, socket]
    cases waiters : c.pending with
    | nil => simp [resolveNext, waiters]
    | cons waiter others => simp [resolveNext, waiters]

/-- The lines go to the waiters one by one, and to nobody else. -/
theorem reply_foldl_resolveNext (lines : List (List Char)) {c : ProxyClient} (once : c.pending.Nodup)
    (waiting : ∀ k ∈ c.pending, c.reply k = none) :
    (∀ (i : Nat) waiter line, c.pending[i]? = some waiter → lines[i]? = some line →
      (lines.foldl resolveNext c).reply waiter = some (.line line)) ∧
    ∀ k, k ∉ c.pending.take lines.length → (lines.foldl resolveNext c).reply k = c.reply k := by
  induction lines generalizing c with
  | nil => simp
  | cons line lines ih =>
    rw [List.foldl_cons]
    cases waiters : c.pending with
    | nil =>
      have dropped : c.resolveNext line = c := by simp only [resolveNext, waiters]
      obtain ⟨_, kept⟩ := ih once waiting
      rw [waiters] at kept
      rw [dropped]
      refine ⟨fun i waiter line' isWaiter => ?_, fun k _ => kept k (by simp)⟩
      simp at isWaiter
    | cons first others =>
      rw [waiters] at once waiting
      obtain ⟨absent, once⟩ := List.nodup_cons.mp once
      have handed : c.resolveNext line = { c with pending := others, reply := settleOnce c.reply first (.line line) } := by
        simp only [resolveNext, waiters]
      have stillWaiting : ∀ k ∈ others, settleOnce c.reply first (.line line) k = none := by
        intro k member
        have apart : k ≠ first := fun same => absent (same ▸ member)
        rw [settleOnce_other c.reply apart]
        exact waiting k (List.mem_cons_of_mem _ member)
      rw [handed]
      obtain ⟨served, kept⟩ := ih (c := { c with
        pending := others
        reply := settleOnce c.reply first (.line line) }) once stillWaiting
      refine ⟨fun i waiter line' isWaiter isLine => ?_, fun k beyond => ?_⟩
      · cases i with
        | zero =>
          obtain rfl : first = waiter := by simpa using isWaiter
          obtain rfl : line = line' := by simpa using isLine
          rw [kept first fun member => absent (List.mem_of_mem_take member)]
          exact settleOnce_self (waiting first (List.mem_cons_self ..)) _
        | succ i =>
          rw [List.getElem?_cons_succ] at isWaiter isLine
          exact served i waiter line' isWaiter isLine
      · rw [List.length_cons, List.take_succ_cons, List.mem_cons, not_or] at beyond
        rw [kept k beyond.2]
        exact settleOnce_other c.reply beyond.1 _

end Resolving

section Loop

theorem onDataLoop_done (fuel : Nat) (broken : '\n' ∉ c.buffer) : onDataLoop fuel c = c := by
  cases fuel with
  | zero => rfl
  | succ fuel =>
    have passed := Lines.passes_of_not_mem broken
    have cut : c.buffer.span (· ≠ '\n') = (c.buffer, []) := by
      rw [List.span_eq_takeWhile_dropWhile, List.takeWhile_eq_self_iff.mpr passed, List.dropWhile_eq_nil_iff.mpr passed]
    rw [onDataLoop, cut]

theorem onDataLoop_line (fuel : Nat) {line rest : List Char} (unbroken : '\n' ∉ line)
    (isLine : c.buffer = line ++ '\n' :: rest) :
    onDataLoop (fuel + 1) c = onDataLoop fuel ({ c with buffer := rest }.resolveNext line) := by
  have passed := Lines.passes_of_not_mem unbroken
  have cut : c.buffer.span (· ≠ '\n') = (line, '\n' :: rest) := by
    rw [List.span_eq_takeWhile_dropWhile, isLine, List.takeWhile_append_of_pos passed, List.dropWhile_append_of_pos passed]
    simp
  rw [onDataLoop, cut]

/-- The loop hands out the whole lines of the buffer and leaves the rest. -/
theorem onDataLoop_eq {fuel : Nat} {c : ProxyClient} {lines : List (List Char)} {rest : List Char}
    (text : c.buffer = lines.flatMap (· ++ ['\n']) ++ rest) (unbroken : ∀ line ∈ lines, '\n' ∉ line) (broken : '\n' ∉ rest)
    (enough : c.buffer.length ≤ fuel) : onDataLoop fuel c = { lines.foldl resolveNext c with buffer := rest } := by
  induction lines generalizing fuel c with
  | nil =>
    have isRest : c.buffer = rest := text
    rw [onDataLoop_done fuel (isRest ▸ broken), ← isRest]
    rfl
  | cons line lines ih =>
    obtain ⟨here, later⟩ := List.forall_mem_cons.mp unbroken
    have first : c.buffer = line ++ '\n' :: (lines.flatMap (· ++ ['\n']) ++ rest) := by simp [text]
    have length := congrArg List.length first
    rw [List.length_append, List.length_cons] at length
    obtain ⟨less, rfl⟩ : ∃ less, fuel = less + 1 := ⟨fuel - 1, by omega⟩
    rw [onDataLoop_line less here first, resolveNext_withBuffer]
    have shorter : (lines.flatMap (· ++ ['\n']) ++ rest).length ≤ less := by omega
    rw [ih (c := { c.resolveNext line with buffer := lines.flatMap (· ++ ['\n']) ++ rest }) rfl later shorter,
      foldl_resolveNext_withBuffer, List.foldl_cons]

end Loop

theorem onData_eq {chunk rest : List Char} {lines : List (List Char)}
    (split : (c.buffer ++ chunk).splitOn '\n' = lines ++ [rest]) :
    c.onData chunk = { lines.foldl resolveNext c with buffer := rest } := by
  obtain ⟨unbroken, broken⟩ := Lines.unbroken_of_splitOn split
  rw [onData, onDataLoop_eq (Lines.lines_of_splitOn split) unbroken broken (by rw [List.length_append]),
    foldl_resolveNext_withBuffer]

theorem onData_frame (c : ProxyClient) (chunk : List Char) :
    (c.onData chunk).fatal = c.fatal ∧ (c.onData chunk).socket = c.socket := by
  obtain ⟨lines, rest, split⟩ := Lines.exists_split '\n' (c.buffer ++ chunk)
  rw [onData_eq split]
  exact foldl_resolveNext_frame lines c

/-- Chunk by chunk the client does what it would do with the whole stream. -/
theorem foldl_onData_eq {chunks : List (List Char)} {rest : List Char} {lines : List (List Char)} (broken : '\n' ∉ c.buffer)
    (split : (c.buffer ++ chunks.flatten).splitOn '\n' = lines ++ [rest]) :
    chunks.foldl onData c = { lines.foldl resolveNext c with buffer := rest } := by
  induction chunks generalizing c lines with
  | nil =>
    have whole : lines ++ [rest] = [] ++ [c.buffer] := by
      rw [← split, List.flatten_nil, List.append_nil, List.splitOn_eq_singleton broken, List.nil_append]
    obtain ⟨rfl, isRest⟩ := List.append_inj' whole rfl
    obtain rfl := List.singleton_inj.mp isRest
    rfl
  | cons chunk chunks ih =>
    -- what the chunk completes, and what the later ones do to the rest of it
    obtain ⟨now, left, first⟩ := Lines.exists_split '\n' (c.buffer ++ chunk)
    obtain ⟨later, last, then_⟩ := Lines.exists_split '\n' (left ++ chunks.flatten)
    have whole : lines ++ [rest] = (now ++ later) ++ [last] := by
      rw [← split, List.flatten_cons, ← List.append_assoc, Lines.splitOn_append first, then_, List.append_assoc]
    obtain ⟨rfl, isLast⟩ := List.append_inj' whole rfl
    obtain rfl := List.singleton_inj.mp isLast
    have broken : '\n' ∉ left := (Lines.unbroken_of_splitOn first).2
    rw [List.foldl_cons, onData_eq first, ih broken then_, foldl_resolveNext_withBuffer, List.foldl_append]

section Invariant
variable {d : ProxyClient} {server : ControlServer}

theorem Framed.congr (framed : Framed c) (buffer : d.buffer = c.buffer) (pending : d.pending = c.pending)
    (reply : d.reply = c.reply) : Framed d := by
  refine ⟨buffer ▸ framed.broken, pending ▸ framed.once, ?_⟩
  rw [pending, reply]
  exact framed.waiting

theorem Framed.onData (framed : Framed c) (chunk : List Char) : Framed (c.onData chunk) := by
  obtain ⟨lines, rest, split⟩ := Lines.exists_split '\n' (c.buffer ++ chunk)
  have pending := pending_foldl_resolveNext lines c
  rw [onData_eq split]
  refine ⟨(Lines.unbroken_of_splitOn split).2, ?_, ?_⟩
  · exact pending ▸ framed.once.sublist (List.drop_sublist ..)
  · intro k member
    rw [pending] at member
    have unserved : k ∉ c.pending.take lines.length := by
      intro served
      exact List.disjoint_take_drop framed.once (Nat.le_refl _) served member
    refine ((reply_foldl_resolveNext lines framed.once framed.waiting).2 k unserved).trans ?_
    exact framed.waiting k (List.mem_of_mem_drop member)

theorem Framed.fail (framed : Framed c) (err : ClientError) : Framed (c.fail err) :=
  ⟨framed.broken, List.nodup_nil, fun _ member => (List.not_mem_nil member).elim⟩

theorem Framed.enter (framed : Framed c) (sound : Sound c) {k : Nat} {rest : List Nat} (queue : c.queue = k :: rest)
    (accepted : Bool) : Framed (c.enter opts calls accepted k rest) := by
  obtain ⟨_, _, open_, absent, _⟩ := sound.queued k (by rw [queue]; exact List.mem_cons_self ..)
  have joins : Framed { c with pending := c.pending ++ [k] } := by
    refine ⟨framed.broken, ?_, ?_⟩
    · rw [List.nodup_append]
      refine ⟨framed.once, List.pairwise_singleton _ k, fun j member j' isNew same => ?_⟩
      rw [List.mem_singleton.mp isNew] at same
      exact absent (same ▸ member)
    · intro j member
      rcases List.mem_append.mp member with old | new
      · exact framed.waiting j old
      · rw [List.mem_singleton.mp new]
        exact open_
  simp only [ProxyClient.enter]
  split
  · split
    · exact joins.congr rfl rfl rfl
    · exact joins.congr rfl rfl rfl
  · exact joins.congr rfl rfl rfl

theorem Framed.step (framed : Framed c) (sound : Sound c) (move : ClientMove) : Framed (c.step opts calls server move) := by
  have steps := stepped opts calls server c move
  generalize c.step opts calls server move = d at steps ⊢
  cases steps with
  | rests => exact framed
  | enters accepted _ queue => exact framed.enter sound queue accepted
  | receives => exact (framed.onData _).congr rfl rfl rfl
  | idles => exact framed.fail _
  | breaks | closes => exact (framed.fail _).congr rfl rfl rfl
  | refuses | queues | settles | drains | expires | ticks => exact framed.congr rfl rfl rfl

theorem Reached.framed (reached : Reached opts calls c) : Sound c ∧ Framed c := by
  induction reached with
  | connects => exact ⟨sound_connect, by simp [connect], List.nodup_nil, by simp [connect]⟩
  | steps server move _ ih =>
    obtain ⟨sound, framed⟩ := ih
    exact ⟨sound.step move, framed.step sound move⟩
  | receives chunk _ ih =>
    obtain ⟨sound, framed⟩ := ih
    exact ⟨sound.resolves (resolves_onData _ chunk), framed.onData chunk⟩

theorem Reached.run (opts : ProxyClientOptions) (calls : Nat → ClientCall) (server : ControlServer) (moves : List ClientMove) :
    Reached opts calls (run opts calls server moves) :=
  Execution.exec_invariant (ProxyClient.step opts calls server) (I := Reached opts calls)
    (fun _ move reached => reached.steps server move) .connects moves

end Invariant

/-- However a stream is cut into chunks, its whole lines go to those who wait when it
begins, in order, and what is left of it without a line feed stays in the buffer. -/
theorem framing_by_lines (reached : Reached opts calls c) (chunks : List (List Char)) :
    chunks.foldl onData c = c.onData chunks.flatten ∧
      ∃ lines, (c.buffer ++ chunks.flatten).splitOn '\n' = lines ++ [(chunks.foldl onData c).buffer] ∧
        '\n' ∉ (chunks.foldl onData c).buffer ∧ HandsOut c lines (chunks.foldl onData c) := by
  obtain ⟨_, framed⟩ := reached.framed
  obtain ⟨lines, rest, split⟩ := Lines.exists_split '\n' (c.buffer ++ chunks.flatten)
  have whole := foldl_onData_eq framed.broken split
  refine ⟨whole.trans (onData_eq split).symm, lines, ?_⟩
  rw [whole]
  obtain ⟨served, others⟩ := reply_foldl_resolveNext lines framed.once framed.waiting
  refine ⟨split, (Lines.unbroken_of_splitOn split).2, ?_, others, pending_foldl_resolveNext lines c⟩
  intro i waiter line isWaiter isLine
  exact ⟨framed.waiting waiter (List.mem_of_getElem? isWaiter), served i waiter line isWaiter isLine⟩

/-- Answers every command with `a`. -/
def sameAnswer : ControlServer := ⟨fun _ => ['a'], fun _ => by decide⟩

/-- Two waiters, as the first call gave up, and a stream of two lines and a half. -/
theorem framing_two_waiters :
    let c := run ⟨none, none⟩ (fun _ => .assertion none) sameAnswer [.call, .call, .enter true, .timer, .enter true]
    let d := [['a'], [], ['\n', 'b', '\n'], ['c']].foldl onData c
    c.pending = [0, 1] ∧ d.reply 0 = some (.line ['a']) ∧ d.reply 1 = some (.line ['b']) ∧
      ∃ lines, "a\nb\nc".toList.splitOn '\n' = lines ++ [d.buffer] ∧ '\n' ∉ d.buffer ∧ HandsOut c lines d := by
  intro c d
  have reached := Reached.run ⟨none, none⟩ (fun _ => .assertion none) sameAnswer
    [.call, .call, .enter true, .timer, .enter true]
  exact ⟨rfl, rfl, rfl, (framing_by_lines reached [['a'], [], ['\n', 'b', '\n'], ['c']]).2⟩

/-- The socket's 'timeout' takes all waiters and leaves the socket open: the late answer
is a whole line, and goes to nobody. -/
theorem late_line_dropped :
    let c := run ⟨none, none⟩ (fun _ => .command) sameAnswer [.call, .enter true, .socketTimeout]
    Reached ⟨none, none⟩ (fun _ => .command) c ∧ c.buffer = [] ∧ c.pending = [] ∧
      sameAnswer.answer 0 = ['a', '\n'] ∧ ['a', '\n'].splitOn '\n' = [['a'], []] ∧
      ∀ k, ([['a'], ['\n']].foldl onData c).reply k ≠ some (.line ['a']) := by
  intro c
  have reached := Reached.run ⟨none, none⟩ (fun _ => .command) sameAnswer [.call, .enter true, .socketTimeout]
  refine ⟨reached, rfl, rfl, rfl, rfl, fun k answered => ?_⟩
  have before : c.reply k = some (.line ['a']) := answered
  have failed : c.reply k = rejectAll .timedOut [0] (fun _ => none) k := rfl
  rw [failed, rejectAll_apply] at before
  split at before
  · cases before
  · cases before

end ProxyClient

end PartlyProxy
