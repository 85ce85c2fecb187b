import PartlyProxy.ClientFraming

namespace PartlyProxy

namespace ProxyClient
variable {opts : ProxyClientOptions} {calls : Nat → ClientCall} {server : ControlServer} {c d : ProxyClient}

/-- The waiters are those of the commands that the stream has no whole answer to, in
the order of the writes. -/
structure Aligned (server : ControlServer) (c : ProxyClient) : Prop where
  split : ∃ front, c.written = front ++ c.pending ∧ c.received = front.flatMap server.answer ++ c.buffer
  broken : '\n' ∉ c.buffer

/-- Nothing is written any more, and nobody waits. -/
structure Dead (c : ProxyClient) : Prop where
  fatal : c.fatal ≠ none
  queue : c.queue = []
  pending : c.pending = []

structure Matched (server : ControlServer) (c : ProxyClient) : Prop where
  mode : Aligned server c ∨ Dead c ∨ c.socket ≠ .live
  own : ∀ k raw, c.reply k = some (.line raw) → raw = server.response k

/-- The 'timeout' event of the socket comes while no command is without its answer, or
while no call is queued behind the one in `doSend`. -/
def Calm (c : ProxyClient) (move : ClientMove) : Prop :=
  move = .socketTimeout → c.socket = .live → c.pending = [] ∨ c.queue = []

/-- Where the lines are the beginning of what the peer owes, each waiter at the front
gets its own. -/
theorem foldl_resolveNext_serves {lines : List (List Char)} {rest : List Char} {c : ProxyClient}
    (unbroken : ∀ line ∈ lines, '\n' ∉ line)
    (owed : lines.flatMap (· ++ ['\n']) ++ rest <+: c.pending.flatMap server.answer) :
    ∃ served, c.pending = served ++ (lines.foldl resolveNext c).pending ∧
      lines.flatMap (· ++ ['\n']) = served.flatMap server.answer ∧
      ∀ k, (lines.foldl resolveNext c).reply k =
        if c.reply k = none ∧ k ∈ served then some (.line (server.response k)) else c.reply k := by
  induction lines generalizing c with
  | nil => exact ⟨[], rfl, rfl, by simp⟩
  | cons line lines ih =>
    obtain ⟨here, later⟩ := List.forall_mem_cons.mp unbroken
    have first : (line :: lines).flatMap (· ++ ['\n']) ++ rest = line ++ '\n' :: (lines.flatMap (· ++ ['\n']) ++ rest) := by
      simp
    rw [first] at owed
    cases pending : c.pending with
    | nil =>
      rw [pending] at owed
      simp at owed
    | cons waiter others =>
      rw [pending, List.flatMap_cons, ControlServer.answer, List.append_assoc, List.singleton_append] at owed
      obtain ⟨isLine, left⟩ := Lines.first_line here (server.oneLine waiter) owed
      have handed : c.resolveNext line = { c with
          pending := others
          reply := settleOnce c.reply waiter (.line (server.response waiter)) } := by
        simp only [resolveNext, pending, isLine]
      obtain ⟨served, split, text, replies⟩ := ih (c := { c with
          pending := others
          reply := settleOnce c.reply waiter (.line (server.response waiter)) }) later left
      rw [List.foldl_cons, handed]
      refine ⟨waiter :: served, ?_, ?_, ?_⟩
      · rw [List.cons_append, ← split]
      · rw [List.flatMap_cons, List.flatMap_cons, text, isLine, ControlServer.answer]
      · intro k
        rw [replies]
        simp only [settleOnce_apply]
        by_cases open_ : c.reply k = none
        · by_cases same : k = waiter
          · subst same
            simp [open_]
          · simp [open_, same]
        · simp [open_]

/-- The two directions of the stream, and those who wait for it. -/
def wire (c : ProxyClient) := (c.socket, c.written, c.pending, c.received, c.buffer, c.reply)

theorem Matched.congr (matched : Matched server c) (same : d.wire = c.wire) (fatal : d.fatal = c.fatal)
    (queue : d.queue = c.queue) : Matched server d := by
  simp only [wire, Prod.mk.injEq] at same
  obtain ⟨socket, written, pending, received, buffer, reply⟩ := same
  refine ⟨?_, by rw [reply]; exact matched.own⟩
  rcases matched.mode with ⟨split, broken⟩ | dead | severed
  · refine Or.inl ⟨?_, by rw [buffer]; exact broken⟩
    rw [written, pending, received, buffer]
    exact split
  · exact Or.inr (Or.inl ⟨fatal ▸ dead.fatal, queue.trans dead.queue, pending.trans dead.pending⟩)
  · exact Or.inr (Or.inr (socket ▸ severed))

/-- What arrives keeps waiters and stream in step, and every waiter gets its own line. -/
theorem onData_serves {front : List Nat} {chunk : List Char} (isWritten : c.written = front ++ c.pending)
    (isReceived : c.received = front.flatMap server.answer ++ c.buffer)
    (owed : c.received ++ chunk <+: c.written.flatMap server.answer) :
    ∃ served, (c.onData chunk).written = front ++ served ++ (c.onData chunk).pending ∧
      c.received ++ chunk = (front ++ served).flatMap server.answer ++ (c.onData chunk).buffer ∧
      '\n' ∉ (c.onData chunk).buffer ∧
      ∀ k, (c.onData chunk).reply k =
        if c.reply k = none ∧ k ∈ served then some (.line (server.response k)) else c.reply k := by
  have owes : c.buffer ++ chunk <+: c.pending.flatMap server.answer := by
    rw [isReceived, isWritten, List.flatMap_append, List.append_assoc] at owed
    exact (List.prefix_append_right_inj _).mp owed
  obtain ⟨lines, rest, cut⟩ := Lines.exists_split '\n' (c.buffer ++ chunk)
  have whole := Lines.lines_of_splitOn cut
  obtain ⟨unbroken, broken⟩ := Lines.unbroken_of_splitOn cut
  rw [whole] at owes
  obtain ⟨served, split, text, replies⟩ := foldl_resolveNext_serves unbroken owes
  have written := (resolves_onData c chunk).written
  rw [onData_eq cut] at written ⊢
  refine ⟨served, ?_, ?_, broken, replies⟩
  · rw [written, isWritten, List.append_assoc, ← split]
  · rw [isReceived, List.flatMap_append, List.append_assoc, List.append_assoc, whole, text]

theorem Matched.data (matched : Matched server c) {chunk : List Char} (live : c.socket = .live)
    (owed : c.received ++ chunk <+: c.written.flatMap server.answer) :
    Matched server { c.onData chunk with
      received := c.received ++ chunk
      activity := c.clock } := by
  have resolves := resolves_onData c chunk
  obtain ⟨fatal, _⟩ := onData_frame c chunk
  rcases matched.mode with aligned | dead | severed
  · obtain ⟨⟨front, isWritten, isReceived⟩, _⟩ := aligned
    obtain ⟨served, split, text, broken, replies⟩ := onData_serves isWritten isReceived owed
    refine ⟨Or.inl ⟨⟨front ++ served, split, text⟩, broken⟩, fun k raw answered => ?_⟩
    have answered := (replies k).symm.trans answered
    split at answered
    · cases answered
      rfl
    · exact matched.own k raw answered
  · have nobody : (c.onData chunk).pending = [] := by
      refine List.eq_nil_iff_forall_not_mem.mpr fun k member => ?_
      have still := resolves.fewer k member
      rw [dead.pending] at still
      cases still
    refine ⟨Or.inr (Or.inl ⟨fatal ▸ dead.fatal, resolves.queue.trans dead.queue, nobody⟩), ?_⟩
    intro k raw answered
    have answered : (c.onData chunk).reply k = some (.line raw) := answered
    cases was : c.reply k with
    | none =>
      have waits := resolves.fresh k was (by simp [answered])
      rw [dead.pending] at waits
      cases waits
    | some r =>
      rw [resolves.kept k (by simp [was])] at answered
      exact matched.own k raw answered
  · exact (severed live).elim

theorem own_fail (own : ∀ k raw, c.reply k = some (.line raw) → raw = server.response k) (err : ClientError) :
    ∀ k raw, (c.fail err).reply k = some (.line raw) → raw = server.response k := by
  intro k raw answered
  simp only [fail, rejectAll_apply] at answered
  split at answered
  · cases answered
  · exact own k raw answered

theorem Matched.enter (matched : Matched server c) {k : Nat} {rest : List Nat} (queue : c.queue = k :: rest)
    (accepted : Bool) : Matched server (c.enter opts calls accepted k rest) := by
  by_cases live : c.socket = .live
  · rcases matched.mode with aligned | dead | severed
    · obtain ⟨⟨front, isWritten, isReceived⟩, broken⟩ := aligned
      have joined : c.written ++ [k] = front ++ (c.pending ++ [k]) := by rw [isWritten, List.append_assoc]
      simp only [ProxyClient.enter, if_pos live]
      split
      · exact ⟨Or.inl ⟨⟨front, joined, isReceived⟩, broken⟩, matched.own⟩
      · exact ⟨Or.inl ⟨⟨front, joined, isReceived⟩, broken⟩, matched.own⟩
    · rw [dead.queue] at queue
      cases queue
    · exact (severed live).elim
  · simp only [ProxyClient.enter, if_neg live]
    exact ⟨Or.inr (Or.inr live), matched.own⟩

theorem Matched.step (matched : Matched server c) {move : ClientMove} (calm : Calm c move) :
    Matched server (c.step opts calls server move) := by
  have steps := stepped opts calls server c move
  generalize c.step opts calls server move = d at steps ⊢
  cases steps with
  | rests => exact matched
  | refuses => exact matched.congr rfl rfl rfl
  | queues healthy =>
    refine ⟨?_, matched.own⟩
    rcases matched.mode with aligned | dead | severed
    · exact Or.inl ⟨aligned.split, aligned.broken⟩
    · exact (dead.fatal healthy).elim
    · exact Or.inr (Or.inr severed)
  | enters accepted idle queue => exact matched.enter queue accepted
  | settles => exact matched.congr rfl rfl rfl
  | drains => exact matched.congr rfl rfl rfl
  | receives live owed => exact matched.data live owed
  | expires => exact matched.congr rfl rfl rfl
  | idles live =>
    refine ⟨?_, own_fail matched.own _⟩
    rcases matched.mode with aligned | dead | severed
    · rcases calm rfl live with nobody | nothing
      · have split := aligned.split
        rw [nobody] at split
        exact Or.inl ⟨split, aligned.broken⟩
      · exact Or.inr (Or.inl ⟨by simp [fail], nothing, rfl⟩)
    · exact Or.inr (Or.inl ⟨by simp [fail], dead.queue, rfl⟩)
    · exact (severed live).elim
  | breaks => exact ⟨Or.inr (Or.inr (by simp)), own_fail matched.own _⟩
  | closes => exact ⟨Or.inr (Or.inr (by simp)), own_fail matched.own _⟩
  | ticks => exact matched.congr rfl rfl rfl

/-- Command lines are written in the order of the calls, each once. Where the socket's
'timeout' never comes while a command is without its answer and another call is
queued, a call that gets a line gets the response to its own command. -/
theorem answers_match (opts : ProxyClientOptions) (calls : Nat → ClientCall) (server : ControlServer)
    (moves : List ClientMove) :
    (run opts calls server moves).written.Pairwise (· < ·) ∧
      (Execution.Along (step opts calls server) Calm connect moves →
        ∀ k raw, (run opts calls server moves).settled k = some (.line raw) → raw = server.response k) := by
  have sound : Sound (run opts calls server moves) := sound_exec opts calls server sound_connect moves
  refine ⟨(List.pairwise_append.mp sound.ordered).1, fun calm k raw settled => ?_⟩
  have start : Matched server connect := ⟨Or.inl ⟨⟨[], rfl, rfl⟩, by simp [connect]⟩, by simp [connect]⟩
  have matched : Matched server (run opts calls server moves) :=
    Execution.exec_invariant_along (step opts calls server) (I := Matched server)
      (fun _ _ calm matched => matched.step calm) start calm
  exact matched.own k raw (sound.echoed k raw settled)

/-- Answers the first call `a`, the second `b` and all others `c`. -/
def letters : ControlServer where
  response
    | 0 => ['a']
    | 1 => ['b']
    | _ => ['c']
  oneLine k := by
    match k with
    | 0 => decide
    | 1 => decide
    | _ + 2 => exact (by decide : '\n' ∉ ['c'])

def defaults : ProxyClientOptions := ⟨none, none⟩

/-- Two concurrent calls whose answers come in pieces, and a 'timeout' after both. -/
theorem answers_match_two :
    let moves : List ClientMove := [.call, .call, .enter true, .data ['a'], .data ['\n'], .settle, .enter false,
      .data ['b', '\n'], .drain, .settle, .socketTimeout]
    (run defaults (fun _ => .command) letters moves).settled 1 = some (.line ['b']) ∧
      ∀ k raw, (run defaults (fun _ => .command) letters moves).settled k = some (.line raw) → raw = letters.response k := by
  intro moves
  refine ⟨by decide, (answers_match defaults (fun _ => .command) letters moves).2 ?_⟩
  refine ⟨?_, ?_, ?_, ?_, ?_, ?_, ?_, ?_, ?_, ?_, ?_, trivial⟩
  iterate 10
    · rintro ⟨⟩
  · exact fun _ _ => Or.inl rfl

/-- The socket times out while the first call waits and the second is queued: the
second is sent after all, and gets the late answer to the first. -/
theorem late_answer_goes_to_next :
    let c := run defaults (fun _ => .command) letters [.call, .call, .enter true, .socketTimeout, .settle, .enter true,
      .data ['a', '\n'], .settle]
    c.settled 0 = some (.rejected .timedOut) ∧ c.settled 1 = some (.line (letters.response 0)) ∧
      letters.response 0 ≠ letters.response 1 := by
  decide

end ProxyClient

end PartlyProxy
