import PartlyProxy.ClientMatching

namespace PartlyProxy

/-- Milliseconds without activity until the socket emits 'timeout'. A longer delay than
Node has is cut, and zero is never. -/
def ProxyClientOptions.idleLimit (opts : ProxyClientOptions) : Nat := min (opts.socketTimeoutMs.getD 30000) timeoutMax

namespace ProxyClient
variable {opts : ProxyClientOptions} {calls : Nat → ClientCall} {server : ControlServer} {c d : ProxyClient}

/-- The whole answer to the command of the call has arrived. -/
def Answered (server : ControlServer) (c : ProxyClient) (k : Nat) : Prop :=
  ∃ front, front ++ [k] <+: c.written ∧ (front ++ [k]).flatMap server.answer <+: c.received

/-- The server answers the command before its own deadline. -/
def Timely (server : ControlServer) (c : ProxyClient) : Prop :=
  ∀ k timer, c.active = some ⟨k, .awaiting (some timer)⟩ → Answered server c k ∨ c.clock < timer.deadline

/-- What Node does: the socket emits 'timeout' when it was idle for long enough, and a
timer fires when it is due. -/
def OnTime (opts : ProxyClientOptions) (c : ProxyClient) : ClientMove → Prop
  | .socketTimeout => opts.idleLimit ≠ 0 ∧ c.activity + opts.idleLimit ≤ c.clock
  | .timer => ∀ k timer, c.active = some ⟨k, .awaiting (some timer)⟩ → timer.due ≤ c.clock
  | _ => True

def Connected : ClientMove → Prop
  | .error _ => False
  | .close => False
  | _ => True

/-- The connection neither fails nor closes, and every answer is in time. -/
structure Punctual (opts : ProxyClientOptions) (server : ControlServer) (c : ProxyClient) (move : ClientMove) : Prop where
  connected : Connected move
  onTime : OnTime opts c move
  timely : Timely server c

/-- The socket's 'timeout' comes only while nobody waits for an answer, no call is made
after it, and no timer fires before the time that `doSend` gave it. -/
def Undisturbed (c : ProxyClient) : ClientMove → Prop
  | .socketTimeout => c.pending = []
  | .call => c.fatal = none
  | .timer => ∀ k timer, c.active = some ⟨k, .awaiting (some timer)⟩ → c.reply k = none → timer.deadline ≤ c.clock
  | _ => True

/-- All answers are here, and nothing is left to run. -/
structure Complete (server : ControlServer) (c : ProxyClient) : Prop where
  received : c.received = c.written.flatMap server.answer
  chain : c.active = none → c.queue = []
  active : ∀ k phase, c.active = some ⟨k, phase⟩ → (∃ timer, phase = .awaiting timer) ∧ c.reply k = none

/-- The calls whose answers arrived have them, and no call has anything else. -/
structure Prompt (server : ControlServer) (c : ProxyClient) : Prop where
  live : c.socket = .live
  served : ∃ front, c.written = front ++ c.pending ∧ c.received = front.flatMap server.answer ++ c.buffer ∧
    ∀ k, c.reply k = if k ∈ front then some (.line (server.response k)) else none
  broken : '\n' ∉ c.buffer
  settled : ∀ k r, c.settled k = some r → c.reply k = some r

theorem prompt_connect : Prompt server connect :=
  ⟨rfl, ⟨[], rfl, rfl, by simp [connect]⟩, by simp [connect], by simp [connect]⟩

theorem Prompt.congr (prompt : Prompt server c) (same : d.wire = c.wire)
    (settled : ∀ k r, d.settled k = some r → c.reply k = some r) : Prompt server d := by
  simp only [wire, Prod.mk.injEq] at same
  obtain ⟨socket, written, pending, received, buffer, reply⟩ := same
  refine ⟨socket.trans prompt.live, ?_, ?_, ?_⟩
  · rw [written, pending, received, buffer, reply]
    exact prompt.served
  · rw [buffer]
    exact prompt.broken
  · rw [reply]
    exact settled

/-- Text without a line feed holds no answer. -/
theorem eq_nil_of_unbroken_answers {waiters : List Nat} {text : List Char} (broken : '\n' ∉ text)
    (answers : waiters.flatMap server.answer <+: text) : waiters = [] := by
  cases waiters with
  | nil => rfl
  | cons k rest =>
    refine (broken (answers.subset ?_)).elim
    rw [List.flatMap_cons, ControlServer.answer]
    simp

/-- An answer that has arrived was handed to its call. -/
theorem Prompt.replied_of_answered (prompt : Prompt server c) {k : Nat} (answered : Answered server c k) :
    c.reply k = some (.line (server.response k)) := by
  obtain ⟨front, isWritten, isReceived, replies⟩ := prompt.served
  obtain ⟨before, commands, answers⟩ := answered
  have inFront : k ∈ front := by
    rw [isWritten] at commands
    rcases List.prefix_or_prefix_of_prefix commands (List.prefix_append front c.pending) with short | ⟨more, long⟩
    · exact short.subset (by simp)
    · -- The answers beyond those handed out would be in the buffer.
      rw [← long, isReceived, List.flatMap_append, List.prefix_append_right_inj] at answers
      rw [eq_nil_of_unbroken_answers prompt.broken answers, List.append_nil] at long
      rw [long]
      simp
  rw [replies, if_pos inFront]

theorem Prompt.data (prompt : Prompt server c) {chunk : List Char}
    (owed : c.received ++ chunk <+: c.written.flatMap server.answer) :
    Prompt server { c.onData chunk with
      received := c.received ++ chunk
      activity := c.clock } := by
  have resolves := resolves_onData c chunk
  obtain ⟨_, socket⟩ := onData_frame c chunk
  obtain ⟨front, isWritten, isReceived, replies⟩ := prompt.served
  obtain ⟨served, split, text, broken, handed⟩ := onData_serves isWritten isReceived owed
  refine ⟨socket.trans prompt.live, ⟨front ++ served, split, text, fun k => ?_⟩, broken, fun k r settled => ?_⟩
  · refine (handed k).trans ?_
    rw [replies]
    by_cases old : k ∈ front
    · simp [old]
    · simp [old]
  · have before : c.settled k = some r := by rw [← resolves.settled]; exact settled
    have answered := prompt.settled k r before
    exact (resolves.kept k (by simp [answered])).trans answered

theorem Prompt.enter (prompt : Prompt server c) (accepted : Bool) (k : Nat) (rest : List Nat) :
    Prompt server (c.enter opts calls accepted k rest) := by
  obtain ⟨front, isWritten, isReceived, replies⟩ := prompt.served
  have joined : c.written ++ [k] = front ++ (c.pending ++ [k]) := by rw [isWritten, List.append_assoc]
  simp only [ProxyClient.enter, if_pos prompt.live]
  split
  · exact ⟨prompt.live, ⟨front, joined, isReceived, replies⟩, prompt.broken, prompt.settled⟩
  · exact ⟨prompt.live, ⟨front, joined, isReceived, replies⟩, prompt.broken, prompt.settled⟩

theorem Prompt.step (prompt : Prompt server c) {move : ClientMove} (punctual : Punctual opts server c move)
    (undisturbed : Undisturbed c move) : Prompt server (c.step opts calls server move) := by
  have steps := stepped opts calls server c move
  generalize c.step opts calls server move = d at steps ⊢
  cases steps with
  | rests => exact prompt
  | refuses fatal =>
    rw [show c.fatal = none from undisturbed] at fatal
    cases fatal
  | queues => exact prompt.congr rfl prompt.settled
  | enters accepted => exact prompt.enter accepted _ _
  | @settles k timer r active answered =>
    refine prompt.congr rfl fun j s settled => ?_
    have settled : Function.update c.settled k (some r) j = some s := settled
    by_cases same : j = k
    · subst same
      rw [Function.update_self] at settled
      exact answered.trans settled
    · rw [Function.update_of_ne same] at settled
      exact prompt.settled j s settled
  | drains => exact prompt.congr rfl prompt.settled
  | receives live owed => exact prompt.data owed
  | expires active open_ =>
    -- The deadline has passed, so the answer is here.
    have late := undisturbed _ _ active open_
    rcases punctual.timely _ _ active with answered | early
    · rw [prompt.replied_of_answered answered] at open_
      cases open_
    · omega
  | idles =>
    have nobody : c.pending = [] := undisturbed
    exact prompt.congr (by simp [wire, fail, nobody, rejectAll]) prompt.settled
  | breaks => exact punctual.connected.elim
  | closes => exact punctual.connected.elim
  | ticks => exact prompt.congr rfl prompt.settled

/-- Calls and outcomes are kept. -/
structure Keeps (c d : ProxyClient) : Prop where
  made : c.made ≤ d.made
  reply : ∀ k r, c.reply k = some r → d.reply k = some r
  settled : ∀ k r, c.settled k = some r → d.settled k = some r

theorem keeps_same (made : c.made ≤ d.made) (reply : d.reply = c.reply) (settled : d.settled = c.settled) : Keeps c d :=
  ⟨made, fun k r answered => by rw [reply, answered], fun k r before => by rw [settled, before]⟩

theorem Resolves.keeps (resolves : Resolves c d) : Keeps c d := by
  refine ⟨resolves.made.ge, fun k r answered => ?_, fun k r settled => ?_⟩
  · rw [resolves.kept k (by simp [answered]), answered]
  · rw [resolves.settled, settled]

/-- A call that is not settled settles. -/
theorem keeps_update {k : Nat} (unsettled : c.settled k = none) (r : ClientReply) (made : c.made ≤ d.made)
    (reply : d.reply = c.reply) (settled : d.settled = Function.update c.settled k (some r)) : Keeps c d := by
  refine ⟨made, fun j s answered => by rw [reply, answered], fun j s before => ?_⟩
  have apart : j ≠ k := by
    rintro rfl
    rw [unsettled] at before
    cases before
  rw [settled, Function.update_of_ne apart, before]

theorem Sound.keeps (sound : Sound c) (move : ClientMove) : Keeps c (c.step opts calls server move) := by
  have steps := stepped opts calls server c move
  generalize c.step opts calls server move = d at steps ⊢
  cases steps with
  | rests => exact keeps_same (Nat.le_refl _) rfl rfl
  | refuses => exact keeps_update (sound.known c.made (Nat.le_refl _)).1 _ (Nat.le_succ _) rfl rfl
  | queues => exact keeps_same (Nat.le_succ _) rfl rfl
  | enters =>
    simp only [ProxyClient.enter]
    split
    · split
      · exact keeps_same (Nat.le_refl _) rfl rfl
      · exact keeps_same (Nat.le_refl _) rfl rfl
    · exact keeps_same (Nat.le_refl _) rfl rfl
  | settles active => exact keeps_update (sound.active _ ⟨_, active⟩).2.1 _ (Nat.le_refl _) rfl rfl
  | drains => exact keeps_same (Nat.le_refl _) rfl rfl
  | receives =>
    obtain ⟨made, reply, settled⟩ := (resolves_onData c _).keeps
    exact ⟨made, reply, settled⟩
  | expires active => exact keeps_update (sound.active _ ⟨_, active⟩).2.1 _ (Nat.le_refl _) rfl rfl
  | idles => exact (resolves_fail c _).keeps
  | breaks message =>
    obtain ⟨made, reply, settled⟩ := (resolves_fail c (.socket message)).keeps
    exact ⟨made, reply, settled⟩
  | closes =>
    obtain ⟨made, reply, settled⟩ := (resolves_fail c .closed).keeps
    exact ⟨made, reply, settled⟩
  | ticks => exact keeps_same (Nat.le_refl _) rfl rfl

/-- Some call was rejected, or is about to be. -/
structure Lost (c : ProxyClient) : Prop where
  sound : Sound c
  call : ∃ k < c.made, ∃ err, c.reply k = some (.rejected err) ∨ c.settled k = some (.rejected err)

theorem Lost.step (lost : Lost c) (move : ClientMove) : Lost (c.step opts calls server move) := by
  obtain ⟨sound, k, isMade, err, rejected⟩ := lost
  obtain ⟨made, reply, settled⟩ : Keeps c (c.step opts calls server move) := sound.keeps move
  refine ⟨sound.step move, k, by omega, err, ?_⟩
  rcases rejected with soon | already
  · exact Or.inl (reply k _ soon)
  · exact Or.inr (settled k _ already)

theorem Lost.not_own (lost : Lost c) : ¬ ∀ k < c.made, c.settled k = some (.line (server.response k)) := by
  intro own
  obtain ⟨sound, k, isMade, err, soon | already⟩ := lost
  · rw [sound.echoed k _ (own k isMade)] at soon
    cases soon
  · rw [own k isMade] at already
    cases already

theorem lost_of_disturbed (sound : Sound c) (prompt : Prompt server c) {move : ClientMove}
    (disturbed : ¬ Undisturbed c move) : Lost (c.step opts calls server move) := by
  refine ⟨sound.step move, ?_⟩
  cases move with
  | call =>
    simp only [ProxyClient.step]
    split
    · rename_i err fatal
      exact ⟨c.made, Nat.lt_succ_self _, err, Or.inr (Function.update_self ..)⟩
    · rename_i healthy
      exact (disturbed healthy).elim
  | timer =>
    simp only [Undisturbed, not_forall] at disturbed
    obtain ⟨k, timer, active, open_, _⟩ := disturbed
    simp only [ProxyClient.step, active, if_pos open_]
    exact ⟨k, (sound.active k ⟨_, active⟩).1, .command timer.ms, Or.inr (Function.update_self ..)⟩
  | socketTimeout =>
    obtain ⟨k, waits⟩ := List.exists_mem_of_ne_nil _ (show c.pending ≠ [] from disturbed)
    obtain ⟨front, isWritten, _, replies⟩ := prompt.served
    have ordered := (List.pairwise_append.mp sound.ordered).1
    rw [isWritten] at ordered
    have unanswered : k ∉ front := by
      intro inFront
      exact Nat.lt_irrefl _ ((List.pairwise_append.mp ordered).2.2 k inFront k waits)
    have open_ : c.reply k = none := by rw [replies, if_neg unanswered]
    have isMade : k < c.made := sound.early k (by rw [isWritten]; exact List.mem_append_right _ waits)
    simp only [ProxyClient.step, if_pos prompt.live]
    refine ⟨k, isMade, .timedOut, Or.inl ?_⟩
    exact (rejectAll_apply _ _ _ k).trans (if_pos ⟨open_, waits⟩)
  | enter accepted => exact (disturbed trivial).elim
  | settle => exact (disturbed trivial).elim
  | drain => exact (disturbed trivial).elim
  | data chunk => exact (disturbed trivial).elim
  | error message => exact (disturbed trivial).elim
  | close => exact (disturbed trivial).elim
  | tick ms => exact (disturbed trivial).elim

theorem Prompt.own_of_complete (prompt : Prompt server c) (sound : Sound c) (complete : Complete server c) {k : Nat}
    (isMade : k < c.made) : c.settled k = some (.line (server.response k)) := by
  obtain ⟨front, isWritten, isReceived, replies⟩ := prompt.served
  have nobody : c.pending = [] := by
    have stream := complete.received
    rw [isReceived, isWritten, List.flatMap_append, List.append_cancel_left_eq] at stream
    exact eq_nil_of_unbroken_answers prompt.broken ⟨[], by rw [List.append_nil, stream]⟩
  have idle : c.active = none := by
    cases active : c.active with
    | none => rfl
    | some call =>
      obtain ⟨j, phase⟩ := call
      have waits := (sound.active j ⟨phase, active⟩).2.2 (complete.active j phase active).2
      rw [nobody] at waits
      cases waits
  rcases sound.covered k isMade with settled | queued | ⟨phase, active⟩
  · obtain ⟨r, settled⟩ := Option.isSome_iff_exists.mp settled
    have answered := prompt.settled k r settled
    rw [replies] at answered
    split at answered
    · rw [settled, answered]
    · cases answered
  · rw [complete.chain idle] at queued
    cases queued
  · rw [idle] at active
    cases active

/-- In a complete run on a connection that holds, with every answer in time, all calls
settle with the answers to their own commands if and only if the socket never emits
'timeout' while a command is without its answer, no call is made after a 'timeout', and
no timer of a command fires before its time. -/
theorem timely_answers_iff {moves : List ClientMove}
    (punctual : Execution.Along (step opts calls server) (Punctual opts server) connect moves)
    (complete : Complete server (run opts calls server moves)) :
    (∀ k < (run opts calls server moves).made,
        (run opts calls server moves).settled k = some (.line (server.response k))) ↔
      Execution.Along (step opts calls server) Undisturbed connect moves := by
  constructor
  · intro own
    refine Execution.along_of_not_lost (step opts calls server) (I := fun c => Sound c ∧ Prompt server c) (L := Lost)
      (E := Punctual opts server) (fun c move punctual undisturbed good => ?_) (fun c move good disturbed => ?_)
      (fun c move lost => lost.step move) ⟨sound_connect, prompt_connect⟩ punctual fun lost => lost.not_own own
    · exact ⟨good.1.step move, good.2.step punctual undisturbed⟩
    · exact lost_of_disturbed good.1 good.2 disturbed
  · intro undisturbed k isMade
    have prompt : Prompt server (run opts calls server moves) :=
      Execution.exec_invariant_along (step opts calls server) (I := Prompt server)
        (fun _ _ cond prompt => prompt.step cond.1 cond.2) prompt_connect (punctual.and _ undisturbed)
    exact prompt.own_of_complete (sound_exec opts calls server sound_connect moves) complete isMade

theorem timely_of_idle (idle : c.active = none) : Timely server c := by
  intro k timer active
  rw [idle] at active
  cases active

/-- An assertion of one second that is answered after four, and a 'timeout' of the idle
socket half a minute later. -/
theorem timely_answers_iff_short :
    let calls : Nat → ClientCall := fun _ => .assertion (some 1000)
    let moves : List ClientMove := [.call, .enter true, .tick 4000, .data ['a', '\n'], .settle, .tick 30000, .socketTimeout]
    Execution.Along (step defaults calls letters) (Punctual defaults letters) connect moves ∧
      Complete letters (run defaults calls letters moves) ∧
      ∀ k < 1, (run defaults calls letters moves).settled k = some (.line (letters.response k)) := by
  intro calls moves
  have punctual : Execution.Along (step defaults calls letters) (Punctual defaults letters) connect moves := by
    refine ⟨⟨trivial, trivial, timely_of_idle rfl⟩, ⟨trivial, trivial, timely_of_idle rfl⟩, ⟨trivial, trivial, ?_⟩,
      ⟨trivial, trivial, ?_⟩, ⟨trivial, trivial, ?_⟩, ⟨trivial, trivial, timely_of_idle rfl⟩,
      ⟨trivial, ⟨by decide, by decide⟩, timely_of_idle rfl⟩, trivial⟩
    all_goals
      rintro k timer ⟨⟩
      exact Or.inr (by decide)
  have complete : Complete letters (run defaults calls letters moves) :=
    ⟨by decide, fun _ => rfl, fun k phase active => by cases active⟩
  refine ⟨punctual, complete, (timely_answers_iff punctual complete).mpr ?_⟩
  exact ⟨rfl, trivial, trivial, trivial, trivial, trivial, rfl, trivial⟩

/-- With the default options an assertion of forty seconds is rejected after thirty,
and its answer after thirty-five finds nobody. -/
theorem timely_answer_is_lost :
    let calls : Nat → ClientCall := fun _ => .assertion (some 40000)
    let moves : List ClientMove := [.call, .enter true, .tick 30000, .socketTimeout, .settle, .tick 5000, .data ['a', '\n']]
    Execution.Along (step defaults calls letters) (Punctual defaults letters) connect moves ∧
      Complete letters (run defaults calls letters moves) ∧
      defaults.commandTimeoutMs (calls 0) = some 42000 ∧ (run defaults calls letters moves).clock = 35000 ∧
      (run defaults calls letters moves).settled 0 = some (.rejected .timedOut) := by
  intro calls moves
  refine ⟨?_, ⟨by decide, fun _ => rfl, fun k phase active => by cases active⟩, by decide, by decide, rfl⟩
  refine ⟨⟨trivial, trivial, timely_of_idle rfl⟩, ⟨trivial, trivial, timely_of_idle rfl⟩, ⟨trivial, trivial, ?_⟩,
    ⟨trivial, ⟨by decide, by decide⟩, ?_⟩, ⟨trivial, trivial, ?_⟩, ⟨trivial, trivial, timely_of_idle rfl⟩,
    ⟨trivial, trivial, timely_of_idle rfl⟩, trivial⟩
  all_goals
    rintro k timer ⟨⟩
    exact Or.inr (by decide)

end ProxyClient

end PartlyProxy
