import PartlyProxy.ProxyClient

namespace PartlyProxy

namespace ProxyClient
variable {opts : ProxyClientOptions} {calls : Nat → ClientCall} {server : ControlServer} {c : ProxyClient}

/-- No promise continuation and no timer is left to run. -/
structure Final (c : ProxyClient) : Prop where
  chain : c.active = none → c.queue = []
  active : ∀ k timer, c.active = some ⟨k, .awaiting timer⟩ → c.reply k = none ∧ timer = none

/-- The call in `doSend` waits for the socket's 'drain'. -/
def Draining (c : ProxyClient) : Prop := ∃ k, c.active = some ⟨k, .draining⟩

/-- The socket is gone, and `send` says so. -/
structure Gone (c : ProxyClient) : Prop where
  socket : c.socket = .closed
  fatal : c.fatal ≠ none

theorem gone_close (open_ : c.socket ≠ .closed) : Gone (c.step opts calls server .close) := by
  simp only [step, if_neg open_]
  exact ⟨rfl, by simp [fail]⟩

/-- All that can happen once the socket is gone: nothing, the call in `doSend` settles,
or the next of the chain writes in vain. -/
inductive Fades (c d : ProxyClient) : Prop where
  | rests (queue : d.queue = c.queue) (active : d.active = c.active)
  | settles (queue : d.queue = c.queue) (idle : d.active = none) {k : Nat} {timer : Option CommandTimer}
      (active : c.active = some ⟨k, .awaiting timer⟩)
  | strands {k : Nat} {rest : List Nat} (idle : c.active = none) (queue : c.queue = k :: rest) (left : d.queue = rest)
      (active : d.active = some ⟨k, .draining⟩)

theorem Gone.step (gone : Gone c) (move : ClientMove) :
    Gone (c.step opts calls server move) ∧ (c.step opts calls server move).reply = c.reply ∧
      Fades c (c.step opts calls server move) := by
  have dead : c.socket ≠ .live := by simp [gone.socket]
  have steps := stepped opts calls server c move
  generalize c.step opts calls server move = d at steps ⊢
  cases steps with
  | rests => exact ⟨gone, rfl, .rests rfl rfl⟩
  | refuses => exact ⟨⟨gone.socket, gone.fatal⟩, rfl, .rests rfl rfl⟩
  | queues healthy => exact (gone.fatal healthy).elim
  | enters accepted idle queue =>
    rw [ProxyClient.enter, if_neg dead]
    exact ⟨⟨gone.socket, gone.fatal⟩, rfl, .strands idle queue rfl rfl⟩
  | settles active => exact ⟨⟨gone.socket, gone.fatal⟩, rfl, .settles rfl rfl active⟩
  | drains active live => exact (dead live).elim
  | receives live => exact (dead live).elim
  | expires active => exact ⟨⟨gone.socket, gone.fatal⟩, rfl, .settles rfl rfl active⟩
  | idles live => exact (dead live).elim
  | breaks message live => exact (dead live).elim
  | closes open_ => exact (open_ gone.socket).elim
  | ticks => exact ⟨⟨gone.socket, gone.fatal⟩, rfl, .rests rfl rfl⟩

/-- A call that nothing will ever settle. -/
structure Hung (c : ProxyClient) : Prop where
  gone : Gone c
  waits : c.queue ≠ [] ∨ c.Draining

theorem Hung.step (hung : Hung c) (move : ClientMove) : Hung (c.step opts calls server move) := by
  obtain ⟨gone, _, fades⟩ := hung.gone.step move
  refine ⟨gone, ?_⟩
  rcases fades with ⟨queue, active⟩ | ⟨queue, _, active⟩ | ⟨_, _, _, active⟩
  · rw [queue, Draining, active]
    exact hung.waits
  · left
    rw [queue]
    rcases hung.waits with queued | ⟨j, draining⟩
    · exact queued
    · rw [active] at draining
      cases draining
  · exact Or.inr ⟨_, active⟩

/-- The last call is on its way to its rejection. -/
structure Clearing (c : ProxyClient) : Prop where
  gone : Gone c
  queue : c.queue = []
  active : ∀ k phase, c.active = some ⟨k, phase⟩ → (∃ timer, phase = .awaiting timer) ∧ (c.reply k).isSome

theorem Clearing.step (clearing : Clearing c) (move : ClientMove) : Clearing (c.step opts calls server move) := by
  obtain ⟨gone, reply, fades⟩ := clearing.gone.step move
  rcases fades with ⟨queue, active⟩ | ⟨queue, idle, _⟩ | ⟨_, queue, _, _⟩
  · refine ⟨gone, queue.trans clearing.queue, ?_⟩
    rw [active, reply]
    exact clearing.active
  · refine ⟨gone, queue.trans clearing.queue, fun k phase active => ?_⟩
    rw [idle] at active
    cases active
  · rw [clearing.queue] at queue
    cases queue

theorem hung_close (open_ : c.socket ≠ .closed) (waits : c.queue ≠ [] ∨ c.Draining) :
    Hung (c.step opts calls server .close) := by
  refine ⟨gone_close open_, ?_⟩
  simp only [ProxyClient.step, if_neg open_]
  exact waits

theorem Sound.clearing_close (sound : Sound c) (open_ : c.socket ≠ .closed) (queue : c.queue = [])
    (undrained : ¬ c.Draining) : Clearing (c.step opts calls server .close) := by
  have after : Sound (c.step opts calls server .close) := sound.step .close
  refine ⟨gone_close open_, ?_, fun k phase active => ?_⟩
  · simp only [ProxyClient.step, if_neg open_]
    exact queue
  · have answered : ((c.step opts calls server .close).reply k).isSome := by
      -- Whoever is not answered waits in `pending`, and the close emptied it.
      cases reply : (c.step opts calls server .close).reply k with
      | none =>
        have waits := (after.active k ⟨phase, active⟩).2.2 reply
        simp only [ProxyClient.step, if_neg open_, fail] at waits
        cases waits
      | some r => rfl
    refine ⟨?_, answered⟩
    simp only [ProxyClient.step, if_neg open_] at active
    cases phase with
    | draining => exact (undrained ⟨k, active⟩).elim
    | awaiting timer => exact ⟨timer, rfl⟩

/-- A hung call has not settled. -/
theorem Sound.unsettled_of_hung (sound : Sound c) (hung : Hung c) : ∃ k < c.made, c.settled k = none := by
  rcases hung.waits with queued | ⟨k, draining⟩
  · obtain ⟨k, member⟩ := List.exists_mem_of_ne_nil _ queued
    obtain ⟨below, unsettled, _⟩ := sound.queued k member
    exact ⟨k, below, unsettled⟩
  · obtain ⟨below, unsettled, _⟩ := sound.active k ⟨.draining, draining⟩
    exact ⟨k, below, unsettled⟩

theorem Sound.settled_of_clearing (sound : Sound c) (clearing : Clearing c) (final : Final c) {k : Nat}
    (isMade : k < c.made) : (c.settled k).isSome := by
  rcases sound.covered k isMade with settled | queued | ⟨phase, active⟩
  · exact settled
  · rw [clearing.queue] at queued
    cases queued
  · obtain ⟨⟨timer, rfl⟩, answered⟩ := clearing.active k phase active
    rw [(final.active k timer active).1] at answered
    cases answered

/-- After the socket has closed no call hangs if and only if, when it closed, no call
was queued behind the one in `doSend` and that one was not waiting for 'drain'. -/
theorem closed_settles_iff (opts : ProxyClientOptions) (calls : Nat → ClientCall) (server : ControlServer)
    {before after : List ClientMove} (open_ : (run opts calls server before).socket ≠ .closed)
    (final : Final (run opts calls server (before ++ .close :: after))) :
    (∀ k < (run opts calls server (before ++ .close :: after)).made,
        ((run opts calls server (before ++ .close :: after)).settled k).isSome) ↔
      (run opts calls server before).queue = [] ∧ ¬ (run opts calls server before).Draining := by
  have sound : Sound (run opts calls server before) := sound_exec opts calls server sound_connect before
  have sound' : Sound (run opts calls server (before ++ .close :: after)) := sound_exec opts calls server sound_connect _
  have isRun : run opts calls server (before ++ .close :: after) =
      Execution.exec (step opts calls server) ((run opts calls server before).step opts calls server .close) after := by
    rw [run, Execution.exec_append, Execution.exec_cons]
    rfl
  constructor
  · intro settles
    by_contra waits
    have hung : Hung (run opts calls server (before ++ .close :: after)) := by
      rw [isRun]
      refine Execution.exec_invariant (step opts calls server) (I := Hung) (fun _ move hung => hung.step move)
        (hung_close open_ ?_) after
      by_cases queue : (run opts calls server before).queue = []
      · exact Or.inr (by_contra fun undrained => waits ⟨queue, undrained⟩)
      · exact Or.inl queue
    obtain ⟨k, isMade, unsettled⟩ := sound'.unsettled_of_hung hung
    have settled := settles k isMade
    rw [unsettled] at settled
    cases settled
  · rintro ⟨queue, undrained⟩ k isMade
    have clearing : Clearing (run opts calls server (before ++ .close :: after)) := by
      rw [isRun]
      exact Execution.exec_invariant (step opts calls server) (I := Clearing) (fun _ move clearing => clearing.step move)
        (sound.clearing_close open_ queue undrained) after
    exact sound'.settled_of_clearing clearing final isMade

def silent : ControlServer := ⟨fun _ => [], by simp⟩

/-- One call is in flight when the socket closes, and one is made afterwards. -/
theorem closed_settles_iff_alone :
    let client := run ⟨none, none⟩ (fun _ => .assertion none) silent
    (client [.call, .enter true]).socket ≠ .closed ∧ Final (client ([.call, .enter true] ++ .close :: [.settle, .call])) ∧
      ∀ k < 2, ((client [.call, .enter true, .close, .settle, .call]).settled k).isSome := by
  intro client
  have open_ : (client [.call, .enter true]).socket ≠ .closed := by decide
  have final : Final (client ([.call, .enter true] ++ .close :: [.settle, .call])) :=
    ⟨fun _ => rfl, fun k timer active => by cases active⟩
  refine ⟨open_, final, (closed_settles_iff _ _ _ open_ final).mpr ⟨rfl, ?_⟩⟩
  rintro ⟨k, active⟩
  cases active

/-- The socket closes while the first call waits and the second is queued. The second
then writes to a closed socket and waits for a 'drain' that never comes. -/
theorem queued_call_hangs :
    let c := run ⟨none, none⟩ (fun _ => .command) silent [.call, .call, .enter true, .close, .settle, .enter false]
    Final c ∧ 1 < c.made ∧ c.settled 1 = none := by
  refine ⟨⟨fun idle => ?_, fun k timer active => ?_⟩, by decide, by decide⟩
  · cases idle
  · cases active

end ProxyClient

end PartlyProxy
