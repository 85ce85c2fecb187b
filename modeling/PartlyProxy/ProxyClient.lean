import PartlyProxy.Lib.Execution
import Mathlib.Data.List.Basic
import Mathlib.Data.List.Infix
import Mathlib.Logic.Function.Basic

namespace PartlyProxy

/-- A call of the TypeScript client: `assertSeen` and `assertCount` give a timeout or
take the default, the other methods have none. -/
inductive ClientCall where
  | command
  | assertion (timeoutMs : Option Int)
deriving DecidableEq, Repr

structure ProxyClientOptions where
  defaultAssertionTimeoutMs : Option Int
  socketTimeoutMs : Option Nat

/-- The second argument of `send`. -/
def ProxyClientOptions.commandTimeoutMs (opts : ProxyClientOptions) : ClientCall → Option Nat
  | .command => none
  | .assertion timeoutMs => some (max (timeoutMs.getD (opts.defaultAssertionTimeoutMs.getD 5000) + 2000) 5000).toNat

/-- The longest delay of a timer of Node. -/
def timeoutMax : Nat := 2147483647

/-- `setTimeout`: a delay out of range is one millisecond. -/
def timerDelay (ms : Nat) : Nat := if 1 ≤ ms ∧ ms ≤ timeoutMax then ms else 1

inductive ClientError where
  | socket (message : String)
  | closed
  | timedOut
  | command (ms : Nat)
deriving DecidableEq, Repr

def ClientError.message : ClientError → String
  | .socket message => message
  | .closed => "control-plane socket closed"
  | .timedOut => "control-plane socket timed out"
  | .command ms => s!"command timed out after {ms}ms"

/-- How a promise settles: with a response line, or by a rejection. -/
inductive ClientReply where
  | line (raw : List Char)
  | rejected (err : ClientError)
deriving DecidableEq, Repr

/-- The timer of a command: when it fires, and when by the source's own number of
milliseconds it should. -/
structure CommandTimer where
  ms : Nat
  due : Nat
  deadline : Nat

inductive ActivePhase where
  | draining
  | awaiting (timer : Option CommandTimer)

/-- The call that is in `doSend`. -/
structure ActiveCall where
  call : Nat
  phase : ActivePhase

inductive SocketState where
  | live
  | destroyed
  | closed
deriving DecidableEq, Repr

/-- The peer of the client. It answers the command line of each call with one line. -/
structure ControlServer where
  response : Nat → List Char
  oneLine : ∀ k, '\n' ∉ response k

def ControlServer.answer (server : ControlServer) (k : Nat) : List Char := server.response k ++ ['\n']

/-- A `ProxyClient` with its socket. Calls are numbered as they are made; `pending` and
`queue` hold their numbers, `queue` those behind the `inflight` chain. `reply` is the
response promise of a call and `settled` its outcome. -/
structure ProxyClient where
  buffer : List Char
  pending : List Nat
  fatal : Option ClientError
  queue : List Nat
  active : Option ActiveCall
  reply : Nat → Option ClientReply
  settled : Nat → Option ClientReply
  made : Nat
  socket : SocketState
  written : List Nat
  received : List Char
  clock : Nat
  activity : Nat

/-- What can happen next: a method is called, the next call of the chain enters
`doSend`, the awaiting one continues, the socket emits an event, a timer fires, or
time passes. -/
inductive ClientMove where
  | call
  | enter (accepted : Bool)
  | settle
  | drain
  | data (chunk : List Char)
  | timer
  | socketTimeout
  | error (message : String)
  | close
  | tick (ms : Nat)

/-- A promise settles once. -/
def settleOnce (reply : Nat → Option ClientReply) (k : Nat) (r : ClientReply) : Nat → Option ClientReply :=
  if (reply k).isSome then reply else Function.update reply k (some r)

def rejectAll (err : ClientError) : List Nat → (Nat → Option ClientReply) → Nat → Option ClientReply
  | [], reply => reply
  | waiter :: rest, reply => rejectAll err rest (settleOnce reply waiter (.rejected err))

namespace ProxyClient

def connect : ProxyClient :=
  ⟨[], [], none, [], none, fun _ => none, fun _ => none, 0, .live, [], [], 0, 0⟩

def fail (c : ProxyClient) (err : ClientError) : ProxyClient :=
  { c with fatal := some (c.fatal.getD err), reply := rejectAll err c.pending c.reply, pending := [] }

/-- The body of the loop in `onData`, for one line. -/
def resolveNext (c : ProxyClient) (line : List Char) : ProxyClient :=
  match c.pending with
  | [] => c
  | waiter :: rest => { c with pending := rest, reply := settleOnce c.reply waiter (.line line) }

def onDataLoop : Nat → ProxyClient → ProxyClient
  | 0, c => c
  | fuel + 1, c =>
    match c.buffer.span (· ≠ '\n') with
    | (line, _ :: rest) => onDataLoop fuel ({ c with buffer := rest }.resolveNext line)
    | (_, []) => c

/-- Each turn of the loop takes a character at least, so the length is fuel enough. -/
def onData (c : ProxyClient) (chunk : List Char) : ProxyClient :=
  onDataLoop (c.buffer.length + chunk.length) { c with buffer := c.buffer ++ chunk }

section Step
variable (opts : ProxyClientOptions) (calls : Nat → ClientCall) (server : ControlServer)

/-- `doSend` from the timer on. -/
def awaitReply (c : ProxyClient) (k : Nat) : ProxyClient :=
  { c with active := some ⟨k, .awaiting ((opts.commandTimeoutMs (calls k)).map fun ms =>
    ⟨ms, c.clock + timerDelay ms, c.clock + ms⟩)⟩ }

/-- `doSend` up to the write. A socket that is gone takes nothing. -/
def enter (c : ProxyClient) (accepted : Bool) (k : Nat) (rest : List Nat) : ProxyClient :=
  let c := { c with queue := rest, pending := c.pending ++ [k] }
  if c.socket = .live then
    let c := { c with written := c.written ++ [k], activity := c.clock }
    if accepted then c.awaitReply opts calls k else { c with active := some ⟨k, .draining⟩ }
  else { c with active := some ⟨k, .draining⟩ }

def step (c : ProxyClient) : ClientMove → ProxyClient
  | .call =>
    match c.fatal with
    | some err => { c with settled := Function.update c.settled c.made (some (.rejected err)), made := c.made + 1 }
    | none => { c with queue := c.queue ++ [c.made], made := c.made + 1 }
  | .enter accepted =>
    match c.active, c.queue with
    | none, k :: rest => c.enter opts calls accepted k rest
    | _, _ => c
  | .settle =>
    match c.active with
    | some ⟨k, .awaiting _⟩ =>
      match c.reply k with
      | some r => { c with settled := Function.update c.settled k (some r), active := none }
      | none => c
    | _ => c
  | .drain =>
    match c.active, c.socket with
    | some ⟨k, .draining⟩, .live => { c.awaitReply opts calls k with activity := c.clock }
    | _, _ => c
  | .data chunk =>
    -- What arrives are the answers to what was written, in order.
    if c.socket = .live ∧ c.received ++ chunk <+: c.written.flatMap server.answer then
      { c.onData chunk with received := c.received ++ chunk, activity := c.clock }
    else c
  | .timer =>
    match c.active with
    | some ⟨k, .awaiting (some timer)⟩ =>
      if c.reply k = none then
        { c with settled := Function.update c.settled k (some (.rejected (.command timer.ms))), active := none }
      else c
    | _ => c
  | .socketTimeout => if c.socket = .live then c.fail .timedOut else c
  | .error message => if c.socket = .live then { c.fail (.socket message) with socket := .destroyed } else c
  | .close => if c.socket = .closed then c else { c.fail .closed with socket := .closed }
  | .tick ms => { c with clock := c.clock + ms }

def run (moves : List ClientMove) : ProxyClient := Execution.exec (step opts calls server) connect moves

/-- What each move does where it does anything. -/
inductive Stepped (c : ProxyClient) : ClientMove → ProxyClient → Prop
  | rests (move : ClientMove) : Stepped c move c
  | refuses {err : ClientError} : c.fatal = some err → Stepped c .call { c with
      settled := Function.update c.settled c.made (some (.rejected err))
      made := c.made + 1 }
  | queues : c.fatal = none → Stepped c .call { c with
      queue := c.queue ++ [c.made]
      made := c.made + 1 }
  | enters {k : Nat} {rest : List Nat} (accepted : Bool) : c.active = none → c.queue = k :: rest →
      Stepped c (.enter accepted) (c.enter opts calls accepted k rest)
  | settles {k : Nat} {timer : Option CommandTimer} {r : ClientReply} : c.active = some ⟨k, .awaiting timer⟩ →
      c.reply k = some r → Stepped c .settle { c with
        settled := Function.update c.settled k (some r)
        active := none }
  | drains {k : Nat} : c.active = some ⟨k, .draining⟩ → c.socket = .live →
      Stepped c .drain { c.awaitReply opts calls k with activity := c.clock }
  | receives {chunk : List Char} : c.socket = .live → c.received ++ chunk <+: c.written.flatMap server.answer →
      Stepped c (.data chunk) { c.onData chunk with
        received := c.received ++ chunk
        activity := c.clock }
  | expires {k : Nat} {timer : CommandTimer} : c.active = some ⟨k, .awaiting (some timer)⟩ → c.reply k = none →
      Stepped c .timer { c with
        settled := Function.update c.settled k (some (.rejected (.command timer.ms)))
        active := none }
  | idles : c.socket = .live → Stepped c .socketTimeout (c.fail .timedOut)
  | breaks (message : String) : c.socket = .live →
      Stepped c (.error message) { c.fail (.socket message) with socket := .destroyed }
  | closes : c.socket ≠ .closed → Stepped c .close { c.fail .closed with socket := .closed }
  | ticks (ms : Nat) : Stepped c (.tick ms) { c with clock := c.clock + ms }

theorem stepped (c : ProxyClient) (move : ClientMove) : Stepped opts calls server c move (c.step opts calls server move) := by
  cases move with
  | call =>
    simp only [step]
    split
    · exact .refuses ‹_›
    · exact .queues ‹_›
  | enter accepted =>
    simp only [step]
    split
    · exact .enters accepted ‹_› ‹_›
    · exact .rests _
  | settle =>
    simp only [step]
    split
    · split
      · exact .settles ‹_› ‹_›
      · exact .rests _
    · exact .rests _
  | drain =>
    simp only [step]
    split
    · exact .drains ‹_› ‹_›
    · exact .rests _
  | data chunk =>
    simp only [step]
    split
    · rename_i arrives
      exact .receives arrives.1 arrives.2
    · exact .rests _
  | timer =>
    simp only [step]
    split
    · split
      · exact .expires ‹_› ‹_›
      · exact .rests _
    · exact .rests _
  | socketTimeout =>
    simp only [step]
    split
    · exact .idles ‹_›
    · exact .rests _
  | error message =>
    simp only [step]
    split
    · exact .breaks message ‹_›
    · exact .rests _
  | close =>
    simp only [step]
    split
    · exact .rests _
    · exact .closes ‹_›
  | tick ms => exact .ticks ms

end Step

end ProxyClient

theorem settleOnce_of_some {reply : Nat → Option ClientReply} {k : Nat} (settled : (reply k).isSome) (r : ClientReply) :
    settleOnce reply k r = reply := if_pos settled

theorem settleOnce_self {reply : Nat → Option ClientReply} {k : Nat} (open_ : reply k = none) (r : ClientReply) :
    settleOnce reply k r k = some r := by
  simp [settleOnce, open_]

theorem settleOnce_other (reply : Nat → Option ClientReply) {j k : Nat} (apart : j ≠ k) (r : ClientReply) :
    settleOnce reply k r j = reply j := by
  unfold settleOnce
  split
  · rfl
  · exact Function.update_of_ne apart _ _

theorem settleOnce_isSome (reply : Nat → Option ClientReply) (k : Nat) (r : ClientReply) :
    (settleOnce reply k r k).isSome := by
  unfold settleOnce
  split
  · assumption
  · simp

theorem settleOnce_apply (reply : Nat → Option ClientReply) (j : Nat) (r : ClientReply) (k : Nat) :
    settleOnce reply j r k = if reply k = none ∧ k = j then some r else reply k := by
  by_cases same : k = j
  · subst same
    cases open_ : reply k with
    | none => simp [settleOnce_self open_]
    | some old =>
      have answered : (reply k).isSome := by simp [open_]
      simp [settleOnce_of_some answered, open_]
  · simp [settleOnce_other reply same, same]

theorem settleOnce_kept {reply : Nat → Option ClientReply} {j : Nat} (settled : (reply j).isSome) (k : Nat)
    (r : ClientReply) : settleOnce reply k r j = reply j := by
  by_cases same : j = k
  · subst same
    rw [settleOnce_of_some settled]
  · exact settleOnce_other reply same r

/-- All waiters are rejected, but for those that were answered before. -/
theorem rejectAll_apply (err : ClientError) (waiters : List Nat) (reply : Nat → Option ClientReply) (k : Nat) :
    rejectAll err waiters reply k = if reply k = none ∧ k ∈ waiters then some (.rejected err) else reply k := by
  induction waiters generalizing reply with
  | nil => simp [rejectAll]
  | cons waiter rest ih =>
    rw [rejectAll, ih]
    cases open_ : reply k with
    | some r =>
      have kept : settleOnce reply waiter (.rejected err) k = some r := by
        rw [settleOnce_kept (by simp [open_]), open_]
      simp [kept]
    | none =>
      by_cases same : k = waiter
      · subst same
        simp [settleOnce_self open_]
      · simp [settleOnce_other reply same, open_, same]

namespace ProxyClient

/-- Some of the pending promises are settled, and nothing else happens to the calls. -/
structure Resolves (c d : ProxyClient) : Prop where
  queue : d.queue = c.queue
  active : d.active = c.active
  settled : d.settled = c.settled
  made : d.made = c.made
  written : d.written = c.written
  kept : ∀ k, (c.reply k).isSome → d.reply k = c.reply k
  fewer : ∀ k ∈ d.pending, k ∈ c.pending
  fresh : ∀ k, c.reply k = none → (d.reply k).isSome → k ∈ c.pending
  taken : ∀ k ∈ c.pending, k ∈ d.pending ∨ (d.reply k).isSome

section Resolving
variable {c d e : ProxyClient}

theorem Resolves.refl (c : ProxyClient) : Resolves c c := by
  refine ⟨rfl, rfl, rfl, rfl, rfl, fun _ _ => rfl, fun _ member => member, ?_, fun _ member => Or.inl member⟩
  intro k open_ settled
  simp [open_] at settled

theorem Resolves.trans (first : Resolves c d) (second : Resolves d e) : Resolves c e := by
  refine ⟨second.queue.trans first.queue, second.active.trans first.active, second.settled.trans first.settled,
    second.made.trans first.made, second.written.trans first.written, ?_, ?_, ?_, ?_⟩
  · intro k settled
    have same := first.kept k settled
    rw [second.kept k (same ▸ settled), same]
  · exact fun k member => first.fewer k (second.fewer k member)
  · intro k open_ settled
    cases between : d.reply k with
    | none => exact first.fewer k (second.fresh k between settled)
    | some r => exact first.fresh k open_ (by simp [between])
  · intro k member
    rcases first.taken k member with still | settled
    · exact second.taken k still
    · exact Or.inr (by rw [second.kept k settled]; exact settled)

theorem resolves_resolveNext (c : ProxyClient) (line : List Char) : Resolves c (c.resolveNext line) := by
  unfold resolveNext
  split
  · exact .refl c
  · rename_i waiter rest pending
    refine ⟨rfl, rfl, rfl, rfl, rfl, fun k settled => settleOnce_kept settled _ _, ?_, ?_, ?_⟩
    · intro k member
      rw [pending]
      exact List.mem_cons_of_mem _ member
    · intro k open_ settled
      have isWaiter : k = waiter := by
        by_contra apart
        have same : settleOnce c.reply waiter (.line line) k = none := by rw [settleOnce_other c.reply apart, open_]
        simp [same] at settled
      rw [pending, isWaiter]
      exact List.mem_cons_self ..
    · intro k member
      rw [pending] at member
      rcases List.mem_cons.mp member with rfl | later
      · exact Or.inr (settleOnce_isSome _ _ _)
      · exact Or.inl later

theorem Resolves.of_buffer {buffer : List Char} (resolves : Resolves { c with buffer } d) : Resolves c d :=
  ⟨resolves.queue, resolves.active, resolves.settled, resolves.made, resolves.written, resolves.kept, resolves.fewer,
    resolves.fresh, resolves.taken⟩

theorem resolves_onDataLoop (fuel : Nat) (c : ProxyClient) : Resolves c (onDataLoop fuel c) := by
  induction fuel generalizing c with
  | zero => exact .refl c
  | succ fuel ih =>
    unfold onDataLoop
    split
    · rename_i line feed rest _
      exact ((resolves_resolveNext { c with buffer := rest } line).trans (ih _)).of_buffer
    · exact .refl c

theorem resolves_onData (c : ProxyClient) (chunk : List Char) : Resolves c (c.onData chunk) :=
  (resolves_onDataLoop _ _).of_buffer

theorem resolves_fail (c : ProxyClient) (err : ClientError) : Resolves c (c.fail err) := by
  refine ⟨rfl, rfl, rfl, rfl, rfl, ?_, by simp [fail], ?_, ?_⟩
  · intro k settled
    simp only [fail, rejectAll_apply]
    rw [if_neg]
    rintro ⟨open_, _⟩
    simp [open_] at settled
  · intro k open_ settled
    simp only [fail, rejectAll_apply] at settled
    split at settled
    · rename_i both
      exact both.2
    · simp [open_] at settled
  · intro k member
    right
    simp only [fail, rejectAll_apply]
    split
    · rfl
    · rename_i not
      cases open_ : c.reply k with
      | none => exact (not ⟨open_, member⟩).elim
      | some r => rfl

end Resolving

/-- The call is in `doSend`. -/
def InHand (c : ProxyClient) (k : Nat) : Prop := ∃ phase, c.active = some ⟨k, phase⟩

/-- The calls in order: each is settled, in `doSend`, or queued behind it, and commands
are written in the order of the calls. -/
structure Sound (c : ProxyClient) : Prop where
  covered : ∀ k < c.made, (c.settled k).isSome ∨ k ∈ c.queue ∨ c.InHand k
  queued : ∀ k ∈ c.queue, k < c.made ∧ c.settled k = none ∧ c.reply k = none ∧ k ∉ c.pending ∧ ¬ c.InHand k
  active : ∀ k, c.InHand k → k < c.made ∧ c.settled k = none ∧ (c.reply k = none → k ∈ c.pending)
  known : ∀ k, c.made ≤ k → c.settled k = none ∧ c.reply k = none ∧ k ∉ c.pending
  echoed : ∀ k raw, c.settled k = some (.line raw) → c.reply k = some (.line raw)
  ordered : (c.written ++ c.queue).Pairwise (· < ·)
  early : ∀ k ∈ c.written, k < c.made

section Sound
variable {c d : ProxyClient}

theorem sound_connect : Sound connect := by
  refine ⟨?_, by simp [connect], ?_, by simp [connect], by simp [connect], by simp [connect], by simp [connect]⟩
  · intro k below
    exact (Nat.not_lt_zero k below).elim
  · rintro k ⟨phase, at_⟩
    cases at_

theorem Sound.resolves (sound : Sound c) (resolves : Resolves c d) : Sound d := by
  have inHand : ∀ k, d.InHand k ↔ c.InHand k := by
    intro k
    rw [InHand, InHand, resolves.active]
  have stays : ∀ k, c.reply k = none → k ∉ c.pending → d.reply k = none := by
    intro k open_ absent
    cases after : d.reply k with
    | none => rfl
    | some r => exact (absent (resolves.fresh k open_ (by simp [after]))).elim
  refine ⟨?_, ?_, ?_, ?_, ?_, ?_, ?_⟩
  · intro k below
    rw [resolves.made] at below
    rw [resolves.settled, resolves.queue, inHand]
    exact sound.covered k below
  · intro k member
    rw [resolves.queue] at member
    obtain ⟨below, unsettled, open_, absent, idle⟩ := sound.queued k member
    rw [resolves.made, resolves.settled, inHand]
    exact ⟨below, unsettled, stays k open_ absent, fun still => absent (resolves.fewer k still), idle⟩
  · intro k isHand
    obtain ⟨below, unsettled, waits⟩ := sound.active k ((inHand k).mp isHand)
    rw [resolves.made, resolves.settled]
    refine ⟨below, unsettled, fun open_ => ?_⟩
    have before : c.reply k = none := by
      cases was : c.reply k with
      | none => rfl
      | some r =>
        rw [resolves.kept k (by simp [was]), was] at open_
        cases open_
    rcases resolves.taken k (waits before) with still | settled
    · exact still
    · simp [open_] at settled
  · intro k beyond
    rw [resolves.made] at beyond
    obtain ⟨unsettled, open_, absent⟩ := sound.known k beyond
    rw [resolves.settled]
    exact ⟨unsettled, stays k open_ absent, fun still => absent (resolves.fewer k still)⟩
  · intro k raw settled
    rw [resolves.settled] at settled
    have answered := sound.echoed k raw settled
    rw [resolves.kept k (by simp [answered]), answered]
  · rw [resolves.written, resolves.queue]
    exact sound.ordered
  · intro k member
    rw [resolves.written] at member
    rw [resolves.made]
    exact sound.early k member

/-- What is known of the calls, but for the one in `doSend`. -/
def ledger (c : ProxyClient) := (c.queue, c.pending, c.reply, c.settled, c.made, c.written)

theorem Sound.congr (sound : Sound c) (same : d.ledger = c.ledger) (inHand : ∀ k, d.InHand k ↔ c.InHand k) : Sound d := by
  simp only [ledger, Prod.mk.injEq] at same
  obtain ⟨queue, pending, reply, settled, made, written⟩ := same
  refine ⟨?_, ?_, ?_, ?_, ?_, ?_, ?_⟩
  · intro k below
    rw [settled, queue, inHand]
    exact sound.covered k (made ▸ below)
  · intro k member
    rw [made, settled, reply, pending, inHand]
    exact sound.queued k (queue ▸ member)
  · intro k isHand
    rw [made, settled, reply, pending]
    exact sound.active k ((inHand k).mp isHand)
  · intro k beyond
    rw [settled, reply, pending]
    exact sound.known k (made ▸ beyond)
  · rw [settled, reply]
    exact sound.echoed
  · rw [written, queue]
    exact sound.ordered
  · rw [written, made]
    exact sound.early

/-- The call in `doSend` settles. -/
theorem Sound.finish (sound : Sound c) {k : Nat} (inHand : c.InHand k) {r : ClientReply}
    (echo : ∀ raw, r = .line raw → c.reply k = some (.line raw)) :
    Sound { c with settled := Function.update c.settled k (some r), active := none } := by
  have idle : ∀ j, ¬ ({ c with settled := Function.update c.settled k (some r), active := none } : ProxyClient).InHand j := by
    rintro j ⟨phase, at_⟩
    cases at_
  have alone : ∀ j, c.InHand j → j = k := by
    rintro j ⟨phase, at_⟩
    obtain ⟨phase', at'⟩ := inHand
    cases at_.symm.trans at'
    rfl
  have below := (sound.active k inHand).1
  refine ⟨?_, ?_, fun j isHand => (idle j isHand).elim, ?_, ?_, sound.ordered, sound.early⟩
  · intro j isMade
    by_cases same : j = k
    · subst same
      simp
    · rcases sound.covered j isMade with settled | queued | isHand
      · exact Or.inl (by simpa [Function.update_of_ne same] using settled)
      · exact Or.inr (Or.inl queued)
      · exact (same (alone j isHand)).elim
  · intro j member
    obtain ⟨isMade, unsettled, open_, absent, notHand⟩ := sound.queued j member
    have apart : j ≠ k := by
      rintro rfl
      exact notHand inHand
    exact ⟨isMade, by simpa [Function.update_of_ne apart] using unsettled, open_, absent, idle j⟩
  · intro j beyond
    have beyond : c.made ≤ j := beyond
    have apart : j ≠ k := by omega
    obtain ⟨unsettled, rest⟩ := sound.known j beyond
    exact ⟨by simpa [Function.update_of_ne apart] using unsettled, rest⟩
  · intro j raw settled
    by_cases same : j = k
    · subst same
      simp only [Function.update_self, Option.some.injEq] at settled
      exact echo raw settled
    · simp only [Function.update_of_ne same] at settled
      exact sound.echoed j raw settled

section Steps
variable {opts : ProxyClientOptions} {calls : Nat → ClientCall} {server : ControlServer}

theorem Sound.refuse (sound : Sound c) (err : ClientError) :
    Sound { c with
      settled := Function.update c.settled c.made (some (.rejected err))
      made := c.made + 1 } := by
  refine ⟨?_, ?_, ?_, ?_, ?_, sound.ordered, ?_⟩
  · intro k isMade
    by_cases same : k = c.made
    · subst same
      simp
    · have below : k < c.made := by
        have : k < c.made + 1 := isMade
        omega
      rcases sound.covered k below with settled | elsewhere
      · exact Or.inl (by simpa [Function.update_of_ne same] using settled)
      · exact Or.inr elsewhere
  · intro k member
    obtain ⟨below, unsettled, rest⟩ := sound.queued k member
    have apart : k ≠ c.made := by omega
    exact ⟨Nat.lt_succ_of_lt below, by simpa [Function.update_of_ne apart] using unsettled, rest⟩
  · intro k isHand
    obtain ⟨below, unsettled, rest⟩ := sound.active k isHand
    have apart : k ≠ c.made := by omega
    exact ⟨Nat.lt_succ_of_lt below, by simpa [Function.update_of_ne apart] using unsettled, rest⟩
  · intro k beyond
    have beyond : c.made + 1 ≤ k := beyond
    have apart : k ≠ c.made := by omega
    obtain ⟨unsettled, rest⟩ := sound.known k (by omega)
    exact ⟨by simpa [Function.update_of_ne apart] using unsettled, rest⟩
  · intro k raw settled
    by_cases same : k = c.made
    · subst same
      simp at settled
    · simp only [Function.update_of_ne same] at settled
      exact sound.echoed k raw settled
  · exact fun k member => Nat.lt_succ_of_lt (sound.early k member)

theorem Sound.enqueue (sound : Sound c) :
    Sound { c with
      queue := c.queue ++ [c.made]
      made := c.made + 1 } := by
  obtain ⟨unsettled, open_, absent⟩ := sound.known c.made (Nat.le_refl _)
  have notHand : ¬ c.InHand c.made := fun isHand => Nat.lt_irrefl _ (sound.active c.made isHand).1
  refine ⟨?_, ?_, ?_, ?_, sound.echoed, ?_, ?_⟩
  · intro k isMade
    by_cases same : k = c.made
    · subst same
      exact Or.inr (Or.inl (by simp))
    · have below : k < c.made := by
        have : k < c.made + 1 := isMade
        omega
      rcases sound.covered k below with settled | queued | isHand
      · exact Or.inl settled
      · exact Or.inr (Or.inl (List.mem_append_left _ queued))
      · exact Or.inr (Or.inr isHand)
  · intro k member
    rcases List.mem_append.mp member with old | new
    · obtain ⟨below, rest⟩ := sound.queued k old
      exact ⟨Nat.lt_succ_of_lt below, rest⟩
    · rw [List.mem_singleton.mp new]
      exact ⟨Nat.lt_succ_self _, unsettled, open_, absent, notHand⟩
  · intro k isHand
    obtain ⟨below, rest⟩ := sound.active k isHand
    exact ⟨Nat.lt_succ_of_lt below, rest⟩
  · exact fun k beyond => sound.known k (Nat.le_of_succ_le beyond)
  · rw [← List.append_assoc, List.pairwise_append]
    refine ⟨sound.ordered, by simp, fun k member j isNew => ?_⟩
    rw [List.mem_singleton.mp isNew]
    rcases List.mem_append.mp member with isWritten | isQueued
    · exact sound.early k isWritten
    · exact (sound.queued k isQueued).1
  · exact fun k member => Nat.lt_succ_of_lt (sound.early k member)

/-- The head of the queue enters `doSend`; its line is written, or not. -/
theorem Sound.entered (sound : Sound c) {k : Nat} {rest : List Nat} (idle : c.active = none) (queue : c.queue = k :: rest)
    {phase : ActivePhase} {wrote : List Nat} (line : wrote = [k] ∨ wrote = []) :
    Sound { c with
      queue := rest
      pending := c.pending ++ [k]
      active := some ⟨k, phase⟩
      written := c.written ++ wrote } := by
  have first : k ∈ c.queue := by rw [queue]; exact List.mem_cons_self ..
  have ordered := sound.ordered
  rw [queue] at ordered
  have later : ∀ j ∈ rest, k < j := by
    intro j member
    exact (List.pairwise_cons.mp (List.pairwise_append.mp ordered).2.1).1 j member
  obtain ⟨below, unsettled, _, _, _⟩ := sound.queued k first
  have notHand : ∀ j, ¬ c.InHand j := by
    rintro j ⟨_, at_⟩
    rw [idle] at at_
    cases at_
  refine ⟨?_, ?_, ?_, ?_, sound.echoed, ?_, ?_⟩
  · intro j isMade
    rcases sound.covered j isMade with settled | queued | isHand
    · exact Or.inl settled
    · rw [queue] at queued
      rcases List.mem_cons.mp queued with rfl | member
      · exact Or.inr (Or.inr ⟨phase, rfl⟩)
      · exact Or.inr (Or.inl member)
    · exact (notHand j isHand).elim
  · intro j member
    obtain ⟨isMade, unsettled, open_, absent, _⟩ := sound.queued j (by rw [queue]; exact List.mem_cons_of_mem _ member)
    have apart := later j member
    refine ⟨isMade, unsettled, open_, ?_, ?_⟩
    · intro inPending
      rcases List.mem_append.mp inPending with old | new
      · exact absent old
      · rw [List.mem_singleton.mp new] at apart
        exact Nat.lt_irrefl _ apart
    · rintro ⟨_, at_⟩
      cases at_
      exact Nat.lt_irrefl _ apart
  · rintro j ⟨_, at_⟩
    cases at_
    exact ⟨below, unsettled, fun _ => List.mem_append_right _ (List.mem_singleton_self k)⟩
  · intro j beyond
    have beyond : c.made ≤ j := beyond
    obtain ⟨unsettled, open_, absent⟩ := sound.known j beyond
    refine ⟨unsettled, open_, fun inPending => ?_⟩
    rcases List.mem_append.mp inPending with old | new
    · exact absent old
    · rw [List.mem_singleton.mp new] at beyond
      omega
  · rcases line with rfl | rfl
    · simpa using ordered
    · rw [List.append_nil]
      exact ordered.sublist ((List.Sublist.refl _).append (List.sublist_cons_self k rest))
  · intro j member
    rcases List.mem_append.mp member with old | new
    · exact sound.early j old
    · rcases line with rfl | rfl
      · rw [List.mem_singleton.mp new]
        exact below
      · cases new

theorem Sound.enter (sound : Sound c) {k : Nat} {rest : List Nat} (idle : c.active = none) (queue : c.queue = k :: rest)
    (accepted : Bool) : Sound (c.enter opts calls accepted k rest) := by
  simp only [ProxyClient.enter]
  split
  · split
    · exact (sound.entered idle queue (Or.inl rfl)).congr rfl fun _ => Iff.rfl
    · exact (sound.entered idle queue (Or.inl rfl)).congr rfl fun _ => Iff.rfl
  · exact (sound.entered idle queue (Or.inr rfl)).congr (by simp [ledger]) fun _ => Iff.rfl

theorem Sound.step (sound : Sound c) (move : ClientMove) : Sound (c.step opts calls server move) := by
  have steps := stepped opts calls server c move
  generalize c.step opts calls server move = d at steps ⊢
  cases steps with
  | rests => exact sound
  | refuses => exact sound.refuse _
  | queues => exact sound.enqueue
  | enters accepted idle queue => exact sound.enter idle queue accepted
  | settles active answered =>
    refine sound.finish ⟨_, active⟩ ?_
    rintro raw rfl
    exact answered
  | drains active live =>
    refine sound.congr rfl fun j => ?_
    simp [InHand, awaitReply, active]
  | receives => exact (sound.resolves (resolves_onData c _)).congr rfl fun _ => Iff.rfl
  | expires active open_ => exact sound.finish ⟨_, active⟩ (by simp)
  | idles => exact sound.resolves (resolves_fail c _)
  | breaks => exact (sound.resolves (resolves_fail c _)).congr rfl fun _ => Iff.rfl
  | closes => exact (sound.resolves (resolves_fail c _)).congr rfl fun _ => Iff.rfl
  | ticks => exact sound.congr rfl fun _ => Iff.rfl

variable (opts calls server) in
theorem sound_exec (sound : Sound c) (moves : List ClientMove) :
    Sound (Execution.exec (ProxyClient.step opts calls server) c moves) :=
  Execution.exec_invariant (ProxyClient.step opts calls server) (I := Sound) (fun _ move sound => sound.step move) sound moves

end Steps

end Sound

end ProxyClient

end PartlyProxy
