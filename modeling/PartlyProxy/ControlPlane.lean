import PartlyProxy.Wire
import PartlyProxy.Cluster

namespace PartlyProxy
variable {deps : Deps} {σ : Type}

/-- Who sends commands: the connections of the TCP control plane, and the holders of
an in-process `CommandSender`. -/
inductive Party where
  | connection (k : Nat)
  | caller (k : Nat)
deriving DecidableEq, Repr

/-- What a party wants to have answered: a line that it has read, or a command that
it sends itself. -/
inductive Request where
  | line (text : String)
  | call (cmd : Command)

inductive Answer where
  | wire (resp : WireResponse)
  | result (result : Except ProxyError CommandResponse)

/-- What becomes of the result of `CommandSender::send`. -/
def Request.answer : Request → Except ProxyError CommandResponse → Answer
  | .line _, .ok resp => .wire (.fromResponse resp)
  | .line _, .error err => .wire (.error err.toText)
  | .call _, result => .result result

def Request.blank : Request → Bool
  | .line text => isBlank text
  | .call _ => false

/-- Where a party stands in `serve_connection`, or in its own calls of `send`:
between two requests, waiting for room in the channel, waiting for the reply, and
about to write the answer. A connection also ends, and so does a caller that drops
its future. -/
inductive PartyPhase where
  | reading
  | sending (req : Request) (cmd : Command)
  | awaiting (req : Request) (cmd : Command)
  | answering (req : Request) (answer : Answer)
  | closed

/-- A party with all it has taken on and all it has answered, in order. -/
structure Client where
  phase : PartyPhase
  taken : List Request
  answered : List (Request × Answer)

/-- `CommandEnvelope`. Its reply channel belongs to one request of one party, which
the party and the number of its earlier answers tell apart. -/
structure Envelope where
  party : Party
  number : Nat
  cmd : Command

/-- Where `process_loop` stands: at its `select!`, before or inside the dispatch of a
command, inside `wait_for_assertion`, or ended. -/
inductive Processor where
  | idle
  | dispatching (env : Envelope)
  | waiting (env : Envelope) (a : Assertion)
  | exited

/-- Where the accept loop of an upstream stands. -/
inductive ListenerPhase where
  | accepting
  | stopped
  | cleared
deriving DecidableEq, Repr

/-- A dispatch that has happened, with the shared state before and after it. -/
structure Effect (deps : Deps) (σ : Type) where
  party : Party
  number : Nat
  before : ClusterState deps σ
  after : ClusterState deps σ

/-- A running cluster with its control plane. `signalled` says that the shutdown
signal was sent, or its sender dropped. -/
structure ControlPlane (deps : Deps) (σ : Type) where
  cluster : Cluster deps σ
  client : Party → Client
  queue : List Envelope
  processor : Processor
  signalled : Bool
  listener : String → ListenerPhase
  effects : List (Effect deps σ)

inductive ControlMove where
  | request (upstream : String) (i : Nat)
  | read (k : Nat) (text : String)
  | call (k : Nat) (cmd : Command)
  | send (p : Party)
  | process
  | look (late : Bool)
  | expire
  | lost (p : Party)
  | answer (p : Party)
  | close (p : Party)
  | signal
  | stop (upstream : String)
  | clear (upstream : String)

/-- `mpsc::channel(64)`. -/
def channelCapacity : Nat := 64

def channelClosed : ProxyError := .command "command channel closed"

def replyDropped : ProxyError := .command "command reply dropped"

/-- One look of `wait_for_assertion` at the ring. It is `late` when no time is left. -/
def looked (deps : Deps) (a : Assertion) (late : Bool) (buffer : List RecordedExchange) : Option CommandResponse :=
  let count := countMatching (a.filter.matches deps) buffer
  match evaluate a.shape count with
  | .passed message => some (.assertionResult true message)
  | .failed message => some (.assertionResult false message)
  | .pending =>
    if a.timeout = 0 then
      some (.assertionResult false s!"matched {count}; timeout=0 collapsed to immediate eval")
    else if late then some (.assertionResult false (Waiting.expiryMessage a count))
    else none

/-- The answer when the timer of `wait_for_assertion` fires. -/
def expired (deps : Deps) (a : Assertion) (buffer : List RecordedExchange) : CommandResponse :=
  .assertionResult false (Waiting.expiryMessage a (countMatching (a.filter.matches deps) buffer))

namespace Client

def start : Client := ⟨.reading, [], []⟩

/-- A connection reads a line. A blank one is skipped, and one that is no command is
answered at once. -/
def read (deps : Deps) (fromStr : String → Except String WireCommand) (cl : Client) (text : String) : Client :=
  if isBlank text then { cl with taken := cl.taken ++ [.line text] }
  else
    match parseLine deps fromStr text with
    | .ok cmd => { cl with phase := .sending (.line text) cmd, taken := cl.taken ++ [.line text] }
    | .error resp => { cl with phase := .answering (.line text) (.wire resp), taken := cl.taken ++ [.line text] }

def call (cl : Client) (cmd : Command) : Client :=
  { cl with phase := .sending (.call cmd) cmd, taken := cl.taken ++ [.call cmd] }

end Client

namespace ControlPlane

def setClient (c : ControlPlane deps σ) (p : Party) (cl : Client) : ControlPlane deps σ :=
  { c with client := Function.update c.client p cl }

def setPhase (c : ControlPlane deps σ) (p : Party) (phase : PartyPhase) : ControlPlane deps σ :=
  c.setClient p { c.client p with phase }

/-- `envelope.reply.send`. Nobody may be left to receive it. -/
def reply (c : ControlPlane deps σ) (env : Envelope) (resp : CommandResponse) : ControlPlane deps σ :=
  match (c.client env.party).phase with
  | .awaiting req _ =>
    if (c.client env.party).answered.length = env.number then
      c.setPhase env.party (.answering req (req.answer (.ok resp)))
    else c
  | _ => c

/-- `CommandSender::send` up to the wait for the reply. -/
def send (c : ControlPlane deps σ) (p : Party) : ControlPlane deps σ :=
  match (c.client p).phase with
  | .sending req cmd =>
    match c.processor with
    | .exited => c.setPhase p (.answering req (req.answer (.error channelClosed)))
    | _ =>
      if c.queue.length < channelCapacity then
        { c.setPhase p (.awaiting req cmd) with
          queue := c.queue ++ [⟨p, (c.client p).answered.length, cmd⟩] }
      else c
  | _ => c

def execute (reg : UpstreamRegistry) (c : ControlPlane deps σ) (env : Envelope) : ControlPlane deps σ :=
  { c with
    cluster := { c.cluster with toClusterState := (dispatch reg c.cluster.toClusterState env.cmd).2 }
    effects := c.effects ++ [Effect.mk env.party env.number c.cluster.toClusterState
      (dispatch reg c.cluster.toClusterState env.cmd).2] }

/-- The dispatch of a command that the processor has taken. -/
def dispatchTaken (reg : UpstreamRegistry) (c : ControlPlane deps σ) (env : Envelope) : ControlPlane deps σ :=
  match (dispatch reg c.cluster.toClusterState env.cmd).1 with
  | .reply resp => { (c.execute reg env).reply env resp with processor := .idle }
  | .wait a => { c.execute reg env with processor := .waiting env a }

/-- One step of `process_loop`. The signal is polled before the channel, and the
channel goes away with the loop. -/
def process (reg : UpstreamRegistry) (c : ControlPlane deps σ) : ControlPlane deps σ :=
  match c.processor with
  | .idle =>
    if c.signalled then { c with processor := .exited, queue := [] }
    else
      match c.queue with
      | [] => c
      | env :: rest => { c with processor := .dispatching env, queue := rest }
  | .dispatching env => c.dispatchTaken reg env
  | _ => c

/-- `wait_for_assertion` returns. -/
def conclude (c : ControlPlane deps σ) (verdict : Assertion → Option CommandResponse) : ControlPlane deps σ :=
  match c.processor with
  | .waiting env a =>
    match verdict a with
    | some resp => { c.reply env resp with processor := .idle }
    | none => c
  | _ => c

/-- The reply channel was dropped with the envelope. -/
def lost (c : ControlPlane deps σ) (p : Party) : ControlPlane deps σ :=
  match (c.client p).phase, c.processor with
  | .awaiting req _, .exited => c.setPhase p (.answering req (req.answer (.error replyDropped)))
  | _, _ => c

def answer (c : ControlPlane deps σ) (p : Party) : ControlPlane deps σ :=
  match (c.client p).phase with
  | .answering req answer =>
    c.setClient p ⟨.reading, (c.client p).taken, (c.client p).answered ++ [(req, answer)]⟩
  | _ => c

/-- A connection ends while it reads or writes; a caller may drop its future at any
time. -/
def close (c : ControlPlane deps σ) (p : Party) : ControlPlane deps σ :=
  match p, (c.client p).phase with
  | .connection _, .sending _ _ | .connection _, .awaiting _ _ => c
  | _, _ => c.setPhase p .closed

/-- The unblocking at the start of the drain. -/
def clear (c : ControlPlane deps σ) (u : String) : ControlPlane deps σ :=
  match c.listener u with
  | .stopped =>
    { c with
      cluster := { c.cluster with
        toClusterState := c.cluster.toClusterState.modify u fun up => { up with pause := up.pause.sendReplace false } }
      listener := Function.update c.listener u .cleared }
  | _ => c

section Steps
variable (storage : SnapshotStorage σ) (reg : UpstreamRegistry) (arrivals : String → Nat → Arrival)
  (fromStr : String → Except String WireCommand)

/-- One step of any of the tasks. An accept loop stops on the signal, or on a fatal
error at any time. -/
def step (c : ControlPlane deps σ) : ControlMove → ControlPlane deps σ
  | .request u i => { c with cluster := c.cluster.step storage reg arrivals (.request u i) }
  | .read k text =>
    match (c.client (.connection k)).phase with
    | .reading =>
      -- The signal is polled before the next line.
      if c.signalled then c.setPhase (.connection k) .closed
      else c.setClient (.connection k) ((c.client (.connection k)).read deps fromStr text)
    | _ => c
  | .call k cmd =>
    match (c.client (.caller k)).phase with
    | .reading => c.setClient (.caller k) ((c.client (.caller k)).call cmd)
    | _ => c
  | .send p => c.send p
  | .process => c.process reg
  | .look late => c.conclude fun a => looked deps a late c.cluster.recorder.buffer
  | .expire => c.conclude fun a => some (expired deps a c.cluster.recorder.buffer)
  | .lost p => c.lost p
  | .answer p => c.answer p
  | .close p => c.close p
  | .signal => { c with signalled := true }
  | .stop u =>
    match c.listener u with
    | .accepting => { c with listener := Function.update c.listener u .stopped }
    | _ => c
  | .clear u => c.clear u

def start (s : ClusterState deps σ) : ControlPlane deps σ :=
  ⟨.start s, fun _ => .start, [], .idle, false, fun _ => .accepting, []⟩

def run (s : ClusterState deps σ) (moves : List ControlMove) : ControlPlane deps σ :=
  Execution.exec (step storage reg arrivals fromStr) (start s) moves

end Steps

/-- A connection takes lines, a caller its own commands. -/
def Takes : Party → Request → Prop
  | .connection _, .line _ | .caller _, .call _ => True
  | _, _ => False

/-- Where a party stands when it has taken a request on. -/
inductive Taken (req : Request) : PartyPhase → Prop
  | skipped : req.blank = true → Taken req .reading
  | lowered {cmd} : req.blank = false → Taken req (.sending req cmd)
  | refused {text resp} : req.blank = false → req = .line text → Taken req (.answering req (.wire resp))

/-- All that a step can do to the parties and the processor. -/
inductive Stepped (reg : UpstreamRegistry) (c : ControlPlane deps σ) : ControlPlane deps σ → Prop
  | frame {c'} : c'.client = c.client → c'.queue = c.queue → c'.processor = c.processor → c'.signalled = c.signalled →
      c'.effects = c.effects → Stepped reg c c'
  | signal : Stepped reg c { c with signalled := true }
  | take {p req phase} : Takes p req → (c.client p).phase = .reading → Taken req phase →
      Stepped reg c (c.setClient p ⟨phase, (c.client p).taken ++ [req], (c.client p).answered⟩)
  | enqueue {p req cmd} : (c.client p).phase = .sending req cmd → c.processor ≠ .exited →
      Stepped reg c { c.setPhase p (.awaiting req cmd) with
        queue := c.queue ++ [⟨p, (c.client p).answered.length, cmd⟩] }
  | giveUp {p req cmd err} : (c.client p).phase = .sending req cmd ∨ (c.client p).phase = .awaiting req cmd →
      c.processor = .exited → Stepped reg c (c.setPhase p (.answering req (req.answer (.error err))))
  | exit : c.processor = .idle → c.signalled = true → Stepped reg c { c with processor := .exited, queue := [] }
  | fetch {env rest} : c.processor = .idle → c.signalled = false → c.queue = env :: rest →
      Stepped reg c { c with processor := .dispatching env, queue := rest }
  | finish {env resp} : c.processor = .dispatching env →
      (dispatch reg c.cluster.toClusterState env.cmd).1 = .reply resp →
      Stepped reg c { (c.execute reg env).reply env resp with processor := .idle }
  | wait {env a} : c.processor = .dispatching env → (dispatch reg c.cluster.toClusterState env.cmd).1 = .wait a →
      Stepped reg c { c.execute reg env with processor := .waiting env a }
  | conclude {env a passed message} : c.processor = .waiting env a →
      Stepped reg c { c.reply env (.assertionResult passed message) with processor := .idle }
  | answer {p req answer} : (c.client p).phase = .answering req answer →
      Stepped reg c (c.setClient p ⟨.reading, (c.client p).taken, (c.client p).answered ++ [(req, answer)]⟩)
  | close {p} : Stepped reg c (c.setPhase p .closed)

section Stepped
variable {storage : SnapshotStorage σ} {reg : UpstreamRegistry} {arrivals : String → Nat → Arrival}
  {fromStr : String → Except String WireCommand}

theorem looked_eq_some {a : Assertion} {late : Bool} {buffer : List RecordedExchange} {resp : CommandResponse}
    (ends : looked deps a late buffer = some resp) : ∃ passed message, resp = .assertionResult passed message := by
  simp only [looked] at ends
  repeat' split at ends
  all_goals cases ends
  all_goals exact ⟨_, _, rfl⟩

theorem stepped_read (c : ControlPlane deps σ) {k : Nat} (at_ : (c.client (.connection k)).phase = .reading)
    (text : String) :
    Stepped reg c (c.setClient (.connection k) ((c.client (.connection k)).read deps fromStr text)) := by
  unfold Client.read
  split
  · rename_i blank
    have takes : Takes (.connection k) (.line text) := trivial
    have skips : Taken (.line text) (c.client (.connection k)).phase := by
      rw [at_]
      exact .skipped blank
    exact .take takes at_ skips
  · rename_i filled
    have notBlank : (Request.line text).blank = false := by simpa [Request.blank] using filled
    split
    · exact .take trivial at_ (.lowered notBlank)
    · exact .take trivial at_ (.refused notBlank rfl)

theorem Stepped.rests (c : ControlPlane deps σ) : Stepped reg c c := .frame rfl rfl rfl rfl rfl

theorem stepped_send (c : ControlPlane deps σ) (p : Party) : Stepped reg c (c.send p) := by
  unfold send
  split
  · rename_i req cmd at_
    split
    · exact .giveUp (Or.inl at_) ‹_›
    · split
      · exact .enqueue at_ ‹_›
      · exact .rests c
  · exact .rests c

theorem stepped_process (c : ControlPlane deps σ) : Stepped reg c (c.process reg) := by
  unfold process
  split
  · split
    · exact .exit ‹_› ‹_›
    · rename_i idle silent
      split
      · exact .rests c
      · exact .fetch idle (by simpa using silent) ‹_›
  · unfold dispatchTaken
    split
    · exact .finish ‹_› ‹_›
    · exact .wait ‹_› ‹_›
  · exact .rests c

theorem stepped_conclude (c : ControlPlane deps σ) {verdict : Assertion → Option CommandResponse}
    (verdicts : ∀ a resp, verdict a = some resp → ∃ passed message, resp = .assertionResult passed message) :
    Stepped reg c (c.conclude verdict) := by
  unfold conclude
  split
  · rename_i env a waits
    split
    · rename_i resp ends
      obtain ⟨passed, message, rfl⟩ := verdicts a resp ends
      exact .conclude waits
    · exact .rests c
  · exact .rests c

theorem stepped (c : ControlPlane deps σ) (move : ControlMove) :
    Stepped reg c (c.step storage reg arrivals fromStr move) := by
  cases move with
  | request u i => exact .frame rfl rfl rfl rfl rfl
  | read k text =>
    simp only [step]
    split
    · split
      · exact .close
      · exact stepped_read c ‹_› text
    · exact .rests c
  | call k cmd =>
    simp only [step]
    split
    · exact .take trivial ‹_› (.lowered rfl)
    · exact .rests c
  | send p => exact stepped_send c p
  | process => exact stepped_process c
  | look late => exact stepped_conclude c fun a resp ends => looked_eq_some ends
  | expire =>
    exact stepped_conclude c fun a resp ends => ⟨_, _, (Option.some.inj ends).symm⟩
  | lost p =>
    simp only [step, lost]
    split
    · exact .giveUp (Or.inr ‹_›) ‹_›
    · exact .rests c
  | answer p =>
    simp only [step, answer]
    split
    · exact .answer ‹_›
    · exact .rests c
  | close p =>
    simp only [step, close]
    split
    · exact .rests c
    · exact .rests c
    · exact .close
  | signal => exact .signal
  | stop u =>
    simp only [step]
    split <;> exact .frame rfl rfl rfl rfl rfl
  | clear u =>
    simp only [step, clear]
    split <;> exact .frame rfl rfl rfl rfl rfl

end Stepped

end ControlPlane

end PartlyProxy
