import PartlyProxy.ClientCommands
import PartlyProxy.ClientMatching
import PartlyProxy.Linearization
import PartlyProxy.Reference

namespace PartlyProxy
variable {deps : Deps} {σ : Type}

/-- A natural that is exact as a double. -/
def JsNumber.Exact (n : JsNumber) : Prop := n.Below 9007199254740992

/-- As the delay of a timer. -/
def JsNumber.ms (n : JsNumber) : Option Int := (n.toNat 9007199254740992).map Int.ofNat

def ClientMethod.timeoutMs : ClientMethod → Option JsNumber
  | .assertSeen _ timeoutMs | .assertCount _ _ timeoutMs => timeoutMs
  | _ => none

/-- What a program does with a `ProxyClient`: its calls in order, each with the command
object as `JSON.stringify` goes through it. Its timeouts are exact. -/
structure ClientProgram where
  defaultTimeout : JsNumber
  socketTimeoutMs : Option Nat
  method : Nat → ClientMethod
  object : Nat → List (String × Json)
  stringified : ∀ k, (object k).Perm ((method k).members defaultTimeout)
  exactDefault : defaultTimeout.Exact
  exact : ∀ k, ∀ timeout ∈ (method k).timeoutMs, timeout.Exact

namespace ClientProgram

def line (program : ClientProgram) (k : Nat) : String := Json.render (.obj (program.object k))

def options (program : ClientProgram) : ProxyClientOptions := ⟨program.defaultTimeout.ms, program.socketTimeoutMs⟩

def call (program : ClientProgram) (k : Nat) : ClientCall :=
  match program.method k with
  | .assertSeen _ timeoutMs | .assertCount _ _ timeoutMs => .assertion (timeoutMs.bind JsNumber.ms)
  | _ => .command

end ClientProgram

def responseText (serde : Serde) (resp : WireResponse) : List Char := (serde.render (resp.toJson serde)).toList

/-- The line that `serve_connection` writes for an answer. -/
def answerText (serde : Serde) : Request × Answer → List Char
  | (_, .wire resp) => responseText serde resp ++ ['\n']
  | (_, .result _) => []

/-- A client, the control plane that it talks to, and all that the control plane has
written to its connection. -/
structure RemoteControl (deps : Deps) (σ : Type) where
  client : ProxyClient
  plane : ControlPlane deps σ
  wire : List Char

inductive RemoteMove where
  | client (move : ClientMove)
  | plane (move : ControlMove)

/-- A server of which nothing is read. -/
def silent : ControlServer where
  response _ := []
  oneLine _ := by
    intro present
    cases present

section Dispatch
variable {reg : UpstreamRegistry} {c : ClusterState deps σ}

theorem onUpstreams_reply {target : Option String} {f : UpstreamState deps → UpstreamState deps} {resp : CommandResponse}
    (replies : (onUpstreams reg c target f).1 = .reply resp) : resp = .ok ∨ ∃ message, resp = .error message := by
  unfold onUpstreams at replies
  split at replies
  · split at replies
    · exact Or.inl (Dispatched.reply.inj replies).symm
    · exact Or.inr ⟨_, (Dispatched.reply.inj replies).symm⟩
  · exact Or.inl (Dispatched.reply.inj replies).symm

/-- The kinds of answers of the commands. -/
theorem dispatch_reply {cmd : Command} {resp : CommandResponse} (replies : (dispatch reg c cmd).1 = .reply resp) :
    (∃ message, resp = .error message) ∨
      match cmd with
      | .queryTraffic _ => ∃ found, resp = .exchanges found
      | .assertSeen _ _ | .assertCount _ _ _ => False
      | _ => resp = .ok := by
  cases cmd with
  | stub upstream matcher response times =>
    simp only [dispatch] at replies
    split at replies
    · exact Or.inr (Dispatched.reply.inj replies).symm
    · exact Or.inl ⟨_, (Dispatched.reply.inj replies).symm⟩
  | clearStubs upstream => exact (onUpstreams_reply replies).symm
  | pause upstream => exact (onUpstreams_reply replies).symm
  | resume upstream => exact (onUpstreams_reply replies).symm
  | queryTraffic filter => exact Or.inr ⟨_, (Dispatched.reply.inj replies).symm⟩
  | clearRecordings => exact Or.inr (Dispatched.reply.inj replies).symm
  | assertSeen filter timeout => cases replies
  | assertCount filter expected timeout => cases replies

/-- The command that a method is for. -/
def ClientMethod.Sends : ClientMethod → Command → Prop
  | .stub _, .stub _ _ _ _ | .clearStubs _, .clearStubs _ | .pause _, .pause _ | .resume _, .resume _ => True
  | .assertSeen _ _, .assertSeen _ _ | .assertCount _ _ _, .assertCount _ _ _ => True
  | .queryTraffic _, .queryTraffic _ | .clearRecordings, .clearRecordings => True
  | _, _ => False

theorem sends_of_lowered {refused : String} {defaultTimeout : JsNumber} {m : ClientMethod} {cmd : Command}
    (lowered : lowerWire deps refused (m.meaning defaultTimeout) = .ok cmd) : m.Sends cmd := by
  obtain ⟨wire, meant, lowers⟩ : ∃ wire, m.meaning defaultTimeout = some wire ∧ wire.intoCommand deps = .ok cmd := by
    cases meant : m.meaning defaultTimeout with
    | none =>
      rw [meant] at lowered
      cases lowered
    | some wire =>
      rw [meant] at lowered
      cases into : wire.intoCommand deps with
      | error err =>
        rw [lowerWire, into] at lowered
        cases lowered
      | ok cmd' =>
        rw [lowerWire, into] at lowered
        cases lowered
        exact ⟨wire, rfl, into⟩
  cases m with
  | stub options =>
    obtain ⟨fields, _, rfl⟩ := Option.map_eq_some_iff.mp meant
    cases matching : fields.matcher deps with
    | error err =>
      rw [WireCommand.intoCommand, matching] at lowers
      cases lowers
    | ok matcher =>
      cases answering : fields.response with
      | error err =>
        rw [WireCommand.intoCommand, matching, answering] at lowers
        cases lowers
      | ok response =>
        rw [WireCommand.intoCommand, matching, answering] at lowers
        cases lowers
        trivial
  | assertSeen filter timeoutMs =>
    simp only [ClientMethod.meaning, Option.bind_eq_bind, Option.bind_eq_some_iff, Option.some.injEq] at meant
    obtain ⟨fields, _, timeout, _, rfl⟩ := meant
    cases lowers
    trivial
  | assertCount filter expected timeoutMs =>
    simp only [ClientMethod.meaning, Option.bind_eq_bind, Option.bind_eq_some_iff, Option.some.injEq] at meant
    obtain ⟨fields, _, count, _, timeout, _, rfl⟩ := meant
    cases lowers
    trivial
  | queryTraffic filter =>
    obtain ⟨fields, _, rfl⟩ := Option.map_eq_some_iff.mp meant
    cases lowers
    trivial
  | _ =>
    cases meant
    cases lowers
    trivial

theorem ClientMethod.expects_error (m : ClientMethod) (message : String) : m.Expects (.error message) := by
  cases m <;> trivial

theorem ClientMethod.Sends.expects_reply {m : ClientMethod} {cmd : Command} {resp : CommandResponse} (sends : m.Sends cmd)
    (replies : (dispatch reg c cmd).1 = .reply resp) : m.Expects (.fromResponse resp) := by
  rcases dispatch_reply replies with ⟨message, rfl⟩ | kind
  · exact m.expects_error message
  · cases cmd with
    | queryTraffic filter =>
      obtain ⟨found, rfl⟩ := kind
      cases m <;> first | exact sends.elim | trivial
    | assertSeen filter timeout => exact kind.elim
    | assertCount filter expected timeout => exact kind.elim
    | _ =>
      rw [show resp = .ok from kind]
      cases m <;> first | exact sends.elim | trivial

theorem ClientMethod.Sends.expects_verdict {m : ClientMethod} {cmd : Command} {a : Assertion} (sends : m.Sends cmd)
    (waits : (dispatch reg c cmd).1 = .wait a) (passed : Bool) (message : String) :
    m.Expects (.assertionResult passed message) := by
  have isAssertion := (dispatch_wait waits).1
  cases cmd with
  | assertSeen filter timeout => cases m <;> first | exact sends.elim | trivial
  | assertCount filter expected timeout => cases m <;> first | exact sends.elim | trivial
  | _ => cases isAssertion

/-- What is no command is answered with an error. -/
theorem parseLine_error {fromStr : String → Except String WireCommand} {line : String} {resp : WireResponse}
    (refuses : parseLine deps fromStr line = .error resp) : ∃ message, resp = .error message := by
  unfold parseLine at refuses
  split at refuses
  · exact ⟨_, (Except.error.inj refuses).symm⟩
  · split at refuses
    · exact ⟨_, (Except.error.inj refuses).symm⟩
    · cases refuses

end Dispatch

namespace ControlPlane

theorem judged_assertion {a : Assertion} {buffer : List RecordedExchange} {resp : CommandResponse}
    (verdict : Judged deps a buffer resp) : ∃ passed message, resp = .assertionResult passed message := by
  rcases verdict with ⟨late, looks⟩ | rfl
  · exact looked_eq_some looks
  · exact ⟨_, _, rfl⟩

def lists (c : ControlPlane deps σ) (p : Party) : List Request × List (Request × Answer) :=
  ((c.client p).taken, (c.client p).answered)

section Lists
variable {storage : SnapshotStorage σ} {reg : UpstreamRegistry} {arrivals : String → Nat → Arrival}
  {fromStr : String → Except String WireCommand} (c : ControlPlane deps σ) (p : Party)

theorem lists_setPhase (q : Party) (phase : PartyPhase) : (c.setPhase q phase).lists p = c.lists p := by
  by_cases same : p = q
  · subst same
    rw [lists, setPhase, setClient_self]
    rfl
  · rw [lists, setPhase, setClient_other c same]
    rfl

theorem lists_reply (env : Envelope) (resp : CommandResponse) : (c.reply env resp).lists p = c.lists p := by
  rcases reply_cases c env resp with same | ⟨req, cmd, _, next⟩
  · rw [same]
  · rw [next, lists_setPhase]

theorem lists_conclude (verdict : Assertion → Option CommandResponse) : (c.conclude verdict).lists p = c.lists p := by
  unfold conclude
  split
  · split
    · exact lists_reply c p _ _
    · rfl
  · rfl

theorem lists_process : (c.process reg).lists p = c.lists p := by
  unfold process
  split
  · split
    · rfl
    · split <;> rfl
  · unfold dispatchTaken
    split
    · exact lists_reply (c.execute reg _) p _ _
    · rfl
  · rfl

theorem lists_send (q : Party) : (c.send q).lists p = c.lists p := by
  unfold send
  split
  · split
    · exact lists_setPhase c p q _
    · split
      · exact lists_setPhase c p q _
      · rfl
  · rfl

theorem lists_read (k : Nat) (text : String) :
    (c.setClient (.connection k) ((c.client (.connection k)).read deps fromStr text)).lists (.connection k) =
      ((c.client (.connection k)).taken ++ [.line text], (c.client (.connection k)).answered) := by
  rw [lists, setClient_self]
  unfold Client.read
  split
  · rfl
  · split <;> rfl

variable (storage reg arrivals fromStr) in
/-- What a connection has taken and answered changes only when it reads a line or writes
an answer. -/
theorem lists_step (k : Nat) (move : ControlMove) :
    let d := c.step storage reg arrivals fromStr move
    d.lists (.connection k) = c.lists (.connection k) ∧
        (∀ req answer, move = .answer (.connection k) → (c.client (.connection k)).phase ≠ .answering req answer) ∨
      (∃ text, move = .read k text ∧ d.lists (.connection k) =
        ((c.client (.connection k)).taken ++ [.line text], (c.client (.connection k)).answered)) ∨
      ∃ req answer, move = .answer (.connection k) ∧ (c.client (.connection k)).phase = .answering req answer ∧
        d.lists (.connection k) =
          ((c.client (.connection k)).taken, (c.client (.connection k)).answered ++ [(req, answer)]) := by
  intro d
  cases move with
  | request u i => exact Or.inl ⟨rfl, by simp⟩
  | read j text =>
    simp only [d, step]
    split
    · split
      · exact Or.inl ⟨lists_setPhase c _ _ _, by simp⟩
      · by_cases same : j = k
        · subst same
          exact Or.inr (Or.inl ⟨text, rfl, lists_read c j text⟩)
        · refine Or.inl ⟨?_, by simp⟩
          rw [lists, setClient_other c (by simpa using Ne.symm same)]
          rfl
    · exact Or.inl ⟨rfl, by simp⟩
  | call j cmd =>
    refine Or.inl ⟨?_, by simp⟩
    simp only [d, step]
    split
    · rw [lists, setClient_other c (by simp)]
      rfl
    · rfl
  | send q => exact Or.inl ⟨lists_send c _ q, by simp⟩
  | process => exact Or.inl ⟨lists_process c _, by simp⟩
  | look late => exact Or.inl ⟨lists_conclude c _ _, by simp⟩
  | expire => exact Or.inl ⟨lists_conclude c _ _, by simp⟩
  | lost q =>
    refine Or.inl ⟨?_, by simp⟩
    simp only [d, step, lost]
    split
    · exact lists_setPhase c _ _ _
    · rfl
  | answer q =>
    simp only [d, step, answer]
    split
    · rename_i req answer at_
      by_cases same : q = .connection k
      · subst same
        refine Or.inr (Or.inr ⟨req, answer, rfl, at_, ?_⟩)
        rw [lists, setClient_self]
      · refine Or.inl ⟨?_, fun _ _ isAnswer => (same (ControlMove.answer.inj isAnswer)).elim⟩
        rw [lists, setClient_other c (Ne.symm same)]
        rfl
    · rename_i other
      refine Or.inl ⟨rfl, fun req answer isAnswer at_ => other req answer ?_⟩
      rw [ControlMove.answer.inj isAnswer, at_]
  | close q =>
    refine Or.inl ⟨?_, by simp⟩
    simp only [d, step, close]
    split
    · rfl
    · rfl
    · exact lists_setPhase c _ _ _
  | signal => exact Or.inl ⟨rfl, by simp⟩
  | stop u =>
    refine Or.inl ⟨?_, by simp⟩
    simp only [d, step]
    split <;> rfl
  | clear u =>
    refine Or.inl ⟨?_, by simp⟩
    simp only [d, step, clear]
    split <;> rfl

end Lists

end ControlPlane

namespace RemoteControl

section Step
variable (storage : SnapshotStorage σ) (reg : UpstreamRegistry) (arrivals : String → Nat → Arrival) (serde : Serde)
  (program : ClientProgram) (conn : Nat)

/-- The connection of the client. -/
def connection (c : RemoteControl deps σ) : Client := c.plane.client (.connection conn)

/-- The next line of the stream that the connection reads from. -/
def nextLine (c : RemoteControl deps σ) : Option String :=
  (c.client.written[(c.connection conn).taken.length]?).map program.line

/-- The client's connection reads what the client has written, in order. All other
parties do as they please. -/
def offered (c : RemoteControl deps σ) : ControlMove → Bool
  | .read k text => k ≠ conn || c.nextLine program conn = some text
  | _ => true

/-- What a move of the control plane writes to the connection of the client. -/
def sent (c : RemoteControl deps σ) : ControlMove → List Char
  | .answer p =>
    match (c.plane.client p).phase with
    | .answering req answer => if p = .connection conn then answerText serde (req, answer) else []
    | _ => []
  | _ => []

/-- One step of the client, of the control plane, or of a chunk on its way. -/
def step (c : RemoteControl deps σ) : RemoteMove → RemoteControl deps σ
  | .client (.data chunk) =>
    if c.client.socket = .live ∧ c.client.received ++ chunk <+: c.wire then
      { c with client := { c.client.onData chunk with
        received := c.client.received ++ chunk
        activity := c.client.clock } }
    else c
  | .client move => { c with client := c.client.step program.options program.call silent move }
  | .plane move =>
    if c.offered program conn move then
      { c with
        plane := c.plane.step storage reg arrivals (fromStr serde) move
        wire := c.wire ++ c.sent serde conn move }
    else c

def start (s : ClusterState deps σ) : RemoteControl deps σ := ⟨.connect, .start s, []⟩

def run (s : ClusterState deps σ) (moves : List RemoteMove) : RemoteControl deps σ :=
  Execution.exec (step storage reg arrivals serde program conn) (start s) moves

/-- What a move is to the control plane. -/
def planeMoves (c : RemoteControl deps σ) : RemoteMove → List ControlMove
  | .plane move => if c.offered program conn move then [move] else []
  | .client _ => []

/-- The whole run as the control plane sees it. -/
def planeRun (s : ClusterState deps σ) (moves : List RemoteMove) : List ControlMove :=
  Execution.history (step storage reg arrivals serde program conn) (planeMoves program conn) (start s) moves

end Step

/-- What each move does where it does anything. But for the data no server is asked. -/
inductive Stepped (storage : SnapshotStorage σ) (reg : UpstreamRegistry) (arrivals : String → Nat → Arrival)
    (serde : Serde) (program : ClientProgram) (conn : Nat) (c : RemoteControl deps σ) :
    RemoteMove → RemoteControl deps σ → Prop
  | rests (move : RemoteMove) : Stepped storage reg arrivals serde program conn c move c
  | plane {move : ControlMove} : c.offered program conn move = true →
      Stepped storage reg arrivals serde program conn c (.plane move) { c with
        plane := c.plane.step storage reg arrivals (fromStr serde) move
        wire := c.wire ++ c.sent serde conn move }
  | receives {chunk : List Char} : c.client.socket = .live → c.client.received ++ chunk <+: c.wire →
      Stepped storage reg arrivals serde program conn c (.client (.data chunk)) { c with
        client := { c.client.onData chunk with
          received := c.client.received ++ chunk
          activity := c.client.clock } }
  | client {move : ClientMove} {d : ProxyClient} :
      (∀ server, d = c.client.step program.options program.call server move) →
      Stepped storage reg arrivals serde program conn c (.client move) { c with client := d }

section Growth
variable {storage : SnapshotStorage σ} {reg : UpstreamRegistry} {arrivals : String → Nat → Arrival} {serde : Serde}
  {program : ClientProgram} {conn : Nat} {s : ClusterState deps σ}

theorem stepped (c : RemoteControl deps σ) (move : RemoteMove) :
    Stepped storage reg arrivals serde program conn c move (c.step storage reg arrivals serde program conn move) := by
  cases move with
  | plane move =>
    simp only [step]
    split
    · exact .plane ‹_›
    · exact .rests _
  | client move =>
    cases move with
    | data chunk =>
      simp only [step]
      split
      · rename_i arrives
        exact .receives arrives.1 arrives.2
      · exact .rests _
    | _ => exact .client fun _ => rfl

theorem written_grows_client (opts : ProxyClientOptions) (calls : Nat → ClientCall) (server : ControlServer)
    (c : ProxyClient) (move : ClientMove) : c.written <+: (c.step opts calls server move).written := by
  have steps := ProxyClient.stepped opts calls server c move
  generalize c.step opts calls server move = d at steps ⊢
  cases steps with
  | enters accepted idle queue =>
    unfold ProxyClient.enter
    dsimp only
    split
    · split <;> exact List.prefix_append _ _
    · exact List.prefix_rfl
  | receives => rw [(ProxyClient.resolves_onData c _).written]
  | _ => exact List.prefix_rfl

/-- Nothing is taken back of what was written and answered. -/
structure Extends (c d : RemoteControl deps σ) (conn : Nat) : Prop where
  written : c.client.written <+: d.client.written
  answered : (c.connection conn).answered <+: (d.connection conn).answered

theorem Extends.refl (c : RemoteControl deps σ) (conn : Nat) : Extends c c conn := ⟨List.prefix_rfl, List.prefix_rfl⟩

theorem Extends.trans {c d e : RemoteControl deps σ} (first : Extends c d conn) (second : Extends d e conn) :
    Extends c e conn := ⟨first.written.trans second.written, first.answered.trans second.answered⟩

theorem Stepped.extends {c d : RemoteControl deps σ} {move : RemoteMove}
    (steps : Stepped storage reg arrivals serde program conn c move d) : Extends c d conn := by
  cases steps with
  | rests => exact .refl c conn
  | @plane move => exact ⟨List.prefix_rfl, ControlPlane.answered_grows (ControlPlane.advances c.plane move) _⟩
  | @receives chunk =>
    refine ⟨?_, List.prefix_rfl⟩
    change _ <+: (c.client.onData chunk).written
    rw [(ProxyClient.resolves_onData c.client chunk).written]
  | client same =>
    refine ⟨?_, List.prefix_rfl⟩
    rw [same silent]
    exact written_grows_client _ _ _ _ _

theorem extends_run (early late : List RemoteMove) :
    Extends (run storage reg arrivals serde program conn s early) (run storage reg arrivals serde program conn s (early ++ late))
      conn := by
  rw [run, run, Execution.exec_append]
  exact Execution.exec_invariant (step storage reg arrivals serde program conn)
    (I := fun d => Extends (run storage reg arrivals serde program conn s early) d conn)
    (fun d move before => before.trans (stepped d move).extends) (.refl _ conn) late

end Growth

section Pipes
variable {storage : SnapshotStorage σ} {reg : UpstreamRegistry} {arrivals : String → Nat → Arrival} {serde : Serde}
  {program : ClientProgram} {conn : Nat} {s : ClusterState deps σ} {c : RemoteControl deps σ}

/-- The control plane runs as if the client were not modelled. -/
theorem plane_run (moves : List RemoteMove) :
    (run storage reg arrivals serde program conn s moves).plane =
      ControlPlane.run storage reg arrivals (fromStr serde) s (planeRun storage reg arrivals serde program conn s moves) := by
  refine Execution.exec_history (step storage reg arrivals serde program conn) (planeMoves program conn)
    (f := RemoteControl.plane) (fun c move => ?_) (start s) moves
  cases move with
  | plane move =>
    simp only [step, planeMoves]
    split <;> rfl
  | client move =>
    cases move with
    | data chunk =>
      simp only [step]
      split <;> rfl
    | _ => rfl

theorem sound_run (moves : List RemoteMove) : (run storage reg arrivals serde program conn s moves).client.Sound := by
  refine Execution.exec_invariant (step storage reg arrivals serde program conn) (I := fun c => c.client.Sound)
    (fun c move sound => ?_) ProxyClient.sound_connect moves
  have steps : Stepped storage reg arrivals serde program conn c move _ := stepped c move
  generalize c.step storage reg arrivals serde program conn move = d at steps ⊢
  cases steps with
  | rests => exact sound
  | plane => exact sound
  | @receives chunk => exact (sound.resolves (ProxyClient.resolves_onData c.client chunk)).congr rfl fun _ => Iff.rfl
  | client same =>
    change ProxyClient.Sound _
    rw [same silent]
    exact sound.step _

variable (serde program conn) in
/-- Both directions of the stream: the connection has taken the lines that were written
first, and what it has written are its answers. -/
structure Piped (c : RemoteControl deps σ) : Prop where
  room : (c.connection conn).taken.length ≤ c.client.written.length
  taken : (c.connection conn).taken =
    (c.client.written.take (c.connection conn).taken.length).map fun k => .line (program.line k)
  wire : c.wire = (c.connection conn).answered.flatMap (answerText serde)

theorem Piped.written (piped : Piped serde program conn c) {d : RemoteControl deps σ}
    (plane : d.plane = c.plane) (wire : d.wire = c.wire) (grown : c.client.written <+: d.client.written) :
    Piped serde program conn d := by
  have same : d.connection conn = c.connection conn := by rw [connection, plane, connection]
  have room := piped.room
  obtain ⟨more, isMore⟩ := grown
  refine ⟨?_, ?_, ?_⟩
  · rw [same, ← isMore, List.length_append]
    omega
  · rw [same, ← isMore, List.take_append_of_le_length room]
    exact piped.taken
  · rw [same, wire]
    exact piped.wire

theorem Piped.step (piped : Piped serde program conn c) (move : RemoteMove) :
    Piped serde program conn (c.step storage reg arrivals serde program conn move) := by
  have steps : Stepped storage reg arrivals serde program conn c move _ := stepped c move
  generalize c.step storage reg arrivals serde program conn move = d at steps ⊢
  have grows := steps.extends.written
  cases steps with
  | rests => exact piped
  | receives => exact piped.written rfl rfl grows
  | client => exact piped.written rfl rfl grows
  | @plane move offered =>
    obtain ⟨room, taken, wire⟩ := piped
    have effect := ControlPlane.lists_step storage reg arrivals (fromStr serde) c.plane conn move
    simp only [ControlPlane.lists, Prod.mk.injEq] at effect
    rcases effect with ⟨⟨sameTaken, sameAnswered⟩, quiet⟩ | ⟨text, rfl, moreTaken, sameAnswered⟩ |
      ⟨req, answer, rfl, at_, sameTaken, moreAnswered⟩
    · have nothing : c.sent serde conn move = [] := by
        unfold sent
        split
        · split
          · split
            · rename_i p req answer at_ isConn
              rw [isConn] at at_
              exact (quiet req answer (by rw [isConn]) at_).elim
            · rfl
          · rfl
        · rfl
      refine ⟨?_, ?_, ?_⟩
      · rw [connection, sameTaken]
        exact room
      · rw [connection, sameTaken]
        exact taken
      · rw [connection, sameAnswered, nothing, List.append_nil]
        exact wire
    · have next : c.client.written[(c.connection conn).taken.length]?.map program.line = some text := by
        simpa [RemoteControl.offered, nextLine] using offered
      obtain ⟨k, isNext, rfl⟩ := Option.map_eq_some_iff.mp next
      have short := (List.getElem?_eq_some_iff.mp isNext).1
      refine ⟨?_, ?_, ?_⟩
      · rw [connection, moreTaken, List.length_append]
        exact short
      · have here : (c.plane.client (.connection conn)).taken = (c.connection conn).taken := rfl
        rw [connection, moreTaken, List.length_append, List.length_singleton, List.take_add_one, List.map_append, here,
          ← taken, isNext]
        rfl
      · have nothing : c.sent serde conn (.read conn (program.line k)) = [] := rfl
        rw [connection, sameAnswered, nothing, List.append_nil]
        exact wire
    · have line : c.sent serde conn (.answer (.connection conn)) = answerText serde (req, answer) := by
        simp [sent, at_]
      refine ⟨?_, ?_, ?_⟩
      · rw [connection, sameTaken]
        exact room
      · rw [connection, sameTaken]
        exact taken
      · rw [connection, moreAnswered, line, List.flatMap_append, List.flatMap_singleton, wire]
        rfl

theorem piped_run (moves : List RemoteMove) :
    Piped serde program conn (run storage reg arrivals serde program conn s moves) :=
  Execution.exec_invariant (step storage reg arrivals serde program conn) (I := Piped serde program conn)
    (fun _ move piped => piped.step move) (⟨Nat.le_refl 0, rfl, rfl⟩ : Piped serde program conn (start s)) moves

theorem orderly_plane (moves : List RemoteMove) :
    ((run storage reg arrivals serde program conn s moves).connection conn).Orderly (.connection conn) := by
  rw [connection, plane_run]
  exact ControlPlane.orderly_run storage reg arrivals (fromStr serde) s _ _

/-- Every answer is a line for one of the commands, in the order in which these were
written. -/
theorem answered_line (moves : List RemoteMove) :
    let c := run storage reg arrivals serde program conn s moves
    (c.connection conn).answered.length ≤ c.client.written.length ∧
      ∀ (n : Nat) req answer, (c.connection conn).answered[n]? = some (req, answer) →
        ∃ k resp, c.client.written[n]? = some k ∧ req = Request.line (program.line k) ∧ answer = Answer.wire resp := by
  intro c
  have piped : Piped serde program conn c := piped_run moves
  have orderly : (c.connection conn).Orderly (.connection conn) := orderly_plane moves
  obtain ⟨pending, _, split, _⟩ := orderly.ordered
  have allFilled : ((c.connection conn).taken.filter fun req => !req.blank) = (c.connection conn).taken := by
    refine List.filter_eq_self.mpr fun req member => ?_
    rw [piped.taken] at member
    obtain ⟨k, _, rfl⟩ := List.mem_map.mp member
    have filled : isBlank (program.line k) = false := command_line_filled (program.object k)
    simp [Request.blank, filled]
  rw [allFilled] at split
  have shorter : (c.connection conn).answered.length ≤ (c.connection conn).taken.length := by
    rw [split, List.length_append, List.length_map]
    omega
  refine ⟨Nat.le_trans shorter piped.room, fun n req answer isAnswer => ?_⟩
  obtain ⟨inRange, _⟩ := List.getElem?_eq_some_iff.mp isAnswer
  have isTaken : (c.connection conn).taken[n]? = some req := by
    rw [split, List.getElem?_append_left (by simpa using inRange), List.getElem?_map, isAnswer]
    rfl
  rw [piped.taken, List.getElem?_map, List.getElem?_take_of_lt (by omega)] at isTaken
  obtain ⟨k, isWritten, rfl⟩ := Option.map_eq_some_iff.mp isTaken
  have fits := orderly.fits _ (List.mem_of_getElem? isAnswer)
  cases answer with
  | wire resp => exact ⟨k, resp, isWritten, rfl, rfl⟩
  | result result => exact fits.elim

end Pipes

section Prophecy
variable {storage : SnapshotStorage σ} {reg : UpstreamRegistry} {arrivals : String → Nat → Arrival} {serde : Serde}
  {program : ClientProgram} {conn : Nat} {s : ClusterState deps σ}

/-- The line that a run has written for a call by its end. -/
def lineFor (serde : Serde) (conn : Nat) (final : RemoteControl deps σ) (k : Nat) : Option (List Char) :=
  match (final.connection conn).answered[final.client.written.idxOf k]? with
  | some (_, .wire resp) => some (responseText serde resp)
  | _ => none

theorem lineFor_eq_some {final : RemoteControl deps σ} {k : Nat} {line : List Char}
    (isLine : lineFor serde conn final k = some line) :
    ∃ req resp, (final.connection conn).answered[final.client.written.idxOf k]? = some (req, .wire resp) ∧
      line = responseText serde resp := by
  unfold lineFor at isLine
  split at isLine
  · rename_i req resp here
    exact ⟨req, resp, here, (Option.some.inj isLine).symm⟩
  · cases isLine

theorem responseText_unbroken (law : serde.Lawful) (resp : WireResponse) : '\n' ∉ responseText serde resp := by
  intro present
  exact absurd (law.printable _ (resp.toJson_plain serde) '\n' present) (by decide)

/-- A server that answers as the run is going to, and with `filler` what the run leaves
unanswered. -/
def prophecy (law : serde.Lawful) (conn : Nat) (final : RemoteControl deps σ) (filler : List Char)
    (unbroken : '\n' ∉ filler) : ControlServer where
  response k := (lineFor serde conn final k).getD filler
  oneLine k := by
    cases isLine : lineFor serde conn final k with
    | none => exact unbroken
    | some line =>
      obtain ⟨req, resp, _, rfl⟩ := lineFor_eq_some isLine
      exact responseText_unbroken law resp

/-- What is on the wire at any time is what that server owes. -/
theorem wire_owed (law : serde.Lawful) {moves early late : List RemoteMove} (split : moves = early ++ late)
    (filler : List Char) (unbroken : '\n' ∉ filler) :
    (run storage reg arrivals serde program conn s early).wire <+:
      (run storage reg arrivals serde program conn s early).client.written.flatMap
        (prophecy law conn (run storage reg arrivals serde program conn s moves) filler unbroken).answer := by
  subst split
  obtain ⟨c, isEarly⟩ : ∃ c, c = run storage reg arrivals serde program conn s early := ⟨_, rfl⟩
  obtain ⟨final, isFinal⟩ : ∃ c, c = run storage reg arrivals serde program conn s (early ++ late) := ⟨_, rfl⟩
  have piped : Piped serde program conn c := isEarly ▸ piped_run early
  have grows : Extends c final conn := isEarly ▸ isFinal ▸ extends_run early late
  have sound : final.client.Sound := isFinal ▸ sound_run (early ++ late)
  have once : final.client.written.Nodup :=
    (List.pairwise_append.mp sound.ordered).1.imp fun below => Nat.ne_of_lt below
  obtain ⟨room, answered⟩ : (c.connection conn).answered.length ≤ c.client.written.length ∧
      ∀ (n : Nat) req answer, (c.connection conn).answered[n]? = some (req, answer) →
        ∃ k resp, c.client.written[n]? = some k ∧ req = Request.line (program.line k) ∧ answer = Answer.wire resp :=
    isEarly ▸ answered_line early
  rw [← isEarly, ← isFinal]
  have same : (c.client.written.take (c.connection conn).answered.length).map
      (prophecy law conn final filler unbroken).answer = (c.connection conn).answered.map (answerText serde) := by
    refine List.ext_getElem (by simp [room]) fun n isLeft isRight => ?_
    rw [List.length_map] at isRight
    obtain ⟨⟨req, answer⟩, isEntry⟩ : ∃ entry, (c.connection conn).answered[n] = entry := ⟨_, rfl⟩
    have here : (c.connection conn).answered[n]? = some (req, answer) := by
      rw [List.getElem?_eq_getElem isRight, isEntry]
    obtain ⟨k, resp, isWritten, _, rfl⟩ := answered n req answer here
    obtain ⟨inWritten, isCall⟩ := List.getElem?_eq_some_iff.mp isWritten
    have place : final.client.written.idxOf k = n := by
      have sameCall := List.prefix_iff_getElem?.mp grows.written n inWritten
      obtain ⟨inFinal, isFinal⟩ := List.getElem?_eq_some_iff.mp sameCall
      rw [← isCall, ← isFinal]
      exact once.idxOf_getElem n inFinal
    have later : (final.connection conn).answered[n]? = some (req, .wire resp) := by
      rw [List.prefix_iff_getElem?.mp grows.answered n isRight, isEntry]
    have isLine : lineFor serde conn final k = some (responseText serde resp) := by rw [lineFor, place, later]
    rw [List.getElem_map, List.getElem_map, List.getElem_take, isCall, isEntry, ControlServer.answer]
    simp only [prophecy, isLine, Option.getD_some, answerText]
  have cut : c.client.written = c.client.written.take (c.connection conn).answered.length ++
      c.client.written.drop (c.connection conn).answered.length := (List.take_append_drop _ _).symm
  rw [piped.wire, List.flatMap_def, ← same, ← List.flatMap_def, cut, List.flatMap_append, ← cut]
  exact List.prefix_append _ _

variable (program) in
/-- The 'timeout' event of the client's socket comes as `ProxyClient.Calm` says. -/
def Calm (c : RemoteControl deps σ) (move : RemoteMove) : Prop :=
  ∀ own, move = .client own → ProxyClient.Calm c.client own

theorem matched_run (law : serde.Lawful) {moves : List RemoteMove}
    (calm : Execution.Along (step storage reg arrivals serde program conn) Calm (start s) moves) (filler : List Char)
    (unbroken : '\n' ∉ filler) :
    ProxyClient.Matched
      (prophecy law conn (run storage reg arrivals serde program conn s moves) filler unbroken)
      (run storage reg arrivals serde program conn s moves).client := by
  have calmAt := (Execution.along_iff_forall_cut _).mp calm
  have each : ∀ early late, moves = early ++ late → ProxyClient.Matched
      (prophecy law conn (run storage reg arrivals serde program conn s moves) filler unbroken)
      (run storage reg arrivals serde program conn s early).client := by
    intro early
    induction early using List.reverseRecOn with
    | nil =>
      intro late _
      exact ⟨Or.inl ⟨⟨[], rfl, rfl⟩, by simp [run, start, ProxyClient.connect]⟩, by simp [run, start, ProxyClient.connect]⟩
    | append_singleton early move ih =>
      intro late split
      have split' : moves = early ++ move :: late := by rw [split, List.append_assoc, List.singleton_append]
      have matched := ih (move :: late) split'
      have quiet : Calm (run storage reg arrivals serde program conn s early) move := calmAt early move late split'
      have owed : (run storage reg arrivals serde program conn s early).wire <+: _ := wire_owed law split' filler unbroken
      have next : run storage reg arrivals serde program conn s (early ++ [move]) =
          (run storage reg arrivals serde program conn s early).step storage reg arrivals serde program conn move :=
        Execution.exec_snoc _ _ early move
      rw [next]
      generalize run storage reg arrivals serde program conn s early = c at matched quiet owed ⊢
      have steps : Stepped storage reg arrivals serde program conn c move _ := stepped c move
      generalize c.step storage reg arrivals serde program conn move = d at steps ⊢
      cases steps with
      | rests => exact matched
      | plane => exact matched
      | receives live arrives => exact matched.data live (arrives.trans owed)
      | client same =>
        change ProxyClient.Matched _ _
        rw [same (prophecy law conn (run storage reg arrivals serde program conn s moves) filler unbroken)]
        exact matched.step (quiet _ rfl)
  exact each moves [] (List.append_nil _).symm

end Prophecy

section Runs
variable (storage : SnapshotStorage σ) (reg : UpstreamRegistry) (arrivals : String → Nat → Arrival) {serde : Serde}
  (program : ClientProgram) (conn : Nat) (s : ClusterState deps σ)

/-- A call that is settled with a line was written, and its line is the answer of the
connection to its own command. -/
theorem line_of_settled (law : serde.Lawful) {moves : List RemoteMove}
    (calm : Execution.Along (step storage reg arrivals serde program conn) Calm (start s) moves) {k : Nat}
    {raw : List Char} (settled : (run storage reg arrivals serde program conn s moves).client.settled k = some (.line raw)) :
    let c := run storage reg arrivals serde program conn s moves
    ∃ (n : Nat) (resp : WireResponse), c.client.written[n]? = some k ∧ raw = responseText serde resp ∧
      (c.connection conn).answered[n]? = some (Request.line (program.line k), Answer.wire resp) := by
  intro c
  have replied := (sound_run moves).echoed k raw settled
  have empty : raw = (lineFor serde conn c k).getD [] :=
    (matched_run law calm [] (by simp)).own k raw replied
  have filled : raw = (lineFor serde conn c k).getD ['-'] :=
    (matched_run law calm ['-'] (by decide)).own k raw replied
  cases isLine : lineFor serde conn c k with
  | none =>
    rw [isLine] at empty filled
    rw [empty] at filled
    cases filled
  | some line =>
    obtain ⟨req, resp, isAnswer, rfl⟩ := lineFor_eq_some isLine
    obtain ⟨k', resp', isWritten, rfl, same⟩ := (answered_line moves).2 _ req (.wire resp) isAnswer
    have here : k' = k := by
      obtain ⟨inRange, isCall⟩ := List.getElem?_eq_some_iff.mp isWritten
      rw [← isCall]
      exact List.getElem_idxOf inRange
    subst here
    refine ⟨_, resp, isWritten, ?_, isAnswer⟩
    rw [empty, isLine, Option.getD_some]

/-- A client and the control plane, whatever the other parties, the network and the
shutdown do: commands are written in the order of the calls, and each is executed at
most once. Where the client's socket does not time out between two calls, a call that
gets a response gets the one to its own command, and what the command did is explained
by the one history of the shared state. -/
theorem remote_calls (law : serde.Lawful) (moves : List RemoteMove) :
    let c := run storage reg arrivals serde program conn s moves
    let h := ControlPlane.history storage reg arrivals (fromStr serde) s
      (planeRun storage reg arrivals serde program conn s moves)
    c.client.written.Pairwise (· < ·) ∧ (issuedIn h).Nodup ∧
      (Execution.Along (step storage reg arrivals serde program conn) Calm (start s) moves →
        ∀ k raw, c.client.settled k = some (.line raw) → ∃ n resp, c.client.written[n]? = some k ∧
          raw = responseText serde resp ∧
          ControlPlane.Explained storage reg arrivals (fromStr serde) s h (.connection conn) n (.line (program.line k))
            (.wire resp)) := by
  intro c h
  have linear := ControlPlane.linear_run storage reg arrivals (fromStr serde) s
    (planeRun storage reg arrivals serde program conn s moves)
  rw [← plane_run] at linear
  refine ⟨(List.pairwise_append.mp (sound_run moves).ordered).1, linear.distinct, fun calm k raw settled => ?_⟩
  obtain ⟨n, resp, isWritten, isRaw, isAnswer⟩ := line_of_settled storage reg arrivals program conn s law calm settled
  exact ⟨n, resp, isWritten, isRaw, (linear.told (.connection conn)).answered n _ _ isAnswer⟩

/-- What a connection is told for a command of the client is of the kind that its method
expects. -/
theorem expects_of_explained (reads : serde.Reads) {h : List Atomic} {p : Party} {n k : Nat} {resp : WireResponse}
    (explained : ControlPlane.Explained storage reg arrivals (fromStr serde) s h p n (.line (program.line k)) (.wire resp)) :
    (program.method k).Expects resp := by
  have sends : ∀ {cmd : Command}, (Request.line (program.line k)).Lowers deps (fromStr serde) cmd →
      (program.method k).Sends cmd := by
    intro cmd lowers
    exact sends_of_lowered ((parse_command_line deps reads (program.stringified k)).symm.trans lowers)
  generalize isAnswer : Answer.wire resp = answer at explained
  cases explained with
  | refused isLine refuses =>
    cases isAnswer
    obtain ⟨message, rfl⟩ := parseLine_error refuses
    exact ClientMethod.expects_error _ message
  | lost lowers =>
    rw [← Answer.wire.inj isAnswer.symm]
    exact ClientMethod.expects_error _ _
  | replied lowers _ replies =>
    rw [← Answer.wire.inj isAnswer.symm]
    exact (sends lowers).expects_reply replies
  | judged lowers _ waits verdict =>
    rw [← Answer.wire.inj isAnswer.symm]
    obtain ⟨passed, message, rfl⟩ := ControlPlane.judged_assertion verdict
    exact (sends lowers).expects_verdict waits passed message

/-- Where the client's socket does not time out between two calls, the response of a call
parses, and its method gives the typed value in it or throws the message of the server:
a response of another kind never comes. -/
theorem remote_results (law : serde.Lawful) (reads : serde.Reads) {js : JsonParser} (parses : js.Reads serde)
    {moves : List RemoteMove}
    (calm : Execution.Along (step storage reg arrivals serde program conn) Calm (start s) moves) {k : Nat}
    {raw : List Char} (settled : (run storage reg arrivals serde program conn s moves).client.settled k = some (.line raw)) :
    ∃ resp, (program.method k).Expects resp ∧
      (js.parse (String.ofList raw)).map (program.method k).result = some (resp.typed serde js) := by
  have linear := ControlPlane.linear_run storage reg arrivals (fromStr serde) s
    (planeRun storage reg arrivals serde program conn s moves)
  rw [← plane_run] at linear
  obtain ⟨n, resp, _, rfl, isAnswer⟩ := line_of_settled storage reg arrivals program conn s law calm settled
  have expects := expects_of_explained storage reg arrivals program s reads
    ((linear.told (.connection conn)).answered n _ _ isAnswer)
  have parsed : js.parse (String.ofList (responseText serde resp)) = some ((resp.toJson serde).mapNum js.double) := by
    rw [responseText, String.ofList_toList]
    exact parses.parse_render _ (resp.toJson_plain serde)
  refine ⟨resp, expects, ?_⟩
  rw [parsed, Option.map_some, result_of_expected serde js expects]

end Runs

section Samples

/-- A client that pauses all upstreams, and pauses them again. -/
def pauseProgram : ClientProgram where
  defaultTimeout := .natural 5000 (by decide)
  socketTimeoutMs := none
  method _ := .pause none
  object _ := ClientMethod.members (.natural 5000 (by decide)) (.pause none)
  stringified _ := List.Perm.refl _
  exactDefault := ⟨5000, by decide, rfl, by decide⟩
  exact _ _ none_ := by cases none_

/-- The first call of a program, its way through the control plane and back. -/
def pauseMoves (program : ClientProgram) : List RemoteMove :=
  [.client .call, .client (.enter true), .plane (.read 0 (program.line 0)), .plane (.send (.connection 0)),
    .plane .process, .plane .process, .plane (.answer (.connection 0)),
    .client (.data (responseText referenceSerde .ok ++ ['\n'])), .client .settle]

def pauseRun (program : ClientProgram) : RemoteControl referenceDeps (List RecordedExchange) :=
  run inMemoryStorage (Cluster.referenceRegistry []) (fun _ _ => referenceGet referencePath (answering [])) referenceSerde
    program 0 (Cluster.emptyState referenceDeps fun _ => []) (pauseMoves program)

theorem onData_line {c : ProxyClient} (empty : c.buffer = []) {line : List Char} (unbroken : '\n' ∉ line) :
    c.onData (line ++ ['\n']) = { c.resolveNext line with buffer := [] } := by
  have split : (c.buffer ++ (line ++ ['\n'])).splitOn '\n' = [line] ++ [[]] := by
    have whole : ∀ piece ∈ [line], '\n' ∉ piece := by simpa using unbroken
    simpa [empty] using Lines.splitOn_lines whole []
  rw [ProxyClient.onData_eq split]
  rfl

theorem pauseRun_settled {program : ClientProgram} (pauses : program.method 0 = .pause none) :
    (pauseRun program).client.settled 0 = some (.line (responseText referenceSerde .ok)) := by
  have filled : isBlank (program.line 0) = false := command_line_filled _
  have parsed : parseLine referenceDeps (fromStr referenceSerde) (program.line 0) = .ok (.pause none) := by
    rw [ClientProgram.line, parse_command_line referenceDeps referenceSerde_reads (program.stringified 0), pauses]
    rfl
  have received : ∀ c : ProxyClient, c.buffer = [] → c.onData (responseText referenceSerde .ok ++ ['\n']) =
      { c.resolveNext (responseText referenceSerde .ok) with buffer := [] } :=
    fun c empty => onData_line empty (responseText_unbroken referenceSerde_lawful .ok)
  have own : program.call 0 = .command := by rw [ClientProgram.call, pauses]
  simp [pauseRun, run, pauseMoves, Execution.exec, start, step, offered, nextLine, connection, sent, answerText,
    ProxyClient.step, ProxyClient.connect, ProxyClient.enter, ProxyClient.awaitReply, ProxyClient.resolveNext,
    ProxyClientOptions.commandTimeoutMs, settleOnce, own, received, ControlPlane.step, ControlPlane.start,
    ControlPlane.send, ControlPlane.process, ControlPlane.dispatchTaken, ControlPlane.execute, ControlPlane.reply,
    ControlPlane.answer, ControlPlane.setClient, ControlPlane.setPhase, channelCapacity, Client.start, Client.read,
    filled, parsed, dispatch, setPause, onUpstreams, Request.answer, WireResponse.fromResponse, Function.update]

theorem calm_pauseMoves (program : ClientProgram) : Execution.Along (step inMemoryStorage (Cluster.referenceRegistry [])
    (fun _ _ => referenceGet referencePath (answering [])) referenceSerde program 0) Calm
    (start (Cluster.emptyState referenceDeps fun _ => [])) (pauseMoves program) := by
  refine (Execution.along_iff_forall_cut _).mpr fun early move late split own isOwn isTimeout => ?_
  subst isOwn isTimeout
  have member : RemoteMove.client .socketTimeout ∈ pauseMoves program := split ▸ by simp
  simp [pauseMoves] at member

/-- `JSON.parse`, for texts whose numbers a double holds. -/
def referenceParser : JsonParser := ⟨Json.parse, id⟩

theorem referenceParser_reads : referenceParser.Reads referenceSerde where
  parse_render json plain := by
    rw [show json.mapNum referenceParser.double = json from Json.mapNum_id json]
    exact Json.parse_render plain

/-- The pause is acknowledged. -/
theorem remote_results_pause :
    ∃ resp, (pauseProgram.method 0).Expects resp ∧
      (referenceParser.parse (String.ofList (responseText referenceSerde .ok))).map (pauseProgram.method 0).result =
        some (resp.typed referenceSerde referenceParser) := by
  have settled := pauseRun_settled (rfl : pauseProgram.method 0 = .pause none)
  unfold pauseRun at settled
  have results := remote_results inMemoryStorage (Cluster.referenceRegistry [])
    (fun _ _ => referenceGet referencePath (answering [])) pauseProgram 0 (Cluster.emptyState referenceDeps fun _ => [])
    referenceSerde_lawful referenceSerde_reads referenceParser_reads (calm_pauseMoves pauseProgram) settled
  exact results

theorem remote_calls_pause :
    ∃ n resp, (pauseRun pauseProgram).client.written[n]? = some 0 ∧
      responseText referenceSerde .ok = responseText referenceSerde resp ∧
      ControlPlane.Explained inMemoryStorage (Cluster.referenceRegistry [])
        (fun _ _ => referenceGet referencePath (answering [])) (fromStr referenceSerde)
        (Cluster.emptyState referenceDeps fun _ => [])
        (ControlPlane.history inMemoryStorage (Cluster.referenceRegistry [])
          (fun _ _ => referenceGet referencePath (answering [])) (fromStr referenceSerde)
          (Cluster.emptyState referenceDeps fun _ => [])
          (planeRun inMemoryStorage (Cluster.referenceRegistry [])
            (fun _ _ => referenceGet referencePath (answering [])) referenceSerde pauseProgram 0
            (Cluster.emptyState referenceDeps fun _ => []) (pauseMoves pauseProgram)))
        (.connection 0) n (.line (pauseProgram.line 0)) (.wire resp) := by
  have settled := pauseRun_settled (rfl : pauseProgram.method 0 = .pause none)
  unfold pauseRun at settled ⊢
  have calls := remote_calls inMemoryStorage (Cluster.referenceRegistry [])
    (fun _ _ => referenceGet referencePath (answering [])) pauseProgram 0 (Cluster.emptyState referenceDeps fun _ => [])
    referenceSerde_lawful (pauseMoves pauseProgram)
  exact calls.2.2 (calm_pauseMoves pauseProgram) 0 _ settled

end Samples

end RemoteControl

end PartlyProxy
