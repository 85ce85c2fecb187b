import PartlyProxy.ControlProtocol
import PartlyProxy.Drain
import PartlyProxy.Lib.History

namespace PartlyProxy
variable {deps : Deps} {σ : Type}

/-- What happens to the shared state of a cluster in one go: a step of a request, the
dispatch of request number `n` of a party, and the unblocking of an upstream that
drains. -/
inductive Atomic where
  | request (upstream : String) (i : Nat)
  | command (p : Party) (n : Nat) (cmd : Command)
  | unblock (upstream : String)

namespace Atomic

def issued : Atomic → Option (Party × Nat)
  | .command p n _ => some (p, n)
  | _ => none

def step (storage : SnapshotStorage σ) (reg : UpstreamRegistry) (arrivals : String → Nat → Arrival)
    (c : Cluster deps σ) : Atomic → Cluster deps σ
  | .request u i => c.step storage reg arrivals (.request u i)
  | .command _ _ cmd => c.step storage reg arrivals (.command cmd)
  | .unblock u =>
    { c with toClusterState := c.toClusterState.modify u fun up => { up with pause := up.pause.sendReplace false } }

end Atomic

/-- The requests that a history has dispatched. -/
def issuedIn (h : List Atomic) : List (Party × Nat) := h.filterMap Atomic.issued

/-- What a request asks for. -/
def Request.Lowers (deps : Deps) (fromStr : String → Except String WireCommand) : Request → Command → Prop
  | .line text, cmd => parseLine deps fromStr text = .ok cmd
  | .call own, cmd => own = cmd

namespace ControlPlane

/-- What a move does to the shared state. -/
def atoms (c : ControlPlane deps σ) : ControlMove → List Atomic
  | .request u i => [.request u i]
  | .process =>
    match c.processor with
    | .dispatching env => [.command env.party env.number env.cmd]
    | _ => []
  | .clear u =>
    match c.listener u with
    | .stopped => [.unblock u]
    | _ => []
  | _ => []

section History
variable (storage : SnapshotStorage σ) (reg : UpstreamRegistry) (arrivals : String → Nat → Arrival)
  (fromStr : String → Except String WireCommand) (s : ClusterState deps σ)

/-- All that happened to the shared state in a run. -/
def history (moves : List ControlMove) : List Atomic :=
  Execution.history (step storage reg arrivals fromStr) atoms (start s) moves

/-- A history taken one after the other from the start. -/
def replay (h : List Atomic) : Cluster deps σ := Execution.exec (Atomic.step storage reg arrivals) (.start s) h

/-- A verdict on what the ring holds. -/
def Judged (deps : Deps) (a : Assertion) (buffer : List RecordedExchange) (resp : CommandResponse) : Prop :=
  (∃ late, looked deps a late buffer = some resp) ∨ resp = expired deps a buffer

/-- Why request number `n` of a party has its answer: its line is no command; the channel
or its reply was gone, and nothing has been done; its command was dispatched, and this is
the response; or it was dispatched and waited, and this is the verdict on the ring as it
was a while later. -/
inductive Explained (h : List Atomic) (p : Party) (n : Nat) (req : Request) : Answer → Prop
  | refused {text resp} : req = .line text → parseLine deps fromStr text = .error resp → (p, n) ∉ issuedIn h →
      Explained h p n req (.wire resp)
  | lost {cmd err} : req.Lowers deps fromStr cmd → err = channelClosed ∨ err = replyDropped → (p, n) ∉ issuedIn h →
      Explained h p n req (req.answer (.error err))
  | replied {cmd front back resp} : req.Lowers deps fromStr cmd → h = front ++ .command p n cmd :: back →
      (dispatch reg (replay storage reg arrivals s front).toClusterState cmd).1 = .reply resp →
      Explained h p n req (req.answer (.ok resp))
  | judged {cmd front between back a resp} : req.Lowers deps fromStr cmd →
      h = front ++ .command p n cmd :: (between ++ back) →
      (dispatch reg (replay storage reg arrivals s front).toClusterState cmd).1 = .wait a →
      Judged deps a
        (replay storage reg arrivals s (front ++ .command p n cmd :: between)).recorder.buffer resp →
      Explained h p n req (req.answer (.ok resp))

end History

/-- Where a party stands that has taken a request on, with the command that it will send. -/
inductive Begun (deps : Deps) (fromStr : String → Except String WireCommand) (req : Request) : PartyPhase → Prop
  | skipped : Begun deps fromStr req .reading
  | lowered {cmd} : req.Lowers deps fromStr cmd → Begun deps fromStr req (.sending req cmd)
  | refused {text resp} : req = .line text → parseLine deps fromStr text = .error resp →
      Begun deps fromStr req (.answering req (.wire resp))

/-- All that a step can do, with what it does to the shared state. -/
inductive Advances (reg : UpstreamRegistry) (fromStr : String → Except String WireCommand) (c : ControlPlane deps σ) :
    List Atomic → ControlPlane deps σ → Prop
  | frame {atoms c'} : c'.client = c.client → c'.queue = c.queue → c'.processor = c.processor →
      c'.effects = c.effects → issuedIn atoms = [] → Advances reg fromStr c atoms c'
  | take {p req phase} : (c.client p).phase = .reading → Begun deps fromStr req phase →
      Advances reg fromStr c [] (c.setClient p ⟨phase, (c.client p).taken ++ [req], (c.client p).answered⟩)
  | enqueue {p req cmd} : (c.client p).phase = .sending req cmd → c.processor ≠ .exited →
      Advances reg fromStr c [] { c.setPhase p (.awaiting req cmd) with
        queue := c.queue ++ [⟨p, (c.client p).answered.length, cmd⟩] }
  | giveUp {p req cmd err} : (c.client p).phase = .sending req cmd ∨ (c.client p).phase = .awaiting req cmd →
      c.processor = .exited → err = channelClosed ∨ err = replyDropped →
      Advances reg fromStr c [] (c.setPhase p (.answering req (req.answer (.error err))))
  | exit : Advances reg fromStr c [] { c with processor := .exited, queue := [] }
  | fetch {env rest} : c.processor = .idle → c.queue = env :: rest →
      Advances reg fromStr c [] { c with processor := .dispatching env, queue := rest }
  | finish {env resp} : c.processor = .dispatching env →
      (dispatch reg c.cluster.toClusterState env.cmd).1 = .reply resp →
      Advances reg fromStr c [.command env.party env.number env.cmd]
        { (c.execute reg env).reply env resp with processor := .idle }
  | wait {env a} : c.processor = .dispatching env → (dispatch reg c.cluster.toClusterState env.cmd).1 = .wait a →
      Advances reg fromStr c [.command env.party env.number env.cmd]
        { c.execute reg env with processor := .waiting env a }
  | conclude {env a resp} : c.processor = .waiting env a → Judged deps a c.cluster.recorder.buffer resp →
      Advances reg fromStr c [] { c.reply env resp with processor := .idle }
  | answer {p req answer} : (c.client p).phase = .answering req answer →
      Advances reg fromStr c []
        (c.setClient p ⟨.reading, (c.client p).taken, (c.client p).answered ++ [(req, answer)]⟩)
  | close {p} : Advances reg fromStr c [] (c.setPhase p .closed)

section Steps
variable {storage : SnapshotStorage σ} {reg : UpstreamRegistry} {arrivals : String → Nat → Arrival}
  {fromStr : String → Except String WireCommand}

theorem Advances.rests (c : ControlPlane deps σ) : Advances reg fromStr c [] c := .frame rfl rfl rfl rfl rfl

theorem advances_read (c : ControlPlane deps σ) {k : Nat} (at_ : (c.client (.connection k)).phase = .reading)
    (text : String) :
    Advances reg fromStr c [] (c.setClient (.connection k) ((c.client (.connection k)).read deps fromStr text)) := by
  unfold Client.read
  split
  · have skips : Begun deps fromStr (.line text) (c.client (.connection k)).phase := by
      rw [at_]
      exact .skipped
    exact .take at_ skips
  · split
    · rename_i cmd parsed
      exact .take at_ (.lowered parsed)
    · rename_i resp parsed
      exact .take at_ (.refused rfl parsed)

theorem advances_send (c : ControlPlane deps σ) (p : Party) : Advances reg fromStr c [] (c.send p) := by
  unfold send
  split
  · rename_i req cmd at_
    split
    · exact .giveUp (Or.inl at_) ‹_› (Or.inl rfl)
    · split
      · exact .enqueue at_ ‹_›
      · exact .rests c
  · exact .rests c

theorem advances_process (c : ControlPlane deps σ) : Advances reg fromStr c (c.atoms .process) (c.process reg) := by
  unfold process atoms
  cases at_ : c.processor with
  | idle =>
    dsimp only
    split
    · exact .exit
    · cases queue : c.queue with
      | nil => exact .rests c
      | cons env rest => exact .fetch at_ queue
  | dispatching env =>
    unfold dispatchTaken
    dsimp only
    split
    · exact .finish at_ ‹_›
    · exact .wait at_ ‹_›
  | _ => exact .rests c

theorem advances_conclude (c : ControlPlane deps σ) {verdict : Assertion → Option CommandResponse}
    (judges : ∀ a resp, verdict a = some resp → Judged deps a c.cluster.recorder.buffer resp) :
    Advances reg fromStr c [] (c.conclude verdict) := by
  unfold conclude
  split
  · rename_i env a waits
    split
    · rename_i resp ends
      exact .conclude waits (judges a resp ends)
    · exact .rests c
  · exact .rests c

theorem advances (c : ControlPlane deps σ) (move : ControlMove) :
    Advances reg fromStr c (c.atoms move) (c.step storage reg arrivals fromStr move) := by
  cases move with
  | request u i => exact .frame rfl rfl rfl rfl rfl
  | read k text =>
    simp only [step]
    split
    · split
      · exact .close
      · exact advances_read c ‹_› text
    · exact .rests c
  | call k cmd =>
    simp only [step]
    split
    · exact .take ‹_› (.lowered rfl)
    · exact .rests c
  | send p => exact advances_send c p
  | process => exact advances_process c
  | look late => exact advances_conclude c fun a resp ends => Or.inl ⟨late, ends⟩
  | expire => exact advances_conclude c fun a resp ends => Or.inr (Option.some.inj ends).symm
  | lost p =>
    simp only [step, lost]
    split
    · exact .giveUp (Or.inr ‹_›) ‹_› (Or.inr rfl)
    · exact .rests c
  | answer p =>
    simp only [step, answer]
    split
    · exact .answer ‹_›
    · exact .rests c
  | close p =>
    simp only [step, close]
    split
    · exact .rests c
    · exact .rests c
    · exact .close
  | signal => exact .frame rfl rfl rfl rfl rfl
  | stop u =>
    simp only [step]
    split <;> exact .frame rfl rfl rfl rfl rfl
  | clear u =>
    simp only [step, clear, atoms]
    cases c.listener u <;> exact .frame rfl rfl rfl rfl rfl

/-- A reply goes to the party and changes nothing else. -/
theorem reply_frame (c : ControlPlane deps σ) (env : Envelope) (resp : CommandResponse) :
    (c.reply env resp).queue = c.queue ∧ (c.reply env resp).effects = c.effects := by
  rcases reply_cases c env resp with same | ⟨req, cmd, _, next⟩
  · rw [same]
    exact ⟨rfl, rfl⟩
  · rw [next]
    exact ⟨rfl, rfl⟩

/-- Every move does to the shared state what its atoms say. -/
theorem cluster_step (c : ControlPlane deps σ) (move : ControlMove) :
    (c.step storage reg arrivals fromStr move).cluster =
      Execution.exec (Atomic.step storage reg arrivals) c.cluster (c.atoms move) := by
  cases move with
  | request u i => rfl
  | read k text =>
    simp only [step]
    split
    · split <;> rfl
    · rfl
  | call k cmd =>
    simp only [step]
    split <;> rfl
  | send p =>
    simp only [step, send]
    split
    · split
      · rfl
      · split <;> rfl
    · rfl
  | process =>
    simp only [step, process, atoms]
    cases c.processor with
    | idle =>
      dsimp only
      split
      · rfl
      · cases c.queue <;> rfl
    | dispatching env => exact (c.dispatchTaken_cluster reg env).1
    | _ => rfl
  | look late => exact (c.conclude_cluster _).1
  | expire => exact (c.conclude_cluster _).1
  | lost p =>
    simp only [step, lost]
    split <;> rfl
  | answer p =>
    simp only [step, answer]
    split <;> rfl
  | close p =>
    simp only [step, close]
    split <;> rfl
  | signal => rfl
  | stop u =>
    simp only [step]
    split <;> rfl
  | clear u =>
    simp only [step, clear, atoms]
    cases c.listener u <;> rfl

end Steps

section Accounts
variable {storage : SnapshotStorage σ} {reg : UpstreamRegistry} {arrivals : String → Nat → Arrival}
  {fromStr : String → Except String WireCommand} {s : ClusterState deps σ} {c c' : ControlPlane deps σ}
  {h atoms : List Atomic} {p : Party} {cl : Client}

theorem issuedIn_append (h atoms : List Atomic) : issuedIn (h ++ atoms) = issuedIn h ++ issuedIn atoms :=
  List.filterMap_append

variable (storage reg arrivals fromStr s) in
/-- What a party sends is what it was asked for, and each of its answers is explained. -/
structure Told (h : List Atomic) (p : Party) (cl : Client) : Prop where
  lowered : ∀ req cmd, cl.phase = .sending req cmd ∨ cl.phase = .awaiting req cmd → req.Lowers deps fromStr cmd
  answered : ∀ n req answer, cl.answered[n]? = some (req, answer) →
    Explained storage reg arrivals fromStr s h p n req answer
  answering : ∀ req answer, cl.phase = .answering req answer →
    Explained storage reg arrivals fromStr s h p cl.answered.length req answer

theorem Explained.extend {n : Nat} {req : Request} {answer : Answer}
    (explained : Explained storage reg arrivals fromStr s h p n req answer) (fresh : (p, n) ∉ issuedIn atoms) :
    Explained storage reg arrivals fromStr s (h ++ atoms) p n req answer := by
  have still : (p, n) ∉ issuedIn h → (p, n) ∉ issuedIn (h ++ atoms) := by
    intro absent present
    rw [issuedIn_append] at present
    exact (List.mem_append.mp present).elim absent fresh
  cases explained with
  | refused isLine parsed absent => exact .refused isLine parsed (still absent)
  | lost lowers isErr absent => exact .lost lowers isErr (still absent)
  | @replied cmd front back resp lowers split replies =>
    have split' : h ++ atoms = front ++ .command p n cmd :: (back ++ atoms) := by rw [split]; simp
    exact .replied lowers split' replies
  | @judged cmd front between back a resp lowers split waits verdict =>
    have split' : h ++ atoms = front ++ .command p n cmd :: (between ++ (back ++ atoms)) := by rw [split]; simp
    exact .judged lowers split' waits verdict

/-- Later commands of others, or for a request that is still open, change no
explanation. -/
theorem Told.extend (told : Told storage reg arrivals fromStr s h p cl)
    (later : ∀ n, (p, n) ∈ issuedIn atoms → n = cl.answered.length ∧ ∀ req answer, cl.phase ≠ .answering req answer) :
    Told storage reg arrivals fromStr s (h ++ atoms) p cl := by
  refine ⟨told.lowered, fun n req answer isAnswer => ?_, fun req answer at_ => ?_⟩
  · refine (told.answered n req answer isAnswer).extend fun present => ?_
    obtain ⟨short, _⟩ := List.getElem?_eq_some_iff.mp isAnswer
    have last := (later n present).1
    omega
  · exact (told.answering req answer at_).extend fun present => (later _ present).2 req answer at_

theorem Told.setPhase (told : Told storage reg arrivals fromStr s h p cl) {phase : PartyPhase} {taken : List Request}
    (lowered : ∀ req cmd, phase = .sending req cmd ∨ phase = .awaiting req cmd → req.Lowers deps fromStr cmd)
    (answering : ∀ req answer, phase = .answering req answer →
      Explained storage reg arrivals fromStr s h p cl.answered.length req answer) :
    Told storage reg arrivals fromStr s h p ⟨phase, taken, cl.answered⟩ :=
  ⟨lowered, told.answered, answering⟩

theorem Told.answer (told : Told storage reg arrivals fromStr s h p cl) {req : Request} {answer : Answer}
    (at_ : cl.phase = .answering req answer) :
    Told storage reg arrivals fromStr s h p ⟨.reading, cl.taken, cl.answered ++ [(req, answer)]⟩ := by
  refine ⟨by simp, fun n req' answer' isAnswer => ?_, by simp⟩
  rcases Nat.lt_or_ge n cl.answered.length with earlier | late
  · rw [List.getElem?_append_left earlier] at isAnswer
    exact told.answered n req' answer' isAnswer
  · rw [List.getElem?_append_right late, List.getElem?_singleton] at isAnswer
    split at isAnswer
    · cases isAnswer
      have now : n = cl.answered.length := by omega
      rw [now]
      exact told.answering req answer at_
    · cases isAnswer

variable (storage reg arrivals fromStr s) in
/-- The control plane with the history behind it. -/
structure Linear (c : ControlPlane deps σ) (h : List Atomic) : Prop where
  channeled : Channeled c
  replayed : c.cluster = replay storage reg arrivals s h
  issued : issuedIn h = c.effects.map fun eff => (eff.party, eff.number)
  distinct : (issuedIn h).Nodup
  fresh : ∀ env, env ∈ c.queue ∨ c.processor = .dispatching env → (env.party, env.number) ∉ issuedIn h
  waiting : ∀ env a, c.processor = .waiting env a → ∃ front between,
    h = front ++ .command env.party env.number env.cmd :: between ∧
      (dispatch reg (replay storage reg arrivals s front).toClusterState env.cmd).1 = .wait a
  told : ∀ p, Told storage reg arrivals fromStr s h p (c.client p)

/-- Before a request is sent nothing has been done for it, and if the processor is gone
while it is awaited neither. -/
theorem Linear.unissued (linear : Linear storage reg arrivals fromStr s c h)
    (early : ¬ (c.client p).phase.Sent ∨ c.processor = .exited ∧ ∃ req cmd, (c.client p).phase = .awaiting req cmd) :
    (p, (c.client p).answered.length) ∉ issuedIn h := by
  rw [linear.issued]
  intro present
  obtain ⟨eff, member, same⟩ := List.mem_map.mp present
  obtain ⟨rfl, number⟩ := Prod.mk.inj same
  have account := linear.channeled.accounted eff.party
  rcases early with unsent | ⟨exited, req, cmd, at_⟩
  · have past := account.past_of_unsent unsent eff member rfl
    omega
  · obtain ⟨env, a, waits, _⟩ := account.awaited eff member rfl number req cmd at_
    rw [exited] at waits
    cases waits

theorem told_setClient (told : ∀ q, Told storage reg arrivals fromStr s h q (c.client q))
    (moved : Told storage reg arrivals fromStr s h p cl) (q : Party) :
    Told storage reg arrivals fromStr s h q ((c.setClient p cl).client q) :=
  forall_setClient (P := fun q cl => Told storage reg arrivals fromStr s h q cl) told moved q

theorem told_reply {env : Envelope} {resp : CommandResponse}
    (told : ∀ q, Told storage reg arrivals fromStr s h q (c.client q))
    (explains : ∀ req cmd, (c.client env.party).phase = .awaiting req cmd →
      Explained storage reg arrivals fromStr s h env.party (c.client env.party).answered.length req
        (req.answer (.ok resp))) (q : Party) :
    Told storage reg arrivals fromStr s h q ((c.reply env resp).client q) := by
  rcases reply_cases c env resp with same | ⟨req, cmd, at_, next⟩
  · rw [same]
    exact told q
  · rw [next]
    refine told_setClient told ((told env.party).setPhase (by simp) ?_) q
    rintro req' answer ⟨⟩
    exact explains req cmd at_

/-- What the command that the processor has taken does to the history. -/
theorem Linear.told_dispatched (linear : Linear storage reg arrivals fromStr s c h) {env : Envelope}
    (taken : c.processor = .dispatching env) (q : Party) :
    Told storage reg arrivals fromStr s (h ++ [.command env.party env.number env.cmd]) q (c.client q) := by
  refine (linear.told q).extend fun n present => ?_
  have isEnv : (q, n) = (env.party, env.number) := List.mem_singleton.mp present
  obtain ⟨rfl, rfl⟩ := Prod.mk.inj isEnv
  have first : env ∈ c.pipeline := by simp [pipeline, taken, Processor.current]
  obtain ⟨number, phase⟩ := (linear.channeled.accounted env.party).expected env first rfl
  refine ⟨number, fun req answer at_ => ?_⟩
  rcases phase with ⟨req', awaits⟩ | closed
  · rw [awaits] at at_
    cases at_
  · rw [closed] at at_
    cases at_

theorem Linear.dispatched (linear : Linear storage reg arrivals fromStr s c h) {env : Envelope}
    (taken : c.processor = .dispatching env) :
    issuedIn (h ++ [.command env.party env.number env.cmd]) = issuedIn h ++ [(env.party, env.number)] ∧
      (issuedIn (h ++ [.command env.party env.number env.cmd])).Nodup ∧
      ∀ env' ∈ c.queue, (env'.party, env'.number) ∉ issuedIn (h ++ [.command env.party env.number env.cmd]) := by
  have issued : issuedIn (h ++ [.command env.party env.number env.cmd]) = issuedIn h ++ [(env.party, env.number)] :=
    issuedIn_append h _
  have alone := linear.channeled.distinct
  rw [pipeline, taken, Processor.current, List.singleton_append, List.map_cons, List.nodup_cons] at alone
  refine ⟨issued, ?_, fun env' member => ?_⟩
  · rw [issued, List.nodup_append]
    refine ⟨linear.distinct, by simp, ?_⟩
    rintro earlier old other isEnv rfl
    rw [List.mem_singleton.mp isEnv] at old
    exact linear.fresh env (Or.inr taken) old
  · rw [issued]
    intro present
    rcases List.mem_append.mp present with old | isEnv
    · exact linear.fresh env' (Or.inl member) old
    · have sameParty := (Prod.mk.inj (List.mem_singleton.mp isEnv)).1
      exact alone.1 (List.mem_map.mpr ⟨env', member, sameParty⟩)

/-- The request of a party whose command the processor has. -/
theorem Linear.lowers_current (linear : Linear storage reg arrivals fromStr s c h) {env : Envelope}
    (first : env ∈ c.pipeline) {req : Request} {cmd : Command}
    (at_ : (c.client env.party).phase = .awaiting req cmd) :
    req.Lowers deps fromStr env.cmd ∧ env.number = (c.client env.party).answered.length := by
  obtain ⟨number, phase⟩ := (linear.channeled.accounted env.party).expected env first rfl
  refine ⟨?_, number⟩
  rcases phase with ⟨req', awaits⟩ | closed
  · rw [awaits] at at_
    cases at_
    exact (linear.told env.party).lowered req env.cmd (Or.inr awaits)
  · rw [closed] at at_
    cases at_

theorem Linear.advance (linear : Linear storage reg arrivals fromStr s c h) (channeled : Channeled c')
    (replayed : c'.cluster = replay storage reg arrivals s (h ++ atoms)) (next : Advances reg fromStr c atoms c') :
    Linear storage reg arrivals fromStr s c' (h ++ atoms) := by
  cases next with
  | frame client queue processor effects silent =>
    have issued : issuedIn (h ++ atoms) = issuedIn h := by rw [issuedIn_append, silent, List.append_nil]
    refine ⟨channeled, replayed, ?_, ?_, ?_, ?_, fun p => ?_⟩
    · rw [issued, effects]
      exact linear.issued
    · rw [issued]
      exact linear.distinct
    · rw [issued, queue, processor]
      exact linear.fresh
    · intro env a waits
      obtain ⟨front, between, split, isWait⟩ := linear.waiting env a (processor ▸ waits)
      exact ⟨front, between ++ atoms, by rw [split]; simp, isWait⟩
    · rw [client]
      refine (linear.told p).extend fun n present => ?_
      rw [silent] at present
      cases present
  | @take p req phase at_ begun =>
    rw [List.append_nil] at replayed ⊢
    refine ⟨channeled, replayed, linear.issued, linear.distinct, linear.fresh, linear.waiting, ?_⟩
    refine told_setClient linear.told ((linear.told p).setPhase ?_ ?_)
    · intro req' cmd sends
      cases begun with
      | skipped => simp at sends
      | lowered lowers =>
        simp only [PartyPhase.sending.injEq, reduceCtorEq, or_false] at sends
        obtain ⟨rfl, rfl⟩ := sends
        exact lowers
      | refused => simp at sends
    · intro req' answer answers
      cases begun with
      | skipped => cases answers
      | lowered => cases answers
      | refused isLine parsed =>
        cases answers
        exact .refused isLine parsed (linear.unissued (Or.inl (by simp [at_, PartyPhase.Sent])))
  | @enqueue p req cmd at_ alive =>
    rw [List.append_nil] at replayed ⊢
    refine ⟨channeled, replayed, linear.issued, linear.distinct, ?_, linear.waiting, ?_⟩
    · intro env ready
      rcases ready with queued | taken
      · rcases List.mem_append.mp queued with old | new
        · exact linear.fresh env (Or.inl old)
        · rw [List.mem_singleton.mp new]
          exact linear.unissued (Or.inl (by simp [at_, PartyPhase.Sent]))
      · exact linear.fresh env (Or.inr taken)
    · refine told_setClient linear.told ((linear.told p).setPhase ?_ (by simp))
      intro req' cmd' awaits
      simp only [reduceCtorEq, PartyPhase.awaiting.injEq, false_or] at awaits
      obtain ⟨rfl, rfl⟩ := awaits
      exact (linear.told p).lowered req cmd (Or.inl at_)
  | @giveUp p req cmd err at_ exited isErr =>
    rw [List.append_nil] at replayed ⊢
    refine ⟨channeled, replayed, linear.issued, linear.distinct, linear.fresh, linear.waiting, ?_⟩
    refine told_setClient linear.told ((linear.told p).setPhase (by simp) ?_)
    rintro req' answer ⟨⟩
    refine .lost ((linear.told p).lowered req cmd at_) isErr (linear.unissued ?_)
    rcases at_ with sends | awaits
    · exact Or.inl (by simp [sends, PartyPhase.Sent])
    · exact Or.inr ⟨exited, req, cmd, awaits⟩
  | exit =>
    rw [List.append_nil] at replayed ⊢
    exact ⟨channeled, replayed, linear.issued, linear.distinct, by simp, by simp, linear.told⟩
  | @fetch env rest idle queue =>
    rw [List.append_nil] at replayed ⊢
    refine ⟨channeled, replayed, linear.issued, linear.distinct, ?_, by simp, linear.told⟩
    intro env' ready
    refine linear.fresh env' (Or.inl ?_)
    rw [queue]
    rcases ready with later | taken
    · exact List.mem_cons_of_mem _ later
    · cases taken
      exact List.mem_cons_self ..
  | @finish env resp taken replies =>
    obtain ⟨issued, distinct, fresh⟩ := linear.dispatched taken
    have first : env ∈ c.pipeline := by simp [pipeline, taken, Processor.current]
    have frame := reply_frame (c.execute reg env) env resp
    refine ⟨channeled, replayed, ?_, distinct, ?_, by simp, fun q => ?_⟩
    · change _ = ((c.execute reg env).reply env resp).effects.map _
      rw [issued, linear.issued, frame.2]
      simp [execute]
    · intro env' ready
      simp only [frame, reduceCtorEq, or_false] at ready
      exact fresh env' ready
    · refine told_reply (c := c.execute reg env) (linear.told_dispatched taken) (fun req cmd at_ => ?_) q
      obtain ⟨lowers, number⟩ := linear.lowers_current first at_
      have replies' : (dispatch reg (replay storage reg arrivals s h).toClusterState env.cmd).1 = .reply resp := by
        rw [← linear.replayed]
        exact replies
      have split : h ++ [.command env.party env.number env.cmd] =
          h ++ .command env.party (c.client env.party).answered.length env.cmd :: [] := by rw [number]
      exact .replied lowers split replies'
  | @wait env a taken waits =>
    obtain ⟨issued, distinct, fresh⟩ := linear.dispatched taken
    refine ⟨channeled, replayed, ?_, distinct, ?_, ?_, linear.told_dispatched taken⟩
    · rw [issued, linear.issued]
      simp [execute]
    · intro env' ready
      simp only [execute, reduceCtorEq, or_false] at ready
      exact fresh env' ready
    · rintro env' a' ⟨⟩
      refine ⟨h, [], rfl, ?_⟩
      rw [← linear.replayed]
      exact waits
  | @conclude env a resp waits verdict =>
    rw [List.append_nil] at replayed ⊢
    have first : env ∈ c.pipeline := by simp [pipeline, waits, Processor.current]
    have frame := reply_frame c env resp
    refine ⟨channeled, replayed, ?_, linear.distinct, ?_, by simp, fun q => ?_⟩
    · rw [linear.issued]
      simp [frame]
    · intro env' ready
      simp only [frame, reduceCtorEq, or_false] at ready
      exact linear.fresh env' (Or.inl ready)
    · refine told_reply linear.told (fun req cmd at_ => ?_) q
      obtain ⟨lowers, number⟩ := linear.lowers_current first at_
      obtain ⟨front, between, split, isWait⟩ := linear.waiting env a waits
      rw [number] at split
      have split' : h = front ++ .command env.party (c.client env.party).answered.length env.cmd :: (between ++ []) := by
        rw [List.append_nil]
        exact split
      refine .judged lowers split' isWait ?_
      rw [← split, ← linear.replayed]
      exact verdict
  | @answer p req answer at_ =>
    rw [List.append_nil] at replayed ⊢
    exact ⟨channeled, replayed, linear.issued, linear.distinct, linear.fresh, linear.waiting,
      told_setClient linear.told ((linear.told p).answer at_)⟩
  | @close p =>
    rw [List.append_nil] at replayed ⊢
    exact ⟨channeled, replayed, linear.issued, linear.distinct, linear.fresh, linear.waiting,
      told_setClient linear.told ((linear.told p).setPhase (by simp) (by simp))⟩

/-- What a party has answered stays. -/
theorem answered_grows (next : Advances reg fromStr c atoms c') (p : Party) :
    (c.client p).answered <+: (c'.client p).answered := by
  have moved : ∀ q phase taken more, (c.client p).answered <+:
      ((c.setClient q ⟨phase, taken, (c.client q).answered ++ more⟩).client p).answered := by
    intro q phase taken more
    by_cases same : p = q
    · subst same
      rw [setClient_self]
      exact List.prefix_append _ _
    · rw [setClient_other c same]
  have kept : ∀ q phase taken, (c.client p).answered <+:
      ((c.setClient q ⟨phase, taken, (c.client q).answered⟩).client p).answered := by
    intro q phase taken
    simpa using moved q phase taken []
  have replied : ∀ env resp, (c.client p).answered <+: ((c.reply env resp).client p).answered := by
    intro env resp
    rcases reply_cases c env resp with same | ⟨req, cmd, _, next⟩
    · rw [same]
    · rw [next]
      exact kept _ _ _
  cases next with
  | frame client => rw [client]
  | take => exact kept _ _ _
  | enqueue => exact kept _ _ _
  | giveUp => exact kept _ _ _
  | exit => exact List.prefix_rfl
  | fetch => exact List.prefix_rfl
  | @finish env resp taken replies =>
    rcases reply_cases (c.execute reg env) env resp with same | ⟨req, cmd, _, next⟩
    · change _ <+: (((c.execute reg env).reply env resp).client p).answered
      rw [same]
      exact List.prefix_rfl
    · change _ <+: (((c.execute reg env).reply env resp).client p).answered
      rw [next]
      exact kept _ _ _
  | wait => exact List.prefix_rfl
  | conclude => exact replied _ _
  | answer => exact moved _ _ _ _
  | close => exact kept _ _ _

end Accounts

section Runs
variable (storage : SnapshotStorage σ) (reg : UpstreamRegistry) (arrivals : String → Nat → Arrival)
  (fromStr : String → Except String WireCommand) (s : ClusterState deps σ)

theorem linear_run (moves : List ControlMove) :
    Linear storage reg arrivals fromStr s (run storage reg arrivals fromStr s moves)
      (history storage reg arrivals fromStr s moves) := by
  have begins : Linear storage reg arrivals fromStr s (start s) [] :=
    ⟨channeled_start s, rfl, rfl, List.nodup_nil, by simp [start], by simp [start],
      fun p => ⟨by simp [start, Client.start], by simp [start, Client.start], by simp [start, Client.start]⟩⟩
  have whole := Execution.exec_history_invariant (step storage reg arrivals fromStr) atoms
    (I := Linear storage reg arrivals fromStr s) (fun c past move linear => by
      refine linear.advance (linear.channeled.step (stepped c move)) ?_ (advances c move)
      rw [cluster_step, linear.replayed, replay, replay, Execution.exec_append]) begins moves
  rwa [List.nil_append] at whole

end Runs

end ControlPlane

end PartlyProxy
