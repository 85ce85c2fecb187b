import PartlyProxy.ControlProtocol
import PartlyProxy.Drain

namespace PartlyProxy
variable {deps : Deps} {σ : Type}

namespace ControlPlane

/-- The party has a command on its way that is not answered. -/
def Outstanding (c : ControlPlane deps σ) (p : Party) (cmd : Command) : Prop :=
  ∃ req, (c.client p).phase = .sending req cmd ∨ (c.client p).phase = .awaiting req cmd

/-- Nothing stands between the command of `q` and the processor that would not also be
before the command of `p`: the processor has it already, or up to it (or up to the
end of the channel, which `p` then has not reached) the pipeline has no command of
`p`, and no shutdown was signalled. -/
def Unobstructed (c : ControlPlane deps σ) (p q : Party) : Prop :=
  (∃ env, c.processor = .dispatching env ∧ env.party = q) ∨
    c.signalled = false ∧ c.processor ≠ .exited ∧
      ∃ front back, c.pipeline = front ++ back ∧ (∀ env ∈ front, env.party ≠ p) ∧
        ((∃ env ∈ front, env.party = q) ∨ back = [])

/-- What keeps the command of `q` from being executed while that of `p` waits. -/
inductive Obstacle (c : ControlPlane deps σ) (p q : Party) : Prop
  | gone : c.processor = .exited → Obstacle c p q
  | leaving : c.signalled = true → (∀ env, c.processor = .dispatching env → env.party ≠ q) → Obstacle c p q
  | ahead (front back : List Envelope) : c.pipeline = front ++ back → (∀ env ∈ front, env.party ≠ q) → (∃ env ∈ front, env.party = p) →
      Obstacle c p q

/-- The party has its answer to request `m`, or nobody waits for it any more. -/
def Passed (m : Nat) (cl : Client) : Prop :=
  m < cl.answered.length ∨ m ≤ cl.answered.length ∧ ((∃ req answer, cl.phase = .answering req answer) ∨ cl.phase = .closed)

section Obstacles
variable {reg : UpstreamRegistry} {c c' d : ControlPlane deps σ} {p q : Party} {m : Nat}

/-- A reply ends the wait of the party it is for. -/
theorem Channeled.passed_reply (channeled : Channeled c) {env : Envelope} (head : env ∈ c.pipeline)
    (same : d.client = c.client) (resp : CommandResponse) (short : m ≤ (c.client env.party).answered.length) :
    Passed m ((d.reply env resp).client env.party) := by
  obtain ⟨now, phase⟩ := (channeled.accounted env.party).expected env head rfl
  rcases phase with ⟨req, at_⟩ | closed
  · rw [reply_awaiting (c := d) (by rw [same]; exact at_) (by rw [same]; exact now), setPhase, setClient_self, same]
    exact Or.inr ⟨short, Or.inl ⟨_, _, rfl⟩⟩
  · rw [reply_closed (c := d) (by rw [same]; exact closed), same]
    exact Or.inr ⟨short, Or.inr closed⟩

/-- When the head of the pipeline is answered, the obstacle is still there, or it was
the head. -/
theorem Channeled.obstacle_reply (channeled : Channeled c) {env : Envelope} (head : c.processor.current = [env])
    (obstacle : Obstacle c p q) (same : d.client = c.client) (queue : d.queue = c.queue)
    (signalled : d.signalled = c.signalled) (resp : CommandResponse) (short : m ≤ (c.client p).answered.length) :
    Obstacle { d.reply env resp with processor := .idle } p q ∨ Passed m ((d.reply env resp).client p) := by
  have whole : c.pipeline = env :: c.queue := by rw [pipeline, head, List.singleton_append]
  have kept : (d.reply env resp).queue = c.queue ∧ (d.reply env resp).signalled = c.signalled := by
    rcases reply_cases d env resp with nobody | ⟨req, cmd, _, next⟩
    · rw [nobody]
      exact ⟨queue, signalled⟩
    · rw [next]
      exact ⟨queue, signalled⟩
  cases obstacle with
  | gone exited =>
    rw [exited] at head
    cases head
  | leaving isSignalled others => exact Or.inl (.leaving (kept.2.trans isSignalled) (by simp))
  | ahead front back split notQ hasP =>
    obtain ⟨first, inFront, rfl⟩ := hasP
    rw [whole] at split
    cases front with
    | nil => cases inFront
    | cons env' front =>
      obtain ⟨rfl, rest⟩ := List.cons.inj split
      rcases List.mem_cons.mp inFront with rfl | later
      · have isHead : first ∈ c.pipeline := by rw [whole]; exact List.mem_cons_self ..
        exact Or.inr (channeled.passed_reply isHead same resp short)
      · refine Or.inl (.ahead front back ?_ ?_ ⟨first, later, rfl⟩)
        · rw [pipeline, kept.1, rest]
          rfl
        · exact fun env' member => notQ env' (List.mem_cons_of_mem _ member)

theorem Obstacle.head_ne (obstacle : Obstacle c p q) {env : Envelope} (taken : c.processor = .dispatching env) :
    env.party ≠ q := by
  cases obstacle with
  | gone exited =>
    rw [taken] at exited
    cases exited
  | leaving _ others => exact others env taken
  | ahead front back split notQ hasP =>
    obtain ⟨first, inFront, rfl⟩ := hasP
    rw [pipeline, taken] at split
    cases front with
    | nil => cases inFront
    | cons env' front =>
      obtain ⟨rfl, _⟩ := List.cons.inj split
      exact notQ _ (List.mem_cons_self ..)

theorem Obstacle.of_eq (obstacle : Obstacle c p q) (processor : c'.processor = c.processor) (queue : c'.queue = c.queue)
    (signalled : c.signalled = true → c'.signalled = true) : Obstacle c' p q := by
  cases obstacle with
  | gone exited => exact .gone (processor.trans exited)
  | leaving isSignalled others => exact .leaving (signalled isSignalled) fun env taken => others env (processor ▸ taken)
  | ahead front back split notQ hasP => exact .ahead front back (by rw [pipeline, processor, queue]; exact split) notQ hasP

theorem Obstacle.step (channeled : Channeled c) (obstacle : Obstacle c p q) (short : m ≤ (c.client p).answered.length)
    (next : Stepped reg c c') : Obstacle c' p q ∨ Passed m (c'.client p) := by
  cases next with
  | frame client queue processor signalled effects =>
    exact Or.inl (obstacle.of_eq processor queue fun isSignalled => signalled.trans isSignalled)
  | signal => exact Or.inl (obstacle.of_eq rfl rfl fun _ => rfl)
  | take => exact Or.inl (obstacle.of_eq rfl rfl id)
  | giveUp => exact Or.inl (obstacle.of_eq rfl rfl id)
  | answer => exact Or.inl (obstacle.of_eq rfl rfl id)
  | close => exact Or.inl (obstacle.of_eq rfl rfl id)
  | @enqueue p' req cmd at_ alive =>
    left
    cases obstacle with
    | gone exited => exact (alive exited).elim
    | leaving isSignalled others => exact .leaving isSignalled others
    | ahead front back split notQ hasP =>
      refine .ahead front (back ++ [⟨p', (c.client p').answered.length, cmd⟩]) ?_ notQ hasP
      rw [← List.append_assoc, ← split, pipeline, pipeline, List.append_assoc]
      rfl
  | exit idle signalled => exact Or.inl (.gone rfl)
  | @fetch env rest idle silent queue =>
    left
    cases obstacle with
    | gone exited =>
      rw [idle] at exited
      cases exited
    | leaving isSignalled others =>
      rw [silent] at isSignalled
      cases isSignalled
    | ahead front back split notQ hasP =>
      refine .ahead front back ?_ notQ hasP
      rw [← split, pipeline, pipeline, idle, queue]
      rfl
  | @finish env resp taken replies =>
    exact channeled.obstacle_reply (d := c.execute reg env) (by rw [taken]; rfl) obstacle rfl rfl rfl resp short
  | @wait env a taken waits =>
    left
    cases obstacle with
    | gone exited =>
      rw [taken] at exited
      cases exited
    | leaving isSignalled others => exact .leaving isSignalled (by simp)
    | ahead front back split notQ hasP =>
      refine .ahead front back ?_ notQ hasP
      rw [← split, pipeline, pipeline, taken]
      rfl
  | @conclude env a passed message waits =>
    exact channeled.obstacle_reply (by rw [waits]; rfl) obstacle rfl rfl rfl _ short

/-- A step of one party: its answers grow, and a request that is done with stays so. -/
theorem client_step (next : Stepped reg c c') (p : Party) :
    (c.client p).answered.length ≤ (c'.client p).answered.length ∧
      ∀ m, Passed m (c.client p) → Passed m (c'.client p) := by
  have still : ∀ d : ControlPlane deps σ, d.client p = c.client p →
      (c.client p).answered.length ≤ (d.client p).answered.length ∧
        ∀ m, Passed m (c.client p) → Passed m (d.client p) := by
    intro d same
    rw [same]
    exact ⟨Nat.le_refl _, fun _ passed => passed⟩
  -- A party that goes on from where nothing is done with has only earlier requests behind it.
  have moved : ∀ (p' : Party) (phase : PartyPhase) (taken : List Request),
      ((∀ req answer, (c.client p').phase ≠ .answering req answer) ∧ (c.client p').phase ≠ .closed ∨ phase = .closed) →
      (c.client p).answered.length ≤
          ((c.setClient p' ⟨phase, taken, (c.client p').answered⟩).client p).answered.length ∧
        ∀ m, Passed m (c.client p) → Passed m ((c.setClient p' ⟨phase, taken, (c.client p').answered⟩).client p) := by
    intro p' phase taken open_
    by_cases mine : p = p'
    · subst mine
      rw [setClient_self]
      refine ⟨Nat.le_refl _, fun m passed => ?_⟩
      rcases passed with past | ⟨short, isDone⟩
      · exact Or.inl past
      · rcases open_ with ⟨notAnswering, notClosed⟩ | closed
        · rcases isDone with ⟨req, answer, at_⟩ | at_
          · exact (notAnswering req answer at_).elim
          · exact (notClosed at_).elim
        · exact Or.inr ⟨short, Or.inr closed⟩
    · exact still _ (setClient_other c mine _)
  have replied : ∀ (d : ControlPlane deps σ), d.client = c.client → ∀ env resp,
      (c.client p).answered.length ≤ ((d.reply env resp).client p).answered.length ∧
        ∀ m, Passed m (c.client p) → Passed m ((d.reply env resp).client p) := by
    intro d same env resp
    rcases reply_cases d env resp with nobody | ⟨req, cmd, at_, next⟩
    · rw [nobody]
      exact still d (by rw [same])
    · have client : (d.reply env resp).client p = (c.setClient env.party
          ⟨.answering req (req.answer (.ok resp)), (c.client env.party).taken, (c.client env.party).answered⟩).client p := by
        rw [next, setPhase, setClient, setClient, same]
      rw [client]
      rw [same] at at_
      exact moved env.party _ _ (Or.inl ⟨by simp [at_], by simp [at_]⟩)
  cases next with
  | frame client => exact still c' (by rw [client])
  | signal => exact still _ rfl
  | @take p' req phase takes at_ taken => exact moved p' _ _ (Or.inl ⟨by simp [at_], by simp [at_]⟩)
  | @enqueue p' req cmd at_ alive => exact moved p' _ _ (Or.inl ⟨by simp [at_], by simp [at_]⟩)
  | @giveUp p' req cmd err at_ =>
    refine moved p' _ _ (Or.inl ?_)
    rcases at_ with at_ | at_ <;> exact ⟨by simp [at_], by simp [at_]⟩
  | exit => exact still _ rfl
  | fetch => exact still _ rfl
  | @finish env resp => exact replied (c.execute reg env) rfl env resp
  | wait => exact still _ rfl
  | @conclude env a passed message => exact replied c rfl env _
  | @answer p' req answer at_ =>
    by_cases mine : p = p'
    · subst mine
      rw [setClient_self]
      refine ⟨by simp, fun m passed => Or.inl ?_⟩
      rw [List.length_append, List.length_singleton]
      rcases passed with past | ⟨short, _⟩ <;> omega
    · exact still _ (setClient_other c mine _)
  | @close p' => exact moved p' _ _ (Or.inr rfl)

/-- Only the command that the processor has taken is executed. -/
theorem effects_step (next : Stepped reg c c') {eff : Effect deps σ} (member : eff ∈ c'.effects) :
    eff ∈ c.effects ∨ ∃ env, c.processor = .dispatching env ∧ eff.party = env.party := by
  have reply : ∀ (d : ControlPlane deps σ) env resp, (d.reply env resp).effects = d.effects := by
    intro d env resp
    rcases reply_cases d env resp with nobody | ⟨req, cmd, _, next⟩
    · rw [nobody]
    · rw [next]
      rfl
  have executed : ∀ env, c.processor = .dispatching env → eff ∈ (c.execute reg env).effects →
      eff ∈ c.effects ∨ ∃ env, c.processor = .dispatching env ∧ eff.party = env.party := by
    intro env taken member
    rcases List.mem_append.mp member with old | new
    · exact Or.inl old
    · rw [List.mem_singleton.mp new]
      exact Or.inr ⟨env, taken, rfl⟩
  cases next with
  | frame _ _ _ _ effects => exact Or.inl (effects ▸ member)
  | finish taken =>
    have member : eff ∈ ((c.execute reg _).reply _ _).effects := member
    rw [reply] at member
    exact executed _ taken member
  | wait taken => exact executed _ taken member
  | conclude =>
    have member : eff ∈ (c.reply _ _).effects := member
    rw [reply] at member
    exact Or.inl member
  | _ => exact Or.inl member

/-- The command `n` of `q` is not executed while `p` waits for the answer to its
request `m`. -/
def Stuck (p q : Party) (m n : Nat) (c : ControlPlane deps σ) : Prop :=
  m ≤ (c.client p).answered.length ∧
    (Passed m (c.client p) ∨ Obstacle c p q ∧ ∀ eff ∈ c.effects, eff.party = q → eff.number ≠ n)

theorem Stuck.step (channeled : Channeled c) {n : Nat} (stuck : Stuck p q m n c) (next : Stepped reg c c') :
    Stuck p q m n c' := by
  obtain ⟨short, state⟩ := stuck
  obtain ⟨grows, stays⟩ := client_step next p
  refine ⟨short.trans grows, ?_⟩
  rcases state with passed | ⟨obstacle, unexecuted⟩
  · exact Or.inl (stays m passed)
  · rcases obstacle.step channeled short next with still | passed
    · refine Or.inr ⟨still, fun eff member mine => ?_⟩
      rcases effects_step next member with old | ⟨env, taken, isParty⟩
      · exact unexecuted eff old mine
      · exact (obstacle.head_ne taken (isParty.symm.trans mine)).elim
    · exact Or.inl passed

end Obstacles

/-- The commands of `front` have been served one after the other, and those of `back`
are left. -/
structure Serves (c c' : ControlPlane deps σ) (front back : List Envelope) : Prop where
  left : c'.pipeline = back
  silent : c'.signalled = c.signalled
  others : ∀ p, (∀ env ∈ front, env.party ≠ p) → c'.client p = c.client p
  kept : ∀ eff ∈ c.effects, eff ∈ c'.effects
  executed : ∀ env ∈ front, env.cmd.isAssertion = false →
    ∃ eff ∈ c'.effects, eff.party = env.party ∧ eff.number = env.number
  replied : ∀ env ∈ front, ∀ req cmd, (c.client env.party).phase = .awaiting req cmd →
    ∃ answer, c'.client env.party = { c.client env.party with phase := .answering req answer }

section Progress
variable (storage : SnapshotStorage σ) (reg : UpstreamRegistry) (arrivals : String → Nat → Arrival)
  (fromStr : String → Except String WireCommand) {c d : ControlPlane deps σ}

theorem channeled_exec (channeled : Channeled c) (moves : List ControlMove) :
    Channeled (Execution.exec (step storage reg arrivals fromStr) c moves) :=
  Execution.exec_invariant (step storage reg arrivals fromStr) (I := Channeled)
    (fun c move channeled => channeled.step (stepped c move)) channeled moves

/-- The head of the pipeline is answered in `d`, which differs from `c` by what was
done for it. -/
theorem Channeled.serves_reply (channeled : Channeled c) {env : Envelope} (head : c.processor.current = [env])
    (same : d.client = c.client) (queue : d.queue = c.queue) (signalled : d.signalled = c.signalled)
    (kept : ∀ eff ∈ c.effects, eff ∈ d.effects)
    (executed : env.cmd.isAssertion = false → ∃ eff ∈ d.effects, eff.party = env.party ∧ eff.number = env.number)
    (resp : CommandResponse) : Serves c { d.reply env resp with processor := .idle } [env] c.queue := by
  have first : env ∈ c.pipeline := by simp [pipeline, head]
  obtain ⟨now, phase⟩ := (channeled.accounted env.party).expected env first rfl
  have fields : (d.reply env resp).queue = c.queue ∧ (d.reply env resp).signalled = c.signalled ∧
      (d.reply env resp).effects = d.effects ∧ ∀ p, p ≠ env.party → (d.reply env resp).client p = c.client p := by
    rcases reply_cases d env resp with nobody | ⟨req, cmd, _, next⟩
    · rw [nobody]
      exact ⟨queue, signalled, rfl, fun p _ => by rw [same]⟩
    · rw [next]
      refine ⟨queue, signalled, rfl, fun p apart => ?_⟩
      rw [setPhase, setClient_other _ apart, same]
  obtain ⟨sameQueue, sameSignal, sameEffects, others⟩ := fields
  refine ⟨by rw [pipeline, sameQueue]; rfl, sameSignal, ?_, ?_, ?_, ?_⟩
  · intro p notHead
    exact others p fun isHead => notHead env (List.mem_singleton_self env) isHead.symm
  · intro eff member
    rw [sameEffects]
    exact kept eff member
  · intro env' member notAssertion
    cases List.mem_singleton.mp member
    rw [sameEffects]
    exact executed notAssertion
  · intro env' member req cmd at_
    cases List.mem_singleton.mp member
    have next := reply_awaiting (c := d) (by rw [same]; exact at_) (by rw [same]; exact now) resp
    refine ⟨req.answer (.ok resp), ?_⟩
    rw [next, ← same]
    exact setClient_self _ _ _

theorem serves_waiting (channeled : Channeled c) {env : Envelope} {a : Assertion} (waits : c.processor = .waiting env a) :
    Serves c (c.step storage reg arrivals fromStr .expire) [env] c.queue ∧
      (c.step storage reg arrivals fromStr .expire).processor = .idle := by
  have next : c.step storage reg arrivals fromStr .expire =
      { c.reply env (expired deps a c.cluster.recorder.buffer) with processor := .idle } := by
    simp only [step, conclude, waits]
  rw [next]
  refine ⟨channeled.serves_reply (by rw [waits]; rfl) rfl rfl rfl (fun _ member => member) ?_ _, rfl⟩
  intro notAssertion
  rw [channeled.asserts env a waits] at notAssertion
  cases notAssertion

theorem serves_dispatching (channeled : Channeled c) {env : Envelope} (taken : c.processor = .dispatching env) :
    ∃ moves, Serves c (Execution.exec (step storage reg arrivals fromStr) c moves) [env] c.queue ∧
      (Execution.exec (step storage reg arrivals fromStr) c moves).processor = .idle := by
  have executed : ∃ eff ∈ (c.execute reg env).effects, eff.party = env.party ∧ eff.number = env.number :=
    ⟨_, List.mem_append_right _ (List.mem_singleton_self _), rfl, rfl⟩
  have kept : ∀ eff ∈ c.effects, eff ∈ (c.execute reg env).effects := fun _ member => List.mem_append_left _ member
  have head : c.processor.current = [env] := by rw [taken]; rfl
  cases dispatched : (dispatch reg c.cluster.toClusterState env.cmd).1 with
  | reply resp =>
    have next : c.step storage reg arrivals fromStr .process =
        { (c.execute reg env).reply env resp with processor := .idle } := by
      simp only [step, process, taken, dispatchTaken, dispatched]
    refine ⟨[.process], ?_⟩
    rw [Execution.exec_cons, Execution.exec_nil, next]
    exact ⟨channeled.serves_reply (d := c.execute reg env) head rfl rfl rfl kept (fun _ => executed) resp, rfl⟩
  | wait a =>
    have next : c.step storage reg arrivals fromStr .process = { c.execute reg env with processor := .waiting env a } := by
      simp only [step, process, taken, dispatchTaken, dispatched]
    refine ⟨[.process, .expire], ?_⟩
    rw [Execution.exec_cons, Execution.exec_cons, Execution.exec_nil, next]
    exact ⟨channeled.serves_reply (d := { c.execute reg env with processor := .waiting env a }) head rfl rfl rfl kept
      (fun _ => executed) _, rfl⟩

theorem serves_head (channeled : Channeled c) (silent : c.signalled = false) {env : Envelope} {rest : List Envelope}
    (split : c.pipeline = env :: rest) :
    ∃ moves, Serves c (Execution.exec (step storage reg arrivals fromStr) c moves) [env] rest ∧
      (Execution.exec (step storage reg arrivals fromStr) c moves).processor = .idle := by
  cases processor : c.processor with
  | exited =>
    rw [pipeline, processor, channeled.drained processor] at split
    cases split
  | dispatching env' =>
    rw [pipeline, processor] at split
    obtain ⟨rfl, rfl⟩ := List.cons.inj split
    exact serves_dispatching storage reg arrivals fromStr channeled processor
  | waiting env' a =>
    rw [pipeline, processor] at split
    obtain ⟨rfl, rfl⟩ := List.cons.inj split
    exact ⟨[.expire], serves_waiting storage reg arrivals fromStr channeled processor⟩
  | idle =>
    rw [pipeline, processor] at split
    have queue : c.queue = env :: rest := split
    have next : c.step storage reg arrivals fromStr .process = { c with processor := .dispatching env, queue := rest } := by
      simp only [step, process, processor, silent, queue]
      rfl
    have taken := channeled_exec storage reg arrivals fromStr channeled [.process]
    rw [Execution.exec_cons, Execution.exec_nil, next] at taken
    obtain ⟨moves, serves, idle⟩ := serves_dispatching storage reg arrivals fromStr taken rfl
    refine ⟨.process :: moves, ?_⟩
    rw [Execution.exec_cons, next]
    exact ⟨⟨serves.left, serves.silent, serves.others, serves.kept, serves.executed, serves.replied⟩, idle⟩

theorem serves_front (channeled : Channeled c) (silent : c.signalled = false) (alive : c.processor ≠ .exited)
    {front back : List Envelope} (split : c.pipeline = front ++ back) :
    ∃ moves, Serves c (Execution.exec (step storage reg arrivals fromStr) c moves) front back ∧
      (Execution.exec (step storage reg arrivals fromStr) c moves).processor ≠ .exited := by
  induction front generalizing c with
  | nil =>
    exact ⟨[], ⟨split, rfl, fun _ _ => rfl, fun _ member => member, by simp, by simp⟩, alive⟩
  | cons env front ih =>
    obtain ⟨moves, first, idle⟩ := serves_head storage reg arrivals fromStr channeled silent split
    have next := channeled_exec storage reg arrivals fromStr channeled moves
    obtain ⟨more, later, alive⟩ := ih next (first.silent.trans silent) (by simp [idle]) first.left
    refine ⟨moves ++ more, ?_⟩
    rw [Execution.exec_append]
    refine ⟨?_, alive⟩
    have distinct := channeled.distinct
    rw [split, List.cons_append, List.map_cons] at distinct
    have apart : ∀ env' ∈ front, env'.party ≠ env.party := by
      intro env' member same
      exact (List.nodup_cons.mp distinct).1 (List.mem_map.mpr ⟨env', List.mem_append_left _ member, same⟩)
    refine ⟨later.left, later.silent.trans first.silent, ?_, fun eff member => later.kept eff (first.kept eff member), ?_, ?_⟩
    · intro p absent
      rw [later.others p fun env' member => absent env' (List.mem_cons_of_mem _ member)]
      exact first.others p fun env' member => by
        rw [List.mem_singleton.mp member]
        exact absent env (List.mem_cons_self ..)
    · intro env' member notAssertion
      rcases List.mem_cons.mp member with rfl | member
      · obtain ⟨eff, made, mine⟩ := first.executed env' (List.mem_singleton_self _) notAssertion
        exact ⟨eff, later.kept eff made, mine⟩
      · exact later.executed env' member notAssertion
    · intro env' member req cmd at_
      rcases List.mem_cons.mp member with rfl | member
      · rw [later.others env'.party apart]
        exact first.replied env' (List.mem_singleton_self _) req cmd at_
      · have same := first.others env'.party fun env'' isHead => by
          rw [List.mem_singleton.mp isHead]
          exact Ne.symm (apart env' member)
        rw [← same] at at_ ⊢
        exact later.replied env' member req cmd at_

end Progress

/-- Who awaits a reply has its command in the pipeline, until the processor is gone. -/
def Carried (c : ControlPlane deps σ) : Prop :=
  ∀ p req cmd, (c.client p).phase = .awaiting req cmd → c.processor = .exited ∨ ∃ env ∈ c.pipeline, env.party = p

section Carried
variable {reg : UpstreamRegistry} {c c' d : ControlPlane deps σ}

theorem Carried.setClient (carried : Carried c) {p : Party} {cl : Client} (calm : ∀ req cmd, cl.phase ≠ .awaiting req cmd) :
    Carried (c.setClient p cl) := by
  intro q req cmd at_
  by_cases mine : q = p
  · subst mine
    rw [setClient_self] at at_
    exact (calm req cmd at_).elim
  · rw [setClient_other c mine] at at_
    exact carried q req cmd at_

theorem Carried.reply (carried : Carried c) (channeled : Channeled c) {env : Envelope}
    (head : c.processor.current = [env]) (same : d.client = c.client) (queue : d.queue = c.queue) (resp : CommandResponse) :
    Carried { d.reply env resp with processor := .idle } := by
  have whole : c.pipeline = env :: c.queue := by rw [pipeline, head, List.singleton_append]
  have first : env ∈ c.pipeline := by rw [whole]; exact List.mem_cons_self ..
  have notExited : c.processor ≠ .exited := by
    intro exited
    rw [exited] at head
    cases head
  have elsewhere : ∀ q req cmd, q ≠ env.party → (c.client q).phase = .awaiting req cmd → ∃ env' ∈ c.queue, env'.party = q := by
    intro q req cmd apart at_
    rcases carried q req cmd at_ with exited | ⟨env', member, mine⟩
    · exact (notExited exited).elim
    · rw [whole] at member
      rcases List.mem_cons.mp member with rfl | later
      · exact (apart mine.symm).elim
      · exact ⟨env', later, mine⟩
  obtain ⟨now, phase⟩ := (channeled.accounted env.party).expected env first rfl
  intro q req cmd at_
  right
  rcases phase with ⟨req', awaits⟩ | closed
  · have next := reply_awaiting (c := d) (by rw [same]; exact awaits) (by rw [same]; exact now) resp
    rw [next] at at_ ⊢
    have pipe : ({ d.setPhase env.party (.answering req' (req'.answer (.ok resp))) with processor := .idle } :
        ControlPlane deps σ).pipeline = c.queue := queue
    rw [pipe]
    by_cases mine : q = env.party
    · subst mine
      rw [setPhase, setClient_self] at at_
      cases at_
    · rw [setPhase, setClient_other _ mine, same] at at_
      exact elsewhere q req cmd mine at_
  · have next := reply_closed (c := d) (by rw [same]; exact closed) resp
    rw [next] at at_ ⊢
    have pipe : ({ d with processor := .idle } : ControlPlane deps σ).pipeline = c.queue := queue
    rw [pipe]
    rw [same] at at_
    refine elsewhere q req cmd ?_ at_
    rintro rfl
    rw [closed] at at_
    cases at_

theorem Carried.step (carried : Carried c) (channeled : Channeled c) (next : Stepped reg c c') : Carried c' := by
  cases next with
  | frame client queue processor _ _ =>
    intro q req cmd at_
    rw [client] at at_
    rw [pipeline, processor, queue]
    exact carried q req cmd at_
  | signal => exact carried
  | take takes at_ taken =>
    refine carried.setClient fun req cmd => ?_
    cases taken <;> simp
  | @enqueue p req cmd at_ alive =>
    intro q req' cmd' awaits
    have pipe : ({ c.setPhase p (.awaiting req cmd) with queue := c.queue ++ [⟨p, (c.client p).answered.length, cmd⟩] } :
        ControlPlane deps σ).pipeline = c.pipeline ++ [⟨p, (c.client p).answered.length, cmd⟩] :=
      (List.append_assoc ..).symm
    rw [pipe]
    by_cases mine : q = p
    · subst mine
      exact Or.inr ⟨_, List.mem_append_right _ (List.mem_singleton_self _), rfl⟩
    · rw [setPhase, setClient_other _ mine] at awaits
      refine (carried q req' cmd' awaits).imp id ?_
      rintro ⟨env, member, isMine⟩
      exact ⟨env, List.mem_append_left _ member, isMine⟩
  | giveUp => exact carried.setClient (by simp)
  | exit => exact fun _ _ _ _ => Or.inl rfl
  | fetch idle silent queue =>
    intro q req cmd at_
    refine Or.inr ?_
    rcases carried q req cmd at_ with exited | inPipeline
    · rw [idle] at exited
      cases exited
    · rw [pipeline, idle, queue] at inPipeline
      exact inPipeline
  | @finish env resp taken replies => exact carried.reply channeled (d := c.execute reg env) (by rw [taken]; rfl) rfl rfl resp
  | @wait env a taken waits =>
    intro q req cmd at_
    refine Or.inr ?_
    rcases carried q req cmd at_ with exited | inPipeline
    · rw [taken] at exited
      cases exited
    · rw [pipeline, taken] at inPipeline
      exact inPipeline
  | conclude waits => exact carried.reply channeled (by rw [waits]; rfl) rfl rfl _
  | answer at_ => exact carried.setClient (by simp)
  | close => exact carried.setClient (by simp)

end Carried

section Runs
variable (storage : SnapshotStorage σ) (reg : UpstreamRegistry) (arrivals : String → Nat → Arrival)
  (fromStr : String → Except String WireCommand) {c : ControlPlane deps σ} {p q : Party} {a b : Command}

theorem carried_run (s : ClusterState deps σ) (moves : List ControlMove) :
    Carried (run storage reg arrivals fromStr s moves) := by
  refine (Execution.exec_invariant (step storage reg arrivals fromStr) (I := fun c => Channeled c ∧ Carried c)
    (fun c move both => ⟨both.1.step (stepped c move), both.2.step both.1 (stepped c move)⟩)
    ⟨channeled_start s, ?_⟩ moves).2
  intro p req cmd at_
  cases at_

/-- From some continuation on, the command of `q` has been executed and answered and
that of `p` still waits. -/
def Overtakes (c : ControlPlane deps σ) (p q : Party) (a : Command) : Prop :=
  ∃ more, let c' := Execution.exec (step storage reg arrivals fromStr) c more
    (∃ eff ∈ c'.effects, eff.party = q ∧ eff.number = (c.client q).answered.length) ∧
      (c.client q).answered.length < (c'.client q).answered.length ∧
      c'.Outstanding p a ∧ (c'.client p).answered.length = (c.client p).answered.length

/-- With an obstacle in the way there is no such continuation. -/
theorem not_overtakes (channeled : Channeled c) (sent : c.Outstanding q b) (other : b.isAssertion = false)
    (obstacle : Obstacle c p q) : ¬ Overtakes storage reg arrivals fromStr c p q a := by
  rintro ⟨more, ⟨eff, member, mine, number⟩, _, ⟨req, at_⟩, same⟩
  have unexecuted : ∀ eff ∈ c.effects, eff.party = q → eff.number ≠ (c.client q).answered.length := by
    intro eff member mine now
    obtain ⟨req, sending | awaiting⟩ := sent
    · have past := (channeled.accounted q).past_of_unsent (by simp [sending, PartyPhase.Sent]) eff member mine
      omega
    · obtain ⟨env, a, waits, isMine⟩ := (channeled.accounted q).awaited eff member mine now req b awaiting
      have isHead : env ∈ c.pipeline := by simp [pipeline, waits, Processor.current]
      have asserts := channeled.asserts env a waits
      rcases ((channeled.accounted q).expected env isHead isMine).2 with ⟨req', at_⟩ | closed
      · rw [awaiting] at at_
        cases at_
        rw [other] at asserts
        cases asserts
      · rw [awaiting] at closed
        cases closed
  have stuck := (Execution.exec_invariant (step storage reg arrivals fromStr)
    (I := fun d => Channeled d ∧ Stuck p q (c.client p).answered.length (c.client q).answered.length d)
    (fun d move both => ⟨both.1.step (stepped d move), both.2.step both.1 (stepped d move)⟩)
    ⟨channeled, Nat.le_refl _, Or.inr ⟨obstacle, unexecuted⟩⟩ more).2
  rcases stuck.2 with (past | ⟨_, ⟨_, _, answering⟩ | closed⟩) | ⟨_, never⟩
  · omega
  · rcases at_ with at_ | at_ <;> rw [answering] at at_ <;> cases at_
  · rcases at_ with at_ | at_ <;> rw [closed] at at_ <;> cases at_
  · exact never eff member mine number

theorem obstacle_of_obstructed (apart : p ≠ q) (obstructed : ¬ c.Unobstructed p q) : Obstacle c p q := by
  by_cases exited : c.processor = .exited
  · exact .gone exited
  by_cases signalled : c.signalled = true
  · exact .leaving signalled fun env taken mine => obstructed (Or.inl ⟨env, taken, mine⟩)
  have silent : c.signalled = false := by simpa using signalled
  have blocked : ∀ front back, c.pipeline = front ++ back → (∀ env ∈ front, env.party ≠ p) →
      (∀ env ∈ front, env.party ≠ q) ∧ back ≠ [] := by
    intro front back split free
    refine ⟨fun env member mine => ?_, fun nothing => ?_⟩
    · exact obstructed (Or.inr ⟨silent, exited, front, back, split, free, Or.inl ⟨env, member, mine⟩⟩)
    · exact obstructed (Or.inr ⟨silent, exited, front, back, split, free, Or.inr nothing⟩)
  -- The pipeline up to the first command of `p`.
  have split := List.takeWhile_append_dropWhile (p := fun env : Envelope => decide (env.party ≠ p)) (l := c.pipeline)
  obtain ⟨noneOfQ, rest⟩ := blocked _ _ split.symm fun env member => by
    simpa using List.mem_takeWhile_imp member
  cases behind : c.pipeline.dropWhile fun env => decide (env.party ≠ p) with
  | nil => exact (rest behind).elim
  | cons env back =>
    have isP : env.party = p := by
      have stops := Lines.not_of_dropWhile behind
      simpa using stops
    rw [behind] at split
    refine .ahead (c.pipeline.takeWhile (fun env => decide (env.party ≠ p)) ++ [env]) back (by simpa using split.symm) ?_
      ⟨env, by simp, isP⟩
    intro env' member
    rcases List.mem_append.mp member with early | isEnv
    · exact noneOfQ env' early
    · rw [List.mem_singleton.mp isEnv, isP]
      exact apart

/-- Once the command is served its party only has to take the answer. -/
theorem overtakes_of_replied (more : List ControlMove) (apart : p ≠ q) (waits : c.Outstanding p a)
    (executed : ∃ eff ∈ (Execution.exec (step storage reg arrivals fromStr) c more).effects,
      eff.party = q ∧ eff.number = (c.client q).answered.length)
    (replied : ∃ req answer, ((Execution.exec (step storage reg arrivals fromStr) c more).client q).phase =
      .answering req answer)
    (unanswered : ((Execution.exec (step storage reg arrivals fromStr) c more).client q).answered = (c.client q).answered)
    (other : (Execution.exec (step storage reg arrivals fromStr) c more).client p = c.client p) :
    Overtakes storage reg arrivals fromStr c p q a := by
  obtain ⟨req, answer, at_⟩ := replied
  generalize isD : Execution.exec (step storage reg arrivals fromStr) c more = d at *
  have next : d.step storage reg arrivals fromStr (.answer q) =
      d.setClient q ⟨.reading, (d.client q).taken, (d.client q).answered ++ [(req, answer)]⟩ := by
    simp only [step, ControlPlane.answer, at_]
  refine ⟨more ++ [.answer q], ?_⟩
  rw [Execution.exec_snoc, isD, next]
  refine ⟨executed, ?_, ?_, ?_⟩
  · rw [setClient_self, unanswered]
    simp
  · rw [Outstanding, setClient_other _ apart, other]
    exact waits
  · rw [setClient_other _ apart, other]

theorem overtakes_of_unobstructed (channeled : Channeled c) (carried : Carried c) (apart : p ≠ q)
    (waits : c.Outstanding p a) (sent : c.Outstanding q b) (other : b.isAssertion = false) (free : c.Unobstructed p q) :
    Overtakes storage reg arrivals fromStr c p q a := by
  -- A command of `q` in the pipeline is the one that is outstanding.
  have mine : ∀ env ∈ c.pipeline, env.party = q → env.number = (c.client q).answered.length ∧
      env.cmd.isAssertion = false ∧ ∃ req, (c.client q).phase = .awaiting req b := by
    intro env member isQ
    obtain ⟨now, ⟨req, at_⟩ | closed⟩ := (channeled.accounted q).expected env member isQ
    · obtain ⟨req', sending | awaiting⟩ := sent
      · rw [at_] at sending
        cases sending
      · rw [at_] at awaiting
        cases awaiting
        exact ⟨now, other, req, at_⟩
    · obtain ⟨req', sending | awaiting⟩ := sent
      · rw [closed] at sending
        cases sending
      · rw [closed] at awaiting
        cases awaiting
  have served : ∀ (more : List ControlMove) (front back : List Envelope),
      Serves c (Execution.exec (step storage reg arrivals fromStr) c more) front back →
      (∀ env ∈ front, env ∈ c.pipeline) → (∀ env ∈ front, env.party ≠ p) → (∃ env ∈ front, env.party = q) →
      Overtakes storage reg arrivals fromStr c p q a := by
    rintro more front back serves inPipeline notP ⟨env, member, rfl⟩
    obtain ⟨now, notAssertion, req, at_⟩ := mine env (inPipeline env member) rfl
    obtain ⟨eff, made, isParty, isNumber⟩ := serves.executed env member notAssertion
    obtain ⟨answer, client⟩ := serves.replied env member req b at_
    exact overtakes_of_replied storage reg arrivals fromStr more apart waits ⟨eff, made, isParty, isNumber.trans now⟩
      ⟨req, answer, by rw [client]⟩ (by rw [client]) (serves.others p notP)
  rcases free with ⟨env, taken, rfl⟩ | ⟨silent, alive, front, back, split, notP, hasQ⟩
  · obtain ⟨moves, serves, _⟩ := serves_dispatching storage reg arrivals fromStr channeled taken
    refine served moves [env] c.queue serves ?_ ?_ ⟨env, List.mem_singleton_self env, rfl⟩
    · intro env' member
      rw [List.mem_singleton.mp member]
      simp [pipeline, taken, Processor.current]
    · intro env' member
      rw [List.mem_singleton.mp member]
      exact Ne.symm apart
  · obtain ⟨moves, serves, aliveStill⟩ := serves_front storage reg arrivals fromStr channeled silent alive split
    by_cases inFront : ∃ env ∈ front, env.party = q
    · refine served moves front back serves (fun env member => ?_) notP inFront
      rw [split]
      exact List.mem_append_left _ member
    · -- The command of `q` is not in the channel yet: it is sent once all others are served.
      have nothing : back = [] := hasQ.resolve_left inFront
      subst nothing
      rw [List.append_nil] at split
      obtain ⟨req, sending⟩ : ∃ req, (c.client q).phase = .sending req b := by
        obtain ⟨req, sending | awaiting⟩ := sent
        · exact ⟨req, sending⟩
        · rcases carried q req b awaiting with exited | inPipeline
          · exact (alive exited).elim
          · rw [split] at inPipeline
            exact (inFront inPipeline).elim
      have sameQ := serves.others q fun env member isQ => inFront ⟨env, member, isQ⟩
      have sameP := serves.others p notP
      have channeledD := channeled_exec storage reg arrivals fromStr channeled moves
      generalize isD : Execution.exec (step storage reg arrivals fromStr) c moves = d at *
      have empty : d.queue = [] := (List.append_eq_nil_iff.mp serves.left).2
      have current : d.processor.current = [] := (List.append_eq_nil_iff.mp serves.left).1
      obtain ⟨e, isE⟩ : ∃ e, e = d.step storage reg arrivals fromStr (.send q) := ⟨_, rfl⟩
      have next : e = { d.setPhase q (.awaiting req b) with queue := [⟨q, (c.client q).answered.length, b⟩] } := by
        rw [isE, step, send, sameQ, sending, empty]
        cases processor : d.processor with
        | exited => exact (aliveStill processor).elim
        | _ => rfl
      have channeledE : Channeled e := by
        rw [isE]
        exact channeledD.step (stepped d _)
      have pipe : e.pipeline = [⟨q, (c.client q).answered.length, b⟩] := by
        rw [next, pipeline, show ({ d.setPhase q (.awaiting req b) with
          queue := [⟨q, (c.client q).answered.length, b⟩] } : ControlPlane deps σ).processor.current = [] from current]
        rfl
      have silentE : e.signalled = false := by
        rw [next]
        exact serves.silent.trans silent
      obtain ⟨more, later, _⟩ := serves_head storage reg arrivals fromStr channeledE silentE pipe
      have whole : Execution.exec (step storage reg arrivals fromStr) c (moves ++ .send q :: more) =
          Execution.exec (step storage reg arrivals fromStr) e more := by
        rw [Execution.exec_append, isD, Execution.exec_cons, isE]
      have clientQ : e.client q = { c.client q with phase := .awaiting req b } := by
        rw [next, ← sameQ]
        exact setClient_self _ _ _
      obtain ⟨eff, made, isMine⟩ := later.executed _ (List.mem_singleton_self _) other
      obtain ⟨answer, replied⟩ := later.replied _ (List.mem_singleton_self _) req b (by rw [clientQ])
      refine overtakes_of_replied storage reg arrivals fromStr (moves ++ .send q :: more) apart waits ?_ ?_ ?_ ?_
      · rw [whole]
        exact ⟨eff, made, isMine⟩
      · rw [whole, replied]
        exact ⟨req, answer, rfl⟩
      · rw [whole, replied, clientQ]
      · rw [whole, later.others p (by simpa using Ne.symm apart), next]
        rw [show ({ d.setPhase q (.awaiting req b) with
          queue := [⟨q, (c.client q).answered.length, b⟩] } : ControlPlane deps σ).client p = d.client p from
          setClient_other _ apart _]
        exact sameP

/-- In every reachable state a continuation in which a command of `q` that is no
assertion is executed and answered while the command of `p`, an assertion say, still
waits exists exactly if it is not behind that one, and no shutdown keeps it from
being taken. -/
theorem independent_iff (s : ClusterState deps σ) (moves : List ControlMove) (apart : p ≠ q)
    (other : b.isAssertion = false)
    (waits : (run storage reg arrivals fromStr s moves).Outstanding p a)
    (sent : (run storage reg arrivals fromStr s moves).Outstanding q b) :
    Overtakes storage reg arrivals fromStr (run storage reg arrivals fromStr s moves) p q a ↔
      (run storage reg arrivals fromStr s moves).Unobstructed p q := by
  have channeled := channeled_run storage reg arrivals fromStr s moves
  have carried := carried_run storage reg arrivals fromStr s moves
  constructor
  · intro overtakes
    by_contra obstructed
    exact not_overtakes storage reg arrivals fromStr channeled sent other (obstacle_of_obstructed apart obstructed) overtakes
  · exact overtakes_of_unobstructed storage reg arrivals fromStr channeled carried apart waits sent other

end Runs

section Samples

def awaitOrders : Command := .assertSeen .new 5000000000

/-- A `Resume` that was sent before the assertion overtakes it. -/
theorem independent_iff_resume_first :
    let c := sampleRun [.call 1 (.resume none), .send (.caller 1), .call 0 awaitOrders, .send (.caller 0)]
    ∃ more, let c' := Execution.exec (step inMemoryStorage (Cluster.referenceRegistry [])
        (fun _ _ => referenceGet referencePath (answering [])) refuseAll) c more
      (c.client (.caller 1)).answered.length < (c'.client (.caller 1)).answered.length ∧
        c'.Outstanding (.caller 0) awaitOrders := by
  intro c
  have free : c.Unobstructed (.caller 0) (.caller 1) := by
    refine Or.inr ⟨rfl, by rintro ⟨⟩, [⟨.caller 1, 0, .resume none⟩], [⟨.caller 0, 0, awaitOrders⟩], rfl, ?_, ?_⟩
    · simp
    · exact Or.inl ⟨_, List.mem_singleton_self _, rfl⟩
  obtain ⟨more, _, answered, waits, _⟩ := (independent_iff inMemoryStorage (Cluster.referenceRegistry [])
    (fun _ _ => referenceGet referencePath (answering [])) refuseAll
    (Cluster.emptyState referenceDeps fun _ => [])
    [.call 1 (.resume none), .send (.caller 1), .call 0 awaitOrders, .send (.caller 0)]
    (p := .caller 0) (q := .caller 1) (a := awaitOrders) (b := .resume none) (by decide) rfl
    ⟨_, Or.inr rfl⟩ ⟨_, Or.inr rfl⟩).mpr free
  exact ⟨more, answered, waits⟩

/-- A `Resume` behind an assertion that waits is not executed while it waits, whatever
happens. -/
theorem resume_stuck_behind_assertion :
    let c := sampleRun [.call 0 awaitOrders, .send (.caller 0), .process, .process, .call 1 (.resume none),
      .send (.caller 1)]
    c.Outstanding (.caller 0) awaitOrders ∧ c.Outstanding (.caller 1) (.resume none) ∧
      ¬ Overtakes inMemoryStorage (Cluster.referenceRegistry []) (fun _ _ => referenceGet referencePath (answering []))
        refuseAll c (.caller 0) (.caller 1) awaitOrders := by
  intro c
  have sent : c.Outstanding (.caller 1) (.resume none) := ⟨_, Or.inr rfl⟩
  refine ⟨⟨_, Or.inr rfl⟩, sent, not_overtakes inMemoryStorage (Cluster.referenceRegistry []) _ _
    (channeled_run _ _ _ _ _ _) sent rfl ?_⟩
  exact .ahead [⟨.caller 0, 0, awaitOrders⟩] [⟨.caller 1, 0, .resume none⟩] rfl (by simp)
    ⟨_, List.mem_singleton_self _, rfl⟩

end Samples

end ControlPlane

end PartlyProxy
