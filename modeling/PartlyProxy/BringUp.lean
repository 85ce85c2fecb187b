import PartlyProxy.AcceptLoop
import PartlyProxy.Builder

namespace PartlyProxy
variable {σ : Type}

/-- What an upstream meets on its way up: its TLS files if it has any, the socket, and the
TLS configuration of its client. Each error comes with its text. -/
structure Opening where
  acceptor : Option (Except String Unit)
  bound : Except String Unit
  client : Except String Unit

/-- The host that a cluster comes up on. `control` is how the socket of the TCP control
plane binds, if there is to be one. -/
structure Site where
  opening : String → Opening
  control : Option (Except String Unit)

def Site.tls (site : Site) (name : String) : Bool := (site.opening name).acceptor.isSome

/-- Where `run` stands: it opens listeners, or awaits the tasks of those that it has opened
because of an error, or has returned. -/
inductive BringUpStage where
  | opening (rest : List UpstreamSpec)
  | closing (err : ProxyError) (rest : List String)
  | failed (err : ProxyError)
  | running

inductive CommandTask where
  | unspawned
  | running
  | left
deriving DecidableEq

/-- A cluster on its way up, with the accept loops that run already. -/
structure BringUp where
  stage : BringUpStage
  spawned : List String
  loops : String → AcceptLoop
  command : CommandTask

inductive BringUpMove where
  | next
  | loop (name : String) (move : AcceptMove)
  | leave

/-- Moves that only the handle of a running cluster makes. -/
def AcceptMove.foreign : AcceptMove → Bool
  | .signal _ | .dropSender | .kill => true
  | _ => false

namespace BringUp

section Run
variable (deps : Deps) (storage : SnapshotStorage σ) (media : Nat → σ) (b : ProxyClusterBuilder) (site : Site)

/-- `spawn_listener`. A socket that is bound is dropped again if the forwarder fails. -/
def spawnListener (spec : UpstreamSpec) : Except ProxyError UpstreamRuntime :=
  match (site.opening spec.name).acceptor with
  | some (.error text) => .error (.tls text)
  | _ =>
    match (site.opening spec.name).bound with
    | .error text => .error (.bind text)
    | .ok () =>
      match b.runtime deps spec with
      | .error err => .error err
      | .ok runtime =>
        match (site.opening spec.name).client with
        | .error text => .error (.tls text)
        | .ok () => .ok runtime

/-- What `run` does before it opens a listener. -/
def resolve : Except ProxyError Unit :=
  match ProxyClusterBuilder.duplicateName [] b.upstreams with
  | some name => .error (.command ("duplicate upstream name in cluster: " ++ name))
  | none => (b.upstreams.mapM fun spec => openShared deps storage spec.storage media).map fun _ => ()

def start : BringUp :=
  match resolve deps storage media b with
  | .error err => ⟨.failed err, [], fun _ => .start, .unspawned⟩
  | .ok () => ⟨.opening b.upstreams, [], fun _ => .start, .unspawned⟩

/-- The signal is sent with no time to drain, and the tasks are awaited in the order of
their names. -/
def tearDown (s : BringUp) (err : ProxyError) : BringUp :=
  { s with
    stage := .closing err (s.spawned.mergeSort fun a b => decide (a ≤ b))
    loops := fun name =>
      if name ∈ s.spawned then (s.loops name).step (site.tls name) (.signal 0) else s.loops name }

/-- The next step of `run`. -/
def next (s : BringUp) : BringUp :=
  match s.stage with
  | .opening [] =>
    match site.control with
    | some (.error text) => tearDown site { s with command := .running } (.bind text)
    | _ => { s with stage := .running, command := .running }
  | .opening (spec :: rest) =>
    match spawnListener deps b site spec with
    | .error err => tearDown site s err
    | .ok _ =>
      { s with
        stage := .opening rest
        spawned := s.spawned ++ [spec.name]
        loops := Function.update s.loops spec.name .start }
  | .closing err (name :: rest) => if (s.loops name).phase = .exited then { s with stage := .closing err rest } else s
  | .closing err [] => if s.command = .running then s else { s with stage := .failed err }
  | .failed _ | .running => s

def step (s : BringUp) : BringUpMove → BringUp
  | .next => s.next deps b site
  | .loop name move =>
    if name ∈ s.spawned ∧ move.foreign = false then
      { s with loops := Function.update s.loops name ((s.loops name).step (site.tls name) move) }
    else s
  | .leave =>
    match s.stage, s.command with
    | .closing _ _, .running => { s with command := .left }
    | _, _ => s

def run (moves : List BringUpMove) : BringUp := Execution.exec (step deps b site) (start deps storage media b) moves

/-- The rest of `run` from a listener on, up to tasks. -/
def bindAll : List UpstreamSpec → Except ProxyError Unit
  | [] =>
    match site.control with
    | some (.error text) => .error (.bind text)
    | _ => .ok ()
  | spec :: rest =>
    match spawnListener deps b site spec with
    | .error err => .error err
    | .ok _ => bindAll rest

/-- What `run` returns. -/
def outcome : Except ProxyError Unit :=
  match resolve deps storage media b with
  | .error err => .error err
  | .ok () => bindAll deps b site b.upstreams

/-- What `run` will return. -/
def pending : BringUpStage → Except ProxyError Unit
  | .opening rest => bindAll deps b site rest
  | .closing err _ | .failed err => .error err
  | .running => .ok ()

end Run

section Loops
variable {tls : Bool} {c c' : AcceptLoop} {move : AcceptMove}

theorem borrow_kept (steps : AcceptLoop.Stepped tls c move c') (inner : move.foreign = false) :
    c'.shutdown.borrow = c.shutdown.borrow := by
  cases steps with
  | signals => cases inner
  | _ => rfl

theorem exited_kept (steps : AcceptLoop.Stepped tls c move c') (exited : c.phase = .exited) : c'.phase = .exited := by
  cases steps with
  | rests | signals | drops | moves | cuts | ticks => exact exited
  | sees at_ | stops _ at_ | accepts at_ | clears at_ | drains at_ | aborts at_ =>
    rw [exited] at at_
    cases at_
  | exits => rfl
  | kills running => exact (running exited).elim

end Loops

section Invariant
variable {deps : Deps} {storage : SnapshotStorage σ} {media : Nat → σ} {b : ProxyClusterBuilder} {site : Site}

/-- What holds of every loop that has been spawned. -/
structure LoopSound (c : AcceptLoop) : Prop where
  sound : c.Sound
  unkilled : c.phase ≠ .killed

theorem LoopSound.step {tls : Bool} {c : AcceptLoop} {move : AcceptMove} (loop : LoopSound c)
    (unkilled : move ≠ .kill) : LoopSound (c.step tls move) where
  sound := loop.sound.step (AcceptLoop.stepped tls c move)
  unkilled := by
    have steps := AcceptLoop.stepped tls c move
    generalize c.step tls move = c' at steps
    have before := loop.unkilled
    cases steps with
    | rests | signals | drops | sees | accepts | moves | cuts | ticks => exact before
    | kills => exact (unkilled rfl).elim
    | _ => simp

/-- What holds at every stage of bring-up. -/
structure Sound (deps : Deps) (storage : SnapshotStorage σ) (media : Nat → σ) (b : ProxyClusterBuilder) (site : Site)
    (s : BringUp) : Prop where
  outcome : pending deps b site s.stage = outcome deps storage media b site
  loops : ∀ name ∈ s.spawned, LoopSound (s.loops name)
  opening : ∀ rest, s.stage = .opening rest → s.spawned ++ rest.map UpstreamSpec.name = b.upstreams.map UpstreamSpec.name ∧
    ∀ name ∈ s.spawned, (s.loops name).shutdown.borrow = none
  running : s.stage = .running → s.spawned = b.upstreams.map UpstreamSpec.name ∧
    ∀ name ∈ s.spawned, (s.loops name).shutdown.borrow = none
  closing : ∀ err rest, s.stage = .closing err rest → (∀ name ∈ rest, name ∈ s.spawned) ∧
    ∀ name ∈ s.spawned, (s.loops name).shutdown.borrow = some 0 ∧ (name ∈ rest ∨ (s.loops name).phase = .exited)
  failed : ∀ err, s.stage = .failed err → s.command ≠ .running ∧ ∀ name ∈ s.spawned, (s.loops name).phase = .exited

variable (deps storage media b site) in
theorem sound_start : Sound deps storage media b site (start deps storage media b) := by
  unfold start
  cases resolved : resolve deps storage media b with
  | error err =>
    exact
      { outcome := by simp only [pending, outcome, resolved]
        loops := by simp
        opening := by simp
        running := by simp
        closing := by simp
        failed := by simp }
  | ok _ =>
    exact
      { outcome := by simp only [pending, outcome, resolved]
        loops := by simp
        opening := by simp
        running := by simp
        closing := by simp
        failed := by simp }

/-- However far bring-up has come, an error closes all that was opened. -/
theorem Sound.tearDown {s : BringUp} (sound : Sound deps storage media b site s) {err : ProxyError}
    (fails : BringUp.outcome deps storage media b site = .error err) (command : CommandTask) :
    Sound deps storage media b site (BringUp.tearDown site { s with command := command } err) where
  outcome := fails.symm
  loops := by
    intro name member
    have member : name ∈ s.spawned := member
    simp only [BringUp.tearDown, if_pos member]
    exact (sound.loops name member).step (by simp)
  opening := by simp [BringUp.tearDown]
  running := by simp [BringUp.tearDown]
  closing := by
    intro err' rest closing
    cases closing
    refine ⟨fun name member => List.mem_mergeSort.mp member, fun name member => ?_⟩
    have member : name ∈ s.spawned := member
    refine ⟨?_, Or.inl (List.mem_mergeSort.mpr member)⟩
    simp only [BringUp.tearDown, if_pos member]
    rfl
  failed := by simp [BringUp.tearDown]

theorem Sound.next {s : BringUp} (sound : Sound deps storage media b site s) :
    Sound deps storage media b site (s.next deps b site) := by
  have outcome := sound.outcome
  cases stage : s.stage with
  | failed err =>
    simp only [BringUp.next, stage]
    exact sound
  | running =>
    simp only [BringUp.next, stage]
    exact sound
  | opening rest =>
    obtain ⟨names, unsignalled⟩ := sound.opening rest stage
    rw [stage] at outcome
    cases rest with
    | nil =>
      have runs : pending deps b site .running = BringUp.outcome deps storage media b site →
          Sound deps storage media b site { s with stage := .running, command := .running } := fun succeeds =>
        { outcome := succeeds
          loops := sound.loops
          opening := by simp
          running := fun _ => ⟨by simpa using names, unsignalled⟩
          closing := by simp
          failed := by simp }
      simp only [pending, bindAll] at outcome
      cases control : site.control with
      | none =>
        simp only [control] at outcome
        simp only [BringUp.next, stage, control]
        exact runs outcome
      | some bound =>
        cases bound with
        | error text =>
          simp only [control] at outcome
          simp only [BringUp.next, stage, control]
          exact sound.tearDown outcome.symm .running
        | ok _ =>
          simp only [control] at outcome
          simp only [BringUp.next, stage, control]
          exact runs outcome
    | cons spec rest =>
      simp only [pending, bindAll] at outcome
      cases spawned : spawnListener deps b site spec with
      | error err =>
        simp only [spawned] at outcome
        simp only [BringUp.next, stage, spawned]
        exact sound.tearDown outcome.symm s.command
      | ok runtime =>
        simp only [spawned] at outcome
        simp only [BringUp.next, stage, spawned]
        have fresh : ∀ name ∈ s.spawned ++ [spec.name],
            Function.update s.loops spec.name AcceptLoop.start name = .start ∨
              name ∈ s.spawned ∧ Function.update s.loops spec.name AcceptLoop.start name = s.loops name := by
          intro name member
          by_cases here : name = spec.name
          · subst here
            exact Or.inl (Function.update_self ..)
          · have before : name ∈ s.spawned := by simpa [here] using member
            exact Or.inr ⟨before, Function.update_of_ne here ..⟩
        exact
          { outcome := outcome
            loops := fun name member => by
              rcases fresh name member with new | ⟨before, old⟩
              · simp only [new]
                exact ⟨AcceptLoop.sound_start, by simp [AcceptLoop.start]⟩
              · simp only [old]
                exact sound.loops name before
            opening := fun rest' opening => by
              cases opening
              refine ⟨by simpa using names, fun name member => ?_⟩
              rcases fresh name member with new | ⟨before, old⟩
              · simp only [new]
                rfl
              · simp only [old]
                exact unsignalled name before
            running := by simp
            closing := by simp
            failed := by simp }
  | closing err rest =>
    obtain ⟨known, waits⟩ := sound.closing err rest stage
    rw [stage] at outcome
    cases rest with
    | nil =>
      simp only [BringUp.next, stage]
      split
      · exact sound
      · rename_i left
        exact
          { outcome := outcome
            loops := sound.loops
            opening := by simp
            running := by simp
            closing := by simp
            failed := fun _ _ => ⟨left, fun name member => by simpa using (waits name member).2⟩ }
    | cons first rest =>
      simp only [BringUp.next, stage]
      split
      · rename_i exited
        exact
          { outcome := outcome
            loops := sound.loops
            opening := by simp
            running := by simp
            closing := fun err' rest' closing => by
              cases closing
              refine ⟨fun name member => known name (List.mem_cons_of_mem _ member), fun name member => ?_⟩
              obtain ⟨signalled, waiting | gone⟩ := waits name member
              · rcases List.mem_cons.mp waiting with rfl | later
                · exact ⟨signalled, Or.inr exited⟩
                · exact ⟨signalled, Or.inl later⟩
              · exact ⟨signalled, Or.inr gone⟩
            failed := by simp }
      · exact sound

theorem Sound.loop {s : BringUp} (sound : Sound deps storage media b site s) (name : String) {move : AcceptMove}
    (inner : move.foreign = false) :
    Sound deps storage media b site
      { s with loops := Function.update s.loops name ((s.loops name).step (site.tls name) move) } := by
  have steps := AcceptLoop.stepped (site.tls name) (s.loops name) move
  -- Whatever a step of the loop keeps holds of the loops after it as before.
  have kept : ∀ {P : AcceptLoop → Prop}, (P (s.loops name) → P ((s.loops name).step (site.tls name) move)) →
      ∀ other, P (s.loops other) →
        P (Function.update s.loops name ((s.loops name).step (site.tls name) move) other) := by
    intro P keeps other before
    by_cases here : other = name
    · subst here
      rw [Function.update_self]
      exact keeps before
    · rw [Function.update_of_ne here]
      exact before
  have notKill : move ≠ .kill := by
    rintro rfl
    cases inner
  have borrow := borrow_kept steps inner
  have unsignalled := kept (P := fun c => c.shutdown.borrow = none) fun before => borrow.trans before
  have signalled := kept (P := fun c => c.shutdown.borrow = some 0) fun before => borrow.trans before
  have exited := kept (P := fun c => c.phase = .exited) (exited_kept steps)
  exact
    { outcome := sound.outcome
      loops := fun other member => kept (P := LoopSound) (fun before => before.step notKill) other (sound.loops other member)
      opening := fun rest opening =>
        ⟨(sound.opening rest opening).1, fun other member => unsignalled other ((sound.opening rest opening).2 other member)⟩
      running := fun running =>
        ⟨(sound.running running).1, fun other member => unsignalled other ((sound.running running).2 other member)⟩
      closing := fun err rest closing => by
        obtain ⟨known, waits⟩ := sound.closing err rest closing
        refine ⟨known, fun other member => ?_⟩
        obtain ⟨before, waiting | gone⟩ := waits other member
        · exact ⟨signalled other before, Or.inl waiting⟩
        · exact ⟨signalled other before, Or.inr (exited other gone)⟩
      failed := fun err failed =>
        ⟨(sound.failed err failed).1, fun other member => exited other ((sound.failed err failed).2 other member)⟩ }

theorem Sound.leave {s : BringUp} (sound : Sound deps storage media b site s) :
    Sound deps storage media b site (s.step deps b site .leave) := by
  simp only [BringUp.step]
  split
  · rename_i err rest stage _
    refine { sound with failed := fun err' failed => ?_ }
    have failed : s.stage = .failed err' := failed
    rw [stage] at failed
    cases failed
  · exact sound

theorem Sound.step {s : BringUp} (sound : Sound deps storage media b site s) (move : BringUpMove) :
    Sound deps storage media b site (s.step deps b site move) := by
  cases move with
  | next => exact sound.next
  | loop name move =>
    simp only [BringUp.step]
    split
    · rename_i member
      exact sound.loop name member.2
    · exact sound
  | leave => exact sound.leave

variable (deps storage media b site) in
theorem sound_run (moves : List BringUpMove) : Sound deps storage media b site (run deps storage media b site moves) :=
  Execution.exec_invariant (BringUp.step deps b site) (fun _ move sound => sound.step move)
    (sound_start deps storage media b site) moves

end Invariant

section Opened
variable {deps : Deps} {b : ProxyClusterBuilder} {site : Site}

theorem runtime_of_spawned {spec : UpstreamSpec} {runtime : UpstreamRuntime}
    (spawned : spawnListener deps b site spec = .ok runtime) : b.runtime deps spec = .ok runtime := by
  unfold spawnListener at spawned
  split at spawned
  · cases spawned
  · split at spawned
    · cases spawned
    · split at spawned
      · cases spawned
      · rename_i built
        split at spawned
        · cases spawned
        · cases spawned
          exact built

theorem runtimes_of_bound {specs : List UpstreamSpec} (bound : bindAll deps b site specs = .ok ()) :
    ∃ runtimes, specs.mapM (b.runtime deps) = .ok runtimes := by
  induction specs with
  | nil => exact ⟨[], rfl⟩
  | cons spec rest ih =>
    unfold bindAll at bound
    cases spawned : spawnListener deps b site spec with
    | error err => simp [spawned] at bound
    | ok runtime =>
      simp only [spawned] at bound
      obtain ⟨runtimes, built⟩ := ih bound
      refine ⟨runtime :: runtimes, ?_⟩
      simp [List.mapM_cons, runtime_of_spawned spawned, built, bind, Except.bind, pure, Except.pure]

/-- A cluster that comes up is one that `run` makes without sockets. -/
theorem run_of_outcome {storage : SnapshotStorage σ} {media : Nat → σ}
    (succeeds : outcome deps storage media b site = .ok ()) : ∃ opened, b.run deps storage media = .ok opened := by
  unfold outcome at succeeds
  split at succeeds
  · cases succeeds
  · rename_i resolved
    obtain ⟨runtimes, built⟩ := runtimes_of_bound succeeds
    cases distinct : ProxyClusterBuilder.duplicateName [] b.upstreams with
    | some name => simp [resolve, distinct] at resolved
    | none =>
      simp only [resolve, distinct] at resolved
      simp only [ProxyClusterBuilder.run, distinct]
      cases loads : b.upstreams.mapM (fun spec => openShared deps storage spec.storage media) with
      | error err =>
        rw [loads] at resolved
        cases resolved
      | ok opened => exact ⟨runtimes.zip opened, by simp [built, bind, Except.bind, pure, Except.pure]⟩

end Opened

section Progress
variable {deps : Deps} {b : ProxyClusterBuilder} {site : Site}

/-- A move that needs neither a peer nor an upstream. -/
def own : BringUpMove → Bool
  | .next | .leave => true
  | .loop _ move => AcceptLoop.own move

/-- On its own `run` can return. -/
def Returns (deps : Deps) (b : ProxyClusterBuilder) (site : Site) (s : BringUp) : Prop :=
  ∃ more, (∀ move ∈ more, own move = true) ∧
    ((∃ err, (Execution.exec (step deps b site) s more).stage = .failed err) ∨
      (Execution.exec (step deps b site) s more).stage = .running)

theorem returns_of_exec {s : BringUp} (more : List BringUpMove) (owns : ∀ move ∈ more, own move = true)
    (returns : Returns deps b site (Execution.exec (step deps b site) s more)) : Returns deps b site s := by
  obtain ⟨rest, ownsRest, ends⟩ := returns
  refine ⟨more ++ rest, fun move member => ?_, ?_⟩
  · rcases List.mem_append.mp member with early | late
    · exact owns move early
    · exact ownsRest move late
  · rw [Execution.exec_append]
    exact ends

theorem returns_of_step {s : BringUp} {move : BringUpMove} (alone : own move = true)
    (returns : Returns deps b site (s.step deps b site move)) : Returns deps b site s :=
  returns_of_exec [move] (by simp [alone]) returns

theorem own_inner {move : AcceptMove} (alone : AcceptLoop.own move = true) : move.foreign = false := by
  unfold AcceptLoop.own at alone
  split at alone
  · rfl
  · rfl
  · rfl
  · rfl
  · cases alone

/-- One of the loops runs on, and the others rest. -/
theorem exec_loop (s : BringUp) {name : String} (member : name ∈ s.spawned) {more : List AcceptMove}
    (owns : ∀ move ∈ more, AcceptLoop.own move = true) :
    Execution.exec (step deps b site) s (more.map (.loop name)) =
      { s with
        loops := Function.update s.loops name
          (Execution.exec (AcceptLoop.step (site.tls name)) (s.loops name) more) } := by
  induction more generalizing s with
  | nil => simp
  | cons move rest ih =>
    obtain ⟨alone, owns⟩ := List.forall_mem_cons.mp owns
    have steps : s.step deps b site (.loop name move) =
        { s with loops := Function.update s.loops name ((s.loops name).step (site.tls name) move) } := by
      simp only [step, member, own_inner alone, and_self, if_true]
    have later := ih { s with loops := Function.update s.loops name ((s.loops name).step (site.tls name) move) } member owns
    rw [List.map_cons, Execution.exec_cons, steps, later]
    simp

variable {storage : SnapshotStorage σ} {media : Nat → σ}

theorem Sound.exec {s : BringUp} (sound : Sound deps storage media b site s) (moves : List BringUpMove) :
    Sound deps storage media b site (Execution.exec (BringUp.step deps b site) s moves) :=
  Execution.exec_invariant (BringUp.step deps b site) (fun _ move sound => sound.step move) sound moves

/-- The tasks are awaited one after the other; each of them can come to its end. -/
theorem Sound.returns_of_closing {err : ProxyError} {rest : List String} {s : BringUp}
    (sound : Sound deps storage media b site s) (closing : s.stage = .closing err rest) : Returns deps b site s := by
  induction rest generalizing s with
  | nil =>
    have atEnd : ∀ t : BringUp, t.stage = .closing err [] → t.command ≠ .running → Returns deps b site t := by
      intro t closing left
      refine ⟨[.next], by simp [own], Or.inl ⟨err, ?_⟩⟩
      simp only [Execution.exec_cons, Execution.exec_nil, BringUp.step, BringUp.next, closing, if_neg left]
    by_cases running : s.command = .running
    · refine returns_of_step (show own .leave = true from rfl) ?_
      refine atEnd _ ?_ ?_
      · simp only [BringUp.step, closing, running]
      · simp [BringUp.step, closing, running]
    · exact atEnd s closing running
  | cons name rest ih =>
    obtain ⟨known, waits⟩ := sound.closing err (name :: rest) closing
    have member := known name (List.mem_cons_self ..)
    have loop := sound.loops name member
    have stopping : (s.loops name).Stopping := by
      refine Or.inl ?_
      rw [(waits name member).1]
      rfl
    obtain ⟨more, owns, _, exited⟩ : AcceptLoop.Completes (site.tls name) (s.loops name) :=
      loop.sound.completes stopping loop.unkilled
    have runs : Execution.exec (BringUp.step deps b site) s (more.map (.loop name)) = _ := exec_loop s member owns
    refine returns_of_exec (more.map (.loop name)) ?_ ?_
    · intro move inMore
      obtain ⟨inner, here, rfl⟩ := List.mem_map.mp inMore
      exact owns inner here
    · have after := sound.exec (more.map (.loop name))
      rw [runs] at after ⊢
      refine returns_of_step (show own .next = true from rfl) ?_
      have next := after.step .next
      refine ih next ?_
      simp only [BringUp.step, BringUp.next, closing, Function.update_self, exited, if_true]

theorem Sound.returns_of_opening {rest : List UpstreamSpec} {s : BringUp} (sound : Sound deps storage media b site s)
    (opening : s.stage = .opening rest) : Returns deps b site s := by
  induction rest generalizing s with
  | nil =>
    refine returns_of_step (show own .next = true from rfl) ?_
    have next := sound.step .next
    have goes : (∃ err rest, (s.step deps b site .next).stage = .closing err rest) ∨
        (s.step deps b site .next).stage = .running := by
      simp only [BringUp.step, BringUp.next, opening]
      split
      · exact Or.inl ⟨_, _, rfl⟩
      · exact Or.inr rfl
    rcases goes with ⟨err, rest, closing⟩ | running
    · exact next.returns_of_closing closing
    · exact ⟨[], by simp, Or.inr running⟩
  | cons spec rest ih =>
    refine returns_of_step (show own .next = true from rfl) ?_
    have next := sound.step .next
    have goes : (∃ err rest, (s.step deps b site .next).stage = .closing err rest) ∨
        (s.step deps b site .next).stage = .opening rest := by
      simp only [BringUp.step, BringUp.next, opening]
      split
      · exact Or.inl ⟨_, _, rfl⟩
      · exact Or.inr rfl
    rcases goes with ⟨err, rest, closing⟩ | opening
    · exact next.returns_of_closing closing
    · exact ih next opening

end Progress

section Results
variable (deps : Deps) (storage : SnapshotStorage σ) (media : Nat → σ) (b : ProxyClusterBuilder) (site : Site)

/-- Bring-up is all or nothing, whatever the loops that run already and their connections
do meanwhile: when it has failed it is for the first reason there was, and every loop that
was spawned has ended, with all its connections; when it has not, all upstreams are up and
none was signalled. -/
theorem bring_up_all_or_nothing (moves : List BringUpMove) :
    let s := run deps storage media b site moves
    (∀ err, s.stage = .failed err → outcome deps storage media b site = .error err ∧ s.command ≠ .running ∧
      ∀ name ∈ s.spawned, (s.loops name).phase = .exited ∧ ∀ k, ((s.loops name).connection k).isEnded = true) ∧
    (s.stage = .running → outcome deps storage media b site = .ok () ∧ (∃ opened, b.run deps storage media = .ok opened) ∧
      s.spawned = b.upstreams.map UpstreamSpec.name ∧ ∀ name ∈ s.spawned, (s.loops name).shutdown.borrow = none) := by
  intro s
  have sound : Sound deps storage media b site s := sound_run deps storage media b site moves
  constructor
  · intro err failed
    obtain ⟨left, exited⟩ := sound.failed err failed
    refine ⟨?_, left, fun name member => ⟨exited name member, ?_⟩⟩
    · rw [← sound.outcome, failed]
      rfl
    · exact (sound.loops name member).sound.exited (exited name member)
  · intro running
    obtain ⟨all, unsignalled⟩ := sound.running running
    have succeeds : outcome deps storage media b site = .ok () := by
      rw [← sound.outcome, running]
      rfl
    exact ⟨succeeds, run_of_outcome succeeds, all, unsignalled⟩

/-- `run` always can return, on its own and with the loops that it has spawned: an error is
not withheld by a connection that one of them has accepted already. -/
theorem bring_up_returns (moves : List BringUpMove) :
    ∃ more, (∀ move ∈ more, own move = true) ∧
      ((∃ err, (run deps storage media b site (moves ++ more)).stage = .failed err) ∨
        (run deps storage media b site (moves ++ more)).stage = .running) := by
  have sound := sound_run deps storage media b site moves
  have returns : Returns deps b site (run deps storage media b site moves) := by
    cases stage : (run deps storage media b site moves).stage with
    | opening rest => exact sound.returns_of_opening stage
    | closing err rest => exact sound.returns_of_closing stage
    | failed err => exact ⟨[], by simp, Or.inl ⟨err, stage⟩⟩
    | running => exact ⟨[], by simp, Or.inr stage⟩
  obtain ⟨more, owns, ends⟩ := returns
  refine ⟨more, owns, ?_⟩
  rw [run, Execution.exec_append]
  exact ends

end Results

end BringUp

end PartlyProxy
