import PartlyProxy.ControlPlane

namespace PartlyProxy
variable {deps : Deps} {σ : Type}

def Command.isAssertion : Command → Bool
  | .assertSeen _ _ | .assertCount _ _ _ => true
  | _ => false

section Dispatch
variable {reg : UpstreamRegistry} {c : ClusterState deps σ} {cmd : Command}

theorem onUpstreams_error {target : Option String} {f : UpstreamState deps → UpstreamState deps} {message : String}
    (refused : (onUpstreams reg c target f).1 = .reply (.error message)) : (onUpstreams reg c target f).2 = c := by
  unfold onUpstreams at refused ⊢
  split at refused
  · split at refused
    · cases refused
    · rfl
  · cases refused

variable (reg c) in
theorem onUpstreams_replies (target : Option String) (f : UpstreamState deps → UpstreamState deps) :
    ∃ resp, (onUpstreams reg c target f).1 = .reply resp := by
  unfold onUpstreams
  split
  · split <;> exact ⟨_, rfl⟩
  · exact ⟨_, rfl⟩

/-- A command that is refused has done nothing. -/
theorem dispatch_error {message : String} (refused : (dispatch reg c cmd).1 = .reply (.error message)) :
    (dispatch reg c cmd).2 = c := by
  cases cmd with
  | stub upstream matcher response times =>
    simp only [dispatch] at refused ⊢
    split at refused
    · cases refused
    · rfl
  | clearStubs upstream => exact onUpstreams_error refused
  | pause upstream => exact onUpstreams_error refused
  | resume upstream => exact onUpstreams_error refused
  | clearRecordings => cases refused
  | _ => rfl

/-- A command that waits is an assertion, and these only look. -/
theorem dispatch_wait {a : Assertion} (waits : (dispatch reg c cmd).1 = .wait a) :
    cmd.isAssertion = true ∧ (dispatch reg c cmd).2 = c := by
  have replies : ∀ target f, (onUpstreams reg c target f).1 ≠ .wait a := by
    intro target f same
    obtain ⟨resp, isReply⟩ := onUpstreams_replies reg c target f
    rw [isReply] at same
    cases same
  cases cmd with
  | stub upstream matcher response times =>
    simp only [dispatch] at waits
    split at waits <;> cases waits
  | clearStubs upstream => exact (replies _ _ waits).elim
  | pause upstream => exact (replies _ _ waits).elim
  | resume upstream => exact (replies _ _ waits).elim
  | queryTraffic filter => cases waits
  | clearRecordings => cases waits
  | assertSeen filter timeout => exact ⟨rfl, rfl⟩
  | assertCount filter expected timeout => exact ⟨rfl, rfl⟩

end Dispatch

def Answer.IsError : Answer → Prop
  | .wire (.error _) | .result (.error _) | .result (.ok (.error _)) => True
  | _ => False

/-- A line is answered by a line, a call by a result. -/
def Request.Fits : Request → Answer → Prop
  | .line _, .wire _ | .call _, .result _ => True
  | _, _ => False

theorem Request.fits_answer (req : Request) (result : Except ProxyError CommandResponse) :
    req.Fits (req.answer result) := by
  cases req with
  | line text => cases result <;> trivial
  | call cmd => trivial

theorem Request.isError_answer {req : Request} {resp : CommandResponse} (isError : (req.answer (.ok resp)).IsError) :
    ∃ message, resp = .error message := by
  cases req <;> cases resp <;> first | exact isError.elim | exact ⟨_, rfl⟩

/-- The request that a party is about. -/
def PartyPhase.current : PartyPhase → List Request
  | .sending req _ | .awaiting req _ | .answering req _ => [req]
  | .reading | .closed => []

/-- The request has been sent, or is done with. -/
def PartyPhase.Sent : PartyPhase → Prop
  | .reading | .sending _ _ => False
  | _ => True

/-- A party answers what it has taken on in order, one at a time, and skips what is
blank. A party that has closed may leave its last request unanswered. -/
structure Client.Orderly (p : Party) (cl : Client) : Prop where
  ordered : ∃ pending, pending.length ≤ 1 ∧
    (cl.taken.filter fun req => !req.blank) = cl.answered.map Prod.fst ++ pending ∧
      (cl.phase ≠ .closed → pending = cl.phase.current)
  takes : ∀ req ∈ cl.taken, ControlPlane.Takes p req
  fits : ∀ entry ∈ cl.answered, entry.1.Fits entry.2
  fitting : ∀ req answer, cl.phase = .answering req answer → req.Fits answer

section Orderly
variable {p : Party} {cl : Client}

theorem Client.orderly_start (p : Party) : Client.Orderly p .start :=
  ⟨⟨[], by simp, rfl, fun _ => rfl⟩, by simp [start], by simp [start], by simp [start]⟩

/-- A party that goes on with the same request stays in order. -/
theorem Client.Orderly.setPhase (orderly : cl.Orderly p) {phase : PartyPhase} (alive : cl.phase ≠ .closed)
    (same : phase.current = cl.phase.current) (fitting : ∀ req answer, phase = .answering req answer → req.Fits answer) :
    ({ cl with phase } : Client).Orderly p := by
  obtain ⟨pending, short, split, current⟩ := orderly.ordered
  exact ⟨⟨pending, short, split, fun _ => (current alive).trans same.symm⟩, orderly.takes, orderly.fits, fitting⟩

theorem Client.Orderly.close (orderly : cl.Orderly p) : ({ cl with phase := .closed } : Client).Orderly p := by
  obtain ⟨pending, short, split, _⟩ := orderly.ordered
  exact ⟨⟨pending, short, split, fun alive => (alive rfl).elim⟩, orderly.takes, orderly.fits, by simp⟩

theorem Client.Orderly.take (orderly : cl.Orderly p) {req : Request} {phase : PartyPhase}
    (takes : ControlPlane.Takes p req) (at_ : cl.phase = .reading) (taken : ControlPlane.Taken req phase) :
    Client.Orderly p ⟨phase, cl.taken ++ [req], cl.answered⟩ := by
  obtain ⟨pending, _, split, current⟩ := orderly.ordered
  have nothing : pending = [] := by simpa [at_, PartyPhase.current] using current
  subst nothing
  have all : ∀ req' ∈ cl.taken ++ [req], ControlPlane.Takes p req' := by
    intro req' member
    rcases List.mem_append.mp member with old | new
    · exact orderly.takes req' old
    · rw [List.mem_singleton.mp new]
      exact takes
  cases taken with
  | skipped blank =>
    exact ⟨⟨[], by simp, by simp [split, blank], fun _ => rfl⟩, all, orderly.fits, by simp⟩
  | lowered filled =>
    exact ⟨⟨[req], by simp, by simp [split, filled], fun _ => rfl⟩, all, orderly.fits, by simp⟩
  | refused filled isLine =>
    refine ⟨⟨[req], by simp, by simp [split, filled], fun _ => rfl⟩, all, orderly.fits, ?_⟩
    rintro req' answer ⟨⟩
    rw [isLine]
    trivial

theorem Client.Orderly.answer (orderly : cl.Orderly p) {req : Request} {answer : Answer}
    (at_ : cl.phase = .answering req answer) :
    Client.Orderly p ⟨.reading, cl.taken, cl.answered ++ [(req, answer)]⟩ := by
  obtain ⟨pending, _, split, current⟩ := orderly.ordered
  have one : pending = [req] := by simpa [at_, PartyPhase.current] using current
  subst one
  refine ⟨⟨[], by simp, by simp [split], fun _ => rfl⟩, orderly.takes, ?_, by simp⟩
  intro entry member
  rcases List.mem_append.mp member with old | new
  · exact orderly.fits entry old
  · rw [List.mem_singleton.mp new]
    exact orderly.fitting req answer at_

end Orderly

namespace ControlPlane

section Clients
variable {reg : UpstreamRegistry} {c c' : ControlPlane deps σ} {env : Envelope} {resp : CommandResponse}

theorem setClient_self (c : ControlPlane deps σ) (p : Party) (cl : Client) : (c.setClient p cl).client p = cl :=
  Function.update_self ..

theorem setClient_other (c : ControlPlane deps σ) {p q : Party} (apart : q ≠ p) (cl : Client) :
    (c.setClient p cl).client q = c.client q := Function.update_of_ne apart ..

/-- What holds of every party still holds when one of them has moved on. -/
theorem forall_setClient {P : Party → Client → Prop} {p : Party} {cl : Client} (all : ∀ q, P q (c.client q))
    (moved : P p cl) (q : Party) : P q ((c.setClient p cl).client q) := by
  by_cases same : q = p
  · subst same
    rwa [setClient_self]
  · rw [setClient_other c same]
    exact all q

/-- A reply reaches the party that awaits it, or nobody. -/
theorem reply_cases (c : ControlPlane deps σ) (env : Envelope) (resp : CommandResponse) :
    c.reply env resp = c ∨ ∃ req cmd, (c.client env.party).phase = .awaiting req cmd ∧
      c.reply env resp = c.setPhase env.party (.answering req (req.answer (.ok resp))) := by
  unfold reply
  split
  · rename_i req cmd at_
    split
    · exact Or.inr ⟨req, cmd, at_, rfl⟩
    · exact Or.inl rfl
  · exact Or.inl rfl

theorem orderly_setClient {p : Party} {cl : Client} (orderly : ∀ q, (c.client q).Orderly q) (moved : cl.Orderly p)
    (q : Party) : ((c.setClient p cl).client q).Orderly q :=
  forall_setClient (P := fun q cl => cl.Orderly q) orderly moved q

theorem orderly_reply (orderly : ∀ p, (c.client p).Orderly p) (p : Party) : ((c.reply env resp).client p).Orderly p := by
  rcases reply_cases c env resp with same | ⟨req, cmd, at_, next⟩
  · rw [same]
    exact orderly p
  · rw [next]
    refine orderly_setClient orderly ((orderly _).setPhase ?_ ?_ ?_) p
    · simp [at_]
    · simp [at_, PartyPhase.current]
    · rintro req' answer ⟨⟩
      exact req.fits_answer _

theorem orderly_step (orderly : ∀ p, (c.client p).Orderly p) (next : Stepped reg c c') (p : Party) :
    (c'.client p).Orderly p := by
  cases next with
  | frame client =>
    rw [client]
    exact orderly p
  | signal => exact orderly p
  | take takes at_ taken => exact orderly_setClient orderly ((orderly _).take takes at_ taken) p
  | enqueue at_ =>
    refine orderly_setClient orderly ((orderly _).setPhase ?_ ?_ ?_) p
    · simp [at_]
    · simp [at_, PartyPhase.current]
    · simp
  | @giveUp p' req cmd err at_ =>
    have current : (c.client p').phase ≠ .closed ∧ (c.client p').phase.current = [req] := by
      rcases at_ with at_ | at_ <;> simp [at_, PartyPhase.current]
    refine orderly_setClient orderly ((orderly _).setPhase current.1 ?_ ?_) p
    · exact current.2.symm
    · rintro req' answer ⟨⟩
      exact req.fits_answer _
  | exit => exact orderly p
  | fetch => exact orderly p
  | finish => exact orderly_reply (c := c.execute reg _) orderly p
  | wait => exact orderly p
  | conclude => exact orderly_reply orderly p
  | answer at_ => exact orderly_setClient orderly ((orderly _).answer at_) p
  | close => exact orderly_setClient orderly (orderly _).close p

end Clients

end ControlPlane

def Processor.current : Processor → List Envelope
  | .dispatching env | .waiting env _ => [env]
  | .idle | .exited => []

namespace ControlPlane

/-- The commands that are sent and not answered, in the order of their turn. -/
def pipeline (c : ControlPlane deps σ) : List Envelope := c.processor.current ++ c.queue

/-- How a party's requests stand with what the processor has of them and has done
for them. -/
structure Accounted (c : ControlPlane deps σ) (p : Party) (cl : Client) : Prop where
  expected : ∀ env ∈ c.pipeline, env.party = p → env.number = cl.answered.length ∧
    ((∃ req, cl.phase = .awaiting req env.cmd) ∨ cl.phase = .closed)
  recent : ∀ eff ∈ c.effects, eff.party = p → eff.number < cl.answered.length ∨
    eff.number = cl.answered.length ∧ cl.phase.Sent
  awaited : ∀ eff ∈ c.effects, eff.party = p → eff.number = cl.answered.length →
    ∀ req cmd, cl.phase = .awaiting req cmd → ∃ env a, c.processor = .waiting env a ∧ env.party = p
  quiet : ∀ eff ∈ c.effects, eff.party = p → eff.after = eff.before ∨
    (∀ req answer, cl.answered[eff.number]? = some (req, answer) → ¬ answer.IsError) ∧
      (eff.number = cl.answered.length →
        (∃ req answer, cl.phase = .answering req answer ∧ ¬ answer.IsError) ∨ cl.phase = .closed)

structure Channeled (c : ControlPlane deps σ) : Prop where
  distinct : (c.pipeline.map Envelope.party).Nodup
  drained : c.processor = .exited → c.queue = []
  asserts : ∀ env a, c.processor = .waiting env a → env.cmd.isAssertion = true
  accounted : ∀ p, c.Accounted p (c.client p)

section Accounts
variable {reg : UpstreamRegistry} {c c' : ControlPlane deps σ} {p : Party} {cl : Client}

/-- The account of a party is about its own envelopes and effects only. -/
theorem Accounted.mono (accounted : c.Accounted p cl)
    (pipeline : ∀ env ∈ c'.pipeline, env.party = p → env ∈ c.pipeline)
    (effects : ∀ eff ∈ c'.effects, eff.party = p → eff ∈ c.effects)
    (waits : ∀ env a, c.processor = .waiting env a → env.party = p → c'.processor = .waiting env a) :
    c'.Accounted p cl := by
  refine ⟨fun env member mine => accounted.expected env (pipeline env member mine) mine,
    fun eff member mine => accounted.recent eff (effects eff member mine) mine, ?_,
    fun eff member mine => accounted.quiet eff (effects eff member mine) mine⟩
  intro eff member mine now req cmd at_
  obtain ⟨env, a, waiting, isMine⟩ := accounted.awaited eff (effects eff member mine) mine now req cmd at_
  exact ⟨env, a, waits env a waiting isMine, isMine⟩

/-- Until a request is sent nothing has been done for it. -/
theorem Accounted.past_of_unsent (accounted : c.Accounted p cl) (unsent : ¬ cl.phase.Sent) :
    ∀ eff ∈ c.effects, eff.party = p → eff.number < cl.answered.length := by
  intro eff member mine
  rcases accounted.recent eff member mine with earlier | ⟨_, sent⟩
  · exact earlier
  · exact (unsent sent).elim

/-- A party for whose request nothing has been done goes on. -/
theorem Accounted.advance (accounted : c.Accounted p cl)
    (past : ∀ eff ∈ c.effects, eff.party = p → eff.number < cl.answered.length) (effects : c'.effects = c.effects)
    {phase : PartyPhase} {taken : List Request}
    (expected : ∀ env ∈ c'.pipeline, env.party = p → env.number = cl.answered.length ∧
      ((∃ req, phase = .awaiting req env.cmd) ∨ phase = .closed)) :
    c'.Accounted p ⟨phase, taken, cl.answered⟩ := by
  rw [← effects] at past
  have notNow : ∀ eff ∈ c'.effects, eff.party = p → eff.number ≠ cl.answered.length :=
    fun eff member mine => Nat.ne_of_lt (past eff member mine)
  refine ⟨expected, fun eff member mine => Or.inl (past eff member mine), ?_, ?_⟩
  · intro eff member mine now
    exact (notNow eff member mine now).elim
  · intro eff member mine
    rcases accounted.quiet eff (effects ▸ member) mine with same | ⟨answers, _⟩
    · exact Or.inl same
    · exact Or.inr ⟨answers, fun now => (notNow eff member mine now).elim⟩

/-- The awaited answer comes, with what was done for it. -/
theorem Accounted.replied (accounted : c.Accounted p cl) {req : Request} {cmd : Command}
    (at_ : cl.phase = .awaiting req cmd) {answer : Answer} (gone : ∀ env ∈ c'.pipeline, env.party ≠ p)
    (effects : ∀ eff ∈ c'.effects, eff.party = p → eff ∈ c.effects ∨
      eff.number = cl.answered.length ∧ (eff.after = eff.before ∨ ¬ answer.IsError)) :
    c'.Accounted p { cl with phase := .answering req answer } := by
  refine ⟨fun env member mine => (gone env member mine).elim, ?_, by simp, ?_⟩
  · intro eff member mine
    rcases effects eff member mine with old | ⟨now, _⟩
    · rcases accounted.recent eff old mine with earlier | ⟨now, _⟩
      · exact Or.inl earlier
      · exact Or.inr ⟨now, trivial⟩
    · exact Or.inr ⟨now, trivial⟩
  · intro eff member mine
    rcases effects eff member mine with old | ⟨now, same | fine⟩
    · rcases accounted.quiet eff old mine with same | ⟨answers, last⟩
      · exact Or.inl same
      · refine Or.inr ⟨answers, fun now => ?_⟩
        have := last now
        simp [at_] at this
    · exact Or.inl same
    · refine Or.inr ⟨?_, fun _ => Or.inl ⟨req, answer, rfl, fine⟩⟩
      intro req' answer' isAnswer
      simp [now] at isAnswer

/-- The caller has gone, and the answer reaches nobody. -/
theorem Accounted.unheard (accounted : c.Accounted p cl) (closed : cl.phase = .closed)
    (pipeline : ∀ env ∈ c'.pipeline, env.party = p → env ∈ c.pipeline)
    (effects : ∀ eff ∈ c'.effects, eff.party = p → eff ∈ c.effects ∨ eff.number = cl.answered.length) :
    c'.Accounted p cl := by
  refine ⟨fun env member mine => accounted.expected env (pipeline env member mine) mine, ?_, by simp [closed], ?_⟩
  · intro eff member mine
    rcases effects eff member mine with old | now
    · exact accounted.recent eff old mine
    · exact Or.inr ⟨now, by rw [closed]; trivial⟩
  · intro eff member mine
    rcases effects eff member mine with old | now
    · exact accounted.quiet eff old mine
    · refine Or.inr ⟨?_, fun _ => Or.inr closed⟩
      intro req answer isAnswer
      simp [now] at isAnswer

theorem Accounted.close (accounted : c.Accounted p cl) : c.Accounted p { cl with phase := .closed } := by
  refine ⟨fun env member mine => ⟨(accounted.expected env member mine).1, Or.inr rfl⟩, ?_, by simp, ?_⟩
  · intro eff member mine
    rcases accounted.recent eff member mine with earlier | ⟨now, _⟩
    · exact Or.inl earlier
    · exact Or.inr ⟨now, trivial⟩
  · intro eff member mine
    rcases accounted.quiet eff member mine with same | ⟨answers, _⟩
    · exact Or.inl same
    · exact Or.inr ⟨answers, fun _ => Or.inr rfl⟩

theorem Accounted.answer (accounted : c.Accounted p cl) {req : Request} {answer : Answer}
    (at_ : cl.phase = .answering req answer) :
    c.Accounted p ⟨.reading, cl.taken, cl.answered ++ [(req, answer)]⟩ := by
  have past : ∀ eff ∈ c.effects, eff.party = p → eff.number < (cl.answered ++ [(req, answer)]).length := by
    intro eff member mine
    have := accounted.recent eff member mine
    rw [List.length_append, List.length_singleton]
    omega
  refine ⟨?_, fun eff member mine => Or.inl (past eff member mine), by simp, ?_⟩
  · intro env member mine
    have expected := (accounted.expected env member mine).2
    simp [at_] at expected
  · intro eff member mine
    rcases accounted.quiet eff member mine with same | ⟨answers, last⟩
    · exact Or.inl same
    · refine Or.inr ⟨?_, fun now => ?_⟩
      · intro req' answer' isAnswer
        rcases accounted.recent eff member mine with earlier | ⟨now, _⟩
        · rw [List.getElem?_append_left earlier] at isAnswer
          exact answers req' answer' isAnswer
        · rw [now, List.getElem?_concat_length] at isAnswer
          cases isAnswer
          rcases last now with ⟨req'', answer'', isPhase, fine⟩ | closed
          · rw [at_] at isPhase
            cases isPhase
            exact fine
          · simp [at_] at closed
      · have := past eff member mine
        have : eff.number = (cl.answered ++ [(req, answer)]).length := now
        omega

theorem reply_awaiting {env : Envelope} {req : Request} {cmd : Command} (at_ : (c.client env.party).phase = .awaiting req cmd)
    (now : env.number = (c.client env.party).answered.length) (resp : CommandResponse) :
    c.reply env resp = c.setPhase env.party (.answering req (req.answer (.ok resp))) := by
  rw [ControlPlane.reply, at_]
  exact if_pos now.symm

theorem reply_closed {env : Envelope} (closed : (c.client env.party).phase = .closed) (resp : CommandResponse) :
    c.reply env resp = c := by
  rw [ControlPlane.reply, closed]

theorem Channeled.absent (channeled : Channeled c) (idle : ∀ cmd req, (c.client p).phase ≠ .awaiting req cmd)
    (alive : (c.client p).phase ≠ .closed) : ∀ env ∈ c.pipeline, env.party ≠ p := by
  rintro env member rfl
  rcases ((channeled.accounted _).expected env member rfl).2 with ⟨req, at_⟩ | closed
  · exact idle _ _ at_
  · exact alive closed

/-- The head of the pipeline is answered, after `effects` for it. -/
theorem Channeled.reply (channeled : Channeled c) {env : Envelope} {resp : CommandResponse}
    (head : c.processor.current = [env]) (effects : List (Effect deps σ))
    (made : ∀ eff ∈ effects, eff.party = env.party ∧ eff.number = env.number ∧
      (eff.after = eff.before ∨ ∀ message, resp ≠ .error message))
    (same : c'.client = c.client) (queue : c'.queue = c.queue) (done : c'.effects = c.effects ++ effects) :
    Channeled { c'.reply env resp with processor := .idle } := by
  have whole : c.pipeline = env :: c.queue := by rw [pipeline, head, List.singleton_append]
  have first : env ∈ c.pipeline := by rw [whole]; exact List.mem_cons_self ..
  have later : ∀ env' ∈ c.queue, env' ∈ c.pipeline := fun env' member => by
    rw [whole]
    exact List.mem_cons_of_mem _ member
  have distinct := channeled.distinct
  rw [whole, List.map_cons] at distinct
  obtain ⟨alone, distinct⟩ := List.nodup_cons.mp distinct
  obtain ⟨now, phase⟩ := (channeled.accounted env.party).expected env first rfl
  have kept : (c'.reply env resp).queue = c.queue ∧ (c'.reply env resp).effects = c.effects ++ effects := by
    rcases reply_cases c' env resp with nobody | ⟨req, cmd, _, next⟩
    · rw [nobody]
      exact ⟨queue, done⟩
    · rw [next]
      exact ⟨queue, done⟩
  obtain ⟨d, isD⟩ : ∃ d : ControlPlane deps σ, d = { c'.reply env resp with processor := .idle } := ⟨_, rfl⟩
  have pipe : d.pipeline = c.queue := by rw [isD]; exact kept.1
  have made' : ∀ eff ∈ d.effects, eff ∈ c.effects ∨ eff ∈ effects := by
    intro eff member
    rw [isD] at member
    exact List.mem_append.mp (kept.2 ▸ member)
  have others : ∀ q, q ≠ env.party → d.Accounted q (c.client q) := by
    intro q apart
    refine (channeled.accounted q).mono (fun env' member _ => later env' (pipe ▸ member)) ?_ ?_
    · intro eff member mine
      rcases made' eff member with old | new
      · exact old
      · exact (apart (mine.symm.trans (made eff new).1)).elim
    · intro env' a waits mine
      rw [waits] at head
      cases head
      exact (apart mine.symm).elim
  rw [← isD]
  refine ⟨by rw [pipe]; exact distinct, by simp [isD], by simp [isD], ?_⟩
  intro q
  rcases phase with ⟨req, at_⟩ | closed
  · have next := reply_awaiting (c := c') (by rw [same]; exact at_) (by rw [same]; exact now) resp
    by_cases mine : q = env.party
    · subst mine
      have here : d.client env.party = { c.client env.party with phase := .answering req (req.answer (.ok resp)) } := by
        rw [isD, next, ← same]
        exact setClient_self _ _ _
      rw [here]
      refine (channeled.accounted env.party).replied at_ ?_ ?_
      · intro env' member isMine
        exact alone (List.mem_map.mpr ⟨env', pipe ▸ member, isMine⟩)
      · intro eff member isMine
        rcases made' eff member with old | new
        · exact Or.inl old
        · obtain ⟨_, number, fine⟩ := made eff new
          refine Or.inr ⟨number.trans now, fine.imp id fun fine isError => ?_⟩
          obtain ⟨message, isMessage⟩ := Request.isError_answer isError
          exact fine message isMessage
    · have here : d.client q = c.client q := by
        rw [isD, next, ← same]
        exact setClient_other _ mine _
      rw [here]
      exact others q mine
  · have next := reply_closed (c := c') (by rw [same]; exact closed) resp
    have here : d.client q = c.client q := by rw [isD, next, ← same]
    rw [here]
    by_cases mine : q = env.party
    · subst mine
      refine (channeled.accounted env.party).unheard closed (fun env' member _ => later env' (pipe ▸ member)) ?_
      intro eff member isMine
      exact (made' eff member).imp id fun new => (made eff new).2.1.trans now
    · exact others q mine

theorem Channeled.setClient (channeled : Channeled c) (moved : c.Accounted p cl) : Channeled (c.setClient p cl) := by
  refine ⟨channeled.distinct, channeled.drained, channeled.asserts, fun q => ?_⟩
  have here := forall_setClient (P := c.Accounted) channeled.accounted moved q
  exact here.mono (fun _ member _ => member) (fun _ member _ => member) fun _ _ waits _ => waits

theorem Channeled.enqueue (channeled : Channeled c) {req : Request} {cmd : Command}
    (at_ : (c.client p).phase = .sending req cmd) (alive : c.processor ≠ .exited) :
    Channeled { c.setPhase p (.awaiting req cmd) with queue := c.queue ++ [⟨p, (c.client p).answered.length, cmd⟩] } := by
  have absent := channeled.absent (p := p) (by simp [at_]) (by simp [at_])
  obtain ⟨d, isD⟩ : ∃ d : ControlPlane deps σ, d = { c.setPhase p (.awaiting req cmd) with
    queue := c.queue ++ [⟨p, (c.client p).answered.length, cmd⟩] } := ⟨_, rfl⟩
  have pipe : d.pipeline = c.pipeline ++ [⟨p, (c.client p).answered.length, cmd⟩] := by
    rw [isD, pipeline, pipeline, List.append_assoc]
    rfl
  have effects : d.effects = c.effects := by rw [isD]; rfl
  have processor : d.processor = c.processor := by rw [isD]; rfl
  rw [← isD]
  refine ⟨?_, fun exited => (alive (processor ▸ exited)).elim, processor ▸ channeled.asserts, fun q => ?_⟩
  · rw [pipe, List.map_append, List.nodup_append]
    refine ⟨channeled.distinct, by simp, ?_⟩
    rintro q member q' isNew rfl
    obtain ⟨env, inPipeline, rfl⟩ := List.mem_map.mp member
    exact absent env inPipeline (by simpa using isNew)
  · by_cases mine : q = p
    · subst mine
      have here : d.client q = ⟨.awaiting req cmd, (c.client q).taken, (c.client q).answered⟩ := by
        rw [isD]
        exact setClient_self _ _ _
      rw [here]
      refine (channeled.accounted q).advance ((channeled.accounted q).past_of_unsent (by simp [at_, PartyPhase.Sent]))
        effects ?_
      intro env member isMine
      rw [pipe] at member
      rcases List.mem_append.mp member with old | new
      · exact (absent env old isMine).elim
      · cases List.mem_singleton.mp new
        exact ⟨rfl, Or.inl ⟨req, rfl⟩⟩
    · have here : d.client q = c.client q := by
        rw [isD]
        exact setClient_other _ mine _
      rw [here]
      refine (channeled.accounted q).mono ?_ (fun eff member _ => effects ▸ member) fun env a waits _ => processor ▸ waits
      intro env member isMine
      rw [pipe] at member
      rcases List.mem_append.mp member with old | new
      · exact old
      · cases List.mem_singleton.mp new
        exact (mine isMine.symm).elim

theorem Channeled.giveUp (channeled : Channeled c) {req : Request} {cmd : Command} {answer : Answer}
    (at_ : (c.client p).phase = .sending req cmd ∨ (c.client p).phase = .awaiting req cmd)
    (exited : c.processor = .exited) : Channeled (c.setPhase p (.answering req answer)) := by
  have nothing : c.pipeline = [] := by rw [pipeline, exited, channeled.drained exited]; rfl
  refine channeled.setClient ((channeled.accounted p).advance ?_ rfl (by simp [nothing]))
  intro eff member mine
  rcases (channeled.accounted p).recent eff member mine with earlier | ⟨now, sent⟩
  · exact earlier
  · rcases at_ with at_ | at_
    · rw [at_] at sent
      exact sent.elim
    · obtain ⟨env, a, waits, _⟩ := (channeled.accounted p).awaited eff member mine now req cmd at_
      rw [exited] at waits
      cases waits

theorem Channeled.wait (channeled : Channeled c) {env : Envelope} {a : Assertion}
    (taken : c.processor = .dispatching env) (waits : (dispatch reg c.cluster.toClusterState env.cmd).1 = .wait a) :
    Channeled { c.execute reg env with processor := .waiting env a } := by
  obtain ⟨isAssertion, unchanged⟩ := dispatch_wait waits
  obtain ⟨d, isD⟩ : ∃ d : ControlPlane deps σ, d = { c.execute reg env with processor := .waiting env a } := ⟨_, rfl⟩
  have pipe : d.pipeline = c.pipeline := by
    rw [isD, pipeline, pipeline, taken]
    rfl
  have first : env ∈ c.pipeline := by simp [pipeline, taken, Processor.current]
  have made : ∀ eff ∈ d.effects, eff ∈ c.effects ∨
      eff.party = env.party ∧ eff.number = env.number ∧ eff.after = eff.before := by
    intro eff member
    rw [isD] at member
    rcases List.mem_append.mp member with old | new
    · exact Or.inl old
    · cases List.mem_singleton.mp new
      exact Or.inr ⟨rfl, rfl, unchanged⟩
  rw [← isD]
  refine ⟨by rw [pipe]; exact channeled.distinct, by simp [isD], ?_, fun q => ?_⟩
  · intro env' a' isWaiting
    rw [isD] at isWaiting
    cases isWaiting
    exact isAssertion
  · have here : d.client q = c.client q := by rw [isD]; rfl
    have account := channeled.accounted q
    rw [here]
    refine ⟨fun env' member mine => account.expected env' (pipe ▸ member) mine, ?_, ?_, ?_⟩
    · intro eff member mine
      rcases made eff member with old | ⟨isParty, number, _⟩
      · exact account.recent eff old mine
      · obtain ⟨now, phase⟩ := account.expected env first (isParty.symm.trans mine)
        refine Or.inr ⟨number.trans now, ?_⟩
        rcases phase with ⟨req, at_⟩ | closed
        · rw [at_]
          trivial
        · rw [closed]
          trivial
    · intro eff member mine now req cmd at_
      rcases made eff member with old | ⟨isParty, _⟩
      · obtain ⟨_, _, isWaiting, _⟩ := account.awaited eff old mine now req cmd at_
        rw [taken] at isWaiting
        cases isWaiting
      · exact ⟨env, a, by rw [isD], isParty.symm.trans mine⟩
    · intro eff member mine
      rcases made eff member with old | ⟨_, _, same⟩
      · exact account.quiet eff old mine
      · exact Or.inl same

theorem Channeled.of_eq (channeled : Channeled c) (client : c'.client = c.client) (pipe : c'.pipeline = c.pipeline)
    (effects : c'.effects = c.effects) (drained : c'.processor = .exited → c'.queue = [])
    (waiting : ∀ env a, c.processor = .waiting env a ↔ c'.processor = .waiting env a) : Channeled c' := by
  refine ⟨pipe ▸ channeled.distinct, drained, fun env a waits => channeled.asserts env a ((waiting env a).mpr waits),
    fun q => ?_⟩
  rw [client]
  exact (channeled.accounted q).mono (fun env member _ => pipe ▸ member) (fun eff member _ => effects ▸ member)
    fun env a waits _ => (waiting env a).mp waits

theorem Channeled.step (channeled : Channeled c) (next : Stepped reg c c') : Channeled c' := by
  cases next with
  | frame client queue processor _ effects =>
    refine channeled.of_eq client ?_ effects ?_ ?_
    · rw [pipeline, pipeline, processor, queue]
    · rw [processor, queue]
      exact channeled.drained
    · simp [processor]
  | signal => exact channeled.of_eq rfl rfl rfl channeled.drained (by simp)
  | @take p req phase takes at_ taken =>
    have absent := channeled.absent (p := p) (by simp [at_]) (by simp [at_])
    refine channeled.setClient ((channeled.accounted p).advance ?_ rfl ?_)
    · exact (channeled.accounted p).past_of_unsent (by simp [at_, PartyPhase.Sent])
    · intro env member mine
      exact (absent env member mine).elim
  | enqueue at_ alive => exact channeled.enqueue at_ alive
  | giveUp at_ exited => exact channeled.giveUp at_ exited
  | exit idle signalled =>
    refine ⟨by simp [pipeline, Processor.current], fun _ => rfl, by simp, fun q => ?_⟩
    refine (channeled.accounted q).mono ?_ (fun _ member _ => member) ?_
    · simp [pipeline, Processor.current]
    · simp [idle]
  | fetch idle silent queue =>
    refine channeled.of_eq rfl ?_ rfl (by simp) (by simp [idle])
    rw [pipeline, pipeline, idle, queue]
    rfl
  | @finish env resp taken replies =>
    refine channeled.reply (by rw [taken]; rfl) _ ?_ rfl rfl rfl
    intro eff member
    cases List.mem_singleton.mp member
    refine ⟨rfl, rfl, ?_⟩
    by_cases refused : ∃ message, resp = .error message
    · obtain ⟨message, rfl⟩ := refused
      exact Or.inl (dispatch_error replies)
    · exact Or.inr fun message isError => refused ⟨message, isError⟩
  | wait taken waits => exact channeled.wait taken waits
  | conclude waits => exact channeled.reply (by rw [waits]; rfl) [] (by simp) rfl rfl (by simp)
  | answer at_ => exact channeled.setClient ((channeled.accounted _).answer at_)
  | close => exact channeled.setClient (channeled.accounted _).close

theorem channeled_start (s : ClusterState deps σ) : Channeled (start s) :=
  ⟨by simp [start, pipeline, Processor.current], by simp [start], by simp [start],
    fun p => ⟨by simp [start, pipeline, Processor.current], by simp [start], by simp [start], by simp [start]⟩⟩

end Accounts

section Runs
variable (storage : SnapshotStorage σ) (reg : UpstreamRegistry) (arrivals : String → Nat → Arrival)
  (fromStr : String → Except String WireCommand) (s : ClusterState deps σ)

theorem channeled_run (moves : List ControlMove) : Channeled (run storage reg arrivals fromStr s moves) :=
  Execution.exec_invariant (step storage reg arrivals fromStr) (I := Channeled)
    (fun c move channeled => channeled.step (stepped c move)) (channeled_start s) moves

theorem orderly_run (moves : List ControlMove) (p : Party) :
    ((run storage reg arrivals fromStr s moves).client p).Orderly p :=
  Execution.exec_invariant (step storage reg arrivals fromStr) (I := fun c => ∀ p, (c.client p).Orderly p)
    (fun c move orderly => orderly_step orderly (stepped c move)) Client.orderly_start moves p

/-- A list of things that all come from `f` is a list of what they come from. -/
theorem exists_map_of_forall {α β : Type} {f : α → β} {items : List β} (all : ∀ b ∈ items, ∃ a, b = f a) :
    ∃ sources : List α, items = sources.map f := by
  induction items with
  | nil => exact ⟨[], rfl⟩
  | cons b rest ih =>
    obtain ⟨a, rfl⟩ := all b (List.mem_cons_self ..)
    obtain ⟨sources, rfl⟩ := ih fun b member => all b (List.mem_cons_of_mem _ member)
    exact ⟨a :: sources, rfl⟩

theorem takes_line {k : Nat} {req : Request} (takes : Takes (.connection k) req) : ∃ text, req = .line text := by
  cases req with
  | line text => exact ⟨text, rfl⟩
  | call cmd => exact takes.elim

/-- Whatever the other parties, the listeners and the shutdown do: a connection has
written one response line for each line that it has read and that is not blank, in
order, but for at most one that it is about; and a command whose response is an
error has left the stubs, the pause flags and the recordings as they were. -/
theorem one_answer_per_line (moves : List ControlMove) (k : Nat) :
    let c := run storage reg arrivals fromStr s moves
    let conn := c.client (.connection k)
    ∃ (lines : List String) (written : List (String × WireResponse)) (pending : List String),
      conn.taken = lines.map .line ∧ conn.answered = written.map (fun line => (.line line.1, .wire line.2)) ∧
      (lines.filter fun line => !isBlank line) = written.map Prod.fst ++ pending ∧ pending.length ≤ 1 ∧
      (conn.phase = .reading → pending = []) ∧
      ∀ n line message, written[n]? = some (line, .error message) →
        ∀ eff ∈ c.effects, eff.party = .connection k → eff.number = n → eff.after = eff.before := by
  intro c conn
  have orderly : conn.Orderly (.connection k) := orderly_run storage reg arrivals fromStr s moves (.connection k)
  have channeled : Channeled c := channeled_run storage reg arrivals fromStr s moves
  obtain ⟨rest, short, split, current⟩ := orderly.ordered
  have inTaken : ∀ req ∈ conn.answered.map Prod.fst ++ rest, ∃ text, req = .line text := by
    intro req member
    rw [← split] at member
    exact takes_line (orderly.takes req (List.mem_of_mem_filter member))
  obtain ⟨lines, isLines⟩ := exists_map_of_forall fun req member => takes_line (orderly.takes req member)
  obtain ⟨pending, rfl⟩ := exists_map_of_forall fun req member => inTaken req (List.mem_append_right _ member)
  obtain ⟨written, isWritten⟩ : ∃ written : List (String × WireResponse),
      conn.answered = written.map fun line => (.line line.1, .wire line.2) := by
    refine exists_map_of_forall fun entry member => ?_
    obtain ⟨req, answer⟩ := entry
    obtain ⟨text, isLine⟩ := inTaken req (List.mem_append_left _ (List.mem_map.mpr ⟨_, member, rfl⟩))
    have fits := orderly.fits _ member
    cases isLine
    cases answer with
    | wire resp => exact ⟨(text, resp), rfl⟩
    | result result => exact fits.elim
  refine ⟨lines, written, pending, isLines, isWritten, ?_, by simpa using short, ?_, ?_⟩
  · have injective : Function.Injective Request.line := fun _ _ same => Request.line.inj same
    rw [isLines, isWritten, List.filter_map, List.map_map] at split
    refine injective.list_map ?_
    rw [List.map_append, List.map_map]
    exact split
  · intro reading
    have nothing := current (by simp [reading])
    simpa [reading, PartyPhase.current] using nothing
  · intro n line message isError eff member mine number
    have answered : conn.answered[n]? = some (.line line, .wire (.error message)) := by
      rw [isWritten, List.getElem?_map, isError]
      rfl
    rcases (channeled.accounted (.connection k)).quiet eff member mine with same | ⟨answers, _⟩
    · exact same
    · subst number
      exact (answers _ _ answered trivial).elim

end Runs

end ControlPlane

end PartlyProxy
