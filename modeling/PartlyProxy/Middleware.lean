import PartlyProxy.Error

namespace PartlyProxy

inductive ResponseSource where
  | stub
  | snapshot
  | replayMiss
  | upstream
deriving DecidableEq, Repr

/-- `RequestContext`. The typed extension map holds at most one value per type:
the response source has its own slot, the rest is keyed by type name. The id is
fresh for every request, so a `handle` that depends on it can act differently
each time, as a middleware with state of its own may. -/
structure RequestContext where
  id : String
  responseSource : Option ResponseSource
  extensions : List (String × String)
deriving DecidableEq, Repr

namespace RequestContext

def new (id : String) : RequestContext := ⟨id, none, []⟩

def stamp (ctx : RequestContext) (source : ResponseSource) : RequestContext :=
  { ctx with responseSource := some source }

@[simp] theorem new_responseSource (id : String) : (new id).responseSource = none := rfl

@[simp] theorem stamp_responseSource (ctx : RequestContext) (source : ResponseSource) :
    (ctx.stamp source).responseSource = some source := rfl

end RequestContext

/-- What a `handle` call does. `Next` is consumed by `run`, so `handle` either
returns by itself or calls `next.run` once and goes on with its result. -/
inductive Handled where
  | ret (outcome : Outcome) (ctx : RequestContext)
  | next (req : ProxyRequest) (ctx : RequestContext)
      (resume : Outcome → RequestContext → Outcome × RequestContext)

/-- `ProxyMiddleware`. The two redaction hooks are pure rewrites. -/
structure ProxyMiddleware where
  handle : ProxyRequest → RequestContext → Handled
  redactRequestForSnapshot : ProxyRequest → ProxyRequest
  redactResponseForSnapshot : ProxyResponse → ProxyResponse

def redactRequest (chain : List ProxyMiddleware) (req : ProxyRequest) : ProxyRequest :=
  chain.foldl (fun req mw => mw.redactRequestForSnapshot req) req

def redactResponse (chain : List ProxyMiddleware) (resp : ProxyResponse) : ProxyResponse :=
  chain.foldl (fun resp mw => mw.redactResponseForSnapshot resp) resp

/-- `Next::run` over the remaining middleware. The terminal stage reads and
writes a shared state `S`; middleware does not. -/
def Next.run {S : Type} (terminal : ProxyRequest → RequestContext → S → (Outcome × RequestContext) × S) :
    List ProxyMiddleware → ProxyRequest → RequestContext → S → (Outcome × RequestContext) × S
  | [], req, ctx, s => terminal req ctx s
  | first :: rest, req, ctx, s =>
    match first.handle req ctx with
    | .ret outcome ctx => ((outcome, ctx), s)
    | .next req ctx resume =>
      let inner := Next.run terminal rest req ctx s
      (resume inner.1.1 inner.1.2, inner.2)

def runChain {S : Type} (chain : List ProxyMiddleware)
    (terminal : ProxyRequest → RequestContext → S → (Outcome × RequestContext) × S)
    (req : ProxyRequest) (ctx : RequestContext) (s : S) : (Outcome × RequestContext) × S :=
  Next.run terminal chain req ctx s

/-- The way down the chain, cut at the terminal call: either some middleware
answers before the terminal is reached, or the terminal is called once and the
composed `resume` carries its result back up. -/
def descend : List ProxyMiddleware → ProxyRequest → RequestContext → Handled
  | [], req, ctx => .next req ctx fun outcome ctx => (outcome, ctx)
  | first :: rest, req, ctx =>
    match first.handle req ctx with
    | .ret outcome ctx => .ret outcome ctx
    | .next req ctx resume =>
      match descend rest req ctx with
      | .ret outcome ctx => .ret (resume outcome ctx).1 (resume outcome ctx).2
      | .next req ctx inner =>
        .next req ctx fun outcome ctx => resume (inner outcome ctx).1 (inner outcome ctx).2

theorem runChain_eq_descend {S : Type} (chain : List ProxyMiddleware)
    (terminal : ProxyRequest → RequestContext → S → (Outcome × RequestContext) × S)
    (req : ProxyRequest) (ctx : RequestContext) (s : S) :
    runChain chain terminal req ctx s =
      match descend chain req ctx with
      | .ret outcome ctx => ((outcome, ctx), s)
      | .next req ctx resume =>
        (resume (terminal req ctx s).1.1 (terminal req ctx s).1.2, (terminal req ctx s).2) := by
  unfold runChain
  induction chain generalizing req ctx with
  | nil => rfl
  | cons first rest ih =>
    simp only [Next.run, descend]
    cases first.handle req ctx with
    | ret outcome ctx => rfl
    | next req ctx resume =>
      simp only [ih]
      cases descend rest req ctx <;> rfl

def ProxyMiddleware.PassThrough (mw : ProxyMiddleware) : Prop :=
  ∀ req ctx, mw.handle req ctx = .next req ctx fun outcome ctx => (outcome, ctx)

theorem descend_passThrough {chain : List ProxyMiddleware} (pass : ∀ mw ∈ chain, mw.PassThrough)
    (req : ProxyRequest) (ctx : RequestContext) :
    descend chain req ctx = .next req ctx fun outcome ctx => (outcome, ctx) := by
  induction chain generalizing req ctx with
  | nil => rfl
  | cons first rest ih =>
    have here := pass first (List.mem_cons_self ..) req ctx
    have below := ih (fun mw member => pass mw (List.mem_cons_of_mem _ member)) req ctx
    simp only [descend, here, below]

theorem runChain_passThrough {S : Type} {chain : List ProxyMiddleware} (pass : ∀ mw ∈ chain, mw.PassThrough)
    (terminal : ProxyRequest → RequestContext → S → (Outcome × RequestContext) × S)
    (req : ProxyRequest) (ctx : RequestContext) (s : S) :
    runChain chain terminal req ctx s = terminal req ctx s := by
  rw [runChain_eq_descend, descend_passThrough pass]

end PartlyProxy
