import Cuttlegate.Adapters.Http
import Cuttlegate.App.ProjectService
import Cuttlegate.App.RuleService

/-!
# The HTTP Handlers

The handlers that create, delete and toggle flags and environments, those of
rules and API keys that act on one row by its id, and those that evaluate flags
and stream their changes, with the routes they are wired to.

The handler of rules resolves the project, the flag and the environment of its
path and then acts on the rule by its id alone. The handler of API keys does
not look at its path at all.

A stream needs a response writer that can flush, and the wrappers of the
metrics and tenant middleware cannot.

## Main definitions

* `resolvePath`, `APIKey.below`: The project and environment of a path.
* `FlagHandler.create`, `FlagHandler.update`, `FlagHandler.delete`,
  `EnvironmentHandler.create`, `EnvironmentHandler.delete`: Flags and
  environments.
* `FlagEnvironmentHandler.setEnabled`: The toggle.
* `RuleHandler.update`, `RuleHandler.delete`: Rules by id.
* `APIKeyHandler.revoke`, `APIKeyHandler.updateTier`: Keys by id.
* `EvaluationHandler.evaluate`, `EvaluationHandler.evaluateAll`: Evaluation.
* `SSEHandler.stream`, `SSEHandler.streamLoop`: The stream.
* `NestedRequest.serve`, `KeyRequest.serve`: The routes, as wired.

## Theorems

* `ends_resolvePath`: What the lookups of a path find.
-/

namespace Cuttlegate

/-- Look up the project and environment of a path. -/
def resolvePath (ctx : Ctx) (projSlug envSlug : String)
    (k : Project → Environment → HttpProg Response) : HttpProg Response :=
  orWriteError (onDB (ProjectService.getBySlug ctx projSlug)) (fun proj =>
    orWriteError (onDB (EnvironmentService.getBySlug ctx proj.id envSlug)) (fun env => k proj env))

/-- The key belongs to the project and environment of a path. -/
def APIKey.below (k : APIKey) (s : Store) (projSlug envSlug : String) : Prop :=
  ∃ proj env, s.projectAt projSlug = some proj ∧ s.environmentAt proj.id envSlug = some env ∧
    k.projectID = proj.id ∧ k.environmentID = env.id

/-- The lookups of a path, on a connection set up for its project. -/
theorem ends_resolvePath (h : HttpHost) {Q : Except Err Response → HttpState → Prop}
    (hQ : AllowsRefusal Q) (ac : AuthContext) (proj : Project) (st : Store)
    (projSlug envSlug : String) (hproj : st.projectAt projSlug = some proj)
    (k : Project → Environment → HttpProg Response) (s : HttpState) (hs : Quiet st s)
    (hk : ∀ env s', st.environmentAt proj.id envSlug = some env → Quiet st s' →
      Proc.Ends (httpExec h) Q (k proj env) s') :
    Proc.Ends (httpExec h) Q (resolvePath ⟨some ac, some proj.id⟩ projSlug envSlug k) s := by
  unfold resolvePath ProjectService.getBySlug EnvironmentService.getBySlug
  rw [onDB_call]
  refine ends_lookup h hQ _ rfl _ s (.inr hs.2) (fun proj' hp => ?_)
  have hsame : st.projectAt projSlug = some proj' := by
    rw [← hs.1]
    exact (World.onStore_queryRow _ _ _ _ hp).1
  rw [hproj, Option.some.injEq] at hsame
  rw [← hsame, onDB_call]
  refine ends_lookup h hQ _ rfl _ _ (.inr hs.2) (fun env hp' => hk env _ ?_ hs)
  have hfound := (World.onStore_queryRow _ _ _ _ hp').1
  rw [World.tick_store, hs.1] at hfound
  simp only [sees_own] at hfound
  exact hfound

/-! ## Flags and environments -/

namespace FlagHandler

def create (ctx : Ctx) (projSlug : String) (body : Option Json) : HttpProg Response :=
  orWriteError (onDB (ProjectService.getBySlug ctx projSlug)) (fun proj =>
    match body.bind FlagBody.decode with
    | none => return writeError (.badRequest "invalid request body")
    | some b =>
        orWriteError (onDB (FlagService.create ctx (b.toFlag proj.id)))
          (fun flag => return ⟨201, .flag flag⟩))

/-- The second half of an update, once the project is known: the flag is read
    before the body is, and written back with the fields the body names. -/
def patch (ctx : Ctx) (projectID key : String) (body : Option Json) : Prog Flag := do
  let flag ← FlagService.getByKey ctx projectID key
  match body.bind FlagPatch.decode with
  | none => Proc.fail (.badRequest "invalid request body")
  | some b => do
      FlagService.update ctx (b.apply flag)
      return b.apply flag

def update (ctx : Ctx) (projSlug key : String) (body : Option Json) : HttpProg Response :=
  orWriteError (onDB (ProjectService.getBySlug ctx projSlug)) (fun proj =>
    orWriteError (onDB (patch ctx proj.id key body)) (fun flag => return ⟨200, .flag flag⟩))

def delete (ctx : Ctx) (projSlug key : String) : HttpProg Response :=
  orWriteError (onDB (ProjectService.getBySlug ctx projSlug)) (fun proj =>
    orWriteError (onDB (FlagService.deleteByKey ctx proj.id key)) (fun _ => return ⟨204, .empty⟩))

end FlagHandler

namespace EnvironmentHandler

def create (ctx : Ctx) (projSlug : String) (body : Option Json) : HttpProg Response :=
  orWriteError (onDB (ProjectService.getBySlug ctx projSlug)) (fun proj =>
    match body.bind EnvironmentBody.decode with
    | none => return writeError (.badRequest "invalid request body")
    | some b =>
        orWriteError (onDB (EnvironmentService.create ctx proj.id b.name b.slug))
          (fun e => return ⟨201, .environment e⟩))

def delete (ctx : Ctx) (projSlug envSlug : String) : HttpProg Response :=
  orWriteError (onDB (ProjectService.getBySlug ctx projSlug)) (fun proj =>
    orWriteError (onDB (EnvironmentService.deleteBySlug ctx proj.id envSlug))
      (fun _ => return ⟨204, .empty⟩))

end EnvironmentHandler

/-- The toggle of a flag in an environment. -/
def FlagEnvironmentHandler.setEnabled (ctx : Ctx) (projSlug envSlug key : String)
    (body : Option Json) : HttpProg Response :=
  resolvePath ctx projSlug envSlug (fun proj env =>
    match body.bind decodeEnabledBody with
    | none => return writeError (.badRequest "invalid request body")
    | some none => return writeError (.badRequest "enabled is required")
    | some (some enabled) =>
        orWriteError (onDB (FlagService.setEnabled ctx
          { projectID := proj.id, environmentID := env.id, flagKey := key, enabled := enabled
            projectSlug := proj.slug, envSlug := env.slug, source := "" }))
          (fun _ => return ⟨200, .toggled enabled⟩))

/-! ## Rules and API keys by id -/

namespace RuleHandler

/-- Look up the project, flag and environment of a path. -/
def resolveContext (ctx : Ctx) (projSlug flagKey envSlug : String)
    (k : Flag → Environment → HttpProg Response) : HttpProg Response :=
  resolvePath ctx projSlug envSlug (fun proj env =>
    orWriteError (onDB (FlagService.getByKey ctx proj.id flagKey)) (fun flag => k flag env))

def update (ctx : Ctx) (projSlug flagKey envSlug ruleID : String) (body : Option Json) :
    HttpProg Response :=
  resolveContext ctx projSlug flagKey envSlug (fun flag env =>
    match body.bind RuleBody.decode with
    | none => return writeError (.badRequest "invalid request body")
    | some b =>
        orWriteError (onDB (RuleService.update ctx (b.toRule ruleID flag.id env.id)))
          (fun updated => return ⟨200, .rule updated⟩))

def delete (ctx : Ctx) (projSlug flagKey envSlug ruleID : String) : HttpProg Response :=
  resolveContext ctx projSlug flagKey envSlug (fun _ _ =>
    orWriteError (onDB (RuleService.delete ctx ruleID)) (fun _ => return ⟨204, .empty⟩))

end RuleHandler

namespace APIKeyHandler

def revoke (ctx : Ctx) (keyID : String) : HttpProg Response :=
  orWriteError (onDB (APIKeyService.revoke ctx keyID)) (fun _ => return ⟨204, .empty⟩)

def updateTier (ctx : Ctx) (keyID : String) (body : Option Json) : HttpProg Response :=
  match body.bind decodeTierBody with
  | none => return writeError (.badRequest "invalid request body")
  | some text =>
      if (ToolCapabilityTier.ofText text).valid = false then
        return ⟨400, .error "invalid_capability_tier"
          "capability_tier must be one of: read, write, destructive"⟩
      else
        orWriteError (onDB (APIKeyService.updateCapabilityTier ctx keyID (.ofText text)))
          (fun view => return ⟨200, .apiKey view⟩)

end APIKeyHandler

/-- The routes that name a row by its id below a path. -/
inductive NestedRoute where
  | updateRule (flagKey ruleID : String) (body : Option Json)
  | deleteRule (flagKey ruleID : String)
  | revokeKey (keyID : String)
  | updateKeyTier (keyID : String) (body : Option Json)

/-- A request to such a route. A segment of a path is never empty. -/
structure NestedRequest where
  authorization : String
  projSlug : String
  projSlug_ne : projSlug ≠ ""
  envSlug : String
  route : NestedRoute

/-- The handler of a route. -/
def NestedRequest.handler (req : NestedRequest) (ctx : Ctx) : HttpProg Response :=
  match req.route with
  | .updateRule flagKey ruleID body =>
      RuleHandler.update ctx req.projSlug flagKey req.envSlug ruleID body
  | .deleteRule flagKey ruleID => RuleHandler.delete ctx req.projSlug flagKey req.envSlug ruleID
  | .revokeKey keyID => APIKeyHandler.revoke ctx keyID
  | .updateKeyTier keyID body => APIKeyHandler.updateTier ctx keyID body

/-- The route behind its middleware. -/
def NestedRequest.serve (h : HttpHost) (req : NestedRequest) : HttpProg Response :=
  requireBearer h req.authorization (fun ac =>
    tenantRLS req.projSlug (fun tenant => req.handler ⟨some ac, tenant⟩))

/-! ## Evaluation -/

namespace EvaluationHandler

/-- Report a missing row as forbidden, so that nothing is learnt from it. -/
def hideMissing {α : Type} (p : HttpProg α) (k : α → HttpProg Response) : HttpProg Response := do
  match ← p.attempt with
  | .ok a => k a
  | .error .notFound => return writeError .forbidden
  | .error e => return writeError e

/-- A program of a service that answers lets its handler go on. -/
theorem run_hideMissing_ok {α : Type} (h : HttpHost) (p : Prog α)
    (hp : Proc.Uses Call.sparesTx p) (k : α → HttpProg Response) (s : HttpState)
    (htx : s.tx = none ∨ s.tx = some none) (a : α) (w : World)
    (hrun : Proc.run (exec h.host) p s.world = (.ok a, w)) :
    Proc.run (httpExec h) (hideMissing (onDB p) k) s =
      Proc.run (httpExec h) (k a) { s with world := w } := by
  rw [hideMissing, Proc.run_bind, Proc.run_attempt, run_onDB_pool h p hp s htx, hrun]

def resolveEvalRequest (ctx : Ctx) (scope : Option APIKeyScope) (projSlug envSlug : String)
    (body : Option Json) (k : Project → Environment → EvalContext → HttpProg Response) :
    HttpProg Response :=
  hideMissing (onDB (ProjectService.getBySlug ctx projSlug)) (fun proj =>
    hideMissing (onDB (EnvironmentService.getBySlug ctx proj.id envSlug)) (fun env =>
      if apiKeyScopeAllows scope proj.id env.id = false then return writeError .forbidden
      else
        match body.bind EvaluateBody.decode with
        | none => return writeError (.badRequest "invalid request body")
        | some b =>
            match b.context with
            | none => return writeError (.badRequest "context is required")
            | some evalCtx => k proj env evalCtx))

def evaluate (srt : Sorter) (ctx : Ctx) (scope : Option APIKeyScope)
    (projSlug envSlug flagKey : String) (body : Option Json) : HttpProg Response :=
  resolveEvalRequest ctx scope projSlug envSlug body (fun proj env evalCtx =>
    orWriteError (onDB (EvaluationService.evaluate srt ctx proj.id env.id flagKey evalCtx))
      (fun view => return ⟨200, .evaluation view⟩))

def evaluateAll (srt : Sorter) (ctx : Ctx) (scope : Option APIKeyScope)
    (projSlug envSlug : String) (body : Option Json) : HttpProg Response :=
  resolveEvalRequest ctx scope projSlug envSlug body (fun proj env evalCtx =>
    orWriteError (onDB (EvaluationService.evaluateAll srt ctx proj.id env.id evalCtx))
      (fun out => return ⟨200, .evaluations out.1 out.2⟩))

end EvaluationHandler

/-! ## The stream -/

/-- A response writer: whether it can flush. -/
structure Writer where
  flusher : Bool
  deriving DecidableEq, Repr

/-- The writer of the metrics middleware. It embeds a writer and has no method
    to flush. -/
def responseWriter (_ : Writer) : Writer := ⟨false⟩

/-- The writer of the tenant middleware, likewise. -/
def statusRecorder (_ : Writer) : Writer := ⟨false⟩

/-- What the loop of a stream waits for. -/
inductive StreamInput where
  | done
  | event (e : FlagStateChangedEvent)
  | closed
  | tick

namespace SSEHandler

/-- The events a stream forwards, for what it is woken up by. -/
def streamLoop (projSlug envSlug : String) : List StreamInput → List FlagStateChangedEvent
  | [] => []
  | .done :: _ => []
  | .closed :: _ => []
  | .tick :: rest => streamLoop projSlug envSlug rest
  | .event e :: rest =>
      if e.project ≠ projSlug ∨ e.environment ≠ envSlug then streamLoop projSlug envSlug rest
      else e :: streamLoop projSlug envSlug rest

/-- The stream of a path; `subscribed` says whether the broker accepted it, and
    `inputs` what happened while it was open. -/
def stream (ctx : Ctx) (w : Writer) (projSlug envSlug : String) (subscribed : Bool)
    (inputs : List StreamInput) : HttpProg Response :=
  resolvePath ctx projSlug envSlug (fun _ _ =>
    if w.flusher = false then return ⟨500, .text "streaming unsupported"⟩
    else if subscribed = false then return ⟨500, .text "broker unavailable"⟩
    else return ⟨200, .stream (streamLoop projSlug envSlug inputs)⟩)

end SSEHandler

/-- The routes that accept an API key. -/
inductive KeyRoute where
  | evaluate (flagKey : String) (body : Option Json)
  | evaluateAll (body : Option Json)
  | stream (subscribed : Bool) (inputs : List StreamInput)

/-- A request to such a route. A segment of a path is never empty. -/
structure KeyRequest where
  authorization : String
  projSlug : String
  projSlug_ne : projSlug ≠ ""
  envSlug : String
  route : KeyRoute

/-- The route behind its middleware, on the writer the server provides. -/
def KeyRequest.serve (h : HttpHost) (w : Writer) (req : KeyRequest) : HttpProg Response :=
  requireBearerOrAPIKey h req.authorization (fun ac scope =>
    tenantRLS req.projSlug (fun tenant =>
      match req.route with
      | .evaluate flagKey body => limit h ac
          (EvaluationHandler.evaluate h.host.sortSlice ⟨some ac, tenant⟩ scope req.projSlug
            req.envSlug flagKey body)
      | .evaluateAll body => limit h ac
          (EvaluationHandler.evaluateAll h.host.sortSlice ⟨some ac, tenant⟩ scope req.projSlug
            req.envSlug body)
      | .stream subscribed inputs =>
          SSEHandler.stream ⟨some ac, tenant⟩ (statusRecorder (responseWriter w)) req.projSlug
            req.envSlug subscribed inputs))

end Cuttlegate
