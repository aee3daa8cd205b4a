import Cuttlegate.Adapters.Decode
import Cuttlegate.Adapters.RateLimit
import Cuttlegate.App.APIKeyService
import Cuttlegate.App.AuditService
import Cuttlegate.App.EvaluationService
import Cuttlegate.App.ProjectService
import Cuttlegate.Lib.Evidence

/-!
# The HTTP Server

What stands between a request and its handler: authentication, the
transaction of the tenant, and the rate limiter.

The tenant middleware looks the project of the path up, opens a transaction on
which row-level security admits that project, and hands it to the handler in
the request context. Not every repository asks for it: rules, projects, users
and audit events are read and written on the pool, at once and for good. The
rest becomes visible when the transaction is committed after the handler has
answered, and is gone when it is not; a commit that fails is logged, and the
client has its answer already.

The model follows one request at a time. A failed statement also aborts the
transaction it runs in; since no handler goes on after such a failure to answer
with success, this needs no state of its own.

## Main definitions

* `HttpHost`, `HttpState`, `HttpOp`, `httpExec`: The operations and their
  effect.
* `Response`, `writeError`: Answers.
* `requireBearer`, `requireBearerOrAPIKey`, `tenantRLS`, `limit`: Middleware.
* `apiKeyScopeAllows`: The check on the scope of a key.
* `Store.projectAt`, `Store.environmentAt`, `Store.flagAt`: What the slugs and
  keys of a path name.
* `AllowsRefusal`, `Closing`: Postconditions of requests.

## Theorems

* `writeError_status`: Errors roll the transaction back.
* `run_onDB_pool`, `run_onDB_tx`: A program of a service runs on the database
  it sees.
* `ends_orWriteError`, `ends_lookup`, `ends_tenantRLS`: Requests, followed
  step by step.
-/

namespace Cuttlegate

/-! ## The state and its operations -/

/-- Why a token was not accepted. -/
inductive VerifyError where
  | missingRoleClaim
  | invalid
  deriving DecidableEq, Repr

/-- What the surroundings of one request decide. -/
structure HttpHost where
  host : Host
  /-- The identity provider's verdict on a token. -/
  verify : String → Except VerifyError (User × Role)
  /-- Whether the transaction can be committed in the end. -/
  commits : Bool
  evalRateLimiter : RateLimiter

structure HttpState where
  /-- The database as it is committed, and everything outside it. -/
  world : World
  /-- The transaction of the request, if it is open, and the database as it
      sees it once it has written. -/
  tx : Option (Option Store)
  windows : Windows

inductive HttpOp where
  | db (c : Call)
  | beginTx
  | setTenantContext (projectID : String)
  | commit
  | rollback
  | allow (key : String)

/-- The type of the answer to an operation. -/
abbrev HttpOp.Ret : HttpOp → Type
  | .db c => c.Ret
  | .allow _ => Bool
  | _ => Unit

/-- Whether the repository of an operation asks the request context for the
    transaction. -/
def Op.onTenant : Op → Bool
  | .addMember _ | .listMembers _ | .updateMemberRole _ _ _ | .removeMember _ _ => true
  | .createEnvironment _ | .environmentBySlug _ _ | .listEnvironments _ => true
  | .renameEnvironment _ _ | .deleteEnvironment _ => true
  | .createFlag _ | .flagByKey _ _ | .listFlags _ | .countFlags _ _ | .pageFlags _ _ => true
  | .updateFlag _ | .deleteFlag _ => true
  | .insertState _ | .listStates _ | .stateOf _ _ | .setEnabled _ _ _ => true
  | .createSegment _ | .segmentBySlug _ _ | .listSegments _ | .listSegmentsWithCount _ => true
  | .renameSegment _ _ | .deleteSegment _ | .listSegmentMembers _ | .isMember _ _ => true
  | .createAPIKey _ | .apiKeyByID _ | .apiKeyByHash _ | .listAPIKeys _ _ => true
  | .revokeAPIKey _ | .updateAPIKeyTier _ _ => true
  | _ => false

/-- Whether a call runs in the transaction of its tenant. -/
def Call.inTx (c : Call) : Bool := c.tenant.isSome && c.op.onTenant

/-- A statement of the management of the transaction, which may fail. -/
def HttpState.manage (h : HttpHost) (s s' : HttpState) : Except Err Unit × HttpState :=
  if h.host.fails s.world.calls then (.error .internal, { s with world := s.world.tick })
  else (.ok (), { s' with world := s'.world.tick })

/-- The effect of an operation. -/
def httpExec (h : HttpHost) (op : HttpOp) (s : HttpState) : Except Err op.Ret × HttpState :=
  match op with
  | .db c =>
      match s.tx with
      | none => ((exec h.host c s.world).1, { s with world := (exec h.host c s.world).2 })
      | some view =>
          if c.inTx then
            let out := exec h.host c { s.world with store := view.getD s.world.store }
            (out.1, { s with
              world := { out.2 with store := s.world.store }
              tx := some (if c.op.writes = [] then view else some out.2.store) })
          else
            -- What has been written on the pool the transaction sees as well.
            ((exec h.host c s.world).1, { s with
              world := (exec h.host c s.world).2
              tx := some (if (exec h.host c s.world).1.isOk then
                view.map (fun v => (exec h.host c { s.world with store := v }).2.store)
                else view) })
  | .beginTx => s.manage h { s with tx := some none }
  | .setTenantContext _ => s.manage h s
  | .commit =>
      if h.commits then (.ok (), { s with
        world := { s.world with store := (s.tx.getD none).getD s.world.store }, tx := none })
      else (.error .internal, { s with tx := none })
  | .rollback => (.ok (), { s with tx := none })
  | .allow key =>
      let decision := h.evalRateLimiter.allow (h.host.now s.world.calls) key s.windows
      (.ok decision.1, { s with world := s.world.tick, windows := decision.2 })

abbrev HttpProg (α : Type) := Proc Err HttpOp HttpOp.Ret α

/-- A program over the database as a program of the server. -/
def onDB {α : Type} (p : Prog α) : HttpProg α := Proc.lift HttpOp.db (fun _ r => r) p

/-! ## Answers -/

inductive Body where
  | error (code message : String)
  | text (message : String)
  | empty
  | tooManyRequests (retryAfter : Nat)
  | evaluation (view : EvalView)
  | evaluations (flags : List EvalView) (evaluatedAt : Time)
  | rule (r : Rule)
  | apiKey (view : APIKeyView)
  | flag (f : Flag)
  | environment (e : Environment)
  | toggled (enabled : Bool)
  | stream (events : List FlagStateChangedEvent)
  | project (p : Project)
  | projects (ps : List Project)
  | member (m : ProjectMemberView)
  | members (ms : List ProjectMemberView)
  | environments (es : List Environment)
  | flags (fs : List Flag) (total : Nat) (page perPage : Int64)
  | flagView (v : FlagEnvironmentView)
  | flagViews (vs : List FlagEnvironmentView)
  | rules (rs : List Rule)
  | segment (g : Segment)
  | segments (gs : List SegmentWithCount)
  | segmentMembers (userKeys : List String)
  | apiKeyCreated (result : APIKeyCreateResult)
  | apiKeys (views : List APIKeyView)
  | auditEntries (entries : List ListedAuditEvent) (projectSlug : String) (nextCursor : Option Time)
  | evaluationHistory (items : List EvaluationEventView) (nextCursor : Option Time)
  | stats (view : FlagStatsView)
  | buckets (view : EvaluationBucketsView)
  deriving DecidableEq, Repr

structure Response where
  status : Nat
  body : Body
  deriving DecidableEq, Repr

def writeError : Err → Response
  | .validation field message => ⟨400, .error "validation_error" (field ++ ": " ++ message)⟩
  | .notFound => ⟨404, .error "not_found" "resource not found"⟩
  | .immutableVariants => ⟨400, .error "immutable_variants" "bool flag variants are immutable"⟩
  | .lastVariant => ⟨400, .error "last_variant" "cannot remove the last variant"⟩
  | .defaultVariant => ⟨409, .error "default_variant" "cannot delete the default variant"⟩
  | .lastAdmin => ⟨409, .error "last_admin" "cannot remove the last admin"⟩
  | .priorityConflict =>
      ⟨400, .error "priority_conflict" "a rule with this priority already exists"⟩
  | .keyRevoked => ⟨409, .error "key_revoked" "key has been revoked"⟩
  | .variantInUse => ⟨409, .error "variant_in_use" "variant is referenced by targeting rules"⟩
  | .conflict => ⟨409, .error "conflict" "resource already exists"⟩
  | .forbidden => ⟨403, .error "forbidden" "access denied"⟩
  | .badRequest message => ⟨400, .error "bad_request" message⟩
  | .internal | .panic => ⟨500, .error "internal_error" "an unexpected error occurred"⟩

/-- Every error is answered with a status that rolls the transaction back. -/
theorem writeError_status (e : Err) : 400 ≤ (writeError e).status := by
  cases e <;> simp [writeError]

def writeUnauthorized : Response := ⟨401, .error "unauthorized" "authentication required"⟩

def writeVerifyError : VerifyError → Response
  | .missingRoleClaim =>
      ⟨401, .error "missing_role_claim" "token is missing required role claim"⟩
  | .invalid => writeUnauthorized

/-- Answer with an error, except that a panic ends the request. -/
def orWriteError {α : Type} (p : HttpProg α) (k : α → HttpProg Response) : HttpProg Response := do
  match ← p.attempt with
  | .ok a => k a
  | .error .panic => Proc.fail .panic
  | .error e => return writeError e

/-! ## Middleware -/

/-- The token of an authorization header. -/
def bearerToken (header : String) : Option String :=
  if "Bearer ".toList.isPrefixOf header.toList then some (String.ofList (header.toList.drop 7))
  else none

/-- Authentication by a token of the identity provider. The profile of the user
    is stored on a best-effort basis. -/
def requireBearer (h : HttpHost) (authorization : String)
    (next : AuthContext → HttpProg Response) : HttpProg Response :=
  match bearerToken authorization with
  | none => return writeUnauthorized
  | some token =>
      match h.verify token with
      | .error e => return writeVerifyError e
      | .ok (user, role) => do
          let _ ← (Proc.call (HttpOp.db ⟨none, .upsertUser user⟩)).attempt
          next ⟨user.sub, role⟩

/-- The project and environment a key is scoped to. -/
structure APIKeyScope where
  projectID : String
  environmentID : String
  deriving DecidableEq, Repr

/-- Without a scope, which is the case for users, everything is allowed. -/
def apiKeyScopeAllows (scope : Option APIKeyScope) (projectID environmentID : String) : Bool :=
  match scope with
  | none => true
  | some scope => scope.projectID == projectID && scope.environmentID == environmentID

/-- Authentication by an API key or by a token. -/
def requireBearerOrAPIKey (h : HttpHost) (authorization : String)
    (next : AuthContext → Option APIKeyScope → HttpProg Response) : HttpProg Response :=
  match bearerToken authorization with
  | none => return writeUnauthorized
  | some token =>
      if "cg_".toList.isPrefixOf token.toList then do
        match ← (onDB (APIKeyService.authenticate h.host.sha256 ⟨none, none⟩ token)).attempt with
        | .error _ => return writeUnauthorized
        | .ok (projectID, environmentID) =>
            next ⟨"api-key", .viewer⟩ (some ⟨projectID, environmentID⟩)
      else
        match h.verify token with
        | .error e => return writeVerifyError e
        | .ok (user, role) => next ⟨user.sub, role⟩ none

/-- Run a handler in a transaction of the project the path names. -/
def tenantRLS (slug : String) (next : Option String → HttpProg Response) : HttpProg Response := do
  if slug = "" then next none
  else
    orWriteError (Proc.call (HttpOp.db ⟨none, .projectBySlug slug⟩)) (fun proj => do
      match ← (Proc.call HttpOp.beginTx).attempt with
      | .error _ => return ⟨500, .text "internal server error"⟩
      | .ok _ => do
          match ← (Proc.call (HttpOp.setTenantContext proj.id)).attempt with
          | .error _ => do
              Proc.call HttpOp.rollback
              return ⟨500, .text "internal server error"⟩
          | .ok _ => do
              let resp ← next (some proj.id)
              if resp.status ≥ 400 then do
                Proc.call HttpOp.rollback
                return resp
              else do
                let _ ← (Proc.call HttpOp.commit).attempt
                return resp)

/-- Let a bounded number of requests of a user pass. -/
def limit (h : HttpHost) (ac : AuthContext) (next : HttpProg Response) : HttpProg Response := do
  if ac.userID = "" then return writeError .forbidden
  else do
    let allowed ← Proc.call (HttpOp.allow ac.userID)
    if allowed = false then
      return ⟨429, .tooManyRequests (h.evalRateLimiter.windowSize / second)⟩
    else next

/-! ## Runs

A program of a service runs on the pool or in the transaction, as its
operations ask. Both are the run the program has alone, on the database it
sees. -/

/-- An operation that writes nothing only counts. -/
theorem exec_read (h : Host) (c : Call) (hc : c.op.writes = []) (w : World) :
    (exec h c w).2 = w.tick := by
  rcases exec_cases h c w with ⟨e, he⟩ | ⟨a, w', hp, he⟩
  · rw [he]
  · rw [he, c.op.perform_read h _ w w' a hc hp]

/-- A read on the pool or in a transaction that has written nothing answers
    from the committed database. -/
theorem httpExec_read (h : HttpHost) (c : Call) (hc : c.op.writes = []) (s : HttpState)
    (htx : s.tx = none ∨ s.tx = some none) :
    httpExec h (.db c) s = ((exec h.host c s.world).1, { s with world := s.world.tick }) := by
  have hread := exec_read h.host c hc s.world
  rcases htx with htx | htx
  · simp only [httpExec, htx, hread]
  · by_cases hin : c.inTx = true
    · simp only [httpExec, htx, hin, if_true, Option.getD_none, hc]
      rw [show ({ s.world with store := s.world.store } : World) = s.world from rfl, hread]
      rw [← htx]
      rfl
    · simp only [httpExec, htx, hin, Bool.false_eq_true, if_false, Option.map_none, ite_self, hread]

/-- The call writes nothing in the transaction. -/
def Call.sparesTx (c : Call) : Prop := c.op.writes = [] ∨ c.inTx = false

/-- The repositories of these tables write on the pool. -/
theorem within_sparesTx {α : Type} (p : Prog α) (ts : List Tbl) (hp : Within ts p)
    (hts : ts ⊆ [.rules, .auditEvents, .evaluations]) : Proc.Uses Call.sparesTx p := by
  refine Proc.uses_mono (fun c hc => ?_) p (within_mono hts p hp)
  rcases c with ⟨tenant, op⟩
  unfold InTables at hc
  unfold Call.sparesTx Call.inTx
  cases op <;> first
    | exact .inl rfl
    | exact .inr (Bool.and_false _)
    | exact absurd (hc (List.mem_cons_self ..)) (by decide)

/-- A program that writes nothing in the transaction, while nothing else has
    been written there. -/
theorem run_onDB_pool {α : Type} (h : HttpHost) (p : Prog α) (hp : Proc.Uses Call.sparesTx p)
    (s : HttpState) (htx : s.tx = none ∨ s.tx = some none) :
    Proc.run (httpExec h) (onDB p) s = ((Proc.run (exec h.host) p s.world).1,
      { s with world := (Proc.run (exec h.host) p s.world).2 }) := by
  induction p generalizing s with
  | ret a => rfl
  | fail e => rfl
  | act c k ih =>
      have hstep : httpExec h (.db c) s = ((exec h.host c s.world).1,
          { s with world := (exec h.host c s.world).2 }) := by
        rcases hp.1 with hread | hpool
        · rw [httpExec_read h c hread s htx, exec_read h.host c hread s.world]
        · rcases htx with htx | htx
          · simp only [httpExec, htx]
          · simp only [httpExec, htx, hpool, Bool.false_eq_true, if_false, Option.map_none,
              ite_self]
      change Proc.run (httpExec h) (onDB (k (httpExec h (.db c) s).1)) (httpExec h (.db c) s).2 = _
      rw [hstep]
      exact ih _ (hp.2 _) _ htx

/-- A program in the transaction leaves the committed database alone and sees
    its own writes. -/
theorem run_onDB_tx {α : Type} (h : HttpHost) (p : Prog α)
    (hp : Proc.Uses (fun c : Call => c.inTx = true) p) (s : HttpState) (view : Option Store)
    (htx : s.tx = some view) (w : World)
    (hw : w = { s.world with store := view.getD s.world.store }) :
    ∃ view', Proc.run (httpExec h) (onDB p) s = ((Proc.run (exec h.host) p w).1,
        { s with
          world := { (Proc.run (exec h.host) p w).2 with store := s.world.store }
          tx := some view' }) ∧
      view'.getD s.world.store = (Proc.run (exec h.host) p w).2.store := by
  induction p generalizing s view w with
  | ret a =>
      refine ⟨view, ?_, by rw [hw]; rfl⟩
      rw [hw, ← htx]
      rfl
  | fail e =>
      refine ⟨view, ?_, by rw [hw]; rfl⟩
      rw [hw, ← htx]
      rfl
  | act c k ih =>
      have hstep : httpExec h (.db c) s = ((exec h.host c w).1, { s with
          world := { (exec h.host c w).2 with store := s.world.store }
          tx := some (if c.op.writes = [] then view else some (exec h.host c w).2.store) }) := by
        simp only [httpExec, htx, hp.1, if_true, hw]
      -- A read leaves the view alone; a write makes the store it produced the new view.
      have hview : (if c.op.writes = [] then view else some (exec h.host c w).2.store).getD
          s.world.store = (exec h.host c w).2.store := by
        by_cases hread : c.op.writes = []
        · rw [if_pos hread, exec_read h.host c hread w, hw]
          rfl
        · rw [if_neg hread]
          rfl
      rcases ih _ (hp.2 (exec h.host c w).1) { s with
          world := { (exec h.host c w).2 with store := s.world.store }
          tx := some (if c.op.writes = [] then view else some (exec h.host c w).2.store) } _ rfl
          (exec h.host c w).2 (by rw [hview]) with ⟨view', hrun, hview'⟩
      refine ⟨view', ?_, hview'⟩
      change Proc.run (httpExec h) (onDB (k (httpExec h (.db c) s).1)) (httpExec h (.db c) s).2 = _
      rw [hstep]
      exact hrun

/-- The answer to an error; a panic is none. -/
def answerOf : Err → Except Err Response
  | .panic => .error .panic
  | e => .ok (writeError e)

theorem answerOf_status (e : Err) (resp : Response) (hresp : answerOf e = .ok resp) :
    400 ≤ resp.status := by
  cases e with
  | panic => exact (nomatch hresp)
  | _ =>
      rw [← Except.ok.inj hresp]
      exact writeError_status _

theorem run_orWriteError {α : Type} (h : HttpHost) (p : HttpProg α) (k : α → HttpProg Response)
    (s : HttpState) :
    Proc.run (httpExec h) (orWriteError p k) s =
      match Proc.run (httpExec h) p s with
      | (.ok a, s') => Proc.run (httpExec h) (k a) s'
      | (.error e, s') => (answerOf e, s') := by
  rw [orWriteError, Proc.run_bind, Proc.run_attempt]
  rcases Proc.run (httpExec h) p s with ⟨r, s'⟩
  cases r with
  | ok a => rfl
  | error e => cases e <;> rfl

/-- A program of a service that answers lets its handler go on. -/
theorem run_orWriteError_ok {α : Type} (h : HttpHost) (p : Prog α)
    (hp : Proc.Uses Call.sparesTx p) (k : α → HttpProg Response) (s : HttpState)
    (htx : s.tx = none ∨ s.tx = some none) (a : α) (w : World)
    (hrun : Proc.run (exec h.host) p s.world = (.ok a, w)) :
    Proc.run (httpExec h) (orWriteError (onDB p) k) s =
      Proc.run (httpExec h) (k a) { s with world := w } := by
  rw [run_orWriteError, run_onDB_pool h p hp s htx, hrun]

/-! ## What the middleware does

Postconditions of requests. Each rule asks for what happens when the step
succeeds; a refusal has to be allowed at every point, so that is one
assumption for all of them. -/

/-- The project a slug names. -/
def Store.projectAt (s : Store) (slug : String) : Option Project :=
  s.projects.find? (fun p => p.slug == slug)

/-- The environment of a project a slug names. -/
def Store.environmentAt (s : Store) (projectID slug : String) : Option Environment :=
  s.environments.find? (fun e => e.projectID == projectID && e.slug == slug)

/-- The flag of a project a key names. -/
def Store.flagAt (s : Store) (projectID key : String) : Option Flag :=
  s.flags.find? (fun f => f.projectID == projectID && f.key == key)

/-- The transaction is open and has written nothing. -/
def Quiet (st : Store) (s : HttpState) : Prop := s.world.store = st ∧ s.tx = some none

/-- The postcondition accepts an error, whatever it is. -/
structure AllowsRefusal (Q : Except Err Response → HttpState → Prop) : Prop where
  panic : ∀ s, Q (.error .panic) s
  error : ∀ e s, Q (.ok (writeError e)) s
  text : ∀ s, Q (.ok ⟨500, .text "internal server error"⟩) s

/-- The postcondition holds once the transaction has been committed or rolled
    back, as the answer asks. -/
def Closing (h : HttpHost) (Q : Except Err Response → HttpState → Prop) :
    Except Err Response → HttpState → Prop
  | .error e, s => Q (.error e) s
  | .ok resp, s =>
      if resp.status ≥ 400 then Q (.ok resp) (httpExec h .rollback s).2
      else Q (.ok resp) (httpExec h .commit s).2

section Specifications

variable (h : HttpHost) {Q : Except Err Response → HttpState → Prop}

/-- A read whose failure is caught answers from the committed database. -/
theorem ends_read_attempt (c : Call) (hc : c.op.writes = [])
    (k : Except Err c.Ret → HttpProg Response)
    (s : HttpState) (htx : s.tx = none ∨ s.tx = some none)
    (hfail : ∀ e s', Proc.Ends (httpExec h) Q (k (.error e)) s')
    (hok : ∀ a, c.op.perform h.host ⟨c.tenant, h.host.rls⟩ s.world = .ok (a, s.world) →
      Proc.Ends (httpExec h) Q (k (.ok a)) { s with world := s.world.tick }) :
    Proc.Ends (httpExec h) Q ((Proc.call (HttpOp.db c)).attempt >>= k) s := by
  refine Proc.ends_attempt _ _ s (fun r s' hrun => ?_)
  cases r with
  | error e => exact hfail e s'
  | ok a =>
      rw [Proc.run_call, httpExec_read h c hc s htx, Prod.mk.injEq] at hrun
      rw [← hrun.2]
      refine hok a ?_
      rcases exec_ok h.host c s.world _ a (Prod.ext hrun.1 rfl) with ⟨w', hp, _⟩
      rw [c.op.perform_read h.host _ s.world w' a hc hp] at hp
      exact hp

/-- Opening the transaction of a tenant. -/
theorem ends_beginTx (k : Except Err Unit → HttpProg Response) (s : HttpState)
    (hfail : ∀ e s', Proc.Ends (httpExec h) Q (k (.error e)) s')
    (hok : Proc.Ends (httpExec h) Q (k (.ok ()))
      { s with world := s.world.tick, tx := some none }) :
    Proc.Ends (httpExec h) Q ((Proc.call HttpOp.beginTx).attempt >>= k) s := by
  refine Proc.ends_attempt _ _ s (fun r s' hrun => ?_)
  rw [Proc.run_call] at hrun
  simp only [httpExec, HttpState.manage] at hrun
  split at hrun
  · rw [Prod.mk.injEq] at hrun
    rw [← hrun.1]
    exact hfail _ s'
  · rw [Prod.mk.injEq] at hrun
    rw [← hrun.1, ← hrun.2]
    exact hok

/-- Setting the tenant on the connection of the transaction. -/
theorem ends_setTenantContext (id : String) (k : Except Err Unit → HttpProg Response)
    (s : HttpState) (hfail : ∀ e s', Proc.Ends (httpExec h) Q (k (.error e)) s')
    (hok : Proc.Ends (httpExec h) Q (k (.ok ())) { s with world := s.world.tick }) :
    Proc.Ends (httpExec h) Q ((Proc.call (HttpOp.setTenantContext id)).attempt >>= k) s := by
  refine Proc.ends_attempt _ _ s (fun r s' hrun => ?_)
  rw [Proc.run_call] at hrun
  simp only [httpExec, HttpState.manage] at hrun
  split at hrun
  · rw [Prod.mk.injEq] at hrun
    rw [← hrun.1]
    exact hfail _ s'
  · rw [Prod.mk.injEq] at hrun
    rw [← hrun.1, ← hrun.2]
    exact hok

variable (hQ : AllowsRefusal Q)
include hQ

theorem ends_orWriteError {α : Type} (p : HttpProg α) (k : α → HttpProg Response) (s : HttpState)
    (hok : ∀ a s', Proc.run (httpExec h) p s = (.ok a, s') → Proc.Ends (httpExec h) Q (k a) s') :
    Proc.Ends (httpExec h) Q (orWriteError p k) s := by
  refine Proc.ends_attempt _ _ s (fun r s' hrun => ?_)
  cases r with
  | ok a => exact hok a s' hrun
  | error e =>
      cases e with
      | panic => exact hQ.panic s'
      | _ => exact hQ.error _ s'

/-- A lookup finds a row of the committed database or ends the request. -/
theorem ends_lookup (c : Call) (hc : c.op.writes = []) (k : c.Ret → HttpProg Response)
    (s : HttpState) (htx : s.tx = none ∨ s.tx = some none)
    (hok : ∀ a, c.op.perform h.host ⟨c.tenant, h.host.rls⟩ s.world = .ok (a, s.world) →
      Proc.Ends (httpExec h) Q (k a) { s with world := s.world.tick }) :
    Proc.Ends (httpExec h) Q (orWriteError (Proc.call (HttpOp.db c)) k) s := by
  refine ends_read_attempt h c hc _ s htx (fun e s' => ?_) hok
  cases e with
  | panic => exact hQ.panic s'
  | _ => exact hQ.error _ s'

/-- The handler runs in a fresh transaction of the project the path names,
    which is then closed. -/
theorem ends_tenantRLS (slug : String) (hslug : slug ≠ "")
    (next : Option String → HttpProg Response) (s : HttpState) (htx : s.tx = none)
    (hnext : ∀ proj, s.world.store.projectAt slug = some proj →
      Proc.Ends (httpExec h) (Closing h Q) (next (some proj.id))
        { s with world := s.world.tick.tick.tick, tx := some none }) :
    Proc.Ends (httpExec h) Q (tenantRLS slug next) s := by
  unfold tenantRLS
  rw [if_neg hslug]
  refine ends_lookup h hQ _ rfl _ s (.inl htx) (fun proj hp => ?_)
  have hproj : s.world.store.projectAt slug = some proj := (World.onStore_queryRow _ _ _ _ hp).1
  refine ends_beginTx h _ _ (fun _ s' => hQ.text s') ?_
  refine ends_setTenantContext h _ _ _ (fun _ s' => hQ.text _) ?_
  refine Proc.ends_seq _ _ _ (hnext proj hproj) (fun _ _ hdone => hdone)
    (fun resp s' hdone => ?_)
  -- The status decides how the transaction ends.
  by_cases hbad : resp.status ≥ 400
  · simp only [Closing, if_pos hbad] at hdone
    simp only [if_pos hbad]
    exact hdone
  · simp only [Closing, if_neg hbad] at hdone
    simp only [if_neg hbad]
    refine Proc.ends_attempt _ _ s' (fun r s'' hrun => ?_)
    rw [Proc.run_call] at hrun
    rw [hrun] at hdone
    exact hdone

end Specifications

theorem onDB_bind {α β : Type} (x : Prog α) (f : α → Prog β) :
    onDB (x >>= f) = onDB x >>= fun a => onDB (f a) :=
  Proc.lift_bind _ _ x f

theorem onDB_attempt {α : Type} (x : Prog α) : onDB x.attempt = (onDB x).attempt :=
  Proc.lift_attempt _ _ x

/-- One operation of a service, as the server performs it. -/
theorem onDB_call (ctx : Ctx) (op : Op) :
    onDB (ctx.call op) = Proc.call (HttpOp.db ⟨ctx.tenant, op⟩) := by
  refine congrArg (Proc.act (HttpOp.db ⟨ctx.tenant, op⟩)) (funext (fun r => ?_))
  exact Proc.lift_ofExcept _ _ r

/-- A connection set up for a project sees all of its rows, so the policy
    selects none of them away. -/
theorem sees_own (rls : Bool) (projectID id : String) :
    (Conn.sees ⟨some projectID, rls⟩ id && id == projectID) = (id == projectID) := by
  by_cases hid : id = projectID
  · simp [Conn.sees, hid]
  · rw [beq_eq_false_iff_ne.mpr hid, Bool.and_false]

end Cuttlegate
