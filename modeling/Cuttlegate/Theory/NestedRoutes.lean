import Cuttlegate.Adapters.Handlers
import Cuttlegate.Lib.Rows

/-!
# Routes below a Path

What a request that names a row by its id, below the path of a project and an
environment, changes when it succeeds.

The handlers act on the row by its id alone, so nothing keeps the row inside
the path. The main result says when it is there all the same: exactly when the
rows that the id selects, as far as the request changes them, belong to the
path. A stored rule is selected by the canonical spelling of its id. A key is
selected while it is not revoked and the connection of the tenant sees it, and
the change is lost when the transaction cannot be committed.

A request is followed from the middleware to the commit. `Succeeds` is the
postcondition used on the way: it speaks of successful answers only, so the
many ways to fail need no treatment of their own.

## Main definitions

* `Rule.below`: The rule belongs to a path.
* `InsidePath`: Every row that changed belongs to the path.
* `NestedRequest.Named`: The selected rows belong to the path.
* `Succeeds`: Postconditions on successful answers.
* `NestedRequest.Effect`, `NestedRequest.Committed`: What a request does.

## Theorems

* `RuleService.update_effect` and the other effects of the services.
* `succeeds_tenantRLS`, `succeeds_resolveContext`: Middleware and lookups.
* `NestedRequest.serve_succeeds`: What a successful request has done.
* `nested_routes_inside_iff`: When its changes stay inside the path.
* `nested_routes_foreign_rule`: A rule of another project, deleted.
-/

namespace Cuttlegate

/-! ## Paths -/

/-- The rule belongs to the project, environment and flag of a path. -/
def Rule.below (r : Rule) (s : Store) (projSlug envSlug flagKey : String) : Prop :=
  ∃ proj env flag, s.projectAt projSlug = some proj ∧ s.environmentAt proj.id envSlug = some env ∧
    s.flagAt proj.id flagKey = some flag ∧ r.flagID = flag.id ∧ r.environmentID = env.id

/-- The rules a request may change. -/
def NestedRequest.ownsRule (req : NestedRequest) (s : Store) (r : Rule) : Prop :=
  match req.route with
  | .updateRule flagKey _ _ => r.below s req.projSlug req.envSlug flagKey
  | .deleteRule flagKey _ => r.below s req.projSlug req.envSlug flagKey
  | _ => False

/-- The keys a request may change. -/
def NestedRequest.ownsKey (req : NestedRequest) (s : Store) (k : APIKey) : Prop :=
  match req.route with
  | .revokeKey _ => k.below s req.projSlug req.envSlug
  | .updateKeyTier _ _ => k.below s req.projSlug req.envSlug
  | _ => False

/-- Every row that changed belongs to the path. Users belong to no project. -/
structure InsidePath (req : NestedRequest) (s s' : Store) : Prop where
  rules : ∀ r, ¬ req.ownsRule s r → (r ∈ s'.rules ↔ r ∈ s.rules)
  apiKeys : ∀ k, ¬ req.ownsKey s k → (k ∈ s'.apiKeys ↔ k ∈ s.apiKeys)
  projects : s'.projects = s.projects
  members : s'.members = s.members
  environments : s'.environments = s.environments
  flags : s'.flags = s.flags
  states : s'.states = s.states
  segments : s'.segments = s.segments
  segmentMembers : s'.segmentMembers = s.segmentMembers
  auditEvents : s'.auditEvents = s.auditEvents

/-- The stored rows the request names by its id, as far as it changes them,
    belong to the path. -/
def NestedRequest.Named (req : NestedRequest) (h : HttpHost) (s : Store) : Prop :=
  match req.route with
  | .updateRule _ ruleID body => ∀ r ∈ s.rules, h.host.uuid ruleID = some r.id →
      ∀ b, body.bind RuleBody.decode = some b →
        r.overwrite (b.toRule ruleID r.flagID r.environmentID) ≠ r → req.ownsRule s r
  | .deleteRule _ ruleID => ∀ r ∈ s.rules, h.host.uuid ruleID = some r.id → req.ownsRule s r
  | .revokeKey keyID => h.commits = true → ∀ proj, s.projectAt req.projSlug = some proj →
      ∀ k ∈ s.apiKeys, Conn.isLiveKeyRow ⟨some proj.id, h.host.rls⟩ keyID k = true →
        req.ownsKey s k
  | .updateKeyTier keyID body => h.commits = true → ∀ proj, s.projectAt req.projSlug = some proj →
      ∀ text, body.bind decodeTierBody = some text →
      ∀ k ∈ s.apiKeys, Conn.isLiveKeyRow ⟨some proj.id, h.host.rls⟩ keyID k = true →
        k.capabilityTier ≠ .ofText text → req.ownsKey s k

/-! ## What the services do -/

section Services

variable (h : Host) (ctx : Ctx) (w w' : World)

theorem RuleService.update_effect (rule r : Rule)
    (hrun : Proc.run (exec h) (RuleService.update ctx rule) w = (.ok r, w')) :
    ∃ t, upsertRule h.uuid rule w.store = .ok (t, w'.store) := by
  have hends : Proc.Ends (exec h) (fun res w' => ∀ r, res = .ok r →
      ∃ t, upsertRule h.uuid rule w.store = .ok (t, w'.store)) (RuleService.update ctx rule) w := by
    refine ends_require ctx _ _ w (fun _ _ hr => nomatch hr) (fun _ _ _ => ?_)
    refine ends_check _ _ w (fun _ _ _ hr => nomatch hr) (fun _ _ => ?_)
    refine ends_read ctx _ rfl _ w (fun _ _ hr => nomatch hr) (fun existing _ => ?_)
    refine ends_check _ _ _ (fun _ _ _ hr => nomatch hr) (fun _ _ => ?_)
    refine ends_call ctx _ _ _ (fun _ _ hr => nomatch hr) (fun t w₁ hp _ _ => ?_)
    rcases w.tick.onStore_ok w₁ _ t hp with ⟨s', hs, rfl⟩
    exact ⟨t, hs⟩
  exact Proc.ends_run _ w w' _ hends hrun r rfl

theorem RuleService.delete_effect (id : String)
    (hrun : Proc.run (exec h) (RuleService.delete ctx id) w = (.ok (), w')) :
    deleteRule h.uuid id w.store = .ok ((), w'.store) := by
  have hends : Proc.Ends (exec h) (fun res w' => res = .ok () →
      deleteRule h.uuid id w.store = .ok ((), w'.store)) (RuleService.delete ctx id) w := by
    refine ends_require ctx _ _ w (fun _ hr => nomatch hr) (fun _ _ _ => ?_)
    refine ends_last ctx (.deleteRule id) w (fun _ hr => nomatch hr) (fun u w₁ hp _ => ?_)
    rcases w.onStore_ok w₁ _ u hp with ⟨s', hs, rfl⟩
    exact hs
  exact Proc.ends_run _ w w' _ hends hrun rfl

theorem APIKeyService.revoke_effect (id : String)
    (hrun : Proc.run (exec h) (APIKeyService.revoke ctx id) w = (.ok (), w')) :
    ∃ now, revokeAPIKey ⟨ctx.tenant, h.rls⟩ now id w.store = .ok ((), w'.store) := by
  have hends : Proc.Ends (exec h) (fun res w' => res = .ok () →
      ∃ now, revokeAPIKey ⟨ctx.tenant, h.rls⟩ now id w.store = .ok ((), w'.store))
      (APIKeyService.revoke ctx id) w := by
    refine ends_require ctx _ _ w (fun _ hr => nomatch hr) (fun _ _ _ => ?_)
    refine ends_last ctx (.revokeAPIKey id) w (fun _ hr => nomatch hr) (fun u w₁ hp _ => ?_)
    rcases w.onStore_ok w₁ _ u hp with ⟨s', hs, rfl⟩
    exact ⟨_, hs⟩
  exact Proc.ends_run _ w w' _ hends hrun rfl

theorem APIKeyService.updateCapabilityTier_effect (id : String) (tier : ToolCapabilityTier)
    (view : APIKeyView)
    (hrun : Proc.run (exec h) (APIKeyService.updateCapabilityTier ctx id tier) w = (.ok view, w')) :
    updateAPIKeyTier ⟨ctx.tenant, h.rls⟩ id tier w.store = .ok ((), w'.store) := by
  have hends : Proc.Ends (exec h) (fun res w' => ∀ view, res = .ok view →
      updateAPIKeyTier ⟨ctx.tenant, h.rls⟩ id tier w.store = .ok ((), w'.store))
      (APIKeyService.updateCapabilityTier ctx id tier) w := by
    refine ends_require ctx _ _ w (fun _ _ hr => nomatch hr) (fun _ _ _ => ?_)
    refine ends_check _ _ w (fun _ _ _ hr => nomatch hr) (fun _ _ => ?_)
    refine ends_read ctx _ rfl _ w (fun _ _ hr => nomatch hr) (fun key _ => ?_)
    refine ends_check _ _ _ (fun _ _ _ hr => nomatch hr) (fun _ _ => ?_)
    refine ends_call ctx _ _ _ (fun _ _ hr => nomatch hr) (fun u w₁ hp _ _ => ?_)
    rcases w.tick.onStore_ok w₁ _ u hp with ⟨s', hs, rfl⟩
    exact hs
  exact Proc.ends_run _ w w' _ hends hrun view rfl

end Services

/-! ## What a successful request does -/

/-- A postcondition on successful answers only. -/
def Succeeds (E : HttpState → Prop) (r : Except Err Response) (s : HttpState) : Prop :=
  ∀ resp, r = .ok resp → resp.status < 400 → E s

theorem succeeds_ok {E : HttpState → Prop} (resp : Response) (s : HttpState)
    (hE : resp.status < 400 → E s) : Succeeds E (.ok resp) s := by
  intro resp' hresp hstatus
  rw [← Except.ok.inj hresp] at hstatus
  exact hE hstatus

/-- A refusal is no success. -/
theorem succeeds_refusal (E : HttpState → Prop) : AllowsRefusal (Succeeds E) where
  panic := fun _ _ hresp => nomatch hresp
  error := by
    intro e s
    refine succeeds_ok _ s (fun hstatus => ?_)
    have hlow := writeError_status e
    omega
  text := fun s => succeeds_ok _ s (fun hstatus => absurd hstatus (by decide))

section Requests

variable (h : HttpHost) {E : HttpState → Prop}

/-- A successful request ran its handler and tried to commit. -/
theorem succeeds_tenantRLS (slug : String) (hslug : slug ≠ "")
    (next : Option String → HttpProg Response) (st : Store) (s : HttpState)
    (hst : s.world.store = st) (htx : s.tx = none)
    (hnext : ∀ proj s', st.projectAt slug = some proj → Quiet st s' →
      Proc.Ends (httpExec h) (Succeeds (fun s'' => E (httpExec h .commit s'').2))
        (next (some proj.id)) s') :
    Proc.Ends (httpExec h) (Succeeds E) (tenantRLS slug next) s := by
  refine ends_tenantRLS h (succeeds_refusal _) slug hslug next s htx (fun proj hproj => ?_)
  rw [hst] at hproj
  refine Proc.ends_mono _ _ (hnext proj _ hproj ⟨hst, rfl⟩) (fun r s'' hdone => ?_)
  cases r with
  | error e => exact fun _ hresp => nomatch hresp
  | ok resp =>
      by_cases hbad : resp.status ≥ 400
      · simp only [Closing, if_pos hbad]
        exact succeeds_ok resp _ (fun hstatus => absurd hbad (Nat.not_le.mpr hstatus))
      · simp only [Closing, if_neg hbad]
        exact succeeds_ok resp _ (hdone resp rfl)

theorem succeeds_resolveContext (ac : AuthContext) (proj : Project) (st : Store)
    (projSlug flagKey envSlug : String) (hproj : st.projectAt projSlug = some proj)
    (k : Flag → Environment → HttpProg Response) (s : HttpState) (hs : Quiet st s)
    (hk : ∀ flag env s', st.environmentAt proj.id envSlug = some env →
      st.flagAt proj.id flagKey = some flag → Quiet st s' →
      Proc.Ends (httpExec h) (Succeeds E) (k flag env) s') :
    Proc.Ends (httpExec h) (Succeeds E)
      (RuleHandler.resolveContext ⟨some ac, some proj.id⟩ projSlug flagKey envSlug k) s := by
  refine ends_resolvePath h (succeeds_refusal _) ac proj st projSlug envSlug hproj _ s hs
    (fun env s' henv hs' => ?_)
  unfold FlagService.getByKey
  rw [onDB_call]
  refine ends_lookup h (succeeds_refusal _) _ rfl _ s' (.inr hs'.2)
    (fun flag hp => hk flag env _ henv ?_ hs')
  have hfound := (World.onStore_queryRow _ _ _ _ hp).1
  rw [hs'.1] at hfound
  simp only [sees_own] at hfound
  exact hfound

end Requests

/-- What the handler of a request does to the database it sees, when it
    succeeds. -/
def NestedRequest.Effect (req : NestedRequest) (h : HttpHost) (proj : Project) (st st' : Store) :
    Prop :=
  match req.route with
  | .updateRule flagKey ruleID body => ∃ flag env b t,
      st.environmentAt proj.id req.envSlug = some env ∧ st.flagAt proj.id flagKey = some flag ∧
      body.bind RuleBody.decode = some b ∧
      upsertRule h.host.uuid (b.toRule ruleID flag.id env.id) st = .ok (t, st')
  | .deleteRule _ ruleID => deleteRule h.host.uuid ruleID st = .ok ((), st')
  | .revokeKey keyID => ∃ now,
      revokeAPIKey ⟨some proj.id, h.host.rls⟩ now keyID st = .ok ((), st')
  | .updateKeyTier keyID body => ∃ text, body.bind decodeTierBody = some text ∧
      updateAPIKeyTier ⟨some proj.id, h.host.rls⟩ keyID (.ofText text) st = .ok ((), st')

/-- The database after the request: what was written on the pool is there, and
    what was written in the transaction if it could be committed. -/
def NestedRequest.Committed (req : NestedRequest) (h : HttpHost) (proj : Project)
    (st st' : Store) : Prop :=
  ∃ written, req.Effect h proj st written ∧
    match req.route with
    | .updateRule _ _ _ => st' = written
    | .deleteRule _ _ => st' = written
    | .revokeKey _ => st' = if h.commits then written else st
    | .updateKeyTier _ _ => st' = if h.commits then written else st

/-- Keys are read and written in the transaction of the tenant. -/
theorem APIKeyService.revoke_tenant (auth : Option AuthContext) (projectID id : String) :
    Proc.Uses (fun c : Call => c.inTx = true) (APIKeyService.revoke ⟨auth, some projectID⟩ id) := by
  refine Proc.uses_bind _ _ (Proc.uses_ofExcept _) (fun _ => ?_)
  exact (Proc.uses_call (⟨some projectID, .revokeAPIKey id⟩ : Call)).mpr rfl

theorem APIKeyService.updateCapabilityTier_tenant (auth : Option AuthContext)
    (projectID id : String) (tier : ToolCapabilityTier) :
    Proc.Uses (fun c : Call => c.inTx = true)
      (APIKeyService.updateCapabilityTier ⟨auth, some projectID⟩ id tier) := by
  refine Proc.uses_bind _ _ (Proc.uses_ofExcept _) (fun _ => ?_)
  refine Proc.uses_bind _ _ (Proc.uses_ofExcept _) (fun _ => ?_)
  refine Proc.uses_bind _ _ ?_ (fun _ => ?_)
  · exact (Proc.uses_call (⟨some projectID, .apiKeyByID id⟩ : Call)).mpr rfl
  · refine Proc.uses_bind _ _ (Proc.uses_ofExcept _) (fun _ => ?_)
    refine Proc.uses_bind _ _ ?_ (fun _ => Proc.uses_ret _)
    exact (Proc.uses_call (⟨some projectID, .updateAPIKeyTier id tier⟩ : Call)).mpr rfl

/-- The last step of a handler that works on the pool: what the service did is
    there for good, whether the transaction is committed or not. -/
theorem succeeds_pool {α : Type} (h : HttpHost) (p : Prog α) (k : α → HttpProg Response)
    (hp : Proc.Uses Call.sparesTx p) (st : Store) (F : Store → Prop)
    (s : HttpState) (hs : Quiet st s) (hk : ∀ a, ∃ resp, k a = Proc.ret resp)
    (hF : ∀ a w', Proc.run (exec h.host) p s.world = (.ok a, w') → F w'.store) :
    Proc.Ends (httpExec h) (Succeeds (fun s' => F (httpExec h .commit s').2.world.store))
      (orWriteError (onDB p) k) s := by
  refine ends_orWriteError h (succeeds_refusal _) _ _ s (fun a s' hrun => ?_)
  rcases hk a with ⟨resp, hresp⟩
  rw [hresp]
  refine succeeds_ok resp s' (fun _ => ?_)
  rw [run_onDB_pool h p hp s (.inr hs.2), Prod.mk.injEq] at hrun
  have hcommit : (httpExec h .commit s').2.world.store
      = (Proc.run (exec h.host) p s.world).2.store := by
    rw [← hrun.2]
    simp only [httpExec, hs.2]
    split
    · rfl
    · rfl
  rw [hcommit]
  exact hF a _ (Prod.ext hrun.1 rfl)

/-- The last step of a handler that works in the transaction: what the service
    did is there if the transaction is committed. -/
theorem succeeds_tx {α : Type} (h : HttpHost) (p : Prog α) (k : α → HttpProg Response)
    (hp : Proc.Uses (fun c : Call => c.inTx = true) p) (st : Store) (F : Store → Prop)
    (s : HttpState) (hs : Quiet st s) (hk : ∀ a, ∃ resp, k a = Proc.ret resp)
    (hF : ∀ a w', Proc.run (exec h.host) p s.world = (.ok a, w') →
      F (if h.commits then w'.store else st)) :
    Proc.Ends (httpExec h) (Succeeds (fun s' => F (httpExec h .commit s').2.world.store))
      (orWriteError (onDB p) k) s := by
  refine ends_orWriteError h (succeeds_refusal _) _ _ s (fun a s' hrun => ?_)
  rcases hk a with ⟨resp, hresp⟩
  rw [hresp]
  refine succeeds_ok resp s' (fun _ => ?_)
  rcases run_onDB_tx h p hp s none hs.2 s.world rfl with ⟨view, hp', hview⟩
  rw [hp', Prod.mk.injEq] at hrun
  -- The commit makes the transaction's view the store, or fails and leaves it.
  have hcommit : (httpExec h .commit s').2.world.store
      = if h.commits then (Proc.run (exec h.host) p s.world).2.store else st := by
    rw [← hrun.2]
    simp only [httpExec, Option.getD_some]
    split
    · exact hview
    · exact hs.1
  rw [hcommit]
  exact hF a _ (Prod.ext hrun.1 rfl)

/-- What a handler does that is given the context of the path's project. -/
theorem NestedRequest.handler_succeeds (h : HttpHost) (req : NestedRequest) (ac : AuthContext)
    (proj : Project) (st : Store) (hproj : st.projectAt req.projSlug = some proj) (s : HttpState)
    (hs : Quiet st s) :
    Proc.Ends (httpExec h)
      (Succeeds (fun s' => req.Committed h proj st (httpExec h .commit s').2.world.store))
      (req.handler ⟨some ac, some proj.id⟩) s := by
  unfold NestedRequest.handler
  -- The two rule routes resolve the path and then write on the pool; the two key routes
  -- write in the transaction by the id alone.
  cases hroute : req.route with
  | updateRule flagKey ruleID body =>
      refine succeeds_resolveContext h ac proj st _ flagKey _ hproj _ s hs
        (fun flag env s₁ henv hflag hs₁ => ?_)
      cases hbody : body.bind RuleBody.decode with
      | none => exact (succeeds_refusal _).error _ s₁
      | some b =>
          refine succeeds_pool h _ _
            (within_sparesTx _ _ (RuleService.update_within _ _) (by simp)) st
            (req.Committed h proj st) s₁ hs₁ (fun r => ⟨_, rfl⟩) (fun r w' hrun => ?_)
          rcases RuleService.update_effect h.host _ _ w' _ r hrun with ⟨t, ht⟩
          rw [hs₁.1] at ht
          simp only [NestedRequest.Committed, NestedRequest.Effect, hroute]
          exact ⟨w'.store, ⟨flag, env, b, t, henv, hflag, hbody, ht⟩, rfl⟩
  | deleteRule flagKey ruleID =>
      refine succeeds_resolveContext h ac proj st _ flagKey _ hproj _ s hs
        (fun flag env s₁ henv hflag hs₁ => ?_)
      refine succeeds_pool h _ _
        (within_sparesTx _ _ (RuleService.delete_within _ _) (by simp)) st
        (req.Committed h proj st) s₁ hs₁ (fun r => ⟨_, rfl⟩) (fun r w' hrun => ?_)
      have heffect := RuleService.delete_effect h.host _ _ w' ruleID hrun
      rw [hs₁.1] at heffect
      simp only [NestedRequest.Committed, NestedRequest.Effect, hroute]
      exact ⟨w'.store, heffect, rfl⟩
  | revokeKey keyID =>
      refine succeeds_tx h _ _ (APIKeyService.revoke_tenant _ _ _) st (req.Committed h proj st) s hs
        (fun r => ⟨_, rfl⟩) (fun r w' hrun => ?_)
      rcases APIKeyService.revoke_effect h.host _ _ w' keyID hrun with ⟨now, heffect⟩
      rw [hs.1] at heffect
      simp only [NestedRequest.Committed, NestedRequest.Effect, hroute]
      exact ⟨w'.store, ⟨now, heffect⟩, rfl⟩
  | updateKeyTier keyID body =>
      simp only [APIKeyHandler.updateTier]
      cases hbody : body.bind decodeTierBody with
      | none => exact (succeeds_refusal _).error _ s
      | some text =>
          by_cases hvalid : (ToolCapabilityTier.ofText text).valid = false
          · simp only [if_pos hvalid]
            exact succeeds_ok _ s (fun hstatus => absurd hstatus (by decide))
          · simp only [if_neg hvalid]
            refine succeeds_tx h _ _ (APIKeyService.updateCapabilityTier_tenant _ _ _ _) st
              (req.Committed h proj st) s hs (fun r => ⟨_, rfl⟩) (fun r w' hrun => ?_)
            have heffect := APIKeyService.updateCapabilityTier_effect h.host _ _ w' keyID _ r hrun
            rw [hs.1] at heffect
            simp only [NestedRequest.Committed, NestedRequest.Effect, hroute]
            exact ⟨w'.store, ⟨text, hbody, heffect⟩, rfl⟩

/-- What a successful request has done to the database. The profile of the
    caller is stored before anything else. -/
theorem NestedRequest.serve_succeeds (h : HttpHost) (req : NestedRequest) (s : HttpState)
    (htx : s.tx = none) :
    Proc.Ends (httpExec h) (Succeeds (fun s' => ∃ proj users,
        s.world.store.projectAt req.projSlug = some proj ∧
        req.Committed h proj { s.world.store with users := users } s'.world.store))
      (req.serve h) s := by
  unfold NestedRequest.serve requireBearer
  cases bearerToken req.authorization with
  | none => exact succeeds_ok _ s (fun hstatus => absurd hstatus (by decide))
  | some token =>
      dsimp only
      cases h.verify token with
      | error e =>
          refine succeeds_ok _ s (fun hstatus => ?_)
          cases e with
          | missingRoleClaim => exact absurd hstatus (by decide)
          | invalid => exact absurd hstatus (by decide)
      | ok caller =>
          refine Proc.ends_attempt _ _ s (fun r s₁ hrun => ?_)
          -- Before the tenant's transaction the caller's profile is upserted, which touches
          -- users only.
          have hprofile : ∃ users, s₁.world.store = { s.world.store with users := users } ∧
              s₁.tx = none := by
            rw [Proc.run_call] at hrun
            simp only [httpExec, htx, Prod.mk.injEq] at hrun
            rw [← hrun.2]
            rcases exec_cases h.host ⟨none, .upsertUser caller.1⟩ s.world with
              ⟨e, he⟩ | ⟨u, w', hp, he⟩
            · rw [he]
              exact ⟨s.world.store.users, rfl, rfl⟩
            · rcases s.world.onStore_ok w' _ u hp with ⟨st, hst, rfl⟩
              rcases upsertUser_ok caller.1 _ _ _ hst with ⟨users, rfl⟩
              rw [he]
              exact ⟨users, rfl, rfl⟩
          rcases hprofile with ⟨users, hst, htx₁⟩
          refine succeeds_tenantRLS h req.projSlug req.projSlug_ne _ _ s₁ hst htx₁
            (fun proj s₂ hproj hs₂ => ?_)
          refine Proc.ends_mono _ s₂ (req.handler_succeeds h _ proj _ hproj s₂ hs₂) ?_
          intro r s₃ hdone resp hresp hstatus
          exact ⟨proj, users, hproj, hdone resp hresp hstatus⟩

/-! ## When the changes stay inside the path -/

section Inside

variable (h : HttpHost) (req : NestedRequest) (st : Store)

theorem insidePath_refl : InsidePath req st st :=
  ⟨fun _ _ => Iff.rfl, fun _ _ => Iff.rfl, rfl, rfl, rfl, rfl, rfl, rfl, rfl, rfl⟩

/-- A change of rules only. -/
theorem insidePath_rules (rules : List Rule) :
    InsidePath req st { st with rules := rules } ↔
      ∀ r, ¬ req.ownsRule st r → (r ∈ rules ↔ r ∈ st.rules) :=
  ⟨fun hin => hin.rules,
    fun hin => ⟨hin, fun _ _ => Iff.rfl, rfl, rfl, rfl, rfl, rfl, rfl, rfl, rfl⟩⟩

/-- A change of keys only. -/
theorem insidePath_apiKeys (keys : List APIKey) :
    InsidePath req st { st with apiKeys := keys } ↔
      ∀ k, ¬ req.ownsKey st k → (k ∈ keys ↔ k ∈ st.apiKeys) :=
  ⟨fun hin => hin.apiKeys,
    fun hin => ⟨fun _ _ => Iff.rfl, hin, rfl, rfl, rfl, rfl, rfl, rfl, rfl, rfl⟩⟩

/-- What is the path's stays the path's when an upsert writes over it. -/
theorem NestedRequest.ownsRule_overwrite (r new : Rule) :
    req.ownsRule st (r.overwrite new) ↔ req.ownsRule st r := by
  unfold NestedRequest.ownsRule Rule.below Rule.overwrite
  exact Iff.rfl

/-- The flag and environment of the new contents play no part in it. -/
theorem RuleBody.overwrite_eq (b : RuleBody) (r : Rule) (id flagID environmentID : String) :
    r.overwrite (b.toRule id flagID environmentID)
      = r.overwrite (b.toRule id r.flagID r.environmentID) := rfl

theorem upsertRule_inside_iff (flagKey ruleID : String) (body : Option Json) (proj : Project)
    (flag : Flag) (env : Environment) (b : RuleBody) (st' : Store) (t : Time)
    (hroute : req.route = .updateRule flagKey ruleID body)
    (hproj : st.projectAt req.projSlug = some proj)
    (henv : st.environmentAt proj.id req.envSlug = some env)
    (hflag : st.flagAt proj.id flagKey = some flag)
    (hbody : body.bind RuleBody.decode = some b)
    (hupsert : upsertRule h.host.uuid (b.toRule ruleID flag.id env.id) st = .ok (t, st')) :
    InsidePath req st st' ↔ req.Named h st := by
  have hnamed : req.Named h st ↔ ∀ r ∈ st.rules, h.host.uuid ruleID = some r.id →
      r.overwrite (b.toRule ruleID r.flagID r.environmentID) ≠ r → req.ownsRule st r := by
    simp only [NestedRequest.Named, hroute, hbody, Option.some.injEq, forall_eq']
  rcases upsertRule_ok _ _ _ _ _ hupsert with ⟨id, hid, _, hdone⟩
  have huuid : h.host.uuid ruleID = some id := hid
  simp only [huuid, Option.some.injEq] at hnamed
  rw [hnamed]
  rcases hdone with ⟨_, rfl⟩ | ⟨hnone, _, rfl⟩
  · rw [insidePath_rules]
    have hframe := Rows.update_foreign_iff st.rules (fun r => r.id == id)
      (fun r => r.overwrite (b.toRule ruleID flag.id env.id)) (req.ownsRule st) (fun _ => rfl)
      (fun r => req.ownsRule_overwrite st r _)
    simp only [beq_iff_eq] at hframe
    rw [hframe]
    exact forall₂_congr (fun r _ => by rw [RuleBody.overwrite_eq, eq_comm])
  · rw [insidePath_rules]
    -- The rule is new, and it is the path's.
    have hnew : req.ownsRule st { b.toRule ruleID flag.id env.id with id := id } := by
      simp only [NestedRequest.ownsRule, hroute]
      exact ⟨proj, env, flag, hproj, henv, hflag, rfl, rfl⟩
    constructor
    · intro _ r hr hrid
      exact absurd hrid.symm (hnone r hr)
    · intro _ r hforeign
      rw [List.mem_append, List.mem_singleton]
      refine ⟨fun hr => ?_, .inl⟩
      rcases hr with hr | hr
      · exact hr
      · rw [hr] at hforeign
        exact absurd hnew hforeign

theorem deleteRule_inside_iff (flagKey ruleID : String) (st' : Store)
    (hroute : req.route = .deleteRule flagKey ruleID)
    (hdelete : deleteRule h.host.uuid ruleID st = .ok ((), st')) :
    InsidePath req st st' ↔ req.Named h st := by
  rcases deleteRule_ok _ _ _ _ _ hdelete with ⟨id, hid, _, rfl⟩
  simp only [insidePath_rules, NestedRequest.Named, hroute, hid, Option.some.injEq]
  have hframe := Rows.delete_foreign_iff st.rules (fun r => r.id == id) (req.ownsRule st)
  simp only [beq_iff_eq] at hframe
  refine Iff.trans hframe (forall₂_congr (fun r _ => ?_))
  rw [eq_comm]

/-- Both statements on keys rewrite the rows they select. -/
theorem updateKeys_inside_iff (proj : Project) (keyID : String) (f : APIKey → APIKey)
    (hidem : ∀ k, f (f k) = f k) (hown : ∀ k, req.ownsKey st (f k) ↔ req.ownsKey st k) :
    InsidePath req st (if h.commits then
        { st with apiKeys := st.apiKeys.map (fun k =>
          if Conn.isLiveKeyRow ⟨some proj.id, h.host.rls⟩ keyID k then f k else k) } else st) ↔
      (h.commits = true → ∀ k ∈ st.apiKeys,
        Conn.isLiveKeyRow ⟨some proj.id, h.host.rls⟩ keyID k = true → f k ≠ k →
          req.ownsKey st k) := by
  by_cases hcommits : h.commits = true
  · rw [if_pos hcommits, insidePath_apiKeys,
      Rows.update_foreign_iff _ _ f (req.ownsKey st) hidem hown]
    exact ⟨fun hall _ => hall, fun hall => hall hcommits⟩
  · rw [if_neg hcommits]
    exact ⟨fun _ hyes => absurd hyes hcommits, fun _ => insidePath_refl req st⟩

theorem NestedRequest.committed_inside_iff (proj : Project) (st' : Store)
    (hproj : st.projectAt req.projSlug = some proj) (hdone : req.Committed h proj st st') :
    InsidePath req st st' ↔ req.Named h st := by
  rcases hdone with ⟨written, heffect, hst'⟩
  cases hroute : req.route with
  | updateRule flagKey ruleID body =>
      simp only [NestedRequest.Effect, hroute] at heffect hst'
      rcases heffect with ⟨flag, env, b, t, henv, hflag, hbody, hupsert⟩
      rw [hst']
      exact upsertRule_inside_iff h req st flagKey ruleID body proj flag env b written t hroute
        hproj henv hflag hbody hupsert
  | deleteRule flagKey ruleID =>
      simp only [NestedRequest.Effect, hroute] at heffect hst'
      rw [hst']
      exact deleteRule_inside_iff h req st flagKey ruleID written hroute heffect
  | revokeKey keyID =>
      simp only [NestedRequest.Effect, hroute] at heffect hst'
      rcases heffect with ⟨now, heffect⟩
      rcases affect_ok _ _ _ _ _ heffect with ⟨_, hwritten⟩
      rw [hst', hwritten]
      refine Iff.trans (updateKeys_inside_iff h req st proj keyID
        (fun k => { k with revokedAt := some now }) (fun _ => rfl) (fun _ => ?_)) ?_
      · simp only [NestedRequest.ownsKey, hroute, APIKey.below]
      · simp only [NestedRequest.Named, hroute, hproj, Option.some.injEq, forall_eq']
        refine forall_congr' (fun _ => forall₂_congr (fun k _ => forall_congr' (fun hlive => ?_)))
        -- A key that is not revoked is changed by being revoked.
        have hchange : ({ k with revokedAt := some now } : APIKey) ≠ k := by
          intro hsame
          rw [← hsame] at hlive
          simp [Conn.isLiveKeyRow] at hlive
        exact ⟨fun hown => hown hchange, fun hown _ => hown⟩
  | updateKeyTier keyID body =>
      simp only [NestedRequest.Effect, hroute] at heffect hst'
      rcases heffect with ⟨text, hbody, heffect⟩
      rcases affect_ok _ _ _ _ _ heffect with ⟨_, hwritten⟩
      rw [hst', hwritten]
      refine Iff.trans (updateKeys_inside_iff h req st proj keyID
        (fun k => { k with capabilityTier := .ofText text }) (fun _ => rfl) (fun _ => ?_)) ?_
      · simp only [NestedRequest.ownsKey, hroute, APIKey.below]
      · simp only [NestedRequest.Named, hroute, hproj, hbody, Option.some.injEq, forall_eq']
        refine forall_congr' (fun _ => forall₂_congr (fun k _ => forall_congr' (fun _ => ?_)))
        have hsame : ({ k with capabilityTier := .ofText text } : APIKey) = k ↔
            k.capabilityTier = .ofText text := by
          constructor
          · intro heq
            rw [← heq]
          · intro htier
            rw [← htier]
        rw [Ne, hsame]

end Inside

/-- A successful request changes rows of its path only exactly when the rows it
    names by their id are the path's. -/
theorem nested_routes_inside_iff (h : HttpHost) (req : NestedRequest) (s s' : HttpState)
    (resp : Response) (htx : s.tx = none)
    (hrun : Proc.run (httpExec h) (req.serve h) s = (.ok resp, s')) (hstatus : resp.status < 400) :
    InsidePath req s.world.store s'.world.store ↔ req.Named h s.world.store := by
  rcases Proc.ends_run _ s s' _ (req.serve_succeeds h s htx) hrun resp rfl hstatus with
    ⟨proj, users, hproj, hdone⟩
  -- No row of a path depends on the profiles of users.
  have hinside := req.committed_inside_iff h { s.world.store with users := users } proj _ hproj
    hdone
  refine Iff.trans ⟨fun hin => ?_, fun hin => ?_⟩ hinside
  · exact ⟨hin.1, hin.2, hin.3, hin.4, hin.5, hin.6, hin.7, hin.8, hin.9, hin.10⟩
  · exact ⟨hin.1, hin.2, hin.3, hin.4, hin.5, hin.6, hin.7, hin.8, hin.9, hin.10⟩

/-- A server with one editor. -/
def editorHost : HttpHost where
  host := Host.steady
  verify := fun token => if token = "token-u1" then .ok (⟨"u1", "u1@example.com", "Ada"⟩, .editor)
    else .error .invalid
  commits := true
  evalRateLimiter := ⟨600, 60 * second⟩

/-- Two projects with one rule each. -/
def twoProjects : HttpState where
  world := { store := {
    projects := [⟨"p1", "Shop", "shop", 0⟩, ⟨"p2", "Blog", "blog", 0⟩]
    environments := [⟨"e1", "p1", "Production", "prod", 0⟩, ⟨"e2", "p2", "Production", "prod", 0⟩]
    flags := [darkMode, { darkMode with id := "f2", projectID := "p2" }]
    rules := [{ darkModePaying with id := sampleUUID 1 },
      { darkModePaying with id := sampleUUID 2, flagID := "f2", environmentID := "e2" }] } }
  tx := none
  windows := fun _ => none

/-- A request to delete a rule by its id, below the path of the first project. -/
def deleteBelowShop (ruleID : String) : NestedRequest where
  authorization := "Bearer token-u1"
  projSlug := "shop"
  projSlug_ne := shop_ne_empty
  envSlug := "prod"
  route := .deleteRule "dark-mode" ruleID

/-- The rule of the first project is the path's. -/
theorem nested_routes_inside_shop :
    InsidePath (deleteBelowShop (sampleUUID 1)) twoProjects.world.store
      (Proc.run (httpExec editorHost) ((deleteBelowShop (sampleUUID 1)).serve editorHost)
        twoProjects).2.world.store := by
  have hrun : Proc.run (httpExec editorHost)
      ((deleteBelowShop (sampleUUID 1)).serve editorHost) twoProjects =
      (.ok ⟨204, .empty⟩, (Proc.run (httpExec editorHost)
        ((deleteBelowShop (sampleUUID 1)).serve editorHost) twoProjects).2) :=
    Prod.ext (by decide +kernel) rfl
  refine (nested_routes_inside_iff editorHost _ twoProjects _ _ rfl hrun (by decide)).mpr ?_
  intro r hr hid
  rcases List.mem_pair.mp hr with rfl | rfl
  · exact ⟨_, _, _, rfl, rfl, rfl, rfl, rfl⟩
  · exact absurd hid (by decide +kernel)

/-- The rule of the second project is deleted all the same. -/
theorem nested_routes_foreign_rule :
    ∃ (h : HttpHost) (req : NestedRequest) (s s' : HttpState) (resp : Response),
      s.tx = none ∧ Proc.run (httpExec h) (req.serve h) s = (.ok resp, s') ∧ resp.status < 400 ∧
      ¬ InsidePath req s.world.store s'.world.store := by
  refine ⟨editorHost, deleteBelowShop (sampleUUID 2), twoProjects, _, ⟨204, .empty⟩, rfl,
    Prod.ext (by decide +kernel) rfl, by decide, fun hinside => ?_⟩
  have hforeign : ¬ (deleteBelowShop (sampleUUID 2)).ownsRule twoProjects.world.store
      { darkModePaying with id := sampleUUID 2, flagID := "f2", environmentID := "e2" } := by
    rintro ⟨proj, env, flag, hproj, henv, hflag, hid, _⟩
    rw [← Option.some.inj hproj] at hflag
    rw [← Option.some.inj hflag] at hid
    exact absurd hid (by decide)
  have hstill := (hinside.rules _ hforeign).mpr (by decide +kernel)
  exact absurd hstill (by decide +kernel)

end Cuttlegate
