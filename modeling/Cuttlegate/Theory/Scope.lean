import Cuttlegate.Theory.Agreement

/-!
# The Scope of a Key

What a request gets that is authenticated with an API key.

A key is scoped to a project and an environment. The handlers of evaluations
compare the path they have resolved with the scope, and refuse any other. The
handler of the stream makes no such comparison; what keeps it confined is that
the writer it is given cannot flush, so that nothing is ever streamed.

The second half of the result is about two runs on databases that agree on the
project and the environment. What is evaluated is the same in both. But all keys
share one window of the limiter, which counts requests of other projects' keys
too, so a request that gets a result in one run may be turned away in the
other. `HttpHost.KeyPasses` says when it passes, and nothing else tells the two
runs apart.

## Main definitions

* `HttpMatched`, `Similar`: Two runs of a request.
* `HttpHost.KeyPasses`: The limiter lets a request with a key pass.
* `KeyRequest.Presents`: Authentication with a key.
* `resultOf`, `Confined`, `Limits`: The results of a request.
* `KeyRoute.Agrees`: Two requests that agree on the events of an environment.

## Theorems

* `KeyRequest.serve_ends`: A request, up to its handler.
* `KeyRequest.serve_confined`: Results are for the scope of the key.
* `KeyRequest.serve_limits`: Results are for requests that pass the limiter.
* `KeyRequest.serve_similar`: Two runs of a request.
* `SSEHandler.streamLoop_filter`: A stream forwards events of its environment.
* `key_scope_confinement`: What two runs have in common.
* `key_window_shared`: In general not everything.
-/

namespace Cuttlegate

/-! ## Two runs of a request -/

/-- Two states on the way of two requests. The limiter may have counted
    differently. -/
structure HttpMatched (s₀ t₀ s t : HttpState) : Prop where
  world : Matched s₀.world t₀.world s.world t.world
  tx : t.tx = s.tx
  idle : s.tx = none ∨ s.tx = some none

/-- The answer to a request that did not pass the limiter. -/
def limited (h : HttpHost) : Response :=
  ⟨429, .tooManyRequests (h.evalRateLimiter.windowSize / second)⟩

/-- The same outcome, unless one of the requests did not pass the limiter. -/
def Similar (h : HttpHost) (r r' : Except Err Response) (_ _ : HttpState) : Prop :=
  r = r' ∨ r = .ok (limited h) ∨ r' = .ok (limited h)

section Requests

variable (h : HttpHost) {s₀ t₀ : HttpState}

theorem Matched.tick (w₀ v₀ w v : World) (hm : Matched w₀ v₀ w v) :
    Matched w₀ v₀ w.tick v.tick :=
  ⟨congrArg (· + 1) hm.calls, fun t ht => World.same_tick w₀ w t (hm.left t ht),
    fun t ht => World.same_tick v₀ v t (hm.right t ht)⟩

/-- A service that spares the transaction runs alike in two requests. -/
theorem pairs_onDB {α : Type} (p : Prog α) (hp : Proc.Uses Call.sparesTx p)
    (hrep : Repeats h.host s₀.world t₀.world p) (s t : HttpState)
    (hm : HttpMatched s₀ t₀ s t) :
    Proc.Pairs (httpExec h) (Proc.Alike (HttpMatched s₀ t₀)) (onDB p) s t := by
  have hidle : t.tx = none ∨ t.tx = some none := by
    rw [hm.tx]
    exact hm.idle
  unfold Proc.Pairs
  rw [run_onDB_pool h p hp s hm.idle, run_onDB_pool h p hp t hidle]
  rcases hrep s.world t.world hm.world with ⟨hans, hworld⟩
  exact ⟨hans, hworld, hm.tx, hm.idle⟩

/-- A statement of the management of the transaction fails in both runs or in
    none. -/
theorem HttpMatched.manage (s t s' t' : HttpState) (hm : HttpMatched s₀ t₀ s t)
    (hm' : HttpMatched s₀ t₀ s' t') :
    (s.manage h s').1 = (t.manage h t').1 ∧
      HttpMatched s₀ t₀ (s.manage h s').2 (t.manage h t').2 := by
  unfold HttpState.manage
  rw [hm.world.calls]
  by_cases hfails : h.host.fails s.world.calls = true
  · rw [if_pos hfails, if_pos hfails]
    exact ⟨rfl, hm.world.tick, hm.tx, hm.idle⟩
  · rw [if_neg hfails, if_neg hfails]
    exact ⟨rfl, hm'.world.tick, hm'.tx, hm'.idle⟩

/-- A lookup that would find the same row in both runs. -/
theorem pairs_lookup {Q : Except Err Response → Except Err Response → HttpState → HttpState → Prop}
    (ctx : Ctx) (op : Op) (hop : op.writes = []) (f : Store → Option op.Ret) (a : op.Ret)
    (hperform : ∀ w, op.perform h.host ⟨ctx.tenant, h.host.rls⟩ w = w.onStore (queryRow f))
    (hleft : ∀ w, Unchanged s₀.world w → f w.store = some a)
    (hright : ∀ v, Unchanged t₀.world v → f v.store = some a)
    (k : Except Err op.Ret → HttpProg Response) (s t : HttpState)
    (hm : HttpMatched s₀ t₀ s t)
    (hfail : ∀ e s' t', HttpMatched s₀ t₀ s' t' →
      Proc.Pairs (httpExec h) Q (k (.error e)) s' t')
    (hok : ∀ s' t', HttpMatched s₀ t₀ s' t' → Proc.Pairs (httpExec h) Q (k (.ok a)) s' t') :
    Proc.Pairs (httpExec h) Q ((onDB (ctx.call op)).attempt >>= k) s t := by
  have hrep : Repeats h.host s₀.world t₀.world (ctx.call op) := by
    refine repeats_stmt h.host ctx op hop (fun _ => queryRow f) hperform (fun w v hm' _ => ?_)
    refine queryRow_congr f ?_
    rw [hleft w hm'.left, hright v hm'.right]
  have hspares : Proc.Uses Call.sparesTx (ctx.call op) :=
    (Proc.uses_call (⟨ctx.tenant, op⟩ : Call)).mpr (.inl hop)
  refine Proc.pairs_attempt_bind _ _ s t (pairs_onDB h _ hspares hrep s t hm) ?_
  intro r s' t' hrun hm'
  cases r with
  | error e => exact hfail e s' t' hm'
  | ok b =>
      -- What was found is the row.
      have hb : b = a := by
        rw [onDB_call, Proc.run_call, httpExec_read h _ hop s hm.idle, Prod.mk.injEq] at hrun
        rcases exec_ok h.host ⟨ctx.tenant, op⟩ s.world _ b (Prod.ext hrun.1 rfl) with ⟨w', hp, _⟩
        rw [hperform] at hp
        have hfound := (World.onStore_queryRow _ _ _ _ hp).1
        rw [hleft s.world hm.world.left] at hfound
        exact (Option.some.inj hfound).symm
      rw [hb]
      exact hok s' t' hm'

theorem similar_refl (r : Except Err Response) (s t : HttpState) : Similar h r r s t :=
  .inl rfl

theorem pairs_orWriteError {α : Type} (p : HttpProg α) (k : α → HttpProg Response)
    (s t : HttpState)
    (hp : Proc.Pairs (httpExec h) (Proc.Alike (HttpMatched s₀ t₀)) p s t)
    (hk : ∀ a s' t', HttpMatched s₀ t₀ s' t' →
      Proc.Pairs (httpExec h) (Similar h) (k a) s' t') :
    Proc.Pairs (httpExec h) (Similar h) (orWriteError p k) s t := by
  refine Proc.pairs_attempt_bind _ _ s t hp (fun r s' t' _ hm => ?_)
  cases r with
  | ok a => exact hk a s' t' hm
  | error e =>
      cases e with
      | panic => exact similar_refl h _ s' t'
      | _ => exact similar_refl h _ s' t'

/-- Closing the transaction does not change the answer. -/
theorem run_closing (p : HttpProg Response) (s : HttpState) :
    (Proc.run (httpExec h) (p >>= fun resp =>
      if resp.status ≥ 400 then do
        Proc.call HttpOp.rollback
        return resp
      else do
        let _ ← (Proc.call HttpOp.commit).attempt
        return resp) s).1 = (Proc.run (httpExec h) p s).1 := by
  rw [Proc.run_bind]
  rcases Proc.run (httpExec h) p s with ⟨r, s'⟩
  cases r with
  | error e => rfl
  | ok resp =>
      by_cases hbad : resp.status ≥ 400
      · simp only [if_pos hbad]
        rfl
      · simp only [if_neg hbad]
        rw [Proc.run_bind, Proc.run_attempt]
        rfl

/-- The handler runs alike when the path names the same project. -/
theorem pairs_tenantRLS (slug : String) (hslug : slug ≠ "")
    (next : Option String → HttpProg Response) (proj : Project) (s t : HttpState)
    (hm : HttpMatched s₀ t₀ s t)
    (hleft : s₀.world.store.projectAt slug = some proj)
    (hright : t₀.world.store.projectAt slug = some proj)
    (hnext : ∀ s' t', HttpMatched s₀ t₀ s' t' →
      Proc.Pairs (httpExec h) (Similar h) (next (some proj.id)) s' t') :
    Proc.Pairs (httpExec h) (Similar h) (tenantRLS slug next) s t := by
  -- The slug names the same project in both stores, and still does when it is looked up.
  have hfind : ∀ (w₀ w : World), Unchanged w₀ w → w₀.store.projectAt slug = some proj →
      w.store.projects.find? (fun p => p.slug == slug) = some proj := by
    intro w₀ w hw hproj
    rw [hw .projects (by decide)]
    exact hproj
  unfold tenantRLS orWriteError
  rw [if_neg hslug, ← onDB_call ⟨none, none⟩]
  refine pairs_lookup h ⟨none, none⟩ (.projectBySlug slug) rfl _ proj (fun _ => rfl)
    (fun w hw => hfind _ w hw hleft) (fun v hv => hfind _ v hv hright) _ s t hm ?_ ?_
  · intro e s' t' _
    cases e with
    | panic => exact similar_refl h _ s' t'
    | _ => exact similar_refl h _ s' t'
  intro s₁ t₁ hm₁
  -- Opening the transaction and setting its project fail on both sides or on neither.
  have hopen : HttpMatched s₀ t₀ { s₁ with tx := some none } { t₁ with tx := some none } :=
    ⟨hm₁.world, rfl, .inr rfl⟩
  have hbegin := hm₁.manage h _ _ _ _ hopen
  refine Proc.pairs_attempt_bind _ _ s₁ t₁ (Proc.pairs_call _ s₁ t₁ hbegin.1 hbegin.2) ?_
  intro r s₂ t₂ _ hm₂
  cases r with
  | error e => exact similar_refl h _ s₂ t₂
  | ok _ =>
      have hset := hm₂.manage h _ _ _ _ hm₂
      refine Proc.pairs_attempt_bind _ _ s₂ t₂ (Proc.pairs_call _ s₂ t₂ hset.1 hset.2) ?_
      intro r s₃ t₃ _ hm₃
      cases r with
      | error e => exact similar_refl h _ _ _
      | ok _ =>
          have hdone := hnext s₃ t₃ hm₃
          unfold Proc.Pairs Similar at hdone ⊢
          -- Commit or rollback answers nothing of its own, so the answers are the
          -- handlers'.
          rw [run_closing, run_closing]
          exact hdone

/-- The state after the limiter was asked about the user that stands for
    keys. -/
def afterLimit (h : HttpHost) (s : HttpState) : HttpState :=
  { s with
    world := s.world.tick
    windows := (h.evalRateLimiter.allow (h.host.now s.world.calls) "api-key" s.windows).2 }

theorem run_limit (role : Role) (next : HttpProg Response) (s : HttpState) :
    Proc.run (httpExec h) (limit h ⟨"api-key", role⟩ next) s =
      if (h.evalRateLimiter.allow (h.host.now s.world.calls) "api-key" s.windows).1 = false then
        (.ok (limited h), afterLimit h s)
      else Proc.run (httpExec h) next (afterLimit h s) := by
  unfold limit
  rw [if_neg (show ("api-key" : String) ≠ "" by decide), Proc.run_bind, Proc.run_call]
  simp only [httpExec]
  split
  · rfl
  · rfl

/-- A request passes the limiter in both runs, or one of them does not. -/
theorem pairs_limit (role : Role) (next : HttpProg Response) (s t : HttpState)
    (hm : HttpMatched s₀ t₀ s t)
    (hnext : ∀ s' t', HttpMatched s₀ t₀ s' t' →
      Proc.Pairs (httpExec h) (Similar h) next s' t') :
    Proc.Pairs (httpExec h) (Similar h) (limit h ⟨"api-key", role⟩ next) s t := by
  have hgo := hnext (afterLimit h s) (afterLimit h t) ⟨hm.world.tick, hm.tx, hm.idle⟩
  unfold Proc.Pairs at hgo ⊢
  rw [run_limit, run_limit]
  by_cases hs : (h.evalRateLimiter.allow (h.host.now s.world.calls) "api-key" s.windows).1 = false
  · rw [if_pos hs]
    exact .inr (.inl rfl)
  · rw [if_neg hs]
    by_cases ht : (h.evalRateLimiter.allow (h.host.now t.world.calls) "api-key" t.windows).1 = false
    · rw [if_pos ht]
      exact .inr (.inr rfl)
    · rw [if_neg ht]
      exact hgo

end Requests

/-! ## Keys and paths -/

/-- The request is authenticated with the key. -/
def KeyRequest.Presents (req : KeyRequest) (h : HttpHost) (s : Store) (k : APIKey) : Prop :=
  ∃ token, bearerToken req.authorization = some token ∧
    "cg_".toList.isPrefixOf token.toList = true ∧ k.revoked = false ∧
    s.apiKeys.find? (fun k => Conn.sees ⟨none, h.host.rls⟩ k.projectID &&
      k.keyHash == h.host.sha256 token) = some k

section Agreement

variable {uuid : String → Option String} (k : APIKey) (s t : Store)
  (hagree : AgreeOn uuid k.projectID k.environmentID s t) (ht : t.Keyed)
include hagree ht

omit ht in
/-- Agreement goes both ways. -/
theorem AgreeOn.symm : AgreeOn uuid k.projectID k.environmentID t s := by
  refine ⟨hagree.projects.symm, hagree.environments.symm, hagree.flags.symm, hagree.states.symm,
    hagree.rules.symm, hagree.segments.symm, fun g hg hproj id hid => ?_, hagree.apiKeys.symm⟩
  have hrow : g ∈ t.segments.filter (fun g => g.projectID == k.projectID) :=
    List.mem_filter.mpr ⟨hg, by simp [hproj]⟩
  rw [hagree.segments] at hrow
  exact (hagree.segmentMembers g (List.mem_filter.mp hrow).1 hproj id hid).symm

/-- A key that is found in one of the databases is found in the other. -/
theorem findKey_congr (conn : Conn) (hash : KeyHash)
    (hfind : s.apiKeys.find? (fun k => conn.sees k.projectID && k.keyHash == hash) = some k) :
    t.apiKeys.find? (fun k => conn.sees k.projectID && k.keyHash == hash) = some k := by
  have hgood := List.find?_some hfind
  refine (Rows.find_unique_iff _ t.apiKeys (fun j hj j' hj' hhash hhash' => ?_) k).mpr ⟨?_, hgood⟩
  · simp only [Bool.and_eq_true, beq_iff_eq] at hhash hhash'
    exact ht.apiKeys j hj j' hj' (hhash.2.trans hhash'.2.symm)
  · have hrow : k ∈ s.apiKeys.filter (fun j =>
        j.projectID == k.projectID && j.environmentID == k.environmentID) :=
      List.mem_filter.mpr ⟨List.mem_of_find?_eq_some hfind, by simp⟩
    rw [← hagree.apiKeys] at hrow
    exact (List.mem_filter.mp hrow).1

/-- A path that leads to the key's project and environment in one of the
    databases does so in the other, to the same rows. -/
theorem path_congr (projSlug envSlug : String) (proj : Project) (env : Environment)
    (hproj : s.projectAt projSlug = some proj)
    (henv : s.environmentAt proj.id envSlug = some env) (hp : k.projectID = proj.id)
    (he : k.environmentID = env.id) :
    t.projectAt projSlug = some proj ∧ t.environmentAt proj.id envSlug = some env := by
  -- The rows in scope are the same in both stores, and slugs are unique in each.
  constructor
  · refine (Rows.find_unique_iff _ t.projects (fun p hp q hq hslug hslug' => ?_) proj).mpr
      ⟨?_, @List.find?_some _ (fun p : Project => p.slug == projSlug) _ _ hproj⟩
    · simp only [beq_iff_eq] at hslug hslug'
      exact ht.projects p hp q hq (hslug.trans hslug'.symm)
    · have hrow : proj ∈ s.projects.filter (fun p => p.id == k.projectID) :=
        List.mem_filter.mpr ⟨List.mem_of_find?_eq_some hproj, by simp [hp]⟩
      rw [← hagree.projects] at hrow
      exact (List.mem_filter.mp hrow).1
  · refine (Rows.find_unique_iff _ t.environments (fun d hd e he' hslug hslug' => ?_) env).mpr
      ⟨?_, @List.find?_some _ (fun e : Environment => e.projectID == proj.id && e.slug == envSlug)
        _ _ henv⟩
    · simp only [Bool.and_eq_true, beq_iff_eq] at hslug hslug'
      exact ht.environments d hd e he' (hslug.1.trans hslug'.1.symm) (hslug.2.trans hslug'.2.symm)
    · have hrow : env ∈ s.environments.filter (fun e => e.id == k.environmentID) :=
        List.mem_filter.mpr ⟨List.mem_of_find?_eq_some henv, by simp [he]⟩
      rw [← hagree.environments] at hrow
      exact (List.mem_filter.mp hrow).1

end Agreement

/-! ## Results -/

/-- The bodies that carry results of an evaluation or events. -/
def Body.isResult : Body → Bool
  | .evaluation _ | .evaluations _ _ | .stream _ => true
  | _ => false

/-- The results a request was answered with. -/
def resultOf : Except Err Response → Option Body
  | .ok resp => if resp.body.isResult then some resp.body else none
  | .error _ => none

/-- A request gets results only under a condition. -/
def Confined (G : Prop) (r : Except Err Response) : Prop := resultOf r ≠ none → G

/-- Whether a request with a key passes the limiter. It is asked after four
    statements: the lookups of the key and of the project, and the two that open
    the transaction. -/
def HttpHost.KeyPasses (h : HttpHost) (s : HttpState) : Prop :=
  (h.evalRateLimiter.allow (h.host.now (s.world.calls + 4)) "api-key" s.windows).1 = true

/-- A request gets results only when it passes the limiter, and is turned away
    by it only when it does not. -/
def Limits (h : HttpHost) (s : HttpState) (r : Except Err Response) : Prop :=
  (resultOf r ≠ none → h.KeyPasses s) ∧ (r = .ok (limited h) → ¬ h.KeyPasses s)

/-- The answer accepts an error, whatever it is. -/
def AcceptsRefusal (Q : Except Err Response → Prop) : Prop := AllowsRefusal (fun r _ => Q r)

theorem confined_refusal (G : Prop) : AcceptsRefusal (Confined G) where
  panic := fun _ hresult => absurd rfl hresult
  error := by
    intro e s hresult
    cases e <;> exact absurd rfl hresult
  text := fun _ hresult => absurd rfl hresult

theorem limits_refusal (h : HttpHost) (s : HttpState) : AcceptsRefusal (Limits h s) where
  panic := fun _ => ⟨fun hresult => absurd rfl hresult, fun hlimited => nomatch hlimited⟩
  error := by
    intro e s'
    refine ⟨fun hresult => ?_, fun hlimited => ?_⟩
    · cases e <;> exact absurd rfl hresult
    · cases e <;> exact (nomatch hlimited)
  text := fun _ => ⟨fun hresult => absurd rfl hresult, fun hlimited => nomatch hlimited⟩

/-- Closing the transaction does not touch the answer. -/
theorem closing_answer (h : HttpHost) (Q : Except Err Response → Prop) (r : Except Err Response)
    (s : HttpState) (hr : Q r) : Closing h (fun r _ => Q r) r s := by
  cases r with
  | error e => exact hr
  | ok resp =>
      by_cases hbad : resp.status ≥ 400
      · simp only [Closing, if_pos hbad]
        exact hr
      · simp only [Closing, if_neg hbad]
        exact hr

/-- The handler of a route, behind authentication and the transaction. -/
def KeyRequest.handle (h : HttpHost) (w : Writer) (req : KeyRequest) (ac : AuthContext)
    (scope : Option APIKeyScope) (tenant : Option String) : HttpProg Response :=
  match req.route with
  | .evaluate flagKey body => limit h ac
      (EvaluationHandler.evaluate h.host.sortSlice ⟨some ac, tenant⟩ scope req.projSlug
        req.envSlug flagKey body)
  | .evaluateAll body => limit h ac
      (EvaluationHandler.evaluateAll h.host.sortSlice ⟨some ac, tenant⟩ scope req.projSlug
        req.envSlug body)
  | .stream subscribed inputs =>
      SSEHandler.stream ⟨some ac, tenant⟩ (statusRecorder (responseWriter w)) req.projSlug
        req.envSlug subscribed inputs

theorem KeyRequest.serve_eq (h : HttpHost) (w : Writer) (req : KeyRequest) :
    req.serve h w = requireBearerOrAPIKey h req.authorization (fun ac scope =>
      tenantRLS req.projSlug (req.handle h w ac scope)) := rfl

theorem authenticate_sparesTx (h : HttpHost) (token : String) :
    Proc.Uses Call.sparesTx (APIKeyService.authenticate h.host.sha256 ⟨none, none⟩ token) :=
  within_sparesTx _ []
    (within_bind _ _ (APIKeyService.authenticateMCP_within _ _ token) (fun _ => within_ret _))
    (List.nil_subset _)

/-- Authentication is one lookup. -/
theorem authenticate_world (h : Host) (token : String) (w : World) :
    (Proc.run (exec h) (APIKeyService.authenticate h.sha256 ⟨none, none⟩ token) w).2 = w.tick := by
  unfold APIKeyService.authenticate APIKeyService.authenticateMCP Ctx.call
  rw [Proc.run_bind, Proc.run_bind, Proc.run_attempt, Proc.run_call]
  have hworld := exec_read h ⟨none, .apiKeyByHash (h.sha256 token)⟩ rfl w
  rcases hexec : exec h ⟨none, .apiKeyByHash (h.sha256 token)⟩ w with ⟨r, w'⟩
  rw [hexec] at hworld
  cases r with
  | error e => exact hworld
  | ok key =>
      -- A revoked key is refused without another statement.
      by_cases hrevoked : key.revoked = true
      · simp only [hrevoked]
        exact hworld
      · simp only [hrevoked]
        exact hworld

/-- A request is turned away by the limiter, or goes on. -/
theorem ends_limit (h : HttpHost) {Q : Except Err Response → HttpState → Prop} (role : Role)
    (next : HttpProg Response) (s : HttpState)
    (hturned : (h.evalRateLimiter.allow (h.host.now s.world.calls) "api-key" s.windows).1 = false →
      Q (.ok (limited h)) (afterLimit h s))
    (hnext : (h.evalRateLimiter.allow (h.host.now s.world.calls) "api-key" s.windows).1 = true →
      Proc.Ends (httpExec h) Q next (afterLimit h s)) :
    Proc.Ends (httpExec h) Q (limit h ⟨"api-key", role⟩ next) s := by
  unfold Proc.Ends at hnext ⊢
  rw [run_limit]
  split
  · rename_i hrefused
    exact hturned hrefused
  · rename_i hallowed
    exact hnext (Bool.not_eq_false _ |>.mp hallowed)

section Answers

variable (h : HttpHost) {Q : Except Err Response → Prop} (hQ : AcceptsRefusal Q)
include hQ

theorem ends_hideMissing (ctx : Ctx) (op : Op) (hop : op.writes = [])
    (k : op.Ret → HttpProg Response) (s : HttpState) (hidle : s.tx = none ∨ s.tx = some none)
    (hok : ∀ a, op.perform h.host ⟨ctx.tenant, h.host.rls⟩ s.world = .ok (a, s.world) →
      Proc.Ends (httpExec h) (fun r _ => Q r) (k a) { s with world := s.world.tick }) :
    Proc.Ends (httpExec h) (fun r _ => Q r)
      (EvaluationHandler.hideMissing (onDB (ctx.call op)) k) s := by
  unfold EvaluationHandler.hideMissing
  rw [onDB_call]
  refine ends_read_attempt h ⟨ctx.tenant, op⟩ hop _ s hidle (fun e s' => ?_) hok
  cases e with
  | notFound => exact hQ.error _ s'
  | _ => exact hQ.error _ s'

/-- Nothing is evaluated for a key whose scope the path does not lead to. -/
theorem ends_resolveEvalRequest (ac : AuthContext) (scope : APIKeyScope) (proj : Project)
    (st : Store) (projSlug envSlug : String) (body : Option Json)
    (hproj : st.projectAt projSlug = some proj)
    (k : Project → Environment → EvalContext → HttpProg Response) (s : HttpState) (hs : Quiet st s)
    (hk : ∀ env evalCtx s', st.environmentAt proj.id envSlug = some env →
      scope.projectID = proj.id → scope.environmentID = env.id →
        Proc.Ends (httpExec h) (fun r _ => Q r) (k proj env evalCtx) s') :
    Proc.Ends (httpExec h) (fun r _ => Q r) (EvaluationHandler.resolveEvalRequest
      ⟨some ac, some proj.id⟩ (some scope) projSlug envSlug body k) s := by
  unfold EvaluationHandler.resolveEvalRequest ProjectService.getBySlug EnvironmentService.getBySlug
  refine ends_hideMissing h hQ _ _ rfl _ s (.inr hs.2) (fun proj' hp => ?_)
  -- The slug of the path named the tenant's project, so the handler finds that one again.
  have hsame : st.projectAt projSlug = some proj' := by
    rw [← hs.1]
    exact (World.onStore_queryRow _ _ _ _ hp).1
  rw [hproj, Option.some.injEq] at hsame
  rw [← hsame]
  refine ends_hideMissing h hQ _ _ rfl _ _ (.inr hs.2) (fun env hp' => ?_)
  have henv : st.environmentAt proj.id envSlug = some env := by
    have hfound := (World.onStore_queryRow _ _ _ _ hp').1
    rw [World.tick_store, hs.1] at hfound
    simp only [sees_own] at hfound
    exact hfound
  have hrefuse : ∀ e, Q (.ok (writeError e)) := fun e => hQ.error e s
  by_cases hallowed : apiKeyScopeAllows (some scope) proj.id env.id = false
  · simp only [if_pos hallowed]
    exact hrefuse .forbidden
  · -- From here on the path is in scope, and the body decides.
    rw [if_neg hallowed]
    rw [Bool.not_eq_false, apiKeyScopeAllows, Bool.and_eq_true, beq_iff_eq, beq_iff_eq] at hallowed
    split
    · exact hrefuse _
    · split
      · exact hrefuse _
      · exact hk env _ _ henv hallowed.1 hallowed.2

/-- A request with a key, up to its handler: it is authenticated, and the
    transaction of the project its path names is open. -/
theorem KeyRequest.serve_ends (w : Writer) (req : KeyRequest) (k : APIKey) (s : HttpState)
    (htx : s.tx = none) (hkey : req.Presents h s.world.store k)
    (hunauthorized : Q (.ok writeUnauthorized))
    (hnext : ∀ proj, s.world.store.projectAt req.projSlug = some proj →
      Proc.Ends (httpExec h) (fun r _ => Q r) (req.handle h w ⟨"api-key", .viewer⟩
        (some ⟨k.projectID, k.environmentID⟩) (some proj.id))
        { s with world := s.world.tick.tick.tick.tick, tx := some none }) :
    Proc.Ends (httpExec h) (fun r _ => Q r) (req.serve h w) s := by
  rcases hkey with ⟨token, htoken, hcg, _, hfind⟩
  rw [KeyRequest.serve_eq]
  unfold requireBearerOrAPIKey
  rw [htoken]
  simp only [if_pos hcg]
  refine Proc.ends_attempt _ _ s (fun r s₁ hrun => ?_)
  rw [run_onDB_pool h _ (authenticate_sparesTx h token) s (.inl htx), Prod.mk.injEq] at hrun
  cases r with
  | error e => exact hunauthorized
  | ok scope =>
      rcases APIKeyService.authenticate_ok h.host _ _ token s.world _ scope
        (Prod.ext hrun.1 rfl) with ⟨key, hfound, _, rfl⟩
      have hsame : key = k := by
        rw [hfind] at hfound
        exact (Option.some.inj hfound).symm
      rw [hsame, ← hrun.2, authenticate_world]
      refine ends_tenantRLS h hQ req.projSlug req.projSlug_ne _ _ htx (fun proj hproj => ?_)
      exact Proc.ends_mono _ _ (hnext proj hproj) (closing_answer h Q)

end Answers

section Confinement

variable (h : HttpHost)

/-- A request with a key gets results only where the path leads to the key's
    project and environment. -/
theorem KeyRequest.serve_confined (w : Writer) (req : KeyRequest) (k : APIKey) (s : HttpState)
    (htx : s.tx = none) (hkey : req.Presents h s.world.store k) :
    resultOf (Proc.run (httpExec h) (req.serve h w) s).1 ≠ none →
      k.below s.world.store req.projSlug req.envSlug := by
  refine req.serve_ends h (confined_refusal (k.below s.world.store req.projSlug req.envSlug)) w k s
    htx hkey (fun hresult => absurd rfl hresult) (fun proj hproj => ?_)
  have hbelow : ∀ env, s.world.store.environmentAt proj.id req.envSlug = some env →
      k.projectID = proj.id → k.environmentID = env.id →
      k.below s.world.store req.projSlug req.envSlug :=
    fun env henv hp he => ⟨proj, env, hproj, henv, hp, he⟩
  unfold KeyRequest.handle
  -- Each evaluation passes the limiter or is refused by it.
  have hlimit : ∀ next s', Proc.Ends (httpExec h) (fun r _ => Confined _ r) next (afterLimit h s') →
      Proc.Ends (httpExec h)
        (fun r _ => Confined (k.below s.world.store req.projSlug req.envSlug) r)
        (limit h ⟨"api-key", .viewer⟩ next) s' :=
    fun next s' hnext => ends_limit h _ _ s' (fun _ hresult => absurd rfl hresult) (fun _ => hnext)
  cases req.route with
  | evaluate flagKey body =>
      refine hlimit _ _ (ends_resolveEvalRequest h (confined_refusal _) _
        ⟨k.projectID, k.environmentID⟩ proj _ _ _ body hproj _ _ ⟨rfl, rfl⟩ ?_)
      exact fun env _ _ henv hp he _ => hbelow env henv hp he
  | evaluateAll body =>
      refine hlimit _ _ (ends_resolveEvalRequest h (confined_refusal _) _
        ⟨k.projectID, k.environmentID⟩ proj _ _ _ body hproj _ _ ⟨rfl, rfl⟩ ?_)
      exact fun env _ _ henv hp he _ => hbelow env henv hp he
  | stream subscribed inputs =>
      -- The writer cannot flush, so the stream is refused.
      refine ends_resolvePath h (confined_refusal _) _ proj _ _ _ hproj _ _ ⟨rfl, rfl⟩
        (fun env s' _ _ => ?_)
      exact fun hresult => absurd rfl hresult

/-- A request with a key gets results only when it passes the limiter, and is
    answered 429 only when it does not. -/
theorem KeyRequest.serve_limits (w : Writer) (req : KeyRequest) (k : APIKey) (s : HttpState)
    (htx : s.tx = none) (hkey : req.Presents h s.world.store k) :
    Limits h s (Proc.run (httpExec h) (req.serve h w) s).1 := by
  refine req.serve_ends h (limits_refusal h s) w k s htx hkey
    ⟨fun hresult => absurd rfl hresult, fun hlimited => nomatch hlimited⟩ (fun proj hproj => ?_)
  unfold KeyRequest.handle
  -- The limiter is asked at the fifth step, and what passes it is not limited afterwards.
  have hlimit : ∀ next, (h.KeyPasses s → Proc.Ends (httpExec h) (fun r _ => Limits h s r) next
      (afterLimit h { s with world := s.world.tick.tick.tick.tick, tx := some none })) →
      Proc.Ends (httpExec h) (fun r _ => Limits h s r) (limit h ⟨"api-key", .viewer⟩ next)
        { s with world := s.world.tick.tick.tick.tick, tx := some none } := by
    refine fun next hnext => ends_limit h _ _ _ (fun hturned => ?_) hnext
    refine ⟨fun hresult => absurd rfl hresult, fun _ hpasses => ?_⟩
    exact Bool.false_ne_true (hturned.symm.trans hpasses)
  -- An evaluation that passed ends with results or a refusal, and neither is a 429.
  have hpassed : ∀ resp : Response, h.KeyPasses s → resp ≠ limited h →
      Limits h s (.ok resp) :=
    fun resp hpasses hne => ⟨fun _ => hpasses, fun hlimited => absurd (Except.ok.inj hlimited) hne⟩
  cases req.route with
  | evaluate flagKey body =>
      refine hlimit _ (fun hpasses => ends_resolveEvalRequest h (limits_refusal h s) _
        ⟨k.projectID, k.environmentID⟩ proj _ _ _ body hproj _ _ ⟨rfl, rfl⟩
        (fun env evalCtx s' _ _ _ => ?_))
      exact ends_orWriteError h (limits_refusal h s) _ _ s'
        (fun view s'' _ => hpassed _ hpasses (fun hsame => nomatch hsame))
  | evaluateAll body =>
      refine hlimit _ (fun hpasses => ends_resolveEvalRequest h (limits_refusal h s) _
        ⟨k.projectID, k.environmentID⟩ proj _ _ _ body hproj _ _ ⟨rfl, rfl⟩
        (fun env evalCtx s' _ _ _ => ?_))
      exact ends_orWriteError h (limits_refusal h s) _ _ s'
        (fun out s'' _ => hpassed _ hpasses (fun hsame => nomatch hsame))
  | stream subscribed inputs =>
      refine ends_resolvePath h (limits_refusal h s) _ proj _ _ _ hproj _ _ ⟨rfl, rfl⟩
        (fun env s' _ _ => ?_)
      exact ⟨fun hresult => absurd rfl hresult, fun hlimited => nomatch hlimited⟩

end Confinement

/-! ## Events -/

/-- Whether an input of a stream concerns an environment: its events do, and
    everything that is no event. -/
def StreamInput.concerns (projSlug envSlug : String) : StreamInput → Bool
  | .event e => e.project == projSlug && e.environment == envSlug
  | _ => true

/-- Two requests to one route, where the events of an environment that are
    published during a stream are the same. -/
def KeyRoute.Agrees (projSlug envSlug : String) : KeyRoute → KeyRoute → Prop
  | .stream subscribed inputs, .stream subscribed' inputs' => subscribed' = subscribed ∧
      inputs'.filter (StreamInput.concerns projSlug envSlug) =
        inputs.filter (StreamInput.concerns projSlug envSlug)
  | route, route' => route' = route

/-- A stream forwards events of its environment only. -/
theorem SSEHandler.streamLoop_filter (projSlug envSlug : String) (inputs : List StreamInput) :
    streamLoop projSlug envSlug (inputs.filter (StreamInput.concerns projSlug envSlug))
      = streamLoop projSlug envSlug inputs := by
  induction inputs with
  | nil => rfl
  | cons input rest ih =>
      cases input with
      | done => rfl
      | closed => rfl
      | tick => exact ih
      | event e =>
          by_cases he : e.project = projSlug ∧ e.environment = envSlug
          · rw [List.filter_cons_of_pos (by simp [StreamInput.concerns, he])]
            unfold streamLoop
            rw [ih]
          · rw [List.filter_cons_of_neg (by simpa [StreamInput.concerns] using he), ih, streamLoop,
              if_pos (not_and_or.mp he)]

section TwoRuns

variable (h : HttpHost) {s₀ t₀ : HttpState}

/-- A key that both databases have authenticates alike. -/
theorem APIKeyService.authenticate_repeats (token : String) (k : APIKey)
    (hleft : s₀.world.store.apiKeys.find? (fun k => Conn.sees ⟨none, h.host.rls⟩ k.projectID &&
      k.keyHash == h.host.sha256 token) = some k)
    (hright : t₀.world.store.apiKeys.find? (fun k => Conn.sees ⟨none, h.host.rls⟩ k.projectID &&
      k.keyHash == h.host.sha256 token) = some k) :
    Repeats h.host s₀.world t₀.world
      (APIKeyService.authenticate h.host.sha256 ⟨none, none⟩ token) := by
  refine repeats_bind _ _ _ (repeats_bind _ _ _ (repeats_attempt _ _ ?_) (fun r => ?_))
    (fun key => repeats_ret _ _)
  · refine repeats_stmt _ _ _ rfl (fun _ => apiKeyByHash ⟨none, h.host.rls⟩ (h.host.sha256 token))
      (fun _ => rfl) (fun w v hm _ => queryRow_congr _ ?_)
    rw [hm.left .apiKeys (by decide), hm.right .apiKeys (by decide), hleft, hright]
  · cases r with
    | error e => exact repeats_fail _ _
    | ok key => exact repeats_bind _ _ _ (repeats_check _ _) (fun _ => repeats_ret _ _)

section Path

variable (proj : Project) (env : Environment) (projSlug envSlug : String)
  (hproj : s₀.world.store.projectAt projSlug = some proj)
  (hproj' : t₀.world.store.projectAt projSlug = some proj)
  (henv : s₀.world.store.environmentAt proj.id envSlug = some env)
  (henv' : t₀.world.store.environmentAt proj.id envSlug = some env)
include hproj hproj' henv henv'

/-- The two lookups of a path that leads to the same rows, whatever is made of
    a failure. -/
theorem pairs_path (ac : AuthContext) (k : Except Err Project → HttpProg Response)
    (k' : Except Err Environment → HttpProg Response) (s t : HttpState)
    (hm : HttpMatched s₀ t₀ s t)
    (hk : k (.ok proj) = ((onDB (EnvironmentService.getBySlug ⟨some ac, some proj.id⟩ proj.id
      envSlug)).attempt >>= k'))
    (hfail : ∀ e s t, Proc.Pairs (httpExec h) (Similar h) (k (.error e)) s t)
    (hfail' : ∀ e s t, Proc.Pairs (httpExec h) (Similar h) (k' (.error e)) s t)
    (hok : ∀ s' t', HttpMatched s₀ t₀ s' t' →
      Proc.Pairs (httpExec h) (Similar h) (k' (.ok env)) s' t') :
    Proc.Pairs (httpExec h) (Similar h)
      ((onDB (ProjectService.getBySlug ⟨some ac, some proj.id⟩ projSlug)).attempt >>= k) s t := by
  refine pairs_lookup h ⟨some ac, some proj.id⟩ (.projectBySlug projSlug) rfl _ proj (fun _ => rfl)
    (fun w hw => ?_) (fun v hv => ?_) k s t hm (fun e s' t' _ => hfail e s' t') ?_
  · rw [hw .projects (by decide)]
    exact hproj
  · rw [hv .projects (by decide)]
    exact hproj'
  -- The environment is looked up under the project found, on the transaction's connection.
  intro s₁ t₁ hm₁
  rw [hk]
  refine pairs_lookup h ⟨some ac, some proj.id⟩ (.environmentBySlug proj.id envSlug) rfl _ env
    (fun _ => rfl) (fun w hw => ?_) (fun v hv => ?_) k' s₁ t₁ hm₁ (fun e s' t' _ => hfail' e s' t')
    hok
  · rw [hw .environments (by decide)]
    simp only [sees_own]
    exact henv
  · rw [hv .environments (by decide)]
    simp only [sees_own]
    exact henv'

theorem pairs_resolveEvalRequest (ac : AuthContext) (scope : Option APIKeyScope)
    (body : Option Json) (k : Project → Environment → EvalContext → HttpProg Response)
    (s t : HttpState) (hm : HttpMatched s₀ t₀ s t)
    (hk : ∀ evalCtx s' t', HttpMatched s₀ t₀ s' t' →
      Proc.Pairs (httpExec h) (Similar h) (k proj env evalCtx) s' t') :
    Proc.Pairs (httpExec h) (Similar h) (EvaluationHandler.resolveEvalRequest
      ⟨some ac, some proj.id⟩ scope projSlug envSlug body k) s t := by
  refine pairs_path h proj env projSlug envSlug hproj hproj' henv henv' ac _ _ s t hm rfl
    (fun e s t => ?_) (fun e s t => ?_) (fun s₁ t₁ hm₁ => ?_)
  · cases e <;> exact similar_refl h _ s t
  · cases e <;> exact similar_refl h _ s t
  · dsimp only
    split
    · exact similar_refl h _ s₁ t₁
    · split
      · exact similar_refl h _ s₁ t₁
      · split
        · exact similar_refl h _ s₁ t₁
        · exact hk _ s₁ t₁ hm₁

theorem pairs_resolvePath (ac : AuthContext) (k : Project → Environment → HttpProg Response)
    (s t : HttpState) (hm : HttpMatched s₀ t₀ s t)
    (hk : ∀ s' t', HttpMatched s₀ t₀ s' t' →
      Proc.Pairs (httpExec h) (Similar h) (k proj env) s' t') :
    Proc.Pairs (httpExec h) (Similar h)
      (resolvePath ⟨some ac, some proj.id⟩ projSlug envSlug k) s t := by
  refine pairs_path h proj env projSlug envSlug hproj hproj' henv henv' ac _ _ s t hm rfl
    (fun e s t => ?_) (fun e s t => ?_) hk
  · cases e <;> exact similar_refl h _ s t
  · cases e <;> exact similar_refl h _ s t

end Path

/-- Two runs of a request with a key whose path leads to the key's project and
    environment. -/
theorem KeyRequest.serve_similar (w : Writer) (req : KeyRequest) (k : APIKey) (s t : HttpState)
    (hs : s.tx = none) (ht : t.tx = none) (hcalls : t.world.calls = s.world.calls)
    (hkey : req.Presents h s.world.store k)
    (hagree : AgreeOn h.host.uuid k.projectID k.environmentID s.world.store t.world.store)
    (hkeyed : t.world.store.Keyed) (hbelow : k.below s.world.store req.projSlug req.envSlug) :
    Proc.Pairs (httpExec h) (Similar h) (req.serve h w) s t := by
  rcases hkey with ⟨token, htoken, hcg, _, hfind⟩
  rcases hbelow with ⟨proj, env, hproj, henv, hp, he⟩
  rcases path_congr k _ _ hagree hkeyed _ _ proj env hproj henv hp he with ⟨hproj', henv'⟩
  have hstart : HttpMatched s t s t := ⟨Matched.start _ _ hcalls, ht.trans hs.symm, .inl hs⟩
  have hauth := APIKeyService.authenticate_repeats h token k hfind
    (findKey_congr k _ _ hagree hkeyed _ _ hfind)
  -- From here on the scope is named by the project and environment of the path.
  rw [hp, he] at hagree
  unfold KeyRequest.serve requireBearerOrAPIKey
  rw [htoken]
  simp only [if_pos hcg]
  refine Proc.pairs_attempt_bind _ _ s t (pairs_onDB h _ (authenticate_sparesTx h token) hauth s t
    hstart) ?_
  intro r s₁ t₁ _ hm₁
  cases r with
  | error e => exact similar_refl h _ s₁ t₁
  | ok scope =>
      refine pairs_tenantRLS h req.projSlug req.projSlug_ne _ proj s₁ t₁ hm₁ hproj hproj' ?_
      intro s₂ t₂ hm₂
      -- Each route resolves the path, checks the scope and then reads within it.
      cases req.route with
      | evaluate flagKey body =>
          refine pairs_limit h _ _ s₂ t₂ hm₂ (fun s₃ t₃ hm₃ => ?_)
          refine pairs_resolveEvalRequest h proj env _ _ hproj hproj' henv henv' _ _ body _
            s₃ t₃ hm₃ (fun evalCtx s₄ t₄ hm₄ => ?_)
          refine pairs_orWriteError h _ _ s₄ t₄ (pairs_onDB h _ ?_ ?_ s₄ t₄ hm₄)
            (fun view s₅ t₅ _ => similar_refl h _ s₅ t₅)
          · exact within_sparesTx _ _ (EvaluationService.evaluate_within _ _ _ _ _ _) (by simp)
          · exact EvaluationService.evaluate_repeats h.host _ hagree _ flagKey evalCtx
      | evaluateAll body =>
          refine pairs_limit h _ _ s₂ t₂ hm₂ (fun s₃ t₃ hm₃ => ?_)
          refine pairs_resolveEvalRequest h proj env _ _ hproj hproj' henv henv' _ _ body _
            s₃ t₃ hm₃ (fun evalCtx s₄ t₄ hm₄ => ?_)
          refine pairs_orWriteError h _ _ s₄ t₄ (pairs_onDB h _ ?_ ?_ s₄ t₄ hm₄)
            (fun out s₅ t₅ _ => similar_refl h _ s₅ t₅)
          · exact within_sparesTx _ _ (EvaluationService.evaluateAll_within _ _ _ _ _) (by simp)
          · exact EvaluationService.evaluateAll_repeats h.host _ hagree _ evalCtx
      | stream subscribed inputs =>
          refine pairs_resolvePath h proj env _ _ hproj hproj' henv henv' _ _ s₂ t₂ hm₂
            (fun s₃ t₃ _ => ?_)
          split
          · exact similar_refl h _ s₃ t₃
          · split
            · exact similar_refl h _ s₃ t₃
            · exact similar_refl h _ s₃ t₃

end TwoRuns

/-- In an environment the path leads to, requests that agree on its events are
    the same to the server. -/
theorem KeyRequest.serve_congr (h : HttpHost) (w : Writer) (req : KeyRequest) (route : KeyRoute)
    (hroute : KeyRoute.Agrees req.projSlug req.envSlug req.route route) :
    KeyRequest.serve h w { req with route := route } = req.serve h w := by
  have hother : route = req.route → KeyRequest.serve h w { req with route := route }
      = req.serve h w := by
    intro hsame
    rw [hsame]
  cases hreq : req.route with
  | evaluate flagKey body =>
      rw [hreq] at hroute hother
      cases route <;> exact hother hroute
  | evaluateAll body =>
      rw [hreq] at hroute hother
      cases route <;> exact hother hroute
  | stream subscribed inputs =>
      rw [hreq] at hroute hother
      cases route with
      | evaluate flagKey body => exact hother hroute
      | evaluateAll body => exact hother hroute
      | stream subscribed' inputs' =>
          -- A stream drops the events of other paths, so inputs that agree on this one
          -- stream alike.
          have hevents : SSEHandler.streamLoop req.projSlug req.envSlug inputs'
              = SSEHandler.streamLoop req.projSlug req.envSlug inputs := by
            rw [← SSEHandler.streamLoop_filter _ _ inputs', hroute.2, SSEHandler.streamLoop_filter]
          simp only [KeyRequest.serve, SSEHandler.stream, hreq, hevents, hroute.1]

/-- A request with a key gets results only where its path leads to the key's
    project and environment. Two runs of it on databases that agree on the project
    and environment, with the same events of theirs, get the same results when the
    limiter lets both pass or neither; and a result of the one is a result of the
    other exactly when the other passes. -/
theorem key_scope_confinement (h : HttpHost) (w : Writer) (req : KeyRequest) (route : KeyRoute)
    (k : APIKey) (s t : HttpState) (hs : s.tx = none) (ht : t.tx = none)
    (hcalls : t.world.calls = s.world.calls) (hkey : req.Presents h s.world.store k)
    (hagree : AgreeOn h.host.uuid k.projectID k.environmentID s.world.store t.world.store)
    (hkeyed : s.world.store.Keyed) (hkeyed' : t.world.store.Keyed)
    (hroute : ∀ proj ∈ s.world.store.projects, proj.id = k.projectID →
      ∀ env ∈ s.world.store.environments, env.id = k.environmentID →
        KeyRoute.Agrees proj.slug env.slug req.route route) :
    (resultOf (Proc.run (httpExec h) (req.serve h w) s).1 ≠ none →
      k.below s.world.store req.projSlug req.envSlug) ∧
    ((h.KeyPasses t ↔ h.KeyPasses s) →
      resultOf (Proc.run (httpExec h) (KeyRequest.serve h w { req with route := route }) t).1
        = resultOf (Proc.run (httpExec h) (req.serve h w) s).1) ∧
    ∀ b, resultOf (Proc.run (httpExec h) (req.serve h w) s).1 = some b →
      (resultOf (Proc.run (httpExec h) (KeyRequest.serve h w { req with route := route }) t).1
        = some b ↔ h.KeyPasses t) := by
  have hkey' : KeyRequest.Presents { req with route := route } h t.world.store k := by
    rcases hkey with ⟨token, htoken, hcg, hlive, hfind⟩
    exact ⟨token, htoken, hcg, hlive, findKey_congr k _ _ hagree hkeyed' _ _ hfind⟩
  have hconfined := req.serve_confined h w k s hs hkey
  have hconfined' := KeyRequest.serve_confined h w { req with route := route } k t ht hkey'
  have hlimits := req.serve_limits h w k s hs hkey
  have hlimits' := KeyRequest.serve_limits h w { req with route := route } k t ht hkey'
  refine ⟨hconfined, ?_⟩
  -- Below the key both requests run the same reads; elsewhere both are refused.
  by_cases hbelow : k.below s.world.store req.projSlug req.envSlug
  · have hsame : KeyRequest.serve h w { req with route := route } = req.serve h w := by
      rcases hbelow with ⟨proj, env, hproj, henv, hp, he⟩
      refine req.serve_congr h w route ?_
      have hslug : proj.slug = req.projSlug := by simpa using List.find?_some hproj
      have hslug' : env.slug = req.envSlug := by
        have hgood := List.find?_some henv
        simp only [Bool.and_eq_true, beq_iff_eq] at hgood
        exact hgood.2
      rw [← hslug, ← hslug']
      exact hroute proj (List.mem_of_find?_eq_some hproj) hp.symm env
        (List.mem_of_find?_eq_some henv) he.symm
    rw [hsame] at hlimits' ⊢
    -- When both pass the limiter neither answer is a 429, so the answers are the same.
    have hboth : h.KeyPasses s → h.KeyPasses t →
        (Proc.run (httpExec h) (req.serve h w) s).1 =
          (Proc.run (httpExec h) (req.serve h w) t).1 := by
      intro hpasses hpasses'
      rcases req.serve_similar h w k s t hs ht hcalls hkey hagree hkeyed' hbelow with
        heq | hlimited | hlimited
      · exact heq
      · exact absurd hpasses (hlimits.2 hlimited)
      · exact absurd hpasses' (hlimits'.2 hlimited)
    refine ⟨fun halike => ?_, fun b hb => ⟨fun hb' => ?_, fun hpasses' => ?_⟩⟩
    · by_cases hpasses : h.KeyPasses s
      · rw [hboth hpasses (halike.mpr hpasses)]
      · rw [not_not.mp (mt hlimits.1 hpasses), not_not.mp (mt hlimits'.1 (mt halike.mp hpasses))]
    · exact hlimits'.1 (by rw [hb']; exact Option.some_ne_none b)
    · rw [← hboth (hlimits.1 (by rw [hb]; exact Option.some_ne_none b)) hpasses']
      exact hb
  · -- The path leads elsewhere in both databases, and neither request gets results.
    have hnone : resultOf (Proc.run (httpExec h) (req.serve h w) s).1 = none := by
      by_contra hresult
      exact hbelow (hconfined hresult)
    have hnone' : resultOf (Proc.run (httpExec h)
        (KeyRequest.serve h w { req with route := route }) t).1 = none := by
      by_contra hresult
      rcases hconfined' hresult with ⟨proj, env, hproj, henv, hp, he⟩
      rcases path_congr k _ _ (hagree.symm k _ _) hkeyed _ _ proj env hproj henv hp he with
        ⟨hproj', henv'⟩
      exact hbelow ⟨proj, env, hproj', henv', hp, he⟩
    rw [hnone, hnone']
    exact ⟨fun _ => rfl, fun _ hb => nomatch hb⟩

/-- A server that knows the digest of one plaintext, and no users. -/
def keyHost : HttpHost where
  host := { Host.steady with
    sha256 := fun plaintext => if plaintext = "cg_demo" then
      [28, 95, 41, 159, 137, 56, 19, 215, 13, 58, 117, 104, 7, 144, 225, 209, 205, 135, 202,
      226, 186, 2, 1, 220, 158, 14, 116, 146, 185, 145, 140, 232] else [] }
  verify := fun _ => .error .invalid
  commits := true
  evalRateLimiter := ⟨600, 60 * second⟩

def shopKey : APIKey :=
  ⟨"k1", "p1", "e1", "web", keyHost.host.sha256 "cg_demo", "demo", .read, 0, none⟩

/-- A project with a flag and a key, and whatever else there is. -/
def shopAnd (projects : List Project) (environments : List Environment) : HttpState where
  world := { store := {
    projects := ⟨"p1", "Shop", "shop", 0⟩ :: projects
    environments := ⟨"e1", "p1", "Production", "prod", 0⟩ :: environments
    flags := [darkMode]
    states := [⟨"f1", "e1", true⟩]
    rules := [darkModePaying]
    apiKeys := [shopKey] } }
  tx := none
  windows := fun _ => none

/-- A request to evaluate the flag for a paying user. -/
def evaluateDarkMode : KeyRequest where
  authorization := "Bearer cg_demo"
  projSlug := "shop"
  projSlug_ne := shop_ne_empty
  envSlug := "prod"
  route := .evaluate "dark-mode" (some (.obj [("context", .obj [("user_id", .str "u1"),
    ("attributes", .obj [("plan", .str "pro")])])]))

/-- Another project next to it makes no difference. -/
theorem key_scope_confinement_shop :
    resultOf (Proc.run (httpExec keyHost) (evaluateDarkMode.serve keyHost ⟨true⟩)
      (shopAnd [⟨"p2", "Blog", "blog", 0⟩] [⟨"e2", "p2", "Production", "prod", 0⟩])).1 =
      some (.evaluation ⟨"dark-mode", true, none, "true", .ruleMatch, .bool⟩) := by
  have hagree : AgreeOn keyHost.host.uuid shopKey.projectID shopKey.environmentID
      (shopAnd [] []).world.store
      (shopAnd [⟨"p2", "Blog", "blog", 0⟩] [⟨"e2", "p2", "Production", "prod", 0⟩]).world.store :=
    ⟨by decide, by decide, rfl, rfl, rfl, rfl, fun _ hg => (nomatch hg), rfl⟩
  have hresult := (key_scope_confinement keyHost ⟨true⟩ evaluateDarkMode evaluateDarkMode.route
    shopKey (shopAnd [] [])
    (shopAnd [⟨"p2", "Blog", "blog", 0⟩] [⟨"e2", "p2", "Production", "prod", 0⟩]) rfl rfl rfl
    ⟨"cg_demo", by decide, by decide, rfl, by decide⟩ hagree
    ⟨by decide, by decide, by decide⟩ ⟨by decide, by decide, by decide⟩
    (fun _ _ _ _ _ _ => rfl)).2.1 ⟨fun _ => rfl, fun _ => rfl⟩
  have hshop : resultOf (Proc.run (httpExec keyHost) (evaluateDarkMode.serve keyHost ⟨true⟩)
      (shopAnd [] [])).1 =
        some (.evaluation ⟨"dark-mode", true, none, "true", .ruleMatch, .bool⟩) := by
    decide +kernel
  exact hresult.trans hshop

/-- The same database after the keys of other projects have used up the window. -/
def shopCrowded : HttpState :=
  { shopAnd [] [] with windows := fun _ => some ⟨600, 60 * second⟩ }

/-- Requests with keys of other projects have a request with this key turned
    away, which is evaluated when they are not made. -/
theorem key_window_shared :
    ¬ ∀ (h : HttpHost) (w : Writer) (req : KeyRequest) (route : KeyRoute) (k : APIKey)
        (s t : HttpState), s.tx = none → t.tx = none → t.world.calls = s.world.calls →
      req.Presents h s.world.store k →
      AgreeOn h.host.uuid k.projectID k.environmentID s.world.store t.world.store →
      s.world.store.Keyed → t.world.store.Keyed →
      (∀ proj ∈ s.world.store.projects, proj.id = k.projectID →
        ∀ env ∈ s.world.store.environments, env.id = k.environmentID →
          KeyRoute.Agrees proj.slug env.slug req.route route) →
      resultOf (Proc.run (httpExec h) (KeyRequest.serve h w { req with route := route }) t).1
        = resultOf (Proc.run (httpExec h) (req.serve h w) s).1 := by
  intro hclaim
  have hagree : AgreeOn keyHost.host.uuid shopKey.projectID shopKey.environmentID
      (shopAnd [] []).world.store shopCrowded.world.store :=
    ⟨rfl, rfl, rfl, rfl, rfl, rfl, fun _ hg => (nomatch hg), rfl⟩
  have hsame := hclaim keyHost ⟨true⟩ evaluateDarkMode evaluateDarkMode.route shopKey
    (shopAnd [] []) shopCrowded rfl rfl rfl ⟨"cg_demo", by decide, by decide, rfl, by decide⟩ hagree
    ⟨by decide, by decide, by decide⟩ ⟨by decide, by decide, by decide⟩ (fun _ _ _ _ _ _ => rfl)
  have hturned : resultOf (Proc.run (httpExec keyHost) (evaluateDarkMode.serve keyHost ⟨true⟩)
      shopCrowded).1 = none := by
    decide +kernel
  have hserved : resultOf (Proc.run (httpExec keyHost) (evaluateDarkMode.serve keyHost ⟨true⟩)
      (shopAnd [] [])).1 ≠ none := by
    decide +kernel
  exact hserved (hsame.symm.trans hturned)

end Cuttlegate
