import Cuttlegate.Theory.Scope

/-!
# The Existence Oracle

What a request with an API key learns about projects and environments that are
none of the key's business.

The handler of evaluations answers `forbidden` for whatever it does not find,
so that a missing row and a foreign one look alike. The tenant middleware runs
before it, looks the project of the path up as well, and answers `not found`.
So the answer to a request outside the scope of its key is a function of one
bit of the database: whether the slug in the path names a project
(`KeyRequest.serve_outside`). Two databases that differ in that bit are told
apart, and no others are (`no_oracle_iff`).

## Main definitions

* `KeyRoute.evaluates`: The evaluation routes.
* `outsideAnswer`: The answer to a request outside the scope of its key.

## Theorems

* `KeyRequest.serve_outside`: That this is the answer.
* `no_oracle_iff`: When two databases are answered alike.
-/

namespace Cuttlegate

/-- The routes that evaluate flags. -/
def KeyRoute.evaluates : KeyRoute → Prop
  | .evaluate _ _ | .evaluateAll _ => True
  | .stream _ _ => False

/-- The answer to a request that presents a key and leads outside its scope.
    The operations are counted from `n`; `found` says whether the path names a
    project. -/
def outsideAnswer (h : HttpHost) (n : Nat) (windows : Windows) (found : Bool) : Response :=
  if h.host.fails n then writeUnauthorized
  else if h.host.fails (n + 1) then writeError .internal
  else if found = false then writeError .notFound
  else if h.host.fails (n + 2) ∨ h.host.fails (n + 3) then ⟨500, .text "internal server error"⟩
  else if (h.evalRateLimiter.allow (h.host.now (n + 4)) "api-key" windows).1 = false then limited h
  else if h.host.fails (n + 5) ∨ h.host.fails (n + 6) then writeError .internal
  else writeError .forbidden

section Steps

variable (h : HttpHost)

/-- A caught read goes on with its answer, in the state it leaves. -/
theorem run_read_attempt {α : Type} (c : Call) (hc : c.op.writes = [])
    (k : Except Err c.Ret → HttpProg α) (s : HttpState) (htx : s.tx = none ∨ s.tx = some none) :
    Proc.run (httpExec h) ((Proc.call (HttpOp.db c)).attempt >>= k) s =
      Proc.run (httpExec h) (k (exec h.host c s.world).1) { s with world := s.world.tick } := by
  rw [Proc.run_bind, Proc.run_attempt, Proc.run_call, httpExec_read h c hc s htx]

/-- The row a lookup has found, or that there is none. -/
def lookedUp {α : Type} : Option α → Except Err α
  | some a => .ok a
  | none => .error .notFound

@[simp] theorem lookedUp_some {α : Type} (a : α) : lookedUp (some a) = .ok a := rfl

@[simp] theorem lookedUp_none {α : Type} : lookedUp (none : Option α) = .error .notFound := rfl

/-- A lookup of one row answers with it, unless the database fails. -/
theorem lookup_answer (h : Host) (c : Call) (w : World) (f : Store → Option c.Ret)
    (hop : c.op.perform h ⟨c.tenant, h.rls⟩ w = w.onStore (queryRow f))
    (hfallible : c.op.fallible = true) :
    (exec h c w).1 = if h.fails w.calls then .error .internal else lookedUp (f w.store) := by
  rw [exec_answer, hop, World.onStore_answer, hfallible, Bool.and_true]
  unfold queryRow
  cases f w.store with
  | none => rfl
  | some a => rfl

theorem projectBySlug_answer (h : Host) (tenant : Option String) (slug : String) (w : World) :
    (exec h ⟨tenant, .projectBySlug slug⟩ w).1 = if h.fails w.calls then .error .internal
      else lookedUp (w.store.projectAt slug) :=
  lookup_answer h ⟨tenant, .projectBySlug slug⟩ w (fun s => s.projectAt slug) rfl rfl

/-- On the connection of its own project. -/
theorem environmentBySlug_answer (h : Host) (projectID slug : String) (w : World) :
    (exec h ⟨some projectID, .environmentBySlug projectID slug⟩ w).1 =
      if h.fails w.calls then .error .internal
      else lookedUp (w.store.environmentAt projectID slug) := by
  refine lookup_answer h ⟨some projectID, .environmentBySlug projectID slug⟩ w
    (fun s => s.environmentAt projectID slug) ?_ rfl
  simp only [Op.perform, environmentBySlug, sees_own]
  rfl

/-- A key that is found and not revoked authenticates, unless the database
    fails. -/
theorem authenticate_run (token : String) (k : APIKey) (s : HttpState) (htx : s.tx = none)
    (hlive : k.revoked = false)
    (hfind : s.world.store.apiKeys.find? (fun k => Conn.sees ⟨none, h.host.rls⟩ k.projectID &&
      k.keyHash == h.host.sha256 token) = some k) :
    Proc.run (httpExec h) (onDB (APIKeyService.authenticate h.host.sha256 ⟨none, none⟩ token)) s =
      (if h.host.fails s.world.calls then .error .forbidden
        else .ok (k.projectID, k.environmentID), { s with world := s.world.tick }) := by
  have hwithin : Within [] (APIKeyService.authenticate h.host.sha256 ⟨none, none⟩ token) :=
    within_bind _ _ (APIKeyService.authenticateMCP_within _ _ _) (fun _ => within_ret _)
  rw [run_onDB_pool h _ (within_sparesTx _ _ hwithin (List.nil_subset _)) s (.inl htx)]
  have hanswer := lookup_answer h.host ⟨none, .apiKeyByHash (h.host.sha256 token)⟩ s.world
    (fun st => st.apiKeys.find? (fun k => Conn.sees ⟨none, h.host.rls⟩ k.projectID &&
      k.keyHash == h.host.sha256 token)) rfl rfl
  -- One read on the pool, which answers with the key unless it fails.
  have hstep : exec h.host ⟨none, .apiKeyByHash (h.host.sha256 token)⟩ s.world =
      (if h.host.fails s.world.calls then .error .internal else .ok k, s.world.tick) := by
    refine Prod.ext ?_ (exec_read h.host _ rfl s.world)
    rw [hanswer, hfind, lookedUp_some]
  unfold APIKeyService.authenticate APIKeyService.authenticateMCP
  rw [Proc.run_bind, Proc.run_bind, Proc.run_attempt, Ctx.call, Proc.run_call, hstep]
  by_cases hfails : h.host.fails s.world.calls = true
  · simp only [if_pos hfails]
    rfl
  · simp only [if_neg hfails]
    rw [check, Proc.run_bind, Proc.run_ofExcept, hlive]
    rfl

/-- The handler finds nothing it may show, whatever there is. -/
theorem resolveEvalRequest_outside (ac : AuthContext) (scope : APIKeyScope)
    (projSlug envSlug : String) (body : Option Json)
    (k : Project → Environment → EvalContext → HttpProg Response) (proj : Project) (s : HttpState)
    (htx : s.tx = some none) (hproj : s.world.store.projectAt projSlug = some proj)
    (hout : ∀ env, s.world.store.environmentAt proj.id envSlug = some env →
      apiKeyScopeAllows (some scope) proj.id env.id = false) :
    (Proc.run (httpExec h) (EvaluationHandler.resolveEvalRequest ⟨some ac, some proj.id⟩ (some scope)
      projSlug envSlug body k) s).1 =
      .ok (if h.host.fails s.world.calls ∨ h.host.fails (s.world.calls + 1)
        then writeError .internal
        else writeError .forbidden) := by
  unfold EvaluationHandler.resolveEvalRequest EvaluationHandler.hideMissing
    ProjectService.getBySlug EnvironmentService.getBySlug
  -- The project is looked up, then the environment; each lookup may fail.
  rw [onDB_call, run_read_attempt h _ rfl _ s (.inr htx), projectBySlug_answer, hproj]
  by_cases hfails : h.host.fails s.world.calls = true
  · rw [if_pos hfails, if_pos (.inl hfails)]
    rfl
  rw [if_neg hfails]
  simp only [hfails, false_or, Bool.false_eq_true, lookedUp_some]
  rw [onDB_call, run_read_attempt h _ rfl _ ⟨s.world.tick, s.tx, s.windows⟩ (.inr htx),
    environmentBySlug_answer]
  simp only [World.tick_calls, World.tick_store]
  by_cases hfails' : h.host.fails (s.world.calls + 1) = true
  · simp only [hfails', if_true]
    rfl
  simp only [hfails', if_false, Bool.false_eq_true]
  -- Without the environment the answer is the one for an environment out of scope.
  cases henv : s.world.store.environmentAt proj.id envSlug with
  | none => rfl
  | some env =>
      simp only [lookedUp_some, if_pos (hout env henv)]
      rfl

/-- The tenant middleware answers for a project that is missing, and otherwise
    lets the handler answer. -/
theorem tenantRLS_answer (slug : String) (hslug : slug ≠ "")
    (next : Option String → HttpProg Response) (s : HttpState) (htx : s.tx = none) :
    (Proc.run (httpExec h) (tenantRLS slug next) s).1 =
      if h.host.fails s.world.calls then .ok (writeError .internal)
      else match s.world.store.projectAt slug with
        | none => .ok (writeError .notFound)
        | some proj =>
            if h.host.fails (s.world.calls + 1) ∨ h.host.fails (s.world.calls + 2) then
              .ok ⟨500, .text "internal server error"⟩
            else (Proc.run (httpExec h) (next (some proj.id))
              ⟨s.world.tick.tick.tick, some none, s.windows⟩).1 := by
  unfold tenantRLS orWriteError
  rw [if_neg hslug, run_read_attempt h _ rfl _ s (.inl htx), projectBySlug_answer]
  by_cases hfails : h.host.fails s.world.calls = true
  · rw [if_pos hfails, if_pos hfails]
    rfl
  rw [if_neg hfails, if_neg hfails]
  -- A slug without a project is told at once, before any scope is checked.
  cases hproj : s.world.store.projectAt slug with
  | none => rfl
  | some proj =>
      simp only [lookedUp_some]
      rw [Proc.run_bind, Proc.run_attempt, Proc.run_call]
      simp only [httpExec, HttpState.manage, World.tick_calls]
      by_cases hbegin : h.host.fails (s.world.calls + 1) = true
      · simp only [hbegin, if_true, true_or]
        rfl
      simp only [hbegin, if_false, false_or, Bool.false_eq_true]
      rw [Proc.run_bind, Proc.run_attempt, Proc.run_call]
      simp only [httpExec, HttpState.manage, World.tick_calls]
      by_cases hset : h.host.fails (s.world.calls + 1 + 1) = true
      · simp only [hset, if_true]
        rfl
      simp only [hset, if_false, Bool.false_eq_true]
      rw [run_closing]

end Steps

/-- A request that presents a key and leads outside its scope is told whether
    the path names a project, and nothing else of the database. -/
theorem KeyRequest.serve_outside (h : HttpHost) (w : Writer) (req : KeyRequest)
    (heval : req.route.evaluates) (k : APIKey) (s : HttpState) (htx : s.tx = none)
    (hpresents : req.Presents h s.world.store k)
    (hout : ¬ k.below s.world.store req.projSlug req.envSlug) :
    (Proc.run (httpExec h) (req.serve h w) s).1 = .ok (outsideAnswer h s.world.calls s.windows
      (s.world.store.projectAt req.projSlug).isSome) := by
  rcases hpresents with ⟨token, hbearer, hprefix, hlive, hfind⟩
  unfold KeyRequest.serve requireBearerOrAPIKey outsideAnswer
  rw [hbearer]
  simp only [if_pos hprefix]
  rw [Proc.run_bind, Proc.run_attempt, authenticate_run h token k s htx hlive hfind]
  by_cases hfails : h.host.fails s.world.calls = true
  · simp only [if_pos hfails]
    rfl
  simp only [if_neg hfails]
  rw [tenantRLS_answer h _ req.projSlug_ne _ ⟨s.world.tick, s.tx, s.windows⟩ htx]
  simp only [World.tick_calls, World.tick_store]
  by_cases hlookup : h.host.fails (s.world.calls + 1) = true
  · simp only [hlookup, if_true]
  simp only [hlookup, if_false, Bool.false_eq_true]
  cases hproj : s.world.store.projectAt req.projSlug with
  | none => rfl
  | some proj =>
      simp only [Option.isSome_some, Bool.true_eq_false, if_false]
      by_cases hopen : h.host.fails (s.world.calls + 1 + 1) = true ∨
          h.host.fails (s.world.calls + 1 + 2) = true
      · simp only [hopen, if_true]
      simp only [hopen, if_false]
      have hscope : ∀ env, s.world.store.environmentAt proj.id req.envSlug = some env →
          apiKeyScopeAllows (some ⟨k.projectID, k.environmentID⟩) proj.id env.id = false := by
        intro env henv
        simp only [apiKeyScopeAllows, Bool.and_eq_false_iff, beq_eq_false_iff_ne]
        by_contra hallows
        rw [not_or, not_not, not_not] at hallows
        exact hout ⟨proj, env, hproj, henv, hallows.1, hallows.2⟩
      -- Both evaluation routes resolve the path right behind the limiter.
      have hresolve : ∀ (body : Option Json)
          (next : Project → Environment → EvalContext → HttpProg Response),
          (Proc.run (httpExec h) (limit h ⟨"api-key", .viewer⟩
            (EvaluationHandler.resolveEvalRequest ⟨some ⟨"api-key", .viewer⟩, some proj.id⟩
              (some ⟨k.projectID, k.environmentID⟩) req.projSlug req.envSlug body next))
            ⟨s.world.tick.tick.tick.tick, some none, s.windows⟩).1 =
          .ok (if (h.evalRateLimiter.allow (h.host.now (s.world.calls + 4)) "api-key"
              s.windows).1 = false then limited h
            else if h.host.fails (s.world.calls + 5) ∨ h.host.fails (s.world.calls + 6) then
              writeError .internal
            else writeError .forbidden) := by
        intro body next
        rw [run_limit]
        simp only [World.tick_calls, Nat.add_assoc, Nat.reduceAdd]
        by_cases hlimit : (h.evalRateLimiter.allow (h.host.now (s.world.calls + 4)) "api-key"
            s.windows).1 = false
        · simp only [hlimit, if_true]
        · simp only [hlimit, if_false, Bool.true_eq_false]
          exact resolveEvalRequest_outside h _ _ _ _ _ _ proj _ rfl hproj hscope
      cases hroute : req.route with
      | stream subscribed inputs =>
          rw [hroute] at heval
          exact heval.elim
      | evaluate flagKey body => exact hresolve body _
      | evaluateAll body => exact hresolve body _

/-- Without a failure before it, the one bit can be read off the answer. -/
theorem outsideAnswer_eq_iff (h : HttpHost) (n : Nat) (windows : Windows) (found found' : Bool) :
    outsideAnswer h n windows found' = outsideAnswer h n windows found ↔
      found' = found ∨ h.host.fails n = true ∨ h.host.fails (n + 1) = true := by
  -- With a project in place, no answer is the one for a missing project.
  have hfound : h.host.fails n = false → h.host.fails (n + 1) = false →
      outsideAnswer h n windows true ≠ outsideAnswer h n windows false := by
    intro hkey hlookup
    simp only [outsideAnswer, hkey, hlookup, Bool.false_eq_true, if_false, if_true,
      Bool.true_eq_false]
    split
    · exact fun heq => nomatch congrArg Response.body heq
    · split
      · exact fun heq => nomatch congrArg Response.body heq
      · split
        · exact fun heq => absurd (congrArg Response.status heq) (by decide)
        · exact fun heq => absurd (congrArg Response.status heq) (by decide)
  by_cases hkey : h.host.fails n = true
  · simp [outsideAnswer, hkey]
  by_cases hlookup : h.host.fails (n + 1) = true
  · simp [outsideAnswer, hlookup]
  rw [Bool.not_eq_true] at hkey hlookup
  have hdiff := hfound hkey hlookup
  cases found with
  | true =>
      cases found' with
      | true => simp
      | false => simpa [hkey, hlookup] using hdiff.symm
  | false =>
      cases found' with
      | true => simpa [hkey, hlookup] using hdiff
      | false => simp

/-- Take a request with an API key whose path leads outside the scope of the
    key, and two databases that agree on what the key may see. It is answered
    alike in both exactly when its slug names a project in both or in neither,
    or when the lookups before fail. -/
theorem no_oracle_iff (h : HttpHost) (w : Writer) (req : KeyRequest) (heval : req.route.evaluates)
    (k : APIKey) (s t : HttpState) (htx : s.tx = none) (htx' : t.tx = none)
    (hcalls : t.world.calls = s.world.calls) (hwindows : t.windows = s.windows)
    (hpresents : req.Presents h s.world.store k)
    (hagree : AgreeOn h.host.uuid k.projectID k.environmentID s.world.store t.world.store)
    (hkeyed : s.world.store.Keyed) (hkeyed' : t.world.store.Keyed)
    (hout : ¬ k.below s.world.store req.projSlug req.envSlug) :
    (Proc.run (httpExec h) (req.serve h w) t).1 = (Proc.run (httpExec h) (req.serve h w) s).1 ↔
      ((∃ p ∈ t.world.store.projects, p.slug = req.projSlug) ↔
        ∃ p ∈ s.world.store.projects, p.slug = req.projSlug) ∨
      h.host.fails s.world.calls = true ∨ h.host.fails (s.world.calls + 1) = true := by
  have hpresents' : req.Presents h t.world.store k := by
    rcases hpresents with ⟨token, hbearer, hprefix, hlive, hfind⟩
    exact ⟨token, hbearer, hprefix, hlive, findKey_congr k _ _ hagree hkeyed' _ _ hfind⟩
  -- The path is outside the key's scope in the one store exactly when it is in the other.
  have hout' : ¬ k.below t.world.store req.projSlug req.envSlug := by
    rintro ⟨proj, env, hproj, henv, hp, he⟩
    rcases path_congr k _ _ (hagree.symm k _ _) hkeyed _ _ proj env hproj henv hp he with
      ⟨hproj', henv'⟩
    exact hout ⟨proj, env, hproj', henv', hp, he⟩
  have hsome : ∀ st : Store, (st.projectAt req.projSlug).isSome = true ↔
      ∃ p ∈ st.projects, p.slug = req.projSlug := by
    intro st
    unfold Store.projectAt
    simp only [List.find?_isSome, beq_iff_eq]
  rw [req.serve_outside h w heval k s htx hpresents hout,
    req.serve_outside h w heval k t htx' hpresents' hout', hcalls, hwindows, ← hsome, ← hsome,
    Except.ok.injEq, outsideAnswer_eq_iff, Bool.eq_iff_iff]

/-- A request with the key of one project for another one. -/
def evaluateBlog : KeyRequest :=
  { evaluateDarkMode with projSlug := "blog", projSlug_ne := by decide }

theorem evaluateBlog_outside : ¬ shopKey.below (shopAnd [] []).world.store "blog" "prod" := by
  rintro ⟨proj, env, hproj, _⟩
  have hnone : (shopAnd [] []).world.store.projectAt "blog" = none := by decide
  rw [hnone] at hproj
  exact (nomatch hproj)

/-- A project of another name is not noticed. -/
theorem no_oracle_news :
    (Proc.run (httpExec keyHost) (evaluateBlog.serve keyHost ⟨true⟩)
      (shopAnd [⟨"p2", "News", "news", 0⟩] [])).1 =
    (Proc.run (httpExec keyHost) (evaluateBlog.serve keyHost ⟨true⟩) (shopAnd [] [])).1 :=
  (no_oracle_iff keyHost ⟨true⟩ evaluateBlog trivial shopKey (shopAnd [] [])
    (shopAnd [⟨"p2", "News", "news", 0⟩] []) rfl rfl rfl rfl
    ⟨"cg_demo", by decide, by decide, rfl, by decide⟩
    ⟨by decide, by decide, rfl, rfl, rfl, rfl, fun _ hg => (nomatch hg), rfl⟩
    ⟨by decide, by decide, by decide⟩ ⟨by decide, by decide, by decide⟩
    evaluateBlog_outside).mpr (.inl (by decide))

/-- A project of that name is. -/
theorem missing_project_shows : ¬ ∀ (h : HttpHost) (w : Writer) (req : KeyRequest),
    req.route.evaluates → ∀ (k : APIKey) (s t : HttpState), s.tx = none → t.tx = none →
      t.world.calls = s.world.calls → t.windows = s.windows → req.Presents h s.world.store k →
      AgreeOn h.host.uuid k.projectID k.environmentID s.world.store t.world.store →
      s.world.store.Keyed → t.world.store.Keyed →
      ¬ k.below s.world.store req.projSlug req.envSlug →
      (Proc.run (httpExec h) (req.serve h w) t).1 =
        (Proc.run (httpExec h) (req.serve h w) s).1 := by
  intro hsame
  have hresponse := hsame keyHost ⟨true⟩ evaluateBlog trivial shopKey (shopAnd [] [])
    (shopAnd [⟨"p2", "Blog", "blog", 0⟩] []) rfl rfl rfl rfl
    ⟨"cg_demo", by decide, by decide, rfl, by decide⟩
    ⟨by decide, by decide, rfl, rfl, rfl, rfl, fun _ hg => (nomatch hg), rfl⟩
    ⟨by decide, by decide, by decide⟩ ⟨by decide, by decide, by decide⟩ evaluateBlog_outside
  -- With the project the scope check refuses, without it the middleware does.
  have hforbidden : (Proc.run (httpExec keyHost) (evaluateBlog.serve keyHost ⟨true⟩)
      (shopAnd [⟨"p2", "Blog", "blog", 0⟩] [])).1 = .ok (writeError .forbidden) := by
    decide +kernel
  have hmissing : (Proc.run (httpExec keyHost) (evaluateBlog.serve keyHost ⟨true⟩)
      (shopAnd [] [])).1 = .ok (writeError .notFound) := by
    decide +kernel
  rw [hforbidden, hmissing] at hresponse
  exact absurd hresponse (by decide)

end Cuttlegate
