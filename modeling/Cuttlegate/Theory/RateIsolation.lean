import Cuttlegate.Adapters.Handlers

/-!
# Rate Limiting and Callers

What the requests of one caller owe to the requests of others. The limiter of
the evaluation routes keeps one window for each user id, and the middleware
before it decides which user id a request has: the subject of its token, or the
text `api-key`, which is the same for every API key.

Callers with different user ids never meet in the limiter
(`TimedRequest.run_congr`, `TimedRequest.run_other`). Callers with the same one
share a window, and the requests of one are rejected on account of the
other's. So isolation holds among a set of credentials exactly when no two of
them are given the same user id (`rate_isolation_iff`).

Everything but the windows belongs to the single request: its time, the
database it finds, the answers of the identity provider.

## Main definitions

* `Credential`, `Credential.userID`: Whom a request is made by, and the user id
  the middleware gives it.
* `TimedRequest`, `TimedRequest.run`: One request and what becomes of it.
* `decisionsOn`: Which requests of a caller are rejected.
* `Isolated`: The decisions on a caller are its own affair.

## Theorems

* `run_windows`: A program looks at the windows of its own user id only.
* `KeyRequest.serve_allows`: The user id a request has in the limiter.
* `isolated_of_apart`: Callers that are apart are isolated.
* `rate_isolation_iff`: When all callers of a set are isolated.
-/

namespace Cuttlegate

/-! ## Requests and credentials -/

/-- Whom a request is made by: an API key, in plaintext, or a user. -/
inductive Credential where
  | apiKey (plaintext : String) (isKey : "cg_".toList.isPrefixOf plaintext.toList = true)
  | user (sub : String)
  deriving DecidableEq

/-- The user id the middleware gives a credential. -/
def Credential.userID : Credential → String
  | .apiKey _ _ => "api-key"
  | .user sub => sub

/-- A request to a route that accepts API keys, with everything it meets but
    the windows of the limiter. -/
structure TimedRequest where
  host : HttpHost
  world : World
  writer : Writer
  req : KeyRequest

/-- The credential a request presents, if the identity provider accepts it. -/
def TimedRequest.credential (r : TimedRequest) : Option Credential :=
  match bearerToken r.req.authorization with
  | none => none
  | some token =>
      if isKey : "cg_".toList.isPrefixOf token.toList = true then some (.apiKey token isKey)
      else match r.host.verify token with
        | .error _ => none
        | .ok (user, _) => some (.user user.sub)

/-- Serve a request with the windows as they are. -/
def TimedRequest.run (r : TimedRequest) (windows : Windows) : Except Err Response × HttpState :=
  Proc.run (httpExec r.host) (r.req.serve r.host r.writer) ⟨r.world, none, windows⟩

/-- Whether a response is the rejection of the limiter. -/
def rejected : Except Err Response → Bool
  | .ok resp => resp.status == 429
  | .error _ => false

/-- The decisions on the requests of a caller, in order. -/
def decisionsOn (c : Credential) (windows : Windows) : List TimedRequest → List Bool
  | [] => []
  | r :: rest =>
      let out := r.run windows
      if r.credential = some c then rejected out.1 :: decisionsOn c out.2.windows rest
      else decisionsOn c out.2.windows rest

/-- The requests of one caller, all others deleted. -/
def requestsOf (c : Credential) (reqs : List TimedRequest) : List TimedRequest :=
  reqs.filter (fun r => r.credential = some c)

/-- The decisions on a caller are those it would meet alone. -/
def Isolated (c : Credential) (windows : Windows) (reqs : List TimedRequest) : Prop :=
  decisionsOn c windows reqs = decisionsOn c windows (requestsOf c reqs)

/-! ## The windows a request looks at -/

/-- The operation asks the limiter for no user id but the given one. -/
def HttpOp.AllowsOnly (userID : String) (op : HttpOp) : Prop :=
  ∀ key, op = .allow key → key = userID

section Footprint

variable {userID : String}

theorem allowsOnly_db (c : Call) : (HttpOp.db c).AllowsOnly userID := fun _ h => nomatch h

theorem onDB_allows {α : Type} (p : Prog α) : Proc.Uses (HttpOp.AllowsOnly userID) (onDB p) := by
  refine Proc.uses_lift _ _ _ p ?_
  induction p with
  | ret a => trivial
  | fail e => trivial
  | act c k ih => exact ⟨allowsOnly_db c, ih⟩

theorem orWriteError_allows {α : Type} (p : HttpProg α) (k : α → HttpProg Response)
    (hp : Proc.Uses (HttpOp.AllowsOnly userID) p)
    (hk : ∀ a, Proc.Uses (HttpOp.AllowsOnly userID) (k a)) :
    Proc.Uses (HttpOp.AllowsOnly userID) (orWriteError p k) := by
  refine Proc.uses_bind _ _ ((Proc.uses_attempt p).mpr hp) (fun r => ?_)
  split
  · exact hk _
  · trivial
  · trivial

theorem tenantRLS_allows (slug : String) (next : Option String → HttpProg Response)
    (hnext : ∀ tenant, Proc.Uses (HttpOp.AllowsOnly userID) (next tenant)) :
    Proc.Uses (HttpOp.AllowsOnly userID) (tenantRLS slug next) := by
  -- The middleware's own operations never ask the limiter.
  have hop : ∀ op : HttpOp, (∀ key, op ≠ .allow key) →
      Proc.Uses (HttpOp.AllowsOnly userID) (Proc.call op : HttpProg op.Ret) := fun op hne =>
    (Proc.uses_call op).mpr (fun key hkey => absurd hkey (hne key))
  have hcaught : ∀ op : HttpOp, (∀ key, op ≠ .allow key) →
      Proc.Uses (HttpOp.AllowsOnly userID) (Proc.call op : HttpProg op.Ret).attempt := fun op hne =>
    (Proc.uses_attempt _).mpr (hop op hne)
  unfold tenantRLS
  by_cases hslug : slug = ""
  · rw [if_pos hslug]
    exact hnext none
  · rw [if_neg hslug]
    refine orWriteError_allows _ _ (hop _ (fun _ h => nomatch h)) (fun proj => ?_)
    refine Proc.uses_bind _ _ (hcaught _ (fun _ h => nomatch h)) (fun r => ?_)
    split
    · trivial
    refine Proc.uses_bind _ _ (hcaught _ (fun _ h => nomatch h)) (fun r => ?_)
    split
    · exact Proc.uses_bind _ _ (hop _ (fun _ h => nomatch h)) (fun _ => trivial)
    refine Proc.uses_bind _ _ (hnext _) (fun resp => ?_)
    split
    · exact Proc.uses_bind _ _ (hop _ (fun _ h => nomatch h)) (fun _ => trivial)
    · exact Proc.uses_bind _ _ (hcaught _ (fun _ h => nomatch h)) (fun _ => trivial)

theorem limit_allows (h : HttpHost) (ac : AuthContext) (next : HttpProg Response)
    (hnext : Proc.Uses (HttpOp.AllowsOnly ac.userID) next) :
    Proc.Uses (HttpOp.AllowsOnly ac.userID) (limit h ac next) := by
  unfold limit
  split
  · trivial
  refine Proc.uses_bind _ _ ((Proc.uses_call _).mpr ?_) (fun allowed => ?_)
  · intro key hkey
    exact (HttpOp.allow.inj hkey).symm
  · split
    · trivial
    · exact hnext

theorem resolvePath_allows (ctx : Ctx) (projSlug envSlug : String)
    (k : Project → Environment → HttpProg Response)
    (hk : ∀ proj env, Proc.Uses (HttpOp.AllowsOnly userID) (k proj env)) :
    Proc.Uses (HttpOp.AllowsOnly userID) (resolvePath ctx projSlug envSlug k) :=
  orWriteError_allows _ _ (onDB_allows _) (fun proj =>
    orWriteError_allows _ _ (onDB_allows _) (fun env => hk proj env))

theorem resolveEvalRequest_allows (ctx : Ctx) (scope : Option APIKeyScope)
    (projSlug envSlug : String) (body : Option Json)
    (k : Project → Environment → EvalContext → HttpProg Response)
    (hk : ∀ proj env evalCtx, Proc.Uses (HttpOp.AllowsOnly userID) (k proj env evalCtx)) :
    Proc.Uses (HttpOp.AllowsOnly userID)
      (EvaluationHandler.resolveEvalRequest ctx scope projSlug envSlug body k) := by
  have hhide : ∀ {α : Type} (p : Prog α) (k : α → HttpProg Response),
      (∀ a, Proc.Uses (HttpOp.AllowsOnly userID) (k a)) →
      Proc.Uses (HttpOp.AllowsOnly userID) (EvaluationHandler.hideMissing (onDB p) k) := by
    intro α p k hk
    refine Proc.uses_bind _ _ ((Proc.uses_attempt _).mpr (onDB_allows p)) (fun r => ?_)
    split
    · exact hk _
    · trivial
    · trivial
  refine hhide _ _ (fun proj => hhide _ _ (fun env => ?_))
  split
  · trivial
  split
  · trivial
  split
  · trivial
  · exact hk _ _ _

/-- The rest of a request, once it has a user id. -/
theorem KeyRequest.routes_allows (h : HttpHost) (w : Writer) (req : KeyRequest) (ac : AuthContext)
    (scope : Option APIKeyScope) : Proc.Uses (HttpOp.AllowsOnly ac.userID)
      (tenantRLS req.projSlug (fun tenant =>
        match req.route with
        | .evaluate flagKey body => limit h ac
            (EvaluationHandler.evaluate h.host.sortSlice ⟨some ac, tenant⟩ scope req.projSlug
              req.envSlug flagKey body)
        | .evaluateAll body => limit h ac
            (EvaluationHandler.evaluateAll h.host.sortSlice ⟨some ac, tenant⟩ scope req.projSlug
              req.envSlug body)
        | .stream subscribed inputs =>
            SSEHandler.stream ⟨some ac, tenant⟩ (statusRecorder (responseWriter w)) req.projSlug
              req.envSlug subscribed inputs)) := by
  refine tenantRLS_allows _ _ (fun tenant => ?_)
  split
  · refine limit_allows h ac _ (resolveEvalRequest_allows _ _ _ _ _ _ (fun _ _ _ => ?_))
    exact orWriteError_allows _ _ (onDB_allows _) (fun _ => trivial)
  · refine limit_allows h ac _ (resolveEvalRequest_allows _ _ _ _ _ _ (fun _ _ _ => ?_))
    exact orWriteError_allows _ _ (onDB_allows _) (fun _ => trivial)
  · refine resolvePath_allows _ _ _ _ (fun _ _ => ?_)
    split
    · trivial
    · split <;> trivial

end Footprint

/-- A request with a credential asks the limiter for the user id of that
    credential only, and one without never asks. -/
theorem TimedRequest.serve_allows (r : TimedRequest) (userID : String)
    (hid : ∀ c, r.credential = some c → c.userID = userID) :
    Proc.Uses (HttpOp.AllowsOnly userID) (r.req.serve r.host r.writer) := by
  unfold TimedRequest.credential at hid
  unfold KeyRequest.serve requireBearerOrAPIKey
  cases hbearer : bearerToken r.req.authorization with
  | none => trivial
  | some token =>
      rw [hbearer] at hid
      -- A key is always served as the one user "api-key", a token as its subject.
      by_cases hkey : "cg_".toList.isPrefixOf token.toList = true
      · simp only [dif_pos hkey, Option.some.injEq, forall_eq'] at hid
        simp only [if_pos hkey]
        refine Proc.uses_bind _ _ ((Proc.uses_attempt _).mpr (onDB_allows _)) (fun found => ?_)
        split
        · trivial
        · rw [← hid]
          exact KeyRequest.routes_allows r.host r.writer r.req ⟨"api-key", .viewer⟩ _
      · simp only [dif_neg hkey] at hid
        simp only [if_neg hkey]
        cases hverify : r.host.verify token with
        | error e => trivial
        | ok user =>
            simp only [hverify, Option.some.injEq, forall_eq'] at hid
            rw [← hid]
            exact KeyRequest.routes_allows r.host r.writer r.req ⟨user.1.sub, user.2⟩ none

/-- A program that asks the limiter for one user id looks at the window of that
    user id only. -/
theorem run_windows {α : Type} (h : HttpHost) (userID : String) (p : HttpProg α)
    (hp : Proc.Uses (HttpOp.AllowsOnly userID) p) (world : World) (tx : Option (Option Store))
    (ws ws' : Windows) (hws : ws' userID = ws userID) :
    (Proc.run (httpExec h) p ⟨world, tx, ws'⟩).1 = (Proc.run (httpExec h) p ⟨world, tx, ws⟩).1 ∧
      (Proc.run (httpExec h) p ⟨world, tx, ws'⟩).2.windows userID =
        (Proc.run (httpExec h) p ⟨world, tx, ws⟩).2.windows userID := by
  induction p generalizing world tx ws ws' with
  | ret a => exact ⟨rfl, hws⟩
  | fail e => exact ⟨rfl, hws⟩
  | act op k ih =>
      simp only [Proc.run_act]
      -- The answer and the rest of the state are the same, and the windows still agree.
      have hstep : ∃ world' tx' us us', us' userID = us userID ∧
          httpExec h op ⟨world, tx, ws⟩ = ((httpExec h op ⟨world, tx, ws⟩).1, ⟨world', tx', us⟩) ∧
          httpExec h op ⟨world, tx, ws'⟩ =
            ((httpExec h op ⟨world, tx, ws⟩).1, ⟨world', tx', us'⟩) := by
        cases op with
        | db c =>
            cases tx with
            | none => exact ⟨_, _, ws, ws', hws, rfl, rfl⟩
            | some view =>
                by_cases hin : c.inTx = true
                · simp only [httpExec, hin, if_true]
                  exact ⟨_, _, ws, ws', hws, rfl, rfl⟩
                · simp only [httpExec, hin, Bool.false_eq_true, if_false]
                  exact ⟨_, _, ws, ws', hws, rfl, rfl⟩
        | allow key =>
            have hkey : key = userID := hp.1 key rfl
            have hagree := h.evalRateLimiter.allow_congr (h.host.now world.calls) key ws ws'
              (by rw [hkey]; exact hws)
            refine ⟨world.tick, tx, _,
              (h.evalRateLimiter.allow (h.host.now world.calls) key ws').2, ?_, rfl, ?_⟩
            · rw [← hkey]
              exact hagree.2
            · simp only [httpExec, hagree.1]
        | beginTx =>
            simp only [httpExec, HttpState.manage]
            split
            · exact ⟨_, _, ws, ws', hws, rfl, rfl⟩
            · exact ⟨_, _, ws, ws', hws, rfl, rfl⟩
        | setTenantContext id =>
            simp only [httpExec, HttpState.manage]
            split
            · exact ⟨_, _, ws, ws', hws, rfl, rfl⟩
            · exact ⟨_, _, ws, ws', hws, rfl, rfl⟩
        | commit =>
            simp only [httpExec]
            split
            · exact ⟨_, _, ws, ws', hws, rfl, rfl⟩
            · exact ⟨_, _, ws, ws', hws, rfl, rfl⟩
        | rollback => exact ⟨_, _, ws, ws', hws, rfl, rfl⟩
      rcases hstep with ⟨world', tx', us, us', hus, hs, hs'⟩
      rw [hs', hs]
      exact ih _ (hp.2 _) world' tx' us us' hus

/-- It leaves the windows of other user ids alone. -/
theorem run_windows_other {α : Type} (h : HttpHost) (userID other : String) (hne : other ≠ userID)
    (p : HttpProg α) (hp : Proc.Uses (HttpOp.AllowsOnly userID) p) (s : HttpState) :
    (Proc.run (httpExec h) p s).2.windows other = s.windows other := by
  refine Proc.run_rel (httpExec h) (fun s s' => s'.windows other = s.windows other)
    (fun _ => rfl) (fun _ _ _ h₁ h₂ => h₂.trans h₁) (fun op s hop => ?_) p hp s
  cases op with
  | db c =>
      simp only [httpExec]
      split
      · rfl
      · split <;> rfl
  -- The limiter enters the window of the key it is asked for, and no other.
  | allow key =>
      have hkey : key = userID := hop key rfl
      simp only [httpExec, RateLimiter.allow]
      rw [hkey]
      split
      · exact if_neg hne
      · split
        · exact if_neg hne
        · split
          · rfl
          · exact if_neg hne
  | beginTx =>
      simp only [httpExec, HttpState.manage]
      split <;> rfl
  | setTenantContext id =>
      simp only [httpExec, HttpState.manage]
      split <;> rfl
  | commit =>
      simp only [httpExec]
      split <;> rfl
  | rollback => rfl

/-! ## Callers that are apart -/

/-- The request of a caller looks at the window of its user id. -/
theorem TimedRequest.run_congr (r : TimedRequest) (c : Credential) (hc : r.credential = some c)
    (ws ws' : Windows) (hws : ws' c.userID = ws c.userID) :
    (r.run ws').1 = (r.run ws).1 ∧
      (r.run ws').2.windows c.userID = (r.run ws).2.windows c.userID := by
  refine run_windows r.host c.userID _ (r.serve_allows c.userID (fun d hd => ?_)) r.world none
    ws ws'
    hws
  rw [hc, Option.some.injEq] at hd
  rw [hd]

/-- The request of another caller, with another user id, does not touch it. -/
theorem TimedRequest.run_other (r : TimedRequest) (c : Credential) (ws : Windows)
    (hother : ∀ d, r.credential = some d → d.userID ≠ c.userID) :
    (r.run ws).2.windows c.userID = ws c.userID := by
  cases hd : r.credential with
  | none =>
      -- Without a credential the limiter is never asked, so any other user id will do.
      refine run_windows_other r.host (c.userID ++ "'") c.userID (fun h => ?_) _
        (r.serve_allows _ (fun d hd' => ?_)) _
      · have hlen := congrArg String.length h
        simp at hlen
      · rw [hd] at hd'
        exact (nomatch hd')
  | some d =>
      refine run_windows_other r.host d.userID c.userID (Ne.symm (hother d hd)) _
        (r.serve_allows _ (fun e he => ?_)) _
      rw [hd, Option.some.injEq] at he
      rw [he]

/-- A caller that shares its user id with no other caller of a sequence is
    isolated in it, whatever the windows were before. -/
theorem isolated_of_apart (c : Credential) (reqs : List TimedRequest)
    (hapart : ∀ r ∈ reqs, ∀ d, r.credential = some d → d.userID = c.userID → d = c) (ws : Windows) :
    Isolated c ws reqs := by
  -- The windows of the two runs agree on the user id of the caller.
  have hgeneral : ∀ ws ws' : Windows, ws' c.userID = ws c.userID →
      decisionsOn c ws reqs = decisionsOn c ws' (requestsOf c reqs) := by
    induction reqs with
    | nil => exact fun _ _ _ => rfl
    | cons r rest ih =>
        intro ws ws' hws
        have ih := ih (fun q hq => hapart q (List.mem_cons_of_mem r hq))
        by_cases hc : r.credential = some c
        · have hrun := r.run_congr c hc ws ws' hws
          simp only [requestsOf, List.filter_cons, hc, decide_true, if_true, decisionsOn, hrun.1]
          exact congrArg _ (ih _ _ hrun.2)
        · have hrun : (r.run ws).2.windows c.userID = ws c.userID := by
            refine r.run_other c ws (fun d hd hid => hc ?_)
            rw [hd, hapart r List.mem_cons_self d hd hid]
          simp only [requestsOf, List.filter_cons, hc, decide_false, Bool.false_eq_true, if_false,
            decisionsOn]
          exact ih _ _ (hws.trans hrun.symm)
  exact hgeneral ws ws rfl

/-! ## Callers that share a user id -/

/-- A database with one project and one key, whose hash is empty. -/
def oneKey : World where
  store := {
    projects := [⟨"p1", "Shop", "shop", 0⟩]
    apiKeys := [⟨"k1", "p1", "e1", "web", [], "demo", .read, 0, none⟩] }

/-- The token that presents a credential to `meeting`. -/
def Credential.token : Credential → String
  | .apiKey plaintext _ => plaintext
  | .user _ => "token"

/-- A request by the given caller that reaches the limiter at time zero. Every
    digest is empty, and the identity provider vouches for every token. -/
def meeting (rl : RateLimiter) (c : Credential) : TimedRequest where
  host := {
    host := { Host.steady with now := fun _ => 0 }
    verify := fun _ => .ok (⟨c.userID, "", ""⟩, .viewer)
    commits := true
    evalRateLimiter := rl }
  world := oneKey
  writer := ⟨true⟩
  req := {
    authorization := "Bearer " ++ c.token
    projSlug := "shop"
    projSlug_ne := shop_ne_empty
    envSlug := "prod"
    route := .evaluateAll none }

theorem bearerToken_append (token : String) : bearerToken ("Bearer " ++ token) = some token := by
  unfold bearerToken
  rw [String.toList_append]
  have hprefix : "Bearer ".toList.isPrefixOf ("Bearer ".toList ++ token.toList) = true := by
    simp
  rw [if_pos hprefix]
  rw [show (7 : Nat) = "Bearer ".toList.length from rfl, List.drop_left, String.ofList_toList]

theorem meeting_credential (rl : RateLimiter) (c : Credential) :
    (meeting rl c).credential = some c := by
  unfold TimedRequest.credential
  rw [show (meeting rl c).req.authorization = "Bearer " ++ c.token from rfl, bearerToken_append]
  cases c with
  | apiKey plaintext isKey => exact dif_pos isKey
  | user sub =>
      have htoken : ¬ "cg_".toList.isPrefixOf "token".toList = true := by decide
      exact dif_neg htoken

/-- Past the limiter, such a request finds no environment. -/
theorem meeting_admitted (h : HttpHost) (hhost : h.host = { Host.steady with now := fun _ => 0 })
    (ctx : Ctx) (scope : Option APIKeyScope) (n : Nat) (ws : Windows) :
    Proc.run (httpExec h)
        (EvaluationHandler.evaluateAll h.host.sortSlice ctx scope "shop" "prod" none)
      ⟨{ oneKey with calls := n }, some none, ws⟩ =
      (.ok (writeError .forbidden), ⟨{ oneKey with calls := n + 2 }, some none, ws⟩) := by
  rcases h with ⟨host, verify, commits, rl⟩
  cases hhost
  rcases ctx with ⟨auth, tenant⟩
  cases tenant <;> rfl

/-- Before the limiter, it finds its project and opens the transaction. -/
theorem meeting_tenant (h : HttpHost) (hhost : h.host = { Host.steady with now := fun _ => 0 })
    (next : Option String → HttpProg Response) (n : Nat) (ws : Windows) :
    Proc.run (httpExec h) (tenantRLS "shop" next) ⟨{ oneKey with calls := n }, none, ws⟩ =
      Proc.run (httpExec h) (next (some "p1") >>= fun resp =>
        if resp.status ≥ 400 then do
          Proc.call HttpOp.rollback
          return resp
        else do
          let _ ← (Proc.call HttpOp.commit).attempt
          return resp) ⟨{ oneKey with calls := n + 3 }, some none, ws⟩ := by
  rcases h with ⟨host, verify, commits, rl⟩
  cases hhost
  rfl

/-- The rest of such a request, once it has a user id. -/
theorem meeting_tail (h : HttpHost) (hhost : h.host = { Host.steady with now := fun _ => 0 })
    (ac : AuthContext) (hid : ac.userID ≠ "") (scope : Option APIKeyScope) (n : Nat)
    (ws : Windows) :
    let out := Proc.run (httpExec h) (tenantRLS "shop" (fun tenant => limit h ac
      (EvaluationHandler.evaluateAll h.host.sortSlice ⟨some ac, tenant⟩ scope "shop" "prod" none)))
      ⟨{ oneKey with calls := n }, none, ws⟩
    rejected out.1 = !(h.evalRateLimiter.allow 0 ac.userID ws).1 ∧
      out.2.windows = (h.evalRateLimiter.allow 0 ac.userID ws).2 := by
  have hnow : ∀ m, h.host.now m = 0 := fun m => by rw [hhost]
  rw [meeting_tenant h hhost]
  rcases hallow : h.evalRateLimiter.allow 0 ac.userID ws with ⟨allowed, ws'⟩
  have hadmitted := meeting_admitted h hhost ⟨some ac, some "p1"⟩ scope (n + 4) ws'
  -- The limiter is asked once, and its answer decides.
  have hlimit : Proc.run (httpExec h) (limit h ac (EvaluationHandler.evaluateAll h.host.sortSlice
      ⟨some ac, some "p1"⟩ scope "shop" "prod" none)) ⟨{ oneKey with calls := n + 3 }, some none, ws⟩ =
      if allowed = false then
        (.ok ⟨429, .tooManyRequests (h.evalRateLimiter.windowSize / second)⟩,
          ⟨{ oneKey with calls := n + 4 }, some none, ws'⟩)
      else (.ok (writeError .forbidden), ⟨{ oneKey with calls := n + 6 }, some none, ws'⟩) := by
    unfold limit
    rw [if_neg hid, Proc.run_bind, Proc.run_call]
    simp only [httpExec, hnow, hallow]
    cases allowed with
    | false => rfl
    | true => exact hadmitted
  rw [Proc.run_bind, hlimit]
  cases allowed with
  | false => exact ⟨rfl, rfl⟩
  | true => exact ⟨rfl, rfl⟩

/-- It is rejected when the limiter says so, and enters what the limiter
    enters. -/
theorem meeting_run (rl : RateLimiter) (c : Credential) (hid : c.userID ≠ "") (ws : Windows) :
    rejected ((meeting rl c).run ws).1 = !(rl.allow 0 c.userID ws).1 ∧
      ((meeting rl c).run ws).2.windows = (rl.allow 0 c.userID ws).2 := by
  unfold TimedRequest.run KeyRequest.serve requireBearerOrAPIKey
  cases c with
  | apiKey plaintext isKey =>
      rw [show (meeting rl (.apiKey plaintext isKey)).req.authorization =
        "Bearer " ++ plaintext from
        rfl, bearerToken_append]
      simp only [if_pos isKey]
      -- The lookup of the key is the first operation, and finds the one key there is.
      exact meeting_tail (meeting rl (.apiKey plaintext isKey)).host rfl ⟨"api-key", .viewer⟩
        (by decide) (some ⟨"p1", "e1"⟩) 1 ws
  | user sub =>
      have htoken : ¬ "cg_".toList.isPrefixOf "token".toList = true := by decide
      rw [show (meeting rl (.user sub)).req.authorization = "Bearer " ++ "token" from rfl,
        bearerToken_append]
      simp only [if_neg htoken]
      exact meeting_tail (meeting rl (.user sub)).host rfl ⟨sub, .viewer⟩ hid none 0 ws

/-- Once another caller with the same user id has used up the window, the next
    request is rejected. -/
theorem used_up (rl : RateLimiter) (c d : Credential) (hne : d ≠ c) (hid : d.userID = c.userID)
    (hnonempty : c.userID ≠ "") (n : Nat) (k : Int) (ws : Windows)
    (hws : ws c.userID = some ⟨k, rl.windowSize⟩) (hk : k + n = rl.limit) :
    decisionsOn c ws (List.replicate n (meeting rl d) ++ [meeting rl c]) = [true] := by
  -- On the requests still to come: each takes one place of the shared window.
  induction n generalizing k ws with
  | zero =>
      have hfull : rl.allow 0 c.userID ws = (false, ws) := by
        have hcount : k ≥ rl.limit := by omega
        simp [RateLimiter.allow, hws, hcount]
      simp [decisionsOn, meeting_credential, (meeting_run rl c hnonempty ws).1, hfull]
  | succ n ih =>
      have hroom : rl.allow 0 c.userID ws = (true, ws.enter c.userID ⟨k + 1, rl.windowSize⟩) := by
        have hcount : ¬ k ≥ rl.limit := by omega
        simp [RateLimiter.allow, hws, hcount]
      have hrun := (meeting_run rl d (by rw [hid]; exact hnonempty) ws).2
      rw [hid, hroom] at hrun
      rw [List.replicate_succ, List.cons_append, decisionsOn, meeting_credential]
      simp only [Option.some.injEq, hne, if_false, hrun]
      refine ih (k + 1) _ ?_ (by omega)
      simp [Windows.enter]

/-- Two callers with one user id: after as many requests of the one as a window
    holds, the first request of the other is rejected, which alone would pass. -/
theorem not_isolated_of_shared (rl : RateLimiter) (hlimit : 0 < rl.limit) (c d : Credential)
    (hne : d ≠ c) (hid : d.userID = c.userID) :
    ¬ Isolated c (fun _ => none)
      (List.replicate rl.limit.toNat (meeting rl d) ++ [meeting rl c]) := by
  have hnonempty : c.userID ≠ "" := by
    intro hempty
    rw [hempty] at hid
    cases c with
    | apiKey plaintext isKey => exact absurd hempty (by simp [Credential.userID])
    | user sub =>
        cases d with
        | apiKey plaintext isKey => exact absurd hid (by simp [Credential.userID])
        | user sub' =>
            simp only [Credential.userID] at hempty hid
            exact hne (by rw [hid, hempty])
  have hfirst : rl.allow 0 c.userID (fun _ => none) =
      (true, Windows.enter (fun _ => none) c.userID ⟨1, rl.windowSize⟩) := by
    simp [RateLimiter.allow]
  -- Alone, the one request of the caller passes.
  have halone : requestsOf c (List.replicate rl.limit.toNat (meeting rl d) ++ [meeting rl c]) =
      [meeting rl c] := by
    simp [requestsOf, meeting_credential, hne]
  have hpasses : decisionsOn c (fun _ => none) [meeting rl c] = [false] := by
    simp [decisionsOn, meeting_credential, (meeting_run rl c hnonempty _).1, hfirst]
  have hrejected : decisionsOn c (fun _ => none)
      (List.replicate rl.limit.toNat (meeting rl d) ++ [meeting rl c]) = [true] := by
    rcases hn : rl.limit.toNat with _ | n
    · omega
    · have hrun := (meeting_run rl d (by rw [hid]; exact hnonempty) (fun _ => none)).2
      rw [hid, hfirst] at hrun
      rw [List.replicate_succ, List.cons_append, decisionsOn, meeting_credential]
      simp only [Option.some.injEq, hne, if_false, hrun]
      refine used_up rl c d hne hid hnonempty n 1 _ ?_ (by omega)
      simp [Windows.enter]
  unfold Isolated
  rw [halone, hpasses, hrejected]
  decide

/-- All callers of a set are isolated from each other in every sequence of
    requests they make exactly when no two of them are given the same user id.
    API keys all are. -/
theorem rate_isolation_iff (rl : RateLimiter) (hlimit : 0 < rl.limit) (S : Credential → Prop) :
    (∀ reqs : List TimedRequest, (∀ r ∈ reqs, r.host.evalRateLimiter = rl) →
        (∀ r ∈ reqs, ∀ d, r.credential = some d → S d) → ∀ c, S c →
          Isolated c (fun _ => none) reqs) ↔
      ∀ c d, S c → S d → c.userID = d.userID → c = d := by
  refine ⟨fun hisolated c d hc hd hid => ?_, fun hapart reqs _ hreqs c hc => ?_⟩
  -- Two credentials of one user id: the second spends the window, the first is turned away.
  · by_contra hne
    refine not_isolated_of_shared rl hlimit c d (Ne.symm hne) hid.symm (hisolated _ ?_ ?_ c hc)
    · intro r hr
      rcases List.mem_append.mp hr with hr | hr
      · rw [List.eq_of_mem_replicate hr]
        rfl
      · rw [List.mem_singleton.mp hr]
        rfl
    · intro r hr e he
      rcases List.mem_append.mp hr with hr | hr
      · rw [List.eq_of_mem_replicate hr, meeting_credential, Option.some.injEq] at he
        rw [← he]
        exact hd
      · rw [List.mem_singleton.mp hr, meeting_credential, Option.some.injEq] at he
        rw [← he]
        exact hc
  · refine isolated_of_apart c reqs (fun r hr d hd hid => ?_) _
    exact hapart d c (hreqs r hr d hd) hc hid

/-- Users alone do not disturb each other: many requests of one leave another's
    request alone. -/
theorem rate_isolation_users :
    Isolated (.user "u2") (fun _ => none)
      (List.replicate 600 (meeting ⟨600, 60 * second⟩ (.user "u1")) ++
        [meeting ⟨600, 60 * second⟩ (.user "u2")]) := by
  refine (rate_isolation_iff ⟨600, 60 * second⟩ (by decide) (fun c => ∃ sub, c = .user sub)).mpr
    ?_ _ ?_ ?_ _ ⟨"u2", rfl⟩
  · rintro c d ⟨sub, rfl⟩ ⟨sub', rfl⟩ hid
    exact congrArg Credential.user hid
  · intro r hr
    rcases List.mem_append.mp hr with hr | hr
    · rw [List.eq_of_mem_replicate hr]
      rfl
    · rw [List.mem_singleton.mp hr]
      rfl
  · intro r hr d hd
    rcases List.mem_append.mp hr with hr | hr
    · rw [List.eq_of_mem_replicate hr, meeting_credential, Option.some.injEq] at hd
      exact ⟨"u1", hd.symm⟩
    · rw [List.mem_singleton.mp hr, meeting_credential, Option.some.injEq] at hd
      exact ⟨"u2", hd.symm⟩

/-- Two API keys do. -/
theorem keys_share_a_window : ¬ ∀ (reqs : List TimedRequest) (c : Credential),
    (∀ r ∈ reqs, r.host.evalRateLimiter = ⟨1, second⟩) → Isolated c (fun _ => none) reqs := by
  intro hisolated
  refine not_isolated_of_shared ⟨1, second⟩ (by decide) (.apiKey "cg_shop" (by decide))
    (.apiKey "cg_blog" (by decide)) (by decide) rfl (hisolated _ _ ?_)
  intro r hr
  rcases List.mem_append.mp hr with hr | hr
  · rw [List.eq_of_mem_replicate hr]
    rfl
  · rw [List.mem_singleton.mp hr]
    rfl

end Cuttlegate
