import Cuttlegate.Lib.JsonColumn
import Cuttlegate.Sdk.Evaluation
import Cuttlegate.Theory.HistoryPages
import Cuttlegate.Theory.Scope
import Cuttlegate.Theory.Substitution

/-!
# Evaluation from a Client to the Server and Back

A client sends the user of an evaluation, the request goes through the
authentication by an API key, the transaction of the tenant, the limiter and
the handler, all flags are evaluated, and the client finds the one it asked
for in the response.

The body of the request is decoded to the user it was made of, provided the
server can read every attribute (`decode_requestBody`), and is refused
otherwise. The response is decoded to what was sent by all three clients, each
in its own way. So what a method of a client returns is the evaluation of the
flag on the stored rules, and the same for all three.

The database does not fail during the request, and the limiter lets it pass.

## Main definitions

* `EvalView.result`: What a client makes of a view.

## Theorems

* `decode_requestBody`, `decode_requestBody_none`: The request.
* `Sdk.Go.decodeResponse_json`, `Sdk.Js.parseResponse_json`,
  `Sdk.Python.parseResponse_json`: The response.
* `serve_evaluateAll`: What is answered.
* `evaluate_over_wire`: What the clients return.
-/

namespace Cuttlegate

open Sdk (attributeText)

/-! ## The request -/

/-- A map whose values can be read is read, and what it has no key for stays as
    it was. -/
theorem decodeStringMap_obj (l : List (String × Json)) (old : String → Option String)
    (hkeys : (l.map Prod.fst).Nodup) (hread : ∀ a ∈ l, (attributeText a.2).isSome = true) :
    Json.decodeStringMap old (.obj l) = some (fun k =>
      ((l.find? (fun a => a.1 == k)).bind (fun a => attributeText a.2)).or (old k)) := by
  induction l generalizing old with
  | nil => rfl
  | cons a l ih =>
      rw [List.map_cons, List.nodup_cons] at hkeys
      rcases Option.isSome_iff_exists.mp (hread a List.mem_cons_self) with ⟨text, htext⟩
      have hstep : Json.decodeStringMap old (.obj (a :: l)) =
          Json.decodeStringMap (fun k => if k = a.1 then some text else old k) (.obj l) := by
        unfold attributeText at htext
        rw [Json.decodeStringMap, List.foldlM_cons, htext]
        rfl
      rw [hstep, ih _ hkeys.2 (fun b hb => hread b (List.mem_cons_of_mem _ hb))]
      congr 1
      funext k
      by_cases hk : k = a.1
      · -- The key does not occur again.
        have hnone : l.find? (fun b => b.1 == k) = none := by
          rw [List.find?_eq_none]
          intro b hb hkb
          rw [beq_iff_eq, hk] at hkb
          exact hkeys.1 (hkb ▸ List.mem_map_of_mem hb)
        rw [hnone, List.find?_cons_of_pos (by simp [hk]), if_pos hk]
        simp [htext]
      · rw [List.find?_cons_of_neg (by simpa using Ne.symm hk), if_neg hk]

/-- One value that cannot be read spoils the map. -/
theorem decodeStringMap_none (l : List (String × Json)) (old : String → Option String)
    (a : String × Json) (ha : a ∈ l) (hread : attributeText a.2 = none) :
    Json.decodeStringMap old (.obj l) = none := by
  induction l generalizing old with
  | nil => exact absurd ha List.not_mem_nil
  | cons b l ih =>
      rw [Json.decodeStringMap, List.foldlM_cons]
      rcases List.mem_cons.mp ha with rfl | ha
      · unfold attributeText at hread
        rw [hread]
        rfl
      · cases Json.decodeString "" b.2 with
        | none => rfl
        | some text => exact ih _ ha

/-- The record of the user is what its map of attributes is. -/
theorem decodeEvalContext_json (old : EvalContext) (ctx : Sdk.EvalContext) :
    decodeEvalContext old ctx.json =
      (Json.decodeStringMap old.attributes (ctx.attributes.elim .null .obj)).map
        (fun m => ⟨ctx.userID, m⟩) := by
  have hother : Json.named "user_id" "attributes" = false := by decide
  unfold decodeEvalContext Sdk.EvalContext.json Json.decodeRecord
  simp only [List.foldlM_cons, List.foldlM_nil, Json.named_self, hother, if_true,
    Bool.false_eq_true, if_false, bind_pure]
  rfl

theorem decode_requestBody_map (ctx : Sdk.EvalContext) :
    EvaluateBody.decode (Sdk.requestBody ctx) =
      (Json.decodeStringMap (fun _ => none) (ctx.attributes.elim .null .obj)).map
        (fun m => ⟨some ⟨ctx.userID, m⟩⟩) := by
  have hcontext := decodeEvalContext_json ⟨"", fun _ => none⟩ ctx
  unfold EvaluateBody.decode Sdk.requestBody Json.decodeRecord
  simp only [List.foldlM_cons, List.foldlM_nil]
  rw [if_pos (Json.named_self _), bind_pure]
  change (decodeEvalContext ⟨"", fun _ => none⟩ ctx.json).map _ = _
  rw [hcontext, Option.map_map]
  rfl

/-- The server reads the user that the client has sent. -/
theorem decode_requestBody (ctx : Sdk.EvalContext) (h : ctx.Readable) :
    EvaluateBody.decode (Sdk.requestBody ctx) = some ⟨some ctx.read⟩ := by
  rw [decode_requestBody_map]
  unfold Sdk.EvalContext.read
  have hkeys := ctx.keys
  unfold Sdk.EvalContext.Readable at h
  cases hattrs : ctx.attributes with
  | none => rfl
  | some l =>
      rw [hattrs, Option.getD_some] at hkeys h
      rw [Option.elim_some, decodeStringMap_obj l _ hkeys h]
      simp only [Option.or_none, Option.map_some, Option.getD_some]

theorem decode_requestBody_none (ctx : Sdk.EvalContext) (h : ¬ ctx.Readable) :
    EvaluateBody.decode (Sdk.requestBody ctx) = none := by
  rw [decode_requestBody_map]
  unfold Sdk.EvalContext.Readable at h
  push Not at h
  rcases h with ⟨a, ha, hread⟩
  cases hattrs : ctx.attributes with
  | none =>
      rw [hattrs] at ha
      exact absurd ha List.not_mem_nil
  | some l =>
      rw [hattrs, Option.getD_some] at ha
      rw [Option.elim_some, decodeStringMap_none l _ a ha (by simpa using hread)]
      rfl

/-! ## The response -/

theorem Sdk.Go.decodeFlag_json (f : Sdk.BulkFlag) : Sdk.Go.decodeFlag f.json = some f := by
  unfold Sdk.Go.decodeFlag Sdk.BulkFlag.json Json.decodeRecord
  simp only [List.foldlM_cons, List.foldlM_nil]
  rcases f with ⟨key, enabled, value, valueKey, reason, type⟩
  cases value <;> rfl

theorem Sdk.Go.decodeResponse_json (r : Sdk.BulkResponse) :
    Sdk.Go.decodeResponse r.json = some r := by
  have hflags := Json.decodeList_map Sdk.BulkFlag.json Sdk.Go.decodeFlag (fun f => f) r.flags
    (fun f _ => Sdk.Go.decodeFlag_json f)
  unfold Sdk.Go.decodeResponse Sdk.BulkResponse.json Json.decodeRecord
  simp only [List.foldlM_cons, List.foldlM_nil]
  rw [if_pos (Json.named_self _), hflags, List.map_id']
  rfl

theorem Sdk.Js.parseFlag_json (f : Sdk.BulkFlag) : Sdk.Js.parseFlag f.json = some f := by
  rcases f with ⟨key, enabled, value, valueKey, reason, type⟩
  cases value <;> simp [Sdk.Js.parseFlag, Sdk.BulkFlag.json, Sdk.field, Feed.latest]

theorem Sdk.Js.parseResponse_json (r : Sdk.BulkResponse) :
    Sdk.Js.parseResponse r.json = some r := by
  have hflags := Json.decodeList_map Sdk.BulkFlag.json Sdk.Js.parseFlag (fun f => f) r.flags
    (fun f _ => Sdk.Js.parseFlag_json f)
  rw [Json.decodeList, List.map_id'] at hflags
  simp [Sdk.Js.parseResponse, Sdk.BulkResponse.json, Sdk.field, Feed.latest, hflags]

/-- The Python client does not read the type of a flag. -/
theorem Sdk.Python.parseFlag_json (f : Sdk.BulkFlag) :
    Sdk.Python.parseFlag f.json = .ok { f with type := "" } := by
  rcases f with ⟨key, enabled, value, valueKey, reason, type⟩
  cases value <;> simp [Sdk.Python.parseFlag, Sdk.Python.requiredFlagFields, Sdk.BulkFlag.json,
    Sdk.field, Feed.latest]

theorem Sdk.Python.parseResponse_json (r : Sdk.BulkResponse) :
    Sdk.Python.parseResponse r.json =
      .parsed ⟨r.flags.map (fun f => { f with type := "" }), r.evaluatedAt⟩ := by
  have hflags : (r.flags.map Sdk.BulkFlag.json).mapM Sdk.Python.parseFlag =
      .ok (r.flags.map (fun f => { f with type := "" })) := by
    induction r.flags with
    | nil => rfl
    | cons f flags ih =>
        rw [List.map_cons, List.mapM_cons, Sdk.Python.parseFlag_json, ih]
        rfl
  simp [Sdk.Python.parseResponse, Sdk.BulkResponse.json, Sdk.field, Feed.latest, hflags]

/-! ## The server -/

section Server

variable (h : HttpHost) (hfails : ∀ n, h.host.fails n = false)
include hfails

/-- A plaintext authenticates as the key its hash finds. -/
theorem run_authenticate (token : String) (k : APIKey) (w : World)
    (hfind : w.store.apiKeys.find? (fun k => Conn.sees ⟨none, h.host.rls⟩ k.projectID &&
      k.keyHash == h.host.sha256 token) = some k) (hlive : k.revoked = false) :
    Proc.run (exec h.host) (APIKeyService.authenticate h.host.sha256 ⟨none, none⟩ token) w =
      (.ok (k.projectID, k.environmentID), w.tick) := by
  have hquery := run_call_query h.host hfails ⟨none, none⟩ (.apiKeyByHash (h.host.sha256 token)) w _
    k rfl (by simp only [apiKeyByHash, queryRow, hfind])
  unfold APIKeyService.authenticate APIKeyService.authenticateMCP
  rw [Proc.run_bind, Proc.run_bind, Proc.run_attempt, hquery]
  dsimp only
  rw [run_check]
  simp only [refuseIf, hlive, Bool.false_eq_true, if_false]
  rfl

/-- The answer of a handler in the transaction of its tenant is the answer of
    the request, however the transaction ends. -/
theorem run_tenantRLS (slug : String) (hslug : slug ≠ "")
    (next : Option String → HttpProg Response) (s : HttpState) (htx : s.tx = none)
    (proj : Project) (hproj : s.world.store.projectAt slug = some proj) (resp : Response)
    (s' : HttpState) (hnext : Proc.run (httpExec h) (next (some proj.id))
      { s with world := s.world.tick.tick.tick, tx := some none } = (.ok resp, s')) :
    (Proc.run (httpExec h) (tenantRLS slug next) s).1 = .ok resp := by
  have hfound : httpExec h (.db ⟨none, .projectBySlug slug⟩) s =
      (.ok proj, { s with world := s.world.tick }) := by
    rw [httpExec_read h ⟨none, .projectBySlug slug⟩ rfl s (.inl htx),
      exec_passing h.host _ s.world (hfails _)]
    unfold Store.projectAt at hproj
    simp only [Op.perform, World.onStore, projectBySlug, queryRow, hproj]
  have hbegin : httpExec h .beginTx { s with world := s.world.tick } =
      (.ok (), { s with world := s.world.tick.tick, tx := some none }) := by
    simp only [httpExec, HttpState.manage, hfails, Bool.false_eq_true, if_false]
  have hset : httpExec h (.setTenantContext proj.id)
        { s with world := s.world.tick.tick, tx := some none } =
      (.ok (), { s with world := s.world.tick.tick.tick, tx := some none }) := by
    simp only [httpExec, HttpState.manage, hfails, Bool.false_eq_true, if_false]
  unfold tenantRLS
  rw [if_neg hslug, run_orWriteError, Proc.run_call, hfound]
  dsimp only
  rw [Proc.run_bind, Proc.run_attempt, Proc.run_call, hbegin]
  dsimp only
  rw [Proc.run_bind, Proc.run_attempt, Proc.run_call, hset]
  dsimp only
  rw [Proc.run_bind, hnext]
  dsimp only
  by_cases hbad : resp.status ≥ 400
  · rw [if_pos hbad]
    rfl
  · rw [if_neg hbad, Proc.run_bind, Proc.run_attempt]
    rfl

/-- The flags of a project, in the order in which they are listed. -/
theorem run_evaluateAll (s : Store) (hs : EvalStore h.host.uuid s) (projectID environmentID : String)
    (evalCtx : EvalContext) (w : World) (hw : w.store = s) :
    ∃ out w' listed, Proc.run (exec h.host) (EvaluationService.evaluateAll h.host.sortSlice
        ⟨some ⟨"api-key", .viewer⟩, some projectID⟩ projectID environmentID evalCtx) w =
        (.ok out, w') ∧
      (∀ f, f ∈ listed ↔ f ∈ s.flags ∧ f.projectID = projectID) ∧
      List.Forall₂ (fun f v => viewOf h.host.sortSlice ⟨some projectID, h.host.rls⟩ s projectID
        environmentID evalCtx f = .ok v) listed out.1 := by
  have hreads : Reads s w := ⟨by rw [hw], by rw [hw], by rw [hw], by rw [hw], by rw [hw]⟩
  rcases EvaluationService.evaluateAll_ends h.host hfails
    ⟨some ⟨"api-key", .viewer⟩, some projectID⟩ s hs projectID environmentID evalCtx
    ⟨"api-key", .viewer⟩ rfl (le_refl _) w hreads with ⟨⟨out, hrun, hviews⟩, _⟩
  refine ⟨out, _, _, Prod.ext hrun rfl, fun f => ?_, hviews⟩
  rw [Sorter.mem_sort, List.mem_filter]
  simp only [sees_own, beq_iff_eq]

/-- The path of a request names the project and environment of the key it is
    made with, and the limiter lets it pass. -/
structure KeyRequest.Admitted (req : KeyRequest) (h : HttpHost) (s : HttpState) (proj : Project)
    (env : Environment) : Prop where
  closed : s.tx = none
  project : s.world.store.projectAt req.projSlug = some proj
  environment : s.world.store.environmentAt proj.id req.envSlug = some env
  key : ∃ k, req.Presents h s.world.store k ∧ k.projectID = proj.id ∧ k.environmentID = env.id
  limiter : ∀ now, (h.evalRateLimiter.allow now "api-key" s.windows).1 = true

/-- What a request for an evaluation comes to, once its path has been found and is
    in the scope of the key, is settled by its body. -/
theorem run_resolveEvalRequest (scope : Option APIKeyScope) (projSlug envSlug : String)
    (auth : Option AuthContext) (body : Option Json)
    (k : Project → Environment → EvalContext → HttpProg Response) (s : HttpState)
    (htx : s.tx = none ∨ s.tx = some none) (proj : Project) (env : Environment)
    (hproject : s.world.store.projectAt projSlug = some proj)
    (henvironment : s.world.store.environmentAt proj.id envSlug = some env)
    (hscope : apiKeyScopeAllows scope proj.id env.id = true)
    (p : Except Err Response × HttpState)
    (hread : ∀ c, body.bind EvaluateBody.decode = some ⟨some c⟩ →
      Proc.run (httpExec h) (k proj env c) { s with world := s.world.tick.tick } = p)
    (hbad : body.bind EvaluateBody.decode = none →
      (.ok (writeError (.badRequest "invalid request body")),
        { s with world := s.world.tick.tick }) = p)
    (hempty : body.bind EvaluateBody.decode = some ⟨none⟩ →
      (.ok (writeError (.badRequest "context is required")),
        { s with world := s.world.tick.tick }) = p) :
    Proc.run (httpExec h) (EvaluationHandler.resolveEvalRequest ⟨auth, some proj.id⟩ scope
      projSlug envSlug body k) s = p := by
  have henv : environmentBySlug ⟨some proj.id, h.host.rls⟩ proj.id envSlug s.world.store =
      .ok (env, s.world.store) := by
    have hfound := henvironment
    unfold Store.environmentAt at hfound
    simp only [environmentBySlug, queryRow, sees_own, hfound]
  unfold EvaluationHandler.resolveEvalRequest
  rw [EvaluationHandler.run_hideMissing_ok h (ProjectService.getBySlug _ projSlug)
    ((Proc.uses_call _).mpr (.inl rfl)) _ s htx proj _
    (run_getBySlug h.host hfails _ projSlug proj s.world hproject),
    EvaluationHandler.run_hideMissing_ok h (EnvironmentService.getBySlug _ proj.id envSlug)
    ((Proc.uses_call _).mpr (.inl rfl)) _ { s with world := s.world.tick } htx
    env _ (run_call_query h.host hfails _ (.environmentBySlug proj.id envSlug)
      s.world.tick _ env rfl henv), if_neg (by rw [hscope]; decide)]
  cases hdecoded : body.bind EvaluateBody.decode with
  | none => exact hbad hdecoded
  | some b =>
      rcases b with ⟨context⟩
      cases context with
      | none => exact hempty hdecoded
      | some c => exact hread c hdecoded

/-- A request that can be read is answered with the views of the flags of the
    project, and one that cannot is refused. -/
theorem serve_evaluateAll (w : Writer) (req : KeyRequest) (ctx : Sdk.EvalContext)
    (hroute : req.route = .evaluateAll (some (Sdk.requestBody ctx))) (s : HttpState)
    (proj : Project) (env : Environment) (hreq : req.Admitted h s proj env)
    (hs : EvalStore h.host.uuid s.world.store) :
    (ctx.Readable → ∃ (out : List EvalView × Time) (listed : List Flag),
      (Proc.run (httpExec h) (req.serve h w) s).1 = .ok ⟨200, .evaluations out.1 out.2⟩ ∧
      (∀ f, f ∈ listed ↔ f ∈ s.world.store.flags ∧ f.projectID = proj.id) ∧
      List.Forall₂ (fun f v => viewOf h.host.sortSlice ⟨some proj.id, h.host.rls⟩ s.world.store
        proj.id env.id ctx.read f = .ok v) listed out.1) ∧
    (¬ ctx.Readable → (Proc.run (httpExec h) (req.serve h w) s).1 =
      .ok (writeError (.badRequest "invalid request body"))) := by
  rcases hreq.key with ⟨k, ⟨token, htoken, hcg, hlive, hfind⟩, hproject, henvironment⟩
  have hspares := within_sparesTx (APIKeyService.authenticate h.host.sha256 ⟨none, none⟩ token) []
    (within_bind _ _ (APIKeyService.authenticateMCP_within _ _ token) (fun _ => within_ret _))
    (List.nil_subset _)
  -- The state in which the handler starts, and what it makes of the request.
  let start : HttpState := afterLimit h
    { s with world := s.world.tick.tick.tick.tick, tx := some none }
  have hchain : ∀ resp s', Proc.run (httpExec h) (EvaluationHandler.evaluateAll h.host.sortSlice
      ⟨some ⟨"api-key", .viewer⟩, some proj.id⟩ (some ⟨k.projectID, k.environmentID⟩) req.projSlug
      req.envSlug (some (Sdk.requestBody ctx))) start = (.ok resp, s') →
      (Proc.run (httpExec h) (req.serve h w) s).1 = .ok resp := by
    intro resp s' hrun
    unfold KeyRequest.serve requireBearerOrAPIKey
    rw [htoken]
    simp only [if_pos hcg]
    rw [Proc.run_bind, Proc.run_attempt, run_onDB_pool h _ hspares s (.inl hreq.closed),
      run_authenticate h hfails token k s.world hfind hlive]
    refine run_tenantRLS h hfails req.projSlug req.projSlug_ne _ { s with world := s.world.tick }
      hreq.closed proj hreq.project resp s' ?_
    rw [hroute]
    dsimp only
    rw [run_limit, if_neg (by rw [hreq.limiter]; decide)]
    exact hrun
  have hscope : apiKeyScopeAllows (some ⟨k.projectID, k.environmentID⟩) proj.id env.id = true := by
    rw [apiKeyScopeAllows, hproject, henvironment, beq_self_eq_true, beq_self_eq_true]
    rfl
  refine ⟨fun hread => ?_, fun hread => ?_⟩
  · rcases run_evaluateAll h hfails s.world.store hs proj.id env.id ctx.read start.world.tick.tick
      rfl with ⟨out, w', listed, hrun, hlisted, hviews⟩
    refine ⟨out, listed, ?_, hlisted, hviews⟩
    refine hchain _ { start with world := w' } ?_
    refine run_resolveEvalRequest h hfails _ _ _ _ _ _ start (.inr rfl) proj env hreq.project
      hreq.environment hscope _ (fun c hc => ?_) (fun hnone => ?_) (fun hempty => ?_)
    · cases (decode_requestBody ctx hread).symm.trans hc
      exact run_orWriteError_ok h _ (within_sparesTx _ _
        (EvaluationService.evaluateAll_within _ _ _ _ _) (by decide)) _ _ (.inr rfl) _ _ hrun
    · cases (decode_requestBody ctx hread).symm.trans hnone
    · cases (decode_requestBody ctx hread).symm.trans hempty
  · refine hchain _ { start with world := start.world.tick.tick } ?_
    refine run_resolveEvalRequest h hfails _ _ _ _ _ _ start (.inr rfl) proj env hreq.project
      hreq.environment hscope _ (fun c hc => ?_) (fun _ => rfl) (fun hempty => ?_)
    · cases (decode_requestBody_none ctx hread).symm.trans hc
    · cases (decode_requestBody_none ctx hread).symm.trans hempty

end Server

/-! ## The clients -/

section Clients

variable (defaults : List (String × Sdk.Go.FlagDefault)) (timeout : Nat) (r : Sdk.BulkResponse)
  (key : String)

theorem Sdk.Go.evaluate_json : Sdk.Go.evaluate (Sdk.Go.reply 200 (some r.json)) key =
    (Feed.latest Sdk.BulkFlag.key key r.flags).elim (.error (.flagNotFound key))
      (fun f => .ok (Sdk.Go.resultOf r.evaluatedAt f)) := by
  have hentry : Sdk.Go.results r key =
      (Feed.latest Sdk.BulkFlag.key key r.flags).map (Sdk.Go.resultOf r.evaluatedAt) := by
    rw [Sdk.Go.results, Feed.fill_eq]
  rw [Sdk.Go.reply, Option.bind_some, Sdk.Go.decodeResponse_json]
  simp only [Sdk.Go.evaluate, Sdk.Go.doBulkEval, Nat.reduceEqDiff, or_self, if_false, ge_iff_le,
    Nat.reduceLeDiff, ne_eq, not_true, bind, Except.bind, hentry]
  cases Feed.latest Sdk.BulkFlag.key key r.flags <;> rfl

/-- This client takes the first flag with the key, not the last one. -/
theorem Sdk.Js.evaluate_json :
    Sdk.Js.createClient.evaluate timeout defaults (Sdk.Js.answer 200 (some r.json)) key =
      (r.flags.find? (fun f => f.key == key)).elim
        (.error ⟨"not_found", "Flag \"" ++ key ++ "\" not found"⟩)
        (fun f => .ok ⟨f.key, f.enabled, f.value, f.variant, f.reason, r.evaluatedAt⟩) := by
  have hok : Sdk.Js.evaluateAll timeout defaults (Sdk.Js.answer 200 (some r.json)) =
      .ok (Sdk.Js.resultsOf r) := by
    rw [Sdk.Js.answer, Option.elim_some, Sdk.Js.parseResponse_json]
    rfl
  have hentry : (Sdk.Js.resultsOf r).find? (fun result => result.key == key) =
      (r.flags.find? (fun f => f.key == key)).map (fun f =>
        ⟨f.key, f.enabled, f.value, f.variant, f.reason, r.evaluatedAt⟩) :=
    List.find?_map
  unfold Sdk.Js.createClient.evaluate
  rw [hok]
  simp only [bind, Except.bind, hentry]
  cases r.flags.find? (fun f => f.key == key) <;> rfl

theorem Sdk.Python.evaluate_json :
    Sdk.Python.evaluate defaults (Sdk.Python.answer 200 (some r.json)) key =
      (Feed.latest Sdk.BulkFlag.key key r.flags).elim (.error (.sdk (.flagNotFound key)))
        (fun f => .ok ⟨f.key, f.enabled, f.valueText, f.valueKey, f.reason, r.evaluatedAt⟩) := by
  have hok : Sdk.Python.evaluateAll defaults (Sdk.Python.answer 200 (some r.json)) =
      .ok (Sdk.Python.parseBulkResponse
        ⟨r.flags.map (fun f => { f with type := "" }), r.evaluatedAt⟩) := by
    rw [Sdk.Python.answer, Option.elim_some, Sdk.Python.parseResponse_json]
    rfl
  unfold Sdk.Python.evaluate
  rw [hok]
  simp only [bind, Except.bind, Sdk.Python.pick, Sdk.Python.parseBulkResponse, Feed.fill_eq,
    Feed.latest_map]
  cases Feed.latest Sdk.BulkFlag.key key r.flags <;> rfl

end Clients

/-- A view as a client returns it. -/
def EvalView.result {Value : Type} (v : EvalView) (value : Option String → Value)
    (evaluatedAt : String) : Sdk.EvalResult Value where
  key := v.key
  enabled := v.enabled
  value := value v.value
  variant := v.valueKey
  reason := v.reason.text
  evaluatedAt := evaluatedAt

/-- What the Go, the JavaScript and the Python client return for a key, given
    what the server has answered. -/
def clientsReturn (format : Time → String) (timeout : Nat)
    (defaults : List (String × Sdk.Go.FlagDefault)) (resp : Response) (key : String) :
    Except Sdk.ClientErr (Sdk.EvalResult String) ×
      Except Sdk.Js.CuttlegateError (Sdk.EvalResult (Option String)) ×
        Except Sdk.Python.Raised (Sdk.EvalResult String) :=
  (Sdk.Go.evaluate (Sdk.Go.reply resp.status (Sdk.bulkBody format resp.body)) key,
    Sdk.Js.createClient.evaluate timeout defaults
      (Sdk.Js.answer resp.status (Sdk.bulkBody format resp.body)) key,
    Sdk.Python.evaluate defaults (Sdk.Python.answer resp.status (Sdk.bulkBody format resp.body))
      key)

section OverWire

variable {srt : Sorter} {conn : Conn} {s : Store} {projectID environmentID : String}
  {evalCtx : EvalContext} {uuid : String → Option String} (hs : EvalStore uuid s)
  {listed : List Flag} (hlisted : ∀ f, f ∈ listed ↔ f ∈ s.flags ∧ f.projectID = projectID)
  {views : List EvalView} (hviews : List.Forall₂ (fun f v =>
    viewOf srt conn s projectID environmentID evalCtx f = .ok v) listed views)
  (format : Time → String) (timeout : Nat) (defaults : List (String × Sdk.Go.FlagDefault))
  (evaluatedAt : Time)
include hlisted hviews

include hs in
/-- For the key of a flag the clients return its view. -/
theorem clientsReturn_flag (f : Flag) (hf : f ∈ s.flags) (hproject : f.projectID = projectID) :
    ∃ v, viewOf srt conn s projectID environmentID evalCtx f = .ok v ∧
      clientsReturn format timeout defaults ⟨200, .evaluations views evaluatedAt⟩ f.key =
        (.ok (v.result (·.getD "") (format evaluatedAt)),
          .ok (v.result (fun value => value) (format evaluatedAt)),
          .ok (v.result (·.getD "") (format evaluatedAt))) := by
  have hin := (hlisted f).mpr ⟨hf, hproject⟩
  rcases Rows.forall₂_mem_right hviews.flip f hin with ⟨v, hv, hview⟩
  have hkey := viewOf_key _ _ _ _ _ _ f v hview
  -- Keys are unique in the project, so no other view has this one.
  have hone : ∀ v' ∈ views, v'.key = f.key → v' = v := by
    intro v' hv' hkey'
    rcases Rows.forall₂_mem_right hviews v' hv' with ⟨g, hg, hview'⟩
    have hgf : g = f := hs.keys g ((hlisted g).mp hg).1 f hf
      (((hlisted g).mp hg).2.trans hproject.symm)
      ((viewOf_key _ _ _ _ _ _ g v' hview').symm.trans hkey')
    rw [hgf, hview] at hview'
    exact (Except.ok.inj hview').symm
  have hflag : Sdk.evaluateResponse v ∈ views.map Sdk.evaluateResponse :=
    List.mem_map_of_mem hv
  have hsame : ∀ g ∈ views.map Sdk.evaluateResponse, g.key = f.key →
      g = Sdk.evaluateResponse v := by
    intro g hg hgkey
    rcases List.mem_map.mp hg with ⟨v', hv', rfl⟩
    rw [hone v' hv' hgkey]
  have hlast : Feed.latest Sdk.BulkFlag.key f.key (views.map Sdk.evaluateResponse) =
      some (Sdk.evaluateResponse v) := by
    rw [← hkey]
    exact Feed.latest_unique Sdk.BulkFlag.key _ _ hflag
      (fun g hg hgkey => hsame g hg (hgkey.trans hkey))
  have hfind : (views.map Sdk.evaluateResponse).find? (fun g => g.key == f.key) =
      some (Sdk.evaluateResponse v) := by
    refine (Rows.find_unique_iff _ _ (fun a ha b hb hka hkb => ?_) _).mpr
      ⟨hflag, beq_iff_eq.mpr hkey⟩
    rw [beq_iff_eq] at hka hkb
    rw [hsame a ha hka, hsame b hb hkb]
  have hvariant := viewOf_variant _ _ _ _ _ _ f v hview
  refine ⟨v, hview, ?_⟩
  unfold clientsReturn Sdk.bulkBody
  dsimp only
  rw [Sdk.Go.evaluate_json, Sdk.Js.evaluate_json, Sdk.Python.evaluate_json]
  simp only [Sdk.evaluateAllResponse, hlast, hfind, Option.elim_some, Sdk.Go.resultOf, hvariant]
  rfl

/-- For another key they find nothing. -/
theorem clientsReturn_missing (key : String)
    (hnone : ∀ f ∈ s.flags, f.projectID = projectID → f.key ≠ key) :
    clientsReturn format timeout defaults ⟨200, .evaluations views evaluatedAt⟩ key =
      (.error (.flagNotFound key), .error ⟨"not_found", "Flag \"" ++ key ++ "\" not found"⟩,
        .error (.sdk (.flagNotFound key))) := by
  have hother : ∀ g ∈ views.map Sdk.evaluateResponse, g.key ≠ key := by
    intro g hg hkey
    rcases List.mem_map.mp hg with ⟨v, hv, rfl⟩
    rcases Rows.forall₂_mem_right hviews v hv with ⟨f, hf, hview⟩
    exact hnone f ((hlisted f).mp hf).1 ((hlisted f).mp hf).2
      ((viewOf_key _ _ _ _ _ _ f v hview).symm.trans hkey)
  have hlast := (Feed.latest_none Sdk.BulkFlag.key key _).mpr hother
  have hfind : (views.map Sdk.evaluateResponse).find? (fun g => g.key == key) = none := by
    rw [List.find?_eq_none]
    intro g hg hkey
    exact hother g hg (beq_iff_eq.mp hkey)
  unfold clientsReturn Sdk.bulkBody
  dsimp only
  rw [Sdk.Go.evaluate_json, Sdk.Js.evaluate_json, Sdk.Python.evaluate_json]
  simp only [Sdk.evaluateAllResponse, hlast, hfind, Option.elim_none]

end OverWire

/-- Of a refused request the clients report the status, or answer from their
    defaults. -/
theorem clientsReturn_refused (format : Time → String) (timeout : Nat)
    (defaults : List (String × Sdk.Go.FlagDefault)) (message key : String) :
    clientsReturn format timeout defaults (writeError (.badRequest message)) key =
      (.error (.unexpected 400), .error ⟨"network_error", "Server returned 400"⟩,
        if defaults.length > 0 then Sdk.Python.pick (Sdk.Python.defaultsAsResults defaults) key
        else .error (.sdk (.unexpected 400))) := by
  have hjs : Sdk.Js.evaluateAll timeout defaults (.answered 400 .invalid) =
      .error ⟨"network_error", "Server returned 400"⟩ := by
    have hclient : ¬ (defaults.length > 0 ∧ 400 ≥ 500) := by omega
    unfold Sdk.Js.evaluateAll
    simp only [if_neg hclient]
    rfl
  refine Prod.ext rfl (Prod.ext ?_ ?_)
  · change Sdk.Js.createClient.evaluate timeout defaults (.answered 400 .invalid) key = _
    rw [Sdk.Js.createClient.evaluate, hjs]
    rfl
  · change Sdk.Python.evaluate defaults (.answered 400 .invalid) key = _
    by_cases hdefaults : defaults.length > 0
    · simp [Sdk.Python.evaluate, Sdk.Python.evaluateAll, Sdk.Python.doPost, bind, Except.bind,
        hdefaults]
    · simp [Sdk.Python.evaluate, Sdk.Python.evaluateAll, Sdk.Python.doPost, bind, Except.bind,
        hdefaults]

/-- Whatever the flags, states, rules and segments of a project: a client that
    asks for a flag with a key of its environment gets the evaluation of the
    flag for the user it has sent, and learns of a flag that does not exist
    that it is not there, in all three languages alike. If the user has an
    attribute that is no string, the request is refused; the Python client
    then answers from its defaults, where it has some. -/
theorem evaluate_over_wire (h : HttpHost) (hfails : ∀ n, h.host.fails n = false) (w : Writer)
    (req : KeyRequest) (ctx : Sdk.EvalContext)
    (hroute : req.route = .evaluateAll (some (Sdk.requestBody ctx))) (s : HttpState)
    (proj : Project) (env : Environment) (hreq : req.Admitted h s proj env)
    (hs : EvalStore h.host.uuid s.world.store) (format : Time → String) (timeout : Nat)
    (defaults : List (String × Sdk.Go.FlagDefault)) :
    ∃ resp, (Proc.run (httpExec h) (req.serve h w) s).1 = .ok resp ∧
      (ctx.Readable →
        (∃ evaluatedAt, ∀ f ∈ s.world.store.flags, f.projectID = proj.id → ∃ v,
          viewOf h.host.sortSlice ⟨some proj.id, h.host.rls⟩ s.world.store proj.id env.id ctx.read
            f = .ok v ∧
          clientsReturn format timeout defaults resp f.key =
            (.ok (v.result (·.getD "") evaluatedAt), .ok (v.result (fun value => value) evaluatedAt),
              .ok (v.result (·.getD "") evaluatedAt))) ∧
        ∀ key, (∀ f ∈ s.world.store.flags, f.projectID = proj.id → f.key ≠ key) →
          clientsReturn format timeout defaults resp key =
            (.error (.flagNotFound key), .error ⟨"not_found", "Flag \"" ++ key ++ "\" not found"⟩,
              .error (.sdk (.flagNotFound key)))) ∧
      (¬ ctx.Readable → ∀ key, clientsReturn format timeout defaults resp key =
        (.error (.unexpected 400), .error ⟨"network_error", "Server returned 400"⟩,
          if defaults.length > 0 then Sdk.Python.pick (Sdk.Python.defaultsAsResults defaults) key
          else .error (.sdk (.unexpected 400)))) := by
  have hserve := serve_evaluateAll h hfails w req ctx hroute s proj env hreq hs
  by_cases hread : ctx.Readable
  · rcases hserve.1 hread with ⟨⟨views, evaluatedAt⟩, listed, hrun, hlisted, hviews⟩
    refine ⟨_, hrun, fun _ => ⟨⟨format evaluatedAt, fun f hf hproject => ?_⟩, fun key hnone => ?_⟩,
      fun hnot => absurd hread hnot⟩
    · exact clientsReturn_flag hs hlisted hviews format timeout defaults evaluatedAt f hf hproject
    · exact clientsReturn_missing hlisted hviews format timeout defaults evaluatedAt key hnone
  · refine ⟨_, hserve.2 hread, fun hyes => absurd hyes hread, fun _ key => ?_⟩
    exact clientsReturn_refused format timeout defaults _ key

/-- A paying user. -/
def payingUser : Sdk.EvalContext := ⟨"u1", some [("plan", .str "pro")], by decide⟩

/-- The request of a client for the paying user. -/
def evaluateForPaying : KeyRequest where
  authorization := "Bearer cg_demo"
  projSlug := "shop"
  projSlug_ne := shop_ne_empty
  envSlug := "prod"
  route := .evaluateAll (some (Sdk.requestBody payingUser))

theorem evaluateForPaying_admitted : evaluateForPaying.Admitted keyHost (shopAnd [] [])
    ⟨"p1", "Shop", "shop", 0⟩ ⟨"e1", "p1", "Production", "prod", 0⟩ where
  closed := rfl
  project := rfl
  environment := rfl
  key := ⟨shopKey, ⟨"cg_demo", by decide, by decide, rfl, by decide⟩, rfl, rfl⟩
  limiter _ := rfl

theorem shopAnd_evalStore : EvalStore keyHost.host.uuid (shopAnd [] []).world.store := by
  refine ⟨by decide, by decide, fun flagID environmentID => ?_, by decide, by decide⟩
  exact List.Nodup.sublist (List.filter_sublist.map _) (by decide)

/-- The rule for paying users decides, in all three languages. -/
theorem evaluate_over_wire_paying :
    ∃ resp evaluatedAt, clientsReturn (fun _ => "now") 5000 [] resp "dark-mode" =
      (.ok ⟨"dark-mode", true, "", "true", "rule_match", evaluatedAt⟩,
        .ok ⟨"dark-mode", true, none, "true", "rule_match", evaluatedAt⟩,
        .ok ⟨"dark-mode", true, "", "true", "rule_match", evaluatedAt⟩) := by
  have hread : payingUser.Readable := by
    intro a ha
    rw [List.mem_singleton.mp ha]
    rfl
  rcases evaluate_over_wire keyHost (fun _ => rfl) ⟨true⟩ evaluateForPaying payingUser rfl
    (shopAnd [] []) _ _ evaluateForPaying_admitted shopAnd_evalStore (fun _ => "now") 5000 [] with
    ⟨resp, _, hyes, _⟩
  rcases (hyes hread).1 with ⟨evaluatedAt, hflags⟩
  rcases hflags darkMode List.mem_cons_self rfl with ⟨v, hview, hreturn⟩
  refine ⟨resp, evaluatedAt, ?_⟩
  have hv : v = ⟨"dark-mode", true, none, "true", .ruleMatch, .bool⟩ :=
    Except.ok.inj (hview.symm.trans (by decide +kernel))
  rw [hv] at hreturn
  exact hreturn

end Cuttlegate
