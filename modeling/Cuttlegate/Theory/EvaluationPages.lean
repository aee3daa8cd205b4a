import Cuttlegate.Theory.HistoryPages

/-!
# Pages of the Evaluations

Whether a client that follows the cursors of the evaluations of a flag has read
every one of them once in the end.

Times are stored in microseconds, but the cursor of a full page is the time of
its last evaluation cut off to the second. The next request asks for what
happened before that second, so whatever else happened in it and did not fit on
the page is skipped. The evaluations are read exactly if after every fifty of
them the next one lies in an earlier second.

A request is four operations, the last of which reads the page.

## Main definitions

* `World.evaluationsOf`: The evaluations of a flag in an environment.
* `evaluationHistory`: The evaluations as a history.

## Theorems

* `evaluationHistory_served`: The evaluations are served in pages.
* `evaluation_pages_exact_iff`: When they are read exactly.
-/

namespace Cuttlegate

/-! ## Seconds -/

theorem toSecond_le (t : Time) : toSecond t ≤ t := Nat.sub_le _ _

theorem toSecond_div (t : Time) : toSecond t = t / second * second := by
  have hsplit := Nat.div_add_mod t second
  rw [Nat.mul_comm] at hsplit
  exact Nat.sub_eq_of_eq_add hsplit.symm

theorem toSecond_idem (t : Time) : toSecond (toSecond t) = toSecond t := by
  rw [toSecond_div (toSecond t), toSecond_div t, Nat.mul_div_cancel _ (by decide)]

/-- The date of a time is that of its second. -/
theorem dateOf_toSecond (t : Time) : dateOf (toSecond t) = dateOf t := by
  unfold dateOf
  rw [toSecond_div, Nat.mul_comm 86400 second, ← Nat.div_div_eq_div_mul,
    ← Nat.div_div_eq_div_mul, Nat.mul_div_cancel _ (by decide)]

/-! ## The history -/

/-- The evaluations of a flag of a project in an environment. -/
def World.evaluationsOf (w : World) (projectID environmentID flagKey : String) :
    List EvaluationEvent :=
  (w.evaluations.map Prod.snd).filter (fun e => e.projectID == projectID &&
    e.environmentID == environmentID && e.flagKey == flagKey)

/-- An evaluation as it is shown, in full seconds. -/
def EvaluationEvent.shown (e : EvaluationEvent) : EvaluationEventView :=
  { e.view with occurredAt := toSecond e.occurredAt }

def evaluationHistory (ctx : Ctx) (projSlug envSlug key : String) :
    History EvaluationEventView where
  request before := EvaluationAuditHandler.list ctx projSlug envSlug key before
  answer resp := match resp.body with
    | .evaluationHistory items next => some (items, next)
    | _ => none
  sent := toSecond
  back t := parseRFC3339 (formatRFC3339 t)
  back_le := by
    intro t c hback
    rw [parse_formatRFC3339] at hback
    by_cases hyear : (dateOf (toSecond t)).1 < 10000
    · rw [if_pos hyear, Option.some.injEq, toSecond_idem] at hback
      rw [← hback]
      exact toSecond_le t
    · rw [if_neg hyear] at hback
      exact (nomatch hback)

theorem evaluationHistory_back (ctx : Ctx) (projSlug envSlug key : String) (t : Time) :
    (evaluationHistory ctx projSlug envSlug key).back
        ((evaluationHistory ctx projSlug envSlug key).sent t) =
      if (dateOf t).1 < 10000 then some (toSecond t) else none := by
  simp only [evaluationHistory, parse_formatRFC3339, dateOf_toSecond, toSecond_idem]

section Evaluations

variable (h : HttpHost) (ctx : Ctx) (projSlug envSlug key : String) (proj : Project)
  (env : Environment) (flag : Flag) (ac : AuthContext)

/-- The evaluations as a collection behind a cursor. -/
def evaluationScheme : Keyset.Scheme EvaluationEvent Time :=
  (evaluationHistory ctx projSlug envSlug key).scheme (·.occurredAt) 50 (by decide)

/-- The rows the database returns for a request: the table is read on the
    pool. -/
def evaluationPage (w : World) (order : Sorter) (b : Option Time) : List EvaluationEvent :=
  (order.sort (fun a b => decide (b.occurredAt < a.occurredAt))
    ((evaluationScheme ctx projSlug envSlug key).select
      (if h.host.rls then [] else w.evaluationsOf proj.id env.id key) b)).take 50

theorem listEvaluations_page (w : World) (order : Sorter) (cursor : Option Time) :
    listEvaluations ⟨none, h.host.rls⟩ order proj.id env.id key { before := cursor.getD 0 }
        (w.evaluations.map Prod.snd) =
      evaluationPage h ctx projSlug envSlug key proj env w order (History.bound cursor) := by
  have hrows : (w.evaluations.map Prod.snd).filter (fun e =>
      Conn.sees ⟨none, h.host.rls⟩ e.projectID && e.projectID == proj.id &&
        e.environmentID == env.id && e.flagKey == key &&
        (cursor.getD 0 == 0 || decide (e.occurredAt < cursor.getD 0))) =
      (evaluationScheme ctx projSlug envSlug key).select
        (if h.host.rls then [] else w.evaluationsOf proj.id env.id key)
        (History.bound cursor) := by
    have hpool := filter_pool h.host.rls (·.projectID) (w.evaluations.map Prod.snd) (fun e =>
      e.projectID == proj.id && e.environmentID == env.id && e.flagKey == key)
    rw [World.evaluationsOf, ← hpool, ← select_bound]
    refine List.filter_congr (fun e _ => ?_)
    rw [← Bool.and_assoc (Conn.sees _ _), ← Bool.and_assoc (Conn.sees _ _)]
    rfl
  have hfifty : (normalizeLimit 0).toNatClampNeg = 50 := rfl
  simp only [listEvaluations, EvaluationFilter.normalize, hrows, hfifty]
  rfl

variable (hfails : ∀ k, h.host.fails k = false) (hrole : requireRole ctx.auth .viewer = .ok ac)

include hfails hrole in
/-- The page of a request. -/
theorem run_listEvaluations (w : World) (cursor : Option Time)
    (hflag : flagByKey ⟨ctx.tenant, h.host.rls⟩ proj.id key w.store = .ok (flag, w.store)) :
    Proc.run (exec h.host) (EvaluationAuditService.listEvaluations ctx proj.id env.id key
        { before := cursor.getD 0 }) w =
      (.ok ((evaluationPage h ctx projSlug envSlug key proj env w (h.host.order (w.calls + 1))
        (History.bound cursor)).map EvaluationEvent.view), w.tick.tick) := by
  have hpage := listEvaluations_page h ctx projSlug envSlug key proj env w
    (h.host.order (w.calls + 1)) cursor
  unfold EvaluationAuditService.listEvaluations
  rw [run_require ctx .viewer ac hrole, Proc.run_bind_ok _ _ _ w w.tick flag
    (run_call_query h.host hfails ctx (.flagByKey proj.id key) w _ flag rfl hflag),
    run_call_ok ctx (.listEvaluations proj.id env.id key { before := cursor.getD 0 }) _ w.tick
      w.tick _ (hfails _) rfl, Conn.pool]
  simp only [World.tick_calls, World.tick_evaluations, hpage]
  rfl

include hfails hrole in
/-- The answer to a request. -/
theorem evaluationHistory_answers (s : HttpState) (htx : s.tx = none ∨ s.tx = some none)
    (hproj : s.world.store.projectAt projSlug = some proj)
    (henv : environmentBySlug ⟨ctx.tenant, h.host.rls⟩ proj.id envSlug s.world.store =
      .ok (env, s.world.store))
    (hflag : flagByKey ⟨ctx.tenant, h.host.rls⟩ proj.id key s.world.store =
      .ok (flag, s.world.store))
    (cursor : Option Time) (page : List EvaluationEvent)
    (hpage : page = evaluationPage h ctx projSlug envSlug key proj env s.world
      (h.host.order (s.world.calls + 3)) (History.bound cursor)) :
    ∃ resp, Proc.run (httpExec h)
        ((evaluationHistory ctx projSlug envSlug key).request (cursor.map some)) s =
        (.ok resp, { s with world := s.world.tick.tick.tick.tick }) ∧
      (evaluationHistory ctx projSlug envSlug key).answer resp =
        some (page.map EvaluationEvent.shown,
          if page.length = 50 then page.getLast?.map (fun e => toSecond e.occurredAt)
          else none) := by
  have hevents := run_listEvaluations h ctx projSlug envSlug key proj env flag ac hfails hrole
    s.world.tick.tick cursor hflag
  have hcalls : s.world.tick.tick.calls + 1 = s.world.calls + 3 := rfl
  have hsame : evaluationPage h ctx projSlug envSlug key proj env s.world.tick.tick =
      evaluationPage h ctx projSlug envSlug key proj env s.world := rfl
  rw [hcalls, hsame, ← hpage] at hevents
  refine ⟨⟨200, .evaluationHistory
    ((page.map EvaluationEvent.view).map (fun v => { v with occurredAt := toSecond v.occurredAt }))
    (if (page.map EvaluationEvent.view).length = 50 then
      (page.map EvaluationEvent.view).getLast?.map (fun v => toSecond v.occurredAt) else none)⟩,
    ?_, ?_⟩
  · -- The handler reads the project, the environment and the events, each on the pool.
    change Proc.run (httpExec h)
      (EvaluationAuditHandler.list ctx projSlug envSlug key (cursor.map some)) s = _
    unfold EvaluationAuditHandler.list
    rw [EvaluationHandler.run_hideMissing_ok h (ProjectService.getBySlug ctx projSlug)
      ((Proc.uses_call _).mpr (.inl rfl)) _ s htx proj _
      (run_getBySlug h.host hfails ctx projSlug proj s.world hproj),
      EvaluationHandler.run_hideMissing_ok h (EnvironmentService.getBySlug ctx proj.id envSlug)
      ((Proc.uses_call _).mpr (.inl rfl)) _ ⟨s.world.tick, s.tx, s.windows⟩ htx env _
      (run_call_query h.host hfails ctx (.environmentBySlug proj.id envSlug) s.world.tick _ env rfl
        henv)]
    have hreads : Proc.Uses Call.sparesTx (EvaluationAuditService.listEvaluations ctx proj.id
        env.id key { before := cursor.getD 0 }) :=
      Proc.uses_bind _ _ (Proc.uses_ofExcept _) (fun _ =>
        Proc.uses_bind _ _ ((Proc.uses_call _).mpr (.inl rfl)) (fun _ =>
          Proc.uses_bind _ _ ((Proc.uses_call _).mpr (.inl rfl)) (fun _ => Proc.uses_ret _)))
    have hgo := fun k => run_orWriteError_ok h _ hreads k
      ⟨s.world.tick.tick, s.tx, s.windows⟩ htx _ _ hevents
    cases cursor with
    | none =>
        rw [Option.map_none]
        exact hgo _
    | some c =>
        rw [Option.map_some]
        exact hgo _
  · -- The cursor is the time of the page's last event, and only a full page has one.
    simp only [evaluationHistory, List.length_map, List.getLast?_map, Option.map_map, List.map_map]
    rfl

include hfails in
theorem evaluationHistory_refuses (s : HttpState) (htx : s.tx = none ∨ s.tx = some none)
    (hproj : s.world.store.projectAt projSlug = some proj)
    (henv : environmentBySlug ⟨ctx.tenant, h.host.rls⟩ proj.id envSlug s.world.store =
      .ok (env, s.world.store)) :
    Proc.run (httpExec h) ((evaluationHistory ctx projSlug envSlug key).request (some none)) s =
      (.ok (writeError (.badRequest "invalid_cursor")),
        { s with world := s.world.tick.tick }) := by
  change Proc.run (httpExec h) (EvaluationAuditHandler.list ctx projSlug envSlug key (some none)) s
    = _
  unfold EvaluationAuditHandler.list
  rw [EvaluationHandler.run_hideMissing_ok h (ProjectService.getBySlug ctx projSlug)
    ((Proc.uses_call _).mpr (.inl rfl)) _ s htx proj _
    (run_getBySlug h.host hfails ctx projSlug proj s.world hproj),
    EvaluationHandler.run_hideMissing_ok h (EnvironmentService.getBySlug ctx proj.id envSlug)
    ((Proc.uses_call _).mpr (.inl rfl)) _ ⟨s.world.tick, s.tx, s.windows⟩ htx env _
    (run_call_query h.host hfails ctx (.environmentBySlug proj.id envSlug) s.world.tick _ env rfl
      henv)]
  rfl

/-- The path of the requests names the project, the environment and the flag. -/
structure Resolves (s : Store) : Prop where
  project : s.projectAt projSlug = some proj
  environment : environmentBySlug ⟨ctx.tenant, h.host.rls⟩ proj.id envSlug s = .ok (env, s)
  flag : flagByKey ⟨ctx.tenant, h.host.rls⟩ proj.id key s = .ok (flag, s)

include hfails hrole in
/-- The evaluations are served in pages. -/
theorem evaluationHistory_served (s : HttpState) (htx : s.tx = none ∨ s.tx = some none)
    (hpath : Resolves h ctx projSlug envSlug key proj env flag s.world.store) :
    (evaluationHistory ctx projSlug envSlug key).Served h
      (evaluationScheme ctx projSlug envSlug key) EvaluationEvent.shown
      (fun k => evaluationPage h ctx projSlug envSlug key proj env s.world
        (h.host.order (s.world.calls + 4 * k + 3)))
      (afterRequests 4 s) where
  cut := by
    intro t
    simp only [evaluationScheme, History.scheme]
  refuses := by
    intro k resp s' hrun
    rw [evaluationHistory_refuses h ctx projSlug envSlug key proj env hfails
      (afterRequests 4 s k) htx hpath.project hpath.environment, Prod.mk.injEq,
      Except.ok.injEq] at hrun
    rw [← hrun.1]
    rfl
  answers := by
    intro k cursor
    rcases evaluationHistory_answers h ctx projSlug envSlug key proj env flag ac hfails hrole
      (afterRequests 4 s k) htx hpath.project hpath.environment hpath.flag cursor _ rfl with
      ⟨resp, hrun, hanswer⟩
    rw [afterRequests_succ]
    exact ⟨resp, hrun, hanswer⟩

include hfails hrole in
/-- The evaluations as a collection are read by their clients. -/
theorem evaluationHistory_reads (s : HttpState) (htx : s.tx = none ∨ s.tx = some none)
    (hpath : Resolves h ctx projSlug envSlug key proj env flag s.world.store) :
    (∃ (fuel : Nat) (rows : List EvaluationEvent),
        (evaluationHistory ctx projSlug envSlug key).follow h fuel none s =
          some (rows.map EvaluationEvent.shown) ∧
        rows.Perm (s.world.evaluationsOf proj.id env.id key) ∧
        rows.Pairwise (fun a b => b.occurredAt ≤ a.occurredAt)) ↔
      (h.host.rls = true → s.world.evaluationsOf proj.id env.id key = []) ∧
        (evaluationScheme ctx projSlug envSlug key).Clear
          ((evaluationScheme ctx projSlug envSlug key).sortedKeys
            (s.world.evaluationsOf proj.id env.id key)) :=
  History.reads_shown_iff (evaluationHistory ctx projSlug envSlug key) h
    (evaluationScheme ctx projSlug envSlug key) EvaluationEvent.shown _ (afterRequests 4 s)
    (evaluationHistory_served h ctx projSlug envSlug key proj env flag ac hfails hrole s htx hpath)
    (s.world.evaluationsOf proj.id env.id key) h.host.rls (fun _ _ => isPage_sort _ _ _)

theorem evaluationScheme_clear_iff (events : List EvaluationEvent) :
    (evaluationScheme ctx projSlug envSlug key).Clear
        ((evaluationScheme ctx projSlug envSlug key).sortedKeys events) ↔
      Separated toSecond 50 (events.map (·.occurredAt)) :=
  (evaluationHistory ctx projSlug envSlug key).clear_iff toSecond
    (evaluationHistory_back ctx projSlug envSlug key) (fun e : EvaluationEvent => e.occurredAt) 50
    _ events

include hfails hrole in
/-- A client that starts without a cursor and follows the cursors comes to an
    end and has read every evaluation of the flag once, the latest first,
    exactly if after every fifty of them the next one lies in an earlier
    second, and the cursor can be read; and if row-level security is enforced,
    exactly if there is none. -/
theorem evaluation_pages_exact_iff (s : HttpState) (htx : s.tx = none ∨ s.tx = some none)
    (hpath : Resolves h ctx projSlug envSlug key proj env flag s.world.store) :
    (∃ (fuel : Nat) (rows : List EvaluationEvent),
        (evaluationHistory ctx projSlug envSlug key).follow h fuel none s =
          some (rows.map EvaluationEvent.shown) ∧
        rows.Perm (s.world.evaluationsOf proj.id env.id key) ∧
        rows.Pairwise (fun a b => b.occurredAt ≤ a.occurredAt)) ↔
      (h.host.rls = true → s.world.evaluationsOf proj.id env.id key = []) ∧
        Separated toSecond 50 ((s.world.evaluationsOf proj.id env.id key).map (·.occurredAt)) := by
  rw [evaluationHistory_reads h ctx projSlug envSlug key proj env flag ac hfails hrole s htx hpath,
    evaluationScheme_clear_iff]

end Evaluations

/-- A project with a flag that was evaluated at the given times. -/
def evaluatedAt (times : List Time) : HttpState where
  world :=
    { store :=
        { projects := [⟨"p1", "Shop", "shop", 0⟩]
          environments := [⟨"e1", "p1", "Production", "prod", 0⟩]
          flags := [⟨"f1", "p1", "dark", "Dark mode", .bool, [⟨"true", "On"⟩, ⟨"false", "Off"⟩],
            "false", 0⟩] }
      evaluations := times.zipIdx.map (fun p =>
        ("f1", ⟨sampleUUID p.2, "dark", "p1", "e1", "u2", "", "", "false", .default, p.1⟩)) }
  tx := none
  windows := fun _ => none

theorem evaluatedAt_resolves (times : List Time) :
    Resolves readerHost reader "shop" "prod" "dark" ⟨"p1", "Shop", "shop", 0⟩
      ⟨"e1", "p1", "Production", "prod", 0⟩
      ⟨"f1", "p1", "dark", "Dark mode", .bool, [⟨"true", "On"⟩, ⟨"false", "Off"⟩], "false", 0⟩
      (evaluatedAt times).world.store :=
  ⟨rfl, rfl, rfl⟩

theorem evaluatedAt_times (times : List Time) :
    ((evaluatedAt times).world.evaluationsOf "p1" "e1" "dark").map (·.occurredAt) = times := by
  unfold World.evaluationsOf evaluatedAt
  rw [List.filter_eq_self.mpr, List.map_map, List.map_map]
  · exact List.zipIdx_map_fst 0 times
  · intro e he
    simp only [List.map_map, List.mem_map, Function.comp_apply] at he
    rcases he with ⟨p, _, rfl⟩
    rfl

/-- Fifty times in one second, and one in the second before. -/
def twoSeconds : List Time := in2024 0 :: (List.range 50).map (fun i => in2024 (1000000 + i))

/-- Fifty evaluations and an earlier one are read on two pages. -/
theorem evaluation_pages_exact_apart :
    ∃ (fuel : Nat) (rows : List EvaluationEvent),
      (evaluationHistory reader "shop" "prod" "dark").follow readerHost fuel none
          (evaluatedAt twoSeconds) = some (rows.map EvaluationEvent.shown) ∧
      rows.Perm ((evaluatedAt twoSeconds).world.evaluationsOf "p1" "e1" "dark") ∧
      rows.Pairwise (fun a b => b.occurredAt ≤ a.occurredAt) := by
  refine (evaluation_pages_exact_iff readerHost reader "shop" "prod" "dark" _ _ _
    ⟨"u1", .viewer⟩ (fun _ => rfl) rfl _ (.inl rfl) (evaluatedAt_resolves twoSeconds)).mpr
    ⟨by intro hrls; exact (nomatch hrls), ?_⟩
  rw [evaluatedAt_times]
  intro k hk t ht
  match k, hk with
  | 1, _ =>
      have hlast : (latestFirst twoSeconds)[49]? = some (in2024 1000000) := by decide +kernel
      have hnext : (latestFirst twoSeconds)[50]? = some (in2024 0) := by decide +kernel
      rw [← Option.some.inj (hlast.symm.trans ht)]
      refine ⟨by decide +kernel, by decide +kernel, fun t' ht' => ?_⟩
      rw [← Option.some.inj (hnext.symm.trans ht')]
      decide +kernel
  | k + 2, _ =>
      have hlt := (List.getElem?_eq_some_iff.mp ht).1
      have hlength : (latestFirst twoSeconds).length = 51 := by decide +kernel
      omega

/-- Of fifty-one evaluations in one second the earliest is not read. -/
theorem evaluation_pages_skip_second :
    ¬ ∃ (fuel : Nat) (rows : List EvaluationEvent),
      (evaluationHistory reader "shop" "prod" "dark").follow readerHost fuel none
          (evaluatedAt ((List.range 51).map in2024)) = some (rows.map EvaluationEvent.shown) ∧
      rows.Perm ((evaluatedAt ((List.range 51).map in2024)).world.evaluationsOf "p1" "e1" "dark") ∧
      rows.Pairwise (fun a b => b.occurredAt ≤ a.occurredAt) := by
  rw [evaluationHistory_reads readerHost reader "shop" "prod" "dark" ⟨"p1", "Shop", "shop", 0⟩
    ⟨"e1", "p1", "Production", "prod", 0⟩ _ ⟨"u1", .viewer⟩ (fun _ => rfl) rfl _ (.inl rfl)
    (evaluatedAt_resolves _), evaluationScheme_clear_iff, evaluatedAt_times]
  rintro ⟨_, hseparated⟩
  have hfirst := hseparated 1 (Nat.le_refl 1) (in2024 1) (by decide +kernel)
  exact absurd (hfirst.2.2 (in2024 0) (by decide +kernel)) (by decide +kernel)

end Cuttlegate
