import Cuttlegate.Adapters.Handlers
import Cuttlegate.Lib.Rows

/-!
# Databases That Agree

Evaluation reads rows of one project and one of its environments only, so two
databases that agree on those give the same results.

Two runs of a service are compared statement by statement. Every answer of the
database on the way is the same; the one that may differ, that of the audit
event for a segment that is gone, is ignored. Time, failures and drawn
identifiers are those of the surroundings, so they are the same in both runs
when as many operations went before.

## Main definitions

* `AgreeOn`: Two databases agree on a project and an environment.
* `Store.Keyed`: The unique constraints of the schema.
* `Matched`, `Repeats`: Two runs of a service, step by step.

## Theorems

* `EvaluationService.evaluate_repeats`, `EvaluationService.evaluateAll_repeats`:
  Evaluation depends on the project and environment only.
-/

namespace Cuttlegate

/-! ## Agreement -/

/-- Two databases agree on what belongs to a project and to an environment. -/
structure AgreeOn (uuid : String → Option String) (projectID environmentID : String)
    (s t : Store) : Prop where
  projects : t.projects.filter (fun p => p.id == projectID) =
    s.projects.filter (fun p => p.id == projectID)
  environments : t.environments.filter (fun e => e.id == environmentID) =
    s.environments.filter (fun e => e.id == environmentID)
  flags : t.flags.filter (fun f => f.projectID == projectID) =
    s.flags.filter (fun f => f.projectID == projectID)
  states : t.states.filter (fun st => st.environmentID == environmentID) =
    s.states.filter (fun st => st.environmentID == environmentID)
  rules : t.rules.filter (fun r => r.environmentID == environmentID) =
    s.rules.filter (fun r => r.environmentID == environmentID)
  segments : t.segments.filter (fun g => g.projectID == projectID) =
    s.segments.filter (fun g => g.projectID == projectID)
  segmentMembers : ∀ g ∈ s.segments, g.projectID = projectID → ∀ id, uuid g.id = some id →
    t.segmentMembers.filter (fun m => m.segmentID == id) =
      s.segmentMembers.filter (fun m => m.segmentID == id)
  apiKeys : t.apiKeys.filter (fun k => k.projectID == projectID && k.environmentID == environmentID)
    = s.apiKeys.filter (fun k => k.projectID == projectID && k.environmentID == environmentID)

/-- The unique constraints of the schema on slugs and on the hashes of keys. -/
structure Store.Keyed (s : Store) : Prop where
  projects : ∀ p ∈ s.projects, ∀ q ∈ s.projects, p.slug = q.slug → p = q
  environments : ∀ d ∈ s.environments, ∀ e ∈ s.environments, d.projectID = e.projectID →
    d.slug = e.slug → d = e
  apiKeys : ∀ j ∈ s.apiKeys, ∀ k ∈ s.apiKeys, j.keyHash = k.keyHash → j = k

/-- Everything but the records evaluation leaves of itself is as it was. -/
def Unchanged (w₀ w : World) : Prop :=
  ∀ t, t ∉ [Tbl.auditEvents, .evaluations] → w₀.Same w t

/-- Two worlds on the way of two runs: as many operations have been asked for
    in both, and both still have the rows they started with. -/
structure Matched (w₀ v₀ w v : World) : Prop where
  calls : v.calls = w.calls
  left : Unchanged w₀ w
  right : Unchanged v₀ v

theorem Matched.start (w v : World) (hcalls : v.calls = w.calls) : Matched w v w v :=
  ⟨hcalls, fun t _ => w.same_refl t, fun t _ => v.same_refl t⟩

/-- Agreement lasts as long as the rows do. -/
theorem Matched.agree (uuid : String → Option String) (projectID environmentID : String)
    (w₀ v₀ w v : World) (hm : Matched w₀ v₀ w v)
    (hagree : AgreeOn uuid projectID environmentID w₀.store v₀.store) :
    AgreeOn uuid projectID environmentID w.store v.store := by
  -- Both runs write audit rows and evaluations only, and no table compared is one of them.
  have hw : ∀ t, t ∉ [Tbl.auditEvents, .evaluations] → w₀.Same w t := hm.left
  have hv : ∀ t, t ∉ [Tbl.auditEvents, .evaluations] → v₀.Same v t := hm.right
  refine ⟨?_, ?_, ?_, ?_, ?_, ?_, ?_, ?_⟩
  · rw [hw .projects (by decide), hv .projects (by decide)]
    exact hagree.projects
  · rw [hw .environments (by decide), hv .environments (by decide)]
    exact hagree.environments
  · rw [hw .flags (by decide), hv .flags (by decide)]
    exact hagree.flags
  · rw [hw .states (by decide), hv .states (by decide)]
    exact hagree.states
  · rw [hw .rules (by decide), hv .rules (by decide)]
    exact hagree.rules
  · rw [hw .segments (by decide), hv .segments (by decide)]
    exact hagree.segments
  · rw [hw .segments (by decide), hw .segmentMembers (by decide), hv .segmentMembers (by decide)]
    exact hagree.segmentMembers
  · rw [hw .apiKeys (by decide), hv .apiKeys (by decide)]
    exact hagree.apiKeys

/-! ## What a statement answers -/

section Statements

variable {uuid : String → Option String} {projectID environmentID : String} {s t : Store}

/-- A query for one row answers alike where it finds the same. -/
theorem queryRow_congr {α : Type} (f : Store → Option α) (h : f t = f s) :
    (queryRow f t).map Prod.fst = (queryRow f s).map Prod.fst := by
  unfold queryRow
  rw [h]
  cases f s with
  | none => rfl
  | some a => rfl

theorem query_congr {α : Type} (f : Store → α) (h : f t = f s) :
    (query f t).map Prod.fst = (query f s).map Prod.fst := by
  unfold query
  rw [h]
  rfl

variable (hagree : AgreeOn uuid projectID environmentID s t)
include hagree

theorem AgreeOn.flagByKey (conn : Conn) (key : String) :
    (Cuttlegate.flagByKey conn projectID key t).map Prod.fst
      = (Cuttlegate.flagByKey conn projectID key s).map Prod.fst := by
  refine queryRow_congr _ (Rows.find_congr _ _ s.flags t.flags (fun f hf => ?_) hagree.flags)
  simp only [Bool.and_eq_true] at hf
  exact hf.1.2

theorem AgreeOn.listFlags (conn : Conn) (order : Sorter) :
    (Cuttlegate.listFlags conn order projectID t).map Prod.fst
      = (Cuttlegate.listFlags conn order projectID s).map Prod.fst := by
  have hsame := Rows.filter_congr (fun f : Flag => f.projectID == projectID)
    (fun f => conn.sees f.projectID && f.projectID == projectID) s.flags t.flags
    (fun f hf => (Bool.and_eq_true_iff.mp hf).2) hagree.flags
  exact query_congr _ (congrArg _ hsame)

theorem AgreeOn.stateOf (flagID : String) :
    (Cuttlegate.stateOf flagID environmentID t).map Prod.fst
      = (Cuttlegate.stateOf flagID environmentID s).map Prod.fst := by
  refine query_congr _ (Rows.find_congr _ _ s.states t.states (fun st hst => ?_) hagree.states)
  exact (Bool.and_eq_true_iff.mp hst).2

theorem AgreeOn.listStates (order : Sorter) :
    (Cuttlegate.listStates order environmentID t).map Prod.fst
      = (Cuttlegate.listStates order environmentID s).map Prod.fst :=
  query_congr _ (congrArg _ hagree.states)

theorem AgreeOn.listRulesByFlagEnvironment (order : Sorter) (flagID : String) :
    (Cuttlegate.listRulesByFlagEnvironment order flagID environmentID t).map Prod.fst
      = (Cuttlegate.listRulesByFlagEnvironment order flagID environmentID s).map Prod.fst := by
  have hsame := Rows.filter_congr (fun r : Rule => r.environmentID == environmentID)
    (fun r => r.flagID == flagID && r.environmentID == environmentID) s.rules t.rules
    (fun r hr => (Bool.and_eq_true_iff.mp hr).2) hagree.rules
  exact query_congr _ (congrArg _ hsame)

theorem AgreeOn.listRulesByEnvironment (order : Sorter) :
    (Cuttlegate.listRulesByEnvironment order environmentID t).map Prod.fst
      = (Cuttlegate.listRulesByEnvironment order environmentID s).map Prod.fst :=
  query_congr _ (congrArg _ hagree.rules)

theorem AgreeOn.segmentBySlug (conn : Conn) (slug : String) :
    (Cuttlegate.segmentBySlug conn projectID slug t).map Prod.fst
      = (Cuttlegate.segmentBySlug conn projectID slug s).map Prod.fst := by
  refine queryRow_congr _
    (Rows.find_congr _ _ s.segments t.segments (fun g hg => ?_) hagree.segments)
  simp only [Bool.and_eq_true] at hg
  exact hg.1.2

/-- Membership in a segment of the project. -/
theorem AgreeOn.isMember (g : Segment) (hg : g ∈ s.segments) (hproj : g.projectID = projectID)
    (userKey : String) :
    (Cuttlegate.isMember uuid g.id userKey t).map Prod.fst
      = (Cuttlegate.isMember uuid g.id userKey s).map Prod.fst := by
  unfold Cuttlegate.isMember
  cases hid : uuid g.id with
  | none => rfl
  | some id =>
      have hany : ∀ l : List SegmentMember,
          l.any (fun m => m.segmentID == id && m.userKey == userKey) =
            (l.filter (fun m => m.segmentID == id)).any (fun m => m.userKey == userKey) := by
        intro l
        rw [List.any_filter]
      simp only [Except.map, hany, hagree.segmentMembers g hg hproj id hid]

end Statements

/-! ## Two runs of an evaluation -/

theorem exec_answer (h : Host) (c : Call) (w : World) :
    (exec h c w).1 = if h.fails w.calls && c.op.fallible then .error .internal
      else (c.op.perform h ⟨c.tenant, h.rls⟩ w).map Prod.fst := by
  unfold exec
  split
  · rfl
  · cases c.op.perform h ⟨c.tenant, h.rls⟩ w with
    | error e => rfl
    | ok r => rfl

theorem World.onStore_answer {α : Type} (w : World) (st : Stmt α) :
    (w.onStore st).map Prod.fst = (st w.store).map Prod.fst := by
  unfold World.onStore
  cases st w.store with
  | error e => rfl
  | ok r => rfl

section Runs

variable (h : Host) (ctx : Ctx) {w₀ v₀ : World}

/-- An operation of an evaluation keeps the worlds matched. -/
theorem Matched.exec (c : Call) (hc : c.op.writes ⊆ [.auditEvents, .evaluations]) (w v : World)
    (hm : Matched w₀ v₀ w v) : Matched w₀ v₀ (exec h c w).2 (exec h c v).2 := by
  have hframe : ∀ (w : World) t, t ∉ [Tbl.auditEvents, .evaluations] →
      w.Same (Cuttlegate.exec h c w).2 t := fun w t ht =>
    exec_frame h c w t (fun hmem => ht (hc hmem))
  refine ⟨?_, fun t ht => ?_, fun t ht => ?_⟩
  · rw [exec_calls, exec_calls, hm.calls]
  · exact World.same_trans _ _ _ t (hm.left t ht) (hframe w t ht)
  · exact World.same_trans _ _ _ t (hm.right t ht) (hframe v t ht)

/-- A program has the same outcome in two runs from matched worlds. -/
def Repeats {α : Type} (w₀ v₀ : World) (p : Prog α) : Prop :=
  ∀ w v, Matched w₀ v₀ w v → Proc.Pairs (exec h) (Proc.Alike (Matched w₀ v₀)) p w v

theorem repeats_ret {α : Type} (a : α) : Repeats h w₀ v₀ (Proc.ret a : Prog α) :=
  fun _ _ hm => ⟨rfl, hm⟩

theorem repeats_fail {α : Type} (e : Err) : Repeats h w₀ v₀ (Proc.fail e : Prog α) :=
  fun _ _ hm => ⟨rfl, hm⟩

theorem repeats_check {α : Type} (x : Except Err α) : Repeats h w₀ v₀ (check x) :=
  fun w v hm => Proc.pairs_ofExcept x w v hm

theorem repeats_bind {α β : Type} (x : Prog α) (f : α → Prog β) (hx : Repeats h w₀ v₀ x)
    (hf : ∀ a, Repeats h w₀ v₀ (f a)) : Repeats h w₀ v₀ (x >>= f) := by
  intro w v hm
  refine Proc.pairs_bind x f w v (hx w v hm) (fun _ _ _ hm' => ⟨rfl, hm'⟩) ?_
  intro a w' v' _ hm'
  exact hf a w' v' hm'

theorem repeats_attempt {α : Type} (x : Prog α) (hx : Repeats h w₀ v₀ x) :
    Repeats h w₀ v₀ x.attempt :=
  fun w v hm => Proc.pairs_attempt x w v (hx w v hm)

/-- An operation that answers alike. -/
theorem repeats_call (op : Op) (hop : op.writes ⊆ [.auditEvents, .evaluations])
    (hans : ∀ w v, Matched w₀ v₀ w v → (op.perform h ⟨ctx.tenant, h.rls⟩ w).map Prod.fst =
      (op.perform h ⟨ctx.tenant, h.rls⟩ v).map Prod.fst) : Repeats h w₀ v₀ (ctx.call op) := by
  intro w v hm
  refine Proc.pairs_call (⟨ctx.tenant, op⟩ : Call) w v ?_ (hm.exec h _ hop w v)
  rw [exec_answer, exec_answer, hm.calls, hans w v hm]

/-- A statement that answers alike on the two databases. -/
theorem repeats_stmt (op : Op) (hop : op.writes = []) (stmt : Nat → Stmt op.Ret)
    (hperform : ∀ w, op.perform h ⟨ctx.tenant, h.rls⟩ w = w.onStore (stmt w.calls))
    (hans : ∀ w v, Matched w₀ v₀ w v → ∀ n,
      (stmt n v.store).map Prod.fst = (stmt n w.store).map Prod.fst) :
    Repeats h w₀ v₀ (ctx.call op) := by
  refine repeats_call h ctx op (by rw [hop]; exact List.nil_subset _) (fun w v hm => ?_)
  rw [hperform, hperform, World.onStore_answer, World.onStore_answer, hm.calls, hans w v hm]

/-- The audit event may or may not be stored. Nothing depends on it. -/
theorem recordDeletedSegmentAudit_repeats (flagID environmentID slug : String) :
    Repeats h w₀ v₀ (recordDeletedSegmentAudit ctx flagID environmentID slug) := by
  intro w v hm
  unfold Proc.Pairs recordDeletedSegmentAudit
  rw [run_bestEffort, run_bestEffort, Ctx.call, Proc.run_call, Proc.run_call]
  exact ⟨rfl, hm.exec h _ (by simp [Op.writes]) w v⟩

theorem publishEvent_repeats (projectID environmentID : String) (flag : Flag)
    (evalCtx : EvalContext) (result : EvalResult) (now : Time) :
    Repeats h w₀ v₀ (publishEvent ctx projectID environmentID flag evalCtx result now) := by
  refine repeats_bind h _ _ (repeats_attempt h _ (repeats_call h ctx _ (by simp [Op.writes]) ?_)) ?_
  · intro w v hm
    simp only [Op.perform, World.draw, hm.calls]
    cases h.newUUID w.calls with
    | none => rfl
    | some id => rfl
  · intro r
    cases r with
    | error e => exact repeats_ret h ()
    | ok id => exact repeats_call h ctx _ (by simp [Op.writes]) (fun _ _ _ => rfl)

theorem now_repeats : Repeats h w₀ v₀ (ctx.call .now) :=
  repeats_call h ctx .now (by simp [Op.writes])
    (fun _ _ hm => congrArg (fun n => Except.ok (h.now n)) hm.calls.symm)

variable {projectID environmentID : String}
  (hagree : AgreeOn h.uuid projectID environmentID w₀.store v₀.store)
include hagree

theorem resolveLoop_repeats (flagID userKey : String) (slugs : List String) :
    Repeats h w₀ v₀ (resolveLoop ctx projectID flagID environmentID userKey slugs) := by
  induction slugs with
  | nil => exact repeats_ret h []
  | cons slug rest ih =>
      have hfind : Repeats h w₀ v₀ (ctx.call (.segmentBySlug projectID slug)) :=
        repeats_stmt h ctx _ rfl (fun _ => segmentBySlug ⟨ctx.tenant, h.rls⟩ projectID slug)
          (fun _ => rfl) (fun w v hm _ => (hm.agree _ _ _ _ _ _ _ hagree).segmentBySlug _ slug)
      intro w v hm
      refine Proc.pairs_bind _ _ w v (repeats_attempt h _ hfind w v hm)
        (fun _ _ _ hm' => ⟨rfl, hm'⟩)
        ?_
      intro r w' v' hrun hm'
      split
      · exact repeats_bind h _ _ (recordDeletedSegmentAudit_repeats h ctx _ _ slug) (fun _ => ih)
          w' v' hm'
      · exact repeats_fail h _ w' v' hm'
      · rename_i seg
        -- The segment found is one of the project.
        have hseg : seg ∈ w₀.store.segments ∧ seg.projectID = projectID := by
          rw [Proc.run_attempt, Ctx.call, Proc.run_call, Prod.mk.injEq, Except.ok.injEq] at hrun
          rcases exec_ok h ⟨ctx.tenant, .segmentBySlug projectID slug⟩ w _ seg
            (Prod.ext hrun.1 rfl) with ⟨w₁, hp, _⟩
          have hfound := (World.onStore_queryRow w w₁ _ seg hp).1
          rw [hm.left .segments (by decide)] at hfound
          have hgood := List.find?_some hfound
          simp only [Bool.and_eq_true, beq_iff_eq] at hgood
          exact ⟨List.mem_of_find?_eq_some hfound, hgood.1.2⟩
        refine repeats_bind h _ _ ?_ (fun member => ?_) w' v' hm'
        · refine repeats_stmt h ctx _ rfl (fun _ => isMember h.uuid seg.id userKey) (fun _ => rfl)
            (fun w v hm _ => ?_)
          refine (hm.agree _ _ _ _ _ _ _ hagree).isMember seg ?_ hseg.2 userKey
          rw [hm.left .segments (by decide)]
          exact hseg.1
        · exact repeats_bind h _ _ ih (fun found => repeats_ret h _)

theorem resolveSegments_repeats (flagID : String) (rules : List Rule) (userKey : String) :
    Repeats h w₀ v₀ (resolveSegments ctx projectID flagID environmentID rules userKey) := by
  unfold resolveSegments
  by_cases hnone : (segmentRefs rules).length = 0
  · simp only [if_pos hnone]
    exact repeats_ret h []
  · simp only [if_neg hnone]
    refine repeats_bind h _ _ ?_ (fun keys => resolveLoop_repeats h ctx hagree flagID userKey keys)
    refine repeats_call h ctx _ (by simp [Op.writes]) (fun w v hm => ?_)
    simp only [Op.perform, hm.calls]
    rfl

theorem EvaluationService.evaluate_repeats (srt : Sorter) (flagKey : String)
    (evalCtx : EvalContext) : Repeats h w₀ v₀
      (EvaluationService.evaluate srt ctx projectID environmentID flagKey evalCtx) := by
  refine repeats_bind h _ _ (repeats_check h _) (fun _ => ?_)
  refine repeats_bind h _ _ ?_ (fun flag => ?_)
  · exact repeats_stmt h ctx _ rfl (fun _ => flagByKey ⟨ctx.tenant, h.rls⟩ projectID flagKey)
      (fun _ => rfl) (fun w v hm _ => (hm.agree _ _ _ _ _ _ _ hagree).flagByKey _ flagKey)
  refine repeats_bind h _ _ ?_ (fun state => ?_)
  · exact repeats_stmt h ctx _ rfl (fun _ => stateOf flag.id environmentID) (fun _ => rfl)
      (fun w v hm _ => (hm.agree _ _ _ _ _ _ _ hagree).stateOf flag.id)
  refine repeats_bind h _ _ ?_ (fun rules => ?_)
  · exact repeats_stmt h ctx _ rfl
      (fun n => listRulesByFlagEnvironment (h.order n) flag.id environmentID) (fun _ => rfl)
      (fun w v hm n => (hm.agree _ _ _ _ _ _ _ hagree).listRulesByFlagEnvironment _ flag.id)
  refine repeats_bind h _ _ (resolveSegments_repeats h ctx hagree _ rules _) (fun segs => ?_)
  refine repeats_bind h _ _ (now_repeats h ctx) (fun now => ?_)
  refine repeats_bind h _ _ (repeats_check h _) (fun result => ?_)
  exact repeats_bind h _ _ (publishEvent_repeats h ctx _ _ flag evalCtx result now)
    (fun _ => repeats_ret h _)

theorem EvaluationService.evaluateLoop_repeats (srt : Sorter) (evalCtx : EvalContext)
    (evaluatedAt : Time) (stateByFlag : String → Option FlagEnvironmentState)
    (rulesByFlag : String → List Rule) (flags : List Flag) : Repeats h w₀ v₀
      (EvaluationService.evaluateLoop srt ctx projectID environmentID evalCtx evaluatedAt
        stateByFlag rulesByFlag flags) := by
  induction flags with
  | nil => exact repeats_ret h []
  | cons flag rest ih =>
      refine repeats_bind h _ _ (resolveSegments_repeats h ctx hagree _ _ _) (fun segs => ?_)
      refine repeats_bind h _ _ (repeats_check h _) (fun result => ?_)
      refine repeats_bind h _ _ (publishEvent_repeats h ctx _ _ flag _ _ _) (fun _ => ?_)
      exact repeats_bind h _ _ ih (fun views => repeats_ret h _)

theorem EvaluationService.evaluateAll_repeats (srt : Sorter) (evalCtx : EvalContext) :
    Repeats h w₀ v₀
      (EvaluationService.evaluateAll srt ctx projectID environmentID evalCtx) := by
  refine repeats_bind h _ _ (repeats_check h _) (fun _ => ?_)
  refine repeats_bind h _ _ (now_repeats h ctx) (fun evaluatedAt => ?_)
  refine repeats_bind h _ _ ?_ (fun flags => ?_)
  · exact repeats_stmt h ctx _ rfl (fun n => listFlags ⟨ctx.tenant, h.rls⟩ (h.order n) projectID)
      (fun _ => rfl) (fun w v hm n => (hm.agree _ _ _ _ _ _ _ hagree).listFlags _ _)
  refine repeats_bind h _ _ ?_ (fun states => ?_)
  · exact repeats_stmt h ctx _ rfl (fun n => listStates (h.order n) environmentID) (fun _ => rfl)
      (fun w v hm n => (hm.agree _ _ _ _ _ _ _ hagree).listStates _)
  refine repeats_bind h _ _ ?_ (fun rules => ?_)
  · exact repeats_stmt h ctx _ rfl (fun n => listRulesByEnvironment (h.order n) environmentID)
      (fun _ => rfl) (fun w v hm n => (hm.agree _ _ _ _ _ _ _ hagree).listRulesByEnvironment _)
  exact repeats_bind h _ _
    (EvaluationService.evaluateLoop_repeats h ctx hagree srt evalCtx _ _ _ flags)
    (fun views => repeats_ret h _)

end Runs

end Cuttlegate
