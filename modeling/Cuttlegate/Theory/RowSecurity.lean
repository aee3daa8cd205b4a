import Mathlib.Data.List.Find
import Cuttlegate.Adapters.Routes
import Cuttlegate.Theory.NestedRoutes
import Cuttlegate.Theory.Scope

/-!
# Row-Level Security and Behaviour

The database can protect the rows of a tenant: a statement then sees and writes
a protected row only when the connection it runs on was set up for the project
of the row. The policies are meant to change nothing for requests that stay
inside one project.

They do change something. A connection is set up by one middleware only, so
what runs before it or beside it is shut out: the lookup of an API key happens
before, the audit log and the evaluations are written and read on the pool, the
member of a new project is inserted on the pool, and the tool server uses
nothing but the pool.

`Op.touches` lists the projects whose protected rows a statement selects or
inserts, and a statement is `Admitted` when its connection is set up for all of
them. A request all of whose statements are admitted is answered the same and
leaves the same rows, whether or not the policies are enforced.

## Main definitions

* `Op.touches`: The protected rows a statement selects or inserts.
* `Call.scope`, `Call.Admitted`: The project a connection is set up for, and
  the statements it suffices for.
* `Host.enforced`, `Host.bypassed`: The two ways to run the database.
* `HttpOp.Admitted`, `HttpRequest.Admitted`, `McpOp.Admitted`,
  `McpRoute.Admitted`: The same for operations and whole requests of the two
  servers.
* `Outcome`, `HttpRequest.outcome`, `McpRoute.outcome`: The response to a
  request and the rows it leaves.

## Theorems

* `Op.perform_admitted`, `exec_admitted`: The policies do not change an
  admitted statement.
* `httpExec_admitted`, `mcpExec_admitted`: Nor an admitted operation.
* `policies_unseen`: Nor a request of admitted statements.
* `policies_seen`: In general they do.
-/

namespace Cuttlegate

/-! ## Protected rows -/

/-- The projects of the rows that meet a condition. -/
def projectsOf {α : Type} (rows : List α) (project : α → String) (cond : α → Bool) :
    List String :=
  (rows.filter cond).map project

/-- The projects of the protected rows a statement selects or inserts. Tables
    without a policy do not count. -/
def Op.touches (h : Host) (w : World) : Op → List String
  | .addMember m => [m.projectID]
  | .listMembers p => projectsOf w.store.members (·.projectID) (fun m => m.projectID == p)
  | .updateMemberRole p u _ | .removeMember p u =>
      projectsOf w.store.members (·.projectID) (fun m => m.projectID == p && m.userID == u)
  | .createEnvironment e => [e.projectID]
  | .environmentBySlug p slug =>
      projectsOf w.store.environments (·.projectID) (fun e => e.projectID == p && e.slug == slug)
  | .listEnvironments p =>
      projectsOf w.store.environments (·.projectID) (fun e => e.projectID == p)
  | .renameEnvironment id _ | .deleteEnvironment id =>
      projectsOf w.store.environments (·.projectID) (fun e => e.id == id)
  | .createFlag f => [f.projectID]
  | .flagByKey p key =>
      projectsOf w.store.flags (·.projectID) (fun f => f.projectID == p && f.key == key)
  | .listFlags p | .countFlags p _ | .pageFlags p _ =>
      projectsOf w.store.flags (·.projectID) (fun f => f.projectID == p)
  | .updateFlag f => projectsOf w.store.flags (·.projectID) (fun g => g.id == f.id)
  | .deleteFlag id => projectsOf w.store.flags (·.projectID) (fun g => g.id == id)
  -- Segment ids are compared as UUIDs, in whatever spelling they come.
  | .createSegment g => [g.projectID]
  | .segmentBySlug p slug =>
      projectsOf w.store.segments (·.projectID) (fun g => g.projectID == p && g.slug == slug)
  | .listSegments p | .listSegmentsWithCount p =>
      projectsOf w.store.segments (·.projectID) (fun g => g.projectID == p)
  | .renameSegment id _ | .deleteSegment id =>
      projectsOf w.store.segments (·.projectID) (fun g => h.uuid id == some g.id)
  | .createAPIKey k => [k.projectID]
  | .apiKeyByID id => projectsOf w.store.apiKeys (·.projectID) (fun k => k.id == id)
  | .apiKeyByHash hash => projectsOf w.store.apiKeys (·.projectID) (fun k => k.keyHash == hash)
  | .listAPIKeys p e =>
      projectsOf w.store.apiKeys (·.projectID)
        (fun k => k.projectID == p && k.environmentID == e)
  | .revokeAPIKey id | .updateAPIKeyTier id _ =>
      projectsOf w.store.apiKeys (·.projectID) (fun k => k.id == id && k.revokedAt.isNone)
  | .recordAudit a => [a.projectID]
  | .listAuditEvents p _ =>
      projectsOf w.store.auditEvents (·.projectID) (fun a => a.projectID == p)
  | .listEvaluations p e key _ | .evaluationBuckets p e key _ _ =>
      projectsOf (w.evaluations.map Prod.snd) (·.projectID)
        (fun v => v.projectID == p && v.environmentID == e && v.flagKey == key)
  | .publishEvaluation _ e => [e.projectID]
  | _ => []

/-- The project the connection of a statement is set up for. -/
def Call.scope (c : Call) : Option String := if c.op.onTenant then c.tenant else none

/-- The connection is set up for every row the statement touches. -/
def Call.Admitted (h : Host) (c : Call) (w : World) : Prop :=
  ∀ p ∈ c.op.touches h w, c.scope = some p

instance (h : Host) (c : Call) (w : World) : Decidable (c.Admitted h w) :=
  inferInstanceAs (Decidable (∀ p ∈ _, _))

/-! ## Admitted statements -/

section Statements

variable {α : Type} (tenant : Option String)

/-- Under the policy a row that meets the condition still does, when the
    connection is set up for all of these rows. -/
theorem sees_admitted (rows : List α) (project : α → String) (cond : α → Bool)
    (h : ∀ p ∈ projectsOf rows project cond, tenant = some p) :
    ∀ a ∈ rows, (Conn.sees ⟨tenant, true⟩ (project a) && cond a) =
      (Conn.sees ⟨tenant, false⟩ (project a) && cond a) := by
  intro a ha
  by_cases hcond : cond a = true
  · have htenant := h (project a) (List.mem_map_of_mem (List.mem_filter.mpr ⟨ha, hcond⟩))
    simp [Conn.sees, htenant]
  · simp [hcond]

theorem isMemberRow_admitted (p u : String) (rows : List ProjectMember)
    (h : ∀ q ∈ projectsOf rows (·.projectID) (fun m => m.projectID == p && m.userID == u),
      tenant = some q) :
    ∀ m ∈ rows, Conn.isMemberRow ⟨tenant, true⟩ p u m = Conn.isMemberRow ⟨tenant, false⟩ p u m := by
  intro m hm
  simpa only [Conn.isMemberRow, Bool.and_assoc] using sees_admitted tenant _ _ _ h m hm

theorem isLiveKeyRow_admitted (id : String) (rows : List APIKey)
    (h : ∀ q ∈ projectsOf rows (·.projectID) (fun k => k.id == id && k.revokedAt.isNone),
      tenant = some q) :
    ∀ k ∈ rows, Conn.isLiveKeyRow ⟨tenant, true⟩ id k = Conn.isLiveKeyRow ⟨tenant, false⟩ id k := by
  intro k hk
  simpa only [Conn.isLiveKeyRow, Bool.and_assoc] using sees_admitted tenant _ _ _ h k hk

theorem isEnvironmentRow_admitted (id : String) (rows : List Environment)
    (h : ∀ q ∈ projectsOf rows (·.projectID) (fun e => e.id == id), tenant = some q) :
    ∀ e ∈ rows,
      Conn.isEnvironmentRow ⟨tenant, true⟩ id e = Conn.isEnvironmentRow ⟨tenant, false⟩ id e :=
  sees_admitted tenant _ _ _ h

theorem isFlagRow_admitted (id : String) (rows : List Flag)
    (h : ∀ q ∈ projectsOf rows (·.projectID) (fun f => f.id == id), tenant = some q) :
    ∀ f ∈ rows, Conn.isFlagRow ⟨tenant, true⟩ id f = Conn.isFlagRow ⟨tenant, false⟩ id f :=
  sees_admitted tenant _ _ _ h

/-- The evaluations of a slot are joined before the rest of the condition. -/
theorem isSlotRow_admitted (p e key : String) (rows : List EvaluationEvent)
    (h : ∀ q ∈ projectsOf rows (·.projectID)
      (fun v => v.projectID == p && v.environmentID == e && v.flagKey == key), tenant = some q)
    (since interval slot : Time) :
    ∀ v ∈ rows,
      (Conn.sees ⟨tenant, true⟩ v.projectID && dateTrunc interval v.occurredAt == slot &&
        v.projectID == p && v.environmentID == e && v.flagKey == key &&
        decide (since ≤ v.occurredAt)) =
      (Conn.sees ⟨tenant, false⟩ v.projectID && dateTrunc interval v.occurredAt == slot &&
        v.projectID == p && v.environmentID == e && v.flagKey == key &&
        decide (since ≤ v.occurredAt)) := by
  intro v hv
  have hrow := sees_admitted tenant _ _ _ h v hv
  have hmove : ∀ a : Bool,
      (a && dateTrunc interval v.occurredAt == slot && v.projectID == p && v.environmentID == e &&
        v.flagKey == key && decide (since ≤ v.occurredAt)) =
      (a && (v.projectID == p && v.environmentID == e && v.flagKey == key) &&
        (dateTrunc interval v.occurredAt == slot && decide (since ≤ v.occurredAt))) := fun a => by
    rw [Bool.eq_iff_iff]
    simp only [Bool.and_eq_true]
    tauto
  rw [hmove, hmove, hrow]

/-- A segment is addressed by any spelling of its identifier. -/
theorem isSegmentRow_admitted (host : Host) (id key : String) (rows : List Segment)
    (hid : host.uuid id = some key)
    (h : ∀ q ∈ projectsOf rows (·.projectID) (fun g => host.uuid id == some g.id),
      tenant = some q) :
    ∀ g ∈ rows,
      Conn.isSegmentRow ⟨tenant, true⟩ key g = Conn.isSegmentRow ⟨tenant, false⟩ key g := by
  intro g hg
  have hrow := sees_admitted tenant _ _ _ h g hg
  have hkey : (host.uuid id == some g.id) = (g.id == key) := by
    rw [hid, Bool.eq_iff_iff, beq_iff_eq, beq_iff_eq, Option.some.injEq, eq_comm]
  rw [hkey] at hrow
  exact hrow

theorem any_congr_mem (rows : List α) (p q : α → Bool) (h : ∀ a ∈ rows, p a = q a) :
    rows.any p = rows.any q := by
  rw [Bool.eq_iff_iff, List.any_eq_true, List.any_eq_true]
  refine exists_congr (fun a => and_congr_right (fun ha => ?_))
  rw [h a ha]

/-- An insert into a protected table. -/
theorem insert_admitted (project : String) (h : ∀ p ∈ [project], tenant = some p) :
    Conn.sees ⟨tenant, true⟩ project = Conn.sees ⟨tenant, false⟩ project := by
  simp [Conn.sees, h project List.mem_cons_self]

theorem rewrite_congr (rows : List α) (p q : α → Bool) (f : α → α) (h : ∀ a ∈ rows, p a = q a) :
    rows.map (fun a => if p a then f a else a) = rows.map (fun a => if q a then f a else a) := by
  refine List.map_congr_left (fun a ha => ?_)
  rw [h a ha]

theorem reject_congr (rows : List α) (p q : α → Bool) (h : ∀ a ∈ rows, p a = q a) :
    rows.filter (fun a => !p a) = rows.filter (fun a => !q a) := by
  refine List.filter_congr (fun a ha => ?_)
  rw [h a ha]

end Statements

theorem Store.dropFlags_congr (s : Store) (p q : Flag → Bool) (h : ∀ f ∈ s.flags, p f = q f) :
    s.dropFlags p = s.dropFlags q := by
  unfold Store.dropFlags
  rw [List.filter_congr h, reject_congr _ _ _ h]

theorem Store.dropEnvironments_congr (s : Store) (p q : Environment → Bool)
    (h : ∀ e ∈ s.environments, p e = q e) : s.dropEnvironments p = s.dropEnvironments q := by
  unfold Store.dropEnvironments
  rw [List.filter_congr h, reject_congr _ _ _ h]

theorem Store.dropSegments_congr (s : Store) (p q : Segment → Bool)
    (h : ∀ g ∈ s.segments, p g = q g) : s.dropSegments p = s.dropSegments q := by
  unfold Store.dropSegments
  rw [List.filter_congr h, reject_congr _ _ _ h]

/-- A further condition on the rows does not matter. -/
theorem and_congr_rows {α : Type} (rows : List α) (p q extra : α → Bool)
    (h : ∀ a ∈ rows, p a = q a) : ∀ a ∈ rows, (p a && extra a) = (q a && extra a) := by
  intro a ha
  rw [h a ha]

/-- The policies do not change an admitted statement. -/
theorem Op.perform_admitted (h : Host) (tenant : Option String) (op : Op) (w : World)
    (hop : (⟨tenant, op⟩ : Call).Admitted h w) :
    op.perform h ⟨tenant, true⟩ w = op.perform h ⟨tenant, false⟩ w := by
  unfold Call.Admitted Call.scope at hop
  cases op <;> simp only [Op.onTenant, if_true, Bool.false_eq_true, if_false, Op.touches] at hop <;>
    simp only [Op.perform, World.onStore]
  -- Inserts.
  case addMember m =>
    simp only [Cuttlegate.addMember, insert_admitted tenant m.projectID hop]
  case createEnvironment e =>
    simp only [Cuttlegate.createEnvironment, insert_admitted tenant e.projectID hop]
  case createFlag f =>
    simp only [Cuttlegate.createFlag, insert_admitted tenant f.projectID hop]
  case createSegment g =>
    simp only [Cuttlegate.createSegment, insert_admitted tenant g.projectID hop]
  case createAPIKey k =>
    simp only [Cuttlegate.createAPIKey, insert_admitted tenant k.projectID hop]
  case recordAudit a =>
    exact absurd (hop a.projectID List.mem_cons_self) (by simp)
  -- Queries.
  case listMembers p =>
    have hrow := sees_admitted tenant _ _ _ hop
    simp only [Cuttlegate.listMembers, query, List.filter_congr hrow]
  case environmentBySlug p slug =>
    have hrow := sees_admitted tenant _ _ _ hop
    simp only [Cuttlegate.environmentBySlug, queryRow, Bool.and_assoc, List.find?_congr hrow]
  case listEnvironments p =>
    have hrow := sees_admitted tenant _ _ _ hop
    simp only [Cuttlegate.listEnvironments, query, List.filter_congr hrow]
  case flagByKey p key =>
    have hrow := sees_admitted tenant _ _ _ hop
    simp only [Cuttlegate.flagByKey, queryRow, Bool.and_assoc, List.find?_congr hrow]
  case listFlags p =>
    have hrow := sees_admitted tenant _ _ _ hop
    simp only [Cuttlegate.listFlags, query, List.filter_congr hrow]
  case countFlags p search =>
    have hrow := sees_admitted tenant _ _ _ hop
    simp only [Cuttlegate.countFlags, query, matchFlags,
      List.filter_congr (and_congr_rows _ _ _ _ hrow)]
  case pageFlags p filter =>
    have hrow := sees_admitted tenant _ _ _ hop
    simp only [Cuttlegate.pageFlags, matchFlags, List.filter_congr (and_congr_rows _ _ _ _ hrow)]
  case segmentBySlug p slug =>
    have hrow := sees_admitted tenant _ _ _ hop
    simp only [Cuttlegate.segmentBySlug, queryRow, Bool.and_assoc, List.find?_congr hrow]
  case listSegments p =>
    have hrow := sees_admitted tenant _ _ _ hop
    simp only [Cuttlegate.listSegments, query, List.filter_congr hrow]
  case listSegmentsWithCount p =>
    have hrow := sees_admitted tenant _ _ _ hop
    simp only [Cuttlegate.listSegmentsWithCount, query, List.filter_congr hrow]
  case apiKeyByID id =>
    have hrow := sees_admitted tenant _ _ _ hop
    simp only [Cuttlegate.apiKeyByID, queryRow, List.find?_congr hrow]
  case apiKeyByHash hash =>
    have hrow := sees_admitted tenant _ _ _ hop
    simp only [Cuttlegate.apiKeyByHash, queryRow, List.find?_congr hrow]
  case listAPIKeys p e =>
    have hrow := sees_admitted tenant _ _ _ hop
    simp only [Cuttlegate.listAPIKeys, query, Bool.and_assoc, List.filter_congr hrow]
  case listAuditEvents p filter =>
    have hrow := sees_admitted none _ _ _ hop
    simp only [Cuttlegate.listAuditEvents, query, Conn.pool,
      List.filter_congr (and_congr_rows _ _ _ _ (and_congr_rows _ _ _ _ hrow))]
  case listEvaluations p e key filter =>
    have hrow := sees_admitted none _ _ _ hop
    simp only [← Bool.and_assoc] at hrow
    simp only [Cuttlegate.listEvaluations, Conn.pool,
      List.filter_congr (and_congr_rows _ _ _ _ hrow)]
  case evaluationBuckets p e key since size =>
    have hrow := sees_admitted none _ _ _ hop
    have hslot := isSlotRow_admitted none p e key _ hop
    simp only [Cuttlegate.evaluationBuckets, Conn.pool, List.filter_congr (hslot _ _ _)]
  -- Statements that rewrite rows or drop them.
  case updateMemberRole p u role =>
    have hrow := isMemberRow_admitted tenant p u _ hop
    simp only [Cuttlegate.updateMemberRole, affect, any_congr_mem _ _ _ hrow,
      rewrite_congr _ _ _ _ hrow]
  case removeMember p u =>
    have hrow := isMemberRow_admitted tenant p u _ hop
    simp only [Cuttlegate.removeMember, affect, any_congr_mem _ _ _ hrow, reject_congr _ _ _ hrow]
  case renameEnvironment id name =>
    have hrow := isEnvironmentRow_admitted tenant id _ hop
    simp only [Cuttlegate.renameEnvironment, affect, any_congr_mem _ _ _ hrow,
      rewrite_congr _ _ _ _ hrow]
  case deleteEnvironment id =>
    have hrow := isEnvironmentRow_admitted tenant id _ hop
    simp only [Cuttlegate.deleteEnvironment, affect, any_congr_mem _ _ _ hrow,
      Store.dropEnvironments_congr _ _ _ hrow]
  case updateFlag new =>
    have hrow := isFlagRow_admitted tenant new.id _ hop
    simp only [Cuttlegate.updateFlag, affect, any_congr_mem _ _ _ hrow,
      rewrite_congr _ _ _ _ hrow]
  case deleteFlag id =>
    have hrow := isFlagRow_admitted tenant id _ hop
    simp only [Cuttlegate.deleteFlag, affect, any_congr_mem _ _ _ hrow,
      Store.dropFlags_congr _ _ _ hrow]
  case renameSegment id name =>
    cases hid : h.uuid id with
    | none => simp only [Cuttlegate.renameSegment, hid]
    | some key =>
        have hrow := isSegmentRow_admitted tenant h id key w.store.segments hid hop
        simp only [Cuttlegate.renameSegment, hid, affect, any_congr_mem _ _ _ hrow,
          rewrite_congr _ _ _ _ hrow]
  case deleteSegment id =>
    cases hid : h.uuid id with
    | none => simp only [Cuttlegate.deleteSegment, hid]
    | some key =>
        have hrow := isSegmentRow_admitted tenant h id key w.store.segments hid hop
        simp only [Cuttlegate.deleteSegment, hid, affect, any_congr_mem _ _ _ hrow,
          Store.dropSegments_congr _ _ _ hrow]
  case revokeAPIKey id =>
    have hrow := isLiveKeyRow_admitted tenant id _ hop
    simp only [Cuttlegate.revokeAPIKey, affect, any_congr_mem _ _ _ hrow,
      rewrite_congr _ _ _ _ hrow]
  case updateAPIKeyTier id tier =>
    have hrow := isLiveKeyRow_admitted tenant id _ hop
    simp only [Cuttlegate.updateAPIKeyTier, affect, any_congr_mem _ _ _ hrow,
      rewrite_congr _ _ _ _ hrow]

/-! ## Enforced and bypassed -/

/-- The surroundings with the policies enforced. -/
def Host.enforced (h : Host) : Host := { h with rls := true }

/-- The surroundings with a role the policies do not apply to. -/
def Host.bypassed (h : Host) : Host := { h with rls := false }

def HttpHost.enforced (h : HttpHost) : HttpHost := { h with host := h.host.enforced }

def HttpHost.bypassed (h : HttpHost) : HttpHost := { h with host := h.host.bypassed }

def McpHost.enforced (h : McpHost) : McpHost := { h with host := h.host.enforced }

def McpHost.bypassed (h : McpHost) : McpHost := { h with host := h.host.bypassed }

theorem HttpHost.enforced_host (h : HttpHost) : h.enforced.host = h.host.enforced := rfl

theorem HttpHost.bypassed_host (h : HttpHost) : h.bypassed.host = h.host.bypassed := rfl

theorem McpHost.enforced_host (h : McpHost) : h.enforced.host = h.host.enforced := rfl

theorem McpHost.bypassed_host (h : McpHost) : h.bypassed.host = h.host.bypassed := rfl

/-- What a statement does depends on the policies through its connection
    only. -/
theorem Op.perform_rls (h : Host) (conn : Conn) (w : World) (op : Op) :
    op.perform h.enforced conn w = op.perform h.bypassed conn w := by
  cases op <;> rfl

theorem exec_admitted (h : Host) (c : Call) (w : World) (hc : c.Admitted h w) :
    exec h.enforced c w = exec h.bypassed c w := by
  have htouches : c.op.touches h.enforced w = c.op.touches h w := by
    cases c.op <;> rfl
  have hsame : c.op.perform h.enforced ⟨c.tenant, true⟩ w =
      c.op.perform h.bypassed ⟨c.tenant, false⟩ w := by
    rw [Op.perform_admitted h.enforced c.tenant c.op w (by
      unfold Call.Admitted
      rw [htouches]
      exact hc)]
    exact Op.perform_rls h _ w c.op
  unfold exec
  rw [show h.enforced.rls = true from rfl, show h.bypassed.rls = false from rfl, hsame]
  rfl

/-- The only statement that hands an evaluation over is never admitted, since
    it is made on the pool. -/
theorem exec_admitted_evaluations (h g : Host) (c : Call) (w : World) (hc : c.Admitted h w) :
    (exec g c w).2.evaluations = w.evaluations := by
  refine exec_frame g c w .evaluations ?_
  rcases c with ⟨tenant, op⟩
  cases op
  case publishEvaluation flagID e =>
    exact absurd (hc e.projectID List.mem_cons_self) (by simp [Call.scope, Op.onTenant])
  all_goals simp [Op.writes]

/-! ## Admitted requests -/

/-- The databases a call is performed on. What the pool is given while a
    transaction is open, the transaction sees as well. -/
def HttpState.seenBy (s : HttpState) (c : Call) : List World :=
  match s.tx with
  | none => [s.world]
  | some view =>
      if c.inTx then [{ s.world with store := view.getD s.world.store }]
      else s.world :: view.toList.map (fun v => { s.world with store := v })

/-- The connection of every statement of the operation is set up for the rows
    it touches. -/
def HttpOp.Admitted (h : HttpHost) (op : HttpOp) (s : HttpState) : Prop :=
  match op with
  | .db c => ∀ w ∈ s.seenBy c, c.Admitted h.host w
  | _ => True

def McpOp.Admitted (h : McpHost) (op : McpOp) (s : McpState) : Prop :=
  match op with
  | .db c => c.Admitted h.host s.world
  | _ => True

instance (h : HttpHost) (op : HttpOp) (s : HttpState) : Decidable (op.Admitted h s) :=
  match op with
  | .db c => inferInstanceAs (Decidable (∀ w ∈ s.seenBy c, c.Admitted h.host w))
  | .beginTx | .setTenantContext _ | .commit | .rollback | .allow _ =>
      inferInstanceAs (Decidable True)

instance (h : McpHost) (op : McpOp) (s : McpState) : Decidable (op.Admitted h s) :=
  match op with
  | .db c => inferInstanceAs (Decidable (c.Admitted h.host s.world))
  | .newSessionID | .openSession _ | .closeSession _ | .session _ | .setSessionTier _ _
  | .allow _ => inferInstanceAs (Decidable True)

theorem httpExec_admitted (h : HttpHost) (op : HttpOp) (s : HttpState) (hop : op.Admitted h s) :
    httpExec h.enforced op s = httpExec h.bypassed op s := by
  cases op with
  | db c =>
      rcases s with ⟨world, tx, windows⟩
      cases tx with
      | none =>
          have hpool := exec_admitted h.host c world (hop _ List.mem_cons_self)
          simp only [httpExec, HttpHost.enforced_host, HttpHost.bypassed_host, hpool]
      | some view =>
          -- Inside the transaction the call meets its view, outside it the pool, whose
          -- write then shows through.
          by_cases hin : c.inTx = true
          · have htx : c.Admitted h.host { world with store := view.getD world.store } := by
              refine hop _ ?_
              simp only [HttpState.seenBy, hin, if_true, List.mem_singleton]
            simp only [httpExec, hin, if_true, HttpHost.enforced_host, HttpHost.bypassed_host,
              exec_admitted h.host c _ htx]
          · have hpool : c.Admitted h.host world := by
              refine hop _ ?_
              simp only [HttpState.seenBy, hin, Bool.false_eq_true, if_false, List.mem_cons,
                true_or]
            have hview : ∀ v, view = some v →
                exec h.host.enforced c { world with store := v } =
                  exec h.host.bypassed c { world with store := v } := by
              intro v hv
              refine exec_admitted h.host c _ (hop _ ?_)
              simp [HttpState.seenBy, hin, hv]
            cases view with
            | none =>
                simp only [httpExec, hin, Bool.false_eq_true, if_false, HttpHost.enforced_host,
                  HttpHost.bypassed_host, exec_admitted h.host c _ hpool, Option.map_none]
                rfl
            | some v =>
                simp only [httpExec, hin, Bool.false_eq_true, if_false, HttpHost.enforced_host,
                  HttpHost.bypassed_host, exec_admitted h.host c _ hpool, Option.map_some,
                  hview v rfl]
                rfl
  | beginTx => rfl
  | setTenantContext projectID => rfl
  | commit => rfl
  | rollback => rfl
  | allow key => rfl

theorem mcpExec_admitted (h : McpHost) (op : McpOp) (s : McpState) (hop : op.Admitted h s) :
    mcpExec h.enforced op s = mcpExec h.bypassed op s := by
  cases op with
  | db c =>
      have hpool := exec_admitted h.host c s.world hop
      simp only [mcpExec, McpHost.enforced_host, McpHost.bypassed_host, hpool]
  | newSessionID => rfl
  | openSession sess => rfl
  | closeSession id => rfl
  | session id => rfl
  | setSessionTier position tier => rfl
  | allow key => rfl

/-- An admitted operation hands no evaluation over. -/
theorem httpExec_admitted_evaluations (h g : HttpHost) (op : HttpOp) (s : HttpState)
    (hop : op.Admitted h s) : (httpExec g op s).2.world.evaluations = s.world.evaluations := by
  cases op with
  | db c =>
      rcases s with ⟨world, tx, windows⟩
      cases tx with
      | none => exact exec_admitted_evaluations h.host g.host c world (hop _ List.mem_cons_self)
      | some view =>
          by_cases hin : c.inTx = true
          · have htx : c.Admitted h.host { world with store := view.getD world.store } := by
              refine hop _ ?_
              simp only [HttpState.seenBy, hin, if_true, List.mem_singleton]
            simp only [httpExec, hin, if_true]
            exact exec_admitted_evaluations h.host g.host c _ htx
          · have hpool : c.Admitted h.host world := by
              refine hop _ ?_
              simp only [HttpState.seenBy, hin, Bool.false_eq_true, if_false, List.mem_cons,
                true_or]
            simp only [httpExec, hin, Bool.false_eq_true, if_false]
            exact exec_admitted_evaluations h.host g.host c world hpool
  | beginTx =>
      simp only [httpExec, HttpState.manage]
      split <;> rfl
  | setTenantContext projectID =>
      simp only [httpExec, HttpState.manage]
      split <;> rfl
  | commit =>
      simp only [httpExec]
      split <;> rfl
  | rollback => rfl
  | allow key => rfl

theorem mcpExec_admitted_evaluations (h g : McpHost) (op : McpOp) (s : McpState)
    (hop : op.Admitted h s) : (mcpExec g op s).2.world.evaluations = s.world.evaluations := by
  cases op with
  | db c => exact exec_admitted_evaluations h.host g.host c s.world hop
  | newSessionID =>
      simp only [mcpExec]
      split <;> rfl
  | openSession sess => rfl
  | closeSession id => rfl
  | session id => rfl
  | setSessionTier position tier => rfl
  | allow key => rfl

/-! ## Requests -/

/-- What a request comes to: its response, the database it leaves, and the
    evaluations stored for it in the background. -/
structure Outcome (ρ : Type) where
  response : Except Err ρ
  store : Store
  evaluations : List EvaluationEvent

/-- The evaluations handed over between two worlds that the database takes. They
    are inserted on the pool, by goroutines that know nothing of the request. -/
def World.storedEvaluations (h : Host) (w w' : World) : List EvaluationEvent :=
  ((w'.evaluations.drop w.evaluations.length).map Prod.snd).filter
    (fun e => Conn.sees ⟨none, h.rls⟩ e.projectID)

theorem World.storedEvaluations_nil (h : Host) (w w' : World)
    (hkept : w'.evaluations = w.evaluations) : w.storedEvaluations h w' = [] := by
  unfold World.storedEvaluations
  rw [hkept, List.drop_length]
  rfl

def HttpRequest.outcome (h : HttpHost) (w : Writer) (req : HttpRequest) (s : HttpState) :
    Outcome Response :=
  let out := Proc.run (httpExec h) (req.serve h w) s
  ⟨out.1, out.2.world.store, s.world.storedEvaluations h.host out.2.world⟩

def McpRoute.outcome (h : McpHost) (route : McpRoute) (s : McpState) : Outcome McpResponse :=
  let out := Proc.run (mcpExec h) (route.serve h) s
  ⟨out.1, out.2.world.store, s.world.storedEvaluations h.host out.2.world⟩

/-- Every statement of the request runs on a connection set up for the rows it
    touches. -/
def HttpRequest.Admitted (h : HttpHost) (w : Writer) (req : HttpRequest) (s : HttpState) : Prop :=
  Proc.Along (httpExec h) (HttpOp.Admitted h) (req.serve h w) s

def McpRoute.Admitted (h : McpHost) (route : McpRoute) (s : McpState) : Prop :=
  Proc.Along (mcpExec h) (McpOp.Admitted h) (route.serve h) s

instance (h : HttpHost) (w : Writer) (req : HttpRequest) (s : HttpState) :
    Decidable (req.Admitted h w s) :=
  inferInstanceAs (Decidable (Proc.Along _ _ _ _))

instance (h : McpHost) (route : McpRoute) (s : McpState) : Decidable (route.Admitted h s) :=
  inferInstanceAs (Decidable (Proc.Along _ _ _ _))

/-- The routes themselves do not ask for the policies. -/
theorem HttpRequest.serve_rls (h : HttpHost) (w : Writer) (req : HttpRequest) :
    req.serve h.enforced w = req.serve h.bypassed w := by
  cases req <;> rfl

theorem McpRoute.serve_rls (h : McpHost) (route : McpRoute) :
    route.serve h.enforced = route.serve h.bypassed := by
  cases route <;> rfl

theorem HttpRequest.outcome_admitted (h : HttpHost) (w : Writer) (req : HttpRequest)
    (s : HttpState) (hreq : req.Admitted h.bypassed w s) :
    req.outcome h.enforced w s = req.outcome h.bypassed w s := by
  have hrun : Proc.run (httpExec h.enforced) (req.serve h.enforced w) s =
      Proc.run (httpExec h.bypassed) (req.serve h.bypassed w) s := by
    rw [req.serve_rls h w]
    exact Proc.run_agree (httpExec h.bypassed) (httpExec h.enforced) _
      (fun op t hop => httpExec_admitted h.bypassed op t hop) _ s hreq
  have hkept : (Proc.run (httpExec h.bypassed) (req.serve h.bypassed w) s).2.world.evaluations =
      s.world.evaluations := by
    refine Proc.along_rel (httpExec h.bypassed) _
      (fun a b => b.world.evaluations = a.world.evaluations) (fun _ => rfl)
      (fun _ _ _ hab hbc => hbc.trans hab) (fun op t hop => ?_) _ s hreq
    exact httpExec_admitted_evaluations h.bypassed h.bypassed op t hop
  unfold HttpRequest.outcome
  rw [hrun]
  simp only [World.storedEvaluations_nil _ _ _ hkept]

theorem McpRoute.outcome_admitted (h : McpHost) (route : McpRoute) (s : McpState)
    (hroute : route.Admitted h.bypassed s) :
    route.outcome h.enforced s = route.outcome h.bypassed s := by
  have hrun : Proc.run (mcpExec h.enforced) (route.serve h.enforced) s =
      Proc.run (mcpExec h.bypassed) (route.serve h.bypassed) s := by
    rw [route.serve_rls h]
    exact Proc.run_agree (mcpExec h.bypassed) (mcpExec h.enforced) _
      (fun op t hop => mcpExec_admitted h.bypassed op t hop) _ s hroute
  have hkept : (Proc.run (mcpExec h.bypassed) (route.serve h.bypassed) s).2.world.evaluations =
      s.world.evaluations := by
    refine Proc.along_rel (mcpExec h.bypassed) _
      (fun a b => b.world.evaluations = a.world.evaluations) (fun _ => rfl)
      (fun _ _ _ hab hbc => hbc.trans hab) (fun op t hop => ?_) _ s hroute
    exact mcpExec_admitted_evaluations h.bypassed h.bypassed op t hop
  unfold McpRoute.outcome
  rw [hrun]
  simp only [World.storedEvaluations_nil _ _ _ hkept]

/-- A request whose statements all run on connections set up for the rows they
    touch has the same outcome with the policies enforced and bypassed. -/
theorem policies_unseen (h : HttpHost) (w : Writer) (req : HttpRequest) (s : HttpState)
    (m : McpHost) (route : McpRoute) (t : McpState) :
    (req.Admitted h.bypassed w s → req.outcome h.enforced w s = req.outcome h.bypassed w s) ∧
    (route.Admitted m.bypassed t → route.outcome m.enforced t = route.outcome m.bypassed t) :=
  ⟨req.outcome_admitted h w s, route.outcome_admitted m t⟩

/-- A new segment below the path of the first project. -/
def createBeta : HttpRequest :=
  .scoped "Bearer token-u1" "shop"
    (.createSegment (some (.obj [("slug", .str "beta"), ("name", .str "Beta")])))

/-- A tool server without sessions, over the same database. -/
def toolServer : McpState where
  world := twoProjects.world
  heap := []
  sessions := fun _ => none
  windows := fun _ => none

def toolHost : McpHost := ⟨Host.steady, fun n => some (sampleUUID n)⟩

/-- The segment is created in the transaction of its project either way, and
    a key that does not exist is turned away either way. -/
theorem policies_unseen_segment :
    (createBeta.outcome editorHost.enforced ⟨true⟩ twoProjects).store.segments =
      [⟨sampleUUID 5, "beta", "Beta", "p1", 6⟩] ∧
    ((McpRoute.sse "Bearer cg_demo" true).outcome toolHost.enforced toolServer).response =
      .ok (.toolError 401 { error := "unauthenticated" }) := by
  have hsame := policies_unseen editorHost ⟨true⟩ createBeta twoProjects toolHost
    (.sse "Bearer cg_demo" true) toolServer
  rw [hsame.1 (by decide +kernel), hsame.2 (by decide +kernel)]
  exact ⟨by decide +kernel, rfl⟩

/-- A live key is not found before the project of the request is known, so the
    request it is sent with is refused. -/
theorem policies_seen :
    ¬ ∀ (h : HttpHost) (w : Writer) (req : HttpRequest) (s : HttpState), s.tx = none →
      req.outcome h.enforced w s = req.outcome h.bypassed w s := by
  intro hsame
  have houtcome := hsame keyHost ⟨true⟩ (.keyed evaluateDarkMode) (shopAnd [] []) rfl
  have henforced : ((HttpRequest.keyed evaluateDarkMode).outcome keyHost.enforced ⟨true⟩
      (shopAnd [] [])).response = .ok writeUnauthorized := by
    decide +kernel
  have hbypassed : ((HttpRequest.keyed evaluateDarkMode).outcome keyHost.bypassed ⟨true⟩
      (shopAnd [] [])).response =
        .ok ⟨200, .evaluation ⟨"dark-mode", true, none, "true", .ruleMatch, .bool⟩⟩ := by
    decide +kernel
  rw [houtcome, hbypassed] at henforced
  exact absurd henforced (by decide)

end Cuttlegate
