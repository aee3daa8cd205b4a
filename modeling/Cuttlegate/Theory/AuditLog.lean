import Cuttlegate.App.EvaluationService
import Cuttlegate.Theory.Batch

/-!
# The Audit Log

Whether every change of a flag, and every evaluation that skips a segment that
is gone, can be found in the audit log of its project.

An audit event is written to a table with a unique id and a project that
exists, on a connection of the pool. The methods of the flag service name the
project of the flag they changed, with one exception: the deletion by id names
none, and its event is refused by the foreign key. The event of a skipped
segment names neither a project nor an id. And a pool connection sees no
protected row when row-level security is enforced, so that then no event is
stored at all. Since events are recorded on a best-effort basis, nobody
notices.

The events of a call are those its run appends to the table. What a mutation
appends is said once, by `Recorded`, and each method is followed to the step
that records.

## Main definitions

* `FlagMutation`, `Evaluation`, `AuditedCall`: The calls.
* `AuditFilter.selects`, `Listed`: What a page of the log shows.
* `Entered`: The event is stored, and found by the project.
* `AuditedCall.Audited`: The calls are in the log.
* `AuditedCall.Recordable`: When they are.

## Theorems

* `listed_of_mem`: What is stored is listed.
* `recordAuditErr_recorded`: What is recorded.
* `FlagMutation.logs`: What a mutation leaves in the log.
* `Evaluation.appends`: What an evaluation leaves in the log.
* `audit_complete_iff`: When the log is complete.
-/

namespace Cuttlegate

/-! ## Calls -/

/-- The mutating methods of the flag service. -/
inductive FlagMutation where
  | create (flag : Flag)
  | update (flag : Flag)
  | addVariant (projectID flagKey : String) (v : Variant)
  | renameVariant (projectID flagKey variantKey newName : String)
  | deleteVariant (projectID flagKey variantKey : String) (force : Bool)
  | setEnabled (params : SetEnabledParams)
  | delete (id : String)
  | deleteByKey (projectID key : String)

namespace FlagMutation

def prog (ctx : Ctx) : FlagMutation → Prog Unit
  | create flag => FlagService.create ctx flag >>= fun _ => Proc.ret ()
  | update flag => FlagService.update ctx flag
  | addVariant projectID flagKey v =>
      FlagService.addVariant ctx projectID flagKey v >>= fun _ => Proc.ret ()
  | renameVariant projectID flagKey variantKey newName =>
      FlagService.renameVariant ctx projectID flagKey variantKey newName >>= fun _ => Proc.ret ()
  | deleteVariant projectID flagKey variantKey force =>
      FlagService.deleteVariant ctx projectID flagKey variantKey force >>= fun _ => Proc.ret ()
  | setEnabled params => FlagService.setEnabled ctx params
  | delete id => FlagService.delete ctx id
  | deleteByKey projectID key => FlagService.deleteByKey ctx projectID key

/-- The mutation is one of a flag of the project. -/
def Of (s : Store) (projectID : String) : FlagMutation → Prop
  | create flag => flag.projectID = projectID
  | update flag => flag.projectID = projectID ∧
      ∃ f ∈ s.flags, f.id = flag.id ∧ f.projectID = projectID
  | addVariant pid _ _ => pid = projectID
  | renameVariant pid _ _ _ => pid = projectID
  | deleteVariant pid _ _ _ => pid = projectID
  | setEnabled params => params.projectID = projectID
  | delete id => ∃ f ∈ s.flags, f.id = id ∧ f.projectID = projectID
  | deleteByKey pid _ => pid = projectID

/-- The project the event of the mutation names. -/
def named (projectID : String) : FlagMutation → String
  | delete _ => ""
  | _ => projectID

/-- The event tells of the mutation. -/
def Tells (a : AuditEvent) : FlagMutation → Prop
  | create flag => a.action = "flag.created" ∧ a.entityKey = flag.key
  | update flag => a.action = "flag.updated" ∧ a.entityID = flag.id
  | addVariant _ flagKey v =>
      a.action = "flag.variant_added" ∧ a.entityKey = flagKey ∧ a.afterState = v.key
  | renameVariant _ flagKey variantKey newName =>
      a.action = "flag.variant_renamed" ∧ a.entityKey = flagKey ∧ a.beforeState = variantKey ∧
        a.afterState = newName
  | deleteVariant _ flagKey variantKey _ =>
      a.action = "flag.variant_deleted" ∧ a.entityKey = flagKey ∧ a.beforeState = variantKey
  | setEnabled params => a.action = "flag.state_changed" ∧ a.entityKey = params.flagKey ∧
      a.environmentSlug = params.envSlug ∧
      a.afterState = if params.enabled then "enabled" else "disabled"
  | delete id => a.action = "flag.deleted" ∧ a.entityID = id
  | deleteByKey _ key => a.action = "flag.deleted" ∧ a.entityKey = key

end FlagMutation

/-- An evaluation of one flag, or of all flags of a project. -/
structure Evaluation where
  projectID : String
  environmentID : String
  flagKey : Option String
  evalCtx : EvalContext

namespace Evaluation

variable (e : Evaluation)

def prog (srt : Sorter) (ctx : Ctx) : Prog Unit :=
  match e.flagKey with
  | some key => EvaluationService.evaluate srt ctx e.projectID e.environmentID key e.evalCtx >>=
      fun _ => Proc.ret ()
  | none => EvaluationService.evaluateAll srt ctx e.projectID e.environmentID e.evalCtx >>=
      fun _ => Proc.ret ()

/-- A rule of an evaluated flag names a segment that does not exist. -/
def Skips (conn : Conn) (s : Store) (slug : String) : Prop :=
  ∃ f ∈ s.flags, conn.sees f.projectID = true ∧ f.projectID = e.projectID ∧
    (∀ key, e.flagKey = some key → f.key = key) ∧
    ∃ r ∈ s.rules, r.flagID = f.id ∧ r.environmentID = e.environmentID ∧
      slug ∈ r.conditions.filterMap Condition.segmentRef ∧
      segmentBySlug conn e.projectID slug s = .error .notFound

end Evaluation

inductive AuditedCall where
  | mutate (m : FlagMutation)
  | evaluate (e : Evaluation)

def AuditedCall.prog (srt : Sorter) (ctx : Ctx) : AuditedCall → Prog Unit
  | mutate m => m.prog ctx
  | evaluate e => e.prog srt ctx

def AuditedCall.Of (s : Store) (projectID : String) : AuditedCall → Prop
  | mutate m => m.Of s projectID
  | evaluate e => e.projectID = projectID

/-! ## The log -/

/-- The filter of a page admits the event. -/
def AuditFilter.selects (filter : AuditFilter) (a : AuditEvent) : Bool :=
  (filter.flagKey == "" || a.entityKey == filter.flagKey) &&
    (filter.before == 0 || decide (a.occurredAt < filter.before))

/-- The event is on every page of the project's log whose filter admits it and
    that reaches back to it. -/
def Listed (rls : Bool) (projectID : String) (s : Store) (a : AuditEvent) : Prop :=
  ∀ (order : Sorter) (filter : AuditFilter), filter.selects a = true →
    (s.auditEvents.filter (fun b => b.projectID == projectID && filter.selects b &&
      decide (a.occurredAt ≤ b.occurredAt))).length ≤ filter.normalize.limit.toNatClampNeg →
    ∃ page, listAuditEvents ⟨none, rls⟩ order projectID filter s = .ok (page, s) ∧
      a ∈ page.map (·.event)

/-- The event satisfies the constraints of the table, and the project finds it
    in its log. -/
structure Entered (rls : Bool) (projectID : String) (s s' : Store) (a : AuditEvent) : Prop where
  id : a.id ≠ ""
  unique : ∀ b ∈ s.auditEvents, b.id ≠ a.id
  own : a.projectID = projectID
  project : ∃ p ∈ s'.projects, p.id = projectID
  listed : Listed rls projectID s' a

/-- The events that a call appended to the log tell of it, and are entered:
    one for a mutation, and for an evaluation one for each segment skipped. -/
def AuditedCall.Audited (h : Host) (ctx : Ctx) (projectID : String) (s s' : Store) :
    AuditedCall → Prop
  | mutate m => ∃ a, s'.auditEvents = s.auditEvents ++ [a] ∧ m.Tells a ∧
      Entered h.rls projectID s s' a
  | evaluate e => ∃ new, s'.auditEvents = s.auditEvents ++ new ∧
      (∀ slug, e.Skips ⟨ctx.tenant, h.rls⟩ s slug →
        ∃ a ∈ new, a.action = "segment_not_found" ∧ a.entityKey = slug) ∧
      ∀ a ∈ new, Entered h.rls projectID s s' a

/-- The events of a call can be entered. -/
def AuditedCall.Recordable (h : Host) (ctx : Ctx) (s : Store) : AuditedCall → Prop
  | mutate (.delete _) => False
  | mutate _ => h.rls = false
  | evaluate e => ∀ slug, ¬ e.Skips ⟨ctx.tenant, h.rls⟩ s slug

/-- What is stored for a project is listed, as far as row-level security is not
    enforced. -/
theorem listed_of_mem (projectID : String) (s : Store) (a : AuditEvent) (ha : a ∈ s.auditEvents)
    (hown : a.projectID = projectID) : Listed false projectID s a := by
  intro order filter hselects hroom
  refine ⟨_, rfl, ?_⟩
  rw [List.map_map]
  have hmem : a ∈ s.auditEvents.filter (fun a => Conn.sees ⟨none, false⟩ a.projectID &&
      a.projectID == projectID && (filter.flagKey == "" || a.entityKey == filter.flagKey) &&
      (filter.before == 0 || decide (a.occurredAt < filter.before))) := by
    rw [List.mem_filter]
    refine ⟨ha, ?_⟩
    simpa [Conn.sees, hown, AuditFilter.selects] using hselects
  -- A page keeps the newest events, so a place among them is a count of those at least as
  -- new.
  refine List.mem_map.mpr ⟨a, order.mem_take_sort _ ?_ _ a hmem _ ?_, rfl⟩
  · exact strictWeak_key (fun a : AuditEvent => OrderDual.toDual a.occurredAt)
  · refine Nat.le_trans (Nat.le_of_eq ?_) hroom
    rw [List.filter_filter]
    refine congrArg List.length (List.filter_congr (fun b _ => ?_))
    have hnot : (!decide (b.occurredAt < a.occurredAt)) = decide (a.occurredAt ≤ b.occurredAt) := by
      rw [← decide_not]
      exact decide_eq_decide.mpr not_lt
    simp only [AuditFilter.selects, Conn.sees, Bool.not_false, Bool.true_or, Bool.true_and,
      Bool.and_assoc, hnot]
    rw [Bool.and_comm]
    simp only [Bool.and_assoc]

/-! ## Recording -/

/-- The event that is recorded for an entry. -/
def AuditEntry.event (entry : AuditEntry) (actorID id : String) (now : Time) : AuditEvent :=
  { id := id, projectID := entry.projectID, actorID := actorID, action := entry.action
    entityType := "flag", entityID := entry.entityID, entityKey := entry.entityKey
    environmentSlug := entry.environmentSlug, source := entry.source
    beforeState := entry.before, afterState := entry.after, occurredAt := now }

/-- The row satisfies the constraints of the table, on a connection of the
    pool. -/
def Accepted (rls : Bool) (s : Store) (projectID : String) : Prop :=
  rls = false ∧ ∃ p ∈ s.projects, p.id = projectID

theorem recordAuditEvent_accepted (rls : Bool) (a : AuditEvent) (s : Store)
    (hfresh : ∀ b ∈ s.auditEvents, b.id ≠ a.id) (haccepted : Accepted rls s a.projectID) :
    recordAuditEvent ⟨none, rls⟩ a s =
      .ok ((), { s with auditEvents := s.auditEvents ++ [a] }) := by
  rcases haccepted with ⟨hrls, p, hp, hid⟩
  have hsees : ¬ Conn.sees ⟨none, rls⟩ a.projectID = false := by
    rw [hrls]
    simp [Conn.sees]
  have hknown : ¬ ∀ p ∈ s.projects, p.id ≠ a.projectID := fun hnone => hnone p hp hid
  have hone : ¬ ∃ b ∈ s.auditEvents, b.id = a.id := fun ⟨b, hb, hsame⟩ => hfresh b hb hsame
  unfold recordAuditEvent refuseIf
  rw [if_neg hsees, if_neg hone, if_neg hknown]
  rfl

theorem recordAuditEvent_refused (rls : Bool) (a : AuditEvent) (s : Store)
    (hrefused : ¬ Accepted rls s a.projectID) :
    ∃ e, recordAuditEvent ⟨none, rls⟩ a s = .error e := by
  cases hrecord : recordAuditEvent ⟨none, rls⟩ a s with
  | error e => exact ⟨e, rfl⟩
  | ok out =>
      rcases recordAuditEvent_ok _ a s out.2 out.1 hrecord with ⟨hsees, _, hproject, _⟩
      refine absurd ⟨?_, hproject⟩ hrefused
      cases rls with
      | false => rfl
      | true => exact absurd hsees (by simp [Conn.sees])

/-- The attempt to record an entry appended its event, if that is accepted, and
    nothing otherwise. -/
structure Recorded (rls : Bool) (entry : AuditEntry) (s s' : Store) : Prop where
  projects : s'.projects = s.projects
  accepted : Accepted rls s entry.projectID → ∃ actorID id now, id ≠ "" ∧
    (∀ b ∈ s.auditEvents, b.id ≠ id) ∧
    s'.auditEvents = s.auditEvents ++ [entry.event actorID id now]
  refused : ¬ Accepted rls s entry.projectID → s'.auditEvents = s.auditEvents

/-- The call left its event in the log, if that was accepted: one that names
    the project `pid` and tells of the call. -/
def LeftEvent (rls : Bool) (s : Store) (projectID pid : String) (tells : AuditEvent → Prop)
    (s' : Store) : Prop :=
  (∃ p ∈ s.projects, p.id = projectID) ∧ ∃ entry : AuditEntry, entry.projectID = pid ∧
    (∀ actorID id now, tells (entry.event actorID id now)) ∧ Recorded rls entry s s'

/-- The log and the projects are those of the beginning. -/
structure Untouched (s s' : Store) : Prop where
  auditEvents : s'.auditEvents = s.auditEvents
  projects : s'.projects = s.projects

section Recording

variable {h : Host} (hfails : ∀ n, h.fails n = false) (s : Store)
  (hids : ∀ n, ∃ id, h.newUUID n = some id ∧ id ≠ "" ∧ ∀ b ∈ s.auditEvents, b.id ≠ id) (ctx : Ctx)

theorem untouched_call (op : Op) (a : op.Ret) (w w' : World) (hw : Untouched s w.store)
    (hp : op.perform h ⟨ctx.tenant, h.rls⟩ w = .ok (a, w')) (haudit : .auditEvents ∉ op.writes)
    (hprojects : .projects ∉ op.writes) : Untouched s w'.tick.store := by
  have hsame := op.perform_frame h _ w w' a hp
  exact ⟨(hsame .auditEvents haudit).trans hw.auditEvents,
    (hsame .projects hprojects).trans hw.projects⟩

theorem untouched_within {α : Type} (p : Prog α) (ts : List Tbl) (hp : Within ts p)
    (haudit : .auditEvents ∉ ts) (hprojects : .projects ∉ ts) (w w' : World) (r : Except Err α)
    (hrun : Proc.run (exec h) p w = (r, w')) (hw : Untouched s w.store) :
    Untouched s w'.store := by
  have haudits := hp.same h p .auditEvents haudit w
  have hsame := hp.same h p .projects hprojects w
  rw [hrun] at haudits hsame
  exact ⟨haudits.trans hw.auditEvents, hsame.trans hw.projects⟩

include hfails hids

/-- Recording draws an id and a time, and tries the insert. -/
theorem recordAuditErr_recorded (entry : AuditEntry) (w : World) (hw : Untouched s w.store) :
    Proc.Ends (exec h) (fun _ w' => Recorded h.rls entry s w'.store)
      (recordAuditErr ctx entry) w := by
  rcases hids w.calls with ⟨id, hid, hne, hfresh⟩
  unfold recordAuditErr
  refine ends_answer hfails ctx .newUUID _ w w id (by simp [Op.perform, World.draw, hid]) ?_
  refine ends_answer hfails ctx .now _ w.tick w.tick (h.now w.tick.calls) rfl ?_
  -- Whoever acts, the event is the entry's with some actor.
  generalize hevent : AuditEvent.mk id entry.projectID _ entry.action "flag" entry.entityID
    entry.entityKey entry.environmentSlug entry.source entry.before entry.after
    (h.now w.tick.calls) = a
  have hfields : ∃ actorID, a = entry.event actorID id (h.now w.tick.calls) := ⟨_, hevent.symm⟩
  clear hevent
  rcases hfields with ⟨actorID, rfl⟩
  set event := entry.event actorID id (h.now w.tick.calls)
  unfold Proc.Ends
  rw [Ctx.call, Proc.run_call, exec_steady h hfails]
  -- The insert on the pool is accepted without row security and with the project's row in
  -- place.
  by_cases haccepted : Accepted h.rls w.store entry.projectID
  · have hperform : Op.perform h ⟨ctx.tenant, h.rls⟩ w.tick.tick (.recordAudit event) =
        .ok ((), { w.tick.tick with
          store := { w.store with auditEvents := w.store.auditEvents ++ [event] } }) := by
      have hrecord := recordAuditEvent_accepted h.rls event w.store
        (by rw [hw.auditEvents]; exact hfresh) haccepted
      simp only [Op.perform, World.onStore, Conn.pool, World.tick_store, hrecord]
    rw [hperform]
    refine ⟨hw.projects, fun _ => ⟨actorID, id, h.now w.tick.calls, hne, hfresh, ?_⟩,
      fun hno => ?_⟩
    · change w.store.auditEvents ++ [event] = _
      rw [hw.auditEvents]
    · rw [Accepted, ← hw.projects] at hno
      exact absurd haccepted hno
  · have hperform : ∃ e, Op.perform h ⟨ctx.tenant, h.rls⟩ w.tick.tick (.recordAudit event) =
        .error e := by
      rcases recordAuditEvent_refused h.rls event w.store haccepted with ⟨e, hrecord⟩
      exact ⟨e, by simp only [Op.perform, World.onStore, Conn.pool, World.tick_store, hrecord]⟩
    rcases hperform with ⟨e, hperform⟩
    rw [hperform]
    refine ⟨hw.projects, fun hyes => ?_, fun _ => hw.auditEvents⟩
    rw [Accepted, ← hw.projects] at hyes
    exact absurd hyes haccepted

/-- A method that ends with an entry for a project leaves its event. -/
theorem logged_recordAudit {α : Type} (projectID : String) (tells : AuditEvent → Prop)
    (entry : AuditEntry) (a : α) (w : World) (hw : Untouched s w.store)
    (hproject : ∃ p ∈ s.projects, p.id = projectID)
    (htells : ∀ actorID id now, tells (entry.event actorID id now)) :
    Proc.Ends (exec h) (fun r w' => ∀ b, r = .ok b →
        LeftEvent h.rls s projectID entry.projectID tells w'.store)
      (recordAudit ctx entry >>= fun _ => Proc.ret a) w := by
  refine ends_bestEffort _ _ w (fun r w' hrun => ?_)
  intro _ _
  exact ⟨hproject, entry, rfl, htells,
    Proc.ends_run _ w w' r (recordAuditErr_recorded hfails s hids ctx entry w hw) hrun⟩

end Recording

/-! ## Mutations -/

section Mutations

variable {h : Host} (hfails : ∀ n, h.fails n = false) (w : World)
  (hids : ∀ n, ∃ id, h.newUUID n = some id ∧ id ≠ "" ∧ ∀ b ∈ w.store.auditEvents, b.id ≠ id)
  (hparents : ∀ f ∈ w.store.flags, ∃ p ∈ w.store.projects, p.id = f.projectID) (ctx : Ctx)

/-- The postcondition of a method that leaves an event for its project. -/
def Logs {α : Type} (rls : Bool) (s : Store) (projectID pid : String) (tells : AuditEvent → Prop)
    (r : Except Err α) (w' : World) : Prop :=
  ∀ a, r = .ok a → LeftEvent rls s projectID pid tells w'.store

theorem logs_error {α : Type} {rls : Bool} {s : Store} {projectID pid : String}
    {tells : AuditEvent → Prop} (e : Err) (w' : World) :
    Logs rls s projectID pid tells (.error e : Except Err α) w' :=
  fun _ hr => nomatch hr

/-- The methods for editors that look a flag up: the flag is the project's, and
    its project exists. -/
theorem logs_found {α : Type} (projectID pid flagKey : String) (tells : AuditEvent → Prop)
    (k : Flag → Prog α)
    (hparents : ∀ f ∈ w.store.flags, ∃ p ∈ w.store.projects, p.id = f.projectID)
    (hk : ∀ f, f.projectID = projectID → f.key = flagKey →
      (∃ p ∈ w.store.projects, p.id = projectID) →
      Proc.Ends (exec h) (Logs h.rls w.store projectID pid tells) (k f) w.tick) :
    Proc.Ends (exec h) (Logs h.rls w.store projectID pid tells)
      (ctx.require .editor >>= fun _ => ctx.call (.flagByKey projectID flagKey) >>= k) w := by
  refine ends_require ctx _ _ w (fun _ => logs_error _ _) (fun _ _ _ => ?_)
  refine ends_read ctx _ rfl _ w (fun _ => logs_error _ _) (fun f hp => ?_)
  have hfind := (World.onStore_queryRow _ _ _ _ hp).1
  have hcond := List.find?_some hfind
  simp only [Bool.and_eq_true, beq_iff_eq] at hcond
  have hproject := hparents f (List.mem_of_find?_eq_some hfind)
  rw [hcond.1.2] at hproject
  exact hk f hcond.1.2 hcond.2 hproject

include hfails hids

theorem FlagService.create_logs (flag : Flag) :
    Proc.Ends (exec h) (Logs h.rls w.store flag.projectID flag.projectID
      (fun a => FlagMutation.Tells a (.create flag))) (FlagService.create ctx flag) w := by
  unfold FlagService.create
  refine ends_require ctx _ _ w (fun _ => logs_error _ _) (fun _ _ _ => ?_)
  refine ends_check _ _ w (fun _ _ => logs_error _ _) (fun _ _ => ?_)
  refine ends_read ctx _ rfl _ w (fun _ => logs_error _ _) (fun id _ => ?_)
  refine ends_read ctx _ rfl _ _ (fun _ => logs_error _ _) (fun now _ => ?_)
  refine ends_call ctx _ _ _ (fun _ => logs_error _ _) (fun u w₁ hp => ?_)
  have hw := untouched_call w.store ctx _ u w.tick.tick w₁ ⟨rfl, rfl⟩ hp (by simp [Op.writes])
    (by simp [Op.writes])
  -- The insert has checked that the project exists.
  have hproject : ∃ p ∈ w.store.projects, p.id = flag.projectID := by
    rcases World.onStore_ok _ _ _ _ hp with ⟨s', hs', _⟩
    exact (createFlag_ok _ _ _ _ _ hs').2.2.1
  unfold FlagService.enterEnvironments
  refine ends_undoing _ _ _ _ (fun e w₂ _ => ?_) (fun envs w₂ hrun => ?_)
  · exact logs_error e _
  · have hw₂ := untouched_within w.store _ [] (within_read ctx _ rfl) (by simp) (by simp) _ w₂ _
      hrun hw
    by_cases hnone : envs.length = 0
    · rw [if_pos hnone]
      exact logged_recordAudit hfails _ hids ctx _ _ _ _ _ hw₂ hproject (fun _ _ _ => ⟨rfl, rfl⟩)
    · rw [if_neg hnone]
      refine ends_undoing _ _ _ _ (fun e w₃ _ => logs_error e _) (fun _ w₃ hrun => ?_)
      have hw₃ := untouched_within w.store _ _ (createBatch_within ctx _) (by simp) (by simp) _ w₃ _
        hrun hw₂
      exact logged_recordAudit hfails _ hids ctx _ _ _ _ _ hw₃ hproject (fun _ _ _ => ⟨rfl, rfl⟩)

theorem FlagService.update_logs (flag : Flag)
    (hproject : ∃ p ∈ w.store.projects, p.id = flag.projectID) :
    Proc.Ends (exec h) (Logs h.rls w.store flag.projectID flag.projectID
      (fun a => FlagMutation.Tells a (.update flag))) (FlagService.update ctx flag) w := by
  unfold FlagService.update
  refine ends_require ctx _ _ w (fun _ => logs_error _ _) (fun _ _ _ => ?_)
  refine ends_check _ _ w (fun _ _ => logs_error _ _) (fun _ _ => ?_)
  refine ends_call ctx _ _ w (fun _ => logs_error _ _) (fun u w₁ hp => ?_)
  have hw := untouched_call w.store ctx _ u w w₁ ⟨rfl, rfl⟩ hp (by simp [Op.writes])
    (by simp [Op.writes])
  rw [← Proc.bind_ret (recordAudit ctx _)]
  exact logged_recordAudit hfails _ hids ctx _ _ _ () _ hw hproject (fun _ _ _ => ⟨rfl, rfl⟩)

/-- The deletion by id names no project. -/
theorem FlagService.delete_logs (id projectID : String)
    (hproject : ∃ p ∈ w.store.projects, p.id = projectID) :
    Proc.Ends (exec h) (Logs h.rls w.store projectID ""
      (fun a => FlagMutation.Tells a (.delete id))) (FlagService.delete ctx id) w := by
  unfold FlagService.delete
  refine ends_require ctx _ _ w (fun _ => logs_error _ _) (fun _ _ _ => ?_)
  refine ends_call ctx _ _ w (fun _ => logs_error _ _) (fun u w₁ hp => ?_)
  have hw := untouched_call w.store ctx _ u w w₁ ⟨rfl, rfl⟩ hp (by simp [Op.writes])
    (by simp [Op.writes])
  rw [← Proc.bind_ret (recordAudit ctx _)]
  exact logged_recordAudit hfails _ hids ctx _ _ _ () _ hw hproject (fun _ _ _ => ⟨rfl, rfl⟩)

include hparents

theorem FlagService.addVariant_logs (projectID flagKey : String) (v : Variant) :
    Proc.Ends (exec h) (Logs h.rls w.store projectID projectID
      (fun a => FlagMutation.Tells a (.addVariant projectID flagKey v)))
      (FlagService.addVariant ctx projectID flagKey v) w := by
  refine logs_found w ctx _ _ _ _ _ hparents (fun f hown hkey hproject => ?_)
  refine ends_check _ _ _ (fun _ _ => logs_error _ _) (fun _ _ => ?_)
  refine ends_check _ _ _ (fun _ _ => logs_error _ _) (fun _ _ => ?_)
  refine ends_check _ _ _ (fun _ _ => logs_error _ _) (fun _ _ => ?_)
  refine ends_call ctx _ _ _ (fun _ => logs_error _ _) (fun u w₁ hp => ?_)
  have hw := untouched_call w.store ctx _ u w.tick w₁ ⟨rfl, rfl⟩ hp (by simp [Op.writes])
    (by simp [Op.writes])
  rw [← hown] at hproject ⊢
  exact logged_recordAudit hfails _ hids ctx _ _ _ _ _ hw hproject
    (fun _ _ _ => ⟨rfl, hkey, rfl⟩)

theorem FlagService.renameVariant_logs (projectID flagKey variantKey newName : String) :
    Proc.Ends (exec h) (Logs h.rls w.store projectID projectID
      (fun a => FlagMutation.Tells a (.renameVariant projectID flagKey variantKey newName)))
      (FlagService.renameVariant ctx projectID flagKey variantKey newName) w := by
  refine logs_found w ctx _ _ _ _ _ hparents (fun f hown hkey hproject => ?_)
  cases renameFirst variantKey newName f.variants with
  | none => exact logs_error _ _
  | some variants =>
      refine ends_check _ _ _ (fun _ _ => logs_error _ _) (fun _ _ => ?_)
      refine ends_call ctx _ _ _ (fun _ => logs_error _ _) (fun u w₁ hp => ?_)
      have hw := untouched_call w.store ctx _ u w.tick w₁ ⟨rfl, rfl⟩ hp (by simp [Op.writes])
        (by simp [Op.writes])
      rw [← hown] at hproject ⊢
      exact logged_recordAudit hfails _ hids ctx _ _ _ _ _ hw hproject
        (fun _ _ _ => ⟨rfl, hkey, rfl, rfl⟩)

theorem FlagService.deleteVariant_logs (projectID flagKey variantKey : String) (force : Bool) :
    Proc.Ends (exec h) (Logs h.rls w.store projectID projectID
      (fun a => FlagMutation.Tells a (.deleteVariant projectID flagKey variantKey force)))
      (FlagService.deleteVariant ctx projectID flagKey variantKey force) w := by
  refine logs_found w ctx _ _ _ _ _ hparents (fun f hown hkey hproject => ?_)
  refine ends_check _ _ _ (fun _ _ => logs_error _ _) (fun _ _ => ?_)
  refine ends_check _ _ _ (fun _ _ => logs_error _ _) (fun _ _ => ?_)
  refine ends_check _ _ _ (fun _ _ => logs_error _ _) (fun _ _ => ?_)
  refine ends_check _ _ _ (fun _ _ => logs_error _ _) (fun _ _ => ?_)
  refine ends_read ctx _ rfl _ _ (fun _ => logs_error _ _) (fun rules _ => ?_)
  refine ends_check _ _ _ (fun _ _ => logs_error _ _) (fun _ _ => ?_)
  refine Proc.ends_bind _ _ _ (fun e w₁ _ => logs_error e w₁) (fun _ w₁ hrun => ?_)
  have hw₁ := untouched_within w.store _ _ (upsertPatched_within ctx _ _ _) (by simp) (by simp) _
    w₁ _ hrun ⟨rfl, rfl⟩
  refine ends_check _ _ _ (fun _ _ => logs_error _ _) (fun _ _ => ?_)
  refine ends_call ctx _ _ _ (fun _ => logs_error _ _) (fun u w₂ hp => ?_)
  have hw₂ := untouched_call w.store ctx _ u w₁ w₂ hw₁ hp (by simp [Op.writes])
    (by simp [Op.writes])
  rw [← hown] at hproject ⊢
  exact logged_recordAudit hfails _ hids ctx _ _ _ _ _ hw₂ hproject
    (fun _ _ _ => ⟨rfl, hkey, rfl⟩)

theorem FlagService.setEnabled_logs (params : SetEnabledParams) :
    Proc.Ends (exec h) (Logs h.rls w.store params.projectID params.projectID
      (fun a => FlagMutation.Tells a (.setEnabled params)))
      (FlagService.setEnabled ctx params) w := by
  refine logs_found w ctx _ _ _ _ _ hparents (fun f hown hkey hproject => ?_)
  refine ends_call ctx _ _ _ (fun _ => logs_error _ _) (fun u w₁ hp => ?_)
  have hw₁ := untouched_call w.store ctx _ u w.tick w₁ ⟨rfl, rfl⟩ hp (by simp [Op.writes])
    (by simp [Op.writes])
  unfold FlagService.announce
  refine ends_read ctx _ rfl _ _ (fun _ => logs_error _ _) (fun now _ => ?_)
  refine ends_bestEffort _ _ _ (fun r w₂ hrun => ?_)
  have hw₂ := untouched_within w.store _ [.published] (within_call ctx (.publish _)
    (by simp [Op.writes])) (by simp) (by simp) _ w₂ r hrun hw₁
  dsimp only
  -- The tool's toggle writes its event with its source and fails with it; the page's
  -- ignores the write's failure.
  by_cases hsource : params.source ≠ ""
  · rw [if_pos hsource]
    refine Proc.ends_mono _ _ (recordAuditErr_recorded hfails _ hids ctx _ w₂ hw₂) ?_
    intro r w' hrecorded _ _
    exact ⟨hproject, _, rfl, fun _ _ _ => ⟨rfl, rfl, rfl, rfl⟩, hrecorded⟩
  · rw [if_neg hsource, ← Proc.bind_ret (recordAudit ctx _)]
    exact logged_recordAudit hfails _ hids ctx _ _ _ () _ hw₂ hproject
      (fun _ _ _ => ⟨rfl, rfl, rfl, rfl⟩)

theorem FlagService.deleteByKey_logs (projectID key : String) :
    Proc.Ends (exec h) (Logs h.rls w.store projectID projectID
      (fun a => FlagMutation.Tells a (.deleteByKey projectID key)))
      (FlagService.deleteByKey ctx projectID key) w := by
  refine logs_found w ctx _ _ _ _ _ hparents (fun f hown hkey hproject => ?_)
  refine ends_call ctx _ _ _ (fun _ => logs_error _ _) (fun u w₁ hp => ?_)
  have hw := untouched_call w.store ctx _ u w.tick w₁ ⟨rfl, rfl⟩ hp (by simp [Op.writes])
    (by simp [Op.writes])
  rw [← Proc.bind_ret (recordAudit ctx _)]
  rw [← hown] at hproject ⊢
  exact logged_recordAudit hfails _ hids ctx _ _ _ () _ hw hproject (fun _ _ _ => ⟨rfl, hkey⟩)

theorem FlagMutation.logs (m : FlagMutation) (projectID : String)
    (hof : m.Of w.store projectID) :
    Proc.Ends (exec h) (Logs h.rls w.store projectID (m.named projectID) (fun a => m.Tells a))
      (m.prog ctx) w := by
  -- What a method returns beside its effect is dropped.
  have hdrop : ∀ (α : Type) (pid : String) (tells : AuditEvent → Prop) (p : Prog α),
      Proc.Ends (exec h) (Logs h.rls w.store projectID pid tells) p w →
      Proc.Ends (exec h) (Logs h.rls w.store projectID pid tells)
        (p >>= fun _ => Proc.ret ()) w := by
    intro α pid tells p hp
    exact Proc.ends_seq _ _ w hp (fun e w' _ => logs_error e w') (fun a w' hlogged _ _ =>
      hlogged a rfl)
  cases m with
  | create flag =>
      cases hof
      exact hdrop _ _ _ _ (FlagService.create_logs hfails w hids ctx flag)
  | update flag =>
      rcases hof with ⟨rfl, f, hf, _, hown⟩
      exact FlagService.update_logs hfails w hids ctx flag (hown ▸ hparents f hf)
  | addVariant pid flagKey v =>
      cases hof
      exact hdrop _ _ _ _ (FlagService.addVariant_logs hfails w hids hparents ctx _ _ _)
  | renameVariant pid flagKey variantKey newName =>
      cases hof
      exact hdrop _ _ _ _ (FlagService.renameVariant_logs hfails w hids hparents ctx _ _ _ _)
  | deleteVariant pid flagKey variantKey force =>
      cases hof
      exact hdrop _ _ _ _ (FlagService.deleteVariant_logs hfails w hids hparents ctx _ _ _ _)
  | setEnabled params =>
      cases hof
      exact FlagService.setEnabled_logs hfails w hids hparents ctx params
  | delete id =>
      rcases hof with ⟨f, hf, _, hown⟩
      exact FlagService.delete_logs hfails w hids ctx id projectID (hown ▸ hparents f hf)
  | deleteByKey pid key =>
      cases hof
      exact FlagService.deleteByKey_logs hfails w hids hparents ctx _ _

end Mutations

/-- The event of a mutation is entered when it names the project and row-level
    security is not enforced. -/
theorem FlagMutation.audited_iff (h : Host) (ctx : Ctx) (m : FlagMutation) (projectID : String)
    (hne : projectID ≠ "") (s s' : Store)
    (hlogged : LeftEvent h.rls s projectID (m.named projectID) (fun a => m.Tells a) s') :
    AuditedCall.Audited h ctx projectID s s' (.mutate m) ↔
      AuditedCall.Recordable h ctx s (.mutate m) := by
  rcases hlogged with ⟨hproject, entry, hnamed, htells, hrecorded⟩
  -- The deletion by id is the one mutation that writes no project into its event.
  have hrecordable : AuditedCall.Recordable h ctx s (.mutate m) ↔
      h.rls = false ∧ m.named projectID = projectID := by
    cases m <;> simp [AuditedCall.Recordable, FlagMutation.named, hne.symm]
  rw [hrecordable, ← hnamed]
  constructor
  · rintro ⟨a, happended, _, hentered⟩
    -- An event was left, so the insert was accepted, and the one it left names the project.
    by_cases haccepted : Accepted h.rls s entry.projectID
    · rcases hrecorded.accepted haccepted with ⟨actorID, id, now, _, _, hevents⟩
      rw [hevents, List.append_cancel_left_eq, List.cons.injEq] at happended
      refine ⟨haccepted.1, ?_⟩
      rw [← hentered.own, ← happended.1]
      rfl
    · rw [hrecorded.refused haccepted] at happended
      exact absurd happended (by simp)
  · rintro ⟨hrls, hown⟩
    rcases hrecorded.accepted ⟨hrls, hown ▸ hproject⟩ with ⟨actorID, id, now, hid, hfresh, hevents⟩
    refine ⟨_, hevents, htells actorID id now, hid, hfresh, hown, ?_, ?_⟩
    · rw [hrecorded.projects]
      exact hproject
    · rw [hrls]
      exact listed_of_mem projectID s' _ (by rw [hevents]; simp) hown

/-! ## Evaluations -/

/-- The world still has the rows that evaluation reads, and events of the given
    kind have been appended to the log. -/
structure Appends (s : Store) (P : AuditEvent → Prop) (w : World) : Prop where
  reads : Reads s w
  events : ∃ new, w.store.auditEvents = s.auditEvents ++ new ∧ ∀ a ∈ new, P a

/-- What an evaluation appends has no id, and is due to a segment skipped. -/
def Evaluation.Trace (e : Evaluation) (conn : Conn) (s : Store) (a : AuditEvent) : Prop :=
  a.id = "" ∧ ∃ slug, e.Skips conn s slug

section Evaluations

variable {h : Host} (hfails : ∀ n, h.fails n = false) (ctx : Ctx) (s : Store)
  {P : AuditEvent → Prop}

theorem Appends.start (w : World) (hw : w.store = s) : Appends s P w := by
  subst hw
  exact ⟨⟨rfl, rfl, rfl, rfl, rfl⟩, [], (List.append_nil _).symm,
    fun _ ha => absurd ha List.not_mem_nil⟩

/-- A program that does not write to the log. -/
theorem Appends.run {α : Type} (p : Prog α) (hp : Within [.evaluations] p) (w w' : World)
    (r : Except Err α) (hw : Appends s P w) (hrun : Proc.run (exec h) p w = (r, w')) :
    Appends s P w' := by
  have haudit := hp.same h p .auditEvents (by simp) w
  rw [hrun] at haudit
  rcases hw.events with ⟨new, hnew, hall⟩
  exact ⟨hw.reads.run h p (within_mono (by simp) p hp) s w w' r hrun, new, haudit.trans hnew, hall⟩

/-- A step that does not write to the log. -/
theorem appends_then {α β : Type} (p : Prog α) (hp : Within [.evaluations] p) (k : α → Prog β)
    (w : World) (hw : Appends s P w)
    (hk : ∀ a w', Proc.run (exec h) p w = (.ok a, w') → Appends s P w' →
      Proc.Ends (exec h) (fun _ w'' => Appends s P w'') (k a) w') :
    Proc.Ends (exec h) (fun _ w'' => Appends s P w'') (p >>= k) w :=
  Proc.ends_bind _ _ w (fun e w' hrun => hw.run s p hp w w' (.error e) hrun)
    (fun a w' hrun => hk a w' hrun (hw.run s p hp w w' (.ok a) hrun))

theorem publishEvent_evaluations (projectID environmentID : String) (flag : Flag)
    (evalCtx : EvalContext) (result : EvalResult) (now : Time) :
    Within [.evaluations] (publishEvent ctx projectID environmentID flag evalCtx result now) := by
  refine within_bind _ _ (within_attempt _ (within_read ctx _ rfl)) (fun r => ?_)
  cases r with
  | error e => exact within_ret ()
  | ok id => exact within_call ctx _ (by simp [Op.writes])

/-- An attempt to record an event appends it or nothing. -/
theorem recordAudit_appends (a : AuditEvent) (ha : P a) (w w' : World) (r : Except Err Unit)
    (hw : Appends s P w) (hrun : Proc.run (exec h) (ctx.call (.recordAudit a)) w = (r, w')) :
    Appends s P w' := by
  have hreads := hw.reads.run h _ (within_call ctx (.recordAudit a) (by simp [Op.writes])) s w w' r
    hrun
  rcases hw.events with ⟨new, hnew, hall⟩
  rw [Ctx.call, Proc.run_call] at hrun
  refine ⟨hreads, ?_⟩
  -- A refused insert leaves the log, an accepted one adds the event.
  rcases exec_cases h ⟨ctx.tenant, .recordAudit a⟩ w with ⟨e, he⟩ | ⟨u, w₁, hp, he⟩
  · rw [hrun] at he
    rw [(Prod.mk.inj he).2]
    exact ⟨new, hnew, hall⟩
  · rw [hrun] at he
    rw [(Prod.mk.inj he).2]
    rcases World.onStore_ok _ _ _ _ hp with ⟨s', hs', rfl⟩
    rcases recordAuditEvent_ok _ _ _ _ _ hs' with ⟨_, _, _, rfl⟩
    refine ⟨new ++ [a], ?_, fun b hb => ?_⟩
    · change w.store.auditEvents ++ [a] = _
      rw [hnew, List.append_assoc]
    · rcases List.mem_append.mp hb with hb | hb
      · exact hall b hb
      · rw [List.mem_singleton.mp hb]
        exact ha

/-- A segment that is not found is not there. -/
theorem segmentBySlug_gone (projectID slug : String) (w : World) (hw : Reads s w) (e : Err)
    (hp : Op.perform h ⟨ctx.tenant, h.rls⟩ w (.segmentBySlug projectID slug) = .error e) :
    segmentBySlug ⟨ctx.tenant, h.rls⟩ projectID slug s = .error .notFound := by
  cases hfind : s.segments.find? (fun g => Conn.sees ⟨ctx.tenant, h.rls⟩ g.projectID &&
      g.projectID == projectID && g.slug == slug) with
  | none => simp only [segmentBySlug, queryRow, hfind]
  | some g =>
      have hrow : Op.perform h ⟨ctx.tenant, h.rls⟩ w (.segmentBySlug projectID slug) =
          .ok (g, w) := by
        refine World.onStore_row w _ g ?_
        rw [hw.segments, hfind]
      rw [hrow] at hp
      cases hp

/-- The second half of the evaluation of a flag does not write to the log. -/
theorem evaluated_within (srt : Sorter) (projectID environmentID : String) (flag : Flag)
    (state : Option FlagEnvironmentState) (rules : List Rule) (evalCtx : EvalContext)
    (segs : List String) (now : Time) :
    Within [.evaluations] (check (Cuttlegate.evaluate srt flag state rules evalCtx segs) >>=
      fun result => publishEvent ctx projectID environmentID flag evalCtx result now >>=
        fun _ => Proc.ret (evalView flag result)) := by
  refine within_check _ _ (fun result => ?_)
  exact within_bind _ _ (publishEvent_evaluations ctx _ _ _ _ _ _) (fun _ => within_ret _)

include hfails

/-- The loop over the segments leaves an event for each one that is gone. -/
theorem resolveLoop_appends (projectID flagID environmentID userKey : String)
    (slugs : List String)
    (hskip : ∀ slug ∈ slugs, segmentBySlug ⟨ctx.tenant, h.rls⟩ projectID slug s = .error .notFound →
      ∀ a : AuditEvent, a.id = "" → P a) (w : World) (hw : Appends s P w) :
    Proc.Ends (exec h) (fun _ w' => Appends s P w')
      (resolveLoop ctx projectID flagID environmentID userKey slugs) w := by
  -- On the slugs of the rule, with the log kept as it grows.
  induction slugs generalizing w with
  | nil => exact hw
  | cons slug rest ih =>
      specialize ih (fun other hin => hskip other (List.mem_cons_of_mem _ hin))
      have htick : Appends s P w.tick := ⟨hw.reads.tick s w, hw.events⟩
      refine ends_attempt_call hfails ctx _ _ w (fun seg w' hp => ?_) (fun e hp => ?_)
      · rw [Op.perform_read h _ w w' _ seg rfl hp]
        refine appends_then s _ (within_read ctx _ rfl) _ w.tick htick (fun member w₁ _ hw₁ => ?_)
        exact Proc.ends_seq _ _ w₁ (ih w₁ hw₁) (fun _ _ hw₂ => hw₂) (fun _ _ hw₂ => hw₂)
      · have hlookup := segmentBySlug_gone ctx s projectID slug w hw.reads e hp
        -- A segment that is gone is skipped with an event, which has no id; any other error
        -- ends the loop.
        by_cases hgone : e = .notFound
        · rw [hgone]
          refine ends_bestEffort _ _ _ (fun r w' hrun => ih w' ?_)
          exact recordAudit_appends ctx s _ (hskip slug List.mem_cons_self hlookup _ rfl) w.tick w'
            r htick hrun
        · cases e <;> first | exact absurd rfl hgone | exact htick

theorem resolveSegments_appends (projectID flagID environmentID : String) (rules : List Rule)
    (userKey : String)
    (hskip : ∀ slug ∈ segmentRefs rules,
      segmentBySlug ⟨ctx.tenant, h.rls⟩ projectID slug s = .error .notFound →
      ∀ a : AuditEvent, a.id = "" → P a) (w : World) (hw : Appends s P w) :
    Proc.Ends (exec h) (fun _ w' => Appends s P w')
      (resolveSegments ctx projectID flagID environmentID rules userKey) w := by
  unfold resolveSegments
  by_cases hnone : (segmentRefs rules).length = 0
  · simp only [if_pos hnone]
    exact hw
  · simp only [if_neg hnone]
    refine ends_answer hfails ctx _ _ _ _ _ rfl ?_
    refine resolveLoop_appends hfails ctx s projectID flagID environmentID userKey _ ?_ _
      ⟨hw.reads.tick s w, hw.events⟩
    exact fun slug hslug => hskip slug (((h.rangeMap _).mem_sort _ _ slug).mp hslug)

/-- The events of one flag: a rule of it names a segment that is gone. -/
theorem Evaluation.flag_appends (e : Evaluation) (f : Flag) (hf : f ∈ s.flags)
    (hsees : Conn.sees ⟨ctx.tenant, h.rls⟩ f.projectID = true) (hown : f.projectID = e.projectID)
    (hkey : ∀ key, e.flagKey = some key → f.key = key) (rules : List Rule)
    (hrules : ∀ r ∈ rules, r ∈ s.rules ∧ r.flagID = f.id ∧ r.environmentID = e.environmentID)
    (w : World) (hw : Appends s (e.Trace ⟨ctx.tenant, h.rls⟩ s) w) :
    Proc.Ends (exec h) (fun _ w' => Appends s (e.Trace ⟨ctx.tenant, h.rls⟩ s) w')
      (resolveSegments ctx e.projectID f.id e.environmentID rules e.evalCtx.userID) w := by
  refine resolveSegments_appends hfails ctx s _ _ _ rules _ (fun slug hslug hgone a ha => ?_) w hw
  rw [segmentRefs, List.mem_eraseDups, List.mem_flatMap] at hslug
  rcases hslug with ⟨r, hr, hnamed⟩
  rcases hrules r hr with ⟨hstored, hflag, henv⟩
  exact ⟨ha, slug, f, hf, hsees, hown, hkey, r, hstored, hflag, henv, hnamed, hgone⟩

theorem Evaluation.evaluate_appends (srt : Sorter) (e : Evaluation) (key : String)
    (hkey : e.flagKey = some key) (w : World) :
    Proc.Ends (exec h) (fun _ w' => Appends w.store (e.Trace ⟨ctx.tenant, h.rls⟩ w.store) w')
      (EvaluationService.evaluate srt ctx e.projectID e.environmentID key e.evalCtx) w := by
  unfold EvaluationService.evaluate
  have hstart : ∀ v : World, v.store = w.store →
      Appends w.store (e.Trace ⟨ctx.tenant, h.rls⟩ w.store) v := fun v hv => Appends.start _ v hv
  refine ends_require ctx _ _ w (fun _ => hstart _ rfl) (fun _ _ _ => ?_)
  refine ends_read ctx _ rfl _ w (fun _ => hstart _ rfl) (fun f hp => ?_)
  have hfind := (World.onStore_queryRow _ _ _ _ hp).1
  have hcond := List.find?_some hfind
  simp only [Bool.and_eq_true, beq_iff_eq] at hcond
  refine ends_read ctx _ rfl _ _ (fun _ => hstart _ rfl) (fun state _ => ?_)
  refine ends_read ctx _ rfl _ _ (fun _ => hstart _ rfl) (fun rules hp => ?_)
  -- The rules listed are those of the flag in this environment.
  have hrules : ∀ r ∈ rules,
      r ∈ w.store.rules ∧ r.flagID = f.id ∧ r.environmentID = e.environmentID := by
    rw [← (Prod.mk.inj (Except.ok.inj hp)).1]
    intro r hr
    rw [Sorter.mem_sort, List.mem_filter, Bool.and_eq_true, beq_iff_eq, beq_iff_eq] at hr
    exact hr
  refine Proc.ends_seq _ _ _ (e.flag_appends hfails ctx w.store f (List.mem_of_find?_eq_some hfind)
    hcond.1.1 hcond.1.2 (fun k hk => ?_) rules hrules _ (hstart _ rfl)) (fun _ _ hw => hw)
    (fun segs w₁ hw₁ => ?_)
  · rw [hkey, Option.some.injEq] at hk
    rw [← hk]
    exact hcond.2
  · refine appends_then _ _ (within_read ctx _ rfl) _ w₁ hw₁ (fun now w₂ _ hw₂ => ?_)
    exact hw₂.run _ _ (evaluated_within ctx srt _ _ _ _ _ _ _ _) w₂ _ _ rfl

theorem Evaluation.evaluateLoop_appends (srt : Sorter) (e : Evaluation) (hall : e.flagKey = none)
    (evaluatedAt : Time) (stateByFlag : String → Option FlagEnvironmentState)
    (rulesByFlag : String → List Rule)
    (hrules : ∀ id, ∀ r ∈ rulesByFlag id,
      r ∈ s.rules ∧ r.flagID = id ∧ r.environmentID = e.environmentID) (flags : List Flag)
    (hflags : ∀ f ∈ flags, f ∈ s.flags ∧ Conn.sees ⟨ctx.tenant, h.rls⟩ f.projectID = true ∧
      f.projectID = e.projectID)
    (w : World) (hw : Appends s (e.Trace ⟨ctx.tenant, h.rls⟩ s) w) :
    Proc.Ends (exec h) (fun _ w' => Appends s (e.Trace ⟨ctx.tenant, h.rls⟩ s) w')
      (EvaluationService.evaluateLoop srt ctx e.projectID e.environmentID e.evalCtx evaluatedAt
        stateByFlag rulesByFlag flags) w := by
  -- On the flags listed: each resolves its own segments and leaves its own events.
  induction flags generalizing w with
  | nil => exact hw
  | cons f rest ih =>
      rcases hflags f List.mem_cons_self with ⟨hf, hsees, hown⟩
      specialize ih (fun g hg => hflags g (List.mem_cons_of_mem _ hg))
      have hkey : ∀ key, e.flagKey = some key → f.key = key := by
        rw [hall]
        intro key hnone
        cases hnone
      refine Proc.ends_seq _ _ _ (e.flag_appends hfails ctx s f hf hsees hown hkey _
        (hrules f.id) w hw) (fun _ _ hw' => hw') (fun segs w₁ hw₁ => ?_)
      refine ends_check _ _ w₁ (fun _ _ => hw₁) (fun result _ => ?_)
      refine appends_then _ _ (publishEvent_evaluations ctx _ _ _ _ _ _) _ w₁ hw₁
        (fun _ w₂ _ hw₂ => ?_)
      exact Proc.ends_seq _ _ w₂ (ih w₂ hw₂) (fun _ _ hw' => hw') (fun _ _ hw' => hw')

theorem Evaluation.evaluateAll_appends (srt : Sorter) (e : Evaluation) (hall : e.flagKey = none)
    (w : World) :
    Proc.Ends (exec h) (fun _ w' => Appends w.store (e.Trace ⟨ctx.tenant, h.rls⟩ w.store) w')
      (EvaluationService.evaluateAll srt ctx e.projectID e.environmentID e.evalCtx) w := by
  unfold EvaluationService.evaluateAll
  have hstart : ∀ v : World, v.store = w.store →
      Appends w.store (e.Trace ⟨ctx.tenant, h.rls⟩ w.store) v := fun v hv => Appends.start _ v hv
  refine ends_require ctx _ _ w (fun _ => hstart _ rfl) (fun _ _ _ => ?_)
  refine ends_read ctx _ rfl _ w (fun _ => hstart _ rfl) (fun evaluatedAt _ => ?_)
  refine ends_read ctx _ rfl _ _ (fun _ => hstart _ rfl) (fun flags hp => ?_)
  -- The flags listed are the project's, as far as the connection sees.
  have hflags : ∀ f ∈ flags, f ∈ w.store.flags ∧
      Conn.sees ⟨ctx.tenant, h.rls⟩ f.projectID = true ∧ f.projectID = e.projectID := by
    rw [← (Prod.mk.inj (Except.ok.inj hp)).1]
    intro f hf
    rw [Sorter.mem_sort, List.mem_filter, Bool.and_eq_true, beq_iff_eq] at hf
    exact hf
  refine ends_read ctx _ rfl _ _ (fun _ => hstart _ rfl) (fun states _ => ?_)
  refine ends_read ctx _ rfl _ _ (fun _ => hstart _ rfl) (fun rules hp => ?_)
  have hrules : ∀ id, ∀ r ∈ EvaluationService.groupRules rules id,
      r ∈ w.store.rules ∧ r.flagID = id ∧ r.environmentID = e.environmentID := by
    intro id r hr
    rw [groupRules_eq, List.mem_filter, beq_iff_eq, ← (Prod.mk.inj (Except.ok.inj hp)).1,
      Sorter.mem_sort, List.mem_filter, beq_iff_eq] at hr
    exact ⟨hr.1.1, hr.2, hr.1.2⟩
  exact Proc.ends_seq _ _ _ (e.evaluateLoop_appends hfails ctx w.store srt hall evaluatedAt _ _
    hrules flags hflags _ (hstart _ rfl)) (fun _ _ hw => hw) (fun _ _ hw => hw)

/-- What an evaluation leaves in the log. -/
theorem Evaluation.appends (srt : Sorter) (e : Evaluation) (w : World) :
    Proc.Ends (exec h) (fun _ w' => Appends w.store (e.Trace ⟨ctx.tenant, h.rls⟩ w.store) w')
      (e.prog srt ctx) w := by
  unfold Evaluation.prog
  cases hkey : e.flagKey with
  | some key =>
      exact Proc.ends_seq _ _ w (e.evaluate_appends hfails ctx srt key hkey w) (fun _ _ hw => hw)
        (fun _ _ hw => hw)
  | none =>
      exact Proc.ends_seq _ _ w (e.evaluateAll_appends hfails ctx srt hkey w) (fun _ _ hw => hw)
        (fun _ _ hw => hw)

end Evaluations

/-! ## The log is complete -/

/-- An event without an id is never entered, so that an evaluation is in the
    log when it skips nothing. -/
theorem Evaluation.audited_iff (h : Host) (ctx : Ctx) (e : Evaluation) (projectID : String)
    (s : Store) (w' : World) (happends : Appends s (e.Trace ⟨ctx.tenant, h.rls⟩ s) w') :
    AuditedCall.Audited h ctx projectID s w'.store (.evaluate e) ↔
      AuditedCall.Recordable h ctx s (.evaluate e) := by
  rcases happends.events with ⟨new, hnew, htrace⟩
  constructor
  · rintro ⟨new', hnew', htold, hentered⟩ slug hskips
    rw [hnew, List.append_cancel_left_eq] at hnew'
    rcases htold slug hskips with ⟨a, ha, _⟩
    exact (hentered a ha).id (htrace a (hnew' ▸ ha)).1
  · intro hnone
    refine ⟨new, hnew, fun slug hskips => absurd hskips (hnone slug), fun a ha => ?_⟩
    rcases (htrace a ha).2 with ⟨slug, hskips⟩
    exact absurd hskips (hnone slug)

/-- A successful call of a project is in its audit log exactly when it is no
    deletion by id and row-level security is not enforced, or when it is an
    evaluation that skips no segment. -/
theorem audit_complete_iff (h : Host) (hfails : ∀ n, h.fails n = false) (srt : Sorter) (ctx : Ctx)
    (w w' : World)
    (hids : ∀ n, ∃ id, h.newUUID n = some id ∧ id ≠ "" ∧ ∀ b ∈ w.store.auditEvents, b.id ≠ id)
    (hparents : ∀ f ∈ w.store.flags, ∃ p ∈ w.store.projects, p.id = f.projectID)
    (projectID : String) (hne : projectID ≠ "") (call : AuditedCall)
    (hof : call.Of w.store projectID)
    (hrun : Proc.run (exec h) (call.prog srt ctx) w = (.ok (), w')) :
    call.Audited h ctx projectID w.store w'.store ↔ call.Recordable h ctx w.store := by
  cases call with
  | mutate m =>
      have hlogs := Proc.ends_run _ w w' _ (m.logs hfails w hids hparents ctx projectID hof) hrun
      exact m.audited_iff h ctx projectID hne w.store w'.store (hlogs () rfl)
  | evaluate e =>
      have happends := Proc.ends_run _ w w' _ (e.appends hfails ctx srt w) hrun
      exact e.audited_iff h ctx projectID w.store w' happends

/-- A host that never runs out of identifiers. -/
def auditHost : Host :=
  { Host.steady with
    newUUID := fun n => some (sampleUUID (n % 100))
    uuid_new := by
      intro n id hid
      rw [← Option.some.inj hid]
      exact if_pos (sampleUUID_canonical _ (Nat.mod_lt _ (by decide))) }

/-- An editor. -/
def auditCtx : Ctx := ⟨some ⟨"u1", .editor⟩, none⟩

/-- A flag with a rule that names a segment that is gone. -/
def auditedShop : World where
  store := {
    projects := [⟨"p1", "Shop", "shop", 0⟩]
    environments := [⟨"e1", "p1", "Production", "prod", 0⟩]
    flags := [darkMode]
    states := [⟨"f1", "e1", true⟩]
    rules := [{ darkModePaying with conditions := [⟨"", .inSegment, ["gone"]⟩] }] }

/-- The run of a call in the shop. -/
def auditedRun (call : AuditedCall) : Except Err Unit × World :=
  Proc.run (exec auditHost) (call.prog .insertion auditCtx) auditedShop

def renameOn : AuditedCall := .mutate (.renameVariant "p1" "dark-mode" "true" "On")

def deleteByID : AuditedCall := .mutate (.delete "f1")

def evaluateSkipping : Evaluation := ⟨"p1", "e1", some "dark-mode", ⟨"u7", fun _ => none⟩⟩

theorem audit_complete_rename :
    renameOn.Audited auditHost auditCtx "p1" auditedShop.store (auditedRun renameOn).2.store := by
  refine (audit_complete_iff auditHost (fun _ => rfl) .insertion auditCtx auditedShop
    (auditedRun renameOn).2 (fun n => ⟨_, rfl, ?_, fun b hb => absurd hb List.not_mem_nil⟩) ?_ "p1"
    (by decide) renameOn rfl (Prod.ext (by decide +kernel) rfl)).mpr rfl
  · intro hempty
    exact absurd (congrArg (fun id => id.toList.length) hempty) (by simp [sampleUUID])
  · intro f hf
    rw [List.mem_singleton.mp hf]
    exact ⟨_, List.mem_cons_self, rfl⟩

/-- The deletion of a flag by its id, and an evaluation that skips a segment,
    succeed and leave nothing in the log. -/
theorem audit_misses_deletion :
    ((auditedRun deleteByID).1 = .ok () ∧ ¬ deleteByID.Audited auditHost auditCtx "p1"
      auditedShop.store (auditedRun deleteByID).2.store) ∧
    (auditedRun (.evaluate evaluateSkipping)).1 = .ok () ∧
      ¬ AuditedCall.Audited auditHost auditCtx "p1" auditedShop.store
        (auditedRun (.evaluate evaluateSkipping)).2.store (.evaluate evaluateSkipping) := by
  have hdeleted : (auditedRun deleteByID).2.store.auditEvents = [] := by decide +kernel
  have hevaluated : (auditedRun (.evaluate evaluateSkipping)).2.store.auditEvents = [] := by
    decide +kernel
  refine ⟨⟨by decide +kernel, ?_⟩, by decide +kernel, ?_⟩
  · rintro ⟨a, happended, _⟩
    rw [hdeleted] at happended
    exact nomatch happended
  · rintro ⟨new, happended, htold, _⟩
    -- The rule names a segment the project no longer has.
    have hskips : evaluateSkipping.Skips ⟨none, false⟩ auditedShop.store "gone" :=
      ⟨darkMode, List.mem_cons_self, rfl, rfl, fun key hkey => Option.some.inj hkey, _,
        List.mem_cons_self, rfl, rfl, by decide, rfl⟩
    rcases htold "gone" hskips with ⟨a, ha, _⟩
    rw [hevaluated] at happended
    have hnil : new = [] := happended.symm
    rw [hnil] at ha
    exact absurd ha List.not_mem_nil

end Cuttlegate
