import Cuttlegate.App.Context

/-!
# The Flag Service

Every method of the flag service, as a program over the operations of the
repositories. The mutating methods check the caller's role first, change the
flag in memory, validate it, write it back whole, and leave an audit event.

Deleting a variant looks at the rules of the flag: without `force` a rule that
mentions the variant stops the deletion, and with it each such rule is
rewritten to the default variant, the weight of removed rollout entries going
to the first that remains.

## Main definitions

* `AuditEntry`, `recordAuditErr`, `recordAudit`: The audit trail.
* `FlagService.create`: Creation, with a state row for every environment.
* `FlagService.addVariant`, `FlagService.renameVariant`,
  `FlagService.deleteVariant`, `FlagService.update`: Edits.
* `FlagService.setEnabled`, `FlagService.announce`: The toggle.
* `FlagService.delete`, `FlagService.deleteByKey`: Deletion.
* `FlagService.getByKey`, `FlagService.listByEnvironment` and the other reads.
* `patchRule`: What a forced deletion does to a rule.
* `DeletesOnly`: Operations that at most delete flags.

## Theorems

* `FlagService.create_within` and the other footprints.
-/

namespace Cuttlegate

structure AuditEntry where
  action : String
  entityID : String := ""
  entityKey : String := ""
  projectID : String := ""
  environmentSlug : String := ""
  before : String := ""
  after : String := ""
  source : String := ""

/-- Record an audit event and pass a failure on. -/
def recordAuditErr (ctx : Ctx) (entry : AuditEntry) : Prog Unit := do
  let actorID := match ctx.auth with
    | some ac => ac.userID
    | none => ""
  let id ← ctx.call .newUUID
  let now ← ctx.call .now
  ctx.call (.recordAudit
    { id := id, projectID := entry.projectID, actorID := actorID, action := entry.action
      entityType := "flag", entityID := entry.entityID, entityKey := entry.entityKey
      environmentSlug := entry.environmentSlug, source := entry.source
      beforeState := entry.before, afterState := entry.after, occurredAt := now })

/-- Record an audit event; a failure is logged and never blocks the change. -/
def recordAudit (ctx : Ctx) (entry : AuditEntry) : Prog Unit :=
  bestEffort (recordAuditErr ctx entry)

/-- The batch insert of state rows, one statement a row. -/
def createBatch (ctx : Ctx) : List FlagEnvironmentState → Prog Unit
  | [] => return ()
  | st :: rest => do
      ctx.call (.insertState st)
      createBatch ctx rest

structure FlagEnvironmentView where
  flag : Flag
  enabled : Bool
  deriving DecidableEq, Repr

/-- A map filled in a loop, later entries replacing earlier ones. -/
def mapLoop {α β : Type} (key : α → String) (val : α → β) (l : List α) : String → Option β :=
  l.foldl (fun m a k => if k = key a then some (val a) else m k) (fun _ => none)

/-- Rename the first variant with the given key; `none` when there is none. -/
def renameFirst (variantKey newName : String) : List Variant → Option (List Variant)
  | [] => none
  | v :: vs =>
      if v.key = variantKey then some ({ v with name := newName } :: vs)
      else (renameFirst variantKey newName vs).map (v :: ·)

/-- Whether a rule mentions a variant, directly or in its rollout. -/
def Rule.mentions (r : Rule) (variantKey : String) : Bool :=
  r.variantKey == variantKey || r.rollout.any (fun e => e.variantKey == variantKey)

/-- The rollout left when a variant goes: its entries are dropped and their
    weight goes to the first entry that remains. -/
def patchRollout (variantKey : String) (rollout : List RolloutEntry) : List RolloutEntry :=
  let removed := rollout.filter (fun e => e.variantKey == variantKey)
  match rollout.filter (fun e => e.variantKey != variantKey) with
  | [] => []
  | e :: kept => { e with weight := e.weight + rolloutTotal 0 removed } :: kept

/-- What a forced deletion does to a rule. A rollout all of whose entries
    served the variant collapses to the default. -/
def patchRule (variantKey defaultKey : String) (r : Rule) : Rule :=
  let direct := if r.variantKey = variantKey then defaultKey else r.variantKey
  if r.rollout = [] then { r with variantKey := direct }
  else if patchRollout variantKey r.rollout = [] then
    { r with rollout := [], variantKey := defaultKey }
  else { r with rollout := patchRollout variantKey r.rollout, variantKey := direct }

/-- The loop that writes the patched rules back. -/
def upsertPatched (ctx : Ctx) (variantKey defaultKey : String) : List Rule → Prog Unit
  | [] => return ()
  | r :: rest => do
      let _ ← ctx.call (.upsertRule (patchRule variantKey defaultKey r))
      upsertPatched ctx variantKey defaultKey rest

structure SetEnabledParams where
  projectID : String
  environmentID : String
  flagKey : String
  enabled : Bool
  projectSlug : String
  envSlug : String
  source : String
  deriving DecidableEq, Repr

namespace FlagService

/-- The second half of a creation: a disabled state in every environment, and
    an audit event. When a step fails the flag is taken back. -/
def enterEnvironments (ctx : Ctx) (flag : Flag) : Prog Flag := do
  let created : AuditEntry :=
    { action := "flag.created", entityID := flag.id, entityKey := flag.key
      projectID := flag.projectID, after := flag.key }
  let envs ← undoing (ctx.call (.listEnvironments flag.projectID))
    (ctx.call (.deleteFlag flag.id))
  if envs.length = 0 then do
    recordAudit ctx created
    return flag
  else do
    undoing (createBatch ctx (envs.map (fun e => ⟨flag.id, e.id, false⟩)))
      (ctx.call (.deleteFlag flag.id))
    recordAudit ctx created
    return flag

def create (ctx : Ctx) (flag : Flag) : Prog Flag := do
  let _ ← ctx.require .editor
  check flag.validate
  let id ← ctx.call .newUUID
  let now ← ctx.call .now
  let flag := { flag with id := id, createdAt := now }
  ctx.call (.createFlag flag)
  enterEnvironments ctx flag

def getByKey (ctx : Ctx) (projectID key : String) : Prog Flag :=
  ctx.call (.flagByKey projectID key)

def listByProject (ctx : Ctx) (projectID : String) : Prog (List Flag) :=
  ctx.call (.listFlags projectID)

def listByProjectPaginated (ctx : Ctx) (projectID : String) (filter : FlagListFilter) :
    Prog (List Flag × Nat) := do
  let filter := filter.normalize
  let total ← ctx.call (.countFlags projectID filter.search)
  let flags ← ctx.call (.pageFlags projectID filter)
  return (flags, total)

def listByEnvironment (ctx : Ctx) (projectID environmentID : String) :
    Prog (List FlagEnvironmentView) := do
  let states ← ctx.call (.listStates environmentID)
  if states.length = 0 then return []
  else do
    let enabledByFlagID := mapLoop (·.flagID) (·.enabled) states
    let flags ← ctx.call (.listFlags projectID)
    return flags.filterMap (fun f => (enabledByFlagID f.id).map (fun enabled => ⟨f, enabled⟩))

def addVariant (ctx : Ctx) (projectID flagKey : String) (v : Variant) : Prog Flag := do
  let _ ← ctx.require .editor
  let f ← ctx.call (.flagByKey projectID flagKey)
  check (refuseIf (f.type = .bool) .immutableVariants)
  check (refuseIf (∃ existing ∈ f.variants, existing.key = v.key) .conflict)
  let f := { f with variants := f.variants ++ [v] }
  check f.validate
  ctx.call (.updateFlag f)
  recordAudit ctx { action := "flag.variant_added", entityID := f.id, entityKey := f.key
                    projectID := f.projectID, after := v.key }
  return f

def renameVariant (ctx : Ctx) (projectID flagKey variantKey newName : String) : Prog Flag := do
  let _ ← ctx.require .editor
  let f ← ctx.call (.flagByKey projectID flagKey)
  match renameFirst variantKey newName f.variants with
  | none => Proc.fail .notFound
  | some variants => do
      let f := { f with variants := variants }
      check f.validate
      ctx.call (.updateFlag f)
      recordAudit ctx { action := "flag.variant_renamed", entityID := f.id, entityKey := f.key
                        projectID := f.projectID, before := variantKey, after := newName }
      return f

def deleteVariant (ctx : Ctx) (projectID flagKey variantKey : String) (force : Bool) :
    Prog Flag := do
  let _ ← ctx.require .editor
  let f ← ctx.call (.flagByKey projectID flagKey)
  check (refuseIf (f.type = .bool) .immutableVariants)
  check (refuseIf (variantKey = f.defaultVariantKey) .defaultVariant)
  check (refuseIf (f.variants.length = 1) .lastVariant)
  check (refuseIf (∀ v ∈ f.variants, v.key ≠ variantKey) .notFound)
  let rules ← ctx.call (.listRulesByFlag f.id)
  let affected := rules.filter (fun r => r.mentions variantKey)
  check (refuseIf (affected.length > 0 ∧ force = false) .variantInUse)
  upsertPatched ctx variantKey f.defaultVariantKey affected
  let f := { f with variants := f.variants.eraseP (fun v => v.key == variantKey) }
  check f.validate
  ctx.call (.updateFlag f)
  recordAudit ctx { action := "flag.variant_deleted", entityID := f.id, entityKey := f.key
                    projectID := f.projectID, before := variantKey }
  return f

def update (ctx : Ctx) (flag : Flag) : Prog Unit := do
  let _ ← ctx.require .editor
  check flag.validate
  ctx.call (.updateFlag flag)
  recordAudit ctx { action := "flag.updated", entityID := flag.id, entityKey := flag.key
                    projectID := flag.projectID }

def getByKeyAndEnvironment (ctx : Ctx) (projectID environmentID flagKey : String) :
    Prog FlagEnvironmentView := do
  let f ← ctx.call (.flagByKey projectID flagKey)
  let state ← ctx.call (.stateOf f.id environmentID)
  let enabled := match state with
    | some st => st.enabled
    | none => false
  return ⟨f, enabled⟩

/-- The second half of a toggle: an event for the subscribers, and an audit
    event. -/
def announce (ctx : Ctx) (params : SetEnabledParams) (f : Flag) : Prog Unit := do
  let now ← ctx.call .now
  bestEffort (ctx.call (.publish
    ⟨params.projectSlug, params.envSlug, params.flagKey, params.enabled, now⟩))
  let entry : AuditEntry :=
    { action := "flag.state_changed", entityID := f.id, entityKey := params.flagKey
      projectID := params.projectID, environmentSlug := params.envSlug
      before := if params.enabled then "disabled" else "enabled"
      after := if params.enabled then "enabled" else "disabled"
      source := params.source }
  -- Calls from the tool server carry a source, and for them a missing audit
  -- event is a failure.
  if params.source ≠ "" then recordAuditErr ctx entry else recordAudit ctx entry

def setEnabled (ctx : Ctx) (params : SetEnabledParams) : Prog Unit := do
  let _ ← ctx.require .editor
  let f ← ctx.call (.flagByKey params.projectID params.flagKey)
  ctx.call (.setEnabled f.id params.environmentID params.enabled)
  announce ctx params f

def delete (ctx : Ctx) (id : String) : Prog Unit := do
  let _ ← ctx.require .editor
  ctx.call (.deleteFlag id)
  recordAudit ctx { action := "flag.deleted", entityID := id }

def deleteByKey (ctx : Ctx) (projectID key : String) : Prog Unit := do
  let _ ← ctx.require .editor
  let f ← ctx.call (.flagByKey projectID key)
  ctx.call (.deleteFlag f.id)
  recordAudit ctx { action := "flag.deleted", entityID := f.id, entityKey := f.key
                    projectID := f.projectID, before := f.key }

end FlagService

/-! ## Footprints -/

section Footprint

variable (ctx : Ctx)

theorem recordAuditErr_within (entry : AuditEntry) :
    Within [.auditEvents] (recordAuditErr ctx entry) := by
  refine within_bind _ _ (within_read ctx _ rfl) (fun _ => ?_)
  refine within_bind _ _ (within_read ctx _ rfl) (fun _ => ?_)
  exact within_call ctx _ (List.Subset.refl _)

theorem recordAudit_within (entry : AuditEntry) :
    Within [.auditEvents] (recordAudit ctx entry) :=
  within_bestEffort _ (recordAuditErr_within ctx entry)

/-- The tail of a mutating method: an audit event, then the answer. -/
theorem audited_within {α : Type} {ts : List Tbl} (hts : Tbl.auditEvents ∈ ts) (entry : AuditEntry)
    (a : α) : Within ts (recordAudit ctx entry >>= fun _ => Proc.ret a) :=
  within_bind _ _ (within_mono (by simpa using hts) _ (recordAudit_within ctx entry))
    (fun _ => within_ret a)

theorem createBatch_within (states : List FlagEnvironmentState) :
    Within [.states] (createBatch ctx states) := by
  induction states with
  | nil => exact within_ret ()
  | cons st rest ih => exact within_bind _ _ (within_call ctx _ (List.Subset.refl _)) (fun _ => ih)

theorem upsertPatched_within (variantKey defaultKey : String) (rules : List Rule) :
    Within [.rules] (upsertPatched ctx variantKey defaultKey rules) := by
  induction rules with
  | nil => exact within_ret ()
  | cons r rest ih => exact within_bind _ _ (within_call ctx _ (List.Subset.refl _)) (fun _ => ih)

/-- An operation that on flags and rules does nothing but delete a flag. -/
def DeletesOnly (c : Call) : Prop :=
  InTables [.states, .auditEvents] c ∨ ∃ id, c.op = .deleteFlag id

theorem deletesOnly_of_within {α : Type} {ts : List Tbl} (hts : ts ⊆ [.states, .auditEvents])
    (p : Prog α) (hp : Within ts p) : Proc.Uses DeletesOnly p :=
  Proc.uses_mono (fun _ hc => .inl (List.Subset.trans hc hts)) p hp

theorem deletesOnly_delete (id : String) : Proc.Uses DeletesOnly (ctx.call (.deleteFlag id)) :=
  (Proc.uses_call (⟨ctx.tenant, .deleteFlag id⟩ : Call)).mpr (.inr ⟨id, rfl⟩)

theorem deletesOnly_audited {α : Type} (entry : AuditEntry) (a : α) :
    Proc.Uses DeletesOnly (recordAudit ctx entry >>= fun _ => Proc.ret a) := by
  have haudit : Within [.auditEvents] (recordAudit ctx entry >>= fun _ => Proc.ret a) :=
    audited_within ctx List.mem_cons_self entry a
  exact deletesOnly_of_within (by simp) _ haudit

namespace FlagService

/-- What follows the insert of a flag: states, an audit event, and perhaps the
    deletion that takes the flag back. -/
theorem enterEnvironments_uses (flag : Flag) :
    Proc.Uses DeletesOnly (enterEnvironments ctx flag) := by
  have hundoing : ∀ (α : Type) (p : Prog α), Proc.Uses DeletesOnly p →
      Proc.Uses DeletesOnly (undoing p (ctx.call (.deleteFlag flag.id))) := by
    intro α p hp
    refine Proc.uses_bind _ _ ((Proc.uses_attempt p).mpr hp) (fun r => ?_)
    cases r with
    | ok a => trivial
    | error e =>
        refine Proc.uses_bind _ _ ((Proc.uses_attempt _).mpr ?_) (fun _ => trivial)
        exact deletesOnly_delete ctx flag.id
  refine Proc.uses_bind _ _ (hundoing _ _ ?_) (fun envs => ?_)
  · exact deletesOnly_of_within (List.nil_subset _) _ (within_read ctx _ rfl)
  by_cases hnone : envs.length = 0
  · rw [if_pos hnone]
    exact deletesOnly_audited ctx _ _
  · rw [if_neg hnone]
    refine Proc.uses_bind _ _ (hundoing _ _ ?_) (fun _ => deletesOnly_audited ctx _ _)
    exact deletesOnly_of_within (by simp) _ (createBatch_within ctx _)

theorem deleteByKey_uses (projectID key : String) :
    Proc.Uses DeletesOnly (deleteByKey ctx projectID key) := by
  refine Proc.uses_bind _ _ (Proc.uses_ofExcept _) (fun _ => ?_)
  refine Proc.uses_bind _ _ ?_ (fun f => ?_)
  · exact deletesOnly_of_within (List.nil_subset _) _ (within_read ctx _ rfl)
  refine Proc.uses_bind _ _ (deletesOnly_delete ctx f.id) (fun _ => ?_)
  exact deletesOnly_of_within (by simp) _ (recordAudit_within ctx _)

theorem within_of_deletesOnly {α : Type} (p : Prog α) (hp : Proc.Uses DeletesOnly p) :
    Within [.flags, .states, .rules, .auditEvents] p := by
  refine Proc.uses_mono (fun c hc => ?_) p hp
  rcases hc with hin | ⟨id, hid⟩
  · exact List.Subset.trans hin (by simp)
  · unfold InTables
    rw [hid]
    simp [Op.writes]

theorem create_within (flag : Flag) :
    Within [.flags, .states, .rules, .auditEvents] (create ctx flag) := by
  refine within_require ctx _ _ (fun _ => within_check _ _ (fun _ => ?_))
  refine within_bind _ _ (within_read ctx _ rfl) (fun id => ?_)
  refine within_bind _ _ (within_read ctx _ rfl) (fun now => ?_)
  refine within_bind _ _ (within_call ctx _ (by simp [Op.writes])) (fun _ => ?_)
  exact within_of_deletesOnly _ (enterEnvironments_uses ctx _)

theorem addVariant_within (projectID flagKey : String) (v : Variant) :
    Within [.flags, .auditEvents] (addVariant ctx projectID flagKey v) := by
  refine within_require ctx _ _ (fun _ => ?_)
  refine within_bind _ _ (within_read ctx _ rfl) (fun f => ?_)
  refine within_check _ _ (fun _ => within_check _ _ (fun _ => within_check _ _ (fun _ => ?_)))
  refine within_bind _ _ (within_call ctx _ (by simp [Op.writes])) (fun _ => ?_)
  exact audited_within ctx (by simp) _ _

theorem renameVariant_within (projectID flagKey variantKey newName : String) :
    Within [.flags, .auditEvents] (renameVariant ctx projectID flagKey variantKey newName) := by
  refine within_require ctx _ _ (fun _ => ?_)
  refine within_bind _ _ (within_read ctx _ rfl) (fun f => ?_)
  cases renameFirst variantKey newName f.variants with
  | none => exact within_fail _
  | some variants =>
      refine within_check _ _ (fun _ => ?_)
      refine within_bind _ _ (within_call ctx _ (by simp [Op.writes])) (fun _ => ?_)
      exact audited_within ctx (by simp) _ _

theorem deleteVariant_within (projectID flagKey variantKey : String) (force : Bool) :
    Within [.flags, .rules, .auditEvents]
      (deleteVariant ctx projectID flagKey variantKey force) := by
  refine within_require ctx _ _ (fun _ => ?_)
  refine within_bind _ _ (within_read ctx _ rfl) (fun f => ?_)
  refine within_check _ _ (fun _ => within_check _ _ (fun _ => ?_))
  refine within_check _ _ (fun _ => within_check _ _ (fun _ => ?_))
  refine within_bind _ _ (within_read ctx _ rfl) (fun rules => within_check _ _ (fun _ => ?_))
  refine within_bind _ _ (within_mono (by simp) _ (upsertPatched_within ctx _ _ _)) (fun _ => ?_)
  refine within_check _ _ (fun _ => ?_)
  refine within_bind _ _ (within_call ctx _ (by simp [Op.writes])) (fun _ => ?_)
  exact audited_within ctx (by simp) _ _

theorem update_within (flag : Flag) : Within [.flags, .auditEvents] (update ctx flag) := by
  refine within_require ctx _ _ (fun _ => within_check _ _ (fun _ => ?_))
  refine within_bind _ _ (within_call ctx _ (by simp [Op.writes])) (fun _ => ?_)
  exact within_mono (by simp) _ (recordAudit_within ctx _)

theorem announce_within (params : SetEnabledParams) (f : Flag) :
    Within [.published, .auditEvents] (announce ctx params f) := by
  refine within_bind _ _ (within_read ctx _ rfl) (fun now => ?_)
  refine within_bind _ _ (within_bestEffort _ (within_call ctx _ (by simp [Op.writes])))
    (fun _ => ?_)
  by_cases hsource : params.source ≠ ""
  · rw [if_pos hsource]
    exact within_mono (by simp) _ (recordAuditErr_within ctx _)
  · rw [if_neg hsource]
    exact within_mono (by simp) _ (recordAudit_within ctx _)

theorem setEnabled_within (params : SetEnabledParams) :
    Within [.states, .published, .auditEvents] (setEnabled ctx params) := by
  refine within_require ctx _ _ (fun _ => ?_)
  refine within_bind _ _ (within_read ctx _ rfl) (fun f => ?_)
  refine within_bind _ _ (within_call ctx _ (by simp [Op.writes])) (fun _ => ?_)
  exact within_mono (by simp) _ (announce_within ctx params f)

theorem delete_within (id : String) :
    Within [.flags, .states, .rules, .auditEvents] (delete ctx id) := by
  refine within_require ctx _ _ (fun _ => ?_)
  refine within_bind _ _ (within_call ctx _ (by simp [Op.writes])) (fun _ => ?_)
  exact within_mono (by simp) _ (recordAudit_within ctx _)

theorem deleteByKey_within (projectID key : String) :
    Within [.flags, .states, .rules, .auditEvents] (deleteByKey ctx projectID key) :=
  within_of_deletesOnly _ (deleteByKey_uses ctx projectID key)

end FlagService

end Footprint

end Cuttlegate
