import Cuttlegate.App.RuleService
import Cuttlegate.App.ProjectService
import Cuttlegate.App.APIKeyService

/-!
# The Methods of the Services

Every public method of the seven services that manage the database, gathered
in one type, so that a statement about all of them is a statement about
`Method`.

Each method has the role it requires, if it requires one, and the tables its
operations may write. Both are read off the program of the method
(`Method.guarded`, `Method.uses_tables`), one case a method; everything the
development says about all methods at once goes through these two lemmas.

## Main definitions

* `Method`: A method and its arguments.
* `Method.program`: What it runs.
* `Method.requires`: The role it requires.
* `Method.tables`: The tables it may write.
* `Method.run`: Calling a method.

## Theorems

* `Method.guarded`: A method that requires a role starts with the check.
* `Method.uses_tables`: A method writes no table but its own.
* `Method.run_refused`: A refused call has no effect.
* `Method.run_same`: A call leaves the other tables alone.
-/

namespace Cuttlegate

inductive Method where
  | flagCreate (f : Flag)
  | flagGetByKey (projectID key : String)
  | flagListByProject (projectID : String)
  | flagListByProjectPaginated (projectID : String) (filter : FlagListFilter)
  | flagListByEnvironment (projectID environmentID : String)
  | flagAddVariant (projectID flagKey : String) (v : Variant)
  | flagRenameVariant (projectID flagKey variantKey newName : String)
  | flagDeleteVariant (projectID flagKey variantKey : String) (force : Bool)
  | flagUpdate (f : Flag)
  | flagGetByKeyAndEnvironment (projectID environmentID flagKey : String)
  | flagSetEnabled (params : SetEnabledParams)
  | flagDelete (id : String)
  | flagDeleteByKey (projectID key : String)
  | ruleCreate (new : NewRule)
  | ruleList (flagID environmentID : String)
  | ruleUpdate (r : Rule)
  | ruleDelete (id : String)
  | segmentCreate (projectID slug name : String)
  | segmentGetBySlug (projectID slug : String)
  | segmentList (projectID : String)
  | segmentListWithCount (projectID : String)
  | segmentUpdateName (id name : String)
  | segmentDelete (projectID slug : String)
  | segmentSetMembers (segmentID : String) (userKeys : List String)
  | segmentListMembers (segmentID : String)
  | environmentCreate (projectID name envSlug : String)
  | environmentGetBySlug (projectID slug : String)
  | environmentListByProject (projectID : String)
  | environmentUpdateName (projectID slug name : String)
  | environmentDeleteBySlug (projectID slug : String)
  | environmentDelete (id : String)
  | projectCreate (name slug : String)
  | projectGetBySlug (slug : String)
  | projectList
  | projectUpdateName (slug name : String)
  | projectDeleteBySlug (slug : String)
  | projectDelete (id : String)
  | memberList (projectSlug : String)
  | memberAdd (projectSlug userID : String) (role : Role)
  | memberUpdateRole (projectSlug userID : String) (role : Role)
  | memberRemove (projectSlug userID : String)
  | apiKeyCreate (projectID environmentID name : String) (tier : ToolCapabilityTier)
  | apiKeyList (projectID environmentID : String)
  | apiKeyRevoke (id : String)
  | apiKeyUpdateCapabilityTier (id : String) (tier : ToolCapabilityTier)
  | apiKeyAuthenticate (plaintext : String)
  | apiKeyAuthenticateMCP (plaintext : String)

/-- Run a program for its effect and its failure, dropping its answer. -/
def ignore {α : Type} (p : Prog α) : Prog Unit := p >>= fun _ => Proc.ret ()

def Method.program (sha256 : String → KeyHash) (ctx : Ctx) : Method → Prog Unit
  | .flagCreate f => ignore (FlagService.create ctx f)
  | .flagGetByKey p k => ignore (FlagService.getByKey ctx p k)
  | .flagListByProject p => ignore (FlagService.listByProject ctx p)
  | .flagListByProjectPaginated p f => ignore (FlagService.listByProjectPaginated ctx p f)
  | .flagListByEnvironment p e => ignore (FlagService.listByEnvironment ctx p e)
  | .flagAddVariant p k v => ignore (FlagService.addVariant ctx p k v)
  | .flagRenameVariant p k v n => ignore (FlagService.renameVariant ctx p k v n)
  | .flagDeleteVariant p k v force => ignore (FlagService.deleteVariant ctx p k v force)
  | .flagUpdate f => FlagService.update ctx f
  | .flagGetByKeyAndEnvironment p e k => ignore (FlagService.getByKeyAndEnvironment ctx p e k)
  | .flagSetEnabled params => FlagService.setEnabled ctx params
  | .flagDelete id => FlagService.delete ctx id
  | .flagDeleteByKey p k => FlagService.deleteByKey ctx p k
  | .ruleCreate new => ignore (RuleService.create ctx new)
  | .ruleList f e => ignore (RuleService.list ctx f e)
  | .ruleUpdate r => ignore (RuleService.update ctx r)
  | .ruleDelete id => RuleService.delete ctx id
  | .segmentCreate p s n => ignore (SegmentService.create ctx p s n)
  | .segmentGetBySlug p s => ignore (SegmentService.getBySlug ctx p s)
  | .segmentList p => ignore (SegmentService.list ctx p)
  | .segmentListWithCount p => ignore (SegmentService.listWithCount ctx p)
  | .segmentUpdateName id n => SegmentService.updateName ctx id n
  | .segmentDelete p s => SegmentService.delete ctx p s
  | .segmentSetMembers id keys => SegmentService.setMembers ctx id keys
  | .segmentListMembers id => ignore (SegmentService.listMembers ctx id)
  | .environmentCreate p n s => ignore (EnvironmentService.create ctx p n s)
  | .environmentGetBySlug p s => ignore (EnvironmentService.getBySlug ctx p s)
  | .environmentListByProject p => ignore (EnvironmentService.listByProject ctx p)
  | .environmentUpdateName p s n => ignore (EnvironmentService.updateName ctx p s n)
  | .environmentDeleteBySlug p s => EnvironmentService.deleteBySlug ctx p s
  | .environmentDelete id => EnvironmentService.delete ctx id
  | .projectCreate n s => ignore (ProjectService.create ctx n s)
  | .projectGetBySlug s => ignore (ProjectService.getBySlug ctx s)
  | .projectList => ignore (ProjectService.list ctx)
  | .projectUpdateName s n => ignore (ProjectService.updateName ctx s n)
  | .projectDeleteBySlug s => ProjectService.deleteBySlug ctx s
  | .projectDelete id => ProjectService.delete ctx id
  | .memberList s => ignore (ProjectMemberService.listMembers ctx s)
  | .memberAdd s u r => ignore (ProjectMemberService.addMember ctx s u r)
  | .memberUpdateRole s u r => ProjectMemberService.updateRole ctx s u r
  | .memberRemove s u => ProjectMemberService.removeMember ctx s u
  | .apiKeyCreate p e n t => ignore (APIKeyService.create sha256 ctx p e n t)
  | .apiKeyList p e => ignore (APIKeyService.list ctx p e)
  | .apiKeyRevoke id => APIKeyService.revoke ctx id
  | .apiKeyUpdateCapabilityTier id t => ignore (APIKeyService.updateCapabilityTier ctx id t)
  | .apiKeyAuthenticate k => ignore (APIKeyService.authenticate sha256 ctx k)
  | .apiKeyAuthenticateMCP k => ignore (APIKeyService.authenticateMCP sha256 ctx k)

/-- The role a method requires. -/
def Method.requires : Method → Option Role
  | .flagCreate _ | .flagAddVariant _ _ _ | .flagRenameVariant _ _ _ _
  | .flagDeleteVariant _ _ _ _ | .flagUpdate _ | .flagSetEnabled _ | .flagDelete _
  | .flagDeleteByKey _ _ => some .editor
  | .ruleCreate _ | .ruleUpdate _ | .ruleDelete _ => some .editor
  | .segmentCreate _ _ _ | .segmentUpdateName _ _ | .segmentDelete _ _
  | .segmentSetMembers _ _ => some .editor
  | .segmentGetBySlug _ _ | .segmentList _ | .segmentListWithCount _
  | .segmentListMembers _ => some .viewer
  | .environmentCreate _ _ _ | .environmentDeleteBySlug _ _ | .environmentDelete _ => some .editor
  | .environmentUpdateName _ _ _ => some .admin
  | .projectCreate _ _ => some .editor
  | .projectUpdateName _ _ | .projectDeleteBySlug _ | .projectDelete _ => some .admin
  | .memberList _ => some .viewer
  | .memberAdd _ _ _ | .memberUpdateRole _ _ _ | .memberRemove _ _ => some .admin
  | .apiKeyCreate _ _ _ _ | .apiKeyRevoke _ | .apiKeyUpdateCapabilityTier _ _ => some .admin
  | .apiKeyList _ _ => some .viewer
  | _ => none

/-- The tables the operations of a method may write. -/
def Method.tables : Method → List Tbl
  | .flagCreate _ => [.flags, .states, .rules, .auditEvents]
  | .flagAddVariant _ _ _ | .flagRenameVariant _ _ _ _ | .flagUpdate _ => [.flags, .auditEvents]
  | .flagDeleteVariant _ _ _ _ => [.flags, .rules, .auditEvents]
  | .flagSetEnabled _ => [.states, .published, .auditEvents]
  | .flagDelete _ | .flagDeleteByKey _ _ => [.flags, .states, .rules, .auditEvents]
  | .ruleCreate _ | .ruleUpdate _ | .ruleDelete _ => [.rules]
  | .segmentCreate _ _ _ | .segmentUpdateName _ _ => [.segments]
  | .segmentDelete _ _ => [.segments, .segmentMembers]
  | .segmentSetMembers _ _ => [.segmentMembers]
  | .environmentCreate _ _ _ | .environmentDeleteBySlug _ _ | .environmentDelete _ =>
      [.environments, .states, .rules, .apiKeys]
  | .environmentUpdateName _ _ _ => [.environments]
  | .projectCreate _ _ => [.projects, .members]
  | .projectUpdateName _ _ => [.projects]
  | .projectDeleteBySlug _ | .projectDelete _ => [.projects, .members, .environments, .flags,
      .states, .rules, .segments, .segmentMembers, .apiKeys, .auditEvents]
  | .memberAdd _ _ _ | .memberUpdateRole _ _ _ | .memberRemove _ _ => [.members]
  | .apiKeyCreate _ _ _ _ | .apiKeyRevoke _ | .apiKeyUpdateCapabilityTier _ _ => [.apiKeys]
  | _ => []

/-- Call a method. -/
def Method.run (m : Method) (h : Host) (ctx : Ctx) (w : World) : Except Err Unit × World :=
  Proc.run (exec h) (m.program h.sha256 ctx) w

theorem run_ignore {α : Type} (h : Host) (p : Prog α) (w : World) :
    (Proc.run (exec h) (ignore p) w).2 = (Proc.run (exec h) p w).2 := by
  unfold ignore
  rw [Proc.run_bind]
  rcases Proc.run (exec h) p w with ⟨r, w'⟩
  cases r <;> rfl

theorem within_ignore {α : Type} {ts : List Tbl} (p : Prog α) (hp : Within ts p) :
    Within ts (ignore p) :=
  within_bind _ _ hp (fun _ => within_ret ())

/-- A program that starts with a role check, for a role. -/
def StartsWith (ctx : Ctx) (r : Role) (p : Prog Unit) : Prop :=
  ∃ body : AuthContext → Prog Unit, p = ctx.require r >>= body

theorem startsWith_ignore {α : Type} (ctx : Ctx) (r : Role) (body : AuthContext → Prog α) :
    StartsWith ctx r (ignore (ctx.require r >>= body)) := by
  refine ⟨fun ac => ignore (body ac), ?_⟩
  unfold Ctx.require ignore
  cases requireRole ctx.auth r with
  | error e => rfl
  | ok ac => rfl

/-- A method that requires a role starts with the check. -/
theorem Method.guarded (sha256 : String → KeyHash) (ctx : Ctx) (m : Method) (r : Role)
    (hr : m.requires = some r) : StartsWith ctx r (m.program sha256 ctx) := by
  cases m <;> simp only [Method.requires, Option.some.injEq, reduceCtorEq] at hr <;> subst hr <;>
    first
    | exact startsWith_ignore ctx _ _
    | exact ⟨_, rfl⟩

/-- A method writes no table but its own. -/
theorem Method.uses_tables (sha256 : String → KeyHash) (ctx : Ctx) (m : Method) :
    Within m.tables (m.program sha256 ctx) := by
  -- A guarded read, the shape of most queries.
  have hquery : ∀ (r : Role) (op : Op), op.writes = [] →
      Within [] (ctx.require r >>= fun _ => ctx.call op) := fun r op hop =>
    within_require ctx _ _ (fun _ => within_read ctx op hop)
  cases m with
  | flagCreate f => exact within_ignore _ (FlagService.create_within ctx f)
  | flagGetByKey p k => exact within_ignore _ (within_read ctx _ rfl)
  | flagListByProject p => exact within_ignore _ (within_read ctx _ rfl)
  | flagListByProjectPaginated p f =>
      refine within_ignore _ (within_bind _ _ (within_read ctx _ rfl) (fun total => ?_))
      exact within_bind _ _ (within_read ctx _ rfl) (fun flags => within_ret _)
  | flagListByEnvironment p e =>
      refine within_ignore _ (within_bind _ _ (within_read ctx _ rfl) (fun states => ?_))
      by_cases hnone : states.length = 0
      · rw [if_pos hnone]
        exact within_ret _
      · rw [if_neg hnone]
        exact within_bind _ _ (within_read ctx _ rfl) (fun flags => within_ret _)
  | flagAddVariant p k v => exact within_ignore _ (FlagService.addVariant_within ctx p k v)
  | flagRenameVariant p k v n =>
      exact within_ignore _ (FlagService.renameVariant_within ctx p k v n)
  | flagDeleteVariant p k v force =>
      exact within_ignore _ (FlagService.deleteVariant_within ctx p k v force)
  | flagUpdate f => exact FlagService.update_within ctx f
  | flagGetByKeyAndEnvironment p e k =>
      refine within_ignore _ (within_bind _ _ (within_read ctx _ rfl) (fun f => ?_))
      exact within_bind _ _ (within_read ctx _ rfl) (fun state => within_ret _)
  | flagSetEnabled params => exact FlagService.setEnabled_within ctx params
  | flagDelete id => exact FlagService.delete_within ctx id
  | flagDeleteByKey p k => exact FlagService.deleteByKey_within ctx p k
  | ruleCreate new => exact within_ignore _ (RuleService.create_within ctx new)
  | ruleList f e => exact within_ignore _ (within_read ctx _ rfl)
  | ruleUpdate r => exact within_ignore _ (RuleService.update_within ctx r)
  | ruleDelete id => exact RuleService.delete_within ctx id
  | segmentCreate p s n => exact within_ignore _ (SegmentService.create_within ctx p s n)
  | segmentGetBySlug p s => exact within_ignore _ (hquery _ _ rfl)
  | segmentList p => exact within_ignore _ (hquery _ _ rfl)
  | segmentListWithCount p => exact within_ignore _ (hquery _ _ rfl)
  | segmentUpdateName id n => exact SegmentService.updateName_within ctx id n
  | segmentDelete p s =>
      refine within_require ctx _ _ (fun _ => ?_)
      refine within_bind _ _ (within_read ctx _ rfl) (fun seg => ?_)
      exact within_call ctx _ (List.Subset.refl _)
  | segmentSetMembers id keys =>
      exact within_require ctx _ _ (fun _ => within_call ctx _ (List.Subset.refl _))
  | segmentListMembers id => exact within_ignore _ (hquery _ _ rfl)
  | environmentCreate p n s => exact within_ignore _ (EnvironmentService.create_within ctx p n s)
  | environmentGetBySlug p s => exact within_ignore _ (within_read ctx _ rfl)
  | environmentListByProject p => exact within_ignore _ (within_read ctx _ rfl)
  | environmentUpdateName p s n =>
      exact within_ignore _ (EnvironmentService.updateName_within ctx p s n)
  | environmentDeleteBySlug p s =>
      refine within_require ctx _ _ (fun _ => ?_)
      refine within_bind _ _ (within_read ctx _ rfl) (fun e => ?_)
      exact within_call ctx _ (List.Subset.refl _)
  | environmentDelete id =>
      exact within_require ctx _ _ (fun _ => within_call ctx _ (List.Subset.refl _))
  | projectCreate n s => exact within_ignore _ (ProjectService.create_within ctx n s)
  | projectGetBySlug s => exact within_ignore _ (within_read ctx _ rfl)
  | projectList => exact within_ignore _ (within_read ctx _ rfl)
  | projectUpdateName s n => exact within_ignore _ (ProjectService.updateName_within ctx s n)
  | projectDeleteBySlug s =>
      refine within_require ctx _ _ (fun _ => ?_)
      refine within_bind _ _ (within_read ctx _ rfl) (fun p => ?_)
      exact within_call ctx _ (List.Subset.refl _)
  | projectDelete id =>
      exact within_require ctx _ _ (fun _ => within_call ctx _ (List.Subset.refl _))
  | memberList s => exact within_ignore _ (ProjectMemberService.listMembers_within ctx s)
  | memberAdd s u r => exact within_ignore _ (ProjectMemberService.addMember_within ctx s u r)
  | memberUpdateRole s u r => exact ProjectMemberService.updateRole_within ctx s u r
  | memberRemove s u => exact ProjectMemberService.removeMember_within ctx s u
  | apiKeyCreate p e n t => exact within_ignore _ (APIKeyService.create_within sha256 ctx p e n t)
  | apiKeyList p e =>
      refine within_ignore _ (within_require ctx _ _ (fun _ => ?_))
      exact within_bind _ _ (within_read ctx _ rfl) (fun keys => within_ret _)
  | apiKeyRevoke id =>
      exact within_require ctx _ _ (fun _ => within_call ctx _ (List.Subset.refl _))
  | apiKeyUpdateCapabilityTier id t =>
      exact within_ignore _ (APIKeyService.updateCapabilityTier_within ctx id t)
  | apiKeyAuthenticate k =>
      refine within_ignore _ (within_bind _ _ ?_ (fun key => within_ret _))
      exact APIKeyService.authenticateMCP_within sha256 ctx k
  | apiKeyAuthenticateMCP k =>
      exact within_ignore _ (APIKeyService.authenticateMCP_within sha256 ctx k)

/-- A call leaves the tables of other methods alone. -/
theorem Method.run_same (m : Method) (h : Host) (ctx : Ctx) (w : World) (t : Tbl)
    (ht : t ∉ m.tables) : w.Same (m.run h ctx w).2 t :=
  Within.same h _ (m.uses_tables h.sha256 ctx) t ht w

/-- A call is refused with the world untouched, or its caller has the role the
    method requires. -/
theorem Method.run_refused (m : Method) (h : Host) (ctx : Ctx) (w : World) (r : Role)
    (hr : m.requires = some r) :
    (m.run h ctx w = (.error .forbidden, w) ∧
        ∀ ac, ctx.auth = some ac → roleLevel ac.role < roleLevel r) ∨
      ∃ ac, ctx.auth = some ac ∧ roleLevel r ≤ roleLevel ac.role := by
  rcases m.guarded h.sha256 ctx r hr with ⟨body, hbody⟩
  unfold Method.run
  rw [hbody]
  have hends : Proc.Ends (exec h) (fun res w' =>
      ((res, w') = (.error .forbidden, w) ∧
        ∀ ac, ctx.auth = some ac → roleLevel ac.role < roleLevel r) ∨
      ∃ ac, ctx.auth = some ac ∧ roleLevel r ≤ roleLevel ac.role) (ctx.require r >>= body) w :=
    ends_require ctx r body w (fun hlow => .inl ⟨rfl, hlow⟩)
      (fun ac hauth hlevel => .inr ⟨ac, hauth, hlevel⟩)
  exact hends

/-! ## Runs of calls -/

/-- The worlds that calls can lead to, each made by any caller the permission
    lets through in the world as it then is. -/
inductive Reaches (h : Host) (permit : World → Ctx → Method → Prop) (start : World) :
    World → Prop where
  | start : Reaches h permit start start
  | call (w : World) (ctx : Ctx) (m : Method) (hrun : Reaches h permit start w)
      (hm : permit w ctx m) : Reaches h permit start (m.run h ctx w).2

/-- An invariant that every permitted call keeps holds in every reachable
    world. -/
theorem Reaches.invariant (h : Host) (permit : World → Ctx → Method → Prop) (I : World → Prop)
    (hstep : ∀ w ctx m, permit w ctx m → I w → I (m.run h ctx w).2) (start w : World)
    (hstart : I start) (hrun : Reaches h permit start w) : I w := by
  induction hrun with
  | start => exact hstart
  | call w ctx m _ hm ih => exact hstep w ctx m hm ih

end Cuttlegate
