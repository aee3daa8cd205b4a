import Cuttlegate.App.FlagService

/-!
# The Project, Member, Environment and Segment Services

The services that manage what surrounds the flags of a project.

Creating a project makes its creator an admin member of it. Members are added,
demoted and removed by an admin, who cannot give a role above their own and
cannot take away the last admin. Creating an environment gives every flag of
the project a disabled state there. Renaming projects and environments and
deleting projects takes an admin; an editor may create and delete environments
and manage segments.

## Main definitions

* `ProjectService.create` and the other methods on projects.
* `ProjectMemberService.addMember` and the other methods on members.
* `EnvironmentService.create` and the other methods on environments.
* `SegmentService.create` and the other methods on segments.

## Theorems

* `ProjectService.create_within` and the other footprints.
-/

namespace Cuttlegate

/-! ## Projects -/

namespace ProjectService

def create (ctx : Ctx) (name slug : String) : Prog Project := do
  let ac ← ctx.require .editor
  let id ← ctx.call .newUUID
  let now ← ctx.call .now
  let p : Project := ⟨id, name, slug, now⟩
  check p.validate
  ctx.call (.createProject p)
  -- The creator becomes an admin member of the new project.
  ctx.call (.addMember ⟨p.id, ac.userID, .admin, p.createdAt⟩)
  return p

def getBySlug (ctx : Ctx) (slug : String) : Prog Project := ctx.call (.projectBySlug slug)

def list (ctx : Ctx) : Prog (List Project) := ctx.call .listProjects

def updateName (ctx : Ctx) (slug name : String) : Prog Project := do
  let _ ← ctx.require .admin
  let p ← ctx.call (.projectBySlug slug)
  let p := { p with name := name }
  check p.validate
  ctx.call (.renameProject p.id name)
  return p

def deleteBySlug (ctx : Ctx) (slug : String) : Prog Unit := do
  let _ ← ctx.require .admin
  let p ← ctx.call (.projectBySlug slug)
  ctx.call (.deleteProject p.id)

def delete (ctx : Ctx) (id : String) : Prog Unit := do
  let _ ← ctx.require .admin
  ctx.call (.deleteProject id)

end ProjectService

/-! ## Members -/

structure ProjectMemberView where
  projectID : String
  userID : String
  role : Role
  createdAt : Time
  name : String
  email : String
  deriving DecidableEq, Repr

/-- A member row with the cached profile of the user, where there is one. A
    failed profile lookup leaves the name and email empty. -/
def memberView (ctx : Ctx) (m : ProjectMember) : Prog ProjectMemberView := do
  match ← (ctx.call (.userByID m.userID)).attempt with
  | .ok (some u) => return ⟨m.projectID, m.userID, m.role, m.createdAt, u.name, u.email⟩
  | _ => return ⟨m.projectID, m.userID, m.role, m.createdAt, "", ""⟩

def memberViews (ctx : Ctx) : List ProjectMember → Prog (List ProjectMemberView)
  | [] => return []
  | m :: rest => do
      let v ← memberView ctx m
      let vs ← memberViews ctx rest
      return v :: vs

/-- The number of admins in a list of members. -/
def adminCount (members : List ProjectMember) : Nat :=
  (members.filter (fun m => m.role == .admin)).length

namespace ProjectMemberService

def listMembers (ctx : Ctx) (projectSlug : String) : Prog (List ProjectMemberView) := do
  let _ ← ctx.require .viewer
  let proj ← ctx.call (.projectBySlug projectSlug)
  let members ← ctx.call (.listMembers proj.id)
  memberViews ctx members

def addMember (ctx : Ctx) (projectSlug userID : String) (role : Role) :
    Prog ProjectMemberView := do
  let ac ← ctx.require .admin
  check (refuseIf (roleLevel role > roleLevel ac.role) .forbidden)
  let proj ← ctx.call (.projectBySlug projectSlug)
  let now ← ctx.call .now
  let m : ProjectMember := ⟨proj.id, userID, role, now⟩
  ctx.call (.addMember m)
  memberView ctx m

/-- The guard of a demotion: an admin may not be the last one. -/
def checkDemotion (members : List ProjectMember) (userID : String) : Except Err Unit :=
  refuseIf ((∃ m ∈ members, m.userID = userID ∧ m.role = .admin) ∧ adminCount members = 1)
    .lastAdmin

def updateRole (ctx : Ctx) (projectSlug userID : String) (role : Role) : Prog Unit := do
  let ac ← ctx.require .admin
  check (refuseIf (roleLevel role > roleLevel ac.role) .forbidden)
  let proj ← ctx.call (.projectBySlug projectSlug)
  if role ≠ .admin then do
    let members ← ctx.call (.listMembers proj.id)
    check (checkDemotion members userID)
    ctx.call (.updateMemberRole proj.id userID role)
  else ctx.call (.updateMemberRole proj.id userID role)

/-- Whether the member the scan saw last under this user id is an admin. -/
def lastIsAdmin (members : List ProjectMember) (userID : String) : Bool :=
  match (members.filter (fun m => m.userID == userID)).getLast? with
  | some m => m.role == .admin
  | none => false

/-- The guard of a removal: the member exists and is not the last admin. -/
def checkRemoval (members : List ProjectMember) (userID : String) : Except Err Unit := do
  refuseIf (∀ m ∈ members, m.userID ≠ userID) .notFound
  refuseIf (lastIsAdmin members userID = true ∧ adminCount members = 1) .lastAdmin

def removeMember (ctx : Ctx) (projectSlug userID : String) : Prog Unit := do
  let _ ← ctx.require .admin
  let proj ← ctx.call (.projectBySlug projectSlug)
  let members ← ctx.call (.listMembers proj.id)
  check (checkRemoval members userID)
  ctx.call (.removeMember proj.id userID)

end ProjectMemberService

/-! ## Environments -/

namespace EnvironmentService

def create (ctx : Ctx) (projectID name envSlug : String) : Prog Environment := do
  let _ ← ctx.require .editor
  let id ← ctx.call .newUUID
  let now ← ctx.call .now
  let e : Environment := ⟨id, projectID, name, envSlug, now⟩
  check e.validate
  ctx.call (.createEnvironment e)
  -- Every flag of the project gets a disabled state in the new environment.
  let flags ← undoing (ctx.call (.listFlags projectID)) (ctx.call (.deleteEnvironment e.id))
  if flags.length > 0 then do
    undoing (createBatch ctx (flags.map (fun f => ⟨f.id, e.id, false⟩)))
      (ctx.call (.deleteEnvironment e.id))
    return e
  else return e

def getBySlug (ctx : Ctx) (projectID slug : String) : Prog Environment :=
  ctx.call (.environmentBySlug projectID slug)

def listByProject (ctx : Ctx) (projectID : String) : Prog (List Environment) :=
  ctx.call (.listEnvironments projectID)

def updateName (ctx : Ctx) (projectID slug name : String) : Prog Environment := do
  let _ ← ctx.require .admin
  check (refuseIf (name = "") (.validation "name" "must not be empty"))
  let e ← ctx.call (.environmentBySlug projectID slug)
  ctx.call (.renameEnvironment e.id name)
  return { e with name := name }

def deleteBySlug (ctx : Ctx) (projectID slug : String) : Prog Unit := do
  let _ ← ctx.require .editor
  let e ← ctx.call (.environmentBySlug projectID slug)
  ctx.call (.deleteEnvironment e.id)

def delete (ctx : Ctx) (id : String) : Prog Unit := do
  let _ ← ctx.require .editor
  ctx.call (.deleteEnvironment id)

end EnvironmentService

/-! ## Segments -/

namespace SegmentService

def create (ctx : Ctx) (projectID slug name : String) : Prog Segment := do
  let _ ← ctx.require .editor
  check (Segment.validate ⟨"", slug, name, projectID, 0⟩)
  let id ← ctx.call .newUUID
  let now ← ctx.call .now
  let seg : Segment := ⟨id, slug, name, projectID, now⟩
  ctx.call (.createSegment seg)
  return seg

def getBySlug (ctx : Ctx) (projectID slug : String) : Prog Segment := do
  let _ ← ctx.require .viewer
  ctx.call (.segmentBySlug projectID slug)

def list (ctx : Ctx) (projectID : String) : Prog (List Segment) := do
  let _ ← ctx.require .viewer
  ctx.call (.listSegments projectID)

def listWithCount (ctx : Ctx) (projectID : String) : Prog (List SegmentWithCount) := do
  let _ ← ctx.require .viewer
  ctx.call (.listSegmentsWithCount projectID)

def updateName (ctx : Ctx) (id name : String) : Prog Unit := do
  let _ ← ctx.require .editor
  check (refuseIf (name = "") (.validation "name" "must not be empty"))
  ctx.call (.renameSegment id name)

def delete (ctx : Ctx) (projectID slug : String) : Prog Unit := do
  let _ ← ctx.require .editor
  let seg ← ctx.call (.segmentBySlug projectID slug)
  ctx.call (.deleteSegment seg.id)

def setMembers (ctx : Ctx) (segmentID : String) (userKeys : List String) : Prog Unit := do
  let _ ← ctx.require .editor
  ctx.call (.setSegmentMembers segmentID userKeys)

def listMembers (ctx : Ctx) (segmentID : String) : Prog (List String) := do
  let _ ← ctx.require .viewer
  ctx.call (.listSegmentMembers segmentID)

end SegmentService

/-! ## Footprints -/

section Footprint

variable (ctx : Ctx)

theorem memberView_within (m : ProjectMember) : Within [] (memberView ctx m) := by
  refine within_bind _ _ (within_attempt _ (within_read ctx _ rfl)) (fun r => ?_)
  rcases r with e | u
  · exact within_ret _
  · cases u with
    | none => exact within_ret _
    | some u => exact within_ret _

theorem memberViews_within (members : List ProjectMember) :
    Within [] (memberViews ctx members) := by
  induction members with
  | nil => exact within_ret []
  | cons m rest ih =>
      refine within_bind _ _ (memberView_within ctx m) (fun v => ?_)
      exact within_bind _ _ ih (fun vs => within_ret _)

theorem ProjectService.create_within (name slug : String) :
    Within [.projects, .members] (ProjectService.create ctx name slug) := by
  refine within_require ctx _ _ (fun ac => ?_)
  refine within_bind _ _ (within_read ctx _ rfl) (fun id => ?_)
  refine within_bind _ _ (within_read ctx _ rfl) (fun now => within_check _ _ (fun _ => ?_))
  refine within_bind _ _ (within_call ctx _ (by simp [Op.writes])) (fun _ => ?_)
  exact within_bind _ _ (within_call ctx _ (by simp [Op.writes])) (fun _ => within_ret _)

theorem ProjectService.updateName_within (slug name : String) :
    Within [.projects] (ProjectService.updateName ctx slug name) := by
  refine within_require ctx _ _ (fun _ => ?_)
  refine within_bind _ _ (within_read ctx _ rfl) (fun p => within_check _ _ (fun _ => ?_))
  exact within_bind _ _ (within_call ctx _ (List.Subset.refl _)) (fun _ => within_ret _)

theorem ProjectMemberService.listMembers_within (projectSlug : String) :
    Within [] (ProjectMemberService.listMembers ctx projectSlug) := by
  refine within_require ctx _ _ (fun _ => ?_)
  refine within_bind _ _ (within_read ctx _ rfl) (fun proj => ?_)
  exact within_bind _ _ (within_read ctx _ rfl) (fun members => memberViews_within ctx members)

theorem ProjectMemberService.addMember_within (projectSlug userID : String) (role : Role) :
    Within [.members] (ProjectMemberService.addMember ctx projectSlug userID role) := by
  refine within_require ctx _ _ (fun ac => within_check _ _ (fun _ => ?_))
  refine within_bind _ _ (within_read ctx _ rfl) (fun proj => ?_)
  refine within_bind _ _ (within_read ctx _ rfl) (fun now => ?_)
  refine within_bind _ _ (within_call ctx _ (List.Subset.refl _)) (fun _ => ?_)
  exact within_mono (List.nil_subset _) _ (memberView_within ctx _)

theorem ProjectMemberService.updateRole_within (projectSlug userID : String) (role : Role) :
    Within [.members] (ProjectMemberService.updateRole ctx projectSlug userID role) := by
  refine within_require ctx _ _ (fun ac => within_check _ _ (fun _ => ?_))
  refine within_bind _ _ (within_read ctx _ rfl) (fun proj => ?_)
  by_cases hrole : role ≠ .admin
  · rw [if_pos hrole]
    refine within_bind _ _ (within_read ctx _ rfl) (fun members => within_check _ _ (fun _ => ?_))
    exact within_call ctx _ (List.Subset.refl _)
  · rw [if_neg hrole]
    exact within_call ctx _ (List.Subset.refl _)

theorem ProjectMemberService.removeMember_within (projectSlug userID : String) :
    Within [.members] (ProjectMemberService.removeMember ctx projectSlug userID) := by
  refine within_require ctx _ _ (fun _ => ?_)
  refine within_bind _ _ (within_read ctx _ rfl) (fun proj => ?_)
  refine within_bind _ _ (within_read ctx _ rfl) (fun members => within_check _ _ (fun _ => ?_))
  exact within_call ctx _ (List.Subset.refl _)

theorem EnvironmentService.create_within (projectID name envSlug : String) :
    Within [.environments, .states, .rules, .apiKeys]
      (EnvironmentService.create ctx projectID name envSlug) := by
  have hundo : ∀ id, Within [.environments, .states, .rules, .apiKeys]
      (ctx.call (.deleteEnvironment id)) := fun id => within_call ctx _ (List.Subset.refl _)
  refine within_require ctx _ _ (fun _ => ?_)
  refine within_bind _ _ (within_read ctx _ rfl) (fun id => ?_)
  refine within_bind _ _ (within_read ctx _ rfl) (fun now => within_check _ _ (fun _ => ?_))
  refine within_bind _ _ (within_call ctx _ (by simp [Op.writes])) (fun _ => ?_)
  refine within_bind _ _ (within_undoing _ _ (within_read ctx _ rfl) (hundo _)) (fun flags => ?_)
  by_cases hsome : flags.length > 0
  · rw [if_pos hsome]
    refine within_bind _ _ (within_undoing _ _ ?_ (hundo _)) (fun _ => within_ret _)
    exact within_mono (by simp) _ (createBatch_within ctx _)
  · rw [if_neg hsome]
    exact within_ret _

theorem EnvironmentService.updateName_within (projectID slug name : String) :
    Within [.environments] (EnvironmentService.updateName ctx projectID slug name) := by
  refine within_require ctx _ _ (fun _ => within_check _ _ (fun _ => ?_))
  refine within_bind _ _ (within_read ctx _ rfl) (fun e => ?_)
  exact within_bind _ _ (within_call ctx _ (List.Subset.refl _)) (fun _ => within_ret _)

theorem SegmentService.create_within (projectID slug name : String) :
    Within [.segments] (SegmentService.create ctx projectID slug name) := by
  refine within_require ctx _ _ (fun _ => within_check _ _ (fun _ => ?_))
  refine within_bind _ _ (within_read ctx _ rfl) (fun id => ?_)
  refine within_bind _ _ (within_read ctx _ rfl) (fun now => ?_)
  exact within_bind _ _ (within_call ctx _ (List.Subset.refl _)) (fun _ => within_ret _)

theorem SegmentService.updateName_within (id name : String) :
    Within [.segments] (SegmentService.updateName ctx id name) :=
  within_require ctx _ _ (fun _ => within_check _ _ (fun _ =>
    within_call ctx _ (List.Subset.refl _)))

end Footprint

end Cuttlegate
