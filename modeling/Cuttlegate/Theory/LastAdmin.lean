import Cuttlegate.App.Methods
import Cuttlegate.Lib.Discipline
import Cuttlegate.Lib.Reports
import Cuttlegate.Lib.Rows

/-!
# The Last Admin

A demotion or removal lists the members of the project, refuses to take away
the only admin, and then writes. Creating a project stores the project first
and its admin second. Each of these is more than one statement, so whether a
project keeps an admin depends on what comes in between.

Two things go wrong. Two requests that take different admins away may both
list before either writes, and each sees the other's admin; and when the
second write of a creation fails, the project stays behind without members.

`Disturbs` names what must not come in between: another admin loses the role,
or the member in question gets it. It looks at the rows before and after a
step, so demoting a viewer or a demotion that fails does no harm.
`MembersOrderly` asks this of every write that takes an admin away, and that
the admin of a new project can be inserted.
Under it every project has an admin whenever no request is in progress.

## Main definitions

* `MemberCall`: The requests.
* `Store.HasAdmin`, `Store.Governed`: A project with an admin, and all of them.
* `memberDiscipline`: What a request knows when it writes.
* `Took`, `Gave`, `Disturbs`: What a step did to the admins of a project.
* `MembersOrderly`: Writes in good order.

## Theorems

* `members_step`: What one operation does to projects and members.
* `last_admin_kept`: In orderly runs every project keeps an admin.
* `last_admin_race`: In general it does not.
-/

namespace Cuttlegate

/-! ## Requests -/

inductive MemberCall where
  | create (name slug : String)
  | add (projectSlug userID : String) (role : Role)
  | updateRole (projectSlug userID : String) (role : Role)
  | remove (projectSlug userID : String)

def MemberCall.program (ctx : Ctx) : MemberCall → Prog Unit
  | .create name slug => ignore (ProjectService.create ctx name slug)
  | .add projectSlug userID role =>
      ignore (ProjectMemberService.addMember ctx projectSlug userID role)
  | .updateRole projectSlug userID role =>
      ProjectMemberService.updateRole ctx projectSlug userID role
  | .remove projectSlug userID => ProjectMemberService.removeMember ctx projectSlug userID

/-- A thread of the pool: a request by any caller. -/
def memberThread (p : Prog Unit) : Prop := ∃ ctx c, p = MemberCall.program ctx c

/-! ## Projects and their admins -/

def Store.HasAdmin (s : Store) (projectID : String) : Prop :=
  ∃ m ∈ s.members, m.projectID = projectID ∧ m.role = .admin

instance (s : Store) (projectID : String) : Decidable (s.HasAdmin projectID) :=
  inferInstanceAs (Decidable (∃ m ∈ s.members, _))

/-- Every project has an admin. -/
def Store.Governed (s : Store) : Prop := ∀ p ∈ s.projects, s.HasAdmin p.id

instance (s : Store) : Decidable s.Governed := inferInstanceAs (Decidable (∀ p ∈ s.projects, _))

/-- A user is a member of a project at most once. -/
def Store.MembersUnique (s : Store) : Prop :=
  (s.members.map (fun m => (m.projectID, m.userID))).Nodup

instance (s : Store) : Decidable s.MembersUnique := inferInstanceAs (Decidable (List.Nodup _))

/-- The user is an admin of the project. -/
def Store.IsAdmin (s : Store) (projectID userID : String) : Prop :=
  ∃ m ∈ s.members, m.projectID = projectID ∧ m.userID = userID ∧ m.role = .admin

/-- The step took the role of admin from a member who had it. -/
def Took (h : Host) (w : World) (projectID userID : String) (c : Call) : Prop :=
  w.store.IsAdmin projectID userID ∧ ¬ (exec h c w).2.store.IsAdmin projectID userID

/-- The step made a user an admin who was none. -/
def Gave (h : Host) (w : World) (projectID userID : String) (c : Call) : Prop :=
  ¬ w.store.IsAdmin projectID userID ∧ (exec h c w).2.store.IsAdmin projectID userID

/-- The step changed what a request relied on that wants to take the role of
    admin from a member: another admin lost it, or the member got it. -/
def Disturbs (h : Host) (w : World) (projectID userID : String) (c : Call) : Prop :=
  (∃ other, other ≠ userID ∧ Took h w projectID other c) ∨ Gave h w projectID userID c

/-- The call demotes a member or removes it, whatever its role. -/
def Takes (projectID userID : String) (c : Call) : Prop :=
  (∃ role, role ≠ .admin ∧ c.op = .updateMemberRole projectID userID role) ∨
    c.op = .removeMember projectID userID

/-! ## What a request knows -/

/-- What a request has done so far: it has stored a project that still needs
    its admin, or it has listed the members of a project. -/
inductive MemberNote where
  | blank
  | creating (projectID : String)
  | listed (tenant : Option String) (projectID : String) (members : List ProjectMember)

/-- A request that has stored a project enters its admin next, and a request
    that takes a role away has listed the members and passed the guard. -/
def memberDiscipline : Discipline Err Call Call.Ret MemberNote where
  permits := fun c note =>
    -- A request that has created a project enters its admin next and does nothing else.
    (∀ q, note = .creating q →
      ∃ userID createdAt, c.op = .addMember ⟨q, userID, .admin, createdAt⟩) ∧
    match c.op with
    | .createProject _ | .addMember _ => True
    -- Taking an admin's role needs the check of a list read before.
    | .updateMemberRole projectID userID role => role = .admin ∨
        ∃ members, note = .listed c.tenant projectID members ∧
          ProjectMemberService.checkDemotion members userID = .ok ()
    | .removeMember projectID userID =>
        ∃ members, note = .listed c.tenant projectID members ∧
          ProjectMemberService.checkRemoval members userID = .ok ()
    | op => Tbl.projects ∉ op.writes ∧ Tbl.members ∉ op.writes
  after := fun c r note =>
    match c, r with
    | ⟨_, .createProject p⟩, .ok _ => .creating p.id
    | ⟨_, .addMember _⟩, _ => .blank
    | ⟨tenant, .listMembers projectID⟩, .ok members => .listed tenant projectID members
    | _, _ => note

/-- The request does not owe a project its admin. -/
def MemberNote.Settled (note : MemberNote) : Prop := ∀ q, note ≠ .creating q

/-- A read that is not the list of members. -/
def PlainRead (c : Call) : Prop := c.op.writes = [] ∧ ∀ p, c.op ≠ .listMembers p

theorem memberDiscipline_read (c : Call) (hc : PlainRead c) (r : Except Err c.Ret)
    (note : MemberNote) (hnote : note.Settled) :
    memberDiscipline.permits c note ∧ memberDiscipline.after c r note = note := by
  rcases c with ⟨tenant, op⟩
  rcases hc with ⟨hread, hlist⟩
  have hcreating : ∀ q, note = .creating q →
      ∃ userID createdAt, op = .addMember ⟨q, userID, .admin, createdAt⟩ :=
    fun q hq => absurd hq (hnote q)
  refine ⟨⟨hcreating, ?_⟩, ?_⟩
  · cases op <;> first
      | exact ⟨List.not_mem_nil, List.not_mem_nil⟩
      | exact (nomatch hread)
  · cases op <;> first
      | rfl
      | exact absurd rfl (hlist _)
      | exact (nomatch hread)

/-- The program follows the discipline and owes no project its admin when it is
    done. -/
def Guided {α : Type} (p : Prog α) (note : MemberNote) : Prop :=
  Proc.Follows memberDiscipline p note ∧ Proc.Rests memberDiscipline MemberNote.Settled p note

theorem blank_settled : MemberNote.blank.Settled := fun _ hq => (nomatch hq)

theorem listed_settled (tenant : Option String) (projectID : String)
    (members : List ProjectMember) : (MemberNote.listed tenant projectID members).Settled :=
  fun _ hq => (nomatch hq)

section Programs

variable (ctx : Ctx) {α β : Type}

/-- Reads on the way leave the note as it is. -/
theorem guided_read (op : Op) (hop : op.writes = []) (hlist : ∀ p, op ≠ .listMembers p)
    (f : op.Ret → Prog α) (note : MemberNote) (hnote : note.Settled)
    (hf : ∀ a, Guided (f a) note) : Guided (ctx.call op >>= f) note := by
  have hread : PlainRead ⟨ctx.tenant, op⟩ := ⟨hop, hlist⟩
  refine ⟨Proc.follows_call _ _ _ (memberDiscipline_read _ hread (.error .internal) note hnote).1
    (fun a => ?_), Proc.rests_call _ _ _ (fun e => ?_) (fun a => ?_)⟩
  · rw [(memberDiscipline_read _ hread (.ok a) note hnote).2]
    exact (hf a).1
  · rw [(memberDiscipline_read _ hread (.error e) note hnote).2]
    exact hnote
  · rw [(memberDiscipline_read _ hread (.ok a) note hnote).2]
    exact (hf a).2

/-- So do checks. -/
theorem guided_check (x : Except Err α) (f : α → Prog β) (note : MemberNote)
    (hnote : note.Settled) (hf : ∀ a, x = .ok a → Guided (f a) note) :
    Guided (check x >>= f) note := by
  cases x with
  | error e => exact ⟨trivial, hnote⟩
  | ok a => exact hf a rfl

/-- The list of members is noted down. -/
theorem guided_list (projectID : String) (f : List ProjectMember → Prog α) (note : MemberNote)
    (hnote : note.Settled)
    (hf : ∀ members, Guided (f members) (.listed ctx.tenant projectID members)) :
    Guided (ctx.call (.listMembers projectID) >>= f) note := by
  refine ⟨Proc.follows_call _ _ _ ⟨fun q hq => absurd hq (hnote q), ?_⟩ (fun a => (hf a).1),
    Proc.rests_call _ _ _ (fun e => hnote) (fun a => (hf a).2)⟩
  exact ⟨List.not_mem_nil, List.not_mem_nil⟩

/-- A write that the note permits, and what follows it. -/
theorem guided_write (op : Op) (f : op.Ret → Prog α) (note : MemberNote)
    (hop : memberDiscipline.permits ⟨ctx.tenant, op⟩ note)
    (hfail : ∀ e, (memberDiscipline.after ⟨ctx.tenant, op⟩ (.error e) note).Settled)
    (hf : ∀ a, Guided (f a) (memberDiscipline.after ⟨ctx.tenant, op⟩ (.ok a) note)) :
    Guided (ctx.call op >>= f) note :=
  ⟨Proc.follows_call _ _ _ hop (fun a => (hf a).1), Proc.rests_call _ _ _ hfail (fun a => (hf a).2)⟩

/-- The same at the end of a program. -/
theorem guided_last (op : Op) (note : MemberNote)
    (hop : memberDiscipline.permits ⟨ctx.tenant, op⟩ note)
    (hafter : ∀ r, (memberDiscipline.after ⟨ctx.tenant, op⟩ r note).Settled) :
    Guided (ctx.call op) note := by
  refine ⟨⟨hop, fun r => ?_⟩, fun r => ?_⟩
  · cases r <;> trivial
  · cases r with
    | error e => exact hafter (.error e)
    | ok a => exact hafter (.ok a)

theorem guided_ignore (p : Prog α) (note : MemberNote) (hp : Guided p note) :
    Guided (ignore p) note := by
  rcases hp with ⟨hfollows, hrests⟩
  unfold Guided ignore
  induction p generalizing note with
  | ret a => exact ⟨trivial, hrests⟩
  | fail e => exact ⟨trivial, hrests⟩
  | act op k ih =>
      exact ⟨⟨hfollows.1, fun r => (ih r _ (hfollows.2 r) (hrests r)).1⟩,
        fun r => (ih r _ (hfollows.2 r) (hrests r)).2⟩

theorem guided_create (name slug : String) :
    Guided (ProjectService.create ctx name slug) .blank := by
  refine guided_check _ _ _ blank_settled (fun ac _ => ?_)
  refine guided_read ctx .newUUID rfl (fun _ h => nomatch h) _ _ blank_settled (fun id => ?_)
  refine guided_read ctx .now rfl (fun _ h => nomatch h) _ _ blank_settled (fun now => ?_)
  refine guided_check _ _ _ blank_settled (fun _ _ => ?_)
  refine guided_write ctx _ _ _ ⟨fun q hq => (nomatch hq), trivial⟩ (fun e => blank_settled)
    (fun _ => ?_)
  -- The project is stored, and owed its admin.
  refine guided_write ctx _ _ _ ⟨fun q hq => ?_, trivial⟩ (fun e => blank_settled)
    (fun _ => ⟨trivial, blank_settled⟩)
  rw [← MemberNote.creating.inj hq]
  exact ⟨ac.userID, now, rfl⟩

theorem guided_memberView (m : ProjectMember) (note : MemberNote) (hnote : note.Settled) :
    Guided (memberView ctx m) note := by
  have huses : Proc.Uses PlainRead (memberView ctx m) := by
    refine Proc.uses_bind _ _ ((Proc.uses_attempt _).mpr ((Proc.uses_call _).mpr ?_)) (fun r => ?_)
    · exact ⟨rfl, fun _ h => nomatch h⟩
    · rcases r with e | u
      · trivial
      · cases u <;> trivial
  refine ⟨Proc.follows_of_uses (E := MemberNote.Settled) (fun c n hc hn => ?_)
    (fun c r n hc hn => ?_) _ huses note hnote,
    Proc.rests_of_uses (fun c r n hc hn => ?_) _ huses note hnote⟩
  · exact (memberDiscipline_read c hc (.error .internal) n hn).1
  · rw [(memberDiscipline_read c hc r n hn).2]
    exact hn
  · rw [(memberDiscipline_read c hc r n hn).2]
    exact hn

theorem guided_add (projectSlug userID : String) (role : Role) :
    Guided (ProjectMemberService.addMember ctx projectSlug userID role) .blank := by
  refine guided_check _ _ _ blank_settled (fun ac _ =>
    guided_check _ _ _ blank_settled (fun _ _ => ?_))
  refine guided_read ctx (.projectBySlug projectSlug) rfl (fun _ h => nomatch h) _ _ blank_settled
    (fun proj => ?_)
  refine guided_read ctx .now rfl (fun _ h => nomatch h) _ _ blank_settled (fun now => ?_)
  refine guided_write ctx _ _ _ ⟨fun q hq => (nomatch hq), trivial⟩ (fun e => blank_settled)
    (fun _ => ?_)
  exact guided_memberView ctx _ _ blank_settled

theorem guided_updateRole (projectSlug userID : String) (role : Role) :
    Guided (ProjectMemberService.updateRole ctx projectSlug userID role) .blank := by
  refine guided_check _ _ _ blank_settled (fun ac _ =>
    guided_check _ _ _ blank_settled (fun _ _ => ?_))
  refine guided_read ctx (.projectBySlug projectSlug) rfl (fun _ h => nomatch h) _ _ blank_settled
    (fun proj => ?_)
  by_cases hrole : role ≠ .admin
  · rw [if_pos hrole]
    refine guided_list ctx _ _ _ blank_settled (fun members => ?_)
    refine guided_check _ _ _ (listed_settled _ _ _) (fun _ hguard => ?_)
    exact guided_last ctx _ _ ⟨fun q hq => (nomatch hq), .inr ⟨members, rfl, hguard⟩⟩
      (fun r => listed_settled _ _ _)
  · rw [if_neg hrole]
    exact guided_last ctx _ _ ⟨fun q hq => (nomatch hq), .inl (not_not.mp hrole)⟩
      (fun r => blank_settled)

theorem guided_remove (projectSlug userID : String) :
    Guided (ProjectMemberService.removeMember ctx projectSlug userID) .blank := by
  refine guided_check _ _ _ blank_settled (fun ac _ => ?_)
  refine guided_read ctx (.projectBySlug projectSlug) rfl (fun _ h => nomatch h) _ _ blank_settled
    (fun proj => ?_)
  refine guided_list ctx _ _ _ blank_settled (fun members => ?_)
  refine guided_check _ _ _ (listed_settled _ _ _) (fun _ hguard => ?_)
  exact guided_last ctx _ _ ⟨fun q hq => (nomatch hq), members, rfl, hguard⟩
    (fun r => listed_settled _ _ _)

end Programs

/-- Every request follows the discipline. -/
theorem memberThread_guided (p : Prog Unit) (hp : memberThread p) : Guided p .blank := by
  rcases hp with ⟨ctx, c, rfl⟩
  cases c with
  | create name slug => exact guided_ignore _ _ (guided_create ctx name slug)
  | add projectSlug userID role => exact guided_ignore _ _ (guided_add ctx projectSlug userID role)
  | updateRole projectSlug userID role => exact guided_updateRole ctx projectSlug userID role
  | remove projectSlug userID => exact guided_remove ctx projectSlug userID

/-! ## The guards -/

/-- Among members listed once each, an admin who is not the only one has
    another beside them. -/
theorem other_admin (members : List ProjectMember) (huniq : (members.map (·.userID)).Nodup)
    (m : ProjectMember) (hm : m ∈ members) (hadmin : m.role = .admin)
    (hcount : adminCount members ≠ 1) :
    ∃ m' ∈ members, m'.role = .admin ∧ m'.userID ≠ m.userID := by
  by_contra hnone
  have hadmins : ∀ m' ∈ members.filter (fun m => m.role == .admin), m'.userID = m.userID := by
    intro m' hm'
    rw [List.mem_filter, beq_iff_eq] at hm'
    by_contra hne
    exact hnone ⟨m', hm'.1, hm'.2, hne⟩
  -- Were there no other, the admins' user ids would be copies of one id, and ids are
  -- unique.
  have hsame : (members.filter (fun m => m.role == .admin)).map (·.userID)
      = List.replicate (adminCount members) m.userID := by
    refine List.eq_replicate_iff.mpr ⟨by rw [List.length_map]; rfl, fun u hu => ?_⟩
    rcases List.mem_map.mp hu with ⟨m', hm', rfl⟩
    exact hadmins m' hm'
  have hle : adminCount members ≤ 1 := by
    rw [← List.nodup_replicate, ← hsame]
    exact huniq.sublist (List.filter_sublist.map _)
  have hpos : 0 < adminCount members := by
    refine List.length_pos_of_mem (List.mem_filter.mpr ⟨hm, ?_⟩)
    rw [hadmin]
    rfl
  omega

/-- A passed guard: an admin is demoted only beside another. -/
theorem checkDemotion_other (members : List ProjectMember) (userID : String)
    (huniq : (members.map (·.userID)).Nodup)
    (hguard : ProjectMemberService.checkDemotion members userID = .ok ())
    (m : ProjectMember) (hm : m ∈ members) (huser : m.userID = userID) (hadmin : m.role = .admin) :
    ∃ m' ∈ members, m'.role = .admin ∧ m'.userID ≠ userID := by
  rw [ProjectMemberService.checkDemotion, refuseIf_ok, not_and] at hguard
  rw [← huser]
  exact other_admin members huniq m hm hadmin (hguard ⟨m, hm, huser, hadmin⟩)

/-- And removed likewise. -/
theorem checkRemoval_other (members : List ProjectMember) (userID : String)
    (huniq : (members.map (·.userID)).Nodup)
    (hguard : ProjectMemberService.checkRemoval members userID = .ok ())
    (m : ProjectMember) (hm : m ∈ members) (huser : m.userID = userID) (hadmin : m.role = .admin) :
    ∃ m' ∈ members, m'.role = .admin ∧ m'.userID ≠ userID := by
  rw [ProjectMemberService.checkRemoval, bind_unit_ok, refuseIf_ok, refuseIf_ok, not_and] at hguard
  rw [← huser]
  refine other_admin members huniq m hm hadmin (hguard.2 ?_)
  -- The scan saw this very member last.
  unfold ProjectMemberService.lastIsAdmin
  have hmem : m ∈ members.filter (fun m => m.userID == userID) :=
    List.mem_filter.mpr ⟨hm, by rw [huser, beq_self_eq_true]⟩
  cases hlast : (members.filter (fun m => m.userID == userID)).getLast? with
  | none =>
      rw [List.getLast?_eq_none_iff] at hlast
      rw [hlast] at hmem
      exact absurd hmem List.not_mem_nil
  | some last =>
      have hin := List.mem_filter.mp (List.mem_of_getLast? hlast)
      rw [beq_iff_eq] at hin
      rw [List.inj_on_of_nodup_map huniq hin.1 hm (hin.2.trans huser.symm)]
      simp only [hadmin, beq_self_eq_true]

/-! ## What one operation does -/

/-- A member row stays, with whatever role. -/
theorem isMemberRow_iff (conn : Conn) (projectID userID : String) (m : ProjectMember) :
    conn.isMemberRow projectID userID m = true ↔
      conn.sees m.projectID = true ∧ m.projectID = projectID ∧ m.userID = userID := by
  simp only [Conn.isMemberRow, Bool.and_eq_true, beq_iff_eq, and_assoc]

/-- What a permitted operation does to projects and members. -/
theorem members_step (h : Host) (c : Call) (w : World) (note : MemberNote)
    (hc : memberDiscipline.permits c note) :
    ((exec h c w).2.store.projects = w.store.projects ∧
        (exec h c w).2.store.members = w.store.members) ∨
      (∃ p, c.op = .createProject p ∧ (exec h c w).2.store.projects = w.store.projects ++ [p] ∧
        (exec h c w).2.store.members = w.store.members ∧
        memberDiscipline.after c (exec h c w).1 note = .creating p.id) ∨
      (∃ m, c.op = .addMember m ∧
        (∀ n ∈ w.store.members, n.projectID = m.projectID → n.userID ≠ m.userID) ∧
        (exec h c w).2.store.projects = w.store.projects ∧
        (exec h c w).2.store.members = w.store.members ++ [m]) ∨
      (∃ projectID userID role, c.op = .updateMemberRole projectID userID role ∧
        (exec h c w).2.store.projects = w.store.projects ∧
        (exec h c w).2.store.members = w.store.members.map (fun m =>
          if Conn.isMemberRow ⟨c.tenant, h.rls⟩ projectID userID m then { m with role := role }
          else m)) ∨
      ∃ projectID userID, c.op = .removeMember projectID userID ∧
        (exec h c w).2.store.projects = w.store.projects ∧
        (exec h c w).2.store.members = w.store.members.filter (fun m =>
          !Conn.isMemberRow ⟨c.tenant, h.rls⟩ projectID userID m) := by
  rcases exec_cases h c w with ⟨e, he⟩ | ⟨a, w', hp, he⟩
  · rw [he]
    exact .inl ⟨rfl, rfl⟩
  rcases c with ⟨tenant, op⟩
  rw [he]
  by_cases hcreate : ∃ p, op = .createProject p
  · rcases hcreate with ⟨p, rfl⟩
    rcases World.onStore_ok _ _ _ _ hp with ⟨s', hs', rfl⟩
    rcases createProject_ok _ _ _ _ hs' with ⟨_, rfl⟩
    exact .inr (.inl ⟨p, rfl, rfl, rfl, rfl⟩)
  by_cases hadd : ∃ m, op = .addMember m
  · rcases hadd with ⟨m, rfl⟩
    rcases World.onStore_ok _ _ _ _ hp with ⟨s', hs', rfl⟩
    rcases addMember_ok _ _ _ _ _ hs' with ⟨_, hfresh, _, rfl⟩
    exact .inr (.inr (.inl ⟨m, rfl, hfresh, rfl, rfl⟩))
  by_cases hupdate : ∃ projectID userID role, op = .updateMemberRole projectID userID role
  · rcases hupdate with ⟨projectID, userID, role, rfl⟩
    rcases World.onStore_affect _ _ _ _ _ hp with ⟨_, rfl⟩
    exact .inr (.inr (.inr (.inl ⟨projectID, userID, role, rfl, rfl, rfl⟩)))
  by_cases hremove : ∃ projectID userID, op = .removeMember projectID userID
  · rcases hremove with ⟨projectID, userID, rfl⟩
    rcases World.onStore_affect _ _ _ _ _ hp with ⟨_, rfl⟩
    exact .inr (.inr (.inr (.inr ⟨projectID, userID, rfl, rfl, rfl⟩)))
  -- Every other permitted operation leaves both tables alone.
  have hframe : Tbl.projects ∉ op.writes ∧ Tbl.members ∉ op.writes := by
    cases op <;> first
      | exact hc.2
      | exact absurd ⟨_, rfl⟩ hcreate
      | exact absurd ⟨_, rfl⟩ hadd
      | exact absurd ⟨_, _, _, rfl⟩ hupdate
      | exact absurd ⟨_, _, rfl⟩ hremove
  exact .inl ⟨op.perform_frame h _ w w' a hp .projects hframe.1,
    op.perform_frame h _ w w' a hp .members hframe.2⟩

section Steps

variable (h : Host) (c : Call) (w : World) (note : MemberNote)
  (hc : memberDiscipline.permits c note)
include hc

theorem membersUnique_step (hw : w.store.MembersUnique) :
    (exec h c w).2.store.MembersUnique := by
  unfold Store.MembersUnique at *
  rcases members_step h c w note hc with
    ⟨_, hrows⟩ | ⟨p, _, _, hrows, _⟩ | ⟨m, _, hfresh, _, hrows⟩ |
    ⟨projectID, userID, role, _, _, hrows⟩ | ⟨projectID, userID, _, _, hrows⟩
  · rw [hrows]
    exact hw
  · rw [hrows]
    exact hw
  · rw [hrows]
    -- The insert is refused on a row of the same project and user.
    refine Rows.nodup_insert _ _ m (fun n hn heq => ?_) hw
    rw [Prod.mk.injEq] at heq
    exact hfresh n hn heq.1 heq.2
  · rw [hrows]
    refine Rows.nodup_update _ _ _ (fun m => ?_) hw
    split <;> rfl
  · rw [hrows]
    exact hw.sublist (List.filter_sublist.map _)

/-- An admin stays one unless the operation demotes or removes them on a
    connection that sees their row. -/
theorem isAdmin_step (projectID userID : String) (hw : w.store.IsAdmin projectID userID)
    (hkeep : ¬ (Takes projectID userID c ∧ Conn.sees ⟨c.tenant, h.rls⟩ projectID = true)) :
    (exec h c w).2.store.IsAdmin projectID userID := by
  rcases hw with ⟨m, hm, hproj, huser, hadmin⟩
  unfold Store.IsAdmin
  rcases members_step h c w note hc with ⟨_, hrows⟩ | ⟨p, _, _, hrows, _⟩ | ⟨n, _, _, _, hrows⟩ |
    ⟨projectID', userID', role, hop, _, hrows⟩ | ⟨projectID', userID', hop, _, hrows⟩
  · rw [hrows]
    exact ⟨m, hm, hproj, huser, hadmin⟩
  · rw [hrows]
    exact ⟨m, hm, hproj, huser, hadmin⟩
  · rw [hrows]
    exact ⟨m, List.mem_append_left _ hm, hproj, huser, hadmin⟩
  · rw [hrows]
    refine ⟨_, List.mem_map_of_mem hm, ?_⟩
    -- The update that misses the row changes nothing; one that hits it and ends the role is
    -- a taking.
    by_cases hrow : Conn.isMemberRow ⟨c.tenant, h.rls⟩ projectID' userID' m = true
    · rw [if_pos hrow]
      rcases (isMemberRow_iff _ _ _ _).mp hrow with ⟨hsees, hproj', huser'⟩
      refine ⟨hproj, huser, ?_⟩
      by_contra hrole
      rw [hproj] at hsees hproj'
      refine hkeep ⟨.inl ⟨role, hrole, ?_⟩, hsees⟩
      rw [hop, ← hproj', ← huser', huser]
    · rw [if_neg hrow]
      exact ⟨hproj, huser, hadmin⟩
  · rw [hrows]
    refine ⟨m, List.mem_filter.mpr ⟨hm, ?_⟩, hproj, huser, hadmin⟩
    by_contra hrow
    rw [Bool.not_eq_true', Bool.not_eq_false] at hrow
    rcases (isMemberRow_iff _ _ _ _).mp hrow with ⟨hsees, hproj', huser'⟩
    rw [hproj] at hsees hproj'
    refine hkeep ⟨.inr ?_, hsees⟩
    rw [hop, ← hproj', ← huser', huser]

/-- A step that takes the role from an admin demotes or removes them, on a
    connection that sees their row. -/
theorem took_takes (projectID userID : String) (htook : Took h w projectID userID c) :
    Takes projectID userID c ∧ Conn.sees ⟨c.tenant, h.rls⟩ projectID = true := by
  by_contra hkeep
  exact htook.2 (isAdmin_step h c w note hc projectID userID htook.1 hkeep)

/-- A project that has an admin keeps one unless the operation takes the role
    from somebody, and nobody else has it. -/
theorem hasAdmin_step (projectID : String) (hw : w.store.HasAdmin projectID)
    (hother : ∀ userID, Took h w projectID userID c →
      ∃ other, other ≠ userID ∧ w.store.IsAdmin projectID other) :
    (exec h c w).2.store.HasAdmin projectID := by
  rcases hw with ⟨m, hm, hproj, hadmin⟩
  have hm' : w.store.IsAdmin projectID m.userID := ⟨m, hm, hproj, rfl, hadmin⟩
  -- Somebody is still an admin: this member, or the one left beside it.
  have hstays : ∃ userID, (exec h c w).2.store.IsAdmin projectID userID := by
    by_cases hkept : (exec h c w).2.store.IsAdmin projectID m.userID
    · exact ⟨m.userID, hkept⟩
    · have htook : Took h w projectID m.userID c := ⟨hm', hkept⟩
      rcases hother m.userID htook with ⟨other, hne, hadmin'⟩
      refine ⟨other, isAdmin_step h c w note hc projectID other hadmin' (fun htakes' => hne ?_)⟩
      -- One operation takes the role from one member.
      rcases (took_takes h c w note hc projectID m.userID htook).1 with ⟨_, _, hop⟩ | hop
      · rcases htakes'.1 with ⟨_, _, hop'⟩ | hop'
        · exact (Op.updateMemberRole.inj (hop'.symm.trans hop)).2.1
        · exact (nomatch hop'.symm.trans hop)
      · rcases htakes'.1 with ⟨_, _, hop'⟩ | hop'
        · exact (nomatch hop'.symm.trans hop)
        · exact (Op.removeMember.inj (hop'.symm.trans hop)).2
  rcases hstays with ⟨userID, n, hn, hproj', _, hrole⟩
  exact ⟨n, hn, hproj', hrole⟩

end Steps

/-- The note after an operation: a project was stored, a member was added, or
    members were listed; or the note is as it was. -/
theorem memberDiscipline_after (h : Host) (c : Call) (w : World) (note : MemberNote) :
    (∃ tenant p, c = ⟨tenant, .createProject p⟩ ∧ p ∈ (exec h c w).2.store.projects ∧
        memberDiscipline.after c (exec h c w).1 note = .creating p.id) ∨
      (memberDiscipline.after c (exec h c w).1 note = .blank ∧ ∃ m, c.op = .addMember m) ∨
      (∃ tenant projectID members, c = ⟨tenant, .listMembers projectID⟩ ∧
        memberDiscipline.after c (exec h c w).1 note = .listed tenant projectID members ∧
        members.Perm (w.store.members.filter (fun m =>
          Conn.sees ⟨tenant, h.rls⟩ m.projectID && m.projectID == projectID))) ∨
      (memberDiscipline.after c (exec h c w).1 note = note ∧ ∀ m, c.op ≠ .addMember m) := by
  rcases c with ⟨tenant, op⟩
  -- Three calls move the note, and the first two only when they succeed.
  cases op
  case createProject p =>
    rcases exec_cases h ⟨tenant, .createProject p⟩ w with ⟨e, he⟩ | ⟨a, w', hp, he⟩
    · rw [he]
      exact .inr (.inr (.inr ⟨rfl, fun _ h => nomatch h⟩))
    · rw [he]
      rcases World.onStore_ok _ _ _ _ hp with ⟨s', hs', rfl⟩
      rcases createProject_ok _ _ _ _ hs' with ⟨_, rfl⟩
      exact .inl ⟨tenant, p, rfl, List.mem_append_right _ (List.mem_singleton_self p), rfl⟩
  case addMember m => exact .inr (.inl ⟨rfl, m, rfl⟩)
  case listMembers projectID =>
    rcases exec_cases h ⟨tenant, .listMembers projectID⟩ w with ⟨e, he⟩ | ⟨l, w', hp, he⟩
    · rw [he]
      exact .inr (.inr (.inr ⟨rfl, fun _ h => nomatch h⟩))
    · rw [he]
      refine .inr (.inr (.inl ⟨tenant, projectID, l, rfl, rfl, ?_⟩))
      rw [← (Prod.mk.inj (Except.ok.inj hp)).1]
      exact Sorter.perm _ _ _
  all_goals exact .inr (.inr (.inr ⟨rfl, fun _ h => nomatch h⟩))

/-! ## Orderly runs -/

/-- A write in good order, in a run from `start`. When it takes the role of
    admin from a member, no step since the request listed the members disturbed
    that; and the admin of a new project can be inserted: the statement does not
    fail, the connection may write the row, and nobody has entered the user in the
    meantime. -/
structure MembersOrderly (h : Host) (start : World) (tr : List (Nat × Call)) (w : World) (i : Nat)
    (c : Call) : Prop where
  undisturbed : ∀ projectID userID, Took h w projectID userID c → ∀ pre tenant post,
    tr = pre ++ (i, ⟨tenant, .listMembers projectID⟩) :: post →
      ReplayMeets (exec h) (fun v x => ¬ Disturbs h v projectID userID x)
        (replay (exec h) start (pre ++ [(i, ⟨tenant, .listMembers projectID⟩)])) post
  entered : ∀ m, c.op = .addMember m →
    (∃ tenant p, (i, ⟨tenant, .createProject p⟩) ∈ tr ∧ p.id = m.projectID) →
      h.fails w.calls = false ∧ Conn.sees ⟨c.tenant, h.rls⟩ m.projectID = true ∧
        ∀ n ∈ w.store.members, n.projectID = m.projectID → n.userID ≠ m.userID

/-- What a list of members says about the rows it was read from. -/
structure ListHolds (h : Host) (w : World) (tenant : Option String) (projectID : String)
    (members : List ProjectMember) : Prop where
  once : (members.map (·.userID)).Nodup
  admins : ∀ m ∈ members, m.role = .admin → w.store.IsAdmin projectID m.userID
  others : Conn.sees ⟨tenant, h.rls⟩ projectID = true →
    ∀ userID, (∀ m ∈ members, m.userID = userID → m.role ≠ .admin) →
      ¬ w.store.IsAdmin projectID userID

/-- The invariant: every project has an admin or is owed one by a request in
    progress, and what the requests listed was right when it was listed. -/
structure MembersInv (h : Host) (start : World) (tr : List (Nat × Call)) (w : World)
    (note : Nat → MemberNote) : Prop where
  now : w = replay (exec h) start tr
  unique : w.store.MembersUnique
  governed : ∀ p ∈ w.store.projects, w.store.HasAdmin p.id ∨ ∃ i, note i = .creating p.id
  owed : ∀ i q, note i = .creating q → (∃ p ∈ w.store.projects, p.id = q) ∧
    ∃ tenant p, (i, ⟨tenant, .createProject p⟩) ∈ tr ∧ p.id = q
  views : ∀ i tenant projectID members, note i = .listed tenant projectID members →
    ∃ pre post, tr = pre ++ (i, ⟨tenant, .listMembers projectID⟩) :: post ∧
      ListHolds h (replay (exec h) start (pre ++ [(i, ⟨tenant, .listMembers projectID⟩)])) tenant
        projectID members

section Runs

variable (h : Host)

/-- An admin stays one along steps that do not take the role. -/
theorem isAdmin_kept (projectID userID : String) (w : World) (tr : List (Nat × Call))
    (hadmin : w.store.IsAdmin projectID userID)
    (hkeep : ReplayMeets (exec h) (fun v x => ¬ Took h v projectID userID x) w tr) :
    (replay (exec h) w tr).store.IsAdmin projectID userID :=
  replayMeets_keeps (exec h) (fun v => v.store.IsAdmin projectID userID) _
    (fun _ _ hv hstep => not_not.mp (fun hlost => hstep ⟨hv, hlost⟩)) w tr hadmin hkeep

/-- Nobody becomes an admin along steps that do not give the role. -/
theorem notAdmin_kept (projectID userID : String) (w : World) (tr : List (Nat × Call))
    (hnot : ¬ w.store.IsAdmin projectID userID)
    (hkeep : ReplayMeets (exec h) (fun v x => ¬ Gave h v projectID userID x) w tr) :
    ¬ (replay (exec h) w tr).store.IsAdmin projectID userID :=
  replayMeets_keeps (exec h) (fun v => ¬ v.store.IsAdmin projectID userID) _
    (fun _ _ hv hstep hgot => hstep ⟨hv, hgot⟩) w tr hnot hkeep

/-- A list says what the rows say. -/
theorem listHolds_fresh (w : World) (hw : w.store.MembersUnique) (tenant : Option String)
    (projectID : String) (members : List ProjectMember)
    (hlist : members.Perm (w.store.members.filter (fun m =>
      Conn.sees ⟨tenant, h.rls⟩ m.projectID && m.projectID == projectID))) :
    ListHolds h w tenant projectID members := by
  have hmem : ∀ m, m ∈ members ↔ m ∈ w.store.members ∧
      Conn.sees ⟨tenant, h.rls⟩ m.projectID = true ∧ m.projectID = projectID := by
    intro m
    rw [hlist.mem_iff, List.mem_filter, Bool.and_eq_true, beq_iff_eq]
  refine ⟨?_, fun m hm hadmin => ?_, fun hsees userID hnot hadmin => ?_⟩
  · rw [(hlist.map _).nodup_iff]
    -- Within one project the user alone identifies the row.
    have hpairs : ((w.store.members.filter (fun m => Conn.sees ⟨tenant, h.rls⟩ m.projectID &&
        m.projectID == projectID)).map (fun m => (m.projectID, m.userID))).Nodup :=
      hw.sublist (List.filter_sublist.map _)
    refine List.Nodup.map_on (fun m hm m' hm' huser => ?_) (List.Nodup.of_map _ hpairs)
    have hproj := (hmem m).mp (hlist.mem_iff.mpr hm)
    have hproj' := (hmem m').mp (hlist.mem_iff.mpr hm')
    exact List.inj_on_of_nodup_map hpairs hm hm' (by rw [hproj.2.2, hproj'.2.2, huser])
  · exact ⟨m, ((hmem m).mp hm).1, ((hmem m).mp hm).2.2, rfl, hadmin⟩
  · rcases hadmin with ⟨m, hm, hproj, huser, hrole⟩
    exact hnot m ((hmem m).mpr ⟨hm, by rw [hproj]; exact hsees, hproj⟩) huser hrole

/-- The admin of a new project is inserted. -/
theorem addMember_entered (c : Call) (w : World) (m : ProjectMember) (hop : c.op = .addMember m)
    (hsteady : h.fails w.calls = false) (hsees : Conn.sees ⟨c.tenant, h.rls⟩ m.projectID = true)
    (hfresh : ∀ n ∈ w.store.members, n.projectID = m.projectID → n.userID ≠ m.userID)
    (hproj : ∃ p ∈ w.store.projects, p.id = m.projectID) :
    m ∈ (exec h c w).2.store.members := by
  rcases c with ⟨tenant, op⟩
  change op = _ at hop
  subst hop
  -- None of the three refusals applies: row security, the unique key, the project's row.
  have hperform : addMember ⟨tenant, h.rls⟩ m w.store
      = .ok ((), { w.store with members := w.store.members ++ [m] }) := by
    simp only [addMember, bind_unit_ok, refuseIf_ok, not_exists, not_and, not_forall, not_not,
      Bool.not_eq_false, exists_prop]
    exact ⟨hsees, hfresh, hproj, trivial⟩
  have hexec : exec h ⟨tenant, .addMember m⟩ w = (.ok (), World.tick
      { w with store := { w.store with members := w.store.members ++ [m] } }) := by
    simp only [exec, hsteady, Bool.false_and, Bool.false_eq_true, if_false, Op.perform,
      World.onStore, hperform]
  rw [hexec]
  exact List.mem_append_right _ (List.mem_singleton_self m)

/-- A write that takes the role of admin away leaves another admin, when it is
    in good order. -/
theorem another_admin (start : World) (tr : List (Nat × Call)) (w : World)
    (note : Nat → MemberNote) (i : Nat) (c : Call) (hJ : MembersInv h start tr w note)
    (hok : MembersOrderly h start tr w i c) (hc : memberDiscipline.permits c (note i))
    (projectID userID : String) (htook : Took h w projectID userID c) :
    ∃ other, other ≠ userID ∧ w.store.IsAdmin projectID other := by
  rcases took_takes h c w _ hc projectID userID htook with ⟨htakes, hsees⟩
  -- The request has listed the members and passed its guard.
  have hguard : ∃ members, note i = .listed c.tenant projectID members ∧
      ((members.map (·.userID)).Nodup → ∀ m ∈ members, m.userID = userID → m.role = .admin →
        ∃ m' ∈ members, m'.role = .admin ∧ m'.userID ≠ userID) := by
    rcases c with ⟨tenant, op⟩
    rcases htakes with ⟨role, hrole, hop⟩ | hop
    · change op = _ at hop
      subst hop
      rcases hc.2 with hadmin' | ⟨members, hnote, hguard⟩
      · exact absurd hadmin' hrole
      · exact ⟨members, hnote, fun huniq => checkDemotion_other members userID huniq hguard⟩
    · change op = _ at hop
      subst hop
      rcases hc.2 with ⟨members, hnote, hguard⟩
      exact ⟨members, hnote, fun huniq => checkRemoval_other members userID huniq hguard⟩
  rcases hguard with ⟨members, hnote, hguard⟩
  rcases hJ.views i _ _ _ hnote with ⟨pre, post, htr, hl⟩
  have hquiet := hok.undisturbed projectID userID htook pre c.tenant post htr
  have hw : w = replay (exec h)
      (replay (exec h) start (pre ++ [(i, ⟨c.tenant, .listMembers projectID⟩)])) post := by
    rw [hJ.now, htr, ← replay_append, List.append_assoc, List.singleton_append]
  -- The member was an admin in the list already: nobody has given it the role since.
  have hlisted : ∃ m ∈ members, m.userID = userID ∧ m.role = .admin := by
    by_contra hnone
    refine notAdmin_kept h projectID userID _ post
      (hl.others hsees userID (fun m hm huser hrole => hnone ⟨m, hm, huser, hrole⟩))
      (replayMeets_mono (exec h) (fun v x hx hgave => hx (.inr hgave)) _ post hquiet) ?_
    rw [← hw]
    exact htook.1
  rcases hlisted with ⟨m, hm, huser, hrole⟩
  rcases hguard hl.once m hm huser hrole with ⟨m', hm', hrole', hne⟩
  -- The other admin of the list has not lost the role since.
  refine ⟨m'.userID, hne, ?_⟩
  rw [hw]
  exact isAdmin_kept h projectID m'.userID _ post (hl.admins m' hm' hrole')
    (replayMeets_mono (exec h) (fun v x hx htook' => hx (.inl ⟨m'.userID, hne, htook'⟩)) _ post
      hquiet)

/-- Projects are never removed. -/
theorem projects_step (c : Call) (w : World) (note : MemberNote)
    (hc : memberDiscipline.permits c note) (p : Project) (hp : p ∈ w.store.projects) :
    p ∈ (exec h c w).2.store.projects := by
  rcases members_step h c w note hc with ⟨hrows, _⟩ | ⟨q, _, hrows, _⟩ | ⟨_, _, _, hrows, _⟩ |
    ⟨_, _, _, _, hrows, _⟩ | ⟨_, _, _, hrows, _⟩
  · rw [hrows]
    exact hp
  · rw [hrows]
    exact List.mem_append_left _ hp
  · rw [hrows]
    exact hp
  · rw [hrows]
    exact hp
  · rw [hrows]
    exact hp

/-- Where the projects after an operation come from. -/
theorem projects_origin (c : Call) (w : World) (note : MemberNote)
    (hc : memberDiscipline.permits c note) (p : Project)
    (hp : p ∈ (exec h c w).2.store.projects) :
    p ∈ w.store.projects ∨ memberDiscipline.after c (exec h c w).1 note = .creating p.id := by
  -- Of the five things a step can do, only the create adds a project.
  rcases members_step h c w note hc with ⟨hrows, _⟩ | ⟨q, _, hrows, _, hafter⟩ |
    ⟨_, _, _, hrows, _⟩ | ⟨_, _, _, _, hrows, _⟩ | ⟨_, _, _, hrows, _⟩
  · rw [hrows] at hp
    exact .inl hp
  · rw [hrows] at hp
    rcases List.mem_append.mp hp with hold | hnew
    · exact .inl hold
    · rw [List.mem_singleton.mp hnew]
      exact .inr hafter
  · rw [hrows] at hp
    exact .inl hp
  · rw [hrows] at hp
    exact .inl hp
  · rw [hrows] at hp
    exact .inl hp

/-- A project has an admin, or is owed one by the request that creates it. -/
theorem MembersInv.governed_step (start : World) (tr : List (Nat × Call)) (w : World)
    (note : Nat → MemberNote) (i : Nat) (c : Call) (hJ : MembersInv h start tr w note)
    (hok : MembersOrderly h start tr w i c) (hc : memberDiscipline.permits c (note i)) (p : Project)
    (hp : p ∈ (exec h c w).2.store.projects) :
    (exec h c w).2.store.HasAdmin p.id ∨
      ∃ j, Function.update note i (memberDiscipline.after c (exec h c w).1 (note i)) j =
        .creating p.id := by
  rcases projects_origin h c w _ hc p hp with hold | hnew
  · rcases hJ.governed p hold with hadmin | ⟨j, hj⟩
    · exact .inl (hasAdmin_step h c w _ hc p.id hadmin
        (fun userID => another_admin h start tr w note i c hJ hok hc p.id userID))
    · by_cases hji : j = i
      · -- The request that owes the admin enters it now.
        subst hji
        rcases hc.1 p.id hj with ⟨userID, createdAt, hop⟩
        rcases hJ.owed j p.id hj with ⟨hproj, hcreated⟩
        rcases hok.entered _ hop hcreated with ⟨hsteady, hsees, hfresh⟩
        exact .inl ⟨_, addMember_entered h c w _ hop hsteady hsees hfresh hproj, rfl, rfl⟩
      · refine .inr ⟨j, ?_⟩
        rw [Function.update_of_ne hji]
        exact hj
  · refine .inr ⟨i, ?_⟩
    rw [Function.update_self]
    exact hnew

/-- Projects that are owed an admin are stored. -/
theorem MembersInv.owed_step (start : World) (tr : List (Nat × Call)) (w : World)
    (note : Nat → MemberNote) (i : Nat) (c : Call) (hJ : MembersInv h start tr w note)
    (hc : memberDiscipline.permits c (note i)) (j : Nat) (q : String)
    (hq : Function.update note i (memberDiscipline.after c (exec h c w).1 (note i)) j =
      .creating q) :
    (∃ p ∈ (exec h c w).2.store.projects, p.id = q) ∧
      ∃ tenant p, (j, ⟨tenant, .createProject p⟩) ∈ tr ++ [(i, c)] ∧ p.id = q := by
  -- A project that is owed an admin was owed it before, or has just been stored.
  have hkeep : ∀ j q, note j = .creating q →
      (∃ p ∈ (exec h c w).2.store.projects, p.id = q) ∧
        ∃ tenant p, (j, ⟨tenant, .createProject p⟩) ∈ tr ++ [(i, c)] ∧ p.id = q := by
    intro j q hq
    rcases hJ.owed j q hq with ⟨⟨p, hp, hid⟩, tenant, p', hmem, hid'⟩
    exact ⟨⟨p, projects_step h c w _ hc p hp, hid⟩, tenant, p', List.mem_append_left _ hmem, hid'⟩
  by_cases hji : j = i
  · subst hji
    rw [Function.update_self] at hq
    rcases memberDiscipline_after h c w (note j) with
      ⟨tenant, p, rfl, hp, hafter⟩ | ⟨hafter, _⟩ | ⟨_, _, _, _, hafter, _⟩ | ⟨hafter, hno⟩
    · rw [hafter, MemberNote.creating.injEq] at hq
      rw [← hq]
      exact ⟨⟨p, hp, rfl⟩, tenant, p, List.mem_append_right _ (List.mem_singleton_self _), rfl⟩
    · rw [hafter] at hq
      exact (nomatch hq)
    · rw [hafter] at hq
      exact (nomatch hq)
    · rw [hafter] at hq
      exact hkeep j q hq
  · rw [Function.update_of_ne hji] at hq
    exact hkeep j q hq

/-- What a request has listed was right when it was listed. -/
theorem MembersInv.views_step (start : World) (tr : List (Nat × Call)) (w : World)
    (note : Nat → MemberNote) (i : Nat) (c : Call) (hJ : MembersInv h start tr w note)
    (hc : memberDiscipline.permits c (note i)) (j : Nat) (tenant : Option String)
    (projectID : String) (members : List ProjectMember)
    (hnote : Function.update note i (memberDiscipline.after c (exec h c w).1 (note i)) j =
      .listed tenant projectID members) :
    ∃ pre post, tr ++ [(i, c)] = pre ++ (j, ⟨tenant, .listMembers projectID⟩) :: post ∧
      ListHolds h (replay (exec h) start (pre ++ [(j, ⟨tenant, .listMembers projectID⟩)])) tenant
        projectID members := by
  -- A list read earlier stands where it stood, with this step added to what came after it.
  have hkeep : ∀ j tenant projectID members, note j = .listed tenant projectID members →
      ∃ pre post, tr ++ [(i, c)] = pre ++ (j, ⟨tenant, .listMembers projectID⟩) :: post ∧
        ListHolds h (replay (exec h) start (pre ++ [(j, ⟨tenant, .listMembers projectID⟩)])) tenant
          projectID members := by
    intro j tenant projectID members hnote
    rcases hJ.views j tenant projectID members hnote with ⟨pre, post, htr, hl⟩
    refine ⟨pre, post ++ [(i, c)], ?_, hl⟩
    rw [htr, List.append_assoc, List.cons_append]
  by_cases hji : j = i
  · subst hji
    rw [Function.update_self] at hnote
    rcases memberDiscipline_after h c w (note j) with
      ⟨_, _, _, _, hafter⟩ | ⟨hafter, _⟩ | ⟨tenant', projectID', l, rfl, hafter, hlist⟩ |
      ⟨hafter, _⟩
    · rw [hafter] at hnote
      exact (nomatch hnote)
    · rw [hafter] at hnote
      exact (nomatch hnote)
    · rw [hafter, MemberNote.listed.injEq] at hnote
      rcases hnote with ⟨rfl, rfl, rfl⟩
      -- The list has just been read, and nothing has come after it.
      refine ⟨tr, [], rfl, ?_⟩
      rw [replay_append, ← hJ.now, replay_cons, replay_nil]
      have hread : (exec h ⟨tenant', .listMembers projectID'⟩ w).2.store.members
          = w.store.members := exec_frame h _ w .members List.not_mem_nil
      refine listHolds_fresh h _ ?_ tenant' projectID' l ?_
      · exact membersUnique_step h _ w _ hc hJ.unique
      · rw [hread]
        exact hlist
    · rw [hafter] at hnote
      exact hkeep j tenant projectID members hnote
  · rw [Function.update_of_ne hji] at hnote
    exact hkeep j tenant projectID members hnote

/-- An orderly operation keeps the invariant. -/
theorem MembersInv.step (start : World) (tr : List (Nat × Call)) (w : World)
    (note : Nat → MemberNote) (i : Nat) (c : Call) (hJ : MembersInv h start tr w note)
    (hok : MembersOrderly h start tr w i c) (hc : memberDiscipline.permits c (note i)) :
    MembersInv h start (tr ++ [(i, c)]) (exec h c w).2
      (Function.update note i (memberDiscipline.after c (exec h c w).1 (note i))) where
  now := by rw [replay_append, ← hJ.now, replay_cons, replay_nil]
  unique := membersUnique_step h c w _ hc hJ.unique
  governed := hJ.governed_step h start tr w note i c hok hc
  owed := hJ.owed_step h start tr w note i c hc
  views := hJ.views_step h start tr w note i c hc

end Runs

/-- In every interleaving of requests whose writes are orderly, every project
    has an admin whenever no request is in progress. -/
theorem last_admin_kept (h : Host) (start : World) (hunique : start.store.MembersUnique)
    (hgoverned : start.store.Governed) (tr : List (Nat × Call)) (P : Pool Err Call Call.Ret World)
    (hrun : Pool.RunWhile (exec h) memberThread (MembersOrderly h start) ⟨start, []⟩ tr P)
    (hdone : ∀ p ∈ P.threads, Proc.Done p) : P.shared.store.Governed := by
  have hfirst : MembersInv h start [] start (fun _ => .blank) :=
    ⟨rfl, hunique, fun p hp => .inl (hgoverned p hp), fun _ _ hq => (nomatch hq),
      fun _ _ _ _ hnote => (nomatch hnote)⟩
  rcases Pool.runWhile_rests memberDiscipline .blank MemberNote.Settled (MembersInv h start)
    memberThread_guided (fun tr w note i c hJ hok hc => hJ.step h start tr w note i c hok hc) start
    hfirst tr P hrun with ⟨note, hJ, hlater, hrest⟩
  intro p hp
  rcases hJ.governed p hp with hadmin | ⟨i, hi⟩
  · exact hadmin
  · -- No request owes anything any more.
    cases hthread : P.threads[i]? with
    | none =>
        rw [hlater i (List.getElem?_eq_none_iff.mp hthread)] at hi
        exact (nomatch hi)
    | some q => exact absurd hi (hrest i q hthread (hdone q (List.mem_of_getElem? hthread)) p.id)

/-- A project with two admins. -/
def twoAdmins : World where
  store := {
    projects := [⟨"p1", "Shop", "shop", 0⟩]
    members := [⟨"p1", "u1", .admin, 0⟩, ⟨"p1", "u2", .admin, 1⟩] }

/-- A request to make a member of the project a viewer. -/
def demote (userID : String) : Prog Unit :=
  MemberCall.program ⟨some ⟨"u1", .admin⟩, none⟩ (.updateRole "shop" userID .viewer)

/-- Reads leave the admins alone. -/
theorem isAdmin_read (h : Host) (w : World) (c : Call) (hc : c.op.writes = [])
    (projectID userID : String) :
    (exec h c w).2.store.IsAdmin projectID userID ↔ w.store.IsAdmin projectID userID := by
  have hrows : (exec h c w).2.store.members = w.store.members :=
    exec_frame h c w .members (by rw [hc]; exact List.not_mem_nil)
  unfold Store.IsAdmin
  rw [hrows]

/-- Reads are in good order. -/
theorem membersOrderly_read (h : Host) (start : World) (tr : List (Nat × Call)) (w : World)
    (i : Nat) (c : Call) (hc : c.op.writes = []) : MembersOrderly h start tr w i c := by
  refine ⟨fun projectID userID htook => ?_, fun m hop => ?_⟩
  · exact absurd ((isAdmin_read h w c hc projectID userID).mpr htook.1) htook.2
  · rw [hop] at hc
    exact (nomatch hc)

/-- What a demotion has read when it writes. -/
def demotionReads : List (Nat × Call) :=
  [(0, ⟨none, .projectBySlug "shop"⟩), (0, ⟨none, .listMembers "p1"⟩)]

/-- One admin of two is demoted. -/
theorem last_admin_kept_demotion :
    (Pool.follow (exec Host.steady) ⟨twoAdmins, [demote "u2"]⟩
      [0, 0, 0]).shared.store.Governed := by
  have hspawn : Pool.RunWhile (exec Host.steady) memberThread
      (MembersOrderly Host.steady twoAdmins) ⟨twoAdmins, []⟩ [] ⟨twoAdmins, [demote "u2"]⟩ :=
    Pool.RunWhile.spawn [] ⟨_, []⟩ _ Pool.RunWhile.start ⟨_, _, rfl⟩
  have hproj := Pool.RunWhile.perform _ _ 0 _ _ hspawn rfl (membersOrderly_read _ _ _ _ _ _ rfl)
  have hlist := Pool.RunWhile.perform _ _ 0 _ _ hproj rfl (membersOrderly_read _ _ _ _ _ _ rfl)
  have hwrite := Pool.RunWhile.perform demotionReads _ 0 _ _ hlist rfl
    ⟨fun projectID userID _ pre tenant post htr => ?_, fun m hop => (nomatch hop)⟩
  · refine last_admin_kept Host.steady twoAdmins (by decide) (by decide) _ _ hwrite (fun p hp => ?_)
    rw [List.mem_singleton.mp hp]
    trivial
  · -- Nothing was written in between.
    have hreads : ∀ y ∈ demotionReads, y.2.op.writes = [] := by decide
    refine replayMeets_of_forall (exec Host.steady) post (fun v x hx => ?_) _
    have hread := hreads x
      (by rw [htr]; exact List.mem_append_right _ (List.mem_cons_of_mem _ hx))
    rintro (⟨other, _, htook⟩ | hgave)
    · exact htook.2 ((isAdmin_read _ v x.2 hread projectID other).mpr htook.1)
    · exact hgave.1 ((isAdmin_read _ v x.2 hread projectID userID).mp hgave.2)

/-- Both requests list the members before either writes, and the project loses
    both its admins. -/
theorem last_admin_race :
    ¬ ∀ (h : Host) (start : World), start.store.MembersUnique → start.store.Governed →
      ∀ (tr : List (Nat × Call)) (P : Pool Err Call Call.Ret World),
        Pool.Run (exec h) memberThread ⟨start, []⟩ tr P → (∀ p ∈ P.threads, Proc.Done p) →
          P.shared.store.Governed := by
  intro hclaim
  have hspawn : Pool.Run (exec Host.steady) memberThread ⟨twoAdmins, []⟩ []
      ⟨twoAdmins, [demote "u1", demote "u2"]⟩ :=
    Pool.Run.spawn [] ⟨_, [_]⟩ _ (Pool.Run.spawn [] ⟨_, []⟩ _ Pool.Run.start ⟨_, _, rfl⟩)
      ⟨_, _, rfl⟩
  -- Both requests list the two admins before either writes.
  rcases Pool.run_follow _ _ _ [0, 0, 1, 1, 0, 1] _ _ hspawn with ⟨tr, hrun⟩
  refine absurd (hclaim Host.steady twoAdmins (by decide) (by decide) tr _ hrun (fun p hp => ?_))
    (by decide)
  have hthreads : (Pool.follow (exec Host.steady) ⟨twoAdmins, [demote "u1", demote "u2"]⟩
      [0, 0, 1, 1, 0, 1]).threads = [Proc.ret (), Proc.ret ()] := rfl
  rw [hthreads] at hp
  simp only [List.mem_cons, List.not_mem_nil, or_false, or_self] at hp
  rw [hp]
  trivial

end Cuttlegate
