import Cuttlegate.Theory.RoleGate

/-!
# Project Isolation

Who may change a project. The services decide by one thing, the role the
caller's token carries: in whatever world, a call that changes the flags, rules,
segments, environments or members of a project was made by a caller whose token
role is at least the role the method requires.

The members of the project play no part in that decision. They are rows the
member service keeps, and no method looks for the caller among them, so a
caller who was never a member of a project can change it
(`stranger_changes_project`).

## Main definitions

* `Store.resources`: The rows that belong to a project.
* `Method.onProjects`: The methods of the six services that manage projects.

## Theorems

* `Method.changes_requires`: A method that changes a project requires a role.
* `token_role_gate`: The token role of whoever changes a project is high
  enough.
-/

namespace Cuttlegate

/-- The flags, rules, segments, environments and members of a project. A rule
    belongs to the project of its flag. -/
def Store.resources (s : Store) (projectID : String) :
    List Flag × List Rule × List Segment × List Environment × List ProjectMember :=
  (s.flags.filter (fun f => f.projectID == projectID),
    s.rules.filter (fun r => s.flags.any (fun f => f.projectID == projectID && f.id == r.flagID)),
    s.segments.filter (fun g => g.projectID == projectID),
    s.environments.filter (fun e => e.projectID == projectID),
    s.members.filter (fun m => m.projectID == projectID))

/-- The methods of the project, member, flag, rule, segment and environment
    services. -/
def Method.onProjects : Method → Prop
  | .apiKeyCreate _ _ _ _ | .apiKeyList _ _ | .apiKeyRevoke _ | .apiKeyUpdateCapabilityTier _ _
  | .apiKeyAuthenticate _ | .apiKeyAuthenticateMCP _ => False
  | _ => True

/-- The calls of those methods, by anybody. -/
def anyUser (_ : World) (_ : Ctx) (m : Method) : Prop := m.onProjects

/-- A method whose call changed a project requires a role. -/
theorem Method.changes_requires (m : Method) (h : Host) (ctx : Ctx) (w : World) (projectID : String)
    (hdiff : (m.run h ctx w).2.store.resources projectID ≠ w.store.resources projectID) :
    ∃ r, m.requires = some r ∧ roleLevel .editor ≤ roleLevel r := by
  rcases m.reads with hnone | heditor | hadmin
  · -- Without a table to write, the database is as it was.
    have hsame := World.eq_of_same w _ (fun t => m.run_same h ctx w t (by rw [hnone]; simp))
    rw [hsame.1] at hdiff
    exact absurd rfl hdiff
  · exact ⟨.editor, heditor, Nat.le_refl _⟩
  · exact ⟨.admin, hadmin, by decide⟩

/-- Whatever world the calls before it left, a call that changed the flags,
    rules, segments, environments or members of a project was made by a caller
    whose token carries at least the role the method requires, which is editor
    or admin. -/
theorem token_role_gate (m : Method) (h : Host) (ctx : Ctx) (w : World) (projectID : String)
    (hdiff : (m.run h ctx w).2.store.resources projectID ≠ w.store.resources projectID) :
    ∃ ac r, ctx.auth = some ac ∧ m.requires = some r ∧ (r = .editor ∨ r = .admin) ∧
      roleLevel r ≤ roleLevel ac.role := by
  rcases m.changes_requires h ctx w projectID hdiff with ⟨r, hr, hlevel⟩
  rcases m.run_refused h ctx w r hr with ⟨hrun, _⟩ | ⟨ac, hauth, hrole⟩
  · rw [hrun] at hdiff
    exact absurd rfl hdiff
  · exact ⟨ac, r, hauth, hr, editor_or_admin r hlevel, hrole⟩

/-- An admin creates a project, and an editor who is no member of it is about
    to add an environment. -/
def acmeCreated : World :=
  (Method.run (.projectCreate "Acme" "acme") Host.steady ⟨some ⟨"u1", .admin⟩, none⟩ {}).2

def strangerAdds : Method := .environmentCreate (sampleUUID 0) "Production" "production"

def stranger : Ctx := ⟨some ⟨"u2", .editor⟩, none⟩

theorem token_role_gate_stranger :
    ∃ ac r, stranger.auth = some ac ∧ strangerAdds.requires = some r ∧
      (r = .editor ∨ r = .admin) ∧ roleLevel r ≤ roleLevel ac.role :=
  token_role_gate strangerAdds Host.steady stranger acmeCreated (sampleUUID 0) (by decide)

theorem acmeCreated_reached : Reaches Host.steady anyUser {} acmeCreated :=
  Reaches.call {} _ (.projectCreate "Acme" "acme") Reaches.start trivial

/-- Membership does not gate: a run in which an existing project is changed by
    a caller who is no member of it. -/
theorem stranger_changes_project :
    ¬ ∀ (h : Host) (start w : World), Reaches h anyUser start w →
      ∀ (ctx : Ctx) (m : Method), m.onProjects → ∀ p ∈ w.store.projects,
        (m.run h ctx w).1 = .ok () →
        (m.run h ctx w).2.store.resources p.id ≠ w.store.resources p.id →
        ∃ ac mem r, ctx.auth = some ac ∧ mem ∈ w.store.members ∧ mem.projectID = p.id ∧
          mem.userID = ac.userID ∧ m.requires = some r ∧ roleLevel r ≤ roleLevel mem.role := by
  intro hgate
  rcases hgate Host.steady {} acmeCreated acmeCreated_reached stranger strangerAdds trivial
    ⟨sampleUUID 0, "Acme", "acme", 1⟩ (by decide) (by decide) (by decide)
    with ⟨ac, mem, _, hauth, hmem, _, huser, _⟩
  -- The caller is an editor of the platform, and the project's only member is another user.
  have hac : ac = ⟨"u2", .editor⟩ := (Option.some.inj hauth).symm
  have hmem1 : mem = ⟨sampleUUID 0, "u1", .admin, 1⟩ := by
    have hall : ∀ mem ∈ acmeCreated.store.members, mem = ⟨sampleUUID 0, "u1", .admin, 1⟩ := by
      decide
    exact hall mem hmem
  rw [hac, hmem1] at huser
  exact absurd huser (by decide)

end Cuttlegate
