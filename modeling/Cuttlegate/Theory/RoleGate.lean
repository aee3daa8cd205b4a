import Cuttlegate.App.Methods

/-!
# The Role Gate

Nothing is written without a role. For every method of the seven services,
every caller and every world, a call that changes the database or publishes an
event was made by an editor or an admin, and a caller below the required role
is refused with the world untouched.

The second half sorts the writes by what they touch. Renaming and deleting
projects, changing members, renaming environments and changing API keys take
an admin, with two exceptions the services make on purpose. Creating a project
takes an editor and enters the creator as a member of the new project; and
deleting an environment takes an editor and takes the keys of that environment
with it, through the cascade of the schema.

Most of this is read off the footprint of a method. Only four methods write
one of the sensitive tables without asking for an admin, and each of them is
followed along its run: `ProjectService.create`, whose effect is
`create_effect`, and the three methods that create or delete environments,
whose effect is an `EnvEdit`.

## Main definitions

* `EnvEdit`: What an editor may do to environments and API keys.

## Theorems

* `Method.reads`: A method that asks for less than an editor writes nothing.
* `ProjectService.create_effect`: What creating a project writes.
* `Method.envEdit`: What the environment methods write.
* `role_gate`: The role gate on every write.
-/

namespace Cuttlegate

/-- Two worlds with the same tables have the same database and events. -/
theorem World.eq_of_same (w w' : World) (hsame : ∀ t, w.Same w' t) :
    w'.store = w.store ∧ w'.published = w.published := by
  refine ⟨?_, hsame .published⟩
  rcases w with ⟨⟨a, b, c, d, e, f, g, i, j, k, l⟩, _, _, _⟩
  rcases w' with ⟨⟨a', b', c', d', e', f', g', i', j', k', l'⟩, _, _, _⟩
  have h₁ : a' = a := hsame .projects
  have h₂ : b' = b := hsame .members
  have h₃ : c' = c := hsame .environments
  have h₄ : d' = d := hsame .flags
  have h₅ : e' = e := hsame .states
  have h₆ : f' = f := hsame .rules
  have h₇ : g' = g := hsame .segments
  have h₈ : i' = i := hsame .segmentMembers
  have h₉ : j' = j := hsame .apiKeys
  have h₁₀ : k' = k := hsame .auditEvents
  have h₁₁ : l' = l := hsame .users
  rw [h₁, h₂, h₃, h₄, h₅, h₆, h₇, h₈, h₉, h₁₀, h₁₁]

/-- A role at the level of an editor is editor or admin. -/
theorem editor_or_admin (r : Role) (h : roleLevel .editor ≤ roleLevel r) :
    r = .editor ∨ r = .admin := by
  cases r with
  | admin => exact .inr rfl
  | editor => exact .inl rfl
  | viewer => exact absurd h (by decide)
  | other name => exact absurd h (by simp [roleLevel])

theorem admin_of_level (r : Role) (h : roleLevel .admin ≤ roleLevel r) : r = .admin := by
  cases r with
  | admin => rfl
  | editor => exact absurd h (by decide)
  | viewer => exact absurd h (by decide)
  | other name => exact absurd h (by simp [roleLevel])

/-- A method that asks for less than an editor writes nothing. -/
theorem Method.reads (m : Method) :
    m.tables = [] ∨ m.requires = some .editor ∨ m.requires = some .admin := by
  cases m <;> simp [Method.tables, Method.requires]

/-- The methods that write a sensitive table without asking for an admin. -/
theorem Method.sensitive (m : Method) (hno : m.requires ≠ some .admin) :
    ((∃ name slug, m = .projectCreate name slug) ∨
      (Tbl.projects ∉ m.tables ∧ Tbl.members ∉ m.tables)) ∧
    ((∃ p name slug, m = .environmentCreate p name slug) ∨
      (∃ p slug, m = .environmentDeleteBySlug p slug) ∨ (∃ id, m = .environmentDelete id) ∨
      (Tbl.environments ∉ m.tables ∧ Tbl.apiKeys ∉ m.tables)) := by
  cases m <;> simp [Method.tables, Method.requires] at hno ⊢

/-! ## Creating a project -/

/-- What creating a project may do: no project is lost, and the members are
    unchanged or have gained the creator, as an admin of a new project. -/
structure ProjectAdded (ctx : Ctx) (s s' : Store) : Prop where
  kept : ∀ p ∈ s.projects, p ∈ s'.projects
  members : s'.members = s.members ∨
    ∃ ac p, ctx.auth = some ac ∧ p ∈ s'.projects ∧ (∀ q ∈ s.projects, q.id ≠ p.id) ∧
      s'.members = s.members ++ [⟨p.id, ac.userID, .admin, p.createdAt⟩]

theorem ProjectAdded.refl (ctx : Ctx) (s : Store) : ProjectAdded ctx s s :=
  ⟨fun _ hp => hp, .inl rfl⟩

/-- Creating a project adds a project, and its creator as its admin; or only
    the project, when the second write failed; or nothing. -/
theorem ProjectService.create_effect (h : Host) (ctx : Ctx) (name slug : String) (w : World) :
    Proc.Ends (exec h) (fun _ w' => ProjectAdded ctx w.store w'.store)
      (ProjectService.create ctx name slug) w := by
  have hsame := ProjectAdded.refl ctx w.store
  refine ends_require ctx _ _ w (fun _ => hsame) (fun ac hauth _ => ?_)
  refine ends_read ctx _ rfl _ w (fun _ => hsame) (fun id _ => ?_)
  refine ends_read ctx _ rfl _ _ (fun _ => hsame) (fun now _ => ?_)
  refine ends_check _ _ _ (fun _ _ => hsame) (fun _ _ => ?_)
  refine ends_call ctx _ _ _ (fun _ => hsame) (fun _ w₁ hp₁ => ?_)
  rcases World.onStore_ok _ _ _ _ hp₁ with ⟨s₁, hs₁, rfl⟩
  rcases createProject_ok _ _ _ _ hs₁ with ⟨hfresh, rfl⟩
  have hkept : ∀ p ∈ w.store.projects, p ∈ w.store.projects ++ [⟨id, name, slug, now⟩] :=
    fun p hp => List.mem_append_left _ hp
  -- When the member cannot be added, the project stays without one.
  refine ends_call ctx _ _ _ (fun _ => ⟨hkept, .inl rfl⟩) (fun _ w₂ hp₂ => ?_)
  rcases World.onStore_ok _ _ _ _ hp₂ with ⟨s₂, hs₂, rfl⟩
  rcases addMember_ok _ _ _ _ _ hs₂ with ⟨_, _, _, rfl⟩
  refine ⟨hkept, .inr ⟨ac, ⟨id, name, slug, now⟩, hauth, ?_, fun q hq => (hfresh q hq).1, rfl⟩⟩
  exact List.mem_append_right _ (List.mem_singleton.mpr rfl)

/-! ## Creating and deleting environments -/

/-- What an editor may do to environments and API keys. A row that is still
    there is unchanged, and a key that went was left without its
    environment. -/
structure EnvEdit (s s' : Store) : Prop where
  rows : ∀ e' ∈ s'.environments, e' ∈ s.environments ∨ ∀ e ∈ s.environments, e.id ≠ e'.id
  keys : s'.apiKeys.Sublist s.apiKeys
  lost : ∀ k ∈ s.apiKeys, k ∉ s'.apiKeys →
    (∃ e ∈ s.environments, e.id = k.environmentID ∧ e ∉ s'.environments) ∨
      ∀ e ∈ s.environments, e.id ≠ k.environmentID

theorem EnvEdit.refl (s : Store) : EnvEdit s s :=
  ⟨fun _ he => .inl he, List.Sublist.refl _, fun _ hk hno => absurd hk hno⟩

/-- Deleting environments is such an edit. -/
theorem envEdit_drop (s : Store) (gone : Environment → Bool) :
    EnvEdit s (s.dropEnvironments gone) := by
  refine ⟨fun e' he' => .inl (List.mem_of_mem_filter he'), List.filter_sublist, ?_⟩
  intro k hk hno
  have hlost : k.environmentID ∈ (s.environments.filter gone).map (·.id) := by
    by_contra hstays
    exact hno (List.mem_filter.mpr ⟨hk, by simpa using hstays⟩)
  rcases List.mem_map.mp hlost with ⟨e, he, hid⟩
  rcases List.mem_filter.mp he with ⟨hmem, hgone⟩
  refine .inl ⟨e, hmem, hid, fun hstill => ?_⟩
  have hkept := (List.mem_filter.mp hstill).2
  rw [hgone] at hkept
  exact (nomatch hkept)

/-- The environment was added under a new id, and no key was touched. -/
structure EnvAdded (e : Environment) (s s' : Store) : Prop where
  fresh : ∀ d ∈ s.environments, d.id ≠ e.id
  rows : s'.environments = s.environments ++ [e]
  keys : s'.apiKeys = s.apiKeys

theorem EnvAdded.envEdit (e : Environment) (s s' : Store) (h : EnvAdded e s s') : EnvEdit s s' := by
  refine ⟨fun e' he' => ?_, ?_, fun k hk hno => ?_⟩
  · rw [h.rows] at he'
    rcases List.mem_append.mp he' with hold | hnew
    · exact .inl hold
    · rw [List.mem_singleton.mp hnew]
      exact .inr h.fresh
  · rw [h.keys]
  · rw [h.keys] at hno
    exact absurd hk hno

/-- What runs after the insert without touching environments or keys. -/
theorem EnvAdded.frame (e : Environment) (s : Store) (w w' : World) (h : EnvAdded e s w.store)
    (henvs : w.Same w' .environments) (hkeys : w.Same w' .apiKeys) : EnvAdded e s w'.store :=
  ⟨h.fresh, Eq.trans henvs h.rows, Eq.trans hkeys h.keys⟩

/-- Undoing the insert takes back the row and, by the cascade, keys that had
    no environment before. -/
theorem EnvAdded.undone (conn : Conn) (e : Environment) (s s' : Store) (h : EnvAdded e s s') :
    EnvEdit s (s'.dropEnvironments (conn.isEnvironmentRow e.id)) := by
  have hedit := envEdit_drop s' (conn.isEnvironmentRow e.id)
  refine ⟨fun e' he' => ?_, ?_, fun k hk hno => ?_⟩
  · exact (h.envEdit e s s').rows e' (List.mem_of_mem_filter he')
  · rw [← h.keys]
    exact hedit.keys
  · rw [← h.keys] at hk
    rcases hedit.lost k hk hno with ⟨d, hd, hid, hgone⟩ | hnone
    · -- The only environment that went is the one just added.
      rw [h.rows] at hd
      rcases List.mem_append.mp hd with hold | hnew
      · exact .inl ⟨d, hold, hid, hgone⟩
      · rw [List.mem_singleton.mp hnew] at hid
        exact .inr (fun d' hd' => hid ▸ h.fresh d' hd')
    · refine .inr (fun d hd => hnone d ?_)
      rw [h.rows]
      exact List.mem_append_left _ hd

/-- The compensation of a creation. -/
theorem ends_dropEnvironment (h : Host) (ctx : Ctx) (e : Environment) (s : Store) (w : World)
    (hadd : EnvAdded e s w.store) :
    Proc.Ends (exec h) (fun _ w' => EnvEdit s w'.store) (ctx.call (.deleteEnvironment e.id)) w := by
  refine ends_last ctx _ w (fun _ => hadd.envEdit e s _) (fun _ w' hp => ?_)
  rcases World.onStore_affect _ _ _ _ _ hp with ⟨_, rfl⟩
  exact hadd.undone _ e s _

theorem EnvironmentService.create_edit (h : Host) (ctx : Ctx) (projectID name slug : String)
    (w : World) :
    Proc.Ends (exec h) (fun _ w' => EnvEdit w.store w'.store)
      (EnvironmentService.create ctx projectID name slug) w := by
  have hsame := EnvEdit.refl w.store
  refine ends_require ctx _ _ w (fun _ => hsame) (fun ac hauth _ => ?_)
  refine ends_read ctx _ rfl _ w (fun _ => hsame) (fun id _ => ?_)
  refine ends_read ctx _ rfl _ _ (fun _ => hsame) (fun now _ => ?_)
  refine ends_check _ _ _ (fun _ _ => hsame) (fun _ _ => ?_)
  refine ends_call ctx _ _ _ (fun _ => hsame) (fun _ w₁ hp₁ => ?_)
  rcases World.onStore_ok _ _ _ _ hp₁ with ⟨s₁, hs₁, rfl⟩
  rcases createEnvironment_ok _ _ _ _ _ hs₁ with ⟨_, hfresh, _, rfl⟩
  -- From here on the environment is in, and a failure takes it out again.
  have hadd : EnvAdded ⟨id, projectID, name, slug, now⟩ w.store
      { w.store with environments := w.store.environments ++ [⟨id, projectID, name, slug, now⟩] } :=
    ⟨fun d hd => (hfresh d hd).1, rfl, rfl⟩
  have hstep : ∀ (α : Type) (p : Prog α) (r : Except Err α) (v v' : World),
      Within [.states] p → Proc.run (exec h) p v = (r, v') →
      EnvAdded ⟨id, projectID, name, slug, now⟩ w.store v.store →
      EnvAdded ⟨id, projectID, name, slug, now⟩ w.store v'.store := by
    intro α p r v v' hp hrun hv
    have hv' : v' = (Proc.run (exec h) p v).2 := by rw [hrun]
    rw [hv']
    exact hv.frame _ _ _ _ (Within.same h p hp _ (by decide) v)
      (Within.same h p hp _ (by decide) v)
  have hlist : Within [.states] (ctx.call (.listFlags projectID)) := within_read ctx _ rfl
  refine ends_undoing _ _ _ _ (fun e w₂ hrun => ?_) (fun flags w₂ hrun => ?_)
  · exact ends_dropEnvironment h ctx _ _ _ (hstep _ _ _ _ _ hlist hrun hadd)
  have hadd₂ := hstep _ _ _ _ _ hlist hrun hadd
  by_cases hsome : flags.length > 0
  · rw [if_pos hsome]
    have hbatch := createBatch_within ctx (flags.map (fun f => ⟨f.id, id, false⟩))
    refine ends_undoing _ _ _ _ (fun e w₃ hrun₃ => ?_) (fun _ w₃ hrun₃ => ?_)
    · exact ends_dropEnvironment h ctx _ _ _ (hstep _ _ _ _ _ hbatch hrun₃ hadd₂)
    · exact (hstep _ _ _ _ _ hbatch hrun₃ hadd₂).envEdit _ _ _
  · rw [if_neg hsome]
    exact hadd₂.envEdit _ _ _

theorem EnvironmentService.delete_edit (h : Host) (ctx : Ctx) (id : String) (w : World) :
    Proc.Ends (exec h) (fun _ w' => EnvEdit w.store w'.store)
      (EnvironmentService.delete ctx id) w := by
  have hsame := EnvEdit.refl w.store
  refine ends_require ctx _ _ w (fun _ => hsame) (fun ac _ _ => ?_)
  refine ends_last ctx (.deleteEnvironment id) w (fun _ => hsame) (fun _ w' hp => ?_)
  rcases World.onStore_affect _ _ _ _ _ hp with ⟨_, rfl⟩
  exact envEdit_drop _ _

theorem EnvironmentService.deleteBySlug_edit (h : Host) (ctx : Ctx) (projectID slug : String)
    (w : World) :
    Proc.Ends (exec h) (fun _ w' => EnvEdit w.store w'.store)
      (EnvironmentService.deleteBySlug ctx projectID slug) w := by
  have hsame := EnvEdit.refl w.store
  refine ends_require ctx _ _ w (fun _ => hsame) (fun ac _ _ => ?_)
  refine ends_read ctx _ rfl _ w (fun _ => hsame) (fun e _ => ?_)
  refine ends_last ctx (.deleteEnvironment e.id) _ (fun _ => hsame) (fun _ w' hp => ?_)
  rcases World.onStore_affect _ _ _ _ _ hp with ⟨_, rfl⟩
  exact envEdit_drop _ _

/-! ## The gate -/

/-- The caller of the context is an admin. -/
def Ctx.IsAdmin (ctx : Ctx) : Prop := ∃ ac, ctx.auth = some ac ∧ ac.role = .admin

/-- A method that does not ask for an admin edits projects, members,
    environments and keys only in the ways open to an editor. -/
theorem Method.admin_or_edit (m : Method) (h : Host) (ctx : Ctx) (w : World) :
    ctx.IsAdmin ∨
      (ProjectAdded ctx w.store (m.run h ctx w).2.store ∧
        EnvEdit w.store (m.run h ctx w).2.store) := by
  -- A method for admins needs one; every other has a frame, save the five treated one by
  -- one.
  by_cases hadm : m.requires = some .admin
  · rcases m.run_refused h ctx w .admin hadm with ⟨hrun, _⟩ | ⟨ac, hauth, hlevel⟩
    · rw [hrun]
      exact .inr ⟨ProjectAdded.refl ctx _, EnvEdit.refl _⟩
    · exact .inl ⟨ac, hauth, admin_of_level ac.role hlevel⟩
  rcases m.sensitive hadm with ⟨hproj, henv⟩
  refine .inr ⟨?_, ?_⟩
  · rcases hproj with ⟨name, slug, rfl⟩ | ⟨hp, hm⟩
    · have heffect := ProjectService.create_effect h ctx name slug w
      unfold Proc.Ends at heffect
      rw [Method.run, Method.program, run_ignore]
      exact heffect
    · have hprojects : (m.run h ctx w).2.store.projects = w.store.projects :=
        m.run_same h ctx w .projects hp
      refine ⟨fun p hmem => ?_, .inl (m.run_same h ctx w .members hm)⟩
      rw [hprojects]
      exact hmem
  · rcases henv with ⟨p, name, slug, rfl⟩ | ⟨p, slug, rfl⟩ | ⟨id, rfl⟩ | ⟨he, hk⟩
    · have hedit := EnvironmentService.create_edit h ctx p name slug w
      unfold Proc.Ends at hedit
      rw [Method.run, Method.program, run_ignore]
      exact hedit
    · exact EnvironmentService.deleteBySlug_edit h ctx p slug w
    · exact EnvironmentService.delete_edit h ctx id w
    · have henvs : (m.run h ctx w).2.store.environments = w.store.environments :=
        m.run_same h ctx w .environments he
      have hkeys : (m.run h ctx w).2.store.apiKeys = w.store.apiKeys :=
        m.run_same h ctx w .apiKeys hk
      refine ⟨fun e' he' => ?_, ?_, fun k hmem hno => ?_⟩
      · rw [henvs] at he'
        exact .inl he'
      · rw [hkeys]
      · rw [hkeys] at hno
        exact absurd hmem hno

/-- A call that changed the database or published an event was made by an
    editor or an admin. -/
theorem Method.writer (m : Method) (h : Host) (ctx : Ctx) (w : World)
    (hdiff : (m.run h ctx w).2.store ≠ w.store ∨ (m.run h ctx w).2.published ≠ w.published) :
    ∃ ac, ctx.auth = some ac ∧ (ac.role = .editor ∨ ac.role = .admin) := by
  have hchanged : (m.run h ctx w).2.store = w.store ∧
      (m.run h ctx w).2.published = w.published → False := by
    rintro ⟨hstore, hpub⟩
    exact hdiff.elim (fun hne => hne hstore) (fun hne => hne hpub)
  have hwrote : ∀ r, m.requires = some r → roleLevel .editor ≤ roleLevel r →
      ∃ ac, ctx.auth = some ac ∧ (ac.role = .editor ∨ ac.role = .admin) := by
    intro r hr hle
    rcases m.run_refused h ctx w r hr with ⟨hrun, _⟩ | ⟨ac, hauth, hlevel⟩
    · rw [hrun] at hchanged
      exact absurd ⟨rfl, rfl⟩ hchanged
    · exact ⟨ac, hauth, editor_or_admin ac.role (Nat.le_trans hle hlevel)⟩
  rcases m.reads with hnone | heditor | hadmin
  · refine absurd (World.eq_of_same w _ (fun t => m.run_same h ctx w t ?_)) hchanged
    rw [hnone]
    exact List.not_mem_nil
  · exact hwrote .editor heditor (Nat.le_refl _)
  · exact hwrote .admin hadmin (by decide)

/-- The role gate. For every method, every caller and every world: a call that
    changed the database or published an event was made by an editor or an
    admin; renaming or deleting a project, and renaming an environment, took
    an admin; so did changing members, except that the creator of a new
    project becomes its admin member; so did changing API keys, except that
    keys go with the environment they belong to; and a caller below the
    required role is refused with the world untouched. -/
theorem role_gate (m : Method) (h : Host) (ctx : Ctx) (w : World) :
    ((m.run h ctx w).2.store ≠ w.store ∨ (m.run h ctx w).2.published ≠ w.published →
      ∃ ac, ctx.auth = some ac ∧ (ac.role = .editor ∨ ac.role = .admin)) ∧
    ((∃ p ∈ w.store.projects, p ∉ (m.run h ctx w).2.store.projects) → ctx.IsAdmin) ∧
    ((m.run h ctx w).2.store.members ≠ w.store.members → ctx.IsAdmin ∨
      ∃ ac p, ctx.auth = some ac ∧ p ∈ (m.run h ctx w).2.store.projects ∧
        (∀ q ∈ w.store.projects, q.id ≠ p.id) ∧
        (m.run h ctx w).2.store.members =
          w.store.members ++ [⟨p.id, ac.userID, .admin, p.createdAt⟩]) ∧
    ((∃ e ∈ w.store.environments, ∃ e' ∈ (m.run h ctx w).2.store.environments,
      e'.id = e.id ∧ e' ∉ w.store.environments) → ctx.IsAdmin) ∧
    ((m.run h ctx w).2.store.apiKeys ≠ w.store.apiKeys → ctx.IsAdmin ∨
      ((m.run h ctx w).2.store.apiKeys.Sublist w.store.apiKeys ∧
        ∀ k ∈ w.store.apiKeys, k ∉ (m.run h ctx w).2.store.apiKeys →
          (∃ e ∈ w.store.environments, e.id = k.environmentID ∧
            e ∉ (m.run h ctx w).2.store.environments) ∨
          ∀ e ∈ w.store.environments, e.id ≠ k.environmentID)) ∧
    (∀ r, m.requires = some r → (∀ ac, ctx.auth = some ac → roleLevel ac.role < roleLevel r) →
      m.run h ctx w = (.error .forbidden, w)) := by
  -- Each part reads off one of the two: the caller is an admin, or the change is a plain
  -- edit.
  have hgate := m.admin_or_edit h ctx w
  refine ⟨m.writer h ctx w, ?_, ?_, ?_, ?_, ?_⟩
  · rintro ⟨p, hp, hgone⟩
    rcases hgate with hadmin | ⟨hadd, _⟩
    · exact hadmin
    · exact absurd (hadd.kept p hp) hgone
  · intro hne
    rcases hgate with hadmin | ⟨hadd, _⟩
    · exact .inl hadmin
    · exact .inr (hadd.members.resolve_left hne)
  · rintro ⟨e, he, e', he', hid, hnew⟩
    rcases hgate with hadmin | ⟨_, hedit⟩
    · exact hadmin
    · exact absurd hid.symm ((hedit.rows e' he').resolve_left hnew e he)
  · intro _
    rcases hgate with hadmin | ⟨_, hedit⟩
    · exact .inl hadmin
    · exact .inr ⟨hedit.keys, hedit.lost⟩
  · intro r hr hlow
    rcases m.run_refused h ctx w r hr with ⟨hrun, _⟩ | ⟨ac, hauth, hlevel⟩
    · exact hrun
    · exact absurd hlevel (Nat.not_le.mpr (hlow ac hauth))

/-- An editor, on the pool. -/
def editorCtx : Ctx := ⟨some ⟨"u1", .editor⟩, none⟩

/-- A store with one project, one environment and one key. -/
def keyedStore : Store where
  projects := [⟨"p1", "Acme", "acme", 0⟩]
  environments := [⟨"e1", "p1", "Production", "production", 0⟩]
  apiKeys := [⟨"k1", "p1", "e1", "ci", [1], "cg_abcde", .read, 0, none⟩]

/-- Both exceptions occur: an editor who creates a project changes the
    members, and an editor who deletes an environment changes the keys. -/
theorem editor_changes_members_and_keys :
    (¬ ∀ (m : Method) (h : Host) (ctx : Ctx) (w : World),
      (m.run h ctx w).2.store.members ≠ w.store.members → ctx.IsAdmin) ∧
    ¬ ∀ (m : Method) (h : Host) (ctx : Ctx) (w : World),
      (m.run h ctx w).2.store.apiKeys ≠ w.store.apiKeys → ctx.IsAdmin := by
  have heditor : ¬ editorCtx.IsAdmin := by
    rintro ⟨ac, hac, hrole⟩
    cases hac
    exact absurd hrole (by decide)
  refine ⟨fun hgate => heditor ?_, fun hgate => heditor ?_⟩
  · exact hgate (.projectCreate "Acme" "acme") Host.steady editorCtx {} (by decide)
  · exact hgate (.environmentDelete "e1") Host.steady editorCtx { store := keyedStore } (by decide)

end Cuttlegate
