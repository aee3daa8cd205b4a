import Cuttlegate.App.ProjectService

/-!
# Creations Taken Back

Creating a flag inserts its row, lists the environments of the project and
adds a disabled state row for each, one statement a row. Creating an
environment does the same with the flags. When a statement fails in between,
the first insert is taken back by a delete, and the schema drops with it
whatever state rows were already added.

What makes the undo exact is on the one hand that the id is new: a delete by
the id finds the new row and no other. On the other hand it is the foreign
keys: no state row of before can belong to a flag or an environment that was
not there, so the cascade takes the rows just added and no other. The foreign
keys hold throughout (`Store.Rooted`, `exec_rooted`).

The batch stops anywhere, so its run is described by the prefix of rows it
added (`ends_createBatch`). The undo itself is an operation and may fail;
`TakesBack` is the condition that it does not.

## Main definitions

* `Store.Rooted`: The foreign keys of the state rows.
* `TakesBack`: A compensating delete is not failed by the surroundings.
* `Restored`: Flags, environments and state rows are as before.
* `FlagCreated`, `EnvironmentCreated`: What a creation adds.

## Theorems

* `exec_rooted`: Every operation keeps the foreign keys.
* `ends_createBatch`: The loop stops after a prefix of its rows.
* `dropFlags_restores`, `dropEnvironments_restores`: The undo is exact.
* `creation_compensates`: A creation has its whole effect or none.
-/

namespace Cuttlegate

/-! ## The foreign keys of the state rows -/

/-- Every state row belongs to a flag and an environment that are stored. -/
def Store.Rooted (s : Store) : Prop :=
  ∀ st ∈ s.states, s.HasParents st.flagID st.environmentID

instance (s : Store) : Decidable s.Rooted :=
  inferInstanceAs (Decidable (∀ st ∈ s.states, s.HasParents st.flagID st.environmentID))

/-- State rows are kept by a write that keeps the ids of both sides and adds
    no row. -/
theorem Store.Rooted.mono (s s' : Store) (hs : s.Rooted)
    (hflags : ∀ f ∈ s.flags, ∃ f' ∈ s'.flags, f'.id = f.id)
    (henvs : ∀ e ∈ s.environments, ∃ e' ∈ s'.environments, e'.id = e.id)
    (hstates : ∀ st' ∈ s'.states, ∃ st ∈ s.states,
      st.flagID = st'.flagID ∧ st.environmentID = st'.environmentID) :
    s'.Rooted := by
  intro st' hst'
  rcases hstates st' hst' with ⟨st, hst, hflag, henv⟩
  rcases hs st hst with ⟨⟨f, hf, hfid⟩, e, he, heid⟩
  rcases hflags f hf with ⟨f', hf', hid⟩
  rcases henvs e he with ⟨e', he', hid'⟩
  exact ⟨⟨f', hf', hid.trans (hfid.trans hflag)⟩, e', he', hid'.trans (heid.trans henv)⟩

/-- The cascade of deleted flags. -/
theorem Store.Rooted.dropFlags (s : Store) (hs : s.Rooted) (gone : Flag → Bool) :
    (s.dropFlags gone).Rooted := by
  intro st hst
  rcases List.mem_filter.mp hst with ⟨hmem, hkept⟩
  rcases hs st hmem with ⟨⟨f, hf, hid⟩, henv⟩
  refine ⟨⟨f, List.mem_filter.mpr ⟨hf, ?_⟩, hid⟩, henv⟩
  by_contra hgone
  simp only [decide_eq_true_eq, List.mem_map, not_exists, not_and] at hkept
  exact hkept f (List.mem_filter.mpr ⟨hf, by simpa using hgone⟩) hid

/-- The cascade of deleted environments. -/
theorem Store.Rooted.dropEnvironments (s : Store) (hs : s.Rooted) (gone : Environment → Bool) :
    (s.dropEnvironments gone).Rooted := by
  intro st hst
  rcases List.mem_filter.mp hst with ⟨hmem, hkept⟩
  rcases hs st hmem with ⟨hflag, e, he, hid⟩
  refine ⟨hflag, e, List.mem_filter.mpr ⟨he, ?_⟩, hid⟩
  by_contra hgone
  simp only [decide_eq_true_eq, List.mem_map, not_exists, not_and] at hkept
  exact hkept e (List.mem_filter.mpr ⟨he, by simpa using hgone⟩) hid

/-- A row is added or its value written. -/
theorem Store.Rooted.setEnabled (s s' : Store) (hs : s.Rooted) (flagID environmentID : String)
    (enabled : Bool) (h : Cuttlegate.setEnabled flagID environmentID enabled s = .ok ((), s')) :
    s'.Rooted := by
  have haccepts := (setEnabled_accepts_iff flagID environmentID enabled s).mp ⟨s', h⟩
  rcases setEnabled_ok _ _ _ _ _ _ h with rfl | ⟨hnone, rfl⟩
  · refine hs.mono _ _ (fun f hf => ⟨f, hf, rfl⟩) (fun e he => ⟨e, he, rfl⟩) ?_
    intro st' hst'
    rcases List.mem_map.mp hst' with ⟨st, hst, rfl⟩
    refine ⟨st, hst, ?_⟩
    by_cases hfor : st.isFor flagID environmentID = true <;> simp [hfor]
  · intro st hst
    rcases List.mem_append.mp hst with hold | hnew
    · exact hs st hold
    · rw [List.mem_singleton.mp hnew]
      rcases haccepts with hrow | hparents
      · rcases List.any_eq_true.mp hrow with ⟨x, hx, hfor⟩
        rw [hnone x hx] at hfor
        exact absurd hfor Bool.false_ne_true
      · exact hparents

/-- A write that is none of the three tables' leaves the foreign keys alone. -/
theorem Store.Rooted.frame (w w' : World) (hs : w.store.Rooted) (hflags : w.Same w' .flags)
    (henvs : w.Same w' .environments) (hstates : w.Same w' .states) : w'.store.Rooted := by
  have hf : w'.store.flags = w.store.flags := hflags
  have he : w'.store.environments = w.store.environments := henvs
  have hst : w'.store.states = w.store.states := hstates
  unfold Store.Rooted Store.HasParents
  rw [hf, he, hst]
  exact hs

theorem Op.perform_rooted (h : Host) (conn : Conn) (w w' : World) (op : Op) (a : op.Ret)
    (hp : op.perform h conn w = .ok (a, w')) (hs : w.store.Rooted) : w'.store.Rooted := by
  -- Most operations write none of the three tables.
  by_cases haside : Tbl.flags ∉ op.writes ∧ Tbl.environments ∉ op.writes ∧ Tbl.states ∉ op.writes
  · exact hs.frame w w' (op.perform_frame h conn w w' a hp _ haside.1)
      (op.perform_frame h conn w w' a hp _ haside.2.1)
      (op.perform_frame h conn w w' a hp _ haside.2.2)
  cases op <;> simp [Op.writes] at haside <;> simp only [Op.perform] at hp
  case createFlag f =>
    rcases w.onStore_ok w' _ a hp with ⟨s', hs', rfl⟩
    rcases createFlag_ok conn f _ _ _ hs' with ⟨_, _, _, rfl⟩
    exact hs.mono _ _ (fun g hg => ⟨g, List.mem_append_left _ hg, rfl⟩)
      (fun e he => ⟨e, he, rfl⟩) (fun st hst => ⟨st, hst, rfl, rfl⟩)
  case createEnvironment e =>
    rcases w.onStore_ok w' _ a hp with ⟨s', hs', rfl⟩
    rcases createEnvironment_ok conn e _ _ _ hs' with ⟨_, _, _, rfl⟩
    exact hs.mono _ _ (fun f hf => ⟨f, hf, rfl⟩)
      (fun d hd => ⟨d, List.mem_append_left _ hd, rfl⟩) (fun st hst => ⟨st, hst, rfl, rfl⟩)
  case updateFlag new =>
    rcases w.onStore_affect w' _ _ a hp with ⟨_, rfl⟩
    refine hs.mono _ _ (fun f hf => ⟨_, List.mem_map_of_mem hf, ?_⟩) (fun e he => ⟨e, he, rfl⟩)
      (fun st hst => ⟨st, hst, rfl, rfl⟩)
    by_cases hrow : conn.isFlagRow new.id f = true <;> simp [hrow, Flag.overwrite]
  case renameEnvironment id name =>
    rcases w.onStore_affect w' _ _ a hp with ⟨_, rfl⟩
    refine hs.mono _ _ (fun f hf => ⟨f, hf, rfl⟩) (fun e he => ⟨_, List.mem_map_of_mem he, ?_⟩)
      (fun st hst => ⟨st, hst, rfl, rfl⟩)
    by_cases hrow : conn.isEnvironmentRow id e = true <;> simp [hrow]
  -- A deletion takes the rows below along, by the cascades of the schema.
  case deleteFlag id =>
    rcases w.onStore_affect w' _ _ a hp with ⟨_, rfl⟩
    exact hs.dropFlags _ _
  case deleteEnvironment id =>
    rcases w.onStore_affect w' _ _ a hp with ⟨_, rfl⟩
    exact hs.dropEnvironments _ _
  case deleteProject id =>
    rcases w.onStore_affect w' _ _ a hp with ⟨_, rfl⟩
    exact (hs.dropFlags _ _).dropEnvironments _ _
  case insertState st =>
    rcases w.onStore_ok w' _ a hp with ⟨s', hs', rfl⟩
    -- The database checks the two parents of a new row.
    rcases insertState_ok st _ _ _ hs' with ⟨_, hparents, rfl⟩
    intro x hx
    rcases List.mem_append.mp hx with hold | hnew
    · exact hs x hold
    · rw [List.mem_singleton.mp hnew]
      exact hparents
  case setEnabled flagID environmentID enabled =>
    rcases w.onStore_ok w' _ a hp with ⟨s', hs', rfl⟩
    exact hs.setEnabled _ _ _ _ _ hs'

/-- Every operation keeps the foreign keys, on every host. -/
theorem exec_rooted (h : Host) (c : Call) (w : World) (hs : w.store.Rooted) :
    (exec h c w).2.store.Rooted := by
  rcases exec_cases h c w with ⟨e, he⟩ | ⟨a, w', hp, he⟩
  · rw [he]
    exact hs
  · rw [he]
    exact c.op.perform_rooted h _ w w' a hp hs

/-! ## The batch of state rows -/

/-- The two rows belong to different pairs of a flag and an environment. -/
def FlagEnvironmentState.Apart (a b : FlagEnvironmentState) : Prop :=
  a.flagID = b.flagID → a.environmentID ≠ b.environmentID

/-- The loop adds its rows in order and stops after some of them. If it does
    not stop early, the rows were for different pairs, and for none that had a
    row. -/
structure Batched (rows : List FlagEnvironmentState) (s : Store) (r : Except Err Unit)
    (s' : Store) : Prop where
  prefixed : ∃ done, done <+: rows ∧ s' = { s with states := s.states ++ done } ∧
    (r = .ok () → done = rows)
  apart : r = .ok () → rows.Pairwise FlagEnvironmentState.Apart ∧
    ∀ a ∈ s.states, ∀ b ∈ rows, a.Apart b

theorem ends_createBatch (h : Host) (ctx : Ctx) (rows : List FlagEnvironmentState) (w : World) :
    Proc.Ends (exec h) (fun r w' => Batched rows w.store r w'.store) (createBatch ctx rows) w := by
  induction rows generalizing w with
  | nil =>
      refine ⟨⟨[], List.prefix_rfl, by simp [createBatch], fun _ => rfl⟩, fun _ => ?_⟩
      simp
  | cons st rest ih =>
      unfold createBatch
      refine ends_call ctx _ _ w (fun e => ?_) (fun _ w₁ hp => ?_)
      · exact ⟨⟨[], List.nil_prefix, by simp, fun hr => (nomatch hr)⟩, fun hr => (nomatch hr)⟩
      rcases World.onStore_ok _ _ _ _ hp with ⟨s₁, hs₁, rfl⟩
      rcases insertState_ok _ _ _ _ hs₁ with ⟨hfresh, _, rfl⟩
      refine Proc.ends_mono _ _ (ih _) (fun r w' hbatch => ?_)
      rcases hbatch.prefixed with ⟨done, hdone, hstore, hall⟩
      constructor
      · refine ⟨st :: done, (List.prefix_cons_inj st).mpr hdone, ?_, fun hr => by rw [hall hr]⟩
        rw [hstore]
        simp
      · intro hr
        rcases hbatch.apart hr with ⟨hrest, hold⟩
        constructor
        · refine List.pairwise_cons.mpr ⟨fun b hb => ?_, hrest⟩
          exact hold st (List.mem_append_right _ (List.mem_singleton.mpr rfl)) b hb
        · intro a ha b hb
          rcases List.mem_cons.mp hb with rfl | hb
          · exact hfresh a ha
          · exact hold a (List.mem_append_left _ ha) b hb

/-! ## The undo -/

/-- Flags, environments and state rows are as before. -/
structure Restored (s s' : Store) : Prop where
  flags : s'.flags = s.flags
  environments : s'.environments = s.environments
  states : s'.states = s.states

theorem Restored.refl (s : Store) : Restored s s := ⟨rfl, rfl, rfl⟩

/-- Deleting a new flag takes the rows added for it along, and nothing else. -/
theorem dropFlags_restores (conn : Conn) (f : Flag) (s : Store) (done : List FlagEnvironmentState)
    (hrooted : s.Rooted) (hsees : conn.sees f.projectID = true)
    (hfresh : ∀ g ∈ s.flags, g.id ≠ f.id) (hdone : ∀ st ∈ done, st.flagID = f.id) :
    Restored s (Store.dropFlags
      { s with flags := s.flags ++ [f], states := s.states ++ done } (conn.isFlagRow f.id)) := by
  have hnew : conn.isFlagRow f.id f = true := by simp [Conn.isFlagRow, hsees]
  have hold : ∀ g ∈ s.flags, conn.isFlagRow f.id g = false := by
    intro g hg
    simp [Conn.isFlagRow, hfresh g hg]
  have hlost : ((s.flags ++ [f]).filter (conn.isFlagRow f.id)).map (·.id) = [f.id] := by
    rw [List.filter_append, List.filter_eq_nil_iff.mpr (fun g hg => by simp [hold g hg])]
    simp [hnew]
  constructor
  · simp only [Store.dropFlags, List.filter_append]
    rw [List.filter_eq_self.mpr (fun g hg => by simp [hold g hg])]
    simp [hnew]
  · rfl
  · simp only [Store.dropFlags, hlost]
    rw [List.filter_append, List.filter_eq_self.mpr, List.filter_eq_nil_iff.mpr, List.append_nil]
    · intro st hst
      simp [hdone st hst]
    · -- By the foreign key no row of before belongs to the new flag.
      intro st hst
      rcases (hrooted st hst).1 with ⟨g, hg, hid⟩
      have hne := hfresh g hg
      rw [hid] at hne
      simp [hne]

/-- Deleting a new environment likewise. -/
theorem dropEnvironments_restores (conn : Conn) (e : Environment) (s : Store)
    (done : List FlagEnvironmentState) (hrooted : s.Rooted) (hsees : conn.sees e.projectID = true)
    (hfresh : ∀ d ∈ s.environments, d.id ≠ e.id) (hdone : ∀ st ∈ done, st.environmentID = e.id) :
    Restored s (Store.dropEnvironments
      { s with environments := s.environments ++ [e], states := s.states ++ done }
      (conn.isEnvironmentRow e.id)) := by
  have hnew : conn.isEnvironmentRow e.id e = true := by simp [Conn.isEnvironmentRow, hsees]
  have hold : ∀ d ∈ s.environments, conn.isEnvironmentRow e.id d = false := by
    intro d hd
    simp [Conn.isEnvironmentRow, hfresh d hd]
  have hlost : ((s.environments ++ [e]).filter (conn.isEnvironmentRow e.id)).map (·.id) =
      [e.id] := by
    rw [List.filter_append, List.filter_eq_nil_iff.mpr (fun d hd => by simp [hold d hd])]
    simp [hnew]
  constructor
  · rfl
  · simp only [Store.dropEnvironments, List.filter_append]
    rw [List.filter_eq_self.mpr (fun d hd => by simp [hold d hd])]
    simp [hnew]
  · simp only [Store.dropEnvironments, hlost]
    rw [List.filter_append, List.filter_eq_self.mpr, List.filter_eq_nil_iff.mpr, List.append_nil]
    · intro st hst
      simp [hdone st hst]
    · intro st hst
      -- As for a flag, by the other foreign key.
      rcases (hrooted st hst).2 with ⟨d, hd, hid⟩
      have hne := hfresh d hd
      rw [hid] at hne
      simp [hne]

/-- The deletes that take a creation back. -/
def Op.takesBack : Op → Bool
  | .deleteFlag _ | .deleteEnvironment _ => true
  | _ => false

/-- The surroundings do not fail a compensating delete. -/
def TakesBack (h : Host) (c : Call) (w : World) : Prop :=
  c.op.takesBack = true → h.fails w.calls = false

instance (h : Host) (c : Call) (w : World) : Decidable (TakesBack h c w) :=
  inferInstanceAs (Decidable (c.op.takesBack = true → h.fails w.calls = false))

section Creations

variable {h : Host} (ctx : Ctx) (s : Store)

theorem endsAlong_dropFlag (f : Flag) (done : List FlagEnvironmentState) (w : World)
    (hrooted : s.Rooted) (hsees : Conn.sees ⟨ctx.tenant, h.rls⟩ f.projectID = true)
    (hfresh : ∀ g ∈ s.flags, g.id ≠ f.id) (hdone : ∀ st ∈ done, st.flagID = f.id)
    (hw : w.store = { s with flags := s.flags ++ [f], states := s.states ++ done }) :
    Proc.EndsAlong (exec h) (TakesBack h) (fun _ w' => Restored s w'.store)
      (ctx.call (.deleteFlag f.id)) w := by
  intro halong
  have hfound : w.store.flags.any (Conn.isFlagRow ⟨ctx.tenant, h.rls⟩ f.id) = true := by
    simp [hw, Conn.isFlagRow, hsees]
  unfold Proc.Ends
  rw [Ctx.call, Proc.run_call, exec_passing h ⟨ctx.tenant, .deleteFlag f.id⟩ w (halong.1 rfl)]
  simp only [Op.perform, World.onStore, deleteFlag, affect, hfound, if_true, World.tick_store]
  rw [hw]
  exact dropFlags_restores _ f s done hrooted hsees hfresh hdone

theorem endsAlong_dropEnvironment (e : Environment) (done : List FlagEnvironmentState) (w : World)
    (hrooted : s.Rooted) (hsees : Conn.sees ⟨ctx.tenant, h.rls⟩ e.projectID = true)
    (hfresh : ∀ d ∈ s.environments, d.id ≠ e.id) (hdone : ∀ st ∈ done, st.environmentID = e.id)
    (hw : w.store = { s with
      environments := s.environments ++ [e], states := s.states ++ done }) :
    Proc.EndsAlong (exec h) (TakesBack h) (fun _ w' => Restored s w'.store)
      (ctx.call (.deleteEnvironment e.id)) w := by
  intro halong
  have hfound : w.store.environments.any (Conn.isEnvironmentRow ⟨ctx.tenant, h.rls⟩ e.id) =
      true := by
    simp [hw, Conn.isEnvironmentRow, hsees]
  unfold Proc.Ends
  rw [Ctx.call, Proc.run_call,
    exec_passing h ⟨ctx.tenant, .deleteEnvironment e.id⟩ w (halong.1 rfl)]
  simp only [Op.perform, World.onStore, deleteEnvironment, affect, hfound, if_true,
    World.tick_store]
  rw [hw]
  exact dropEnvironments_restores _ e s done hrooted hsees hfresh hdone

/-! ## The services -/

/-- A flag was added under a new id, with one disabled state row for each
    environment of its project. -/
structure FlagCreated (flag : Flag) (s : Store) (f : Flag) (s' : Store) : Prop where
  given : ∃ id now, f = { flag with id := id, createdAt := now }
  fresh : ∀ g ∈ s.flags, g.id ≠ f.id
  flags : s'.flags = s.flags ++ [f]
  environments : s'.environments = s.environments
  states : ∃ envs : List Environment,
    envs.Perm (s.environments.filter (fun e => e.projectID == flag.projectID)) ∧
    (envs.map (·.id)).Nodup ∧ s'.states = s.states ++ envs.map (fun e => ⟨f.id, e.id, false⟩)

/-- An environment was added under a new id, with one disabled state row for
    each flag of its project. -/
structure EnvironmentCreated (projectID name slug : String) (s : Store) (e : Environment)
    (s' : Store) : Prop where
  given : ∃ id now, e = ⟨id, projectID, name, slug, now⟩
  fresh : ∀ d ∈ s.environments, d.id ≠ e.id
  environments : s'.environments = s.environments ++ [e]
  flags : s'.flags = s.flags
  states : ∃ flags : List Flag,
    flags.Perm (s.flags.filter (fun f => f.projectID == projectID)) ∧
    (flags.map (·.id)).Nodup ∧ s'.states = s.states ++ flags.map (fun f => ⟨f.id, e.id, false⟩)

/-- A creation that fails leaves the three tables as they were, and one that
    succeeds leaves what it created. -/
def Compensated {α : Type} (created : Store → α → Store → Prop) (s : Store) (r : Except Err α)
    (s' : Store) : Prop :=
  match r with
  | .ok a => created s a s'
  | .error _ => Restored s s'

/-- An audit event is in none of the three tables. -/
theorem ends_audited (flag f : Flag) (entry : AuditEntry) (w : World)
    (hw : FlagCreated flag s f w.store) :
    Proc.Ends (exec h) (fun r w' => Compensated (FlagCreated flag) s r w'.store)
      (recordAudit ctx entry >>= fun _ => Proc.ret f) w := by
  refine ends_bestEffort _ _ w (fun r w' hrun => ?_)
  have hsame : ∀ t, t ∉ [Tbl.auditEvents] → w.Same w' t := by
    intro t ht
    have hframe := Within.same h _ (recordAuditErr_within ctx entry) t ht w
    rw [hrun] at hframe
    exact hframe
  have hflags : w'.store.flags = w.store.flags := hsame .flags (by decide)
  have henvs : w'.store.environments = w.store.environments := hsame .environments (by decide)
  have hstates : w'.store.states = w.store.states := hsame .states (by decide)
  refine ⟨hw.given, hw.fresh, hflags.trans hw.flags, henvs.trans hw.environments, ?_⟩
  rcases hw.states with ⟨envs, hperm, hnodup, hrows⟩
  exact ⟨envs, hperm, hnodup, hstates.trans hrows⟩

/-- What is listed of a project the connection sees is all there is. -/
theorem perm_listed {α : Type} (srt : Sorter) (less : α → α → Bool) (conn : Conn)
    (projectID : String) (project : α → String) (rows : List α)
    (hsees : conn.sees projectID = true) :
    (srt.sort less (rows.filter (fun a => conn.sees (project a) && project a == projectID))).Perm
      (rows.filter (fun a => project a == projectID)) := by
  refine (srt.perm less _).trans (List.Perm.of_eq (List.filter_congr (fun a _ => ?_)))
  by_cases hproject : project a = projectID
  · simp [hproject, hsees]
  · simp [hproject]

theorem listEnvironments_perm (conn : Conn) (projectID : String) (w w' : World)
    (envs : List Environment) (hsees : conn.sees projectID = true)
    (hp : Op.perform h conn w (.listEnvironments projectID) = .ok (envs, w')) :
    envs.Perm (w.store.environments.filter (fun e => e.projectID == projectID)) := by
  rw [← (Prod.mk.inj (Except.ok.inj hp)).1]
  exact perm_listed _ _ conn projectID (fun e : Environment => e.projectID) _ hsees

theorem listFlags_perm (conn : Conn) (projectID : String) (w w' : World) (flags : List Flag)
    (hsees : conn.sees projectID = true)
    (hp : Op.perform h conn w (.listFlags projectID) = .ok (flags, w')) :
    flags.Perm (w.store.flags.filter (fun f => f.projectID == projectID)) := by
  rw [← (Prod.mk.inj (Except.ok.inj hp)).1]
  exact perm_listed _ _ conn projectID (fun f : Flag => f.projectID) _ hsees

/-- Rows of a batch that went through are for different ids. -/
theorem nodup_of_apart {α : Type} (rows : List α) (row : α → FlagEnvironmentState) (id : α → String)
    (hsame : ∀ a b, (row a).Apart (row b) → id a ≠ id b)
    (hapart : (rows.map row).Pairwise FlagEnvironmentState.Apart) : (rows.map id).Nodup := by
  rw [List.pairwise_map] at hapart
  rw [List.Nodup, List.pairwise_map]
  exact hapart.imp (fun hab => hsame _ _ hab)

theorem enterEnvironments_compensates (flag f : Flag) (w : World) (hrooted : s.Rooted)
    (hsees : Conn.sees ⟨ctx.tenant, h.rls⟩ f.projectID = true)
    (hgiven : ∃ id now, f = { flag with id := id, createdAt := now })
    (hfresh : ∀ g ∈ s.flags, g.id ≠ f.id) (hw : w.store = { s with flags := s.flags ++ [f] }) :
    Proc.EndsAlong (exec h) (TakesBack h)
      (fun r w' => Compensated (FlagCreated flag) s r w'.store)
      (FlagService.enterEnvironments ctx f) w := by
  have hproject : f.projectID = flag.projectID := by
    rcases hgiven with ⟨id, now, rfl⟩
    rfl
  refine endsAlong_undoing _ _ _ w (fun e w₁ hrun => ?_) (fun envs w₁ hrun => ?_)
  · rw [Ctx.call, Proc.run_call] at hrun
    have hstore := congrArg World.store (exec_error h _ _ _ _ hrun)
    refine endsAlong_dropFlag ctx s f [] w₁ hrooted hsees hfresh (by simp) ?_
    rw [hstore, World.tick_store, hw, List.append_nil]
  -- The environments are listed, from a store that has not changed.
  rw [Ctx.call, Proc.run_call] at hrun
  rcases exec_ok h _ _ _ _ hrun with ⟨w₂, hp, rfl⟩
  have hperm : envs.Perm (s.environments.filter (fun e => e.projectID == flag.projectID)) := by
    have hlisted := listEnvironments_perm _ f.projectID w w₂ envs hsees hp
    rw [hw, hproject] at hlisted
    exact hlisted
  have hsame := Op.perform_read h _ w w₂ (.listEnvironments f.projectID) envs rfl hp
  subst hsame
  have hrows : ∀ done, done <+: envs.map (fun e => FlagEnvironmentState.mk f.id e.id false) →
      ∀ st ∈ done, st.flagID = f.id := by
    intro done hdone st hst
    rcases List.mem_map.mp (hdone.subset hst) with ⟨e, _, rfl⟩
    rfl
  -- Without environments there are no rows to enter.
  by_cases hnone : envs.length = 0
  · rw [if_pos hnone]
    intro _
    refine ends_audited ctx s flag f _ _ ⟨hgiven, hfresh, ?_, ?_, envs, hperm, ?_, ?_⟩
    · simp [hw]
    · simp [hw]
    · simp [List.length_eq_zero_iff.mp hnone]
    · simp [hw, List.length_eq_zero_iff.mp hnone]
  · rw [if_neg hnone]
    -- A batch that fails has entered some of its rows, and the flag takes them along.
    refine endsAlong_undoing _ _ _ _ (fun e w₃ hrun₃ => ?_) (fun u w₃ hrun₃ => ?_)
    · have hbatch := Proc.ends_run _ _ _ _ (ends_createBatch h ctx _ _) hrun₃
      rcases hbatch.prefixed with ⟨done, hdone, hstore, _⟩
      refine endsAlong_dropFlag ctx s f done w₃ hrooted hsees hfresh (hrows done hdone) ?_
      rw [hstore, World.tick_store, hw]
    · have hbatch := Proc.ends_run _ _ _ _ (ends_createBatch h ctx _ _) hrun₃
      rcases hbatch.prefixed with ⟨done, hdone, hstore, hall⟩
      rw [hall rfl] at hstore
      intro _
      refine ends_audited ctx s flag f _ _ ⟨hgiven, hfresh, ?_, ?_, envs, hperm, ?_, ?_⟩
      · simp [hstore, hw]
      · simp [hstore, hw]
      · exact nodup_of_apart envs _ _ (fun _ _ hab => hab rfl) (hbatch.apart rfl).1
      · simp [hstore, hw]

theorem FlagService.create_compensates (flag : Flag) (w : World) (hrooted : w.store.Rooted) :
    Proc.EndsAlong (exec h) (TakesBack h)
      (fun r w' => Compensated (FlagCreated flag) w.store r w'.store)
      (FlagService.create ctx flag) w := by
  have hsame := Restored.refl w.store
  -- Up to the insertion of the flag nothing has been written.
  refine endsAlong_require ctx _ _ w (fun _ => hsame) (fun ac => ?_)
  refine endsAlong_check _ _ w (fun _ _ => hsame) (fun _ _ => ?_)
  refine endsAlong_call ctx _ _ w (fun _ => hsame) (fun id w₁ hp₁ => ?_)
  rw [Op.perform_read h _ w w₁ .newUUID id rfl hp₁]
  refine endsAlong_call ctx _ _ _ (fun _ => hsame) (fun now w₂ hp₂ => ?_)
  rw [Op.perform_read h _ w.tick w₂ .now now rfl hp₂]
  refine endsAlong_call ctx _ _ _ (fun _ => hsame) (fun _ w₃ hp₃ => ?_)
  rcases World.onStore_ok _ _ _ _ hp₃ with ⟨s₃, hs₃, rfl⟩
  rcases createFlag_ok _ _ _ _ _ hs₃ with ⟨hsees, hfresh, _, rfl⟩
  exact enterEnvironments_compensates ctx w.store flag _ _ hrooted hsees ⟨id, now, rfl⟩
    (fun g hg => (hfresh g hg).1) rfl

/-- The second half of an environment's creation. -/
theorem enterFlags_compensates (projectID name slug : String) (e : Environment) (w : World)
    (hrooted : s.Rooted) (hsees : Conn.sees ⟨ctx.tenant, h.rls⟩ projectID = true)
    (hgiven : ∃ id now, e = ⟨id, projectID, name, slug, now⟩)
    (hfresh : ∀ d ∈ s.environments, d.id ≠ e.id)
    (hw : w.store = { s with environments := s.environments ++ [e] }) :
    Proc.EndsAlong (exec h) (TakesBack h)
      (fun r w' => Compensated (EnvironmentCreated projectID name slug) s r w'.store)
      (do
        let flags ← undoing (ctx.call (.listFlags projectID)) (ctx.call (.deleteEnvironment e.id))
        if flags.length > 0 then do
          undoing (createBatch ctx (flags.map (fun f => ⟨f.id, e.id, false⟩)))
            (ctx.call (.deleteEnvironment e.id))
          return e
        else return e) w := by
  have hseesEnv : Conn.sees ⟨ctx.tenant, h.rls⟩ e.projectID = true := by
    rcases hgiven with ⟨id, now, rfl⟩
    exact hsees
  refine endsAlong_undoing _ _ _ w (fun err w₁ hrun => ?_) (fun flags w₁ hrun => ?_)
  · rw [Ctx.call, Proc.run_call] at hrun
    have hstore := congrArg World.store (exec_error h _ _ _ _ hrun)
    refine endsAlong_dropEnvironment ctx s e [] w₁ hrooted hseesEnv hfresh (by simp) ?_
    rw [hstore, World.tick_store, hw, List.append_nil]
  rw [Ctx.call, Proc.run_call] at hrun
  rcases exec_ok h _ _ _ _ hrun with ⟨w₂, hp, rfl⟩
  -- The flags are listed, from a store that has not changed.
  have hperm : flags.Perm (s.flags.filter (fun f => f.projectID == projectID)) := by
    have hlisted := listFlags_perm _ projectID w w₂ flags hsees hp
    rw [hw] at hlisted
    exact hlisted
  have hsame := Op.perform_read h _ w w₂ (.listFlags projectID) flags rfl hp
  subst hsame
  have hrows : ∀ done, done <+: flags.map (fun f => FlagEnvironmentState.mk f.id e.id false) →
      ∀ st ∈ done, st.environmentID = e.id := by
    intro done hdone st hst
    rcases List.mem_map.mp (hdone.subset hst) with ⟨f, _, rfl⟩
    rfl
  by_cases hsome : flags.length > 0
  · rw [if_pos hsome]
    -- A batch that fails has entered some of its rows, and the environment takes them along.
    refine endsAlong_undoing _ _ _ _ (fun err w₃ hrun₃ => ?_) (fun u w₃ hrun₃ => ?_)
    · have hbatch := Proc.ends_run _ _ _ _ (ends_createBatch h ctx _ _) hrun₃
      rcases hbatch.prefixed with ⟨done, hdone, hstore, _⟩
      refine endsAlong_dropEnvironment ctx s e done w₃ hrooted hseesEnv hfresh
        (hrows done hdone) ?_
      rw [hstore, World.tick_store, hw]
    · have hbatch := Proc.ends_run _ _ _ _ (ends_createBatch h ctx _ _) hrun₃
      rcases hbatch.prefixed with ⟨done, hdone, hstore, hall⟩
      rw [hall rfl] at hstore
      intro _
      refine ⟨hgiven, hfresh, ?_, ?_, flags, hperm, ?_, ?_⟩
      · simp [hstore, hw]
      · simp [hstore, hw]
      · exact nodup_of_apart flags _ _ (fun _ _ hab hid => hab hid rfl) (hbatch.apart rfl).1
      · simp [hstore, hw]
  · rw [if_neg hsome]
    -- Without flags there are no rows to enter.
    have hnil : flags = [] := List.length_eq_zero_iff.mp (by omega)
    intro _
    refine ⟨hgiven, hfresh, ?_, ?_, flags, hperm, ?_, ?_⟩
    · simp [hw]
    · simp [hw]
    · simp [hnil]
    · simp [hw, hnil]

theorem EnvironmentService.create_compensates (projectID name slug : String) (w : World)
    (hrooted : w.store.Rooted) :
    Proc.EndsAlong (exec h) (TakesBack h)
      (fun r w' => Compensated (EnvironmentCreated projectID name slug) w.store r w'.store)
      (EnvironmentService.create ctx projectID name slug) w := by
  have hsame := Restored.refl w.store
  refine endsAlong_require ctx _ _ w (fun _ => hsame) (fun ac => ?_)
  refine endsAlong_call ctx _ _ w (fun _ => hsame) (fun id w₁ hp₁ => ?_)
  rw [Op.perform_read h _ w w₁ .newUUID id rfl hp₁]
  refine endsAlong_call ctx _ _ _ (fun _ => hsame) (fun now w₂ hp₂ => ?_)
  rw [Op.perform_read h _ w.tick w₂ .now now rfl hp₂]
  refine endsAlong_check _ _ _ (fun _ _ => hsame) (fun _ _ => ?_)
  refine endsAlong_call ctx _ _ _ (fun _ => hsame) (fun _ w₃ hp₃ => ?_)
  rcases World.onStore_ok _ _ _ _ hp₃ with ⟨s₃, hs₃, rfl⟩
  rcases createEnvironment_ok _ _ _ _ _ hs₃ with ⟨hsees, hids, _, rfl⟩
  exact enterFlags_compensates ctx w.store projectID name slug _ _ hrooted hsees ⟨id, now, rfl⟩
    (fun d hd => (hids d hd).1) rfl

end Creations

/-- A creation of either kind has its whole effect or none, wherever it fails,
    as long as the delete that takes it back does not. -/
theorem creation_compensates (h : Host) (ctx : Ctx) (w : World) (hrooted : w.store.Rooted) :
    (∀ flag r w', Proc.Along (exec h) (TakesBack h) (FlagService.create ctx flag) w →
      Proc.run (exec h) (FlagService.create ctx flag) w = (r, w') →
      Compensated (FlagCreated flag) w.store r w'.store) ∧
    ∀ projectID name slug r w',
      Proc.Along (exec h) (TakesBack h) (EnvironmentService.create ctx projectID name slug) w →
      Proc.run (exec h) (EnvironmentService.create ctx projectID name slug) w = (r, w') →
      Compensated (EnvironmentCreated projectID name slug) w.store r w'.store := by
  constructor
  · intro flag r w' halong hrun
    have hend := FlagService.create_compensates ctx flag w hrooted halong
    exact Proc.ends_run _ w w' r hend hrun
  · intro projectID name slug r w' halong hrun
    have hend := EnvironmentService.create_compensates ctx projectID name slug w hrooted halong
    exact Proc.ends_run _ w w' r hend hrun

/-- A project with two environments, and a flag that is on in one of them. -/
def twoEnvironments : World where
  store := {
    projects := [⟨"p1", "Shop", "shop", 0⟩]
    environments := [⟨"e1", "p1", "Staging", "staging", 0⟩, ⟨"e2", "p1", "Production", "prod", 0⟩]
    flags := [⟨"f1", "p1", "dark", "Dark mode", .bool, [⟨"true", "On"⟩, ⟨"false", "Off"⟩],
      "false", 0⟩]
    states := [⟨"f1", "e1", true⟩, ⟨"f1", "e2", false⟩] }

/-- A host that fails the sixth operation, for a flag the insert of its second
    state row. -/
def secondRowLost : Host := { Host.steady with fails := fun n => n == 5 }

/-- A new flag is gone again with its first state row, and a new environment,
    which has one flag to fill in, is not. -/
theorem creation_compensates_second_row :
    Compensated (FlagCreated ⟨"", "p1", "light", "Light mode", .bool,
        [⟨"true", "On"⟩, ⟨"false", "Off"⟩], "false", 0⟩) twoEnvironments.store (.error .internal)
      (Proc.run (exec secondRowLost) (FlagService.create ⟨some ⟨"u1", .editor⟩, none⟩
        ⟨"", "p1", "light", "Light mode", .bool, [⟨"true", "On"⟩, ⟨"false", "Off"⟩], "false", 0⟩)
        twoEnvironments).2.store ∧
    Compensated (EnvironmentCreated "p1" "Testing" "testing") twoEnvironments.store
      (.ok ⟨sampleUUID 0, "p1", "Testing", "testing", 1⟩)
      (Proc.run (exec secondRowLost) (EnvironmentService.create ⟨some ⟨"u1", .editor⟩, none⟩
        "p1" "Testing" "testing") twoEnvironments).2.store := by
  have hrooted : twoEnvironments.store.Rooted := by decide
  constructor
  · exact (creation_compensates secondRowLost ⟨some ⟨"u1", .editor⟩, none⟩ twoEnvironments
      hrooted).1 _ _ _ (by decide +kernel) (Prod.ext (by decide +kernel) rfl)
  · exact (creation_compensates secondRowLost ⟨some ⟨"u1", .editor⟩, none⟩ twoEnvironments
      hrooted).2 _ _ _ _ _ (by decide +kernel) (Prod.ext (by decide +kernel) rfl)

end Cuttlegate
