import Cuttlegate.Lib.Rows
import Cuttlegate.Theory.Backfill

/-!
# The State Rows of a Project

The flags, the environments and the state rows of a project, and what commits
make of them.

A creation adds a row to one side and fills in a state row for each row of the
other side that it has listed. The project is complete afterwards if it has
listed all that are there. Deletions do no harm, since they cascade and since a
row whose flag or environment is gone is not added.

## Main definitions

* `Store.side`, `Store.stateKeys`, `Store.Complete`: The rows of a project.

## Theorems

* `complete_create`, `complete_delete`: What a commit does to the rows.
* `perform_side`, `applied_side`: What an operation and a commit add to a side.
-/

namespace Cuttlegate

/-! ## The rows of a project -/

/-- The rows of one side: their ids, and the projects they belong to. -/
def Store.side (s : Store) : Side → List (String × String)
  | .flag => s.flags.map (fun f => (f.id, f.projectID))
  | .environment => s.environments.map (fun e => (e.id, e.projectID))

/-- The flags and environments of the state rows. -/
def Store.stateKeys (s : Store) : List (String × String) :=
  s.states.map (fun st => (st.flagID, st.environmentID))

/-- The flag and environment of a state row, from an id of one side and one of
    the other. -/
def Side.key (side : Side) (id otherID : String) : String × String :=
  match side with
  | .flag => (id, otherID)
  | .environment => (otherID, id)

/-- Ids are unique, no pair has two state rows, and every pair of the project
    has one. -/
structure Store.Complete (p : String) (s : Store) : Prop where
  ids : ∀ side, ((s.side side).map Prod.fst).Nodup
  unique : s.stateKeys.Nodup
  full : ∀ f e, (f, p) ∈ s.side .flag → (e, p) ∈ s.side .environment → (f, e) ∈ s.stateKeys

/-- The rows of a project are those of their sides, whatever else changes. -/
theorem Store.Complete.congr (p : String) (s s' : Store) (hs : s.Complete p)
    (hside : ∀ side, s'.side side = s.side side) (hkeys : s'.stateKeys = s.stateKeys) :
    s'.Complete p := by
  refine ⟨fun side => ?_, ?_, fun f e hf he => ?_⟩
  · rw [hside]
    exact hs.ids side
  · rw [hkeys]
    exact hs.unique
  · rw [hside] at hf he
    rw [hkeys]
    exact hs.full f e hf he

/-- The pairs of a project, from either side. -/
theorem full_iff (p : String) (s : Store) (side : Side) :
    (∀ f e, (f, p) ∈ s.side .flag → (e, p) ∈ s.side .environment → (f, e) ∈ s.stateKeys) ↔
      ∀ a b, (a, p) ∈ s.side side → (b, p) ∈ s.side side.other → side.key a b ∈ s.stateKeys := by
  cases side with
  | flag => exact Iff.rfl
  | environment => exact ⟨fun h a b ha hb => h b a hb ha, fun h f e hf he => h e f he hf⟩

/-- The parents of a state row, from either side. -/
theorem hasParents_iff (s : Store) (side : Side) (id otherID : String) :
    s.HasParents (side.row id otherID).flagID (side.row id otherID).environmentID ↔
      id ∈ (s.side side).map Prod.fst ∧ otherID ∈ (s.side side.other).map Prod.fst := by
  cases side with
  | flag => simp [Store.HasParents, Store.side, Side.row, Side.other]
  | environment => simp [Store.HasParents, Store.side, Side.row, Side.other, and_comm]

/-! ## Deletions -/

theorem complete_dropFlags (p : String) (s : Store) (gone : Flag → Bool) (hs : s.Complete p) :
    (s.dropFlags gone).Complete p := by
  have hids := hs.ids .flag
  have hsub : ((s.dropFlags gone).side .flag).Sublist (s.side .flag) :=
    List.filter_sublist.map _
  have hkeys : (s.dropFlags gone).stateKeys.Sublist s.stateKeys := List.filter_sublist.map _
  refine ⟨fun side => ?_, hs.unique.sublist hkeys, fun f e hf he => ?_⟩
  · cases side with
    | flag => exact hids.sublist (hsub.map _)
    | environment => exact hs.ids .environment
  · rcases List.mem_map.mp (hs.full f e (hsub.subset hf) he) with ⟨st, hst, hkey⟩
    rcases List.mem_map.mp hf with ⟨flag, hflag, hpair⟩
    refine List.mem_map.mpr ⟨st, List.mem_filter.mpr ⟨hst, ?_⟩, hkey⟩
    -- The flag of the row was kept, so its id is none of those lost.
    have hcol : (s.flags.map (fun f => f.id)).Nodup := by
      simpa [Store.side, Function.comp_def] using hids
    have hkept := Rows.kept_id s.flags (fun f => f.id) gone hcol flag hflag
    rw [(Prod.mk.inj hkey).1, ← (Prod.mk.inj hpair).1]
    exact decide_eq_true hkept

theorem complete_dropEnvironments (p : String) (s : Store) (gone : Environment → Bool)
    (hs : s.Complete p) : (s.dropEnvironments gone).Complete p := by
  have hids := hs.ids .environment
  have hsub : ((s.dropEnvironments gone).side .environment).Sublist (s.side .environment) :=
    List.filter_sublist.map _
  have hkeys : (s.dropEnvironments gone).stateKeys.Sublist s.stateKeys := List.filter_sublist.map _
  refine ⟨fun side => ?_, hs.unique.sublist hkeys, fun f e hf he => ?_⟩
  · cases side with
    | flag => exact hs.ids .flag
    | environment => exact hids.sublist (hsub.map _)
  · rcases List.mem_map.mp (hs.full f e hf (hsub.subset he)) with ⟨st, hst, hkey⟩
    rcases List.mem_map.mp he with ⟨env, henv, hpair⟩
    refine List.mem_map.mpr ⟨st, List.mem_filter.mpr ⟨hst, ?_⟩, hkey⟩
    have hcol : (s.environments.map (fun e => e.id)).Nodup := by
      simpa [Store.side, Function.comp_def] using hids
    have hkept := Rows.kept_id s.environments (fun e => e.id) gone hcol env henv
    rw [(Prod.mk.inj hkey).2, ← (Prod.mk.inj hpair).1]
    exact decide_eq_true hkept

section Replays

variable (h : Host)

/-- Making a write once more changes the database as the operation does, or not
    at all. -/
theorem apply_cases (e : Entry) (s : Store) :
    e.apply h s = s ∨ ∃ a w,
      e.call.op.perform h ⟨e.call.tenant, h.rls⟩ { e.world with store := s } =
      .ok (a, w) ∧ e.apply h s = w.store := by
  unfold Entry.apply
  rcases exec_cases h e.call { e.world with store := s } with ⟨err, he⟩ | ⟨a, w, hp, he⟩
  · rw [he]
    exact .inl rfl
  · rw [he]
    exact .inr ⟨a, w, hp, rfl⟩

theorem complete_delete (p : String) (s : Store) (e : Entry) (hs : s.Complete p)
    (hop : ∃ id, e.call.op = .deleteFlag id ∨ e.call.op = .deleteEnvironment id) :
    (e.apply h s).Complete p := by
  rcases apply_cases h e s with hsame | ⟨a, w, hp, hstore⟩
  · rw [hsame]
    exact hs
  · rw [hstore]
    rcases e with ⟨world, ⟨tenant, op⟩, place, fate⟩
    rcases hop with ⟨id, rfl | rfl⟩
    · rw [(World.onStore_affect _ _ _ _ _ hp).2]
      exact complete_dropFlags p s _ hs
    · rw [(World.onStore_affect _ _ _ _ _ hp).2]
      exact complete_dropEnvironments p s _ hs

/-! ## Creations -/

/-- A state row is added unless it is there or one of its parents is not. -/
theorem apply_insertState (e : Entry) (st : FlagEnvironmentState) (s : Store)
    (hcall : e.call.op = .insertState st) (hfails : h.fails e.world.calls = false) :
    (∀ side, (e.apply h s).side side = s.side side) ∧
      (((e.apply h s).stateKeys = s.stateKeys ∧
          ((st.flagID, st.environmentID) ∈ s.stateKeys ∨
            ¬ s.HasParents st.flagID st.environmentID)) ∨
        ((e.apply h s).stateKeys = s.stateKeys ++ [(st.flagID, st.environmentID)] ∧
          (st.flagID, st.environmentID) ∉ s.stateKeys)) := by
  rcases e with ⟨world, ⟨tenant, op⟩, place, fate⟩
  change op = _ at hcall
  change h.fails world.calls = false at hfails
  subst hcall
  have hkey : (∃ x ∈ s.states, x.flagID = st.flagID ∧ x.environmentID = st.environmentID) ↔
      (st.flagID, st.environmentID) ∈ s.stateKeys := by
    simp [Store.stateKeys]
  -- A conflict on the key is refused, then a missing parent; only then is the row added.
  by_cases hthere : ∃ x ∈ s.states, x.flagID = st.flagID ∧ x.environmentID = st.environmentID
  · have hsame : Entry.apply h s ⟨world, ⟨tenant, .insertState st⟩, place, fate⟩ = s := by
      simp [Entry.apply, exec, hfails, Op.perform, World.onStore, insertState, refuseIf, hthere]
      rfl
    rw [hsame]
    exact ⟨fun _ => rfl, .inl ⟨rfl, .inl (hkey.mp hthere)⟩⟩
  · by_cases hparents : s.HasParents st.flagID st.environmentID
    · have hadd : Entry.apply h s ⟨world, ⟨tenant, .insertState st⟩, place, fate⟩ =
          { s with states := s.states ++ [st] } := by
        simp [Entry.apply, exec, hfails, Op.perform, World.onStore, insertState, refuseIf, hthere,
          hparents]
        rfl
      rw [hadd]
      refine ⟨fun side => ?_, .inr ⟨?_, fun hmem => hthere (hkey.mpr hmem)⟩⟩
      · cases side <;> rfl
      · exact List.map_append
    · have hsame : Entry.apply h s ⟨world, ⟨tenant, .insertState st⟩, place, fate⟩ = s := by
        simp [Entry.apply, exec, hfails, Op.perform, World.onStore, insertState, refuseIf, hthere,
          hparents]
        rfl
      rw [hsame]
      exact ⟨fun _ => rfl, .inl ⟨rfl, .inr hparents⟩⟩

/-- The rows a request adds, made on another database. -/
theorem applied_rows (side : Side) (id : String) (filled : List String) (entries : List Entry)
    (hcalls : entries.map (fun e => e.call.op) = filled.map (fun x => .insertState (side.row id x)))
    (hfails : ∀ e ∈ entries, h.fails e.world.calls = false) (s : Store) (hs : s.stateKeys.Nodup) :
    (∀ side', (applied h entries s).side side' = s.side side') ∧
      s.stateKeys ⊆ (applied h entries s).stateKeys ∧ (applied h entries s).stateKeys.Nodup ∧
      ∀ x ∈ filled, id ∈ (s.side side).map Prod.fst → x ∈ (s.side side.other).map Prod.fst →
        side.key id x ∈ (applied h entries s).stateKeys := by
  induction entries generalizing filled s with
  | nil =>
      have hnil : filled = [] := by simpa using hcalls.symm
      rw [hnil]
      exact ⟨fun _ => rfl, List.Subset.refl _, hs, fun x hx => absurd hx List.not_mem_nil⟩
  | cons e rest ih =>
      cases filled with
      | nil => exact absurd hcalls (List.cons_ne_nil _ _)
      | cons x filled =>
          rw [List.map_cons, List.map_cons, List.cons.injEq] at hcalls
          have hkey : ((side.row id x).flagID, (side.row id x).environmentID) = side.key id x := by
            cases side <;> rfl
          rcases apply_insertState h e _ s hcalls.1 (hfails e List.mem_cons_self) with
            ⟨hsides, hkeys⟩
          rw [hkey] at hkeys
          -- The first row is there afterwards, if it has its parents.
          have hfirst : s.stateKeys ⊆ (e.apply h s).stateKeys ∧ (e.apply h s).stateKeys.Nodup ∧
              (id ∈ (s.side side).map Prod.fst → x ∈ (s.side side.other).map Prod.fst →
                side.key id x ∈ (e.apply h s).stateKeys) := by
            rcases hkeys with ⟨hsame, hwhy⟩ | ⟨hadd, hnew⟩
            · rw [hsame]
              refine ⟨List.Subset.refl _, hs, fun hid hx => ?_⟩
              exact hwhy.resolve_right (fun hno => hno ((hasParents_iff s side id x).mpr ⟨hid, hx⟩))
            · rw [hadd]
              refine ⟨List.subset_append_left _ _, ?_, fun _ _ => List.mem_append_right _ ?_⟩
              · exact List.nodup_append.mpr ⟨hs, List.nodup_singleton _, fun a ha b hb => by
                  rw [List.mem_singleton.mp hb]
                  rintro rfl
                  exact hnew ha⟩
              · exact List.mem_singleton_self _
          rcases ih filled hcalls.2 (fun e' he' => hfails e' (List.mem_cons_of_mem _ he'))
            (e.apply h s) hfirst.2.1 with ⟨hsides', hsub, hnodup, hrows⟩
          refine ⟨fun side' => (hsides' side').trans (hsides side'),
            List.Subset.trans hfirst.1 hsub, hnodup,
            fun y hy hid hother => ?_⟩
          rcases List.mem_cons.mp hy with rfl | hy
          · exact hsub (hfirst.2.2 hid hother)
          · refine hrows y hy ?_ ?_
            · rw [hsides]
              exact hid
            · rw [hsides]
              exact hother

/-- A creation adds a row with a new id to its side, or does nothing. -/
theorem apply_create (e : Entry) (side : Side) (id q : String) (s : Store)
    (hcreates : e.call.op.creates side id q) :
    (e.apply h s).stateKeys = s.stateKeys ∧
      (e.apply h s).side side.other = s.side side.other ∧
      ((e.apply h s).side side = s.side side ∨
        ((e.apply h s).side side = s.side side ++ [(id, q)] ∧
          id ∉ (s.side side).map Prod.fst)) := by
  -- Applied again at commit, the write may be refused, and then nothing has changed.
  rcases apply_cases h e s with hsame | ⟨a, w, hp, hstore⟩
  · rw [hsame]
    exact ⟨rfl, rfl, .inl rfl⟩
  rw [hstore]
  rcases e with ⟨world, ⟨tenant, op⟩, place, fate⟩
  cases side with
  | flag =>
      cases op with
      | createFlag f =>
          rcases hcreates with ⟨rfl, rfl⟩
          rcases World.onStore_ok _ _ _ _ hp with ⟨s', hs', rfl⟩
          rcases createFlag_ok _ _ _ _ _ hs' with ⟨_, hfresh, _, rfl⟩
          refine ⟨rfl, rfl, .inr ⟨List.map_append, fun hmem => ?_⟩⟩
          simp only [Store.side, List.map_map, List.mem_map, Function.comp_apply] at hmem
          rcases hmem with ⟨g, hg, hid⟩
          exact (hfresh g hg).1 hid
      | _ => exact hcreates.elim
  | environment =>
      cases op with
      | createEnvironment env =>
          rcases hcreates with ⟨rfl, rfl⟩
          rcases World.onStore_ok _ _ _ _ hp with ⟨s', hs', rfl⟩
          rcases createEnvironment_ok _ _ _ _ _ hs' with ⟨_, hfresh, _, rfl⟩
          refine ⟨rfl, rfl, .inr ⟨List.map_append, fun hmem => ?_⟩⟩
          simp only [Store.side, List.map_map, List.mem_map, Function.comp_apply] at hmem
          rcases hmem with ⟨g, hg, hid⟩
          exact (hfresh g hg).1 hid
      | _ => exact hcreates.elim

/-- A creation that has filled in everything the other side has. -/
theorem complete_create (p : String) (side : Side) (id q : String) (filled : List String)
    (e : Entry) (rows : List Entry) (hcreates : e.call.op.creates side id q)
    (hcalls : rows.map (fun e => e.call.op) = filled.map (fun x => .insertState (side.row id x)))
    (hfails : ∀ e ∈ rows, h.fails e.world.calls = false) (s : Store) (hs : s.Complete p)
    (hcover : q = p → ∀ x, (x, p) ∈ s.side side.other → x ∈ filled) :
    (applied h (e :: rows) s).Complete p := by
  rcases apply_create h e side id q s hcreates with ⟨hkeys, hother, hside⟩
  have hunique : (e.apply h s).stateKeys.Nodup := by
    rw [hkeys]
    exact hs.unique
  rcases applied_rows h side id filled rows hcalls hfails (e.apply h s) hunique with
    ⟨hsides, hsub, hnodup, hrows⟩
  change (applied h rows (e.apply h s)).Complete p
  -- Both sides keep their ids apart, the rows stay unique, and every pair has its row.
  refine ⟨fun side' => ?_, hnodup, (full_iff p _ side).mpr (fun a b ha hb => ?_)⟩
  · rw [hsides]
    by_cases hcase : side' = side
    · rw [hcase]
      rcases hside with hsame | ⟨hadd, hnew⟩
      · rw [hsame]
        exact hs.ids side
      · rw [hadd]
        refine Rows.nodup_insert Prod.fst (s.side side) (id, q) (fun x hx hid => hnew ?_)
          (hs.ids side)
        exact List.mem_map.mpr ⟨x, hx, hid⟩
    · have hoth : side' = side.other := by
        revert hcase
        cases side <;> cases side' <;> simp [Side.other]
      rw [hoth, hother]
      exact hs.ids side.other
  · rw [hsides] at ha hb
    rw [hother] at hb
    have hold : ∀ a, (a, p) ∈ s.side side →
        side.key a b ∈ (applied h rows (e.apply h s)).stateKeys :=
      fun a ha => hsub (by rw [hkeys]; exact (full_iff p s side).mp hs.full a b ha hb)
    rcases hside with hsame | ⟨hadd, _⟩
    · rw [hsame] at ha
      exact hold a ha
    · have hmem := ha
      rw [hadd] at hmem
      rcases List.mem_append.mp hmem with hmem | hmem
      · exact hold a hmem
      -- The pair has the new row as one half: the batch was told of the other half.
      · rcases Prod.mk.inj (List.mem_singleton.mp hmem) with ⟨rfl, rfl⟩
        refine hrows b (hcover rfl b hb) (List.mem_map.mpr ⟨_, ha, rfl⟩) ?_
        rw [hother]
        exact List.mem_map.mpr ⟨_, hb, rfl⟩

/-- What an operation adds to a side it creates. -/
theorem perform_side (conn : Conn) (w w' : World) (op : Op) (a : op.Ret)
    (hp : op.perform h conn w = .ok (a, w')) (side : Side) (x q : String)
    (hx : (x, q) ∈ w'.store.side side) : (x, q) ∈ w.store.side side ∨ op.creates side x q := by
  cases side with
  | flag =>
      -- Only a create adds to a side; the other writers of the table update or remove.
      by_cases hwrites : Tbl.flags ∈ op.writes
      · cases op
        case createFlag f =>
          rcases World.onStore_ok _ _ _ _ hp with ⟨s', hs', rfl⟩
          rcases createFlag_ok _ _ _ _ _ hs' with ⟨_, _, _, rfl⟩
          simp only [Store.side, List.map_append, List.mem_append, List.map_singleton,
            List.mem_singleton, Prod.mk.injEq] at hx
          exact hx.imp id (fun heq => ⟨heq.1.symm, heq.2.symm⟩)
        case updateFlag f =>
          rw [(World.onStore_affect _ _ _ _ _ hp).2] at hx
          refine .inl ?_
          simp only [Store.side, List.map_map, List.mem_map, Function.comp_apply] at hx ⊢
          rcases hx with ⟨g, hg, hpair⟩
          refine ⟨g, hg, hpair ▸ ?_⟩
          split <;> rfl
        case deleteFlag id =>
          rw [(World.onStore_affect _ _ _ _ _ hp).2] at hx
          exact .inl ((List.filter_sublist.map _).subset hx)
        case deleteProject id =>
          rw [(World.onStore_affect _ _ _ _ _ hp).2] at hx
          exact .inl ((List.filter_sublist.map _).subset hx)
        all_goals exact absurd hwrites (by simp [Op.writes])
      · have hframe : w'.store.flags = w.store.flags := op.perform_frame h conn w w' a hp _ hwrites
        unfold Store.side at hx ⊢
        rw [hframe] at hx
        exact .inl hx
  | environment =>
      by_cases hwrites : Tbl.environments ∈ op.writes
      · cases op
        case createEnvironment e =>
          rcases World.onStore_ok _ _ _ _ hp with ⟨s', hs', rfl⟩
          rcases createEnvironment_ok _ _ _ _ _ hs' with ⟨_, _, _, rfl⟩
          simp only [Store.side, List.map_append, List.mem_append, List.map_singleton,
            List.mem_singleton, Prod.mk.injEq] at hx
          exact hx.imp id (fun heq => ⟨heq.1.symm, heq.2.symm⟩)
        case renameEnvironment id name =>
          rw [(World.onStore_affect _ _ _ _ _ hp).2] at hx
          refine .inl ?_
          simp only [Store.side, List.map_map, List.mem_map, Function.comp_apply] at hx ⊢
          rcases hx with ⟨g, hg, hpair⟩
          refine ⟨g, hg, hpair ▸ ?_⟩
          split <;> rfl
        case deleteEnvironment id =>
          rw [(World.onStore_affect _ _ _ _ _ hp).2] at hx
          exact .inl ((List.filter_sublist.map _).subset hx)
        case deleteProject id =>
          rw [(World.onStore_affect _ _ _ _ _ hp).2] at hx
          exact .inl ((List.filter_sublist.map _).subset hx)
        all_goals exact absurd hwrites (by simp [Op.writes])
      · have hframe : w'.store.environments = w.store.environments :=
          op.perform_frame h conn w w' a hp _ hwrites
        unfold Store.side at hx ⊢
        rw [hframe] at hx
        exact .inl hx

/-- So do the writes of a transaction. -/
theorem applied_side (entries : List Entry) (side : Side) (x q : String) (s : Store)
    (hx : (x, q) ∈ (applied h entries s).side side) :
    (x, q) ∈ s.side side ∨ ∃ e ∈ entries, e.call.op.creates side x q := by
  induction entries generalizing s with
  | nil => exact .inl hx
  | cons e rest ih =>
      rcases ih (e.apply h s) hx with hx | ⟨e', he', hcreates⟩
      · rcases apply_cases h e s with hsame | ⟨a, w, hp, hstore⟩
        · rw [hsame] at hx
          exact .inl hx
        · rw [hstore] at hx
          refine (perform_side h _ _ w _ a hp side x q hx).imp id (fun hcreates => ?_)
          exact ⟨e, List.mem_cons_self, hcreates⟩
      · exact .inr ⟨e', List.mem_cons_of_mem _ he', hcreates⟩

end Replays

end Cuttlegate
