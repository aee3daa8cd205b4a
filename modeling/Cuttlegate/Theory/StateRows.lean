import Cuttlegate.Theory.ProjectRows

/-!
# One State Row for Every Flag and Environment

Whether every flag of a project has exactly one state row in every environment
of the project, whatever requests create and delete them beside each other.

A creation lists the other side as it is committed and fills in what it has
seen. Two creations of different sides can miss each other: when each has
listed the other side before the other is committed, neither adds the row they
have in common, and nobody ever does.

The condition is about the listing that came too early. When a transaction is
committed, nothing that is stored on the side it has listed may have been
committed after it listed it.

## Main definitions

* `CommittedSince`, `Timely`: The condition.
* `BackfillInv`: The database, the trace and the notes agree.

## Theorems

* `backfill_step`: What a statement can make of the note of its request.
* `BackfillInv.step`: The database, the trace and the notes go on to agree.
* `state_rows_complete`: In time, every pair has exactly one row.
* `state_row_missing`: In general it has not.
-/

namespace Cuttlegate

/-! ## The condition -/

/-- The transaction has listed one side of a project, and a row of that side
    was committed after that. -/
def CommittedSince (tr : List (Nat × TxOp)) (t : Nat) (side : Side) (x p : String) : Prop :=
  ∃ t', (∃ j c, (j, TxOp.within t' c) ∈ tr ∧ c.op.creates side x p) ∧
    ∃ i tenant k, [(i, TxOp.within t ⟨tenant, side.list p⟩), (k, TxOp.commit t')].Sublist tr

/-- A transaction is committed only if no row of the project that is stored by
    then was committed after the transaction had listed its side. -/
def Timely (h : TxHost) (p : String) (tr : List (Nat × TxOp)) (s : Server) (op : TxOp) : Prop :=
  ∀ t, op = .commit t → h.commits s.world.calls = true →
    ∀ side x, (x, p) ∈ s.world.store.side side → ¬ CommittedSince tr t side x p

theorem CommittedSince.mono (tr : List (Nat × TxOp)) (step : Nat × TxOp) (t : Nat) (side : Side)
    (x p : String) (h : CommittedSince tr t side x p) :
    CommittedSince (tr ++ [step]) t side x p := by
  rcases h with ⟨t', ⟨j, c, hc, hcreates⟩, i, tenant, k, hsub⟩
  exact ⟨t', ⟨j, c, List.mem_append_left _ hc, hcreates⟩, i, tenant, k,
    hsub.trans (List.sublist_append_left _ _)⟩

/-! ## The invariant -/

/-- What a request has written, as its note says. -/
def Written (n : TxNote Backfill) : Prop :=
  match n.own with
  | .idle => n.writes = []
  | .created side _ id q => ∃ c, n.writes = [c] ∧ c.op.creates side id q
  | .listed side id q filled _ => ∃ c rows, n.writes = c :: rows ∧ c.op.creates side id q ∧
      rows.map (fun c => c.op) = filled.map (fun x => .insertState (side.row id x))
  | .deleted => ∃ c, n.writes = [c] ∧
      ∃ id, c.op = .deleteFlag id ∨ c.op = .deleteEnvironment id
  | .failed => True

/-- A transaction has listed a side: what is stored there now it has seen, or it
    was committed since. -/
def HasListed (tr : List (Nat × TxOp)) (s : Server) (t : Nat) (side : Side) (q : String)
    (ids : List String) : Prop :=
  (∃ j tenant, (j, TxOp.within t ⟨tenant, side.list q⟩) ∈ tr) ∧
    ∀ x, (x, q) ∈ s.world.store.side side → x ∈ ids ∨ CommittedSince tr t side x q

/-- The database, the trace and the notes agree. -/
structure BackfillInv (h : TxHost) (p : String) (tr : List (Nat × TxOp)) (s : Server)
    (note : Nat → TxNote Backfill) : Prop where
  tracked : Tracked h s note
  complete : s.world.store.Complete p
  traced : ∀ t, ∀ e ∈ s.entries t, ∃ i, (i, TxOp.within t e.call) ∈ tr
  written : ∀ i, Written (note i)
  sees : ∀ i side tenant id q, (note i).own = .created side tenant id q →
    Conn.sees ⟨tenant, h.host.rls⟩ q = true
  listed : ∀ i t side id q filled missing, (note i).tx = some t →
    (note i).own = .listed side id q filled missing →
      HasListed tr s t side.other q (filled ++ missing)

section Step

variable (h : TxHost) (p : String)

/-- The note after an operation. -/
abbrev backfillAfter (n : TxNote Backfill) (op : TxOp) (r : Except Err op.Ret) : TxNote Backfill :=
  backfillRules.discipline.after op r n

/-- A connection that sees the project lists all of its environments. -/
theorem listEnvironments_all (tenant : Option String) (q : String) (w : World)
    (hsees : Conn.sees ⟨tenant, h.host.rls⟩ q = true) (envs : List Environment)
    (hr : (exec h.host ⟨tenant, .listEnvironments q⟩ w).1 = .ok envs) (x : String)
    (hx : (x, q) ∈ w.store.side .environment) : x ∈ envs.map (fun e => e.id) := by
  rcases exec_ok h.host ⟨tenant, .listEnvironments q⟩ w _ envs (Prod.ext hr rfl) with ⟨w', hp, _⟩
  rw [← (Prod.mk.inj (Except.ok.inj hp)).1]
  rcases List.mem_map.mp hx with ⟨e, he, hpair⟩
  rcases Prod.mk.inj hpair with ⟨rfl, rfl⟩
  refine List.mem_map.mpr ⟨e, (Sorter.mem_sort _ _ _ _).mpr (List.mem_filter.mpr ⟨he, ?_⟩), rfl⟩
  rw [hsees, beq_self_eq_true, Bool.and_true]

/-- And all of its flags. -/
theorem listFlags_all (tenant : Option String) (q : String) (w : World)
    (hsees : Conn.sees ⟨tenant, h.host.rls⟩ q = true) (flags : List Flag)
    (hr : (exec h.host ⟨tenant, .listFlags q⟩ w).1 = .ok flags) (x : String)
    (hx : (x, q) ∈ w.store.side .flag) : x ∈ flags.map (fun f => f.id) := by
  rcases exec_ok h.host ⟨tenant, .listFlags q⟩ w _ flags (Prod.ext hr rfl) with ⟨w', hp, _⟩
  rw [← (Prod.mk.inj (Except.ok.inj hp)).1]
  rcases List.mem_map.mp hx with ⟨f, hf, hpair⟩
  rcases Prod.mk.inj hpair with ⟨rfl, rfl⟩
  refine List.mem_map.mpr ⟨f, (Sorter.mem_sort _ _ _ _).mpr (List.mem_filter.mpr ⟨hf, ?_⟩), rfl⟩
  rw [hsees, beq_self_eq_true, Bool.and_true]

/-- What a statement in the transaction can make of the note. -/
inductive BackfillStep (c : Call) (w : World) (n n' : TxNote Backfill) : Prop where
  | same (hown : n'.own = n.own) (hwrites : n'.writes = n.writes) : BackfillStep c w n n'
  | created (side : Side) (id q : String) (hidle : n.own = .idle)
      (hcreates : c.op.creates side id q) (hsees : Conn.sees ⟨c.tenant, h.host.rls⟩ q = true)
      (hown : n'.own = .created side c.tenant id q) (hwrites : n'.writes = n.writes ++ [c]) :
      BackfillStep c w n n'
  | listed (side : Side) (id q : String) (ids : List String)
      (hcreated : n.own = .created side c.tenant id q) (hop : c.op = side.other.list q)
      (hall : Conn.sees ⟨c.tenant, h.host.rls⟩ q = true →
        ∀ x, (x, q) ∈ w.store.side side.other → x ∈ ids)
      (hown : n'.own = .listed side id q [] ids) (hwrites : n'.writes = n.writes) :
      BackfillStep c w n n'
  | filled (side : Side) (id q : String) (filled : List String) (otherID : String)
      (missing : List String) (hlisted : n.own = .listed side id q filled (otherID :: missing))
      (hop : c.op = .insertState (side.row id otherID))
      (hown : n'.own = .listed side id q (filled ++ [otherID]) missing)
      (hwrites : n'.writes = n.writes ++ [c]) : BackfillStep c w n n'
  | deleted (hidle : n.own = .idle)
      (hop : ∃ id, c.op = .deleteFlag id ∨ c.op = .deleteEnvironment id)
      (hown : n'.own = .deleted) (hwrites : n'.writes = n.writes ++ [c]) : BackfillStep c w n n'
  | failed (hown : n'.own = .failed) : BackfillStep c w n n'

/-- A failed statement leaves the note as it is, unless it was to take a
    creation back. -/
theorem backfill_step (t : Nat) (c : Call) (w : World) (n : TxNote Backfill)
    (hop : backfillRules.permits (.within t c) n) :
    BackfillStep h c w n (backfillAfter n (.within t c) (exec h.host c w).1) := by
  rcases c with ⟨tenant, op⟩
  rcases n with ⟨tx, writes, own⟩
  cases hr : (exec h.host ⟨tenant, op⟩ w).1 with
  | error e =>
      cases op with
      | deleteFlag id =>
          cases own with
          | idle => exact .same rfl rfl
          | _ => exact .failed rfl
      | deleteEnvironment id =>
          cases own with
          | idle => exact .same rfl rfl
          | _ => exact .failed rfl
      | _ => exact .same rfl rfl
  | ok a =>
      rcases exec_ok h.host ⟨tenant, op⟩ w _ a (Prod.ext hr rfl) with ⟨w', hp, _⟩
      cases op with
      | createFlag f =>
          obtain rfl : own = .idle := hop
          rcases World.onStore_ok _ _ _ _ hp with ⟨s', hs', _⟩
          exact .created .flag f.id f.projectID rfl ⟨rfl, rfl⟩ (createFlag_ok _ _ _ _ _ hs').1
            rfl rfl
      | createEnvironment e =>
          obtain rfl : own = .idle := hop
          rcases World.onStore_ok _ _ _ _ hp with ⟨s', hs', _⟩
          exact .created .environment e.id e.projectID rfl ⟨rfl, rfl⟩
            (createEnvironment_ok _ _ _ _ _ hs').1 rfl rfl
      | listEnvironments q =>
          rcases hop with ⟨id, hown⟩
          obtain rfl : own = .created .flag tenant id q := hown
          exact .listed .flag id q (a.map (fun e : Environment => e.id)) rfl rfl
            (fun hsees => listEnvironments_all h tenant q w hsees a hr) rfl rfl
      | listFlags q =>
          rcases hop with ⟨id, hown⟩
          obtain rfl : own = .created .environment tenant id q := hown
          exact .listed .environment id q (a.map (fun f : Flag => f.id)) rfl rfl
            (fun hsees => listFlags_all h tenant q w hsees a hr) rfl rfl
      | insertState st =>
          rcases hop with ⟨side, id, q, filled, otherID, missing, hown, rfl⟩
          obtain rfl : own = .listed side id q filled (otherID :: missing) := hown
          exact .filled side id q filled otherID missing rfl rfl rfl rfl
      | deleteFlag id =>
          cases own with
          | idle => exact .deleted rfl ⟨id, .inl rfl⟩ rfl rfl
          | _ => exact .failed rfl
      | deleteEnvironment id =>
          cases own with
          | idle => exact .deleted rfl ⟨id, .inr rfl⟩ rfl rfl
          | _ => exact .failed rfl
      -- Whatever else is permitted writes nothing.
      | _ => first
          | exact .same rfl rfl
          | exact absurd (show _ :: _ = [] from hop) (List.cons_ne_nil _ _)

/-- The note goes on to say what was written. -/
theorem written_step (s : Server) (n : TxNote Backfill) (op : TxOp)
    (hop : backfillRules.permits op n) (hn : Written n) :
    Written (backfillAfter n op (txExec h op s).1) := by
  cases op with
  | pool c => exact hn
  | begin => exact hn
  | setTenantContext t id => exact hn
  | allow key => exact hn
  | commit t => exact (rfl : ([] : List Call) = [])
  | rollback t => exact (rfl : ([] : List Call) = [])
  | within t c =>
      -- The step inversion says how the note moved, and with it what the transaction wrote.
      have hstep := backfill_step h t c (s.seen h.host t) n hop
      change Written (backfillAfter n (.within t c) (exec h.host c (s.seen h.host t)).1)
      generalize backfillAfter n (.within t c) (exec h.host c (s.seen h.host t)).1 = n' at hstep ⊢
      unfold Written at hn ⊢
      cases hstep with
      | same hown hwrites =>
          rw [hown, hwrites]
          exact hn
      | created side id q hidle hcreates _ hown hwrites =>
          rw [hidle] at hn
          rw [hown, hwrites, hn]
          exact ⟨c, rfl, hcreates⟩
      | listed side id q ids hcreated _ _ hown hwrites =>
          rw [hcreated] at hn
          rw [hown, hwrites]
          rcases hn with ⟨c', hc', hcreates⟩
          exact ⟨c', [], hc', hcreates, rfl⟩
      | filled side id q filled otherID missing hlisted hinsert hown hwrites =>
          rw [hlisted] at hn
          rw [hown, hwrites]
          rcases hn with ⟨c', rows, hc', hcreates, hrows⟩
          refine ⟨c', rows ++ [c], by rw [hc']; rfl, hcreates, ?_⟩
          rw [List.map_append, List.map_append, hrows, List.map_singleton, hinsert]
          rfl
      | deleted hidle hdelete hown hwrites =>
          rw [hidle] at hn
          rw [hown, hwrites, hn]
          exact ⟨c, rfl, hdelete⟩
      | failed hown =>
          rw [hown]
          trivial

/-- Only a commit changes what is stored of flags, environments and states. -/
theorem store_unchanged (s : Server) (n : TxNote Backfill) (op : TxOp)
    (hop : backfillRules.permits op n)
    (hno : ∀ t, op = .commit t → h.commits s.world.calls = false) :
    (∀ side, (txExec h op s).2.world.store.side side = s.world.store.side side) ∧
      (txExec h op s).2.world.store.stateKeys = s.world.store.stateKeys := by
  cases op with
  | pool c =>
      -- On the pool a request writes users and audit rows only.
      have hframe : ∀ tbl, tbl ∉ [Tbl.users, .auditEvents] →
          s.world.Same (exec h.host c s.world).2 tbl :=
        fun tbl htbl => exec_frame h.host c s.world tbl (fun hmem => htbl (hop hmem))
      have hflags : (exec h.host c s.world).2.store.flags = s.world.store.flags :=
        hframe .flags (by decide)
      have henvs : (exec h.host c s.world).2.store.environments = s.world.store.environments :=
        hframe .environments (by decide)
      have hstates : (exec h.host c s.world).2.store.states = s.world.store.states :=
        hframe .states (by decide)
      refine ⟨fun side => ?_, congrArg (List.map _) hstates⟩
      cases side with
      | flag => exact congrArg (List.map _) hflags
      | environment => exact congrArg (List.map _) henvs
  | begin =>
      simp only [txExec]
      split <;> exact ⟨fun _ => rfl, rfl⟩
  | setTenantContext t id =>
      simp only [txExec]
      split <;> exact ⟨fun _ => rfl, rfl⟩
  | within t c => exact ⟨fun _ => rfl, rfl⟩
  | commit t =>
      simp only [txExec, hno t rfl, Bool.false_eq_true, if_false]
      exact ⟨fun _ => rfl, rfl⟩
  | rollback t => exact ⟨fun _ => rfl, rfl⟩
  | allow key => exact ⟨fun _ => rfl, rfl⟩

/-- What is stored of a side was stored before, or is committed now. -/
theorem side_step (s : Server) (n : TxNote Backfill) (op : TxOp)
    (hop : backfillRules.permits op n) (side : Side) (x q : String)
    (hx : (x, q) ∈ (txExec h op s).2.world.store.side side) :
    (x, q) ∈ s.world.store.side side ∨
      ∃ t, op = .commit t ∧ ∃ e ∈ s.entries t, e.call.op.creates side x q := by
  by_cases hcommit : ∃ t, op = .commit t ∧ h.commits s.world.calls = true
  · rcases hcommit with ⟨t, rfl, hcommits⟩
    simp only [txExec, if_pos hcommits] at hx
    exact (applied_side h.host (s.entries t) side x q _ hx).imp id (fun he => ⟨t, rfl, he⟩)
  · have hsame := (store_unchanged h s n op hop (fun t ht => by
      rw [← Bool.not_eq_true]
      exact fun hcommits => hcommit ⟨t, ht, hcommits⟩)).1 side
    rw [hsame] at hx
    exact .inl hx

variable (tr : List (Nat × TxOp)) (s : Server) (note : Nat → TxNote Backfill)

/-- What a transaction makes of the database when it is committed in time. -/
theorem complete_commit (hJ : BackfillInv h p tr s note) (i t : Nat) (htx : (note i).tx = some t)
    (hready : (note i).own.Ready)
    (hok : ∀ side x, (x, p) ∈ s.world.store.side side → ¬ CommittedSince tr t side x p) :
    (s.view h.host t).Complete p := by
  have hwrites := hJ.tracked.writes i t htx
  have hmade := hJ.tracked.made t
  have hwritten := hJ.written i
  unfold Written at hwritten
  unfold Server.view
  -- What the commit applies is what the note says the transaction wrote.
  cases hown : (note i).own with
  | idle =>
      rw [hown] at hwritten
      rw [hwritten, List.map_eq_nil_iff] at hwrites
      rw [hwrites]
      exact hJ.complete
  | deleted =>
      rw [hown] at hwritten
      rcases hwritten with ⟨c, hc, hdelete⟩
      rw [hc] at hwrites
      rcases List.map_eq_singleton_iff.mp hwrites with ⟨e, he, rfl⟩
      rw [he]
      exact complete_delete h.host p _ e hJ.complete hdelete
  | listed side id q filled missing =>
      rw [hown] at hwritten hready
      obtain rfl : missing = [] := hready
      rcases hwritten with ⟨c, rows, hc, hcreates, hrows⟩
      rw [hc] at hwrites
      rcases List.map_eq_cons_iff.mp hwrites with ⟨e, rest, he, rfl, hrest⟩
      rw [he] at hmade ⊢
      refine complete_create h.host p side id q filled e rest hcreates ?_
        (fun e' he' => (hmade e' (List.mem_cons_of_mem _ he')).1) _ hJ.complete (fun hq x hx => ?_)
      · rw [← hrows, ← hrest, List.map_map]
        rfl
      · -- Whatever the transaction has not seen was committed since.
        rw [hq] at hown
        rcases (hJ.listed i t side id p filled [] htx hown).2 x hx with hseen | hlate
        · rw [List.append_nil] at hseen
          exact hseen
        · exact absurd hlate (hok side.other x hx)
  | created side tenant id q =>
      rw [hown] at hready
      exact hready.elim
  | failed =>
      rw [hown] at hready
      exact hready.elim

/-- The rows of the project stay complete. -/
theorem complete_step (hJ : BackfillInv h p tr s note) (i : Nat) (op : TxOp)
    (hok : Timely h p tr s op) (hop : backfillRules.discipline.permits op (note i)) :
    (txExec h op s).2.world.store.Complete p := by
  rcases hop with ⟨hown, hop⟩
  by_cases hcommit : ∃ t, op = .commit t ∧ h.commits s.world.calls = true
  · rcases hcommit with ⟨t, rfl, hcommits⟩
    simp only [txExec, if_pos hcommits]
    exact complete_commit h p tr s note hJ i t hown hop (hok t rfl hcommits)
  · have hsame := store_unchanged h s (note i) op hop (fun t ht => by
      rw [← Bool.not_eq_true]
      exact fun hcommits => hcommit ⟨t, ht, hcommits⟩)
    exact hJ.complete.congr p _ _ hsame.1 hsame.2

/-- What a transaction has written can be found in the trace. -/
theorem traced_step (hJ : BackfillInv h p tr s note) (i : Nat) (op : TxOp) (t : Nat) :
    ∀ e ∈ (txExec h op s).2.entries t, ∃ j, (j, TxOp.within t e.call) ∈ tr ++ [(i, op)] := by
  -- An entry made earlier has its call in the trace already.
  have hold : ∀ e ∈ s.entries t, ∃ j, (j, TxOp.within t e.call) ∈ tr ++ [(i, op)] := by
    intro e he
    rcases hJ.traced t e he with ⟨j, hj⟩
    exact ⟨j, List.mem_append_left _ hj⟩
  intro e he
  cases op with
  | pool c => exact hold e he
  | allow key => exact hold e he
  | setTenantContext t' id =>
      simp only [txExec] at he
      split at he <;> exact hold e he
  | begin =>
      rw [entries_begin] at he
      split at he
      · exact absurd he List.not_mem_nil
      · exact hold e he
  | commit t' =>
      rw [entries_commit] at he
      split at he
      · exact absurd he List.not_mem_nil
      · exact hold e he
  | rollback t' =>
      rw [entries_rollback] at he
      split at he
      · exact absurd he List.not_mem_nil
      · exact hold e he
  | within t' c =>
      rw [entries_within] at he
      split at he
      · rename_i hput
        rcases List.mem_append.mp he with he | he
        · exact hold e he
        · rw [List.mem_singleton.mp he, hput.1]
          exact ⟨i, List.mem_append_right _ List.mem_cons_self⟩
      · exact hold e he

/-- What a transaction has listed it has listed for good. -/
theorem hasListed_step (hJ : BackfillInv h p tr s note) (i : Nat) (op : TxOp)
    (hop : backfillRules.permits op (note i)) (t : Nat) (side : Side) (q : String)
    (ids : List String) (hlisted : HasListed tr s t side q ids) :
    HasListed (tr ++ [(i, op)]) (txExec h op s).2 t side q ids := by
  rcases hlisted with ⟨⟨j, tenant, hj⟩, hseen⟩
  refine ⟨⟨j, tenant, List.mem_append_left _ hj⟩, fun x hx => ?_⟩
  rcases side_step h s (note i) op hop side x q hx with hx | ⟨t', rfl, e, he, hcreates⟩
  · exact (hseen x hx).imp id (CommittedSince.mono tr _ t side x q)
  · -- The row is committed by this very operation.
    rcases hJ.traced t' e he with ⟨j', hj'⟩
    have hsub : [(j, TxOp.within t ⟨tenant, side.list q⟩)].Sublist tr :=
      List.singleton_sublist.mpr hj
    exact .inr ⟨t', ⟨j', e.call, List.mem_append_left _ hj', hcreates⟩, j, tenant, i,
      hsub.append (List.Sublist.refl [(i, TxOp.commit t')])⟩

/-- A transaction that has only created a row sees the other side as it is
    stored. -/
theorem view_other (hJ : BackfillInv h p tr s note) (i t : Nat) (htx : (note i).tx = some t)
    (side : Side) (tenant : Option String) (id q : String)
    (hown : (note i).own = .created side tenant id q) :
    (s.view h.host t).side side.other = s.world.store.side side.other := by
  have hwritten := hJ.written i
  unfold Written at hwritten
  rw [hown] at hwritten
  rcases hwritten with ⟨c, hc, hcreates⟩
  have hwrites := hJ.tracked.writes i t htx
  rw [hc] at hwrites
  rcases List.map_eq_singleton_iff.mp hwrites with ⟨e, he, rfl⟩
  unfold Server.view
  rw [he]
  exact (apply_create h.host e side id q _ hcreates).2.1

/-- What a request has listed after an operation of its own. -/
theorem listed_own (hJ : BackfillInv h p tr s note) (i : Nat) (op : TxOp)
    (hop : backfillRules.discipline.permits op (note i)) (t : Nat) (side : Side) (id q : String)
    (filled missing : List String)
    (htx : (backfillAfter (note i) op (txExec h op s).1).tx = some t)
    (hown : (backfillAfter (note i) op (txExec h op s).1).own = .listed side id q filled missing) :
    HasListed (tr ++ [(i, op)]) (txExec h op s).2 t side.other q (filled ++ missing) := by
  -- Adding a state row moves an id from one list to the other.
  have hkeep : ∀ filled' missing', (note i).tx = some t →
      (note i).own = .listed side id q filled' missing' → filled' ++ missing' = filled ++ missing →
      HasListed (tr ++ [(i, op)]) (txExec h op s).2 t side.other q (filled ++ missing) := by
    intro filled' missing' htx' hown' hsame
    rw [← hsame]
    exact hasListed_step h p tr s note hJ i op hop.2 t side.other q _
      (hJ.listed i t side id q filled' missing' htx' hown')
  cases op with
  | pool c => exact hkeep filled missing htx hown rfl
  | allow key => exact hkeep filled missing htx hown rfl
  | setTenantContext t' id' => exact hkeep filled missing htx hown rfl
  | begin => exact (nomatch (show (note i).own = .idle from hop.2).symm.trans hown)
  | commit t' => exact (nomatch htx)
  | rollback t' => exact (nomatch htx)
  | within t' c =>
      have htx' : (note i).tx = some t := htx
      have ht : t' = t := Option.some.inj ((show (note i).tx = some t' from hop.1).symm.trans htx')
      have hstep := backfill_step h t' c (s.seen h.host t') (note i) hop.2
      change (backfillAfter (note i) (.within t' c) (exec h.host c (s.seen h.host t')).1).own = _
        at hown
      generalize backfillAfter (note i) (.within t' c) (exec h.host c (s.seen h.host t')).1 = n'
        at hstep hown
      cases hstep with
      | same hsame _ => exact hkeep filled missing htx' (hsame.symm.trans hown) rfl
      | created _ _ _ _ _ _ hown' => exact (nomatch hown'.symm.trans hown)
      | listed side' id' q' ids hcreated hlist hall hown' =>
          rcases Backfill.listed.inj (hown'.symm.trans hown) with ⟨rfl, rfl, rfl, rfl, rfl⟩
          refine ⟨⟨i, c.tenant, ?_⟩, fun x hx => .inl ?_⟩
          · rw [ht, ← hlist]
            exact List.mem_append_right _ List.mem_cons_self
          · -- The transaction sees the other side as it is stored.
            refine hall (hJ.sees i _ _ _ _ hcreated) x ?_
            have hother := view_other h p tr s note hJ i t htx' side' c.tenant id' q' hcreated
            rw [ht]
            exact hother.symm ▸ hx
      | filled side' id' q' filled' otherID missing' hlisted _ hown' =>
          rcases Backfill.listed.inj (hown'.symm.trans hown) with ⟨rfl, rfl, rfl, rfl, rfl⟩
          refine hkeep filled' _ htx' hlisted ?_
          rw [List.append_assoc]
          rfl
      | deleted _ _ hown' => exact (nomatch hown'.symm.trans hown)
      | failed hown' => exact (nomatch hown'.symm.trans hown)

/-- A row was created on a connection that sees its project. -/
theorem sees_step (hJ : BackfillInv h p tr s note) (i : Nat) (op : TxOp)
    (hop : backfillRules.discipline.permits op (note i)) (side : Side) (tenant : Option String)
    (id q : String)
    (hown : (backfillAfter (note i) op (txExec h op s).1).own = .created side tenant id q) :
    Conn.sees ⟨tenant, h.host.rls⟩ q = true := by
  cases op with
  | pool c => exact hJ.sees i side tenant id q hown
  | allow key => exact hJ.sees i side tenant id q hown
  | setTenantContext t id' => exact hJ.sees i side tenant id q hown
  | begin => exact hJ.sees i side tenant id q hown
  | commit t => exact (nomatch (show Backfill.idle = _ from hown))
  | rollback t => exact (nomatch (show Backfill.idle = _ from hown))
  | within t c =>
      -- Only the create moves the note there, and its guard saw the project.
      have hstep := backfill_step h t c (s.seen h.host t) (note i) hop.2
      change (backfillAfter (note i) (.within t c) (exec h.host c (s.seen h.host t)).1).own = _
        at hown
      generalize backfillAfter (note i) (.within t c) (exec h.host c (s.seen h.host t)).1 = n'
        at hstep hown
      cases hstep with
      | same hsame _ => exact hJ.sees i side tenant id q (hsame.symm.trans hown)
      | created side' id' q' _ _ hsees hown' =>
          rcases Backfill.created.inj (hown'.symm.trans hown) with ⟨_, rfl, _, rfl⟩
          exact hsees
      | listed _ _ _ _ _ _ _ hown' => exact (nomatch hown'.symm.trans hown)
      | filled _ _ _ _ _ _ _ _ hown' => exact (nomatch hown'.symm.trans hown)
      | deleted _ _ hown' => exact (nomatch hown'.symm.trans hown)
      | failed hown' => exact (nomatch hown'.symm.trans hown)

/-- The database, the trace and the notes go on to agree. -/
theorem BackfillInv.step (hJ : BackfillInv h p tr s note) (i : Nat) (op : TxOp)
    (hok : Timely h p tr s op) (hop : backfillRules.discipline.permits op (note i)) :
    BackfillInv h p (tr ++ [(i, op)]) (txExec h op s).2
      (Function.update note i (backfillAfter (note i) op (txExec h op s).1)) := by
  -- The last three facts are kept per thread: the one that stepped, and each of the others.
  refine ⟨hJ.tracked.step h backfillRules s note i op hop,
    complete_step h p tr s note hJ i op hok hop, traced_step h p tr s note hJ i op, fun j => ?_,
    fun j side tenant id q hj => ?_, fun j t side id q filled missing htx hj => ?_⟩
  · by_cases hji : j = i
    · rw [hji, Function.update_self]
      exact written_step h s (note i) op hop.2 (hJ.written i)
    · rw [Function.update_of_ne hji]
      exact hJ.written j
  · by_cases hji : j = i
    · rw [hji, Function.update_self] at hj
      exact sees_step h p tr s note hJ i op hop side tenant id q hj
    · rw [Function.update_of_ne hji] at hj
      exact hJ.sees j side tenant id q hj
  · by_cases hji : j = i
    · rw [hji, Function.update_self] at hj htx
      exact listed_own h p tr s note hJ i op hop t side id q filled missing htx hj
    · rw [Function.update_of_ne hji] at hj htx
      exact hasListed_step h p tr s note hJ i op hop.2 t side.other q _
        (hJ.listed j t side id q filled missing htx hj)

end Step

/-- Before the first request. -/
theorem backfillInv_start (h : TxHost) (p : String) (w : World) (hw : w.store.Complete p) :
    BackfillInv h p [] { world := w } (fun _ => backfillBlank) := by
  refine ⟨⟨?_, ?_, ?_, ?_, ?_, ?_⟩, hw, ?_, fun _ => rfl, ?_, ?_⟩
  · exact fun i t hi => (nomatch hi)
  · exact fun i j t hi => (nomatch hi)
  · exact fun i t hi => (nomatch hi)
  · exact fun _ _ => rfl
  · exact fun _ _ => rfl
  · exact fun t e he => absurd he List.not_mem_nil
  · exact fun t e he => absurd he List.not_mem_nil
  · exact fun i side tenant id q hi => (nomatch hi)
  · exact fun i t side id q filled missing hi => (nomatch hi)

/-- A pair that has a row and has not two has one. -/
theorem countP_isFor (s : Store) (hunique : s.stateKeys.Nodup) (f e : String)
    (hrow : (f, e) ∈ s.stateKeys) : s.states.countP (FlagEnvironmentState.isFor f e) = 1 := by
  have hcount : s.stateKeys.count (f, e) = s.states.countP (FlagEnvironmentState.isFor f e) := by
    rw [List.count, Store.stateKeys, List.countP_map]
    refine List.countP_congr (fun st _ => ?_)
    simp [FlagEnvironmentState.isFor]
  rw [← hcount]
  exact List.count_eq_one_of_mem hunique hrow

/-- In every interleaving of requests that create and delete flags and
    environments in which the commits come in time, every flag of the project
    has exactly one state row in every environment of the project. -/
theorem state_rows_complete (h : TxHost) (p : String) (w : World) (hw : w.store.Complete p)
    (tr : List (Nat × TxOp)) (P : Pool Err TxOp TxOp.Ret Server)
    (hrun : Pool.RunWhile (txExec h) (backfillThread h) (fun tr s _ op => Timely h p tr s op)
      ⟨{ world := w }, []⟩ tr P) :
    ∀ f ∈ P.shared.world.store.flags, ∀ e ∈ P.shared.world.store.environments,
      f.projectID = p → e.projectID = p →
        P.shared.world.store.states.countP (FlagEnvironmentState.isFor f.id e.id) = 1 := by
  rcases Pool.runWhile_discipline backfillRules.discipline backfillBlank
    (fun tr s note => BackfillInv h p tr s note) (fun q hq => backfillThread_follows h q hq)
    (fun tr s note i op hJ hok hop => hJ.step h p tr s note i op hok hop) { world := w }
    (backfillInv_start h p w hw) tr P hrun with ⟨note, hJ⟩
  intro f hf e he hfp hep
  refine countP_isFor _ hJ.complete.unique f.id e.id (hJ.complete.full f.id e.id ?_ ?_)
  · exact List.mem_map.mpr ⟨f, hf, by rw [hfp]⟩
  · exact List.mem_map.mpr ⟨e, he, by rw [hep]⟩


/-- A project with a flag and an environment. -/
def rowShop : World where
  store := {
    projects := [⟨"p1", "Shop", "shop", 0⟩]
    environments := [⟨"e1", "p1", "Production", "prod", 0⟩]
    flags := [⟨"f1", "p1", "dark", "Dark mode", .bool, [⟨"true", "On"⟩, ⟨"false", "Off"⟩],
      "false", 0⟩]
    states := [⟨"f1", "e1", false⟩] }

theorem rowShop_complete : rowShop.store.Complete "p1" := by
  refine ⟨fun side => by cases side <;> decide, by decide, fun f e hf he => ?_⟩
  simp only [rowShop, Store.side, List.map_cons, List.map_nil, List.mem_singleton,
    Prod.mk.injEq, and_true] at hf he
  simp [rowShop, Store.stateKeys, hf, he]

/-- A server on which every statement and every commit succeeds. -/
def rowHost : TxHost where
  host := Host.steady
  verify := fun token =>
    if token = "token-u1" then .ok (⟨"u1", "u1@example.com", "Ada"⟩, .editor)
    else .error .invalid
  commits := fun _ => true
  evalRateLimiter := ⟨600, 60 * second⟩

def newFlag : FlagEnvironmentRequest where
  authorization := "Bearer token-u1"
  projSlug := "shop"
  projSlug_ne := shop_ne_empty
  route := .createFlag (some (.obj [("key", .str "beta"), ("type", .str "string"),
    ("variants", .arr [.obj [("key", .str "on")]]), ("default_variant_key", .str "on")]))

def newEnvironment : FlagEnvironmentRequest where
  authorization := "Bearer token-u1"
  projSlug := "shop"
  projSlug_ne := shop_ne_empty
  route := .createEnvironment (some (.obj [("name", .str "Staging"), ("slug", .str "staging")]))

/-- The two requests beside each other, in the order of a schedule. -/
def flagAndEnvironment (schedule : List Nat) : Pool Err TxOp TxOp.Ret Server :=
  Pool.follow (txExec rowHost) ⟨{ world := rowShop },
    [atServer (newFlag.serve rowHost.http) none >>= fun _ => Proc.ret (),
      atServer (newEnvironment.serve rowHost.http) none >>= fun _ => Proc.ret ()]⟩ schedule

/-- Whether the operation is a listing of the transaction. -/
def TxOp.lists (t : Nat) : TxOp → Bool
  | .within t' ⟨_, .listFlags _⟩ | .within t' ⟨_, .listEnvironments _⟩ => t' == t
  | _ => false

/-- A test for the condition: nothing at all was committed after the listing. -/
def timely (tr : List (Nat × TxOp)) : TxOp → Bool
  | .commit t => (tr.dropWhile (fun step => !step.2.lists t)).all (fun step =>
      match step.2 with
      | .commit _ => false
      | _ => true)
  | _ => true

/-- What comes after an element comes after the first of its kind. -/
theorem mem_dropWhile {α : Type} (q : α → Bool) (a b : α) (ha : q a = true) (l : List α)
    (hsub : [a, b].Sublist l) : b ∈ l.dropWhile (fun x => !q x) := by
  induction l with
  | nil => exact (nomatch hsub)
  | cons x l ih =>
      by_cases hx : q x = true
      · rw [List.dropWhile_cons_of_neg (by rw [hx]; decide)]
        exact hsub.subset (List.mem_cons_of_mem _ List.mem_cons_self)
      · rw [List.dropWhile_cons_of_pos (by rw [Bool.eq_false_of_not_eq_true hx]; decide)]
        cases hsub with
        | cons _ hrest => exact ih hrest
        | cons_cons _ hrest => exact absurd ha hx

theorem timely_sound (h : TxHost) (p : String) (tr : List (Nat × TxOp)) (s : Server) (op : TxOp)
    (htest : timely tr op = true) : Timely h p tr s op := by
  rintro t rfl _ side x _ ⟨t', _, i, tenant, k, hsub⟩
  have hlists : TxOp.lists t (TxOp.within t ⟨tenant, side.list p⟩) = true := by
    cases side <;> exact beq_self_eq_true t
  have hlate := mem_dropWhile (fun step : Nat × TxOp => step.2.lists t) _ _ hlists tr hsub
  exact absurd (List.all_eq_true.mp htest _ hlate) Bool.false_ne_true

/-- The environment is created first, then the flag is created and committed,
    and only then the flags are listed. -/
def crossing : List Nat := List.replicate 8 1 ++ List.replicate 14 0 ++ List.replicate 10 1

/-- All four pairs have their row. -/
theorem state_rows_complete_crossing :
    (flagAndEnvironment crossing).shared.world.store.flags.length = 2 ∧
      (flagAndEnvironment crossing).shared.world.store.environments.length = 2 ∧
      ∀ f ∈ (flagAndEnvironment crossing).shared.world.store.flags,
        ∀ e ∈ (flagAndEnvironment crossing).shared.world.store.environments,
          f.projectID = "p1" → e.projectID = "p1" →
            (flagAndEnvironment crossing).shared.world.store.states.countP
              (FlagEnvironmentState.isFor f.id e.id) = 1 := by
  have hspawn : Pool.RunWhile (txExec rowHost) (backfillThread rowHost)
      (fun tr s _ op => Timely rowHost "p1" tr s op) ⟨{ world := rowShop }, []⟩ []
      ⟨{ world := rowShop }, [atServer (newFlag.serve rowHost.http) none >>= fun _ => Proc.ret (),
        atServer (newEnvironment.serve rowHost.http) none >>= fun _ => Proc.ret ()]⟩ :=
    Pool.RunWhile.spawn [] ⟨_, [_]⟩ _ (Pool.RunWhile.spawn [] ⟨_, []⟩ _ Pool.RunWhile.start
      ⟨newFlag, rfl⟩) ⟨newEnvironment, rfl⟩
  -- The listing comes after the other request's commit, so it meets the condition.
  rcases Pool.runWhile_follow _ (fun tr _ _ op => timely tr op)
    (fun tr s _ op => timely_sound rowHost "p1" tr s op) crossing _ _ hspawn
    (by decide +kernel) with ⟨tr, hrun⟩
  exact ⟨by decide +kernel, by decide +kernel,
    state_rows_complete rowHost "p1" rowShop rowShop_complete tr _ hrun⟩

/-- The flag lists the environments, the environment is created, lists the flags
    and is committed, and then so is the flag. Nobody adds the row of the two. -/
theorem state_row_missing :
    ¬ ∀ (h : TxHost) (p : String) (w : World), w.store.Complete p → (∀ n, h.commits n = true) →
      ∀ (tr : List (Nat × TxOp)) (P : Pool Err TxOp TxOp.Ret Server),
        Pool.Run (txExec h) (backfillThread h) ⟨{ world := w }, []⟩ tr P →
        (∀ q ∈ P.threads, Proc.Done q) →
        ∀ f ∈ P.shared.world.store.flags, ∀ e ∈ P.shared.world.store.environments,
          f.projectID = p → e.projectID = p →
            P.shared.world.store.states.countP (FlagEnvironmentState.isFor f.id e.id) = 1 := by
  intro hclaim
  have hspawn : Pool.Run (txExec rowHost) (backfillThread rowHost) ⟨{ world := rowShop }, []⟩ []
      ⟨{ world := rowShop }, [atServer (newFlag.serve rowHost.http) none >>= fun _ => Proc.ret (),
        atServer (newEnvironment.serve rowHost.http) none >>= fun _ => Proc.ret ()]⟩ :=
    Pool.Run.spawn [] ⟨_, [_]⟩ _ (Pool.Run.spawn [] ⟨_, []⟩ _ Pool.Run.start ⟨newFlag, rfl⟩)
      ⟨newEnvironment, rfl⟩
  -- The flag's transaction lists the environments, the environment's runs and commits
  -- whole, and then the flag's goes on.
  rcases Pool.run_follow _ _ _ (List.replicate 9 0 ++ List.replicate 11 1 ++ List.replicate 10 0)
    _ _ hspawn with ⟨tr, hrun⟩
  have hcount := hclaim rowHost "p1" rowShop rowShop_complete (fun _ => rfl) tr _ hrun
    (by decide +kernel)
    ⟨sampleUUID 5, "p1", "beta", "beta", .string, [⟨"on", ""⟩], "on", 6⟩ (by decide +kernel)
    ⟨sampleUUID 14, "p1", "Staging", "staging", 15⟩ (by decide +kernel) rfl rfl
  exact absurd hcount (by decide +kernel)

end Cuttlegate
