import Cuttlegate.Theory.Toggles

/-!
# What a Toggle Does

One operation of one toggle, in a pool of toggles: `toggle_step` says once what
it can do to the rows, to the log and to the phase of the toggle, and
`TogglesInv` ties the three together. The value of a row is always the last
that a committed write gave it, and the event of a toggle is always about the
row it wrote.

## Main definitions

* `Store.enabledAt`, `Store.rowOf`: The row of a toggle, and of an event.
* `held`: The values a row has held.
* `TogglesInv`: The database, the log and the notes agree.
* `ToggleStep`: What one operation can do.

## Theorems

* `setEnabled_rows`: What the write does to the rows.
* `toggle_step`: Every operation is one of these steps.
* `TogglesInv.step`: The database, the log and the notes go on to agree.
-/

namespace Cuttlegate

/-! ## Rows and events -/

/-- The value stored for a flag in an environment, if there is a row. -/
def Store.enabledAt (s : Store) (flagID environmentID : String) : Option Bool :=
  (s.states.find? (FlagEnvironmentState.isFor flagID environmentID)).map (fun st => st.enabled)

/-- The flag and the environment an event is about. -/
def Store.rowOf (s : Store) (e : FlagStateChangedEvent) : Option (String × String) :=
  (s.projectAt e.project).bind (fun proj =>
    (s.environmentAt proj.id e.environment).bind (fun env =>
      (s.flagAt proj.id e.flagKey).map (fun f => (f.id, env.id))))

/-- The value a committed write gave a row. -/
def Logged.valueFor (flagID environmentID : String) : Logged → Option Bool
  | .written (.setEnabled f e b) => if f = flagID ∧ e = environmentID then some b else none
  | _ => none

/-- The values a row has held, from the one at the start to the present. -/
def held (start : Store) (flagID environmentID : String) (log : List Logged) : List Bool :=
  (start.enabledAt flagID environmentID).toList ++
    log.filterMap (Logged.valueFor flagID environmentID)

/-! ## Rows -/

/-- The row of a flag in an environment is there or can be added. -/
def Store.Settable (s : Store) (flagID environmentID : String) : Prop :=
  s.states.any (FlagEnvironmentState.isFor flagID environmentID) = true ∨
    s.HasParents flagID environmentID

theorem setEnabled_settable (s : Store) (flagID environmentID : String) (enabled : Bool)
    (hset : s.Settable flagID environmentID) :
    ∃ s', setEnabled flagID environmentID enabled s = .ok ((), s') := by
  unfold setEnabled
  by_cases hany : s.states.any (FlagEnvironmentState.isFor flagID environmentID) = true
  · rw [if_pos hany]
    exact ⟨_, rfl⟩
  · rw [if_neg hany]
    have hparents := hset.resolve_left hany
    simp [refuseIf, hparents]

/-- What a toggle does to the rows. -/
theorem setEnabled_rows (s s' : Store) (flagID environmentID : String) (enabled : Bool) (u : Unit)
    (hok : setEnabled flagID environmentID enabled s = .ok (u, s')) :
    s.Settable flagID environmentID ∧
      (∀ f e, s'.enabledAt f e =
        if f = flagID ∧ e = environmentID then some enabled else s.enabledAt f e) ∧
      ∀ f e, s.Settable f e → s'.Settable f e := by
  have hfind := setEnabled_find flagID environmentID enabled s s' u hok
  have hvalue : ∀ f e, s'.enabledAt f e =
      if f = flagID ∧ e = environmentID then some enabled else s.enabledAt f e := by
    intro f e
    unfold Store.enabledAt
    rw [hfind]
    by_cases hrow : f = flagID ∧ e = environmentID
    · rw [if_pos hrow, if_pos hrow, Option.map_some]
    · rw [if_neg hrow, if_neg hrow]
  unfold setEnabled at hok
  -- An update when the row is there, an insert guarded by the foreign keys when it is not.
  by_cases hany : s.states.any (FlagEnvironmentState.isFor flagID environmentID) = true
  · rw [if_pos hany] at hok
    refine ⟨.inl hany, hvalue, fun f e hset => ?_⟩
    rw [ok_unit_inj _ _ _ hok]
    rcases hset with hset | hset
    · refine .inl ?_
      rw [List.any_map, isFor_rewritten]
      exact hset
    · exact .inr hset
  · rw [if_neg hany, bind_unit_ok, refuseIf_ok, not_not] at hok
    refine ⟨.inr hok.1, hvalue, fun f e hset => ?_⟩
    rw [ok_unit_inj _ _ _ hok.2]
    rcases hset with hset | hset
    · refine .inl ?_
      rw [List.any_append, hset, Bool.true_or]
    · exact .inr hset

/-! ## What one operation can do -/

/-- The tables that toggles look things up in are as they were. -/
structure Store.Fixed (start s : Store) : Prop where
  projects : s.projects = start.projects
  environments : s.environments = start.environments
  flags : s.flags = start.flags

/-- The database, the log and the notes agree. -/
structure TogglesInv (h : TxHost) (start : Store) (s : Server) (note : Nat → TxNote ToggleNote) :
    Prop where
  tracked : Tracked h s note
  fixed : start.Fixed s.world.store
  values : ∀ f e, s.world.store.enabledAt f e = (held start f e s.log).getLast?
  learnt : ∀ i, ∀ fact ∈ (note i).own.learnt, fact.Holds start
  idle : ∀ i, (note i).own.phase = .idle → (note i).writes = []
  written : ∀ i f e b, (note i).own.phase = .wrote f e b ∨ (note i).own.phase = .announced f e b →
    (note i).tx ≠ none → s.world.store.Settable f e ∧
      ∃ tenant, (note i).writes = [⟨tenant, .setEnabled f e b⟩]
  found : ∀ i, (note i).own.phase ≠ .lost

/-- The rows after a write. -/
def Store.After (s s' : Store) (flagID environmentID : String) (enabled : Bool) : Prop :=
  (∀ f e, s'.enabledAt f e =
    if f = flagID ∧ e = environmentID then some enabled else s.enabledAt f e) ∧
  ∀ f e, s.Settable f e → s'.Settable f e

/-- What one operation of a toggle can do, to the rows, to the log and to the
    phase of the toggle. -/
inductive ToggleStep (h : TxHost) (start : Store) (s s' : Server) (n n' : TxNote ToggleNote) :
    TxOp → Prop where
  | quiet (op : TxOp) (hstates : s'.world.store.states = s.world.store.states)
      (hlog : s'.log = s.log ∨ ∃ op, s'.log = s.log ++ [.written op] ∧
        ∀ f e, (Logged.written op).valueFor f e = none) (hphase : n'.own.phase = n.own.phase)
      (htx : n'.tx = n.tx ∨ n.own.phase = .idle) (hwrites : n'.writes = n.writes) :
      ToggleStep h start s s' n n' op
  | poolWrite (f e : String) (b : Bool) (hidle : n.own.phase = .idle) (htx : n.tx = none)
      (hrows : s.world.store.After s'.world.store f e b)
      (hlog : s'.log = s.log ++ [.written (.setEnabled f e b)])
      (hphase : n'.own.phase = .wrote f e b)
      (htx' : n'.tx = none) (hwrites : n'.writes = n.writes) :
      ToggleStep h start s s' n n' (.pool ⟨none, .setEnabled f e b⟩)
  | txWrite (t : Nat) (tenant : Option String) (f e : String) (b : Bool)
      (hidle : n.own.phase = .idle) (htx : n.tx = some t)
      (hstates : s'.world.store.states = s.world.store.states)
      (hset : s.world.store.Settable f e) (hlog : s'.log = s.log)
      (hphase : n'.own.phase = .wrote f e b) (htx' : n'.tx = some t)
      (hwrites : n'.writes = n.writes ++ [⟨tenant, .setEnabled f e b⟩]) :
      ToggleStep h start s s' n n' (.within t ⟨tenant, .setEnabled f e b⟩)
  | publish (tenant : Option String) (event : FlagStateChangedEvent) (f e : String)
      (hwrote : n.own.phase = .wrote f e event.enabled)
      (hrow : start.rowOf event = some (f, e)) (hplace : n.tx.isSome = tenant.isSome)
      (hstates : s'.world.store.states = s.world.store.states)
      (hlog : s'.log = s.log ++ [.published event] ∨
        (s'.log = s.log ∧ h.host.fails s.world.calls = true))
      (hphase : n'.own.phase = .announced f e event.enabled) (htx' : n'.tx = n.tx)
      (hwrites : n'.writes = n.writes) :
      ToggleStep h start s s' n n' (.pool ⟨tenant, .publish event⟩)
  | commit (t : Nat) (f e : String) (b : Bool) (hdone : n.own.phase = .announced f e b)
      (htx : n.tx = some t) (hrows : s.world.store.After s'.world.store f e b)
      (hlog : s'.log = s.log ++ [.written (.setEnabled f e b)]) (hphase : n'.own.phase = .idle)
      (htx' : n'.tx = none) (hwrites : n'.writes = []) : ToggleStep h start s s' n n' (.commit t)
  | ended (op : TxOp) (t : Nat) (htx : n.tx = some t)
      (hwhy : n.own.phase = .idle ∨ (op = .commit t ∧ h.commits s.world.calls = false))
      (hstates : s'.world.store.states = s.world.store.states) (hlog : s'.log = s.log)
      (hphase : n'.own.phase = .idle) (htx' : n'.tx = none) (hwrites : n'.writes = []) :
      ToggleStep h start s s' n n' op

section Steps

variable (h : TxHost) (start : Store) (s : Server) (n : TxNote ToggleNote)

/-- The event a toggle publishes is about the row it has written. -/
theorem rowOf_names (event : FlagStateChangedEvent) (f e : String)
    (hlearnt : ∀ fact ∈ n.own.learnt, fact.Holds start) (hnames : n.own.Names event f e) :
    start.rowOf event = some (f, e) := by
  rcases hnames with ⟨slug, proj, envSlug, env, flag, hproj, henv, hflag, hslug, henvSlug, rfl, rfl⟩
  have hproj' : start.projectAt slug = some proj := hlearnt _ hproj
  have henv' : start.environmentAt proj.id envSlug = some env := hlearnt _ henv
  have hflag' : start.flagAt proj.id event.flagKey = some flag := hlearnt _ hflag
  have hsame : proj.slug = slug := by simpa using List.find?_some hproj'
  have henvSame : env.slug = envSlug := (by simpa using List.find?_some henv' :
    env.projectID = proj.id ∧ env.slug = envSlug).2
  have hproject : event.project = slug := by
    rcases hslug with hslug | hslug
    · exact hslug
    · exact hslug.trans hsame
  unfold Store.rowOf
  rw [hproject, hproj', Option.bind_some, henvSlug, henvSame, henv', Option.bind_some, hflag',
    Option.map_some]

/-- An operation on the pool that is neither the write nor the event. -/
theorem step_aside (c : Call) (hc : c.op.writes ⊆ [.users, .auditEvents]) :
    (txExec h (.pool c) s).2.world.store.states = s.world.store.states ∧
      ((txExec h (.pool c) s).2.log = s.log ∨
        ∃ op, (txExec h (.pool c) s).2.log = s.log ++ [.written op] ∧
          ∀ f e, (Logged.written op).valueFor f e = none) := by
  refine ⟨exec_frame h.host c s.world .states (fun hmem => ?_), ?_⟩
  · exact absurd (hc hmem) (by decide)
  · simp only [txExec]
    by_cases hok : (exec h.host c s.world).1.isOk = true
    · rw [if_pos hok]
      rcases c with ⟨tenant, op⟩
      cases op <;> first
        | exact .inl (List.append_nil _)
        | exact .inr ⟨_, rfl, fun _ _ => rfl⟩
        | exact absurd (hc List.mem_cons_self) (by decide)
    · rw [if_neg hok]
      exact .inl rfl

/-- The write of a transaction, made on the committed database. -/
theorem entry_apply (entry : Entry) (tenant : Option String) (f e : String) (b : Bool)
    (hcall : entry.call = ⟨tenant, .setEnabled f e b⟩)
    (hfails : h.host.fails entry.world.calls = false) (st : Store) (hset : st.Settable f e) :
    st.After (entry.apply h.host st) f e b := by
  rcases setEnabled_settable st f e b hset with ⟨st', hst'⟩
  have happly : entry.apply h.host st = st' := by
    unfold Entry.apply
    rw [hcall]
    simp only [exec, hfails, Bool.false_and, Bool.false_eq_true, if_false, Op.perform,
      World.onStore, hst']
    rfl
  rw [happly]
  exact (setEnabled_rows st st' f e b () hst').2

/-- The clock always answers. -/
theorem exec_now (tenant : Option String) (w : World) (e : Err) :
    (exec h.host ⟨tenant, .now⟩ w).1 ≠ .error e := by
  simp [exec, Op.fallible, Op.perform]

/-- The note after an operation. -/
abbrev toggleAfter (op : TxOp) (r : Except Err op.Ret) : TxNote ToggleNote :=
  toggleRules.discipline.after op r n

/-- What one operation on the pool can do. -/
theorem toggle_step_pool (c : Call) (hn : n.own.phase ≠ .lost)
    (hlearnt : ∀ fact ∈ n.own.learnt, fact.Holds start) (hc : toggleRules.permits (.pool c) n) :
    ToggleStep h start s (txExec h (.pool c) s).2 n
      (toggleAfter n (.pool c) (txExec h (.pool c) s).1) (.pool c) := by
  have hown : (toggleAfter n (.pool c) (txExec h (.pool c) s).1).own =
      n.own.see c (exec h.host c s.world).1 := toggleRules_after (.pool c) _ hn
  rcases c with ⟨tenant, op⟩
  have hpermits := hc.resolve_left hn
  by_cases hwrite : ∃ f e b, op = .setEnabled f e b
  · rcases hwrite with ⟨f, e, b, rfl⟩
    rcases hpermits with ⟨rfl, htx, hidle⟩
    rcases exec_cases h.host ⟨none, .setEnabled f e b⟩ s.world with ⟨err, he⟩ | ⟨u, w', hp, he⟩
    · refine .quiet _ ?_ (.inl ?_) ?_ (.inl rfl) rfl
      · simp only [txExec, he, World.tick_store]
      · simp only [txExec, he]
        rfl
      · rw [hown, he]
        rfl
    · rcases World.onStore_ok _ _ _ _ hp with ⟨st', hst', rfl⟩
      refine .poolWrite f e b hidle htx ?_ ?_ ?_ htx rfl
      · simp only [txExec, he, World.tick_store]
        exact (setEnabled_rows _ _ f e b _ hst').2
      · simp only [txExec, he]
        rfl
      · rw [hown, he]
        rfl
  by_cases hpublish : ∃ event, op = .publish event
  · rcases hpublish with ⟨event, rfl⟩
    rcases hpermits with ⟨hplace, f, e, hwrote, hnames⟩
    refine .publish tenant event f e hwrote (rowOf_names start n event f e hlearnt hnames) hplace
      ?_ ?_ ?_ rfl rfl
    · exact exec_frame h.host _ s.world .states (by simp [Op.writes])
    · by_cases hfails : h.host.fails s.world.calls = true
      · refine .inr ⟨?_, hfails⟩
        simp [txExec, exec, hfails, Op.fallible, Except.isOk, Except.toBool]
      · refine .inl ?_
        simp [txExec, exec, hfails, Op.perform, Op.logged, Except.isOk, Except.toBool]
    · rw [hown]
      cases hr : (exec h.host ⟨tenant, .publish event⟩ s.world).1 <;>
        simp only [ToggleNote.see, hwrote]
  -- Everything else on the pool is beside the rows and the events.
  have haside : op.writes ⊆ [.users, .auditEvents] := by
    cases op <;> first
      | exact hpermits
      | exact absurd ⟨_, _, _, rfl⟩ hwrite
      | exact absurd ⟨_, rfl⟩ hpublish
  rcases step_aside h s ⟨tenant, op⟩ haside with ⟨hstates, hlog⟩
  refine .quiet _ hstates hlog ?_ (.inl rfl) rfl
  rw [hown]
  cases op <;> first
    | (cases hr : (exec h.host _ s.world).1 <;> first
        | rfl
        | exact absurd hr (exec_now h tenant s.world _))
    | exact absurd ⟨_, _, _, rfl⟩ hwrite
    | exact absurd ⟨_, rfl⟩ hpublish

/-- What one operation in the transaction can do. -/
theorem toggle_step_within (t : Nat) (c : Call) (hn : n.own.phase ≠ .lost) (htx : n.tx = some t)
    (hclean : n.own.phase = .idle → s.entries t = [])
    (hc : toggleRules.permits (.within t c) n) :
    ToggleStep h start s (txExec h (.within t c) s).2 n
      (toggleAfter n (.within t c) (txExec h (.within t c) s).1) (.within t c) := by
  have hown : (toggleAfter n (.within t c) (txExec h (.within t c) s).1).own =
      n.own.see c (exec h.host c (s.seen h.host t)).1 := toggleRules_after (.within t c) _ hn
  have hwrites : (toggleAfter n (.within t c) (txExec h (.within t c) s).1).writes =
      TxRules.writes (.within t c) (exec h.host c (s.seen h.host t)).1 n := rfl
  rcases c with ⟨tenant, op⟩
  have hpermits := hc.resolve_left hn
  by_cases hwrite : ∃ f e b, op = .setEnabled f e b
  · rcases hwrite with ⟨f, e, b, rfl⟩
    have hview : s.view h.host t = s.world.store := by
      unfold Server.view
      rw [hclean hpermits]
      rfl
    rcases exec_cases h.host ⟨tenant, .setEnabled f e b⟩ (s.seen h.host t) with
      ⟨err, he⟩ | ⟨u, w', hp, he⟩
    · refine .quiet _ rfl (.inl rfl) ?_ (.inl rfl) ?_
      · rw [hown, he]
        rfl
      · rw [hwrites, he]
        rfl
    · rcases World.onStore_ok _ _ _ _ hp with ⟨st', hst', rfl⟩
      refine .txWrite t tenant f e b hpermits htx rfl ?_ rfl ?_ htx ?_
      · rw [← hview]
        exact (setEnabled_rows _ _ f e b _ hst').1
      · rw [hown, he]
        rfl
      · rw [hwrites, he]
        rfl
  -- Everything else in the transaction is a read.
  have hread : op.writes = [] := by
    cases op <;> first
      | exact hpermits
      | exact absurd ⟨_, _, _, rfl⟩ hwrite
  have hkeep : TxRules.writes (.within t ⟨tenant, op⟩)
      (exec h.host ⟨tenant, op⟩ (s.seen h.host t)).1 n = n.writes := by
    have hstores : op.stores = false := by simp [Op.stores, hread]
    cases (exec h.host ⟨tenant, op⟩ (s.seen h.host t)).1 with
    | error e => rfl
    | ok a => exact if_neg (by simp [hstores])
  refine .quiet _ rfl (.inl rfl) ?_ (.inl rfl) (hwrites.trans hkeep)
  rw [hown]
  rcases see_read ⟨tenant, op⟩ hread (exec h.host ⟨tenant, op⟩ (s.seen h.host t)).1 n.own with
    hsame | hlost
  · exact hsame
  · cases op <;> first
      | (cases hr : (exec h.host _ (s.seen h.host t)).1 <;> first
          | rfl
          | exact absurd hr (exec_now h tenant _ _))
      | exact absurd ⟨_, _, _, rfl⟩ hwrite
      | exact absurd (show _ :: _ = [] from hread) (List.cons_ne_nil _ _)

end Steps

section Invariant

variable (h : TxHost) (start : Store) (s : Server) (note : Nat → TxNote ToggleNote)

/-- A transaction in which nothing was written changes nothing. -/
theorem view_clean (t : Nat) (hclean : s.entries t = []) : s.view h.host t = s.world.store := by
  unfold Server.view
  rw [hclean]
  rfl

/-- A commit stores the one write of the toggle, or nothing when there was none
    or the commit fails. -/
theorem toggle_step_commit (hJ : TogglesInv h start s note) (i t : Nat)
    (hown : (note i).tx = some t) (hop : toggleRules.permits (.commit t) (note i))
    (hclean : (note i).own.phase = .idle → s.entries t = []) :
    ToggleStep h start s (txExec h (.commit t) s).2 (note i)
      (toggleAfter (note i) (.commit t) (txExec h (.commit t) s).1) (.commit t) := by
  have hn := hJ.found i
  have hafter := toggleRules_after (n := note i) (.commit t) (txExec h (.commit t) s).1 hn
  have hphase : (toggleAfter (note i) (.commit t) (txExec h (.commit t) s).1).own.phase = .idle :=
    congrArg ToggleNote.phase hafter
  by_cases hcommits : h.commits s.world.calls = true
  · cases hcase : (note i).own.phase with
    | lost => exact absurd hcase hn
    | wrote f e b => exact absurd hcase (hop.resolve_left hn f e b)
    | idle =>
        have hempty := hclean hcase
        refine .ended _ t hown (.inl hcase) ?_ ?_ hphase rfl rfl
        · simp only [txExec, if_pos hcommits]
          rw [view_clean h s t hempty]
        · simp only [txExec, if_pos hcommits, hempty, List.flatMap_nil, List.append_nil]
    | announced f e b =>
        rcases hJ.written i f e b (.inr hcase) (by rw [hown]; simp) with
          ⟨hset, tenant, hwrites⟩
        -- The one entry is the write of this toggle.
        have hmap := hJ.tracked.writes i t hown
        rw [hwrites] at hmap
        rcases List.map_eq_singleton_iff.mp hmap with ⟨entry, hentries, hcall⟩
        have hmade := hJ.tracked.made t entry (by rw [hentries]; exact List.mem_singleton_self _)
        refine .commit t f e b hcase hown ?_ ?_ hphase rfl rfl
        · simp only [txExec, if_pos hcommits, Server.view, hentries, applied_single]
          exact entry_apply h entry tenant f e b hcall hmade.1 _ hset
        · simp only [txExec, if_pos hcommits, hentries, List.flatMap_cons, List.flatMap_nil,
            List.append_nil, hcall]
          rfl
  · have hfails := Bool.eq_false_of_not_eq_true hcommits
    refine .ended _ t hown (.inr ⟨rfl, hfails⟩) ?_ ?_ hphase rfl rfl
    · simp only [txExec, if_neg hcommits, World.tick_store]
    · simp only [txExec, if_neg hcommits]

/-- What one operation of a toggle can do. -/
theorem toggle_step (hJ : TogglesInv h start s note) (i : Nat) (op : TxOp)
    (hop : toggleRules.discipline.permits op (note i)) :
    ToggleStep h start s (txExec h op s).2 (note i)
      (toggleAfter (note i) op (txExec h op s).1) op := by
  rcases hop with ⟨hown, hop⟩
  have hn := hJ.found i
  have hafter := toggleRules_after (n := note i) op (txExec h op s).1 hn
  -- Before the write, the transaction has nothing to apply.
  have hclean : ∀ t, (note i).tx = some t → (note i).own.phase = .idle → s.entries t = [] := by
    intro t htx hidle
    have hwrites := hJ.tracked.writes i t htx
    rw [hJ.idle i hidle] at hwrites
    exact List.map_eq_nil_iff.mp hwrites
  cases op with
  | pool c => exact toggle_step_pool h start s (note i) c hn (hJ.learnt i) hop
  | within t c => exact toggle_step_within h start s (note i) t c hn hown (hclean t hown) hop
  | allow key =>
      exact .quiet _ rfl (.inl rfl) (congrArg ToggleNote.phase hafter)
        (.inl rfl) rfl
  | setTenantContext t id =>
      have hsame : (txExec h (.setTenantContext t id) s).2.world.store = s.world.store ∧
          (txExec h (.setTenantContext t id) s).2.log = s.log := by
        simp only [txExec]
        split <;> exact ⟨rfl, rfl⟩
      exact .quiet _ (by rw [hsame.1]) (.inl hsame.2) (congrArg ToggleNote.phase hafter)
        (.inl rfl) rfl
  | begin =>
      have hsame : (txExec h .begin s).2.world.store = s.world.store ∧
          (txExec h .begin s).2.log = s.log := by
        simp only [txExec]
        split <;> exact ⟨rfl, rfl⟩
      exact .quiet _ (by rw [hsame.1]) (.inl hsame.2) (congrArg ToggleNote.phase hafter)
        (.inr (hop.resolve_left hn)) rfl
  | rollback t =>
      exact .ended _ t hown (.inl (hop.resolve_left hn)) rfl rfl
        (congrArg ToggleNote.phase hafter) rfl rfl
  | commit t => exact toggle_step_commit h start s note hJ i t hown hop (hclean t hown)

/-- The writes of a toggle are to one table. -/
theorem entries_states (hJ : TogglesInv h start s note) (i t : Nat) (htx : (note i).tx = some t) :
    ∀ entry ∈ s.entries t, entry.call.op.writes = [.states] := by
  -- What the transaction has written is what its phase says: nothing, or the one toggle.
  have hall : ∀ c ∈ (note i).writes, c.op.writes = [.states] := by
    intro c hc
    cases hcase : (note i).own.phase with
    | lost => exact absurd hcase (hJ.found i)
    | idle =>
        rw [hJ.idle i hcase] at hc
        exact absurd hc List.not_mem_nil
    | wrote f e b =>
        rcases hJ.written i f e b (.inl hcase) (by rw [htx]; exact (nomatch ·)) with
          ⟨_, tenant, hwrites⟩
        rw [hwrites, List.mem_singleton] at hc
        rw [hc]
        rfl
    | announced f e b =>
        rcases hJ.written i f e b (.inr hcase) (by rw [htx]; exact (nomatch ·)) with
          ⟨_, tenant, hwrites⟩
        rw [hwrites, List.mem_singleton] at hc
        rw [hc]
        rfl
  intro entry hentry
  refine hall entry.call ?_
  rw [← hJ.tracked.writes i t htx]
  exact List.mem_map_of_mem hentry

/-- A transaction sees the tables of the start. -/
theorem view_fixed (hJ : TogglesInv h start s note) (i t : Nat) (htx : (note i).tx = some t) :
    start.Fixed (s.view h.host t) := by
  have hsame : ∀ tbl, tbl ≠ .states →
      s.world.Same { s.world with store := s.view h.host t } tbl := by
    intro tbl htbl
    refine applied_same h.host (s.entries t) tbl (fun entry hentry hmem => ?_) s.world
    rw [entries_states h start s note hJ i t htx entry hentry, List.mem_singleton] at hmem
    exact htbl hmem
  refine ⟨?_, ?_, ?_⟩
  · exact (hsame .projects (by decide)).trans hJ.fixed.projects
  · exact (hsame .environments (by decide)).trans hJ.fixed.environments
  · exact (hsame .flags (by decide)).trans hJ.fixed.flags

/-- The tables toggles look things up in stay as they are. -/
theorem fixed_step (hJ : TogglesInv h start s note) (i : Nat) (op : TxOp)
    (hop : toggleRules.discipline.permits op (note i)) :
    start.Fixed (txExec h op s).2.world.store := by
  rcases hop with ⟨hown, hop⟩
  have hn := hJ.found i
  cases op with
  | pool c =>
      have hpermits := hop.resolve_left hn
      -- A toggle request writes none of the tables that name the row.
      have haside : c.op.writes ⊆ [.states, .published, .users, .auditEvents] := by
        rcases c with ⟨tenant, op⟩
        cases op <;> first
          | exact List.Subset.trans hpermits (by simp)
          | simp [Op.writes]
      have hsame : ∀ tbl, tbl ∉ [Tbl.states, .published, .users, .auditEvents] →
          s.world.Same (exec h.host c s.world).2 tbl :=
        fun tbl htbl => exec_frame h.host c s.world tbl (fun hmem => htbl (haside hmem))
      exact ⟨(hsame .projects (by decide)).trans hJ.fixed.projects,
        (hsame .environments (by decide)).trans hJ.fixed.environments,
        (hsame .flags (by decide)).trans hJ.fixed.flags⟩
  | commit t =>
      simp only [txExec]
      by_cases hcommits : h.commits s.world.calls = true
      · rw [if_pos hcommits]
        exact view_fixed h start s note hJ i t hown
      · rw [if_neg hcommits]
        exact hJ.fixed
  | setTenantContext t id =>
      simp only [txExec]
      split <;> exact hJ.fixed
  | begin =>
      simp only [txExec]
      split <;> exact hJ.fixed
  | within t c => exact hJ.fixed
  | rollback t => exact hJ.fixed
  | allow key => exact hJ.fixed

/-- A connection sees all rows of the project it is asked about, or none. -/
theorem find_seen {α : Type} (conn : Conn) (rows : List α) (proj : α → String) (q : α → Bool)
    (projectID : String) (a : α)
    (hfind : rows.find? (fun x => conn.sees (proj x) && proj x == projectID && q x) = some a) :
    rows.find? (fun x => proj x == projectID && q x) = some a := by
  have ha := List.find?_some hfind
  rw [Bool.and_eq_true, Bool.and_eq_true, beq_iff_eq] at ha
  have hsees : conn.sees projectID = true := by
    rw [← ha.1.2]
    exact ha.1.1
  have hsame : (fun x => conn.sees (proj x) && proj x == projectID && q x) =
      fun x => proj x == projectID && q x := by
    funext x
    by_cases hx : proj x = projectID
    · rw [hx, hsees, Bool.true_and]
    · rw [beq_eq_false_iff_ne.mpr hx, Bool.and_false]
  rw [← hsame]
  exact hfind

/-- What a lookup finds in the tables of the start is there. -/
theorem see_holds (c : Call) (w : World) (hw : start.Fixed w.store) (n : ToggleNote)
    (hn : ∀ fact ∈ n.learnt, fact.Holds start) :
    ∀ fact ∈ (n.see c (exec h.host c w).1).learnt, fact.Holds start := by
  rcases c with ⟨tenant, op⟩
  -- A failed call teaches nothing; a lookup that succeeds teaches what the fixed tables
  -- say.
  rcases exec_cases h.host ⟨tenant, op⟩ w with ⟨e, he⟩ | ⟨a, w', hp, he⟩
  · rw [he]
    cases op <;> first
      | exact hn
      | (simp only [ToggleNote.see]; split <;> exact hn)
  rw [he]
  cases op with
  | projectBySlug slug =>
      have hfound := (World.onStore_queryRow _ _ _ _ hp).1
      rw [hw.projects] at hfound
      exact List.forall_mem_cons.mpr ⟨hfound, hn⟩
  | environmentBySlug projectID slug =>
      have hfound := find_seen _ _ _ _ _ _ (World.onStore_queryRow _ _ _ _ hp).1
      rw [hw.environments] at hfound
      exact List.forall_mem_cons.mpr ⟨hfound, hn⟩
  | flagByKey projectID key =>
      have hfound := find_seen _ _ _ _ _ _ (World.onStore_queryRow _ _ _ _ hp).1
      rw [hw.flags] at hfound
      exact List.forall_mem_cons.mpr ⟨hfound, hn⟩
  | publish event =>
      simp only [ToggleNote.see]
      split <;> exact hn
  | _ => exact hn

theorem held_append (f e : String) (log : List Logged) (x : Logged) :
    held start f e (log ++ [x]) = held start f e log ++ (x.valueFor f e).toList := by
  unfold held
  rw [List.filterMap_append, ← List.append_assoc]
  cases hx : x.valueFor f e with
  | none => simp [hx]
  | some b => simp [hx]

theorem enabledAt_congr (st st' : Store) (hstates : st'.states = st.states) (f e : String) :
    st'.enabledAt f e = st.enabledAt f e := by
  unfold Store.enabledAt
  rw [hstates]

theorem settable_fixed (st st' : Store) (hst : start.Fixed st) (hst' : start.Fixed st')
    (hstates : st'.states = st.states) (f e : String) (hset : st.Settable f e) :
    st'.Settable f e := by
  unfold Store.Settable Store.HasParents at *
  rw [hstates, hst'.flags, hst'.environments]
  rw [hst.flags, hst.environments] at hset
  exact hset

/-- The value of a row is the last it was given. -/
theorem values_step (s' : Server) (n n' : TxNote ToggleNote) (op : TxOp)
    (hvalues : ∀ f e, s.world.store.enabledAt f e = (held start f e s.log).getLast?)
    (hstep : ToggleStep h start s s' n n' op) (f e : String) :
    s'.world.store.enabledAt f e = (held start f e s'.log).getLast? := by
  -- The two steps that change the row log the change as they make it.
  have hwrite : ∀ f' e' b, s.world.store.After s'.world.store f' e' b →
      s'.log = s.log ++ [.written (.setEnabled f' e' b)] →
      s'.world.store.enabledAt f e = (held start f e s'.log).getLast? := by
    intro f' e' b hrows hlog
    rw [hrows.1, hlog, held_append]
    by_cases hrow : f = f' ∧ e = e'
    · rw [if_pos hrow]
      simp [Logged.valueFor, hrow.1, hrow.2]
    · rw [if_neg hrow]
      have hother : ¬ (f' = f ∧ e' = e) := fun heq => hrow ⟨heq.1.symm, heq.2.symm⟩
      simp [Logged.valueFor, hother, hvalues]
  cases hstep with
  | quiet _ hstates hlog =>
      rw [enabledAt_congr _ _ hstates, hvalues]
      rcases hlog with hlog | ⟨op, hlog, haside⟩
      · rw [hlog]
      · rw [hlog, held_append, haside, Option.toList_none, List.append_nil]
  | poolWrite f' e' b _ _ hrows hlog => exact hwrite f' e' b hrows hlog
  | txWrite t tenant f' e' b _ _ hstates _ hlog =>
      rw [enabledAt_congr _ _ hstates, hvalues, hlog]
  | publish tenant event f' e' _ _ _ hstates hlog =>
      rw [enabledAt_congr _ _ hstates, hvalues]
      rcases hlog with hlog | ⟨hlog, _⟩
      · rw [hlog, held_append]
        simp [Logged.valueFor]
      · rw [hlog]
  | commit t f' e' b _ _ hrows hlog => exact hwrite f' e' b hrows hlog
  | ended _ t _ _ hstates hlog => rw [enabledAt_congr _ _ hstates, hvalues, hlog]

/-- A row that can be set stays so. -/
theorem settable_step (s' : Server) (n n' : TxNote ToggleNote) (op : TxOp)
    (hfixed : start.Fixed s.world.store) (hfixed' : start.Fixed s'.world.store)
    (hstep : ToggleStep h start s s' n n' op) (f e : String)
    (hset : s.world.store.Settable f e) : s'.world.store.Settable f e := by
  cases hstep with
  | quiet _ hstates => exact settable_fixed start _ _ hfixed hfixed' hstates f e hset
  | poolWrite f' e' b _ _ hrows => exact hrows.2 f e hset
  | txWrite t tenant f' e' b _ _ hstates =>
      exact settable_fixed start _ _ hfixed hfixed' hstates f e hset
  | publish tenant event f' e' _ _ _ hstates =>
      exact settable_fixed start _ _ hfixed hfixed' hstates f e hset
  | commit t f' e' b _ _ hrows => exact hrows.2 f e hset
  | ended _ t _ _ hstates => exact settable_fixed start _ _ hfixed hfixed' hstates f e hset

/-- What a toggle has learnt holds. -/
theorem learnt_step (hJ : TogglesInv h start s note) (i : Nat) (op : TxOp)
    (hop : toggleRules.discipline.permits op (note i)) :
    ∀ fact ∈ (toggleAfter (note i) op (txExec h op s).1).own.learnt, fact.Holds start := by
  have hafter := toggleRules_after (n := note i) op (txExec h op s).1 (hJ.found i)
  change ∀ fact ∈ (toggleRules.after op (txExec h op s).1 (note i)).learnt, fact.Holds start
  rw [hafter]
  cases op with
  | pool c => exact see_holds h start c s.world hJ.fixed _ (hJ.learnt i)
  | within t c =>
      exact see_holds h start c (s.seen h.host t) (view_fixed h start s note hJ i t hop.1) _
        (hJ.learnt i)
  | _ => exact hJ.learnt i

section Notes

variable (i : Nat) (s' : Server) (n' : TxNote ToggleNote) (op : TxOp)

/-- An idle toggle has written nothing in its transaction. -/
theorem TogglesInv.idle_step (hJ : TogglesInv h start s note)
    (hstep : ToggleStep h start s s' (note i) n' op) (hidle : n'.own.phase = .idle) :
    n'.writes = [] := by
  cases hstep with
  | quiet _ _ _ hphase _ hwrites =>
      rw [hwrites]
      exact hJ.idle i (hphase.symm.trans hidle)
  | poolWrite f e b _ _ _ _ hphase => exact (nomatch hphase.symm.trans hidle)
  | txWrite t tenant f e b _ _ _ _ _ hphase => exact (nomatch hphase.symm.trans hidle)
  | publish tenant event f e _ _ _ _ _ hphase => exact (nomatch hphase.symm.trans hidle)
  | commit t f e b _ _ _ _ _ _ hwrites => exact hwrites
  | ended _ t _ _ _ _ _ _ hwrites => exact hwrites

/-- A toggle that has written in its transaction has one write there, of a row
    that can be set. -/
theorem TogglesInv.written_step (hJ : TogglesInv h start s note)
    (hset : ∀ f e, s.world.store.Settable f e → s'.world.store.Settable f e)
    (hstep : ToggleStep h start s s' (note i) n' op) (f e : String) (b : Bool)
    (hbusy : n'.own.phase = .wrote f e b ∨ n'.own.phase = .announced f e b)
    (htx : n'.tx ≠ none) :
    s'.world.store.Settable f e ∧ ∃ tenant, n'.writes = [⟨tenant, .setEnabled f e b⟩] := by
  cases hstep with
  | quiet _ _ _ hphase htx' hwrites =>
      rw [hphase] at hbusy
      -- A quiet step in mid-toggle keeps the transaction it is in.
      have hsame := htx'.resolve_right (fun hidle => by
        rw [hidle] at hbusy
        rcases hbusy with hbusy | hbusy <;> exact (nomatch hbusy))
      rw [hsame] at htx
      rcases hJ.written i f e b hbusy htx with ⟨hrow, hcall⟩
      rw [hwrites]
      exact ⟨hset f e hrow, hcall⟩
  | poolWrite _ _ _ _ _ _ _ _ htx' => exact absurd htx' htx
  | txWrite t tenant f' e' b' hidle _ _ hrow _ hphase _ hwrites =>
      rw [hphase] at hbusy
      rcases hbusy with hbusy | hbusy
      · rw [Phase.wrote.injEq] at hbusy
        rcases hbusy with ⟨rfl, rfl, rfl⟩
        rw [hwrites, hJ.idle i hidle]
        exact ⟨hset f' e' hrow, tenant, rfl⟩
      · exact (nomatch hbusy)
  | publish tenant event f' e' hwrote _ _ _ _ hphase htx' hwrites =>
      rw [hphase] at hbusy
      rcases hbusy with hbusy | hbusy
      · exact (nomatch hbusy)
      · rw [Phase.announced.injEq] at hbusy
        rcases hbusy with ⟨rfl, rfl, rfl⟩
        rw [htx'] at htx
        rcases hJ.written i f' e' event.enabled (.inl hwrote) htx with ⟨hrow, hcall⟩
        rw [hwrites]
        exact ⟨hset f' e' hrow, hcall⟩
  | commit _ _ _ _ _ _ _ _ _ htx' => exact absurd htx' htx
  | ended _ _ _ _ _ _ _ htx' => exact absurd htx' htx

/-- No toggle loses track of what it does. -/
theorem TogglesInv.found_step (hJ : TogglesInv h start s note)
    (hstep : ToggleStep h start s s' (note i) n' op) : n'.own.phase ≠ .lost := by
  intro hlost
  cases hstep with
  | quiet _ _ _ hphase => exact hJ.found i (hphase.symm.trans hlost)
  | poolWrite f e b _ _ _ _ hphase => exact (nomatch hphase.symm.trans hlost)
  | txWrite t tenant f e b _ _ _ _ _ hphase => exact (nomatch hphase.symm.trans hlost)
  | publish tenant event f e _ _ _ _ _ hphase => exact (nomatch hphase.symm.trans hlost)
  | commit t f e b _ _ _ _ hphase => exact (nomatch hphase.symm.trans hlost)
  | ended _ t _ _ _ _ hphase => exact (nomatch hphase.symm.trans hlost)

end Notes

/-- The database, the log and the notes go on to agree. -/
theorem TogglesInv.step (hJ : TogglesInv h start s note) (i : Nat) (op : TxOp)
    (hop : toggleRules.discipline.permits op (note i)) :
    TogglesInv h start (txExec h op s).2
      (Function.update note i (toggleAfter (note i) op (txExec h op s).1)) := by
  have hstep := toggle_step h start s note hJ i op hop
  have hfixed := fixed_step h start s note hJ i op hop
  have htracked := hJ.tracked.step h toggleRules s note i op hop
  have hset := settable_step h start s _ _ _ op hJ.fixed hfixed hstep
  -- Only the note of the toggle that moved is another one.
  refine ⟨htracked, hfixed, values_step h start s _ _ _ op hJ.values hstep, fun j => ?_,
    fun j hj => ?_, fun j f e b hj htx => ?_, fun j => ?_⟩
  · by_cases hji : j = i
    · rw [hji, Function.update_self]
      exact learnt_step h start s note hJ i op hop
    · rw [Function.update_of_ne hji]
      exact hJ.learnt j
  · by_cases hji : j = i
    · rw [hji, Function.update_self] at hj ⊢
      exact hJ.idle_step h start s note i _ _ op hstep hj
    · rw [Function.update_of_ne hji] at hj ⊢
      exact hJ.idle j hj
  · by_cases hji : j = i
    · rw [hji, Function.update_self] at hj htx ⊢
      exact hJ.written_step h start s note i _ _ op hset hstep f e b hj htx
    · rw [Function.update_of_ne hji] at hj htx ⊢
      rcases hJ.written j f e b hj htx with ⟨hrow, hwrites⟩
      exact ⟨hset f e hrow, hwrites⟩
  · by_cases hji : j = i
    · rw [hji, Function.update_self]
      exact hJ.found_step h start s note i _ _ op hstep
    · rw [Function.update_of_ne hji]
      exact hJ.found j

end Invariant

end Cuttlegate
