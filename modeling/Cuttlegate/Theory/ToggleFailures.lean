import Cuttlegate.Theory.AuditLog
import Cuttlegate.Theory.ToggleEvents

/-!
# Failing Toggles

What a toggle leaves behind when one of its steps fails.

A toggle writes the state row, publishes an event and records an audit event,
in this order. The publisher is asked on a best-effort basis, and so is the
audit log for a call without a source; for a call of the tool server, which
names one, a missing audit event is an error. By then the row is written and
the event is out, and neither is taken back.

The run is described once, with every failure of its steps
(`ends_setEnabled`). A toggle that fails before or at the write of the row has
no effect. After that only the audit log can still fail it, and what can go
wrong there is `Auditable`: a statement, an id that is already taken, a project
that is gone, or row-level security, under which the pool may not write the
row.

## Main definitions

* `Togglable`: The row of the flag is written.
* `Auditable`: An audit event can be recorded.
* `RowToggled`: What a toggle leaves once the row is written.
* `FailsClean`: A failed toggle has no effect, and a recorded one its event.

## Theorems

* `recordAuditErr_run`: Recording, with every point at which it can fail.
* `ends_setEnabled`: A toggle, likewise.
* `RowToggled.idle_iff`, `RowToggled.fails_iff`: When a toggle has no effect,
  and when it fails.
* `setEnabled_clean_iff`: When a failed toggle has no effect.
-/

namespace Cuttlegate

/-! ## Recording an audit event -/

/-- An event of the project can be recorded by the operations from `n` on. -/
structure Auditable (h : Host) (projectID : String) (n : Nat) (s : Store) : Prop where
  draw : h.fails n = false
  insert : h.fails (n + 2) = false
  fresh : ∃ id, h.newUUID n = some id ∧ ∀ b ∈ s.auditEvents, b.id ≠ id
  accepted : Accepted h.rls s projectID

/-- The pool may not write an event whose id is taken or that is not accepted. -/
theorem recordAuditEvent_error (rls : Bool) (event : AuditEvent) (s : Store)
    (hno : ¬ ((∀ b ∈ s.auditEvents, b.id ≠ event.id) ∧ Accepted rls s event.projectID)) :
    ∃ e, recordAuditEvent ⟨none, rls⟩ event s = .error e := by
  cases hrecord : recordAuditEvent ⟨none, rls⟩ event s with
  | error e => exact ⟨e, rfl⟩
  | ok out =>
      have hfresh := (recordAuditEvent_ok _ event _ out.2 out.1 hrecord).2.1
      have hnot : ¬ Accepted rls s event.projectID := fun hacc => hno ⟨hfresh, hacc⟩
      rcases recordAuditEvent_refused rls event s hnot with ⟨e, he⟩
      rw [hrecord] at he
      exact (nomatch he)

/-- An event is recorded, or the attempt fails and leaves nothing. -/
theorem recordAuditErr_run (h : Host) (ctx : Ctx) (entry : AuditEntry) (w : World) :
    (Auditable h entry.projectID w.calls w.store ∧ ∃ actorID id now,
        Proc.run (exec h) (recordAuditErr ctx entry) w = (.ok (), { w with
          store := { w.store with
            auditEvents := w.store.auditEvents ++ [entry.event actorID id now] }
          calls := w.calls + 3 })) ∨
      (¬ Auditable h entry.projectID w.calls w.store ∧ ∃ e n,
        Proc.run (exec h) (recordAuditErr ctx entry) w = (.error e, { w with calls := n })) := by
  unfold recordAuditErr
  by_cases hdraw : h.fails w.calls = true
  · refine .inr ⟨fun ha => ?_, _, _, run_call_failing ctx _ _ w hdraw rfl⟩
    rw [ha.draw] at hdraw
    exact absurd hdraw Bool.false_ne_true
  rw [Bool.not_eq_true] at hdraw
  cases hid : h.newUUID w.calls with
  | none =>
      have hperform : Op.perform h ⟨ctx.tenant, h.rls⟩ w .newUUID = .error .internal := by
        simp only [Op.perform, World.draw, hid]
      refine .inr ⟨fun ha => ?_, _, _, run_call_error ctx _ _ w _ hdraw hperform⟩
      rcases ha.fresh with ⟨id, hdrawn, _⟩
      rw [hid] at hdrawn
      cases hdrawn
  | some id =>
      have hperform : Op.perform h ⟨ctx.tenant, h.rls⟩ w .newUUID = .ok (id, w) := by
        simp only [Op.perform, World.draw, hid]
      rw [run_call_ok ctx _ _ w w id hdraw hperform]
      -- The clock cannot fail.
      have hnow : exec h ⟨ctx.tenant, .now⟩ w.tick = (.ok (h.now w.tick.calls), w.tick.tick) := by
        simp [exec, Op.fallible, Op.perform]
      rw [Proc.run_bind, Ctx.call, Proc.run_call, hnow]
      simp only [Ctx.call, Proc.run_call]
      generalize hevent : AuditEvent.mk id entry.projectID _ entry.action "flag" entry.entityID
        entry.entityKey entry.environmentSlug entry.source entry.before entry.after
        (h.now w.tick.calls) = event
      have hfields : ∃ actorID, event = entry.event actorID id (h.now w.tick.calls) :=
        ⟨_, hevent.symm⟩
      clear hevent
      rcases hfields with ⟨actorID, rfl⟩
      set event := entry.event actorID id (h.now w.tick.calls)
      by_cases hinsert : h.fails (w.calls + 2) = true
      · rw [exec_failing h ⟨ctx.tenant, .recordAudit event⟩ w.tick.tick hinsert rfl]
        refine .inr ⟨fun ha => ?_, _, _, rfl⟩
        rw [ha.insert] at hinsert
        exact absurd hinsert Bool.false_ne_true
      rw [Bool.not_eq_true] at hinsert
      rw [exec_passing h ⟨ctx.tenant, .recordAudit event⟩ w.tick.tick hinsert]
      simp only [Op.perform, World.onStore, Conn.pool, World.tick_store]
      by_cases hok : (∀ b ∈ w.store.auditEvents, b.id ≠ id) ∧ Accepted h.rls w.store entry.projectID
      · have hrecord := recordAuditEvent_accepted h.rls event w.store hok.1 hok.2
        rw [hrecord]
        exact .inl ⟨⟨hdraw, hinsert, ⟨id, hid, hok.1⟩, hok.2⟩, actorID, id, h.now w.tick.calls, rfl⟩
      · rcases recordAuditEvent_error h.rls event w.store hok with ⟨e, he⟩
        rw [he]
        refine .inr ⟨fun ha => ?_, e, _, rfl⟩
        rcases ha.fresh with ⟨id', hdrawn, hfresh⟩
        rw [hid, Option.some.injEq] at hdrawn
        rw [← hdrawn] at hfresh
        exact hok ⟨hfresh, ha.accepted⟩

/-! ## A toggle -/

/-- The entry of a toggle of the flag. -/
def SetEnabledParams.entry (params : SetEnabledParams) (f : Flag) : AuditEntry :=
  { action := "flag.state_changed", entityID := f.id, entityKey := params.flagKey
    projectID := params.projectID, environmentSlug := params.envSlug
    before := if params.enabled then "disabled" else "enabled"
    after := if params.enabled then "enabled" else "disabled"
    source := params.source }

/-- A toggle passes its check and its lookup, and its row is there or can be
    inserted. -/
structure Togglable (h : Host) (ctx : Ctx) (params : SetEnabledParams) (w : World) (f : Flag) :
    Prop where
  role : ∃ ac, ctx.auth = some ac ∧ roleLevel .editor ≤ roleLevel ac.role
  lookup : h.fails w.calls = false
  found : flagByKey ⟨ctx.tenant, h.rls⟩ params.projectID params.flagKey w.store = .ok (f, w.store)
  write : h.fails (w.calls + 1) = false
  row : w.store.states.any (FlagEnvironmentState.isFor f.id params.environmentID) = true ∨
    w.store.HasParents f.id params.environmentID

/-- The world after a toggle that wrote its row. The publisher was asked once,
    and so was the audit log. -/
structure RowToggled (h : Host) (params : SetEnabledParams) (f : Flag) (w : World)
    (r : Except Err Unit) (w' : World) : Prop where
  written : ∃ s,
    Cuttlegate.setEnabled f.id params.environmentID params.enabled w.store = .ok ((), s) ∧
    w'.store.states = s.states
  flags : w'.store.flags = w.store.flags
  published : h.fails (w.calls + 3) = false → ∃ e, w'.published = w.published ++ [e]
  unpublished : h.fails (w.calls + 3) = true → w'.published = w.published
  recorded : Auditable h params.projectID (w.calls + 4) w.store → r = .ok () ∧
    ∃ actorID id now,
      w'.store.auditEvents = w.store.auditEvents ++ [(params.entry f).event actorID id now]
  lost : ¬ Auditable h params.projectID (w.calls + 4) w.store →
    w'.store.auditEvents = w.store.auditEvents ∧ (r = .ok () ↔ params.source = "")

/-- The tables a write of a row leaves alone. -/
theorem setEnabled_keeps (flagID environmentID : String) (enabled : Bool) (s s' : Store)
    (h : Cuttlegate.setEnabled flagID environmentID enabled s = .ok ((), s')) :
    s'.flags = s.flags ∧ s'.auditEvents = s.auditEvents ∧ s'.projects = s.projects := by
  rcases setEnabled_ok _ _ _ _ _ _ h with rfl | ⟨_, rfl⟩
  · exact ⟨rfl, rfl, rfl⟩
  · exact ⟨rfl, rfl, rfl⟩

/-- Recording looks at the audit log and the projects alone. -/
theorem Auditable.congr (h : Host) (projectID : String) (n : Nat) (s s' : Store)
    (haudits : s'.auditEvents = s.auditEvents) (hprojects : s'.projects = s.projects) :
    Auditable h projectID n s' ↔ Auditable h projectID n s := by
  constructor
  · rintro ⟨hdraw, hinsert, hfresh, haccepted⟩
    rw [haudits] at hfresh
    rw [Accepted, hprojects] at haccepted
    exact ⟨hdraw, hinsert, hfresh, haccepted⟩
  · rintro ⟨hdraw, hinsert, hfresh, haccepted⟩
    rw [← haudits] at hfresh
    rw [Accepted, ← hprojects] at haccepted
    exact ⟨hdraw, hinsert, hfresh, haccepted⟩

/-- The last step of a toggle, from the world in which its event is out. -/
theorem toggle_recording (h : Host) (ctx : Ctx) (params : SetEnabledParams) (f : Flag) (w : World) :
    ∀ r w', Proc.run (exec h) (if params.source ≠ "" then recordAuditErr ctx (params.entry f)
        else recordAudit ctx (params.entry f)) w = (r, w') →
      w'.store.states = w.store.states ∧ w'.store.flags = w.store.flags ∧
        w'.published = w.published ∧
        (Auditable h params.projectID w.calls w.store → r = .ok () ∧ ∃ actorID id now,
          w'.store.auditEvents = w.store.auditEvents ++ [(params.entry f).event actorID id now]) ∧
        (¬ Auditable h params.projectID w.calls w.store →
          w'.store.auditEvents = w.store.auditEvents ∧ (r = .ok () ↔ params.source = "")) := by
  intro r w' hrun
  have hbest : Proc.run (exec h) (recordAudit ctx (params.entry f)) w =
      (.ok (), (Proc.run (exec h) (recordAuditErr ctx (params.entry f)) w).2) :=
    run_bestEffort h _ w
  rcases recordAuditErr_run h ctx (params.entry f) w with
    ⟨haudit, actorID, id, now, hrecord⟩ | ⟨hlost, e, n, hrecord⟩
  · have hout : Proc.run (exec h) (recordAuditErr ctx (params.entry f)) w = (r, w') := by
      by_cases hsource : params.source ≠ ""
      · rw [if_pos hsource] at hrun
        exact hrun
      · rw [if_neg hsource, hbest, hrecord] at hrun
        rw [hrecord]
        exact hrun
    rw [hrecord, Prod.mk.injEq] at hout
    rw [← hout.1, ← hout.2]
    exact ⟨rfl, rfl, rfl, fun _ => ⟨rfl, actorID, id, now, rfl⟩, fun hnot => absurd haudit hnot⟩
  · by_cases hsource : params.source ≠ ""
    · rw [if_pos hsource, hrecord, Prod.mk.injEq] at hrun
      rw [← hrun.1, ← hrun.2]
      exact ⟨rfl, rfl, rfl, fun haudit => absurd haudit hlost, fun _ => ⟨rfl, by simp [hsource]⟩⟩
    · rw [if_neg hsource, hbest, hrecord, Prod.mk.injEq] at hrun
      rw [← hrun.1, ← hrun.2]
      exact ⟨rfl, rfl, rfl, fun haudit => absurd haudit hlost,
        fun _ => ⟨rfl, by simpa using hsource⟩⟩

/-- What follows the write of the row. -/
theorem rowToggled_announce (h : Host) (ctx : Ctx) (params : SetEnabledParams) (f : Flag)
    (w : World) (s : Store)
    (hset : Cuttlegate.setEnabled f.id params.environmentID params.enabled w.store = .ok ((), s)) :
    RowToggled h params f w
      (Proc.run (exec h) (FlagService.announce ctx params f)
        ({ w.tick with store := s } : World).tick).1
      (Proc.run (exec h) (FlagService.announce ctx params f)
        ({ w.tick with store := s } : World).tick).2 := by
  rcases setEnabled_keeps _ _ _ _ _ hset with ⟨hflags, haudits, hprojects⟩
  unfold FlagService.announce
  -- The clock cannot fail, and a failing publisher is not minded.
  have hnow : ∀ w : World, exec h ⟨ctx.tenant, .now⟩ w = (.ok (h.now w.calls), w.tick) := by
    intro w
    simp [exec, Op.fallible, Op.perform]
  rw [Proc.run_bind, Ctx.call, Proc.run_call, hnow]
  simp only
  rw [Proc.run_bind, run_bestEffort]
  simp only [Ctx.call, Proc.run_call]
  generalize hevent : FlagStateChangedEvent.mk params.projectSlug params.envSlug params.flagKey
    params.enabled _ = event
  have hpublish : ∃ w₁ : World, (exec h ⟨ctx.tenant, .publish event⟩
        (({ w.tick with store := s } : World).tick).tick).2 = w₁ ∧
      w₁.store = s ∧ w₁.calls = w.calls + 4 ∧
      (h.fails (w.calls + 3) = false → w₁.published = w.published ++ [event]) ∧
      (h.fails (w.calls + 3) = true → w₁.published = w.published) := by
    refine ⟨_, rfl, ?_⟩
    by_cases hfails : h.fails (w.calls + 3) = true
    · rw [exec_failing h ⟨ctx.tenant, .publish event⟩ _ hfails rfl]
      exact ⟨rfl, rfl, fun hpass => by rw [hpass] at hfails; exact absurd hfails Bool.false_ne_true,
        fun _ => rfl⟩
    · rw [Bool.not_eq_true] at hfails
      rw [exec_passing h ⟨ctx.tenant, .publish event⟩ _ hfails]
      exact ⟨rfl, rfl, fun _ => rfl, fun hfail => by
        rw [hfails] at hfail; exact absurd hfail Bool.false_ne_true⟩
  rcases hpublish with ⟨w₁, hw₁, hstore, hcalls, hpub, hunpub⟩
  rw [hw₁]
  have haudit := toggle_recording h ctx params f w₁ _ _ rfl
  rw [hcalls, Auditable.congr h params.projectID (w.calls + 4) w.store w₁.store
    (by rw [hstore, haudits]) (by rw [hstore, hprojects])] at haudit
  rcases haudit with ⟨hstates, hflags₁, hpublished, hrecorded, hlost⟩
  rw [hstore] at hstates hflags₁ hrecorded hlost
  rw [haudits] at hrecorded hlost
  exact ⟨⟨s, hset, hstates⟩, hflags₁.trans hflags,
    fun hpass => ⟨event, hpublished.trans (hpub hpass)⟩,
    fun hfail => hpublished.trans (hunpub hfail), hrecorded, hlost⟩

/-- There is one flag that a toggle can be about. -/
theorem Togglable.unique (h : Host) (ctx : Ctx) (params : SetEnabledParams) (w : World) (f g : Flag)
    (hf : Togglable h ctx params w f) (hg : Togglable h ctx params w g) : g = f := by
  have hfound := hg.found
  rw [hf.found, Except.ok.injEq, Prod.mk.injEq] at hfound
  exact hfound.1.symm

/-- A toggle writes its row and goes on, or it ends with nothing done. -/
theorem ends_setEnabled (h : Host) (ctx : Ctx) (params : SetEnabledParams) (w : World) :
    Proc.Ends (exec h) (fun r w' =>
        (∃ f, Togglable h ctx params w f ∧ RowToggled h params f w r w') ∨
        ((∀ f, ¬ Togglable h ctx params w f) ∧ (∃ e, r = .error e) ∧
          ∃ n, w' = { w with calls := n }))
      (FlagService.setEnabled ctx params) w := by
  refine ends_require ctx _ _ w (fun hlow => ?_) (fun ac hauth hlevel => ?_)
  · refine .inr ⟨fun f hf => ?_, ⟨_, rfl⟩, w.calls, rfl⟩
    rcases hf.role with ⟨ac, hauth, hlevel⟩
    exact absurd (hlow ac hauth) (by omega)
  refine ends_findFlag ctx _ _ _ w (fun e hnone => ?_) (fun hlookup f hfound => ?_)
  · exact .inr ⟨fun f hf => hnone hf.lookup f hf.found, ⟨e, rfl⟩, _, rfl⟩
  refine ends_step ctx (.setEnabled f.id params.environmentID params.enabled) rfl _ _
    (fun hfails => ?_) (fun e herror => ?_) (fun hwrite u w' hp => ?_)
  · refine .inr ⟨fun g hg => ?_, ⟨_, rfl⟩, _, rfl⟩
    have hpass := hg.write
    rw [World.tick_calls, hpass] at hfails
    exact absurd hfails Bool.false_ne_true
  · refine .inr ⟨fun g hg => ?_, ⟨e, rfl⟩, _, rfl⟩
    have hsame : g = f := by
      have hg' := hg.found
      rw [hfound, Except.ok.injEq, Prod.mk.injEq] at hg'
      exact hg'.1.symm
    have hrow := hg.row
    rw [hsame, ← setEnabled_accepts_iff _ _ params.enabled] at hrow
    rcases hrow with ⟨s', hs'⟩
    simp only [Op.perform, World.onStore, World.tick_store, hs'] at herror
    cases herror
  · -- The row is written; the event and the audit log follow.
    rcases World.onStore_ok _ _ _ _ hp with ⟨s, hset, rfl⟩
    exact .inl ⟨f, ⟨⟨ac, hauth, hlevel⟩, hlookup, hfound, hwrite,
      (setEnabled_accepts_iff _ _ params.enabled _).mp ⟨s, hset⟩⟩,
      rowToggled_announce h ctx params f w s hset⟩

/-! ## What a failed toggle leaves -/

/-- The row of the flag is there already, with the value of the toggle. -/
def AlreadySet (flagID environmentID : String) (enabled : Bool) (s : Store) : Prop :=
  s.states.any (FlagEnvironmentState.isFor flagID environmentID) = true ∧
    ∀ st ∈ s.states, st.isFor flagID environmentID = true → st.enabled = enabled

/-- Writing a row leaves the table as it is exactly if there is nothing to
    change. -/
theorem setEnabled_same_iff (flagID environmentID : String) (enabled : Bool) (s s' : Store)
    (h : Cuttlegate.setEnabled flagID environmentID enabled s = .ok ((), s')) :
    s'.states = s.states ↔ AlreadySet flagID environmentID enabled s := by
  unfold Cuttlegate.setEnabled at h
  by_cases hrow : s.states.any (FlagEnvironmentState.isFor flagID environmentID) = true
  · rw [if_pos hrow] at h
    rw [ok_unit_inj _ _ _ h]
    constructor
    · intro heq
      refine ⟨hrow, fun st hst hfor => ?_⟩
      have hsame := List.map_inj_left.mp (heq.trans (List.map_id s.states).symm) st hst
      rw [if_pos hfor] at hsame
      exact (congrArg FlagEnvironmentState.enabled hsame).symm
    · rintro ⟨_, hall⟩
      refine (List.map_congr_left (fun st hst => ?_)).trans (List.map_id s.states)
      by_cases hfor : st.isFor flagID environmentID = true
      · rw [if_pos hfor, ← hall st hst hfor]
        rfl
      · rw [if_neg hfor]
        rfl
  · rw [if_neg hrow, bind_unit_ok] at h
    rw [ok_unit_inj _ _ _ h.2]
    constructor
    · intro heq
      have hlength := congrArg List.length heq
      simp at hlength
    · rintro ⟨hany, _⟩
      exact absurd hany hrow

/-- A toggle that fails leaves the rows and the published events as they were,
    and one with a source that succeeds has written its row and its event. -/
structure FailsClean (conn : Conn) (params : SetEnabledParams) (w : World) (r : Except Err Unit)
    (w' : World) : Prop where
  failed : ∀ e, r = .error e →
    w'.store.states = w.store.states ∧ w'.published = w.published
  succeeded : r = .ok () → params.source ≠ "" → ∃ f,
    flagByKey conn params.projectID params.flagKey w.store = .ok (f, w.store) ∧
    w'.store.states.find? (FlagEnvironmentState.isFor f.id params.environmentID) =
      some ⟨f.id, params.environmentID, params.enabled⟩ ∧
    ∃ a, w'.store.auditEvents = w.store.auditEvents ++ [a] ∧ a.source = params.source ∧
      a.action = "flag.state_changed" ∧ a.entityID = f.id

section Toggled

variable {h : Host} {params : SetEnabledParams} {f : Flag} {w w' : World} {r : Except Err Unit}

/-- A toggle that writes its row has an effect unless the row is set already
    and the publisher fails. -/
theorem RowToggled.idle_iff (ht : RowToggled h params f w r w') :
    (w'.store.states = w.store.states ∧ w'.published = w.published) ↔
      AlreadySet f.id params.environmentID params.enabled w.store ∧
        h.fails (w.calls + 3) = true := by
  rcases ht.written with ⟨s, hset, hstates⟩
  rw [hstates, setEnabled_same_iff _ _ _ _ _ hset]
  refine and_congr_right (fun _ => ?_)
  constructor
  · intro hpublished
    by_contra hpass
    rcases ht.published (by simpa using hpass) with ⟨event, hout⟩
    rw [hout] at hpublished
    simp at hpublished
  · exact ht.unpublished

/-- After the write only the audit log fails a toggle, and only one that names
    a source. -/
theorem RowToggled.fails_iff (ht : RowToggled h params f w r w') :
    (∃ e, r = .error e) ↔
      params.source ≠ "" ∧ ¬ Auditable h params.projectID (w.calls + 4) w.store := by
  by_cases haudit : Auditable h params.projectID (w.calls + 4) w.store
  · simp [(ht.recorded haudit).1, haudit]
  · have hlost := (ht.lost haudit).2
    cases r with
    | error e => simpa [haudit] using hlost
    | ok u => simpa [haudit] using hlost

/-- A toggle with a source that succeeds has recorded its event. -/
theorem RowToggled.recorded_of_ok (ht : RowToggled h params f w r w') (hr : r = .ok ())
    (hsource : params.source ≠ "") :
    ∃ a, w'.store.auditEvents = w.store.auditEvents ++ [a] ∧ a.source = params.source ∧
      a.action = "flag.state_changed" ∧ a.entityID = f.id := by
  by_cases haudit : Auditable h params.projectID (w.calls + 4) w.store
  · rcases (ht.recorded haudit).2 with ⟨actorID, id, now, hlog⟩
    exact ⟨_, hlog, rfl, rfl, rfl⟩
  · exact absurd ((ht.lost haudit).2.mp hr) hsource

/-- The row it has written is the one that is found. -/
theorem RowToggled.row (ht : RowToggled h params f w r w') :
    w'.store.states.find? (FlagEnvironmentState.isFor f.id params.environmentID) =
      some ⟨f.id, params.environmentID, params.enabled⟩ := by
  rcases ht.written with ⟨s, hset, hstates⟩
  rw [hstates, setEnabled_find _ _ _ _ _ _ hset, if_pos ⟨rfl, rfl⟩]

end Toggled

/-- A failed toggle has no effect exactly if it names no source, or its audit
    event can be recorded, or it does not come to the write of its row, or it
    has no effect to begin with: the row is as it should be, and the publisher
    fails as well. -/
theorem setEnabled_clean_iff (h : Host) (ctx : Ctx) (params : SetEnabledParams) (w : World) :
    FailsClean ⟨ctx.tenant, h.rls⟩ params w
        (Proc.run (exec h) (FlagService.setEnabled ctx params) w).1
        (Proc.run (exec h) (FlagService.setEnabled ctx params) w).2 ↔
      params.source = "" ∨ Auditable h params.projectID (w.calls + 4) w.store ∨
        ∀ f, Togglable h ctx params w f →
          AlreadySet f.id params.environmentID params.enabled w.store ∧
            h.fails (w.calls + 3) = true := by
  rcases ends_setEnabled h ctx params w with ⟨f, hf, ht⟩ | ⟨hnone, ⟨e, he⟩, n, hw'⟩
  · constructor
    · intro hclean
      by_cases hsource : params.source = ""
      · exact .inl hsource
      by_cases haudit : Auditable h params.projectID (w.calls + 4) w.store
      · exact .inr (.inl haudit)
      -- The call fails after its writes, so these must have changed nothing.
      refine .inr (.inr (fun g hg => ?_))
      rcases ht.fails_iff.mpr ⟨hsource, haudit⟩ with ⟨e, he⟩
      rw [hf.unique _ _ _ _ _ _ hg]
      exact ht.idle_iff.mp (hclean.failed e he)
    · intro hcond
      refine ⟨fun e he => ?_, fun hr hsource => ?_⟩
      · rcases ht.fails_iff.mp ⟨e, he⟩ with ⟨hsource, hlost⟩
        rcases hcond with hno | hyes | hidle
        · exact absurd hno hsource
        · exact absurd hyes hlost
        · exact ht.idle_iff.mpr (hidle f hf)
      · exact ⟨f, hf.found, ht.row, ht.recorded_of_ok hr hsource⟩
  · rw [he, hw']
    refine ⟨fun _ => .inr (.inr (fun f hf => absurd hf (hnone f))), fun _ => ?_⟩
    exact ⟨fun _ _ => ⟨rfl, rfl⟩, fun hr => (nomatch hr)⟩

/-- A host that fails the insert of the audit event, the seventh operation of
    a toggle. -/
def auditLost : Host := { Host.steady with fails := fun n => n == 6 }

/-- The parameters of a tool call that switches the flag on. -/
def toolParams : SetEnabledParams :=
  { projectID := "p1", environmentID := "e1", flagKey := "dark", enabled := true
    projectSlug := "shop", envSlug := "prod", source := "mcp" }

/-- The tool server is told that the call failed, with the flag switched on and
    the subscribers told so. -/
theorem setEnabled_fails_halfway :
    ¬ FailsClean ⟨none, auditLost.rls⟩ toolParams toggleShop
      (Proc.run (exec auditLost)
        (FlagService.setEnabled ⟨some ⟨"k1", .editor⟩, none⟩ toolParams) toggleShop).1
      (Proc.run (exec auditLost)
        (FlagService.setEnabled ⟨some ⟨"k1", .editor⟩, none⟩ toolParams) toggleShop).2 := by
  intro hclean
  have hfailed := hclean.failed .internal (by decide +kernel)
  have hrows : (Proc.run (exec auditLost)
      (FlagService.setEnabled ⟨some ⟨"k1", .editor⟩, none⟩ toolParams) toggleShop).2.store.states =
      [⟨"f1", "e1", true⟩] := by decide +kernel
  rw [hrows] at hfailed
  exact absurd hfailed.1 (by decide)

end Cuttlegate
