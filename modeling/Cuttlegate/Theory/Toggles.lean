import Cuttlegate.Theory.Transactions

/-!
# Toggles and their Events

Toggling a flag writes its row and publishes an event, and the two are separate
steps. On the HTTP route the write is in the transaction of the request and the
event goes out before the transaction is committed. A tool call writes for good
and publishes afterwards, with no lock in between.

So an event of the HTTP route can announce what is not stored yet, and never
will be if the commit fails; and two tool calls can publish in the other order
than they wrote in, so that the last event contradicts the database for good.

The threads of the pool are any number of toggles of both kinds. The notes
record what a toggle has looked up and how far it is with its write, and every
toggle is shown to write once, to publish what it has written about the row it
has looked up, and to end its transaction after that.

## Main definitions

* `httpToggle`, `mcpToggle`, `toggleThread`: The requests.
* `Phase`, `ToggleNote`, `toggleRules`: How far a toggle is.

## Theorems

* `served_setEnabled`: The service, on either route.
* `toggleThread_obeys`: Every toggle follows the rules.
-/

namespace Cuttlegate

/-! ## Requests -/

/-- A toggle through the HTTP route. -/
def httpToggle (h : TxHost) (authorization projSlug envSlug key : String) (body : Option Json) :
    TxProg Unit :=
  atServer (requireBearer h.http authorization (fun ac =>
    tenantRLS projSlug (fun tenant =>
      FlagEnvironmentHandler.setEnabled ⟨some ac, tenant⟩ projSlug envSlug key body))) none >>=
    fun _ => Proc.ret ()

/-- A toggle through a tool. -/
def mcpToggle (id rawArgs : Option Json) (key : APIKey) (enabled : Bool) : TxProg Unit :=
  atPool (callSetEnabled id rawArgs key enabled) >>= fun _ => Proc.ret ()

/-- A thread of the pool: a toggle of either kind. A segment of a path is never
    empty. -/
def toggleThread (h : TxHost) (p : TxProg Unit) : Prop :=
  (∃ authorization projSlug envSlug key body, projSlug ≠ "" ∧
    p = httpToggle h authorization projSlug envSlug key body) ∨
  ∃ id rawArgs key enabled, p = mcpToggle id rawArgs key enabled

/-! ## What a toggle knows -/

/-- What a lookup found. -/
inductive Learnt where
  | project (slug : String) (proj : Project)
  | environment (projectID slug : String) (env : Environment)
  | flag (projectID key : String) (f : Flag)

/-- It is there. -/
def Learnt.Holds (s : Store) : Learnt → Prop
  | .project slug proj => s.projectAt slug = some proj
  | .environment projectID slug env => s.environmentAt projectID slug = some env
  | .flag projectID key f => s.flagAt projectID key = some f

/-- How far a toggle is. The clock always answers, so no toggle gets lost. -/
inductive Phase where
  | idle
  | wrote (flagID environmentID : String) (enabled : Bool)
  | announced (flagID environmentID : String) (enabled : Bool)
  | lost
  deriving DecidableEq

structure ToggleNote where
  learnt : List Learnt
  phase : Phase

/-- The event is about a row the toggle has looked up. -/
def ToggleNote.Names (n : ToggleNote) (e : FlagStateChangedEvent) (flagID environmentID : String) :
    Prop :=
  ∃ slug proj envSlug env f, .project slug proj ∈ n.learnt ∧
    .environment proj.id envSlug env ∈ n.learnt ∧ .flag proj.id e.flagKey f ∈ n.learnt ∧
    (e.project = slug ∨ e.project = proj.slug) ∧ e.environment = env.slug ∧
    flagID = f.id ∧ environmentID = env.id

/-- What an answer adds to the note. -/
def ToggleNote.see (c : Call) (r : Except Err c.Ret) (n : ToggleNote) : ToggleNote :=
  match c, r with
  | ⟨_, .projectBySlug slug⟩, .ok proj => { n with learnt := .project slug proj :: n.learnt }
  | ⟨_, .environmentBySlug projectID slug⟩, .ok env =>
      { n with learnt := .environment projectID slug env :: n.learnt }
  | ⟨_, .flagByKey projectID key⟩, .ok f =>
      { n with learnt := .flag projectID key f :: n.learnt }
  | ⟨_, .setEnabled f e b⟩, .ok _ => { n with phase := .wrote f e b }
  | ⟨_, .publish _⟩, _ => match n.phase with
      | .wrote f e b => { n with phase := .announced f e b }
      | _ => n
  | ⟨_, .now⟩, .error _ => { n with phase := .lost }
  | _, _ => n

/-- A toggle writes once, publishes what it has written, and ends its
    transaction after that. -/
def toggleRules : TxRules ToggleNote where
  permits := fun op n => n.own.phase = .lost ∨ match op with
    | .pool c => match c.op with
        | .setEnabled _ _ _ => c.tenant = none ∧ n.tx = none ∧ n.own.phase = .idle
        | .publish e => n.tx.isSome = c.tenant.isSome ∧
            ∃ f env, n.own.phase = .wrote f env e.enabled ∧ n.own.Names e f env
        | op => op.writes ⊆ [.users, .auditEvents]
    | .within _ c => match c.op with
        | .setEnabled _ _ _ => n.own.phase = .idle
        | op => op.writes = []
    | .begin => n.own.phase = .idle
    -- A commit waits for the event; a rollback undoes nothing that was announced.
    | .commit _ => ∀ f e b, n.own.phase ≠ .wrote f e b
    | .rollback _ => n.own.phase = .idle
    | _ => True
  after := fun op r n => if n.own.phase = .lost then n.own else match op, r with
    | .pool c, r => n.own.see c r
    | .within _ c, r => n.own.see c r
    | .commit _, _ => { n.own with phase := .idle }
    | .rollback _, _ => { n.own with phase := .idle }
    | _, _ => n.own

/-- Nothing has been written yet. -/
def ToggleStart (n : TxNote ToggleNote) : Prop := n.own.phase = .idle

/-- Nothing is left to be done. -/
def ToggleDone (n : TxNote ToggleNote) : Prop :=
  match n.own.phase with
  | .wrote _ _ _ => False
  | .announced _ _ _ => n.tx = none
  | _ => True

/-! ## Every toggle follows the rules -/

section Programs

variable {n : TxNote ToggleNote}

/-- What a rule makes of a note that is not lost. -/
theorem toggleRules_after (op : TxOp) (r : Except Err op.Ret) (hn : n.own.phase ≠ .lost) :
    toggleRules.after op r n = match op, r with
      | .pool c, r => n.own.see c r
      | .within _ c, r => n.own.see c r
      | .commit _, _ => { n.own with phase := .idle }
      | .rollback _, _ => { n.own with phase := .idle }
      | _, _ => n.own :=
  if_neg hn

/-- A read, wherever it is made. -/
theorem served_toggle_read (c : Call) (hc : c.op.writes = [])
    {Q : Except Err c.Ret → TxNote ToggleNote → Prop} (hn : n.own.phase ≠ .lost)
    (hQ : ∀ r m, m.tx = n.tx → m.own = n.own.see c r → Q r m) :
    ServedBy toggleRules Q (Proc.call (HttpOp.db c)) n := by
  rcases c with ⟨tenant, op⟩
  change op.writes = [] at hc
  -- Inside the transaction when there is one and the call is scoped, on the pool otherwise.
  by_cases hin : ∃ t, n.tx = some t ∧ Call.inTx ⟨tenant, op⟩ = true
  · rcases hin with ⟨t, htx, hin⟩
    refine served_tx t _ htx hin (.inr ?_)
      (fun r => hQ r _ rfl (toggleRules_after (.within t ⟨tenant, op⟩) r hn))
    cases op <;> first
      | exact hc
      | exact (nomatch hc)
  · have hplace : n.tx = none ∨ Call.inTx ⟨tenant, op⟩ = false := by
      cases htx : n.tx with
      | none => exact .inl rfl
      | some t =>
          rw [← Bool.not_eq_true]
          exact .inr (fun hyes => hin ⟨t, htx, hyes⟩)
    refine served_pool _ hplace (.inr ?_)
      (fun r => hQ r _ rfl (toggleRules_after (.pool ⟨tenant, op⟩) r hn))
    cases op <;> first
      | exact List.nil_subset _
      | exact (nomatch hc)

/-- An audit event, on the pool. -/
theorem served_toggle_audit (tenant : Option String) (a : AuditEvent)
    {Q : Except Err Unit → TxNote ToggleNote → Prop} (hn : n.own.phase ≠ .lost)
    (hQ : ∀ r m, m.tx = n.tx → m.own = n.own → Q r m) :
    ServedBy toggleRules Q (Proc.call (HttpOp.db ⟨tenant, .recordAudit a⟩)) n := by
  have hpermits : toggleRules.permits (.pool ⟨tenant, .recordAudit a⟩) n :=
    .inr (show [Tbl.auditEvents] ⊆ _ by simp)
  refine served_pool ⟨tenant, .recordAudit a⟩ (.inr (Bool.and_false _)) hpermits (fun r => ?_)
  refine hQ r _ rfl ((toggleRules_after (.pool ⟨tenant, .recordAudit a⟩) r hn).trans ?_)
  cases r <;> rfl

/-- A toggle that has got lost may do anything, and stays so. -/
theorem served_lost (c : Call) {Q : Except Err c.Ret → TxNote ToggleNote → Prop}
    (hn : n.own.phase = .lost) (hQ : ∀ r m, m.tx = n.tx → m.own.phase = .lost → Q r m) :
    ServedBy toggleRules Q (Proc.call (HttpOp.db c)) n := by
  have hafter : ∀ op r, (toggleRules.after op r n).phase = .lost := by
    intro op r
    rw [show toggleRules.after op r n = n.own from if_pos hn]
    exact hn
  by_cases hin : ∃ t, n.tx = some t ∧ c.inTx = true
  · rcases hin with ⟨t, htx, hin⟩
    exact served_tx t _ htx hin (.inl hn) (fun r => hQ r _ rfl (hafter (.within t c) r))
  · have hplace : n.tx = none ∨ c.inTx = false := by
      cases htx : n.tx with
      | none => exact .inl rfl
      | some t =>
          rw [← Bool.not_eq_true]
          exact .inr (fun hyes => hin ⟨t, htx, hyes⟩)
    exact served_pool _ hplace (.inl hn) (fun r => hQ r _ rfl (hafter (.pool c) r))

/-- The phase after a read is what it was, unless the clock failed. -/
theorem see_read (c : Call) (hc : c.op.writes = []) (r : Except Err c.Ret) (m : ToggleNote) :
    (m.see c r).phase = m.phase ∨ (m.see c r).phase = .lost := by
  rcases c with ⟨tenant, op⟩
  cases op <;> first
    | (cases r <;> first
        | exact .inl rfl
        | exact .inr rfl)
    | exact absurd (show _ :: _ = [] from hc) (List.cons_ne_nil _ _)

/-- What follows the event of a toggle leaves its phase alone. -/
theorem served_audit {α : Type} (p : Prog α) (hp : Within [.auditEvents] p) (phase : Phase)
    (hn : n.own.phase = phase ∨ n.own.phase = .lost) :
    ServedBy toggleRules
      (fun _ m => m.tx = n.tx ∧ (m.own.phase = phase ∨ m.own.phase = .lost)) (onDB p) n := by
  refine served_uses (I := fun m => m.tx = n.tx ∧ (m.own.phase = phase ∨ m.own.phase = .lost))
    (fun c m hc hm => ?_) p hp n ⟨rfl, hn⟩
  rcases hm with ⟨htx, hphase⟩
  by_cases hlost : m.own.phase = .lost
  · exact served_lost c hlost (fun r m' htx' hlost' => ⟨htx'.trans htx, .inr hlost'⟩)
  · have hphase' := hphase.resolve_right hlost
    by_cases hread : c.op.writes = []
    · refine served_toggle_read c hread hlost (fun r m' htx' hown => ⟨htx'.trans htx, ?_⟩)
      rw [hown, ← hphase']
      exact see_read c hread r m.own
    · -- The only other operation on audit events records one.
      rcases c with ⟨tenant, op⟩
      cases op with
      | recordAudit a =>
          refine served_toggle_audit tenant a hlost (fun r m' htx' hown => ⟨htx'.trans htx, ?_⟩)
          rw [hown]
          exact .inl hphase'
      | _ => first
        | exact absurd rfl hread
        | exact absurd (hc List.mem_cons_self) (by decide)

/-- The event of what has been written. -/
theorem served_publish (tenant : Option String) (e : FlagStateChangedEvent)
    (flagID environmentID : String) {Q : Except Err Unit → TxNote ToggleNote → Prop}
    (hplace : n.tx.isSome = tenant.isSome)
    (hphase : n.own.phase = .wrote flagID environmentID e.enabled)
    (hnames : n.own.Names e flagID environmentID)
    (hQ : ∀ r m, m.tx = n.tx → m.own.phase = .announced flagID environmentID e.enabled → Q r m) :
    ServedBy toggleRules Q (Proc.call (HttpOp.db ⟨tenant, .publish e⟩)) n := by
  have hn : n.own.phase ≠ .lost := by
    rw [hphase]
    exact (nomatch ·)
  have hpermits : toggleRules.permits (.pool ⟨tenant, .publish e⟩) n :=
    .inr ⟨hplace, flagID, environmentID, hphase, hnames⟩
  refine served_pool ⟨tenant, .publish e⟩ (.inr (Bool.and_false _)) hpermits
    (fun r => hQ r _ rfl ?_)
  change (toggleRules.after (.pool ⟨tenant, .publish e⟩) r n).phase = _
  rw [toggleRules_after (.pool ⟨tenant, .publish e⟩) r hn]
  cases r <;> simp only [ToggleNote.see, hphase]

/-- A step whose failure is ignored. -/
theorem served_bestEffort {Q : Except Err Unit → TxNote ToggleNote → Prop} (p : Prog Unit)
    (hp : ServedBy toggleRules (fun _ m => Q (.ok ()) m) (onDB p) n) :
    ServedBy toggleRules Q (onDB (bestEffort p)) n := by
  unfold bestEffort
  rw [onDB_bind, onDB_attempt]
  exact served_then _ _ (served_mono (fun r m hm => served_ret () hm) _ hp)

variable (ctx : Ctx)

/-- How the second half of a toggle ends: the event is out, and for a request
    without a source nothing can fail any more. -/
def Announced (params : SetEnabledParams) (f : Flag) (tx : Option Nat) (r : Except Err Unit)
    (m : TxNote ToggleNote) : Prop :=
  m.tx = tx ∧ (m.own.phase = .lost ∨
    (m.own.phase = .announced f.id params.environmentID params.enabled ∧
      (params.source = "" → r = .ok ())))

theorem served_announce (params : SetEnabledParams) (f : Flag)
    (hplace : n.tx.isSome = ctx.tenant.isSome)
    (hphase : n.own.phase = .wrote f.id params.environmentID params.enabled)
    (hnames : ∀ now, n.own.Names
      ⟨params.projectSlug, params.envSlug, params.flagKey, params.enabled, now⟩ f.id
      params.environmentID) :
    ServedBy toggleRules (Announced params f n.tx)
      (onDB (FlagService.announce ctx params f)) n := by
  have hn : n.own.phase ≠ .lost := by
    rw [hphase]
    exact (nomatch ·)
  unfold FlagService.announce
  refine served_service _ _ ?_
  rw [onDB_call]
  refine served_toggle_read ⟨ctx.tenant, .now⟩ rfl hn (fun r m htx hown => ?_)
  cases r with
  | error e =>
      have hlost : m.own.phase = .lost := by rw [hown]; rfl
      exact ⟨htx, .inl hlost⟩
  | ok now =>
      change m.own = n.own at hown
      rw [← hown] at hphase hnames hn
      rw [← htx] at hplace ⊢
      refine served_service _ _ (served_bestEffort _ ?_)
      rw [onDB_call]
      refine served_publish ctx.tenant _ f.id params.environmentID hplace hphase (hnames now)
        (fun r m' htx' hdone => ?_)
      rw [← htx']
      -- What is left is the audit event.
      by_cases hsource : params.source ≠ ""
      · simp only [if_pos hsource]
        refine served_mono (fun r m' hm' => ⟨hm'.1, ?_⟩) _
          (served_audit _ (recordAuditErr_within ctx _) _ (.inl hdone))
        rcases hm'.2 with hphase' | hlost
        · exact .inr ⟨hphase', fun hempty => absurd hempty hsource⟩
        · exact .inl hlost
      · simp only [if_neg hsource]
        refine served_bestEffort _ (served_mono (fun r m' hm' => ⟨hm'.1, ?_⟩) _
          (served_audit _ (recordAuditErr_within ctx _) _ (.inl hdone)))
        rcases hm'.2 with hphase' | hlost
        · exact .inr ⟨hphase', fun _ => rfl⟩
        · exact .inl hlost

/-- The write of a toggle, in its transaction or for good. -/
theorem served_write (tenant : Option String) (flagID environmentID : String) (enabled : Bool)
    {Q : Except Err Unit → TxNote ToggleNote → Prop} (hplace : n.tx.isSome = tenant.isSome)
    (hidle : n.own.phase = .idle)
    (hfail : ∀ e m, m.tx = n.tx → m.own = n.own → Q (.error e) m)
    (hok : ∀ m, m.tx = n.tx → m.own = { n.own with phase := .wrote flagID environmentID enabled } →
      Q (.ok ()) m) :
    ServedBy toggleRules Q
      (Proc.call (HttpOp.db ⟨tenant, .setEnabled flagID environmentID enabled⟩)) n := by
  have hn : n.own.phase ≠ .lost := by
    rw [hidle]
    exact (nomatch ·)
  -- The route's write lands in its transaction, the tool's on the pool.
  cases htx : n.tx with
  | none =>
      rw [htx] at hplace
      cases tenant with
      | some p => exact (nomatch hplace)
      | none =>
          have hpermits : toggleRules.permits
              (.pool ⟨none, .setEnabled flagID environmentID enabled⟩) n := .inr ⟨rfl, htx, hidle⟩
          refine served_pool _ (.inl htx) hpermits (fun r => ?_)
          cases r with
          | error e => exact hfail e _ rfl (if_neg hn)
          | ok u => exact hok _ rfl (if_neg hn)
  | some t =>
      rw [htx] at hplace
      have hpermits : toggleRules.permits
          (.within t ⟨tenant, .setEnabled flagID environmentID enabled⟩) n := .inr hidle
      have hin : Call.inTx ⟨tenant, .setEnabled flagID environmentID enabled⟩ = true :=
        Bool.and_eq_true_iff.mpr ⟨hplace.symm, rfl⟩
      refine served_tx t _ htx hin hpermits (fun r => ?_)
      cases r with
      | error e => exact hfail e _ rfl (if_neg hn)
      | ok u => exact hok _ rfl (if_neg hn)

/-- How a toggle ends: it has failed and written nothing, or the event of what
    it has written is out; and without a source it succeeds then. -/
def Toggled (params : SetEnabledParams) (tx : Option Nat) (r : Except Err Unit)
    (m : TxNote ToggleNote) : Prop :=
  m.tx = tx ∧ (m.own.phase = .lost ∨ (m.own.phase = .idle ∧ ∃ e, r = .error e) ∨
    ((∃ f e b, m.own.phase = .announced f e b) ∧ (params.source = "" → r = .ok ())))

/-- A toggle whose project and environment have been looked up. -/
theorem served_setEnabled (params : SetEnabledParams) (hplace : n.tx.isSome = ctx.tenant.isSome)
    (hidle : n.own.phase = .idle) (slug : String) (proj : Project) (envSlug : String)
    (env : Environment) (hproj : .project slug proj ∈ n.own.learnt)
    (henv : .environment proj.id envSlug env ∈ n.own.learnt) (hpid : params.projectID = proj.id)
    (heid : params.environmentID = env.id)
    (hpslug : params.projectSlug = slug ∨ params.projectSlug = proj.slug)
    (heslug : params.envSlug = env.slug) :
    ServedBy toggleRules (Toggled params n.tx) (onDB (FlagService.setEnabled ctx params)) n := by
  have hn : n.own.phase ≠ .lost := by
    rw [hidle]
    exact (nomatch ·)
  unfold FlagService.setEnabled
  refine served_service _ _ ?_
  unfold Ctx.require
  cases requireRole ctx.auth .editor with
  | error e => exact served_fail e ⟨rfl, .inr (.inl ⟨hidle, e, rfl⟩)⟩
  -- The flag is read, then its row is written, then the event is published: the note
  -- follows each.
  | ok ac =>
      refine served_ret ac (served_service _ _ ?_)
      rw [onDB_call]
      refine served_toggle_read ⟨ctx.tenant, .flagByKey params.projectID params.flagKey⟩ rfl hn
        (fun r m htx hown => ?_)
      cases r with
      | error e =>
          refine ⟨htx, .inr (.inl ⟨?_, e, rfl⟩)⟩
          rw [hown]
          exact hidle
      | ok f =>
          have hidle' : m.own.phase = .idle := by
            rw [hown]
            exact hidle
          refine served_service _ _ ?_
          rw [onDB_call]
          rw [← htx] at hplace ⊢
          refine served_write ctx.tenant f.id params.environmentID params.enabled hplace hidle'
            (fun e m' htx' hown' => ⟨htx', .inr (.inl ⟨by rw [hown']; exact hidle', e, rfl⟩)⟩)
            (fun m' htx' hown' => ?_)
          rw [← htx'] at hplace ⊢
          have hphase : m'.own.phase = .wrote f.id params.environmentID params.enabled := by
            rw [hown']
          have hlearnt : m'.own.learnt =
              .flag params.projectID params.flagKey f :: n.own.learnt := by
            rw [hown', hown]
            rfl
          -- The event names the row written, by what the three lookups have shown.
          have hnames : ∀ now, m'.own.Names
              ⟨params.projectSlug, params.envSlug, params.flagKey, params.enabled, now⟩ f.id
              params.environmentID := by
            intro now
            refine ⟨slug, proj, envSlug, env, f, ?_, ?_, ?_, hpslug, heslug, rfl, heid⟩
            · rw [hlearnt]
              exact List.mem_cons_of_mem _ hproj
            · rw [hlearnt]
              exact List.mem_cons_of_mem _ henv
            · rw [hlearnt, ← hpid]
              exact List.mem_cons_self
          refine served_mono (fun r m'' hm => ⟨hm.1, ?_⟩) _
            (served_announce ctx params f hplace hphase hnames)
          rcases hm.2 with hlost | ⟨hdone, hok⟩
          · exact .inl hlost
          · exact .inr (.inr ⟨⟨_, _, _, hdone⟩, hok⟩)

/-- A lookup of a handler. -/
theorem served_lookup (op : Op) (hop : op.writes = []) (k : op.Ret → HttpProg Response)
    {Q : Except Err Response → TxNote ToggleNote → Prop} (hidle : n.own.phase = .idle)
    (hfail : ∀ e m, m.tx = n.tx → m.own = n.own.see ⟨ctx.tenant, op⟩ (.error e) → Refusing Q m)
    (hok : ∀ a m, m.tx = n.tx → m.own = n.own.see ⟨ctx.tenant, op⟩ (.ok a) →
      ServedBy toggleRules Q (k a) m) :
    ServedBy toggleRules Q (orWriteError (onDB (ctx.call op)) k) n := by
  refine served_orWriteError _ _ ?_
  rw [onDB_call]
  refine served_toggle_read ⟨ctx.tenant, op⟩ hop (by rw [hidle]; exact (nomatch ·))
    (fun r m htx hown => ?_)
  cases r with
  | error e => exact hfail e m htx hown
  | ok a => exact hok a m htx hown

/-- The middleware leaves a toggle at its start. -/
theorem toggleRules_opens : toggleRules.Opens ToggleStart := by
  have hidles : ∀ op, (∀ n, ToggleStart n → toggleRules.permits op n) →
      (∀ r n, ToggleStart n → n.own.phase ≠ .lost →
        (toggleRules.discipline.after op r n).own.phase = .idle) →
      toggleRules.Idles ToggleStart op := by
    intro op hop hafter n hn
    refine ⟨hop n hn, fun r => hafter r n hn ?_⟩
    rw [show n.own.phase = .idle from hn]
    exact (nomatch ·)
  -- None of the middleware's calls moves the phase.
  refine ⟨fun u => ?_, fun slug => ?_, ?_, fun t id => ?_, fun t => ?_⟩
  · refine hidles _ (fun n _ => .inr (show [Tbl.users] ⊆ _ by simp)) (fun r n hn hlost => ?_)
    change (toggleRules.after _ r n).phase = _
    rw [toggleRules_after _ r hlost]
    cases r <;> exact hn
  · refine hidles _ (fun n _ => .inr (List.nil_subset _)) (fun r n hn hlost => ?_)
    change (toggleRules.after _ r n).phase = _
    rw [toggleRules_after _ r hlost]
    cases r <;> exact hn
  · refine hidles _ (fun n hn => .inr hn) (fun r n hn hlost => ?_)
    change (toggleRules.after _ r n).phase = _
    rw [toggleRules_after _ r hlost]
    exact hn
  · refine hidles _ (fun n hn => .inr trivial) (fun r n hn hlost => ?_)
    change (toggleRules.after _ r n).phase = _
    rw [toggleRules_after _ r hlost]
    exact hn
  · refine hidles _ (fun n hn => .inr hn) (fun r n hn hlost => ?_)
    change (toggleRules.after _ r n).phase = _
    rw [toggleRules_after _ r hlost]

theorem toggleDone_of_phase (m : TxNote ToggleNote)
    (hm : m.own.phase = .idle ∨ m.own.phase = .lost) : ToggleDone m := by
  unfold ToggleDone
  rcases hm with hm | hm
  · rw [hm]
    trivial
  · rw [hm]
    trivial

/-- A toggle is done when its transaction has ended. -/
theorem toggleDone_ended (op : TxOp) (hop : ∃ t, op = .commit t ∨ op = .rollback t)
    (r : Except Err op.Ret) (m : TxNote ToggleNote) :
    ToggleDone (toggleRules.discipline.after op r m) := by
  refine toggleDone_of_phase _ ?_
  change (toggleRules.after op r m).phase = _ ∨ (toggleRules.after op r m).phase = _
  by_cases hlost : m.own.phase = .lost
  · rw [show toggleRules.after op r m = m.own from if_pos hlost]
    exact .inr hlost
  · rw [toggleRules_after op r hlost]
    rcases hop with ⟨t, rfl | rfl⟩
    · exact .inl rfl
    · exact .inl rfl

/-- A toggle that has written nothing, or got lost, is refused and rolled
    back. -/
theorem toggle_refused (t : Nat) (m : TxNote ToggleNote) (htx : m.tx = some t)
    (hm : m.own.phase = .idle ∨ m.own.phase = .lost) :
    Refusing (toggleRules.Closes ToggleDone t) m := by
  refine ⟨⟨htx, toggleDone_of_phase m hm⟩, fun e => ⟨htx, ?_⟩⟩
  rw [if_pos (writeError_status e)]
  exact ⟨hm.symm, fun r => toggleDone_ended _ ⟨t, .inr rfl⟩ r m⟩

/-- The handler of the HTTP route. -/
theorem served_handler (ac : AuthContext) (projectID projSlug envSlug key : String)
    (body : Option Json) (t : Nat) (hn : ToggleStart n) (htx : n.tx = some t) :
    ServedBy toggleRules (toggleRules.Closes ToggleDone t)
      (FlagEnvironmentHandler.setEnabled ⟨some ac, some projectID⟩ projSlug envSlug key body)
      n := by
  -- Whatever is refused before the write leaves the transaction to be rolled back.
  have hrefused : ∀ m : TxNote ToggleNote, m.tx = some t → m.own.phase = .idle →
      Refusing (toggleRules.Closes ToggleDone t) m :=
    fun m htx hm => toggle_refused t m htx (.inl hm)
  refine served_lookup _ _ rfl _ hn (fun e m htx₁ hown => ?_) (fun proj m₁ htx₁ hown₁ => ?_)
  · exact hrefused m (htx₁.trans htx) (by rw [hown]; exact hn)
  have hidle₁ : m₁.own.phase = .idle := by
    rw [hown₁]
    exact hn
  refine served_lookup _ _ rfl _ hidle₁ (fun e m htx₂ hown => ?_) (fun env m₂ htx₂ hown₂ => ?_)
  · exact hrefused m (htx₂.trans (htx₁.trans htx)) (by rw [hown]; exact hidle₁)
  have htx' : m₂.tx = some t := htx₂.trans (htx₁.trans htx)
  have hidle₂ : m₂.own.phase = .idle := by
    rw [hown₂]
    exact hidle₁
  have hlearnt : m₂.own.learnt =
      .environment proj.id envSlug env :: .project projSlug proj :: n.own.learnt := by
    rw [hown₂, hown₁]
    rfl
  cases body.bind decodeEnabledBody with
  | none => exact served_ret _ ((hrefused m₂ htx' hidle₂).2 _)
  | some enabled =>
      cases enabled with
      | none => exact served_ret _ ((hrefused m₂ htx' hidle₂).2 _)
      | some enabled =>
          have hset := served_setEnabled ⟨some ac, some projectID⟩
            ⟨proj.id, env.id, key, enabled, proj.slug, env.slug, ""⟩ (by rw [htx']; rfl) hidle₂
            projSlug proj envSlug env (by rw [hlearnt]; simp) (by rw [hlearnt]; simp) rfl rfl
            (.inr rfl) rfl
          refine served_orWriteError _ _ (served_mono (fun r m₃ hm => ?_) _ hset)
          -- Lost (which the clock rules out), refused, or written and announced.
          rcases hm with ⟨htx₃, hlost | ⟨hidle, e, rfl⟩ | ⟨⟨f, e, b, hdone⟩, hok⟩⟩
          · cases r with
            | error e => exact toggle_refused t m₃ (htx₃.trans htx') (.inr hlost)
            | ok u =>
                exact served_ret _ ⟨htx₃.trans htx', .inl hlost,
                  fun r => toggleDone_ended _ ⟨t, .inl rfl⟩ r m₃⟩
          · exact hrefused m₃ (htx₃.trans htx') hidle
          · rw [hok rfl]
            refine served_ret _ ⟨htx₃.trans htx', .inr (fun f e b => ?_),
              fun r => toggleDone_ended _ ⟨t, .inl rfl⟩ r m₃⟩
            rw [hdone]
            exact (nomatch ·)

/-- A lookup of a tool call. -/
theorem obeys_lookup {α : Type} (c : Call) (hc : c.op.writes = [])
    (K : Except Err c.Ret → McpProg α) {Q : Except Err α → TxNote ToggleNote → Prop}
    (htx : n.tx = none) (hn : ToggleStart n)
    (hK : ∀ r m, m.tx = none → m.own = n.own.see c r →
      Proc.Obeys toggleRules.discipline Q (atPool (K r)) m) :
    Proc.Obeys toggleRules.discipline Q
      (atPool ((Proc.call (McpOp.db c)).attempt >>= K)) n := by
  rw [mcp_call, atPool_then]
  refine Proc.obeys_bind _ _ _ (Proc.obeys_attempt _ _ (obeys_onPool _ n htx ?_))
  have hcall : onDB (Proc.call c) = Proc.call (HttpOp.db c) := onDB_call ⟨none, c.tenant⟩ c.op
  rw [hcall]
  exact served_toggle_read c hc (by rw [show n.own.phase = .idle from hn]; exact (nomatch ·))
    (fun r m htx' hown => hK r m (htx'.trans htx) hown)

/-- What the gates of a tool call find. -/
theorem obeys_resolve (projectSlug environmentSlug : String) (key : APIKey) (htx : n.tx = none)
    (hn : ToggleStart n) :
    Proc.Obeys toggleRules.discipline
      (fun r m => m.tx = none ∧ ToggleStart m ∧ ∀ ids, r = .ok (.ok ids) →
        ∃ proj env, .project projectSlug proj ∈ m.own.learnt ∧
          .environment proj.id environmentSlug env ∈ m.own.learnt ∧
          ids = (proj.id, env.id, env.slug))
      (atPool (resolveProjectAndEnv projectSlug environmentSlug key)) n := by
  unfold resolveProjectAndEnv
  refine obeys_lookup _ rfl _ htx hn (fun r m₁ htx₁ hown₁ => ?_)
  have hstart₁ : ToggleStart m₁ := by
    unfold ToggleStart
    rw [hown₁]
    cases r <;> exact hn
  cases r with
  | error e => cases e <;> exact ⟨htx₁, hstart₁, fun ids hids => (nomatch hids)⟩
  | ok proj =>
      -- The key's own project and environment are checked as each is found.
      by_cases hkey : proj.id ≠ key.projectID
      · simp only [if_pos hkey]
        exact ⟨htx₁, hstart₁, fun ids hids => (nomatch hids)⟩
      simp only [if_neg hkey]
      refine obeys_lookup _ rfl _ htx₁ hstart₁ (fun r m₂ htx₂ hown₂ => ?_)
      have hstart₂ : ToggleStart m₂ := by
        unfold ToggleStart
        rw [hown₂]
        cases r <;> exact hstart₁
      cases r with
      | error e => cases e <;> exact ⟨htx₂, hstart₂, fun ids hids => (nomatch hids)⟩
      | ok env =>
          by_cases hkey' : env.id ≠ key.environmentID
          · simp only [if_pos hkey']
            exact ⟨htx₂, hstart₂, fun ids hids => (nomatch hids)⟩
          simp only [if_neg hkey']
          refine ⟨htx₂, hstart₂, fun ids hids => ⟨proj, env, ?_, ?_, ?_⟩⟩
          · rw [hown₂, hown₁]
            exact List.mem_cons_of_mem _ List.mem_cons_self
          · rw [hown₂]
            exact List.mem_cons_self
          · exact (Except.ok.inj (Except.ok.inj hids)).symm

/-- The tool call. -/
theorem obeys_callSetEnabled (id rawArgs : Option Json) (key : APIKey) (enabled : Bool)
    (htx : n.tx = none) (hn : ToggleStart n) :
    Proc.Obeys toggleRules.discipline (fun _ m => ToggleDone m)
      (atPool (callSetEnabled id rawArgs key enabled)) n := by
  unfold callSetEnabled
  cases rawArgs.bind SetEnabledArgs.decode with
  | none => exact toggleDone_of_phase n (.inl hn)
  | some args =>
      rw [atPool_bind]
      refine Proc.obeys_bind _ _ _ (Proc.obeys_mono (fun r m hm => ?_) _ _
        (obeys_resolve args.projectSlug args.environmentSlug key htx hn))
      rcases hm with ⟨htx₁, hstart, hfound⟩
      -- No transaction is open, so the tool is done however the toggle ended.
      have hdone := toggleDone_of_phase m (.inl hstart)
      cases r with
      | error e => exact hdone
      | ok out =>
          cases out with
          | error e => exact hdone
          | ok ids =>
              rcases hfound ids rfl with ⟨proj, env, hproj, henv, rfl⟩
              simp only [atPool_then]
              refine Proc.obeys_bind _ _ _ (Proc.obeys_attempt _ _ (obeys_onPool _ m htx₁ ?_))
              refine served_mono (fun r m' hm' => ?_) _ (served_setEnabled key.ctx _
                (by rw [htx₁]; rfl) hstart args.projectSlug proj args.environmentSlug env hproj henv
                rfl rfl (.inl rfl) rfl)
              have hdone' : ToggleDone m' := by
                rcases hm' with ⟨htx₂, hlost | ⟨hidle, _⟩ | ⟨⟨f, e, b, hphase⟩, _⟩⟩
                · exact toggleDone_of_phase m' (.inr hlost)
                · exact toggleDone_of_phase m' (.inl hidle)
                · unfold ToggleDone
                  rw [hphase]
                  exact htx₂.trans htx₁
              cases r with
              | error e => cases e <;> exact hdone'
              | ok u => exact hdone'

end Programs

/-- The note of a request that has not begun. -/
def toggleBlank : TxNote ToggleNote := ⟨none, [], ⟨[], .idle⟩⟩

/-- Every toggle follows the rules, and leaves nothing undone. -/
theorem toggleThread_obeys (h : TxHost) (p : TxProg Unit) (hp : toggleThread h p) :
    Proc.Follows toggleRules.discipline p toggleBlank ∧
      Proc.Rests toggleRules.discipline ToggleDone p toggleBlank := by
  refine Proc.obeys_rests p toggleBlank ?_
  -- A toggle comes over the route or through the tool.
  rcases hp with ⟨authorization, projSlug, envSlug, key, body, hslug, rfl⟩ |
    ⟨id, rawArgs, key, enabled, rfl⟩
  · have hroute := served_route toggleRules_opens (fun n hn => toggleDone_of_phase n (.inl hn))
      h.http authorization projSlug hslug
      (fun ac tenant => FlagEnvironmentHandler.setEnabled ⟨some ac, tenant⟩ projSlug envSlug key
        body) toggleBlank rfl rfl
      (fun ac projectID t m hm htx =>
        served_handler ac projectID projSlug envSlug key body t hm htx)
    refine Proc.obeys_bind _ _ _ (Proc.obeys_mono (fun r m hm => ?_) _ _ hroute)
    rcases hm with ⟨x, rfl, hdone⟩
    exact hdone
  · refine Proc.obeys_bind _ _ _ (Proc.obeys_mono (fun r m hm => ?_) _ _
      (obeys_callSetEnabled id rawArgs key enabled (n := toggleBlank) rfl rfl))
    cases r with
    | error e => exact hm
    | ok a => exact hm

end Cuttlegate
