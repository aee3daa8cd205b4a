import Cuttlegate.Theory.Transactions

/-!
# Creations that Fill in the Other Side

A state row belongs to a flag and an environment. Creating a flag lists the
environments of the project and adds a row for each, and creating an
environment does the same with the flags, so the two are one procedure seen
from two sides. Deleting either takes its rows along.

The threads of the pool are any number of such requests, each in a transaction
of its own. The notes record how far a request is: what it has created, which
rows of the other side it has listed, and for which of these it has added a
state row. A transaction is committed only when none is left.

## Main definitions

* `Side`: The two sides of a state row.
* `FlagEnvironmentRequest.serve`, `backfillThread`: The requests.
* `Backfill`, `backfillRules`: How far a request is.

## Theorems

* `served_createBatch`: The loop that adds the rows.
* `served_flagCreate`, `served_environmentCreate`: The services.
* `backfillThread_follows`: Every request follows the rules.
-/

namespace Cuttlegate

/-! ## The two sides of a state row -/

inductive Side where
  | flag
  | environment
  deriving DecidableEq, Repr

def Side.other : Side → Side
  | .flag => .environment
  | .environment => .flag

/-- The state row of an id of this side and one of the other. -/
def Side.row (side : Side) (id otherID : String) : FlagEnvironmentState :=
  match side with
  | .flag => ⟨id, otherID, false⟩
  | .environment => ⟨otherID, id, false⟩

/-- The query for all rows of this side that belong to a project. -/
def Side.list (side : Side) (projectID : String) : Op :=
  match side with
  | .flag => .listFlags projectID
  | .environment => .listEnvironments projectID

/-- The operation creates the row of this side with the given id and project. -/
def Op.creates (op : Op) (side : Side) (id projectID : String) : Prop :=
  match op, side with
  | .createFlag f, .flag => f.id = id ∧ f.projectID = projectID
  | .createEnvironment e, .environment => e.id = id ∧ e.projectID = projectID
  | _, _ => False

/-! ## Requests -/

/-- The requests that create and delete flags and environments. -/
inductive FlagEnvironmentRoute where
  | createFlag (body : Option Json)
  | deleteFlag (key : String)
  | createEnvironment (body : Option Json)
  | deleteEnvironment (envSlug : String)

/-- Such a request. A segment of a path is never empty. -/
structure FlagEnvironmentRequest where
  authorization : String
  projSlug : String
  projSlug_ne : projSlug ≠ ""
  route : FlagEnvironmentRoute

/-- The handler of a route. -/
def FlagEnvironmentRequest.handler (req : FlagEnvironmentRequest) (ctx : Ctx) : HttpProg Response :=
  match req.route with
  | .createFlag body => FlagHandler.create ctx req.projSlug body
  | .deleteFlag key => FlagHandler.delete ctx req.projSlug key
  | .createEnvironment body => EnvironmentHandler.create ctx req.projSlug body
  | .deleteEnvironment envSlug => EnvironmentHandler.delete ctx req.projSlug envSlug

/-- The route behind its middleware. -/
def FlagEnvironmentRequest.serve (h : HttpHost) (req : FlagEnvironmentRequest) :
    HttpProg Response :=
  requireBearer h req.authorization (fun ac =>
    tenantRLS req.projSlug (fun tenant => req.handler ⟨some ac, tenant⟩))

/-- A thread of the pool. -/
def backfillThread (h : TxHost) (p : TxProg Unit) : Prop :=
  ∃ req : FlagEnvironmentRequest, p = atServer (req.serve h.http) none >>= fun _ => Proc.ret ()

/-! ## How far a request is -/

/-- What a request has done in its transaction. -/
inductive Backfill where
  | idle
  /-- A row of one side was created, on the connection of a tenant. -/
  | created (side : Side) (tenant : Option String) (id projectID : String)
  /-- The other side was listed; the ids that have got a state row, and those
      that have not. -/
  | listed (side : Side) (id projectID : String) (filled missing : List String)
  | deleted
  /-- A creation was taken back. -/
  | failed

/-- The request may commit. -/
def Backfill.Ready : Backfill → Prop
  | .idle | .deleted => True
  | .listed _ _ _ _ missing => missing = []
  | _ => False

/-- What the answer to a statement in the transaction makes of the note. -/
def Backfill.see (c : Call) (r : Except Err c.Ret) (b : Backfill) : Backfill :=
  match c, r, b with
  | ⟨tenant, .createFlag f⟩, .ok _, .idle => .created .flag tenant f.id f.projectID
  | ⟨tenant, .createEnvironment e⟩, .ok _, .idle =>
      .created .environment tenant e.id e.projectID
  | ⟨_, .listEnvironments _⟩, .ok envs, .created side _ id projectID =>
      .listed side id projectID [] (envs.map (fun e => e.id))
  | ⟨_, .listFlags _⟩, .ok flags, .created side _ id projectID =>
      .listed side id projectID [] (flags.map (fun f => f.id))
  | ⟨_, .insertState _⟩, .ok _, .listed side id projectID filled (otherID :: missing) =>
      .listed side id projectID (filled ++ [otherID]) missing
  -- A delete as the request's own write, and below it a delete that undoes a create.
  | ⟨_, .deleteFlag _⟩, .ok _, .idle => .deleted
  | ⟨_, .deleteEnvironment _⟩, .ok _, .idle => .deleted
  | ⟨_, .deleteFlag _⟩, .error _, .idle => .idle
  | ⟨_, .deleteEnvironment _⟩, .error _, .idle => .idle
  | ⟨_, .deleteFlag _⟩, _, _ => .failed
  | ⟨_, .deleteEnvironment _⟩, _, _ => .failed
  | _, _, b => b

/-- Everything of interest is done in the transaction. A creation comes first,
    then the other side is listed, on the same connection and for the same
    project, and then the state rows are added one by one. -/
def backfillRules : TxRules Backfill where
  permits := fun op n => match op with
    | .pool c => c.op.writes ⊆ [.users, .auditEvents]
    | .within _ c => match c.op with
        | .createFlag _ | .createEnvironment _ => n.own = .idle
        | .listEnvironments p => ∃ id, n.own = .created .flag c.tenant id p
        | .listFlags p => ∃ id, n.own = .created .environment c.tenant id p
        -- Each row of the batch is the next missing one.
        | .insertState st => ∃ side id p filled otherID missing,
            n.own = .listed side id p filled (otherID :: missing) ∧ st = side.row id otherID
        | .deleteFlag _ | .deleteEnvironment _ => True
        | op => op.writes = []
    | .begin => n.own = .idle
    | .commit _ => n.own.Ready
    | _ => True
  after := fun op r n => match op, r with
    | .within _ c, r => n.own.see c r
    | .commit _, _ | .rollback _, _ => .idle
    | _, _ => n.own

/-! ## Every request follows the rules -/

section Programs

variable {n : TxNote Backfill}

/-- A statement on the pool, which leaves the note alone. -/
theorem served_aside (c : Call) (hplace : c.op.onTenant = false)
    (hc : c.op.writes ⊆ [.users, .auditEvents]) {Q : Except Err c.Ret → TxNote Backfill → Prop}
    (hQ : ∀ r, Q r n) : ServedBy backfillRules Q (Proc.call (HttpOp.db c)) n := by
  have hout : c.inTx = false := by
    unfold Call.inTx
    rw [hplace, Bool.and_false]
  exact served_pool c (.inr hout) hc (fun r => hQ r)

/-- A statement of the transaction. -/
theorem served_inside (ctx : Ctx) (projectID : String) (htenant : ctx.tenant = some projectID)
    (op : Op) (t : Nat) (htx : n.tx = some t) (hplace : op.onTenant = true)
    {Q : Except Err op.Ret → TxNote Backfill → Prop}
    (hop : backfillRules.permits (.within t ⟨ctx.tenant, op⟩) n)
    (hQ : ∀ r m, m.tx = some t → m.own = n.own.see ⟨ctx.tenant, op⟩ r → Q r m) :
    ServedBy backfillRules Q (onDB (ctx.call op)) n := by
  rw [onDB_call]
  have hin : Call.inTx ⟨ctx.tenant, op⟩ = true := by
    unfold Call.inTx
    rw [htenant, hplace]
    rfl
  exact served_tx t ⟨ctx.tenant, op⟩ htx hin hop (fun r => hQ r _ htx rfl)

/-- The transaction is open, and after a success it may be committed. -/
def Settles {α : Type} (t : Nat) (r : Except Err α) (m : TxNote Backfill) : Prop :=
  m.tx = some t ∧ ∀ a, r = .ok a → m.own.Ready

/-- A failure leaves nothing to be settled. -/
theorem settles_error {α : Type} (t : Nat) (e : Err) (m : TxNote Backfill) (htx : m.tx = some t) :
    Settles t (.error e : Except Err α) m :=
  ⟨htx, fun _ ha => (nomatch ha)⟩

theorem settles_ready {α : Type} (t : Nat) (r : Except Err α) (m : TxNote Backfill)
    (htx : m.tx = some t) (hready : m.own.Ready) : Settles t r m :=
  ⟨htx, fun _ _ => hready⟩

/-- A value drawn from the surroundings. -/
theorem served_drawn {β : Type} (ctx : Ctx) (op : Op) (hplace : op.onTenant = false)
    (hop : op.writes = []) (k : op.Ret → Prog β) {Q : Except Err β → TxNote Backfill → Prop}
    (hfail : ∀ e, Q (.error e) n) (hk : ∀ a, ServedBy backfillRules Q (onDB (k a)) n) :
    ServedBy backfillRules Q (onDB (ctx.call op >>= k)) n := by
  refine served_service _ _ ?_
  rw [onDB_call]
  refine served_aside ⟨ctx.tenant, op⟩ hplace ?_ (fun r => ?_)
  · change op.writes ⊆ _
    rw [hop]
    exact List.nil_subset _
  · cases r with
    | error e => exact hfail e
    | ok a => exact hk a

/-- A check. -/
theorem served_check {α β : Type} (x : Except Err α) (k : α → Prog β)
    {Q : Except Err β → TxNote Backfill → Prop} (hfail : ∀ e, Q (.error e) n)
    (hk : ∀ a, ServedBy backfillRules Q (onDB (k a)) n) :
    ServedBy backfillRules Q (onDB (check x >>= k)) n := by
  cases x with
  | error e => exact served_fail e (hfail e)
  | ok a => exact hk a

/-- The role check at the head of a method. -/
theorem served_require {β : Type} (ctx : Ctx) (min : Role) (k : AuthContext → Prog β)
    {Q : Except Err β → TxNote Backfill → Prop} (hfail : ∀ e, Q (.error e) n)
    (hk : ∀ ac, ServedBy backfillRules Q (onDB (k ac)) n) :
    ServedBy backfillRules Q (onDB (ctx.require min >>= k)) n :=
  served_check (requireRole ctx.auth min) k hfail hk

/-- A step that is taken back when it fails. -/
theorem served_undoing {α : Type} (step : Prog α) (undo : Prog Unit)
    {Q : Except Err α → TxNote Backfill → Prop}
    (hstep : ServedBy backfillRules (fun r m => match r with
      | .ok a => Q (.ok a) m
      | .error e => ServedBy backfillRules (fun _ m' => Q (.error e) m') (onDB undo) m)
      (onDB step) n) : ServedBy backfillRules Q (onDB (undoing step undo)) n := by
  unfold undoing
  rw [onDB_bind, onDB_attempt]
  refine served_then _ _ (served_mono (fun r m hr => ?_) _ hstep)
  cases r with
  | ok a => exact served_ret a hr
  | error e =>
      change ServedBy backfillRules Q (onDB (undo.attempt >>= fun _ => Proc.fail e)) m
      rw [onDB_bind, onDB_attempt]
      exact served_then _ _ (served_mono (fun _ m' hm' => served_fail e hm') _ hr)

/-- An audit event at the end of a method, and the answer. -/
theorem served_audited {α : Type} (ctx : Ctx) (t : Nat) (entry : AuditEntry) (a : α)
    (htx : n.tx = some t)
    (hready : n.own.Ready) :
    ServedBy backfillRules (Settles t)
      (onDB (recordAudit ctx entry >>= fun _ => Proc.ret a)) n := by
  have hdone : ∀ r : Except Err Unit, ServedBy backfillRules (Settles t)
      (onDB (Proc.ret () >>= fun _ => Proc.ret a)) n :=
    fun r => served_ret a (settles_ready t _ n htx hready)
  unfold recordAudit bestEffort
  rw [Proc.bind_assoc, onDB_bind, onDB_attempt]
  refine served_then _ _ ?_
  refine served_drawn ctx .newUUID rfl rfl _ (fun e => hdone (.error e)) (fun id => ?_)
  refine served_drawn ctx .now rfl rfl _ (fun e => hdone (.error e)) (fun now => ?_)
  rw [onDB_call]
  exact served_aside ⟨ctx.tenant, .recordAudit _⟩ rfl (by simp [Op.writes]) hdone

variable (ctx : Ctx) (projectID : String) (htenant : ctx.tenant = some projectID) (t : Nat)
include htenant

/-- The deletion that takes a creation back. -/
theorem served_undo {α : Type} (op : Op)
    (hop : ∃ id, op = .deleteFlag id ∨ op = .deleteEnvironment id) (e : Err) (htx : n.tx = some t) :
    ServedBy backfillRules (fun _ m => Settles t (.error e : Except Err α) m)
      (onDB (ctx.call op)) n := by
  rcases hop with ⟨id, rfl | rfl⟩
  · exact served_inside ctx projectID htenant _ t htx rfl trivial
      (fun r m htx' _ => settles_error t e m htx')
  · exact served_inside ctx projectID htenant _ t htx rfl trivial
      (fun r m htx' _ => settles_error t e m htx')

/-- The loop that adds the state rows. -/
theorem served_createBatch (side : Side) (id p : String) (missing filled : List String)
    (htx : n.tx = some t) (hown : n.own = .listed side id p filled missing) :
    ServedBy backfillRules (Settles t) (onDB (createBatch ctx (missing.map (side.row id)))) n := by
  induction missing generalizing n filled with
  | nil =>
      refine served_ret () (settles_ready t _ n htx ?_)
      rw [hown]
      rfl
  | cons otherID missing ih =>
      refine served_service _ _ (served_inside ctx projectID htenant (.insertState _) t htx rfl
        ⟨side, id, p, filled, otherID, missing, hown, rfl⟩ (fun r m htx' hown' => ?_))
      cases r with
      | error e => exact settles_error t e m htx'
      | ok u =>
          rw [hown] at hown'
          exact ih _ htx' hown'

/-- The second half of the creation of a flag. -/
theorem served_enterEnvironments (flag : Flag) (htx : n.tx = some t)
    (hown : n.own = .created .flag ctx.tenant flag.id flag.projectID) :
    ServedBy backfillRules (Settles t) (onDB (FlagService.enterEnvironments ctx flag)) n := by
  unfold FlagService.enterEnvironments
  refine served_service _ _ (served_undoing _ _ ?_)
  refine served_inside ctx projectID htenant (.listEnvironments _) t htx rfl ⟨flag.id, hown⟩
    (fun r m htx₁ hown₁ => ?_)
  rw [hown] at hown₁
  -- A failed listing is undone by deleting the flag just created.
  cases r with
  | error e => exact served_undo ctx projectID htenant t _ ⟨_, .inl rfl⟩ e htx₁
  | ok envs =>
      by_cases hnone : envs.length = 0
      · simp only [if_pos hnone]
        refine served_audited ctx t _ flag htx₁ ?_
        rw [hown₁, List.length_eq_zero_iff.mp hnone]
        rfl
      · simp only [if_neg hnone]
        refine served_service _ _ (served_undoing _ _ ?_)
        have hrows : envs.map (fun e => (⟨flag.id, e.id, false⟩ : FlagEnvironmentState)) =
            (envs.map (fun e => e.id)).map (Side.flag.row flag.id) := by
          rw [List.map_map]
          rfl
        rw [hrows]
        refine served_mono (fun r m' hm' => ?_) _
          (served_createBatch ctx projectID htenant t .flag flag.id _ _ [] htx₁ hown₁)
        cases r with
        | error e => exact served_undo ctx projectID htenant t _ ⟨_, .inl rfl⟩ e hm'.1
        | ok u => exact served_audited ctx t _ flag hm'.1 (hm'.2 u rfl)

theorem served_flagCreate (flag : Flag) (htx : n.tx = some t) (hown : n.own = .idle) :
    ServedBy backfillRules (Settles t) (onDB (FlagService.create ctx flag)) n := by
  have hfail : ∀ e, Settles t (.error e : Except Err Flag) n := fun e => settles_error t e n htx
  refine served_require ctx _ _ hfail (fun ac => served_check _ _ hfail (fun _ => ?_))
  refine served_drawn ctx .newUUID rfl rfl _ hfail (fun id => ?_)
  refine served_drawn ctx .now rfl rfl _ hfail (fun now => served_service _ _ ?_)
  refine served_inside ctx projectID htenant (.createFlag _) t htx rfl hown
    (fun r m htx₁ hown₁ => ?_)
  cases r with
  | error e => exact settles_error t e m htx₁
  | ok u =>
      rw [hown] at hown₁
      exact served_enterEnvironments ctx projectID htenant t _ htx₁ hown₁

theorem served_environmentCreate (pid name envSlug : String) (htx : n.tx = some t)
    (hown : n.own = .idle) :
    ServedBy backfillRules (Settles t)
      (onDB (EnvironmentService.create ctx pid name envSlug)) n := by
  have hfail : ∀ e, Settles t (.error e : Except Err Environment) n :=
    fun e => settles_error t e n htx
  refine served_require ctx _ _ hfail (fun ac => ?_)
  refine served_drawn ctx .newUUID rfl rfl _ hfail (fun id => ?_)
  refine served_drawn ctx .now rfl rfl _ hfail (fun now => ?_)
  refine served_check _ _ hfail (fun _ => served_service _ _ ?_)
  -- From the create on the transaction owes rows, and each failure below is undone.
  refine served_inside ctx projectID htenant (.createEnvironment _) t htx rfl hown
    (fun r m htx₁ hown₁ => ?_)
  rw [hown] at hown₁
  cases r with
  | error e => exact settles_error t e m htx₁
  | ok u =>
      refine served_service _ _ (served_undoing _ _ ?_)
      refine served_inside ctx projectID htenant (.listFlags _) t htx₁ rfl ⟨id, hown₁⟩
        (fun r m₂ htx₂ hown₂ => ?_)
      rw [hown₁] at hown₂
      cases r with
      | error e => exact served_undo ctx projectID htenant t _ ⟨_, .inr rfl⟩ e htx₂
      | ok flags =>
          by_cases hsome : flags.length > 0
          · simp only [if_pos hsome]
            refine served_service _ _ (served_undoing _ _ ?_)
            have hrows : flags.map (fun f => (⟨f.id, id, false⟩ : FlagEnvironmentState)) =
                (flags.map (fun f => f.id)).map (Side.environment.row id) := by
              rw [List.map_map]
              rfl
            rw [hrows]
            refine served_mono (fun r m' hm' => ?_) _
              (served_createBatch ctx projectID htenant t .environment id _ _ [] htx₂ hown₂)
            cases r with
            | error e => exact served_undo ctx projectID htenant t _ ⟨_, .inr rfl⟩ e hm'.1
            | ok u => exact served_ret _ (settles_ready t _ m' hm'.1 (hm'.2 u rfl))
          · simp only [if_neg hsome]
            refine served_ret _ (settles_ready t _ m₂ htx₂ ?_)
            rw [hown₂, List.length_eq_zero_iff.mp (Nat.eq_zero_of_not_pos hsome)]
            rfl

/-- A lookup in the transaction, before anything is written there. -/
theorem served_found {β : Type} (op : Op) (k : op.Ret → Prog β) (htx : n.tx = some t)
    (hplace : op.onTenant = true) (hop : backfillRules.permits (.within t ⟨ctx.tenant, op⟩) n)
    (hsee : ∀ r, n.own.see ⟨ctx.tenant, op⟩ r = n.own)
    (hk : ∀ a m, m.tx = some t → m.own = n.own →
      ServedBy backfillRules (Settles t) (onDB (k a)) m) :
    ServedBy backfillRules (Settles t) (onDB (ctx.call op >>= k)) n := by
  refine served_service _ _ (served_inside ctx projectID htenant op t htx hplace hop
    (fun r m htx₁ hown₁ => ?_))
  rw [hsee] at hown₁
  cases r with
  | error e => exact settles_error t e m htx₁
  | ok a => exact hk a m htx₁ hown₁

theorem served_flagDelete (pid key : String) (htx : n.tx = some t) (hown : n.own = .idle) :
    ServedBy backfillRules (Settles t) (onDB (FlagService.deleteByKey ctx pid key)) n := by
  refine served_require ctx _ _ (fun e => settles_error t e n htx) (fun ac => ?_)
  refine served_found ctx projectID htenant t (.flagByKey pid key) _ htx rfl rfl
    (fun r => by cases r <;> rfl) (fun f m htx₁ hown₁ => served_service _ _ ?_)
  refine served_inside ctx projectID htenant (.deleteFlag f.id) t htx₁ rfl trivial
    (fun r m₂ htx₂ hown₂ => ?_)
  rw [hown₁, hown] at hown₂
  cases r with
  | error e => exact settles_error t e m₂ htx₂
  | ok u =>
      have hready : m₂.own.Ready := by
        rw [hown₂]
        trivial
      have haudit := served_audited ctx t
        { action := "flag.deleted", entityID := f.id, entityKey := f.key
          projectID := f.projectID, before := f.key } () htx₂ hready
      rw [Proc.bind_ret] at haudit
      exact haudit

theorem served_environmentDelete (pid slug : String) (htx : n.tx = some t) (hown : n.own = .idle) :
    ServedBy backfillRules (Settles t) (onDB (EnvironmentService.deleteBySlug ctx pid slug)) n := by
  refine served_require ctx _ _ (fun e => settles_error t e n htx) (fun ac => ?_)
  refine served_found ctx projectID htenant t (.environmentBySlug pid slug) _ htx rfl rfl
    (fun r => by cases r <;> rfl) (fun env m htx₁ hown₁ => ?_)
  refine served_inside ctx projectID htenant (.deleteEnvironment env.id) t htx₁ rfl trivial
    (fun r m₂ htx₂ hown₂ => ?_)
  rw [hown₁, hown] at hown₂
  cases r with
  | error e => exact settles_error t e m₂ htx₂
  | ok u =>
      refine settles_ready t _ m₂ htx₂ ?_
      rw [hown₂]
      trivial

omit htenant in
/-- The middleware can end the transaction after a refusal. -/
theorem backfill_refused (htx : n.tx = some t) :
    Refusing (backfillRules.Closes (fun _ => True) t) n := by
  refine ⟨⟨htx, trivial⟩, fun e => ⟨htx, ?_⟩⟩
  rw [if_pos (writeError_status e)]
  exact ⟨trivial, fun _ => trivial⟩

omit htenant in
/-- A handler that answers with what its service settled. -/
theorem served_settled {α : Type} (p : Prog α) (answer : α → Response)
    (hp : ServedBy backfillRules (Settles t) (onDB p) n) :
    ServedBy backfillRules (backfillRules.Closes (fun _ => True) t)
      (orWriteError (onDB p) (fun a => return answer a)) n := by
  refine served_orWriteError _ _ (served_mono (fun r m hm => ?_) _ hp)
  cases r with
  | error e => exact backfill_refused t hm.1
  | ok a =>
      refine served_ret _ ⟨hm.1, ?_⟩
      split
      · exact ⟨trivial, fun _ => trivial⟩
      · exact ⟨hm.2 a rfl, fun _ => trivial⟩

/-- Every handler settles its transaction. -/
theorem served_flagEnvironment (req : FlagEnvironmentRequest) (htx : n.tx = some t)
    (hown : n.own = .idle) :
    ServedBy backfillRules (backfillRules.Closes (fun _ => True) t) (req.handler ctx) n := by
  -- All handlers look the project of the path up first.
  have hproject : ∀ k : Project → HttpProg Response,
      (∀ proj, ServedBy backfillRules (backfillRules.Closes (fun _ => True) t) (k proj) n) →
      ServedBy backfillRules (backfillRules.Closes (fun _ => True) t)
        (orWriteError (onDB (ProjectService.getBySlug ctx req.projSlug)) k) n := by
    intro k hk
    unfold ProjectService.getBySlug
    rw [onDB_call]
    refine served_orWriteError _ _ (served_aside ⟨ctx.tenant, .projectBySlug req.projSlug⟩ rfl
      (List.nil_subset _) (fun r => ?_))
    cases r with
    | error e => exact backfill_refused t htx
    | ok proj => exact hk proj
  unfold FlagEnvironmentRequest.handler
  cases req.route with
  | createFlag body =>
      refine hproject _ (fun proj => ?_)
      cases body.bind FlagBody.decode with
      | none => exact served_ret _ ((backfill_refused t htx).2 _)
      | some b =>
          exact served_settled t _ _ (served_flagCreate ctx projectID htenant t _ htx hown)
  | deleteFlag key =>
      exact hproject _ (fun proj => served_settled t _ _
        (served_flagDelete ctx projectID htenant t _ _ htx hown))
  | createEnvironment body =>
      refine hproject _ (fun proj => ?_)
      cases body.bind EnvironmentBody.decode with
      | none => exact served_ret _ ((backfill_refused t htx).2 _)
      | some b =>
          exact served_settled t _ _
            (served_environmentCreate ctx projectID htenant t _ _ _ htx hown)
  | deleteEnvironment envSlug =>
      exact hproject _ (fun proj => served_settled t _ _
        (served_environmentDelete ctx projectID htenant t _ _ htx hown))

end Programs

/-- The middleware leaves a request at its start. -/
theorem backfillRules_opens : backfillRules.Opens (fun n => n.own = .idle) := by
  refine ⟨fun u n hn => ⟨?_, fun r => hn⟩, fun slug n hn => ⟨List.nil_subset _, fun r => hn⟩,
    fun n hn => ⟨hn, fun r => hn⟩, fun t id n hn => ⟨trivial, fun r => hn⟩,
    fun t n hn => ⟨trivial, fun r => rfl⟩⟩
  change [Tbl.users] ⊆ _
  simp

/-- The note of a request that has not begun. -/
def backfillBlank : TxNote Backfill := ⟨none, [], .idle⟩

/-- Every request follows the rules. -/
theorem backfillThread_follows (h : TxHost) (p : TxProg Unit) (hp : backfillThread h p) :
    Proc.Follows backfillRules.discipline p backfillBlank := by
  rcases hp with ⟨req, rfl⟩
  have hroute := served_route backfillRules_opens (E := fun _ => True) (fun _ _ => trivial) h.http
    req.authorization req.projSlug req.projSlug_ne (fun ac tenant => req.handler ⟨some ac, tenant⟩)
    backfillBlank rfl rfl
    (fun ac projectID t m hm htx => served_flagEnvironment _ projectID rfl t req htx hm)
  refine (Proc.obeys_rests (E := fun _ => True) _ _ (Proc.obeys_bind _ _ _
    (Proc.obeys_mono (fun r m hm => ?_) _ _ hroute))).1
  cases r <;> trivial

end Cuttlegate
