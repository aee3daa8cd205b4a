import Cuttlegate.Store.Operations

/-!
# The Request Context

What a service method receives besides its arguments, and the shapes the
methods are built from.

The context carries the authenticated caller, if there is one, and the tenant
whose transaction the request runs in, if there is one. A method asks for a
role (`Ctx.require`), performs operations (`Ctx.call`), and may undo its first
write when a later one fails (`undoing`).

A role check that fails ends the method before its first operation.
`ends_require` says so once for every method: either the caller passes and the
rest runs, or the answer is `forbidden` and the world is untouched.

## Main definitions

* `Ctx`: The request context.
* `Ctx.call`: One operation.
* `Ctx.require`: The role check.
* `check`: A pure check.
* `undoing`: Running a compensation when a step fails.
* `bestEffort`: Running a step whose failure is only logged.
* `Within`: The tables a program may write.

## Theorems

* `within_bind` and the other footprint rules.
* `Within.same`, `Within.store`: A program leaves the tables outside its
  footprint alone.
* `ends_require`: A guarded method is forbidden or runs its body.
* `ends_call`, `ends_read`, `ends_check`, `ends_bestEffort`, `ends_undoing`:
  Runs, followed step by step.
* `ends_step`, `ends_findFlag`, `ends_guard`: The same, with what a step fails
  by.
* `ends_answer`, `ends_attempt_call`: Runs on a host that never fails.
* `run_call_failing`, `run_call_ok`, `run_call_error`: A step, by what the
  surroundings decide about it.
* `endsAlong_call`, `endsAlong_undoing` and others: Runs whose operations meet
  a condition.
-/

namespace Cuttlegate

structure Ctx where
  auth : Option AuthContext
  tenant : Option String
  deriving DecidableEq

/-- Perform one operation on the connection of the context. -/
def Ctx.call (ctx : Ctx) (op : Op) : Prog op.Ret :=
  Proc.call (⟨ctx.tenant, op⟩ : Call)

/-- The role check at the head of a method. -/
def Ctx.require (ctx : Ctx) (min : Role) : Prog AuthContext :=
  Proc.ofExcept (requireRole ctx.auth min)

/-- A pure check as a step of a method. -/
def check {α : Type} (x : Except Err α) : Prog α := Proc.ofExcept x

/-- Run a step; when it fails, run the compensation, ignore how that went, and
    fail with the original error. -/
def undoing {α : Type} (step : Prog α) (undo : Prog Unit) : Prog α := do
  match ← step.attempt with
  | .ok a => return a
  | .error e => do
      let _ ← undo.attempt
      Proc.fail e

/-- Run a step whose failure is logged and otherwise ignored. -/
def bestEffort (step : Prog Unit) : Prog Unit := do
  let _ ← step.attempt
  return ()

/-! ## Footprints

`Within ts p` says that the operations of `p` write no table outside `ts`. It
is established along the program text, one rule for each shape a step has. -/

/-- The operation writes no table outside `ts`. -/
def InTables (ts : List Tbl) (c : Call) : Prop := c.op.writes ⊆ ts

/-- Every operation of the program writes no table outside `ts`. -/
def Within {α : Type} (ts : List Tbl) (p : Prog α) : Prop := Proc.Uses (InTables ts) p

section Footprint

variable {ts : List Tbl} {α β : Type}

theorem within_ret (a : α) : Within ts (Proc.ret a : Prog α) := trivial

theorem within_fail (e : Err) : Within ts (Proc.fail e : Prog α) := trivial

/-- An operation is within the tables it writes. -/
theorem within_call (ctx : Ctx) (op : Op) (hop : op.writes ⊆ ts) : Within ts (ctx.call op) :=
  (Proc.uses_call (⟨ctx.tenant, op⟩ : Call)).mpr hop

/-- A read is within any tables. -/
theorem within_read (ctx : Ctx) (op : Op) (hop : op.writes = []) : Within ts (ctx.call op) := by
  refine within_call ctx op ?_
  rw [hop]
  exact List.nil_subset ts

theorem within_bind (x : Prog α) (f : α → Prog β) (hx : Within ts x) (hf : ∀ a, Within ts (f a)) :
    Within ts (x >>= f) :=
  Proc.uses_bind x f hx hf

theorem within_attempt (x : Prog α) (hx : Within ts x) : Within ts x.attempt :=
  (Proc.uses_attempt x).mpr hx

/-- A check performs no operation. -/
theorem within_check (x : Except Err α) (f : α → Prog β) (hf : ∀ a, Within ts (f a)) :
    Within ts (check x >>= f) :=
  within_bind _ f (Proc.uses_ofExcept x) hf

theorem within_require (ctx : Ctx) (min : Role) (body : AuthContext → Prog β)
    (hbody : ∀ ac, Within ts (body ac)) : Within ts (ctx.require min >>= body) :=
  within_bind _ body (Proc.uses_ofExcept _) hbody

theorem within_undoing (step : Prog α) (undo : Prog Unit) (hstep : Within ts step)
    (hundo : Within ts undo) : Within ts (undoing step undo) := by
  refine within_bind _ _ (within_attempt step hstep) (fun r => ?_)
  cases r with
  | ok a => exact within_ret a
  | error e => exact within_bind _ _ (within_attempt undo hundo) (fun _ => within_fail e)

theorem within_bestEffort (step : Prog Unit) (hstep : Within ts step) :
    Within ts (bestEffort step) :=
  within_bind _ _ (within_attempt step hstep) (fun _ => within_ret ())

theorem within_mono {us : List Tbl} (hsub : ts ⊆ us) (p : Prog α) (hp : Within ts p) :
    Within us p :=
  Proc.uses_mono (fun _ hc => List.Subset.trans hc hsub) p hp

/-- A program leaves every table it is not within alone. -/
theorem Within.same (h : Host) (p : Prog α) (hp : Within ts p) (t : Tbl) (ht : t ∉ ts) (w : World) :
    w.Same (Proc.run (exec h) p w).2 t := by
  have houtside : ∀ c, InTables ts c → t ∉ c.op.writes := fun c hc hmem => ht (hc hmem)
  exact run_frame h p t (Proc.uses_mono houtside p hp) w

/-- A program that writes nothing leaves the database as it was. -/
theorem Within.store (h : Host) (p : Prog α) (hp : Within [] p) (w : World) :
    (Proc.run (exec h) p w).2.store = w.store := by
  refine Proc.run_rel (exec h) (fun w w' => w'.store = w.store) (fun _ => rfl)
    (fun _ _ _ h₁ h₂ => h₂.trans h₁) (fun c w hc => ?_) p hp w
  rcases exec_cases h c w with ⟨e, he⟩ | ⟨a, w', hperform, he⟩
  · rw [he, World.tick_store]
  · rw [he, World.tick_store, c.op.perform_read h _ w w' a (List.subset_nil.mp hc) hperform]

end Footprint

/-! ## Runs, step by step

One rule for each shape a step has, for following a run along the text of the
program to a postcondition on its outcome and final world. -/

section Runs

variable {α β : Type} {h : Host} {Q : Except Err β → World → Prop}

/-- A guarded method is refused with the world untouched, or the caller passes
    the check and the body runs. -/
theorem ends_require (ctx : Ctx) (min : Role) (body : AuthContext → Prog β) (w : World)
    (hno : (∀ ac, ctx.auth = some ac → roleLevel ac.role < roleLevel min) →
      Q (.error .forbidden) w)
    (hyes : ∀ ac, ctx.auth = some ac → roleLevel min ≤ roleLevel ac.role →
      Proc.Ends (exec h) Q (body ac) w) :
    Proc.Ends (exec h) Q (ctx.require min >>= body) w := by
  unfold Ctx.require
  cases hr : requireRole ctx.auth min with
  | error e =>
      rcases (requireRole_error_iff ctx.auth min e).mp hr with ⟨rfl, hlow⟩
      exact hno hlow
  | ok ac =>
      rcases (requireRole_ok_iff ctx.auth min ac).mp hr with ⟨hauth, hlevel⟩
      exact hyes ac hauth hlevel

/-- A step that is an operation fails and ends the run, or is performed. -/
theorem ends_call (ctx : Ctx) (op : Op) (k : op.Ret → Prog β) (w : World)
    (hfail : ∀ e, Q (.error e) w.tick)
    (hok : ∀ a w', op.perform h ⟨ctx.tenant, h.rls⟩ w = .ok (a, w') →
      Proc.Ends (exec h) Q (k a) w'.tick) :
    Proc.Ends (exec h) Q (ctx.call op >>= k) w := by
  refine Proc.ends_bind _ _ w (fun e s' hrun => ?_) (fun a s' hrun => ?_)
  · rw [Ctx.call, Proc.run_call] at hrun
    rw [exec_error h ⟨ctx.tenant, op⟩ w s' e hrun]
    exact hfail e
  · rw [Ctx.call, Proc.run_call] at hrun
    rcases exec_ok h ⟨ctx.tenant, op⟩ w s' a hrun with ⟨w', hp, hs⟩
    rw [hs]
    exact hok a w' hp

/-- A step that is an operation, with what it fails by. -/
theorem ends_step (ctx : Ctx) (op : Op) (hop : op.fallible = true) (k : op.Ret → Prog β)
    (w : World)
    (hfails : h.fails w.calls = true → Q (.error .internal) w.tick)
    (herror : ∀ e, op.perform h ⟨ctx.tenant, h.rls⟩ w = .error e → Q (.error e) w.tick)
    (hok : h.fails w.calls = false → ∀ a w', op.perform h ⟨ctx.tenant, h.rls⟩ w = .ok (a, w') →
      Proc.Ends (exec h) Q (k a) w'.tick) :
    Proc.Ends (exec h) Q (ctx.call op >>= k) w := by
  unfold Proc.Ends
  rw [Proc.run_bind, Ctx.call, Proc.run_call]
  by_cases hf : h.fails w.calls = true
  · rw [exec_failing h ⟨ctx.tenant, op⟩ w hf hop]
    exact hfails hf
  · rw [Bool.not_eq_true] at hf
    rw [exec_passing h ⟨ctx.tenant, op⟩ w hf]
    cases hp : op.perform h ⟨ctx.tenant, h.rls⟩ w with
    | error e => exact herror e hp
    | ok out => exact hok hf out.1 out.2 hp

/-- A lookup of a flag goes on with the flag it finds, or it ends the run. -/
theorem ends_findFlag (ctx : Ctx) (projectID flagKey : String) (k : Flag → Prog β) (w : World)
    (hno : ∀ e, (h.fails w.calls = false → ∀ f,
        flagByKey ⟨ctx.tenant, h.rls⟩ projectID flagKey w.store ≠ .ok (f, w.store)) →
      Q (.error e) w.tick)
    (hyes : h.fails w.calls = false → ∀ f,
      flagByKey ⟨ctx.tenant, h.rls⟩ projectID flagKey w.store = .ok (f, w.store) →
      Proc.Ends (exec h) Q (k f) w.tick) :
    Proc.Ends (exec h) Q (ctx.call (.flagByKey projectID flagKey) >>= k) w := by
  refine ends_step ctx (.flagByKey projectID flagKey) rfl k w (fun hfails => ?_) (fun e hp => ?_)
    (fun hpass f w' hp => ?_)
  · refine hno _ (fun hpass => ?_)
    rw [hpass] at hfails
    exact absurd hfails Bool.false_ne_true
  · refine hno e (fun _ f hfound => ?_)
    simp only [Op.perform, World.onStore, hfound] at hp
    cases hp
  · rcases World.onStore_ok _ _ _ _ hp with ⟨s', hs', rfl⟩
    have hsame := (queryRow_ok _ _ _ _ hs').2
    rw [hsame] at hs' ⊢
    exact hyes hpass f hs'

/-- A read answers from the world it leaves unchanged, but for the count. -/
theorem ends_read (ctx : Ctx) (op : Op) (hop : op.writes = []) (k : op.Ret → Prog β) (w : World)
    (hfail : ∀ e, Q (.error e) w.tick)
    (hok : ∀ a, op.perform h ⟨ctx.tenant, h.rls⟩ w = .ok (a, w) →
      Proc.Ends (exec h) Q (k a) w.tick) :
    Proc.Ends (exec h) Q (ctx.call op >>= k) w := by
  refine ends_call ctx op k w hfail (fun a w' hp => ?_)
  have hw := op.perform_read h _ w w' a hop hp
  rw [hw] at hp ⊢
  exact hok a hp

/-- On a host that never fails, a step that can answer does. -/
theorem ends_answer (hfails : ∀ n, h.fails n = false) (ctx : Ctx) (op : Op) (k : op.Ret → Prog β)
    (w w' : World) (a : op.Ret) (hp : op.perform h ⟨ctx.tenant, h.rls⟩ w = .ok (a, w'))
    (hk : Proc.Ends (exec h) Q (k a) w'.tick) : Proc.Ends (exec h) Q (ctx.call op >>= k) w := by
  have hexec : exec h ⟨ctx.tenant, op⟩ w = (.ok a, w'.tick) := by
    rw [exec_steady h hfails, hp]
  unfold Proc.Ends
  rw [Proc.run_bind_ok (exec h) (ctx.call op) k w w'.tick a]
  · exact hk
  · rw [Ctx.call, Proc.run_call, hexec]

/-- The last step of a run, when it is an operation. -/
theorem ends_last (ctx : Ctx) (op : Op) (w : World) {Q : Except Err op.Ret → World → Prop}
    (hfail : ∀ e, Q (.error e) w.tick)
    (hok : ∀ a w', op.perform h ⟨ctx.tenant, h.rls⟩ w = .ok (a, w') → Q (.ok a) w'.tick) :
    Proc.Ends (exec h) Q (ctx.call op) w := by
  unfold Proc.Ends
  rw [Ctx.call, Proc.run_call]
  rcases exec_cases h ⟨ctx.tenant, op⟩ w with ⟨e, he⟩ | ⟨a, w', hp, he⟩
  · rw [he]
    exact hfail e
  · rw [he]
    exact hok a w' hp

/-- A check ends the run or lets it go on. -/
theorem ends_check (x : Except Err α) (k : α → Prog β) (w : World)
    (hfail : ∀ e, x = .error e → Q (.error e) w)
    (hok : ∀ a, x = .ok a → Proc.Ends (exec h) Q (k a) w) :
    Proc.Ends (exec h) Q (check x >>= k) w := by
  cases x with
  | error e => exact hfail e rfl
  | ok a => exact hok a rfl

/-- A guard ends the run when its condition is on. -/
theorem ends_guard (c : Prop) [Decidable c] (e : Err) (k : Unit → Prog β) (w : World)
    (hon : c → Q (.error e) w) (hoff : ¬ c → Proc.Ends (exec h) Q (k ()) w) :
    Proc.Ends (exec h) Q (check (refuseIf c e) >>= k) w := by
  by_cases hc : c
  · rw [refuseIf, if_pos hc]
    exact hon hc
  · rw [refuseIf, if_neg hc]
    exact hoff hc

/-- On a host that never fails, a caught step is caught with what it does. -/
theorem ends_attempt_call (hfails : ∀ n, h.fails n = false) (ctx : Ctx) (op : Op)
    (k : Except Err op.Ret → Prog β) (w : World)
    (hok : ∀ a w', op.perform h ⟨ctx.tenant, h.rls⟩ w = .ok (a, w') →
      Proc.Ends (exec h) Q (k (.ok a)) w'.tick)
    (herror : ∀ e, op.perform h ⟨ctx.tenant, h.rls⟩ w = .error e →
      Proc.Ends (exec h) Q (k (.error e)) w.tick) :
    Proc.Ends (exec h) Q ((ctx.call op).attempt >>= k) w := by
  refine Proc.ends_attempt _ _ w (fun r w₁ hrun => ?_)
  rw [Ctx.call, Proc.run_call, exec_steady h hfails] at hrun
  cases hp : op.perform h ⟨ctx.tenant, h.rls⟩ w with
  | ok out =>
      simp only [hp, Prod.mk.injEq] at hrun
      rw [← hrun.1, ← hrun.2]
      exact hok out.1 out.2 hp
  | error e =>
      simp only [hp, Prod.mk.injEq] at hrun
      rw [← hrun.1, ← hrun.2]
      exact herror e hp

/-- A step that the surroundings fail ends the run. -/
theorem run_call_failing (ctx : Ctx) (op : Op) (k : op.Ret → Prog β) (w : World)
    (hfails : h.fails w.calls = true) (hop : op.fallible = true) :
    Proc.run (exec h) (ctx.call op >>= k) w = (.error .internal, w.tick) := by
  rw [Proc.run_bind, Ctx.call, Proc.run_call, exec_failing h ⟨ctx.tenant, op⟩ w hfails hop]

/-- A step that they let pass and that answers lets the run go on. -/
theorem run_call_ok (ctx : Ctx) (op : Op) (k : op.Ret → Prog β) (w w' : World) (a : op.Ret)
    (hfails : h.fails w.calls = false)
    (hp : op.perform h ⟨ctx.tenant, h.rls⟩ w = .ok (a, w')) :
    Proc.run (exec h) (ctx.call op >>= k) w = Proc.run (exec h) (k a) w'.tick := by
  rw [Proc.run_bind, Ctx.call, Proc.run_call, exec_passing h ⟨ctx.tenant, op⟩ w hfails, hp]

/-- A step that is refused ends the run. -/
theorem run_call_error (ctx : Ctx) (op : Op) (k : op.Ret → Prog β) (w : World) (e : Err)
    (hfails : h.fails w.calls = false)
    (hp : op.perform h ⟨ctx.tenant, h.rls⟩ w = .error e) :
    Proc.run (exec h) (ctx.call op >>= k) w = (.error e, w.tick) := by
  rw [Proc.run_bind, Ctx.call, Proc.run_call, exec_passing h ⟨ctx.tenant, op⟩ w hfails, hp]

/-- A caller who passes the role check goes on. -/
theorem run_require (ctx : Ctx) (min : Role) (ac : AuthContext)
    (hrole : requireRole ctx.auth min = .ok ac) (k : AuthContext → Prog β) (w : World) :
    Proc.run (exec h) (ctx.require min >>= k) w = Proc.run (exec h) (k ac) w := by
  unfold Ctx.require
  rw [hrole]
  rfl

/-- A check in the middle of a run. -/
theorem run_check (x : Except Err α) (k : α → Prog β) (w : World) :
    Proc.run (exec h) (check x >>= k) w = match x with
      | .ok a => Proc.run (exec h) (k a) w
      | .error e => (.error e, w) := by
  cases x with
  | ok a => rfl
  | error e => rfl

/-- A best-effort step leaves what it did, and never fails. -/
theorem run_bestEffort (h : Host) (step : Prog Unit) (w : World) :
    Proc.run (exec h) (bestEffort step) w = (.ok (), (Proc.run (exec h) step w).2) := by
  rw [bestEffort, Proc.run_bind, Proc.run_attempt]
  rfl

/-- A best-effort step never ends the run. -/
theorem ends_bestEffort (step : Prog Unit) (k : Unit → Prog β) (w : World)
    (hgo : ∀ r w', Proc.run (exec h) step w = (r, w') → Proc.Ends (exec h) Q (k ()) w') :
    Proc.Ends (exec h) Q (bestEffort step >>= k) w := by
  refine Proc.ends_bind _ _ w (fun e s' hrun => ?_) (fun a s' hrun => ?_)
  · rw [run_bestEffort] at hrun
    exact (nomatch hrun)
  · rw [run_bestEffort, Prod.mk.injEq] at hrun
    exact hgo (Proc.run (exec h) step w).1 s' (Prod.ext rfl hrun.2)

/-- A compensated step goes on, or ends the run after the compensation. -/
theorem ends_undoing (step : Prog α) (undo : Prog Unit) (k : α → Prog β) (w : World)
    (hfail : ∀ e w', Proc.run (exec h) step w = (.error e, w') →
      Proc.Ends (exec h) (fun _ w'' => Q (.error e) w'') undo w')
    (hok : ∀ a w', Proc.run (exec h) step w = (.ok a, w') → Proc.Ends (exec h) Q (k a) w') :
    Proc.Ends (exec h) Q (undoing step undo >>= k) w := by
  unfold Proc.Ends
  rw [Proc.run_bind, undoing, Proc.run_bind, Proc.run_attempt]
  cases hstep : Proc.run (exec h) step w with
  | mk r w' =>
      cases r with
      | ok a => exact hok a w' hstep
      | error e =>
          simp only [Proc.run_bind, Proc.run_attempt, Proc.run_fail]
          exact hfail e w' hstep

variable {ok : Call → World → Prop}

theorem endsAlong_require (ctx : Ctx) (min : Role) (body : AuthContext → Prog β) (w : World)
    (hno : ∀ e, Q (.error e) w) (hyes : ∀ ac, Proc.EndsAlong (exec h) ok Q (body ac) w) :
    Proc.EndsAlong (exec h) ok Q (ctx.require min >>= body) w := by
  unfold Ctx.require
  cases requireRole ctx.auth min with
  | error e => exact fun _ => hno e
  | ok ac => exact hyes ac

theorem endsAlong_check (x : Except Err α) (k : α → Prog β) (w : World)
    (hfail : ∀ e, x = .error e → Q (.error e) w)
    (hok : ∀ a, x = .ok a → Proc.EndsAlong (exec h) ok Q (k a) w) :
    Proc.EndsAlong (exec h) ok Q (check x >>= k) w := by
  cases x with
  | error e => exact fun _ => hfail e rfl
  | ok a => exact hok a rfl

theorem endsAlong_call (ctx : Ctx) (op : Op) (k : op.Ret → Prog β) (w : World)
    (hfail : ∀ e, Q (.error e) w.tick)
    (hok : ∀ a w', op.perform h ⟨ctx.tenant, h.rls⟩ w = .ok (a, w') →
      Proc.EndsAlong (exec h) ok Q (k a) w'.tick) :
    Proc.EndsAlong (exec h) ok Q (ctx.call op >>= k) w := by
  refine Proc.endsAlong_bind _ _ w (fun e s' _ hrun => ?_) (fun a s' _ hrun => ?_)
  · rw [Ctx.call, Proc.run_call] at hrun
    rw [exec_error h ⟨ctx.tenant, op⟩ w s' e hrun]
    exact hfail e
  · rw [Ctx.call, Proc.run_call] at hrun
    rcases exec_ok h ⟨ctx.tenant, op⟩ w s' a hrun with ⟨w', hp, hs⟩
    rw [hs]
    exact hok a w' hp

/-- The compensation of a step is itself a run whose operations meet the
    condition. -/
theorem endsAlong_undoing (step : Prog α) (undo : Prog Unit) (k : α → Prog β) (w : World)
    (hfail : ∀ e w', Proc.run (exec h) step w = (.error e, w') →
      Proc.EndsAlong (exec h) ok (fun _ w'' => Q (.error e) w'') undo w')
    (hok : ∀ a w', Proc.run (exec h) step w = (.ok a, w') →
      Proc.EndsAlong (exec h) ok Q (k a) w') :
    Proc.EndsAlong (exec h) ok Q (undoing step undo >>= k) w := by
  rw [undoing, Proc.bind_assoc]
  refine Proc.endsAlong_attempt _ _ w (fun r w' _ hrun => ?_)
  cases r with
  | ok a => exact hok a w' hrun
  | error e =>
      intro halong
      have hundo : undo.Along (exec h) ok w' := by
        rw [Proc.bind_assoc] at halong
        have hfirst := ((Proc.along_bind _ _ _ _ _).mp halong).1
        exact (Proc.along_attempt _ _ _ _).mp hfirst
      have hend := hfail e w' hrun hundo
      unfold Proc.Ends at hend ⊢
      simp only [Proc.run_bind, Proc.run_attempt, Proc.run_fail]
      exact hend

end Runs

end Cuttlegate
