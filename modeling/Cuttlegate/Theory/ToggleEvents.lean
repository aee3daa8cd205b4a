import Cuttlegate.Lib.Reports
import Cuttlegate.Theory.ToggleSteps

/-!
# What the Events Say

Whether an event of a toggle announces what is committed, asked of every
interleaving of any number of toggles.

A tool call commits its own write before it publishes, so its event always
does. A request of the HTTP route publishes inside its transaction. It
announces what is committed only if the row has that value already, and then
the request changes nothing.

## Main definitions

* `AnnouncesStored`: The condition.
* `ToolWrote`: The write a tool call has committed.
* `BackedInv`, `ToolInv`: What holds along a run.

## Theorems

* `events_backed`: Events of what is stored are backed by a commit.
* `event_before_commit`: In general they are not.
-/

namespace Cuttlegate

/-! ## Events and commits -/

/-- An event of the HTTP route announces a value that the database has
    already. -/
def AnnouncesStored (s : Server) (op : TxOp) : Prop :=
  ∀ projectID event, op = .pool ⟨some projectID, .publish event⟩ →
    ∀ f e, s.world.store.rowOf event = some (f, e) →
      s.world.store.enabledAt f e = some event.enabled

/-- Every event was preceded by the value it announces. -/
def Backed (start : Store) (log : List Logged) : Prop :=
  ∀ pre event post, log = pre ++ .published event :: post →
    ∃ f e, start.rowOf event = some (f, e) ∧ event.enabled ∈ held start f e pre

/-- A list that grew at its end is cut in the old part or at the new element. -/
theorem split_snoc {α : Type} (l pre post : List α) (x a : α)
    (h : l ++ [x] = pre ++ a :: post) :
    (l = pre ∧ x = a) ∨ ∃ post', l = pre ++ a :: post' := by
  rcases List.eq_nil_or_concat post with rfl | ⟨post', y, rfl⟩
  · rcases List.append_inj' h rfl with ⟨hl, hx⟩
    exact .inl ⟨hl, List.singleton_inj.mp hx⟩
  · rw [List.concat_eq_append, ← List.cons_append, ← List.append_assoc] at h
    exact .inr ⟨post', (List.append_inj' h rfl).1⟩

theorem Backed.snoc (start : Store) (log : List Logged) (x : Logged) (hlog : Backed start log)
    (hx : ∀ event, x = .published event →
      ∃ f e, start.rowOf event = some (f, e) ∧ event.enabled ∈ held start f e log) :
    Backed start (log ++ [x]) := by
  intro pre event post hsplit
  rcases split_snoc log pre post x _ hsplit with ⟨rfl, hlast⟩ | ⟨post', hold⟩
  · exact hx event hlast
  · exact hlog pre event post' hold

/-- The tables of the start name the same rows. -/
theorem rowOf_fixed (start s : Store) (hfixed : start.Fixed s) (event : FlagStateChangedEvent) :
    s.rowOf event = start.rowOf event := by
  unfold Store.rowOf Store.projectAt Store.environmentAt Store.flagAt
  rw [hfixed.projects, hfixed.environments, hfixed.flags]

/-- Every event is backed, and so will be those of the tool calls that have
    written. -/
structure BackedInv (h : TxHost) (start : Store) (s : Server) (note : Nat → TxNote ToggleNote) :
    Prop where
  base : TogglesInv h start s note
  backed : Backed start s.log
  pending : ∀ i f e b, (note i).own.phase = .wrote f e b → (note i).tx = none →
    b ∈ held start f e s.log

theorem mem_held_snoc (start : Store) (f e : String) (log : List Logged) (x : Logged) (b : Bool)
    (hb : b ∈ held start f e log) : b ∈ held start f e (log ++ [x]) := by
  rw [held_append]
  exact List.mem_append_left _ hb

section Backing

variable (h : TxHost) (start : Store) (s s' : Server) (note : Nat → TxNote ToggleNote) (i : Nat)
  (n' : TxNote ToggleNote) (op : TxOp)

/-- A step of a toggle appends at most one entry to the log. -/
theorem ToggleStep.log_grows (n : TxNote ToggleNote) (hstep : ToggleStep h start s s' n n' op) :
    s'.log = s.log ∨ ∃ x, s'.log = s.log ++ [x] := by
  cases hstep with
  | quiet _ _ hlog =>
      rcases hlog with hlog | ⟨op, hlog, _⟩
      · exact .inl hlog
      · exact .inr ⟨_, hlog⟩
  | poolWrite f e b _ _ _ hlog => exact .inr ⟨_, hlog⟩
  | txWrite t tenant f e b _ _ _ _ hlog => exact .inl hlog
  | publish tenant event f e _ _ _ _ hlog =>
      rcases hlog with hlog | ⟨hlog, _⟩
      · exact .inr ⟨_, hlog⟩
      · exact .inl hlog
  | commit t f e b _ _ _ hlog => exact .inr ⟨_, hlog⟩
  | ended _ t _ _ _ hlog => exact .inl hlog

/-- What a row has held it has held ever after. -/
theorem ToggleStep.held_mono (n : TxNote ToggleNote) (hstep : ToggleStep h start s s' n n' op)
    (f e : String) (b : Bool) (hb : b ∈ held start f e s.log) : b ∈ held start f e s'.log := by
  rcases hstep.log_grows with hlog | ⟨x, hlog⟩
  · rw [hlog]
    exact hb
  · rw [hlog]
    exact mem_held_snoc start f e s.log x b hb

/-- The entry a step appends is an event in one case only. -/
theorem BackedInv.step_backed (hJ : BackedInv h start s note) (hok : AnnouncesStored s op)
    (hstep : ToggleStep h start s s' (note i) n' op) : Backed start s'.log := by
  cases hstep with
  | quiet _ _ hlog =>
      rcases hlog with hlog | ⟨op, hlog, _⟩
      · rw [hlog]
        exact hJ.backed
      · rw [hlog]
        exact hJ.backed.snoc start s.log _ (fun event hevent => (nomatch hevent))
  | poolWrite f e b _ _ _ hlog =>
      rw [hlog]
      exact hJ.backed.snoc start s.log _ (fun event hevent => (nomatch hevent))
  | txWrite t tenant f e b _ _ _ _ hlog =>
      rw [hlog]
      exact hJ.backed
  | publish tenant event f e hwrote hrow hplace _ hlog =>
      rcases hlog with hlog | ⟨hlog, _⟩
      · rw [hlog]
        refine hJ.backed.snoc start s.log _ (fun event' hevent => ?_)
        rw [← Logged.published.inj hevent]
        refine ⟨f, e, hrow, ?_⟩
        cases tenant with
        | none =>
            -- The tool call has committed its write.
            exact hJ.pending i f e event.enabled hwrote (Option.not_isSome_iff_eq_none.mp
              (by rw [hplace]; exact Bool.false_ne_true))
        | some projectID =>
            -- The request has not, so the row must have the value already.
            have hstored := hok projectID event rfl f e
              ((rowOf_fixed start _ hJ.base.fixed event).trans hrow)
            rw [hJ.base.values] at hstored
            exact List.mem_of_getLast? hstored
      · rw [hlog]
        exact hJ.backed
  | commit t f e b _ _ _ hlog =>
      rw [hlog]
      exact hJ.backed.snoc start s.log _ (fun event hevent => (nomatch hevent))
  | ended _ t _ _ _ hlog =>
      rw [hlog]
      exact hJ.backed

/-- A tool call that has written is the only toggle outside a transaction that
    still has something to announce. -/
theorem BackedInv.step_pending (hJ : BackedInv h start s note)
    (hstep : ToggleStep h start s s' (note i) n' op) (f e : String) (b : Bool)
    (hwrote : n'.own.phase = .wrote f e b) (hnone : n'.tx = none) :
    b ∈ held start f e s'.log := by
  have hkeep := hstep.held_mono h start s s' n' op (note i)
  -- Only a write on the pool leaves a thread with a written value and no transaction.
  cases hstep with
  | quiet _ _ _ hphase htx =>
      rw [hphase] at hwrote
      have hsame := htx.resolve_right (fun hidle => by
        rw [hidle] at hwrote
        cases hwrote)
      exact hkeep f e b (hJ.pending i f e b hwrote (hsame.symm.trans hnone))
  | poolWrite f' e' b' _ _ _ hlog hphase =>
      rw [hphase, Phase.wrote.injEq] at hwrote
      rcases hwrote with ⟨rfl, rfl, rfl⟩
      rw [hlog, held_append]
      refine List.mem_append_right _ ?_
      simp [Logged.valueFor]
  | txWrite _ _ _ _ _ _ _ _ _ _ _ htx => cases htx.symm.trans hnone
  | publish _ _ _ _ _ _ _ _ _ hphase => cases hphase.symm.trans hwrote
  | commit _ _ _ _ _ _ _ _ hphase => cases hphase.symm.trans hwrote
  | ended _ _ _ _ _ _ hphase => cases hphase.symm.trans hwrote

end Backing

theorem BackedInv.step (h : TxHost) (start : Store) (s : Server) (note : Nat → TxNote ToggleNote)
    (hJ : BackedInv h start s note) (i : Nat) (op : TxOp) (hok : AnnouncesStored s op)
    (hop : toggleRules.discipline.permits op (note i)) :
    BackedInv h start (txExec h op s).2
      (Function.update note i (toggleAfter (note i) op (txExec h op s).1)) := by
  have hstep := toggle_step h start s note hJ.base i op hop
  refine ⟨hJ.base.step h start s note i op hop,
    hJ.step_backed h start s _ note i _ op hok hstep, fun j f e b hj htx => ?_⟩
  by_cases hji : j = i
  · rw [hji, Function.update_self] at hj htx
    exact hJ.step_pending h start s _ note i _ op hstep f e b hj htx
  · rw [Function.update_of_ne hji] at hj htx
    exact hstep.held_mono h start s _ _ op (note i) f e b (hJ.pending j f e b hj htx)

/-! ### Tool calls -/

/-- A thread has written a value on the pool, where a write that succeeds is
    committed by itself. -/
def ToolWrote (h : TxHost) (w : World) (tr : List (Nat × TxOp)) (i : Nat) (f e : String)
    (b : Bool) : Prop :=
  ∃ front back, tr = front ++ (i, .pool ⟨none, .setEnabled f e b⟩) :: back ∧
    (txExec h (.pool ⟨none, .setEnabled f e b⟩) (replay (txExec h) { world := w } front)).1 =
      .ok ()

theorem ToolWrote.snoc {h : TxHost} {w : World} {tr : List (Nat × TxOp)} {i : Nat} {f e : String}
    {b : Bool} (hwrote : ToolWrote h w tr i f e b) (step : Nat × TxOp) :
    ToolWrote h w (tr ++ [step]) i f e b := by
  rcases hwrote with ⟨front, back, rfl, hok⟩
  exact ⟨front, back ++ [step], by simp, hok⟩

/-- A toggle outside a transaction that has something to announce has written it
    itself, and so had those that have announced it. -/
structure ToolInv (h : TxHost) (w : World) (tr : List (Nat × TxOp)) (s : Server)
    (note : Nat → TxNote ToggleNote) : Prop where
  state : s = replay (txExec h) { world := w } tr
  pending : ∀ i f e b, (note i).own.phase = .wrote f e b → (note i).tx = none →
    ToolWrote h w tr i f e b
  told : ∀ pre i event post, tr = pre ++ (i, .pool ⟨none, .publish event⟩) :: post →
    ∃ f e, w.store.rowOf event = some (f, e) ∧ ToolWrote h w pre i f e event.enabled

section Tools

variable (h : TxHost) (w : World) (tr : List (Nat × TxOp)) (s : Server)
  (note : Nat → TxNote ToggleNote)

/-- A toggle is at a written value only after the statement that wrote it. -/
theorem ToolInv.step_pending (hT : ToolInv h w tr s note) (hJ : TogglesInv h w.store s note)
    (i : Nat) (op : TxOp) (hop : toggleRules.discipline.permits op (note i)) (f e : String)
    (b : Bool) (hwrote : (toggleAfter (note i) op (txExec h op s).1).own.phase = .wrote f e b)
    (hnone : (toggleAfter (note i) op (txExec h op s).1).tx = none) :
    ToolWrote h w (tr ++ [(i, op)]) i f e b := by
  cases toggle_step h w.store s note hJ i op hop with
  | quiet _ _ _ hphase htx =>
      rw [hphase] at hwrote
      have hsame := htx.resolve_right (fun hidle => by
        rw [hidle] at hwrote
        cases hwrote)
      exact (hT.pending i f e b hwrote (hsame.symm.trans hnone)).snoc _
  | poolWrite f' e' b' hidle _ _ _ hphase =>
      rw [hphase, Phase.wrote.injEq] at hwrote
      rcases hwrote with ⟨rfl, rfl, rfl⟩
      refine ⟨tr, [], rfl, ?_⟩
      rw [← hT.state]
      -- Had the statement failed, the toggle would not have got on.
      cases hr : (txExec h (.pool ⟨none, .setEnabled f' e' b'⟩) s).1 with
      | ok u => rfl
      | error err =>
          rw [hr] at hphase
          have hsame := congrArg ToggleNote.phase
            (toggleRules_after (.pool ⟨none, .setEnabled f' e' b'⟩) (.error err) (hJ.found i))
          cases hidle.symm.trans (hsame.symm.trans hphase)
  | txWrite _ _ _ _ _ _ _ _ _ _ _ htx => cases htx.symm.trans hnone
  | publish _ _ _ _ _ _ _ _ _ hphase => cases hphase.symm.trans hwrote
  | commit _ _ _ _ _ _ _ _ hphase => cases hphase.symm.trans hwrote
  | ended _ _ _ _ _ _ hphase => cases hphase.symm.trans hwrote

theorem ToolInv.step (hT : ToolInv h w tr s note) (hJ : TogglesInv h w.store s note) (i : Nat)
    (op : TxOp) (hop : toggleRules.discipline.permits op (note i)) :
    ToolInv h w (tr ++ [(i, op)]) (txExec h op s).2
      (Function.update note i (toggleAfter (note i) op (txExec h op s).1)) := by
  refine ⟨?_, fun j f e b hj htx => ?_, fun pre j event post hsplit => ?_⟩
  · rw [replay_append, ← hT.state]
    rfl
  · by_cases hji : j = i
    · rw [hji, Function.update_self] at hj htx
      rw [hji]
      exact hT.step_pending h w tr s note hJ i op hop f e b hj htx
    · rw [Function.update_of_ne hji] at hj htx
      exact (hT.pending j f e b hj htx).snoc _
  · rcases split_snoc tr pre post (i, op) _ hsplit with ⟨rfl, hlast⟩ | ⟨post', hold⟩
    · -- The rules let a toggle publish only what it has written.
      rcases Prod.mk.inj hlast with ⟨rfl, rfl⟩
      rcases hop.2.resolve_left (hJ.found i) with ⟨hplace, f, e, hwrote, hnames⟩
      have htx : (note i).tx = none := Option.not_isSome_iff_eq_none.mp (by rw [hplace]; simp)
      exact ⟨f, e, rowOf_names w.store (note i) event f e (hJ.learnt i) hnames,
        hT.pending i f e event.enabled hwrote htx⟩
    · exact hT.told pre j event post' hold

end Tools

/-- Before the first request. -/
theorem togglesInv_start (h : TxHost) (w : World) :
    TogglesInv h w.store { world := w } (fun _ => toggleBlank) := by
  refine ⟨⟨?_, ?_, ?_, ?_, ?_, ?_⟩, ⟨rfl, rfl, rfl⟩, fun f e => ?_, ?_, fun _ _ => rfl, ?_, ?_⟩
  · exact fun i t hi => (nomatch hi)
  · exact fun i j t hi => (nomatch hi)
  · exact fun i t hi => (nomatch hi)
  · exact fun _ _ => rfl
  · exact fun _ _ => rfl
  · exact fun t e he => absurd he List.not_mem_nil
  · unfold held
    cases w.store.enabledAt f e with
    | none => rfl
    | some b => rfl
  · exact fun i fact hfact => absurd hfact List.not_mem_nil
  · exact fun i f e b hi htx => absurd rfl htx
  · exact fun i hi => (nomatch hi)

/-- In every interleaving of toggles in which the events of the HTTP route
    announce what is stored, every event comes after its value was committed;
    the value stored is the last one that was; and what a tool call publishes it
    has written and committed itself. -/
theorem events_backed (h : TxHost) (w : World) (tr : List (Nat × TxOp))
    (P : Pool Err TxOp TxOp.Ret Server)
    (hrun : Pool.RunWhile (txExec h) (toggleThread h) (fun _ s _ op => AnnouncesStored s op)
      ⟨{ world := w }, []⟩ tr P) :
    (∀ f e, P.shared.world.store.enabledAt f e = (held w.store f e P.shared.log).getLast?) ∧
      (∀ pre event post, P.shared.log = pre ++ .published event :: post →
        ∃ f e, P.shared.world.store.rowOf event = some (f, e) ∧
          event.enabled ∈ held w.store f e pre) ∧
      ∀ pre i event post, tr = pre ++ (i, .pool ⟨none, .publish event⟩) :: post →
        ∃ f e, P.shared.world.store.rowOf event = some (f, e) ∧
          ToolWrote h w pre i f e event.enabled := by
  -- Nothing is logged at the start, and no thread has begun.
  have hfirst : BackedInv h w.store { world := w } (fun _ => toggleBlank) := by
    refine ⟨togglesInv_start h w, fun pre event post hsplit => ?_, fun i f e b hi => (nomatch hi)⟩
    exact absurd hsplit.symm (by simp)
  have hfirst' : ToolInv h w [] { world := w } (fun _ => toggleBlank) :=
    ⟨rfl, fun i f e b hi => (nomatch hi), fun pre i event post hsplit => absurd hsplit (by simp)⟩
  rcases Pool.runWhile_discipline toggleRules.discipline toggleBlank
    (fun tr s note => BackedInv h w.store s note ∧ ToolInv h w tr s note)
    (fun p hp => (toggleThread_obeys h p hp).1)
    (fun tr s note i op hJ hok hop => ⟨hJ.1.step h w.store s note i op hok hop,
      hJ.2.step h w tr s note hJ.1.base i op hop⟩)
    { world := w } ⟨hfirst, hfirst'⟩ tr P hrun with ⟨note, hJ, hT⟩
  have hrow : ∀ event row, w.store.rowOf event = some row →
      P.shared.world.store.rowOf event = some row := fun event row hrow =>
    (rowOf_fixed _ _ hJ.base.fixed event).trans hrow
  refine ⟨hJ.base.values, fun pre event post hsplit => ?_, fun pre i event post hsplit => ?_⟩
  · rcases hJ.backed pre event post hsplit with ⟨f, e, hstart, hheld⟩
    exact ⟨f, e, hrow event _ hstart, hheld⟩
  · rcases hT.told pre i event post hsplit with ⟨f, e, hstart, hwrote⟩
    exact ⟨f, e, hrow event _ hstart, hwrote⟩

/-- A flag that is off in production. -/
def toggleShop : World where
  store := {
    projects := [⟨"p1", "Shop", "shop", 0⟩]
    environments := [⟨"e1", "p1", "Production", "prod", 0⟩]
    flags := [⟨"f1", "p1", "dark", "Dark mode", .bool, [⟨"true", "On"⟩, ⟨"false", "Off"⟩],
      "false", 0⟩]
    states := [⟨"f1", "e1", false⟩] }

/-- A server on which every statement succeeds, and all commits or none. -/
def toggleHost (commits : Bool) : TxHost where
  host := Host.steady
  verify := fun token =>
    if token = "token-u1" then .ok (⟨"u1", "u1@example.com", "Ada"⟩, .editor)
    else .error .invalid
  commits := fun _ => commits
  evalRateLimiter := ⟨600, 60 * second⟩

/-- A request to toggle the flag. -/
def toggleByHttp (commits enabled : Bool) : TxProg Unit :=
  httpToggle (toggleHost commits) "Bearer token-u1" "shop" "prod" "dark"
    (some (.obj [("enabled", .bool enabled)]))

/-- A tool call to do so. -/
def toggleByTool (enabled : Bool) : TxProg Unit :=
  mcpToggle none (some (.obj [("project_slug", .str "shop"), ("environment_slug", .str "prod"),
    ("key", .str "dark")])) ⟨"k1", "p1", "e1", "agent", [], "cg_", .write, 0, none⟩ enabled

theorem toggleByHttp_thread (commits enabled : Bool) :
    toggleThread (toggleHost commits) (toggleByHttp commits enabled) :=
  .inl ⟨_, _, _, _, _, by decide, rfl⟩

theorem toggleByTool_thread (commits enabled : Bool) :
    toggleThread (toggleHost commits) (toggleByTool enabled) :=
  .inr ⟨_, _, _, _, rfl⟩

/-- The condition as a test. -/
def announcesStored (s : Server) : TxOp → Bool
  | .pool ⟨some _, .publish event⟩ =>
      (s.world.store.rowOf event).all (fun row =>
        s.world.store.enabledAt row.1 row.2 == some event.enabled)
  | _ => true

theorem announcesStored_sound (s : Server) (op : TxOp) (htest : announcesStored s op = true) :
    AnnouncesStored s op := by
  rintro projectID event rfl f e hrow
  simp only [announcesStored, hrow, Option.all_some, beq_iff_eq] at htest
  exact htest

/-- The flag is switched on by a tool call, and then once more by a request. -/
def switchedTwice : Pool Err TxOp TxOp.Ret Server :=
  Pool.follow (txExec (toggleHost true))
    ⟨{ world := toggleShop }, [toggleByTool true, toggleByHttp true true]⟩
    (List.replicate 9 0 ++ List.replicate 14 1)

/-- Both events come after the value they announce was committed. -/
theorem events_backed_switchedTwice :
    switchedTwice.shared.world.store.enabledAt "f1" "e1" = some true ∧
      ∀ pre event post, switchedTwice.shared.log = pre ++ .published event :: post →
        ∃ f e, switchedTwice.shared.world.store.rowOf event = some (f, e) ∧
          event.enabled ∈ held toggleShop.store f e pre := by
  have hspawn : Pool.RunWhile (txExec (toggleHost true)) (toggleThread (toggleHost true))
      (fun _ s _ op => AnnouncesStored s op) ⟨{ world := toggleShop }, []⟩ []
      ⟨{ world := toggleShop }, [toggleByTool true, toggleByHttp true true]⟩ :=
    Pool.RunWhile.spawn [] ⟨_, [_]⟩ _ (Pool.RunWhile.spawn [] ⟨_, []⟩ _ Pool.RunWhile.start
      (toggleByTool_thread true true)) (toggleByHttp_thread true true)
  rcases Pool.runWhile_follow _ (fun _ s _ op => announcesStored s op)
    (fun _ s _ op => announcesStored_sound s op) (List.replicate 9 0 ++ List.replicate 14 1) _ _
    hspawn (by decide +kernel) with ⟨tr, hrun⟩
  have hclaim := events_backed (toggleHost true) toggleShop tr switchedTwice hrun
  refine ⟨(hclaim.1 "f1" "e1").trans ?_, hclaim.2.1⟩
  decide +kernel

/-- A request announces that the flag is on, and its commit fails. No such
    value was ever committed. -/
theorem event_before_commit :
    ¬ ∀ (h : TxHost) (w : World) (tr : List (Nat × TxOp)) (P : Pool Err TxOp TxOp.Ret Server),
      Pool.Run (txExec h) (toggleThread h) ⟨{ world := w }, []⟩ tr P →
        ∀ pre event post, P.shared.log = pre ++ .published event :: post →
          ∃ f e, P.shared.world.store.rowOf event = some (f, e) ∧
            event.enabled ∈ held w.store f e pre := by
  intro hclaim
  have hspawn : Pool.Run (txExec (toggleHost false)) (toggleThread (toggleHost false))
      ⟨{ world := toggleShop }, []⟩ [] ⟨{ world := toggleShop }, [toggleByHttp false true]⟩ :=
    Pool.Run.spawn [] ⟨_, []⟩ _ Pool.Run.start (toggleByHttp_thread false true)
  -- One toggle over HTTP on a server whose commits fail, followed to its end.
  rcases Pool.run_follow _ _ _ (List.replicate 14 0) _ _ hspawn with ⟨tr, hrun⟩
  have hlog : (Pool.follow (txExec (toggleHost false))
      ⟨{ world := toggleShop }, [toggleByHttp false true]⟩ (List.replicate 14 0)).shared.log.take 2 =
      [.written (.upsertUser ⟨"u1", "u1@example.com", "Ada"⟩)] ++
        .published ⟨"shop", "prod", "dark", true, 8⟩ :: [] := by
    decide +kernel
  have hstore : (Pool.follow (txExec (toggleHost false))
      ⟨{ world := toggleShop }, [toggleByHttp false true]⟩
      (List.replicate 14 0)).shared.world.store.rowOf ⟨"shop", "prod", "dark", true, 8⟩ =
      some ("f1", "e1") := by
    decide +kernel
  rcases hclaim _ _ tr _ hrun [.written (.upsertUser ⟨"u1", "u1@example.com", "Ada"⟩)]
    ⟨"shop", "prod", "dark", true, 8⟩ _ ((List.take_append_drop 2 _).symm.trans
      (congrArg (· ++ _) hlog)) with ⟨f, e, hrow, hheld⟩
  -- The event names the row, and no write of the row is in the log before it.
  rw [hstore, Option.some.injEq, Prod.mk.injEq] at hrow
  rw [← hrow.1, ← hrow.2] at hheld
  exact absurd hheld (by decide +kernel)

end Cuttlegate
