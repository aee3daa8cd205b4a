import Cuttlegate.Lib.Steps

/-!
# Detached Tasks

Tasks that are started one after the other and that nobody waits for. Each
changes a shared state when it finishes, and they finish in any order.

A run is observed through its starts and its finishes. Once no task is at work,
the finishes are the starts in some order, and the state is what this order of
the changes has made of it. Every order occurs.

## Main definitions

* `Detached.Note`: What is observed of a step.
* `Detached.Step`: A task starts or finishes.
* `Detached.started`, `Detached.finished`: The tasks of a history.
* `Detached.Accounts`: Where the tasks of a run are, and what they changed.

## Theorems

* `Detached.run_accounts`: No task is lost in a run.
* `Detached.run_settled`: What a run has done once no task is left.
* `Detached.exists_run`: Tasks may finish in any order.
-/

namespace Detached

variable {τ σ : Type}

/-- What is observed of a step. -/
inductive Note (τ : Type) where
  | start (t : τ)
  | finish (t : τ)
  deriving DecidableEq, Repr

def Note.started : Note τ → Option τ
  | .start t => some t
  | .finish _ => none

def Note.finished : Note τ → Option τ
  | .start _ => none
  | .finish t => some t

/-- The tasks that were started, in order. -/
def started (H : List (Note τ)) : List τ := H.filterMap Note.started

/-- The tasks that have finished, in order. -/
def finished (H : List (Note τ)) : List τ := H.filterMap Note.finished

/-- The tasks at work, and the state they share. -/
inductive Step (act : σ → τ → σ) : List τ × σ → Note τ → List τ × σ → Prop
  | start (work : List τ) (s : σ) (t : τ) : Step act (work, s) (.start t) (t :: work, s)
  | finish (before after : List τ) (s : σ) (t : τ) :
      Step act (before ++ t :: after, s) (.finish t) (before ++ after, act s t)

variable (act : σ → τ → σ)

/-- Every task that was started has finished or is at work, and the state is
    that after the changes of those that have finished. -/
def Accounts (s : σ) (H : List (Note τ)) (p : List τ × σ) : Prop :=
  (started H).Perm (finished H ++ p.1) ∧ p.2 = (finished H).foldl act s

theorem Accounts.step (s : σ) (H : List (Note τ)) (p : List τ × σ) (o : Note τ)
    (q : List τ × σ) (h : Accounts act s H p) (hstep : Step act p o q) :
    Accounts act s (H ++ [o]) q := by
  rcases h with ⟨hperm, hstate⟩
  cases hstep with
  | start work s' t =>
      have hstarted : started (H ++ [.start t]) = started H ++ [t] := by
        simp [started, Note.started]
      have hfinished : finished (H ++ [.start t]) = finished H := by
        simp [finished, Note.finished]
      unfold Accounts
      rw [hstarted, hfinished]
      have hcons : (started H ++ [t]).Perm (t :: (finished H ++ work)) :=
        (List.perm_append_singleton t _).trans (hperm.cons t)
      exact ⟨hcons.trans List.perm_middle.symm, hstate⟩
  | finish before after s' t =>
      have hstarted : started (H ++ [.finish t]) = started H := by
        simp [started, Note.started]
      have hfinished : finished (H ++ [.finish t]) = finished H ++ [t] := by
        simp [finished, Note.finished]
      unfold Accounts
      rw [hstarted, hfinished, List.foldl_append, List.append_assoc]
      exact ⟨hperm.trans (List.perm_middle.append_left (finished H)), congrArg (act · t) hstate⟩

theorem run_accounts (s : σ) (H : List (Note τ)) (p : List τ × σ)
    (h : Steps (Step act) ([], s) H p) : Accounts act s H p :=
  Steps.invariant (Accounts act s) ([], s) ⟨List.Perm.refl _, rfl⟩
    (fun H p o q _ hacc hstep => hacc.step act s H p o q hstep) H p h

theorem run_settled (s : σ) (H : List (Note τ)) (u : σ)
    (h : Steps (Step act) ([], s) H ([], u)) :
    (finished H).Perm (started H) ∧ u = (finished H).foldl act s := by
  rcases run_accounts act s H ([], u) h with ⟨hperm, hstate⟩
  rw [List.append_nil] at hperm
  exact ⟨hperm.symm, hstate⟩

/-! ## Every order occurs -/

theorem run_starts (tasks work : List τ) (s : σ) :
    Steps (Step act) (work, s) (tasks.map .start) (tasks.reverse ++ work, s) := by
  induction tasks generalizing work with
  | nil => exact Steps.refl _
  | cons t tasks ih =>
      rw [List.reverse_cons, List.append_assoc]
      exact Steps.cons _ _ _ _ _ (Step.start work s t) (ih (t :: work))

theorem run_finishes (order work : List τ) (s : σ) (h : order.Perm work) :
    Steps (Step act) (work, s) (order.map .finish) ([], order.foldl act s) := by
  induction order generalizing work s with
  | nil =>
      rw [List.nil_perm.mp h]
      exact Steps.refl _
  | cons t order ih =>
      rcases List.append_of_mem (h.subset List.mem_cons_self) with ⟨before, after, rfl⟩
      have hrest : order.Perm (before ++ after) := (h.trans List.perm_middle).cons_inv
      exact Steps.cons _ _ _ _ _ (Step.finish before after s t) (ih _ _ hrest)

/-- Whatever order the tasks are to finish in, there is a run in which they
    do. -/
theorem exists_run (tasks order : List τ) (s : σ) (h : order.Perm tasks) :
    ∃ H, Steps (Step act) ([], s) H ([], order.foldl act s) ∧ started H = tasks ∧
      finished H = order := by
  have hwork : order.Perm (tasks.reverse ++ []) := by
    rw [List.append_nil]
    exact h.trans (List.reverse_perm tasks).symm
  refine ⟨tasks.map .start ++ order.map .finish,
    Steps.append _ _ _ _ _ (run_starts act tasks [] s) (run_finishes act order _ s hwork), ?_, ?_⟩
  · simp [started, List.filterMap_map, Function.comp_def, Note.started]
  · simp [finished, List.filterMap_map, Function.comp_def, Note.finished]

end Detached
