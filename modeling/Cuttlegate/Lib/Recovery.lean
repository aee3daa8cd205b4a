import Mathlib.Data.List.Induction

/-!
# Recovery from a Copy

A process keeps its state in memory, and a copy of it where the end of the
process does not reach. It starts with a state it gets from elsewhere or, if
there is none, with the copy. It saves a new copy when its state has changed,
and what is saved may fail to arrive.

What one would like to have is a state that endures: a process that is paused
and goes on, and forgets nothing. One has it from any moment at which the copy
is current, as long as everything that is saved arrives (`recovers`). Whatever
has failed before, the first save that arrives is such a moment (`step_saved`).

## Main definitions

* `Recovery`: What inputs do to a state, and which of them are saved.
* `Recovery.Process`, `Recovery.step`: A process and its copy.
* `Recovery.Honest`: What is loaded is the copy.
* `Recovery.Enduring`, `Recovery.endure`: A state that is not lost.

## Theorems

* `Recovery.step_saved`: The copy is current after a save.
* `Recovery.recovers`: A process looks like one whose state endures.
-/

/-- What inputs do to the state of a process, and which of them it saves.
    Nothing changes without being saved. -/
structure Recovery (State Input : Type) where
  change : Input → State → State
  saves : Input → State → Bool
  unsaved : ∀ i s, saves i s = false → change i s = s

namespace Recovery

variable {State Input : Type}

/-- The state, which is in memory while the process runs, and the copy. -/
structure Process (State : Type) where
  live : Option State
  kept : State

/-- What happens to a process. Where something is saved, it arrives or not. -/
inductive Act (State Input : Type) where
  /-- The process starts with a new state, or else with what is loaded. -/
  | start (fresh loaded : Option State) (arrives : Bool)
  | input (i : Input) (arrives : Bool)
  /-- It ends. -/
  | halt

/-- Nothing that is saved is lost. -/
def Act.arrives : Act State Input → Bool
  | .start _ _ arrives => arrives
  | .input _ arrives => arrives
  | .halt => true

/-- What is loaded is the copy, if anything. -/
def Act.Loads (kept : State) : Act State Input → Prop
  | .start _ (some loaded) _ => loaded = kept
  | _ => True

/-- A state that is not lost. -/
inductive Enduring (State : Type) where
  | paused (s : State)
  | running (s : State)

/-- The process whose copy is current. -/
def Enduring.process : Enduring State → Process State
  | .paused s => ⟨none, s⟩
  | .running s => ⟨some s, s⟩

variable (R : Recovery State Input)

/-- One thing happens to a process. One that runs is not started, and one that
    does not has no input. -/
def step : Process State → Act State Input → Process State
  | ⟨none, kept⟩, .start (some s) _ arrives => ⟨some s, if arrives then s else kept⟩
  | ⟨none, kept⟩, .start none loaded _ => ⟨loaded, kept⟩
  | ⟨some s, kept⟩, .input i arrives =>
      ⟨some (R.change i s), if R.saves i s && arrives then R.change i s else kept⟩
  | p, .halt => ⟨none, p.kept⟩
  | p, _ => p

def run (p : Process State) (acts : List (Act State Input)) : Process State :=
  acts.foldl R.step p

/-- Whatever is loaded during a run is the copy. -/
def Honest : Process State → List (Act State Input) → Prop
  | _, [] => True
  | p, a :: acts => a.Loads p.kept ∧ Honest (R.step p a) acts

/-- One thing happens to a state that is not lost. -/
def endure : Enduring State → Act State Input → Enduring State
  | .paused _, .start (some s) _ _ => .running s
  | .paused s, .start none (some _) _ => .running s
  | .running s, .input i _ => .running (R.change i s)
  | .running s, .halt => .paused s
  | q, _ => q

/-- The act saves the state of the process, and that arrives. -/
def Keeps : Process State → Act State Input → Prop
  | ⟨none, _⟩, .start (some _) _ arrives => arrives = true
  | ⟨some s, _⟩, .input i arrives => R.saves i s = true ∧ arrives = true
  | _, _ => False

/-- The copy of a process that has just saved its state is current. -/
theorem step_saved (p : Process State) (a : Act State Input) (h : R.Keeps p a) :
    ∃ s, R.step p a = (Enduring.running s).process := by
  rcases p with ⟨live, kept⟩
  cases live with
  | none =>
      cases a with
      | start fresh loaded arrives =>
          cases fresh with
          | none => exact h.elim
          | some s =>
              have hsaved : arrives = true := h
              exact ⟨s, by rw [step, if_pos hsaved]; rfl⟩
      | input i arrives => exact h.elim
      | halt => exact h.elim
  | some s =>
      cases a with
      | start fresh loaded arrives => exact h.elim
      | input i arrives => exact ⟨R.change i s, by rw [step, h.1, h.2]; rfl⟩
      | halt => exact h.elim

/-- A process whose copy is current takes the step of a state that endures. -/
theorem step_endure (q : Enduring State) (a : Act State Input) (harrives : a.arrives = true)
    (hloads : a.Loads q.process.kept) : R.step q.process a = (R.endure q a).process := by
  cases q with
  | paused s =>
      cases a with
      | start fresh loaded arrives =>
          cases fresh with
          | some t =>
              change (⟨some t, if arrives then t else s⟩ : Process State) = ⟨some t, t⟩
              rw [if_pos (show arrives = true from harrives)]
          | none =>
              cases loaded with
              | none => rfl
              | some t =>
                  change (⟨some t, s⟩ : Process State) = ⟨some s, s⟩
                  rw [show t = s from hloads]
      | input i arrives => rfl
      | halt => rfl
  | running s =>
      cases a with
      | start fresh loaded arrives => rfl
      | halt => rfl
      | input i arrives =>
          change (⟨some (R.change i s), if R.saves i s && arrives then R.change i s else s⟩ :
            Process State) = ⟨some (R.change i s), R.change i s⟩
          rw [show arrives = true from harrives, Bool.and_true]
          -- What is not saved has changed nothing.
          cases hsaves : R.saves i s with
          | true => rfl
          | false =>
              rw [R.unsaved i s hsaves]
              rfl

/-- A process whose copy is current looks like a state that endures, as long as
    everything that is saved arrives. -/
theorem recovers (q : Enduring State) (acts : List (Act State Input))
    (harrives : ∀ a ∈ acts, a.arrives = true) (hloads : R.Honest q.process acts) :
    R.run q.process acts = (acts.foldl R.endure q).process := by
  induction acts generalizing q with
  | nil => rfl
  | cons a acts ih =>
      have hstep := R.step_endure q a (harrives a List.mem_cons_self) hloads.1
      rw [run, List.foldl_cons, List.foldl_cons, hstep]
      refine ih (R.endure q a) (fun b hb => harrives b (List.mem_cons_of_mem a hb)) ?_
      rw [← hstep]
      exact hloads.2

end Recovery
