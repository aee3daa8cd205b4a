import Cuttlegate.Lib.Evidence

/-!
# What the Callers Were Told

A thread of a pool ends without a value, which is enough for statements about
the shared state and not for statements about answers. Here a program ends
with one more operation, which reports its outcome and touches nothing. The
reports stand in the trace of a run among the operations, so a statement about
answers, and about what came before or after them, is a statement about the
trace.

The shared state at any point of a run is the trace up to there, replayed:
which programs the threads belong to makes no difference. So two facts about
two points of one run can be compared through the trace alone.

## Main definitions

* `Reporting`, `reporting`: Operations and reports, and their effect.
* `Proc.reports`: A program that reports its outcome.
* `replay`: The state after a trace.
* `ReplayMeets`: Every step of a trace meets a condition.

## Theorems

* `Proc.uses_reports`: Reporting adds reports to a footprint.
* `Proc.guarded_reports_call`, `Proc.guarded_reports_attempt`: Justifying a
  report step by step.
* `replay_rel`: A preorder respected by every operation of a trace relates its
  two ends.
* `replayMeets_keeps`: What steps that meet a condition keep holds at the end.
* `Pool.run_replay`: The state of a run is its trace, replayed.
* `Pool.run_uses`: The trace of a run is within the footprint of its programs.
* `Pool.run_split`: A run is cut at an entry of its trace.
-/

variable {ε Op : Type} {Ret : Op → Type} {α β σ ρ : Type}

/-- Operations, and reports of outcomes. -/
inductive Reporting (Op ρ : Type) where
  | op (o : Op)
  | report (r : ρ)

/-- A report is answered by nothing. -/
@[reducible] def Reporting.Answer (Ret : Op → Type) : Reporting Op ρ → Type
  | .op o => Ret o
  | .report _ => Unit

/-- A report has no effect. -/
def reporting (exec : (op : Op) → σ → Except ε (Ret op) × σ) :
    (o : Reporting Op ρ) → σ → Except ε (o.Answer Ret) × σ
  | .op o, s => exec o s
  | .report _, s => (.ok (), s)

/-- Two positions of one list: the first entry is at the second, or before it,
    or after it. -/
theorem append_cons_cases (a b c d : List α) (x y : α) (h : a ++ x :: b = c ++ y :: d) :
    (a = c ∧ x = y ∧ b = d) ∨ (∃ m, c = a ++ x :: m ∧ b = m ++ y :: d) ∨
      ∃ m, a = c ++ y :: m ∧ d = m ++ x :: b := by
  -- The two marked elements coincide, or one lies behind the other.
  rcases List.append_eq_append_iff.mp h with ⟨m, hc, hm⟩ | ⟨m, ha, hm⟩
  · cases m with
    | nil =>
        rw [List.append_nil] at hc
        rw [List.nil_append, List.cons.injEq] at hm
        exact .inl ⟨hc.symm, hm.1, hm.2⟩
    | cons z m =>
        rw [List.cons_append, List.cons.injEq] at hm
        rw [← hm.1] at hc
        exact .inr (.inl ⟨m, hc, hm.2⟩)
  · cases m with
    | nil =>
        rw [List.append_nil] at ha
        rw [List.nil_append, List.cons.injEq] at hm
        exact .inl ⟨ha, hm.1.symm, hm.2.symm⟩
    | cons z m =>
        rw [List.cons_append, List.cons.injEq] at hm
        rw [← hm.1] at ha
        exact .inr (.inr ⟨m, ha, hm.2⟩)

namespace Proc

/-- Run a program and report its outcome. -/
def reports (f : Except ε α → ρ) : Proc ε Op Ret α →
    Proc ε (Reporting Op ρ) (Reporting.Answer Ret) Unit
  | ret a => call (Reporting.report (f (.ok a)))
  | fail e => call (Reporting.report (f (.error e)))
  | act op k => act (.op op) (fun r => (k r).reports f)

/-- Reporting adds reports, and nothing else, to a footprint. -/
theorem uses_reports (P : Reporting Op ρ → Prop) (hP : ∀ r, P (.report r)) (f : Except ε α → ρ)
    (x : Proc ε Op Ret α) (hx : x.Uses (fun op => P (.op op))) : (x.reports f).Uses P := by
  induction x with
  | ret a => exact (uses_call _).mpr (hP _)
  | fail e => exact (uses_call _).mpr (hP _)
  | act op k ih => exact ⟨hx.1, fun r => ih _ (hx.2 r)⟩

section Rules

variable {exec : (op : Op) → σ → Except ε (Ret op) × σ}
  {Q : List (Reporting Op ρ × σ) → Reporting Op ρ → Prop} {f : Except ε α → ρ}

theorem guarded_report (r : ρ) (seen : List (Reporting Op ρ × σ)) (hr : Q seen (.report r)) :
    (call (.report r) : Proc ε (Reporting Op ρ) (Reporting.Answer Ret) _).Guarded
      (reporting exec) Q seen :=
  ⟨hr, fun _ => trivial⟩

/-- A caught operation goes on with whatever it answered. -/
theorem guarded_reports_attempt (op : Op) (g : Except ε (Ret op) → Proc ε Op Ret α)
    (seen : List (Reporting Op ρ × σ)) (hop : Q seen (.op op))
    (hg : ∀ s, ((g (exec op s).1).reports f).Guarded (reporting exec) Q (seen ++ [(.op op, s)])) :
    (((call op).attempt >>= g).reports f).Guarded (reporting exec) Q seen := by
  refine ⟨hop, fun s => ?_⟩
  have hs := hg s
  change ((((ofExcept (exec op s).1).attempt >>= g).reports f).Guarded _ Q _)
  cases hr : (exec op s).1 with
  | error e =>
      rw [hr] at hs
      exact hs
  | ok a =>
      rw [hr] at hs
      exact hs

variable (hfail : ∀ seen e, Q seen (.report (f (.error e))))
include hfail

/-- An operation that fails is reported as a failure. -/
theorem guarded_reports_call (op : Op) (g : Ret op → Proc ε Op Ret α)
    (seen : List (Reporting Op ρ × σ)) (hop : Q seen (.op op))
    (hg : ∀ s a, (exec op s).1 = .ok a →
      ((g a).reports f).Guarded (reporting exec) Q (seen ++ [(.op op, s)])) :
    ((call op >>= g).reports f).Guarded (reporting exec) Q seen := by
  refine ⟨hop, fun s => ?_⟩
  change ((ofExcept (exec op s).1 >>= g).reports f).Guarded _ Q _
  cases hr : (exec op s).1 with
  | error e => exact guarded_report _ _ (hfail _ e)
  | ok a => exact hg s a hr

end Rules

end Proc

/-! ## Replaying a trace -/

/-- The state after the operations of a trace. -/
def replay (exec : (op : Op) → σ → Except ε (Ret op) × σ) (s : σ) (tr : List (Nat × Op)) : σ :=
  tr.foldl (fun s e => (exec e.2 s).2) s

section Replay

variable (exec : (op : Op) → σ → Except ε (Ret op) × σ)

@[simp] theorem replay_nil (s : σ) : replay exec s [] = s := rfl

@[simp] theorem replay_cons (s : σ) (e : Nat × Op) (tr : List (Nat × Op)) :
    replay exec s (e :: tr) = replay exec (exec e.2 s).2 tr := rfl

theorem replay_append (s : σ) (tr tr' : List (Nat × Op)) :
    replay exec s (tr ++ tr') = replay exec (replay exec s tr) tr' :=
  List.foldl_append

/-- Every step of a trace meets a condition on the state it starts from. -/
def ReplayMeets (P : σ → Op → Prop) : σ → List (Nat × Op) → Prop
  | _, [] => True
  | s, e :: tr => P s e.2 ∧ ReplayMeets P (exec e.2 s).2 tr

theorem replayMeets_mono {P Q : σ → Op → Prop} (hpq : ∀ s op, P s op → Q s op) (s : σ)
    (tr : List (Nat × Op)) (h : ReplayMeets exec P s tr) : ReplayMeets exec Q s tr := by
  induction tr generalizing s with
  | nil => trivial
  | cons e tr ih => exact ⟨hpq s e.2 h.1, ih _ h.2⟩

theorem replayMeets_snoc {P : σ → Op → Prop} (s : σ) (tr : List (Nat × Op)) (e : Nat × Op) :
    ReplayMeets exec P s (tr ++ [e]) ↔ ReplayMeets exec P s tr ∧ P (replay exec s tr) e.2 := by
  induction tr generalizing s with
  | nil => exact ⟨fun h => ⟨trivial, h.1⟩, fun h => ⟨h.2, trivial⟩⟩
  | cons e' tr ih => exact (and_congr Iff.rfl (ih _)).trans and_assoc.symm

/-- A condition that the operations of a trace meet in every state. -/
theorem replayMeets_of_forall {P : σ → Op → Prop} (tr : List (Nat × Op))
    (h : ∀ s, ∀ e ∈ tr, P s e.2) (s : σ) : ReplayMeets exec P s tr := by
  induction tr generalizing s with
  | nil => trivial
  | cons e tr ih =>
      exact ⟨h s e (List.mem_cons_self ..), ih (fun s e he => h s e (List.mem_cons_of_mem _ he)) _⟩

/-- What such steps keep still holds at the end of the trace. -/
theorem replayMeets_keeps (I : σ → Prop) (P : σ → Op → Prop)
    (hstep : ∀ s op, I s → P s op → I (exec op s).2) (s : σ) (tr : List (Nat × Op)) (hs : I s)
    (h : ReplayMeets exec P s tr) : I (replay exec s tr) := by
  induction tr generalizing s with
  | nil => exact hs
  | cons e tr ih => exact ih _ (hstep s e.2 hs h.1) h.2

/-- A preorder respected by every operation of a trace, while an invariant
    holds that they keep, relates the two ends of the trace. -/
theorem replay_rel (I : σ → Prop) (R : σ → σ → Prop) (hrefl : ∀ s, R s s)
    (htrans : ∀ a b c, R a b → R b c → R a c) (tr : List (Nat × Op))
    (hop : ∀ e ∈ tr, ∀ s, I s → I (exec e.2 s).2 ∧ R s (exec e.2 s).2) (s : σ) (hs : I s) :
    I (replay exec s tr) ∧ R s (replay exec s tr) := by
  induction tr generalizing s with
  | nil => exact ⟨hs, hrefl s⟩
  | cons e rest ih =>
      rcases hop e List.mem_cons_self s hs with ⟨hI, hR⟩
      rcases ih (fun e he => hop e (List.mem_cons_of_mem _ he)) _ hI with ⟨hI', hR'⟩
      exact ⟨hI', htrans _ _ _ hR hR'⟩

end Replay

namespace Pool

variable {exec : (op : Op) → σ → Except ε (Ret op) × σ} {allowed : Proc ε Op Ret Unit → Prop}

/-- The state of a run is its trace, replayed. -/
theorem run_replay (start : Pool ε Op Ret σ) (tr : List (Nat × Op)) (P : Pool ε Op Ret σ)
    (h : Run exec allowed start tr P) : P.shared = replay exec start.shared tr := by
  induction h with
  | start => rfl
  | spawn tr P p _ _ ih => exact ih
  | perform tr P i op k _ _ ih =>
      rw [replay_append, ← ih]
      rfl

/-- Every operation of a run is in the footprint of its programs. -/
theorem run_uses (F : Op → Prop) (hallowed : ∀ p, allowed p → p.Uses F) (first : σ)
    (tr : List (Nat × Op)) (P : Pool ε Op Ret σ) (h : Run exec allowed ⟨first, []⟩ tr P) :
    (∀ e ∈ tr, F e.2) ∧ ∀ p ∈ P.threads, p.Uses F := by
  -- Every operation performed is the head of a thread, and every thread was allowed once.
  induction h with
  | start => exact ⟨fun e he => absurd he List.not_mem_nil, fun p hp => absurd hp List.not_mem_nil⟩
  | spawn tr P p _ hp ih =>
      refine ⟨ih.1, fun q hq => ?_⟩
      rcases List.mem_append.mp hq with hold | hnew
      · exact ih.2 q hold
      · rw [List.mem_singleton.mp hnew]
        exact hallowed p hp
  | perform tr P i op k _ hi ih =>
      have hact : (Proc.act op k).Uses F := ih.2 _ (List.mem_of_getElem? hi)
      refine ⟨fun e he => ?_, fun q hq => ?_⟩
      · rcases List.mem_append.mp he with hold | hnew
        · exact ih.1 e hold
        · rw [List.mem_singleton.mp hnew]
          exact hact.1
      · rcases List.mem_or_eq_of_mem_set hq with hold | hnew
        · exact ih.2 q hold
        · rw [hnew]
          exact hact.2 _

/-- A run is cut at an entry of its trace: before it, the thread of the entry
    was about to perform the operation. -/
theorem run_split (start : Pool ε Op Ret σ) (tr : List (Nat × Op)) (P : Pool ε Op Ret σ)
    (h : Run exec allowed start tr P) (pre post : List (Nat × Op)) (i : Nat) (op : Op)
    (htr : tr = pre ++ (i, op) :: post) :
    ∃ P₁ k, Run exec allowed start pre P₁ ∧ P₁.threads[i]? = some (.act op k) := by
  induction h generalizing post with
  | start => exact absurd htr (by simp)
  | spawn tr P p _ _ ih => exact ih post htr
  | perform tr P j op' k hrun hj ih =>
      -- The entry is the last one, or the run was already cut before.
      rcases List.eq_nil_or_concat post with rfl | ⟨rest, last, rfl⟩
      · rcases List.append_inj' htr rfl with ⟨hpre, hlast⟩
        rw [List.cons.injEq, Prod.mk.injEq] at hlast
        rcases hlast with ⟨⟨rfl, rfl⟩, _⟩
        rw [← hpre]
        exact ⟨P, k, hrun, hj⟩
      · rw [List.concat_eq_append, ← List.cons_append, ← List.append_assoc] at htr
        exact ih rest (List.append_inj' htr rfl).1

end Pool
