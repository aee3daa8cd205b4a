import Mathlib.Logic.Basic
import Mathlib.Tactic.Common

/-!
# Programs over Atomic Operations

A program is a tree of calls to atomic operations: it returns, it fails, or it
performs one operation and continues with whatever the operation answered.
Nothing is said about what an operation does. An interpreter `exec` gives each
operation its effect on a shared state, and one and the same program can then
be run alone (`Proc.run`) or interleaved with others, one operation at a time.

Every operation may fail, so the answer to an operation is an `Except`, and a
program has a failure branch of its own; `attempt` catches it. Binding follows
the usual error discipline: a failed prefix skips the rest.

Four rules reason about a program without unfolding it. `Ends Q` is a
postcondition, established along the program text. `Uses P` is the
syntactic footprint: every operation the program can reach, whatever it is
answered, satisfies `P`. `run_rel` turns a footprint into a frame: a preorder
that each permitted operation respects relates the state before the run to the
state after it. `Pairs Q` is the two-run counterpart of a postcondition, for a
program run from two states that agree on what it looks at.

## Main definitions

* `Proc`: Programs over a signature of fallible operations.
* `Proc.call`: The program that performs one operation.
* `Proc.attempt`: Catching a failure.
* `Proc.ofExcept`: A pure check as a program.
* `Proc.run`: Running a program alone.
* `Proc.Ends`: A postcondition on the outcome and the final state.
* `Proc.Uses`: Every reachable operation satisfies a predicate.
* `Proc.Pairs`, `Proc.Alike`: Two runs, and two runs with one outcome.
* `Proc.Along`: Every operation of one run satisfies a predicate.
* `Proc.EndsAlong`: A postcondition of such a run.

## Theorems

* `Proc.bind_assoc`: Sequencing is associative.
* `Proc.bind_eq_attempt`: Sequencing in terms of caught failures.
* `Proc.run_bind`: A run of a sequence is a sequence of runs.
* `Proc.run_bind_eq_ok`: A sequence that returned was run to the end.
* `Proc.run_attempt`: Catching a failure leaves the state of the run.
* `Proc.ends_bind`, `Proc.ends_seq`: Postconditions of a sequence.
* `Proc.ends_run`: What a postcondition says of a run.
* `Proc.uses_bind`: Footprints compose.
* `Proc.uses_mono`: Footprints weaken.
* `Proc.run_rel`: A frame for every permitted operation frames the run.
* `Proc.ends_attempt`: A caught failure does not end the run.
* `Proc.pairs_bind`, `Proc.pairs_attempt_bind`: Two runs of a sequence.
* `Proc.run_agree`, `Proc.along_rel`: A run whose operations meet a condition.
* `Proc.endsAlong_bind`, `Proc.endsAlong_attempt`: Postconditions of such a run.
-/

/-- Programs over operations `Op`, where operation `op` answers with a value
    of type `Ret op` or an error. -/
inductive Proc (ε : Type) (Op : Type) (Ret : Op → Type) (α : Type) : Type where
  | ret (a : α)
  | fail (e : ε)
  | act (op : Op) (k : Except ε (Ret op) → Proc ε Op Ret α)

namespace Proc

variable {ε Op : Type} {Ret : Op → Type} {α β γ σ : Type}

/-- Sequencing: the rest runs on the value the first part returned, and is
    skipped when the first part failed. -/
protected def bind : Proc ε Op Ret α → (α → Proc ε Op Ret β) → Proc ε Op Ret β
  | ret a, f => f a
  | fail e, _ => fail e
  | act op k, f => act op (fun r => (k r).bind f)

instance : Monad (Proc ε Op Ret) where
  pure := ret
  bind := Proc.bind

@[simp] theorem pure_eq (a : α) : (pure a : Proc ε Op Ret α) = ret a := rfl

@[simp] theorem ret_bind (a : α) (f : α → Proc ε Op Ret β) : (ret a >>= f) = f a := rfl

@[simp] theorem fail_bind (e : ε) (f : α → Proc ε Op Ret β) : (fail e >>= f) = fail e := rfl

@[simp] theorem act_bind (op : Op) (k : Except ε (Ret op) → Proc ε Op Ret α)
    (f : α → Proc ε Op Ret β) : (act op k >>= f) = act op (fun r => k r >>= f) := rfl

theorem bind_assoc (x : Proc ε Op Ret α) (f : α → Proc ε Op Ret β) (g : β → Proc ε Op Ret γ) :
    (x >>= f >>= g) = x >>= fun a => f a >>= g := by
  induction x with
  | ret a => rfl
  | fail e => rfl
  | act op k ih => exact congrArg (act op) (funext ih)

/-- A pure check as a program: its value is returned, its error fails. -/
def ofExcept : Except ε α → Proc ε Op Ret α
  | .ok a => ret a
  | .error e => fail e

@[simp] theorem ofExcept_ok (a : α) : (ofExcept (.ok a) : Proc ε Op Ret α) = ret a := rfl

@[simp] theorem ofExcept_error (e : ε) : (ofExcept (.error e) : Proc ε Op Ret α) = fail e := rfl

/-- The program that performs one operation and passes its answer on. -/
def call (op : Op) : Proc ε Op Ret (Ret op) := act op ofExcept

/-- Run a program for its outcome, catching a failure as a value. -/
def attempt : Proc ε Op Ret α → Proc ε Op Ret (Except ε α)
  | ret a => ret (.ok a)
  | fail e => ret (.error e)
  | act op k => act op (fun r => (k r).attempt)

/-- Sequencing, as catching a failure and passing it on. -/
theorem bind_eq_attempt (x : Proc ε Op Ret α) (f : α → Proc ε Op Ret β) :
    (x >>= f) = x.attempt >>= fun r => match r with
      | .ok a => f a
      | .error e => fail e := by
  induction x with
  | ret a => rfl
  | fail e => rfl
  | act op k ih => exact congrArg (act op) (funext ih)

/-- A program that performs an operation catches its answer and goes on. -/
theorem act_eq_attempt (op : Op) (k : Except ε (Ret op) → Proc ε Op Ret α) :
    act op k = (call op).attempt >>= k := by
  refine congrArg (act op) (funext (fun r => ?_))
  cases r with
  | ok a => rfl
  | error e => rfl

theorem bind_ret (x : Proc ε Op Ret α) : (x >>= ret) = x := by
  induction x with
  | ret a => rfl
  | fail e => rfl
  | act op k ih => exact congrArg (act op) (funext ih)

/-- Run a program alone, from a state, under an interpretation of its
    operations. -/
def run (exec : (op : Op) → σ → Except ε (Ret op) × σ) :
    Proc ε Op Ret α → σ → Except ε α × σ
  | ret a, s => (.ok a, s)
  | fail e, s => (.error e, s)
  | act op k, s => (k (exec op s).1).run exec (exec op s).2

variable (exec : (op : Op) → σ → Except ε (Ret op) × σ)

@[simp] theorem run_ret (a : α) (s : σ) : (ret a : Proc ε Op Ret α).run exec s = (.ok a, s) := rfl

@[simp] theorem run_fail (e : ε) (s : σ) :
    (fail e : Proc ε Op Ret α).run exec s = (.error e, s) := rfl

@[simp] theorem run_act (op : Op) (k : Except ε (Ret op) → Proc ε Op Ret α) (s : σ) :
    (act op k).run exec s = (k (exec op s).1).run exec (exec op s).2 := rfl

@[simp] theorem run_ofExcept (x : Except ε α) (s : σ) :
    (ofExcept x : Proc ε Op Ret α).run exec s = (x, s) := by
  cases x with
  | ok a => rfl
  | error e => rfl

@[simp] theorem run_call (op : Op) (s : σ) : (call op).run exec s = exec op s := by
  simp only [call, run_act, run_ofExcept]

/-- A run of a sequence is the run of its first part, and the rest from where
    that left off. -/
theorem run_bind (x : Proc ε Op Ret α) (f : α → Proc ε Op Ret β) (s : σ) :
    (x >>= f).run exec s = match x.run exec s with
      | (.ok a, s') => (f a).run exec s'
      | (.error e, s') => (.error e, s') := by
  induction x generalizing s with
  | ret a => rfl
  | fail e => rfl
  | act op k ih => exact ih (exec op s).1 (exec op s).2

theorem run_bind_ok (x : Proc ε Op Ret α) (f : α → Proc ε Op Ret β) (s s' : σ) (a : α)
    (h : x.run exec s = (.ok a, s')) : (x >>= f).run exec s = (f a).run exec s' := by
  rw [run_bind, h]

/-- A sequence that returned was run to the end. -/
theorem run_bind_eq_ok (x : Proc ε Op Ret α) (f : α → Proc ε Op Ret β) (s s' : σ) (b : β)
    (h : (x >>= f).run exec s = (.ok b, s')) :
    ∃ a s₁, x.run exec s = (.ok a, s₁) ∧ (f a).run exec s₁ = (.ok b, s') := by
  rw [run_bind] at h
  rcases hx : x.run exec s with ⟨r, s₁⟩
  rw [hx] at h
  cases r with
  | ok a => exact ⟨a, s₁, rfl, h⟩
  | error e => exact absurd (congrArg Prod.fst h) (by simp)

/-- Catching a failure turns the outcome into a value and leaves the state
    the run reached. -/
@[simp] theorem run_attempt (x : Proc ε Op Ret α) (s : σ) :
    x.attempt.run exec s = (.ok (x.run exec s).1, (x.run exec s).2) := by
  induction x generalizing s with
  | ret a => rfl
  | fail e => rfl
  | act op k ih => exact ih (exec op s).1 (exec op s).2

/-! ## Postconditions -/

/-- The run ends in an outcome and a state that satisfy `Q`. -/
def Ends (Q : Except ε α → σ → Prop) (x : Proc ε Op Ret α) (s : σ) : Prop :=
  Q (x.run exec s).1 (x.run exec s).2

section Postconditions

variable {exec}

/-- A sequence ends well when its first part ends in a failure that is
    accepted as it is, or in a value from which the rest ends well. -/
theorem ends_bind {Q : Except ε β → σ → Prop} (x : Proc ε Op Ret α) (f : α → Proc ε Op Ret β)
    (s : σ) (hfail : ∀ e s', x.run exec s = (.error e, s') → Q (.error e) s')
    (hok : ∀ a s', x.run exec s = (.ok a, s') → (f a).Ends exec Q s') :
    (x >>= f).Ends exec Q s := by
  unfold Ends
  rw [run_bind]
  rcases hx : x.run exec s with ⟨r, s'⟩
  cases r with
  | ok a => exact hok a s' hx
  | error e => exact hfail e s' hx

/-- The same from a postcondition of the first part. -/
theorem ends_seq {P : Except ε α → σ → Prop} {Q : Except ε β → σ → Prop} (x : Proc ε Op Ret α)
    (f : α → Proc ε Op Ret β) (s : σ) (hx : x.Ends exec P s)
    (hfail : ∀ e s', P (.error e) s' → Q (.error e) s')
    (hok : ∀ a s', P (.ok a) s' → (f a).Ends exec Q s') : (x >>= f).Ends exec Q s := by
  unfold Ends at hx
  refine ends_bind x f s (fun e s' hrun => ?_) (fun a s' hrun => ?_)
  · rw [hrun] at hx
    exact hfail e s' hx
  · rw [hrun] at hx
    exact hok a s' hx

/-- A caught step never ends the run. -/
theorem ends_attempt {Q : Except ε β → σ → Prop} (x : Proc ε Op Ret α)
    (f : Except ε α → Proc ε Op Ret β) (s : σ)
    (hgo : ∀ r s', x.run exec s = (r, s') → (f r).Ends exec Q s') :
    (x.attempt >>= f).Ends exec Q s := by
  refine ends_bind _ _ s (fun e s' hrun => ?_) (fun r s' hrun => ?_)
  · rw [run_attempt] at hrun
    exact (nomatch hrun)
  · rw [run_attempt, Prod.mk.injEq, Except.ok.injEq] at hrun
    exact hgo r s' (Prod.ext hrun.1 hrun.2)

/-- What a postcondition says of a run. -/
theorem ends_run {Q : Except ε α → σ → Prop} (x : Proc ε Op Ret α) (s s' : σ) (r : Except ε α)
    (h : x.Ends exec Q s) (hrun : x.run exec s = (r, s')) : Q r s' := by
  unfold Ends at h
  rw [hrun] at h
  exact h

/-- A weaker postcondition is met by the same run. -/
theorem ends_mono {Q S : Except ε α → σ → Prop} (x : Proc ε Op Ret α) (s : σ)
    (h : x.Ends exec Q s) (hQS : ∀ r s', Q r s' → S r s') : x.Ends exec S s :=
  hQS _ _ h

end Postconditions

/-! ## Footprints -/

/-- Every operation the program can reach, whatever it is answered on the
    way, satisfies `P`. -/
def Uses (P : Op → Prop) : Proc ε Op Ret α → Prop
  | ret _ => True
  | fail _ => True
  | act op k => P op ∧ ∀ r, (k r).Uses P

section Footprint

variable {P Q : Op → Prop}

@[simp] theorem uses_ret (a : α) : (ret a : Proc ε Op Ret α).Uses P := trivial

@[simp] theorem uses_fail (e : ε) : (fail e : Proc ε Op Ret α).Uses P := trivial

@[simp] theorem uses_ofExcept (x : Except ε α) : (ofExcept x : Proc ε Op Ret α).Uses P := by
  cases x with
  | ok a => trivial
  | error e => trivial

@[simp] theorem uses_call (op : Op) : (call op : Proc ε Op Ret _).Uses P ↔ P op := by
  simp only [call, Uses, uses_ofExcept, implies_true, and_true]

/-- Footprints compose along a sequence. -/
theorem uses_bind (x : Proc ε Op Ret α) (f : α → Proc ε Op Ret β) (hx : x.Uses P)
    (hf : ∀ a, (f a).Uses P) : (x >>= f).Uses P := by
  induction x with
  | ret a => exact hf a
  | fail e => trivial
  | act op k ih => exact ⟨hx.1, fun r => ih r (hx.2 r)⟩

@[simp] theorem uses_attempt (x : Proc ε Op Ret α) : x.attempt.Uses P ↔ x.Uses P := by
  induction x with
  | ret a => exact Iff.rfl
  | fail e => exact Iff.rfl
  | act op k ih => exact and_congr_right (fun _ => forall_congr' ih)

/-- A larger predicate permits what a smaller one does. -/
theorem uses_mono (hPQ : ∀ op, P op → Q op) (x : Proc ε Op Ret α) (hx : x.Uses P) : x.Uses Q := by
  induction x with
  | ret a => trivial
  | fail e => trivial
  | act op k ih => exact ⟨hPQ op hx.1, fun r => ih r (hx.2 r)⟩

/-- The frame rule: a preorder respected by every permitted operation relates
    the two ends of a run. -/
theorem run_rel (R : σ → σ → Prop) (hrefl : ∀ s, R s s)
    (htrans : ∀ a b c, R a b → R b c → R a c)
    (hop : ∀ op s, P op → R s (exec op s).2) (x : Proc ε Op Ret α) (hx : x.Uses P) (s : σ) :
    R s (x.run exec s).2 := by
  induction x generalizing s with
  | ret a => exact hrefl s
  | fail e => exact hrefl s
  | act op k ih => exact htrans _ _ _ (hop op s hx.1) (ih _ (hx.2 _) _)

end Footprint

/-! ## Two runs side by side -/

/-- Two runs of one program, from two states: the outcomes and the final
    states are related. -/
def Pairs (Q : Except ε α → Except ε α → σ → σ → Prop) (x : Proc ε Op Ret α) (s t : σ) : Prop :=
  Q (x.run exec s).1 (x.run exec t).1 (x.run exec s).2 (x.run exec t).2

/-- The same outcome, in related states. -/
def Alike (R : σ → σ → Prop) (r r' : Except ε α) (s t : σ) : Prop := r = r' ∧ R s t

section TwoRuns

variable {exec} {R : σ → σ → Prop}

theorem pairs_call (op : Op) (s t : σ) (hans : (exec op s).1 = (exec op t).1)
    (hR : R (exec op s).2 (exec op t).2) : (call op).Pairs exec (Alike R) s t := by
  unfold Pairs
  rw [run_call, run_call]
  exact ⟨hans, hR⟩

/-- A pure check has the same outcome everywhere. -/
theorem pairs_ofExcept (x : Except ε α) (s t : σ) (hR : R s t) :
    (ofExcept x : Proc ε Op Ret α).Pairs exec (Alike R) s t := by
  unfold Pairs
  rw [run_ofExcept, run_ofExcept]
  exact ⟨rfl, hR⟩

theorem pairs_attempt (x : Proc ε Op Ret α) (s t : σ) (hx : x.Pairs exec (Alike R) s t) :
    x.attempt.Pairs exec (Alike R) s t := by
  unfold Pairs
  rw [run_attempt, run_attempt]
  exact ⟨congrArg Except.ok hx.1, hx.2⟩

/-- Two runs of a sequence whose first part is caught and has one outcome. -/
theorem pairs_attempt_bind {Q : Except ε β → Except ε β → σ → σ → Prop} (x : Proc ε Op Ret α)
    (f : Except ε α → Proc ε Op Ret β) (s t : σ) (hx : x.Pairs exec (Alike R) s t)
    (hgo : ∀ r s' t', x.run exec s = (r, s') → R s' t' → (f r).Pairs exec Q s' t') :
    (x.attempt >>= f).Pairs exec Q s t := by
  unfold Pairs Alike at hx
  unfold Pairs
  rw [run_bind, run_bind, run_attempt, run_attempt, ← hx.1]
  exact hgo _ _ _ rfl hx.2

/-- Two runs of a sequence whose first part has one outcome. -/
theorem pairs_bind {Q : Except ε β → Except ε β → σ → σ → Prop} (x : Proc ε Op Ret α)
    (f : α → Proc ε Op Ret β) (s t : σ) (hx : x.Pairs exec (Alike R) s t)
    (hfail : ∀ e s' t', R s' t' → Q (.error e) (.error e) s' t')
    (hok : ∀ a s' t', x.run exec s = (.ok a, s') → R s' t' → (f a).Pairs exec Q s' t') :
    (x >>= f).Pairs exec Q s t := by
  unfold Pairs Alike at hx
  unfold Pairs
  rw [run_bind, run_bind]
  rcases hs : x.run exec s with ⟨r, s'⟩
  rcases ht : x.run exec t with ⟨r', t'⟩
  rw [hs, ht] at hx
  rcases hx with ⟨hrr, hR⟩
  change r = r' at hrr
  rw [← hrr]
  cases r with
  | ok a => exact hok a s' t' hs hR
  | error e => exact hfail e s' t' hR

end TwoRuns

/-! ## One program under two interpretations -/

/-- Every operation of the run meets a condition on the state it is performed
    in. -/
def Along (ok : Op → σ → Prop) : Proc ε Op Ret α → σ → Prop
  | ret _, _ => True
  | fail _, _ => True
  | act op k, s => ok op s ∧ (k (exec op s).1).Along ok (exec op s).2

instance decidableAlong (ok : Op → σ → Prop) [∀ op s, Decidable (ok op s)] :
    (x : Proc ε Op Ret α) → (s : σ) → Decidable (x.Along exec ok s)
  | ret _, _ => isTrue trivial
  | fail _, _ => isTrue trivial
  | act op k, s =>
      have := decidableAlong ok (k (exec op s).1) (exec op s).2
      inferInstanceAs (Decidable (ok op s ∧ (k (exec op s).1).Along exec ok (exec op s).2))

/-- Two interpretations that agree wherever the condition holds give the same
    run. -/
theorem run_agree (exec' : (op : Op) → σ → Except ε (Ret op) × σ) (ok : Op → σ → Prop)
    (hagree : ∀ op s, ok op s → exec' op s = exec op s) (x : Proc ε Op Ret α) (s : σ)
    (hx : x.Along exec ok s) : x.run exec' s = x.run exec s := by
  induction x generalizing s with
  | ret a => rfl
  | fail e => rfl
  | act op k ih =>
      rw [run_act, run_act, hagree op s hx.1]
      exact ih _ _ hx.2

/-- What every operation that meets the condition keeps, the run keeps. -/
theorem along_rel (ok : Op → σ → Prop) (R : σ → σ → Prop) (hrefl : ∀ s, R s s)
    (htrans : ∀ a b c, R a b → R b c → R a c) (hop : ∀ op s, ok op s → R s (exec op s).2)
    (x : Proc ε Op Ret α) (s : σ) (hx : x.Along exec ok s) : R s (x.run exec s).2 := by
  induction x generalizing s with
  | ret a => exact hrefl s
  | fail e => exact hrefl s
  | act op k ih => exact htrans _ _ _ (hop op s hx.1) (ih _ _ hx.2)

/-- Along a sequence the condition holds in its first part, and in the rest
    from where that left off. -/
theorem along_bind (ok : Op → σ → Prop) (x : Proc ε Op Ret α) (f : α → Proc ε Op Ret β) (s : σ) :
    (x >>= f).Along exec ok s ↔ x.Along exec ok s ∧
      ∀ a s', x.run exec s = (.ok a, s') → (f a).Along exec ok s' := by
  induction x generalizing s with
  | ret a =>
      constructor
      · intro hf
        refine ⟨trivial, fun b s' hrun => ?_⟩
        rw [run_ret, Prod.mk.injEq, Except.ok.injEq] at hrun
        rw [← hrun.1, ← hrun.2]
        exact hf
      · rintro ⟨_, hf⟩
        exact hf a s rfl
  | fail e =>
      constructor
      · intro _
        exact ⟨trivial, fun a s' hrun => by simp at hrun⟩
      · intro _
        trivial
  | act op k ih =>
      constructor
      · rintro ⟨hop, hrest⟩
        rcases (ih _ _).mp hrest with ⟨hk, hf⟩
        exact ⟨⟨hop, hk⟩, hf⟩
      · rintro ⟨⟨hop, hk⟩, hf⟩
        exact ⟨hop, (ih _ _).mpr ⟨hk, hf⟩⟩

theorem along_attempt (ok : Op → σ → Prop) (x : Proc ε Op Ret α) (s : σ) :
    x.attempt.Along exec ok s ↔ x.Along exec ok s := by
  induction x generalizing s with
  | ret a => exact Iff.rfl
  | fail e => exact Iff.rfl
  | act op k ih => exact and_congr_right (fun _ => ih _ _)

/-- A run whose operations all meet the condition ends in an outcome and a
    state that satisfy `Q`. -/
def EndsAlong (ok : Op → σ → Prop) (Q : Except ε α → σ → Prop) (x : Proc ε Op Ret α) (s : σ) :
    Prop :=
  x.Along exec ok s → x.Ends exec Q s

section PostconditionsAlong

variable {exec} {ok : Op → σ → Prop}

theorem endsAlong_bind {Q : Except ε β → σ → Prop} (x : Proc ε Op Ret α)
    (f : α → Proc ε Op Ret β) (s : σ)
    (hfail : ∀ e s', x.Along exec ok s → x.run exec s = (.error e, s') → Q (.error e) s')
    (hok : ∀ a s', x.Along exec ok s → x.run exec s = (.ok a, s') →
      (f a).EndsAlong exec ok Q s') :
    (x >>= f).EndsAlong exec ok Q s := by
  intro halong
  rcases (along_bind exec ok x f s).mp halong with ⟨hx, hf⟩
  refine ends_bind x f s (fun e s' hrun => hfail e s' hx hrun) (fun a s' hrun => ?_)
  exact hok a s' hx hrun (hf a s' hrun)

/-- A caught step never ends the run. -/
theorem endsAlong_attempt {Q : Except ε β → σ → Prop} (x : Proc ε Op Ret α)
    (f : Except ε α → Proc ε Op Ret β) (s : σ)
    (hgo : ∀ r s', x.Along exec ok s → x.run exec s = (r, s') → (f r).EndsAlong exec ok Q s') :
    (x.attempt >>= f).EndsAlong exec ok Q s := by
  refine endsAlong_bind _ _ s (fun e s' _ hrun => ?_) (fun r s' hx hrun => ?_)
  · rw [run_attempt] at hrun
    exact (nomatch hrun)
  · rw [run_attempt, Prod.mk.injEq, Except.ok.injEq] at hrun
    exact hgo r s' ((along_attempt exec ok x s).mp hx) (Prod.ext hrun.1 hrun.2)

end PostconditionsAlong

end Proc
