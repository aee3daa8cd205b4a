import Cuttlegate.Lib.Pool

/-!
# What a Thread Has Seen

Some programs act on the strength of what they looked up before: a credential,
a resolved name. Between the lookup and the act the others may have changed
everything, so the only sound statement is about the past, namely that at the
moment of its own lookup the thread saw what it acted on.

`Guarded Q` is that statement about the text of a program. The program carries
the list of operations it has performed, each with the state it was performed
in, and `Q` must hold of this list and of the next operation wherever the
program gets to. Nothing is assumed about the states, so interference by
others is covered without a word about it.

In a pool the list is real: `run_evidence` says that every thread joined as the
program of some request, and that each entry of its list was performed by that
very thread in that very state on the way to the present pool.

## Main definitions

* `Proc.lift`: A program over some operations as one over more operations.
* `Proc.Guarded`: Each operation is justified by what was seen before it.
* `Pool.Joined`: The thread joined as the given program.
* `Pool.Performed`: The thread performed the operation in the given state.

## Theorems

* `Proc.lift_bind`, `Proc.lift_attempt`: Lifting follows the program text.
* `Proc.guarded_call`, `Proc.guarded_attempt`, `Proc.guarded_seq`,
  `Proc.guarded_then`, `Proc.guarded_uses`, `Proc.guarded_bind`: Justifying a
  program step by step.
* `Pool.run_evidence`: In a run, what a thread has seen has happened.
-/

variable {ε Op Op' : Type} {Ret : Op → Type} {Ret' : Op' → Type} {α β σ ρ : Type}

namespace Proc

/-! ## Lifting -/

/-- A program over some operations, as a program over operations that include
    them. -/
def lift (inj : Op → Op') (back : ∀ op, Except ε (Ret' (inj op)) → Except ε (Ret op)) :
    Proc ε Op Ret α → Proc ε Op' Ret' α
  | ret a => ret a
  | fail e => fail e
  | act op k => act (inj op) (fun r => (k (back op r)).lift inj back)

section Lift

variable (inj : Op → Op') (back : ∀ op, Except ε (Ret' (inj op)) → Except ε (Ret op))

theorem lift_bind (x : Proc ε Op Ret α) (f : α → Proc ε Op Ret β) :
    (x >>= f).lift inj back = x.lift inj back >>= fun a => (f a).lift inj back := by
  induction x with
  | ret a => rfl
  | fail e => rfl
  | act op k ih =>
      change act (inj op) (fun r => (k (back op r) >>= f).lift inj back) = _
      rw [show (fun r => (k (back op r) >>= f).lift inj back) = fun r =>
        (k (back op r)).lift inj back >>= fun a => (f a).lift inj back from funext (fun r => ih _)]
      rfl

theorem lift_attempt (x : Proc ε Op Ret α) :
    x.attempt.lift inj back = (x.lift inj back).attempt := by
  induction x with
  | ret a => rfl
  | fail e => rfl
  | act op k ih => exact congrArg (act (inj op)) (funext (fun r => ih _))

theorem lift_ofExcept (x : Except ε α) :
    (ofExcept x : Proc ε Op Ret α).lift inj back = ofExcept x := by
  cases x with
  | ok a => rfl
  | error e => rfl

/-- The footprint of a lifted program is the lifted footprint. -/
theorem uses_lift (P : Op' → Prop) (x : Proc ε Op Ret α) (hx : x.Uses (fun op => P (inj op))) :
    (x.lift inj back).Uses P := by
  induction x with
  | ret a => trivial
  | fail e => trivial
  | act op k ih => exact ⟨hx.1, fun r => ih _ (hx.2 _)⟩

end Lift

/-! ## Evidence -/

variable (exec : (op : Op) → σ → Except ε (Ret op) × σ)

/-- Wherever the program gets to, its next operation is justified by the
    operations performed before, each listed with the state it was performed
    in. -/
def Guarded (Q : List (Op × σ) → Op → Prop) : Proc ε Op Ret α → List (Op × σ) → Prop
  | ret _, _ => True
  | fail _, _ => True
  | act op k, seen => Q seen op ∧ ∀ s, (k (exec op s).1).Guarded Q (seen ++ [(op, s)])

section Rules

variable {exec} {Q : List (Op × σ) → Op → Prop} {P : Op → Prop}

theorem guarded_call (op : Op) (f : Ret op → Proc ε Op Ret β) (seen : List (Op × σ))
    (hop : Q seen op)
    (hf : ∀ s a, (exec op s).1 = .ok a → (f a).Guarded exec Q (seen ++ [(op, s)])) :
    (call op >>= f).Guarded exec Q seen := by
  refine ⟨hop, fun s => ?_⟩
  cases hr : (exec op s).1 with
  | error e => trivial
  | ok a => exact hf s a hr

/-- A caught operation goes on with whatever it answered. -/
theorem guarded_attempt (op : Op) (f : Except ε (Ret op) → Proc ε Op Ret β)
    (seen : List (Op × σ)) (hop : Q seen op)
    (hf : ∀ s, (f (exec op s).1).Guarded exec Q (seen ++ [(op, s)])) :
    ((call op).attempt >>= f).Guarded exec Q seen := by
  refine ⟨hop, fun s => ?_⟩
  have hs := hf s
  cases hr : (exec op s).1 with
  | error e =>
      rw [hr] at hs
      exact hs
  | ok a =>
      rw [hr] at hs
      exact hs

/-- Justified operations may be followed by others that are justified whatever
    was seen. -/
theorem guarded_seq (x : Proc ε Op Ret α) (f : α → Proc ε Op Ret β) (seen : List (Op × σ))
    (hx : x.Guarded exec Q seen) (hf : ∀ a seen', (f a).Guarded exec Q seen') :
    (x >>= f).Guarded exec Q seen := by
  induction x generalizing seen with
  | ret a => exact hf a seen
  | fail e => trivial
  | act op k ih => exact ⟨hx.1, fun s => ih _ _ (hx.2 s)⟩

/-- The same when failures are caught in between. -/
theorem guarded_then (x : Proc ε Op Ret α) (f : Except ε α → Proc ε Op Ret β)
    (seen : List (Op × σ)) (hx : x.Guarded exec Q seen)
    (hf : ∀ r seen', (f r).Guarded exec Q seen') :
    (x.attempt >>= f).Guarded exec Q seen := by
  induction x generalizing seen with
  | ret a => exact hf _ seen
  | fail e => exact hf _ seen
  | act op k ih => exact ⟨hx.1, fun s => ih _ _ (hx.2 s)⟩

/-- A part all of whose operations need no justification is skipped; what it
    saw is forgotten, apart from having been seen. -/
theorem guarded_bind (hP : ∀ op seen, P op → Q seen op) (x : Proc ε Op Ret α)
    (f : α → Proc ε Op Ret β) (seen : List (Op × σ)) (hx : x.Uses P)
    (hf : ∀ a more, (f a).Guarded exec Q (seen ++ more)) : (x >>= f).Guarded exec Q seen := by
  induction x generalizing seen with
  | ret a =>
      have ha := hf a []
      rw [List.append_nil] at ha
      exact ha
  | fail e => trivial
  | act op k ih =>
      refine ⟨hP op seen hx.1, fun s => ih _ _ (hx.2 _) (fun a more => ?_)⟩
      rw [List.append_assoc]
      exact hf a _

theorem guarded_uses (hP : ∀ op seen, P op → Q seen op) (x : Proc ε Op Ret α)
    (seen : List (Op × σ)) (hx : x.Uses P) : x.Guarded exec Q seen := by
  induction x generalizing seen with
  | ret a => trivial
  | fail e => trivial
  | act op k ih => exact ⟨hP op seen hx.1, fun s => ih _ _ (hx.2 _)⟩

end Rules

end Proc

namespace Pool

variable (exec : (op : Op) → σ → Except ε (Ret op) × σ) (allowed : Proc ε Op Ret Unit → Prop)

/-- On the way from `start` to `P`, thread `i` joined as the program `p`. -/
def Joined (start : Pool ε Op Ret σ) (tr : List (Nat × Op)) (P : Pool ε Op Ret σ) (i : Nat)
    (p : Proc ε Op Ret Unit) : Prop :=
  ∃ tr₁ P₁ tr₂, Run exec allowed start tr₁ P₁ ∧ P₁.threads.length = i ∧
    Run exec allowed ⟨P₁.shared, P₁.threads ++ [p]⟩ tr₂ P ∧ tr = tr₁ ++ tr₂

/-- On the way from `start` to `P`, thread `i` performed `op` in the state
    `s`. -/
def Performed (start : Pool ε Op Ret σ) (tr : List (Nat × Op)) (P : Pool ε Op Ret σ) (i : Nat)
    (op : Op) (s : σ) : Prop :=
  ∃ tr₁ P₁ k tr₂, Run exec allowed start tr₁ P₁ ∧ P₁.shared = s ∧
    P₁.threads[i]? = some (.act op k) ∧
    Run exec allowed ⟨(exec op s).2, P₁.threads.set i (k (exec op s).1)⟩ tr₂ P ∧
    tr = tr₁ ++ (i, op) :: tr₂

/-- What is known of one thread: the request it joined for, and what it has
    seen, all of which has happened. -/
def Known (serve : ρ → Proc ε Op Ret Unit) (Q : ρ → List (Op × σ) → Op → Prop)
    (start : Pool ε Op Ret σ) (tr : List (Nat × Op)) (P : Pool ε Op Ret σ) (i : Nat)
    (q : Proc ε Op Ret Unit) : Prop :=
  ∃ r seen, Joined exec (fun p => ∃ r, p = serve r) start tr P i (serve r) ∧
    q.Guarded exec (Q r) seen ∧
    ∀ e ∈ seen, Performed exec (fun p => ∃ r, p = serve r) start tr P i e.1 e.2

variable {exec allowed}

theorem Joined.extend (start : Pool ε Op Ret σ) (tr tr' : List (Nat × Op)) (P P' : Pool ε Op Ret σ)
    (i : Nat) (p : Proc ε Op Ret Unit) (h : Joined exec allowed start tr P i p)
    (hrun : Run exec allowed P tr' P') : Joined exec allowed start (tr ++ tr') P' i p := by
  rcases h with ⟨tr₁, P₁, tr₂, hrun₁, hlen, hrun₂, rfl⟩
  refine ⟨tr₁, P₁, tr₂ ++ tr', hrun₁, hlen, run_trans exec allowed _ _ _ _ _ hrun₂ hrun, ?_⟩
  rw [List.append_assoc]

theorem Performed.extend (start : Pool ε Op Ret σ) (tr tr' : List (Nat × Op))
    (P P' : Pool ε Op Ret σ) (i : Nat) (op : Op) (s : σ)
    (h : Performed exec allowed start tr P i op s) (hrun : Run exec allowed P tr' P') :
    Performed exec allowed start (tr ++ tr') P' i op s := by
  rcases h with ⟨tr₁, P₁, k, tr₂, hrun₁, hs, hi, hrun₂, rfl⟩
  refine ⟨tr₁, P₁, k, tr₂ ++ tr', hrun₁, hs, hi, run_trans exec allowed _ _ _ _ _ hrun₂ hrun, ?_⟩
  rw [List.append_assoc, List.cons_append]

theorem Known.extend (serve : ρ → Proc ε Op Ret Unit) (Q : ρ → List (Op × σ) → Op → Prop)
    (start : Pool ε Op Ret σ) (tr tr' : List (Nat × Op)) (P P' : Pool ε Op Ret σ) (i : Nat)
    (q : Proc ε Op Ret Unit) (h : Known exec serve Q start tr P i q)
    (hrun : Run exec (fun p => ∃ r, p = serve r) P tr' P') :
    Known exec serve Q start (tr ++ tr') P' i q := by
  rcases h with ⟨r, seen, hjoined, hguarded, hseen⟩
  exact ⟨r, seen, hjoined.extend _ _ _ _ _ _ _ hrun, hguarded,
    fun e he => (hseen e he).extend _ _ _ _ _ _ _ _ hrun⟩

/-- In every run that starts without threads, each thread serves a request and
    has seen what justifies its next operation. -/
theorem run_evidence (serve : ρ → Proc ε Op Ret Unit) (Q : ρ → List (Op × σ) → Op → Prop)
    (hserve : ∀ r, (serve r).Guarded exec (Q r) []) (first : σ) (tr : List (Nat × Op))
    (P : Pool ε Op Ret σ) (h : Run exec (fun p => ∃ r, p = serve r) ⟨first, []⟩ tr P) (i : Nat)
    (q : Proc ε Op Ret Unit) (hi : P.threads[i]? = some q) :
    Known exec serve Q ⟨first, []⟩ tr P i q := by
  -- On the run: what a thread has seen so far is in the trace, at the states it saw.
  induction h generalizing i q with
  | start => exact (nomatch hi)
  | spawn tr P p hrun hp ih =>
      have hspawn : Run exec (fun p => ∃ r, p = serve r) P [] ⟨P.shared, P.threads ++ [p]⟩ :=
        Run.spawn [] P p Run.start hp
      by_cases hlt : i < P.threads.length
      · rw [List.getElem?_append_left hlt] at hi
        have hknown := (ih i q hi).extend _ _ _ _ _ _ _ _ _ hspawn
        rw [List.append_nil] at hknown
        exact hknown
      · -- The thread that has just joined has seen nothing yet.
        have hlen : i = P.threads.length := by
          have hbound := (List.getElem?_eq_some_iff.mp hi).1
          rw [List.length_append, List.length_singleton] at hbound
          omega
        rw [hlen, List.getElem?_concat_length, Option.some.injEq] at hi
        rcases hp with ⟨r, rfl⟩
        rw [← hi]
        exact ⟨r, [], ⟨tr, P, [], hrun, hlen.symm, Run.start, (List.append_nil tr).symm⟩, hserve r,
          fun e he => absurd he List.not_mem_nil⟩
  | perform tr P j op k hrun hj ih =>
      have hstep : Run exec (fun p => ∃ r, p = serve r) P [(j, op)]
          ⟨(exec op P.shared).2, P.threads.set j (k (exec op P.shared).1)⟩ :=
        Run.perform [] P j op k Run.start hj
      by_cases hij : i = j
      · -- The thread that moved has seen one more operation.
        subst hij
        rw [List.getElem?_set_self', hj] at hi
        rcases ih i _ hj with ⟨r, seen, hjoined, hguarded, hseen⟩
        refine ⟨r, seen ++ [(op, P.shared)], hjoined.extend _ _ _ _ _ _ _ hstep, ?_,
          fun e he => ?_⟩
        · rw [← Option.some.inj hi]
          exact hguarded.2 P.shared
        · rcases List.mem_append.mp he with hold | hnew
          · exact (hseen e hold).extend _ _ _ _ _ _ _ _ hstep
          · rw [List.mem_singleton.mp hnew]
            exact ⟨tr, P, k, [], hrun, rfl, hj, Run.start, rfl⟩
      · rw [List.getElem?_set_ne (Ne.symm hij)] at hi
        exact (ih i q hi).extend _ _ _ _ _ _ _ _ _ hstep

end Pool
