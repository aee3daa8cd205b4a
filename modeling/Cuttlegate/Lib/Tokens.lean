import Mathlib.Data.Set.Function
import Cuttlegate.Lib.Discipline

/-!
# Tokens that Are Spent Once

Some operations of a program hand out a token, and some use one up. A program
that spends only tokens it was handed, each at most once, cannot on its own
spend a token twice; a pool of such programs cannot either, in any
interleaving, as long as no token is ever handed out twice.

It is a discipline whose notes are the tokens a program holds. Different
threads hold nothing in common, and nothing in common with what was spent; an
operation of one thread changes only what that thread holds, so the invariant
is kept step by step.

The second half of the module keeps a log. `logged` is an interpreter that
also records the operations performed, for arguments in which what was done
matters to what may be done next.

## Main definitions

* `Ledger`: Which operations grant and which spend a token.
* `Ledger.discipline`: Spending only what is held.
* `Ledger.Fresh`: Every grant is a token never handed out before.
* `Ledger.spent`: The tokens spent along a trace.
* `logged`: An interpreter that keeps a log.

## Theorems

* `Proc.spends_bind`: A prefix that spends nothing keeps what is held.
* `Proc.spends_grant`: What an operation hands out can be spent after it.
* `Proc.spends_pay`: Spending a token that is held.
* `Ledger.run_spent`: No token is spent twice in any run.
* `Pool.run_logged`: Keeping a log changes nothing else.
-/

variable {ε Op : Type} {Ret : Op → Type} {α β σ τ : Type}

/-- Which operations grant a token with their answer, and which spend one. -/
structure Ledger (Op : Type) (Ret : Op → Type) (τ : Type) where
  grants : (op : Op) → Ret op → Option τ
  spends : Op → Option τ

namespace Ledger

/-- What is held after an operation and its answer. -/
def after (L : Ledger Op Ret τ) (op : Op) (r : Except ε (Ret op)) (held : Set τ) : Set τ :=
  {t | (t ∈ held ∧ L.spends op ≠ some t) ∨ ∃ a, r = .ok a ∧ L.grants op a = some t}

theorem after_mono (L : Ledger Op Ret τ) (op : Op) (r : Except ε (Ret op)) (b c : Set τ)
    (h : b ⊆ c) : L.after op r b ⊆ L.after op r c := by
  intro t ht
  rcases ht with ⟨hb, hne⟩ | hgrant
  · exact .inl ⟨h hb, hne⟩
  · exact .inr hgrant

/-- Spend no token that is not held, and none twice. -/
def discipline (ε : Type) (L : Ledger Op Ret τ) : Discipline ε Op Ret (Set τ) where
  permits := fun op held => ∀ t, L.spends op = some t → t ∈ held
  after := L.after

end Ledger

namespace Proc

section Rules

variable {L : Ledger Op Ret τ}

theorem spends_mono (x : Proc ε Op Ret α) (b c : Set τ) (hbc : b ⊆ c)
    (hx : x.Follows (L.discipline ε) b) :
    x.Follows (L.discipline ε) c := by
  induction x generalizing b c with
  | ret a => trivial
  | fail e => trivial
  | act op k ih =>
      exact ⟨fun t ht => hbc (hx.1 t ht),
        fun r => ih r _ _ (L.after_mono op r b c hbc) (hx.2 r)⟩

/-- A prefix that spends nothing leaves what is held to the rest. -/
theorem spends_bind (x : Proc ε Op Ret α) (f : α → Proc ε Op Ret β) (held : Set τ)
    (hx : x.Uses (fun op => L.spends op = none)) (hf : ∀ a, (f a).Follows (L.discipline ε) held) :
    (x >>= f).Follows (L.discipline ε) held := by
  induction x generalizing held with
  | ret a => exact hf a
  | fail e => trivial
  | act op k ih =>
      refine ⟨fun t ht => ?_, fun r => ih r _ (hx.2 r) (fun a => ?_)⟩
      · rw [hx.1] at ht
        exact (nomatch ht)
      · refine spends_mono (f a) held _ (fun t ht => .inl ⟨ht, ?_⟩) (hf a)
        rw [hx.1]
        exact fun hsome => (nomatch hsome)

/-- A program that never spends needs to hold nothing. -/
theorem spends_of_uses (x : Proc ε Op Ret α) (held : Set τ)
    (hx : x.Uses (fun op => L.spends op = none)) : x.Follows (L.discipline ε) held := by
  induction x generalizing held with
  | ret a => trivial
  | fail e => trivial
  | act op k ih =>
      refine ⟨fun t ht => ?_, fun r => ih r _ (hx.2 r)⟩
      rw [hx.1] at ht
      exact (nomatch ht)

/-- What an operation hands out is held by the rest. -/
theorem spends_grant (op : Op) (f : Ret op → Proc ε Op Ret β) (held : Set τ)
    (hop : L.spends op = none)
    (hf : ∀ a, (f a).Follows (L.discipline ε) {t | t ∈ held ∨ L.grants op a = some t}) :
    (call op >>= f).Follows (L.discipline ε) held := by
  refine ⟨fun t ht => ?_, fun r => ?_⟩
  · rw [hop] at ht
    exact (nomatch ht)
  cases r with
  | error e => trivial
  | ok a =>
      refine spends_mono (f a) _ _ (fun t ht => ?_) (hf a)
      rcases ht with hheld | hgrant
      · refine .inl ⟨hheld, ?_⟩
        rw [hop]
        exact fun hsome => (nomatch hsome)
      · exact .inr ⟨a, rfl, hgrant⟩

/-- Spending a token that is held, when nothing is spent after it. -/
theorem spends_pay (op : Op) (f : Ret op → Proc ε Op Ret β) (held : Set τ)
    (hop : ∀ t, L.spends op = some t → t ∈ held)
    (hf : ∀ a, (f a).Uses (fun op => L.spends op = none)) :
    (call op >>= f).Follows (L.discipline ε) held := by
  refine ⟨hop, fun r => ?_⟩
  cases r with
  | error e => trivial
  | ok a => exact spends_of_uses (f a) _ (hf a)

end Rules

end Proc

namespace Ledger

variable (exec : (op : Op) → σ → Except ε (Ret op) × σ)

/-- A token granted in a state was not issued before, and every token issued
    stays issued. -/
structure Fresh (L : Ledger Op Ret τ) (Issued : σ → τ → Prop) : Prop where
  keep : ∀ op s t, Issued s t → Issued (exec op s).2 t
  fresh : ∀ op s a t, (exec op s).1 = .ok a → L.grants op a = some t →
    ¬ Issued s t ∧ Issued (exec op s).2 t

/-- The tokens spent along a trace, in order. -/
def spent (L : Ledger Op Ret τ) (tr : List (Nat × Op)) : List τ :=
  tr.filterMap (fun e => L.spends e.2)

/-- What the threads hold, beside what was spent. -/
structure Accounts (L : Ledger Op Ret τ) (Issued : σ → τ → Prop) (first : σ)
    (tr : List (Nat × Op)) (s : σ) (held : Nat → Set τ) : Prop where
  apart : ∀ i j t, t ∈ held i → t ∈ held j → i = j
  unspent : ∀ i t, t ∈ held i → t ∉ L.spent tr
  nodup : (L.spent tr).Nodup
  issued : ∀ t, (t ∈ L.spent tr ∨ ∃ i, t ∈ held i) → Issued s t ∧ ¬ Issued first t
  kept : ∀ t, Issued first t → Issued s t

section Runs

variable {exec} {L : Ledger Op Ret τ} {Issued : σ → τ → Prop}

/-- An operation settles the account of its own thread and no other. -/
theorem Accounts.perform (hL : L.Fresh exec Issued) (first : σ) (tr : List (Nat × Op)) (s : σ)
    (held : Nat → Set τ) (h : Accounts L Issued first tr s held) (i : Nat) (op : Op)
    (hpay : ∀ t, L.spends op = some t → t ∈ held i) :
    Accounts L Issued first (tr ++ [(i, op)]) (exec op s).2
      (Function.update held i (L.after op (exec op s).1 (held i))) := by
  have hspent : L.spent (tr ++ [(i, op)]) = L.spent tr ++ (L.spends op).toList := by
    unfold spent
    rw [List.filterMap_append]
    cases hsp : L.spends op with
    | none => simp [hsp]
    | some t => simp [hsp]
  -- What a thread holds now it held before, or it was just granted to it.
  have hold : ∀ j t, t ∈ Function.update held i (L.after op (exec op s).1 (held i)) j →
      (t ∈ held j ∧ (j = i → L.spends op ≠ some t)) ∨
        (j = i ∧ ¬ Issued s t ∧ Issued (exec op s).2 t) := by
    intro j t ht
    by_cases hji : j = i
    · subst hji
      rw [Function.update_self] at ht
      rcases ht with ⟨hheld, hne⟩ | ⟨a, ha, hgrant⟩
      · exact .inl ⟨hheld, fun _ => hne⟩
      · exact .inr ⟨rfl, hL.fresh op s a t ha hgrant⟩
    · rw [Function.update_of_ne hji] at ht
      exact .inl ⟨ht, fun heq => absurd heq hji⟩
  refine ⟨fun j j' t hj hj' => ?_, fun j t hj hmem => ?_, ?_, ?_, ?_⟩
  · rcases hold j t hj with ⟨hin, _⟩ | ⟨hji, hnew, _⟩
    · rcases hold j' t hj' with ⟨hin', _⟩ | ⟨_, hnew', _⟩
      · exact h.apart j j' t hin hin'
      · exact absurd (h.issued t (.inr ⟨j, hin⟩)).1 hnew'
    · rcases hold j' t hj' with ⟨hin', _⟩ | ⟨hji', _, _⟩
      · exact absurd (h.issued t (.inr ⟨j', hin'⟩)).1 hnew
      · rw [hji, hji']
  · rw [hspent, List.mem_append, Option.mem_toList] at hmem
    rcases hold j t hj with ⟨hin, hne⟩ | ⟨_, hnew, _⟩
    · rcases hmem with hbefore | hnow
      · exact h.unspent j t hin hbefore
      · exact hne (h.apart j i t hin (hpay t hnow)) hnow
    · rcases hmem with hbefore | hnow
      · exact hnew (h.issued t (.inl hbefore)).1
      · exact hnew (h.issued t (.inr ⟨i, hpay t hnow⟩)).1
  · rw [hspent]
    cases hsp : L.spends op with
    | none => simpa using h.nodup
    | some t =>
        rw [Option.toList_some, List.nodup_append]
        refine ⟨h.nodup, by simp, fun a ha b hb => ?_⟩
        rw [List.mem_singleton.mp hb]
        rintro rfl
        exact h.unspent i a (hpay a hsp) ha
  · intro t ht
    have hkeep : Issued s t ∧ ¬ Issued first t → Issued (exec op s).2 t ∧ ¬ Issued first t :=
      fun hboth => ⟨hL.keep op s t hboth.1, hboth.2⟩
    rcases ht with hmem | ⟨j, hj⟩
    · rw [hspent, List.mem_append, Option.mem_toList] at hmem
      rcases hmem with hbefore | hnow
      · exact hkeep (h.issued t (.inl hbefore))
      · exact hkeep (h.issued t (.inr ⟨i, hpay t hnow⟩))
    · rcases hold j t hj with ⟨hin, _⟩ | ⟨_, hnew, hissued⟩
      · exact hkeep (h.issued t (.inr ⟨j, hin⟩))
      · exact ⟨hissued, fun hfirst => hnew (h.kept t hfirst)⟩
  · exact fun t ht => hL.keep op s t (h.kept t ht)

/-- In every run from an empty pool, no token is spent twice, and none that
    was issued before the start. -/
theorem run_spent (allowed : Proc ε Op Ret Unit → Prop) (hL : L.Fresh exec Issued)
    (hallowed : ∀ p, allowed p → p.Follows (L.discipline ε) ∅) (first : σ) (tr : List (Nat × Op))
    (P : Pool ε Op Ret σ) (h : Pool.Run exec allowed ⟨first, []⟩ tr P) :
    (L.spent tr).Nodup ∧ ∀ t ∈ L.spent tr, ¬ Issued first t := by
  have hfirst : Accounts L Issued first [] first (fun _ => ∅) := by
    refine ⟨?_, ?_, List.nodup_nil, ?_, fun t ht => ht⟩
    · exact fun i j t ht => absurd ht (Set.notMem_empty t)
    · exact fun i t ht => absurd ht (Set.notMem_empty t)
    · rintro t (hmem | ⟨i, hi⟩)
      · exact absurd hmem List.not_mem_nil
      · exact absurd hi (Set.notMem_empty t)
  rcases Pool.runWhile_discipline (L.discipline ε) ∅ (Accounts L Issued first) hallowed
    (fun tr s held i op hJ _ hpay => hJ.perform hL first tr s held i op hpay) first hfirst tr P
    (Pool.runWhile_run _ tr P h) with ⟨held, hheld⟩
  exact ⟨hheld.nodup, fun t ht => (hheld.issued t (.inl ht)).2⟩

end Runs

end Ledger

/-! ## A log of operations -/

/-- An interpreter that also records the operations performed. -/
def logged (exec : (op : Op) → σ → Except ε (Ret op) × σ) (op : Op) (s : σ × List Op) :
    Except ε (Ret op) × (σ × List Op) :=
  ((exec op s.1).1, ((exec op s.1).2, s.2 ++ [op]))

namespace Pool

/-- Every run is a run with a log, and the log is the trace. -/
theorem run_logged (exec : (op : Op) → σ → Except ε (Ret op) × σ)
    (allowed : Proc ε Op Ret Unit → Prop) (start : Pool ε Op Ret σ) (tr : List (Nat × Op))
    (P : Pool ε Op Ret σ) (h : Run exec allowed start tr P) :
    Run (logged exec) allowed ⟨(start.shared, []), start.threads⟩ tr
      ⟨(P.shared, tr.map Prod.snd), P.threads⟩ := by
  induction h with
  | start => exact Run.start
  | spawn tr P p _ hp ih => exact Run.spawn tr _ p ih hp
  | perform tr P i op k _ hi ih =>
      rw [List.map_append]
      exact Run.perform tr _ i op k ih hi

end Pool
