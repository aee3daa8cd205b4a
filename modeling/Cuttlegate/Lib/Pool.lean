import Cuttlegate.Lib.Proc

/-!
# Interleaved Programs

Any number of programs running over one shared state. A step performs the
next operation of one of them, atomically, so the runs of a pool are exactly
the interleavings of the operations of its programs. New programs may join at
any time, and the trace of a run records which program performed which
operation.

The reasoning rule is rely-guarantee in its simplest form, with one relation
playing both parts. `F` says how the shared state may evolve: every step of
every program must follow it, and in return a program may assume it of all the
steps the others take between two of its own. What a program learnt from a
read stays useful only as far as `F` preserves it. `Safe` is the resulting
obligation on one program: from every future state in which the invariant
holds, its next operation keeps the invariant and follows `F`. The pool rule
`run_safe` then gives the invariant in every reachable state.

`follow` plays a schedule, a list of thread numbers, which is how a particular
interleaving is exhibited.

## Main definitions

* `Pool`: Programs in progress over a shared state.
* `Pool.Run`: The runs of a pool, with their traces.
* `Pool.perform`: The next operation of one program.
* `Pool.follow`, `Pool.trace`: Playing a schedule.
* `Proc.Safe`: The rely-guarantee obligation on one program.

## Theorems

* `Proc.safe_mono`: The obligation survives what the others do.
* `Proc.safe_bind`: The obligation composes.
* `Proc.safe_call`: The obligation for a single operation.
* `Proc.safe_of_uses`: Harmless operations are safe.
* `Pool.run_safe`: Safe programs keep the invariant in every run.
* `Pool.run_trans`: Runs compose.
* `Pool.run_trace`, `Pool.run_follow`: A schedule is a run.
-/

/-- Programs in progress over a shared state. -/
structure Pool (ε : Type) (Op : Type) (Ret : Op → Type) (σ : Type) where
  shared : σ
  threads : List (Proc ε Op Ret Unit)

namespace Proc

variable {ε Op : Type} {Ret : Op → Type} {α β σ : Type}

/-- The obligation on one program: whenever it is scheduled, in any state the
    others may have led to and in which the invariant holds, its operation
    keeps the invariant and follows `F`; and whatever it returns satisfies
    `Q` from then on. -/
def Safe (exec : (op : Op) → σ → Except ε (Ret op) × σ) (I : σ → Prop) (F : σ → σ → Prop)
    (Q : α → σ → Prop) : Proc ε Op Ret α → σ → Prop
  | ret a, s => ∀ s', F s s' → I s' → Q a s'
  | fail _, _ => True
  | act op k, s => ∀ s', F s s' → I s' → I (exec op s').2 ∧ F s' (exec op s').2 ∧
      (k (exec op s').1).Safe exec I F Q (exec op s').2

section Rules

variable {exec : (op : Op) → σ → Except ε (Ret op) × σ} {I : σ → Prop} {F : σ → σ → Prop}

/-- The obligation survives whatever the others do in the meantime. -/
theorem safe_mono (htrans : ∀ a b c, F a b → F b c → F a c) {Q : α → σ → Prop}
    (x : Proc ε Op Ret α) (s t : σ) (hx : x.Safe exec I F Q s) (hst : F s t) :
    x.Safe exec I F Q t := by
  cases x with
  | ret a => exact fun s' hts => hx s' (htrans _ _ _ hst hts)
  | fail e => trivial
  | act op k => exact fun s' hts => hx s' (htrans _ _ _ hst hts)

/-- It is enough to discharge the obligation in the future states where the
    invariant holds: nothing happens in the present one before the program is
    scheduled. -/
theorem safe_of_future (hrefl : ∀ s, F s s) {Q : α → σ → Prop} (x : Proc ε Op Ret α) (s : σ)
    (h : ∀ s', F s s' → I s' → x.Safe exec I F Q s') : x.Safe exec I F Q s := by
  cases x with
  | ret a => exact fun s' hss hI => h s' hss hI s' (hrefl s') hI
  | fail e => trivial
  | act op k => exact fun s' hss hI => h s' hss hI s' (hrefl s') hI

/-- The obligation composes along a sequence. -/
theorem safe_bind (hrefl : ∀ s, F s s) (htrans : ∀ a b c, F a b → F b c → F a c)
    {Q : α → σ → Prop} {S : β → σ → Prop} (x : Proc ε Op Ret α) (f : α → Proc ε Op Ret β) (s : σ)
    (hx : x.Safe exec I F Q s)
    (hf : ∀ a s', F s s' → I s' → Q a s' → (f a).Safe exec I F S s') :
    (x >>= f).Safe exec I F S s := by
  induction x generalizing s with
  | ret a =>
      exact safe_of_future hrefl (f a) s (fun s' hss hI => hf a s' hss hI (hx s' hss hI))
  | fail e => trivial
  | act op k ih =>
      intro s' hss hI
      rcases hx s' hss hI with ⟨hI', hF', hrest⟩
      exact ⟨hI', hF', ih _ _ hrest (fun a t ht => hf a t
        (htrans _ _ _ (htrans _ _ _ hss hF') ht))⟩

/-- The obligation for a single operation. -/
theorem safe_call (op : Op) {Q : Ret op → σ → Prop} (s : σ)
    (h : ∀ s', F s s' → I s' → I (exec op s').2 ∧ F s' (exec op s').2 ∧
      ∀ a, (exec op s').1 = .ok a → ∀ t, F (exec op s').2 t → I t → Q a t) :
    (call op).Safe exec I F Q s := by
  intro s' hss hI
  rcases h s' hss hI with ⟨hI', hF', hQ⟩
  refine ⟨hI', hF', ?_⟩
  cases hr : (exec op s').1 with
  | ok a => exact hQ a hr
  | error e => trivial

/-- Operations that keep the invariant and follow `F` from every state need no
    further argument. -/
theorem safe_of_uses {P : Op → Prop}
    (hop : ∀ op s, P op → I s → I (exec op s).2 ∧ F s (exec op s).2)
    (x : Proc ε Op Ret α) (hx : x.Uses P) (s : σ) :
    x.Safe exec I F (fun _ _ => True) s := by
  induction x generalizing s with
  | ret a => exact fun _ _ _ => trivial
  | fail e => trivial
  | act op k ih =>
      intro s' _ hI
      rcases hop op s' hx.1 hI with ⟨hI', hF'⟩
      exact ⟨hI', hF', ih _ (hx.2 _) _⟩

end Rules

end Proc

namespace Pool

variable {ε Op : Type} {Ret : Op → Type} {σ : Type}
  (exec : (op : Op) → σ → Except ε (Ret op) × σ)

/-- Perform the next operation of thread `i`, or nothing if it has none. -/
def perform (P : Pool ε Op Ret σ) (i : Nat) : Pool ε Op Ret σ :=
  match P.threads[i]? with
  | some (.act op k) => ⟨(exec op P.shared).2, P.threads.set i (k (exec op P.shared).1)⟩
  | _ => P

/-- Play a schedule: the listed threads each perform one operation, in turn. -/
def follow (P : Pool ε Op Ret σ) (schedule : List Nat) : Pool ε Op Ret σ :=
  schedule.foldl (perform exec) P

/-- The operations performed along a schedule. -/
def trace (P : Pool ε Op Ret σ) : List Nat → List (Nat × Op)
  | [] => []
  | i :: rest =>
      match P.threads[i]? with
      | some (.act op _) => (i, op) :: trace (perform exec P i) rest
      | _ => trace P rest

variable (allowed : Proc ε Op Ret Unit → Prop)

/-- The runs of a pool. A permitted program may join at any time, and any
    thread may perform its next operation; the trace lists the operations
    performed, in order, with the thread that performed them. -/
inductive Run (start : Pool ε Op Ret σ) : List (Nat × Op) → Pool ε Op Ret σ → Prop where
  | start : Run start [] start
  | spawn (tr : List (Nat × Op)) (P : Pool ε Op Ret σ) (p : Proc ε Op Ret Unit)
      (hrun : Run start tr P) (hp : allowed p) : Run start tr ⟨P.shared, P.threads ++ [p]⟩
  | perform (tr : List (Nat × Op)) (P : Pool ε Op Ret σ) (i : Nat) (op : Op)
      (k : Except ε (Ret op) → Proc ε Op Ret Unit) (hrun : Run start tr P)
      (hi : P.threads[i]? = some (.act op k)) :
      Run start (tr ++ [(i, op)]) ⟨(exec op P.shared).2, P.threads.set i (k (exec op P.shared).1)⟩

/-- Runs compose. -/
theorem run_trans (P Q R : Pool ε Op Ret σ) (tr tr' : List (Nat × Op))
    (h : Run exec allowed P tr Q) (h' : Run exec allowed Q tr' R) :
    Run exec allowed P (tr ++ tr') R := by
  induction h' with
  | start =>
      rw [List.append_nil]
      exact h
  | spawn tr' R p _ hp ih => exact Run.spawn _ _ p ih hp
  | perform tr' R i op k _ hi ih =>
      rw [← List.append_assoc]
      exact Run.perform _ _ i op k ih hi

/-- Playing a schedule from a reachable pool is a run, and its trace is known. -/
theorem run_trace (start : Pool ε Op Ret σ) (schedule : List Nat) (tr : List (Nat × Op))
    (P : Pool ε Op Ret σ) (h : Run exec allowed start tr P) :
    Run exec allowed start (tr ++ trace exec P schedule) (follow exec P schedule) := by
  -- On the schedule, with the run so far in front.
  induction schedule generalizing tr P with
  | nil =>
      rw [trace, List.append_nil]
      exact h
  | cons i rest ih =>
      change Run exec allowed start _ (follow exec (perform exec P i) rest)
      by_cases hact : ∃ op k, P.threads[i]? = some (.act op k)
      · rcases hact with ⟨op, k, hi⟩
        have hmove : perform exec P i
            = ⟨(exec op P.shared).2, P.threads.set i (k (exec op P.shared).1)⟩ := by
          simp only [perform, hi]
        simp only [trace, hi]
        rw [List.append_cons, hmove]
        exact ih _ _ (Run.perform tr P i op k h hi)
      · -- The thread has no operation left, and the pool stays as it is.
        have hstay : perform exec P i = P := by
          rw [perform]
          split
          · rename_i op k hi
            exact absurd ⟨op, k, hi⟩ hact
          · rfl
        have hnone : trace exec P (i :: rest) = trace exec P rest := by
          rw [trace]
          split
          · rename_i op k hi
            exact absurd ⟨op, k, hi⟩ hact
          · rfl
        rw [hstay, hnone]
        exact ih tr P h

/-- Playing a schedule from a reachable pool stays among the runs. -/
theorem run_follow (start : Pool ε Op Ret σ) (schedule : List Nat) (tr : List (Nat × Op))
    (P : Pool ε Op Ret σ) (h : Run exec allowed start tr P) :
    ∃ tr', Run exec allowed start tr' (follow exec P schedule) :=
  ⟨_, run_trace exec allowed start schedule tr P h⟩

/-- The pool rule. When every program that may join is safe, every run keeps
    the invariant, follows `F` from start to end, and leaves every thread safe
    for what is still to come. -/
theorem run_safe (I : σ → Prop) (F : σ → σ → Prop) (hrefl : ∀ s, F s s)
    (htrans : ∀ a b c, F a b → F b c → F a c)
    (hallowed : ∀ p s, allowed p → I s → p.Safe exec I F (fun _ _ => True) s)
    (start : Pool ε Op Ret σ) (hI : I start.shared)
    (hthreads : ∀ p ∈ start.threads, p.Safe exec I F (fun _ _ => True) start.shared)
    (tr : List (Nat × Op)) (P : Pool ε Op Ret σ) (h : Run exec allowed start tr P) :
    I P.shared ∧ F start.shared P.shared ∧
      ∀ p ∈ P.threads, p.Safe exec I F (fun _ _ => True) P.shared := by
  induction h with
  | start => exact ⟨hI, hrefl _, hthreads⟩
  | spawn tr P p hrun hp ih =>
      rcases ih with ⟨hIP, hFP, hsafe⟩
      refine ⟨hIP, hFP, fun q hq => ?_⟩
      rcases List.mem_append.mp hq with hold | hnew
      · exact hsafe q hold
      · rw [List.mem_singleton.mp hnew]
        exact hallowed p _ hp hIP
  | perform tr P i op k hrun hi ih =>
      rcases ih with ⟨hIP, hFP, hsafe⟩
      rcases hsafe _ (List.mem_of_getElem? hi) P.shared (hrefl _) hIP with ⟨hI', hF', hrest⟩
      refine ⟨hI', htrans _ _ _ hFP hF', fun q hq => ?_⟩
      -- The thread that moved is safe by its own obligation, the others
      -- because the move followed `F`.
      rcases List.mem_or_eq_of_mem_set hq with hold | hnew
      · exact Proc.safe_mono htrans q _ _ (hsafe q hold) hF'
      · rw [hnew]
        exact hrest

end Pool
