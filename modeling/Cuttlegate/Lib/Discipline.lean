import Mathlib.Logic.Function.Basic
import Cuttlegate.Lib.Pool

/-!
# Disciplined Programs

What one program may do next often depends on what it has seen so far: the
list it read, the id it drew. A discipline makes that explicit as a note the
program carries along, which every answer updates and every operation is
judged by. It is a property of the text of the program, since it holds
whatever the operations answer.

In a pool each thread carries its own note. The rule `runWhile_discipline`
proves an invariant over the trace, the shared state and all notes at once:
the one obligation is a single operation of a single thread, permitted by the
note that thread carries. The runs it is about may be restricted further, by a
condition `ok` on each step that the programs themselves do not ensure.

A discipline can also say with which notes a program may come to rest, that
is, return or fail: `Rests` is that property of the text, and `runWhile_rests`
gives it for the threads of a pool that are done. `Obeys` combines the two
with a postcondition on the outcome, which is what lets a program be followed
through its parts.

## Main definitions

* `Pool.RunWhile`: Runs each of whose steps meets a condition.
* `Discipline`: Notes, and the operations they permit.
* `Proc.Follows`: A program follows a discipline.
* `Proc.Rests`, `Proc.Done`: The notes a program comes to rest with.
* `Proc.Obeys`: A program follows a discipline to a postcondition.
* `Pool.meets`: A schedule each of whose steps meets a condition.

## Theorems

* `Proc.follows_call`, `Proc.follows_check`, `Proc.follows_then`: Following a
  discipline, step by step.
* `Proc.rests_call`, `Proc.rests_of_uses`: Coming to rest, step by step.
* `Proc.obeys_bind`, `Proc.obeys_attempt`, `Proc.obeys_call`: Obeying a
  discipline, part by part.
* `Proc.obeys_rests`: What that says of a whole program.
* `Pool.runWhile_run`: A run without a condition.
* `Pool.runWhile_length`: A pool that no program joins.
* `Pool.runWhile_follow`: A schedule that meets the condition is a run.
* `Pool.runWhile_notes`, `Pool.runWhile_rests`, `Pool.runWhile_discipline`: An
  invariant of disciplined programs.
-/

variable {ε Op : Type} {Ret : Op → Type} {α β γ σ : Type}

/-- Notes of type `γ`: which operations a note permits, and the note after an
    operation was answered. -/
structure Discipline (ε Op : Type) (Ret : Op → Type) (γ : Type) where
  permits : Op → γ → Prop
  after : (op : Op) → Except ε (Ret op) → γ → γ

namespace Proc

/-- Every operation of the program is permitted by the note it carries when it
    gets there. -/
def Follows (D : Discipline ε Op Ret γ) : Proc ε Op Ret α → γ → Prop
  | ret _, _ => True
  | fail _, _ => True
  | act op k, note => D.permits op note ∧ ∀ r, (k r).Follows D (D.after op r note)

variable {D : Discipline ε Op Ret γ}

theorem follows_call (op : Op) (f : Ret op → Proc ε Op Ret β) (note : γ)
    (hop : D.permits op note) (hf : ∀ a, (f a).Follows D (D.after op (.ok a) note)) :
    (call op >>= f).Follows D note := by
  refine ⟨hop, fun r => ?_⟩
  cases r with
  | error e => trivial
  | ok a => exact hf a

theorem follows_check (x : Except ε α) (f : α → Proc ε Op Ret β) (note : γ)
    (hf : ∀ a, x = .ok a → (f a).Follows D note) : (ofExcept x >>= f).Follows D note := by
  cases x with
  | error e => trivial
  | ok a => exact hf a rfl

/-- A suffix that every note permits. -/
theorem follows_then (x : Proc ε Op Ret α) (f : α → Proc ε Op Ret β) (note : γ)
    (hx : x.Follows D note) (hf : ∀ a note, (f a).Follows D note) : (x >>= f).Follows D note := by
  induction x generalizing note with
  | ret a => exact hf a note
  | fail e => trivial
  | act op k ih => exact ⟨hx.1, fun r => ih r _ (hx.2 r)⟩

/-- A program whose operations are all permitted by the notes in `E`, and keep
    the note there. -/
theorem follows_of_uses {E : γ → Prop} {P : Op → Prop}
    (hpermits : ∀ op note, P op → E note → D.permits op note)
    (hafter : ∀ op r note, P op → E note → E (D.after op r note)) (x : Proc ε Op Ret α)
    (hx : x.Uses P) (note : γ) (hnote : E note) : x.Follows D note := by
  induction x generalizing note with
  | ret a => trivial
  | fail e => trivial
  | act op k ih =>
      exact ⟨hpermits op note hx.1 hnote, fun r => ih r (hx.2 r) _ (hafter op r note hx.1 hnote)⟩

/-! ## Coming to rest -/

/-- The program returns or fails only with a note that satisfies `E`. -/
def Rests (D : Discipline ε Op Ret γ) (E : γ → Prop) : Proc ε Op Ret α → γ → Prop
  | ret _, note => E note
  | fail _, note => E note
  | act op k, note => ∀ r, (k r).Rests D E (D.after op r note)

/-- The program has nothing left to do. -/
def Done : Proc ε Op Ret α → Prop
  | act _ _ => False
  | _ => True

instance : DecidablePred (Done : Proc ε Op Ret α → Prop)
  | ret _ => isTrue trivial
  | fail _ => isTrue trivial
  | act _ _ => isFalse id

theorem rests_done (E : γ → Prop) (x : Proc ε Op Ret α) (note : γ) (hx : x.Rests D E note)
    (hdone : x.Done) : E note := by
  cases x with
  | ret a => exact hx
  | fail e => exact hx
  | act op k => exact hdone.elim

theorem rests_call {E : γ → Prop} (op : Op) (f : Ret op → Proc ε Op Ret β) (note : γ)
    (hfail : ∀ e, E (D.after op (.error e) note))
    (hf : ∀ a, (f a).Rests D E (D.after op (.ok a) note)) : (call op >>= f).Rests D E note := by
  intro r
  cases r with
  | error e => exact hfail e
  | ok a => exact hf a

/-- A program whose operations all keep the note in `E` rests in `E`. -/
theorem rests_of_uses {E : γ → Prop} {P : Op → Prop}
    (hP : ∀ op r note, P op → E note → E (D.after op r note)) (x : Proc ε Op Ret α)
    (hx : x.Uses P) (note : γ) (hnote : E note) : x.Rests D E note := by
  induction x generalizing note with
  | ret a => exact hnote
  | fail e => exact hnote
  | act op k ih => exact fun r => ih r (hx.2 r) _ (hP op r note hx.1 hnote)

/-! ## Following a program through its parts -/

/-- Every operation of the program is permitted by the note it carries, and its
    outcome and last note satisfy `Q`. -/
def Obeys (D : Discipline ε Op Ret γ) (Q : Except ε α → γ → Prop) : Proc ε Op Ret α → γ → Prop
  | ret a, note => Q (.ok a) note
  | fail e, note => Q (.error e) note
  | act op k, note => D.permits op note ∧ ∀ r, (k r).Obeys D Q (D.after op r note)

theorem obeys_mono {Q S : Except ε α → γ → Prop} (hQS : ∀ r note, Q r note → S r note)
    (x : Proc ε Op Ret α) (note : γ) (hx : x.Obeys D Q note) : x.Obeys D S note := by
  induction x generalizing note with
  | ret a => exact hQS _ _ hx
  | fail e => exact hQS _ _ hx
  | act op k ih => exact ⟨hx.1, fun r => ih r _ (hx.2 r)⟩

theorem obeys_bind {Q : Except ε β → γ → Prop} (x : Proc ε Op Ret α) (f : α → Proc ε Op Ret β)
    (note : γ) (hx : x.Obeys D (fun r note => match r with
      | .ok a => (f a).Obeys D Q note
      | .error e => Q (.error e) note) note) : (x >>= f).Obeys D Q note := by
  induction x generalizing note with
  | ret a => exact hx
  | fail e => exact hx
  | act op k ih => exact ⟨hx.1, fun r => ih r _ (hx.2 r)⟩

theorem obeys_attempt {Q : Except ε (Except ε α) → γ → Prop} (x : Proc ε Op Ret α) (note : γ)
    (hx : x.Obeys D (fun r note => Q (.ok r) note) note) : x.attempt.Obeys D Q note := by
  induction x generalizing note with
  | ret a => exact hx
  | fail e => exact hx
  | act op k ih => exact ⟨hx.1, fun r => ih r _ (hx.2 r)⟩

theorem obeys_call (op : Op) {Q : Except ε (Ret op) → γ → Prop} (note : γ)
    (hop : D.permits op note) (hQ : ∀ r, Q r (D.after op r note)) :
    (call op).Obeys D Q note := by
  refine ⟨hop, fun r => ?_⟩
  cases r with
  | ok a => exact hQ (.ok a)
  | error e => exact hQ (.error e)

/-- A program that obeys a discipline follows it, and rests where its
    postcondition says. -/
theorem obeys_rests {E : γ → Prop} (x : Proc ε Op Ret α) (note : γ)
    (hx : x.Obeys D (fun _ note => E note) note) : x.Follows D note ∧ x.Rests D E note := by
  induction x generalizing note with
  | ret a => exact ⟨trivial, hx⟩
  | fail e => exact ⟨trivial, hx⟩
  | act op k ih =>
      exact ⟨⟨hx.1, fun r => (ih r _ (hx.2 r)).1⟩, fun r => (ih r _ (hx.2 r)).2⟩

end Proc

namespace Pool

/-- The runs of a pool in which every step meets a condition on the trace so
    far, the shared state, the thread and its operation. -/
inductive RunWhile (exec : (op : Op) → σ → Except ε (Ret op) × σ)
    (allowed : Proc ε Op Ret Unit → Prop) (ok : List (Nat × Op) → σ → Nat → Op → Prop)
    (start : Pool ε Op Ret σ) : List (Nat × Op) → Pool ε Op Ret σ → Prop where
  | start : RunWhile exec allowed ok start [] start
  | spawn (tr : List (Nat × Op)) (P : Pool ε Op Ret σ) (p : Proc ε Op Ret Unit)
      (hrun : RunWhile exec allowed ok start tr P) (hp : allowed p) :
      RunWhile exec allowed ok start tr ⟨P.shared, P.threads ++ [p]⟩
  | perform (tr : List (Nat × Op)) (P : Pool ε Op Ret σ) (i : Nat) (op : Op)
      (k : Except ε (Ret op) → Proc ε Op Ret Unit) (hrun : RunWhile exec allowed ok start tr P)
      (hi : P.threads[i]? = some (.act op k)) (hok : ok tr P.shared i op) :
      RunWhile exec allowed ok start (tr ++ [(i, op)])
        ⟨(exec op P.shared).2, P.threads.set i (k (exec op P.shared).1)⟩

variable {exec : (op : Op) → σ → Except ε (Ret op) × σ} {allowed : Proc ε Op Ret Unit → Prop}
  {ok : List (Nat × Op) → σ → Nat → Op → Prop}

/-- Every run meets the condition that asks for nothing. -/
theorem runWhile_run (start : Pool ε Op Ret σ) (tr : List (Nat × Op)) (P : Pool ε Op Ret σ)
    (h : Run exec allowed start tr P) : RunWhile exec allowed (fun _ _ _ _ => True) start tr P := by
  induction h with
  | start => exact RunWhile.start
  | spawn tr P p _ hp ih => exact RunWhile.spawn tr P p ih hp
  | perform tr P i op k _ hi ih => exact RunWhile.perform tr P i op k ih hi trivial

/-- When no program joins, the threads are those of the start. -/
theorem runWhile_length (hallowed : ∀ p, ¬ allowed p) (start : Pool ε Op Ret σ)
    (tr : List (Nat × Op)) (P : Pool ε Op Ret σ) (h : RunWhile exec allowed ok start tr P) :
    P.threads.length = start.threads.length := by
  induction h with
  | start => rfl
  | spawn tr P p _ hp ih => exact absurd hp (hallowed p)
  | perform tr P i op k _ hi hok ih => rw [List.length_set, ih]

/-- Whether every step of a schedule meets a condition. -/
def meets (exec : (op : Op) → σ → Except ε (Ret op) × σ)
    (test : List (Nat × Op) → σ → Nat → Op → Bool) (tr : List (Nat × Op)) (P : Pool ε Op Ret σ) :
    List Nat → Bool
  | [] => true
  | i :: rest =>
      match P.threads[i]? with
      | some (.act op k) => test tr P.shared i op && meets exec test (tr ++ [(i, op)])
          ⟨(exec op P.shared).2, P.threads.set i (k (exec op P.shared).1)⟩ rest
      | _ => meets exec test tr P rest

/-- Playing a schedule that meets the condition stays among the runs. -/
theorem runWhile_follow (start : Pool ε Op Ret σ) (test : List (Nat × Op) → σ → Nat → Op → Bool)
    (htest : ∀ tr s i op, test tr s i op = true → ok tr s i op) (schedule : List Nat)
    (tr : List (Nat × Op)) (P : Pool ε Op Ret σ) (h : RunWhile exec allowed ok start tr P)
    (hmeets : meets exec test tr P schedule = true) :
    ∃ tr', RunWhile exec allowed ok start tr' (follow exec P schedule) := by
  induction schedule generalizing tr P with
  | nil => exact ⟨tr, h⟩
  | cons i rest ih =>
      change ∃ tr', RunWhile exec allowed ok start tr' (follow exec (perform exec P i) rest)
      by_cases hact : ∃ op k, P.threads[i]? = some (.act op k)
      · rcases hact with ⟨op, k, hi⟩
        simp only [meets, hi, Bool.and_eq_true] at hmeets
        simp only [perform, hi]
        exact ih _ _ (RunWhile.perform tr P i op k h hi (htest _ _ _ _ hmeets.1)) hmeets.2
      · -- The thread has no operation left, and the pool stays as it is.
        have hstay : perform exec P i = P := by
          rw [perform]
          split
          · rename_i op k hi
            exact absurd ⟨op, k, hi⟩ hact
          · rfl
        have hrest : meets exec test tr P (i :: rest) = meets exec test tr P rest := by
          rw [meets]
          split
          · rename_i op k hi
            exact absurd ⟨op, k, hi⟩ hact
          · rfl
        rw [hstay]
        exact ih tr P h (hrest.symm.trans hmeets)

/-- The notes of a pool: each thread meets its obligation `T` with the note it
    carries, and threads still to come start with `blank`. -/
structure Notes (T : Proc ε Op Ret Unit → γ → Prop) (blank : γ) (P : Pool ε Op Ret σ)
    (note : Nat → γ) : Prop where
  threads : ∀ (i : Nat) (p : Proc ε Op Ret Unit), P.threads[i]? = some p → T p (note i)
  later : ∀ i, P.threads.length ≤ i → note i = blank

theorem Notes.spawn (T : Proc ε Op Ret Unit → γ → Prop) (blank : γ) (P : Pool ε Op Ret σ)
    (note : Nat → γ) (h : Notes T blank P note) (p : Proc ε Op Ret Unit) (hp : T p blank) :
    Notes T blank ⟨P.shared, P.threads ++ [p]⟩ note := by
  refine ⟨fun i q hq => ?_, fun i hi => h.later i ?_⟩
  · by_cases hi : i < P.threads.length
    · rw [List.getElem?_append_left hi] at hq
      exact h.threads i q hq
    · have hlen := Nat.le_of_not_lt hi
      rw [List.getElem?_append_right hlen] at hq
      rw [List.mem_singleton.mp (List.mem_of_getElem? hq), h.later i hlen]
      exact hp
  · rw [List.length_append, List.length_singleton] at hi
    omega

theorem Notes.perform (T : Proc ε Op Ret Unit → γ → Prop) (blank : γ) (P : Pool ε Op Ret σ)
    (note : Nat → γ) (h : Notes T blank P note) (i : Nat) (op : Op)
    (k : Except ε (Ret op) → Proc ε Op Ret Unit) (hi : P.threads[i]? = some (.act op k))
    (s : σ) (r : Except ε (Ret op)) (after : γ) (hafter : T (k r) after) :
    Notes T blank ⟨s, P.threads.set i (k r)⟩ (Function.update note i after) := by
  refine ⟨fun j q hq => ?_, fun j hj => ?_⟩
  -- The thread that moved has a new note, the others keep theirs.
  · by_cases hji : j = i
    · subst hji
      rw [List.getElem?_set_self', hi] at hq
      rw [Function.update_self, ← Option.some.inj hq]
      exact hafter
    · rw [List.getElem?_set_ne (Ne.symm hji)] at hq
      rw [Function.update_of_ne hji]
      exact h.threads j q hq
  · rw [List.length_set] at hj
    have hji : j ≠ i := by
      rintro rfl
      rw [List.getElem?_eq_none hj] at hi
      exact (nomatch hi)
    rw [Function.update_of_ne hji]
    exact h.later j hj

/-- An invariant of the runs from a pool whose threads carry notes: it may
    speak of the trace, of the shared state and of the notes, and is kept when
    every permitted operation of one thread keeps it. The obligation `T` on a
    thread is one that its operations pass on. -/
theorem runWhile_notes (D : Discipline ε Op Ret γ) (T : Proc ε Op Ret Unit → γ → Prop)
    (hT : ∀ op k note, T (.act op k) note → D.permits op note ∧ ∀ r, T (k r) (D.after op r note))
    (blank : γ) (hallowed : ∀ p, allowed p → T p blank)
    (J : List (Nat × Op) → σ → (Nat → γ) → Prop)
    (hstep : ∀ tr s note i op, J tr s note → ok tr s i op → D.permits op (note i) →
      J (tr ++ [(i, op)]) (exec op s).2
        (Function.update note i (D.after op (exec op s).1 (note i))))
    (start : Pool ε Op Ret σ) (first : Nat → γ) (hstart : Notes T blank start first)
    (hfirst : J [] start.shared first) (tr : List (Nat × Op)) (P : Pool ε Op Ret σ)
    (h : RunWhile exec allowed ok start tr P) :
    ∃ note, Notes T blank P note ∧ J tr P.shared note := by
  -- On the run, with one note for each thread and the invariant over all of them.
  induction h with
  | start => exact ⟨first, hstart, hfirst⟩
  | spawn tr P p _ hp ih =>
      rcases ih with ⟨note, hnotes, hJ⟩
      exact ⟨note, hnotes.spawn _ blank P note p (hallowed p hp), hJ⟩
  | perform tr P i op k _ hi hok ih =>
      rcases ih with ⟨note, hnotes, hJ⟩
      rcases hT op k (note i) (hnotes.threads i _ hi) with ⟨hpermits, hrest⟩
      exact ⟨_, hnotes.perform _ blank P note i op k hi _ _ _ (hrest _),
        hstep tr P.shared note i op hJ hok hpermits⟩

/-- An invariant of disciplined programs. A thread that is done came to rest
    with a note in `E`. -/
theorem runWhile_rests (D : Discipline ε Op Ret γ) (blank : γ) (E : γ → Prop)
    (J : List (Nat × Op) → σ → (Nat → γ) → Prop)
    (hallowed : ∀ p, allowed p → p.Follows D blank ∧ p.Rests D E blank)
    (hstep : ∀ tr s note i op, J tr s note → ok tr s i op → D.permits op (note i) →
      J (tr ++ [(i, op)]) (exec op s).2
        (Function.update note i (D.after op (exec op s).1 (note i))))
    (first : σ) (hfirst : J [] first (fun _ => blank)) (tr : List (Nat × Op))
    (P : Pool ε Op Ret σ) (h : RunWhile exec allowed ok ⟨first, []⟩ tr P) :
    ∃ note, J tr P.shared note ∧ (∀ i, P.threads.length ≤ i → note i = blank) ∧
      ∀ (i : Nat) (p : Proc ε Op Ret Unit), P.threads[i]? = some p → p.Done → E (note i) := by
  have hempty : Notes (fun p note => p.Follows D note ∧ p.Rests D E note) blank
      (⟨first, []⟩ : Pool ε Op Ret σ) (fun _ => blank) :=
    ⟨fun i p hp => (nomatch hp), fun _ _ => rfl⟩
  rcases runWhile_notes D _ (fun _ _ _ hact => ⟨hact.1.1, fun r => ⟨hact.1.2 r, hact.2 r⟩⟩) blank
    hallowed J hstep ⟨first, []⟩ _ hempty hfirst tr P h with ⟨note, hnotes, hJ⟩
  exact ⟨note, hJ, hnotes.later,
    fun i p hp hdone => Proc.rests_done E p _ (hnotes.threads i p hp).2 hdone⟩

/-- The same when nothing is asked of the threads that are done. -/
theorem runWhile_discipline (D : Discipline ε Op Ret γ) (blank : γ)
    (J : List (Nat × Op) → σ → (Nat → γ) → Prop)
    (hallowed : ∀ p, allowed p → p.Follows D blank)
    (hstep : ∀ tr s note i op, J tr s note → ok tr s i op → D.permits op (note i) →
      J (tr ++ [(i, op)]) (exec op s).2
        (Function.update note i (D.after op (exec op s).1 (note i))))
    (first : σ) (hfirst : J [] first (fun _ => blank)) (tr : List (Nat × Op))
    (P : Pool ε Op Ret σ) (h : RunWhile exec allowed ok ⟨first, []⟩ tr P) :
    ∃ note, J tr P.shared note := by
  have huses : ∀ p : Proc ε Op Ret Unit, p.Uses (fun _ => True) := by
    intro p
    induction p with
    | ret a => trivial
    | fail e => trivial
    | act op k ih => exact ⟨trivial, ih⟩
  -- Resting in any note at all is no demand.
  have hrests : ∀ p : Proc ε Op Ret Unit, p.Rests D (fun _ => True) blank := fun p =>
    Proc.rests_of_uses (fun _ _ _ _ _ => trivial) p (huses p) blank trivial
  rcases runWhile_rests D blank (fun _ => True) J (fun p hp => ⟨hallowed p hp, hrests p⟩) hstep
    first hfirst tr P h with ⟨note, hJ, _⟩
  exact ⟨note, hJ⟩

end Pool
