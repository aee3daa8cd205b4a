import Cuttlegate.Lib.Discipline
import Cuttlegate.Lib.Reports
import Mathlib.Data.List.Induction
import Mathlib.Data.List.Nodup

/-!
# What Was Done for an Answer

A program that reports its outcome in the end has done something on the way,
and the report should be true of it. A discipline says what is noted of the
operations of a program. Here it says which reports a note bears out as well,
and that nothing follows a report.

In a pool, the note of a thread is a matter of the trace: it is that of the
operations of the thread, with the answers they had when the trace is replayed
(`Discipline.notes`). What the other threads have done in between makes no
difference to what the note says, but for the answers. So a statement about
what a program does for its answer, which is one about its text, holds of the
trace of every run (`Pool.run_answers`).

## Main definitions

* `Discipline.reporting`: The reports that a note bears out.
* `Discipline.notes`: The notes of the threads after a trace.
* `reported`: The reports of a trace.

## Theorems

* `Proc.obeys_of_uses`: Operations that keep the note as it should be.
* `Proc.obeys_map`: A value that is passed on.
* `Proc.obeys_reports`, `Proc.obeys_silent`: Programs that report, and programs
  that do not.
* `Pool.run_notes`: Every operation of a run was permitted by the note of its
  thread.
* `Pool.run_answers`: Every report of a run is borne out by the note of its
  thread.
* `perm_by_thread`: What the threads have left, thread by thread.
-/

variable {ε Op : Type} {Ret : Op → Type} {α γ σ ρ : Type}

/-- A report is permitted by a note that bears it out, and then nothing is. -/
def Discipline.reporting (D : Discipline ε Op Ret γ) (Q : ρ → γ → Prop) :
    Discipline ε (Reporting Op ρ) (Reporting.Answer Ret) (γ × Bool) where
  permits
    | .op o, note => note.2 = false ∧ D.permits o note.1
    | .report r, note => note.2 = false ∧ Q r note.1
  after
    | .op o, r, note => (D.after o r note.1, note.2)
    | .report _, _, note => (note.1, true)

namespace Proc

/-- A program all of whose operations are permitted by the notes in `E`, and
    keep the note there. -/
theorem obeys_of_uses {D : Discipline ε Op Ret γ} {P : Op → Prop} {E : γ → Prop}
    (hop : ∀ op note, P op → E note → D.permits op note ∧ ∀ r, E (D.after op r note))
    (x : Proc ε Op Ret α) (hx : x.Uses P) (note : γ) (hnote : E note) :
    x.Obeys D (fun _ note' => E note') note := by
  induction x generalizing note with
  | ret a => exact hnote
  | fail e => exact hnote
  | act op k ih =>
      rcases hop op note hx.1 hnote with ⟨hpermits, hafter⟩
      exact ⟨hpermits, fun r => ih r (hx.2 r) _ (hafter r)⟩

/-- A program whose value is passed on through a function. -/
theorem obeys_map {β : Type} {D : Discipline ε Op Ret γ} {Q : Except ε β → γ → Prop}
    (x : Proc ε Op Ret α) (g : α → β) (note : γ)
    (hx : x.Obeys D (fun r note' => Q (r.map g) note') note) :
    (x >>= fun a => ret (g a)).Obeys D Q note := by
  refine obeys_bind _ _ _ (obeys_mono (fun r note' h => ?_) x note hx)
  cases r with
  | ok a => exact h
  | error e => exact h

section Reporting

variable {D : Discipline ε Op Ret γ} {Q : ρ → γ → Prop}

/-- A program that ends with an outcome that its note bears out may report
    it. -/
theorem obeys_reports (f : Except ε α → ρ) (x : Proc ε Op Ret α) (note : γ)
    (hx : x.Obeys D (fun r note' => Q (f r) note') note) :
    (x.reports f).Obeys (D.reporting Q) (fun _ note' => note'.2 = true) (note, false) := by
  induction x generalizing note with
  | ret a => exact obeys_call _ _ ⟨rfl, hx⟩ (fun _ => rfl)
  | fail e => exact obeys_call _ _ ⟨rfl, hx⟩ (fun _ => rfl)
  | act op k ih => exact ⟨⟨rfl, hx.1⟩, fun r => ih r _ (hx.2 r)⟩

/-- A program that never reports. -/
theorem obeys_silent {P : Op → Prop} {E : γ → Prop}
    (hop : ∀ op note, P op → E note → D.permits op note ∧ ∀ r, E (D.after op r note))
    (x : Proc ε (Reporting Op ρ) (Reporting.Answer Ret) α)
    (hx : x.Uses (fun o => ∃ op, o = .op op ∧ P op)) (note : γ) (hnote : E note) :
    x.Obeys (D.reporting Q) (fun _ note' => E note'.1) (note, false) := by
  refine obeys_mono (fun _ note' h => h.2) x _
    (obeys_of_uses (E := fun note' => note'.2 = false ∧ E note'.1) ?_ x hx _ ⟨rfl, hnote⟩)
  rintro o note' ⟨op, rfl, hP⟩ ⟨hopen, hE⟩
  rcases hop op note'.1 hP hE with ⟨hpermits, hafter⟩
  exact ⟨⟨hopen, hpermits⟩, fun r => ⟨hopen, hafter r⟩⟩

end Reporting

end Proc

/-! ## Notes of a trace -/

section Notes

variable (exec : (op : Op) → σ → Except ε (Ret op) × σ)

/-- The notes of the threads after a trace. -/
def Discipline.notes (D : Discipline ε Op Ret γ) (note : Nat → γ) (s : σ) :
    List (Nat × Op) → Nat → γ
  | [] => note
  | e :: tr => D.notes (Function.update note e.1 (D.after e.2 (exec e.2 s).1 (note e.1)))
      (exec e.2 s).2 tr

theorem Discipline.notes_snoc (D : Discipline ε Op Ret γ) (note : Nat → γ) (s : σ)
    (tr : List (Nat × Op)) (i : Nat) (op : Op) :
    D.notes exec note s (tr ++ [(i, op)]) = Function.update (D.notes exec note s tr) i
      (D.after op (exec op (replay exec s tr)).1 (D.notes exec note s tr i)) := by
  induction tr generalizing note s with
  | nil => rfl
  | cons e tr ih => exact ih _ _

/-- An operation of another thread is not noted. -/
theorem Discipline.notes_snoc_ne (D : Discipline ε Op Ret γ) (note : Nat → γ) (s : σ)
    (tr : List (Nat × Op)) (i j : Nat) (op : Op) (hij : i ≠ j) :
    D.notes exec note s (tr ++ [(j, op)]) i = D.notes exec note s tr i := by
  rw [D.notes_snoc exec, Function.update_of_ne hij]

end Notes

namespace Pool

variable {exec : (op : Op) → σ → Except ε (Ret op) × σ} {allowed : Proc ε Op Ret Unit → Prop}

/-- Every operation of a run was permitted by the note of its thread, a thread
    that is done came to rest with a note in `E`, and one that is still to come
    has a blank one. -/
theorem run_notes (D : Discipline ε Op Ret γ) (blank : γ) (E : γ → Prop)
    (hallowed : ∀ p, allowed p → p.Obeys D (fun _ note => E note) blank) (first : σ)
    (tr : List (Nat × Op)) (P : Pool ε Op Ret σ) (h : Run exec allowed ⟨first, []⟩ tr P) :
    (∀ pre i op post, tr = pre ++ (i, op) :: post →
      D.permits op (D.notes exec (fun _ => blank) first pre i)) ∧
    (∀ (i : Nat) (p : Proc ε Op Ret Unit), P.threads[i]? = some p → p.Done →
      E (D.notes exec (fun _ => blank) first tr i)) ∧
    ∀ i, P.threads.length ≤ i → D.notes exec (fun _ => blank) first tr i = blank := by
  have hrun := runWhile_rests D blank E
    (fun tr s note => note = D.notes exec (fun _ => blank) first tr ∧ s = replay exec first tr ∧
      ∀ pre i op post, tr = pre ++ (i, op) :: post →
        D.permits op (D.notes exec (fun _ => blank) first pre i))
    (fun p hp => Proc.obeys_rests p blank (hallowed p hp)) ?_ first
    ⟨rfl, rfl, fun pre i op post htr => absurd htr (by simp)⟩ tr P (runWhile_run _ tr P h)
  · rcases hrun with ⟨note, ⟨hnote, _, hpermits⟩, hlater, hrests⟩
    exact ⟨hpermits, fun i p hp hdone => hnote ▸ hrests i p hp hdone,
      fun i hi => hnote ▸ hlater i hi⟩
  · rintro tr s note i op ⟨rfl, rfl, hpermits⟩ _ hop
    refine ⟨(D.notes_snoc exec _ _ tr i op).symm, ?_, fun pre j op' post htr => ?_⟩
    · rw [replay_append]
      rfl
    · -- The operation is the last one, or was performed before.
      rcases List.eq_nil_or_concat post with rfl | ⟨rest, last, rfl⟩
      · rcases List.append_inj' htr rfl with ⟨hpre, hlast⟩
        rw [List.cons.injEq, Prod.mk.injEq] at hlast
        rcases hlast with ⟨⟨rfl, rfl⟩, _⟩
        rw [← hpre]
        exact hop
      · rw [List.concat_eq_append, ← List.cons_append, ← List.append_assoc] at htr
        exact hpermits pre j op' rest (List.append_inj' htr rfl).1

end Pool

/-! ## Reports of a trace -/

/-- The reports of a trace, with the threads that gave them. -/
def reported (tr : List (Nat × Reporting Op ρ)) : List (Nat × ρ) :=
  tr.filterMap (fun e => match e.2 with
    | .op _ => none
    | .report r => some (e.1, r))

theorem reported_snoc_op (tr : List (Nat × Reporting Op ρ)) (i : Nat) (o : Op) :
    reported (tr ++ [(i, .op o)]) = reported tr := by
  simp [reported]

theorem reported_snoc_report (tr : List (Nat × Reporting Op ρ)) (i : Nat) (r : ρ) :
    reported (tr ++ [(i, .report r)]) = reported tr ++ [(i, r)] := by
  simp [reported]

section Answers

variable {exec : (op : Op) → σ → Except ε (Ret op) × σ}
  {allowed : Proc ε (Reporting Op ρ) (Reporting.Answer Ret) Unit → Prop}

/-- Along a trace that is permitted, each report is borne out by the note its
    thread has in the end, no thread gives two, and the note tells whether it
    has given one. -/
theorem reported_permitted (D : Discipline ε Op Ret γ) (Q : ρ → γ → Prop) (blank : γ) (first : σ)
    (tr : List (Nat × Reporting Op ρ))
    (hpermits : ∀ pre i op post, tr = pre ++ (i, op) :: post →
      (D.reporting Q).permits op
        ((D.reporting Q).notes (reporting exec) (fun _ => (blank, false)) first pre i)) :
    (∀ e ∈ reported tr, Q e.2
        ((D.reporting Q).notes (reporting exec) (fun _ => (blank, false)) first tr e.1).1) ∧
      ((reported tr).map Prod.fst).Nodup ∧
      ∀ i, ((D.reporting Q).notes (reporting exec) (fun _ => (blank, false)) first tr i).2 = true ↔
        i ∈ (reported tr).map Prod.fst := by
  induction tr using List.reverseRecOn with
  | nil =>
      exact ⟨fun e he => absurd he List.not_mem_nil, List.nodup_nil,
        fun i => ⟨fun h => absurd h Bool.false_ne_true, fun h => absurd h List.not_mem_nil⟩⟩
  | append_singleton tr e ih =>
      rcases e with ⟨j, op⟩
      rcases ih (fun pre i op' post htr => hpermits pre i op' (post ++ [(j, op)])
        (by rw [htr, List.append_assoc, List.cons_append])) with ⟨hborne, hnodup, hended⟩
      have hop := hpermits tr j op [] rfl
      -- Whoever has reported does nothing more, so this thread has not.
      have hopen : j ∉ (reported tr).map Prod.fst := by
        intro hj
        cases op with
        | op o => exact Bool.false_ne_true (hop.1.symm.trans ((hended j).mpr hj))
        | report r => exact Bool.false_ne_true (hop.1.symm.trans ((hended j).mpr hj))
      -- What was reported before stands, since it comes from other threads.
      have hbefore : ∀ e ∈ reported tr, Q e.2 ((D.reporting Q).notes (reporting exec)
          (fun _ => (blank, false)) first (tr ++ [(j, op)]) e.1).1 := by
        intro e he
        have hne : e.1 ≠ j := fun hej => hopen (hej ▸ List.mem_map_of_mem he)
        rw [Discipline.notes_snoc_ne _ _ _ _ _ _ _ _ hne]
        exact hborne e he
      cases op with
      | op o =>
          rw [reported_snoc_op]
          refine ⟨hbefore, hnodup, fun i => ?_⟩
          by_cases hij : i = j
          · subst hij
            rw [Discipline.notes_snoc, Function.update_self]
            exact hended i
          · rw [Discipline.notes_snoc_ne _ _ _ _ _ _ _ _ hij]
            exact hended i
      | report r =>
          rw [reported_snoc_report]
          refine ⟨fun e he => ?_, ?_, fun i => ?_⟩
          · rcases List.mem_append.mp he with he | he
            · exact hbefore e he
            · rw [List.mem_singleton.mp he, Discipline.notes_snoc, Function.update_self]
              exact hop.2
          · rw [List.map_append, List.map_singleton]
            refine List.nodup_append.mpr ⟨hnodup, List.nodup_singleton j, fun i hi k hk hik => ?_⟩
            rw [hik, List.mem_singleton.mp hk] at hi
            exact hopen hi
          · rw [List.map_append, List.map_singleton, List.mem_append, List.mem_singleton]
            by_cases hij : i = j
            · subst hij
              rw [Discipline.notes_snoc, Function.update_self]
              exact ⟨fun _ => .inr rfl, fun _ => rfl⟩
            · rw [Discipline.notes_snoc_ne _ _ _ _ _ _ _ _ hij, hended i]
              exact ⟨.inl, fun h => h.resolve_right hij⟩

/-- Every report of a run is borne out by the note of its thread, a thread
    reports at most once, one that is done has reported, or its note is in `E`,
    and one that is still to come has a blank note. -/
theorem Pool.run_answers (D : Discipline ε Op Ret γ) (Q : ρ → γ → Prop) (blank : γ) (E : γ → Prop)
    (hallowed : ∀ p, allowed p →
      p.Obeys (D.reporting Q) (fun _ note => note.2 = true ∨ E note.1) (blank, false))
    (first : σ) (tr : List (Nat × Reporting Op ρ))
    (P : Pool ε (Reporting Op ρ) (Reporting.Answer Ret) σ)
    (h : Run (reporting exec) allowed ⟨first, []⟩ tr P) :
    (∀ e ∈ reported tr, Q e.2
        ((D.reporting Q).notes (reporting exec) (fun _ => (blank, false)) first tr e.1).1) ∧
      ((reported tr).map Prod.fst).Nodup ∧
      (∀ (i : Nat) (p : Proc ε (Reporting Op ρ) (Reporting.Answer Ret) Unit),
        P.threads[i]? = some p → p.Done → i ∈ (reported tr).map Prod.fst ∨
          E ((D.reporting Q).notes (reporting exec) (fun _ => (blank, false)) first tr i).1) ∧
      ∀ i, P.threads.length ≤ i →
        (D.reporting Q).notes (reporting exec) (fun _ => (blank, false)) first tr i =
          (blank, false) := by
  rcases run_notes (D.reporting Q) (blank, false) _ hallowed first tr P h with
    ⟨hpermits, hrests, hlater⟩
  rcases reported_permitted D Q blank first tr hpermits with ⟨hborne, hnodup, hended⟩
  exact ⟨hborne, hnodup, fun i p hp hdone => (hrests i p hp hdone).imp (hended i).mp id, hlater⟩

end Answers

/-- What the threads have left, thread by thread. -/
theorem perm_by_thread {β : Type} (threads : List Nat) (hthreads : threads.Nodup)
    (l : List (Nat × β)) (hl : ∀ e ∈ l, e.1 ∈ threads) :
    l.Perm (threads.flatMap (fun i => l.filter (fun e => e.1 == i))) := by
  induction threads generalizing l with
  | nil =>
      cases l with
      | nil => exact List.Perm.refl _
      | cons e l => exact absurd (hl e List.mem_cons_self) List.not_mem_nil
  | cons i rest ih =>
      rcases List.nodup_cons.mp hthreads with ⟨hi, hrest⟩
      have hothers := ih hrest (l.filter (fun e => !(e.1 == i))) (fun e he => ?_)
      · have hsame : rest.flatMap (fun j => (l.filter (fun e => !(e.1 == i))).filter
            (fun e => e.1 == j)) = rest.flatMap (fun j => l.filter (fun e => e.1 == j)) := by
          refine List.flatMap_congr (fun j hj => ?_)
          rw [List.filter_filter]
          refine List.filter_congr (fun e _ => ?_)
          by_cases hej : e.1 = j
          · have hne : e.1 ≠ i := fun hei => hi (hei ▸ hej ▸ hj)
            simp [hne]
          · simp [hej]
        rw [List.flatMap_cons, ← hsame]
        exact (List.filter_append_perm _ l).symm.trans (hothers.append_left _)
      · rcases List.mem_filter.mp he with ⟨hin, hne⟩
        exact (List.mem_cons.mp (hl e hin)).resolve_left (by simpa using hne)
