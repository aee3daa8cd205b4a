import Cuttlegate.Lib.Answers
import Cuttlegate.Theory.AuditLog
import Cuttlegate.Theory.EvaluationPages
import Mathlib.Data.List.Perm.Basic

/-!
# What Was Served and What Was Recorded

Whether the history of a flag tells what its clients have been served.

Any number of evaluations are at work at once, of one flag or of all flags of a
project, among any other programs that record no evaluations. Each evaluation
tells its client in the end what it has evaluated, or that it has failed. On
the way it has handed over a record for each flag, unless no id could be drawn
for it: then the client is served, and the history has a gap. And an evaluation
of all flags that fails in the middle has handed over records of flags that
its client is never told about.

So the records of an evaluation are those of a part of what it told, in the
order in which it told it, and each gap is an id that could not be drawn
(`evaluations_recorded`). This is read off the text of the two methods. That it
holds in every interleaving is a matter of `Pool.run_answers`.

The records are stored by goroutines that nobody waits for, in any order. Once
they are, and if ids could be drawn, a client that reads the history of a flag
reads what was in it before and what was served of the flag in the meantime,
and nothing else but records of evaluations that have failed
(`served_history`).

## Main definitions

* `Evaluation.answer`: An evaluation with its answer.
* `Scribe`, `scribing`: What is noted of an evaluation.
* `Tells`, `Told`: A record tells of what was served.
* `Traffic`: The programs.
* `recordsBy`, `missesBy`: What a thread has handed over.

## Theorems

* `exec_evaluations`: What an operation hands over.
* `publishEvent_obeys`, `evaluateLoop_obeys`, `Evaluation.answer_obeys`: What is
  handed over, step by step.
* `evaluations_recorded`: What is handed over in a run.
* `served_history`: What a client reads of it.
-/

namespace Cuttlegate

/-! ## Records -/

/-- The record that an operation hands over. -/
def Op.record : Op → Option (String × EvaluationEvent)
  | .publishEvaluation flagID e => some (flagID, e)
  | _ => none

/-- The operation draws an id. -/
def Op.draws : Op → Bool
  | .newUUID => true
  | _ => false

theorem Op.record_eq_none (op : Op) (hop : op.record = none) : Tbl.evaluations ∉ op.writes := by
  intro hwrites
  cases op <;> simp [Op.writes, Op.record] at hwrites hop

/-- An operation adds what it hands over, and nothing else is ever added or
    lost. -/
theorem exec_evaluations (h : Host) (c : Call) (w : World) :
    (exec h c w).2.evaluations = w.evaluations ++ c.op.record.toList := by
  rcases c with ⟨tenant, op⟩
  by_cases hop : op.record = none
  · have hframe := exec_frame h ⟨tenant, op⟩ w .evaluations (op.record_eq_none hop)
    rw [hop, Option.toList_none, List.append_nil]
    exact hframe
  · cases op with
    | publishEvaluation flagID e =>
        -- Starting a goroutine does not fail.
        have hgo : (h.fails w.calls && (Op.publishEvaluation flagID e).fallible) = false :=
          Bool.and_false _
        simp only [exec, hgo, Op.perform]
        rfl
    | _ => exact absurd rfl hop

/-! ## Evaluations and their notes -/

/-- The evaluation with its answer: the views, and the time that comes with
    those of all flags. -/
def Evaluation.answer (e : Evaluation) (srt : Sorter) (ctx : Ctx) :
    Prog (List EvalView × Option Time) :=
  match e.flagKey with
  | some key => EvaluationService.evaluate srt ctx e.projectID e.environmentID key e.evalCtx >>=
      fun v => Proc.ret ([v], none)
  | none => EvaluationService.evaluateAll srt ctx e.projectID e.environmentID e.evalCtx >>=
      fun out => Proc.ret (out.1, some out.2)

/-- The records that have been handed over, and how many ids could not be
    drawn. -/
structure Scribe where
  records : List (String × EvaluationEvent) := []
  misses : Nat := 0

def scribing : Discipline Err Call Call.Ret Scribe where
  permits _ _ := True
  after c r note :=
    { records := note.records ++ c.op.record.toList
      misses := note.misses + if c.op.draws && !r.isOk then 1 else 0 }

/-- The record is one of the evaluation. -/
def Concerns (e : Evaluation) (x : String × EvaluationEvent) : Prop :=
  x.2.projectID = e.projectID ∧ x.2.environmentID = e.environmentID ∧
    x.2.userID = e.evalCtx.userID

/-- The record tells of the view. -/
structure Tells (e : Evaluation) (evaluatedAt : Option Time) (v : EvalView)
    (x : String × EvaluationEvent) : Prop where
  concerns : Concerns e x
  flagKey : x.2.flagKey = v.key
  variantKey : x.2.variantKey = v.valueKey
  reason : x.2.reason = v.reason
  occurredAt : ∀ t, evaluatedAt = some t → x.2.occurredAt = t

/-- The records tell of a part of the views, in their order, and one is missing
    for each id that could not be drawn. -/
def TellsOf (e : Evaluation) (evaluatedAt : Option Time) (views : List EvalView)
    (records : List (String × EvaluationEvent)) (misses : Nat) : Prop :=
  ∃ told, List.Sublist told views ∧ List.Forall₂ (Tells e evaluatedAt) told records ∧
    records.length + misses = views.length

/-- What an evaluation has handed over, by its outcome. -/
def Told (e : Evaluation) : Except Err (List EvalView × Option Time) → Scribe → Prop
  | .ok (views, evaluatedAt), note => TellsOf e evaluatedAt views note.records note.misses
  | .error _, note => ∀ x ∈ note.records, Concerns e x

section Notes

/-- The operation is neither of the two that are noted. -/
def Unnoted (c : Call) : Prop := c.op.record = none ∧ c.op.draws = false

theorem scribing_unnoted (note : Scribe) (c : Call) (note' : Scribe) (hc : Unnoted c)
    (hnote : note' = note) : scribing.permits c note' ∧ ∀ r, scribing.after c r note' = note := by
  refine ⟨trivial, fun r => ?_⟩
  simp only [scribing, hc.1, hc.2, hnote, Option.toList_none, List.append_nil, Bool.false_and,
    Bool.false_eq_true, if_false, Nat.add_zero]

/-- A program without such operations leaves the note as it is. -/
theorem obeys_unnoted {α : Type} (p : Prog α) (hp : Proc.Uses Unnoted p) (note : Scribe) :
    Proc.Obeys scribing (fun _ note' => note' = note) p note :=
  Proc.obeys_of_uses (scribing_unnoted note) p hp note rfl

theorem resolveLoop_unnoted (ctx : Ctx) (projectID flagID environmentID userKey : String)
    (slugs : List String) :
    Proc.Uses Unnoted (resolveLoop ctx projectID flagID environmentID userKey slugs) := by
  induction slugs with
  | nil => trivial
  | cons slug rest ih =>
      refine Proc.uses_bind _ _ ((Proc.uses_attempt _).mpr ((Proc.uses_call _).mpr ⟨rfl, rfl⟩))
        (fun r => ?_)
      split
      · refine Proc.uses_bind _ _ (Proc.uses_bind _ _ ((Proc.uses_attempt _).mpr
          ((Proc.uses_call _).mpr ⟨rfl, rfl⟩)) (fun _ => Proc.uses_ret _)) (fun _ => ih)
      · exact Proc.uses_fail _
      · refine Proc.uses_bind _ _ ((Proc.uses_call _).mpr ⟨rfl, rfl⟩) (fun member => ?_)
        exact Proc.uses_bind _ _ ih (fun found => Proc.uses_ret _)

theorem resolveSegments_unnoted (ctx : Ctx) (projectID flagID environmentID : String)
    (rules : List Rule) (userKey : String) :
    Proc.Uses Unnoted (resolveSegments ctx projectID flagID environmentID rules userKey) := by
  unfold resolveSegments
  by_cases hnone : (segmentRefs rules).length = 0
  · rw [if_pos hnone]
    exact Proc.uses_ret _
  · rw [if_neg hnone]
    exact Proc.uses_bind _ _ ((Proc.uses_call _).mpr ⟨rfl, rfl⟩)
      (fun keys => resolveLoop_unnoted ctx _ _ _ _ keys)

end Notes

section Steps

variable {β : Type} {Q : Except Err β → Scribe → Prop} (note : Scribe)

/-- A part without such operations: whatever it answers, the note is the same
    for the rest. -/
theorem obeys_then {α : Type} (p : Prog α) (hp : Proc.Uses Unnoted p) (k : α → Prog β)
    (hfail : ∀ e, Q (.error e) note) (hk : ∀ a, Proc.Obeys scribing Q (k a) note) :
    Proc.Obeys scribing Q (p >>= k) note := by
  refine Proc.obeys_bind _ _ _ (Proc.obeys_mono ?_ _ _ (obeys_unnoted p hp note))
  rintro r note' rfl
  cases r with
  | error e => exact hfail e
  | ok a => exact hk a

theorem obeys_read (ctx : Ctx) (op : Op) (hop : Unnoted ⟨ctx.tenant, op⟩) (k : op.Ret → Prog β)
    (hfail : ∀ e, Q (.error e) note) (hk : ∀ a, Proc.Obeys scribing Q (k a) note) :
    Proc.Obeys scribing Q (ctx.call op >>= k) note :=
  obeys_then note _ ((Proc.uses_call _).mpr hop) k hfail hk

/-- The record of an evaluation of a flag. -/
def recordOf (e : Evaluation) (flag : Flag) (result : EvalResult) (now : Time) (id : String) :
    String × EvaluationEvent :=
  (flag.id, ⟨id, flag.key, e.projectID, e.environmentID, e.evalCtx.userID, result.matchedRuleID,
    result.matchedRuleName, result.variantKey, result.reason, now⟩)

/-- Handing over the record of an evaluation: there is no id for it, or it is
    handed over. -/
theorem publishEvent_obeys (ctx : Ctx) (e : Evaluation) (flag : Flag) (result : EvalResult)
    (now : Time) (k : Unit → Prog β)
    (hmissed : Proc.Obeys scribing Q (k ()) { note with misses := note.misses + 1 })
    (hfail : ∀ id err, Q (.error err)
      { note with records := note.records ++ [recordOf e flag result now id] })
    (hk : ∀ id, Proc.Obeys scribing Q (k ())
      { note with records := note.records ++ [recordOf e flag result now id] }) :
    Proc.Obeys scribing Q
      (publishEvent ctx e.projectID e.environmentID flag e.evalCtx result now >>= k) note := by
  unfold publishEvent
  rw [Proc.bind_assoc]
  refine Proc.obeys_bind _ _ _ (Proc.obeys_attempt _ _ (Proc.obeys_call _ _ trivial (fun r => ?_)))
  cases r with
  | error err =>
      have hnote : scribing.after ⟨ctx.tenant, .newUUID⟩ (.error err) note =
          { note with misses := note.misses + 1 } := by
        simp [scribing, Op.record, Op.draws, Except.isOk, Except.toBool]
      rw [hnote]
      exact hmissed
  | ok id =>
      have hnote : scribing.after ⟨ctx.tenant, .newUUID⟩ (.ok id) note = note := by
        simp [scribing, Op.record, Op.draws, Except.isOk, Except.toBool]
      rw [hnote]
      let handOver : Call :=
        ⟨ctx.tenant, .publishEvaluation flag.id (recordOf e flag result now id).2⟩
      have hadded : ∀ r, scribing.after handOver r note =
          { note with records := note.records ++ [recordOf e flag result now id] } := by
        intro r
        simp [scribing, handOver, Op.record, Op.draws, recordOf]
      refine Proc.obeys_bind _ _ _ (Proc.obeys_call handOver _ trivial (fun r => ?_))
      rw [hadded r]
      cases r with
      | error err => exact hfail id err
      | ok _ => exact hk id

end Steps

/-! ## The methods -/

/-- What a method adds to a note, by its outcome. -/
def Adds (e : Evaluation) (evaluatedAt : Option Time) (note : Scribe)
    (r : Except Err (List EvalView)) (note' : Scribe) : Prop :=
  ∃ records misses, note'.records = note.records ++ records ∧
    note'.misses = note.misses + misses ∧ match r with
      | .ok views => TellsOf e evaluatedAt views records misses
      | .error _ => ∀ x ∈ records, Concerns e x

section Adds

variable (e : Evaluation) (evaluatedAt : Option Time) (note : Scribe)

theorem Adds.nothing (r : Except Err (List EvalView)) (hr : ∀ views, r = .ok views → views = []) :
    Adds e evaluatedAt note r note := by
  refine ⟨[], 0, (List.append_nil _).symm, rfl, ?_⟩
  cases r with
  | error err => exact fun x hx => absurd hx List.not_mem_nil
  | ok views =>
      rw [hr views rfl]
      exact ⟨[], List.Sublist.refl _, List.Forall₂.nil, rfl⟩

/-- A view without a record, and those after it. -/
theorem Adds.missed (v : EvalView) (r : Except Err (List EvalView)) (note' : Scribe)
    (h : Adds e evaluatedAt { note with misses := note.misses + 1 } r note') :
    Adds e evaluatedAt note (r.map (v :: ·)) note' := by
  rcases h with ⟨records, misses, hrecords, hmisses, htold⟩
  refine ⟨records, misses + 1, hrecords, by simp only [hmisses]; omega, ?_⟩
  cases r with
  | error err => exact htold
  | ok views =>
      rcases htold with ⟨told, hsub, htells, hlength⟩
      refine ⟨told, hsub.cons v, htells, ?_⟩
      rw [List.length_cons]
      omega

/-- A view with its record, and those after it. -/
theorem Adds.told (v : EvalView) (x : String × EvaluationEvent) (hx : Tells e evaluatedAt v x)
    (r : Except Err (List EvalView)) (note' : Scribe)
    (h : Adds e evaluatedAt { note with records := note.records ++ [x] } r note') :
    Adds e evaluatedAt note (r.map (v :: ·)) note' := by
  rcases h with ⟨records, misses, hrecords, hmisses, htold⟩
  refine ⟨x :: records, misses, hrecords.trans (List.append_cons _ _ _).symm, hmisses, ?_⟩
  cases r with
  | error err =>
      intro y hy
      rcases List.mem_cons.mp hy with rfl | hy
      · exact hx.concerns
      · exact htold y hy
  | ok views =>
      rcases htold with ⟨told, hsub, htells, hlength⟩
      refine ⟨v :: told, hsub.cons_cons v, List.Forall₂.cons hx htells, ?_⟩
      rw [List.length_cons, List.length_cons]
      omega

/-- The record of an evaluation tells of its view. -/
theorem tells_recordOf (flag : Flag) (result : EvalResult) (now : Time) (id : String)
    (hnow : ∀ t, evaluatedAt = some t → now = t) :
    Tells e evaluatedAt (evalView flag result) (recordOf e flag result now id) where
  concerns := ⟨rfl, rfl, rfl⟩
  flagKey := rfl
  variantKey := rfl
  reason := rfl
  occurredAt := hnow

/-- A record is handed over, and then it fails. -/
theorem Adds.failed (flag : Flag) (result : EvalResult) (now : Time) (id : String) (err : Err) :
    Adds e evaluatedAt note (.error err)
      { note with records := note.records ++ [recordOf e flag result now id] } := by
  refine ⟨[recordOf e flag result now id], 0, rfl, rfl, fun x hx => ?_⟩
  rw [List.mem_singleton.mp hx]
  exact ⟨rfl, rfl, rfl⟩

end Adds

namespace EvaluationService

variable (srt : Sorter) (ctx : Ctx) (e : Evaluation)

/-- The loop over the flags hands over a record for each, by its outcome. -/
theorem evaluateLoop_obeys (evaluatedAt : Time)
    (stateByFlag : String → Option FlagEnvironmentState) (rulesByFlag : String → List Rule)
    (flags : List Flag) (note : Scribe) :
    Proc.Obeys scribing (Adds e (some evaluatedAt) note)
      (evaluateLoop srt ctx e.projectID e.environmentID e.evalCtx evaluatedAt stateByFlag
        rulesByFlag flags) note := by
  -- On the flags: what is added for the rest is added to the note after the first.
  induction flags generalizing note with
  | nil => exact Adds.nothing e _ note _ (fun views hviews => (Except.ok.inj hviews).symm)
  | cons flag rest ih =>
      have hnone : ∀ err, Adds e (some evaluatedAt) note (.error err) note := fun err =>
        Adds.nothing e _ note _ (fun views hviews => by cases hviews)
      refine obeys_then note _ (resolveSegments_unnoted ctx _ _ _ _ _) _ hnone (fun segs => ?_)
      refine obeys_then note _ (Proc.uses_ofExcept _) _ hnone (fun result => ?_)
      refine publishEvent_obeys note ctx e flag result evaluatedAt _ ?_
        (fun id err => Adds.failed e _ note flag result evaluatedAt id err) (fun id => ?_)
      · exact Proc.obeys_map _ _ _ (Proc.obeys_mono (fun r note' h =>
          Adds.missed e _ note (evalView flag result) r note' h) _ _ (ih _))
      · have htells := tells_recordOf e (some evaluatedAt) flag result evaluatedAt id
          (fun t ht => Option.some.inj ht)
        exact Proc.obeys_map _ _ _ (Proc.obeys_mono (fun r note' h =>
          Adds.told e _ note (evalView flag result) _ htells r note' h) _ _ (ih _))

theorem evaluate_obeys (flagKey : String) (note : Scribe) :
    Proc.Obeys scribing (fun r note' => Adds e none note (r.map (fun v => [v])) note')
      (evaluate srt ctx e.projectID e.environmentID flagKey e.evalCtx) note := by
  have hnone : ∀ err : Err, Adds e none note (.error err) note := fun err =>
    Adds.nothing e _ note _ (fun views hviews => by cases hviews)
  refine obeys_then note _ (Proc.uses_ofExcept _) _ hnone (fun _ => ?_)
  refine obeys_read note ctx _ ⟨rfl, rfl⟩ _ hnone (fun flag => ?_)
  refine obeys_read note ctx _ ⟨rfl, rfl⟩ _ hnone (fun state => ?_)
  refine obeys_read note ctx _ ⟨rfl, rfl⟩ _ hnone (fun rules => ?_)
  refine obeys_then note _ (resolveSegments_unnoted ctx _ _ _ _ _) _ hnone (fun segs => ?_)
  refine obeys_read note ctx _ ⟨rfl, rfl⟩ _ hnone (fun now => ?_)
  refine obeys_then note _ (Proc.uses_ofExcept _) _ hnone (fun result => ?_)
  have hlast : ∀ note', Adds e none note' (.ok []) note' := fun note' =>
    Adds.nothing e _ note' _ (fun views hviews => (Except.ok.inj hviews).symm)
  refine publishEvent_obeys note ctx e flag result now _ ?_
    (fun id err => Adds.failed e _ note flag result now id err) (fun id => ?_)
  · exact Adds.missed e _ note (evalView flag result) (.ok []) _ (hlast _)
  · exact Adds.told e _ note (evalView flag result) _
      (tells_recordOf e none flag result now id (fun t ht => by cases ht)) (.ok []) _ (hlast _)

theorem evaluateAll_obeys (note : Scribe) :
    Proc.Obeys scribing (fun r note' => ∃ evaluatedAt, (∀ out, r = .ok out → out.2 = evaluatedAt) ∧
        Adds e (some evaluatedAt) note (r.map Prod.fst) note')
      (evaluateAll srt ctx e.projectID e.environmentID e.evalCtx) note := by
  have hnone : ∀ err : Err, ∃ evaluatedAt : Time,
      (∀ out : List EvalView × Time, .error err = Except.ok out → out.2 = evaluatedAt) ∧
        Adds e (some evaluatedAt) note (.error err) note := fun err =>
    ⟨0, fun out hout => (by cases hout),
      Adds.nothing e _ note _ (fun views hviews => by cases hviews)⟩
  refine obeys_then note _ (Proc.uses_ofExcept _) _ hnone (fun _ => ?_)
  refine obeys_read note ctx _ ⟨rfl, rfl⟩ _ hnone (fun evaluatedAt => ?_)
  refine obeys_read note ctx _ ⟨rfl, rfl⟩ _ hnone (fun flags => ?_)
  refine obeys_read note ctx _ ⟨rfl, rfl⟩ _ hnone (fun allStates => ?_)
  refine obeys_read note ctx _ ⟨rfl, rfl⟩ _ hnone (fun allRules => ?_)
  refine Proc.obeys_map _ _ _ (Proc.obeys_mono (fun r note' h => ⟨evaluatedAt, ?_, ?_⟩) _ _
    (evaluateLoop_obeys srt ctx e evaluatedAt _ _ flags note))
  · intro out hout
    cases r with
    | error err => cases hout
    | ok views => rw [← Except.ok.inj hout]
  · cases r with
    | error err => exact h
    | ok views => exact h

end EvaluationService

/-- An evaluation has handed over what its answer tells. -/
theorem Evaluation.answer_obeys (e : Evaluation) (srt : Sorter) (ctx : Ctx) :
    Proc.Obeys scribing (Told e) (e.answer srt ctx) {} := by
  unfold Evaluation.answer
  cases e.flagKey with
  | some key =>
      refine Proc.obeys_map _ _ _ (Proc.obeys_mono (fun r note h => ?_) _ _
        (EvaluationService.evaluate_obeys srt ctx e key {}))
      rcases h with ⟨records, misses, hrecords, hmisses, htold⟩
      rw [List.nil_append] at hrecords
      rw [Nat.zero_add] at hmisses
      cases r with
      | error err =>
          intro x hx
          exact htold x (hrecords ▸ hx)
      | ok v =>
          change TellsOf e none [v] note.records note.misses
          rw [hrecords, hmisses]
          exact htold
  | none =>
      refine Proc.obeys_map _ _ _ (Proc.obeys_mono (fun r note h => ?_) _ _
        (EvaluationService.evaluateAll_obeys srt ctx e {}))
      rcases h with ⟨evaluatedAt, hat, records, misses, hrecords, hmisses, htold⟩
      rw [List.nil_append] at hrecords
      rw [Nat.zero_add] at hmisses
      cases r with
      | error err =>
          intro x hx
          exact htold x (hrecords ▸ hx)
      | ok out =>
          change TellsOf e (some out.2) out.1 note.records note.misses
          rw [hrecords, hmisses, hat out rfl]
          exact htold

/-! ## In a run -/

abbrev ServedOp := Reporting Call (Evaluation × Except Err (List EvalView × Option Time))

abbrev ServedOp.Ret : ServedOp → Type := Reporting.Answer Call.Ret

/-- The programs: evaluations, which answer in the end, and others that record
    no evaluation. -/
def Traffic (srt : Sorter) (p : Proc Err ServedOp ServedOp.Ret Unit) : Prop :=
  (∃ (ctx : Ctx) (e : Evaluation), p = (e.answer srt ctx).reports (fun r => (e, r))) ∨
    p.Uses (fun o => ∃ c, o = .op c ∧ c.op.record = none)

/-- The records that are handed over in a trace, with the threads that do so. -/
def recorded (tr : List (Nat × ServedOp)) : List (Nat × String × EvaluationEvent) :=
  tr.filterMap (fun x => match x.2 with
    | .op c => c.op.record.map (fun record => (x.1, record))
    | .report _ => none)

/-- The records that a thread hands over. -/
def recordsBy (i : Nat) (tr : List (Nat × ServedOp)) : List (String × EvaluationEvent) :=
  ((recorded tr).filter (fun x => x.1 == i)).map Prod.snd

/-- How many ids a thread could not draw. -/
def missesBy (h : Host) (i : Nat) : World → List (Nat × ServedOp) → Nat
  | _, [] => 0
  | w, (j, .op c) :: tr =>
      (if (j == i && (c.op.draws && !(exec h c w).1.isOk)) = true then 1 else 0) +
        missesBy h i (exec h c w).2 tr
  | w, (_, .report _) :: tr => missesBy h i w tr

theorem recordsBy_op (i j : Nat) (c : Call) (tr : List (Nat × ServedOp)) :
    recordsBy i ((j, .op c) :: tr) =
      (if (j == i) = true then c.op.record.toList else []) ++ recordsBy i tr := by
  unfold recordsBy recorded
  rw [List.filterMap_cons]
  cases hc : c.op.record with
  | none => cases j == i <;> simp [hc]
  | some x => cases hji : j == i <;> simp [hc, hji]

/-- The note of a thread is what it has handed over and missed. -/
theorem notes_scribing (h : Host) (Q : Evaluation × Except Err (List EvalView × Option Time) →
    Scribe → Prop) (tr : List (Nat × ServedOp)) (note : Nat → Scribe × Bool) (w : World) (i : Nat) :
    ((scribing.reporting Q).notes (reporting (exec h)) note w tr i).1 =
      ⟨(note i).1.records ++ recordsBy i tr, (note i).1.misses + missesBy h i w tr⟩ := by
  induction tr generalizing note w with
  | nil => rw [show recordsBy i [] = [] from rfl, List.append_nil]; rfl
  | cons x tr ih =>
      rcases x with ⟨j, o⟩
      cases o with
      | report r =>
          refine (ih _ _).trans ?_
          by_cases hij : i = j
          · subst hij
            rw [Function.update_self]
            rfl
          · rw [Function.update_of_ne hij]
            rfl
      | op c =>
          refine (ih _ _).trans ?_
          rw [recordsBy_op]
          by_cases hij : i = j
          · subst hij
            rw [Function.update_self]
            simp only [Discipline.reporting, scribing, missesBy, reporting, BEq.rfl, if_true,
              Bool.true_and, List.append_assoc, Nat.add_assoc]
          · have hji : (j == i) = false := beq_eq_false_iff_ne.mpr (Ne.symm hij)
            rw [Function.update_of_ne hij]
            simp only [missesBy, reporting, hji, Bool.false_and, Bool.false_eq_true, if_false,
              List.nil_append, Nat.zero_add]

theorem replay_evaluations (h : Host) (tr : List (Nat × ServedOp)) (w : World) :
    (replay (reporting (exec h)) w tr).evaluations =
      w.evaluations ++ (recorded tr).map Prod.snd := by
  induction tr generalizing w with
  | nil => exact (List.append_nil _).symm
  | cons x tr ih =>
      rcases x with ⟨j, o⟩
      rw [replay_cons, ih]
      cases o with
      | report r => rfl
      | op c =>
          rw [show (reporting (exec h) (Reporting.op c) w).2 = (exec h c w).2 from rfl,
            exec_evaluations, List.append_assoc]
          cases hc : c.op.record with
          | none => simp [recorded, hc]
          | some x => simp [recorded, hc]

/-- A permitted program hands over what its report tells, and without a report
    nothing. -/
theorem Traffic.obeys (srt : Sorter) (p : Proc Err ServedOp ServedOp.Ret Unit)
    (hp : Traffic srt p) :
    p.Obeys (scribing.reporting (fun x => Told x.1 x.2))
      (fun _ note => note.2 = true ∨ note.1.records = []) ({}, false) := by
  rcases hp with ⟨ctx, e, rfl⟩ | hsilent
  · exact Proc.obeys_mono (fun _ _ => .inl) _ _
      (Proc.obeys_reports _ _ _ (Evaluation.answer_obeys e srt ctx))
  · refine Proc.obeys_mono (fun _ _ => .inr) _ _
      (Proc.obeys_silent (E := fun note : Scribe => note.records = []) ?_ p hsilent ⟨[], 0⟩ rfl)
    intro c note hc hnote
    refine ⟨trivial, fun r => ?_⟩
    simp [scribing, hc, hnote]

section Run

variable (h : Host) (w : World) (tr : List (Nat × ServedOp))
  (P : Pool Err ServedOp ServedOp.Ret World)
  (hrun : Pool.Run (reporting (exec h)) (Traffic h.sortSlice) ⟨w, []⟩ tr P)

include hrun

/-- The records that are handed over are added to those there were. -/
theorem run_evaluations :
    P.shared.evaluations = w.evaluations ++ (recorded tr).map Prod.snd := by
  rw [Pool.run_replay _ tr P hrun, replay_evaluations]

/-- Each evaluation answers once, with what it has handed over. -/
theorem run_told : ((reported tr).map Prod.fst).Nodup ∧
    ∀ i e r, (i, e, r) ∈ reported tr → Told e r ⟨recordsBy i tr, missesBy h i w tr⟩ := by
  rcases Pool.run_answers scribing (fun x => Told x.1 x.2) {} (fun note => note.records = [])
    (Traffic.obeys h.sortSlice) w tr P hrun with ⟨hborne, hnodup, _, _⟩
  refine ⟨hnodup, fun i e r hreport => ?_⟩
  have hnote := hborne (i, e, r) hreport
  rw [notes_scribing, List.nil_append, Nat.zero_add] at hnote
  exact hnote

/-- Once nothing is at work, whoever has handed over a record has answered. -/
theorem run_reported (hdone : ∀ p ∈ P.threads, p.Done) :
    ∀ x ∈ recorded tr, x.1 ∈ (reported tr).map Prod.fst := by
  rcases Pool.run_answers scribing (fun x => Told x.1 x.2) {} (fun note => note.records = [])
    (Traffic.obeys h.sortSlice) w tr P hrun with ⟨_, _, hrests, hlater⟩
  intro x hx
  have hsome : recordsBy x.1 tr ≠ [] := by
    refine List.ne_nil_of_mem (a := x.2) (List.mem_map_of_mem (List.mem_filter.mpr ⟨hx, ?_⟩))
    exact beq_self_eq_true x.1
  cases hthread : P.threads[x.1]? with
  | none =>
      -- A thread that has not joined has handed over nothing.
      have hblank := congrArg (fun note => note.1.records)
        (hlater x.1 (List.getElem?_eq_none_iff.mp hthread))
      simp only [notes_scribing, List.nil_append] at hblank
      exact absurd hblank hsome
  | some p =>
      rcases hrests x.1 p hthread (hdone p (List.mem_of_getElem? hthread)) with hreport | hnone
      · exact hreport
      · rw [notes_scribing] at hnone
        exact absurd hnone hsome

/-- However evaluations and other programs take turns: the records that are
    handed over are added to those there were, in the order of the run. Each
    evaluation that has answered has handed over the records of a part of its
    answer, in its order, and one is missing for each id that it could not
    draw; one that has failed has handed over records of its own at most. Once
    nothing is at work, there are no others. -/
theorem evaluations_recorded :
    P.shared.evaluations = w.evaluations ++ (recorded tr).map Prod.snd ∧
      ((reported tr).map Prod.fst).Nodup ∧
      (∀ i e r, (i, e, r) ∈ reported tr → Told e r ⟨recordsBy i tr, missesBy h i w tr⟩) ∧
      ((∀ p ∈ P.threads, p.Done) → ∀ x ∈ recorded tr, x.1 ∈ (reported tr).map Prod.fst) :=
  ⟨run_evaluations h w tr P hrun, (run_told h w tr P hrun).1, (run_told h w tr P hrun).2,
    run_reported h w tr P hrun⟩

end Run

/-- A host that can always draw an id. -/
def Host.tireless : Host where
  __ := Host.steady
  newUUID n := some (sampleUUID (n % 100))
  uuid_new := by
    intro n id hid
    have hlt : n % 100 < 100 := Nat.mod_lt n (by decide)
    rw [← Option.some.inj hid]
    exact if_pos (sampleUUID_canonical _ hlt)

/-- An evaluation of the dark mode. -/
def askDark : Evaluation := ⟨"p1", "e1", some "dark", ⟨"u2", fun _ => none⟩⟩

def darkStart : Pool Err ServedOp ServedOp.Ret World :=
  ⟨(evaluatedAt []).world,
    [(askDark.answer Host.tireless.sortSlice reader).reports (fun r => (askDark, r))]⟩

/-- The evaluation is the only program, and is run to its end. -/
def darkTrace : List (Nat × ServedOp) :=
  Pool.trace (reporting (exec Host.tireless)) darkStart (List.replicate 8 0)

def darkEnd : Pool Err ServedOp ServedOp.Ret World :=
  Pool.follow (reporting (exec Host.tireless)) darkStart (List.replicate 8 0)

theorem darkEnd_run : Pool.Run (reporting (exec Host.tireless))
    (Traffic Host.tireless.sortSlice) ⟨(evaluatedAt []).world, []⟩ darkTrace darkEnd := by
  have hjoined : Pool.Run (reporting (exec Host.tireless)) (Traffic Host.tireless.sortSlice)
      ⟨(evaluatedAt []).world, []⟩ [] darkStart :=
    Pool.Run.spawn [] _ _ Pool.Run.start (.inl ⟨reader, askDark, rfl⟩)
  exact Pool.run_trace _ _ _ (List.replicate 8 0) [] darkStart hjoined

theorem darkTrace_reported : reported darkTrace = [(0, askDark,
    .ok ([⟨"dark", false, none, "false", .disabled, .bool⟩], none))] := rfl

/-- The user was served one view, and its record was handed over. -/
theorem evaluations_recorded_dark :
    Told askDark (.ok ([⟨"dark", false, none, "false", .disabled, .bool⟩], none))
      ⟨recordsBy 0 darkTrace, missesBy Host.tireless 0 (evaluatedAt []).world darkTrace⟩ :=
  (evaluations_recorded Host.tireless (evaluatedAt []).world darkTrace darkEnd
    darkEnd_run).2.2.1 0 askDark _ (darkTrace_reported ▸ List.mem_singleton.mpr rfl)

/-! ## What a client reads -/

/-- What the history tells of an evaluation: the user, the variant and the
    reason. -/
def EvaluationEventView.told (v : EvaluationEventView) : String × String × String :=
  (v.userID, v.variantKey, v.reason)

/-- The same of a view that was served to a user. -/
def EvalView.toldTo (userID : String) (v : EvalView) : String × String × String :=
  (userID, v.valueKey, apiReason v.reason)

section Flag

variable (projectID environmentID key : String)

/-- What the history of a flag tells of some records. -/
def toldBy (records : List (String × EvaluationEvent)) : List (String × String × String) :=
  ((records.map Prod.snd).filter (fun e => e.projectID == projectID &&
    e.environmentID == environmentID && e.flagKey == key)).map (fun e => e.view.told)

/-- What an evaluation has served of a flag, by its outcome. -/
def servedBy (e : Evaluation) :
    Except Err (List EvalView × Option Time) → List (String × String × String)
  | .ok out =>
      if e.projectID = projectID ∧ e.environmentID = environmentID then
        (out.1.filter (fun v => v.key == key)).map (EvalView.toldTo e.evalCtx.userID)
      else []
  | .error _ => []

theorem toldBy_append (records records' : List (String × EvaluationEvent)) :
    toldBy projectID environmentID key (records ++ records') =
      toldBy projectID environmentID key records ++
        toldBy projectID environmentID key records' := by
  unfold toldBy
  rw [List.map_append, List.filter_append, List.map_append]

theorem toldBy_flatMap {β : Type} (l : List β) (f : β → List (String × EvaluationEvent)) :
    toldBy projectID environmentID key (l.flatMap f) =
      l.flatMap (fun b => toldBy projectID environmentID key (f b)) := by
  unfold toldBy
  rw [List.map_flatMap, List.filter_flatMap, List.map_flatMap]

/-- If every view has its record, the history tells what was served. -/
theorem toldBy_tells (e : Evaluation) (evaluatedAt : Option Time) (views : List EvalView)
    (records : List (String × EvaluationEvent))
    (h : List.Forall₂ (Tells e evaluatedAt) views records) :
    toldBy projectID environmentID key records =
      if e.projectID = projectID ∧ e.environmentID = environmentID then
        (views.filter (fun v => v.key == key)).map (EvalView.toldTo e.evalCtx.userID)
      else [] := by
  induction h with
  | nil => exact (ite_self _).symm
  | @cons v x views records hx _ ih =>
      have hold : (x.2.projectID == projectID && x.2.environmentID == environmentID) =
          decide (e.projectID = projectID ∧ e.environmentID = environmentID) := by
        rw [hx.concerns.1, hx.concerns.2.1, Bool.decide_and]
        rfl
      have hshown : x.2.view.told = v.toldTo e.evalCtx.userID := by
        simp only [EvaluationEventView.told, EvaluationEvent.view, EvalView.toldTo,
          hx.concerns.2.2, hx.variantKey, hx.reason]
      unfold toldBy at ih ⊢
      rw [List.map_cons, List.filter_cons, hold, hx.flagKey]
      by_cases hflag : e.projectID = projectID ∧ e.environmentID = environmentID
      · rw [if_pos hflag] at ih
        rw [if_pos hflag, decide_eq_true hflag, Bool.true_and, List.filter_cons]
        cases v.key == key with
        | true => rw [if_pos rfl, if_pos rfl, List.map_cons, List.map_cons, hshown, ih]
        | false => rw [if_neg Bool.false_ne_true, if_neg Bool.false_ne_true, ih]
      · rw [if_neg hflag] at ih
        rw [if_neg hflag, decide_eq_false hflag, Bool.false_and, if_neg Bool.false_ne_true, ih]

end Flag

/-- If an id can always be drawn, none is missing. -/
theorem missesBy_zero (h : Host) (hfails : ∀ n, h.fails n = false)
    (hids : ∀ n, (h.newUUID n).isSome = true) (i : Nat) (tr : List (Nat × ServedOp)) (w : World) :
    missesBy h i w tr = 0 := by
  induction tr generalizing w with
  | nil => rfl
  | cons x tr ih =>
      rcases x with ⟨j, o⟩
      cases o with
      | report r => exact ih w
      | op c =>
          have hdrawn : (c.op.draws && !(exec h c w).1.isOk) = false := by
            rcases c with ⟨tenant, op⟩
            cases op with
            | newUUID =>
                rcases Option.isSome_iff_exists.mp (hids w.calls) with ⟨id, hid⟩
                rw [exec_steady h hfails, show (Op.newUUID).perform h ⟨tenant, h.rls⟩ w =
                  w.draw (h.newUUID w.calls) from rfl, hid]
                rfl
            | _ => rfl
          rw [missesBy, hdrawn, Bool.and_false, if_neg Bool.false_ne_true, ih]

section History

variable (h : HttpHost) (w : World) (tr : List (Nat × ServedOp))
  (P : Pool Err ServedOp ServedOp.Ret World)
  (hrun : Pool.Run (reporting (exec h.host)) (Traffic h.host.sortSlice) ⟨w, []⟩ tr P)

/-- What the history of a flag tells of the records of a run, evaluation by
    evaluation. -/
theorem toldBy_recorded (projectID environmentID key : String)
    (hnodup : ((reported tr).map Prod.fst).Nodup)
    (hall : ∀ x ∈ recorded tr, x.1 ∈ (reported tr).map Prod.fst) :
    (toldBy projectID environmentID key ((recorded tr).map Prod.snd)).Perm
      ((reported tr).flatMap (fun x =>
        toldBy projectID environmentID key (recordsBy x.1 tr))) := by
  have hthreads := (perm_by_thread _ hnodup (recorded tr) hall).map Prod.snd
  rw [List.map_flatMap, List.flatMap_map] at hthreads
  rw [← toldBy_flatMap]
  exact ((hthreads.map Prod.snd).filter _).map _

/-- What the history tells of the records of an evaluation that has failed. -/
def failedBy (projectID environmentID key : String)
    (x : Nat × Evaluation × Except Err (List EvalView × Option Time)) :
    List (String × String × String) :=
  match x.2.2 with
  | .ok _ => []
  | .error _ => toldBy projectID environmentID key (recordsBy x.1 tr)

variable (ctx : Ctx) (projSlug envSlug key : String) (proj : Project) (env : Environment)
  (flag : Flag) (ac : AuthContext)

include hrun

/-- Once nothing is at work and the records are stored, in any order, a client
    that reads the history of a flag has read what was in it before and what
    has been served of the flag, by whichever evaluations, and nothing else but
    records of evaluations that have failed. -/
theorem served_history (hdone : ∀ p ∈ P.threads, p.Done)
    (hfails : ∀ k, h.host.fails k = false) (hids : ∀ n, (h.host.newUUID n).isSome = true)
    (hrole : requireRole ctx.auth .viewer = .ok ac) (hrls : h.host.rls = false) (s : HttpState)
    (hstored : (s.world.evaluations.map Prod.snd).Perm (P.shared.evaluations.map Prod.snd))
    (htx : s.tx = none ∨ s.tx = some none)
    (hpath : Resolves h ctx projSlug envSlug key proj env flag s.world.store)
    (hseparated : Separated toSecond 50
      ((s.world.evaluationsOf proj.id env.id key).map (·.occurredAt))) :
    ∃ fuel read failed,
      (evaluationHistory ctx projSlug envSlug key).follow h fuel none s = some read ∧
      (read.map EvaluationEventView.told).Perm
        (toldBy proj.id env.id key w.evaluations ++
          (reported tr).flatMap (fun x => servedBy proj.id env.id key x.2.1 x.2.2) ++ failed) ∧
      (failed ≠ [] → ∃ i e err, (i, e, .error err) ∈ reported tr ∧ e.projectID = proj.id ∧
        e.environmentID = env.id) := by
  rcases (evaluationHistory_reads h ctx projSlug envSlug key proj env flag ac hfails hrole s htx
    hpath).mpr ⟨fun hon => absurd (hrls.symm.trans hon) Bool.false_ne_true,
      (evaluationScheme_clear_iff ctx projSlug envSlug key _).mpr hseparated⟩ with
    ⟨fuel, rows, hfollow, hrows, _⟩
  rcases run_told h.host w tr P hrun with ⟨hnodup, htold⟩
  have hall := run_reported h.host w tr P hrun hdone
  have heach : ∀ x ∈ reported tr, toldBy proj.id env.id key (recordsBy x.1 tr) =
      servedBy proj.id env.id key x.2.1 x.2.2 ++ failedBy tr proj.id env.id key x := by
    rintro ⟨i, e, r⟩ hx
    have hreport := htold i e r hx
    rw [missesBy_zero h.host hfails hids] at hreport
    cases r with
    | error err => rfl
    | ok out =>
        -- As many records as views, so it is all of them.
        rcases hreport with ⟨told, hsub, htells, hlength⟩
        have hwhole : told = out.1 := hsub.eq_of_length (htells.length_eq.trans hlength)
        rw [hwhole] at htells
        exact (toldBy_tells _ _ key e out.2 out.1 _ htells).trans (List.append_nil _).symm
  refine ⟨fuel, rows.map EvaluationEvent.shown,
    (reported tr).flatMap (failedBy tr proj.id env.id key), hfollow, ?_, fun hfailed => ?_⟩
  · have hread : (rows.map EvaluationEvent.shown).map EvaluationEventView.told =
        rows.map (fun e => e.view.told) := List.map_map
    rw [hread, List.append_assoc]
    have hstored' : (rows.map (fun e => e.view.told)).Perm
        (toldBy proj.id env.id key P.shared.evaluations) :=
      (hrows.trans (hstored.filter _)).map _
    rw [run_evaluations h.host w tr P hrun, toldBy_append] at hstored'
    refine hstored'.trans (List.Perm.append_left _ ?_)
    have hrecords := toldBy_recorded tr proj.id env.id key hnodup hall
    rw [List.flatMap_congr heach] at hrecords
    exact hrecords.trans (List.flatMap_append_perm _ _ _).symm
  · rcases List.exists_mem_of_ne_nil _ hfailed with ⟨entry, hentry⟩
    rcases List.mem_flatMap.mp hentry with ⟨⟨i, e, r⟩, hx, hin⟩
    cases r with
    | ok out => exact absurd hin List.not_mem_nil
    | error err =>
        have hconcerns := htold i e _ hx
        rcases List.mem_map.mp hin with ⟨event, hevent, _⟩
        rcases List.mem_filter.mp hevent with ⟨hrecord, hflag⟩
        rcases List.mem_map.mp hrecord with ⟨record, hby, rfl⟩
        simp only [Bool.and_eq_true, beq_iff_eq] at hflag
        have hof := hconcerns record hby
        exact ⟨i, e, err, hx, hof.1.symm.trans hflag.1.1, hof.2.1.symm.trans hflag.1.2⟩

end History

/-- Times that fit on one page. -/
theorem separated_of_length_lt (seen : Time → Time) (limit : Nat) (times : List Time)
    (hshort : times.length < limit) : Separated seen limit times := by
  intro k hk t ht
  have hlt := (List.getElem?_eq_some_iff.mp ht).1
  rw [latestFirst, List.length_insertionSort] at hlt
  have hpage : limit ≤ k * limit := Nat.le_mul_of_pos_left limit hk
  omega

def tirelessHost : HttpHost := { readerHost with host := Host.tireless }

/-- What the user was served is what the history tells. -/
theorem served_history_dark :
    ∃ fuel read, (evaluationHistory reader "shop" "prod" "dark").follow tirelessHost fuel none
        { evaluatedAt [] with world := darkEnd.shared } = some read ∧
      read.map EvaluationEventView.told = [("u2", "false", "flag_disabled")] := by
  have hdone : ∀ p ∈ darkEnd.threads, p.Done := by
    intro p hp
    have hthreads : darkEnd.threads = [.ret ()] := rfl
    rw [hthreads] at hp
    rw [List.mem_singleton.mp hp]
    trivial
  rcases served_history tirelessHost (evaluatedAt []).world darkTrace darkEnd darkEnd_run reader
    "shop" "prod" "dark" ⟨"p1", "Shop", "shop", 0⟩ ⟨"e1", "p1", "Production", "prod", 0⟩
    ⟨"f1", "p1", "dark", "Dark mode", .bool, [⟨"true", "On"⟩, ⟨"false", "Off"⟩], "false", 0⟩
    ⟨"u1", .viewer⟩ hdone (fun _ => rfl) (fun _ => rfl) rfl rfl
    { evaluatedAt [] with world := darkEnd.shared } (List.Perm.refl _) (.inl rfl) ⟨rfl, rfl, rfl⟩
    (separated_of_length_lt _ _ _ (by decide +kernel)) with
    ⟨fuel, read, failed, hfollow, hperm, hfailed⟩
  have hnone : failed = [] := by
    by_contra hsome
    rcases hfailed hsome with ⟨i, e, err, hreport, _⟩
    rw [darkTrace_reported] at hreport
    cases (Prod.mk.inj (Prod.mk.inj (List.mem_singleton.mp hreport)).2).2
  refine ⟨fuel, read, hfollow, List.perm_singleton.mp ?_⟩
  rw [hnone, List.append_nil, darkTrace_reported] at hperm
  exact hperm

end Cuttlegate
