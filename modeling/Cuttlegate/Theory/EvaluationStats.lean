import Cuttlegate.Lib.Detached
import Cuttlegate.Store.Statements

/-!
# Statistics in Any Order

Whether the statistics of a flag tell how often it was evaluated and when last,
whatever order the upserts are performed in.

Every evaluation takes its time while the request is at work and leaves the
upsert to a goroutine of its own. The goroutines are detached tasks, each of
which performs one upsert. The count adds up in every order. The time of the
last evaluation is overwritten with each upsert, so it is that of the upsert
performed last, which is the greatest only if no later evaluation was written
before. Only evaluations of one and the same time come out right in all orders.

Times are those of the column.

## Main definitions

* `evaluationTimes`: The times at which a flag was evaluated in an environment.
* `CountsExactly`: The statistics tell how many there are and the greatest.
* `LatestLast`: The upsert performed last has the greatest time.

## Theorems

* `evaluationStats_count`, `evaluationStats_last`: What upserts add up to.
* `countsExactly_iff`: When the statistics of a run are exact.
* `evaluationStats_exact_iff`: The same, and when those of all runs are.
-/

namespace Cuttlegate

section Stats

variable (flagID environmentID : String)

/-- The times at which a flag was evaluated in an environment. -/
def evaluationTimes (evaluations : List (String × EvaluationEvent)) : List Time :=
  (evaluations.filter (fun r => r.1 == flagID && r.2.environmentID == environmentID)).map
    (·.2.occurredAt)

/-- The statistics tell how many evaluations there are and the greatest of their
    times. -/
def CountsExactly (evaluations : List (String × EvaluationEvent)) (stats : FlagEvaluationStats) :
    Prop :=
  stats.evaluationCount = (evaluationTimes flagID environmentID evaluations).length ∧
    ∀ t, (evaluationTimes flagID environmentID evaluations).max? = some t →
      stats.lastEvaluatedAt = t

/-- The upsert performed last has the greatest time. -/
def LatestLast (performed : List (String × EvaluationEvent)) : Prop :=
  ∀ t, (evaluationTimes flagID environmentID performed).getLast? = some t →
    ∀ u ∈ evaluationTimes flagID environmentID performed, u ≤ t

/-! ## What upserts add up to -/

theorem evaluationTimes_perm (performed evaluations : List (String × EvaluationEvent))
    (h : performed.Perm evaluations) :
    (evaluationTimes flagID environmentID performed).Perm
      (evaluationTimes flagID environmentID evaluations) :=
  (h.filter _).map _

theorem evaluationTimes_snoc (performed : List (String × EvaluationEvent))
    (r : String × EvaluationEvent) (h : r.1 = flagID ∧ r.2.environmentID = environmentID) :
    evaluationTimes flagID environmentID (performed ++ [r]) =
      evaluationTimes flagID environmentID performed ++ [r.2.occurredAt] := by
  simp [evaluationTimes, h.1, h.2]

/-- The fold of the upserts counts them and keeps the time of the last. -/
theorem upserts_foldl (rows : List (String × EvaluationEvent)) (stats : FlagEvaluationStats) :
    (rows.foldl (fun stats r => stats.upsert r.2) stats).evaluationCount =
        stats.evaluationCount + rows.length ∧
      (rows.foldl (fun stats r => stats.upsert r.2) stats).lastEvaluatedAt =
        (rows.map (·.2.occurredAt)).getLast?.getD stats.lastEvaluatedAt := by
  -- By induction on the upserts, from the last one.
  induction rows using List.reverseRecOn with
  | nil => exact ⟨rfl, rfl⟩
  | append_singleton rows r ih =>
      rw [List.foldl_append, List.foldl_cons, List.foldl_nil]
      refine ⟨?_, by simp [FlagEvaluationStats.upsert]⟩
      rw [List.length_append, ← Nat.add_assoc, ← ih.1]
      rfl

theorem evaluationStats_count (performed : List (String × EvaluationEvent)) :
    (evaluationStats flagID environmentID performed).evaluationCount =
      (evaluationTimes flagID environmentID performed).length := by
  rw [evaluationStats, (upserts_foldl _ _).1, evaluationTimes, List.length_map]
  exact Nat.zero_add _

theorem evaluationStats_last (performed : List (String × EvaluationEvent)) (t : Time)
    (h : (evaluationTimes flagID environmentID performed).getLast? = some t) :
    (evaluationStats flagID environmentID performed).lastEvaluatedAt = t := by
  have hlast := (upserts_foldl (performed.filter (fun r =>
    r.1 == flagID && r.2.environmentID == environmentID))
    { flagID := flagID, environmentID := environmentID }).2
  rw [evaluationTimes] at h
  rw [evaluationStats, hlast, h, Option.getD_some]

/-- The statistics are exact if and only if the upsert performed last has the
    greatest time. -/
theorem countsExactly_iff (performed evaluations : List (String × EvaluationEvent))
    (h : performed.Perm evaluations) :
    CountsExactly flagID environmentID evaluations
        (evaluationStats flagID environmentID performed) ↔
      LatestLast flagID environmentID performed := by
  have hperm := evaluationTimes_perm flagID environmentID performed evaluations h
  rw [CountsExactly, evaluationStats_count]
  constructor
  · intro hexact t hlast u hu
    cases hmax : (evaluationTimes flagID environmentID evaluations).max? with
    | none =>
        rw [List.max?_eq_none_iff] at hmax
        rw [hmax] at hperm
        rw [List.perm_nil.mp hperm] at hu
        cases hu
    | some m =>
        rw [← evaluationStats_last flagID environmentID performed t hlast, hexact.2 m hmax]
        exact (List.max?_eq_some_iff.mp hmax).2 u (hperm.mem_iff.mp hu)
  · refine fun hlatest => ⟨hperm.length_eq, fun m hmax => ?_⟩
    rcases List.max?_eq_some_iff.mp hmax with ⟨hm, hbound⟩
    cases hlast : (evaluationTimes flagID environmentID performed).getLast? with
    | none =>
        rw [List.getLast?_eq_none_iff] at hlast
        rw [← hperm.mem_iff, hlast] at hm
        cases hm
    | some t =>
        rw [evaluationStats_last flagID environmentID performed t hlast]
        have ht := hbound t (hperm.mem_iff.mp (List.mem_of_getLast? hlast))
        exact Nat.le_antisymm ht (hlatest t hlast m (hperm.mem_iff.mpr hm))

/-! ## Runs of the goroutines -/

/-- A run of requests and their goroutines, from an empty table to the last
    upsert. -/
def UpsertRun (H : List (Detached.Note (String × EvaluationEvent)))
    (table : List FlagEvaluationStats) : Prop :=
  Steps (Detached.Step upsertEvaluation) ([], []) H ([], table)

/-- What a run leaves in the table. -/
theorem UpsertRun.table_eq (H : List (Detached.Note (String × EvaluationEvent)))
    (table : List FlagEvaluationStats) (h : UpsertRun H table) :
    statsByFlagEnvironment flagID environmentID table =
      evaluationStats flagID environmentID (Detached.finished H) := by
  rw [(Detached.run_settled upsertEvaluation [] H table h).2, statsByFlagEnvironment_foldl]

theorem UpsertRun.countsExactly_iff (H : List (Detached.Note (String × EvaluationEvent)))
    (table : List FlagEvaluationStats) (h : UpsertRun H table) :
    CountsExactly flagID environmentID (Detached.started H)
        (statsByFlagEnvironment flagID environmentID table) ↔
      LatestLast flagID environmentID (Detached.finished H) := by
  rw [h.table_eq flagID environmentID]
  exact Cuttlegate.countsExactly_iff flagID environmentID _ _
    (Detached.run_settled upsertEvaluation [] H table h).1

/-- If every order of the upserts has the greatest time last, no time is greater
    than another. -/
theorem time_le_of_orders (evaluations : List (String × EvaluationEvent))
    (h : ∀ performed, performed.Perm evaluations → LatestLast flagID environmentID performed) :
    ∀ t ∈ evaluationTimes flagID environmentID evaluations,
      ∀ u ∈ evaluationTimes flagID environmentID evaluations, u ≤ t := by
  intro t ht u hu
  rcases List.mem_map.mp ht with ⟨r, hr, rfl⟩
  rw [List.mem_filter, Bool.and_eq_true, beq_iff_eq, beq_iff_eq] at hr
  -- The order that performs this upsert last.
  rcases List.append_of_mem hr.1 with ⟨before, after, rfl⟩
  have horder : ((before ++ after) ++ [r]).Perm (before ++ r :: after) :=
    (List.perm_append_singleton r _).trans List.perm_middle.symm
  refine h _ horder r.2.occurredAt ?_ u ?_
  · rw [evaluationTimes_snoc flagID environmentID _ r hr.2, List.getLast?_concat]
  · exact (evaluationTimes_perm flagID environmentID _ _ horder).mem_iff.mpr hu

/-- In every run, the statistics are exact in the end if and only if the upsert
    performed last has the greatest time. Evaluations whose statistics are exact
    in all their runs are those of one time. -/
theorem evaluationStats_exact_iff :
    (∀ H table, UpsertRun H table →
      (CountsExactly flagID environmentID (Detached.started H)
          (statsByFlagEnvironment flagID environmentID table) ↔
        LatestLast flagID environmentID (Detached.finished H))) ∧
    ∀ evaluations,
      (∀ H table, UpsertRun H table → Detached.started H = evaluations →
        CountsExactly flagID environmentID evaluations
          (statsByFlagEnvironment flagID environmentID table)) ↔
      ∀ t ∈ evaluationTimes flagID environmentID evaluations,
        ∀ u ∈ evaluationTimes flagID environmentID evaluations, t = u := by
  refine ⟨fun H table h => h.countsExactly_iff flagID environmentID,
    fun evaluations => ⟨fun hexact => ?_, ?_⟩⟩
  · have horders : ∀ performed, performed.Perm evaluations →
        LatestLast flagID environmentID performed := by
      intro performed hperm
      rcases Detached.exists_run upsertEvaluation evaluations performed [] hperm with
        ⟨H, hrun, rfl, rfl⟩
      exact (UpsertRun.countsExactly_iff flagID environmentID H _ hrun).mp (hexact H _ hrun rfl)
    have hle := time_le_of_orders flagID environmentID evaluations horders
    exact fun t ht u hu => Nat.le_antisymm (hle u hu t ht) (hle t ht u hu)
  · rintro hsame H table hrun rfl
    refine (hrun.countsExactly_iff flagID environmentID).mpr (fun t hlast u hu => ?_)
    have hperm := evaluationTimes_perm flagID environmentID _ _
      (Detached.run_settled upsertEvaluation [] H table hrun).1
    exact Nat.le_of_eq (hsame u (hperm.mem_iff.mp hu) t
      (hperm.mem_iff.mp (List.mem_of_getLast? hlast)))

end Stats

/-- An evaluation so many seconds into the year 2024. -/
def cartEvaluation (seconds : Nat) : String × EvaluationEvent :=
  ("cart",
    { id := "e", flagKey := "cart", projectID := "shop", environmentID := "production"
      userID := "u1", matchedRuleID := "", matchedRuleName := "", variantKey := "true"
      reason := .default, occurredAt := (63839664000 + seconds) * 1000000000 })

/-- Of two evaluations, the later one is written first. -/
theorem evaluationStats_earlier_last :
    let H : List (Detached.Note (String × EvaluationEvent)) :=
      [.start (cartEvaluation 1), .start (cartEvaluation 2), .finish (cartEvaluation 2),
        .finish (cartEvaluation 1)]
    let table := [cartEvaluation 2, cartEvaluation 1].foldl upsertEvaluation []
    UpsertRun H table ∧ ¬ CountsExactly "cart" "production" (Detached.started H)
      (statsByFlagEnvironment "cart" "production" table) := by
  intro H table
  constructor
  · exact Steps.append _ _ _ _ _
      (Detached.run_starts upsertEvaluation [cartEvaluation 1, cartEvaluation 2] [] [])
      (Detached.run_finishes upsertEvaluation [cartEvaluation 2, cartEvaluation 1] _ []
        (List.Perm.refl _))
  · intro hexact
    exact absurd (hexact.2 ((63839664000 + 2) * 1000000000) (by decide)) (by decide)

end Cuttlegate
