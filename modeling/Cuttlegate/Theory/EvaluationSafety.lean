import Cuttlegate.Domain.Evaluator

/-!
# Evaluation Does Not Panic

The evaluator indexes slices in two places: an attribute operator takes the
first value of its condition, and a rollout falls back on its last entry.
Neither index is guarded where it stands. The first is guarded by the check a
rule passes before it is stored, in another table of operators; the second by
the evaluator asking first whether the rollout has entries.

What can go wrong is pinned down for arbitrary rules. A condition panics
exactly when it has no value, an operator that takes the first, and an
attribute to compare; a rollout panics exactly when it is empty; and an
evaluation that panics has an enabled rule with such a condition.

## Main definitions

* `indexingOperators`: The operators that take the first value.
* `Condition.PanicsOn`: The conditions that panic.

## Theorems

* `matchesCondition_error_iff`: When matching a condition panics.
* `resolveRollout_error_iff`: When resolving a rollout panics.
* `evaluate_error`: An evaluation that panics has a condition to blame.
* `Condition.WellFormed.not_panicsOn`: The check rules it out.
* `evaluation_safe`: Evaluation of validated rules indexes within bounds.
-/

namespace Cuttlegate

/-- The operators that take the first value of their condition unguarded. -/
def indexingOperators : List Operator := [.eq, .neq, .contains, .startsWith, .endsWith]

/-- The condition takes its first value on this context and has none. -/
def Condition.PanicsOn (c : Condition) (ctx : EvalContext) : Prop :=
  c.operator ∈ indexingOperators ∧ c.values = [] ∧ ctx.attributes c.attr ≠ none

theorem firstValue_error_iff (c : Condition) (e : Err) :
    c.firstValue = .error e ↔ c.values = [] ∧ e = .panic := by
  unfold Condition.firstValue
  cases c.values with
  | nil => simp [eq_comm]
  | cons v rest => simp

/-- A comparison with the first value fails just where taking it does. -/
theorem compareFirst_error_iff (c : Condition) (compare : String → Bool) (e : Err) :
    (do return compare (← c.firstValue)) = Except.error e ↔ c.values = [] ∧ e = .panic := by
  rw [← firstValue_error_iff]
  cases c.firstValue with
  | error e' => exact ⟨fun h => congrArg Except.error (Except.error.inj h),
      fun h => congrArg Except.error (Except.error.inj h)⟩
  | ok v => exact ⟨fun h => (nomatch h), fun h => (nomatch h)⟩

/-- The operators that take the first value fail when there is none, and no
    other operator fails. -/
theorem matchesValue_error_iff (c : Condition) (val : String) (e : Err) :
    c.matchesValue val = .error e ↔
      c.operator ∈ indexingOperators ∧ c.values = [] ∧ e = .panic := by
  unfold Condition.matchesValue
  cases hop : c.operator with
  | eq => simpa [indexingOperators] using compareFirst_error_iff c (val == ·) e
  | neq => simpa [indexingOperators] using compareFirst_error_iff c (val != ·) e
  | contains => simpa [indexingOperators] using compareFirst_error_iff c (containsText val) e
  | startsWith => simpa [indexingOperators] using compareFirst_error_iff c (hasPrefix val) e
  | endsWith => simpa [indexingOperators] using compareFirst_error_iff c (hasSuffix val) e
  | _ => simp [indexingOperators]

/-- Matching a condition fails only by a panic, and exactly where the first
    value is taken and there is none. -/
theorem matchesCondition_error_iff (c : Condition) (ctx : EvalContext)
    (segmentSlugs : List String) (e : Err) :
    matchesCondition c ctx segmentSlugs = .error e ↔ c.PanicsOn ctx ∧ e = .panic := by
  have hattribute : c.matchesAttribute ctx = .error e ↔ c.PanicsOn ctx ∧ e = .panic := by
    unfold Condition.matchesAttribute Condition.PanicsOn
    cases ctx.attributes c.attr with
    | none => simp
    | some val => simp [matchesValue_error_iff, and_assoc]
  unfold matchesCondition
  cases hop : c.operator with
  | inSegment => simp [Condition.PanicsOn, hop, indexingOperators]
  | notInSegment => simp [Condition.PanicsOn, hop, indexingOperators]
  | _ => exact hattribute

/-- The fallback of a rollout is out of range exactly when it has no entry. -/
theorem resolveRollout_error_iff (entries : List RolloutEntry) (b : Int64) (e : Err) :
    resolveRollout entries b = .error e ↔ entries = [] ∧ e = .panic := by
  by_cases hnone : entries = []
  · simp [hnone, resolveRollout, rolloutLoop, eq_comm]
  · rcases resolveRollout_ok entries b hnone with ⟨entry, _, hentry⟩
    simp [hentry, hnone]

/-! ## Whole evaluations -/

/-- A conjunction that fails has a condition that panics. -/
theorem matchesAll_error (ctx : EvalContext) (segmentSlugs : List String) (cs : List Condition)
    (e : Err) (herror : matchesAll ctx segmentSlugs cs = .error e) :
    e = .panic ∧ ∃ c ∈ cs, c.PanicsOn ctx := by
  -- On the conditions: the loop goes on only past those that hold.
  induction cs with
  | nil => exact absurd herror (by simp [matchesAll])
  | cons c rest ih =>
      rw [matchesAll] at herror
      cases hc : matchesCondition c ctx segmentSlugs with
      | error e' =>
          rw [hc] at herror
          rcases (matchesCondition_error_iff c ctx segmentSlugs e').mp hc with ⟨hpanics, he⟩
          exact ⟨(Except.error.inj herror).symm.trans he, c, List.mem_cons_self, hpanics⟩
      | ok b =>
          rw [hc] at herror
          cases b with
          | false => exact absurd herror (by simp [bind, Except.bind])
          | true =>
              rcases ih herror with ⟨he, d, hd, hpanics⟩
              exact ⟨he, d, List.mem_cons_of_mem c hd, hpanics⟩

/-- A loop over rules that fails has an enabled rule with such a condition; its
    rollouts are only asked when they have entries. -/
theorem evaluateRules_error (flag : Flag) (ctx : EvalContext) (segmentSlugs : List String)
    (rules : List Rule) (e : Err)
    (herror : evaluateRules flag ctx segmentSlugs rules = .error e) :
    e = .panic ∧ ∃ r ∈ rules, r.enabled = true ∧ ∃ c ∈ r.conditions, c.PanicsOn ctx := by
  induction rules with
  | nil => exact (nomatch herror)
  | cons r rest ih =>
      have hlater : evaluateRules flag ctx segmentSlugs rest = .error e → e = .panic ∧
          ∃ q ∈ r :: rest, q.enabled = true ∧ ∃ c ∈ q.conditions, c.PanicsOn ctx := by
        intro hrest
        rcases ih hrest with ⟨he, q, hq, hpanics⟩
        exact ⟨he, q, List.mem_cons_of_mem r hq, hpanics⟩
      rw [evaluateRules] at herror
      by_cases hoff : r.enabled = false
      · rw [if_pos hoff] at herror
        exact hlater herror
      rw [if_neg hoff] at herror
      cases hall : matchesAll ctx segmentSlugs r.conditions with
      | error e' =>
          rw [hall] at herror
          rcases matchesAll_error ctx segmentSlugs _ e' hall with ⟨he, hpanics⟩
          exact ⟨(Except.error.inj herror).symm.trans he, r, List.mem_cons_self,
            by simpa using hoff, hpanics⟩
      | ok matched =>
          rw [hall] at herror
          cases matched with
          | false => exact hlater herror
          | true =>
              by_cases hroll : r.rollout = []
              · simp [bind, Except.bind, hroll] at herror
              by_cases huser : ctx.userID = ""
              · simp only [bind, Except.bind, if_true, huser,
                  List.length_pos_iff.mpr hroll] at herror
                exact hlater herror
              · -- A rollout that has entries always serves one of them.
                rcases resolveRollout_ok r.rollout (bucket flag.key ctx.userID) hroll
                  with ⟨entry, _, hentry⟩
                simp [bind, Except.bind, List.length_pos_iff.mpr hroll, huser, hentry] at herror

/-- An evaluation that fails panics, on a condition of an enabled rule that
    takes a first value it does not have. -/
theorem evaluate_error (srt : Sorter) (flag : Flag) (state : Option FlagEnvironmentState)
    (rules : List Rule) (ctx : EvalContext) (segmentSlugs : List String) (e : Err)
    (herror : evaluate srt flag state rules ctx segmentSlugs = .error e) :
    e = .panic ∧ ∃ r ∈ rules, r.enabled = true ∧ ∃ c ∈ r.conditions, c.PanicsOn ctx := by
  unfold evaluate at herror
  cases state with
  | none => exact (nomatch herror)
  | some st =>
      by_cases hoff : st.enabled = false
      · simp only [if_pos hoff] at herror
        exact (nomatch herror)
      · simp only [if_neg hoff] at herror
        rcases evaluateRules_error flag ctx segmentSlugs _ e herror with ⟨he, r, hr, hpanics⟩
        exact ⟨he, r, (srt.mem_sort _ _ _).mp hr, hpanics⟩

/-! ## The check covers every index -/

/-- The operators that take the first value are among those that must have
    exactly one. -/
theorem indexingOperators_subset : indexingOperators ⊆ scalarOperators := by
  decide

/-- A condition that passed its check has the value its operator takes. -/
theorem Condition.WellFormed.not_panicsOn (c : Condition) (hwf : c.WellFormed)
    (ctx : EvalContext) : ¬ c.PanicsOn ctx := by
  rintro ⟨hop, hnone, _⟩
  rcases hwf.scalar (indexingOperators_subset hop) with ⟨v, hv⟩
  rw [hnone] at hv
  exact (nomatch hv)

/-- Evaluating validated rules never panics: the evaluation answers, as do
    matching each condition and resolving each rollout that is not empty,
    whatever the flag, the state, the context and the segments. The operators
    on which some condition can panic are exactly those that take the first
    value, and each of these passes the check with exactly one value only. -/
theorem evaluation_safe (srt : Sorter) (flag : Flag) (state : Option FlagEnvironmentState)
    (rules : List Rule) (ctx : EvalContext) (segmentSlugs : List String)
    (hvalid : ∀ r ∈ rules, r.validate = .ok ()) :
    (∃ res, evaluate srt flag state rules ctx segmentSlugs = .ok res) ∧
    (∀ r ∈ rules, ∀ c ∈ r.conditions, ∃ b, matchesCondition c ctx segmentSlugs = .ok b) ∧
    (∀ r ∈ rules, r.rollout.length > 0 → ∀ b, ∃ key, resolveRollout r.rollout b = .ok key) ∧
    ∀ op : Operator,
      ((∃ attr values evalCtx segs,
        matchesCondition ⟨attr, op, values⟩ evalCtx segs = .error .panic) ↔
          op ∈ indexingOperators) ∧
      (op ∈ indexingOperators → ∀ attr values,
        (Condition.mk attr op values).validate = .ok () → ∃ v, values = [v]) := by
  have hwf : ∀ r ∈ rules, ∀ c ∈ r.conditions, c.WellFormed := fun r hr =>
    ((Rule.validate_ok_iff r).mp (hvalid r hr)).wellFormed
  refine ⟨?_, fun r hr c hc => ?_, fun r _ hroll b => ?_, fun op => ⟨⟨?_, fun hop => ?_⟩, ?_⟩⟩
  · cases heval : evaluate srt flag state rules ctx segmentSlugs with
    | ok res => exact ⟨res, rfl⟩
    | error e =>
        rcases evaluate_error srt flag state rules ctx segmentSlugs e heval
          with ⟨_, r, hr, _, c, hc, hpanics⟩
        exact absurd hpanics ((hwf r hr c hc).not_panicsOn c ctx)
  · rcases matchesCondition_ok c ctx segmentSlugs (hwf r hr c hc) with ⟨b, hb, _⟩
    exact ⟨b, hb⟩
  · rcases resolveRollout_ok r.rollout b (List.length_pos_iff.mp hroll) with ⟨e, _, he⟩
    exact ⟨e.variantKey, he⟩
  · rintro ⟨attr, values, evalCtx, segs, hpanic⟩
    exact ((matchesCondition_error_iff _ evalCtx segs _).mp hpanic).1.1
  · refine ⟨"plan", [], ⟨"", fun _ => some "pro"⟩, [], ?_⟩
    exact (matchesCondition_error_iff _ _ _ _).mpr ⟨⟨hop, rfl, by simp⟩, rfl⟩
  · intro hop attr values hcheck
    exact ((Condition.validate_ok_iff _).mp hcheck).scalar (indexingOperators_subset hop)

/-- The rules of a dark mode pass their check. -/
theorem evaluation_safe_darkMode :
    ∃ res, evaluate Sorter.insertion darkMode (some ⟨"f1", "e1", true⟩)
      [darkModeRamp, darkModePaying] ⟨"u1", fun _ => none⟩ [] = .ok res :=
  (evaluation_safe Sorter.insertion darkMode (some ⟨"f1", "e1", true⟩)
    [darkModeRamp, darkModePaying] ⟨"u1", fun _ => none⟩ [] (by decide)).1

end Cuttlegate
