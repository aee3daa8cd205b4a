import Cuttlegate.Domain.Flag
import Cuttlegate.Domain.Rule
import Cuttlegate.Lib.Sorter
import Mathlib.Data.List.Infix

/-!
# Flag Evaluation

The evaluator: given a flag, its state and its rules in one environment, a
user context and the segments the user belongs to, the variant to serve and
why.

The evaluator indexes slices, and an index out of range panics, so every
function here that indexes returns an `Except` whose error is `panic`. The
sort it runs first is the library's unstable one, which is a `Sorter` of any
kind.

What a condition means is stated twice. `matchesCondition` is the source,
operator by operator, on the text of the attribute; `Condition.Holds` is the
meaning, where a substring is a factorisation of the text and a missing
attribute satisfies nothing. On a condition that passed its check the two
agree (`matchesCondition_ok`). Lifted through the loop over the rules, that
gives the evaluator its own specification: the rules that fire are those
enabled, matching, and either without a rollout or given a user to bucket, and
the served one is the firing rule of least priority.

## Main definitions

* `EvalContext`, `EvalReason`, `EvalResult`: What goes in and what comes out.
* `bucket`: The stable bucket of a user for a flag.
* `resolveRollout`: The variant a rollout gives to a bucket.
* `matchesCondition`, `matchesAll`: Matching, as the source computes it.
* `evaluate`: The evaluator.
* `Condition.Holds`, `Rule.Fires`: Matching, as it is meant.

## Theorems

* `matchesCondition_ok`: Matching a valid condition decides its meaning.
* `matchesAll_ok`: The conditions of a rule are a conjunction.
* `resolveRollout_ok`: A rollout with an entry always gives a variant of it.
* `evaluateRules_eq`: The loop serves the first rule that fires.
* `evaluate_first_match`: Evaluation serves the firing rule of least priority.
* `evaluate_segments_congr`: Only the segments the conditions name matter.
-/

namespace Cuttlegate

structure EvalContext where
  userID : String
  attributes : String → Option String

inductive EvalReason where
  | disabled
  | default
  | ruleMatch
  deriving DecidableEq, Repr

structure EvalResult where
  variantKey : String
  reason : EvalReason
  matchedRuleID : String
  matchedRuleName : String
  deriving DecidableEq, Repr

structure FlagEnvironmentState where
  flagID : String
  environmentID : String
  enabled : Bool
  deriving DecidableEq, Repr

/-! ## Bucketing -/

/-- One write to a 32-bit FNV-1a hash: for each byte, xor and multiply. -/
def fnv1a (h : UInt32) (bytes : List UInt8) : UInt32 :=
  bytes.foldl (fun acc b => (acc ^^^ b.toUInt32) * 16777619) h

/-- The stable bucket of a user for a flag, from 0 to 99. -/
def bucket (flagKey userKey : String) : Int64 :=
  let h₁ := fnv1a 2166136261 flagKey.toUTF8.data.toList
  let h₂ := fnv1a h₁ [0]
  let h₃ := fnv1a h₂ userKey.toUTF8.data.toList
  Int64.ofNat (h₃ % 100).toNat

/-- The loop over the entries: the first whose running total passes the
    bucket. -/
def rolloutLoop (bucket cumulative : Int64) : List RolloutEntry → Option String
  | [] => none
  | e :: es =>
      if bucket < cumulative + e.weight then some e.variantKey
      else rolloutLoop bucket (cumulative + e.weight) es

/-- The variant a rollout gives to a bucket, with the last entry to fall back
    on when the loop ends without a hit. -/
def resolveRollout (entries : List RolloutEntry) (bucket : Int64) : Except Err String :=
  match rolloutLoop bucket 0 entries with
  | some key => .ok key
  | none => match entries.getLast? with
    | some e => .ok e.variantKey
    | none => .error .panic

/-! ## Matching -/

/-- Whether `sub` occurs in `s`, as `strings.Contains` decides it. -/
def containsText (s sub : String) : Bool :=
  s.toList.tails.any (fun t => sub.toList.isPrefixOf t)

def hasPrefix (s pre : String) : Bool := pre.toList.isPrefixOf s.toList

def hasSuffix (s suf : String) : Bool := suf.toList.isSuffixOf s.toList

/-- The first value of a condition, which panics when there is none. -/
def Condition.firstValue (c : Condition) : Except Err String :=
  match c.values with
  | [] => .error .panic
  | v :: _ => .ok v

/-- Membership in a segment, for the two segment operators; a condition with
    no value matches neither way. -/
def Condition.matchesSegment (c : Condition) (segmentSlugs : List String) (want : Bool) : Bool :=
  match c.values with
  | [] => false
  | slug :: _ => segmentSlugs.contains slug == want

/-- The operators that look at an attribute, on the value it has. -/
def Condition.matchesValue (c : Condition) (val : String) : Except Err Bool :=
  match c.operator with
  | .eq => do return val == (← c.firstValue)
  | .neq => do return val != (← c.firstValue)
  | .contains => do return containsText val (← c.firstValue)
  | .startsWith => do return hasPrefix val (← c.firstValue)
  | .endsWith => do return hasSuffix val (← c.firstValue)
  | .isIn => .ok (c.values.any (fun v => val == v))
  | .notIn => .ok (!c.values.any (fun v => val == v))
  | _ => .ok false

/-- The attribute operators: a missing attribute never matches. -/
def Condition.matchesAttribute (c : Condition) (ctx : EvalContext) : Except Err Bool :=
  match ctx.attributes c.attr with
  | none => .ok false
  | some val => c.matchesValue val

def matchesCondition (c : Condition) (ctx : EvalContext) (segmentSlugs : List String) :
    Except Err Bool :=
  match c.operator with
  | .inSegment => .ok (c.matchesSegment segmentSlugs true)
  | .notInSegment => .ok (c.matchesSegment segmentSlugs false)
  | _ => c.matchesAttribute ctx

def matchesAll (ctx : EvalContext) (segmentSlugs : List String) :
    List Condition → Except Err Bool
  | [] => .ok true
  | c :: cs => do
      if ← matchesCondition c ctx segmentSlugs then matchesAll ctx segmentSlugs cs
      else .ok false

/-! ## The evaluator -/

/-- The loop over the sorted rules. A rule with a rollout is skipped when
    there is no user to bucket. -/
def evaluateRules (flag : Flag) (ctx : EvalContext) (segmentSlugs : List String) :
    List Rule → Except Err EvalResult
  | [] => .ok ⟨flag.defaultVariantKey, .default, "", ""⟩
  | rule :: rest =>
      if rule.enabled = false then evaluateRules flag ctx segmentSlugs rest
      else do
        if ← matchesAll ctx segmentSlugs rule.conditions then
          if rule.rollout.length > 0 then
            if ctx.userID = "" then evaluateRules flag ctx segmentSlugs rest
            else
              let variantKey ← resolveRollout rule.rollout (bucket flag.key ctx.userID)
              .ok ⟨variantKey, .ruleMatch, rule.id, rule.name⟩
          else .ok ⟨rule.variantKey, .ruleMatch, rule.id, rule.name⟩
        else evaluateRules flag ctx segmentSlugs rest

def evaluate (srt : Sorter) (flag : Flag) (state : Option FlagEnvironmentState)
    (rules : List Rule) (ctx : EvalContext) (segmentSlugs : List String) :
    Except Err EvalResult :=
  match state with
  | none => .ok ⟨flag.defaultVariantKey, .disabled, "", ""⟩
  | some st =>
      if st.enabled = false then .ok ⟨flag.defaultVariantKey, .disabled, "", ""⟩
      else evaluateRules flag ctx segmentSlugs
        (srt.sort (fun a b => decide (a.priority < b.priority)) rules)

/-! ## What matching means -/

/-- The meaning of a condition. An attribute operator needs the attribute to
    be there, whichever way it compares. -/
def Condition.Holds (c : Condition) (ctx : EvalContext) (segmentSlugs : List String) : Prop :=
  match c.operator with
  | .eq => ∃ val, ctx.attributes c.attr = some val ∧ ∃ v, c.values = [v] ∧ val = v
  | .neq => ∃ val, ctx.attributes c.attr = some val ∧ ∃ v, c.values = [v] ∧ val ≠ v
  | .contains => ∃ val, ctx.attributes c.attr = some val ∧
      ∃ v, c.values = [v] ∧ ∃ a b, val = a ++ v ++ b
  | .startsWith => ∃ val, ctx.attributes c.attr = some val ∧
      ∃ v, c.values = [v] ∧ ∃ b, val = v ++ b
  | .endsWith => ∃ val, ctx.attributes c.attr = some val ∧
      ∃ v, c.values = [v] ∧ ∃ a, val = a ++ v
  | .isIn => ∃ val, ctx.attributes c.attr = some val ∧ val ∈ c.values
  | .notIn => ∃ val, ctx.attributes c.attr = some val ∧ val ∉ c.values
  | .inSegment => ∃ slug, c.values = [slug] ∧ slug ∈ segmentSlugs
  | .notInSegment => ∃ slug, c.values = [slug] ∧ slug ∉ segmentSlugs
  | .unsupported _ => False

/-- A rule fires when it is enabled, all its conditions hold, and it has no
    rollout or there is a user to bucket. -/
def Rule.Fires (r : Rule) (ctx : EvalContext) (segmentSlugs : List String) : Prop :=
  r.enabled = true ∧ (∀ c ∈ r.conditions, c.Holds ctx segmentSlugs) ∧
    (r.rollout = [] ∨ ctx.userID ≠ "")

theorem containsText_iff (s sub : String) :
    containsText s sub = true ↔ ∃ a b, s = a ++ sub ++ b := by
  unfold containsText
  rw [List.any_eq_true]
  constructor
  · rintro ⟨t, ht, hpre⟩
    rcases (List.mem_tails t s.toList).mp ht with ⟨front, hfront⟩
    rcases List.isPrefixOf_iff_prefix.mp hpre with ⟨back, hback⟩
    refine ⟨String.ofList front, String.ofList back, ?_⟩
    rw [← String.toList_inj]
    simp only [String.toList_append, String.toList_ofList, List.append_assoc]
    rw [hback, hfront]
  · rintro ⟨a, b, rfl⟩
    refine ⟨sub.toList ++ b.toList, ?_, ?_⟩
    · rw [List.mem_tails]
      exact ⟨a.toList, by simp only [String.toList_append, List.append_assoc]⟩
    · exact List.isPrefixOf_iff_prefix.mpr (List.prefix_append _ _)

theorem hasPrefix_iff (s pre : String) : hasPrefix s pre = true ↔ ∃ b, s = pre ++ b := by
  unfold hasPrefix
  rw [List.isPrefixOf_iff_prefix]
  constructor
  · rintro ⟨back, hback⟩
    refine ⟨String.ofList back, ?_⟩
    rw [← String.toList_inj, String.toList_append, String.toList_ofList, hback]
  · rintro ⟨b, rfl⟩
    exact ⟨b.toList, by rw [String.toList_append]⟩

theorem hasSuffix_iff (s suf : String) : hasSuffix s suf = true ↔ ∃ a, s = a ++ suf := by
  unfold hasSuffix
  rw [List.isSuffixOf_iff_suffix]
  constructor
  · rintro ⟨front, hfront⟩
    refine ⟨String.ofList front, ?_⟩
    rw [← String.toList_inj, String.toList_append, String.toList_ofList, hfront]
  · rintro ⟨a, rfl⟩
    exact ⟨a.toList, by rw [String.toList_append]⟩

theorem Condition.firstValue_single (c : Condition) (v : String) (h : c.values = [v]) :
    c.firstValue = .ok v := by
  unfold Condition.firstValue
  rw [h]

theorem Condition.matchesSegment_single (c : Condition) (segmentSlugs : List String) (want : Bool)
    (slug : String) (h : c.values = [slug]) :
    c.matchesSegment segmentSlugs want = (decide (slug ∈ segmentSlugs) == want) := by
  unfold Condition.matchesSegment
  rw [h]
  simp

/-- The attribute operators share one shape: nothing matches a missing
    attribute, and on a value that is there the test `b` decides `P`. -/
theorem Condition.matchesAttribute_ok (c : Condition) (ctx : EvalContext) (b : String → Bool)
    (P : String → Prop) (hmatch : ∀ val, c.matchesValue val = .ok (b val))
    (hiff : ∀ val, b val = true ↔ P val) :
    ∃ r, c.matchesAttribute ctx = .ok r ∧
      (r = true ↔ ∃ val, ctx.attributes c.attr = some val ∧ P val) := by
  unfold Condition.matchesAttribute
  cases hattr : ctx.attributes c.attr with
  | none => exact ⟨false, rfl, by simp⟩
  | some val =>
      refine ⟨b val, hmatch val, ?_⟩
      rw [hiff val]
      simp

/-- The same for an operator with one value: the test compares with that
    value. -/
theorem Condition.matchesScalar_ok (c : Condition) (ctx : EvalContext) (v : String)
    (hv : c.values = [v]) (b : String → String → Bool) (P : String → String → Prop)
    (hmatch : ∀ val, c.matchesValue val = do return b val (← c.firstValue))
    (hiff : ∀ val, b val v = true ↔ P val v) :
    ∃ r, c.matchesAttribute ctx = .ok r ∧
      (r = true ↔ ∃ val, ctx.attributes c.attr = some val ∧ ∃ v, c.values = [v] ∧ P val v) := by
  refine c.matchesAttribute_ok ctx (fun val => b val v) _ (fun val => ?_) (fun val => ?_)
  · rw [hmatch val, c.firstValue_single v hv]
    rfl
  · rw [hiff val, hv]
    constructor
    · exact fun h => ⟨v, rfl, h⟩
    · rintro ⟨w, hw, h⟩
      rw [List.singleton_inj.mp hw]
      exact h

/-- Matching a condition that passed its check never panics, and decides what
    the condition means. -/
theorem matchesCondition_ok (c : Condition) (ctx : EvalContext) (segmentSlugs : List String)
    (hwf : c.WellFormed) :
    ∃ b, matchesCondition c ctx segmentSlugs = .ok b ∧ (b = true ↔ c.Holds ctx segmentSlugs) := by
  -- A scalar operator has one value; two more compare against a list, two ask the segments.
  have hval : ∀ op, c.operator = op → op ∈ scalarOperators → ∃ v, c.values = [v] :=
    fun op hop hmem => hwf.scalar (hop ▸ hmem)
  unfold matchesCondition Condition.Holds
  cases hop : c.operator with
  | eq =>
      rcases hval _ hop (by decide) with ⟨v, hv⟩
      exact c.matchesScalar_ok ctx v hv (fun val v => val == v) (fun val v => val = v)
        (fun val => by simp only [Condition.matchesValue, hop]) (fun val => beq_iff_eq)
  | neq =>
      rcases hval _ hop (by decide) with ⟨v, hv⟩
      exact c.matchesScalar_ok ctx v hv (fun val v => val != v) (fun val v => val ≠ v)
        (fun val => by simp only [Condition.matchesValue, hop]) (fun val => bne_iff_ne)
  | contains =>
      rcases hval _ hop (by decide) with ⟨v, hv⟩
      exact c.matchesScalar_ok ctx v hv containsText (fun val v => ∃ a b, val = a ++ v ++ b)
        (fun val => by simp only [Condition.matchesValue, hop]) (fun val => containsText_iff val v)
  | startsWith =>
      rcases hval _ hop (by decide) with ⟨v, hv⟩
      exact c.matchesScalar_ok ctx v hv hasPrefix (fun val v => ∃ b, val = v ++ b)
        (fun val => by simp only [Condition.matchesValue, hop]) (fun val => hasPrefix_iff val v)
  | endsWith =>
      rcases hval _ hop (by decide) with ⟨v, hv⟩
      exact c.matchesScalar_ok ctx v hv hasSuffix (fun val v => ∃ a, val = a ++ v)
        (fun val => by simp only [Condition.matchesValue, hop]) (fun val => hasSuffix_iff val v)
  | isIn =>
      exact c.matchesAttribute_ok ctx (fun val => c.values.any (fun v => val == v)) (· ∈ c.values)
        (fun val => by simp only [Condition.matchesValue, hop]) (fun val => by simp)
  | notIn =>
      refine c.matchesAttribute_ok ctx (fun val => !c.values.any (fun v => val == v)) (· ∉ c.values)
        (fun val => by simp only [Condition.matchesValue, hop]) (fun val => ?_)
      simp only [Bool.not_eq_true', List.any_eq_false, beq_iff_eq]
      exact ⟨fun h hmem => h val hmem rfl, fun h v hv heq => h (heq ▸ hv)⟩
  | inSegment =>
      rcases hval _ hop (by decide) with ⟨slug, hslug⟩
      refine ⟨_, rfl, ?_⟩
      rw [c.matchesSegment_single _ _ slug hslug, hslug]
      simp
  | notInSegment =>
      rcases hval _ hop (by decide) with ⟨slug, hslug⟩
      refine ⟨_, rfl, ?_⟩
      rw [c.matchesSegment_single _ _ slug hslug, hslug]
      simp
  | unsupported name =>
      exact absurd hwf.supported (by simp [hop, scalarOperators, listOperators])

/-- The conditions of a rule are a conjunction. -/
theorem matchesAll_ok (ctx : EvalContext) (segmentSlugs : List String) (cs : List Condition)
    (hwf : ∀ c ∈ cs, c.WellFormed) :
    ∃ b, matchesAll ctx segmentSlugs cs = .ok b ∧
      (b = true ↔ ∀ c ∈ cs, c.Holds ctx segmentSlugs) := by
  -- On the conditions: the loop stops at the first that does not hold.
  induction cs with
  | nil => exact ⟨true, rfl, by simp⟩
  | cons c cs ih =>
      rcases matchesCondition_ok c ctx segmentSlugs (hwf c List.mem_cons_self) with ⟨b, hb, hiff⟩
      rcases ih (fun d hd => hwf d (List.mem_cons_of_mem c hd)) with ⟨bs, hbs, hiffs⟩
      rw [matchesAll, hb]
      cases b with
      | true =>
          refine ⟨bs, hbs, ?_⟩
          rw [List.forall_mem_cons, hiffs]
          exact ⟨fun h => ⟨hiff.mp rfl, h⟩, fun h => h.2⟩
      | false =>
          refine ⟨false, rfl, ?_⟩
          rw [List.forall_mem_cons]
          exact ⟨fun h => (nomatch h), fun h => hiff.mpr h.1⟩

/-- Whatever the loop over a rollout returns is the variant of an entry. -/
theorem rolloutLoop_mem (b cumulative : Int64) (entries : List RolloutEntry) (key : String)
    (h : rolloutLoop b cumulative entries = some key) : ∃ e ∈ entries, e.variantKey = key := by
  induction entries generalizing cumulative with
  | nil => exact (nomatch h)
  | cons e es ih =>
      rw [rolloutLoop] at h
      by_cases hlt : b < cumulative + e.weight
      · rw [if_pos hlt] at h
        exact ⟨e, List.mem_cons_self, Option.some.inj h⟩
      · rw [if_neg hlt] at h
        rcases ih _ h with ⟨d, hd, hkey⟩
        exact ⟨d, List.mem_cons_of_mem e hd, hkey⟩

/-- A rollout with an entry gives every bucket the variant of one of its
    entries. -/
theorem resolveRollout_ok (entries : List RolloutEntry) (b : Int64) (hne : entries ≠ []) :
    ∃ e ∈ entries, resolveRollout entries b = .ok e.variantKey := by
  unfold resolveRollout
  cases hloop : rolloutLoop b 0 entries with
  | some key =>
      rcases rolloutLoop_mem b 0 entries key hloop with ⟨e, he, hkey⟩
      exact ⟨e, he, by rw [hkey]⟩
  | none =>
      refine ⟨entries.getLast hne, List.getLast_mem hne, ?_⟩
      rw [List.getLast?_eq_some_getLast hne]

/-! ## What evaluation means -/

/-- What a rule serves once it fires: its rollout if it has one, and its
    variant otherwise. -/
def Rule.served (r : Rule) (flag : Flag) (ctx : EvalContext) : Except Err String :=
  if r.rollout = [] then .ok r.variantKey
  else resolveRollout r.rollout (bucket flag.key ctx.userID)

theorem Rule.served_ok (r : Rule) (flag : Flag) (ctx : EvalContext) :
    ∃ key, r.served flag ctx = .ok key := by
  unfold Rule.served
  by_cases hroll : r.rollout = []
  · exact ⟨r.variantKey, by rw [if_pos hroll]⟩
  · rcases resolveRollout_ok r.rollout (bucket flag.key ctx.userID) hroll with ⟨e, _, he⟩
    exact ⟨e.variantKey, by rw [if_neg hroll, he]⟩

open Classical in
/-- The loop over the rules serves the first one that fires, and the default
    when none does. -/
theorem evaluateRules_eq (flag : Flag) (ctx : EvalContext) (segmentSlugs : List String)
    (rules : List Rule) (hwf : ∀ r ∈ rules, ∀ c ∈ r.conditions, c.WellFormed) :
    evaluateRules flag ctx segmentSlugs rules =
      match rules.find? (fun r => decide (r.Fires ctx segmentSlugs)) with
      | none => .ok ⟨flag.defaultVariantKey, .default, "", ""⟩
      | some r => (r.served flag ctx).map (fun key => ⟨key, .ruleMatch, r.id, r.name⟩) := by
  -- On the rules left: the loop serves at the first that fires.
  induction rules with
  | nil => rfl
  | cons r rest ih =>
      specialize ih (fun q hq => hwf q (List.mem_cons_of_mem r hq))
      rcases matchesAll_ok ctx segmentSlugs r.conditions (hwf r List.mem_cons_self)
        with ⟨b, hb, hiff⟩
      rw [evaluateRules, List.find?_cons, ih, hb]
      by_cases hen : r.enabled = false
      · -- A disabled rule is passed over.
        rw [if_pos hen, decide_eq_false (by simp [Rule.Fires, hen])]
      rw [if_neg hen]
      have hon : r.enabled = true := by simpa using hen
      cases b with
      | false =>
          have hmiss : ¬ r.Fires ctx segmentSlugs := fun h => Bool.noConfusion (hiff.mpr h.2.1)
          rw [decide_eq_false hmiss]
          rfl
      | true =>
          have hconds := hiff.mp rfl
          by_cases hroll : r.rollout = []
          · have hfires : r.Fires ctx segmentSlugs := ⟨hon, hconds, .inl hroll⟩
            rw [decide_eq_true hfires]
            simp only [Rule.served, hroll, if_true, Except.map, bind, Except.bind,
              List.length_nil, Nat.lt_irrefl, gt_iff_lt, if_false]
          · by_cases huser : ctx.userID = ""
            · -- Without a user there is nothing to bucket.
              have hmiss : ¬ r.Fires ctx segmentSlugs := fun h =>
                h.2.2.elim hroll (fun hne => hne huser)
              rw [decide_eq_false hmiss]
              simp only [bind, Except.bind, if_true, huser, List.length_pos_iff.mpr hroll]
            · have hfires : r.Fires ctx segmentSlugs := ⟨hon, hconds, .inr huser⟩
              rw [decide_eq_true hfires]
              simp only [bind, Except.bind, if_true, if_false, huser, hroll,
                List.length_pos_iff.mpr hroll, Rule.served]
              cases resolveRollout r.rollout (bucket flag.key ctx.userID) with
              | ok key => rfl
              | error e => rfl

/-- The order the evaluator sorts by is a strict weak order. -/
theorem strictWeak_priority :
    StrictWeak (fun a b : Rule => decide (a.priority < b.priority)) :=
  strictWeak_key (fun r : Rule => r.priority)

/-- An enabled flag with a firing rule serves one of least priority. -/
theorem evaluateRules_sort_some (srt : Sorter) (flag : Flag) (rules : List Rule)
    (ctx : EvalContext) (segmentSlugs : List String)
    (hwf : ∀ r ∈ rules, ∀ c ∈ r.conditions, c.WellFormed)
    (r : Rule) (hr : r ∈ rules) (hfires : r.Fires ctx segmentSlugs)
    (hleast : ∀ q ∈ rules, q.Fires ctx segmentSlugs → q ≠ r → r.priority < q.priority) :
    evaluateRules flag ctx segmentSlugs
        (srt.sort (fun a b => decide (a.priority < b.priority)) rules) =
      (r.served flag ctx).map (fun key => ⟨key, .ruleMatch, r.id, r.name⟩) := by
  classical
  have hwf' : ∀ q ∈ srt.sort (fun a b => decide (a.priority < b.priority)) rules,
      ∀ c ∈ q.conditions, c.WellFormed := fun q hq => hwf q ((srt.mem_sort _ _ _).mp hq)
  rw [evaluateRules_eq flag ctx segmentSlugs _ hwf']
  cases hfind : (srt.sort (fun a b => decide (a.priority < b.priority)) rules).find?
      (fun q => decide (q.Fires ctx segmentSlugs)) with
  | none =>
      have hno := (srt.find_sort_none _ _ _).mp hfind r hr
      exact absurd hfires (by simpa using hno)
  | some q =>
      -- The first hit and the least firing rule each bound the other.
      rcases srt.find_sort_some _ strictWeak_priority _ _ _ hfind with ⟨hq, hqfires, hqleast⟩
      have hqr : q = r := by
        by_contra hne
        have hlt := hleast q hq (by simpa using hqfires) hne
        have hge := hqleast r hr (by simpa using hfires) (Ne.symm hne)
        simp only [decide_eq_false_iff_not] at hge
        omega
      rw [hqr]

/-- An enabled flag none of whose rules fire serves its default. -/
theorem evaluateRules_sort_none (srt : Sorter) (flag : Flag) (rules : List Rule)
    (ctx : EvalContext) (segmentSlugs : List String)
    (hwf : ∀ r ∈ rules, ∀ c ∈ r.conditions, c.WellFormed)
    (hnone : ∀ r ∈ rules, ¬ r.Fires ctx segmentSlugs) :
    evaluateRules flag ctx segmentSlugs
        (srt.sort (fun a b => decide (a.priority < b.priority)) rules) =
      .ok ⟨flag.defaultVariantKey, .default, "", ""⟩ := by
  classical
  have hwf' : ∀ q ∈ srt.sort (fun a b => decide (a.priority < b.priority)) rules,
      ∀ c ∈ q.conditions, c.WellFormed := fun q hq => hwf q ((srt.mem_sort _ _ _).mp hq)
  have hfind := (srt.find_sort_none (fun a b => decide (a.priority < b.priority))
    (fun q => decide (q.Fires ctx segmentSlugs)) rules).mpr
    (fun q hq => decide_eq_false (hnone q hq))
  rw [evaluateRules_eq flag ctx segmentSlugs _ hwf', hfind]

/-- Of the rules that fire, if any, one has the least priority, and with
    distinct priorities it is strictly the least. -/
theorem exists_least_firing (rules : List Rule) (ctx : EvalContext) (segmentSlugs : List String)
    (hdistinct : (rules.map (·.priority)).Nodup)
    (hsome : ∃ r ∈ rules, r.Fires ctx segmentSlugs) :
    ∃ r ∈ rules, r.Fires ctx segmentSlugs ∧
      ∀ q ∈ rules, q.Fires ctx segmentSlugs → q ≠ r → r.priority < q.priority := by
  -- The least rule that fires, found from the end of the list.
  induction rules with
  | nil =>
      rcases hsome with ⟨r, hr, _⟩
      exact absurd hr List.not_mem_nil
  | cons p rest ih =>
      rw [List.map_cons, List.nodup_cons] at hdistinct
      have hne : ∀ q ∈ rest, q.priority ≠ p.priority := fun q hq heq =>
        hdistinct.1 (heq ▸ List.mem_map_of_mem hq)
      by_cases hrest : ∃ r ∈ rest, r.Fires ctx segmentSlugs
      · rcases ih hdistinct.2 hrest with ⟨r, hr, hfires, hleast⟩
        by_cases hp : p.Fires ctx segmentSlugs ∧ p.priority < r.priority
        · -- The head fires below the least of the tail.
          refine ⟨p, List.mem_cons_self, hp.1, fun q hq hqf hqp => ?_⟩
          rcases List.mem_cons.mp hq with heq | hq
          · exact absurd heq hqp
          · by_cases hqr : q = r
            · rw [hqr]
              exact hp.2
            · exact lt_trans hp.2 (hleast q hq hqf hqr)
        · refine ⟨r, List.mem_cons_of_mem p hr, hfires, fun q hq hqf hqr => ?_⟩
          rcases List.mem_cons.mp hq with heq | hq
          · rw [heq] at hqf ⊢
            have hle : ¬ p.priority < r.priority := fun hlt => hp ⟨hqf, hlt⟩
            have hnep := hne r hr
            omega
          · exact hleast q hq hqf hqr
      · rcases hsome with ⟨r, hr, hfires⟩
        rcases List.mem_cons.mp hr with heq | hr
        · rw [heq] at hfires
          refine ⟨p, List.mem_cons_self, hfires, fun q hq hqf hqp => ?_⟩
          rcases List.mem_cons.mp hq with heq | hq
          · exact absurd heq hqp
          · exact absurd ⟨q, hq, hqf⟩ hrest
        · exact absurd ⟨r, hr, hfires⟩ hrest

/-- Evaluation serves the firing rule of least priority, whatever the order
    the rules come in and however the sort breaks ties: the flag is off
    exactly when it has no state or a disabled one, and otherwise the firing
    rule of least priority decides, or the default when none fires. -/
theorem evaluate_first_match (flag : Flag) (state : Option FlagEnvironmentState)
    (rules : List Rule) (ctx : EvalContext) (segmentSlugs : List String)
    (hdistinct : (rules.map (·.priority)).Nodup)
    (hvalid : ∀ r ∈ rules, ∀ c ∈ r.conditions, c.validate = .ok ()) :
    (∀ (srt : Sorter) (perm : List Rule), perm.Perm rules →
      (evaluate srt flag state perm ctx segmentSlugs
          = .ok ⟨flag.defaultVariantKey, .disabled, "", ""⟩ ↔
        ∀ st, state = some st → st.enabled = false)) ∧
    ∀ st, state = some st → st.enabled = true →
      ((∃ r ∈ rules, r.Fires ctx segmentSlugs) →
        ∃ r ∈ rules, r.Fires ctx segmentSlugs ∧
          (∀ q ∈ rules, q.Fires ctx segmentSlugs → q ≠ r → r.priority < q.priority) ∧
          ∃ key, (r.rollout = [] → key = r.variantKey) ∧
            (r.rollout ≠ [] →
              resolveRollout r.rollout (bucket flag.key ctx.userID) = .ok key) ∧
            ∀ (srt : Sorter) (perm : List Rule), perm.Perm rules →
              evaluate srt flag state perm ctx segmentSlugs
                = .ok ⟨key, .ruleMatch, r.id, r.name⟩) ∧
      ((∀ r ∈ rules, ¬ r.Fires ctx segmentSlugs) →
        ∀ (srt : Sorter) (perm : List Rule), perm.Perm rules →
          evaluate srt flag state perm ctx segmentSlugs
            = .ok ⟨flag.defaultVariantKey, .default, "", ""⟩) := by
  have hwf : ∀ perm : List Rule, perm.Perm rules →
      ∀ r ∈ perm, ∀ c ∈ r.conditions, c.WellFormed := fun perm hperm r hr c hc =>
    (Condition.validate_ok_iff c).mp (hvalid r (hperm.mem_iff.mp hr) c hc)
  -- Sorting puts the least rule that fires before the others, whatever order they came in.
  have hserve : ∀ r ∈ rules, r.Fires ctx segmentSlugs →
      (∀ q ∈ rules, q.Fires ctx segmentSlugs → q ≠ r → r.priority < q.priority) →
      ∀ st, state = some st → st.enabled = true → ∀ (srt : Sorter) (perm : List Rule),
        perm.Perm rules → evaluate srt flag state perm ctx segmentSlugs =
          (r.served flag ctx).map (fun key => ⟨key, .ruleMatch, r.id, r.name⟩) := by
    intro r hr hfires hleast st hst hon srt perm hperm
    unfold evaluate
    simp only [hst, hon, Bool.true_eq_false, if_false]
    exact evaluateRules_sort_some srt flag perm ctx segmentSlugs (hwf perm hperm) r
      (hperm.mem_iff.mpr hr) hfires (fun q hq => hleast q (hperm.mem_iff.mp hq))
  have hdefault : (∀ r ∈ rules, ¬ r.Fires ctx segmentSlugs) →
      ∀ st, state = some st → st.enabled = true → ∀ (srt : Sorter) (perm : List Rule),
        perm.Perm rules → evaluate srt flag state perm ctx segmentSlugs =
          .ok ⟨flag.defaultVariantKey, .default, "", ""⟩ := by
    intro hnone st hst hon srt perm hperm
    unfold evaluate
    simp only [hst, hon, Bool.true_eq_false, if_false]
    exact evaluateRules_sort_none srt flag perm ctx segmentSlugs (hwf perm hperm)
      (fun r hr => hnone r (hperm.mem_iff.mp hr))
  refine ⟨fun srt perm hperm => ⟨fun h st hst => ?_, fun h => ?_⟩,
    fun st hst hon => ⟨fun hsome => ?_,
    fun hnone => hdefault hnone st hst hon⟩⟩
  · -- An enabled flag answers with another reason.
    by_contra hne
    have hon : st.enabled = true := by simpa using hne
    by_cases hsome : ∃ r ∈ rules, r.Fires ctx segmentSlugs
    · rcases exists_least_firing rules ctx segmentSlugs hdistinct hsome
        with ⟨r, hr, hfires, hleast⟩
      rcases r.served_ok flag ctx with ⟨key, hkey⟩
      rw [hserve r hr hfires hleast st hst hon srt perm hperm, hkey] at h
      exact absurd h (by simp [Except.map])
    · rw [hdefault (fun r hr hf => hsome ⟨r, hr, hf⟩) st hst hon srt perm hperm] at h
      exact absurd h (by simp)
  · unfold evaluate
    cases hst : state with
    | none => rfl
    | some st => simp only [h st hst, if_true]
  · rcases exists_least_firing rules ctx segmentSlugs hdistinct hsome with ⟨r, hr, hfires, hleast⟩
    rcases r.served_ok flag ctx with ⟨key, hkey⟩
    refine ⟨r, hr, hfires, hleast, key, fun hroll => ?_, fun hroll => ?_, fun srt perm hperm => ?_⟩
    · rw [Rule.served, if_pos hroll] at hkey
      exact (Except.ok.inj hkey).symm
    · rw [Rule.served, if_neg hroll] at hkey
      exact hkey
    · rw [hserve r hr hfires hleast st hst hon srt perm hperm, hkey]
      rfl

/-! ## What evaluation depends on -/

/-- Two sets of segments agree on the one a condition asks about, if any. -/
def Condition.AgreeOn (c : Condition) (segs segs' : List String) : Prop :=
  c.isSegmentOp = true → ∀ slug, c.values.head? = some slug → (slug ∈ segs ↔ slug ∈ segs')

theorem Condition.matchesSegment_congr (c : Condition) (segs segs' : List String)
    (hop : c.isSegmentOp = true) (hsegs : c.AgreeOn segs segs') (want : Bool) :
    c.matchesSegment segs want = c.matchesSegment segs' want := by
  unfold Condition.matchesSegment
  cases hvalues : c.values with
  | nil => rfl
  | cons slug rest =>
      have hsame := hsegs hop slug (by rw [hvalues, List.head?_cons])
      have hcontains : segs.contains slug = segs'.contains slug := by
        rw [Bool.eq_iff_iff, List.contains_iff_mem, List.contains_iff_mem, hsame]
      simp only [hcontains]

/-- Matching looks at the segments only for membership of the one the
    condition asks about. -/
theorem matchesCondition_congr (c : Condition) (ctx : EvalContext) (segs segs' : List String)
    (hsegs : c.AgreeOn segs segs') :
    matchesCondition c ctx segs = matchesCondition c ctx segs' := by
  unfold matchesCondition
  cases hop : c.operator with
  | inSegment =>
      have hsegment : c.isSegmentOp = true := by simp [Condition.isSegmentOp, hop]
      simp only [c.matchesSegment_congr segs segs' hsegment hsegs]
  | notInSegment =>
      have hsegment : c.isSegmentOp = true := by simp [Condition.isSegmentOp, hop]
      simp only [c.matchesSegment_congr segs segs' hsegment hsegs]
  | _ => rfl

theorem matchesAll_congr (ctx : EvalContext) (segs segs' : List String) (cs : List Condition)
    (hsegs : ∀ c ∈ cs, c.AgreeOn segs segs') :
    matchesAll ctx segs cs = matchesAll ctx segs' cs := by
  induction cs with
  | nil => rfl
  | cons c cs ih =>
      rw [matchesAll, matchesAll,
        matchesCondition_congr c ctx segs segs' (hsegs c List.mem_cons_self),
        ih (fun d hd => hsegs d (List.mem_cons_of_mem c hd))]

theorem evaluateRules_congr (flag : Flag) (ctx : EvalContext) (segs segs' : List String)
    (rules : List Rule) (hsegs : ∀ r ∈ rules, ∀ c ∈ r.conditions, c.AgreeOn segs segs') :
    evaluateRules flag ctx segs rules = evaluateRules flag ctx segs' rules := by
  induction rules with
  | nil => rfl
  | cons r rest ih =>
      rw [evaluateRules, evaluateRules,
        matchesAll_congr ctx segs segs' _ (hsegs r List.mem_cons_self),
        ih (fun q hq => hsegs q (List.mem_cons_of_mem r hq))]

/-- Evaluation depends on the segments only for membership of those its
    conditions ask about. -/
theorem evaluate_segments_congr (srt : Sorter) (flag : Flag)
    (state : Option FlagEnvironmentState) (rules : List Rule) (ctx : EvalContext)
    (segs segs' : List String)
    (hsegs : ∀ r ∈ rules, ∀ c ∈ r.conditions, c.AgreeOn segs segs') :
    evaluate srt flag state rules ctx segs = evaluate srt flag state rules ctx segs' := by
  unfold evaluate
  rw [evaluateRules_congr flag ctx segs segs' _ (fun r hr =>
    hsegs r ((srt.mem_sort _ _ _).mp hr))]

/-- Evaluation depends on the rules only up to their order, and on the
    segments only for membership. -/
theorem evaluate_congr (srt : Sorter) (flag : Flag) (state : Option FlagEnvironmentState)
    (rules rules' : List Rule) (hperm : rules.Perm rules')
    (hdistinct : (rules.map (·.priority)).Nodup) (ctx : EvalContext) (segs segs' : List String)
    (hsegs : ∀ slug, slug ∈ segs ↔ slug ∈ segs') :
    evaluate srt flag state rules ctx segs = evaluate srt flag state rules' ctx segs' := by
  have hsort : srt.sort (fun a b : Rule => decide (a.priority < b.priority)) rules
      = srt.sort (fun a b => decide (a.priority < b.priority)) rules' := by
    refine srt.sort_eq_of_perm _ strictWeak_priority rules rules' hperm
      (fun a ha b hb hab hba => ?_)
    refine List.inj_on_of_nodup_map hdistinct ha hb ?_
    simp only [decide_eq_false_iff_not] at hab hba
    omega
  rw [evaluate_segments_congr srt flag state rules ctx segs segs'
    (fun _ _ _ _ _ slug _ => hsegs slug)]
  unfold evaluate
  rw [hsort]

/-- Evaluating rules that passed their check always answers. -/
theorem evaluate_total (srt : Sorter) (flag : Flag) (state : Option FlagEnvironmentState)
    (rules : List Rule) (hwf : ∀ r ∈ rules, ∀ c ∈ r.conditions, c.WellFormed) (ctx : EvalContext)
    (segmentSlugs : List String) :
    ∃ res, evaluate srt flag state rules ctx segmentSlugs = .ok res := by
  classical
  unfold evaluate
  cases state with
  | none => exact ⟨_, rfl⟩
  -- Well-formed conditions never fail, and neither does a rollout that has entries.
  | some st =>
      by_cases hoff : st.enabled = false
      · simp only [if_pos hoff]
        exact ⟨_, rfl⟩
      simp only [if_neg hoff]
      rw [evaluateRules_eq flag ctx segmentSlugs _ (fun r hr =>
        hwf r ((srt.mem_sort _ _ _).mp hr))]
      cases (srt.sort (fun a b => decide (a.priority < b.priority)) rules).find?
          (fun r => decide (r.Fires ctx segmentSlugs)) with
      | none => exact ⟨_, rfl⟩
      | some r =>
          rcases r.served_ok flag ctx with ⟨key, hkey⟩
          simp only [hkey]
          exact ⟨_, rfl⟩

/-- A boolean flag for the concrete runs, with two rules on it: one serves
    paying users, one ramps the flag up for everybody not on the free plan. -/
def darkMode : Flag where
  id := "f1"
  projectID := "p1"
  key := "dark-mode"
  name := "Dark mode"
  type := .bool
  variants := [⟨"true", "On"⟩, ⟨"false", "Off"⟩]
  defaultVariantKey := "false"
  createdAt := 0

def darkModePaying : Rule where
  id := "r1"
  flagID := "f1"
  environmentID := "e1"
  name := "paying users"
  priority := 1
  conditions := [⟨"plan", .eq, ["pro"]⟩]
  variantKey := "true"
  rollout := []
  enabled := true
  createdAt := 0

def darkModeRamp : Rule where
  id := "r2"
  flagID := "f1"
  environmentID := "e1"
  name := "ramp"
  priority := 2
  conditions := [⟨"plan", .neq, ["free"]⟩]
  variantKey := ""
  rollout := [⟨"true", 30⟩, ⟨"false", 70⟩]
  enabled := true
  createdAt := 0

theorem evaluate_first_match_paying :
    ∃ key, evaluate Sorter.insertion darkMode (some ⟨"f1", "e1", true⟩)
        [darkModeRamp, darkModePaying] ⟨"", fun _ => some "pro"⟩ []
      = .ok ⟨key, .ruleMatch, "r1", "paying users"⟩ := by
  have hpaying : darkModePaying.Fires ⟨"", fun _ => some "pro"⟩ [] := by
    simp [Rule.Fires, darkModePaying, Condition.Holds]
  rcases ((evaluate_first_match darkMode (some ⟨"f1", "e1", true⟩) [darkModePaying, darkModeRamp]
    ⟨"", fun _ => some "pro"⟩ [] (by decide) (by decide)).2 _ rfl rfl).1
    ⟨darkModePaying, List.mem_cons_self, hpaying⟩ with ⟨r, hr, _, hleast, key, _, _, heval⟩
  have hr1 : r = darkModePaying := by
    by_contra hne
    have hlt := hleast darkModePaying List.mem_cons_self hpaying (Ne.symm hne)
    have hramp : r = darkModeRamp := by simpa [hne] using hr
    rw [hramp] at hlt
    exact absurd hlt (by decide)
  rw [hr1] at heval
  exact ⟨key, heval _ _ (List.Perm.swap _ _ _)⟩

end Cuttlegate
