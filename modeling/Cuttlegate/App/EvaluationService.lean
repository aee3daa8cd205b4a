import Cuttlegate.App.FlagService

/-!
# The Evaluation Service

Evaluation of one flag, and of all flags of a project in an environment.

Both load the flag, its state and its rules, find out which of the segments
its rules name contain the user, and run the evaluator. One flag is loaded
with a query for each of these; all flags are loaded with one query each for
the flags, the states and the rules of the environment, which are then grouped
by flag.

A segment that no longer exists counts as one the user is not in, and leaves
an audit event on a best-effort basis. The record of the evaluation itself is
handed to a background goroutine.

## Main definitions

* `EvalView`, `evalView`: What is returned for one flag.
* `segmentRefs`: The segments the rules name.
* `resolveSegments`: Which of them contain the user.
* `EvaluationService.evaluate`, `EvaluationService.evaluateAll`: The methods.

## Theorems

* `EvaluationService.evaluate_within`, `EvaluationService.evaluateAll_within`:
  Evaluation writes records of itself only.
-/

namespace Cuttlegate

structure EvalView where
  key : String
  enabled : Bool
  value : Option String
  valueKey : String
  reason : EvalReason
  type : FlagType
  deriving DecidableEq, Repr

def evalView (flag : Flag) (result : EvalResult) : EvalView where
  key := flag.key
  enabled := result.reason != .disabled
  value := if flag.type ≠ .bool then some result.variantKey else none
  valueKey := result.variantKey
  reason := result.reason
  type := flag.type

/-! ## Segments -/

/-- The segment a condition names, for the two segment operators. -/
def Condition.segmentRef (c : Condition) : Option String :=
  if c.isSegmentOp then c.values.head? else none

/-- The distinct segments named by the conditions of the rules. -/
def segmentRefs (rules : List Rule) : List String :=
  (rules.flatMap (fun r => r.conditions.filterMap Condition.segmentRef)).eraseDups

/-- The hexadecimal digit of a number below sixteen. -/
def hexDigit (n : Nat) : Char := if n < 10 then Char.ofNat (n + 48) else Char.ofNat (n + 87)

/-- One character of a JSON string, escaped as the encoder escapes it. -/
def jsonChar (c : Char) : List Char :=
  if c = '"' ∨ c = '\\' then ['\\', c]
  else if c = '\n' then ['\\', 'n']
  else if c = '\r' then ['\\', 'r']
  else if c = '\t' then ['\\', 't']
  else if c.toNat = 8 then ['\\', 'b']
  else if c.toNat = 12 then ['\\', 'f']
  else if c.toNat < 32 ∨ c = '<' ∨ c = '>' ∨ c = '&' ∨ c.toNat = 0x2028 ∨ c.toNat = 0x2029 then
    ['\\', 'u', hexDigit (c.toNat / 4096), hexDigit (c.toNat / 256 % 16),
      hexDigit (c.toNat / 16 % 16), hexDigit (c.toNat % 16)]
  else [c]

def jsonString (s : String) : String :=
  "\"" ++ String.ofList (s.toList.flatMap jsonChar) ++ "\""

/-- The payload of the audit event for a segment that is gone. -/
def segmentNotFoundPayload (flagID environmentID segmentSlug : String) : String :=
  "\x7b\"flag_id\":" ++ jsonString flagID ++ ",\"environment_id\":" ++ jsonString environmentID
    ++ ",\"segment_slug\":" ++ jsonString segmentSlug ++ ",\"reason\":\"segment_not_found\"\x7d"

/-- The audit event for a segment that is gone. It names neither an id, a
    project nor an actor. -/
def recordDeletedSegmentAudit (ctx : Ctx) (flagID environmentID segmentSlug : String) :
    Prog Unit :=
  bestEffort (ctx.call (.recordAudit
    { id := "", projectID := "", actorID := "", action := "segment_not_found"
      entityType := "segment", entityID := "", entityKey := segmentSlug, environmentSlug := ""
      source := "system", beforeState := ""
      afterState := segmentNotFoundPayload flagID environmentID segmentSlug, occurredAt := 0 }))

/-- The loop over the named segments: those that exist and contain the user. -/
def resolveLoop (ctx : Ctx) (projectID flagID environmentID userKey : String) :
    List String → Prog (List String)
  | [] => return []
  | slug :: rest => do
      match ← (ctx.call (.segmentBySlug projectID slug)).attempt with
      | .error .notFound => do
          recordDeletedSegmentAudit ctx flagID environmentID slug
          resolveLoop ctx projectID flagID environmentID userKey rest
      | .error e => Proc.fail e
      | .ok seg => do
          let member ← ctx.call (.isMember seg.id userKey)
          let found ← resolveLoop ctx projectID flagID environmentID userKey rest
          return if member = true then slug :: found else found

def resolveSegments (ctx : Ctx) (projectID flagID environmentID : String) (rules : List Rule)
    (userKey : String) : Prog (List String) := do
  let slugs := segmentRefs rules
  if slugs.length = 0 then return []
  else do
    let keys ← ctx.call (.rangeKeys slugs)
    resolveLoop ctx projectID flagID environmentID userKey keys

/-- Hand the record of an evaluation to a background goroutine, provided an id
    could be drawn for it. -/
def publishEvent (ctx : Ctx) (projectID environmentID : String) (flag : Flag)
    (evalCtx : EvalContext) (result : EvalResult) (now : Time) : Prog Unit := do
  match ← (ctx.call .newUUID).attempt with
  | .error _ => return ()
  | .ok id => ctx.call (.publishEvaluation flag.id
      { id := id, flagKey := flag.key, projectID := projectID, environmentID := environmentID
        userID := evalCtx.userID, matchedRuleID := result.matchedRuleID
        matchedRuleName := result.matchedRuleName, variantKey := result.variantKey
        reason := result.reason, occurredAt := now })

/-! ## The methods -/

namespace EvaluationService

def evaluate (srt : Sorter) (ctx : Ctx) (projectID environmentID flagKey : String)
    (evalCtx : EvalContext) : Prog EvalView := do
  let _ ← ctx.require .viewer
  let flag ← ctx.call (.flagByKey projectID flagKey)
  let state ← ctx.call (.stateOf flag.id environmentID)
  let rules ← ctx.call (.listRulesByFlagEnvironment flag.id environmentID)
  let userSegments ← resolveSegments ctx projectID flag.id environmentID rules evalCtx.userID
  let now ← ctx.call .now
  let result ← check (Cuttlegate.evaluate srt flag state rules evalCtx userSegments)
  publishEvent ctx projectID environmentID flag evalCtx result now
  return evalView flag result

/-- The rules of the environment, grouped by flag in the order they came. -/
def groupRules (rules : List Rule) : String → List Rule :=
  rules.foldl (fun m r k => if k = r.flagID then m k ++ [r] else m k) (fun _ => [])

/-- The loop over the flags of the project. -/
def evaluateLoop (srt : Sorter) (ctx : Ctx) (projectID environmentID : String)
    (evalCtx : EvalContext) (evaluatedAt : Time)
    (stateByFlag : String → Option FlagEnvironmentState)
    (rulesByFlag : String → List Rule) : List Flag → Prog (List EvalView)
  | [] => return []
  | flag :: rest => do
      let rules := rulesByFlag flag.id
      let userSegments ← resolveSegments ctx projectID flag.id environmentID rules evalCtx.userID
      let result ← check
        (Cuttlegate.evaluate srt flag (stateByFlag flag.id) rules evalCtx userSegments)
      publishEvent ctx projectID environmentID flag evalCtx result evaluatedAt
      let views ← evaluateLoop srt ctx projectID environmentID evalCtx evaluatedAt stateByFlag
        rulesByFlag rest
      return evalView flag result :: views

def evaluateAll (srt : Sorter) (ctx : Ctx) (projectID environmentID : String)
    (evalCtx : EvalContext) : Prog (List EvalView × Time) := do
  let _ ← ctx.require .viewer
  let evaluatedAt ← ctx.call .now
  let flags ← ctx.call (.listFlags projectID)
  let allStates ← ctx.call (.listStates environmentID)
  let allRules ← ctx.call (.listRulesByEnvironment environmentID)
  let views ← evaluateLoop srt ctx projectID environmentID evalCtx evaluatedAt
    (mapLoop (·.flagID) (fun st => st) allStates) (groupRules allRules) flags
  return (views, evaluatedAt)

end EvaluationService

/-! ## Footprints -/

section Footprint

variable (ctx : Ctx)

theorem resolveLoop_within (projectID flagID environmentID userKey : String)
    (slugs : List String) : Within [.auditEvents, .evaluations]
      (resolveLoop ctx projectID flagID environmentID userKey slugs) := by
  induction slugs with
  | nil => exact within_ret []
  | cons slug rest ih =>
      refine within_bind _ _ (within_attempt _ (within_read ctx _ rfl)) (fun r => ?_)
      split
      · refine within_bind _ _ (within_bestEffort _ (within_call ctx _ ?_)) (fun _ => ih)
        simp [Op.writes]
      · exact within_fail _
      · refine within_bind _ _ (within_read ctx _ rfl) (fun member => ?_)
        exact within_bind _ _ ih (fun found => within_ret _)

theorem resolveSegments_within (projectID flagID environmentID : String) (rules : List Rule)
    (userKey : String) : Within [.auditEvents, .evaluations]
      (resolveSegments ctx projectID flagID environmentID rules userKey) := by
  unfold resolveSegments
  by_cases hnone : (segmentRefs rules).length = 0
  · simp only [if_pos hnone]
    exact within_ret []
  · simp only [if_neg hnone]
    exact within_bind _ _ (within_read ctx _ rfl) (fun keys => resolveLoop_within ctx _ _ _ _ keys)

theorem publishEvent_within (projectID environmentID : String) (flag : Flag)
    (evalCtx : EvalContext) (result : EvalResult) (now : Time) :
    Within [.auditEvents, .evaluations]
      (publishEvent ctx projectID environmentID flag evalCtx result now) := by
  refine within_bind _ _ (within_attempt _ (within_read ctx _ rfl)) (fun r => ?_)
  cases r with
  | error e => exact within_ret ()
  | ok id => exact within_call ctx _ (by simp [Op.writes])

namespace EvaluationService

theorem evaluate_within (srt : Sorter) (projectID environmentID flagKey : String)
    (evalCtx : EvalContext) : Within [.auditEvents, .evaluations]
      (evaluate srt ctx projectID environmentID flagKey evalCtx) := by
  refine within_require ctx _ _ (fun _ => ?_)
  refine within_bind _ _ (within_read ctx _ rfl) (fun flag => ?_)
  refine within_bind _ _ (within_read ctx _ rfl) (fun state => ?_)
  refine within_bind _ _ (within_read ctx _ rfl) (fun rules => ?_)
  refine within_bind _ _ (resolveSegments_within ctx _ _ _ _ _) (fun segs => ?_)
  refine within_bind _ _ (within_read ctx _ rfl) (fun now => within_check _ _ (fun result => ?_))
  exact within_bind _ _ (publishEvent_within ctx _ _ _ _ _ _) (fun _ => within_ret _)

theorem evaluateLoop_within (srt : Sorter) (projectID environmentID : String)
    (evalCtx : EvalContext) (evaluatedAt : Time)
    (stateByFlag : String → Option FlagEnvironmentState)
    (rulesByFlag : String → List Rule) (flags : List Flag) : Within [.auditEvents, .evaluations]
      (evaluateLoop srt ctx projectID environmentID evalCtx evaluatedAt stateByFlag rulesByFlag
        flags) := by
  induction flags with
  | nil => exact within_ret []
  | cons flag rest ih =>
      refine within_bind _ _ (resolveSegments_within ctx _ _ _ _ _) (fun segs => ?_)
      refine within_check _ _ (fun result => ?_)
      refine within_bind _ _ (publishEvent_within ctx _ _ _ _ _ _) (fun _ => ?_)
      exact within_bind _ _ ih (fun views => within_ret _)

theorem evaluateAll_within (srt : Sorter) (projectID environmentID : String)
    (evalCtx : EvalContext) : Within [.auditEvents, .evaluations]
      (evaluateAll srt ctx projectID environmentID evalCtx) := by
  refine within_require ctx _ _ (fun _ => ?_)
  refine within_bind _ _ (within_read ctx _ rfl) (fun evaluatedAt => ?_)
  refine within_bind _ _ (within_read ctx _ rfl) (fun flags => ?_)
  refine within_bind _ _ (within_read ctx _ rfl) (fun states => ?_)
  refine within_bind _ _ (within_read ctx _ rfl) (fun rules => ?_)
  exact within_bind _ _ (evaluateLoop_within ctx srt _ _ _ _ _ _ _) (fun views => within_ret _)

end EvaluationService

end Footprint

end Cuttlegate
