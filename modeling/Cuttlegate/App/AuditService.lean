import Cuttlegate.App.Context

/-!
# The Audit and Evaluation History Services

The services that read back what others have recorded: the audit log of a
project, the evaluations of a flag in an environment, and the counts of these
evaluations, in total and by slots of time.

All of them require a viewer. The log and the evaluations are read on the
pool, whatever connection the request was given.

## Main definitions

* `AuditService.listByProject`: The audit log.
* `EvaluationEventView`, `EvaluationAuditService.listEvaluations`: The
  evaluations of a flag.
* `FlagStatsView`, `EvaluationStatsService.getStats`: Their number.
* `EvaluationBucketsView`, `EvaluationStatsService.getBuckets`: Their number by
  slots.
-/

namespace Cuttlegate

def AuditService.listByProject (ctx : Ctx) (projectID : String) (filter : AuditFilter) :
    Prog (List ListedAuditEvent) := do
  let _ ← ctx.require .viewer
  ctx.call (.listAuditEvents projectID filter.normalize)

/-! ## Evaluations -/

/-- The reason of an evaluation as clients are told. -/
def apiReason : EvalReason → String
  | .disabled => "flag_disabled"
  | .default => "default"
  | .ruleMatch => "rule_match"

structure EvaluationEventView where
  id : String
  flagKey : String
  environmentID : String
  userID : String
  matchedRuleID : String
  matchedRuleName : String
  variantKey : String
  reason : String
  occurredAt : Time
  deriving DecidableEq, Repr

def EvaluationEvent.view (e : EvaluationEvent) : EvaluationEventView :=
  ⟨e.id, e.flagKey, e.environmentID, e.userID, e.matchedRuleID, e.matchedRuleName, e.variantKey,
    apiReason e.reason, e.occurredAt⟩

/-- The flag must exist; its evaluations are found by its key. -/
def EvaluationAuditService.listEvaluations (ctx : Ctx) (projectID environmentID flagKey : String)
    (filter : EvaluationFilter) : Prog (List EvaluationEventView) := do
  let _ ← ctx.require .viewer
  let _ ← ctx.call (.flagByKey projectID flagKey)
  let events ← ctx.call (.listEvaluations projectID environmentID flagKey filter)
  return events.map EvaluationEvent.view

/-! ## Counts -/

structure FlagStatsView where
  lastEvaluatedAt : Option Time
  evaluationCount : Nat
  deriving DecidableEq, Repr

structure EvaluationBucketsView where
  flagKey : String
  environment : String
  window : String
  bucketSize : String
  buckets : List EvaluationBucket
  deriving DecidableEq, Repr

/-- One day. -/
def day : Time := 24 * 3600 * 1000000000

/-- The windows that can be asked for. -/
def validWindows (window : String) : Option Time :=
  if window = "1d" then some day
  else if window = "7d" then some (7 * day)
  else if window = "14d" then some (14 * day)
  else if window = "30d" then some (30 * day)
  else if window = "90d" then some (90 * day)
  else none

/-- Hourly slots are for the two shortest. -/
def windowAllowsHour (window : String) : Bool := window == "1d" || window == "7d"

namespace EvaluationStatsService

def getStats (ctx : Ctx) (projectID environmentID flagKey : String) : Prog FlagStatsView := do
  let _ ← ctx.require .viewer
  let flag ← ctx.call (.flagByKey projectID flagKey)
  let stats ← ctx.call (.evaluationStats flag.id environmentID)
  return ⟨if stats.evaluationCount > 0 then some stats.lastEvaluatedAt else none,
    stats.evaluationCount⟩

/-- The length of the window and of a slot, when both can be asked for. -/
def bucketParams (window bucketSize : String) : Option (Time × Time) := do
  let windowDur ← validWindows window
  let bucketDur ← bucketInterval bucketSize
  if bucketSize = "hour" ∧ windowAllowsHour window = false then none
  else return (windowDur, bucketDur)

/-- The counts of a window up to now; `none` when the parameters are invalid. -/
def getBuckets (ctx : Ctx) (projectID environmentID envSlug flagKey window bucketSize : String) :
    Prog (Option EvaluationBucketsView) := do
  let _ ← ctx.require .viewer
  match bucketParams window bucketSize with
  | none => return none
  | some (windowDur, bucketDur) => do
      let _ ← ctx.call (.flagByKey projectID flagKey)
      let now ← ctx.call .now
      -- Both ends of the series count, so the window begins one slot later.
      let since := dateTrunc bucketDur now + bucketDur - windowDur
      let raw ← ctx.call (.evaluationBuckets projectID environmentID flagKey since bucketSize)
      return some ⟨flagKey, envSlug, window, bucketSize, raw⟩

end EvaluationStatsService

end Cuttlegate
