import Cuttlegate.App.EvaluationService
import Cuttlegate.Sdk.Caches

/-!
# From the Server to the Clients

What the handler of the bulk evaluation endpoint makes of the views the
service returns, in the terms in which the clients read it.

## Main definitions

* `EvalReason.text`: The reason as sent.
* `Sdk.evaluateResponse`, `Sdk.evaluateAllResponse`: The response.
-/

namespace Cuttlegate

def EvalReason.text : EvalReason → String
  | .disabled => "disabled"
  | .default => "default"
  | .ruleMatch => "rule_match"

namespace Sdk

def evaluateResponse (v : EvalView) : BulkFlag where
  key := v.key
  enabled := v.enabled
  value := v.value
  valueKey := v.valueKey
  reason := v.reason.text
  type := v.type.text

/-- The response to a bulk evaluation. How a time is written is a parameter. -/
def evaluateAllResponse (format : Time → String) (out : List EvalView × Time) : BulkResponse where
  flags := out.1.map evaluateResponse
  evaluatedAt := format out.2

end Sdk

end Cuttlegate
