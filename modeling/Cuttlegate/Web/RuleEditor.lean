import Cuttlegate.Domain.Rule
import Cuttlegate.Sdk.Readers

/-!
# The Rule Editor

The form of the web interface in which the name, the conditions and the outcome
of a rule are edited, for a new rule and for one that is there.

The form is controlled: what an input shows is computed from the draft, and
what the user does to it replaces the draft. The values of a condition are one
text input, or a choice among the segments when the operator looks at segments.
The input shows the values with commas between them, and when its text changes
the values become what the new text reads as.

A text is a list of characters. A keystroke puts a character at the end of the
text that is shown.

## Main definitions

* `RuleDraft`: The draft.
* `RuleDraft.updateCondition`, `RuleDraft.addCondition`: What the form does to
  the conditions.
* `shownValues`, `parseValues`: The text of the values, and its reading.
* `RuleDraft.keystroke`, `RuleDraft.typed`: Typing into the input of the values.
-/

namespace Cuttlegate

/-- A rule without its identifier and its date. -/
structure RuleDraft where
  name : String
  priority : Int
  conditions : List Condition
  variantKey : String
  rollout : Option (List RolloutEntry)
  enabled : Bool
  deriving DecidableEq, Repr

/-- The fields of a condition to be replaced. -/
structure ConditionPatch where
  attr : Option String := none
  operator : Option Operator := none
  values : Option (List String) := none

/-- A condition with some fields replaced. Another operator starts from no
    values. -/
def Condition.patched (c : Condition) (patch : ConditionPatch) : Condition :=
  { attr := patch.attr.getD c.attr
    operator := patch.operator.getD c.operator
    values :=
      if patch.operator.any (fun operator => operator != c.operator) then []
      else patch.values.getD c.values }

/-- The text of the input. -/
def shownValues (values : List String) : List Char := (", ".intercalate values).toList

/-- The values of a text. -/
def parseValues (text : List Char) : List String :=
  ((text.splitOn ',').map (fun v => String.ofList (Sdk.trimWith Sdk.Js.isSpace v))).filter
    (fun v => v != "")

namespace RuleDraft

variable (draft : RuleDraft) (i : Nat)

def updateCondition (patch : ConditionPatch) : RuleDraft :=
  { draft with
    conditions := draft.conditions.mapIdx (fun idx c => if idx ≠ i then c else c.patched patch) }

def addCondition : RuleDraft :=
  { draft with conditions := draft.conditions ++ [⟨"", .eq, [""]⟩] }

/-- The text in the input of a condition becomes another one. -/
def enter (text : List Char) : RuleDraft :=
  draft.updateCondition i { values := some (parseValues text) }

/-- A character is typed at the end of what the input of a condition shows.
    Without that input nothing happens. -/
def keystroke (c : Char) : RuleDraft :=
  match draft.conditions[i]? with
  | some condition =>
      if condition.isSegmentOp then draft
      else draft.enter i (shownValues condition.values ++ [c])
  | none => draft

/-- The characters of a text are typed, one at a time. -/
def typed (text : List Char) : RuleDraft := text.foldl (fun d c => d.keystroke i c) draft

end RuleDraft

end Cuttlegate
