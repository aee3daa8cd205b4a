import Cuttlegate.Domain.Access
import Cuttlegate.Domain.Evaluator
import Cuttlegate.Lib.Json

/-!
# Reading Requests

The parts of request bodies that more than one handler reads, and the texts of
the enumerations that occur in them.

## Main definitions

* `Operator.ofText`, `ToolCapabilityTier.ofText`, `FlagType.ofText`: Enumerations as sent.
* `decodeEvalContext`: The user of an evaluation.
* `decodeCondition`, `decodeRolloutEntry`: The parts of a rule.
* `RuleBody`, `EvaluateBody`, `FlagBody`, `EnvironmentBody` and the others: Bodies.
-/

namespace Cuttlegate

def ToolCapabilityTier.text : ToolCapabilityTier → String
  | .read => "read"
  | .write => "write"
  | .destructive => "destructive"
  | .other name => name

/-- The tier of a text; any text is one. -/
def ToolCapabilityTier.ofText (text : String) : ToolCapabilityTier :=
  if text = "read" then .read
  else if text = "write" then .write
  else if text = "destructive" then .destructive
  else .other text

/-- The flag type of a text; any text is one. -/
def FlagType.ofText (text : String) : FlagType :=
  if text = "bool" then .bool
  else if text = "string" then .string
  else if text = "number" then .number
  else if text = "json" then .json
  else .other text

/-- The operator of a text; any text is one. -/
def Operator.ofText (text : String) : Operator :=
  match [Operator.eq, .neq, .contains, .startsWith, .endsWith, .isIn, .notIn, .inSegment,
    .notInSegment].find? (fun op => op.text == text) with
  | some op => op
  | none => .unsupported text

/-- The user of an evaluation, as it is sent; no attributes and an empty list
    of them are the same. -/
def decodeEvalContext (old : EvalContext) : Json → Option EvalContext :=
  Json.decodeRecord (fun key v r =>
    if Json.named "user_id" key then
      (Json.decodeString r.userID v).map (fun s => { r with userID := s })
    else if Json.named "attributes" key then
      (Json.decodeStringMap r.attributes v).map (fun m => { r with attributes := m })
    else some r) old

/-- The body of an evaluation request. -/
structure EvaluateBody where
  context : Option EvalContext := none

def EvaluateBody.decode : Json → Option EvaluateBody :=
  Json.decodeRecord (fun key v r =>
    if Json.named "context" key then
      match v with
      | .null => some { r with context := none }
      | v => (decodeEvalContext (r.context.getD ⟨"", fun _ => none⟩) v).map
          (fun c => { r with context := some c })
    else some r) {}

def decodeCondition : Json → Option Condition :=
  Json.decodeRecord (fun key v r =>
    if Json.named "attribute" key then
      (Json.decodeString r.attr v).map (fun s => { r with attr := s })
    else if Json.named "operator" key then
      (Json.decodeString r.operator.text v).map (fun s => { r with operator := .ofText s })
    else if Json.named "values" key then
      (Json.decodeList (Json.decodeString "") v).map (fun l => { r with values := l })
    else some r) ⟨"", .ofText "", []⟩

def decodeRolloutEntry : Json → Option RolloutEntry :=
  Json.decodeRecord (fun key v r =>
    if Json.named "variantKey" key then
      (Json.decodeString r.variantKey v).map (fun s => { r with variantKey := s })
    else if Json.named "weight" key then
      (Json.decodeInt r.weight.toInt v).map (fun i => { r with weight := .ofInt i })
    else some r) ⟨"", 0⟩

/-- The body of a rule update. -/
structure RuleBody where
  conditions : List Condition := []
  variantKey : String := ""
  rollout : List RolloutEntry := []
  priority : Int := 0
  enabled : Bool := false
  name : String := ""
  deriving DecidableEq, Repr

def RuleBody.decode : Json → Option RuleBody :=
  Json.decodeRecord (fun key v r =>
    if Json.named "conditions" key then
      (Json.decodeList decodeCondition v).map (fun l => { r with conditions := l })
    else if Json.named "variantKey" key then
      (Json.decodeString r.variantKey v).map (fun s => { r with variantKey := s })
    else if Json.named "rollout" key then
      (Json.decodeList decodeRolloutEntry v).map (fun l => { r with rollout := l })
    else if Json.named "priority" key then
      (Json.decodeInt r.priority v).map (fun i => { r with priority := i })
    else if Json.named "enabled" key then
      (Json.decodeBool r.enabled v).map (fun b => { r with enabled := b })
    else if Json.named "name" key then
      (Json.decodeString r.name v).map (fun s => { r with name := s })
    else some r) {}

/-- The rule an update asks for. -/
def RuleBody.toRule (b : RuleBody) (id flagID environmentID : String) : Rule where
  id := id
  flagID := flagID
  environmentID := environmentID
  name := b.name
  priority := b.priority
  conditions := b.conditions
  variantKey := b.variantKey
  rollout := b.rollout
  enabled := b.enabled
  createdAt := 0

/-- The body of a tier change: the tier as text. -/
def decodeTierBody : Json → Option String :=
  Json.decodeRecord (fun key v r =>
    if Json.named "capability_tier" key then Json.decodeString r v else some r) ""

/-- The body of a toggle, whose value may be missing. -/
def decodeEnabledBody : Json → Option (Option Bool) :=
  Json.decodeRecord (fun key v r =>
    if Json.named "enabled" key then
      match v with
      | .null => some none
      | v => (Json.decodeBool false v).map some
    else some r) none

def decodeVariant : Json → Option Variant :=
  Json.decodeRecord (fun key v r =>
    if Json.named "key" key then (Json.decodeString r.key v).map (fun s => { r with key := s })
    else if Json.named "name" key then
      (Json.decodeString r.name v).map (fun s => { r with name := s })
    else some r) ⟨"", ""⟩

/-- The body of a flag creation. -/
structure FlagBody where
  key : String := ""
  name : String := ""
  type : String := ""
  variants : List Variant := []
  defaultVariantKey : String := ""
  deriving DecidableEq, Repr

def FlagBody.decode : Json → Option FlagBody :=
  Json.decodeRecord (fun key v r =>
    if Json.named "key" key then (Json.decodeString r.key v).map (fun s => { r with key := s })
    else if Json.named "name" key then
      (Json.decodeString r.name v).map (fun s => { r with name := s })
    else if Json.named "type" key then
      (Json.decodeString r.type v).map (fun s => { r with type := s })
    else if Json.named "variants" key then
      (Json.decodeList decodeVariant v).map (fun l => { r with variants := l })
    else if Json.named "default_variant_key" key then
      (Json.decodeString r.defaultVariantKey v).map (fun s => { r with defaultVariantKey := s })
    else some r) {}

/-- The flag a creation asks for; without a name it is named by its key. -/
def FlagBody.toFlag (b : FlagBody) (projectID : String) : Flag where
  id := ""
  projectID := projectID
  key := b.key
  name := if b.name = "" then b.key else b.name
  type := .ofText b.type
  variants := b.variants
  defaultVariantKey := b.defaultVariantKey
  createdAt := 0

/-- The body of a flag update: the fields to change. -/
structure FlagPatch where
  name : Option String := none
  variants : Option (List Variant) := none
  defaultVariantKey : Option String := none
  deriving DecidableEq, Repr

def FlagPatch.decode : Json → Option FlagPatch :=
  Json.decodeRecord (fun key v r =>
    if Json.named "name" key then
      (Json.decodePointer (Json.decodeString "") v).map (fun o => { r with name := o })
    else if Json.named "variants" key then
      (Json.decodePointer (Json.decodeList decodeVariant) v).map
        (fun o => { r with variants := o })
    else if Json.named "default_variant_key" key then
      (Json.decodePointer (Json.decodeString "") v).map
        (fun o => { r with defaultVariantKey := o })
    else some r) {}

/-- The flag with the given fields changed. -/
def FlagPatch.apply (b : FlagPatch) (f : Flag) : Flag :=
  { f with name := b.name.getD f.name, variants := b.variants.getD f.variants
           defaultVariantKey := b.defaultVariantKey.getD f.defaultVariantKey }

/-- The body of an environment creation. -/
structure EnvironmentBody where
  name : String := ""
  slug : String := ""
  deriving DecidableEq, Repr

def EnvironmentBody.decode : Json → Option EnvironmentBody :=
  Json.decodeRecord (fun key v r =>
    if Json.named "name" key then (Json.decodeString r.name v).map (fun s => { r with name := s })
    else if Json.named "slug" key then
      (Json.decodeString r.slug v).map (fun s => { r with slug := s })
    else some r) {}

end Cuttlegate
