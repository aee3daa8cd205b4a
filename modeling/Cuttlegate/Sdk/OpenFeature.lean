import Cuttlegate.Sdk.Evaluation

/-!
# The OpenFeature Providers

Each of the three libraries has a provider that answers to the interface of
OpenFeature with a plain client. A provider turns the context it is given into
the user of an evaluation, asks its client, and puts the answer, or the default
of the caller, into a record.

The context comes flattened: its targeting key is an entry like the others. The
JavaScript and the Python provider keep the entries that are strings. The Go
provider keeps all of them. It is also the only one that looks at the type of
the targeting key; to the other two it is declared a string, and they send it
as it is.

A Python context has its targeting key apart. It is given here flattened as
well, as long as no attribute has that name.

The text of an error is taken to be the error. The Go provider answers every
question for a number or an object with the default, without asking, which is
left out.

## Main definitions

* `Sdk.OpenFeature.FlattenedContext`, `Sdk.OpenFeature.EvaluationContext`: The
  context.
* `Sdk.OpenFeature.ResolutionDetail`, `Sdk.OpenFeature.resolve`,
  `Sdk.OpenFeature.resolveParsed`: The record.
* `Sdk.OpenFeature.Go`, `Sdk.OpenFeature.Js`, `Sdk.OpenFeature.Python`: The
  providers.
-/

namespace Cuttlegate.Sdk.OpenFeature

/-- The entries of a context, a map. -/
structure FlattenedContext where
  entries : List (String × Json)
  keys : (entries.map Prod.fst).Nodup

namespace FlattenedContext

/-- The targeting key, where it is a string. -/
def targetingKey (fc : FlattenedContext) : String :=
  match (fc.entries.find? (fun a => a.1 == "targetingKey")).map Prod.snd with
  | some (.str s) => s
  | _ => ""

/-- The entries that are no targeting key and are kept. -/
def attributes (fc : FlattenedContext) (kept : Json → Bool) : List (String × Json) :=
  fc.entries.filter (fun a => a.1 != "targetingKey" && kept a.2)

theorem attributes_keys (fc : FlattenedContext) (kept : Json → Bool) :
    ((fc.attributes kept).map Prod.fst).Nodup :=
  List.Nodup.sublist (List.filter_sublist.map _) fc.keys

/-- The user of the evaluation, with the attributes that are kept. -/
def evalContext (fc : FlattenedContext) (kept : Json → Bool) : EvalContext where
  userID := fc.targetingKey
  attributes := some (fc.attributes kept)
  keys := fc.attributes_keys kept

end FlattenedContext

/-- The value is a string. -/
def isString : Json → Bool
  | .str _ => true
  | _ => false

/-- A context as JavaScript and Python declare it: the targeting key is a
    string. -/
structure EvaluationContext extends FlattenedContext where
  key : ∀ a ∈ entries, a.1 = "targetingKey" → isString a.2 = true

inductive Reason where
  | targetingMatch
  | error
  deriving DecidableEq, Repr

inductive ErrorCode where
  | general
  | parseError
  deriving DecidableEq, Repr

/-- Why the default is answered: the client has failed, or its answer cannot be
    parsed. -/
inductive Failure (ε : Type) where
  | client (err : ε)
  | unparsable (result : String)
  deriving DecidableEq, Repr

/-- What a provider answers. -/
structure ResolutionDetail (ε α : Type) where
  value : α
  variant : Option String
  reason : Reason
  error : Option (ErrorCode × Failure ε)
  deriving DecidableEq, Repr

/-- A value with its variant. -/
def ResolutionDetail.matched {ε α : Type} (val : α) (variant : String) : ResolutionDetail ε α :=
  ⟨val, some variant, .targetingMatch, none⟩

/-- The default of the caller. -/
def ResolutionDetail.failed {ε α : Type} (defaultValue : α) (code : ErrorCode)
    (failure : Failure ε) : ResolutionDetail ε α :=
  ⟨defaultValue, none, .error, some (code, failure)⟩

/-- The answer for what the client has returned. -/
def resolve {ε α : Type} (variant : α → String) (defaultValue : α) :
    Except ε α → ResolutionDetail ε α
  | .ok val => .matched val (variant val)
  | .error err => .failed defaultValue .general (.client err)

/-- The same for a value that is parsed from a string. -/
def resolveParsed {ε α : Type} (parse : String → Option α) (code : ErrorCode) (defaultValue : α) :
    Except ε String → ResolutionDetail ε α
  | .ok result =>
      match parse result with
      | some val => .matched val result
      | none => .failed defaultValue code (.unparsable result)
  | .error err => .failed defaultValue .general (.client err)

/-- The variant of a boolean value. -/
def boolVariant (val : Bool) : String := if val then "true" else "false"

/-! ## Go -/

namespace Go

def toEvalContext (fc : FlattenedContext) : EvalContext := fc.evalContext (fun _ => true)

variable (ask : EvalContext → Reply) (flag : String)

def BooleanEvaluation (defaultValue : Bool) (fc : FlattenedContext) :
    ResolutionDetail ClientErr Bool :=
  resolve boolVariant defaultValue (Sdk.Go.bool (ask (toEvalContext fc)) flag)

def StringEvaluation (defaultValue : String) (fc : FlattenedContext) :
    ResolutionDetail ClientErr String :=
  resolve (fun val => val) defaultValue (Sdk.Go.string (ask (toEvalContext fc)) flag)

end Go

/-! ## JavaScript -/

namespace Js

open Sdk.Js (Answer CuttlegateError)

def toEvalContext (ctx : EvaluationContext) : EvalContext := ctx.evalContext isString

variable (timeout : Nat) (defaults : List (String × Sdk.Go.FlagDefault))
  (ask : EvalContext → Answer) (flagKey : String)

def resolveBooleanEvaluation (defaultValue : Bool) (ctx : EvaluationContext) :
    ResolutionDetail CuttlegateError Bool :=
  resolve boolVariant defaultValue
    (Sdk.Js.createClient.bool timeout defaults (ask (toEvalContext ctx)) flagKey)

def resolveStringEvaluation (defaultValue : String) (ctx : EvaluationContext) :
    ResolutionDetail CuttlegateError String :=
  resolve (fun val => val) defaultValue
    (Sdk.Js.createClient.string timeout defaults (ask (toEvalContext ctx)) flagKey)

/-- Numbers, as `Number` reads them. -/
def resolveNumberEvaluation {α : Type} (number : String → Option α) (defaultValue : α)
    (ctx : EvaluationContext) : ResolutionDetail CuttlegateError α :=
  resolveParsed number .parseError defaultValue
    (Sdk.Js.createClient.string timeout defaults (ask (toEvalContext ctx)) flagKey)

/-- Objects, as `JSON.parse` reads them. -/
def resolveObjectEvaluation (parse : String → Option Json) (defaultValue : Json)
    (ctx : EvaluationContext) : ResolutionDetail CuttlegateError Json :=
  resolveParsed parse .general defaultValue
    (Sdk.Js.createClient.string timeout defaults (ask (toEvalContext ctx)) flagKey)

end Js

/-! ## Python -/

namespace Python

open Sdk.Python (Answer Raised)

def evalContext (ctx : EvaluationContext) : EvalContext := ctx.evalContext isString

variable (defaults : List (String × Sdk.Go.FlagDefault)) (ask : EvalContext → Answer)
  (flagKey : String)

def resolveBooleanDetails (defaultValue : Bool) (ctx : EvaluationContext) :
    ResolutionDetail Raised Bool :=
  resolve boolVariant defaultValue (Sdk.Python.bool defaults (ask (evalContext ctx)) flagKey)

def resolveStringDetails (defaultValue : String) (ctx : EvaluationContext) :
    ResolutionDetail Raised String :=
  resolve (fun val => val) defaultValue (Sdk.Python.string defaults (ask (evalContext ctx)) flagKey)

/-- Integers, numbers and objects, as `int`, `float` and `json.loads` read
    them. -/
def resolveParsedDetails {α : Type} (parse : String → Option α) (defaultValue : α)
    (ctx : EvaluationContext) : ResolutionDetail Raised α :=
  resolveParsed parse .general defaultValue
    (Sdk.Python.string defaults (ask (evalContext ctx)) flagKey)

end Python

end Cuttlegate.Sdk.OpenFeature
