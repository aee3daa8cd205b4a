import Cuttlegate.Sdk.Caches

/-!
# The Plain Clients of Go and Python

The clients that ask the server for all flags each time, with the ways a
request can end told apart: nothing comes back, it takes too long, or there is
a response, whose body may break off while it is read, may not decode, or may
decode.

The Go client makes its request in one place and adds the defaults in another,
which `EvaluateAll` goes through and the methods for a single flag do not. All
methods of the Python client go through `evaluate_all`.

A Python body is not checked against a schema. What is not JSON and what lacks
a required field is reported as an error of the library; other shapes raise
whatever they raise.

## Main definitions

* `Sdk.Outcome`, `Sdk.Outcome.reply`: How a request ends, and what the Go
  client tells apart of it.
* `Sdk.Go.evaluateFlag`: The method for a single flag which is not in
  `Caches`.
* `Sdk.Python.Answer`, `Sdk.Python.evaluateAll`: The Python client.
-/

namespace Cuttlegate.Sdk

/-- What is received of the body of a response. -/
inductive Received where
  | decoded (r : BulkResponse)
  | undecodable
  /-- The connection breaks, or the time is up, before the body is there. -/
  | interrupted
  deriving DecidableEq, Repr

/-- How a request ends. -/
inductive Outcome where
  | unreachable
  | timedOut
  | answered (status : Nat) (body : Received)
  deriving DecidableEq, Repr

/-- What the Go client tells apart. -/
def Outcome.reply : Outcome → Reply
  | .unreachable => .failed
  | .timedOut => .failed
  | .answered status (.decoded r) => .answered status (some r)
  | .answered status _ => .answered status none

/-! ## Go -/

namespace Go

/-- The answer of `EvaluateFlag`. -/
structure FlagResult where
  enabled : Bool
  value : String
  variant : String
  reason : String
  deriving DecidableEq, Repr

/-- A missing flag is an answer of its own, not an error. -/
def flagResult : Option (EvalResult String) → FlagResult
  | none => { enabled := false, value := "", variant := "", reason := "not_found" }
  | some r => { enabled := r.enabled, value := r.value, variant := r.variant, reason := r.reason }

def evaluateFlag (reply : Reply) (key : String) : Except ClientErr FlagResult := do
  let results ← doBulkEval reply
  .ok (flagResult (results key))

end Go

/-! ## Python -/

namespace Python

/-- The body of a response. -/
inductive Body where
  /-- No JSON. -/
  | invalid
  /-- A flag lacks a required field. -/
  | incomplete (fieldName : String)
  /-- JSON of another shape. -/
  | alien
  | parsed (r : BulkResponse)
  deriving DecidableEq, Repr

/-- What comes back for a request. -/
inductive Answer where
  | failed
  | answered (status : Nat) (body : Body)
  deriving DecidableEq, Repr

/-- What a method raises: an error of the library, or another exception. -/
inductive Raised where
  | sdk (err : ClientErr)
  | other
  deriving DecidableEq, Repr

/-- The request, up to the JSON of its response. -/
def doPost : Answer → Except Raised Body
  | .failed => .error (.sdk .request)
  | .answered status body =>
      if status = 401 ∨ status = 403 then .error (.sdk (.auth status))
      else if status = 404 then .error (.sdk .projectNotFound)
      else if status ≥ 500 then .error (.sdk (.server status))
      else if status ≠ 200 then .error (.sdk (.unexpected status))
      else if body = .invalid then .error (.sdk .decode)
      else .ok body

/-- The results in the JSON of a response. -/
def parseBody : Body → Except Raised (Cache String)
  | .parsed r => .ok (parseBulkResponse r)
  | .incomplete _ => .error (.sdk .decode)
  | _ => .error .other

/-- The defaults, as results. -/
def defaultsAsResults (defaults : List (String × Go.FlagDefault)) : Cache String :=
  Feed.fill (·.1) (fun d =>
    { key := d.1, enabled := d.2.enabled, value := "", variant := d.2.variant
      reason := "default_fallback", evaluatedAt := "" }) defaults

/-- All flags. An error of the library other than a refused token is covered by
    the defaults, if there are any. -/
def evaluateAll (defaults : List (String × Go.FlagDefault)) (answer : Answer) :
    Except Raised (Cache String) :=
  match doPost answer >>= parseBody with
  | .ok results => .ok results
  | .error (.sdk (.auth status)) => .error (.sdk (.auth status))
  | .error (.sdk e) =>
      if defaults.length > 0 then .ok (defaultsAsResults defaults) else .error (.sdk e)
  | .error .other => .error .other

/-- The record for a key, among the results. -/
def pick (results : Cache String) (key : String) : Except Raised (EvalResult String) :=
  match results key with
  | some r => .ok r
  | none => .error (.sdk (.flagNotFound key))

def evaluate (defaults : List (String × Go.FlagDefault)) (answer : Answer) (key : String) :
    Except Raised (EvalResult String) := do
  pick (← evaluateAll defaults answer) key

def bool (defaults : List (String × Go.FlagDefault)) (answer : Answer) (key : String) :
    Except Raised Bool := do
  let result ← evaluate defaults answer key
  .ok (result.variant == "true")

def string (defaults : List (String × Go.FlagDefault)) (answer : Answer) (key : String) :
    Except Raised String := do
  let result ← evaluate defaults answer key
  .ok result.variant

end Python

end Cuttlegate.Sdk
