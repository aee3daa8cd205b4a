import Cuttlegate.Lib.Feed

/-!
# The Client Libraries and Their Caches

The Go, JavaScript and Python client libraries. Each has a plain client, which
asks the server for all flags and picks one, and a cached client, which asks
once, keeps the answer, and changes it when the stream announces that a flag
was turned on or off.

All three read the same response and the same announcements, and each in its
own way. Go and JavaScript take the variant from `value_key` and fall back to
`value` where it is empty; Python takes `value_key` alone. On an announcement
Go sets the variant along with the state, JavaScript keeps the variant and
sets the reason, Python changes the state only. For a boolean answer Go and
JavaScript look at the variant, Python at the state.

A cache is the map from flag keys to records. The two languages whose cached
client turns to the plain one for a key it does not hold take its answer as a
parameter.

## Main definitions

* `Sdk.BulkResponse`: The response of the bulk evaluation endpoint.
* `Sdk.WireEvent`: What the stream announces.
* `Sdk.EvalResult`, `Sdk.Cache`: A cached record, and a cache.
* `Sdk.Go`, `Sdk.Js`, `Sdk.Python`: The libraries.
-/

namespace Cuttlegate.Sdk

/-- One flag of the response of the bulk evaluation endpoint. -/
structure BulkFlag where
  key : String
  enabled : Bool
  value : Option String
  valueKey : String
  reason : String
  type : String
  deriving DecidableEq, Repr

structure BulkResponse where
  flags : List BulkFlag
  evaluatedAt : String
  deriving DecidableEq, Repr

/-- The JSON object of a `data:` line of the stream. -/
structure WireEvent where
  type : String
  project : String
  environment : String
  flagKey : String
  enabled : Bool
  occurredAt : String
  deriving DecidableEq, Repr

/-- The type of the announcements that a flag was turned on or off. -/
def sseEventType : String := "flag.state_changed"

/-- A cached record. JavaScript keeps an absent value as it is, the other two
    replace it by the empty string. -/
structure EvalResult (Value : Type) where
  key : String
  enabled : Bool
  value : Value
  variant : String
  reason : String
  evaluatedAt : String
  deriving DecidableEq, Repr

abbrev Cache (Value : Type) := String → Option (EvalResult Value)

/-- The text of a value that may be absent. -/
def BulkFlag.valueText (f : BulkFlag) : String := f.value.getD ""

/-- The variant of a flag for a reader that falls back to the value, as one
    must for a server that does not send `value_key`. -/
def BulkFlag.variant (f : BulkFlag) : String :=
  if f.valueKey = "" then f.valueText else f.valueKey

/-- How an evaluation request can end short of a usable response. -/
inductive ClientErr where
  | request
  | auth (status : Nat)
  | projectNotFound
  | server (status : Nat)
  | unexpected (status : Nat)
  | decode
  | flagNotFound (key : String)
  deriving DecidableEq, Repr

/-- What comes back for a POST to the bulk evaluation endpoint: nothing, or a
    status and a body, which may not decode. -/
inductive Reply where
  | failed
  | answered (status : Nat) (body : Option BulkResponse)

/-! ## Go -/

namespace Go

/-- A flag of the response as the client keeps it. -/
def resultOf (evaluatedAt : String) (f : BulkFlag) : EvalResult String where
  key := f.key
  enabled := f.enabled
  value := f.valueText
  variant := f.variant
  reason := f.reason
  evaluatedAt := evaluatedAt

/-- The loop over the flags of a decoded response. -/
def results (parsed : BulkResponse) : Cache String :=
  Feed.fill (·.key) (resultOf parsed.evaluatedAt) parsed.flags

/-- The bulk request, given what came back for it. -/
def doBulkEval : Reply → Except ClientErr (Cache String)
  | .failed => .error .request
  | .answered status body =>
      if status = 401 ∨ status = 403 then .error (.auth status)
      else if status = 404 then .error .projectNotFound
      else if status ≥ 500 then .error (.server status)
      else if status ≠ 200 then .error (.unexpected status)
      else match body with
        | none => .error .decode
        | some parsed => .ok (results parsed)

/-- The value a flag falls back to when the server cannot be reached. -/
structure FlagDefault where
  enabled : Bool
  variant : String
  deriving DecidableEq, Repr

def defaultResults (defaults : List (String × FlagDefault)) : Cache String :=
  Feed.fill (·.1) (fun d =>
    { key := d.1, enabled := d.2.enabled, value := "", variant := d.2.variant
      reason := "default_fallback", evaluatedAt := "" }) defaults

/-- All flags. Any failure but a refused token is covered by the defaults, if
    there are any. -/
def evaluateAll (defaults : List (String × FlagDefault)) (reply : Reply) :
    Except ClientErr (Cache String) :=
  match doBulkEval reply with
  | .ok found => .ok found
  | .error (.auth status) => .error (.auth status)
  | .error e => if defaults.length > 0 then .ok (defaultResults defaults) else .error e

def evaluate (reply : Reply) (key : String) : Except ClientErr (EvalResult String) := do
  match (← doBulkEval reply) key with
  | some r => .ok r
  | none => .error (.flagNotFound key)

/-- The boolean answer of the plain client. -/
def bool (reply : Reply) (key : String) : Except ClientErr Bool := do
  let result ← evaluate reply key
  .ok (result.variant == "true")

/-- The string answer of the plain client. -/
def string (reply : Reply) (key : String) : Except ClientErr String := do
  let result ← evaluate reply key
  .ok result.variant

/-- The cache after a bootstrap. When no flags come, what the store kept from
    an earlier time takes their place, unless it kept nothing. -/
def bootstrap (defaults : List (String × FlagDefault)) (loaded : Option (List (EvalResult String)))
    (reply : Reply) : Except ClientErr (Cache String) :=
  match evaluateAll defaults reply with
  | .ok found => .ok found
  | .error e =>
      match loaded with
      | none => .error e
      | some entries =>
          if entries.length = 0 then .error e else .ok (Feed.fill (·.key) (fun r => r) entries)

/-- What an announcement does to the record of its flag. -/
def update (wire : WireEvent) (existing : EvalResult String) : EvalResult String :=
  { existing with
    enabled := wire.enabled
    variant := if wire.enabled = true then "true" else "false" }

def applyCacheUpdate (wire : WireEvent) (cache : Cache String) : Cache String :=
  Feed.modify wire.flagKey (update wire) cache

/-- The cache after the announcements of a stream. -/
def applyAll (events : List WireEvent) (cache : Cache String) : Cache String :=
  events.foldl (fun c wire => applyCacheUpdate wire c) cache

/-- The boolean answer of the cached client. -/
def cachedBool (inner : String → Except ClientErr Bool) (cache : Cache String) (key : String) :
    Except ClientErr Bool :=
  match cache key with
  | some result => .ok (result.variant == "true")
  | none => inner key

/-- The string answer of the cached client. -/
def cachedString (inner : String → Except ClientErr String) (cache : Cache String) (key : String) :
    Except ClientErr String :=
  match cache key with
  | some result => .ok result.variant
  | none => inner key

end Go

/-! ## JavaScript -/

namespace Js

/-- The cache after a response of the bulk evaluation endpoint. -/
def populateCache (data : BulkResponse) : Cache (Option String) :=
  Feed.fill (·.key) (fun f =>
    { key := f.key, enabled := f.enabled, value := f.value, variant := f.variant
      reason := f.reason, evaluatedAt := data.evaluatedAt }) data.flags

/-- The cache filled with the records a store kept. -/
def restoreCache (entries : List (EvalResult (Option String))) : Cache (Option String) :=
  Feed.fill (·.key) (fun r => r) entries

/-- What an announcement does to the record of its flag. -/
def update (event : WireEvent) (existing : EvalResult (Option String)) :
    EvalResult (Option String) :=
  { existing with enabled := event.enabled, reason := "default" }

def applyCacheEvent (event : WireEvent) (cache : Cache (Option String)) : Cache (Option String) :=
  Feed.modify event.flagKey (update event) cache

/-- The cache after the announcements of a stream. -/
def applyAll (events : List WireEvent) (cache : Cache (Option String)) : Cache (Option String) :=
  events.foldl (fun c event => applyCacheEvent event c) cache

/-- The record for a key. An unknown key has no HTTP fallback. -/
def evaluate (cache : Cache (Option String)) (key : String) : EvalResult (Option String) :=
  match cache key with
  | some entry => entry
  | none =>
      { key := key, enabled := false, value := none, variant := "", reason := "not_found"
        evaluatedAt := "" }

def bool (cache : Cache (Option String)) (key : String) : Bool :=
  (evaluate cache key).variant == "true"

def string (cache : Cache (Option String)) (key : String) : String :=
  (evaluate cache key).variant

end Js

/-! ## Python -/

namespace Python

/-- The results of a response all of whose flags have the required fields. -/
def parseBulkResponse (body : BulkResponse) : Cache String :=
  Feed.fill (·.key) (fun f =>
    { key := f.key, enabled := f.enabled, value := f.valueText, variant := f.valueKey
      reason := f.reason, evaluatedAt := body.evaluatedAt }) body.flags

/-- What an announcement does to the record of its flag. -/
def update (event : WireEvent) (existing : EvalResult String) : EvalResult String :=
  { existing with enabled := event.enabled }

def applyEvent (event : WireEvent) (cache : Cache String) : Cache String :=
  Feed.modify event.flagKey (update event) cache

/-- The cache after the announcements of a stream. -/
def applyAll (events : List WireEvent) (cache : Cache String) : Cache String :=
  events.foldl (fun c event => applyEvent event c) cache

/-- The boolean answer of the cached client. -/
def cachedBool (inner : String → Except ClientErr Bool) (cache : Cache String) (key : String) :
    Except ClientErr Bool :=
  match cache key with
  | some result => .ok result.enabled
  | none => inner key

/-- The string answer of the cached client. -/
def cachedString (inner : String → Except ClientErr String) (cache : Cache String) (key : String) :
    Except ClientErr String :=
  match cache key with
  | some result => .ok result.variant
  | none => inner key

end Python

end Cuttlegate.Sdk
