import Cuttlegate.Lib.Steps
import Cuttlegate.Sdk.CachedClient
import Cuttlegate.Sdk.CachedClients

/-!
# The Provider of React

`CuttlegateProvider` against a server that holds one bit for each flag, told of
toggles by a stream as in the cached clients.

On mount the provider asks for all flags and opens the stream, and each
connection of the stream after the first attempt asks again. It has no buffer:
every response replaces the flags by its own, whatever the stream has delivered
in the meantime, and an announcement is entered for a flag that is not there
too. When a request is rejected the flags stay, and the first one ends the
loading.

The requests go through the plain client, whose `evaluateAll` may also resolve
with the defaults it was configured with. The snapshot behind a response has
all flags that are on.

## Main definitions

* `Js.Answer`, `Js.evaluateAll`: What comes back for a request, and what the
  plain client makes of it.
* `FlagState`, `useFlag`: The state of the provider, and what a component is
  shown.
* `Provider`, `Provider.step`: The provider with its server.
-/

namespace Cuttlegate.Sdk

/-! ## The plain client -/

namespace Js

open ConnectionLoop (isOk)
open Go (FlagDefault)

/-- The body of a response. -/
inductive ResponseBody where
  | invalid
  /-- JSON, but not what the schema says. -/
  | unexpected
  | parsed (data : BulkResponse)
  deriving DecidableEq, Repr

/-- What comes back for a request of the plain client. -/
inductive Answer where
  | failed (cause : Failure)
  | answered (status : Nat) (body : ResponseBody)
  deriving DecidableEq, Repr

def defaultFallbacks (defaults : List (String × FlagDefault)) : List (EvalResult (Option String)) :=
  defaults.map (fun d =>
    { key := d.1, enabled := d.2.enabled, value := none, variant := d.2.variant
      reason := "default_fallback", evaluatedAt := "" })

/-- The results of a response. -/
def resultsOf (data : BulkResponse) : List (EvalResult (Option String)) :=
  data.flags.map (fun f =>
    { key := f.key, enabled := f.enabled, value := f.value, variant := f.variant
      reason := f.reason, evaluatedAt := data.evaluatedAt })

/-- All flags. The defaults, if there are any, take the place of a response
    that does not come and of an error of the server. -/
def evaluateAll (timeout : Nat) (defaults : List (String × FlagDefault)) :
    Answer → Except CuttlegateError (List (EvalResult (Option String)))
  | .failed cause =>
      if defaults.length > 0 then .ok (defaultFallbacks defaults)
      else match cause with
        | .aborted => .error ⟨"timeout", "Request timed out after " ++ toString timeout ++ "ms"⟩
        | .error message => .error ⟨"network_error", message⟩
  | .answered status body =>
      if status = 401 then .error ⟨"unauthorized", "Server returned 401 Unauthorized"⟩
      else if status = 403 then .error ⟨"forbidden", "Server returned 403 Forbidden"⟩
      else if isOk status = false then
        if defaults.length > 0 ∧ status ≥ 500 then .ok (defaultFallbacks defaults)
        else .error ⟨"network_error", "Server returned " ++ toString status⟩
      else match body with
        | .invalid => .error ⟨"invalid_response", "Response is not valid JSON"⟩
        | .unexpected =>
            .error ⟨"invalid_response", "Server returned an unexpected response shape"⟩
        | .parsed data => .ok (resultsOf data)

end Js

/-! ## The provider -/

/-- The state of the provider. -/
structure FlagState where
  flags : Cache (Option String) := fun _ => none
  loading : Bool := true

/-- What a component is shown of a flag. -/
structure ShownFlag where
  enabled : Bool
  loading : Bool
  deriving DecidableEq, Repr

/-- The state of a flag in the map, off when it is not there. -/
def shownBit (flags : Cache (Option String)) (key : String) : Bool :=
  (flags key).elim false (·.enabled)

def useFlag (state : FlagState) (key : String) : ShownFlag :=
  if state.loading then ⟨false, true⟩ else ⟨shownBit state.flags key, false⟩

/-- The response is a snapshot of the bits: it has every flag that is on. -/
def BulkResponse.Snapshot (r : BulkResponse) (bits : String → Bool) : Prop :=
  r.Reports bits ∧ ∀ k, bits k = true → ∃ f ∈ r.flags, f.key = k

/-- The provider, with its server. A request on its way has a snapshot or is
    still to get one. -/
structure Provider where
  bits : String → Bool
  stream : Stream := .off
  queue : List WireEvent := []
  hasConnectedBefore : Bool := false
  /-- The first request, until it is settled. -/
  initial : Option (Option BulkResponse) := some none
  refetches : List (Option BulkResponse) := []
  state : FlagState := {}
  closed : Bool := false

inductive ProviderAct where
  /-- The server turns a flag on or off. -/
  | toggle (flagKey : String) (enabled : Bool) (occurredAt : String)
  /-- The server subscribes the stream. -/
  | subscribe
  /-- The provider learns that the stream is open. -/
  | connect
  /-- An attempt to open the stream fails, and will be made again. -/
  | refused
  /-- The server refuses the token of the stream. -/
  | terminal
  /-- The stream delivers the next announcement. -/
  | deliver
  /-- The stream ends, with what it had not delivered. -/
  | drop
  /-- The server takes the snapshot for the first request. -/
  | snapshot (r : BulkResponse)
  /-- The first request is settled. -/
  | settle (answer : Js.Answer)
  /-- The server takes the snapshot for a request made on reconnecting. -/
  | snapshotAgain (i : Nat) (r : BulkResponse)
  /-- A request made on reconnecting is settled. -/
  | resettle (i : Nat) (answer : Js.Answer)
  | unmount
  deriving DecidableEq

/-- The flags of a successful answer are those of the snapshot. -/
def Js.Answer.comesFrom (taken : Option BulkResponse) : Js.Answer → Bool
  | .answered status (.parsed data) => !ConnectionLoop.isOk status || taken == some data
  | _ => true

namespace Provider

/-- How the client was configured. -/
structure Config where
  timeout : Nat
  defaults : List (String × Go.FlagDefault)

/-- The map of a list of results. -/
def flagsOf (results : List (EvalResult (Option String))) : Cache (Option String) :=
  Feed.fill (·.key) (fun r => r) results

/-- The record of a flag after an announcement. -/
def changed (event : WireEvent) (existing : Option (EvalResult (Option String))) :
    EvalResult (Option String) where
  key := event.flagKey
  enabled := event.enabled
  value := existing.elim none (·.value)
  variant := existing.elim "" (·.variant)
  reason := existing.elim "default" (·.reason)
  evaluatedAt := event.occurredAt

/-- The flags once a request is settled. -/
def received (config : Config) (answer : Js.Answer) (flags : Cache (Option String)) :
    Cache (Option String) :=
  match Js.evaluateAll config.timeout config.defaults answer with
  | .ok results => flagsOf results
  | .error _ => flags

/-- Called when the stream delivers. -/
def onFlagChange (event : WireEvent) (s : Provider) : Provider :=
  if s.closed = true then s
  else
    let flags := s.state.flags
    let next := Function.update flags event.flagKey (some (changed event (flags event.flagKey)))
    { s with state := { s.state with flags := next } }

/-- Called when the stream is open. -/
def onConnected (reconnect : Bool) (s : Provider) : Provider :=
  if s.closed = true ∨ reconnect = false then s
  else { s with refetches := s.refetches ++ [none] }

def step (config : Config) (s : Provider) : ProviderAct → Option Provider
  | .toggle flagKey enabled occurredAt =>
      some { s with
        bits := Function.update s.bits flagKey enabled
        queue := if s.stream = .subscribed ∨ s.stream = .connected then
            s.queue ++ [stateChanged flagKey enabled occurredAt]
          else s.queue }
  | .subscribe =>
      if s.stream = .off then some { s with stream := .subscribed, queue := [] } else none
  | .connect =>
      if s.stream = .subscribed then
        some (onConnected s.hasConnectedBefore { s with stream := .connected })
      else none
  | .refused => if s.stream = .off then some { s with hasConnectedBefore := true } else none
  | .terminal => if s.stream = .off then some { s with stream := .stopped } else none
  | .deliver =>
      if s.stream = .connected then
        match s.queue with
        | [] => none
        | e :: rest => some (onFlagChange e { s with queue := rest })
      else none
  | .drop =>
      if s.stream = .subscribed ∨ s.stream = .connected then
        some { s with stream := .off, queue := [], hasConnectedBefore := true }
      else none
  | .snapshot r => if s.initial = some none then some { s with initial := some (some r) } else none
  | .settle answer =>
      match s.initial with
      | none => none
      | some taken =>
          if answer.comesFrom taken = true then
            if s.closed = true then some { s with initial := none }
            else some { s with
              initial := none
              state := ⟨received config answer s.state.flags, false⟩ }
          else none
  | .snapshotAgain i r =>
      if s.refetches[i]? = some none then some { s with refetches := s.refetches.set i (some r) }
      else none
  -- The responses may come back in any order, and each replaces all flags.
  | .resettle i answer =>
      match s.refetches[i]? with
      | none => none
      | some taken =>
          if answer.comesFrom taken = true then
            if s.closed = true then some { s with refetches := s.refetches.eraseIdx i }
            else some { s with
              refetches := s.refetches.eraseIdx i
              state := { s.state with flags := received config answer s.state.flags } }
          else none
  | .unmount => some { s with closed := true, stream := .stopped }

/-- Every snapshot reports the bits of its own moment. -/
def Reported (s : Provider) : ProviderAct → Prop
  | .snapshot r => r.Snapshot s.bits
  | .snapshotAgain _ r => r.Snapshot s.bits
  | _ => True

/-- The runs of the provider. -/
abbrev Runs (config : Config) (s : Provider) (acts : List ProviderAct) (t : Provider) : Prop :=
  Steps (fun s a t => s.Reported a ∧ step config s a = some t) s acts t

end Provider

end Cuttlegate.Sdk
