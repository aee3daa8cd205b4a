import Cuttlegate.Sdk.Caches

/-!
# The Cached Clients and Their Server

The cached clients as they run, against a server that holds one bit for each
flag. A stream delivers, in order, every toggle made since the server
subscribed it; what it had not delivered when it dropped is gone. The response
to an evaluation is a snapshot of the bits, taken at some moment between the
request and its arrival.

The Go and the Python client ask for the flags once, fill the cache, and only
then open the stream, which they reopen for ever. Neither asks again.

The JavaScript client opens the stream and asks for the flags at the same time.
Until the response arrives, what the stream delivers is kept in a buffer, and
is applied on top of it. Every connection after the first attempt asks for the
flags again, and the response replaces the cache as it is. If the first
request fails, the records kept by a store take its place.

A step is an action that someone takes: the server toggles a flag, subscribes
a stream or takes a snapshot; the network delivers, drops or refuses; a
response arrives. `none` means that the action is not possible.

## Main definitions

* `Sdk.BulkResponse.Reports`: A response is a snapshot of the bits.
* `Sdk.Follower`, `Sdk.Follower.step`: The Go and the Python client.
* `Sdk.Hydrated`, `Sdk.Hydrated.step`: The JavaScript client.
-/

namespace Cuttlegate.Sdk

/-- The response reports the given bits. -/
def BulkResponse.Reports (r : BulkResponse) (bits : String → Bool) : Prop :=
  ∀ f ∈ r.flags, f.enabled = bits f.key

instance (r : BulkResponse) (bits : String → Bool) : Decidable (r.Reports bits) :=
  inferInstanceAs (Decidable (∀ f ∈ r.flags, f.enabled = bits f.key))

/-- The announcement of a toggle to the subscribers of an environment. -/
def stateChanged (flagKey : String) (enabled : Bool) (occurredAt : String) : WireEvent :=
  ⟨sseEventType, "", "", flagKey, enabled, occurredAt⟩

/-! ## Go and Python -/

/-- The libraries whose cached client asks for the flags once. -/
inductive Library where
  | go
  | python
  deriving DecidableEq, Repr

/-- The cache filled from a response. -/
def Library.seed : Library → BulkResponse → Cache String
  | .go => Go.results
  | .python => Python.parseBulkResponse

/-- What an announcement does to the record of its flag. -/
def Library.update : Library → WireEvent → EvalResult String → EvalResult String
  | .go => Go.update
  | .python => Python.update

/-- What an announcement does to the cache. -/
def Library.apply : Library → WireEvent → Cache String → Cache String
  | .go => Go.applyCacheUpdate
  | .python => Python.applyEvent

/-- The request for the flags: on its way, answered with a snapshot, or over. -/
inductive Bootstrap where
  | requested
  | taken (r : BulkResponse)
  | finished
  deriving DecidableEq

/-- A stream: closed for now, open, or closed for good. -/
inductive Link where
  | off
  | on
  | stopped
  deriving DecidableEq, Repr

/-- A client that asks for the flags once, with its server. -/
structure Follower where
  bits : String → Bool
  bootstrap : Bootstrap := .requested
  cache : Cache String := fun _ => none
  link : Link := .off
  queue : List WireEvent := []

inductive FollowerAct where
  /-- The server turns a flag on or off. -/
  | toggle (flagKey : String) (enabled : Bool) (occurredAt : String)
  /-- The server takes the snapshot for the request. -/
  | snapshot (r : BulkResponse)
  /-- The response arrives, and the stream may be opened. -/
  | bootstrapped
  /-- The request fails, and stored records or defaults take its place. -/
  | restored (entries : List (EvalResult String))
  /-- The server subscribes the stream. -/
  | connect
  /-- An attempt to open the stream fails, and will be made again. -/
  | refused
  /-- The server refuses the token, or the client is closed. -/
  | terminal
  /-- The stream delivers the next announcement. -/
  | deliver
  /-- The stream ends, with what it had not delivered. -/
  | drop
  deriving DecidableEq

namespace Follower

variable (lib : Library)

def step (s : Follower) : FollowerAct → Option Follower
  | .toggle flagKey enabled occurredAt =>
      some { s with
        bits := Function.update s.bits flagKey enabled
        queue := if s.link = .on then s.queue ++ [stateChanged flagKey enabled occurredAt]
          else s.queue }
  | .snapshot r =>
      if s.bootstrap = .requested ∧ r.Reports s.bits then some { s with bootstrap := .taken r }
      else none
  | .bootstrapped =>
      match s.bootstrap with
      | .taken r => some { s with bootstrap := .finished, cache := lib.seed r }
      | _ => none
  | .restored entries =>
      if s.bootstrap ≠ .finished ∧ entries ≠ [] then
        some { s with bootstrap := .finished, cache := Feed.fill (·.key) (fun r => r) entries }
      else none
  -- A new subscription starts with nothing queued: what was announced while the stream was
  -- down is gone, and the flags are not asked for again.
  | .connect =>
      if s.bootstrap = .finished ∧ s.link = .off then some { s with link := .on, queue := [] }
      else none
  | .refused => if s.bootstrap = .finished ∧ s.link = .off then some s else none
  | .terminal => if s.bootstrap = .finished then some { s with link := .stopped } else none
  | .deliver =>
      if s.link = .on then
        match s.queue with
        | [] => none
        | e :: rest => some { s with cache := lib.apply e s.cache, queue := rest }
      else none
  | .drop => if s.link = .on then some { s with link := .off, queue := [] } else none

end Follower

/-! ## JavaScript -/

/-- A stream: not open, subscribed at the server with the client not yet
    knowing, open, or closed for good. -/
inductive Stream where
  | off
  | subscribed
  | connected
  | stopped
  deriving DecidableEq, Repr

/-- The first request for the flags. When it fails, the store is asked. -/
inductive Hydration where
  | requested
  | taken (r : BulkResponse)
  | loading
  | finished
  deriving DecidableEq

/-- The client that asks for the flags again, with its server. A re-hydration
    on its way has a snapshot or is still to get one. -/
structure Hydrated where
  bits : String → Bool
  stream : Stream := .off
  queue : List WireEvent := []
  hasConnectedBefore : Bool := false
  hydration : Hydration := .requested
  rehydrations : List (Option BulkResponse) := []
  cache : Cache (Option String) := fun _ => none
  sseBuffer : List WireEvent := []
  hydrationComplete : Bool := false
  closed : Bool := false

inductive HydratedAct where
  /-- The server turns a flag on or off. -/
  | toggle (flagKey : String) (enabled : Bool) (occurredAt : String)
  /-- The server subscribes the stream. -/
  | subscribe
  /-- The client learns that the stream is open. -/
  | connect
  /-- An attempt to open the stream fails, and will be made again. -/
  | refused
  /-- The server refuses the token of the stream. -/
  | terminal
  /-- The stream delivers the next announcement. -/
  | deliver
  /-- The stream ends, with what it had not delivered. -/
  | drop
  /-- The server takes the snapshot for the first request. -/
  | snapshot (r : BulkResponse)
  /-- The response to the first request arrives. -/
  | hydrate
  /-- The first request is refused for its token. -/
  | hydrationRefused
  /-- The first request fails in another way. -/
  | hydrationFails
  /-- The store answers, with nothing if it fails. -/
  | load (entries : List (EvalResult (Option String)))
  /-- The server takes the snapshot for a re-hydration. -/
  | snapshotAgain (i : Nat) (r : BulkResponse)
  /-- The response to a re-hydration arrives. -/
  | rehydrate (i : Nat)
  /-- A re-hydration fails. -/
  | rehydrationFails (i : Nat)
  /-- The client is closed. -/
  | close
  deriving DecidableEq

namespace Hydrated

/-- Called when the stream delivers. -/
def onFlagChange (event : WireEvent) (s : Hydrated) : Hydrated :=
  if s.closed = true then s
  else if s.hydrationComplete = false then { s with sseBuffer := s.sseBuffer ++ [event] }
  else { s with cache := Js.applyCacheEvent event s.cache }

/-- Called when the stream is open. -/
def onConnected (reconnect : Bool) (s : Hydrated) : Hydrated :=
  if reconnect = false ∨ s.closed = true then s
  else { s with rehydrations := s.rehydrations ++ [none] }

def failHydration (s : Hydrated) : Hydrated :=
  { s with stream := .stopped, closed := true, hydration := .finished }

def step (s : Hydrated) : HydratedAct → Option Hydrated
  | .toggle flagKey enabled occurredAt =>
      some { s with
        bits := Function.update s.bits flagKey enabled
        queue := if s.stream = .subscribed ∨ s.stream = .connected then
            s.queue ++ [stateChanged flagKey enabled occurredAt]
          else s.queue }
  -- The server subscribes first and the client learns of it later; in between announcements
  -- queue up.
  | .subscribe =>
      if s.stream = .off then some { s with stream := .subscribed, queue := [] } else none
  | .connect =>
      if s.stream = .subscribed then
        some (onConnected s.hasConnectedBefore { s with stream := .connected })
      else none
  | .refused => if s.stream = .off then some { s with hasConnectedBefore := true } else none
  | .terminal => if s.stream = .off then some { s with stream := .stopped } else none
  | .deliver =>
      if s.stream = .connected then
        match s.queue with
        | [] => none
        | e :: rest => some (onFlagChange e { s with queue := rest })
      else none
  | .drop =>
      if s.stream = .subscribed ∨ s.stream = .connected then
        some { s with stream := .off, queue := [], hasConnectedBefore := true }
      else none
  | .snapshot r =>
      if s.hydration = .requested ∧ r.Reports s.bits then some { s with hydration := .taken r }
      else none
  | .hydrate =>
      match s.hydration with
      | .taken r =>
          if s.closed = true then some { s with hydration := .finished }
          else some { s with
            hydration := .finished
            cache := Js.applyAll s.sseBuffer (Js.populateCache r)
            hydrationComplete := true
            sseBuffer := [] }
      | _ => none
  -- A refused request ends the hydration, any other failure turns to the store.
  | .hydrationRefused =>
      match s.hydration with
      | .requested | .taken _ =>
          if s.closed = true then some { s with hydration := .finished } else some (failHydration s)
      | _ => none
  | .hydrationFails =>
      match s.hydration with
      | .requested | .taken _ =>
          if s.closed = true then some { s with hydration := .finished }
          else some { s with hydration := .loading }
      | _ => none
  | .load entries =>
      if s.hydration = .loading then
        if entries.length > 0 then
          some { s with
            hydration := .finished
            cache := Js.restoreCache entries
            hydrationComplete := true }
        else some (failHydration s)
      else none
  | .snapshotAgain i r =>
      if s.rehydrations[i]? = some none ∧ r.Reports s.bits then
        some { s with rehydrations := s.rehydrations.set i (some r) }
      else none
  -- The responses may come back in any order, and each replaces the whole cache.
  | .rehydrate i =>
      match s.rehydrations[i]? with
      | some (some r) =>
          if s.closed = true then some { s with rehydrations := s.rehydrations.eraseIdx i }
          else some { s with
            rehydrations := s.rehydrations.eraseIdx i
            cache := Js.populateCache r }
      | _ => none
  | .rehydrationFails i =>
      if i < s.rehydrations.length then
        some { s with rehydrations := s.rehydrations.eraseIdx i }
      else none
  | .close => some { s with closed := true, stream := .stopped }

end Hydrated

end Cuttlegate.Sdk
