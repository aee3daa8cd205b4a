import Cuttlegate.Adapters.Broker
import Cuttlegate.Lib.Steps
import Cuttlegate.Sdk.Readers
import Cuttlegate.Sdk.StreamLoop

/-!
# Subscriptions of the Go Client

`Subscribe` opens a stream for one flag and hands out two channels. A goroutine
of its own connects, reads and reconnects. It sends the changes of the flag on
the first channel, where it waits while the buffer is full, and errors on the
second, where it never waits. When it returns, it closes the channel of errors
and then that of updates.

The consumer takes from either channel when it likes, and may cancel its
context at any time. Where the goroutine can both go on and stop, the runtime
chooses. The network decides what a request comes to, and which lines a stream
has. So a run is any list of such events that is possible, one after another.

Reading a line includes what follows from it up to the point where the
goroutine may have to wait. The jitter of the backoff, and time, are left out.

## Main definitions

* `FlagUpdate`, `StreamError`: What the channels carry.
* `Subscription`, `Subscription.step`: The goroutine, its channels and their
  consumer.
* `Subscription.Run`: The runs of a subscription.
-/

namespace Cuttlegate

/-- Close a channel. -/
def Chan.close {α : Type} (c : Chan α) : Except Panic (Chan α) :=
  if c.closed then .error .closeOfClosedChannel else .ok { c with closed := true }

namespace Sdk.Go

/-- A change of a flag. A time that cannot be read is the zero time. -/
structure FlagUpdate where
  key : String
  enabled : Bool
  updatedAt : Option Int
  deriving DecidableEq, Repr

inductive StreamError where
  | connection (cause : String)
  | auth (statusCode : Nat)
  | server (statusCode : Nat)
  | unexpectedStatus (statusCode : Nat)
  /-- A line with something wrong about it. -/
  | line (message : String)
  deriving DecidableEq, Repr

/-- The size of both buffers. -/
def channelSize : Nat := 16

/-- Where the goroutine is. -/
inductive SubscribePoint where
  /-- In the wait before another attempt. -/
  | waiting
  | connecting
  | reading
  /-- Before it can go on reading, it has an update to send. -/
  | sending (update : FlagUpdate)
  /-- On its way out, with both channels still open. -/
  | returning
  | closedErrs
  | done
  deriving DecidableEq, Repr

structure Subscription where
  key : String
  cancelled : Bool := false
  attempt : BitVec 64 := 0
  point : SubscribePoint := .connecting
  updates : Chan FlagUpdate := {}
  errs : Chan StreamError := {}
  deriving DecidableEq

inductive SubscribeEvent where
  /-- The context is cancelled. -/
  | cancel
  | backoffElapsed
  | backoffCancelled
  /-- The address cannot be made a request. -/
  | badRequest
  | requestFailed (cause : String)
  | responded (statusCode : Nat)
  | line (line : List Char)
  /-- There are no more lines. -/
  | ended
  | sent
  | sendCancelled (update : FlagUpdate)
  | closeErrs
  | closeUpdates
  | receivedUpdate (update : FlagUpdate)
  | receivedErr (err : StreamError)
  deriving DecidableEq

namespace Subscription

/-- Send an error, unless the buffer is full. -/
def sendErr (err : StreamError) (s : Subscription) : Except Panic Subscription :=
  match s.errs.offer channelSize err with
  | (.panicked, _) => .error .sendOnClosedChannel
  | (_, errs) => .ok { s with errs := errs }

/-- The top of the loop after an attempt that calls for another. -/
def reconnect (s : Subscription) : Subscription :=
  { s with
    attempt := s.attempt + 1
    point := if (s.attempt + 1).toInt > 0 then .waiting else .connecting }

def stop (s : Subscription) : Subscription := { s with point := .returning }

/-- What the status of a response leads to. -/
def respond (statusCode : Nat) (s : Subscription) : Except Panic Subscription := do
  if statusCode = 401 ∨ statusCode = 403 then
    let s ← s.sendErr (.auth statusCode)
    return s.stop
  else if statusCode ≥ 500 then
    let s ← s.sendErr (.server statusCode)
    return s.reconnect
  else if statusCode ≠ 200 then
    let s ← s.sendErr (.unexpectedStatus statusCode)
    return s.reconnect
  else return { s with point := .reading }

/-- What a line leads to: errors are sent, and an update is about to be. -/
def hear : List Heard → Subscription → Except Panic Subscription
  | [], s => .ok s
  | .error message :: rest, s => do
      let s ← s.sendErr (.line message)
      hear rest s
  | .update key enabled updatedAt :: _, s =>
      .ok { s with point := .sending ⟨key, enabled, updatedAt⟩ }

/-- Whether the goroutine is on its way out or gone. -/
def leaving (s : Subscription) : Bool :=
  s.point == .returning || s.point == .closedErrs || s.point == .done

/-- One event, as far as it is possible. -/
def step (parse : String → Option Json) (s : Subscription) :
    SubscribeEvent → Option (Except Panic Subscription)
  | .cancel => some (.ok { s with cancelled := true })
  | .backoffElapsed =>
      if s.point = .waiting then some (.ok { s with point := .connecting }) else none
  | .backoffCancelled =>
      if s.point = .waiting ∧ s.cancelled = true then some (.ok s.stop) else none
  | .badRequest => if s.point = .connecting then some (.ok s.stop) else none
  | .requestFailed cause =>
      if s.point = .connecting then
        some (if s.cancelled then .ok s.stop
          else (s.sendErr (.connection cause)).map reconnect)
      else none
  | .responded statusCode =>
      if s.point = .connecting then some (s.respond statusCode) else none
  | .line line =>
      if s.point = .reading then
        some (if s.cancelled then .ok s.stop else s.hear (processLine parse s.key line))
      else none
  | .ended =>
      if s.point = .reading then some (.ok (if s.cancelled then s.stop else s.reconnect)) else none
  | .sent =>
      match s.point with
      | .sending update =>
          match s.updates.offer channelSize update with
          | (.sent, updates) => some (.ok { s with updates := updates, point := .reading })
          | (.dropped, _) => none
          | (.panicked, _) => some (.error .sendOnClosedChannel)
      | _ => none
  | .sendCancelled update =>
      if s.point = .sending update ∧ s.cancelled = true then some (.ok s.stop) else none
  -- The deferred calls, the last one first.
  | .closeErrs =>
      if s.point = .returning then
        some (s.errs.close.map (fun errs => { s with errs := errs, point := .closedErrs }))
      else none
  | .closeUpdates =>
      if s.point = .closedErrs then
        some (s.updates.close.map (fun updates => { s with updates := updates, point := .done }))
      else none
  | .receivedUpdate update =>
      match s.updates.buf with
      | [] => none
      | u :: rest => if u = update then some (.ok { s with updates.buf := rest }) else none
  | .receivedErr err =>
      match s.errs.buf with
      | [] => none
      | e :: rest => if e = err then some (.ok { s with errs.buf := rest }) else none

/-- The runs of a subscription, as long as nothing panics. -/
def Run (parse : String → Option Json) (s : Subscription) (H : List SubscribeEvent)
    (t : Subscription) : Prop :=
  Steps (fun s e t => step parse s e = some (.ok t)) s H t

end Subscription

/-- A subscription, unless the key is empty. -/
def Subscribe (key : String) : Option Subscription :=
  if key = "" then none else some { key := key }

end Sdk.Go

end Cuttlegate
