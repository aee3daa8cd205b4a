import Mathlib.Logic.Function.Basic
import Cuttlegate.Lib.Sorter

/-!
# The Event Broker

An in-process fanout of events to subscribers, each with a buffered channel of
its own. Publishing offers the event to every subscriber and drops it for
those whose buffer is full.

Channels are objects, so a subscription is known by its number here: the
handle its channel and its unsubscribe function belong to. Two parties close a
channel. The unsubscribe function does it behind a `sync.Once` of its own, and
the shutdown does it behind the flag of the broker. Closing a closed channel
and sending on one are panics, and an operation that panics leaves the state it
had reached.

With a buffer of at least one event a send is refused exactly when the buffer
is full; without a buffer it would need a receiver that is waiting.

## Main definitions

* `Chan`, `Chan.offer`: Channels, and the send that does not wait.
* `Broker`, `NewBroker`: The broker.
* `Broker.publish`, `Broker.subscribe`, `Broker.unsubscribe`,
  `Broker.shutdown`: Its methods.
* `BrokerStep`, `Broker.step`: One call of a method.

## Theorems

* `Broker.publishLoop_spec`: Publishing to open channels.
* `Broker.shutdownLoop_spec`: Closing open channels.
-/

namespace Cuttlegate

inductive Panic where
  | closeOfClosedChannel
  | sendOnClosedChannel
  deriving DecidableEq, Repr

/-- A channel: what waits in its buffer, and whether it is closed. -/
structure Chan (α : Type) where
  buf : List α := []
  closed : Bool := false
  deriving DecidableEq, Repr

/-- What came of a send that does not wait. -/
inductive Sending where
  | sent
  | dropped
  | panicked
  deriving DecidableEq, Repr

structure Broker (α : Type) where
  bufSize : Nat
  /-- The number of subscriptions made, which are known by their numbers. -/
  handles : Nat := 0
  chans : Nat → Chan α := fun _ => {}
  /-- The map of subscribers. -/
  subscribers : List Nat := []
  /-- The subscriptions whose `sync.Once` has been used up. -/
  spent : List Nat := []
  closed : Bool := false

/-- A broker without subscribers. -/
def NewBroker (α : Type) (bufferSize : Nat) : Broker α := { bufSize := bufferSize }

/-- The error of a closed broker. -/
inductive PublishError where
  | brokerClosed
  deriving DecidableEq, Repr

section Methods

variable {α : Type}

/-- Send without waiting: into the buffer if there is room, else nowhere. -/
def Chan.offer (bufSize : Nat) (e : α) (c : Chan α) : Sending × Chan α :=
  if c.closed then (.panicked, c)
  else if c.buf.length < bufSize then (.sent, { c with buf := c.buf ++ [e] })
  else (.dropped, c)

namespace Broker

/-- Offer an event to one subscriber. -/
def offer (e : α) (h : Nat) (b : Broker α) : Sending × Broker α :=
  (((b.chans h).offer b.bufSize e).1,
    { b with chans := Function.update b.chans h ((b.chans h).offer b.bufSize e).2 })

/-- Offer an event to the listed subscribers, in turn. -/
def publishLoop (e : α) : List Nat → Broker α → Option Panic × Broker α
  | [], b => (none, b)
  | h :: rest, b =>
      match b.offer e h with
      | (.panicked, b') => (some .sendOnClosedChannel, b')
      | (_, b') => publishLoop e rest b'

/-- Publish an event. The map is iterated in an order of its own. -/
def publish (order : Sorter) (e : α) (b : Broker α) :
    Option Panic × Except PublishError Unit × Broker α :=
  if b.closed then (none, .error .brokerClosed, b)
  else
    let out := publishLoop e (order.sort (fun _ _ => false) b.subscribers) b
    (out.1, .ok (), out.2)

/-- Close a channel. -/
def closeChan (h : Nat) (b : Broker α) : Option Panic × Broker α :=
  if (b.chans h).closed then (some .closeOfClosedChannel, b)
  else (none, { b with chans := Function.update b.chans h { b.chans h with closed := true } })

/-- A new subscription, unless the broker is closed. -/
def subscribe (b : Broker α) : Option Nat × Broker α :=
  if b.closed then (none, b)
  else (some b.handles, { b with
    handles := b.handles + 1
    chans := Function.update b.chans b.handles {}
    subscribers := b.subscribers ++ [b.handles] })

/-- The unsubscribe function of a subscription. There is none for a number that
    has not been given out. -/
def unsubscribe (h : Nat) (b : Broker α) : Option Panic × Broker α :=
  if b.handles ≤ h then (none, b)
  else if h ∈ b.spent then (none, b)
  else closeChan h { b with
    spent := h :: b.spent
    subscribers := b.subscribers.filter (fun k => k ≠ h) }

/-- Close and forget the listed subscribers, in turn. -/
def shutdownLoop : List Nat → Broker α → Option Panic × Broker α
  | [], b => (none, b)
  | h :: rest, b =>
      match closeChan h b with
      | (some p, b') => (some p, b')
      | (none, b') =>
          shutdownLoop rest { b' with subscribers := b'.subscribers.filter (fun k => k ≠ h) }

def shutdown (order : Sorter) (b : Broker α) : Option Panic × Broker α :=
  if b.closed then (none, b)
  else shutdownLoop (order.sort (fun _ _ => false) b.subscribers) { b with closed := true }

end Broker

/-- A call of one of the methods. -/
inductive BrokerStep (α : Type) where
  | publish (order : Sorter) (e : α)
  | subscribe
  | unsubscribe (h : Nat)
  | shutdown (order : Sorter)

/-- Whether a call panics, and the broker it leaves. -/
def Broker.step (b : Broker α) : BrokerStep α → Option Panic × Broker α
  | .publish order e => ((b.publish order e).1, (b.publish order e).2.2)
  | .subscribe => (none, b.subscribe.2)
  | .unsubscribe h => b.unsubscribe h
  | .shutdown order => b.shutdown order

/-- The broker after a sequence of calls. -/
def Broker.after (b : Broker α) (steps : List (BrokerStep α)) : Broker α :=
  steps.foldl (fun b step => (b.step step).2) b

end Methods

section Loops

variable {α : Type}

namespace Broker

/-- The two brokers differ at most in what is in the buffers. -/
structure SameBut (b b' : Broker α) : Prop where
  bufSize : b'.bufSize = b.bufSize
  handles : b'.handles = b.handles
  subscribers : b'.subscribers = b.subscribers
  spent : b'.spent = b.spent
  closed : b'.closed = b.closed
  chans : ∀ h, (b'.chans h).closed = (b.chans h).closed

theorem SameBut.refl (b : Broker α) : SameBut b b := ⟨rfl, rfl, rfl, rfl, rfl, fun _ => rfl⟩

theorem SameBut.trans (a b c : Broker α) (hab : SameBut a b) (hbc : SameBut b c) : SameBut a c :=
  ⟨hbc.bufSize.trans hab.bufSize, hbc.handles.trans hab.handles,
    hbc.subscribers.trans hab.subscribers, hbc.spent.trans hab.spent, hbc.closed.trans hab.closed,
    fun h => (hbc.chans h).trans (hab.chans h)⟩

/-- An offer to an open channel does not panic, and only fills its buffer. -/
theorem offer_open (e : α) (h : Nat) (b : Broker α) (hopen : (b.chans h).closed = false) :
    (b.offer e h).1 ≠ .panicked ∧ SameBut b (b.offer e h).2 := by
  have hchan : ((b.chans h).offer b.bufSize e).1 ≠ .panicked ∧
      ((b.chans h).offer b.bufSize e).2.closed = (b.chans h).closed := by
    unfold Chan.offer
    rw [hopen]
    by_cases hroom : (b.chans h).buf.length < b.bufSize
    · simp [hroom]
    · simp [hroom, hopen]
  refine ⟨hchan.1, ⟨rfl, rfl, rfl, rfl, rfl, fun k => ?_⟩⟩
  by_cases hk : k = h
  · rw [hk]
    simp only [offer, Function.update_self]
    exact hchan.2
  · simp only [offer, Function.update_of_ne hk]

/-- Publishing to open channels does not panic, and only fills buffers. -/
theorem publishLoop_spec (e : α) (l : List Nat) (b : Broker α)
    (hopen : ∀ h ∈ l, (b.chans h).closed = false) :
    (publishLoop e l b).1 = none ∧ SameBut b (publishLoop e l b).2 := by
  induction l generalizing b with
  | nil => exact ⟨rfl, SameBut.refl b⟩
  | cons h rest ih =>
      rcases offer_open e h b (hopen h List.mem_cons_self) with ⟨hfine, hsame⟩
      have hrest : ∀ k ∈ rest, ((b.offer e h).2.chans k).closed = false := by
        intro k hk
        rw [hsame.chans k]
        exact hopen k (List.mem_cons_of_mem _ hk)
      -- An open channel takes the event or drops it, and the loop goes on.
      have hnext : publishLoop e (h :: rest) b = publishLoop e rest (b.offer e h).2 := by
        rw [publishLoop]
        cases hout : b.offer e h with
        | mk sending b' =>
            cases sending with
            | panicked =>
                rw [hout] at hfine
                exact absurd rfl hfine
            | sent => rfl
            | dropped => rfl
      rw [hnext]
      rcases ih (b.offer e h).2 hrest with ⟨hnone, hsame'⟩
      exact ⟨hnone, SameBut.trans _ _ _ hsame hsame'⟩

/-- Closing an open channel. -/
theorem closeChan_open (h : Nat) (b : Broker α) (hopen : (b.chans h).closed = false) :
    closeChan h b =
      (none, { b with chans := Function.update b.chans h { b.chans h with closed := true } }) := by
  rw [closeChan, hopen]
  rfl

/-- Closing a closed channel. -/
theorem closeChan_closed (h : Nat) (b : Broker α) (hclosed : (b.chans h).closed = true) :
    closeChan h b = (some .closeOfClosedChannel, b) := by
  rw [closeChan, hclosed]
  rfl

/-- Closing open channels, each listed once, does not panic. They are closed
    and forgotten, and the others are left alone. -/
theorem shutdownLoop_spec (l : List Nat) (b : Broker α) (hnodup : l.Nodup)
    (hopen : ∀ h ∈ l, (b.chans h).closed = false) :
    (shutdownLoop l b).1 = none ∧ (shutdownLoop l b).2.handles = b.handles ∧
      (shutdownLoop l b).2.bufSize = b.bufSize ∧ (shutdownLoop l b).2.spent = b.spent ∧
      (shutdownLoop l b).2.closed = b.closed ∧
      (∀ h, h ∈ (shutdownLoop l b).2.subscribers ↔ h ∈ b.subscribers ∧ h ∉ l) ∧
      ∀ h, ((shutdownLoop l b).2.chans h).closed = true ↔ h ∈ l ∨ (b.chans h).closed = true := by
  induction l generalizing b with
  | nil => simp [shutdownLoop]
  | cons h rest ih =>
      rw [List.nodup_cons] at hnodup
      rw [shutdownLoop, closeChan_open h b (hopen h List.mem_cons_self)]
      -- The handles are distinct, so those still to close are still open.
      have hrest : ∀ k ∈ rest,
          (Function.update b.chans h { b.chans h with closed := true } k).closed = false := by
        intro k hk
        have hkh : k ≠ h := by
          rintro rfl
          exact hnodup.1 hk
        rw [Function.update_of_ne hkh]
        exact hopen k (List.mem_cons_of_mem _ hk)
      rcases ih { b with
          chans := Function.update b.chans h { b.chans h with closed := true }
          subscribers := b.subscribers.filter (fun k => k ≠ h) } hnodup.2 hrest with
        ⟨hnone, hhandles, hbuf, hspent, hclosed, hsubs, hchans⟩
      refine ⟨hnone, hhandles, hbuf, hspent, hclosed, fun k => ?_, fun k => ?_⟩
      · rw [hsubs k, List.mem_filter, decide_eq_true_eq, List.mem_cons, not_or, and_assoc]
      · rw [hchans k, List.mem_cons]
        by_cases hk : k = h
        · subst hk
          simp [hnodup.1]
        · simp [hk]

end Broker

end Loops

end Cuttlegate
