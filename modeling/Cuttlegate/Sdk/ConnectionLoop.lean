import Mathlib.Tactic.Common
import Mathlib.Tactic.SplitIfs

/-!
# The Connection Loop

The loop of the JavaScript client that keeps a stream of flag states open.

The loop is suspended in three places: it waits for the backoff before another
attempt, for the response to its request, and for the stream to end. Each time
something happens that lets it go on, or the consumer closes the stream, and
what it does until it is suspended again is one step. Both the abort and the
heartbeat end the stream by cancelling its reader.

How long a backoff takes and what the stream carries have no influence on the
callbacks modelled here, and callbacks are assumed to return.

## Main definitions

* `ConnectionLoop.Event`, `ConnectionLoop.Action`: What happens, and what the
  loop does about it.
* `ConnectionLoop.Loop`: The variables of the loop, and what it waits for.
* `ConnectionLoop.Loop.finish`: The loop goes on with the result of an attempt.
* `ConnectionLoop.Loop.step`: One event.
* `ConnectionLoop.Loop.Does`: What a step can do.

## Theorems

* `ConnectionLoop.Loop.does_of_step`: A step does nothing else.
-/

namespace Cuttlegate

namespace ConnectionLoop

/-- What the loop does as far as others notice. -/
inductive Action where
  /-- An attempt is made. -/
  | fetch
  | onConnected (reconnect : Bool)
  | onDisconnect
  | onError (code message : String)
  deriving DecidableEq, Repr

/-- What the loop waits for. -/
inductive Await where
  | backoff
  | response
  | streamEnd
  /-- Nothing, as the loop has ended. -/
  | nothing
  deriving DecidableEq, Repr

/-- What happens to the loop. -/
inductive Event where
  /-- The backoff is over. -/
  | timer
  /-- The request fails, or is aborted. -/
  | rejected
  /-- The response arrives, with or without a body. -/
  | response (status : Nat) (body : Bool)
  /-- Reading the stream ends or fails. -/
  | streamEnd (thrown : Bool)
  /-- The consumer closes the stream. -/
  | close
  deriving DecidableEq, Repr

/-- The result of a single attempt. -/
inductive StreamResult where
  /-- Transient failure. -/
  | reconnect
  /-- Auth error. -/
  | terminal
  /-- The consumer has called `close`. -/
  | closed
  deriving DecidableEq, Repr

/-- The variables of the loop and the abort signal. -/
structure Loop where
  waits : Await
  attempt : Nat
  hasConnectedBefore : Bool
  aborted : Bool
  deriving DecidableEq, Repr

/-- The head of the loop: an attempt, after a backoff unless it is the first. -/
def Loop.head (s : Loop) : Loop × List Action :=
  if s.aborted then ({ s with waits := .nothing }, [])
  else if s.attempt > 0 then ({ s with waits := .backoff }, [])
  else ({ s with waits := .response }, [.fetch])

/-- The loop goes on with the result of an attempt. -/
def Loop.finish (s : Loop) : StreamResult → Loop × List Action
  | .closed | .terminal => ({ s with waits := .nothing }, [])
  | .reconnect =>
      let (t, actions) := Loop.head { s with attempt := s.attempt + 1, hasConnectedBefore := true }
      (t, (if s.hasConnectedBefore then [.onDisconnect] else []) ++ actions)

/-- Whether a response is `ok`. -/
def isOk (status : Nat) : Bool := 200 ≤ status && status ≤ 299

/-- The loop before and after its first suspension. -/
def begin : Loop × List Action := Loop.head ⟨.nothing, 0, false, false⟩

/-- One event, provided it can happen now. -/
def Loop.step (s : Loop) : Event → Option (Loop × List Action)
  | .timer =>
      if s.waits = .backoff then
        if s.aborted then some ({ s with waits := .nothing }, [])
        else some ({ s with waits := .response }, [.fetch])
      else none
  | .rejected =>
      if s.waits = .response then
        if s.aborted then some (s.finish .closed) else some (s.finish .reconnect)
      else none
  | .response status body =>
      if s.waits = .response then
        if status = 401 ∨ status = 403 then
          some ((s.finish .terminal).1,
            [.onError (if status = 401 then "unauthorized" else "forbidden")
              ("Server returned " ++ toString status)])
        else if isOk status = false then some (s.finish .reconnect)
        else if body = false then some (s.finish .reconnect)
        else some ({ s with waits := .streamEnd }, [.onConnected s.hasConnectedBefore])
      else none
  | .streamEnd thrown =>
      if s.waits = .streamEnd then
        if thrown ∧ s.aborted then some (s.finish .closed)
        else if s.aborted then some (s.finish .closed)
        else some (s.finish .reconnect)
      else none
  -- The abort ends a backoff at once; elsewhere it is noticed when the request or the stream ends.
  | .close =>
      some ({ s with
        aborted := true
        waits := if s.waits = .backoff then .nothing else s.waits }, [])

/-! ## What a step does -/

/-- Whether a response establishes a connection. -/
def Event.established : Event → Bool
  | .response status body => isOk status && body
  | _ => false

/-- Whether a response refuses the token. -/
def Event.refused : Event → Bool
  | .response status _ => status == 401 || status == 403
  | _ => false

/-- The loop after a transient failure. -/
def Loop.retry (s : Loop) : Loop where
  waits := if s.aborted then .nothing else .backoff
  attempt := s.attempt + 1
  hasConnectedBefore := true
  aborted := s.aborted

theorem Loop.finish_reconnect (s : Loop) : s.finish .reconnect =
    (s.retry, if s.hasConnectedBefore then [.onDisconnect] else []) := by
  unfold finish head retry
  cases s.aborted with
  | true => simp
  | false => simp

/-- Everything a step can do. -/
inductive Loop.Does (s : Loop) : Event → Loop × List Action → Prop
  | timer (hw : s.waits = .backoff) (ha : s.aborted = false) :
      Does s .timer ({ s with waits := .response }, [.fetch])
  | failed (e : Event) (hw : s.waits = .response)
      (he : e = .rejected ∧ s.aborted = false ∨
        ∃ status body, e = .response status body ∧ e.refused = false ∧ e.established = false) :
      Does s e (s.retry, if s.hasConnectedBefore then [.onDisconnect] else [])
  | refused (status : Nat) (body : Bool) (code message : String) (hw : s.waits = .response)
      (he : (Event.response status body).refused = true) :
      Does s (.response status body) ({ s with waits := .nothing }, [.onError code message])
  | connected (status : Nat) (body : Bool) (hw : s.waits = .response)
      (he : (Event.response status body).established = true) :
      Does s (.response status body)
        ({ s with waits := .streamEnd }, [.onConnected s.hasConnectedBefore])
  | dropped (thrown : Bool) (hw : s.waits = .streamEnd) (ha : s.aborted = false) :
      Does s (.streamEnd thrown) (s.retry, if s.hasConnectedBefore then [.onDisconnect] else [])
  | closed (e : Event) (ha : s.aborted = true)
      (he : e = .timer ∨ e = .rejected ∨ ∃ thrown, e = .streamEnd thrown) :
      Does s e ({ s with waits := .nothing }, [])
  | close : Does s .close
      ({ s with aborted := true, waits := if s.waits = .backoff then .nothing else s.waits }, [])

theorem isOk_not_refused (status : Nat) (h : isOk status = true) :
    ¬ (status = 401 ∨ status = 403) := by
  simp only [isOk, Bool.and_eq_true, decide_eq_true_eq] at h
  omega

theorem Event.refused_of_established (status : Nat) (body : Bool)
    (h : (Event.response status body).established = true) :
    (Event.response status body).refused = false := by
  have hok := isOk_not_refused status (Bool.and_eq_true_iff.mp h).1
  simpa [Event.refused] using hok

theorem Loop.does_of_step (s : Loop) (e : Event) (p : Loop × List Action)
    (h : s.step e = some p) : s.Does e p := by
  cases e with
  | timer =>
      simp only [step] at h
      split_ifs at h with hw ha <;> cases h
      · exact .closed _ ha (.inl rfl)
      · exact .timer hw (by simpa using ha)
  | rejected =>
      simp only [step] at h
      split_ifs at h with hw ha <;> cases h
      · exact .closed _ ha (.inr (.inl rfl))
      · rw [finish_reconnect]
        exact .failed _ hw (.inl ⟨rfl, by simpa using ha⟩)
  | response status body =>
      simp only [step] at h
      by_cases hw : s.waits = .response
      · rw [if_pos hw] at h
        by_cases hrefused : status = 401 ∨ status = 403
        · rw [if_pos hrefused] at h
          cases h
          exact .refused status body _ _ hw (by simpa [Event.refused] using hrefused)
        · rw [if_neg hrefused] at h
          have hnot : (Event.response status body).refused = false := by
            simpa [Event.refused] using hrefused
          -- A status that is no success and an answer without a body end the attempt alike.
          by_cases hok : isOk status = false
          · rw [if_pos hok] at h
            cases h
            rw [finish_reconnect]
            exact .failed _ hw (.inr ⟨status, body, rfl, hnot, by simp [Event.established, hok]⟩)
          · rw [if_neg hok] at h
            by_cases hbody : body = false
            · rw [if_pos hbody] at h
              cases h
              rw [finish_reconnect]
              exact .failed _ hw
                (.inr ⟨status, body, rfl, hnot, by simp [Event.established, hbody]⟩)
            · rw [if_neg hbody] at h
              cases h
              refine .connected status body hw ?_
              simp only [Event.established, Bool.and_eq_true]
              exact ⟨by simpa using hok, by simpa using hbody⟩
      · rw [if_neg hw] at h
        cases h
  | streamEnd thrown =>
      simp only [step] at h
      split_ifs at h with hw hthrown ha <;> cases h
      · exact .closed _ hthrown.2 (.inr (.inr ⟨thrown, rfl⟩))
      · exact .closed _ ha (.inr (.inr ⟨thrown, rfl⟩))
      · rw [finish_reconnect]
        exact .dropped thrown hw (by simpa using ha)
  | close =>
      cases h
      exact .close

/-- An attempt is made after a backoff only. -/
theorem Loop.Does.of_fetch (s : Loop) (e : Event) (p : Loop × List Action) (h : s.Does e p)
    (hfetch : .fetch ∈ p.2) : s.waits = .backoff ∧ s.aborted = false := by
  cases h with
  | timer hw ha => exact ⟨hw, ha⟩
  | failed e hw he => cases hflag : s.hasConnectedBefore <;> simp [hflag] at hfetch
  | refused status body code message hw he => simp at hfetch
  | connected status body hw he => simp at hfetch
  | dropped thrown hw ha => cases hflag : s.hasConnectedBefore <;> simp [hflag] at hfetch
  | closed e ha he => simp at hfetch
  | close => simp at hfetch

end ConnectionLoop

end Cuttlegate
