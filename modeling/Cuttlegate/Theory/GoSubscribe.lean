import Cuttlegate.Theory.GoEvents

/-!
# What a Subscription Delivers

What the consumer of a subscription of the Go client gets, however the network,
the runtime and the consumer itself come between each other.

The goroutine waits to send an update, so updates are kept: each one is taken,
in the buffer, or on its way there, and at most the one on its way is given up,
when the context is cancelled. It never waits to send an error, so errors are
lost exactly when sixteen are unread. This includes the error of a refused
token, after which the channels are closed.

What holds along a run follows event by event.

## Main definitions

* `told`: What the events of a run say.
* `receivedUpdates`, `receivedErrs`, `droppedUpdates`: What becomes of it.
* `Subscription.Working`: What holds along every run.

## Theorems

* `subscribe_delivers`: What becomes of the updates.
* `subscribe_reports`, `subscribe_refused`: What becomes of the errors.
* `subscribe_closes`: What a cancellation leads to.
-/

namespace Cuttlegate.Sdk.Go

/-! ## What a run tells -/

/-- What the events of a run say, each given whether the context has been
    cancelled before it. -/
def told {β : Type} (tells : Bool → SubscribeEvent → List β) : Bool → List SubscribeEvent → List β
  | _, [] => []
  | cancelled, e :: rest => tells cancelled e ++ told tells (cancelled || e == .cancel) rest

theorem told_snoc {β : Type} (tells : Bool → SubscribeEvent → List β) (cancelled : Bool)
    (H : List SubscribeEvent) (e : SubscribeEvent) :
    told tells cancelled (H ++ [e]) =
      told tells cancelled H ++ tells (cancelled || decide (.cancel ∈ H)) e := by
  induction H generalizing cancelled with
  | nil => simp [told]
  | cons a rest ih =>
      have hmem : (a == .cancel || decide (SubscribeEvent.cancel ∈ rest)) =
          decide (SubscribeEvent.cancel ∈ a :: rest) := by
        rw [Bool.eq_iff_iff, Bool.or_eq_true, beq_iff_eq, decide_eq_true_eq, decide_eq_true_eq,
          List.mem_cons]
        exact or_congr_left eq_comm
      rw [List.cons_append, told, ih, told, List.append_assoc, Bool.or_assoc, hmem]

def Heard.toUpdate : Heard → Option FlagUpdate
  | .update key enabled updatedAt => some ⟨key, enabled, updatedAt⟩
  | .error _ => none

def Heard.toErr : Heard → Option StreamError
  | .update _ _ _ => none
  | .error message => some (.line message)

namespace SubscribeEvent

variable (parse : String → Option Json) (key : String)

/-- The updates an event brings: lines count until the context is cancelled. -/
def updates (cancelled : Bool) : SubscribeEvent → List FlagUpdate
  | .line text => if cancelled then [] else (processLine parse key text).filterMap Heard.toUpdate
  | _ => []

/-- The errors an event brings. -/
def errs (cancelled : Bool) : SubscribeEvent → List StreamError
  | .requestFailed cause => if cancelled then [] else [.connection cause]
  | .responded statusCode =>
      if statusCode = 401 ∨ statusCode = 403 then [.auth statusCode]
      else if statusCode ≥ 500 then [.server statusCode]
      else if statusCode ≠ 200 then [.unexpectedStatus statusCode]
      else []
  | .line text => if cancelled then [] else (processLine parse key text).filterMap Heard.toErr
  | _ => []

def toUpdate : SubscribeEvent → Option FlagUpdate
  | .receivedUpdate update => some update
  | _ => none

def toErr : SubscribeEvent → Option StreamError
  | .receivedErr err => some err
  | _ => none

def toDropped : SubscribeEvent → Option FlagUpdate
  | .sendCancelled update => some update
  | _ => none

end SubscribeEvent

/-- The updates the consumer has taken. -/
def receivedUpdates (H : List SubscribeEvent) : List FlagUpdate := H.filterMap (·.toUpdate)

/-- The errors it has taken. -/
def receivedErrs (H : List SubscribeEvent) : List StreamError := H.filterMap (·.toErr)

/-- The updates given up when the context was cancelled. -/
def droppedUpdates (H : List SubscribeEvent) : List FlagUpdate := H.filterMap (·.toDropped)

namespace Subscription

/-- The update that waits for room. -/
def pending (s : Subscription) : List FlagUpdate :=
  match s.point with
  | .sending update => [update]
  | _ => []

/-- Every update of the run so far has been taken, is in the buffer, waits for
    room, or was given up. -/
structure Delivering (parse : String → Option Json) (key : String) (H : List SubscribeEvent)
    (s : Subscription) : Prop where
  keyed : s.key = key
  cancelled : s.cancelled = decide (SubscribeEvent.cancel ∈ H)
  updates : receivedUpdates H ++ s.updates.buf ++ (s.pending ++ droppedUpdates H) =
    told (SubscribeEvent.updates parse key) false H
  dropped : droppedUpdates H ≠ [] → s.leaving = true
  alone : (droppedUpdates H).length ≤ 1
  room : s.updates.buf.length ≤ channelSize

variable {parse : String → Option Json} {key : String} {H : List SubscribeEvent}
  {s t : Subscription} {e : SubscribeEvent}

-- What an event hands over is read off its constructor.
attribute [local simp] SubscribeEvent.toUpdate SubscribeEvent.toErr SubscribeEvent.toDropped

/-- Nothing has been given up while the goroutine is at work. -/
theorem Delivering.none_dropped (hs : Delivering parse key H s) (h : s.leaving = false) :
    droppedUpdates H = [] := by
  by_contra hne
  rw [hs.dropped hne] at h
  exact Bool.noConfusion h

theorem received_snoc (H : List SubscribeEvent) (e : SubscribeEvent) :
    receivedUpdates (H ++ [e]) = receivedUpdates H ++ e.toUpdate.toList ∧
      receivedErrs (H ++ [e]) = receivedErrs H ++ e.toErr.toList ∧
      droppedUpdates (H ++ [e]) = droppedUpdates H ++ e.toDropped.toList := by
  refine ⟨?_, ?_, ?_⟩ <;>
  · simp only [receivedUpdates, receivedErrs, droppedUpdates, List.filterMap_append]
    cases e <;> rfl

/-- An event that tells nothing about updates, at a point where none is on its
    way to the channel. -/
theorem Delivering.quiet (hs : Delivering parse key H s)
    (he : e.toUpdate = none ∧ e.toDropped = none) (hkey : t.key = s.key)
    (hcancelled : t.cancelled = decide (SubscribeEvent.cancel ∈ H ++ [e]))
    (htells : e.updates parse key s.cancelled = []) (hpending : t.pending = s.pending)
    (hbuf : t.updates.buf = s.updates.buf) (hleaving : s.leaving = true → t.leaving = true) :
    Delivering parse key (H ++ [e]) t := by
  rcases received_snoc H e with ⟨hreceived, _, hdropped⟩
  rw [he.1, Option.toList_none, List.append_nil] at hreceived
  rw [he.2, Option.toList_none, List.append_nil] at hdropped
  refine ⟨hkey.trans hs.keyed, hcancelled, ?_, ?_, ?_, ?_⟩
  · rw [told_snoc, Bool.false_or, ← hs.cancelled, htells, List.append_nil, hreceived, hdropped,
      hpending, hbuf]
    exact hs.updates
  · rw [hdropped]
    exact fun hne => hleaving (hs.dropped hne)
  · rw [hdropped]
    exact hs.alone
  · rw [hbuf]
    exact hs.room

/-- Only a cancellation cancels. -/
theorem Delivering.still (hs : Delivering parse key H s) (he : e ≠ .cancel) :
    s.cancelled = decide (SubscribeEvent.cancel ∈ H ++ [e]) := by
  rw [hs.cancelled]
  simp [he.symm]

theorem pending_of_point (h : ∀ update, s.point ≠ .sending update) : s.pending = [] := by
  unfold pending
  cases hpoint : s.point with
  | sending update => exact absurd hpoint (h update)
  | _ => rfl

theorem leaving_of_point (h : s.point ≠ .returning ∧ s.point ≠ .closedErrs ∧ s.point ≠ .done) :
    s.leaving = false := by
  simp [leaving, h]

theorem reconnect_pending (s : Subscription) : s.reconnect.pending = [] := by
  refine pending_of_point (fun update hpoint => ?_)
  rcases reconnect_point s with h | h <;> rw [h] at hpoint <;> cases hpoint

/-- The goroutine goes on, or stops, without an update to send. -/
theorem Delivering.move (hs : Delivering parse key H s)
    (hpoint : s.point = .waiting ∨ s.point = .connecting ∨ s.point = .reading)
    (he : e.toUpdate = none ∧ e.toDropped = none ∧ e ≠ .cancel) (hkey : t.key = s.key)
    (hcancelled : t.cancelled = s.cancelled) (htells : e.updates parse key s.cancelled = [])
    (hpending : t.pending = []) (hbuf : t.updates.buf = s.updates.buf) :
    Delivering parse key (H ++ [e]) t := by
  have hidle : s.pending = [] ∧ s.leaving = false := by
    rcases hpoint with h | h | h <;> simp [pending, leaving, h]
  refine hs.quiet ⟨he.1, he.2.1⟩ hkey (hcancelled.trans (hs.still he.2.2)) htells ?_ hbuf ?_
  · rw [hpending, hidle.1]
  · rw [hidle.2]
    exact fun h => Bool.noConfusion h

theorem Delivering.start (parse : String → Option Json) (key : String) :
    Delivering parse key [] { key := key } :=
  ⟨rfl, rfl, rfl, fun h => absurd rfl h, Nat.zero_le _, Nat.zero_le _⟩

/-- A line with an update is followed by its sending. -/
theorem Delivering.line (hs : Delivering parse key H s) (text : List Char)
    (message : Option String) (update : Option FlagUpdate) (hpoint : s.point = .reading)
    (hcancelled : s.cancelled = false)
    (hheard : processLine parse s.key text =
      message.toList.map Heard.error ++ update.toList.map FlagUpdate.heard) :
    Delivering parse key (H ++ [.line text])
      (((message.map StreamError.line).elim s (fun err => s.putErr err)).turn update) := by
  have hnone := hs.none_dropped (leaving_of_point (by simp [hpoint]))
  have hnew : SubscribeEvent.updates parse key false (.line text) = update.toList := by
    rw [← hs.keyed]
    simp only [SubscribeEvent.updates, Bool.false_eq_true, if_false, hheard]
    cases message <;> cases update <;> rfl
  -- The error goes to the other channel.
  have hframe : ((message.map StreamError.line).elim s (fun err => s.putErr err)).updates =
      s.updates ∧ ((message.map StreamError.line).elim s (fun err => s.putErr err)).key = s.key ∧
      ((message.map StreamError.line).elim s (fun err => s.putErr err)).cancelled =
        s.cancelled ∧
      ((message.map StreamError.line).elim s (fun err => s.putErr err)).point = s.point := by
    cases message <;> exact ⟨rfl, rfl, rfl, rfl⟩
  rcases received_snoc H (.line text) with ⟨hreceived, _, hdropped⟩
  rw [hnone] at hdropped
  have hupdates := hs.updates
  rw [hnone, pending_of_point (s := s) (by simp [hpoint])] at hupdates
  refine ⟨?_, ?_, ?_, ?_, ?_, ?_⟩
  · rw [(turn_frame _ _).1, hframe.2.1, hs.keyed]
  · rw [(turn_frame _ _).2.1, hframe.2.2.1]
    exact hs.still (by simp)
  · -- Nothing was on its way, so the new update comes last.
    have hpending : (((message.map StreamError.line).elim s
        (fun err => s.putErr err)).turn update).pending = update.toList := by
      rw [pending, turn_point, hframe.2.2.2, hpoint]
      cases update <;> rfl
    rw [told_snoc, Bool.false_or, ← hs.cancelled, hcancelled, hnew, ← hupdates, hreceived, hdropped,
      hpending, (turn_frame _ _).2.2.1, hframe.1]
    simp
  · rw [hdropped]
    exact fun hne => absurd rfl hne
  · rw [hdropped]
    exact Nat.zero_le _
  · rw [(turn_frame _ _).2.2.1, hframe.1]
    exact hs.room

/-- The update that waited goes into the buffer. -/
theorem Delivering.sent (hs : Delivering parse key H s) (update : FlagUpdate)
    (hpoint : s.point = .sending update) (hroom : s.updates.buf.length < channelSize) :
    Delivering parse key (H ++ [.sent])
      { s with updates.buf := s.updates.buf ++ [update], point := .reading } := by
  have hnone := hs.none_dropped (leaving_of_point (by simp [hpoint]))
  have hpending : s.pending = [update] := by rw [pending, hpoint]
  have hupdates := hs.updates
  rcases received_snoc H .sent with ⟨hreceived, _, hdropped⟩
  rw [hnone] at hdropped hupdates
  rw [hpending] at hupdates
  refine ⟨hs.keyed, hs.still (by simp), ?_, ?_, ?_, ?_⟩
  · rw [told_snoc, ← hupdates, hreceived, hdropped]
    simp [pending, SubscribeEvent.updates]
  · rw [hdropped]
    exact fun hne => absurd rfl hne
  · rw [hdropped]
    exact Nat.zero_le _
  · rw [List.length_append, List.length_singleton]
    exact hroom

/-- The update that waited is given up. -/
theorem Delivering.sendCancelled (hs : Delivering parse key H s) (update : FlagUpdate)
    (hpoint : s.point = .sending update) :
    Delivering parse key (H ++ [.sendCancelled update]) s.stop := by
  have hnone := hs.none_dropped (leaving_of_point (by simp [hpoint]))
  have hpending : s.pending = [update] := by rw [pending, hpoint]
  have hupdates := hs.updates
  rcases received_snoc H (.sendCancelled update) with ⟨hreceived, _, hdropped⟩
  rw [hnone] at hdropped hupdates
  rw [hpending] at hupdates
  refine ⟨hs.keyed, hs.still (by simp), ?_, fun _ => rfl, ?_, hs.room⟩
  · rw [told_snoc, ← hupdates, hreceived, hdropped]
    simp [pending, stop, SubscribeEvent.updates]
  · rw [hdropped]
    exact le_refl _

/-- The consumer takes the first update of the buffer. -/
theorem Delivering.receivedUpdate (hs : Delivering parse key H s) (update : FlagUpdate)
    (rest : List FlagUpdate) (hbuf : s.updates.buf = update :: rest) :
    Delivering parse key (H ++ [.receivedUpdate update]) { s with updates.buf := rest } := by
  have hupdates := hs.updates
  have hroom := hs.room
  rcases received_snoc H (.receivedUpdate update) with ⟨hreceived, _, hdropped⟩
  simp only [SubscribeEvent.toDropped, Option.toList_none, List.append_nil] at hdropped
  rw [hbuf] at hupdates
  rw [hbuf, List.length_cons] at hroom
  refine ⟨hs.keyed, hs.still (by simp), ?_, ?_, ?_, Nat.le_of_succ_le hroom⟩
  · rw [told_snoc, ← hupdates, hreceived, hdropped]
    simp [pending, SubscribeEvent.updates]
  · rw [hdropped]
    exact hs.dropped
  · rw [hdropped]
    exact hs.alone

theorem Delivering.step (hs : Delivering parse key H s) (h : Does parse s e t) :
    Delivering parse key (H ++ [e]) t := by
  cases h with
  | cancel => exact hs.quiet ⟨rfl, rfl⟩ rfl (by simp) rfl rfl rfl id
  | receivedErr => exact hs.quiet ⟨rfl, rfl⟩ rfl (hs.still (by simp)) rfl rfl rfl id
  | backoffElapsed hpoint =>
      exact hs.move (.inl hpoint) (by simp) rfl rfl rfl rfl rfl
  | backoffCancelled hpoint =>
      exact hs.move (.inl hpoint) (by simp) rfl rfl rfl rfl rfl
  | badRequest hpoint | requestCancelled _ hpoint | refused _ hpoint | opened hpoint =>
      exact hs.move (.inr (.inl hpoint)) (by simp) rfl rfl rfl rfl rfl
  | requestFailed _ hpoint | failed _ _ hpoint =>
      exact hs.move (.inr (.inl hpoint)) (by simp) rfl rfl rfl (reconnect_pending _) rfl
  | lineCancelled text hpoint hcancelled =>
      exact hs.move (.inr (.inr hpoint)) (by simp) rfl rfl
        (by simp [SubscribeEvent.updates, hcancelled]) rfl rfl
  | line text message update hpoint hcancelled hheard =>
      exact hs.line text message update hpoint hcancelled hheard
  | endedCancelled hpoint =>
      exact hs.move (.inr (.inr hpoint)) (by simp) rfl rfl rfl rfl rfl
  | ended hpoint =>
      exact hs.move (.inr (.inr hpoint)) (by simp) rfl rfl rfl (reconnect_pending _) rfl
  | closeErrs hpoint | closeUpdates hpoint =>
      refine hs.quiet ⟨rfl, rfl⟩ rfl (hs.still (by simp)) rfl ?_ rfl (fun _ => rfl)
      rw [pending_of_point (s := s) (by simp [hpoint])]
      rfl
  | sent update hpoint hroom => exact hs.sent update hpoint hroom
  | sendCancelled update hpoint => exact hs.sendCancelled update hpoint
  | receivedUpdate update rest hbuf => exact hs.receivedUpdate update rest hbuf

/-! ## Errors -/

/-- An error is taken from the buffer, or what the event says goes into it if
    there is room. -/
theorem does_errs (h : Does parse s e t) :
    (∃ err, e = .receivedErr err ∧ s.errs.buf = err :: t.errs.buf) ∨
      (e.toErr = none ∧ t.errs.buf = s.errs.buf ++
        if s.errs.buf.length < channelSize then e.errs parse s.key s.cancelled else []) := by
  -- A full channel drops the error.
  have hput : ∀ err : StreamError, (s.putErr err).errs.buf = s.errs.buf ++
      if s.errs.buf.length < channelSize then [err] else [] := by
    intro err
    unfold putErr
    by_cases hroom : s.errs.buf.length < channelSize
    · simp only [if_pos hroom]
    · simp only [if_neg hroom, List.append_nil]
  cases h with
  | receivedErr err rest hbuf => exact .inl ⟨err, rfl, hbuf⟩
  | requestCancelled cause hpoint hcancelled =>
      exact .inr ⟨rfl, by simp [SubscribeEvent.errs, hcancelled, stop]⟩
  | requestFailed cause hpoint hcancelled =>
      refine .inr ⟨rfl, (hput _).trans ?_⟩
      simp [SubscribeEvent.errs, hcancelled]
  | refused statusCode hpoint hstatus =>
      refine .inr ⟨rfl, (hput _).trans ?_⟩
      simp only [SubscribeEvent.errs, if_pos hstatus]
  | failed statusCode err hpoint hstatus herr =>
      refine .inr ⟨rfl, (hput _).trans ?_⟩
      rw [herr]
      simp only [SubscribeEvent.errs, hstatus.1, hstatus.2.1, hstatus.2.2, or_self, if_false,
        ne_eq, not_false_eq_true, if_true]
      by_cases hserver : statusCode ≥ 500
      · simp only [if_pos hserver]
      · simp only [if_neg hserver]
  | opened => exact .inr ⟨rfl, by simp [SubscribeEvent.errs]⟩
  | lineCancelled text hpoint hcancelled =>
      exact .inr ⟨rfl, by simp [SubscribeEvent.errs, hcancelled, stop]⟩
  | line text message update hpoint hcancelled hheard =>
      -- A line brings at most one error.
      have hnew : SubscribeEvent.errs parse s.key false (.line text) =
          (message.map StreamError.line).toList := by
        simp only [SubscribeEvent.errs, Bool.false_eq_true, if_false, hheard]
        cases message <;> cases update <;> rfl
      refine .inr ⟨rfl, ?_⟩
      rw [(turn_frame _ _).2.2.2, hcancelled, hnew]
      cases message with
      | none => simp
      | some message => exact hput (.line message)
  | _ => exact .inr ⟨rfl, by simp [SubscribeEvent.errs, stop, reconnect]⟩

/-- What an event does to the errors the consumer has got or can get. -/
theorem got_step (hs : Delivering parse key H s) (h : Does parse s e t) :
    receivedErrs (H ++ [e]) ++ t.errs.buf = receivedErrs H ++ s.errs.buf ++
      if s.errs.buf.length < channelSize then e.errs parse key s.cancelled else [] := by
  rw [(received_snoc H e).2.1]
  rcases does_errs h with ⟨err, rfl, hbuf⟩ | ⟨htaken, hbuf⟩
  · rw [hbuf]
    simp [SubscribeEvent.errs]
  · rw [htaken, hbuf, hs.keyed]
    simp

/-- Why a goroutine stops, and why an update is given up. -/
structure Stopping (H : List SubscribeEvent) (s : Subscription) : Prop where
  leaving : s.leaving = true → SubscribeEvent.cancel ∈ H ∨ SubscribeEvent.badRequest ∈ H ∨
    ∃ statusCode, SubscribeEvent.responded statusCode ∈ H ∧ (statusCode = 401 ∨ statusCode = 403)
  dropped : droppedUpdates H ≠ [] → SubscribeEvent.cancel ∈ H

/-- What was a reason before is one now. -/
theorem Stopping.later (hs : Stopping H s) (hdropped : e.toDropped = none)
    (hleaving : t.leaving = true → s.leaving = true) : Stopping (H ++ [e]) t := by
  refine ⟨fun h => ?_, fun h => List.mem_append_left _ (hs.dropped ?_)⟩
  · rcases hs.leaving (hleaving h) with h | h | ⟨statusCode, h, hstatus⟩
    · exact .inl (List.mem_append_left _ h)
    · exact .inr (.inl (List.mem_append_left _ h))
    · exact .inr (.inr ⟨statusCode, List.mem_append_left _ h, hstatus⟩)
  · rw [(received_snoc H e).2.2, hdropped, Option.toList_none, List.append_nil] at h
    exact h

/-- The cancellation is the reason. -/
theorem Stopping.cancelled (hd : Delivering parse key H s) (hcancelled : s.cancelled = true) :
    Stopping (H ++ [e]) t := by
  rw [hd.cancelled, decide_eq_true_eq] at hcancelled
  exact ⟨fun _ => .inl (List.mem_append_left _ hcancelled),
    fun _ => List.mem_append_left _ hcancelled⟩

theorem reconnect_leaving (s : Subscription) : s.reconnect.leaving = false := by
  refine leaving_of_point ?_
  rcases reconnect_point s with h | h <;> simp [h]

theorem Stopping.step (hs : Stopping H s) (hd : Delivering parse key H s) (h : Does parse s e t) :
    Stopping (H ++ [e]) t := by
  cases h with
  | cancel | receivedUpdate | receivedErr => exact hs.later rfl id
  | backoffElapsed => exact hs.later rfl (fun h => Bool.noConfusion h)
  | opened => exact hs.later rfl (fun h => Bool.noConfusion h)
  | sent => exact hs.later rfl (fun h => Bool.noConfusion h)
  -- After a failure the loop turns back to a wait or to the next attempt.
  | requestFailed | failed | ended =>
      refine hs.later rfl (fun h => ?_)
      rw [reconnect_leaving] at h
      exact Bool.noConfusion h
  | line text message update hpoint =>
      refine hs.later rfl (fun h => ?_)
      rw [Subscription.leaving, turn_point] at h
      cases message <;> cases update <;> simp [hpoint] at h
  | closeErrs hpoint | closeUpdates hpoint =>
      exact hs.later rfl (fun _ => by simp [Subscription.leaving, hpoint])
  -- The three reasons to stop: no request, a refusal, the cancellation.
  | badRequest =>
      refine ⟨fun _ => .inr (.inl (List.mem_append_right _ List.mem_cons_self)), fun h => ?_⟩
      rw [(received_snoc H .badRequest).2.2] at h
      exact List.mem_append_left _ (hs.dropped (by simpa using h))
  | refused statusCode hpoint hstatus =>
      refine ⟨fun _ => .inr (.inr ⟨statusCode, List.mem_append_right _ List.mem_cons_self,
        hstatus⟩), fun h => ?_⟩
      rw [(received_snoc H (.responded statusCode)).2.2] at h
      exact List.mem_append_left _ (hs.dropped (by simpa using h))
  | backoffCancelled _ hcancelled | endedCancelled _ hcancelled =>
      exact Stopping.cancelled hd hcancelled
  | requestCancelled _ _ hcancelled | lineCancelled _ _ hcancelled
  | sendCancelled _ _ hcancelled => exact Stopping.cancelled hd hcancelled

/-! ## Runs -/

/-- What holds of a subscription that has been at work for a while. -/
structure Working (parse : String → Option Json) (key : String) (H : List SubscribeEvent)
    (s : Subscription) : Prop where
  closing : s.Closing
  delivering : Delivering parse key H s
  stopping : Stopping H s

theorem Working.step (hs : Working parse key H s) (h : s.step parse e = some (.ok t)) :
    Working parse key (H ++ [e]) t ∧ Does parse s e t := by
  rcases step_does parse s hs.closing e _ h with ⟨u, hu, hdoes⟩
  cases hu
  exact ⟨⟨hs.closing.step parse hdoes, hs.delivering.step hdoes,
    hs.stopping.step hs.delivering hdoes⟩, hdoes⟩

variable {s₀ : Subscription}

theorem run_working (hsub : Subscribe key = some s₀) (hrun : Run parse s₀ H t) :
    Working parse key H t := by
  have hstart : Working parse key [] s₀ := by
    cases (Option.ite_none_left_eq_some.mp hsub).2
    exact ⟨⟨rfl, rfl⟩, Delivering.start parse key, ⟨fun h => Bool.noConfusion h,
      fun h => absurd rfl h⟩⟩
  exact Steps.invariant (Working parse key) s₀ hstart
    (fun H s e t _ hs hstep => (hs.step hstep).1) H t hrun

/-- What comes after the goroutine has decided to stop brings no error. -/
theorem leaving_step (key : String) (hs : s.leaving = true) (h : Does parse s e t) :
    t.leaving = true ∧ e.errs parse key s.cancelled = [] := by
  have hpoint : s.point = .returning ∨ s.point = .closedErrs ∨ s.point = .done := by
    simpa [leaving, or_assoc] using hs
  cases h with
  | cancel | receivedUpdate | receivedErr => exact ⟨hs, rfl⟩
  | closeErrs | closeUpdates => exact ⟨rfl, rfl⟩
  | _ => simp_all

/-! ## After a cancellation -/

/-- How many more events of the goroutine there can be before it is gone. -/
def left (s : Subscription) : Nat :=
  match s.point with
  | .waiting => 5
  | .connecting | .sending _ => 4
  | .reading => 3
  | .returning => 2
  | .closedErrs => 1
  | .done => 0

end Subscription

/-- Whether the event is one of the goroutine, and not of its consumer. -/
def SubscribeEvent.own : SubscribeEvent → Bool
  | .cancel | .receivedUpdate _ | .receivedErr _ => false
  | _ => true

/-- Whether the event is a response that calls for another attempt. -/
def SubscribeEvent.retries : SubscribeEvent → Bool
  | .responded statusCode => statusCode != 200 && statusCode != 401 && statusCode != 403
  | _ => false

namespace Subscription

variable {parse : String → Option Json} {key : String} {H : List SubscribeEvent}
  {s t s₀ : Subscription} {e : SubscribeEvent}

/-- Once cancelled, the goroutine only gets closer to its end. -/
theorem left_step (h : Does parse s e t) (hcancelled : s.cancelled = true)
    (hretries : e.retries = false) :
    t.cancelled = true ∧ t.left + (if e.own then 1 else 0) ≤ s.left := by
  cases h with
  | cancel => exact ⟨rfl, le_refl _⟩
  | receivedUpdate | receivedErr => exact ⟨hcancelled, le_refl _⟩
  | requestFailed _ _ hnot | line _ _ _ _ hnot | ended _ hnot =>
      rw [hcancelled] at hnot
      exact Bool.noConfusion hnot
  | failed statusCode _ _ hstatus => simp [SubscribeEvent.retries, hstatus] at hretries
  | _ => exact ⟨hcancelled, by simp_all [left, stop, SubscribeEvent.own]⟩

/-- As long as it is not gone, an event of the goroutine is possible, once it is
    cancelled or has decided to stop. -/
theorem left_possible (hs : s.Closing) (hends : s.cancelled = true ∨ s.leaving = true)
    (h : s.point ≠ .done) :
    ∃ e t, e.own = true ∧ e.retries = false ∧ s.step parse e = some (.ok t) := by
  -- At a point where it waits for something, it is the cancellation that ends the wait.
  have hcancelled : s.leaving = false → s.cancelled = true := by
    intro hstays
    rcases hends with hcancelled | hleaving
    · exact hcancelled
    · exact absurd (hstays.symm.trans hleaving) Bool.false_ne_true
  cases hpoint : s.point with
  | waiting =>
      have hc := hcancelled (leaving_of_point (by simp [hpoint]))
      exact ⟨.backoffCancelled, _, rfl, rfl, if_pos ⟨hpoint, hc⟩⟩
  | connecting =>
      have hc := hcancelled (leaving_of_point (by simp [hpoint]))
      refine ⟨.requestFailed "context canceled", s.stop, rfl, rfl, ?_⟩
      rw [step, if_pos hpoint, if_pos hc]
  | reading =>
      have hc := hcancelled (leaving_of_point (by simp [hpoint]))
      refine ⟨.ended, s.stop, rfl, rfl, ?_⟩
      rw [step, if_pos hpoint, if_pos hc]
  | sending update =>
      have hc := hcancelled (leaving_of_point (by simp [hpoint]))
      exact ⟨.sendCancelled update, _, rfl, rfl, if_pos ⟨hpoint, hc⟩⟩
  -- From here on nothing is waited for.
  | returning =>
      refine ⟨.closeErrs, { s with errs.closed := true, point := .closedErrs }, rfl, rfl, ?_⟩
      rw [step, if_pos hpoint, Chan.close, hs.errs_open (by simp [hpoint]) (by simp [hpoint])]
      rfl
  | closedErrs =>
      have hopen : s.updates.closed = false := by rw [hs.updates, hpoint]; rfl
      refine ⟨.closeUpdates, { s with updates.closed := true, point := .done }, rfl, rfl, ?_⟩
      rw [step, if_pos hpoint, Chan.close, hopen]
      rfl
  | done => exact absurd hpoint h

/-- So it closes both channels, if it is given the time. -/
theorem closed_or_possible (hs : s.Closing) (hends : s.cancelled = true ∨ s.leaving = true) :
    (s.errs.closed = true ∧ s.updates.closed = true) ∨
      ∃ e t, e.own = true ∧ e.retries = false ∧ s.step parse e = some (.ok t) := by
  by_cases hdone : s.point = .done
  · rw [hs.errs, hs.updates, hdone]
    exact .inl ⟨rfl, rfl⟩
  · exact .inr (left_possible hs hends hdone)

end Subscription

/-- Playing events that are possible is a run. -/
theorem Subscription.run_of_foldlM (parse : String → Option Json) (s : Subscription)
    (H : List SubscribeEvent) (t : Subscription)
    (h : H.foldlM (fun s e => (s.step parse e).bind Except.toOption) s = some t) :
    Subscription.Run parse s H t := by
  induction H generalizing s with
  | nil =>
      cases h
      exact Steps.refl _
  | cons e H ih =>
      rw [List.foldlM_cons] at h
      rcases Option.bind_eq_some_iff.mp h with ⟨u, hu, hrest⟩
      rcases Option.bind_eq_some_iff.mp hu with ⟨r, hr, hok⟩
      cases r with
      | error p => exact (nomatch hok)
      | ok v =>
          cases hok
          exact Steps.cons s e u H t hr (ih u hrest)

/-! ## What a subscription promises -/

section Results

variable {parse : String → Option Json} (key : String) (s₀ : Subscription)
  {H H' : List SubscribeEvent} {s t : Subscription}

/-- No update is lost, invented or moved, whatever the consumer and the network
    do: each one was taken, is in the buffer, or is the one that waits for room
    or was given up when the context was cancelled. Nothing panics, the
    channels are closed in turn, and the goroutine stops only when it is told
    to. -/
theorem subscribe_delivers (hsub : Subscribe key = some s₀)
    (hrun : Subscription.Run parse s₀ H t) :
    receivedUpdates H ++ t.updates.buf ++ (t.pending ++ droppedUpdates H) =
        told (SubscribeEvent.updates parse key) false H ∧
      (t.pending ++ droppedUpdates H).length ≤ 1 ∧
      (droppedUpdates H ≠ [] → .cancel ∈ H) ∧
      (∀ e p, t.step parse e ≠ some (.error p)) ∧
      t.errs.closed = (t.point == .closedErrs || t.point == .done) ∧
      t.updates.closed = (t.point == .done) ∧
      (t.leaving = true → .cancel ∈ H ∨ .badRequest ∈ H ∨
        ∃ statusCode, .responded statusCode ∈ H ∧ (statusCode = 401 ∨ statusCode = 403)) := by
  have hw := Subscription.run_working hsub hrun
  refine ⟨hw.delivering.updates, ?_, hw.stopping.dropped, fun e p hpanic => ?_, hw.closing.errs,
    hw.closing.updates, hw.stopping.leaving⟩
  · by_cases hleaving : t.leaving = true
    · -- On its way out it has nothing to send.
      have hpending : t.pending = [] := by
        refine Subscription.pending_of_point (fun update hpoint => ?_)
        rw [Subscription.leaving_of_point (by simp [hpoint])] at hleaving
        exact Bool.noConfusion hleaving
      rw [hpending, List.nil_append]
      exact hw.delivering.alone
    · rw [hw.delivering.none_dropped (Bool.eq_false_of_not_eq_true hleaving), List.append_nil,
        Subscription.pending]
      split <;> simp
  · rcases Subscription.step_does parse t hw.closing e _ hpanic with ⟨u, hu, _⟩
    cases hu

/-- A decoder that knows one text: a change of the flag `beta`, at no time that
    can be read. -/
def betaParse (text : String) : Option Json :=
  if text = "on" then
    some (.obj [("type", .str sseEventType), ("flag_key", .str "beta"), ("enabled", .bool true)])
  else none

/-- A stream with a line that is read, one that is not, and an update that the
    consumer takes. -/
def betaEvents : List SubscribeEvent :=
  [.responded 200, .line "data: on".toList, .sent, .line "data: off".toList,
    .receivedUpdate ⟨"beta", true, none⟩]

theorem subscribe_delivers_sample :
    ∃ t, Subscription.Run betaParse { key := "beta" } betaEvents t ∧
      receivedUpdates betaEvents ++ t.updates.buf ++
          (t.pending ++ droppedUpdates betaEvents) = [⟨"beta", true, none⟩] := by
  rcases hplay : betaEvents.foldlM (fun s e => (s.step betaParse e).bind Except.toOption)
    ({ key := "beta" } : Subscription) with _ | t
  · exact absurd hplay (by decide +kernel)
  have hrun := Subscription.run_of_foldlM betaParse _ betaEvents t hplay
  refine ⟨t, hrun, (subscribe_delivers "beta" { key := "beta" } rfl hrun).1.trans ?_⟩
  decide +kernel

/-- The errors the consumer gets are errors of the run, in order, and they are
    all of them if and only if each came when fewer than sixteen were unread. -/
theorem subscribe_reports (hsub : Subscribe key = some s₀)
    (hrun : Subscription.Run parse s₀ H t) :
    List.Sublist (receivedErrs H ++ t.errs.buf) (told (SubscribeEvent.errs parse key) false H) ∧
      (receivedErrs H ++ t.errs.buf = told (SubscribeEvent.errs parse key) false H ↔
        ∀ past e rest s, H = past ++ e :: rest → Subscription.Run parse s₀ past s →
          e.errs parse key s.cancelled ≠ [] → s.errs.buf.length < channelSize) := by
  have hkeep : List.Sublist (receivedErrs H ++ t.errs.buf)
      (told (SubscribeEvent.errs parse key) false H) ∧
      (receivedErrs H ++ t.errs.buf = told (SubscribeEvent.errs parse key) false H ↔
        Throughout (fun past e => ∀ s, Subscription.Run parse s₀ past s →
          e.errs parse key s.cancelled ≠ [] → s.errs.buf.length < channelSize) H) := by
    refine Steps.invariant (fun H t => List.Sublist (receivedErrs H ++ t.errs.buf)
      (told (SubscribeEvent.errs parse key) false H) ∧
      (receivedErrs H ++ t.errs.buf = told (SubscribeEvent.errs parse key) false H ↔
        Throughout (fun past e => ∀ s, Subscription.Run parse s₀ past s →
          e.errs parse key s.cancelled ≠ [] → s.errs.buf.length < channelSize) H)) s₀ ?_
      (fun H s e t hpast ih hstep => ?_) H t hrun
    · have hempty : s₀.errs.buf = [] := by
        cases (Option.ite_none_left_eq_some.mp hsub).2
        rfl
      rw [hempty]
      exact ⟨List.Sublist.refl _, iff_of_true rfl (throughout_nil _)⟩
    have hw := Subscription.run_working hsub hpast
    have hdoes := (hw.step hstep).2
    rw [Subscription.got_step hw.delivering hdoes, told_snoc, Bool.false_or,
      ← hw.delivering.cancelled, throughout_snoc, ← ih.2]
    -- The state at this point is the only one its history leads to.
    have honly : ∀ s', Subscription.Run parse s₀ H s' → s' = s := by
      intro s' hs'
      refine Steps.settled (fun t e u u' hu hu' => ?_) s₀ H s' s hs' hpast
      rw [hu] at hu'
      cases hu'
      rfl
    by_cases hroom : s.errs.buf.length < channelSize
    · rw [if_pos hroom]
      refine ⟨ih.1.append (List.Sublist.refl _), ?_⟩
      rw [List.append_left_inj]
      exact ⟨fun h => ⟨h, fun s' hs' _ => honly s' hs' ▸ hroom⟩, fun h => h.1⟩
    · rw [if_neg hroom, List.append_nil]
      refine ⟨ih.1.trans (List.sublist_append_left _ _), fun h => ?_, fun h => ?_⟩
      · -- The list has become longer if the event brought an error.
        have hlength := ih.1.length_le
        rw [h, List.length_append] at hlength
        have hnone : e.errs parse key s.cancelled = [] := by
          rw [← List.length_eq_zero_iff]
          omega
        rw [hnone, List.append_nil] at h
        refine ⟨h, fun s' hs' hne => ?_⟩
        rw [honly s' hs'] at hne
        exact absurd hnone hne
      · have hnone : e.errs parse key s.cancelled = [] := by
          by_contra hne
          exact hroom (h.2 s hpast hne)
        rw [hnone, List.append_nil]
        exact h.1
  refine ⟨hkeep.1, hkeep.2.trans ⟨fun h past e rest s hH hs => ?_, fun h past e rest hH s => ?_⟩⟩
  · exact h past e rest hH s hs
  · exact h past e rest s hH

theorem subscribe_reports_sample :
    ∃ t, Subscription.Run betaParse { key := "beta" } betaEvents t ∧
      List.Sublist (receivedErrs betaEvents ++ t.errs.buf)
        [.line "SSE invalid occurred_at", .line "SSE invalid JSON"] := by
  rcases hplay : betaEvents.foldlM (fun s e => (s.step betaParse e).bind Except.toOption)
    ({ key := "beta" } : Subscription) with _ | t
  · exact absurd hplay (by decide +kernel)
  have hrun := Subscription.run_of_foldlM betaParse _ betaEvents t hplay
  have htold : told (SubscribeEvent.errs betaParse "beta") false betaEvents =
      [.line "SSE invalid occurred_at", .line "SSE invalid JSON"] := by decide +kernel
  refine ⟨t, hrun, ?_⟩
  rw [← htold]
  exact (subscribe_reports "beta" { key := "beta" } rfl hrun).1

/-- A refused token is the last error the consumer gets, if fewer than sixteen
    were unread; otherwise the channels are closed without it. The goroutine has
    decided to stop, and until both channels are closed its next step is
    possible. -/
theorem subscribe_refused (hsub : Subscribe key = some s₀) {u : Subscription} {statusCode : Nat}
    (hpast : Subscription.Run parse s₀ H s)
    (hstatus : statusCode = 401 ∨ statusCode = 403)
    (hstep : s.step parse (.responded statusCode) = some (.ok u))
    (hrest : Subscription.Run parse u H' t) :
    receivedErrs (H ++ .responded statusCode :: H') ++ t.errs.buf =
        receivedErrs H ++ s.errs.buf ++
          (if s.errs.buf.length < channelSize then [.auth statusCode] else []) ∧
      t.leaving = true ∧
      ((t.errs.closed = true ∧ t.updates.closed = true) ∨
        ∃ e u, e.own = true ∧ e.retries = false ∧ t.step parse e = some (.ok u)) := by
  have hrun : Subscription.Run parse s₀ (H ++ [.responded statusCode]) u :=
    Steps.snoc s₀ H s _ u hpast hstep
  have hw := Subscription.run_working hsub hpast
  have hdoes := (hw.step hstep).2
  have hleaving : u.leaving = true := by
    cases hdoes with
    | refused => rfl
    | failed _ _ _ hother => exact absurd hstatus (by simp [hother])
    | opened => simp at hstatus
  have hgot := Subscription.got_step hw.delivering hdoes
  have hauth : SubscribeEvent.errs parse key s.cancelled (.responded statusCode) =
      [.auth statusCode] := if_pos hstatus
  rw [hauth] at hgot
  rw [List.append_cons, ← hgot]
  -- Nothing is added to the errors on the way out.
  have hout : receivedErrs (H ++ [.responded statusCode] ++ H') ++ t.errs.buf =
      receivedErrs (H ++ [.responded statusCode]) ++ u.errs.buf ∧ t.leaving = true := by
    refine (Steps.invariant (fun H' t => (receivedErrs (H ++ [.responded statusCode] ++ H') ++
        t.errs.buf = receivedErrs (H ++ [.responded statusCode]) ++ u.errs.buf ∧
        t.leaving = true)) u ?_ (fun H' v e t hv ih hlast => ?_) H' t hrest)
    · rw [List.append_nil]
      exact ⟨rfl, hleaving⟩
    · have hw' := Subscription.run_working hsub (Steps.append s₀ _ u H' v hrun hv)
      have hdoes' := (hw'.step hlast).2
      rcases Subscription.leaving_step key ih.2 hdoes' with ⟨hleaving', hnone⟩
      rw [← List.append_assoc, Subscription.got_step hw'.delivering hdoes', hnone, ite_self,
        List.append_nil]
      exact ⟨ih.1, hleaving'⟩
  have hw'' := Subscription.run_working hsub (Steps.append s₀ _ u H' t hrun hrest)
  exact ⟨hout.1, hout.2, Subscription.closed_or_possible hw''.closing (.inr hout.2)⟩

/-- A subscription that is refused at once. -/
theorem subscribe_refused_first :
    ∃ u t, Subscription.Run betaParse u [.closeErrs, .closeUpdates] t ∧
      receivedErrs [.responded 401, .closeErrs, .closeUpdates] ++ t.errs.buf = [.auth 401] := by
  have hstep : Subscription.step betaParse { key := "beta" } (.responded 401) =
      some (.ok { key := "beta", point := .returning, errs := ⟨[.auth 401], false⟩ }) := rfl
  have hrun : Subscription.Run betaParse
      { key := "beta", point := .returning, errs := ⟨[.auth 401], false⟩ }
      [.closeErrs, .closeUpdates]
      { key := "beta", point := .done, errs := ⟨[.auth 401], true⟩, updates := ⟨[], true⟩ } :=
    Subscription.run_of_foldlM betaParse _ _ _ rfl
  exact ⟨_, _, hrun, (subscribe_refused "beta" { key := "beta" } rfl
    (Steps.refl _) (.inl rfl) hstep hrun).1⟩

/-- Once the context is cancelled, the goroutine is gone after five more events
    of its own, unless a response calls for another attempt; until then one is
    possible, so that a consumer who waits sees both channels closed. -/
theorem subscribe_closes (hsub : Subscribe key = some s₀) (hpast : Subscription.Run parse s₀ H s)
    (hcancelled : .cancel ∈ H) (hrest : Subscription.Run parse s H' t)
    (hretries : ∀ e ∈ H', e.retries = false) :
    H'.countP SubscribeEvent.own ≤ 5 ∧
      ((t.errs.closed = true ∧ t.updates.closed = true) ∨
        ∃ e u, e.own = true ∧ e.retries = false ∧ t.step parse e = some (.ok u)) := by
  have hw := Subscription.run_working hsub hpast
  have hstart : s.cancelled = true := by
    rw [hw.delivering.cancelled]
    exact decide_eq_true hcancelled
  have hcount : (∀ e ∈ H', e.retries = false) → t.cancelled = true ∧
      t.left + H'.countP SubscribeEvent.own ≤ s.left := by
    refine Steps.invariant (fun H' t => (∀ e ∈ H', e.retries = false) → t.cancelled = true ∧
      t.left + H'.countP SubscribeEvent.own ≤ s.left) s (fun _ => ⟨hstart, le_refl _⟩)
      (fun H' v e t hv ih hlast hall => ?_) H' t hrest
    rcases ih (fun e he => hall e (List.mem_append_left _ he)) with ⟨hv', hleft⟩
    have hw' := Subscription.run_working hsub (Steps.append s₀ _ s H' v hpast hv)
    rcases Subscription.left_step (hw'.step hlast).2 hv'
      (hall e (List.mem_append_right _ List.mem_cons_self)) with ⟨ht, hless⟩
    rw [List.countP_append, List.countP_singleton]
    exact ⟨ht, by omega⟩
  rcases hcount hretries with ⟨ht, hleft⟩
  have hmax : s.left ≤ 5 := by
    unfold Subscription.left
    split <;> omega
  have hw' := Subscription.run_working hsub (Steps.append s₀ _ s H' t hpast hrest)
  refine ⟨by omega, ?_⟩
  exact Subscription.closed_or_possible hw'.closing (.inl ht)

/-- A subscription that is cancelled while it connects. -/
theorem subscribe_closes_connecting :
    [SubscribeEvent.requestFailed "context canceled", .closeErrs, .closeUpdates].countP
      SubscribeEvent.own ≤ 5 := by
  have hpast : Subscription.Run betaParse { key := "beta" } [.cancel]
      { key := "beta", cancelled := true } := Subscription.run_of_foldlM betaParse _ _ _ rfl
  have hrest : Subscription.Run betaParse { key := "beta", cancelled := true }
      [.requestFailed "context canceled", .closeErrs, .closeUpdates]
      { key := "beta", cancelled := true, point := .done, errs := ⟨[], true⟩,
        updates := ⟨[], true⟩ } := Subscription.run_of_foldlM betaParse _ _ _ rfl
  exact (subscribe_closes "beta" { key := "beta" } rfl hpast (by decide) hrest
    (by decide)).1

end Results

end Cuttlegate.Sdk.Go
