import Cuttlegate.Sdk.Subscribe

/-!
# The Events of a Subscription

What each event of a subscription of the Go client does. None that is possible
panics, since the deferred calls close each channel at a point of its own,
which the goroutine does not leave.

## Main definitions

* `Subscription.Does`, `Subscription.Closing`: What an event does, and the
  state of the channels.

## Theorems

* `Subscription.step_does`: A possible event does not panic.
* `Subscription.Closing.step`: The channels are closed in their order.
-/

namespace Cuttlegate.Sdk.Go

namespace Subscription

/-- An error is put into the buffer if there is room. -/
def putErr (err : StreamError) (s : Subscription) : Subscription :=
  { s with errs.buf := if s.errs.buf.length < channelSize then s.errs.buf ++ [err] else s.errs.buf }

/-- What a line leads to once its errors are sent. -/
def turn (update : Option FlagUpdate) (s : Subscription) : Subscription :=
  match update with
  | some update => { s with point := .sending update }
  | none => s

@[simp] theorem putErr_key (err : StreamError) (s : Subscription) :
    (s.putErr err).key = s.key := rfl

@[simp] theorem putErr_cancelled (err : StreamError) (s : Subscription) :
    (s.putErr err).cancelled = s.cancelled := rfl

@[simp] theorem putErr_point (err : StreamError) (s : Subscription) :
    (s.putErr err).point = s.point := rfl

@[simp] theorem putErr_updates (err : StreamError) (s : Subscription) :
    (s.putErr err).updates = s.updates := rfl

@[simp] theorem putErr_closed (err : StreamError) (s : Subscription) :
    (s.putErr err).errs.closed = s.errs.closed := rfl

theorem turn_frame (update : Option FlagUpdate) (s : Subscription) :
    (s.turn update).key = s.key ∧ (s.turn update).cancelled = s.cancelled ∧
      (s.turn update).updates = s.updates ∧ (s.turn update).errs = s.errs := by
  cases update <;> exact ⟨rfl, rfl, rfl, rfl⟩

/-- Where the goroutine is after a line. -/
theorem turn_point (update : Option FlagUpdate) (s : Subscription) :
    (s.turn update).point = update.elim s.point .sending := by
  cases update <;> rfl

/-- Where it is before another attempt. -/
theorem reconnect_point (s : Subscription) :
    s.reconnect.point = .waiting ∨ s.reconnect.point = .connecting := by
  unfold reconnect
  by_cases hattempt : (s.attempt + 1).toInt > 0
  · exact .inl (if_pos hattempt)
  · exact .inr (if_neg hattempt)

theorem sendErr_open (err : StreamError) (s : Subscription) (h : s.errs.closed = false) :
    s.sendErr err = .ok (s.putErr err) := by
  unfold sendErr putErr Chan.offer
  rw [h, if_neg Bool.false_ne_true]
  by_cases hroom : s.errs.buf.length < channelSize
  · simp only [if_pos hroom, ← h]
  · simp only [if_neg hroom]

end Subscription

/-- What is told of an update. -/
def FlagUpdate.heard (u : FlagUpdate) : Heard := .update u.key u.enabled u.updatedAt

/-- A line has at most one error and at most one update, which comes last. -/
theorem processLine_cases (parse : String → Option Json) (key : String) (line : List Char) :
    ∃ (message : Option String) (update : Option FlagUpdate),
      processLine parse key line =
        message.toList.map Heard.error ++ update.toList.map FlagUpdate.heard := by
  unfold processLine
  cases dataText isSpace (fun line => line == []) line with
  | none => exact ⟨none, none, rfl⟩
  | some jsonStr =>
      dsimp only
      cases (parse (String.ofList jsonStr)).bind unmarshal with
      | none => exact ⟨some _, none, rfl⟩
      | some wire =>
          dsimp only
          by_cases htype : wire.type ≠ sseEventType
          · rw [if_pos htype]
            exact ⟨none, none, rfl⟩
          by_cases hkey : wire.flagKey ≠ key
          · rw [if_neg htype, if_pos hkey]
            exact ⟨none, none, rfl⟩
          rw [if_neg htype, if_neg hkey]
          cases Calendar.parse wire.occurredAt.toList with
          | none => exact ⟨some _, some ⟨wire.flagKey, wire.enabled, none⟩, rfl⟩
          | some updatedAt => exact ⟨none, some ⟨wire.flagKey, wire.enabled, some updatedAt⟩, rfl⟩

/-- What an event does to a subscription. -/
inductive Subscription.Does (parse : String → Option Json) (s : Subscription) :
    SubscribeEvent → Subscription → Prop where
  | cancel : Does parse s .cancel { s with cancelled := true }
  | backoffElapsed (hpoint : s.point = .waiting) :
      Does parse s .backoffElapsed { s with point := .connecting }
  | backoffCancelled (hpoint : s.point = .waiting) (hcancelled : s.cancelled = true) :
      Does parse s .backoffCancelled s.stop
  | badRequest (hpoint : s.point = .connecting) : Does parse s .badRequest s.stop
  | requestCancelled (cause : String) (hpoint : s.point = .connecting)
      (hcancelled : s.cancelled = true) : Does parse s (.requestFailed cause) s.stop
  | requestFailed (cause : String) (hpoint : s.point = .connecting)
      (hcancelled : s.cancelled = false) :
      Does parse s (.requestFailed cause) (s.putErr (.connection cause)).reconnect
  | refused (statusCode : Nat) (hpoint : s.point = .connecting)
      (hstatus : statusCode = 401 ∨ statusCode = 403) :
      Does parse s (.responded statusCode) (s.putErr (.auth statusCode)).stop
  | failed (statusCode : Nat) (err : StreamError) (hpoint : s.point = .connecting)
      (hstatus : statusCode ≠ 401 ∧ statusCode ≠ 403 ∧ statusCode ≠ 200)
      (herr : err = if statusCode ≥ 500 then .server statusCode
        else .unexpectedStatus statusCode) :
      Does parse s (.responded statusCode) (s.putErr err).reconnect
  | opened (hpoint : s.point = .connecting) :
      Does parse s (.responded 200) { s with point := .reading }
  | lineCancelled (line : List Char) (hpoint : s.point = .reading)
      (hcancelled : s.cancelled = true) : Does parse s (.line line) s.stop
  | line (line : List Char) (message : Option String) (update : Option FlagUpdate)
      (hpoint : s.point = .reading) (hcancelled : s.cancelled = false)
      (hheard : processLine parse s.key line =
        message.toList.map Heard.error ++ update.toList.map FlagUpdate.heard) :
      Does parse s (.line line)
        (((message.map StreamError.line).elim s (fun err => s.putErr err)).turn update)
  | endedCancelled (hpoint : s.point = .reading) (hcancelled : s.cancelled = true) :
      Does parse s .ended s.stop
  | ended (hpoint : s.point = .reading) (hcancelled : s.cancelled = false) :
      Does parse s .ended s.reconnect
  | sent (update : FlagUpdate) (hpoint : s.point = .sending update)
      (hroom : s.updates.buf.length < channelSize) :
      Does parse s .sent
        { s with updates.buf := s.updates.buf ++ [update], point := .reading }
  | sendCancelled (update : FlagUpdate) (hpoint : s.point = .sending update)
      (hcancelled : s.cancelled = true) : Does parse s (.sendCancelled update) s.stop
  | closeErrs (hpoint : s.point = .returning) :
      Does parse s .closeErrs { s with errs.closed := true, point := .closedErrs }
  | closeUpdates (hpoint : s.point = .closedErrs) :
      Does parse s .closeUpdates { s with updates.closed := true, point := .done }
  | receivedUpdate (update : FlagUpdate) (rest : List FlagUpdate)
      (hbuf : s.updates.buf = update :: rest) :
      Does parse s (.receivedUpdate update) { s with updates.buf := rest }
  | receivedErr (err : StreamError) (rest : List StreamError) (hbuf : s.errs.buf = err :: rest) :
      Does parse s (.receivedErr err) { s with errs.buf := rest }

/-- The channels are closed one after the other, by the two deferred calls. -/
structure Subscription.Closing (s : Subscription) : Prop where
  errs : s.errs.closed = (s.point == .closedErrs || s.point == .done)
  updates : s.updates.closed = (s.point == .done)

namespace Subscription

theorem hear_open (message : Option String) (update : Option FlagUpdate) (s : Subscription)
    (h : s.errs.closed = false) :
    s.hear (message.toList.map Heard.error ++ update.toList.map FlagUpdate.heard) =
      .ok (((message.map StreamError.line).elim s (fun err => s.putErr err)).turn update) := by
  cases message with
  | none => cases update <;> rfl
  | some message =>
      simp only [Option.toList_some, List.map_cons, List.map_nil, List.cons_append,
        List.nil_append, hear, sendErr_open _ s h]
      cases update <;> rfl

/-- The channel of errors is open as long as the goroutine is at work. -/
theorem Closing.errs_open {s : Subscription} (hs : s.Closing) (h : s.point ≠ .closedErrs)
    (h' : s.point ≠ .done) : s.errs.closed = false := by
  rw [hs.errs]
  simp [h, h']

/-- A response is dealt with. -/
theorem respond_does (parse : String → Option Json) (s : Subscription) (hs : s.Closing)
    (hpoint : s.point = .connecting) (statusCode : Nat) :
    ∃ t, s.respond statusCode = .ok t ∧ Does parse s (.responded statusCode) t := by
  have hopen : s.errs.closed = false := hs.errs_open (by simp [hpoint]) (by simp [hpoint])
  unfold respond
  by_cases hauth : statusCode = 401 ∨ statusCode = 403
  · simp only [if_pos hauth, sendErr_open _ s hopen]
    exact ⟨_, rfl, .refused statusCode hpoint hauth⟩
  rw [not_or] at hauth
  by_cases hserver : statusCode ≥ 500
  · simp only [hauth.1, hauth.2, or_self, if_false, if_pos hserver, sendErr_open _ s hopen]
    exact ⟨_, rfl, .failed statusCode _ hpoint ⟨hauth.1, hauth.2, by omega⟩ (if_pos hserver).symm⟩
  by_cases hok : statusCode ≠ 200
  · simp only [hauth.1, hauth.2, or_self, if_false, if_neg hserver, if_pos hok,
      sendErr_open _ s hopen]
    exact ⟨_, rfl, .failed statusCode _ hpoint ⟨hauth.1, hauth.2, hok⟩ (if_neg hserver).symm⟩
  · rw [not_not] at hok
    rw [hok]
    exact ⟨_, rfl, .opened hpoint⟩

/-- An event that is possible does not panic, and does what it is meant to. -/
theorem step_does (parse : String → Option Json) (s : Subscription) (hs : s.Closing)
    (e : SubscribeEvent) (r : Except Panic Subscription) (h : s.step parse e = some r) :
    ∃ t, r = .ok t ∧ Does parse s e t := by
  -- A channel is open at the points where the loop writes to it or closes it, so nothing
  -- panics.
  cases e with
  | cancel =>
      cases h
      exact ⟨_, rfl, .cancel⟩
  | backoffElapsed =>
      rcases Option.ite_none_right_eq_some.mp h with ⟨hpoint, hr⟩
      cases hr
      exact ⟨_, rfl, .backoffElapsed hpoint⟩
  | backoffCancelled =>
      rcases Option.ite_none_right_eq_some.mp h with ⟨hpoint, hr⟩
      cases hr
      exact ⟨_, rfl, .backoffCancelled hpoint.1 hpoint.2⟩
  | badRequest =>
      rcases Option.ite_none_right_eq_some.mp h with ⟨hpoint, hr⟩
      cases hr
      exact ⟨_, rfl, .badRequest hpoint⟩
  | requestFailed cause =>
      rcases Option.ite_none_right_eq_some.mp h with ⟨hpoint, hr⟩
      cases hr
      cases hcancelled : s.cancelled with
      | true => exact ⟨_, rfl, .requestCancelled cause hpoint hcancelled⟩
      | false =>
          refine ⟨_, ?_, .requestFailed cause hpoint hcancelled⟩
          rw [if_neg Bool.false_ne_true,
            sendErr_open _ s (hs.errs_open (by simp [hpoint]) (by simp [hpoint]))]
          rfl
  | responded statusCode =>
      rcases Option.ite_none_right_eq_some.mp h with ⟨hpoint, hr⟩
      cases hr
      exact respond_does parse s hs hpoint statusCode
  | line line =>
      rcases Option.ite_none_right_eq_some.mp h with ⟨hpoint, hr⟩
      cases hr
      cases hcancelled : s.cancelled with
      | true => exact ⟨_, rfl, .lineCancelled line hpoint hcancelled⟩
      | false =>
          rcases processLine_cases parse s.key line with ⟨message, update, hheard⟩
          refine ⟨_, ?_, .line line message update hpoint hcancelled hheard⟩
          rw [if_neg Bool.false_ne_true, hheard]
          exact hear_open message update s (hs.errs_open (by simp [hpoint]) (by simp [hpoint]))
  | ended =>
      rcases Option.ite_none_right_eq_some.mp h with ⟨hpoint, hr⟩
      cases hr
      cases hcancelled : s.cancelled with
      | true => exact ⟨_, rfl, .endedCancelled hpoint hcancelled⟩
      | false => exact ⟨_, rfl, .ended hpoint hcancelled⟩
  | sent =>
      unfold step at h
      cases hpoint : s.point with
      | sending update =>
          have hopen : s.updates.closed = false := by rw [hs.updates, hpoint]; rfl
          simp only [hpoint, Chan.offer, hopen, Bool.false_eq_true, if_false] at h
          by_cases hroom : s.updates.buf.length < channelSize
          · rw [if_pos hroom] at h
            cases h
            exact ⟨_, rfl, by simpa [← hopen] using Does.sent update hpoint hroom⟩
          · rw [if_neg hroom] at h
            cases h
      | _ =>
          rw [hpoint] at h
          cases h
  | sendCancelled update =>
      rcases Option.ite_none_right_eq_some.mp h with ⟨hpoint, hr⟩
      cases hr
      exact ⟨_, rfl, .sendCancelled update hpoint.1 hpoint.2⟩
  | closeErrs =>
      rcases Option.ite_none_right_eq_some.mp h with ⟨hpoint, hr⟩
      cases hr
      refine ⟨_, ?_, .closeErrs hpoint⟩
      rw [Chan.close, hs.errs_open (by simp [hpoint]) (by simp [hpoint])]
      rfl
  | closeUpdates =>
      rcases Option.ite_none_right_eq_some.mp h with ⟨hpoint, hr⟩
      cases hr
      have hopen : s.updates.closed = false := by rw [hs.updates, hpoint]; rfl
      refine ⟨_, ?_, .closeUpdates hpoint⟩
      rw [Chan.close, hopen]
      rfl
  | receivedUpdate update =>
      unfold step at h
      cases hbuf : s.updates.buf with
      | nil =>
          rw [hbuf] at h
          cases h
      | cons u rest =>
          simp only [hbuf] at h
          rcases Option.ite_none_right_eq_some.mp h with ⟨rfl, hr⟩
          cases hr
          exact ⟨_, rfl, .receivedUpdate u rest hbuf⟩
  | receivedErr err =>
      unfold step at h
      cases hbuf : s.errs.buf with
      | nil =>
          rw [hbuf] at h
          cases h
      | cons e rest =>
          simp only [hbuf] at h
          rcases Option.ite_none_right_eq_some.mp h with ⟨rfl, hr⟩
          cases hr
          exact ⟨_, rfl, .receivedErr e rest hbuf⟩

/-- The state of the channels goes with the place the goroutine is at. -/
theorem Closing.of_point {s t : Subscription} (hs : s.Closing)
    (hout : s.point ≠ .closedErrs ∧ s.point ≠ .done) (herrs : t.errs.closed = s.errs.closed)
    (hupdates : t.updates.closed = s.updates.closed)
    (hout' : t.point ≠ .closedErrs ∧ t.point ≠ .done) : t.Closing := by
  refine ⟨?_, ?_⟩
  · rw [herrs, hs.errs_open hout.1 hout.2]
    simp [hout'.1, hout'.2]
  · rw [hupdates, hs.updates]
    simp [hout.2, hout'.2]

theorem Closing.step (parse : String → Option Json) {s t : Subscription} {e : SubscribeEvent}
    (hs : s.Closing) (h : Does parse s e t) : t.Closing := by
  cases h with
  | cancel => exact ⟨hs.errs, hs.updates⟩
  | receivedUpdate => exact ⟨hs.errs, hs.updates⟩
  | receivedErr => exact ⟨hs.errs, hs.updates⟩
  -- Only these two steps close a channel, each its own and in this order.
  | closeErrs hpoint =>
      have hopen := hs.updates
      rw [hpoint] at hopen
      exact ⟨rfl, hopen⟩
  | closeUpdates hpoint =>
      have hclosed := hs.errs
      rw [hpoint] at hclosed
      exact ⟨hclosed, rfl⟩
  | backoffElapsed hpoint => exact hs.of_point (by simp [hpoint]) rfl rfl (by simp)
  | backoffCancelled hpoint => exact hs.of_point (by simp [hpoint]) rfl rfl (by simp [stop])
  | badRequest hpoint => exact hs.of_point (by simp [hpoint]) rfl rfl (by simp [stop])
  | requestCancelled cause hpoint => exact hs.of_point (by simp [hpoint]) rfl rfl (by simp [stop])
  | requestFailed cause hpoint =>
      refine hs.of_point (by simp [hpoint]) rfl rfl ?_
      rcases reconnect_point (s.putErr (.connection cause)) with h | h <;> simp [h]
  | refused statusCode hpoint => exact hs.of_point (by simp [hpoint]) rfl rfl (by simp [stop])
  | failed statusCode err hpoint =>
      refine hs.of_point (by simp [hpoint]) rfl rfl ?_
      rcases reconnect_point (s.putErr err) with h | h <;> simp [h]
  | opened hpoint => exact hs.of_point (by simp [hpoint]) rfl rfl (by simp)
  | lineCancelled line hpoint => exact hs.of_point (by simp [hpoint]) rfl rfl (by simp [stop])
  | line line message update hpoint =>
      refine hs.of_point (by simp [hpoint]) ?_ ?_ ?_
      · rw [(turn_frame _ _).2.2.2]
        cases message <;> rfl
      · rw [(turn_frame _ _).2.2.1]
        cases message <;> rfl
      · rw [turn_point]
        cases message <;> cases update <;> simp [hpoint]
  | endedCancelled hpoint => exact hs.of_point (by simp [hpoint]) rfl rfl (by simp [stop])
  | ended hpoint =>
      refine hs.of_point (by simp [hpoint]) rfl rfl ?_
      rcases reconnect_point s with h | h <;> simp [h]
  | sent update hpoint => exact hs.of_point (by simp [hpoint]) rfl rfl (by simp)
  | sendCancelled update hpoint => exact hs.of_point (by simp [hpoint]) rfl rfl (by simp [stop])

end Subscription

end Cuttlegate.Sdk.Go
