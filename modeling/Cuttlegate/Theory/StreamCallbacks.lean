import Cuttlegate.Lib.Steps
import Cuttlegate.Sdk.ConnectionLoop

/-!
# Callbacks of the Connection Loop

Whether the consumer of a stream is told about the connections there were.

An established connection should be reported once, and as a reconnect if there
was one before; its end should be reported once unless the consumer has closed
the stream; nothing else should be reported. The loop decides both by one flag,
which is set after the first attempt, whatever came of it. So the end of a
first connection is not reported, an attempt that fails is reported as a
disconnect unless it is the first, and the first connection there is counts as
a reconnect after an attempt that failed.

What remains are the runs in which nothing but the first attempt is answered,
except with a refusal, and in which a connection ends with the close only. That
no attempt is made after a close or a refusal holds of all runs.

## Main definitions

* `ConnectionLoop.expected`: The callbacks a history calls for.
* `ConnectionLoop.MatchesHistory`: A run makes these callbacks.
* `ConnectionLoop.Undisturbed`: A run of the remaining kind.
* `ConnectionLoop.Tracked`: What the variables of the loop tell.

## Theorems

* `ConnectionLoop.tracked`: They tell it in every run.
* `ConnectionLoop.attempts_stop`: No attempt is made after the end.
* `ConnectionLoop.matchesHistory_iff`: Which runs make the callbacks.
-/

namespace Cuttlegate

namespace ConnectionLoop

/-- An event, with what the loop did about it. -/
abbrev Observed := Event × List Action

/-- A step of the loop as it is observed. -/
def Observes (s : Loop) (o : Observed) (t : Loop) : Prop := s.step o.1 = some (t, o.2)

/-- The events of a history. -/
def events (H : List Observed) : List Event := H.map Prod.fst

/-- Whether an action reports on the connection. -/
def Action.reports : Action → Bool
  | .onConnected _ | .onDisconnect => true
  | _ => false

/-- What should be reported of an event: an established connection, as a
    reconnect if there was one before, and the end of one before the close. -/
def expected (P : List Event) (e : Event) : List Action :=
  match e with
  | .response _ _ => if e.established then [.onConnected (P.any Event.established)] else []
  | .streamEnd _ => if .close ∈ P then [] else [.onDisconnect]
  | _ => []

/-- The consumer has closed the stream, or the token was refused. -/
def Over (P : List Event) : Prop := .close ∈ P ∨ ∃ e ∈ P, e.refused = true

/-- Every event is reported as it should be, and no attempt is made once it is
    over. -/
def MatchesHistory : List Observed → Prop :=
  Throughout (fun P o => o.2.filter Action.reports = expected (events P) o.1 ∧
    (.fetch ∈ o.2 → ¬ Over (events P)))

/-- A connection may end after the close only, and beside refusals nothing but
    the first attempt may be answered before it. -/
def Spares (P : List Event) : Event → Prop
  | .streamEnd _ => .close ∈ P
  | .rejected => .close ∈ P ∨ .timer ∉ P
  | .response status body => (Event.response status body).refused = true ∨ .timer ∉ P
  | _ => True

/-- A run in which nothing else happens. -/
def Undisturbed : List Observed → Prop := Throughout (fun P o => Spares (events P) o.1)

theorem events_snoc (H : List Observed) (o : Observed) : events (H ++ [o]) = events H ++ [o.1] := by
  simp [events]

/-! ## The variables of the loop -/

/-- What the variables of the loop tell about the events so far. -/
structure Tracked (P : List Event) (s : Loop) : Prop where
  aborted : s.aborted = true ↔ .close ∈ P
  backoff : s.waits = .backoff → s.aborted = false ∧ s.hasConnectedBefore = true
  running : s.waits ≠ .nothing → ∀ e ∈ P, e.refused = false
  later : s.waits = .response ∨ s.waits = .streamEnd →
    (s.hasConnectedBefore = true ↔ .timer ∈ P)

theorem Tracked.aborted_snoc (P : List Event) (s : Loop) (e : Event) (h : Tracked P s)
    (he : e ≠ .close) : s.aborted = true ↔ .close ∈ P ++ [e] := by
  rw [h.aborted, List.mem_append, List.mem_singleton, or_iff_left he.symm]

theorem Tracked.running_snoc (P : List Event) (s : Loop) (e : Event) (h : Tracked P s)
    (hw : s.waits ≠ .nothing) (he : e.refused = false) : ∀ a ∈ P ++ [e], a.refused = false := by
  intro a ha
  rcases List.mem_append.mp ha with hP | hlast
  · exact h.running hw a hP
  · rw [List.mem_singleton.mp hlast]
    exact he

/-- Before the loop is aborted, it has not been closed. -/
theorem Tracked.unclosed (P : List Event) (s : Loop) (h : Tracked P s)
    (ha : s.aborted = false) : .close ∉ P := by
  rw [← h.aborted, ha]
  exact Bool.false_ne_true

/-- The flag of an attempt is unset exactly if it is the first. -/
theorem Tracked.unset (P : List Event) (s : Loop) (h : Tracked P s)
    (hw : s.waits = .response ∨ s.waits = .streamEnd) :
    s.hasConnectedBefore = false ↔ .timer ∉ P := by
  rw [← h.later hw, Bool.not_eq_true]

/-- A transient failure keeps what the variables tell. -/
theorem Tracked.retry (P : List Event) (s : Loop) (e : Event) (h : Tracked P s)
    (hw : s.waits ≠ .nothing) (he : e ≠ .close) (hnot : e.refused = false) :
    Tracked (P ++ [e]) s.retry where
  aborted := h.aborted_snoc P s e he
  backoff hback := by
    refine ⟨?_, rfl⟩
    cases ha : s.aborted with
    | true => simp [Loop.retry, ha] at hback
    | false => exact ha
  running _ := h.running_snoc P s e hw hnot
  later hlater := by
    simp only [Loop.retry] at hlater
    split at hlater <;> simp at hlater

/-- So does the end of the loop. -/
theorem Tracked.stop (P : List Event) (s : Loop) (e : Event) (h : Tracked P s)
    (he : e ≠ .close) : Tracked (P ++ [e]) { s with waits := .nothing } :=
  ⟨h.aborted_snoc P s e he, by simp, by simp, by simp⟩

/-- One step keeps what the variables tell. -/
theorem Tracked.step (P : List Event) (s : Loop) (e : Event) (p : Loop × List Action)
    (h : Tracked P s) (hstep : s.step e = some p) : Tracked (P ++ [e]) p.1 := by
  cases s.does_of_step e p hstep with
  | timer hw ha =>
      have hflag := (h.backoff hw).2
      exact ⟨h.aborted_snoc P s _ (by simp), by simp,
        fun _ => h.running_snoc P s _ (by simp [hw]) rfl, fun _ => by simp [hflag]⟩
  | failed e hw he =>
      rcases he with ⟨rfl, _⟩ | ⟨status, body, rfl, hnot, _⟩
      · exact h.retry P s _ (by simp [hw]) (by simp) rfl
      · exact h.retry P s _ (by simp [hw]) (by simp) hnot
  | refused status body code message hw he => exact h.stop P s _ (by simp)
  | connected status body hw he =>
      have hnot := Event.refused_of_established status body he
      refine ⟨h.aborted_snoc P s _ (by simp), by simp,
        fun _ => h.running_snoc P s _ (by simp [hw]) hnot, fun _ => ?_⟩
      rw [List.mem_append, List.mem_singleton, or_iff_left (by simp)]
      exact h.later (.inl hw)
  | dropped thrown hw ha => exact h.retry P s _ (by simp [hw]) (by simp) rfl
  | closed e ha he =>
      rcases he with rfl | rfl | ⟨thrown, rfl⟩
      · exact h.stop P s _ (by simp)
      · exact h.stop P s _ (by simp)
      · exact h.stop P s _ (by simp)
  | close =>
      refine ⟨by simp, fun hw => ?_, fun hw => ?_, fun hw => ?_⟩
      · by_cases hback : s.waits = .backoff
        · simp [hback] at hw
        · simp [hback] at hw
      · refine h.running_snoc P s _ (fun hnothing => hw ?_) rfl
        simp [hnothing]
      · rw [List.mem_append, List.mem_singleton, or_iff_left (by simp)]
        refine h.later ?_
        by_cases hback : s.waits = .backoff
        · simp [hback] at hw
        · simpa [hback] using hw

theorem begin_tracked : Tracked [] begin.1 :=
  ⟨by simp [begin, Loop.head], by simp [begin, Loop.head], by simp, by simp [begin, Loop.head]⟩

/-- The variables tell about the events in every run. -/
theorem tracked (H : List Observed) (s : Loop) (h : Steps Observes begin.1 H s) :
    Tracked (events H) s := by
  refine Steps.invariant (fun H s => Tracked (events H) s) begin.1 begin_tracked ?_ H s h
  intro H s o t _ htracked hstep
  rw [events_snoc]
  exact htracked.step (events H) s o.1 _ hstep

/-- In every run, no attempt is made after the close or a refusal. -/
theorem attempts_stop (H : List Observed) (s t : Loop) (o : Observed)
    (hrun : Steps Observes begin.1 H s) (hstep : Observes s o t) (hfetch : .fetch ∈ o.2) :
    ¬ Over (events H) := by
  have htracked := tracked H s hrun
  rcases (s.does_of_step o.1 _ hstep).of_fetch s o.1 _ hfetch with ⟨hw, ha⟩
  rintro (hclose | ⟨e, he, hrefused⟩)
  · exact htracked.unclosed _ s ha hclose
  · rw [htracked.running (by simp [hw]) e he] at hrefused
    cases hrefused

/-! ## The callbacks -/

/-- While a run is undisturbed, a connection is that of the first attempt, and
    none was established before an attempt. -/
structure Silent (P : List Event) (s : Loop) : Prop where
  unconnected : s.waits = .response ∨ s.waits = .backoff → P.any Event.established = false
  first : s.waits = .streamEnd → s.hasConnectedBefore = false

theorem any_established_snoc (P : List Event) (e : Event) (he : e.established = false)
    (h : P.any Event.established = false) : (P ++ [e]).any Event.established = false := by
  rw [List.any_append, h, List.any_cons, he]
  rfl

theorem Silent.retry (P : List Event) (s : Loop) (e : Event) (h : Silent P s)
    (hw : s.waits = .response) (he : e.established = false) : Silent (P ++ [e]) s.retry := by
  refine ⟨fun _ => any_established_snoc P e he (h.unconnected (.inl hw)), fun hend => ?_⟩
  simp only [Loop.retry] at hend
  split at hend <;> cases hend

/-- The callback after a transient failure. -/
theorem reports_retry (s : Loop) :
    (if s.hasConnectedBefore then [Action.onDisconnect] else []).filter Action.reports = [] ↔
      s.hasConnectedBefore = false := by
  cases s.hasConnectedBefore with
  | true => simp [Action.reports]
  | false => simp

/-- While a run is undisturbed, a step disturbs it exactly if it does not make the
    callbacks it should. -/
theorem Silent.step (P : List Event) (s : Loop) (e : Event) (p : Loop × List Action)
    (htracked : Tracked P s) (h : Silent P s) (hstep : s.step e = some p) :
    (Spares P e ↔ p.2.filter Action.reports = expected P e) ∧
      (Spares P e → Silent (P ++ [e]) p.1) := by
  cases s.does_of_step e p hstep with
  | timer hw ha =>
      exact ⟨iff_of_true trivial rfl, fun _ =>
        ⟨fun _ => any_established_snoc P _ rfl (h.unconnected (.inr hw)), fun hw' => nomatch hw'⟩⟩
  | failed e hw he =>
      have hflag := htracked.unset P s (.inl hw)
      -- A failed attempt is no disconnection, and the loop reports one unless it was the first.
      rcases he with ⟨rfl, ha⟩ | ⟨status, body, rfl, hnot, hfail⟩
      · have hopen := htracked.unclosed P s ha
        refine ⟨?_, fun _ => h.retry P s _ hw rfl⟩
        rw [Spares, or_iff_right hopen, ← hflag, ← reports_retry]
        rfl
      · refine ⟨?_, fun _ => h.retry P s _ hw hfail⟩
        rw [Spares, hnot, or_iff_right Bool.false_ne_true, ← hflag, ← reports_retry, expected,
          hfail]
        rfl
  | refused status body code message hw he =>
      have hfail : (Event.response status body).established = false := by
        by_contra hestablished
        rw [Event.refused_of_established status body (by simpa using hestablished)] at he
        cases he
      refine ⟨iff_of_true (.inl he) ?_, fun _ => ⟨by simp, by simp⟩⟩
      rw [expected, hfail]
      rfl
  | connected status body hw he =>
      have hnone := h.unconnected (.inl hw)
      have hflag := htracked.unset P s (.inl hw)
      -- The loop reports whether an attempt was made before, not whether one had connected.
      have hspares : Spares P (.response status body) ↔ s.hasConnectedBefore = false := by
        rw [Spares, Event.refused_of_established status body he, or_iff_right Bool.false_ne_true,
          hflag]
      refine ⟨?_, fun hfirst => ⟨by simp, fun _ => hspares.mp hfirst⟩⟩
      rw [hspares, expected, he, hnone, List.filter_cons_of_pos rfl, List.filter_nil]
      simp
  | dropped thrown hw ha =>
      -- The stream was open, and the loop keeps its end to itself after a first attempt.
      have hopen := htracked.unclosed P s ha
      refine ⟨iff_of_false hopen ?_, fun hclose => absurd hclose hopen⟩
      rw [expected, if_neg hopen, h.first hw]
      simp
  | closed e ha he =>
      have hclose := htracked.aborted.mp ha
      refine ⟨?_, fun _ => ⟨by simp, by simp⟩⟩
      rcases he with rfl | rfl | ⟨thrown, rfl⟩
      · exact iff_of_true trivial rfl
      · exact iff_of_true (.inl hclose) rfl
      · refine iff_of_true hclose ?_
        rw [expected, if_pos hclose]
        rfl
  | close =>
      refine ⟨iff_of_true trivial rfl, fun _ => ⟨fun hw => ?_, fun hw => ?_⟩⟩
      · by_cases hback : s.waits = .backoff
        · simp [hback] at hw
        · refine any_established_snoc P _ rfl (h.unconnected ?_)
          simpa [hback] using hw
      · by_cases hback : s.waits = .backoff
        · simp [hback] at hw
        · exact h.first (by simpa [hback] using hw)

/-- In every run, the callbacks match the history of the connection if and only
    if the run is undisturbed. -/
theorem matchesHistory_iff (H : List Observed) (s : Loop) (h : Steps Observes begin.1 H s) :
    MatchesHistory H ↔ Undisturbed H := by
  refine (Steps.throughout_iff _ _ (fun H s => Silent (events H) s) begin.1
    ⟨fun _ => rfl, fun _ => rfl⟩ ?_ H s h).symm
  intro H s o t hrun hsilent hstep
  have hcallbacks := hsilent.step (events H) s o.1 _ (tracked H s hrun) hstep
  rw [events_snoc]
  refine ⟨hcallbacks.1.trans ⟨fun hreports => ⟨hreports, ?_⟩, And.left⟩, hcallbacks.2⟩
  exact attempts_stop H s t o hrun hstep

/-- A connection that the consumer closes. -/
def closedRun : List Observed :=
  [(.response 200 true, [.onConnected false]), (.close, []), (.streamEnd false, [])]

theorem closedRun_matches : MatchesHistory closedRun := by
  refine (matchesHistory_iff closedRun ⟨.nothing, 0, false, true⟩
    (Steps.cons _ _ _ _ _ rfl (Steps.cons _ _ _ _ _ rfl (Steps.single _ _ _ rfl)))).mpr ?_
  have hsplit : closedRun = (([] ++ [(.response 200 true, [.onConnected false])]) ++
      [(.close, [])]) ++ [(.streamEnd false, [])] := rfl
  rw [Undisturbed, hsplit, throughout_snoc, throughout_snoc, throughout_snoc]
  have hclosed : Event.close ∈ [Event.response 200 true, .close] := by decide
  exact ⟨⟨⟨throughout_nil _, .inr (by decide)⟩, trivial⟩, hclosed⟩

/-- A first connection that ends. -/
def droppedRun : List Observed :=
  [(.response 200 true, [.onConnected false]), (.streamEnd false, [])]

/-- A first attempt that fails, and a second one that connects. -/
def lateRun : List Observed :=
  [(.rejected, []), (.timer, [.fetch]), (.response 200 true, [.onConnected true])]

/-- The end of a first connection is not reported, and the first connection
    after a failure is reported as a reconnect. -/
theorem firstConnection_misreported :
    (Steps Observes begin.1 droppedRun ⟨.backoff, 1, true, false⟩ ∧ ¬ MatchesHistory droppedRun) ∧
      Steps Observes begin.1 lateRun ⟨.streamEnd, 1, true, false⟩ ∧ ¬ MatchesHistory lateRun := by
  refine ⟨⟨Steps.cons _ _ _ _ _ rfl (Steps.single _ _ _ rfl), fun h => ?_⟩,
    Steps.cons _ _ _ _ _ rfl (Steps.cons _ _ _ _ _ rfl (Steps.single _ _ _ rfl)), fun h => ?_⟩
  · exact absurd (h [_] (.streamEnd false, []) [] rfl).1 (by decide)
  · exact absurd (h [_, _] (.response 200 true, [.onConnected true]) [] rfl).1 (by decide)

end ConnectionLoop

end Cuttlegate
