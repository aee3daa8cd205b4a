import Cuttlegate.Sdk.Caches

/-!
# The Three Caches Compared

The same response and the same announcements, given to the cached clients of
the three libraries.

What a cache holds for a key depends on the last flag of the response with
that key and on the last announcement for it. Without an announcement the
three hold what the response said, Python without the fallback to `value`; the
boolean answers then agree only where the state and the variant say the same.
After an announcement the Go cache answers with the new state and the
JavaScript cache with the old variant, and Python with one for a boolean and
the other for a string. They agree exactly where the variant of the response
happens to spell the new state.

## Main definitions

* `Agree`: The answers of the three caches for a key are the same.

## Theorems

* `Go.applyAll_eq`, `Js.applyAll_eq`, `Python.applyAll_eq`: A cache after a
  list of announcements.
* `Go.cached_answers`, `Js.cached_answers`, `Python.cached_answers`: What the
  cached clients answer.
* `caches_agree_iff`: When the three agree.
-/

namespace Cuttlegate.Sdk

/-- How the announcement of a state reads as a variant. -/
def stateText (enabled : Bool) : String := if enabled = true then "true" else "false"

theorem stateText_beq_true (enabled : Bool) : (stateText enabled == "true") = enabled := by
  cases enabled <;> rfl

theorem stateText_ne_empty (enabled : Bool) : stateText enabled ≠ "" := by
  cases enabled <;> decide

/-! ## A cache after a list of announcements -/

theorem Go.applyAll_eq (events : List WireEvent) (cache : Cache String) (k : String) :
    Go.applyAll events cache k =
      (Feed.latest WireEvent.flagKey k events).elim (cache k)
        (fun e => (cache k).map (Go.update e)) :=
  Feed.follow_eq WireEvent.flagKey Go.update (fun _ _ _ => rfl) events cache k

theorem Js.applyAll_eq (events : List WireEvent) (cache : Cache (Option String)) (k : String) :
    Js.applyAll events cache k =
      (Feed.latest WireEvent.flagKey k events).elim (cache k)
        (fun e => (cache k).map (Js.update e)) :=
  Feed.follow_eq WireEvent.flagKey Js.update (fun _ _ _ => rfl) events cache k

theorem Python.applyAll_eq (events : List WireEvent) (cache : Cache String) (k : String) :
    Python.applyAll events cache k =
      (Feed.latest WireEvent.flagKey k events).elim (cache k)
        (fun e => (cache k).map (Python.update e)) :=
  Feed.follow_eq WireEvent.flagKey Python.update (fun _ _ _ => rfl) events cache k

/-! ## Answers -/

section Answers

variable (innerBool : String → Except ClientErr Bool)
  (innerString : String → Except ClientErr String) (r : BulkResponse) (events : List WireEvent)
  (k : String) (f : BulkFlag) (hf : Feed.latest (·.key) k r.flags = some f)

include hf

/-- The Go cache answers with the variant of the response, and after an
    announcement with the announced state. -/
theorem Go.cached_answers :
    Go.cachedBool innerBool (Go.applyAll events (Go.results r)) k =
      .ok (match Feed.latest WireEvent.flagKey k events with
        | none => f.variant == "true"
        | some e => e.enabled) ∧
    Go.cachedString innerString (Go.applyAll events (Go.results r)) k =
      .ok (match Feed.latest WireEvent.flagKey k events with
        | none => f.variant
        | some e => stateText e.enabled) := by
  have hstart : Go.results r k = some (Go.resultOf r.evaluatedAt f) := by
    rw [Go.results, Feed.fill_eq, hf]
    rfl
  unfold Go.cachedBool Go.cachedString
  rw [Go.applyAll_eq, hstart]
  cases Feed.latest WireEvent.flagKey k events with
  | none => exact ⟨rfl, rfl⟩
  | some e => exact ⟨congrArg Except.ok (stateText_beq_true e.enabled), rfl⟩

/-- The JavaScript cache answers with the variant of the response, whatever is
    announced. -/
theorem Js.cached_answers :
    Js.bool (Js.applyAll events (Js.populateCache r)) k = (f.variant == "true") ∧
    Js.string (Js.applyAll events (Js.populateCache r)) k = f.variant := by
  unfold Js.bool Js.string Js.evaluate
  rw [Js.applyAll_eq, Js.populateCache, Feed.fill_eq, hf]
  cases Feed.latest WireEvent.flagKey k events with
  | none => exact ⟨rfl, rfl⟩
  | some e => exact ⟨rfl, rfl⟩

/-- The Python cache answers a boolean with the state and a string with the
    `value_key` of the response. -/
theorem Python.cached_answers :
    Python.cachedBool innerBool (Python.applyAll events (Python.parseBulkResponse r)) k =
      .ok (match Feed.latest WireEvent.flagKey k events with
        | none => f.enabled
        | some e => e.enabled) ∧
    Python.cachedString innerString (Python.applyAll events (Python.parseBulkResponse r)) k =
      .ok f.valueKey := by
  unfold Python.cachedBool Python.cachedString
  rw [Python.applyAll_eq, Python.parseBulkResponse, Feed.fill_eq, hf]
  cases Feed.latest WireEvent.flagKey k events with
  | none => exact ⟨rfl, rfl⟩
  | some e => exact ⟨rfl, rfl⟩

end Answers

/-! ## Agreement -/

/-- The answers of the three cached clients for a key, after a response and a
    list of announcements, are the same. The two that could turn to the server
    do not. -/
def Agree (innerBool : String → Except ClientErr Bool)
    (innerString : String → Except ClientErr String) (r : BulkResponse) (events : List WireEvent)
    (k : String) : Prop :=
  Go.cachedBool innerBool (Go.applyAll events (Go.results r)) k =
      .ok (Js.bool (Js.applyAll events (Js.populateCache r)) k) ∧
    Python.cachedBool innerBool (Python.applyAll events (Python.parseBulkResponse r)) k =
      .ok (Js.bool (Js.applyAll events (Js.populateCache r)) k) ∧
    Go.cachedString innerString (Go.applyAll events (Go.results r)) k =
      .ok (Js.string (Js.applyAll events (Js.populateCache r)) k) ∧
    Python.cachedString innerString (Python.applyAll events (Python.parseBulkResponse r)) k =
      .ok (Js.string (Js.applyAll events (Js.populateCache r)) k)

/-- The three caches agree on a key of the response exactly when, with nothing
    announced for it, its `value_key` needs no fallback and is `true` just when
    the flag is on, and after an announcement when its `value_key` spells the
    announced state. -/
theorem caches_agree_iff (innerBool : String → Except ClientErr Bool)
    (innerString : String → Except ClientErr String) (r : BulkResponse) (events : List WireEvent)
    (k : String) (hk : k ∈ r.flags.map (·.key)) :
    ∃ f ∈ r.flags, Feed.latest (·.key) k r.flags = some f ∧
      (Agree innerBool innerString r events k ↔
        match Feed.latest WireEvent.flagKey k events with
        | none => (f.valueKey = "" → f.valueText = "") ∧
            (f.enabled = true ↔ f.valueKey = "true")
        -- Once an event is in, Go answers from its state, JavaScript from the response as
        -- before, and Python from one for the boolean and the other for the string.
        | some e => f.valueKey = stateText e.enabled) := by
  rcases Option.ne_none_iff_exists'.mp (fun hnone => by
    rcases List.mem_map.mp hk with ⟨f, hf, hkey⟩
    exact (Feed.latest_none (·.key) k r.flags).mp hnone f hf hkey) with ⟨f, hf⟩
  refine ⟨f, (Feed.latest_some _ _ _ _ hf).1, hf, ?_⟩
  have hgo := Go.cached_answers innerBool innerString r events k f hf
  have hjs := Js.cached_answers r events k f hf
  have hpy := Python.cached_answers innerBool innerString r events k f hf
  unfold Agree
  rw [hgo.1, hgo.2, hjs.1, hjs.2, hpy.1, hpy.2]
  simp only [Except.ok.injEq]
  -- Two clients fall back on the value's text where the key is empty, the third does not.
  have hvariant : f.variant = f.valueKey ↔ (f.valueKey = "" → f.valueText = "") := by
    unfold BulkFlag.variant
    by_cases hempty : f.valueKey = ""
    · simp only [hempty, if_true, true_implies]
    · simp only [hempty, if_false, false_implies]
  cases Feed.latest WireEvent.flagKey k events with
  | none =>
      dsimp only
      constructor
      · rintro ⟨-, hbool, -, hstring⟩
        refine ⟨hvariant.mp hstring.symm, ?_⟩
        rw [hbool, ← hstring, beq_iff_eq]
      · rintro ⟨hsame, hstate⟩
        rw [hvariant.mpr hsame]
        exact ⟨rfl, Bool.eq_iff_iff.mpr (hstate.trans beq_iff_eq.symm), rfl, rfl⟩
  | some e =>
      dsimp only
      constructor
      · rintro ⟨-, -, hgo, hpy⟩
        exact hpy.trans hgo.symm
      · intro hspelt
        have hsame : f.variant = stateText e.enabled := by
          rw [hvariant.mpr (fun hempty => absurd (hspelt.symm.trans hempty) (stateText_ne_empty _)),
            hspelt]
        rw [hsame, hspelt]
        exact ⟨(stateText_beq_true _).symm, (stateText_beq_true _).symm, rfl, rfl⟩

/-- A response with a boolean flag that is off, and one whose flag is on. -/
def darkModeOff : BulkFlag := ⟨"dark-mode", false, none, "false", "disabled", "bool"⟩

def darkModeOn : BulkFlag := ⟨"dark-mode", true, none, "true", "default", "bool"⟩

/-- The announcement that the flag was turned on. -/
def darkModeTurnedOn : WireEvent :=
  ⟨sseEventType, "shop", "prod", "dark-mode", true, "2026-03-21T12:00:00Z"⟩

/-- A boolean flag that is on and says so: its being announced as on changes
    nothing. -/
theorem caches_agree_on : Agree (fun _ => .error .request) (fun _ => .error .request)
    ⟨[darkModeOn], "2026-03-21T11:00:00Z"⟩ [darkModeTurnedOn] "dark-mode" := by
  rcases caches_agree_iff (fun _ => .error .request) (fun _ => .error .request)
    ⟨[darkModeOn], "2026-03-21T11:00:00Z"⟩ [darkModeTurnedOn] "dark-mode" (by decide)
    with ⟨f, _, hf, hiff⟩
  have hfound : f = darkModeOn := (Option.some.inj hf).symm
  exact hiff.mpr (by rw [hfound]; rfl)

/-- A boolean flag that was off is turned on: Go and Python answer true,
    JavaScript false. -/
theorem caches_disagree_turned_on : ¬ ∀ (innerBool : String → Except ClientErr Bool)
    (innerString : String → Except ClientErr String) (r : BulkResponse) (events : List WireEvent)
    (k : String), k ∈ r.flags.map (·.key) → Agree innerBool innerString r events k := by
  intro hall
  have hone := hall (fun _ => .error .request) (fun _ => .error .request)
    ⟨[darkModeOff], "2026-03-21T11:00:00Z"⟩ [darkModeTurnedOn] "dark-mode" (by decide)
  exact absurd hone.1 (by decide)

end Cuttlegate.Sdk
