import Cuttlegate.Adapters.RateLimit
import Cuttlegate.Lib.FixedWindow

/-!
# The Bound of the Rate Limiters

For any calls at times that do not go back, on any mix of keys, the decisions
on one key are those of a counter with fixed windows that sees the calls of
that key alone. What is known of such a counter then holds of the limiters:
the bound in each window, twice the bound in any interval of a window's length,
and a pass for whoever comes after the end of a window.

## Main definitions

* `Decision`, `serveCalls`: The decisions on a list of calls.
* `timesOf`, `allowedOf`: What belongs to one key.
* `KeepsBound`: What a limiter promises.

## Theorems

* `serveCalls_key`: On each key the limiter is a counter with fixed windows.
* `RateLimiter.keepsBound`: It keeps its promise on all calls.
* `rateLimiters_keepBound`: Both limiters do.
-/

namespace Cuttlegate

/-- A call of a limiter, and what it was told. -/
structure Decision where
  key : String
  time : Time
  allowed : Bool
  deriving DecidableEq, Repr

/-- A limiter decides on a call, from the windows and on to others. -/
abbrev Limiter := Time → String → Windows → Bool × Windows

/-- Serve one more call, and log the decision. -/
def serveCall (allow : Limiter) (state : Windows × List Decision) (call : String × Time) :
    Windows × List Decision :=
  ((allow call.2 call.1 state.1).2,
    state.2 ++ [⟨call.1, call.2, (allow call.2 call.1 state.1).1⟩])

/-- The windows and the decisions after calls of a fresh limiter. -/
def serveCalls (allow : Limiter) (calls : List (String × Time)) : Windows × List Decision :=
  calls.foldl (serveCall allow) (fun _ => none, [])

/-- The times at which a key called. -/
def timesOf (key : String) (calls : List (String × Time)) : List Time :=
  (calls.filter (fun c => c.1 == key)).map Prod.snd

/-- How many calls of a key were allowed at times of a kind. -/
def allowedOf (key : String) (kind : Time → Bool) (log : List Decision) : Nat :=
  (log.filter (fun d => d.key == key)).countP (fun d => d.allowed && kind d.time)

/-- What a limiter promises about calls, with its bound and the length of its
    windows. The window of a key opens with its first call, and again with the
    first one strictly after the end of the last window. -/
structure KeepsBound (allow : Limiter) (limit : Nat) (size : Time)
    (calls : List (String × Time)) : Prop where
  /-- A call is denied exactly when the window of its key is open and the bound
      was reached in it; the decision is logged. -/
  decided : ∀ front call back, calls = front ++ call :: back →
    ((allow call.2 call.1 (serveCalls allow front).1).1 = false ↔
      ∃ o, FixedWindow.opening size (timesOf call.1 front) = some o ∧ call.2 ≤ o + size ∧
        allowedOf call.1 (fun t => decide (o ≤ t)) (serveCalls allow front).2 = limit) ∧
    ∃ rest, (serveCalls allow calls).2 = (serveCalls allow front).2 ++
      ⟨call.1, call.2, (allow call.2 call.1 (serveCalls allow front).1).1⟩ :: rest
  /-- From the opening of a window to its end, at most the bound passes. -/
  window : ∀ key front, front <+: calls → ∀ o,
    FixedWindow.opening size (timesOf key front) = some o →
    allowedOf key (fun t => decide (o ≤ t) && decide (t ≤ o + size)) (serveCalls allow calls).2
      ≤ limit
  /-- In a closed interval of that length, at most twice the bound. -/
  interval : ∀ key start,
    allowedOf key (fun t => decide (start ≤ t) && decide (t ≤ start + size))
      (serveCalls allow calls).2 ≤ 2 * limit
  /-- A call after the end of the last window is allowed. -/
  later : ∀ front call back, calls = front ++ call :: back → ∀ o,
    FixedWindow.opening size (timesOf call.1 front) = some o → o + size < call.2 →
    (allow call.2 call.1 (serveCalls allow front).1).1 = true
  /-- Other keys do not matter. -/
  alone : ∀ key, (serveCalls allow calls).2.filter (fun d => d.key == key) =
    (serveCalls allow (calls.filter (fun c => c.1 == key))).2

/-! ## One key -/

/-- The window of a key as the limiter keeps it. -/
def stateOfSlot (size : Time) (s : FixedWindow.Slot) : WindowState :=
  ⟨s.count, s.opened + size⟩

section OneKey

variable (rl : RateLimiter) (hlimit : 1 ≤ rl.limit)

theorem serveCalls_append (allow : Limiter) (calls : List (String × Time)) (call : String × Time) :
    serveCalls allow (calls ++ [call]) = serveCall allow (serveCalls allow calls) call := by
  rw [serveCalls, serveCalls, List.foldl_append]
  rfl

include hlimit in
/-- On the window of its key, the limiter takes the step of a counter. -/
theorem RateLimiter.allow_step (now : Time) (key : String) (windows : Windows)
    (slot : Option FixedWindow.Slot)
    (hslot : windows key = slot.map (stateOfSlot rl.windowSize)) :
    (rl.allow now key windows).1 = (FixedWindow.step rl.limit.toNat rl.windowSize now slot).1 ∧
      (rl.allow now key windows).2 key =
        (FixedWindow.step rl.limit.toNat rl.windowSize now slot).2.map
          (stateOfSlot rl.windowSize) := by
  unfold RateLimiter.allow
  rw [hslot]
  cases slot with
  | none => simp [FixedWindow.step, Windows.enter, stateOfSlot]
  | some s =>
      have hfull : (s.count : Int) ≥ rl.limit ↔ rl.limit.toNat ≤ s.count := by omega
      simp only [Option.map_some, stateOfSlot, FixedWindow.step, hfull]
      split
      · simp [Windows.enter, stateOfSlot]
      · split
        · simp [hslot, stateOfSlot]
        · simp [Windows.enter, stateOfSlot]

/-- A decision does not touch the windows of other keys. -/
theorem RateLimiter.allow_other (now : Time) (key other : String) (windows : Windows)
    (hne : other ≠ key) : (rl.allow now key windows).2 other = windows other := by
  unfold RateLimiter.allow
  split
  · simp [Windows.enter, hne]
  · split
    · simp [Windows.enter, hne]
    · split
      · rfl
      · simp [Windows.enter, hne]

include hlimit in
/-- On each key the limiter is a counter with fixed windows that sees the calls
    of the key alone. -/
theorem serveCalls_key (calls : List (String × Time)) (key : String) :
    (serveCalls rl.allow calls).1 key =
        (FixedWindow.run rl.limit.toNat rl.windowSize (timesOf key calls)).1.map
          (stateOfSlot rl.windowSize) ∧
      (serveCalls rl.allow calls).2.filter (fun d => d.key == key) =
        (FixedWindow.run rl.limit.toNat rl.windowSize (timesOf key calls)).2.map
          (fun a => ⟨key, a.time, a.allowed⟩) := by
  induction calls using List.reverseRecOn with
  | nil => exact ⟨rfl, rfl⟩
  | append_singleton calls call ih =>
      rw [serveCalls_append]
      by_cases hkey : call.1 = key
      · subst hkey
        have htimes : timesOf call.1 (calls ++ [call]) = timesOf call.1 calls ++ [call.2] := by
          simp [timesOf]
        have hstep := rl.allow_step hlimit call.2 call.1 _ _ ih.1
        rw [htimes, FixedWindow.run_append]
        refine ⟨hstep.2, ?_⟩
        simp [serveCall, FixedWindow.record, List.filter_append, ih.2, hstep.1]
      · have htimes : timesOf key (calls ++ [call]) = timesOf key calls := by
          simp [timesOf, hkey]
        rw [htimes]
        refine ⟨(rl.allow_other call.2 call.1 key _ (Ne.symm hkey)).trans ih.1, ?_⟩
        simp [serveCall, List.filter_append, ih.2, hkey]

include hlimit in
/-- What the limiter allowed of a key is what its counter let pass. -/
theorem allowedOf_eq (calls : List (String × Time)) (key : String) (kind : Time → Bool) :
    allowedOf key kind (serveCalls rl.allow calls).2 = FixedWindow.passed kind
      (FixedWindow.run rl.limit.toNat rl.windowSize (timesOf key calls)).2 := by
  rw [allowedOf, (serveCalls_key rl hlimit calls key).2, List.countP_map]
  rfl

end OneKey

/-! ## All keys -/

/-- The log is of the calls that were made. -/
theorem serveCalls_logged (allow : Limiter) (calls : List (String × Time)) :
    (serveCalls allow calls).2.map (fun d => (d.key, d.time)) = calls := by
  induction calls using List.reverseRecOn with
  | nil => rfl
  | append_singleton calls call ih => rw [serveCalls_append, serveCall, List.map_append, ih]; rfl

theorem serveCalls_split (allow : Limiter) (front back : List (String × Time))
    (call : String × Time) :
    ∃ rest, (serveCalls allow (front ++ call :: back)).2 = (serveCalls allow front).2 ++
      ⟨call.1, call.2, (allow call.2 call.1 (serveCalls allow front).1).1⟩ :: rest := by
  induction back using List.reverseRecOn with
  | nil => exact ⟨[], by rw [serveCalls_append]; rfl⟩
  | append_singleton back last ih =>
      rcases ih with ⟨rest, hrest⟩
      refine ⟨rest ++ [⟨last.1, last.2,
        (allow last.2 last.1 (serveCalls allow (front ++ call :: back)).1).1⟩], ?_⟩
      rw [← List.cons_append, ← List.append_assoc, serveCalls_append, serveCall, hrest,
        List.append_assoc, List.cons_append]

/-- The limiter keeps its promise on all calls at times that do not go
    back. -/
theorem RateLimiter.keepsBound (rl : RateLimiter) (hlimit : 1 ≤ rl.limit)
    (calls : List (String × Time)) (hmono : calls.Pairwise (fun c d => c.2 ≤ d.2)) :
    KeepsBound rl.allow rl.limit.toNat rl.windowSize calls := by
  have hbounded : ∀ key front, front <+: calls →
      FixedWindow.Bounded rl.limit.toNat rl.windowSize (timesOf key front)
        (FixedWindow.run rl.limit.toNat rl.windowSize (timesOf key front)).1
        (FixedWindow.run rl.limit.toNat rl.windowSize (timesOf key front)).2 := by
    intro key front hfront
    refine FixedWindow.run_bounded _ _ (by omega) _ ?_
    exact List.pairwise_map.mpr ((hmono.sublist hfront.sublist).filter _)
  -- The decision on a call is the one of the counter of its key.
  have hstep : ∀ front (call : String × Time),
      (rl.allow call.2 call.1 (serveCalls rl.allow front).1).1 =
        (FixedWindow.step rl.limit.toNat rl.windowSize call.2
          (FixedWindow.run rl.limit.toNat rl.windowSize (timesOf call.1 front)).1).1 :=
    fun front call =>
      (rl.allow_step hlimit call.2 call.1 _ _ (serveCalls_key rl hlimit front call.1).1).1
  refine ⟨fun front call back hcalls => ⟨?_, ?_⟩, fun key front hfront o ho => ?_,
    fun key start => ?_, fun front call back hcalls o ho hlater => ?_, fun key => ?_⟩
  · have hb := hbounded call.1 front ⟨call :: back, hcalls.symm⟩
    rw [hstep, FixedWindow.step_denied_iff, ← hb.opened]
    constructor
    · rintro ⟨s, hs, hopen, hfull⟩
      refine ⟨s.opened, by rw [hs]; rfl, hopen, ?_⟩
      rw [allowedOf_eq rl hlimit, ← hb.count s hs]
      exact le_antisymm (hb.limited s hs) hfull
    · rintro ⟨o, ho, hopen, hreached⟩
      rcases Option.map_eq_some_iff.mp ho with ⟨s, hs, rfl⟩
      rw [allowedOf_eq rl hlimit, ← hb.count s hs] at hreached
      exact ⟨s, hs, hopen, hreached.ge⟩
  · rw [hcalls]
    exact serveCalls_split rl.allow front back call
  · rw [allowedOf_eq rl hlimit]
    exact (hbounded key calls (List.prefix_refl _)).window (timesOf key front)
      ((hfront.filter _).map _) o ho
  · rw [allowedOf_eq rl hlimit]
    exact (hbounded key calls (List.prefix_refl _)).interval start
  · -- Such a call opens the next window.
    have hb := hbounded call.1 front ⟨call :: back, hcalls.symm⟩
    rw [← Bool.not_eq_false, hstep, FixedWindow.step_denied_iff]
    rintro ⟨s, hs, hopen, _⟩
    rw [← hb.opened, hs, Option.map_some, Option.some.injEq] at ho
    omega
  · have hsame : timesOf key (calls.filter (fun c => c.1 == key)) = timesOf key calls := by
      simp [timesOf, List.filter_filter]
    have honly : ∀ d ∈ (serveCalls rl.allow (calls.filter (fun c => c.1 == key))).2,
        (d.key == key) = true := by
      intro d hd
      have hmem := List.mem_map_of_mem (f := fun d => (d.key, d.time)) hd
      rw [serveCalls_logged, List.mem_filter] at hmem
      exact hmem.2
    rw [(serveCalls_key rl hlimit calls key).2, ← hsame, ← (serveCalls_key rl hlimit _ key).2]
    exact List.filter_eq_self.mpr honly

/-- Both limiters keep their promise, with any bound of at least one and any
    window, on all calls at times that do not go back: a call is allowed unless
    its key's window is open and the bound reached in it, so at most the bound
    passes in a window and at most twice that in any closed interval of its
    length, and what other keys do is of no account. -/
theorem rateLimiters_keepBound (calls : List (String × Time))
    (hmono : calls.Pairwise (fun c d => c.2 ≤ d.2)) :
    (∀ rl : RateLimiter, 1 ≤ rl.limit → 0 < rl.windowSize →
      KeepsBound rl.allow rl.limit.toNat rl.windowSize calls) ∧
    ∀ rl : FixedWindowRateLimiter, 1 ≤ rl.limit → 0 < rl.window →
      KeepsBound rl.allow rl.limit.toNat rl.window.toNatClampNeg calls :=
  ⟨fun rl hlimit _ => rl.keepsBound hlimit calls hmono,
    fun rl hlimit _ => RateLimiter.keepsBound ⟨rl.limit, _⟩ hlimit calls hmono⟩

/-- Two calls a minute, of which the third comes too early. -/
theorem rateLimiters_keepBound_minute :
    KeepsBound (FixedWindowRateLimiter.allow ⟨2, 60⟩) 2 (60 * second)
      [("k1", 0), ("k1", second), ("k2", second), ("k1", 2 * second), ("k1", 61 * second)] :=
  (rateLimiters_keepBound
    [("k1", 0), ("k1", second), ("k2", second), ("k1", 2 * second), ("k1", 61 * second)]
    (by decide)).2 ⟨2, 60⟩ (by decide) (by decide)

end Cuttlegate
