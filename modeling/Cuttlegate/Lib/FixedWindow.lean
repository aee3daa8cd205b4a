import Mathlib.Data.List.Basic
import Mathlib.Data.List.Infix
import Mathlib.Tactic.Common

/-!
# Fixed Windows

A counter that lets a bounded number of arrivals pass in a window of time. The
first arrival opens a window, and so does the first one that comes strictly
after the end of the last; an arrival within the window passes while fewer than
the bound have.

When windows open depends on the times alone, whatever passes. So the opening
of the last window is defined from the arrivals without the counter, and the
counter is shown to count what has passed since. Two windows that follow each
other open more than a length apart, which is why an interval of that length
meets at most two of them.

## Main definitions

* `FixedWindow.step`: One arrival.
* `FixedWindow.run`: A run, with the log of what passed.
* `FixedWindow.opening`: The opening of the last window.
* `FixedWindow.passed`: How many arrivals passed at times of a kind.
* `FixedWindow.Bounded`: What holds after every arrival.

## Theorems

* `FixedWindow.step_denied_iff`: When an arrival does not pass.
* `FixedWindow.run_bounded`: The invariant holds in every run.
-/

namespace FixedWindow

/-- The last window of a counter: when it opened, and how many passed. -/
structure Slot where
  opened : Nat
  count : Nat
  deriving DecidableEq, Repr

/-- An arrival that was decided. -/
structure Arrival where
  time : Nat
  allowed : Bool
  deriving DecidableEq, Repr

/-- One arrival: whether it passes, and the window afterwards. -/
def step (limit size t : Nat) : Option Slot → Bool × Option Slot
  | none => (true, some ⟨t, 1⟩)
  | some s =>
      if s.opened + size < t then (true, some ⟨t, 1⟩)
      else if limit ≤ s.count then (false, some s)
      else (true, some ⟨s.opened, s.count + 1⟩)

/-- Decide one more arrival and log it. -/
def record (limit size : Nat) (state : Option Slot × List Arrival) (t : Nat) :
    Option Slot × List Arrival :=
  ((step limit size t state.1).2, state.2 ++ [⟨t, (step limit size t state.1).1⟩])

/-- The window and the log after arrivals at the given times. -/
def run (limit size : Nat) (times : List Nat) : Option Slot × List Arrival :=
  times.foldl (record limit size) (none, [])

/-- The opening of the last window after one more arrival. -/
def reopen (size : Nat) (opened : Option Nat) (t : Nat) : Option Nat :=
  match opened with
  | none => some t
  | some o => if o + size < t then some t else some o

/-- The opening of the last window, from the times alone. -/
def opening (size : Nat) (times : List Nat) : Option Nat := times.foldl (reopen size) none

/-- How many of the logged arrivals passed at times of the given kind. -/
def passed (kind : Nat → Bool) (log : List Arrival) : Nat :=
  log.countP (fun a => a.allowed && kind a.time)

section Runs

variable (limit size : Nat)

/-- An arrival does not pass exactly when a window is open and full. -/
theorem step_denied_iff (t : Nat) (slot : Option Slot) :
    (step limit size t slot).1 = false ↔
      ∃ s, slot = some s ∧ t ≤ s.opened + size ∧ limit ≤ s.count := by
  cases slot with
  | none => simp [step]
  | some s =>
      rw [step]
      by_cases hnew : s.opened + size < t
      · simp [hnew, Nat.not_le.mpr hnew]
      · by_cases hfull : limit ≤ s.count
        · simp [hnew, hfull, Nat.le_of_not_lt hnew]
        · simp [hnew, hfull]

theorem run_append (times : List Nat) (t : Nat) :
    run limit size (times ++ [t]) = record limit size (run limit size times) t := by
  rw [run, run, List.foldl_append]
  rfl

theorem opening_append (times : List Nat) (t : Nat) :
    opening size (times ++ [t]) = reopen size (opening size times) t := by
  rw [opening, opening, List.foldl_append]
  rfl

theorem passed_append (kind : Nat → Bool) (log : List Arrival) (t : Nat) (allowed : Bool) :
    passed kind (log ++ [⟨t, allowed⟩]) =
      passed kind log + if (allowed && kind t) = true then 1 else 0 := by
  rw [passed, passed, List.countP_append, List.countP_singleton]

/-- An arrival at a time of another kind. -/
theorem passed_outside (kind : Nat → Bool) (log : List Arrival) (t : Nat) (allowed : Bool)
    (ht : ¬ kind t = true) : passed kind (log ++ [⟨t, allowed⟩]) = passed kind log := by
  rw [passed_append, if_neg (fun h => ht (Bool.and_eq_true _ _ ▸ h).2), Nat.add_zero]

theorem passed_mono (kind kind' : Nat → Bool) (log : List Arrival)
    (hkind : ∀ a ∈ log, kind a.time = true → kind' a.time = true) :
    passed kind log ≤ passed kind' log := by
  refine List.countP_mono_left (fun a ha hp => ?_)
  rw [Bool.and_eq_true] at hp ⊢
  exact ⟨hp.1, hkind a ha hp.2⟩

/-- What passes in the union of two kinds of times passed in one of them. -/
theorem passed_le_add (kind left right : Nat → Bool) (log : List Arrival)
    (hkind : ∀ t, kind t = true → left t = true ∨ right t = true) :
    passed kind log ≤ passed left log + passed right log := by
  induction log with
  | nil => exact Nat.le_refl 0
  | cons a log ih =>
      unfold passed at ih ⊢
      rw [List.countP_cons, List.countP_cons, List.countP_cons]
      cases hallowed : a.allowed with
      | false => simpa using ih
      | true =>
          -- An arrival that passed counts on the left only if its time is of the kind.
          by_cases hk : kind a.time = true
          · rcases hkind a.time hk with hl | hr
            · simp only [hk, hl, Bool.and_self, if_true]
              omega
            · simp only [hk, hr, Bool.and_self, if_true]
              omega
          · simp only [hk, Bool.and_false, Bool.false_eq_true, if_false]
            omega

/-- A window is opened by an arrival. -/
theorem opening_mem (times : List Nat) (o : Nat) (ho : opening size times = some o) :
    o ∈ times := by
  induction times using List.reverseRecOn with
  | nil => exact (nomatch ho)
  | append_singleton times t ih =>
      rw [opening_append] at ho
      rw [List.mem_append, List.mem_singleton]
      cases hlast : opening size times with
      | none =>
          rw [hlast] at ho
          exact .inr (Option.some.inj ho).symm
      | some last =>
          rw [hlast, reopen] at ho
          -- Either this arrival opens the next window, or the last opening stands.
          by_cases hnew : last + size < t
          · rw [if_pos hnew] at ho
            exact .inr (Option.some.inj ho).symm
          · rw [if_neg hnew] at ho
            exact .inl (ih (hlast.trans ho))

theorem opening_none (times : List Nat) (hnone : opening size times = none) : times = [] := by
  induction times using List.reverseRecOn with
  | nil => rfl
  | append_singleton times t _ =>
      rw [opening_append] at hnone
      cases hlast : opening size times with
      | none =>
          rw [hlast] at hnone
          exact (nomatch hnone)
      | some last =>
          rw [hlast, reopen] at hnone
          by_cases hnew : last + size < t
          · rw [if_pos hnew] at hnone
            exact (nomatch hnone)
          · rw [if_neg hnew] at hnone
            exact (nomatch hnone)

/-- The arrivals of an interval of a length come from two stretches: since the
    last opening, and of a length before it. -/
theorem interval_le (log : List Arrival) (opened start : Nat)
    (hsince : passed (fun t => decide (opened ≤ t)) log ≤ limit)
    (hbefore : passed (fun t => decide (start ≤ t) && decide (t < opened)) log ≤ limit) :
    passed (fun t => decide (start ≤ t) && decide (t ≤ start + size)) log ≤ 2 * limit := by
  have hsplit := passed_le_add (fun t => decide (start ≤ t) && decide (t ≤ start + size))
    (fun t => decide (opened ≤ t)) (fun t => decide (start ≤ t) && decide (t < opened)) log
    (fun t ht => by
      simp only [Bool.and_eq_true, decide_eq_true_eq] at ht ⊢
      omega)
  omega

/-! ## The invariant -/

/-- What holds of the window and the log after arrivals at the given times. -/
structure Bounded (times : List Nat) (slot : Option Slot) (log : List Arrival) : Prop where
  /-- The window is the one the times open. -/
  opened : slot.map Slot.opened = opening size times
  /-- The log is of these times. -/
  logged : log.map Arrival.time = times
  /-- The counter counts what passed since the opening. -/
  count : ∀ s, slot = some s → s.count = passed (fun t => decide (s.opened ≤ t)) log
  limited : ∀ s, slot = some s → s.count ≤ limit
  /-- No arrival is later than the end of the window. -/
  within : ∀ s, slot = some s → ∀ a ∈ log, a.time ≤ s.opened + size
  /-- Of the arrivals before the opening, those of a length before it are of
      one window. -/
  before : ∀ s, slot = some s → ∀ start, s.opened ≤ start + size →
    passed (fun t => decide (start ≤ t) && decide (t < s.opened)) log ≤ limit
  /-- Earlier windows had ended when this one opened. -/
  past : ∀ s, slot = some s → ∀ front, front <+: times → ∀ o, opening size front = some o →
    o = s.opened ∨ o + size < s.opened
  /-- In a window no more passed than the limit. -/
  window : ∀ front, front <+: times → ∀ o, opening size front = some o →
    passed (fun t => decide (o ≤ t) && decide (t ≤ o + size)) log ≤ limit
  /-- In an interval of the same length, no more than twice that. -/
  interval : ∀ start,
    passed (fun t => decide (start ≤ t) && decide (t ≤ start + size)) log ≤ 2 * limit

theorem bounded_nil : Bounded limit size [] none [] where
  opened := rfl
  logged := rfl
  count := fun _ h => (nomatch h)
  limited := fun _ h => (nomatch h)
  within := fun _ h => (nomatch h)
  before := fun _ h => (nomatch h)
  past := fun _ h => (nomatch h)
  window := fun _ _ _ _ => Nat.zero_le _
  interval := fun _ => Nat.zero_le _

variable {limit size} {times : List Nat} {slot : Option Slot} {log : List Arrival}

/-- Before the first window opens there was no arrival. -/
theorem Bounded.unopened (hb : Bounded limit size times none log) : times = [] ∧ log = [] := by
  have hempty := opening_none size times hb.opened.symm
  have hlog := hb.logged
  rw [hempty, List.map_eq_nil_iff] at hlog
  exact ⟨hempty, hlog⟩

/-- All arrivals so far are earlier than one that opens a window. -/
theorem Bounded.earlier (hb : Bounded limit size times slot log) (t : Nat)
    (hnew : ∀ s, slot = some s → s.opened + size < t) : ∀ a ∈ log, a.time < t := by
  intro a ha
  cases slot with
  | none =>
      rw [hb.unopened.2] at ha
      exact absurd ha List.not_mem_nil
  | some s => exact lt_of_le_of_lt (hb.within s rfl a ha) (hnew s rfl)

/-- All windows so far have ended before it. -/
theorem Bounded.ended (hb : Bounded limit size times slot log) (t : Nat)
    (hnew : ∀ s, slot = some s → s.opened + size < t) (front : List Nat)
    (hfront : front <+: times) (o : Nat) (ho : opening size front = some o) : o + size < t := by
  cases slot with
  | none =>
      rw [hb.unopened.1, List.prefix_nil] at hfront
      rw [hfront] at ho
      exact (nomatch ho)
  | some s =>
      have hs := hnew s rfl
      rcases hb.past s rfl front hfront o ho with rfl | hlt
      · exact hs
      · omega

/-- Of the arrivals within a length of it, those so far are of one window. -/
theorem Bounded.meets (hb : Bounded limit size times slot log) (t : Nat)
    (hnew : ∀ s, slot = some s → s.opened + size < t) (start : Nat) (hstart : t ≤ start + size) :
    passed (fun u => decide (start ≤ u) && decide (u < t)) log ≤ limit := by
  cases slot with
  | none =>
      rw [hb.unopened.2]
      exact Nat.zero_le _
  | some s =>
      have hs := hnew s rfl
      refine le_trans ?_ (hb.limited s rfl)
      rw [hb.count s rfl]
      refine passed_mono _ _ log (fun a _ ha => ?_)
      simp only [Bool.and_eq_true, decide_eq_true_eq] at ha ⊢
      omega

/-- An arrival that opens a window keeps the invariant. -/
theorem Bounded.opens (hb : Bounded limit size times slot log) (hlimit : 1 ≤ limit) (t : Nat)
    (hnew : ∀ s, slot = some s → s.opened + size < t) :
    Bounded limit size (times ++ [t]) (some ⟨t, 1⟩) (log ++ [⟨t, true⟩]) := by
  have hopening : opening size (times ++ [t]) = some t := by
    rw [opening_append, ← hb.opened]
    cases hslot : slot with
    | none => rfl
    | some s => exact if_pos (hnew s hslot)
  -- All earlier arrivals lie before the new window, so it holds this one alone.
  have hsince : passed (fun u => decide (t ≤ u)) (log ++ [⟨t, true⟩]) = 1 := by
    have hnone : passed (fun u => decide (t ≤ u)) log = 0 := by
      rw [passed, List.countP_eq_zero]
      intro a ha
      have hlt := hb.earlier t hnew a ha
      simp only [Bool.and_eq_true, decide_eq_true_eq, not_and]
      omega
    rw [passed_append, hnone]
    simp
  -- A span that ends in the new window meets the one before it.
  have hbefore : ∀ start, t ≤ start + size →
      passed (fun u => decide (start ≤ u) && decide (u < t)) (log ++ [⟨t, true⟩]) ≤ limit := by
    intro start hstart
    rw [passed_outside _ log t true (by simp)]
    exact hb.meets t hnew start hstart
  refine ⟨hopening.symm, by rw [List.map_append, hb.logged]; rfl, ?_, ?_, ?_, ?_, ?_, ?_, ?_⟩
  · rintro s ⟨⟩
    exact hsince.symm
  · rintro s ⟨⟩
    exact hlimit
  · rintro s ⟨⟩ a ha
    rcases List.mem_append.mp ha with ha | ha
    · have hlt := hb.earlier t hnew a ha
      simp only
      omega
    · rw [List.mem_singleton.mp ha]
      exact Nat.le_add_right _ _
  · rintro s ⟨⟩
    exact hbefore
  · rintro s ⟨⟩ front hfront o ho
    rcases List.prefix_concat_iff.mp hfront with rfl | hfront
    · exact .inl (Option.some.inj (ho.symm.trans hopening))
    · exact .inr (hb.ended t hnew front hfront o ho)
  · intro front hfront o ho
    rcases List.prefix_concat_iff.mp hfront with rfl | hfront
    · rw [hopening, Option.some.injEq] at ho
      rw [← ho]
      refine le_trans (passed_mono _ (fun u => decide (t ≤ u)) _ (fun a _ ha => ?_))
        (hsince.trans_le hlimit)
      exact (Bool.and_eq_true _ _ ▸ ha).1
    · have hlt := hb.ended t hnew front hfront o ho
      rw [passed_outside _ log t true (by simp; omega)]
      exact hb.window front hfront o ho
  · -- An interval that reaches the new arrival is made of the two spans above.
    intro start
    by_cases hmeets : t ≤ start + size
    · exact interval_le limit size _ t start (hsince.trans_le hlimit) (hbefore start hmeets)
    · rw [passed_outside _ log t true (by simp; omega)]
      exact hb.interval start

/-- An arrival within the window keeps the invariant, whether it passes, which
    it may only below the limit, or does not. -/
theorem Bounded.stays (s : Slot) (hb : Bounded limit size times (some s) log) (t : Nat)
    (hlast : ∀ u ∈ times, u ≤ t) (hwithin : t ≤ s.opened + size) (allowed : Bool)
    (hallowed : allowed = true → s.count < limit) :
    Bounded limit size (times ++ [t]) (some ⟨s.opened, s.count + allowed.toNat⟩)
      (log ++ [⟨t, allowed⟩]) := by
  have hopen : opening size times = some s.opened := hb.opened.symm
  have hopening : opening size (times ++ [t]) = some s.opened := by
    rw [opening_append, hopen]
    exact if_neg (by omega)
  have hsince : s.opened ≤ t := hlast _ (opening_mem size times _ hopen)
  -- The slot counts what passed since the window was opened.
  have hcount : s.count + allowed.toNat =
      passed (fun u => decide (s.opened ≤ u)) (log ++ [⟨t, allowed⟩]) := by
    rw [passed_append, hb.count s rfl]
    cases allowed with
    | false => rfl
    | true => rw [if_pos (by simpa using hsince)]; rfl
  have hlimited : s.count + allowed.toNat ≤ limit := by
    cases hcase : allowed with
    | false => exact hb.limited s rfl
    | true => exact hallowed hcase
  have hbefore : ∀ start, s.opened ≤ start + size →
      passed (fun u => decide (start ≤ u) && decide (u < s.opened)) (log ++ [⟨t, allowed⟩])
        ≤ limit := by
    intro start hstart
    rw [passed_outside _ log t allowed (by simp; omega)]
    exact hb.before s rfl start hstart
  refine ⟨hopening.symm, by rw [List.map_append, hb.logged]; rfl, ?_, ?_, ?_, ?_, ?_, ?_, ?_⟩
  · rintro _ ⟨⟩
    exact hcount
  · rintro _ ⟨⟩
    exact hlimited
  · rintro _ ⟨⟩ a ha
    rcases List.mem_append.mp ha with ha | ha
    · exact hb.within s rfl a ha
    · rw [List.mem_singleton.mp ha]
      exact hwithin
  · rintro _ ⟨⟩
    exact hbefore
  · rintro _ ⟨⟩ front hfront o ho
    rcases List.prefix_concat_iff.mp hfront with rfl | hfront
    · exact .inl (Option.some.inj (ho.symm.trans hopening))
    · exact hb.past s rfl front hfront o ho
  · intro front hfront o ho
    -- The current window holds what the slot counts; an earlier one ended before this arrival.
    have hcurrent : passed (fun u => decide (s.opened ≤ u) && decide (u ≤ s.opened + size))
        (log ++ [⟨t, allowed⟩]) ≤ limit := by
      refine le_trans (passed_mono _ (fun u => decide (s.opened ≤ u)) _ (fun a _ ha => ?_))
        (hcount.symm.trans_le hlimited)
      exact (Bool.and_eq_true _ _ ▸ ha).1
    rcases List.prefix_concat_iff.mp hfront with rfl | hfront
    · rw [hopening, Option.some.injEq] at ho
      rw [← ho]
      exact hcurrent
    · rcases hb.past s rfl front hfront o ho with rfl | hlt
      · exact hcurrent
      · rw [passed_outside _ log t allowed (by simp; omega)]
        exact hb.window front hfront o ho
  · intro start
    -- As for an arrival that opens a window, with what passed since the opening.
    by_cases hmeets : s.opened ≤ start + size
    · exact interval_le limit size _ s.opened start (hcount.symm.trans_le hlimited)
        (hbefore start hmeets)
    · rw [passed_outside _ log t allowed (by simp; omega)]
      exact hb.interval start

/-- One arrival keeps the invariant. -/
theorem Bounded.record (hb : Bounded limit size times slot log) (hlimit : 1 ≤ limit) (t : Nat)
    (hlast : ∀ u ∈ times, u ≤ t) :
    Bounded limit size (times ++ [t]) (FixedWindow.record limit size (slot, log) t).1
      (FixedWindow.record limit size (slot, log) t).2 := by
  unfold FixedWindow.record
  cases slot with
  | none => exact hb.opens hlimit t (fun s hs => (nomatch hs))
  | some s =>
      rw [step]
      by_cases hnew : s.opened + size < t
      · rw [if_pos hnew]
        exact hb.opens hlimit t (fun s' hs' => Option.some.inj hs' ▸ hnew)
      rw [if_neg hnew]
      by_cases hfull : limit ≤ s.count
      · rw [if_pos hfull]
        exact hb.stays s t hlast (by omega) false (fun h => (nomatch h))
      · rw [if_neg hfull]
        exact hb.stays s t hlast (by omega) true (fun _ => by omega)

variable (limit size)

/-- The invariant holds after every run whose times do not go back. -/
theorem run_bounded (hlimit : 1 ≤ limit) (times : List Nat) (hmono : times.Pairwise (· ≤ ·)) :
    Bounded limit size times (run limit size times).1 (run limit size times).2 := by
  induction times using List.reverseRecOn with
  | nil => exact bounded_nil limit size
  | append_singleton times t ih =>
      rw [List.pairwise_append] at hmono
      rw [run_append]
      exact (ih hmono.1).record hlimit t
        (fun u hu => hmono.2.2 u hu t (List.mem_singleton.mpr rfl))

end Runs

end FixedWindow
