import Cuttlegate.Lib.Backoff
import Cuttlegate.Sdk.StreamLoop
import Mathlib.Tactic.Linarith

/-!
# Backoff During Outages

The waits of the stream loops of Go and Python.

In Go the base of a wait is the capped doubling, although the shift wraps.

The loop of Python counts the attempts since the last connection, and should
wait for a time drawn up to the capped doubling of that count. It does, but for
two things. A stream that is broken by a transport error counts as an attempt
without a connection, so the loop waits where it should not. And from the
1024th attempt in a row the power of two is too large for a float: the
exception ends the thread.

## Main definitions

* `Python.sinceConnected`: How many attempts there were since the last one with
  a connection.
* `Python.Survives`: The loop goes on as it should.
* `Python.Short`: No outage is too long, and no stream is broken.
* `Python.Counted`: What the variables of the loop tell.
* `Python.StreamLoop.Does`: What a step can do.

## Theorems

* `Go.backoffBase_exact`: The base of a wait in Go.
* `Python.backoffDelay_eq`: A wait in Python.
* `Python.Counted.turn_iff`, `Python.Counted.turn`: What a step does.
* `Python.survives_iff`: When the loop of Python goes on as it should.
-/

namespace Cuttlegate.Sdk

/-! ## Go -/

namespace Go

/-- The base as the capped doubling. -/
theorem backoffBase_eq (attempt : BitVec 64) (h : 1 ≤ attempt.toInt) :
    backoffBase attempt =
      some (Backoff.base 100000000 30000000000 (attempt.toInt - 1).toNat : Nat) := by
  have hsub : (attempt - 1).toInt = attempt.toInt - 1 := by
    have hle : attempt.toInt < 2 ^ 63 := BitVec.toInt_lt
    rw [BitVec.toInt_sub]
    exact Int.bmod_eq_of_le_mul_two (by simp; omega) (by simp; omega)
  have hclamped : Backoff.clamped backoffInitial (30000000000 : Nat) (attempt.toInt - 1).toNat =
      Backoff.base 100000000 30000000000 (attempt.toInt - 1).toNat := by
    refine Backoff.clamped_eq backoffInitial 30000000000 37 _ (by decide) (by decide) (by decide) ?_
    -- Below 37 the doubling stays clear of the sign.
    intro hwraps
    by_contra hlt
    have hpow : 2 ^ (attempt.toInt - 1).toNat ≤ 2 ^ 36 :=
      Nat.pow_le_pow_right Nat.two_pos (by omega)
    have hinitial : backoffInitial.toNat = 100000000 := rfl
    rw [hinitial] at hwraps
    omega
  rw [backoffBase, hsub, if_neg (by omega)]
  exact congrArg some hclamped

/-- For every positive attempt the base is the capped doubling: it is positive,
    at most 30 seconds, and does not decrease. -/
theorem backoffBase_exact (attempt : BitVec 64) (h : 1 ≤ attempt.toInt) :
    ∃ base, backoffBase attempt = some base ∧
      base = min (100000000 * 2 ^ (attempt.toInt - 1).toNat) 30000000000 ∧
      0 < base ∧ base ≤ 30000000000 ∧
      ∀ later, attempt.toInt ≤ later.toInt → ∃ base', backoffBase later = some base' ∧
        base ≤ base' := by
  refine ⟨_, backoffBase_eq attempt h, ?_, ?_, ?_, fun later hlater => ?_⟩
  · rw [Backoff.base]
    push_cast
    rfl
  · exact_mod_cast Backoff.base_pos _ _ _ (by decide) (by decide)
  · exact_mod_cast Backoff.base_le _ _ _
  · refine ⟨_, backoffBase_eq later (h.trans hlater), ?_⟩
    exact_mod_cast Backoff.base_mono _ _ (Int.toNat_le_toNat (by omega))

/-- The shift of the 40th attempt wraps. -/
theorem backoffBase_wrapped : ∃ base, backoffBase 40 = some base ∧ base = 30000000000 := by
  rcases backoffBase_exact 40 (by decide) with ⟨base, hbase, hmin, _⟩
  exact ⟨base, hbase, hmin.trans (by decide)⟩

end Go

/-! ## Python -/

namespace Python

/-- A power of two lies below the next one less a smaller power exactly when its
    exponent is smaller. -/
theorem pow_lt_iff (j k l n : Nat) (h : j < k) (hl : l = k + 1) :
    2 ^ n < 2 ^ l - 2 ^ j ↔ n ≤ k := by
  subst hl
  have hsmall : 2 ^ j < 2 ^ k := Nat.pow_lt_pow_right (by decide) h
  have hsucc : 2 ^ (k + 1) = 2 ^ k * 2 := pow_succ 2 k
  have hpos : 0 < 2 ^ j := Nat.two_pow_pos j
  constructor
  · intro hlt
    by_contra hn
    have hle : 2 ^ (k + 1) ≤ 2 ^ n := Nat.pow_le_pow_right Nat.two_pos (by omega)
    omega
  · intro hn
    have hle : 2 ^ n ≤ 2 ^ k := Nat.pow_le_pow_right Nat.two_pos hn
    omega

/-- Powers of two up to the exponent 1023 have a float. -/
theorem toFloat_pow (n : Nat) :
    toFloat (2 ^ n) = if n ≤ 1023 then some ((2 ^ n : Nat) : ℚ) else none := by
  have hlimit : 2 ^ n < floatLimit ↔ n ≤ 1023 := by
    unfold floatLimit
    exact pow_lt_iff 970 1023 1024 n (by decide) rfl
  rw [toFloat]
  by_cases hn : n ≤ 1023
  · rw [if_pos (hlimit.mpr hn), if_pos hn]
  · rw [if_neg (fun h => hn (hlimit.mp h)), if_neg hn]

/-- The wait before an attempt. -/
theorem backoffDelay_eq (random : ℚ) (n : Nat) :
    backoffDelay random n =
      if n ≤ 1023 then some (random * (Backoff.base 1 30 n : Nat)) else none := by
  rw [backoffDelay, toFloat_pow]
  by_cases hn : n ≤ 1023
  · rw [if_pos hn, if_pos hn]
    simp [Backoff.base]
  · rw [if_neg hn, if_neg hn]
    rfl

/-- A drawn wait lies between zero and the capped doubling. -/
theorem draw_le (random : ℚ) (n : Nat) (h : 0 ≤ random ∧ random < 1) :
    0 ≤ random * (Backoff.base 1 30 n : Nat) ∧
      random * (Backoff.base 1 30 n : Nat) ≤ (Backoff.base 1 30 n : Nat) := by
  have hbase : (0 : ℚ) ≤ (Backoff.base 1 30 n : Nat) := Nat.cast_nonneg _
  exact ⟨mul_nonneg h.1 hbase, mul_le_of_le_one_left hbase h.2.le⟩

/-! ### The attempts so far -/

/-- Whether a connection has been made. -/
def Attempt.connected : Attempt → Bool
  | .responded status _ => status == 200
  | .failed => false

/-- Whether the token has been refused. -/
def Attempt.refused : Attempt → Bool
  | .responded status _ => status == 401 || status == 403
  | .failed => false

/-- Whether an event is the refusal of the token. -/
def StreamEvent.refused : StreamEvent → Bool
  | .attempted outcome _ => outcome.refused
  | _ => false

/-- The attempts since the last connection, after an event. -/
def StreamEvent.count (f : Nat) : StreamEvent → Nat
  | .attempted outcome _ => if outcome.connected then 0 else f + 1
  | _ => f

/-- How many attempts there were since the last one with a connection. -/
def sinceConnected (H : List Turn) : Nat := H.foldl (fun f o => o.event.count f) 0

/-- The consumer has closed the stream. -/
def Closed (H : List Turn) : Prop := ∃ o ∈ H, o.event = .close

/-- The consumer has closed the stream, or the token was refused. -/
def Over (H : List Turn) : Prop := Closed H ∨ ∃ o ∈ H, o.event.refused = true

/-- After `f` attempts without a connection the next one follows at once if `f`
    is zero, and otherwise after a wait up to the capped doubling. -/
def Waits (f : Nat) : Waiting → Prop
  | .attempt => f = 0
  | .backoff delay => 0 < f ∧ 0 ≤ delay ∧ delay ≤ (Backoff.base 1 30 f : Nat)
  | _ => False

/-- A step of a loop that goes on as it should. -/
structure Turn.Survives (P : List Turn) (o : Turn) : Prop where
  raised : o.after.waits ≠ .raised
  ended : o.after.waits = .ended → Over (P ++ [o])
  waits : o.event ≠ .timer → o.event ≠ .close → o.after.waits ≠ .ended →
    Waits (sinceConnected (P ++ [o])) o.after.waits

/-- The loop goes on as it should. -/
def Survives : List Turn → Prop := Throughout (fun P o => o.Survives P)

/-- An attempt that is neither a refusal nor made after the close is not broken
    while it is connected, and there are less than 1024 without a connection. -/
def Turn.Short (P : List Turn) (o : Turn) : Prop :=
  ∀ outcome random, o.event = .attempted outcome random → outcome.refused = false → ¬ Closed P →
    outcome ≠ .responded 200 true ∧ sinceConnected (P ++ [o]) < 1024

/-- No stream is broken, and no outage lasts for 1024 attempts. -/
def Short : List Turn → Prop := Throughout (fun P o => o.Short P)

theorem sinceConnected_snoc (P : List Turn) (o : Turn) :
    sinceConnected (P ++ [o]) = o.event.count (sinceConnected P) := by
  rw [sinceConnected, List.foldl_append]
  rfl

theorem closed_snoc (P : List Turn) (o : Turn) :
    Closed (P ++ [o]) ↔ Closed P ∨ o.event = .close := by
  simp [Closed, or_and_right, exists_or]

theorem Over.snoc (P : List Turn) (o : Turn) (h : Over P) : Over (P ++ [o]) := by
  rcases h with ⟨a, ha, hclose⟩ | ⟨a, ha, hrefused⟩
  · exact .inl ⟨a, List.mem_append_left _ ha, hclose⟩
  · exact .inr ⟨a, List.mem_append_left _ ha, hrefused⟩

/-! ### One step -/

/-- What the variables of the loop tell of the events so far. -/
structure Counted (P : List Turn) (s : StreamLoop) : Prop where
  stopped : s.stopped = true ↔ Closed P
  fresh : s.waits = .start → s.attempt = 0
  counts : s.waits ≠ .ended → s.attempt = sinceConnected P
  ended : s.waits = .ended → Over P
  live : s.waits ≠ .raised

theorem counted_begin : Counted [] {} where
  stopped := by simp [Closed]
  fresh _ := rfl
  counts _ := rfl
  ended h := absurd h (by simp)
  live := by simp

/-- What the loop is told of an attempt. -/
theorem attemptConnection_eq (outcome : Attempt) :
    attemptConnection outcome =
      (outcome.refused, outcome.connected && outcome ≠ .responded 200 true) := by
  cases outcome with
  | failed => rfl
  | responded status broken =>
      simp only [attemptConnection, Attempt.refused, Attempt.connected]
      split_ifs with h401 h500 h200 hbroken
      · rcases h401 with rfl | rfl <;> rfl
      · have h401' : status ≠ 401 := by omega
        have h403' : status ≠ 403 := by omega
        have h200' : status ≠ 200 := by omega
        simp [h401', h403', h200']
      · rw [not_or] at h401
        simp [h401.1, h401.2, h200]
      · rw [not_not.mp h200, hbroken]
        rfl
      · rw [not_not.mp h200, Bool.eq_false_iff.mpr hbroken]
        rfl

/-- A connection is not a refusal. -/
theorem Attempt.not_refused (outcome : Attempt) (h : outcome.connected = true) :
    outcome.refused = false := by
  cases outcome with
  | failed => rfl
  | responded status broken =>
      have hstatus : status = 200 := by simpa [Attempt.connected] using h
      rw [hstatus]
      rfl

/-- Where the head of the loop goes, by the number of the attempt. -/
def waitsFor (random : ℚ) (attempt : Nat) : Waiting :=
  if attempt = 0 then .attempt
  else if attempt ≤ 1023 then .backoff (random * (Backoff.base 1 30 attempt : Nat))
  else .raised

theorem head_running (random : ℚ) (s : StreamLoop) (hs : s.stopped = false) :
    s.head random = { s with waits := waitsFor random s.attempt } := by
  rw [StreamLoop.head, if_neg (by simp [hs]), waitsFor]
  by_cases hzero : s.attempt = 0
  · rw [if_neg (by omega), if_pos hzero]
  · rw [if_pos (by omega), if_neg hzero, backoffDelay_eq]
    by_cases hsmall : s.attempt ≤ 1023
    · rw [if_pos hsmall, if_pos hsmall]
    · rw [if_neg hsmall, if_neg hsmall]

theorem head_stopped (random : ℚ) (s : StreamLoop) (hs : s.stopped = true) :
    s.head random = { s with waits := .ended } := if_pos hs

theorem waitsFor_ne_ended (random : ℚ) (attempt : Nat) : waitsFor random attempt ≠ .ended := by
  unfold waitsFor
  split_ifs <;> simp

/-- The wait is right for a count that is the number of the attempt, unless the
    power of two is too large. -/
theorem waits_self_iff (random : ℚ) (h : 0 ≤ random ∧ random < 1) (f : Nat) :
    Waits f (waitsFor random f) ↔ f < 1024 := by
  unfold waitsFor
  split_ifs with hzero hsmall
  · exact iff_of_true hzero (by omega)
  · exact iff_of_true ⟨Nat.pos_of_ne_zero hzero, draw_le random f h⟩ (by omega)
  · exact iff_of_false id (by omega)

/-- There is no wait right after a connection. -/
theorem waits_zero (random : ℚ) (attempt : Nat) (h : attempt ≠ 0) :
    ¬ Waits 0 (waitsFor random attempt) := by
  unfold waitsFor
  rw [if_neg h]
  split_ifs
  · exact fun hwaits => absurd hwaits.1 (Nat.lt_irrefl 0)
  · exact id

theorem head_fields (random : ℚ) (s : StreamLoop) :
    (s.head random).stopped = s.stopped ∧ (s.head random).attempt = s.attempt ∧
      (s.head random).waits ≠ .start := by
  cases hs : s.stopped with
  | true =>
      rw [head_stopped random s hs]
      exact ⟨hs, rfl, by simp⟩
  | false =>
      rw [head_running random s hs]
      refine ⟨hs, rfl, ?_⟩
      unfold waitsFor
      simp only
      split_ifs <;> simp

/-- The number of the next attempt, after one that was not refused. -/
def StreamLoop.renumbered (s : StreamLoop) (outcome : Attempt) : StreamLoop :=
  { s with
    attempt := if outcome.connected && outcome ≠ .responded 200 true then 0 else s.attempt + 1 }

/-- What a step can do. -/
inductive StreamLoop.Does (s : StreamLoop) : StreamEvent → StreamLoop → Prop
  | started (t : StreamLoop) (hw : s.waits = .start) (ht : t = s.head 0) : s.Does .start t
  | rested (delay : ℚ) (hw : s.waits = .backoff delay) :
      s.Does .timer { s with waits := if s.stopped then .ended else .attempt }
  | cut (delay : ℚ) (hw : s.waits = .backoff delay) :
      s.Does .close { s with waits := .ended, stopped := true }
  | closed (hw : ∀ delay, s.waits ≠ .backoff delay) : s.Does .close { s with stopped := true }
  | refused (outcome : Attempt) (random : ℚ) (hw : s.waits = .attempt)
      (hrefused : outcome.refused = true) :
      s.Does (.attempted outcome random) { s with waits := .ended }
  | attempted (outcome : Attempt) (random : ℚ) (t : StreamLoop) (hw : s.waits = .attempt)
      (hrefused : outcome.refused = false) (ht : t = (s.renumbered outcome).head random) :
      s.Does (.attempted outcome random) t

theorem StreamLoop.step_does (s t : StreamLoop) (e : StreamEvent) (h : s.step e = some t) :
    s.Does e t := by
  cases e with
  | start =>
      simp only [StreamLoop.step, Option.ite_none_right_eq_some, Option.some.injEq] at h
      rcases h with ⟨hw, rfl⟩
      exact .started _ hw rfl
  | timer =>
      simp only [StreamLoop.step] at h
      split at h
      next delay hw =>
        cases h
        exact .rested delay hw
      next => cases h
  | close =>
      simp only [StreamLoop.step, Option.some.injEq] at h
      split at h
      next delay hw =>
        cases h
        exact .cut delay hw
      next hw =>
        cases h
        exact .closed hw
  | attempted outcome random =>
      simp only [StreamLoop.step, attemptConnection_eq, Option.ite_none_right_eq_some] at h
      rcases h with ⟨hw, h⟩
      cases hrefused : outcome.refused with
      | true =>
          rw [hrefused, if_pos rfl] at h
          cases h
          exact .refused outcome random hw hrefused
      | false =>
          rw [hrefused, if_neg Bool.false_ne_true] at h
          cases h
          exact .attempted outcome random _ hw hrefused rfl

theorem Turns.does (s t t' : StreamLoop) (e : StreamEvent) (h : Turns s ⟨e, t'⟩ t) :
    t' = t ∧ e.Fair ∧ s.Does e t :=
  ⟨h.2.2, h.1, s.step_does t e h.2.1⟩

section Turn

variable {P : List Turn} {s t : StreamLoop} {e : StreamEvent}

/-- A loop that ends goes on as it should when it is over. -/
theorem survives_ended (hended : t.waits = .ended) (hover : Over (P ++ [⟨e, t⟩])) :
    Turn.Survives P ⟨e, t⟩ :=
  ⟨by simp [hended], fun _ => hover, fun _ _ h => absurd hended h⟩

/-- A step that leads to another attempt is right when the wait before it is. -/
theorem survives_iff_waits (hended : t.waits ≠ .ended) (htimer : e ≠ .timer)
    (hclose : e ≠ .close) :
    Turn.Survives P ⟨e, t⟩ ↔ Waits (sinceConnected (P ++ [⟨e, t⟩])) t.waits := by
  constructor
  · exact fun h => h.waits htimer hclose hended
  · intro hwaits
    refine ⟨fun hraised => ?_, fun h => absurd h hended, fun _ _ _ => hwaits⟩
    rw [hraised] at hwaits
    exact hwaits

/-- An attempt that is not refused goes as it should exactly when its stream is
    not broken and the outage is not too long. -/
theorem attempted_iff (outcome : Attempt) (random : ℚ) (hrandom : 0 ≤ random ∧ random < 1)
    (hcounted : Counted P s) (hw : s.waits = .attempt) (hclosed : ¬ Closed P)
    (ht : t = (s.renumbered outcome).head random) :
    Turn.Survives P ⟨.attempted outcome random, t⟩ ↔ outcome ≠ .responded 200 true ∧
      sinceConnected (P ++ [⟨.attempted outcome random, t⟩]) < 1024 := by
  have hrunning : s.stopped = false :=
    Bool.eq_false_iff.mpr (fun h => hclosed (hcounted.stopped.mp h))
  have hwaits := congrArg StreamLoop.waits
    (ht.trans (head_running random (s.renumbered outcome) hrunning))
  have hbefore := hcounted.counts (by rw [hw]; simp)
  rw [survives_iff_waits (by rw [hwaits]; exact waitsFor_ne_ended _ _) (by simp) (by simp), hwaits,
    sinceConnected_snoc, StreamLoop.renumbered]
  by_cases hbroken : outcome = .responded 200 true
  · -- The count starts again, the number of the attempt does not.
    rw [hbroken]
    refine iff_of_false ?_ (fun h => absurd rfl h.1)
    exact waits_zero random (s.attempt + 1) (Nat.succ_ne_zero _)
  · cases hconnected : outcome.connected with
    -- A connection starts the count again, a failure adds one to it.
    | true =>
        simp only [StreamEvent.count, hconnected, hbroken, if_true, Bool.true_and, ne_eq,
          not_false_eq_true, decide_true, true_and]
        exact waits_self_iff random hrandom 0
    | false =>
        simp only [StreamEvent.count, hconnected, hbroken, Bool.false_and, Bool.false_eq_true,
          if_false, ne_eq, not_false_eq_true, true_and, hbefore]
        exact waits_self_iff random hrandom (sinceConnected P + 1)

/-- The start of the thread, with the consumer possibly ahead of it. -/
theorem started_survives (hcounted : Counted P s) (hw : s.waits = .start) :
    Turn.Survives P ⟨.start, s.head 0⟩ := by
  cases hs : s.stopped with
  | true =>
      refine survives_ended ?_ (Over.snoc P _ (.inl (hcounted.stopped.mp hs)))
      rw [head_stopped 0 s hs]
  | false =>
      have hcount : sinceConnected (P ++ [⟨.start, s.head 0⟩]) = 0 := by
        rw [sinceConnected_snoc, ← hcounted.counts (by simp [hw]), hcounted.fresh hw]
        rfl
      have hwaits : (s.head 0).waits = .attempt := by
        rw [head_running 0 s hs, hcounted.fresh hw]
        rfl
      rw [survives_iff_waits (by simp [hwaits]) (by simp) (by simp), hcount, hwaits]
      rfl

/-- The end of a backoff. -/
theorem rested_survives (hcounted : Counted P s) :
    Turn.Survives P ⟨.timer, { s with waits := if s.stopped then .ended else .attempt }⟩ := by
  cases hs : s.stopped with
  | true => exact survives_ended rfl (Over.snoc P _ (.inl (hcounted.stopped.mp hs)))
  | false => exact ⟨by simp, fun h => absurd h (by simp), fun h => absurd rfl h⟩

/-- A step goes as it should exactly when it is no attempt that breaks off and
    the outage is not too long. -/
theorem Counted.turn_iff {o : Turn} (hcounted : Counted P s) (h : Turns s o t) :
    o.Survives P ↔ o.Short P := by
  rcases o with ⟨e, t'⟩
  rcases Turns.does s t t' e h with ⟨rfl, hfair, hdoes⟩
  cases hdoes with
  | started t hw ht =>
      rw [ht]
      exact iff_of_true (started_survives hcounted hw) (fun _ _ h => absurd h (by simp))
  | rested delay hw =>
      exact iff_of_true (rested_survives hcounted) (fun _ _ h => absurd h (by simp))
  -- A close ends the loop as it should, during a wait or not.
  | cut delay hw =>
      have hclosed : Closed (P ++ [⟨.close, { s with waits := .ended, stopped := true }⟩]) :=
        (closed_snoc P _).mpr (.inr rfl)
      exact iff_of_true (survives_ended rfl (.inl hclosed)) (fun _ _ h => absurd h (by simp))
  | closed hw =>
      have hclosed : Closed (P ++ [⟨.close, { s with stopped := true }⟩]) :=
        (closed_snoc P _).mpr (.inr rfl)
      exact iff_of_true ⟨hcounted.live, fun _ => .inl hclosed, fun _ h => absurd rfl h⟩
        (fun _ _ h => absurd h (by simp))
  | refused outcome random hw hrefused =>
      have hlast : ∃ o ∈ P ++ [⟨.attempted outcome random, { s with waits := .ended }⟩],
          o.event.refused = true := ⟨_, List.mem_append_right _ List.mem_cons_self, hrefused⟩
      refine iff_of_true (survives_ended rfl (.inr hlast)) (fun outcome' random' h hnot => ?_)
      cases h
      exact absurd (hrefused.symm.trans hnot) (by decide)
  | attempted outcome random t hw hrefused ht =>
      -- After a close the attempt that was running is the last one, whatever it brings.
      by_cases hclosed : Closed P
      · refine iff_of_true (survives_ended ?_ (Over.snoc P _ (.inl hclosed)))
          (fun _ _ _ _ hopen => absurd hclosed hopen)
        rw [ht, head_stopped random (s.renumbered outcome) (hcounted.stopped.mpr hclosed)]
      · rw [attempted_iff outcome random hfair hcounted hw hclosed ht]
        constructor
        · intro h outcome' random' h' _ _
          cases h'
          exact h
        · exact fun h => h outcome random rfl hrefused hclosed

/-- Only the consumer stops the loop. -/
theorem StreamLoop.Does.stopped (h : s.Does e t) :
    t.stopped = true ↔ s.stopped = true ∨ e = .close := by
  cases h with
  | started t hw ht => simp [ht, (head_fields 0 s).1]
  | attempted outcome random t hw hrefused ht =>
      have hkept := (head_fields random (s.renumbered outcome)).1
      rw [ht, hkept, StreamLoop.renumbered]
      simp
  | rested | cut | closed | refused => simp

/-- The loop waits for its start until the thread starts. -/
theorem StreamLoop.Does.fresh (h : s.Does e t) (hfresh : t.waits = .start) :
    s.waits = .start ∧ t.attempt = s.attempt := by
  cases h with
  | started t hw ht => exact absurd hfresh (ht ▸ (head_fields 0 s).2.2)
  | rested delay hw => exact absurd hfresh (by simp only; split_ifs <;> simp)
  | cut | refused => cases hfresh
  | closed hw => exact ⟨hfresh, rfl⟩
  | attempted outcome random t hw hrefused ht =>
      exact absurd hfresh (ht ▸ (head_fields random (s.renumbered outcome)).2.2)

/-- The number of the attempt after a step that goes as it should. -/
theorem StreamLoop.Does.counts (h : s.Does e t) (hcounted : Counted P s) (hfair : e.Fair)
    (hsurvives : Turn.Survives P ⟨e, t⟩) (hended : t.waits ≠ .ended) :
    t.attempt = sinceConnected (P ++ [⟨e, t⟩]) := by
  rw [sinceConnected_snoc]
  cases h with
  | started t hw ht =>
      rw [ht, (head_fields 0 s).2.1]
      exact hcounted.counts (by simp [hw])
  | rested delay hw => exact hcounted.counts (by simp [hw])
  | cut | refused => exact absurd rfl hended
  | closed hw => exact hcounted.counts hended
  | attempted outcome random t hw hrefused ht =>
      have hclosed : ¬ Closed P := by
        intro hclosed
        have hstopped := head_stopped random (s.renumbered outcome) (hcounted.stopped.mpr hclosed)
        exact hended (by rw [ht, hstopped])
      have hwhole :=
        ((attempted_iff outcome random hfair hcounted hw hclosed ht).mp hsurvives).1
      rw [ht, (head_fields random _).2.1, StreamLoop.renumbered, hcounted.counts (by simp [hw])]
      simp [StreamEvent.count, hwhole]

/-- A step that goes as it should keeps what the variables tell. -/
theorem Counted.turn {o : Turn} (hcounted : Counted P s) (h : Turns s o t)
    (hsurvives : o.Survives P) : Counted (P ++ [o]) t := by
  rcases o with ⟨e, t'⟩
  rcases Turns.does s t t' e h with ⟨rfl, hfair, hdoes⟩
  refine ⟨?_, fun hw => ?_, hdoes.counts hcounted hfair hsurvives, hsurvives.ended,
    hsurvives.raised⟩
  · rw [hdoes.stopped, hcounted.stopped, closed_snoc]
  · rcases hdoes.fresh hw with ⟨hs, hattempt⟩
    rw [hattempt]
    exact hcounted.fresh hs

end Turn

/-- In every run, the loop goes on as it should if and only if no stream is
    broken and no outage lasts for 1024 attempts, before the close. -/
theorem survives_iff (H : List Turn) (s : StreamLoop) (h : Steps Turns {} H s) :
    Survives H ↔ Short H := by
  refine Steps.throughout_iff _ _ Counted {} counted_begin ?_ H s h
  intro P s o t _ hcounted hturn
  exact ⟨hcounted.turn_iff hturn, hcounted.turn hturn⟩

/-- The loop once its thread has started. -/
def started : StreamLoop := ⟨.attempt, 0, false⟩

theorem turns_start : Turns {} ⟨.start, started⟩ started := ⟨trivial, rfl, rfl⟩

/-- The loop waits after a stream that is broken. -/
theorem turns_broken : Turns started
    ⟨.attempted (.responded 200 true) 0, ⟨waitsFor 0 1, 1, false⟩⟩ ⟨waitsFor 0 1, 1, false⟩ := by
  refine ⟨⟨le_refl 0, zero_lt_one⟩, ?_, rfl⟩
  simp [started, StreamLoop.step, attemptConnection, head_running]

/-- The thread starts, and a stream that was connected is broken: the loop waits,
    although the last attempt was connected. -/
theorem broken_stream_waits : ¬ ∀ H s, Steps Turns {} H s → Survives H := by
  intro hall
  have hrun := Steps.cons _ _ _ _ _ turns_start (Steps.single _ _ _ turns_broken)
  have hlast := (hall _ _ hrun [_] _ [] rfl).waits (by simp) (by simp) (waitsFor_ne_ended 0 1)
  exact waits_zero 0 1 Nat.one_ne_zero hlast

/-- An attempt that fails is followed by the next wait. -/
theorem turns_failed (n : Nat) : Turns ⟨.attempt, n, false⟩
    ⟨.attempted .failed 0, ⟨waitsFor 0 (n + 1), n + 1, false⟩⟩
    ⟨waitsFor 0 (n + 1), n + 1, false⟩ := by
  refine ⟨⟨le_refl 0, zero_lt_one⟩, ?_, rfl⟩
  simp [StreamLoop.step, attemptConnection, head_running]

/-- A wait is followed by the next attempt. -/
theorem turns_rested (n : Nat) (hpos : n ≠ 0) (hn : n ≤ 1023) : Turns ⟨waitsFor 0 n, n, false⟩
    ⟨.timer, ⟨.attempt, n, false⟩⟩ ⟨.attempt, n, false⟩ := by
  rw [waitsFor, if_neg hpos, if_pos hn]
  exact ⟨trivial, rfl, rfl⟩

/-- A connection that ends is followed by the next attempt at once. -/
theorem turns_reconnected (n : Nat) : Turns ⟨.attempt, n, false⟩
    ⟨.attempted (.responded 200 false) 0, started⟩ started := by
  refine ⟨⟨le_refl 0, zero_lt_one⟩, ?_, rfl⟩
  simp [started, StreamLoop.step, attemptConnection, StreamLoop.head]

/-- An attempt that fails, a wait, and a connection that ends. -/
theorem survives_reconnects :
    Survives [⟨.start, started⟩, ⟨.attempted .failed 0, ⟨waitsFor 0 1, 1, false⟩⟩,
      ⟨.timer, ⟨.attempt, 1, false⟩⟩, ⟨.attempted (.responded 200 false) 0, started⟩] := by
  have hrun := Steps.cons _ _ _ _ _ turns_start (Steps.cons _ _ _ _ _ (turns_failed 0)
    (Steps.cons _ _ _ _ _ (turns_rested 1 one_ne_zero (by decide))
      (Steps.single _ _ _ (turns_reconnected 1))))
  refine (survives_iff _ _ hrun).mpr ((throughout_snoc _ [_, _, _] _).mpr
    ⟨(throughout_snoc _ [_, _] _).mpr ⟨(throughout_snoc _ [_] _).mpr
      ⟨(throughout_snoc _ [] _).mpr ⟨throughout_nil _, ?_⟩, ?_⟩, ?_⟩, ?_⟩)
  · intro outcome random h
    cases h
  · -- The first attempt of the outage is counted.
    intro outcome random h _ _
    cases h
    exact ⟨by decide, by decide⟩
  · intro outcome random h
    cases h
  · intro outcome random h _ _
    cases h
    exact ⟨by decide, by decide⟩

/-- The events of an outage in which every attempt fails. -/
def OutageOnly (H : List Turn) : Prop :=
  ∀ o ∈ H, o.event = .start ∨ o.event = .timer ∨ o.event = .attempted .failed 0

/-- Attempts that fail lead to the next wait. -/
theorem outage (n : Nat) (hn : n ≤ 1024) :
    ∃ H, Steps Turns {} H ⟨waitsFor 0 n, n, false⟩ ∧ OutageOnly H := by
  induction n with
  | zero => exact ⟨_, Steps.single _ _ _ turns_start, by simp [OutageOnly]⟩
  | succ n ih =>
      rcases ih (by omega) with ⟨H, hrun, honly⟩
      by_cases hzero : n = 0
      · -- The first attempt is not waited for.
        have hfails := turns_failed n
        rw [hzero] at hrun hfails ⊢
        refine ⟨_, Steps.snoc _ H _ _ _ hrun hfails, fun o ho => ?_⟩
        rcases List.mem_append.mp ho with hold | hlast
        · exact honly o hold
        · rw [List.mem_singleton.mp hlast]
          exact .inr (.inr rfl)
      · have hrested := Steps.snoc _ H _ _ _ hrun (turns_rested n hzero (by omega))
        refine ⟨_, Steps.snoc _ _ _ _ _ hrested (turns_failed n), fun o ho => ?_⟩
        rcases List.mem_append.mp ho with hold | hlast
        · rcases List.mem_append.mp hold with hold | htimed
          · exact honly o hold
          · rw [List.mem_singleton.mp htimed]
            exact .inr (.inl rfl)
        · rw [List.mem_singleton.mp hlast]
          exact .inr (.inr rfl)

/-- After 1024 attempts in a row that fail, the thread has ended with an
    exception. -/
theorem outage_raises : ∃ H, Steps Turns {} H ⟨.raised, 1024, false⟩ ∧ OutageOnly H :=
  outage 1024 (le_refl _)

end Python

end Cuttlegate.Sdk
