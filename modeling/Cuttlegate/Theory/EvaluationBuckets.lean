import Cuttlegate.Lib.Histogram
import Cuttlegate.Theory.EvaluationPages

/-!
# Buckets of Evaluations

Whether the buckets of a window account for every evaluation in it.

The service cuts the time down to a bucket and asks for what has happened since
the window began. The database makes the series of buckets up to its own clock
and joins the evaluations to them, one row for each bucket and variant. The
rows are folded into buckets again, and rows without a variant are taken for
buckets without evaluations. An evaluation whose variant has the empty key is
lost there, although a flag may have such a variant. The evaluations are read
on the pool, where none is seen when row-level security is enforced, and an
evaluation later than the current bucket belongs to none.

Every other evaluation is counted once, and the series has as many buckets as
the window is long.

## Main definitions

* `windowStart`: The beginning of a window.
* `AccountsFor`: The buckets account for evaluations.
* `bucketOf`, `windowBuckets`: The buckets the database answers with.
* `Countable`: Which evaluations the buckets count.

## Theorems

* `generateSeries_window`: The series of a window.
* `bucketOf_eq`: A bucket, when its rows are folded.
* `windowBuckets_total`: What the buckets count together.
* `windowBuckets_totals_iff`: When that is every evaluation since the window began.
* `windowBuckets_accounts_iff`: When they account for every evaluation.
* `getBuckets_accounts_iff`: The same, of the service.
-/

namespace Cuttlegate

/-- The beginning of the window that ends with the bucket of the given time. -/
def windowStart (windowDur bucketDur now : Time) : Time :=
  dateTrunc bucketDur now + bucketDur - windowDur

/-- Whether an evaluation falls into the bucket that starts at the given time. -/
def EvaluationEvent.inSlot (bucketDur slot : Time) (e : EvaluationEvent) : Bool :=
  decide (slot ≤ e.occurredAt ∧ e.occurredAt < slot + bucketDur)

/-- The buckets follow each other up to the current one, as many as fill the
    window; each counts the evaluations that fall into it, by variant; and
    together they count the evaluations since the window began. -/
structure AccountsFor (events : List EvaluationEvent) (windowDur bucketDur now : Time)
    (buckets : List EvaluationBucket) : Prop where
  length : buckets.length = windowDur / bucketDur
  consecutive : (buckets.map (·.timestamp)).IsChain (fun a b => b = a + bucketDur)
  current : (buckets.map (·.timestamp)).getLast? = some (dateTrunc bucketDur now)
  sums : ∀ b ∈ buckets, b.total = (b.variants.map Prod.snd).sum
  counts : ∀ b ∈ buckets, b.total = events.countP (·.inSlot bucketDur b.timestamp)
  variants : ∀ b ∈ buckets, ∀ key, (b.variants.lookup key).getD 0 =
    events.countP (fun e => e.inSlot bucketDur b.timestamp && e.variantKey == key)
  totals : (buckets.map (·.total)).sum =
    events.countP (fun e => decide (windowStart windowDur bucketDur now ≤ e.occurredAt))

/-! ## The series -/

theorem dateTrunc_eq (d t : Time) : dateTrunc d t = t / d * d := by
  have hsplit := Nat.div_add_mod t d
  rw [Nat.mul_comm] at hsplit
  exact Nat.sub_eq_of_eq_add hsplit.symm

theorem dateTrunc_mul (d n : Nat) (hd : 0 < d) : dateTrunc d (n * d) = n * d := by
  rw [dateTrunc_eq, Nat.mul_div_cancel n hd]

/-- A time is cut down to the bucket it falls into. -/
theorem dateTrunc_beq (d n : Nat) (hd : 0 < d) (e : EvaluationEvent) :
    (dateTrunc d e.occurredAt == n * d) = e.inSlot d (n * d) := by
  rw [dateTrunc_eq, EvaluationEvent.inSlot, Bool.eq_iff_iff, beq_iff_eq, decide_eq_true_iff,
    Nat.mul_left_inj hd.ne', Nat.div_eq_iff hd,
    Nat.lt_iff_le_pred (Nat.add_pos_right (n * d) hd)]

/-- The series of a window of `k` buckets. -/
theorem generateSeries_window (d c m k : Nat) (hd : 0 < d) (hc : c + 1 = m + k) :
    generateSeries d (m * d) (c * d) = (List.range k).map (fun i => (m + i) * d) := by
  have hlen : (c * d + d - m * d) / d = k := by
    rw [← Nat.succ_mul, ← Nat.sub_mul, Nat.mul_div_cancel _ hd]
    omega
  rw [generateSeries, hlen]
  exact List.map_congr_left (fun i _ => (Nat.add_mul m i d).symm)

theorem validWindows_days (window : String) (windowDur : Time)
    (h : validWindows window = some windowDur) : ∃ n, 0 < n ∧ windowDur = n * day := by
  unfold validWindows at h
  split_ifs at h <;> rw [Option.some.injEq] at h <;> subst h
  · exact ⟨1, by decide, (Nat.one_mul day).symm⟩
  all_goals exact ⟨_, by decide, rfl⟩

theorem bucketInterval_dvd (bucketSize : String) (d : Time)
    (h : bucketInterval bucketSize = some d) : 0 < d ∧ d ∣ day := by
  unfold bucketInterval at h
  split_ifs at h <;> rw [Option.some.injEq] at h <;> subst h
  · decide
  · decide

/-- A window is a number of whole days, and a day a number of whole buckets. -/
theorem bucketParams_some (window bucketSize : String) (windowDur d : Time)
    (h : EvaluationStatsService.bucketParams window bucketSize = some (windowDur, d)) :
    bucketInterval bucketSize = some d ∧ 0 < d ∧ ∃ k, 0 < k ∧ windowDur = k * d := by
  unfold EvaluationStatsService.bucketParams at h
  rcases Option.bind_eq_some_iff.mp h with ⟨w, hw, h⟩
  rcases Option.bind_eq_some_iff.mp h with ⟨b, hb, h⟩
  by_cases hhour : bucketSize = "hour" ∧ windowAllowsHour window = false
  · rw [if_pos hhour] at h
    cases h
  · rw [if_neg hhour] at h
    cases h
    rcases validWindows_days window windowDur hw with ⟨n, hn, rfl⟩
    rcases bucketInterval_dvd bucketSize d hb with ⟨hd, m, hm⟩
    have hmpos : 0 < m := by
      rcases Nat.eq_zero_or_pos m with rfl | hm'
      · exact absurd hm (by simp [day])
      · exact hm'
    refine ⟨hb, hd, n * m, Nat.mul_pos hn hmpos, ?_⟩
    rw [hm, Nat.mul_assoc, Nat.mul_comm m d]

/-! ## The rows of a bucket -/

section Bucket

variable (order : Sorter) (collation : Collation) (events : List EvaluationEvent)

/-- The variants there is a row for. -/
def rowKeys : List String :=
  order.sort collation.less (events.map (·.variantKey)).eraseDups

theorem mem_rowKeys (key : String) :
    key ∈ rowKeys order collation events ↔ key ∈ events.map (·.variantKey) := by
  rw [rowKeys, order.mem_sort, List.mem_eraseDups]

theorem rowKeys_nodup : (rowKeys order collation events).Nodup :=
  (order.perm _ _).nodup_iff.mpr (nodup_eraseDups _)

theorem count_variantKey (key : String) :
    (events.map (·.variantKey)).count key = events.countP (·.variantKey == key) := by
  rw [List.count, List.countP_map]
  rfl

theorem countVariants_eq : countVariants order collation events =
    (rowKeys order collation events).map
      (fun key => (key, (events.map (·.variantKey)).count key)) := by
  simp only [countVariants, rowKeys, count_variantKey, List.countP_eq_length_filter]

/-- The rows that are kept are those of a key that is not empty. -/
theorem countVariants_kept :
    (countVariants order collation events).filter (fun row => decide (row.1 ≠ "" ∧ row.2 > 0)) =
      ((rowKeys order collation events).filter (· != "")).map
        (fun key => (key, (events.map (·.variantKey)).count key)) := by
  rw [countVariants_eq, List.filter_map]
  refine congrArg _ (List.filter_congr (fun key hkey => ?_))
  have hpos := List.count_pos_iff.mpr ((mem_rowKeys order collation events key).mp hkey)
  rw [Bool.eq_iff_iff]
  simp [hpos]

theorem foldl_add (rows : List (String × Nat)) (b : EvaluationBucket) :
    rows.foldl EvaluationBucket.add b =
      { b with
        variants := b.variants ++ rows.filter (fun row => decide (row.1 ≠ "" ∧ row.2 > 0))
        total := b.total +
          ((rows.filter (fun row => decide (row.1 ≠ "" ∧ row.2 > 0))).map Prod.snd).sum } := by
  induction rows generalizing b with
  | nil => simp
  | cons row rows ih =>
      rw [List.foldl_cons, ih]
      by_cases hrow : row.1 ≠ "" ∧ row.2 > 0
      · simp [EvaluationBucket.add, hrow, Nat.add_assoc]
      · simp [EvaluationBucket.add, hrow]

/-- The bucket the rows of the given evaluations are folded into. -/
def bucketOf (slot : Time) : EvaluationBucket :=
  (countVariants order collation events).foldl EvaluationBucket.add { timestamp := slot }

theorem bucketOf_eq (slot : Time) : bucketOf order collation events slot =
    { timestamp := slot
      total := events.countP (·.variantKey != "")
      variants := ((rowKeys order collation events).filter (· != "")).map
        (fun key => (key, (events.map (·.variantKey)).count key)) } := by
  have hsum := sum_count_keys (· != "") (events.map (·.variantKey)) (rowKeys order collation events)
    (rowKeys_nodup order collation events) (mem_rowKeys order collation events)
  rw [List.countP_map] at hsum
  rw [bucketOf, foldl_add, countVariants_kept, List.map_map]
  simp only [List.nil_append, Nat.zero_add]
  exact congrArg (fun n => EvaluationBucket.mk slot n _) hsum

theorem bucketOf_sum (slot : Time) :
    (bucketOf order collation events slot).total =
      ((bucketOf order collation events slot).variants.map Prod.snd).sum := by
  rw [bucketOf, foldl_add]
  simp

/-- What a bucket says of a variant. -/
theorem bucketOf_lookup (slot : Time) (key : String) :
    ((bucketOf order collation events slot).variants.lookup key).getD 0 =
      if key = "" then 0 else events.countP (·.variantKey == key) := by
  rw [bucketOf_eq]
  by_cases hkey : key ∈ (rowKeys order collation events).filter (· != "")
  · rw [List.lookup_graph _ hkey, Option.getD_some, count_variantKey, if_neg]
    simpa using (List.mem_filter.mp hkey).2
  · have hnone : (((rowKeys order collation events).filter (· != "")).map
        (fun key => (key, (events.map (·.variantKey)).count key))).lookup key = none := by
      rw [List.lookup_eq_none_iff]
      rintro row hrow
      rcases List.mem_map.mp hrow with ⟨k, hk, rfl⟩
      rw [bne_iff_ne]
      rintro rfl
      exact hkey hk
    rw [hnone, Option.getD_none]
    by_cases hempty : key = ""
    · rw [if_pos hempty]
    · rw [if_neg hempty, ← count_variantKey, eq_comm, List.count_eq_zero]
      intro hmem
      exact hkey (List.mem_filter.mpr
        ⟨(mem_rowKeys order collation events key).mpr hmem, by simpa using hempty⟩)

end Bucket

/-! ## The buckets of a window -/

/-- A bucket is known by its number. -/
theorem inSlot_eq (d n : Nat) (hd : 0 < d) (e : EvaluationEvent) :
    e.inSlot d (n * d) = (n == e.occurredAt / d) := by
  rw [← dateTrunc_beq d n hd, dateTrunc_eq, Bool.eq_iff_iff, beq_iff_eq, beq_iff_eq,
    Nat.mul_left_inj hd.ne', eq_comm]

section Window

variable (order : Sorter) (collation : Collation) (d m k : Nat) (hd : 0 < d)

/-- The `k` buckets from the one with the number `m`. -/
def windowBuckets (seen : List EvaluationEvent) : List EvaluationBucket :=
  (List.range k).map (fun i =>
    bucketOf order collation (seen.filter (·.inSlot d ((m + i) * d))) ((m + i) * d))

/-- The evaluations of a flag, as far as they are seen on the pool. -/
def seenOnPool (rls : Bool) (events : List EvaluationEvent) : List EvaluationEvent :=
  if rls then [] else events

include hd in
/-- What the database makes of the evaluations is the buckets of the window. -/
theorem evaluationBuckets_eq (c : Nat) (now : Time) (rls : Bool) (w : World)
    (projectID environmentID flagKey bucketSize : String)
    (hsize : bucketInterval bucketSize = some d) (hc : c + 1 = m + k)
    (hnow : dateTrunc d now = c * d) :
    evaluationBuckets ⟨none, rls⟩ order collation now projectID environmentID flagKey (m * d)
      bucketSize
        (w.evaluations.map Prod.snd) =
      some (windowBuckets order collation d m k
        (seenOnPool rls (w.evaluationsOf projectID environmentID flagKey))) := by
  simp only [evaluationBuckets, hsize, Option.map_some, dateTrunc_mul d m hd, hnow,
    generateSeries_window d c m k hd hc, List.map_map, windowBuckets]
  refine congrArg some (List.map_congr_left (fun i _ => ?_))
  have hpool := filter_pool rls (·.projectID) (w.evaluations.map Prod.snd) (fun e =>
    e.projectID == projectID && e.environmentID == environmentID && e.flagKey == flagKey)
  rw [seenOnPool, World.evaluationsOf, ← hpool, List.filter_filter, bucketOf]
  refine congrArg (fun l => (countVariants order collation l).foldl EvaluationBucket.add _)
    (List.filter_congr (fun e _ => ?_))
  rw [dateTrunc_beq d (m + i) hd e]
  cases hslot : e.inSlot d ((m + i) * d) with
  | false => simp
  | true =>
      -- What falls into a bucket of the window has happened since it began.
      have hsince : m * d ≤ e.occurredAt := by
        have hle := (of_decide_eq_true hslot).1
        exact Nat.le_trans (Nat.mul_le_mul_right d (Nat.le_add_right m i)) hle
      simp [hsince, Bool.and_assoc]

theorem windowBuckets_timestamps (seen : List EvaluationEvent) :
    (windowBuckets order collation d m k seen).map (·.timestamp) =
      (List.range k).map (fun i => (m + i) * d) := by
  rw [windowBuckets, List.map_map]
  exact List.map_congr_left (fun i _ => congrArg EvaluationBucket.timestamp
    (bucketOf_eq order collation _ _))

/-- The buckets of the window follow each other. -/
theorem windowBuckets_consecutive (seen : List EvaluationEvent) :
    ((windowBuckets order collation d m k seen).map (·.timestamp)).IsChain
      (fun a b => b = a + d) := by
  rw [windowBuckets_timestamps, List.isChain_map, List.isChain_range]
  exact fun i _ => Nat.succ_mul (m + i) d

theorem windowBuckets_current (c : Nat) (hk : 0 < k) (hc : c + 1 = m + k)
    (seen : List EvaluationEvent) :
    ((windowBuckets order collation d m k seen).map (·.timestamp)).getLast? = some (c * d) := by
  rcases Nat.exists_eq_succ_of_ne_zero hk.ne' with ⟨j, rfl⟩
  rw [windowBuckets_timestamps, List.range_succ, List.map_append, List.map_singleton,
    List.getLast?_concat]
  congr 2
  omega

include hd in
/-- Together, the buckets count what is seen of the window and has a variant. -/
theorem windowBuckets_total (seen : List EvaluationEvent) :
    ((windowBuckets order collation d m k seen).map (·.total)).sum =
      seen.countP (fun e => e.variantKey != "" &&
        decide (m * d ≤ e.occurredAt ∧ e.occurredAt < (m + k) * d)) := by
  have hclasses := sum_count_classes (fun e : EvaluationEvent => e.occurredAt / d - m)
    (seen.filter (fun e => e.variantKey != "" && decide (m * d ≤ e.occurredAt))) k
  rw [List.countP_filter] at hclasses
  have hwindow : (fun e : EvaluationEvent => e.variantKey != "" &&
      decide (m * d ≤ e.occurredAt ∧ e.occurredAt < (m + k) * d)) =
      (fun e => decide (e.occurredAt / d - m < k) &&
        (e.variantKey != "" && decide (m * d ≤ e.occurredAt))) := by
    funext e
    rw [Bool.eq_iff_iff]
    simp only [Bool.and_eq_true, decide_eq_true_iff, ← Nat.le_div_iff_mul_le hd,
      ← Nat.div_lt_iff_lt_mul hd]
    constructor
    · exact fun ⟨hkey, hle, hlt⟩ => ⟨by omega, hkey, hle⟩
    · exact fun ⟨hlt, hkey, hle⟩ => ⟨hkey, hle, by omega⟩
  rw [hwindow, ← hclasses, windowBuckets, List.map_map]
  refine congrArg List.sum (List.map_congr_left (fun i _ => ?_))
  simp only [Function.comp_apply, bucketOf_eq, List.countP_filter]
  refine List.countP_congr (fun e _ => ?_)
  rw [inSlot_eq d (m + i) hd]
  simp only [Bool.and_eq_true, beq_iff_eq, decide_eq_true_iff, ← Nat.le_div_iff_mul_le hd]
  constructor
  · exact fun ⟨hkey, hslot⟩ => ⟨by omega, hkey, by omega⟩
  · exact fun ⟨hclass, hkey, hle⟩ => ⟨hkey, by omega⟩

/-- What the buckets count: an evaluation of the window counts if it is seen, has
    a variant with a key, and lies no later than the current bucket. -/
def Countable (rls : Bool) (windowDur bucketDur now : Time) (e : EvaluationEvent) : Prop :=
  windowStart windowDur bucketDur now ≤ e.occurredAt →
    rls = false ∧ e.variantKey ≠ "" ∧ e.occurredAt < dateTrunc bucketDur now + bucketDur

variable (c : Nat) (now : Time) (rls : Bool) (events : List EvaluationEvent)

/-- In a bucket of the window, all evaluations are seen if they are countable. -/
theorem seenOnPool_inSlot (i : Nat)
    (hcount : ∀ e ∈ events, m * d ≤ e.occurredAt → rls = false ∧ e.variantKey ≠ "") :
    (seenOnPool rls events).filter (·.inSlot d ((m + i) * d)) =
      events.filter (·.inSlot d ((m + i) * d)) ∧
    ∀ e ∈ events, e.inSlot d ((m + i) * d) = true → e.variantKey ≠ "" := by
  have hslot : ∀ e ∈ events, e.inSlot d ((m + i) * d) = true →
      rls = false ∧ e.variantKey ≠ "" := by
    intro e he hin
    refine hcount e he (Nat.le_trans ?_ (of_decide_eq_true hin).1)
    exact Nat.mul_le_mul_right d (Nat.le_add_right m i)
  refine ⟨?_, fun e he hin => (hslot e he hin).2⟩
  cases rls with
  | false => rfl
  | true =>
      rw [seenOnPool, if_pos rfl, List.filter_nil, eq_comm, List.filter_eq_nil_iff]
      exact fun e he hin => Bool.noConfusion (hslot e he hin).1

include hd in
/-- The totals add up to the evaluations since the window began exactly if each of
    them is countable. -/
theorem windowBuckets_totals_iff (hstart : windowStart (k * d) d now = m * d)
    (hend : dateTrunc d now + d = (m + k) * d) :
    ((windowBuckets order collation d m k (seenOnPool rls events)).map (·.total)).sum =
        events.countP (fun e => decide (windowStart (k * d) d now ≤ e.occurredAt)) ↔
      ∀ e ∈ events, Countable rls (k * d) d now e := by
  rw [windowBuckets_total order collation d m k hd, hstart]
  constructor
  · intro htotals e he hsince
    rw [hstart] at hsince
    cases rls with
    | true =>
        -- Nothing is seen, so there is nothing that could count.
        have hnone := htotals.symm.trans List.countP_nil
        exact absurd (decide_eq_true hsince) (List.countP_eq_zero.mp hnone e he)
    | false =>
        have hall := forall_of_countP_eq _ _ events (fun e _ h => ?_) htotals e he
          (decide_eq_true hsince)
        · rw [Bool.and_eq_true, bne_iff_ne, decide_eq_true_iff] at hall
          exact ⟨rfl, hall.1, hend ▸ hall.2.2⟩
        · rw [Bool.and_eq_true, decide_eq_true_iff] at h
          exact decide_eq_true h.2.1
  · intro hcount
    cases rls with
    | true =>
        rw [seenOnPool, if_pos rfl, List.countP_nil, eq_comm, List.countP_eq_zero]
        intro e he hsince
        exact Bool.noConfusion (hcount e he (hstart ▸ of_decide_eq_true hsince)).1
    | false =>
        refine List.countP_congr (fun e he => ?_)
        rw [Bool.and_eq_true, bne_iff_ne, decide_eq_true_iff, decide_eq_true_iff]
        refine ⟨fun h => h.2.1, fun hsince => ?_⟩
        have h := hcount e he (hstart ▸ hsince)
        exact ⟨h.2.1, hsince, hend ▸ h.2.2⟩

/-- Whoever is countable is counted in the bucket of its time and variant. -/
theorem windowBuckets_counts
    (hcount : ∀ e ∈ events, m * d ≤ e.occurredAt → rls = false ∧ e.variantKey ≠ "")
    (b : EvaluationBucket) (hb : b ∈ windowBuckets order collation d m k (seenOnPool rls events)) :
    b.total = (b.variants.map Prod.snd).sum ∧
      b.total = events.countP (·.inSlot d b.timestamp) ∧
      ∀ key, (b.variants.lookup key).getD 0 =
        events.countP (fun e => e.inSlot d b.timestamp && e.variantKey == key) := by
  rcases List.mem_map.mp hb with ⟨i, _, rfl⟩
  have hseen := seenOnPool_inSlot d m rls events i hcount
  rw [hseen.1]
  refine ⟨bucketOf_sum order collation _ _, ?_, fun key => ?_⟩
  · rw [bucketOf_eq, List.countP_filter]
    refine List.countP_congr (fun e he => ?_)
    have hkey := hseen.2 e he
    simpa using hkey
  · rw [bucketOf_lookup, bucketOf_eq, List.countP_filter]
    by_cases hkey : key = ""
    · rw [if_pos hkey, eq_comm, List.countP_eq_zero]
      intro e he h
      rw [Bool.and_eq_true, beq_iff_eq] at h
      exact hseen.2 e he h.1 (h.2.trans hkey)
    · rw [if_neg hkey]
      exact List.countP_congr (fun e _ => by rw [Bool.and_comm])

include hd in
theorem windowBuckets_accounts_iff (hk : 0 < k) (hc : c + 1 = m + k)
    (hnow : dateTrunc d now = c * d) :
    AccountsFor events (k * d) d now (windowBuckets order collation d m k (seenOnPool rls events)) ↔
      ∀ e ∈ events, Countable rls (k * d) d now e := by
  have hstart : windowStart (k * d) d now = m * d := by
    rw [windowStart, hnow, ← Nat.succ_mul, ← Nat.sub_mul]
    congr 1
    omega
  have hend : dateTrunc d now + d = (m + k) * d := by
    rw [hnow, ← Nat.succ_mul, ← hc]
  have htotals := windowBuckets_totals_iff order collation d m k hd now rls events hstart hend
  refine ⟨fun h => htotals.mp h.totals, fun hcount => ?_⟩
  have hcounts := windowBuckets_counts order collation d m k rls events (fun e he hsince =>
    have h := hcount e he (hstart ▸ hsince)
    ⟨h.1, h.2.1⟩)
  refine ⟨?_, windowBuckets_consecutive order collation d m k _, ?_, fun b hb => (hcounts b hb).1,
    fun b hb => (hcounts b hb).2.1, fun b hb => (hcounts b hb).2.2, htotals.mpr hcount⟩
  · rw [windowBuckets, List.length_map, List.length_range, Nat.mul_div_cancel k hd]
  · rw [windowBuckets_current order collation d m k c hk hc, hnow]

end Window

/-! ## The service -/

/-- The buckets of the service account for every evaluation of the flag if and
    only if all are countable. -/
theorem getBuckets_accounts_iff (h : Host) (hfails : ∀ k, h.fails k = false) (ctx : Ctx)
    (ac : AuthContext) (hrole : requireRole ctx.auth .viewer = .ok ac) (w : World)
    (projectID environmentID envSlug flagKey window bucketSize : String) (flag : Flag)
    (hflag : flagByKey ⟨ctx.tenant, h.rls⟩ projectID flagKey w.store = .ok (flag, w.store))
    (windowDur bucketDur : Time)
    (hparams : EvaluationStatsService.bucketParams window bucketSize =
      some (windowDur, bucketDur))
    (hclock : dateTrunc bucketDur (h.now (w.calls + 2)) =
      dateTrunc bucketDur (h.now (w.calls + 1)))
    (horigin : windowDur ≤ dateTrunc bucketDur (h.now (w.calls + 1)) + bucketDur) :
    ∃ view w', Proc.run (exec h) (EvaluationStatsService.getBuckets ctx projectID environmentID
        envSlug flagKey window bucketSize) w = (.ok (some view), w') ∧
      (AccountsFor (w.evaluationsOf projectID environmentID flagKey) windowDur bucketDur
          (h.now (w.calls + 1)) view.buckets ↔
        ∀ e ∈ w.evaluationsOf projectID environmentID flagKey,
          Countable h.rls windowDur bucketDur (h.now (w.calls + 1)) e) := by
  rcases bucketParams_some window bucketSize windowDur bucketDur hparams with
    ⟨hsize, hd, k, hk, rfl⟩
  -- Times are counted in buckets from here on: the window starts `m` buckets
  -- after the origin and ends with the bucket of the clock.
  have hnow := dateTrunc_eq bucketDur (h.now (w.calls + 1))
  generalize hcdef : h.now (w.calls + 1) / bucketDur = c at hnow
  have hkc : k ≤ c + 1 := by
    rw [hnow, ← Nat.succ_mul] at horigin
    exact Nat.le_of_mul_le_mul_right horigin hd
  rcases Nat.exists_eq_add_of_le' hkc with ⟨m, hm⟩
  have hsince : dateTrunc bucketDur (h.now (w.calls + 1)) + bucketDur - k * bucketDur =
      m * bucketDur := by
    rw [hnow, ← Nat.succ_mul, ← Nat.sub_mul]
    congr 1
    omega
  -- The query reads the clock again, and `hclock` keeps it in the same bucket.
  have hraw := evaluationBuckets_eq (h.order (w.calls + 2)) h.collation bucketDur m k hd c
    (h.now (w.calls + 2)) h.rls w projectID environmentID flagKey bucketSize hsize hm
    (hclock.trans hnow)
  refine ⟨⟨flagKey, envSlug, window, bucketSize, _⟩, w.tick.tick.tick, ?_,
    windowBuckets_accounts_iff (h.order (w.calls + 2)) h.collation bucketDur m k hd c
      (h.now (w.calls + 1)) h.rls (w.evaluationsOf projectID environmentID flagKey) hk hm hnow⟩
  unfold EvaluationStatsService.getBuckets
  rw [run_require ctx .viewer ac hrole]
  simp only [hparams]
  rw [Proc.run_bind_ok _ _ _ w w.tick flag
    (run_call_query h hfails ctx (.flagByKey projectID flagKey) w _ flag rfl hflag),
    run_call_ok ctx .now _ w.tick w.tick (h.now w.tick.calls) (hfails _) rfl,
    run_call_ok ctx _ _ w.tick.tick w.tick.tick _ (hfails _) (by
      change w.tick.tick.draw (evaluationBuckets ⟨none, h.rls⟩ (h.order (w.calls + 2)) h.collation
        (h.now (w.calls + 2)) projectID environmentID flagKey
        (dateTrunc bucketDur (h.now (w.calls + 1)) + bucketDur - k * bucketDur) bucketSize
        (w.evaluations.map Prod.snd)) = _
      rw [hsince, hraw]
      rfl)]
  rfl

/-! ## A variant without a key -/

/-- A host at the beginning of the year 2024. -/
def newYearHost : Host := { Host.steady with now := fun _ => in2024 0 }

/-- An evaluation at the beginning of the year 2024. -/
def newYearEvaluation (variantKey : String) : String × EvaluationEvent :=
  ("f1", ⟨"e", "dark", "p1", "e1", "u2", "", "", variantKey, .default, in2024 0⟩)

/-- A flag whose only variant has the empty key. -/
def blankFlag : Flag := ⟨"f1", "p1", "dark", "Dark mode", .string, [⟨"", "None"⟩], "", 0⟩

/-- A project with this flag and one evaluation. -/
def newYearWorld (variantKey : String) : World where
  store := { flags := [blankFlag] }
  evaluations := [newYearEvaluation variantKey]

theorem getBuckets_accounts_newYear :
    ∃ view w', Proc.run (exec newYearHost) (EvaluationStatsService.getBuckets reader "p1" "e1"
        "prod" "dark" "7d" "day") (newYearWorld "on") = (.ok (some view), w') ∧
      AccountsFor ((newYearWorld "on").evaluationsOf "p1" "e1" "dark") (7 * day) day (in2024 0)
        view.buckets := by
  rcases getBuckets_accounts_iff newYearHost (fun _ => rfl) reader ⟨"u1", .viewer⟩ rfl
    (newYearWorld "on") "p1" "e1" "prod" "dark" "7d" "day" blankFlag rfl (7 * day) day rfl rfl
    (by decide) with ⟨view, w', hrun, hiff⟩
  refine ⟨view, w', hrun, hiff.mpr (fun e he _ => ?_)⟩
  cases List.mem_singleton.mp (show e ∈ [(newYearEvaluation "on").2] from he)
  exact ⟨rfl, by decide, by decide⟩

/-- The flag is valid and is evaluated to its only variant, and the bucket of the
    evaluation is empty. -/
theorem getBuckets_blank_lost :
    blankFlag.validate = .ok () ∧
      (evaluate Sorter.insertion blankFlag none [] ⟨"u2", fun _ => none⟩ []).map (·.variantKey) =
        .ok (newYearEvaluation "").2.variantKey ∧
      (Proc.run (exec newYearHost) (EvaluationStatsService.getBuckets reader "p1" "e1" "prod"
        "dark" "1d" "day") (newYearWorld "")).1 =
        .ok (some ⟨"dark", "prod", "1d", "day", [⟨in2024 0, 0, []⟩]⟩) ∧
      (newYearWorld "").evaluationsOf "p1" "e1" "dark" = [(newYearEvaluation "").2] ∧
      ¬ AccountsFor ((newYearWorld "").evaluationsOf "p1" "e1" "dark") day day (in2024 0)
        [⟨in2024 0, 0, []⟩] := by
  refine ⟨by decide +kernel, by decide +kernel, by decide +kernel, by decide +kernel,
    fun h => ?_⟩
  exact absurd h.totals (by decide +kernel)

end Cuttlegate
