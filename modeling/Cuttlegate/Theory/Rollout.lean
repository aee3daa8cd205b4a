import Cuttlegate.Domain.Evaluator
import Cuttlegate.Lib.Shares
import Mathlib.Algebra.Ring.Int.Defs

/-!
# Percentage Rollouts

A rollout gives every user of a flag a bucket and every bucket a variant. The
check of a rule is what makes the weights of a rollout add up, and the loop
that resolves a bucket relies on it.

The check adds machine integers and looks at the total alone, so it tells a
rollout whose weights add up to one hundred from one whose weights pass it by a
multiple of `2 ^ 64` only if there is none of the latter. `rolloutTotal_eq_iff`
says what a total of one hundred means, and `rollout_validate_exact_iff` that such
weights are all that stands between the check and the range it is meant to
enforce.

For weights that do add up, the loop is the walk of `Shares.pick` over the
weights: nothing wraps on the way, because no running total passes one hundred.
The intervals, their sizes and what stays when a weight grows are those of the
shares.

## Main definitions

* `weightSum`: The weights added up as unbounded numbers.
* `FullRollout`: Weights of at least one that add up to one hundred.
* `rolloutIndex`: The position of the entry a bucket is given to.

## Theorems

* `rolloutTotal_toInt`: The running total of the check is the sum, wrapped.
* `rollout_validate_exact_iff`: When a valid rollout has weights in range.
* `rolloutLoop_eq`: The loop returns the variant at the position.
* `rolloutIndex_eq_pick`: The position is the one the shares give.
* `resolveRollout_partition`: Buckets are split as the weights say.
-/

namespace Cuttlegate

/-- The weights of a rollout added up, without a bound. -/
def weightSum (entries : List RolloutEntry) : Int :=
  (entries.map (fun e => e.weight.toInt)).sum

@[simp]
theorem weightSum_nil : weightSum [] = 0 := rfl

@[simp]
theorem weightSum_cons (e : RolloutEntry) (es : List RolloutEntry) :
    weightSum (e :: es) = e.weight.toInt + weightSum es := by
  simp [weightSum]

/-- A rollout that hands out every bucket: each weight is at least one and
    together they are one hundred. -/
structure FullRollout (entries : List RolloutEntry) : Prop where
  positive : ∀ e ∈ entries, 1 ≤ e.weight.toInt
  total : weightSum entries = 100

/-! ## What the check of a rule promises -/

/-- The running total of the check, read as a number, is the sum of the
    weights brought back into 64 bits. -/
theorem rolloutTotal_toInt (total : Int64) (entries : List RolloutEntry) :
    (rolloutTotal total entries).toInt = (total.toInt + weightSum entries).bmod (2 ^ 64) := by
  induction entries generalizing total with
  | nil => simp [rolloutTotal]
  | cons e es ih =>
      have hstep : rolloutTotal total (e :: es) = rolloutTotal (total + e.weight) es := rfl
      rw [hstep, ih, Int64.toInt_add, weightSum_cons, Int.bmod_add_bmod, Int.add_assoc]

/-- The check sees one hundred when the sum is one hundred more than some
    multiple of `2 ^ 64`. -/
theorem rolloutTotal_eq_iff (entries : List RolloutEntry) :
    rolloutTotal 0 entries = 100 ↔ ∃ k : Int, weightSum entries = 100 + k * 2 ^ 64 := by
  have hwrap : rolloutTotal 0 entries = 100 ↔ (weightSum entries).bmod (2 ^ 64) = 100 := by
    rw [← Int64.toInt_inj, rolloutTotal_toInt]
    simp
  rw [hwrap]
  constructor
  · intro h
    refine ⟨(weightSum entries - 100) / 2 ^ 64, ?_⟩
    rw [Int.bmod_def] at h
    split at h <;> omega
  · rintro ⟨k, hk⟩
    rw [Int.bmod_def]
    split <;> omega

/-- Weights of at least one add up to at least as much as any of them. -/
theorem weight_le_weightSum (entries : List RolloutEntry)
    (hpos : ∀ e ∈ entries, 1 ≤ e.weight.toInt) :
    0 ≤ weightSum entries ∧ ∀ e ∈ entries, e.weight.toInt ≤ weightSum entries := by
  induction entries with
  | nil => simp
  | cons d ds ih =>
      rw [List.forall_mem_cons] at hpos
      rcases ih hpos.2 with ⟨hsum, hle⟩
      rw [weightSum_cons]
      have hd := hpos.1
      refine ⟨by omega, fun e he => ?_⟩
      rcases List.mem_cons.mp he with heq | hmem
      · rw [heq]
        omega
      · have h := hle e hmem
        omega

/-- What the check of a rule asks apart from the total of its rollout. -/
structure Rule.SoundBesidesTotal (r : Rule) : Prop where
  nameLength : r.name.utf8ByteSize ≤ 255
  conditions : r.conditions ≠ []
  wellFormed : ∀ c ∈ r.conditions, c.WellFormed
  keys : ∀ e ∈ r.rollout, e.variantKey ≠ ""
  weights : ∀ e ∈ r.rollout, 1 ≤ e.weight.toInt

/-- The weights pass one hundred by a positive multiple of `2 ^ 64`. -/
def Wraps (entries : List RolloutEntry) : Prop :=
  ∃ k : Int, 1 ≤ k ∧ weightSum entries = 100 + k * 2 ^ 64

theorem weight_ge_iff (e : RolloutEntry) : ¬ e.weight < 1 ↔ 1 ≤ e.weight.toInt := by
  rw [Int64.lt_iff_toInt_lt]
  simp

/-- A rule with a rollout passes its check when it is sound and its weights
    add up to one hundred or wrap around to it. -/
theorem Rule.validate_rollout_iff (r : Rule) (hroll : r.rollout ≠ []) :
    r.validate = .ok () ↔
      r.SoundBesidesTotal ∧ (weightSum r.rollout = 100 ∨ Wraps r.rollout) := by
  rw [Rule.validate_ok_iff]
  constructor
  · intro h
    have hweights : ∀ e ∈ r.rollout, 1 ≤ e.weight.toInt :=
      fun e he => (weight_ge_iff e).mp (h.entries e he).2
    refine ⟨⟨h.nameLength, h.conditions, h.wellFormed, fun e he => (h.entries e he).1,
      hweights⟩, ?_⟩
    rcases (rolloutTotal_eq_iff r.rollout).mp (h.total hroll) with ⟨k, hk⟩
    -- The sum is not negative, so neither is the multiple.
    have hnonneg := (weight_le_weightSum r.rollout hweights).1
    by_cases hzero : k = 0
    · left
      rw [hk, hzero]
      omega
    · right
      exact ⟨k, by omega, hk⟩
  · rintro ⟨hsound, htotal⟩
    refine ⟨hsound.nameLength, hsound.conditions, fun e he => ⟨hsound.keys e he,
      (weight_ge_iff e).mpr (hsound.weights e he)⟩, fun _ => ?_, fun h => absurd h hroll,
      hsound.wellFormed⟩
    rw [rolloutTotal_eq_iff]
    rcases htotal with heq | ⟨k, _, hk⟩
    · exact ⟨0, by omega⟩
    · exact ⟨k, hk⟩

/-- A rollout that passes the check has weights from 1 to 100 that add up to
    one hundred, unless they wrap around. -/
theorem rollout_validate_exact_iff (r : Rule) :
    (r.rollout ≠ [] → r.validate = .ok () →
      (∀ e ∈ r.rollout, 1 ≤ e.weight.toInt ∧ e.weight.toInt ≤ 100) ∧
        weightSum r.rollout = 100) ↔
      ¬ (r.SoundBesidesTotal ∧ Wraps r.rollout) := by
  constructor
  · rintro hexact ⟨hsound, hwraps⟩
    have hroll : r.rollout ≠ [] := by
      intro hnil
      rcases hwraps with ⟨k, hk, hsum⟩
      rw [hnil, weightSum_nil] at hsum
      omega
    have hvalid := (r.validate_rollout_iff hroll).mpr ⟨hsound, .inr hwraps⟩
    rcases hwraps with ⟨k, hk, hsum⟩
    have hsum' := (hexact hroll hvalid).2
    omega
  · intro hnot hroll hvalid
    rcases (r.validate_rollout_iff hroll).mp hvalid with ⟨hsound, htotal | hwraps⟩
    · refine ⟨fun e he => ⟨hsound.weights e he, ?_⟩, htotal⟩
      have hle := (weight_le_weightSum r.rollout hsound.weights).2 e he
      omega
    · exact absurd ⟨hsound, hwraps⟩ hnot

/-- A rule whose three weights are far above one hundred. -/
def wrappingRule : Rule where
  id := "r3"
  flagID := "f1"
  environmentID := "e1"
  name := "ramp"
  priority := 3
  conditions := [⟨"plan", .eq, ["pro"]⟩]
  variantKey := ""
  rollout := [⟨"a", 9223372036854775807⟩, ⟨"b", 9223372036854775807⟩, ⟨"c", 102⟩]
  enabled := true
  createdAt := 0

/-- Its sum is one hundred above `2 ^ 64`, and it passes the check. -/
theorem rollout_validate_wraps :
    ¬ ∀ r : Rule, r.rollout ≠ [] → r.validate = .ok () →
      (∀ e ∈ r.rollout, 1 ≤ e.weight.toInt ∧ e.weight.toInt ≤ 100) ∧
        weightSum r.rollout = 100 := by
  intro hall
  have hsum := (hall wrappingRule (by decide) (by decide +kernel)).2
  exact absurd hsum (by decide)

/-! ## How buckets are split -/

/-- The loop of `resolveRollout`, returning where it stopped instead of the
    variant it found there. -/
def rolloutIndex (bucket cumulative : Int64) : List RolloutEntry → Option Nat
  | [] => none
  | e :: es =>
      if bucket < cumulative + e.weight then some 0
      else (rolloutIndex bucket (cumulative + e.weight) es).map (· + 1)

/-- The loop returns the variant of the entry it stops at. -/
theorem rolloutLoop_eq (b cumulative : Int64) (entries : List RolloutEntry) :
    rolloutLoop b cumulative entries =
      (rolloutIndex b cumulative entries).bind (fun i => entries[i]?.map (·.variantKey)) := by
  induction entries generalizing cumulative with
  | nil => rfl
  | cons e es ih =>
      rw [rolloutLoop, rolloutIndex]
      by_cases hlt : b < cumulative + e.weight
      · simp [if_pos hlt]
      · rw [if_neg hlt, if_neg hlt, ih]
        cases rolloutIndex b (cumulative + e.weight) es with
        | none => rfl
        | some i => simp

/-- The weights of a rollout, as shares of the buckets. -/
def shares (entries : List RolloutEntry) : List Nat :=
  entries.map (fun e => e.weight.toInt.toNat)

@[simp]
theorem shares_length (entries : List RolloutEntry) :
    (shares entries).length = entries.length := by
  simp [shares]

theorem shares_sum (entries : List RolloutEntry)
    (hpos : ∀ e ∈ entries, 1 ≤ e.weight.toInt) :
    ((shares entries).sum : Int) = weightSum entries := by
  induction entries with
  | nil => rfl
  | cons e es ih =>
      rw [List.forall_mem_cons] at hpos
      have hes := ih hpos.2
      have he := hpos.1
      simp only [shares, List.map_cons, List.sum_cons, weightSum_cons] at hes ⊢
      omega

/-- The shares of a full rollout are one hundred together. -/
theorem FullRollout.shares_sum {entries : List RolloutEntry} (h : FullRollout entries) :
    (shares entries).sum = 100 := by
  have hsum := Cuttlegate.shares_sum entries h.positive
  rw [h.total] at hsum
  omega

theorem weight_eq_ofNat (e : RolloutEntry) (hpos : 1 ≤ e.weight.toInt) :
    e.weight = Int64.ofNat e.weight.toInt.toNat := by
  have hcast : ((e.weight.toInt.toNat : Nat) : Int) = e.weight.toInt :=
    Int.toNat_of_nonneg (by omega)
  rw [← Int64.ofInt_eq_ofNat, hcast, Int64.ofInt_toInt]

/-- As long as no running total leaves the range of the buckets, the loop
    stops where the shares say. -/
theorem rolloutIndex_eq_pick (entries : List RolloutEntry) (passed b : Nat)
    (hpos : ∀ e ∈ entries, 1 ≤ e.weight.toInt)
    (hfit : passed + (shares entries).sum ≤ 100) (hb : b < 100) (hpassed : passed ≤ b) :
    rolloutIndex (Int64.ofNat b) (Int64.ofNat passed) entries =
      Shares.pick (shares entries) (b - passed) := by
  induction entries generalizing passed with
  | nil => rfl
  | cons e es ih =>
      rw [List.forall_mem_cons] at hpos
      have hshares : shares (e :: es) = e.weight.toInt.toNat :: shares es := rfl
      rw [hshares, List.sum_cons] at hfit
      -- The running total grows by the share without wrapping.
      have htotal : Int64.ofNat passed + e.weight =
          Int64.ofNat (passed + e.weight.toInt.toNat) := by
        rw [Int64.ofNat_add, ← weight_eq_ofNat e hpos.1]
      rw [rolloutIndex, hshares, Shares.pick, htotal]
      by_cases hlt : b < passed + e.weight.toInt.toNat
      · rw [if_pos ((Int64.ofNat_lt_iff_lt (by omega) (by omega)).mpr hlt), if_pos (by omega)]
      · have hnot : ¬ Int64.ofNat b < Int64.ofNat (passed + e.weight.toInt.toNat) := by
          rw [Int64.ofNat_lt_iff_lt (by omega) (by omega)]
          exact hlt
        rw [if_neg hnot, if_neg (by omega), ih _ hpos.2 (by omega) (by omega), Nat.sub_sub]

/-- In a full rollout the loop is the walk over the shares. -/
theorem FullRollout.index_eq {entries : List RolloutEntry} (h : FullRollout entries) (b : Nat)
    (hb : b < 100) :
    rolloutIndex (Int64.ofNat b) 0 entries = Shares.pick (shares entries) b := by
  have hsum := h.shares_sum
  exact rolloutIndex_eq_pick entries 0 b h.positive (by omega) hb (Nat.zero_le b)

/-- A bucket gets the variant of the entry the loop stops at. -/
theorem resolveRollout_of_index (entries : List RolloutEntry) (b : Int64) (i : Nat)
    (hi : i < entries.length) (hindex : rolloutIndex b 0 entries = some i) :
    resolveRollout entries b = .ok entries[i].variantKey := by
  have hloop : rolloutLoop b 0 entries = some entries[i].variantKey := by
    rw [rolloutLoop_eq, hindex, Option.bind_some, List.getElem?_eq_getElem hi, Option.map_some]
  rw [resolveRollout, hloop]

/-- Where the buckets of an entry begin: the weights of the earlier entries
    added up. -/
def firstBucket (entries : List RolloutEntry) (i : Nat) : Nat := Shares.before (shares entries) i

/-- The number of the buckets from 0 to 99 that stop at an entry. -/
def bucketCount (entries : List RolloutEntry) (i : Nat) : Nat :=
  ((Finset.range 100).filter
    (fun b => rolloutIndex (Int64.ofNat b) 0 entries = some i)).card

theorem FullRollout.index_iff {entries : List RolloutEntry} (h : FullRollout entries)
    (b i : Nat) (hb : b < 100) (hi : i < entries.length) :
    rolloutIndex (Int64.ofNat b) 0 entries = some i ↔
      firstBucket entries i ≤ b ∧
        b < firstBucket entries i + entries[i].weight.toInt.toNat := by
  have hlen : i < (shares entries).length := by simpa using hi
  have hshare : (shares entries)[i] = entries[i].weight.toInt.toNat := by simp [shares]
  rw [h.index_eq b hb, Shares.pick_eq_some_iff, Shares.before_succ _ i hlen, hshare]
  simp [hi, firstBucket]

theorem FullRollout.bucketCount_eq {entries : List RolloutEntry} (h : FullRollout entries)
    (i : Nat) (hi : i < entries.length) :
    bucketCount entries i = entries[i].weight.toInt.toNat := by
  have hlen : i < (shares entries).length := by simpa using hi
  have hpick : (Finset.range 100).filter
      (fun b => rolloutIndex (Int64.ofNat b) 0 entries = some i) =
      (Finset.range (shares entries).sum).filter
        (fun b => Shares.pick (shares entries) b = some i) := by
    ext b
    rw [h.shares_sum]
    simp only [Finset.mem_filter, Finset.mem_range]
    constructor
    · rintro ⟨hb, hindex⟩
      exact ⟨hb, by rw [← h.index_eq b hb, hindex]⟩
    · rintro ⟨hb, hpick⟩
      exact ⟨hb, by rw [h.index_eq b hb, hpick]⟩
  rw [bucketCount, hpick, Shares.card_pick _ i hlen]
  simp [shares]

/-- Every bucket stops at an entry, so the fallback is never reached. -/
theorem FullRollout.exists_index {entries : List RolloutEntry} (h : FullRollout entries)
    (b : Nat) (hb : b < 100) :
    ∃ i, i < entries.length ∧ rolloutIndex (Int64.ofNat b) 0 entries = some i := by
  rcases Shares.exists_pick (shares entries) b (by rw [h.shares_sum]; exact hb) with ⟨i, hi, hpick⟩
  exact ⟨i, by simpa using hi, by rw [h.index_eq b hb, hpick]⟩

/-- When the weight of an entry grows and the entries in front of it stay, a
    bucket of this entry or of an earlier one keeps its entry. -/
theorem FullRollout.index_grow {entries grown : List RolloutEntry} (h : FullRollout entries)
    (h' : FullRollout grown) (i : Nat) (hi : i < entries.length) (hi' : i < grown.length)
    (hagree : entries.take i = grown.take i)
    (hgrow : entries[i].weight.toInt ≤ grown[i].weight.toInt) (b j : Nat) (hb : b < 100)
    (hj : j ≤ i) (hindex : rolloutIndex (Int64.ofNat b) 0 entries = some j) :
    rolloutIndex (Int64.ofNat b) 0 grown = some j := by
  rw [h.index_eq b hb] at hindex
  rw [h'.index_eq b hb]
  refine Shares.pick_grow (shares entries) (shares grown) i (by simpa using hi)
    (by simpa using hi') ?_ ?_ b j hj hindex
  · rw [shares, shares, ← List.map_take, ← List.map_take, hagree]
  · simp only [shares, List.getElem_map]
    omega

/-- The bucket of a user is one of the hundred. -/
theorem bucket_range (flagKey userKey : String) :
    ∃ b : Nat, b < 100 ∧ bucket flagKey userKey = Int64.ofNat b := by
  refine ⟨_, ?_, rfl⟩
  have hmod : ∀ h : UInt32, (h % 100).toNat < 100 := by
    intro h
    rw [UInt32.toNat_mod]
    exact Nat.mod_lt _ (by decide)
  exact hmod _

/-- A full rollout splits the buckets as its weights say: every bucket stops at
    one entry and gets its variant, those of an entry follow those of the
    earlier ones and are as many as its weight; a bucket keeps its entry when
    that entry or a later one grows; and every user has a bucket. -/
theorem resolveRollout_partition :
    (∀ entries, FullRollout entries →
      (∀ b, b < 100 → ∃ (i : Nat) (hi : i < entries.length),
        rolloutIndex (Int64.ofNat b) 0 entries = some i ∧
        resolveRollout entries (Int64.ofNat b) = .ok entries[i].variantKey) ∧
      ∀ (i : Nat) (hi : i < entries.length),
        bucketCount entries i = entries[i].weight.toInt.toNat ∧
        ∀ b, b < 100 → (rolloutIndex (Int64.ofNat b) 0 entries = some i ↔
          firstBucket entries i ≤ b ∧
            b < firstBucket entries i + entries[i].weight.toInt.toNat)) ∧
    (∀ entries grown, FullRollout entries → FullRollout grown →
      ∀ (i : Nat) (hi : i < entries.length) (hi' : i < grown.length),
        entries.take i = grown.take i →
        entries[i].weight.toInt ≤ grown[i].weight.toInt →
        ∀ b, b < 100 → ∀ j, j ≤ i → rolloutIndex (Int64.ofNat b) 0 entries = some j →
          rolloutIndex (Int64.ofNat b) 0 grown = some j ∧
          (entries[i].variantKey = grown[i].variantKey →
            resolveRollout grown (Int64.ofNat b) = resolveRollout entries (Int64.ofNat b))) ∧
    (∀ flagKey userKey, ∃ b : Nat, b < 100 ∧ bucket flagKey userKey = Int64.ofNat b) := by
  refine ⟨fun entries h => ⟨fun b hb => ?_, fun i hi => ⟨h.bucketCount_eq i hi,
    fun b hb => h.index_iff b i hb hi⟩⟩, ?_, bucket_range⟩
  · rcases h.exists_index b hb with ⟨i, hi, hindex⟩
    exact ⟨i, hi, hindex, resolveRollout_of_index entries _ i hi hindex⟩
  · intro entries grown h h' i hi hi' hagree hgrow b hb j hj hindex
    have hindex' := h.index_grow h' i hi hi' hagree hgrow b j hb hj hindex
    refine ⟨hindex', fun hkey => ?_⟩
    rw [resolveRollout_of_index entries _ j (by omega) hindex,
      resolveRollout_of_index grown _ j (by omega) hindex']
    -- The entry is in front of the grown one or is the grown one itself.
    rcases Nat.lt_or_eq_of_le hj with hlt | heq
    · have hsame : entries[j]? = grown[j]? := by
        have hget := congrArg (fun l : List RolloutEntry => l[j]?) hagree
        simpa only [List.getElem?_take, if_pos hlt] using hget
      rw [List.getElem?_eq_getElem (by omega), List.getElem?_eq_getElem (by omega),
        Option.some.injEq] at hsame
      rw [hsame]
    · subst heq
      rw [hkey]

/-- A rollout of thirty and seventy, and the same ramped up to fifty. -/
theorem resolveRollout_partition_ramp :
    bucketCount [⟨"on", 30⟩, ⟨"off", 70⟩] 0 = 30 ∧
    ∀ b, b < 100 → rolloutIndex (Int64.ofNat b) 0 [⟨"on", 30⟩, ⟨"off", 70⟩] = some 0 →
      rolloutIndex (Int64.ofNat b) 0 [⟨"on", 50⟩, ⟨"off", 50⟩] = some 0 := by
  have hfull : FullRollout [⟨"on", 30⟩, ⟨"off", 70⟩] := ⟨by decide, by decide⟩
  have hgrown : FullRollout [⟨"on", 50⟩, ⟨"off", 50⟩] := ⟨by decide, by decide⟩
  refine ⟨((resolveRollout_partition.1 _ hfull).2 0 (by decide)).1, fun b hb hindex => ?_⟩
  exact (resolveRollout_partition.2.1 _ _ hfull hgrown 0 (by decide) (by decide) rfl (by decide)
    b hb 0 (Nat.le_refl 0) hindex).1

end Cuttlegate
