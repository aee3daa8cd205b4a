import Cuttlegate.Adapters.Broker
import Cuttlegate.Domain.Project

/-!
# Panics of the Broker

Which sequences of calls make the broker close a channel twice or send on a
closed one.

A subscription is in the map of subscribers, or it has used up its
`sync.Once`, or the broker was shut down. In the first two cases nothing can go
wrong: what is in the map is open, and a used `sync.Once` does nothing. In the
third the shutdown has closed the channel and the unsubscribe function, when it
is called for the first time, closes it again. This is what the deferred
unsubscribe of an open stream does when the server goes down.

## Main definitions

* `Broker.Valid`: The invariant.
* `LateUnsubscribe`: The one kind of call that panics.

## Theorems

* `Broker.step_valid`: A call keeps the invariant, and panics exactly when it
  is late.
* `broker_panics_iff`: Panics along a sequence of calls.
* `broker_double_close`: A shutdown with an open stream.
-/

namespace Cuttlegate

variable {α : Type}

/-- A subscription in the map is open and has its `sync.Once` left; a
    subscription that has it left and is not in the map was closed by the
    shutdown. -/
structure Broker.Valid (b : Broker α) : Prop where
  known : ∀ h, h ∈ b.subscribers ∨ h ∈ b.spent → h < b.handles
  unspent : ∀ h ∈ b.subscribers, h ∉ b.spent
  live : ∀ h ∈ b.subscribers, (b.chans h).closed = false
  nodup : b.subscribers.Nodup
  shut : b.closed = true → b.subscribers = []
  gone : ∀ h, h < b.handles → h ∉ b.spent → h ∉ b.subscribers →
    b.closed = true ∧ (b.chans h).closed = true

theorem NewBroker_valid (n : Nat) : (NewBroker α n).Valid := by
  refine ⟨fun h hh => ?_, fun h hh => ?_, fun h hh => ?_, List.nodup_nil, fun _ => rfl,
    fun h hh => ?_⟩
  · rcases hh with hh | hh
    · exact absurd hh List.not_mem_nil
    · exact absurd hh List.not_mem_nil
  · exact absurd hh List.not_mem_nil
  · exact absurd hh List.not_mem_nil
  · exact absurd hh (Nat.not_lt_zero h)

/-- The first call of an unsubscribe function after the broker was shut down. -/
def LateUnsubscribe (b : Broker α) : BrokerStep α → Prop
  | .unsubscribe h => b.closed = true ∧ h < b.handles ∧ h ∉ b.spent
  | _ => False

namespace Broker

/-- What is the same up to the buffers is as valid. -/
theorem Valid.sameBut (b b' : Broker α) (hb : b.Valid) (hsame : SameBut b b') : b'.Valid := by
  refine ⟨fun h => ?_, fun h => ?_, fun h => ?_, ?_, ?_, fun h => ?_⟩
  · rw [hsame.subscribers, hsame.spent, hsame.handles]
    exact hb.known h
  · rw [hsame.subscribers, hsame.spent]
    exact hb.unspent h
  · rw [hsame.subscribers, hsame.chans h]
    exact hb.live h
  · rw [hsame.subscribers]
    exact hb.nodup
  · rw [hsame.closed, hsame.subscribers]
    exact hb.shut
  · rw [hsame.handles, hsame.spent, hsame.subscribers, hsame.closed, hsame.chans h]
    exact hb.gone h

theorem publish_valid (order : Sorter) (e : α) (b : Broker α) (hb : b.Valid) :
    (b.publish order e).1 = none ∧ (b.publish order e).2.2.Valid := by
  unfold publish
  by_cases hclosed : b.closed = true
  · rw [if_pos hclosed]
    exact ⟨rfl, hb⟩
  · rw [if_neg hclosed]
    rcases publishLoop_spec e (order.sort (fun _ _ => false) b.subscribers) b (fun h hh =>
      hb.live h ((Sorter.mem_sort order _ _ h).mp hh)) with ⟨hnone, hsame⟩
    exact ⟨hnone, hb.sameBut _ _ hsame⟩

theorem subscribe_valid (b : Broker α) (hb : b.Valid) : b.subscribe.2.Valid := by
  unfold subscribe
  by_cases hclosed : b.closed = true
  · rw [if_pos hclosed]
    exact hb
  rw [if_neg hclosed]
  -- The new subscription has a number of its own.
  have hnew : ∀ h, h ∈ b.subscribers ∨ h ∈ b.spent → h ≠ b.handles :=
    fun h hh => Nat.ne_of_lt (hb.known h hh)
  refine ⟨fun h hh => ?_, fun h hh => ?_, fun h hh => ?_, ?_, fun hshut => absurd hshut hclosed,
    fun h hh hspent hsubs => ?_⟩
  · simp only [List.mem_append, List.mem_singleton] at hh
    rcases hh with (hold | hself) | hold
    · exact Nat.lt_succ_of_lt (hb.known h (.inl hold))
    · rw [hself]
      exact Nat.lt_succ_self _
    · exact Nat.lt_succ_of_lt (hb.known h (.inr hold))
  · rcases List.mem_append.mp hh with hold | hself
    · exact hb.unspent h hold
    · intro hspent
      exact hnew h (.inr hspent) (List.mem_singleton.mp hself)
  · rcases List.mem_append.mp hh with hold | hself
    · simp only [Function.update_of_ne (hnew h (.inl hold))]
      exact hb.live h hold
    · rw [List.mem_singleton.mp hself]
      simp only [Function.update_self]
  · refine List.nodup_append.mpr ⟨hb.nodup, by simp, fun h hh k hk => ?_⟩
    rw [List.mem_singleton.mp hk]
    exact hnew h (.inl hh)
  · rw [List.mem_append, List.mem_singleton, not_or] at hsubs
    have hlt : h < b.handles := Nat.lt_of_le_of_ne (Nat.le_of_lt_succ hh) hsubs.2
    exact absurd (hb.gone h hlt hspent hsubs.1).1 hclosed

theorem shutdown_valid (order : Sorter) (b : Broker α) (hb : b.Valid) :
    (b.shutdown order).1 = none ∧ (b.shutdown order).2.Valid := by
  unfold shutdown
  by_cases hclosed : b.closed = true
  · rw [if_pos hclosed]
    exact ⟨rfl, hb⟩
  rw [if_neg hclosed]
  have hperm := order.perm (fun _ _ => false) b.subscribers
  -- The loop visits each subscriber once, in whatever order the map gives them.
  rcases shutdownLoop_spec (order.sort (fun _ _ => false) b.subscribers) { b with closed := true }
    (hperm.nodup_iff.mpr hb.nodup) (fun h hh => hb.live h (hperm.mem_iff.mp hh)) with
    ⟨hnone, hhandles, _, hspent, hshut, hsubs, hchans⟩
  -- Nobody is subscribed any more, so only the handles given out are left to account for.
  have hempty : ∀ h, h ∉ (shutdownLoop (order.sort (fun _ _ => false) b.subscribers)
      { b with closed := true }).2.subscribers := by
    intro h hh
    rw [hsubs h] at hh
    exact hh.2 (hperm.mem_iff.mpr hh.1)
  refine ⟨hnone, fun h hh => ?_, fun h hh => absurd hh (hempty h), fun h hh => absurd hh (hempty h),
    ?_, fun _ => ?_, fun h hh hns _ => ⟨hshut, ?_⟩⟩
  · rcases hh with hh | hh
    · exact absurd hh (hempty h)
    · rw [hspent] at hh
      rw [hhandles]
      exact hb.known h (.inr hh)
  · rw [List.eq_nil_iff_forall_not_mem.mpr hempty]
    exact List.nodup_nil
  · exact List.eq_nil_iff_forall_not_mem.mpr hempty
  · rw [hhandles] at hh
    rw [hspent] at hns
    rw [hchans h, hperm.mem_iff]
    by_cases hin : h ∈ b.subscribers
    · exact .inl hin
    · exact .inr (hb.gone h hh hns hin).2

theorem unsubscribe_valid (h : Nat) (b : Broker α) (hb : b.Valid) :
    ((b.unsubscribe h).1 ≠ none ↔ LateUnsubscribe b (.unsubscribe h)) ∧
    (b.unsubscribe h).2.Valid := by
  unfold unsubscribe LateUnsubscribe
  by_cases hknown : b.handles ≤ h
  · rw [if_pos hknown]
    exact ⟨⟨fun hno => absurd rfl hno, fun hlate => absurd hknown (Nat.not_le.mpr hlate.2.1)⟩, hb⟩
  rw [if_neg hknown]
  by_cases hspent : h ∈ b.spent
  · rw [if_pos hspent]
    exact ⟨⟨fun hno => absurd rfl hno, fun hlate => absurd hspent hlate.2.2⟩, hb⟩
  rw [if_neg hspent]
  -- Apart from its own channel the subscription is gone from everywhere.
  have hrest : ∀ chans : Nat → Chan α, (∀ k, k ≠ h → chans k = b.chans k) →
      Valid { b with
        chans := chans
        spent := h :: b.spent
        subscribers := b.subscribers.filter (fun k => k ≠ h) } := by
    intro chans hothers
    refine ⟨fun k hk => ?_, fun k hk => ?_, fun k hk => ?_, hb.nodup.filter _, fun hshut => ?_,
      fun k hk hns hsubs => ?_⟩
    · simp only [List.mem_filter, decide_eq_true_eq, List.mem_cons] at hk
      rcases hk with ⟨hold, _⟩ | rfl | hold
      · exact hb.known k (.inl hold)
      · exact Nat.lt_of_not_le hknown
      · exact hb.known k (.inr hold)
    · rw [List.mem_filter, decide_eq_true_eq] at hk
      rw [List.mem_cons, not_or]
      exact ⟨hk.2, hb.unspent k hk.1⟩
    · rw [List.mem_filter, decide_eq_true_eq] at hk
      simp only [hothers k hk.2]
      exact hb.live k hk.1
    · simp only [hb.shut hshut, List.filter_nil]
    · rw [List.mem_cons, not_or] at hns
      rw [List.mem_filter, decide_eq_true_eq, not_and, not_not] at hsubs
      have hnot : k ∉ b.subscribers := fun hin => hns.1 (hsubs hin)
      simp only [hothers k hns.1]
      exact hb.gone k hk hns.2 hnot
  by_cases hin : h ∈ b.subscribers
  · -- The channel is open, and the broker is not shut down.
    have hopen : b.closed = false := by
      by_contra hshut
      rw [hb.shut (by simpa using hshut)] at hin
      exact absurd hin List.not_mem_nil
    have hclose := closeChan_open h { b with
      spent := h :: b.spent
      subscribers := b.subscribers.filter (fun k => k ≠ h) } (hb.live h hin)
    rw [hclose]
    refine ⟨⟨fun hno => absurd rfl hno, fun hlate => ?_⟩, hrest _ (fun k hk => ?_)⟩
    · rw [hopen] at hlate
      exact absurd hlate.1 (by decide)
    · exact Function.update_of_ne hk _ _
  · rcases hb.gone h (Nat.lt_of_not_le hknown) hspent hin with ⟨hshut, hclosed⟩
    have hclose := closeChan_closed h { b with
      spent := h :: b.spent
      subscribers := b.subscribers.filter (fun k => k ≠ h) } hclosed
    rw [hclose]
    exact ⟨⟨fun _ => ⟨hshut, Nat.lt_of_not_le hknown, hspent⟩, fun _ hno => (nomatch hno)⟩,
      hrest _ (fun k _ => rfl)⟩

/-- A call keeps the invariant, and panics exactly when it is late. -/
theorem step_valid (b : Broker α) (hb : b.Valid) (step : BrokerStep α) :
    ((b.step step).1 ≠ none ↔ LateUnsubscribe b step) ∧ (b.step step).2.Valid := by
  cases step with
  | publish order e =>
      rcases publish_valid order e b hb with ⟨hnone, hvalid⟩
      exact ⟨⟨fun hno => absurd hnone hno, fun hlate => hlate.elim⟩, hvalid⟩
  | subscribe => exact ⟨⟨fun hno => absurd rfl hno, fun hlate => hlate.elim⟩, subscribe_valid b hb⟩
  | unsubscribe h => exact unsubscribe_valid h b hb
  | shutdown order =>
      rcases shutdown_valid order b hb with ⟨hnone, hvalid⟩
      exact ⟨⟨fun hno => absurd hnone hno, fun hlate => hlate.elim⟩, hvalid⟩

/-- Every sequence of calls keeps the invariant. -/
theorem after_valid (b : Broker α) (hb : b.Valid) (steps : List (BrokerStep α)) :
    (b.after steps).Valid := by
  induction steps generalizing b with
  | nil => exact hb
  | cons step rest ih => exact ih _ (step_valid b hb step).2

end Broker

/-- A sequence of calls runs without a panic exactly when none of them is the
    first call of an unsubscribe function after the broker was shut down. -/
theorem broker_panics_iff (n : Nat) (steps : List (BrokerStep α)) :
    (∀ pre step post, steps = pre ++ step :: post →
        (((NewBroker α n).after pre).step step).1 = none) ↔
      ∀ pre step post, steps = pre ++ step :: post →
        ¬ LateUnsubscribe ((NewBroker α n).after pre) step := by
  refine forall_congr' (fun pre => forall_congr' (fun step => forall_congr' (fun post =>
    forall_congr' (fun _ => ?_))))
  have hvalid := (NewBroker α n).after_valid (NewBroker_valid n) pre
  rw [← (Broker.step_valid _ hvalid step).1, not_not]

/-- A stream subscribes, the broker is shut down, and the stream ends with its
    deferred call. -/
theorem broker_double_close :
    ¬ ∀ (n : Nat) (steps pre : List (BrokerStep FlagStateChangedEvent))
      (step : BrokerStep FlagStateChangedEvent) (post : List (BrokerStep FlagStateChangedEvent)),
      steps = pre ++ step :: post →
        (((NewBroker FlagStateChangedEvent n).after pre).step step).1 = none := by
  intro hclaim
  have hpanic := hclaim 64 [.subscribe, .shutdown Sorter.insertion, .unsubscribe 0]
    [.subscribe, .shutdown Sorter.insertion] (.unsubscribe 0) [] rfl
  exact absurd hpanic (by decide)

end Cuttlegate
