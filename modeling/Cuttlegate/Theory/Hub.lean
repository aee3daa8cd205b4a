import Cuttlegate.Lib.Steps
import Cuttlegate.Theory.BrokerPanics

/-!
# The Broker at Work

The broker with any number of publishers and subscribers at work at once.

A publish holds the read lock while it goes through the map of subscribers, so
several publishes are in progress at a time, each with the subscribers it has
not offered its event to yet, and every offer is a step of its own. Subscribing
and unsubscribing take the write lock, which is free only while nobody
publishes. Receiving takes no lock at all. The map is iterated in any order,
and a publisher is one sequential caller: it publishes the next event when the
last publish has returned.

Equal events may be published twice, so a publish carries a number, and a
message in a channel is an event with the number of its publish.

## Main definitions

* `Hub`, `Hub.Step`, `Hub.Run`: The broker at work, with what is observed of it.
* `sentTo`, `receivedBy`: The messages of one subscriber, in order.
* `Wholly`: A publish that took place while a subscriber was subscribed.

## Theorems

* `Hub.step_ready`, `Hub.step_numbered`: What a step keeps of the channels and
  of the publishes in progress.
-/

namespace Cuttlegate

/-- A publish in progress: the subscribers it still has to offer its event. -/
structure Publication (α : Type) where
  publisher : Nat
  number : Nat
  event : α
  pending : List Nat

/-- The broker, and the publishes that hold its read lock. -/
structure Hub (α : Type) where
  broker : Broker (Nat × α)
  /-- The number of publishes begun, which are known by their numbers. -/
  published : Nat := 0
  publishing : List (Publication α) := []

/-- What is observed of a step. -/
inductive Seen (α : Type) where
  /-- A publisher takes the read lock for its publish of an event. -/
  | begun (p k : Nat) (e : α)
  /-- The publish offers its event to a subscriber. -/
  | offered (k h : Nat) (sending : Sending)
  /-- The publish returns. -/
  | finished (k : Nat)
  | subscribed (h : Nat)
  /-- The first call of an unsubscribe function. -/
  | unsubscribed (h : Nat)
  /-- A further call of an unsubscribe function. -/
  | repeated (h : Nat)
  | received (h k : Nat) (e : α)
  deriving DecidableEq

section Model

variable {α : Type}

/-- The publish `k` has offered its event to the subscriber `h`. -/
def advance (k h : Nat) (publishing : List (Publication α)) : List (Publication α) :=
  publishing.map (fun x => if x.number = k then { x with pending := x.pending.erase h } else x)

/-- The steps of the broker at work. -/
inductive Hub.Step : Hub α → Seen α → Hub α → Prop
  | begun (s : Hub α) (p : Nat) (e : α) (hopen : s.broker.closed = false)
      (hidle : ∀ x ∈ s.publishing, x.publisher ≠ p) :
      Hub.Step s (.begun p s.published e) { s with
        published := s.published + 1
        publishing := s.publishing ++ [⟨p, s.published, e, s.broker.subscribers⟩] }
  | offered (s : Hub α) (x : Publication α) (h : Nat) (hx : x ∈ s.publishing)
      (hh : h ∈ x.pending) :
      Hub.Step s (.offered x.number h (s.broker.offer (x.number, x.event) h).1) { s with
        broker := (s.broker.offer (x.number, x.event) h).2
        publishing := advance x.number h s.publishing }
  | finished (s : Hub α) (x : Publication α) (hx : x ∈ s.publishing) (hdone : x.pending = []) :
      Hub.Step s (.finished x.number) { s with
        publishing := s.publishing.filter (fun y => y.number ≠ x.number) }
  | subscribed (s : Hub α) (h : Nat) (hlock : s.publishing = [])
      (hnew : s.broker.subscribe.1 = some h) :
      Hub.Step s (.subscribed h) { s with broker := s.broker.subscribe.2 }
  | unsubscribed (s : Hub α) (h : Nat) (hlock : s.publishing = []) (hknown : h < s.broker.handles)
      (hfirst : h ∉ s.broker.spent) :
      Hub.Step s (.unsubscribed h) { s with broker := (s.broker.unsubscribe h).2 }
  | repeated (s : Hub α) (h : Nat) (hspent : h ∈ s.broker.spent) :
      Hub.Step s (.repeated h) { s with broker := (s.broker.unsubscribe h).2 }
  | received (s : Hub α) (h : Nat) (m : Nat × α) (rest : List (Nat × α))
      (hbuf : (s.broker.chans h).buf = m :: rest) :
      Hub.Step s (.received h m.1 m.2) { s with broker := { s.broker with
        chans := Function.update s.broker.chans h { s.broker.chans h with buf := rest } } }

/-- A run from a new broker with room for at least one event per subscriber. -/
def Hub.Run (n : Nat) (H : List (Seen α)) (s : Hub α) : Prop :=
  1 ≤ n ∧ Steps Hub.Step { broker := NewBroker (Nat × α) n } H s

/-- The publishes that got into the channel of a subscriber. -/
def sentTo (h : Nat) (H : List (Seen α)) : List Nat :=
  H.filterMap (fun o => match o with
    | .offered k h' .sent => if h' = h then some k else none
    | _ => none)

/-- The messages a subscriber took from its channel. -/
def receivedBy (h : Nat) (H : List (Seen α)) : List (Nat × α) :=
  H.filterMap (fun o => match o with
    | .received h' k e => if h' = h then some (k, e) else none
    | _ => none)

/-- The publish `k` began after the subscription `h` was made, and returned
    before it was given up. -/
def Wholly (H : List (Seen α)) (h p k : Nat) (e : α) : Prop :=
  ∃ A B C, H = A ++ .begun p k e :: (B ++ .finished k :: C) ∧ .subscribed h ∈ A ∧
    .unsubscribed h ∉ A ++ B

/-- The step is one of the publish `k`, after it has begun. -/
def Seen.ofPublish (k : Nat) : Seen α → Prop
  | .offered k' _ sending => k' = k ∧ sending ≠ .panicked
  | .finished k' => k' = k
  | _ => False

end Model

section Methods

variable {α : Type}

/-- An offer to an open channel, by the room it has. -/
theorem Broker.offer_cases (m : α) (h : Nat) (b : Broker α) (hopen : (b.chans h).closed = false) :
    ((b.chans h).buf.length < b.bufSize ∧ (b.offer m h).1 = .sent ∧
        ((b.offer m h).2.chans h).buf = (b.chans h).buf ++ [m]) ∨
      (b.bufSize ≤ (b.chans h).buf.length ∧ (b.offer m h).1 = .dropped ∧
        ((b.offer m h).2.chans h).buf = (b.chans h).buf) := by
  simp only [Broker.offer, Chan.offer, hopen, Function.update_self]
  by_cases hroom : (b.chans h).buf.length < b.bufSize
  · exact .inl ⟨hroom, by simp [hroom]⟩
  · exact .inr ⟨Nat.le_of_not_lt hroom, by simp [hroom]⟩

/-- An offer leaves the other channels alone. -/
theorem Broker.offer_other (m : α) (h k : Nat) (b : Broker α) (hk : k ≠ h) :
    (b.offer m h).2.chans k = b.chans k := by
  simp only [Broker.offer, Function.update_of_ne hk]

/-- After an offer a channel holds messages of before, and maybe the new one. -/
theorem Broker.mem_offer (m m' : α) (h k : Nat) (b : Broker α) (hopen : (b.chans h).closed = false)
    (hm : m' ∈ ((b.offer m h).2.chans k).buf) : m' ∈ (b.chans k).buf ∨ m' = m := by
  by_cases hkh : k = h
  · subst hkh
    rcases Broker.offer_cases m k b hopen with ⟨_, _, hbuf⟩ | ⟨_, _, hbuf⟩
    · rw [hbuf, List.mem_append, List.mem_singleton] at hm
      exact hm
    · rw [hbuf] at hm
      exact .inl hm
  · rw [Broker.offer_other _ _ _ _ hkh] at hm
    exact .inl hm

/-- A subscription of an open broker. -/
theorem Broker.subscribe_open (b : Broker α) (hopen : b.closed = false) :
    b.subscribe = (some b.handles, { b with
      handles := b.handles + 1
      chans := Function.update b.chans b.handles {}
      subscribers := b.subscribers ++ [b.handles] }) := by
  simp [Broker.subscribe, hopen]

/-- The first call of an unsubscribe function of an open broker. -/
theorem Broker.unsubscribe_first (b : Broker α) (h : Nat) (hb : b.Valid) (hopen : b.closed = false)
    (hknown : h < b.handles) (hfirst : h ∉ b.spent) :
    h ∈ b.subscribers ∧ (b.unsubscribe h).2 = { b with
      spent := h :: b.spent
      subscribers := b.subscribers.filter (fun k => k ≠ h)
      chans := Function.update b.chans h { b.chans h with closed := true } } := by
  have hin : h ∈ b.subscribers := by
    by_contra hout
    have hshut := (hb.gone h hknown hfirst hout).1
    rw [hopen] at hshut
    exact absurd hshut (by decide)
  refine ⟨hin, ?_⟩
  have hclose := Broker.closeChan_open h { b with
    spent := h :: b.spent
    subscribers := b.subscribers.filter (fun k => k ≠ h) } (hb.live h hin)
  rw [Broker.unsubscribe, if_neg (Nat.not_le.mpr hknown), if_neg hfirst, hclose]

/-- A further call of an unsubscribe function. -/
theorem Broker.unsubscribe_spent (b : Broker α) (h : Nat) (hspent : h ∈ b.spent) :
    b.unsubscribe h = (none, b) := by
  simp [Broker.unsubscribe, hspent]

end Methods

section Invariants

variable {α : Type}

/-- The state by itself: the channels of the subscribers are open and have no
    more than `n` messages, and the publishes in progress are told apart by
    their numbers and are at work on subscribers. -/
structure Hub.Ready (n : Nat) (s : Hub α) : Prop where
  valid : s.broker.Valid
  opened : s.broker.closed = false
  size : s.broker.bufSize = n
  fits : ∀ h, (s.broker.chans h).buf.length ≤ n
  fresh : ∀ h, s.broker.handles ≤ h → (s.broker.chans h).buf = []
  pending : ∀ x ∈ s.publishing, ∀ h ∈ x.pending, h ∈ s.broker.subscribers
  nodup : ∀ x ∈ s.publishing, x.pending.Nodup
  older : ∀ x ∈ s.publishing, x.number < s.published
  distinct : (s.publishing.map (fun x => x.number)).Nodup

/-- Each publish in progress is still there after an offer, with one
    subscriber less if it is the one that made the offer. -/
theorem mem_advance (k h : Nat) (publishing : List (Publication α)) (y : Publication α) :
    y ∈ advance k h publishing ↔ ∃ x ∈ publishing,
      y = if x.number = k then { x with pending := x.pending.erase h } else x := by
  simp only [advance, List.mem_map]
  constructor
  · rintro ⟨x, hx, rfl⟩
    exact ⟨x, hx, rfl⟩
  · rintro ⟨x, hx, rfl⟩
    exact ⟨x, hx, rfl⟩

theorem advance_numbers (k h : Nat) (publishing : List (Publication α)) :
    (advance k h publishing).map (fun x => x.number) = publishing.map (fun x => x.number) := by
  rw [advance, List.map_map]
  refine List.map_congr_left (fun x _ => ?_)
  by_cases hx : x.number = k
  · simp [hx]
  · simp [hx]

/-- What is left to do after an offer was left to do before. -/
theorem advance_origin (k h : Nat) (publishing : List (Publication α)) (y : Publication α)
    (hy : y ∈ advance k h publishing) :
    ∃ x ∈ publishing, x.publisher = y.publisher ∧ x.number = y.number ∧ x.event = y.event ∧
      y.pending.Sublist x.pending := by
  rcases (mem_advance k h publishing y).mp hy with ⟨x, hx, rfl⟩
  by_cases hk : x.number = k
  · rw [if_pos hk]
    exact ⟨x, hx, rfl, rfl, rfl, List.erase_sublist⟩
  · rw [if_neg hk]
    exact ⟨x, hx, rfl, rfl, rfl, List.Sublist.refl _⟩

/-- An offer of a publish in progress is made to an open channel. -/
theorem Hub.Ready.live (n : Nat) (s : Hub α) (hs : s.Ready n) (x : Publication α)
    (hx : x ∈ s.publishing) (h : Nat) (hh : h ∈ x.pending) :
    (s.broker.chans h).closed = false :=
  hs.valid.live h (hs.pending x hx h hh)

theorem Hub.start_ready (n : Nat) : (({ broker := NewBroker (Nat × α) n } : Hub α)).Ready n := by
  refine ⟨NewBroker_valid n, rfl, rfl, fun h => Nat.zero_le n, fun _ _ => rfl, ?_, ?_, ?_,
    List.nodup_nil⟩
  · exact fun x hx => absurd hx List.not_mem_nil
  · exact fun x hx => absurd hx List.not_mem_nil
  · exact fun x hx => absurd hx List.not_mem_nil

/-- A new publish is to offer its event to the subscribers there are. -/
theorem Hub.Ready.begun (n : Nat) (s : Hub α) (hs : s.Ready n) (p : Nat) (e : α) :
    Hub.Ready n { s with
      published := s.published + 1
      publishing := s.publishing ++ [⟨p, s.published, e, s.broker.subscribers⟩] } := by
  -- The broker is untouched, so only the four facts about the publishes underway are new.
  refine ⟨hs.valid, hs.opened, hs.size, hs.fits, hs.fresh, ?_, ?_, ?_, ?_⟩
  · intro x hx h hh
    rcases List.mem_append.mp hx with hold | hnew
    · exact hs.pending x hold h hh
    · rw [List.mem_singleton.mp hnew] at hh
      exact hh
  · intro x hx
    rcases List.mem_append.mp hx with hold | hnew
    · exact hs.nodup x hold
    · rw [List.mem_singleton.mp hnew]
      exact hs.valid.nodup
  · intro x hx
    rcases List.mem_append.mp hx with hold | hnew
    · exact Nat.lt_succ_of_lt (hs.older x hold)
    · rw [List.mem_singleton.mp hnew]
      exact Nat.lt_succ_self _
  -- The new number is the next one, above every number still underway.
  · rw [List.map_append, List.nodup_append]
    refine ⟨hs.distinct, List.nodup_singleton _, fun k hk k' hk' => ?_⟩
    rcases List.mem_map.mp hk with ⟨x, hx, rfl⟩
    rw [List.map_singleton, List.mem_singleton] at hk'
    rw [hk']
    exact Nat.ne_of_lt (hs.older x hx)

/-- An offer finds the channel open, and drops the event when it is full. -/
theorem Hub.Ready.offered (n : Nat) (s : Hub α) (hs : s.Ready n) (x : Publication α) (h : Nat)
    (hx : x ∈ s.publishing) (hh : h ∈ x.pending) :
    Hub.Ready n { s with
      broker := (s.broker.offer (x.number, x.event) h).2
      publishing := advance x.number h s.publishing } := by
  have hlive := hs.live n s x hx h hh
  have hsame := (Broker.offer_open (x.number, x.event) h s.broker hlive).2
  refine ⟨hs.valid.sameBut _ _ hsame, hsame.closed.trans hs.opened,
    hsame.bufSize.trans hs.size, fun k => ?_, fun k hk => ?_, fun y hy k hk => ?_,
    fun y hy => ?_, fun y hy => ?_, ?_⟩
  -- The channel takes the message only while it has room.
  · by_cases hkh : k = h
    · subst hkh
      rcases Broker.offer_cases (x.number, x.event) k s.broker hlive with
        ⟨hroom, _, hbuf⟩ | ⟨_, _, hbuf⟩
      · rw [hbuf, List.length_append, List.length_singleton]
        rw [hs.size] at hroom
        exact hroom
      · rw [hbuf]
        exact hs.fits k
    · rw [Broker.offer_other _ _ _ _ hkh]
      exact hs.fits k
  · have hkh : k ≠ h := by
      rintro rfl
      rw [hsame.handles] at hk
      exact absurd (hs.valid.known k (.inl (hs.pending x hx k hh))) (Nat.not_lt.mpr hk)
    rw [Broker.offer_other _ _ _ _ hkh]
    rw [hsame.handles] at hk
    exact hs.fresh k hk
  -- The publishes in progress are those of before, with no more to do.
  · rcases advance_origin _ _ _ y hy with ⟨z, hz, _, _, _, hsub⟩
    rw [hsame.subscribers]
    exact hs.pending z hz k (hsub.subset hk)
  · rcases advance_origin _ _ _ y hy with ⟨z, hz, _, _, _, hsub⟩
    exact (hs.nodup z hz).sublist hsub
  · rcases advance_origin _ _ _ y hy with ⟨z, hz, _, hnum, _, _⟩
    rw [← hnum]
    exact hs.older z hz
  · rw [advance_numbers]
    exact hs.distinct

/-- The channel of a new subscriber is empty. Nobody publishes meanwhile. -/
theorem Hub.Ready.subscribed (n : Nat) (s : Hub α) (hs : s.Ready n) (hlock : s.publishing = []) :
    Hub.Ready n { s with broker := s.broker.subscribe.2 } := by
  have hvalid := Broker.subscribe_valid s.broker hs.valid
  rw [Broker.subscribe_open s.broker hs.opened] at hvalid ⊢
  have hnone : ∀ x, x ∉ s.publishing := by
    rw [hlock]
    exact fun x => List.not_mem_nil
  refine ⟨hvalid, hs.opened, hs.size, fun k => ?_, fun k hk => ?_,
    fun x hx => absurd hx (hnone x), fun x hx => absurd hx (hnone x),
    fun x hx => absurd hx (hnone x), hs.distinct⟩
  · by_cases hkh : k = s.broker.handles
    · simp [hkh]
    · simp only [Function.update_of_ne hkh]
      exact hs.fits k
  · have hkh : k ≠ s.broker.handles := Nat.ne_of_gt hk
    simp only [Function.update_of_ne hkh]
    exact hs.fresh k (Nat.le_of_succ_le hk)

/-- The channel of a subscriber who leaves is closed with what it holds. -/
theorem Hub.Ready.unsubscribed (n : Nat) (s : Hub α) (hs : s.Ready n) (h : Nat)
    (hlock : s.publishing = []) (hknown : h < s.broker.handles) (hfirst : h ∉ s.broker.spent) :
    Hub.Ready n { s with broker := (s.broker.unsubscribe h).2 } := by
  have hvalid := (Broker.unsubscribe_valid h s.broker hs.valid).2
  rw [(Broker.unsubscribe_first s.broker h hs.valid hs.opened hknown hfirst).2] at hvalid ⊢
  -- Unsubscribe holds the write lock, which no publish shares.
  have hnone : ∀ x, x ∉ s.publishing := by
    rw [hlock]
    exact fun x => List.not_mem_nil
  -- Closing the channel leaves what it had queued for the reader to drain.
  have hbuf : ∀ k, (Function.update s.broker.chans h
      { s.broker.chans h with closed := true } k).buf = (s.broker.chans k).buf := by
    intro k
    by_cases hkh : k = h
    · rw [hkh, Function.update_self]
    · rw [Function.update_of_ne hkh]
  refine ⟨hvalid, hs.opened, hs.size, fun k => ?_, fun k hk => ?_,
    fun x hx => absurd hx (hnone x), fun x hx => absurd hx (hnone x),
    fun x hx => absurd hx (hnone x), hs.distinct⟩
  · simp only [hbuf k]
    exact hs.fits k
  · simp only [hbuf k]
    exact hs.fresh k hk

/-- Receiving makes room in one channel. -/
theorem Hub.Ready.received (n : Nat) (s : Hub α) (hs : s.Ready n) (h : Nat) (m : Nat × α)
    (rest : List (Nat × α)) (hbuf : (s.broker.chans h).buf = m :: rest) :
    Hub.Ready n { s with broker := { s.broker with
      chans := Function.update s.broker.chans h { s.broker.chans h with buf := rest } } } := by
  -- A receive takes from one queue and leaves all else the broker keeps.
  have hsame : Broker.SameBut s.broker { s.broker with
      chans := Function.update s.broker.chans h { s.broker.chans h with buf := rest } } := by
    refine ⟨rfl, rfl, rfl, rfl, rfl, fun k => ?_⟩
    by_cases hkh : k = h
    · simp [hkh]
    · simp only [Function.update_of_ne hkh]
  refine ⟨hs.valid.sameBut _ _ hsame, hs.opened, hs.size, fun k => ?_, fun k hk => ?_,
    hs.pending, hs.nodup, hs.older, hs.distinct⟩
  · by_cases hkh : k = h
    · subst hkh
      have hfits := hs.fits k
      rw [hbuf, List.length_cons] at hfits
      simp only [Function.update_self]
      exact Nat.le_of_succ_le hfits
    · simp only [Function.update_of_ne hkh]
      exact hs.fits k
  -- A handle not yet given out has an empty queue, so nothing came from it.
  · have hkh : k ≠ h := by
      rintro rfl
      rw [hs.fresh k hk] at hbuf
      exact absurd hbuf (by simp)
    simp only [Function.update_of_ne hkh]
    exact hs.fresh k hk

/-- Every step keeps the state in order. -/
theorem Hub.step_ready (n : Nat) (s : Hub α) (o : Seen α) (t : Hub α) (hs : s.Ready n)
    (hstep : Hub.Step s o t) : t.Ready n := by
  cases hstep with
  | begun p e hopen hidle => exact hs.begun n s p e
  | offered x h hx hh => exact hs.offered n s x h hx hh
  | finished x hx hdone =>
      refine ⟨hs.valid, hs.opened, hs.size, hs.fits, hs.fresh,
        fun y hy => hs.pending y (List.mem_of_mem_filter hy),
        fun y hy => hs.nodup y (List.mem_of_mem_filter hy),
        fun y hy => hs.older y (List.mem_of_mem_filter hy), ?_⟩
      exact hs.distinct.sublist (List.Sublist.map _ List.filter_sublist)
  | subscribed h hlock hnew => exact hs.subscribed n s hlock
  | unsubscribed h hlock hknown hfirst => exact hs.unsubscribed n s h hlock hknown hfirst
  | repeated h hspent =>
      rw [Broker.unsubscribe_spent s.broker h hspent]
      exact hs
  | received h m rest hbuf => exact hs.received n s h m rest hbuf

/-- The publishes of a history are known by their numbers, in the order in
    which they began, and those that are not in progress any more have
    returned. -/
structure Hub.Numbered (H : List (Seen α)) (s : Hub α) : Prop where
  known : ∀ p k e, .begun p k e ∈ H → k < s.published
  given : ∀ k, k < s.published → ∃ p e, .begun p k e ∈ H
  unique : ∀ k p e p' e', .begun p k e ∈ H → .begun p' k e' ∈ H → p = p' ∧ e = e'
  ordered : ∀ p k e p' k' e', .begun p k e ∈ H → .begun p' k' e' ∈ H → k < k' →
    Before (.begun p k e) (.begun p' k' e') H
  underway : ∀ x ∈ s.publishing, .begun x.publisher x.number x.event ∈ H
  latest : ∀ x ∈ s.publishing, ∀ k e, .begun x.publisher k e ∈ H → k ≤ x.number
  settled : ∀ k, k < s.published → (∃ x ∈ s.publishing, x.number = k) ∨ .finished k ∈ H

/-- A step that begins no publish keeps the numbers, if what is in progress
    after it was in progress before and what is not any more has returned. -/
theorem Hub.Numbered.still (H : List (Seen α)) (s : Hub α) (o : Seen α) (t : Hub α)
    (hs : s.Numbered H) (hpub : t.published = s.published) (hnot : ∀ p k e, o ≠ .begun p k e)
    (hfrom : ∀ y ∈ t.publishing, ∃ x ∈ s.publishing,
      x.publisher = y.publisher ∧ x.number = y.number ∧ x.event = y.event)
    (hto : ∀ x ∈ s.publishing, (∃ y ∈ t.publishing, y.number = x.number) ∨
      o = .finished x.number) :
    t.Numbered (H ++ [o]) := by
  -- The history gains no beginning, so what it says of beginnings is unchanged.
  have hmem : ∀ p k e, .begun p k e ∈ H ++ [o] ↔ .begun p k e ∈ H := by
    intro p k e
    rw [List.mem_append, List.mem_singleton]
    exact ⟨fun h => h.resolve_right (fun ho => hnot p k e ho.symm), .inl⟩
  refine ⟨fun p k e hk => ?_, fun k hk => ?_, fun k p e p' e' hk hk' => ?_,
    fun p k e p' k' e' hk hk' hlt => ?_, fun y hy => ?_, fun y hy k e hk => ?_, fun k hk => ?_⟩
  · rw [hmem] at hk
    rw [hpub]
    exact hs.known p k e hk
  · rw [hpub] at hk
    rcases hs.given k hk with ⟨p, e, hbegun⟩
    exact ⟨p, e, (hmem p k e).mpr hbegun⟩
  · rw [hmem] at hk hk'
    exact hs.unique k p e p' e' hk hk'
  · rw [hmem] at hk hk'
    exact Before.snoc _ _ H o (hs.ordered p k e p' k' e' hk hk' hlt)
  · rcases hfrom y hy with ⟨x, hx, hp, hnum, he⟩
    rw [hmem, ← hp, ← hnum, ← he]
    exact hs.underway x hx
  · rcases hfrom y hy with ⟨x, hx, hp, hnum, _⟩
    rw [hmem, ← hp] at hk
    rw [← hnum]
    exact hs.latest x hx k e hk
  · rw [hpub] at hk
    -- A number already given is underway, or its end is in the history: the step may be
    -- that end.
    rcases hs.settled k hk with ⟨x, hx, hnum⟩ | hdone
    · rcases hto x hx with ⟨y, hy, hnum'⟩ | ho
      · exact .inl ⟨y, hy, hnum'.trans hnum⟩
      · rw [hnum] at ho
        exact .inr (List.mem_append.mpr (.inr (List.mem_singleton.mpr ho.symm)))
    · exact .inr (List.mem_append_left _ hdone)

/-- The publishes in progress are the same as before. -/
theorem Hub.Numbered.same (H : List (Seen α)) (s : Hub α) (o : Seen α) (t : Hub α)
    (hs : s.Numbered H) (hpub : t.published = s.published) (hnot : ∀ p k e, o ≠ .begun p k e)
    (hsame : t.publishing = s.publishing) : t.Numbered (H ++ [o]) := by
  refine hs.still H s o t hpub hnot (fun y hy => ?_) (fun x hx => ?_)
  · rw [hsame] at hy
    exact ⟨y, hy, rfl, rfl, rfl⟩
  · rw [← hsame] at hx
    exact .inl ⟨x, hx, rfl⟩

theorem Hub.start_numbered (n : Nat) :
    (({ broker := NewBroker (Nat × α) n } : Hub α)).Numbered [] := by
  refine ⟨?_, ?_, ?_, ?_, ?_, ?_, ?_⟩
  · exact fun p k e hk => absurd hk List.not_mem_nil
  · exact fun k hk => absurd hk (Nat.not_lt_zero k)
  · exact fun k p e p' e' hk => absurd hk List.not_mem_nil
  · exact fun p k e p' k' e' hk => absurd hk List.not_mem_nil
  · exact fun x hx => absurd hx List.not_mem_nil
  · exact fun x hx => absurd hx List.not_mem_nil
  · exact fun k hk => absurd hk (Nat.not_lt_zero k)

/-- A new publish has the next number. -/
theorem Hub.Numbered.begun (H : List (Seen α)) (s : Hub α) (hs : s.Numbered H) (p : Nat) (e : α)
    (hidle : ∀ x ∈ s.publishing, x.publisher ≠ p) :
    Hub.Numbered (H ++ [.begun p s.published e]) { s with
      published := s.published + 1
      publishing := s.publishing ++ [⟨p, s.published, e, s.broker.subscribers⟩] } := by
  -- The new publish has the next number, so it differs from all before.
  have hmem : ∀ p' k e', .begun p' k e' ∈ H ++ [Seen.begun p s.published e] ↔
      .begun p' k e' ∈ H ∨ (p' = p ∧ k = s.published ∧ e' = e) := by
    intro p' k e'
    rw [List.mem_append, List.mem_singleton, Seen.begun.injEq]
  refine ⟨fun p' k e' hk => ?_, fun k hk => ?_, fun k p₁ e₁ p₂ e₂ h₁ h₂ => ?_,
    fun p₁ k₁ e₁ p₂ k₂ e₂ h₁ h₂ hlt => ?_, fun x hx => ?_, fun x hx k e' hk => ?_,
    fun k hk => ?_⟩
  -- Every number is below the count, and every number below it was given.
  · rcases (hmem p' k e').mp hk with hold | ⟨_, rfl, _⟩
    · exact Nat.lt_succ_of_lt (hs.known p' k e' hold)
    · exact Nat.lt_succ_self _
  · by_cases hlast : k = s.published
    · exact ⟨p, e, (hmem p k e).mpr (.inr ⟨rfl, hlast, rfl⟩)⟩
    · rcases hs.given k (Nat.lt_of_le_of_ne (Nat.le_of_lt_succ hk) hlast) with ⟨p', e', hold⟩
      exact ⟨p', e', (hmem p' k e').mpr (.inl hold)⟩
  -- No number was given twice, and later publishes have larger ones.
  · rcases (hmem p₁ k e₁).mp h₁ with hold₁ | ⟨rfl, hk₁, rfl⟩
    · rcases (hmem p₂ k e₂).mp h₂ with hold₂ | ⟨_, hk₂, _⟩
      · exact hs.unique k p₁ e₁ p₂ e₂ hold₁ hold₂
      · exact absurd hk₂ (Nat.ne_of_lt (hs.known p₁ k e₁ hold₁))
    · rcases (hmem p₂ k e₂).mp h₂ with hold₂ | ⟨rfl, _, rfl⟩
      · exact absurd hk₁ (Nat.ne_of_lt (hs.known p₂ k e₂ hold₂))
      · exact ⟨rfl, rfl⟩
  · rcases (hmem p₁ k₁ e₁).mp h₁ with hold₁ | ⟨_, hk₁, _⟩
    · rcases (hmem p₂ k₂ e₂).mp h₂ with hold₂ | ⟨rfl, rfl, rfl⟩
      · exact Before.snoc _ _ H _ (hs.ordered p₁ k₁ e₁ p₂ k₂ e₂ hold₁ hold₂ hlt)
      · exact before_last _ _ _ hold₁
    · rcases (hmem p₂ k₂ e₂).mp h₂ with hold₂ | ⟨_, hk₂, _⟩
      · have hbound := hs.known p₂ k₂ e₂ hold₂
        omega
      · omega
  · rcases List.mem_append.mp hx with hold | hnew
    · exact List.mem_append_left _ (hs.underway x hold)
    · rw [List.mem_singleton.mp hnew]
      exact List.mem_append_right _ (List.mem_singleton.mpr rfl)
  -- The publisher was idle, so each publisher still has one publish at most.
  · rcases List.mem_append.mp hx with hold | hnew
    · rcases (hmem x.publisher k e').mp hk with hbefore | ⟨hp, _, _⟩
      · exact hs.latest x hold k e' hbefore
      · exact absurd hp (hidle x hold)
    · rw [List.mem_singleton.mp hnew]
      rcases (hmem x.publisher k e').mp hk with hbefore | ⟨_, rfl, _⟩
      · exact Nat.le_of_lt (hs.known _ k e' hbefore)
      · exact Nat.le_refl _
  · by_cases hlast : k = s.published
    · exact .inl ⟨_, List.mem_append_right _ (List.mem_singleton.mpr rfl), hlast.symm⟩
    · rcases hs.settled k (Nat.lt_of_le_of_ne (Nat.le_of_lt_succ hk) hlast) with
        ⟨x, hx, hnum⟩ | hdone
      · exact .inl ⟨x, List.mem_append_left _ hx, hnum⟩
      · exact .inr (List.mem_append_left _ hdone)

/-- Every step keeps the numbers of the publishes. -/
theorem Hub.step_numbered (H : List (Seen α)) (s : Hub α) (o : Seen α) (t : Hub α)
    (hs : s.Numbered H) (hstep : Hub.Step s o t) : t.Numbered (H ++ [o]) := by
  cases hstep with
  | begun p e hopen hidle => exact hs.begun H s p e hidle
  -- An offer advances one publish and keeps its publisher, number and event.
  | offered x h hx hh =>
      refine hs.still H s _ _ rfl (fun _ _ _ ho => (nomatch ho)) (fun y hy => ?_) (fun y hy => ?_)
      · rcases advance_origin _ _ _ y hy with ⟨z, hz, hp, hnum, he, _⟩
        exact ⟨z, hz, hp, hnum, he⟩
      · have hnum : y.number ∈ (advance x.number h s.publishing).map (fun x => x.number) := by
          rw [advance_numbers]
          exact List.mem_map_of_mem hy
        exact .inl (List.mem_map.mp hnum)
  | finished x hx hdone =>
      refine hs.still H s _ _ rfl (fun _ _ _ ho => (nomatch ho)) (fun y hy => ?_) (fun y hy => ?_)
      · exact ⟨y, List.mem_of_mem_filter hy, rfl, rfl, rfl⟩
      -- The step ends this number's publish, or leaves it underway.
      · by_cases hnum : y.number = x.number
        · exact .inr (by rw [hnum])
        · exact .inl ⟨y, List.mem_filter.mpr ⟨hy, by simpa using hnum⟩, rfl⟩
  | subscribed h hlock hnew => exact hs.same H s _ _ rfl (fun _ _ _ ho => (nomatch ho)) rfl
  | unsubscribed h hlock hknown hfirst =>
      exact hs.same H s _ _ rfl (fun _ _ _ ho => (nomatch ho)) rfl
  | repeated h hspent => exact hs.same H s _ _ rfl (fun _ _ _ ho => (nomatch ho)) rfl
  | received h m rest hbuf => exact hs.same H s _ _ rfl (fun _ _ _ ho => (nomatch ho)) rfl

end Invariants

end Cuttlegate
