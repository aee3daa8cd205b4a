import Cuttlegate.Theory.Hub

/-!
# What Subscribers Receive

The channels of the broker as queues: what is sent to a subscriber is what it
receives and then what waits for it, nothing is sent twice, and the publishes
of one publisher are sent in their order. Which subscribers a publish is
offered to follows from the subscriptions and unsubscriptions before it, and a
publish that took place while a subscriber was subscribed was offered to it.

## Theorems

* `Hub.step_queued`, `Hub.step_members`: What a step keeps of the queues and of
  the subscriptions.
* `Hub.completes`: A publish in progress returns by its own steps.
* `broker_delivery`: What a subscriber receives, and what it misses.
-/

namespace Cuttlegate

section Queues

variable {α : Type}

theorem sentTo_append (h : Nat) (H H' : List (Seen α)) :
    sentTo h (H ++ H') = sentTo h H ++ sentTo h H' := by
  simp [sentTo]

theorem receivedBy_append (h : Nat) (H H' : List (Seen α)) :
    receivedBy h (H ++ H') = receivedBy h H ++ receivedBy h H' := by
  simp [receivedBy]

theorem mem_sentTo (h k : Nat) (H : List (Seen α)) :
    k ∈ sentTo h H ↔ .offered k h .sent ∈ H := by
  simp only [sentTo, List.mem_filterMap]
  constructor
  · rintro ⟨o, ho, hk⟩
    split at hk
    · rename_i k' h'
      by_cases hh : h' = h
      · rw [if_pos hh, Option.some.injEq] at hk
        rw [← hk, ← hh]
        exact ho
      · rw [if_neg hh] at hk
        exact (nomatch hk)
    · exact (nomatch hk)
  · intro ho
    exact ⟨_, ho, by simp⟩

theorem mem_receivedBy (h : Nat) (m : Nat × α) (H : List (Seen α)) :
    m ∈ receivedBy h H ↔ .received h m.1 m.2 ∈ H := by
  simp only [receivedBy, List.mem_filterMap]
  constructor
  · rintro ⟨o, ho, hm⟩
    split at hm
    · rename_i h' k e
      by_cases hh : h' = h
      · rw [if_pos hh, Option.some.injEq] at hm
        rw [← hm, ← hh]
        exact ho
      · rw [if_neg hh] at hm
        exact (nomatch hm)
    · exact (nomatch hm)
  · intro ho
    exact ⟨_, ho, by simp⟩

/-- The channels as queues: what was sent to a subscriber is what it received
    and then what waits for it; nothing is sent twice, and the publishes of
    one publisher are sent in their order. -/
structure Hub.Queued (H : List (Seen α)) (s : Hub α) : Prop where
  flow : ∀ h, sentTo h H =
    (receivedBy h H).map Prod.fst ++ (s.broker.chans h).buf.map Prod.fst
  content : ∀ h m, m ∈ receivedBy h H ∨ m ∈ (s.broker.chans h).buf → ∃ p, .begun p m.1 m.2 ∈ H
  tried : ∀ k h sending, .offered k h sending ∈ H → k < s.published
  untried : ∀ x ∈ s.publishing, ∀ h ∈ x.pending, ∀ sending, .offered x.number h sending ∉ H
  nodup : ∀ h, (sentTo h H).Nodup
  inOrder : ∀ h, (sentTo h H).Pairwise (fun k k' =>
    ∀ p e e', .begun p k e ∈ H → .begun p k' e' ∈ H → k < k')

/-- A publish that begins after a message was sent does not change the order
    in which the messages stand. -/
theorem Hub.Queued.inOrder_snoc (H : List (Seen α)) (s : Hub α) (hs : s.Queued H) (o : Seen α)
    (hlate : ∀ p k e, o = .begun p k e → s.published ≤ k) (h : Nat) :
    (sentTo h H).Pairwise (fun k k' =>
      ∀ p e e', .begun p k e ∈ H ++ [o] → .begun p k' e' ∈ H ++ [o] → k < k') := by
  have hold : ∀ k ∈ sentTo h H, ∀ p e, .begun p k e ∈ H ++ [o] → .begun p k e ∈ H := by
    intro k hk p e hbegun
    rw [List.mem_append, List.mem_singleton] at hbegun
    refine hbegun.resolve_right (fun ho => ?_)
    have hlt := hs.tried k h .sent ((mem_sentTo h k H).mp hk)
    exact absurd (hlate p k e ho.symm) (Nat.not_le.mpr hlt)
  refine List.Pairwise.imp_of_mem (fun {k k'} hk hk' hlt p e e' hb hb' => ?_) (hs.inOrder h)
  exact hlt p e e' (hold k hk p e hb) (hold k' hk' p e' hb')

/-- A step that neither sends nor receives keeps the queues. -/
theorem Hub.Queued.still (H : List (Seen α)) (s : Hub α) (o : Seen α) (t : Hub α)
    (hs : s.Queued H) (hnosend : ∀ k h sending, o ≠ .offered k h sending)
    (hnorecv : ∀ h k e, o ≠ .received h k e)
    (hlate : ∀ p k e, o = .begun p k e → s.published ≤ k) (hpub : s.published ≤ t.published)
    (hbuf : ∀ h, (t.broker.chans h).buf = (s.broker.chans h).buf)
    (hfrom : ∀ y ∈ t.publishing, ∀ h ∈ y.pending,
      (∃ x ∈ s.publishing, x.number = y.number ∧ h ∈ x.pending) ∨ s.published ≤ y.number) :
    t.Queued (H ++ [o]) := by
  -- Neither a send nor a receive: both sides of the flow equation stand.
  have hsent : ∀ h, sentTo h (H ++ [o]) = sentTo h H := by
    intro h
    rw [sentTo_append, List.append_right_eq_self, List.eq_nil_iff_forall_not_mem]
    intro k hk
    rw [mem_sentTo, List.mem_singleton] at hk
    exact hnosend k h .sent hk.symm
  have hrecv : ∀ h, receivedBy h (H ++ [o]) = receivedBy h H := by
    intro h
    rw [receivedBy_append, List.append_right_eq_self, List.eq_nil_iff_forall_not_mem]
    intro m hm
    rw [mem_receivedBy, List.mem_singleton] at hm
    exact hnorecv h m.1 m.2 hm.symm
  have hoff : ∀ k h sending, .offered k h sending ∈ H ++ [o] → .offered k h sending ∈ H := by
    intro k h sending hk
    rw [List.mem_append, List.mem_singleton] at hk
    exact hk.resolve_right (fun ho => hnosend k h sending ho.symm)
  refine ⟨fun h => ?_, fun h m hm => ?_, fun k h sending hk => ?_,
    fun y hy h hh sending hk => ?_, fun h => ?_, fun h => ?_⟩
  · rw [hsent, hrecv, hbuf]
    exact hs.flow h
  · rw [hrecv, hbuf] at hm
    rcases hs.content h m hm with ⟨p, hp⟩
    exact ⟨p, List.mem_append_left _ hp⟩
  · exact Nat.lt_of_lt_of_le (hs.tried k h sending (hoff k h sending hk)) hpub
  · have hk' := hoff _ _ _ hk
    -- A publish begun by this very step has a number no offer in the history carries.
    rcases hfrom y hy h hh with ⟨x, hx, hnum, hpend⟩ | hnew
    · rw [← hnum] at hk'
      exact hs.untried x hx h hpend sending hk'
    · exact absurd (hs.tried _ h sending hk') (Nat.not_lt.mpr hnew)
  · rw [hsent]
    exact hs.nodup h
  · rw [hsent]
    exact hs.inOrder_snoc H s o hlate h

/-- An offer is part of the queue it was made to, if it was sent. -/
theorem sentTo_offered (h k h' : Nat) (sending : Sending) (H : List (Seen α)) :
    sentTo h (H ++ [.offered k h' sending]) =
      sentTo h H ++ if h' = h ∧ sending = .sent then [k] else [] := by
  rw [sentTo_append]
  congr 1
  cases sending with
  | sent =>
      by_cases hh : h' = h
      · simp [sentTo, hh]
      · simp [sentTo, hh]
  | dropped => simp [sentTo]
  | panicked => simp [sentTo]

theorem Hub.start_queued (n : Nat) :
    (({ broker := NewBroker (Nat × α) n } : Hub α)).Queued [] := by
  refine ⟨fun h => rfl, ?_, ?_, ?_, fun h => List.nodup_nil, fun h => List.Pairwise.nil⟩
  · rintro h m (hm | hm)
    · exact absurd hm List.not_mem_nil
    · exact absurd hm List.not_mem_nil
  · exact fun k h sending hk => absurd hk List.not_mem_nil
  · exact fun x hx => absurd hx List.not_mem_nil

/-- An offer keeps the queues. -/
theorem Hub.offered_queued (n : Nat) (H : List (Seen α)) (s : Hub α) (hr : s.Ready n)
    (hn : s.Numbered H) (hs : s.Queued H) (x : Publication α) (h : Nat) (hx : x ∈ s.publishing)
    (hh : h ∈ x.pending) :
    Hub.Queued (H ++ [.offered x.number h (s.broker.offer (x.number, x.event) h).1]) { s with
      broker := (s.broker.offer (x.number, x.event) h).2
      publishing := advance x.number h s.publishing } := by
  generalize hsending : (s.broker.offer (x.number, x.event) h).1 = sending
  have hnot : ∀ sending', .offered x.number h sending' ∉ H := hs.untried x hx h hh
  have hbegun : ∀ p k e, .begun p k e ∈ H ++ [.offered x.number h sending] →
      Seen.begun p k e ∈ H := by
    intro p k e hk
    rw [List.mem_append, List.mem_singleton] at hk
    exact hk.resolve_right (fun ho => (nomatch ho))
  have hrecv : ∀ k, receivedBy k (H ++ [.offered x.number h sending]) = receivedBy k H := by
    intro k
    rw [receivedBy_append]
    exact List.append_nil _
  refine ⟨fun k => ?_, fun k m hm => ?_, fun k h' sending' hk => ?_,
    fun y hy h' hh' sending' hk => ?_, fun k => ?_, fun k => ?_⟩
  -- The message is appended to one channel and to what was sent to it, or to
  -- neither.
  · rw [sentTo_offered, hrecv]
    by_cases hkh : h = k
    · subst hkh
      rcases Broker.offer_cases (x.number, x.event) h s.broker (hr.live n s x hx h hh) with
        ⟨_, hsent, hbuf⟩ | ⟨_, hdropped, hbuf⟩
      · rw [← hsending, hsent, hbuf, hs.flow h]
        simp
      · rw [← hsending, hdropped, hbuf, hs.flow h]
        simp
    · rw [if_neg (fun hc => hkh hc.1), List.append_nil, Broker.offer_other _ _ _ _ (Ne.symm hkh)]
      exact hs.flow k
  -- A message in a channel is one of before or the one just offered.
  · rw [hrecv] at hm
    have hold : m ∈ receivedBy k H ∨ m ∈ (s.broker.chans k).buf ∨ m = (x.number, x.event) :=
      hm.imp_right (Broker.mem_offer _ m h k s.broker (hr.live n s x hx h hh))
    rcases hold with hm | hm | rfl
    · rcases hs.content k m (.inl hm) with ⟨p, hp⟩
      exact ⟨p, List.mem_append_left _ hp⟩
    · rcases hs.content k m (.inr hm) with ⟨p, hp⟩
      exact ⟨p, List.mem_append_left _ hp⟩
    · exact ⟨x.publisher, List.mem_append_left _ (hn.underway x hx)⟩
  · rw [List.mem_append, List.mem_singleton, Seen.offered.injEq] at hk
    rcases hk with hk | ⟨rfl, _, _⟩
    · exact hs.tried k h' sending' hk
    · exact hr.older x hx
  -- The subscriber is taken off the list of the publish that made the offer.
  · rcases (mem_advance _ _ _ y).mp hy with ⟨z, hz, rfl⟩
    rw [List.mem_append, List.mem_singleton, Seen.offered.injEq] at hk
    by_cases hzx : z.number = x.number
    · rw [if_pos hzx] at hh' hk
      rcases hk with hk | ⟨_, rfl, _⟩
      · exact hs.untried z hz h' (List.mem_of_mem_erase hh') sending' hk
      · exact (hr.nodup z hz).not_mem_erase hh'
    · rw [if_neg hzx] at hh' hk
      rcases hk with hk | ⟨hnum, _, _⟩
      · exact hs.untried z hz h' hh' sending' hk
      · exact hzx hnum
  -- It was on the list, so the publish had not been offered to it before.
  · rw [sentTo_offered]
    by_cases hc : h = k ∧ sending = .sent
    · rw [if_pos hc, List.nodup_append]
      refine ⟨hs.nodup k, List.nodup_singleton _, fun j hj j' hj' heq => ?_⟩
      rw [List.mem_singleton.mp hj'] at heq
      rw [heq, mem_sentTo, ← hc.1] at hj
      exact hnot .sent hj
    · rw [if_neg hc, List.append_nil]
      exact hs.nodup k
  · rw [sentTo_offered]
    have hinOrder := hs.inOrder_snoc H s (.offered x.number h sending)
      (fun p k' e ho => (nomatch ho)) k
    by_cases hc : h = k ∧ sending = .sent
    · rw [if_pos hc, List.pairwise_append]
      refine ⟨hinOrder, List.pairwise_singleton _ _, fun j hj j' hj' p e e' hb hb' => ?_⟩
      rw [List.mem_singleton.mp hj'] at hb' ⊢
      -- The publisher had no later publish than the one in progress.
      have hpub := (hn.unique _ _ _ _ _ (hbegun _ _ _ hb') (hn.underway x hx)).1
      rw [hpub] at hb
      refine Nat.lt_of_le_of_ne (hn.latest x hx j e (hbegun _ _ _ hb)) (fun heq => ?_)
      rw [heq, mem_sentTo, ← hc.1] at hj
      exact hnot .sent hj
    · rw [if_neg hc, List.append_nil]
      exact hinOrder

/-- Receiving moves the first message from the channel to what was received. -/
theorem Hub.Queued.received (H : List (Seen α)) (s : Hub α) (hs : s.Queued H) (h : Nat)
    (m : Nat × α) (rest : List (Nat × α)) (hbuf : (s.broker.chans h).buf = m :: rest) :
    Hub.Queued (H ++ [.received h m.1 m.2]) { s with broker := { s.broker with
      chans := Function.update s.broker.chans h { s.broker.chans h with buf := rest } } } := by
  have hsent : ∀ k, sentTo k (H ++ [.received h m.1 m.2]) = sentTo k H := by
    intro k
    rw [sentTo_append]
    exact List.append_nil _
  -- The head of the queue moves to the end of what was received.
  have hrecv : ∀ k, receivedBy k (H ++ [.received h m.1 m.2]) =
      receivedBy k H ++ if h = k then [m] else [] := by
    intro k
    rw [receivedBy_append]
    by_cases hk : h = k
    · simp [receivedBy, hk]
    · simp [receivedBy, hk]
  have hoff : ∀ k j sending, .offered k j sending ∈ H ++ [.received h m.1 m.2] →
      Seen.offered k j sending ∈ H := by
    intro k j sending hk
    rw [List.mem_append, List.mem_singleton] at hk
    exact hk.resolve_right (fun ho => (nomatch ho))
  refine ⟨fun k => ?_, fun k m' hm => ?_,
    fun k j sending hk => hs.tried k j sending (hoff k j sending hk),
    fun x hx j hj sending hk => hs.untried x hx j hj sending (hoff _ _ _ hk),
    fun k => ?_, fun k => ?_⟩
  · rw [hsent, hrecv, hs.flow k]
    by_cases hk : h = k
    · subst hk
      simp [hbuf]
    · simp [hk, Function.update_of_ne (Ne.symm hk)]
  -- Whatever is received or queued now was received or queued before.
  · have hold : m' ∈ receivedBy k H ∨ m' ∈ (s.broker.chans k).buf := by
      rw [hrecv] at hm
      by_cases hk : h = k
      · subst hk
        simp only [if_true, List.mem_append, List.mem_singleton, Function.update_self] at hm
        rw [hbuf, List.mem_cons]
        exact or_assoc.mp hm
      · simpa [hk, Function.update_of_ne (Ne.symm hk)] using hm
    rcases hs.content k m' hold with ⟨p, hp⟩
    exact ⟨p, List.mem_append_left _ hp⟩
  · rw [hsent]
    exact hs.nodup k
  · rw [hsent]
    exact hs.inOrder_snoc H s (.received h m.1 m.2) (fun _ _ _ ho => (nomatch ho)) k

/-- Every step keeps the queues. -/
theorem Hub.step_queued (n : Nat) (H : List (Seen α)) (s : Hub α) (o : Seen α) (t : Hub α)
    (hr : s.Ready n) (hn : s.Numbered H) (hs : s.Queued H) (hstep : Hub.Step s o t) :
    t.Queued (H ++ [o]) := by
  cases hstep with
  -- A beginning takes the next number, so it sends nothing the history has tried.
  | begun p e hopen hidle =>
      refine hs.still H s _ _ (fun _ _ _ ho => (nomatch ho)) (fun _ _ _ ho => (nomatch ho)) ?_
        (Nat.le_succ _) (fun _ => rfl) (fun y hy h hh => ?_)
      · intro p' k e' ho
        rw [Seen.begun.injEq] at ho
        exact Nat.le_of_eq ho.2.1
      · rcases List.mem_append.mp hy with hold | hnew
        · exact .inl ⟨y, hold, rfl, hh⟩
        · rw [List.mem_singleton.mp hnew]
          exact .inr (Nat.le_refl _)
  | offered x h hx hh => exact Hub.offered_queued n H s hr hn hs x h hx hh
  | finished x hx hdone =>
      exact hs.still H s _ _ (fun _ _ _ ho => (nomatch ho)) (fun _ _ _ ho => (nomatch ho))
        (fun _ _ _ ho => (nomatch ho)) (Nat.le_refl _) (fun _ => rfl)
        (fun y hy h hh => .inl ⟨y, List.mem_of_mem_filter hy, rfl, hh⟩)
  | subscribed h hlock hnew =>
      refine hs.still H s _ _ (fun _ _ _ ho => (nomatch ho)) (fun _ _ _ ho => (nomatch ho))
        (fun _ _ _ ho => (nomatch ho)) (Nat.le_refl _) (fun k => ?_)
        (fun y hy h hh => .inl ⟨y, hy, rfl, hh⟩)
      rw [Broker.subscribe_open s.broker hr.opened]
      -- The fresh handle's queue starts empty, as it was while unused.
      by_cases hk : k = s.broker.handles
      · rw [hk, hr.fresh _ (Nat.le_refl _)]
        simp
      · simp only [Function.update_of_ne hk]
  | unsubscribed h hlock hknown hfirst =>
      refine hs.still H s _ _ (fun _ _ _ ho => (nomatch ho)) (fun _ _ _ ho => (nomatch ho))
        (fun _ _ _ ho => (nomatch ho)) (Nat.le_refl _) (fun k => ?_)
        (fun y hy h hh => .inl ⟨y, hy, rfl, hh⟩)
      rw [(Broker.unsubscribe_first s.broker h hr.valid hr.opened hknown hfirst).2]
      by_cases hk : k = h
      · simp [hk]
      · simp only [Function.update_of_ne hk]
  | repeated h hspent =>
      refine hs.still H s _ _ (fun _ _ _ ho => (nomatch ho)) (fun _ _ _ ho => (nomatch ho))
        (fun _ _ _ ho => (nomatch ho)) (Nat.le_refl _) (fun k => ?_)
        (fun y hy h hh => .inl ⟨y, hy, rfl, hh⟩)
      rw [Broker.unsubscribe_spent s.broker h hspent]
  | received h m rest hbuf => exact hs.received H s h m rest hbuf

/-- The subscribers are those who have subscribed and not unsubscribed, and an
    event is only offered to those who had subscribed when its publish began. -/
structure Hub.Members (H : List (Seen α)) (s : Hub α) : Prop where
  subs : ∀ h, h ∈ s.broker.subscribers ↔ .subscribed h ∈ H ∧ .unsubscribed h ∉ H
  spent : ∀ h, .unsubscribed h ∈ H → h ∈ s.broker.spent
  pending : ∀ x ∈ s.publishing, ∀ h ∈ x.pending,
    Before (.subscribed h) (.begun x.publisher x.number x.event) H
  after : ∀ k h sending, .offered k h sending ∈ H →
    ∃ p e, Before (.subscribed h) (.begun p k e) H

/-- A step that nobody subscribes or unsubscribes by. -/
theorem Hub.Members.still (H : List (Seen α)) (s : Hub α) (o : Seen α) (t : Hub α)
    (hs : s.Members H) (hnosub : ∀ h, o ≠ .subscribed h) (hnounsub : ∀ h, o ≠ .unsubscribed h)
    (hsubs : t.broker.subscribers = s.broker.subscribers)
    (hspent : t.broker.spent = s.broker.spent)
    (hfrom : ∀ y ∈ t.publishing, ∀ h ∈ y.pending,
      Before (.subscribed h) (.begun y.publisher y.number y.event) (H ++ [o]))
    (hoffer : ∀ k h sending, o = .offered k h sending →
      ∃ p e, Before (.subscribed h) (.begun p k e) H) :
    t.Members (H ++ [o]) := by
  refine ⟨fun h => ?_, fun h hh => ?_, hfrom, fun k h sending hk => ?_⟩
  · rw [hsubs, hs.subs h]
    simp [Ne.symm (hnosub h), Ne.symm (hnounsub h)]
  · rw [hspent]
    rw [List.mem_append, List.mem_singleton] at hh
    exact hs.spent h (hh.resolve_right (fun ho => hnounsub h ho.symm))
  · rw [List.mem_append, List.mem_singleton] at hk
    -- The offer is an old one, or this step's own: either way its reader joined first.
    have hbefore : ∃ p e, Before (.subscribed h) (.begun p k e) H := by
      rcases hk with hk | hk
      · exact hs.after k h sending hk
      · exact hoffer k h sending hk.symm
    rcases hbefore with ⟨p, e, hb⟩
    exact ⟨p, e, Before.snoc _ _ H o hb⟩

theorem Hub.start_members (n : Nat) :
    (({ broker := NewBroker (Nat × α) n } : Hub α)).Members [] := by
  refine ⟨fun h => ?_, ?_, ?_, ?_⟩
  · exact ⟨fun hh => absurd hh List.not_mem_nil, fun hh => absurd hh.1 List.not_mem_nil⟩
  · exact fun h hh => absurd hh List.not_mem_nil
  · exact fun x hx => absurd hx List.not_mem_nil
  · exact fun k h sending hk => absurd hk List.not_mem_nil

/-- A subscription is new, so it has not been given up. -/
theorem Hub.Members.subscribed (n : Nat) (H : List (Seen α)) (s : Hub α) (hr : s.Ready n)
    (hs : s.Members H) (h : Nat) (hlock : s.publishing = [])
    (hnew : s.broker.subscribe.1 = some h) :
    Hub.Members (H ++ [.subscribed h]) { s with broker := s.broker.subscribe.2 } := by
  rw [Broker.subscribe_open s.broker hr.opened] at hnew ⊢
  cases hnew
  -- The handle is the next one, so the history cannot hold its departure.
  have hfresh : .unsubscribed s.broker.handles ∉ H := by
    intro hun
    exact absurd (hr.valid.known _ (.inr (hs.spent _ hun))) (Nat.lt_irrefl _)
  refine ⟨fun k => ?_, fun k hk => ?_, fun x hx => ?_, fun k j sending hk => ?_⟩
  · simp only [List.mem_append, List.mem_singleton, hs.subs k, Seen.subscribed.injEq,
      reduceCtorEq, or_false]
    by_cases hk : k = s.broker.handles
    · simp [hk, hfresh]
    · simp [hk]
  · simp only [List.mem_append, List.mem_singleton, reduceCtorEq, or_false] at hk
    exact hs.spent k hk
  -- Subscribe holds the write lock, so no publish is underway.
  · rw [hlock] at hx
    exact absurd hx List.not_mem_nil
  · simp only [List.mem_append, List.mem_singleton, reduceCtorEq, or_false] at hk
    rcases hs.after k j sending hk with ⟨p, e, hb⟩
    exact ⟨p, e, Before.snoc _ _ H _ hb⟩

/-- A subscription that is given up is gone for good. -/
theorem Hub.Members.unsubscribed (n : Nat) (H : List (Seen α)) (s : Hub α) (hr : s.Ready n)
    (hs : s.Members H) (h : Nat) (hlock : s.publishing = []) (hknown : h < s.broker.handles)
    (hfirst : h ∉ s.broker.spent) :
    Hub.Members (H ++ [.unsubscribed h]) { s with broker := (s.broker.unsubscribe h).2 } := by
  rw [(Broker.unsubscribe_first s.broker h hr.valid hr.opened hknown hfirst).2]
  refine ⟨fun k => ?_, fun k hk => ?_, fun x hx => ?_, fun k j sending hk => ?_⟩
  · simp only [List.mem_filter, decide_eq_true_eq, List.mem_append, List.mem_singleton,
      hs.subs k, Seen.unsubscribed.injEq, reduceCtorEq, or_false, not_or, and_assoc]
  · simp only [List.mem_append, List.mem_singleton, Seen.unsubscribed.injEq] at hk
    rw [List.mem_cons]
    rcases hk with hk | rfl
    · exact .inr (hs.spent k hk)
    · exact .inl rfl
  -- Unsubscribe holds the write lock too.
  · rw [hlock] at hx
    exact absurd hx List.not_mem_nil
  · simp only [List.mem_append, List.mem_singleton, reduceCtorEq, or_false] at hk
    rcases hs.after k j sending hk with ⟨p, e, hb⟩
    exact ⟨p, e, Before.snoc _ _ H _ hb⟩

/-- Every step keeps the record of the subscribers. -/
theorem Hub.step_members (n : Nat) (H : List (Seen α)) (s : Hub α) (o : Seen α) (t : Hub α)
    (hr : s.Ready n) (hs : s.Members H) (hstep : Hub.Step s o t) : t.Members (H ++ [o]) := by
  cases hstep with
  | begun p e hopen hidle =>
      refine hs.still H s _ _ (fun _ ho => (nomatch ho)) (fun _ ho => (nomatch ho)) rfl rfl
        (fun y hy h hh => ?_) (fun _ _ _ ho => (nomatch ho))
      rcases List.mem_append.mp hy with hold | hnew
      · exact Before.snoc _ _ H _ (hs.pending y hold h hh)
      -- The publish begins now, with the subscribers of this moment as its targets.
      · rw [List.mem_singleton.mp hnew] at hh ⊢
        exact before_last _ _ _ ((hs.subs h).mp hh).1
  | offered x h hx hh =>
      have hsame := (Broker.offer_open (x.number, x.event) h s.broker (hr.live n s x hx h hh)).2
      refine hs.still H s _ _ (fun _ ho => (nomatch ho)) (fun _ ho => (nomatch ho))
        hsame.subscribers hsame.spent (fun y hy k hk => ?_) (fun k h' sending ho => ?_)
      · rcases advance_origin _ _ _ y hy with ⟨z, hz, hp, hnum, he, hsub⟩
        rw [← hp, ← hnum, ← he]
        exact Before.snoc _ _ H _ (hs.pending z hz k (hsub.subset hk))
      · rw [Seen.offered.injEq] at ho
        rcases ho with ⟨rfl, rfl, _⟩
        exact ⟨x.publisher, x.event, hs.pending x hx h hh⟩
  | finished x hx hdone =>
      exact hs.still H s _ _ (fun _ ho => (nomatch ho)) (fun _ ho => (nomatch ho)) rfl rfl
        (fun y hy h hh => Before.snoc _ _ H _ (hs.pending y (List.mem_of_mem_filter hy) h hh))
        (fun _ _ _ ho => (nomatch ho))
  | subscribed h hlock hnew => exact hs.subscribed n H s hr h hlock hnew
  | unsubscribed h hlock hknown hfirst => exact hs.unsubscribed n H s hr h hlock hknown hfirst
  | repeated h hspent =>
      rw [Broker.unsubscribe_spent s.broker h hspent]
      exact hs.still H s _ _ (fun _ ho => (nomatch ho)) (fun _ ho => (nomatch ho)) rfl rfl
        (fun y hy h hh => Before.snoc _ _ H _ (hs.pending y hy h hh)) (fun _ _ _ ho => (nomatch ho))
  | received h m rest hbuf =>
      exact hs.still H s _ _ (fun _ ho => (nomatch ho)) (fun _ ho => (nomatch ho)) rfl rfl
        (fun y hy h hh => Before.snoc _ _ H _ (hs.pending y hy h hh)) (fun _ _ _ ho => (nomatch ho))

/-- Everything that is known along a run. -/
structure Hub.Known (n : Nat) (H : List (Seen α)) (s : Hub α) : Prop where
  ready : s.Ready n
  numbered : s.Numbered H
  queued : s.Queued H
  members : s.Members H

theorem Hub.run_known (n : Nat) (H : List (Seen α)) (s : Hub α)
    (hrun : Steps Hub.Step { broker := NewBroker (Nat × α) n } H s) : s.Known n H := by
  refine Steps.invariant (Hub.Known n · ·) _ ?_ ?_ H s hrun
  · exact ⟨Hub.start_ready n, Hub.start_numbered n, Hub.start_queued n, Hub.start_members n⟩
  · intro H s o t _ hs hstep
    exact ⟨Hub.step_ready n s o t hs.ready hstep, Hub.step_numbered H s o t hs.numbered hstep,
      Hub.step_queued n H s o t hs.ready hs.numbered hs.queued hstep,
      Hub.step_members n H s o t hs.ready hs.members hstep⟩

end Queues

section Results

variable {α : Type}

/-- An offer never panics, and is dropped exactly when `n` messages wait for
    the subscriber it is made to. -/
theorem Hub.offered_outcome (n : Nat) (H : List (Seen α)) (s : Hub α) (hs : s.Known n H)
    (k h : Nat) (sending : Sending) (t : Hub α) (hstep : Hub.Step s (.offered k h sending) t) :
    sending ≠ .panicked ∧
      (sending = .dropped ↔ (sentTo h H).length = (receivedBy h H).length + n) := by
  cases hstep with
  | offered x h hx hh =>
      have hfits := hs.ready.fits h
      -- By the flow equation the queue holds exactly what was sent and not received.
      have hlength : (sentTo h H).length =
          (receivedBy h H).length + (s.broker.chans h).buf.length := by
        rw [hs.queued.flow h, List.length_append, List.length_map, List.length_map]
      rcases Broker.offer_cases (x.number, x.event) h s.broker (hs.ready.live n s x hx h hh) with
        ⟨hroom, hsent, _⟩ | ⟨hfull, hdropped, _⟩
      · rw [hsent]
        rw [hs.ready.size] at hroom
        refine ⟨by decide, fun hd => (nomatch hd), fun hl => ?_⟩
        omega
      · rw [hdropped]
        rw [hs.ready.size] at hfull
        refine ⟨by decide, fun _ => ?_, fun _ => rfl⟩
        omega

/-- The publications in progress are told apart by their numbers. -/
theorem Hub.Ready.same_number (n : Nat) (s : Hub α) (hs : s.Ready n) (x y : Publication α)
    (hx : x ∈ s.publishing) (hy : y ∈ s.publishing) (hnum : x.number = y.number) : x = y :=
  List.inj_on_of_nodup_map hs.distinct hx hy hnum

/-- As long as a publish has not offered its event to a subscriber on its
    list, it is in progress with that subscriber left to do. -/
theorem Hub.pending_or_offered (n : Nat) (k h : Nat) (s : Hub α) (hs : s.Ready n)
    (hpending : ∃ x ∈ s.publishing, x.number = k ∧ h ∈ x.pending) (H : List (Seen α)) (t : Hub α)
    (hrun : Steps Hub.Step s H t) :
    t.Ready n ∧ ((∃ x ∈ t.publishing, x.number = k ∧ h ∈ x.pending) ∨
      ∃ sending, .offered k h sending ∈ H) := by
  -- The invariant along the run: the target still waits in the publish, or an offer to it
  -- is in the history.
  refine Steps.invariant (fun H t => t.Ready n ∧ ((∃ x ∈ t.publishing, x.number = k ∧
    h ∈ x.pending) ∨ ∃ sending, .offered k h sending ∈ H)) s ⟨hs, .inl hpending⟩ ?_ H t hrun
  rintro H t o u _ ⟨ht, hleft⟩ hstep
  refine ⟨Hub.step_ready n t o u ht hstep, ?_⟩
  rcases hleft with ⟨x, hx, hnum, hh⟩ | ⟨sending, hoff⟩
  · cases hstep with
    | begun p e hopen hidle => exact .inl ⟨x, List.mem_append_left _ hx, hnum, hh⟩
    | offered y h' hy hh' =>
        by_cases hxy : x.number = y.number
        · by_cases hhh : h = h'
          · subst hhh
            rw [← hnum, hxy]
            exact .inr ⟨_, List.mem_append_right _ (List.mem_singleton.mpr rfl)⟩
          · refine .inl ⟨{ x with pending := x.pending.erase h' }, ?_, hnum,
              (List.mem_erase_of_ne hhh).mpr hh⟩
            exact (mem_advance _ _ _ _).mpr ⟨x, hx, by rw [if_pos hxy]⟩
        · exact .inl ⟨x, (mem_advance _ _ _ _).mpr ⟨x, hx, by rw [if_neg hxy]⟩, hnum, hh⟩
    | finished y hy hdone =>
        -- Only a publish with no target left can end, and this one has.
        have hxy : x.number ≠ y.number := by
          intro heq
          rw [ht.same_number n t x y hx hy heq, hdone] at hh
          exact absurd hh List.not_mem_nil
        exact .inl ⟨x, List.mem_filter.mpr ⟨hx, by simpa using hxy⟩, hnum, hh⟩
    | subscribed h' hlock hnew => exact .inl ⟨x, hx, hnum, hh⟩
    | unsubscribed h' hlock hknown hfirst => exact .inl ⟨x, hx, hnum, hh⟩
    | repeated h' hspent => exact .inl ⟨x, hx, hnum, hh⟩
    | received h' m rest hbuf => exact .inl ⟨x, hx, hnum, hh⟩
  · exact .inr ⟨sending, List.mem_append_left _ hoff⟩

/-- A publish in progress returns by its own steps: one offer for each
    subscriber left, none of which waits for anybody, and the return. -/
theorem Hub.completes (n : Nat) (pending : List Nat) (s : Hub α) (hs : s.Ready n)
    (x : Publication α) (hx : x ∈ s.publishing) (hpending : x.pending = pending) :
    ∃ H t, Steps Hub.Step s H t ∧ H.length = pending.length + 1 ∧
      (∀ o ∈ H, o.ofPublish x.number) ∧ .finished x.number ∈ H := by
  -- On the targets left: each takes one offer, and the end takes one step more.
  induction pending generalizing s x with
  | nil =>
      refine ⟨[.finished x.number], _, Steps.single _ _ _ (.finished s x hx hpending), rfl, ?_,
        List.mem_singleton.mpr rfl⟩
      intro o ho
      rw [List.mem_singleton.mp ho]
      rfl
  | cons h rest ih =>
      have hh : h ∈ x.pending := by
        rw [hpending]
        exact List.mem_cons_self
      have hstep := Hub.Step.offered s x h hx hh
      have hfine := (Broker.offer_open (x.number, x.event) h s.broker (hs.live n s x hx h hh)).1
      have hnext : { x with pending := rest } ∈ advance x.number h s.publishing := by
        refine (mem_advance _ _ _ _).mpr ⟨x, hx, ?_⟩
        rw [if_pos rfl, hpending, List.erase_cons_head]
      rcases ih _ (Hub.step_ready n s _ _ hs hstep) { x with pending := rest } hnext rfl with
        ⟨H, t, hrun, hlength, hown, hdone⟩
      refine ⟨_, t, Steps.append _ _ _ _ _ (Steps.single _ _ _ hstep) hrun, ?_, ?_,
        List.mem_append_right _ hdone⟩
      · rw [List.length_append, List.length_singleton, hlength, List.length_cons]
        omega
      · intro o ho
        rcases List.mem_append.mp ho with ho | ho
        · rw [List.mem_singleton.mp ho]
          exact ⟨rfl, hfine⟩
        · exact hown o ho

/-- A publish that offered its event to a subscriber returned before that one
    unsubscribed. -/
theorem Hub.finished_first (n : Nat) (H : List (Seen α)) (s : Hub α)
    (hrun : Steps Hub.Step { broker := NewBroker (Nat × α) n } H s) (k h : Nat)
    (sending : Sending) (hoff : .offered k h sending ∈ H) (A B : List (Seen α))
    (hH : H = A ++ .unsubscribed h :: B) : .finished k ∈ A := by
  subst hH
  rcases Steps.cut _ A _ B s hrun with ⟨t, t', hpre, hun, hpost⟩
  have ht := Hub.run_known n A t hpre
  have hlock : t.publishing = [] := by
    cases hun with
    | unsubscribed h hlock hknown hfirst => exact hlock
  -- The offer comes before, because afterwards the subscriber is gone.
  have hbefore : .offered k h sending ∈ A := by
    rcases List.mem_append.mp hoff with hoff | hoff
    · exact hoff
    · rcases List.append_of_mem hoff with ⟨B₁, B₂, hB⟩
      cases B₁ with
      | nil =>
          rw [List.nil_append, List.cons.injEq] at hB
          exact (nomatch hB.1)
      | cons o B₁ =>
          rw [List.cons_append, List.cons.injEq] at hB
          have hwhole : A ++ .unsubscribed h :: B =
              (A ++ .unsubscribed h :: B₁) ++ .offered k h sending :: B₂ := by
            rw [hB.2]
            simp
          rw [hwhole] at hrun
          rcases Steps.cut _ _ _ _ s hrun with ⟨u, u', hpre', hoffer, _⟩
          have hu := Hub.run_known n _ u hpre'
          have hgone : .unsubscribed h ∈ A ++ .unsubscribed h :: B₁ := by simp
          cases hoffer with
          | offered x h hx hh =>
              exact absurd hgone ((hu.members.subs h).mp (hu.ready.pending x hx h hh)).2
  rcases ht.numbered.settled k (ht.queued.tried k h sending hbefore) with ⟨x, hx, _⟩ | hdone
  · rw [hlock] at hx
    exact absurd hx List.not_mem_nil
  · exact hdone

/-- A publish that took place while a subscriber was subscribed has offered it
    its event. -/
theorem Hub.wholly_offered (n : Nat) (H : List (Seen α)) (s : Hub α)
    (hrun : Steps Hub.Step { broker := NewBroker (Nat × α) n } H s) (h p k : Nat) (e : α)
    (hwholly : Wholly H h p k e) : ∃ sending, .offered k h sending ∈ H := by
  rcases hwholly with ⟨A, B, C, rfl, hsub, hun⟩
  -- Cut the run where the publish begins: the reader is subscribed there, so it is a
  -- target.
  rcases Steps.cut _ A _ _ s hrun with ⟨t, t', hpre, hbegin, hpost⟩
  have ht := Hub.run_known n A t hpre
  have hmember : h ∈ t.broker.subscribers :=
    (ht.members.subs h).mpr ⟨hsub, fun hA => hun (List.mem_append_left _ hA)⟩
  have ht' := Hub.step_ready n t _ t' ht.ready hbegin
  have hstart : ∃ x ∈ t'.publishing, x.number = k ∧ h ∈ x.pending := by
    cases hbegin with
    | begun p e hopen hidle =>
        exact ⟨_, List.mem_append_right _ (List.mem_singleton.mpr rfl), rfl, hmember⟩
  -- Cut again where the publish ends: by then no target is left waiting.
  rcases Steps.cut _ B _ C s hpost with ⟨u, u', hmid, hfinish, _⟩
  rcases (Hub.pending_or_offered n k h t' ht' hstart B u hmid) with
    ⟨hu, ⟨x, hx, hnum, hh⟩ | ⟨sending, hoff⟩⟩
  · cases hfinish with
    | finished y hy hdone =>
        rw [hu.same_number n u x y hx hy hnum, hdone] at hh
        exact absurd hh List.not_mem_nil
  · refine ⟨sending, List.mem_append_right _ (List.mem_cons_of_mem _ ?_)⟩
    exact List.mem_append_left _ hoff

/-- Broker delivery. In every run: a subscriber receives each publish at most
    once; what it receives was published after it had subscribed, by a publish
    that returned before it unsubscribed; the events of one publisher arrive in
    the order they were published; an event published wholly while it was
    subscribed has arrived or waits for it, or was dropped at a moment when
    exactly `n` messages waited for it; an offer is dropped in no other case,
    whatever the other subscribers do, and none panics; and no publish has to
    wait, neither to begin nor to return. -/
theorem broker_delivery (n : Nat) (H : List (Seen α)) (s : Hub α) (hrun : Hub.Run n H s) :
    (∀ h, ((receivedBy h H).map Prod.fst).Nodup) ∧
    (∀ h k e, .received h k e ∈ H → ∃ p, Before (.subscribed h) (.begun p k e) H ∧
      ∀ A B, H = A ++ .unsubscribed h :: B → .finished k ∈ A) ∧
    (∀ h, (receivedBy h H).Pairwise (fun m m' => ∀ p, .begun p m.1 m.2 ∈ H →
      .begun p m'.1 m'.2 ∈ H → Before (.begun p m.1 m.2) (.begun p m'.1 m'.2) H)) ∧
    (∀ h p k e, Wholly H h p k e →
      (k, e) ∈ receivedBy h H ∨ (k, e) ∈ (s.broker.chans h).buf ∨
        ∃ A B, H = A ++ .offered k h .dropped :: B ∧
          (sentTo h A).length = (receivedBy h A).length + n) ∧
    (∀ k h sending A B, H = A ++ .offered k h sending :: B → sending ≠ .panicked ∧
      (sending = .dropped ↔ (sentTo h A).length = (receivedBy h A).length + n)) ∧
    (∀ p e, (∀ x ∈ s.publishing, x.publisher ≠ p) → ∃ t, Hub.Step s (.begun p s.published e) t) ∧
    ∀ x ∈ s.publishing, ∃ H' t, Steps Hub.Step s H' t ∧ H'.length = x.pending.length + 1 ∧
      (∀ o ∈ H', o.ofPublish x.number) ∧ .finished x.number ∈ H' := by
  have hs := Hub.run_known n H s hrun.2
  have houtcome : ∀ k h sending A B, H = A ++ .offered k h sending :: B → sending ≠ .panicked ∧
      (sending = .dropped ↔ (sentTo h A).length = (receivedBy h A).length + n) := by
    rintro k h sending A B rfl
    rcases Steps.cut _ A _ B s hrun.2 with ⟨t, t', hpre, hoffer, _⟩
    exact Hub.offered_outcome n A t (Hub.run_known n A t hpre) k h sending t' hoffer
  have hsentTo : ∀ h m, m ∈ receivedBy h H → .offered m.1 h .sent ∈ H := by
    intro h m hm
    rw [← mem_sentTo, hs.queued.flow h]
    exact List.mem_append_left _ (List.mem_map_of_mem hm)
  refine ⟨fun h => ?_, fun h k e hk => ?_, fun h => ?_, fun h p k e hwholly => ?_, houtcome,
    fun p e hidle => ⟨_, .begun s p e hs.ready.opened hidle⟩,
    fun x hx => Hub.completes n x.pending s hs.ready x hx rfl⟩
  -- What was received was sent, so it inherits what is known of the queue.
  · have hnodup := hs.queued.nodup h
    rw [hs.queued.flow h] at hnodup
    exact (List.nodup_append.mp hnodup).1
  · have hm : (k, e) ∈ receivedBy h H := (mem_receivedBy h (k, e) H).mpr hk
    have hoff := hsentTo h (k, e) hm
    rcases hs.members.after k h .sent hoff with ⟨p, e', hbefore⟩
    rcases hs.queued.content h (k, e) (.inl hm) with ⟨p', hbegun⟩
    have hin : .begun p k e' ∈ H := by
      rcases hbefore with ⟨A, B, C, rfl⟩
      simp
    -- The publish of this number is the one the message came from.
    rcases hs.numbered.unique k p e' p' e hin hbegun with ⟨rfl, rfl⟩
    exact ⟨p, hbefore, fun A B hH => Hub.finished_first n H s hrun.2 k h .sent hoff A B hH⟩
  · have horder := hs.queued.inOrder h
    rw [hs.queued.flow h] at horder
    refine (List.pairwise_map.mp (List.pairwise_append.mp horder).1).imp ?_
    intro m m' hlt p hb hb'
    exact hs.numbered.ordered p m.1 m.2 p m'.1 m'.2 hb hb' (hlt p m.2 m'.2 hb hb')
  -- A publish that took place wholly within the subscription was offered to it.
  · rcases Hub.wholly_offered n H s hrun.2 h p k e hwholly with ⟨sending, hoff⟩
    rcases List.append_of_mem hoff with ⟨A, B, hH⟩
    cases sending with
    | panicked => exact absurd rfl (houtcome k h _ A B hH).1
    | dropped => exact .inr (.inr ⟨A, B, hH, (houtcome k h _ A B hH).2.mp rfl⟩)
    | sent =>
        have hbegun : .begun p k e ∈ H := by
          rcases hwholly with ⟨A', B', C', hH', _⟩
          rw [hH']
          simp
        -- What was sent under this number is the event of this publish.
        have hsame : ∀ m, m ∈ receivedBy h H ∨ m ∈ (s.broker.chans h).buf → m.1 = k →
            m = (k, e) := by
          intro m hm hk
          rcases hs.queued.content h m hm with ⟨p', hp'⟩
          rw [hk] at hp'
          exact Prod.ext hk (hs.numbered.unique k p' m.2 p e hp' hbegun).2
        rw [← mem_sentTo, hs.queued.flow h, List.mem_append, List.mem_map, List.mem_map] at hoff
        rcases hoff with ⟨m, hm, hk⟩ | ⟨m, hm, hk⟩
        · rw [← hsame m (.inl hm) hk]
          exact .inl hm
        · rw [← hsame m (.inr hm) hk]
          exact .inr (.inl hm)

/-- Two publishes to a subscriber with room for one event, who then receives
    the first and has missed the second. -/
def missedHistory : List (Seen Bool) :=
  [.subscribed 0, .begun 7 0 true, .offered 0 0 .sent, .finished 0, .begun 7 1 false,
    .offered 1 0 .dropped, .finished 1, .received 0 0 true]

theorem missedHistory_run : ∃ s, Hub.Run 1 missedHistory s :=
  ⟨_, Nat.le_refl 1,
    Steps.cons _ _ _ _ _ (.subscribed _ 0 rfl rfl) <|
    Steps.cons _ _ _ _ _ (.begun _ 7 true rfl (fun _ hx => (List.not_mem_nil hx).elim)) <|
    Steps.cons _ _ _ _ _ (.offered _ ⟨7, 0, true, [0]⟩ 0 List.mem_cons_self List.mem_cons_self) <|
    Steps.cons _ _ _ _ _ (.finished _ ⟨7, 0, true, []⟩ List.mem_cons_self rfl) <|
    Steps.cons _ _ _ _ _ (.begun _ 7 false rfl (fun _ hx => (List.not_mem_nil hx).elim)) <|
    Steps.cons _ _ _ _ _ (.offered _ ⟨7, 1, false, [0]⟩ 0 List.mem_cons_self List.mem_cons_self) <|
    Steps.cons _ _ _ _ _ (.finished _ ⟨7, 1, false, []⟩ List.mem_cons_self rfl) <|
    Steps.single _ _ _ (.received _ 0 (0, true) [] rfl)⟩

theorem broker_delivery_missed :
    ∃ s, Hub.Run 1 missedHistory s ∧ Wholly missedHistory 0 7 1 false ∧
      ((1, false) ∈ receivedBy 0 missedHistory ∨ (1, false) ∈ (s.broker.chans 0).buf ∨
        ∃ A B, missedHistory = A ++ .offered 1 0 .dropped :: B ∧
          (sentTo 0 A).length = (receivedBy 0 A).length + 1) := by
  rcases missedHistory_run with ⟨s, hrun⟩
  have hwholly : Wholly missedHistory 0 7 1 false :=
    ⟨missedHistory.take 4, [.offered 1 0 .dropped], [.received 0 0 true], rfl, by decide, by decide⟩
  exact ⟨s, hrun, hwholly, (broker_delivery 1 missedHistory s hrun).2.2.2.1 0 7 1 false hwholly⟩

end Results

end Cuttlegate
