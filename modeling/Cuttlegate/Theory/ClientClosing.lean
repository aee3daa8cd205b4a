import Cuttlegate.Sdk.CachedClient

/-!
# Closing a Cached Client

Whether `close` is final for the JavaScript client, and what becomes of
`ready`.

The hydration goes through at most four continuations and settles `ready` with
the last one, whichever way it takes; a refused token ends it at once. All but
two of the continuations ask whether the client has been closed. One of the
others reads a body that has failed, as it does when the client is closed
meanwhile, and turns to the store; the other one takes the answer of the
store, fills the cache from it and resolves `ready`, or rejects it with the
error that led there.

So after `close` nothing reaches the cache, the store or a subscriber, and
`ready` is rejected for the close, exactly as long as the store does not answer
after `close`.

## Main definitions

* `settlements`: How often `ready` is settled.
* `ClosesFinally`: `ready` and `close` keep their promises along a run.
* `LoadsBeforeClose`: The store does not answer after `close`.
* `Tracked`: What the client knows of the events so far.

## Theorems

* `CachedClient.Does.settles`: A step settles `ready` if it ends the hydration.
* `Tracked.step`: One step keeps what the client knows.
* `closesFinally_iff`: When `close` is final.
-/

namespace Cuttlegate.Sdk.Js

/-- Whether an effect is an outcome of `ready`. -/
def Effect.settles : Effect → Bool
  | .resolveReady | .rejectReady _ => true
  | _ => false

/-- Whether an effect reaches the cache, the store or a subscriber. -/
def Effect.touches : Effect → Bool
  | .write | .save _ | .call _ _ _ => true
  | _ => false

/-- How often `ready` is settled. -/
def settlements (H : List Observed) : Nat := (H.flatMap (·.effects)).countP Effect.settles

/-- Whether an event is a continuation of the hydration. -/
def Event.hydrates : Event → Bool
  | .bodyFailed | .loaded _ => true
  | e => e.asks

/-- How many continuations the hydration can still go through. -/
def Awaits.rank : Awaits → Nat
  | .response => 4
  | .body => 3
  | .handler _ => 2
  | .store _ => 1
  | .nothing => 0

/-- A step that touches nothing and rejects `ready` only for the close. -/
structure Observed.Idle (o : Observed) : Prop where
  cache : o.after.cache = o.before.cache
  touches : ∀ a ∈ o.effects, a.touches = false
  settles : ∀ a ∈ o.effects, a.settles = true → ∃ message, a = .rejectReady ⟨"closed", message⟩

/-- `ready` is settled once, by the last continuation of the hydration, of which
    there are at most four; after `close` nothing is touched and `ready` is
    rejected for it; and a token that is refused for the hydration rejects
    `ready`, and the store is not asked. -/
structure ClosesFinally (H : List Observed) (s : CachedClient) : Prop where
  settles : settlements H = if s.awaits = .nothing then 1 else 0
  hydrates : (events H).countP Event.hydrates + s.awaits.rank ≤ 4
  closes : Throughout (fun P o => .close ∈ events P → o.Idle) H
  refused : ∀ o ∈ H, o.event.refused = true →
    (∃ err, .rejectReady err ∈ o.effects) ∧ ∀ o' ∈ H, .load ∉ o'.effects

/-- The store does not answer after `close`. -/
def LoadsBeforeClose : List Observed → Prop :=
  Throughout (fun P o => .close ∈ events P → ∀ entries, o.event ≠ .loaded entries)

/-! ## What a step settles and touches -/

theorem Effect.settles_of_touches (a : Effect) (h : a.touches = true) : a.settles = false := by
  cases a with
  | write | save entries | call callback key enabled => rfl
  | _ => cases h

theorem Effect.settles_of_reports (a : Effect) (h : a.reports = true) :
    a.settles = false ∧ a.touches = false ∧ a ≠ .load := by
  cases a with
  | request | onError err => exact ⟨rfl, rfl, by simp⟩
  | _ => cases h

theorem Event.hydrates_of_aside (e : Event) (h : e.aside = true) : e.hydrates = false := by
  cases e with
  | response status | failed cause | body json | bodyFailed | handled | loaded entries => cases h
  | _ => rfl

theorem countP_settles_zero (effects : List Effect) (h : ∀ a ∈ effects, a.settles = false) :
    effects.countP Effect.settles = 0 := by
  rw [List.countP_eq_zero]
  intro a ha hsettles
  rw [h a ha] at hsettles
  cases hsettles

theorem events_hydrates (P : List Observed) (o : Observed) :
    (events (P ++ [o])).countP Event.hydrates =
      (events P).countP Event.hydrates + if o.event.hydrates then 1 else 0 := by
  rw [events_snoc, List.countP_append, List.countP_singleton]

theorem settlements_snoc (P : List Observed) (o : Observed) :
    settlements (P ++ [o]) = settlements P + o.effects.countP Effect.settles := by
  simp [settlements]

namespace CachedClient

variable (s : CachedClient)

/-- Applying events touches things, and does nothing else. -/
theorem applyCacheEvent_touches (event : WireEvent) :
    ∀ a ∈ (s.applyCacheEvent event).2, a.touches = true := by
  unfold applyCacheEvent
  cases s.cache event.flagKey with
  | none => simp
  | some r =>
      intro a ha
      simp only [List.mem_cons, List.mem_map] at ha
      rcases ha with rfl | rfl | ⟨cb, _, rfl⟩
      · rfl
      · rfl
      · rfl

theorem drain_touches (events : List WireEvent) :
    ∀ a ∈ (s.drain events).2, a.touches = true := by
  induction events generalizing s with
  | nil => simp [drain]
  | cons event events ih =>
      intro a ha
      rcases List.mem_append.mp ha with ha | ha
      · exact s.applyCacheEvent_touches event a ha
      · exact ih _ a ha

variable {s}

/-- The effects of a completed hydration. -/
theorem settles_hydrated (json : Body) (entries : Cache (Option String)) :
    List.countP Effect.settles (.write :: ((s.filled json).drain s.sseBuffer).2 ++
      [.save entries, .resolveReady]) = 1 := by
  have hdrain : ((s.filled json).drain s.sseBuffer).2.countP Effect.settles = 0 :=
    countP_settles_zero _ (fun a ha => a.settles_of_touches (drain_touches _ _ a ha))
  rw [List.countP_append, List.countP_cons_of_neg (by simp [Effect.settles]), hdrain]
  rfl

/-- A step settles `ready` if and only if it ends the hydration, and then once. -/
theorem Does.settles (e : Event) (p : CachedClient × List Effect) (h : s.Does e p) :
    p.2.countP Effect.settles + (if s.awaits = .nothing then 1 else 0) =
      if p.1.awaits = .nothing then 1 else 0 := by
  -- A settling step leaves a state that awaits something for one that awaits nothing, so
  -- the count and the indicator move together.
  cases h with
  | abandoned e he hw hr hc => rw [if_neg hw]; rfl
  | refused status he hw hc => simp [hw, failHydration, Effect.settles]
  | fallback e err he hl hw hstore hc hcode => rw [if_neg hw]; rfl
  | reading status he hw hc => simp [hw]
  | thrown json message hw hc => simp [hw, Effect.settles]
  | hydrated json hw hc => rw [settles_hydrated, hw]; rfl
  | restored entries err hw hsome => simp [hw, Effect.settles]
  | lost entries err hw hnone => simp [hw, failHydration, Effect.settles]
  | buffered event hc hh => rw [List.countP_nil, Nat.zero_add]
  | applied event hc hh =>
      rw [countP_settles_zero _ (fun a ha =>
        a.settles_of_touches (s.applyCacheEvent_touches event a ha)), Nat.zero_add,
        applyCacheEvent_fst]
  | rehydrated i json left hc => rw [List.countP_cons_of_neg (by simp [Effect.settles])]; simp
  | aside e left effects he hc hreports =>
      rw [countP_settles_zero _ (fun a ha => (a.settles_of_reports (hreports a ha)).1),
        Nat.zero_add]
  | subscribe key callback => rw [List.countP_nil, Nat.zero_add]; rfl
  | unsubscribe key callback => rw [List.countP_nil, Nat.zero_add]; rfl
  | close streaming => rw [List.countP_nil, Nat.zero_add]

/-- A continuation of the hydration brings it closer to its end. -/
theorem Does.hydrates (e : Event) (p : CachedClient × List Effect) (h : s.Does e p) :
    (if e.hydrates then 1 else 0) + p.1.awaits.rank ≤ s.awaits.rank := by
  -- The rank falls with every continuation; the other steps keep what is awaited.
  cases h with
  | abandoned e he hw hr hc =>
      cases hs : s.awaits with
      | nothing => exact absurd hs hw
      | _ => cases he : e.hydrates <;> simp [rejectClosed, Awaits.rank]
  | refused status he hw hc =>
      rw [hw]
      simp [Awaits.rank, Event.hydrates, Event.asks, failHydration]
  | fallback e err he hl hw hstore hc hcode =>
      cases hs : s.awaits with
      | nothing => exact absurd hs hw
      | store err' => exact absurd hs (hstore err')
      | _ => cases he : e.hydrates <;> simp [tryStoreFallback, Awaits.rank]
  | reading status he hw hc =>
      rw [hw]
      simp [Awaits.rank, Event.hydrates, Event.asks]
  | thrown json message hw hc =>
      rw [hw]
      simp [Awaits.rank, Event.hydrates, Event.asks]
  | hydrated json hw hc =>
      rw [hw]
      simp [Awaits.rank, Event.hydrates, Event.asks]
  | restored entries err hw hsome =>
      rw [hw]
      simp [Awaits.rank, Event.hydrates]
  | lost entries err hw hnone =>
      rw [hw]
      simp [Awaits.rank, Event.hydrates, failHydration]
  | applied event hc hh => simp [Event.hydrates, Event.asks]
  | aside e left effects he hc hreports =>
      rw [e.hydrates_of_aside he]
      exact Nat.le_of_eq (Nat.zero_add _)
  | _ => exact Nat.le_of_eq (Nat.zero_add _)

/-- A step of a client that has been closed is idle, unless the store answers. -/
theorem Does.idle_iff (e : Event) (p : CachedClient × List Effect) (h : s.Does e p)
    (hclosed : s.closed = true) (hcode : ∀ err, s.awaits = .store err → err.code ≠ "closed") :
    Observed.Idle ⟨s, e, p.2, p.1⟩ ↔ ∀ entries, e ≠ .loaded entries := by
  cases h with
  | abandoned e he hw hr hc =>
      refine iff_of_true ⟨rfl, by simp [rejectClosed, Effect.touches], fun a ha _ => ?_⟩ ?_
      · exact ⟨_, List.mem_singleton.mp ha⟩
      · rintro entries rfl
        cases he
  | refused status he hw hc => exact absurd (hc.symm.trans hclosed) (by decide)
  | fallback e err he hl hw hstore hc hcode' =>
      refine iff_of_true ⟨rfl, by simp [tryStoreFallback, Effect.touches],
        by simp [tryStoreFallback, Effect.settles]⟩ ?_
      rintro entries rfl
      rcases hl with hl | hl
      · cases hl
      · cases hl
  | reading status he hw hc => exact absurd (hc.symm.trans hclosed) (by decide)
  | thrown json message hw hc => exact absurd (hc.symm.trans hclosed) (by decide)
  | hydrated json hw hc => exact absurd (hc.symm.trans hclosed) (by decide)
  -- The store answers after the close: either the cache is written, or `ready` is rejected
  -- with an error that is not the one of the close.
  | restored entries err hw hsome =>
      refine iff_of_false (fun hidle => ?_) (fun h => h _ rfl)
      have hwrite := hidle.touches .write List.mem_cons_self
      cases hwrite
  | lost entries err hw hnone =>
      refine iff_of_false (fun hidle => ?_) (fun h => h _ rfl)
      rcases hidle.settles (.rejectReady err) List.mem_cons_self rfl with ⟨message, heq⟩
      rw [Effect.rejectReady.injEq] at heq
      exact hcode err hw (by rw [heq])
  | buffered event hc hh => exact absurd (hc.symm.trans hclosed) (by decide)
  | applied event hc hh => exact absurd (hc.symm.trans hclosed) (by decide)
  | rehydrated i json left hc => exact absurd (hc.symm.trans hclosed) (by decide)
  | aside e left effects he hc hreports =>
      refine iff_of_true ⟨rfl, fun a ha => (a.settles_of_reports (hreports a ha)).2.1,
        fun a ha hsettles => ?_⟩ ?_
      · rw [(a.settles_of_reports (hreports a ha)).1] at hsettles
        cases hsettles
      · rintro entries rfl
        cases he
  | subscribe key callback => exact iff_of_true ⟨rfl, by simp, by simp⟩ (by simp)
  | unsubscribe key callback => exact iff_of_true ⟨rfl, by simp, by simp⟩ (by simp)
  | close streaming => exact iff_of_true ⟨rfl, by simp, by simp⟩ (by simp)

/-- Where a step leaves the hydration: where it was, with the store, or further
    on without having asked the store. -/
inductive Moves (s : CachedClient) (e : Event) (p : CachedClient × List Effect) : Prop
  | stays (hw : p.1.awaits = s.awaits) (hload : .load ∉ p.2) (he : e.refused = false)
  | asks (err : CuttlegateError) (hw : p.1.awaits = .store err) (hcode : err.code ≠ "closed")
      (hwas : s.awaits ≠ .nothing) (he : e.refused = false)
  | goes (hwas : s.awaits ≠ .nothing) (hload : .load ∉ p.2) (hw : p.1.awaits ≠ .response)
      (hstore : ∀ err, p.1.awaits ≠ .store err)
      (he : e.refused = true → s.awaits = .response ∧ p.1.awaits = .nothing ∧
        ∃ err, .rejectReady err ∈ p.2)

theorem load_of_touches (effects : List Effect) (h : ∀ a ∈ effects, a.touches = true) :
    .load ∉ effects := by
  intro hload
  have htouches := h .load hload
  cases htouches

theorem Does.moves (e : Event) (p : CachedClient × List Effect) (h : s.Does e p) :
    Moves s e p := by
  cases h with
  | abandoned e he hw hr hc =>
      exact .goes hw (by simp [rejectClosed]) (by simp [rejectClosed]) (by simp [rejectClosed])
        (fun hrefused => ⟨hr hrefused, rfl, _, List.mem_cons_self⟩)
  | refused status he hw hc =>
      exact .goes (by simp [hw]) (by simp [failHydration]) (by simp [failHydration])
        (by simp [failHydration]) (fun _ => ⟨hw, rfl, _, List.mem_cons_self⟩)
  -- Only the fallback asks the store.
  | fallback e err he hl hw hstore hc hcode => exact .asks err rfl hcode hw he
  | reading status he hw hc =>
      exact .goes (by simp [hw]) (by simp) (by simp) (by simp)
        (fun hrefused => absurd (he.symm.trans hrefused) (by decide))
  | thrown json message hw hc =>
      exact .goes (by simp [hw]) (by simp) (by simp) (by simp) (by simp [Event.refused])
  | hydrated json hw hc =>
      refine .goes (by simp [hw]) ?_ (by simp) (by simp) (by simp [Event.refused])
      have hdrain := load_of_touches _ (drain_touches (s.filled json) s.sseBuffer)
      simpa using hdrain
  | restored entries err hw hsome =>
      exact .goes (by simp [hw]) (by simp) (by simp) (by simp) (by simp [Event.refused])
  | lost entries err hw hnone =>
      exact .goes (by simp [hw]) (by simp [failHydration]) (by simp [failHydration])
        (by simp [failHydration]) (by simp [Event.refused])
  | applied event hc hh =>
      refine .stays ?_ (load_of_touches _ (s.applyCacheEvent_touches event)) rfl
      rw [applyCacheEvent_fst]
  | aside e left effects he hc hreports =>
      refine .stays rfl (fun hload => ?_) ?_
      · exact (Effect.settles_of_reports _ (hreports _ hload)).2.2 rfl
      · cases e with
        | response status => cases he
        | _ => rfl
  | buffered | rehydrated | subscribe | unsubscribe | close => exact .stays rfl (by simp) rfl

/-- A client that is closed stays so. -/
theorem Does.closed (e : Event) (p : CachedClient × List Effect) (h : s.Does e p)
    (hc : e = .close ∨ s.closed = true) : p.1.closed = true := by
  cases h with
  | refused | lost | close => rfl
  | applied event =>
      rw [applyCacheEvent_fst]
      exact hc.resolve_left (by simp)
  | aside e left effects he hbody hreports =>
      refine hc.resolve_left ?_
      rintro rfl
      cases he
  | abandoned e he hw hr hclosed => exact hclosed
  | fallback e err he hl =>
      refine hc.resolve_left ?_
      rintro rfl
      rcases hl with hl | hl
      · cases hl
      · cases hl
  | _ => exact hc.resolve_left (by simp)

end CachedClient

/-! ## Runs -/

/-- What the client knows of the events so far. -/
structure Tracked (P : List Observed) (s : CachedClient) : Prop where
  closed : .close ∈ events P → s.closed = true
  code : ∀ err, s.awaits = .store err → err.code ≠ "closed"
  settles : settlements P = if s.awaits = .nothing then 1 else 0
  hydrates : (events P).countP Event.hydrates + s.awaits.rank ≤ 4
  fresh : s.awaits = .response → ∀ o ∈ P, o.event.refused = false ∧ .load ∉ o.effects
  refused : ∀ o ∈ P, o.event.refused = true → s.awaits = .nothing ∧
    (∃ err, .rejectReady err ∈ o.effects) ∧ ∀ o' ∈ P, .load ∉ o'.effects

theorem tracked_begin : Tracked [] {} where
  closed h := absurd h List.not_mem_nil
  code _ h := nomatch h
  settles := rfl
  hydrates := Nat.le_refl 4
  fresh _ _ h := absurd h List.not_mem_nil
  refused _ h := absurd h List.not_mem_nil

/-- One step keeps what the client knows of refusals. -/
theorem Tracked.refused_snoc (P : List Observed) (s : CachedClient) (h : Tracked P s)
    (o : Observed) (hmoves : s.Moves o.event (o.after, o.effects)) :
    ∀ o₁ ∈ P ++ [o], o₁.event.refused = true → o.after.awaits = .nothing ∧
      (∃ err, .rejectReady err ∈ o₁.effects) ∧ ∀ o₂ ∈ P ++ [o], .load ∉ o₂.effects := by
  intro o₁ ho₁ hrefused
  rcases List.mem_append.mp ho₁ with hP | hlast
  · -- An earlier refusal has ended the hydration.
    rcases h.refused o₁ hP hrefused with ⟨hended, hreject, hloads⟩
    cases hmoves with
    | stays hw hload he =>
        refine ⟨hw.trans hended, hreject, fun o₂ ho₂ => ?_⟩
        rcases List.mem_append.mp ho₂ with ho₂ | ho₂
        · exact hloads o₂ ho₂
        · rw [List.mem_singleton.mp ho₂]
          exact hload
    | asks err hw hcode hwas he => exact absurd hended hwas
    | goes hwas hload hw hstore he => exact absurd hended hwas
  · -- The refusal is the last event: it ends the hydration, and nothing was loaded before it.
    rw [List.mem_singleton.mp hlast] at hrefused ⊢
    cases hmoves with
    | stays hw hload he => exact absurd (he.symm.trans hrefused) (by decide)
    | asks err hw hcode hwas he => exact absurd (he.symm.trans hrefused) (by decide)
    | goes hwas hload hw hstore he =>
        rcases he hrefused with ⟨hresponse, hended, hreject⟩
        refine ⟨hended, hreject, fun o₂ ho₂ => ?_⟩
        rcases List.mem_append.mp ho₂ with ho₂ | ho₂
        · exact (h.fresh hresponse o₂ ho₂).2
        · rw [List.mem_singleton.mp ho₂]
          exact hload

theorem Tracked.step (P : List Observed) (s : CachedClient) (h : Tracked P s) (o : Observed)
    (hdoes : s.Does o.event (o.after, o.effects)) : Tracked (P ++ [o]) o.after where
  closed hclose := by
    rw [events_snoc, List.mem_append, List.mem_singleton] at hclose
    exact hdoes.closed _ _ (hclose.symm.imp Eq.symm h.closed)
  code err herr := by
    cases hdoes.moves with
    | stays hw hload he => exact h.code err (hw.symm.trans herr)
    | asks err' hw hcode hwas he =>
        cases hw.symm.trans herr
        exact hcode
    | goes hwas hload hw hstore he => exact absurd herr (hstore err)
  settles := by
    rw [settlements_snoc, h.settles, Nat.add_comm]
    exact hdoes.settles
  hydrates := by
    have hsofar := h.hydrates
    have hrank : (if o.event.hydrates then 1 else 0) + o.after.awaits.rank ≤ s.awaits.rank :=
      hdoes.hydrates
    rw [events_hydrates]
    omega
  fresh hresponse o' ho' := by
    cases hdoes.moves with
    | stays hw hload he =>
        rcases List.mem_append.mp ho' with ho' | ho'
        · exact h.fresh (hw.symm.trans hresponse) o' ho'
        · rw [List.mem_singleton.mp ho']
          exact ⟨he, hload⟩
    | asks err hw hcode hwas he => exact absurd (hw.symm.trans hresponse) (by simp)
    | goes hwas hload hw hstore he => exact absurd hresponse hw
  refused := h.refused_snoc P s o hdoes.moves

/-- In every run, `close` is final and `ready` is settled as it should be if and
    only if the store never answers after the close. -/
theorem closesFinally_iff (timeout : Nat) (H : List Observed) (s : CachedClient)
    (h : Steps (Observes timeout) {} H s) : ClosesFinally H s ↔ LoadsBeforeClose H := by
  have htracked : Tracked H s := by
    refine Steps.invariant Tracked {} tracked_begin ?_ H s h
    rintro P s o t hrun hbefore ⟨rfl, rfl, hstep⟩
    exact hbefore.step P _ o (CachedClient.does_of_step _ timeout _ _ hstep)
  have hcloses : Throughout (fun P o => .close ∈ events P → o.Idle) H ↔ LoadsBeforeClose H := by
    refine Steps.throughout_iff _ _ Tracked {} tracked_begin ?_ H s h
    rintro P s o t hrun hbefore ⟨rfl, rfl, hstep⟩
    have hdoes := CachedClient.does_of_step _ timeout _ _ hstep
    refine ⟨forall_congr' (fun hclose => ?_), fun _ => hbefore.step P _ o hdoes⟩
    exact hdoes.idle_iff _ _ (hbefore.closed hclose) hbefore.code
  refine ⟨fun hfinal => hcloses.mp hfinal.closes, fun hloads => ?_⟩
  exact ⟨htracked.settles, htracked.hydrates, hcloses.mpr hloads,
    fun o ho hrefused => (htracked.refused o ho hrefused).2⟩

/-- The request is refused a connection, the store is asked, the consumer closes
    the client, and the store answers. -/
def lateAnswer : List Event :=
  [.failed (.error "fetch failed"), .close,
    .loaded (some [⟨"dark-mode", true, none, "true", "default", ""⟩])]

/-- The late answer fills the cache of the closed client and resolves `ready`. -/
theorem close_not_final :
    ¬ ∀ timeout H s, Steps (Observes timeout) {} H s → ClosesFinally H s := by
  intro hall
  rcases hrun : observe 5000 {} lateAnswer with _ | ⟨H, s⟩
  · cases hrun
  · have hfinal := hall 5000 H s (observe_steps 5000 {} lateAnswer H s hrun)
    cases hrun
    have hidle := hfinal.closes [_, _] _ [] rfl (by simp [events])
    exact absurd (hidle.touches .write List.mem_cons_self) (by decide)

/-- A request that is aborted by the close rejects `ready` for it. -/
theorem closesFinally_aborted :
    ∃ H s, observe 5000 {} [.close, .failed .aborted] = some (H, s) ∧ ClosesFinally H s := by
  have hrun := observe_steps 5000 {} [.close, .failed .aborted] _ _ rfl
  refine ⟨_, _, rfl, (closesFinally_iff 5000 _ _ hrun).mpr ?_⟩
  refine throughout_of_forall _ _ (fun o ho _ _ entries => ?_)
  simp only [List.mem_cons, List.not_mem_nil, or_false] at ho
  rcases ho with rfl | rfl
  · exact Event.noConfusion
  · exact Event.noConfusion

end Cuttlegate.Sdk.Js
