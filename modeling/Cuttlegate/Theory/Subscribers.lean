import Cuttlegate.Sdk.CachedClient

/-!
# Subscribers of a Cached Client

Whether the subscribers of a flag always know the state of the flag in the
cache of the JavaScript client.

The cache is written to in three ways. The hydration fills it, and whoever has
subscribed by then reads it when `ready` resolves, unless an event in the
buffer has been applied and the subscriber been called. An event changes one
record and calls the subscribers of its flag. A re-hydration replaces the whole
cache and calls nobody.

So subscribers stay informed along a run exactly if no re-hydration changes the
state of a flag that has subscribers, and a flag that is not in the cache
counts as disabled.

## Main definitions

* `Cache.enabledOf`: The state of a flag in the cache.
* `Observed.holds`, `held`: What a subscriber has been told.
* `Observed.Notifies`: Subscribers are called when the state of a flag changes.
* `NeverStale`: What subscribers hold is always the state in the cache.
* `Observed.Keeps`: A re-hydration changes no flag that has subscribers.

## Theorems

* `CachedClient.applyCacheEvent_tells`, `CachedClient.drain_tells`: Events tell
  subscribers what they change.
* `Informed.step`: What one step does to what subscribers hold.
* `neverStale_iff`: When subscribers are never stale.
-/

namespace Cuttlegate.Sdk.Js

/-- The state of a flag as `evaluate` answers it. -/
def enabledOf (cache : Cache (Option String)) (key : String) : Bool := (evaluate cache key).enabled

/-- What a subscriber of a flag holds after an effect. -/
def Effect.told (key : String) (callback : Callback) (held : Option Bool) : Effect → Option Bool
  | .call cb k enabled => if cb = callback ∧ k = key then some enabled else held
  | _ => held

/-- The last value a subscriber of a flag was called with since it subscribed. -/
def Observed.told (key : String) (callback : Callback) (held : Option Bool) (o : Observed) :
    Option Bool :=
  let subscribes := o.event = .subscribe key callback ∧ callback ∉ o.before.subscribers key
  o.effects.foldl (Effect.told key callback) (if subscribes then none else held)

/-- What a subscriber of a flag holds after a step: the last value it was called
    with and, without one, the value that is read when `ready` resolves or, if
    it has resolved, on subscribing. -/
def Observed.holds (key : String) (callback : Callback) (held : Option Bool) (o : Observed) :
    Option Bool :=
  match o.told key callback held with
  | some enabled => some enabled
  | none => if o.after.hydrationComplete then some (enabledOf o.after.cache key) else none

/-- What a subscriber of a flag holds. -/
def held (key : String) (callback : Callback) (H : List Observed) : Option Bool :=
  H.foldl (Observed.holds key callback) none

/-- Once the client is hydrated, a step that changes the state of a flag calls
    every subscriber of the flag with the new state. -/
def Observed.Notifies (o : Observed) : Prop :=
  o.before.hydrationComplete = true → ∀ key,
    enabledOf o.after.cache key ≠ enabledOf o.before.cache key →
      ∀ cb ∈ o.before.subscribers key, .call cb key (enabledOf o.after.cache key) ∈ o.effects

/-- After a step, the subscribers of a hydrated client hold the states of their
    flags. -/
def Observed.Current (P : List Observed) (o : Observed) : Prop :=
  o.after.hydrationComplete = true → ∀ key, ∀ cb ∈ o.after.subscribers key,
    held key cb (P ++ [o]) = some (enabledOf o.after.cache key)

/-- Every step notifies, and leaves subscribers with the states of their flags. -/
def NeverStale : List Observed → Prop := Throughout (fun P o => o.Notifies ∧ o.Current P)

/-- A re-hydration that arrives once the client is hydrated brings no other state
    of a flag that has subscribers. -/
def Observed.Keeps (o : Observed) : Prop :=
  ∀ i json, o.event = .rehydrationBody i json → o.before.hydrationComplete = true →
    o.before.closed = false → ∀ key, o.before.subscribers key ≠ [] →
      enabledOf (populateCache json.data) key = enabledOf o.before.cache key

theorem held_snoc (key : String) (callback : Callback) (H : List Observed) (o : Observed) :
    held key callback (H ++ [o]) = o.holds key callback (held key callback H) := by
  rw [held, List.foldl_append]
  rfl

/-! ## What subscribers are told -/

/-- Whether an effect is a call of a subscriber. -/
def Effect.calls : Effect → Bool
  | .call _ _ _ => true
  | _ => false

section Told

variable (key : String) (callback : Callback)

theorem told_of_calls (effects : List Effect) (held : Option Bool)
    (h : ∀ a ∈ effects, a.calls = false) :
    effects.foldl (Effect.told key callback) held = held := by
  induction effects generalizing held with
  | nil => rfl
  | cons a effects ih =>
      have hfirst : Effect.told key callback held a = held := by
        cases a with
        | call cb k enabled => exact Bool.noConfusion (h _ List.mem_cons_self)
        | _ => rfl
      rw [List.foldl_cons, hfirst]
      exact ih held (fun b hb => h b (List.mem_cons_of_mem a hb))

/-- The subscribers of a flag are called with one value. -/
theorem told_callbacks (cbs : List Callback) (k : String) (enabled : Bool) (held : Option Bool) :
    (cbs.map (fun cb => Effect.call cb k enabled)).foldl (Effect.told key callback) held =
      if k = key ∧ callback ∈ cbs then some enabled else held := by
  induction cbs generalizing held with
  | nil => simp
  | cons cb cbs ih =>
      rw [List.map_cons, List.foldl_cons, ih]
      unfold Effect.told
      by_cases hk : k = key
      · by_cases hin : callback ∈ cbs
        · simp [hk, hin]
        · by_cases hcb : cb = callback
          · simp [hk, hcb]
          · simp [hk, hin, hcb, Ne.symm hcb]
      · simp [hk]

end Told

/-- What a subscriber of a flag has been told, if anything, is its state. -/
def Tells (cache : Cache (Option String)) (key : String) (held : Option Bool) : Prop :=
  ∀ enabled, held = some enabled → enabled = enabledOf cache key

theorem tells_none (cache : Cache (Option String)) (key : String) : Tells cache key none :=
  fun _ h => nomatch h

/-- The state of a flag after an event. -/
theorem enabledOf_applyCacheEvent (event : WireEvent) (cache : Cache (Option String))
    (key : String) : enabledOf (applyCacheEvent event cache) key =
      if event.flagKey = key ∧ cache key ≠ none then event.enabled else enabledOf cache key := by
  unfold enabledOf evaluate applyCacheEvent Feed.modify
  by_cases hkey : event.flagKey = key
  · subst hkey
    cases hfound : cache event.flagKey with
    | none => simp
    | some r => simp [update]
  · rw [if_neg (fun h => hkey h.symm), if_neg (fun h => hkey h.1)]

namespace CachedClient

variable (s : CachedClient)

/-- An event that changes a record tells the subscribers of its flag. -/
theorem applyCacheEvent_tells (event : WireEvent) (key : String) (callback : Callback)
    (held : Option Bool) (hsub : callback ∈ s.subscribers key) (h : Tells s.cache key held) :
    Tells (s.applyCacheEvent event).1.cache key
      ((s.applyCacheEvent event).2.foldl (Effect.told key callback) held) := by
  have hcache : (s.applyCacheEvent event).1.cache = Js.applyCacheEvent event s.cache := by
    rw [applyCacheEvent_fst]
  rw [hcache]
  intro enabled htold
  rw [enabledOf_applyCacheEvent]
  unfold applyCacheEvent at htold
  cases hfound : s.cache event.flagKey with
  -- A flag without a record: the cache is left alone and nobody is called.
  | none =>
      rw [hfound] at htold
      rw [if_neg]
      · exact h enabled htold
      · rintro ⟨rfl, hsome⟩
        exact hsome hfound
  | some r =>
      rw [hfound] at htold
      simp only [List.foldl_cons, Effect.told, told_callbacks] at htold
      -- The callback is called only for its own flag, and then with what is stored.
      by_cases hkey : event.flagKey = key
      · subst hkey
        rw [if_pos ⟨rfl, hsub⟩, Option.some.injEq] at htold
        rw [if_pos ⟨rfl, by rw [hfound]; exact Option.some_ne_none r⟩, htold]
      · rw [if_neg (fun hboth => hkey hboth.1)] at htold
        rw [if_neg (fun hboth => hkey hboth.1)]
        exact h enabled htold

/-- So do the events of a list. -/
theorem drain_tells (events : List WireEvent) (key : String) (callback : Callback)
    (held : Option Bool) (hsub : callback ∈ s.subscribers key) (h : Tells s.cache key held) :
    Tells (Js.applyAll events s.cache) key
      ((s.drain events).2.foldl (Effect.told key callback) held) := by
  induction events generalizing s held with
  | nil => exact h
  | cons event events ih =>
      have hfirst := s.applyCacheEvent_tells event key callback held hsub h
      have hcache : (s.applyCacheEvent event).1.cache = Js.applyCacheEvent event s.cache := by
        rw [applyCacheEvent_fst]
      have hrest := ih (s.applyCacheEvent event).1 _ (by rw [applyCacheEvent_fst]; exact hsub)
        hfirst
      rw [hcache] at hrest
      rw [drain]
      simp only [List.foldl_append]
      exact hrest

/-- An event calls the subscribers of the flag whose state it changes. -/
theorem applyCacheEvent_notifies (event : WireEvent) (key : String) (callback : Callback)
    (hsub : callback ∈ s.subscribers key)
    (hchange : enabledOf (Js.applyCacheEvent event s.cache) key ≠ enabledOf s.cache key) :
    .call callback key (enabledOf (Js.applyCacheEvent event s.cache) key) ∈
      (s.applyCacheEvent event).2 := by
  rw [enabledOf_applyCacheEvent] at hchange ⊢
  by_cases hhit : event.flagKey = key ∧ s.cache key ≠ none
  · rw [if_pos hhit]
    rcases hhit with ⟨rfl, hsome⟩
    rcases Option.ne_none_iff_exists'.mp hsome with ⟨r, hfound⟩
    rw [applyCacheEvent, hfound]
    exact List.mem_cons_of_mem _ (List.mem_cons_of_mem _ (List.mem_map_of_mem hsub))
  · rw [if_neg hhit] at hchange
    exact absurd rfl hchange

variable {s}

/-- A step that leaves the client unhydrated calls nobody. -/
theorem Does.unhydrated (e : Event) (p : CachedClient × List Effect) (h : s.Does e p)
    (hh : p.1.hydrationComplete = false) :
    s.hydrationComplete = false ∧ ∀ a ∈ p.2, a.calls = false := by
  cases h with
  | hydrated | restored => cases hh
  | applied event hc hhydrated =>
      rw [applyCacheEvent_fst] at hh
      exact absurd (hh.symm.trans hhydrated) (by decide)
  | aside e left effects he hc hreports =>
      refine ⟨hh, fun a ha => ?_⟩
      have hreport := hreports a ha
      cases a with
      | call cb k enabled => cases hreport
      | _ => rfl
  | abandoned | refused | lost | fallback | thrown | rehydrated =>
      exact ⟨hh, fun a ha => by rw [List.mem_singleton.mp ha]; rfl⟩
  | _ => exact ⟨hh, fun a ha => absurd ha List.not_mem_nil⟩

/-- A client that waits for its hydration is not hydrated. -/
theorem Does.waits (e : Event) (p : CachedClient × List Effect) (h : s.Does e p)
    (hwaits : s.awaits ≠ .nothing → s.hydrationComplete = false) :
    p.1.awaits ≠ .nothing → p.1.hydrationComplete = false := by
  cases h with
  | abandoned | refused | hydrated | restored | lost => exact fun hw => absurd rfl hw
  | fallback e err he hl hw => exact fun _ => hwaits hw
  | reading status he hw => exact fun _ => hwaits (by simp [hw])
  | thrown json message hw => exact fun _ => hwaits (by simp [hw])
  | applied event =>
      rw [applyCacheEvent_fst]
      exact hwaits
  | _ => exact hwaits

end CachedClient

/-! ## Runs -/

/-- What subscribers have been told so far. -/
structure Informed (P : List Observed) (s : CachedClient) : Prop where
  waits : s.awaits ≠ .nothing → s.hydrationComplete = false
  waiting : s.hydrationComplete = false → ∀ key cb, held key cb P = none
  knows : s.hydrationComplete = true → ∀ key, ∀ cb ∈ s.subscribers key,
    held key cb P = some (enabledOf s.cache key)

theorem informed_begin : Informed [] {} where
  waits _ := rfl
  waiting _ _ _ := rfl
  knows h := Bool.noConfusion h

section Step

variable (P : List Observed) (o : Observed)

/-- Once the client is hydrated, what a subscriber has been told is what it
    holds. -/
theorem held_of_tells (key : String) (callback : Callback)
    (hh : o.after.hydrationComplete = true)
    (htells : Tells o.after.cache key (o.told key callback (held key callback P))) :
    held key callback (P ++ [o]) = some (enabledOf o.after.cache key) := by
  rw [held_snoc, Observed.holds]
  cases htold : o.told key callback (held key callback P) with
  | none => exact if_pos hh
  | some enabled => exact congrArg some (htells enabled htold)

/-- Whoever subscribes has been told nothing yet. -/
theorem told_of_subscribes (key : String) (callback : Callback) (prior : Option Bool)
    (hevent : o.event ≠ .subscribe key callback ∨ callback ∈ o.before.subscribers key) :
    o.told key callback prior = o.effects.foldl (Effect.told key callback) prior := by
  rw [Observed.told, if_neg]
  rintro ⟨hsubscribe, hnew⟩
  rcases hevent with hevent | hin
  · exact hevent hsubscribe
  · exact hnew hin

variable (h : Informed P o.before)
include h

/-- A step that changes neither the cache nor what a subscriber is told. -/
theorem Informed.quiet (hcache : o.after.cache = o.before.cache)
    (hsubs : ∀ key, ∀ cb ∈ o.after.subscribers key, cb ∈ o.before.subscribers key)
    (hh : o.after.hydrationComplete = o.before.hydrationComplete)
    (hcalls : ∀ a ∈ o.effects, a.calls = false) : o.Notifies ∧ o.Current P := by
  refine ⟨fun _ key hchange => absurd (by rw [hcache]) hchange, fun hnow key cb hcb => ?_⟩
  refine held_of_tells P o key cb hnow ?_
  rw [told_of_subscribes o key cb _ (.inr (hsubs key cb hcb)), told_of_calls key cb _ _ hcalls,
    h.knows (hh.symm.trans hnow) key cb (hsubs key cb hcb), hcache]
  rintro enabled ⟨⟩
  rfl

/-- An event that is applied tells the subscribers of its flag. -/
theorem Informed.applied (event : WireEvent) (hh : o.before.hydrationComplete = true)
    (heq : (o.after, o.effects) = o.before.applyCacheEvent event) :
    o.Notifies ∧ o.Current P := by
  have hafter : o.after = { o.before with cache := applyCacheEvent event o.before.cache } := by
    rw [← CachedClient.applyCacheEvent_fst, ← heq]
  have heffects : o.effects = (o.before.applyCacheEvent event).2 := by rw [← heq]
  constructor
  · intro _ key hchange cb hcb
    rw [hafter] at hchange ⊢
    rw [heffects]
    exact o.before.applyCacheEvent_notifies event key cb hcb hchange
  · intro hnow key cb hcb
    rw [hafter] at hcb
    refine held_of_tells P o key cb hnow ?_
    rw [told_of_subscribes o key cb _ (.inr hcb), heffects, h.knows hh key cb hcb]
    have htells := o.before.applyCacheEvent_tells event key cb
      (some (enabledOf o.before.cache key)) hcb (by rintro enabled ⟨⟩; rfl)
    rw [← heq] at htells ⊢
    exact htells

/-- When `ready` resolves, subscribers have been told the states of their flags,
    or read them. -/
theorem Informed.resolves (hb : o.before.hydrationComplete = false)
    (hevent : ∀ key callback, o.event ≠ .subscribe key callback)
    (htells : ∀ key, ∀ cb ∈ o.after.subscribers key,
      Tells o.after.cache key (o.effects.foldl (Effect.told key cb) none)) :
    o.Notifies ∧ o.Current P := by
  refine ⟨fun hh => absurd (hb.symm.trans hh) (by decide), fun hnow key cb hcb => ?_⟩
  refine held_of_tells P o key cb hnow ?_
  rw [told_of_subscribes o key cb _ (.inl (hevent key cb)), h.waiting hb]
  exact htells key cb hcb

/-- The first response is put below the events in the buffer. -/
theorem Informed.hydrated (json : Body) (entries : Cache (Option String))
    (hevent : o.event = .body json) (hb : o.before.hydrationComplete = false)
    (hsubs : o.after.subscribers = o.before.subscribers)
    (hcache : o.after.cache = Js.applyAll o.before.sseBuffer (populateCache json.data))
    (heffects : o.effects = .write ::
      ((o.before.filled json).drain o.before.sseBuffer).2 ++ [.save entries, .resolveReady]) :
    o.Notifies ∧ o.Current P := by
  refine h.resolves P o hb (by simp [hevent]) (fun key cb hcb => ?_)
  rw [hsubs] at hcb
  rw [hcache, heffects, List.foldl_append]
  exact (o.before.filled json).drain_tells o.before.sseBuffer key cb none hcb (tells_none _ key)

/-- A new subscriber reads the state of its flag; the others are not concerned. -/
theorem Informed.subscribes (key : String) (callback : Callback)
    (hevent : o.event = .subscribe key callback) (heffects : o.effects = [])
    (hafter : o.after = o.before.subscribe key callback) : o.Notifies ∧ o.Current P := by
  have hcache : o.after.cache = o.before.cache := by rw [hafter]; rfl
  refine ⟨fun _ k hchange => absurd (by rw [hcache]) hchange, fun hnow k cb hcb => ?_⟩
  refine held_of_tells P o k cb hnow ?_
  rw [Observed.told, heffects, List.foldl_nil, hevent]
  by_cases hnew : Event.subscribe key callback = .subscribe k cb ∧ cb ∉ o.before.subscribers k
  · rw [if_pos hnew]
    exact tells_none _ k
  · -- Whoever is not new was there before.
    have hold : cb ∈ o.before.subscribers k := by
      by_contra hnot
      refine hnew ⟨?_, hnot⟩
      rw [hafter, CachedClient.mem_subscribe, or_iff_right hnot] at hcb
      rw [hcb.1, hcb.2]
    have hh : o.before.hydrationComplete = true := by
      rw [hafter] at hnow
      exact hnow
    rw [if_neg hnew, h.knows hh k cb hold, hcache]
    rintro enabled ⟨⟩
    rfl

/-- A re-hydration tells nobody, so it must not change what somebody holds. -/
theorem Informed.rehydrated_iff (i : Nat) (json : Body)
    (hevent : o.event = .rehydrationBody i json) (hc : o.before.closed = false)
    (hcache : o.after.cache = populateCache json.data)
    (hsubs : o.after.subscribers = o.before.subscribers)
    (hh : o.after.hydrationComplete = o.before.hydrationComplete)
    (heffects : o.effects = [.write]) :
    o.Notifies ∧ o.Current P ↔ o.Keeps := by
  constructor
  · rintro ⟨hnotifies, -⟩ j json' hevent' hnow - key hsome
    cases hevent.symm.trans hevent'
    by_contra hchange
    rcases List.exists_mem_of_ne_nil _ hsome with ⟨cb, hcb⟩
    rw [← hcache] at hchange
    -- A changed flag with a subscriber would have to call it, but the only effect is a write.
    have hcall := hnotifies hnow key hchange cb hcb
    rw [heffects] at hcall
    exact absurd (List.mem_singleton.mp hcall) (by simp)
  · intro hkeeps
    -- Where no subscribed flag changes, what a subscriber holds stays right.
    have hsame : o.before.hydrationComplete = true → ∀ key, ∀ cb ∈ o.before.subscribers key,
        enabledOf o.after.cache key = enabledOf o.before.cache key := by
      intro hnow key cb hcb
      rw [hcache]
      exact hkeeps i json hevent hnow hc key (List.ne_nil_of_mem hcb)
    refine ⟨fun hnow key hchange cb hcb => absurd (hsame hnow key cb hcb) hchange,
      fun hnow key cb hcb => ?_⟩
    rw [hh] at hnow
    rw [hsubs] at hcb
    refine held_of_tells P o key cb (hh.trans hnow) ?_
    rw [told_of_subscribes o key cb _ (.inr hcb), heffects, h.knows hnow key cb hcb]
    rintro enabled ⟨⟩
    exact (hsame hnow key cb hcb).symm

/-- A step leaves subscribers informed exactly if it is no re-hydration that
    changes the state of their flags. -/
theorem Informed.step_iff (hdoes : o.before.Does o.event (o.after, o.effects)) :
    o.Notifies ∧ o.Current P ↔ o.Keeps := by
  rcases o with ⟨before, event, effects, after⟩
  change Informed P before at h
  change before.Does event (after, effects) at hdoes
  generalize hp : (after, effects) = p at hdoes
  cases hdoes with
  -- One case for each continuation of the client. Steps that leave the cache and the
  -- subscribers alone are quiet, and none of them is a re-hydration.
  | abandoned e he hw hr hc =>
      cases hp
      refine iff_of_true (h.quiet P _ rfl (fun _ _ => id) rfl ?_) ?_
      · simp [Effect.calls]
      · rintro i json rfl
        cases he
  | refused status he hw hc =>
      cases hp
      refine iff_of_true (h.quiet P _ rfl (fun _ _ => id) rfl ?_) (fun i json heq => nomatch heq)
      simp [Effect.calls]
  | fallback e err he hl hw hstore hc hcode =>
      cases hp
      refine iff_of_true (h.quiet P _ rfl (fun _ _ => id) rfl ?_) ?_
      · simp [Effect.calls]
      · rintro i json rfl
        rcases hl with hl | hl
        · cases hl
        · cases hl
  | reading status he hw hc =>
      cases hp
      exact iff_of_true (h.quiet P _ rfl (fun _ _ => id) rfl (by simp))
        (fun i json heq => nomatch heq)
  | thrown json message hw hc =>
      cases hp
      have hb := h.waits (by simp [hw])
      exact iff_of_true ⟨fun hh => absurd (hb.symm.trans hh) (by decide),
        fun hh => absurd (hb.symm.trans hh) (by decide)⟩ (fun i json heq => nomatch heq)
  -- These two end the hydration: nobody holds anything before.
  | hydrated json hw hc =>
      cases hp
      exact iff_of_true (h.hydrated P _ json _ rfl (h.waits (by simp [hw])) rfl rfl rfl)
        (fun i json heq => nomatch heq)
  | restored entries err hw hsome =>
      cases hp
      refine iff_of_true (h.resolves P _ (h.waits (by simp [hw])) (by simp) (fun key cb hcb => ?_))
        (fun i json heq => nomatch heq)
      exact tells_none _ key
  | lost entries err hw hnone =>
      cases hp
      refine iff_of_true (h.quiet P _ rfl (fun _ _ => id) rfl ?_) (fun i json heq => nomatch heq)
      simp [Effect.calls]
  | buffered wire hc hh =>
      cases hp
      exact iff_of_true (h.quiet P _ rfl (fun _ _ => id) rfl (by simp))
        (fun i json heq => nomatch heq)
  | applied wire hc hh =>
      exact iff_of_true (h.applied P _ wire hh hp) (fun i json heq => nomatch heq)
  -- The only case that can go wrong.
  | rehydrated i json left hc =>
      cases hp
      exact h.rehydrated_iff P _ i json rfl hc rfl rfl rfl rfl
  | aside e left effects he hc hreports =>
      cases hp
      refine iff_of_true (h.quiet P _ rfl (fun _ _ => id) rfl (fun a ha => ?_)) ?_
      · have hreport := hreports a ha
        cases a with
        | call cb k enabled => cases hreport
        | _ => rfl
      · intro i json heq _ hopen
        exact absurd (hopen.symm.trans (hc i json heq)) (by decide)
  | subscribe key callback =>
      cases hp
      exact iff_of_true (h.subscribes P _ key callback rfl rfl rfl) (fun i json heq => nomatch heq)
  | unsubscribe key callback =>
      cases hp
      exact iff_of_true (h.quiet P _ rfl (before.mem_unsubscribe key callback) rfl (by simp))
        (fun i json heq => nomatch heq)
  | close streaming =>
      cases hp
      exact iff_of_true (h.quiet P _ rfl (fun _ _ => id) rfl (by simp))
        (fun i json heq => nomatch heq)

/-- One step leaves subscribers informed, provided it tells them what it changes. -/
theorem Informed.step (hdoes : o.before.Does o.event (o.after, o.effects))
    (hcurrent : o.Current P) : Informed (P ++ [o]) o.after where
  waits := hdoes.waits _ _ h.waits
  waiting hh key cb := by
    have hbefore := hdoes.unhydrated _ _ hh
    rw [held_snoc, h.waiting hbefore.1, Observed.holds, Observed.told, ite_self,
      told_of_calls key cb _ _ hbefore.2]
    simp [hh]
  knows := hcurrent

end Step

/-- In every run, the subscribers of a hydrated client are called whenever the
    state of their flag changes, and hold the state in the cache, if and only if
    no re-hydration changes the state of a flag that has subscribers. -/
theorem neverStale_iff (timeout : Nat) (H : List Observed) (s : CachedClient)
    (h : Steps (Observes timeout) {} H s) :
    NeverStale H ↔ Throughout (fun _ o => o.Keeps) H := by
  refine Steps.throughout_iff _ _ Informed {} informed_begin ?_ H s h
  rintro P s o t hrun hinformed ⟨rfl, rfl, hstep⟩
  have hdoes := CachedClient.does_of_step _ timeout _ _ hstep
  exact ⟨hinformed.step_iff P o hdoes, fun hfresh => hinformed.step P o hdoes hfresh.2⟩

/-- A response with one flag. -/
def oneFlag (enabled : Bool) : Body :=
  { data := ⟨[⟨"dark-mode", enabled, none, "false", "default", "bool"⟩], ""⟩ }

/-- The client is hydrated, somebody subscribes, and the flag is turned on while
    the stream is down. -/
def missedToggle : List Event :=
  [.response 200, .body (oneFlag false), .subscribe "dark-mode" 7, .connected true,
    .rehydrationResponse 0 200, .rehydrationBody 0 (oneFlag true)]

/-- The re-hydration changes the cache and leaves the subscriber with the old
    state. -/
theorem subscriber_stale :
    ¬ ∀ timeout H s, Steps (Observes timeout) {} H s → NeverStale H := by
  intro hall
  rcases hrun : observe 5000 {} missedToggle with _ | ⟨H, s⟩
  · cases hrun
  · have hfresh := hall 5000 H s (observe_steps 5000 {} missedToggle H s hrun)
    cases hrun
    have hnotifies := (hfresh [_, _, _, _, _] _ [] rfl).1 rfl "dark-mode" (by decide) 7 (by decide)
    exact absurd (List.mem_singleton.mp hnotifies) (by simp)

/-- The flag is turned on while the stream is up. -/
def heardToggle : List Event :=
  [.response 200, .body (oneFlag false), .subscribe "dark-mode" 7,
    .flagChange ⟨"flag.state_changed", "", "", "dark-mode", true, ""⟩]

theorem neverStale_heard : ∃ H s, observe 5000 {} heardToggle = some (H, s) ∧ NeverStale H := by
  have hrun := observe_steps 5000 {} heardToggle _ _ rfl
  refine ⟨_, _, rfl, (neverStale_iff 5000 _ _ hrun).mpr ?_⟩
  refine throughout_of_forall _ _ (fun o ho _ i json hevent => ?_)
  simp only [List.mem_cons, List.not_mem_nil, or_false] at ho
  rcases ho with rfl | rfl | rfl | rfl
  · exact nomatch hevent
  · exact nomatch hevent
  · exact nomatch hevent
  · exact nomatch hevent

end Cuttlegate.Sdk.Js
