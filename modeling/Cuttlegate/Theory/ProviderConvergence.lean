import Cuttlegate.Sdk.Provider
import Cuttlegate.Theory.Convergence

/-!
# Convergence of the Provider

Once the stream is connected, every response is in and the server is quiet, a
component should be shown the server's bit for every flag.

What will be shown once the stream has delivered everything is settled by the
announcements still on their way, so the property to carry along a run is that
the flags, overwritten by them, are what the server has (`Shows`). Toggles and
deliveries keep it. A response does not: it replaces all flags, also those an
announcement has changed after the snapshot was taken, since the provider keeps
no buffer as the cached client does. Nor does the first connection, which is
not followed by a request for what was toggled before it.

So the provider converges along a run exactly when the step after which nothing
is outstanding brings flags that are the server's, but for those that an
announcement still on its way will put right. What an answer without flags and
the first connection bring is what the run has told the provider before.

## Main definitions

* `Shows`: What is shown, overwritten by the announcements on their way, is what
  the server has.
* `Provider.Quiet`: Everything has arrived.
* `Provider.told`: What a run has told the provider.
* `Provider.Fresh`: What a step has to bring.
* `Provider.Does`: What a step can do.

## Theorems

* `shows_toggle`, `shows_deliver`: Toggles and deliveries.
* `Provider.step_loaded`, `Provider.step_good_iff`: What a step does.
* `Provider.told_eq`: A provider shows what the run has told it.
* `Provider.drain`: A stream can deliver what it has.
* `provider_converges_iff`: Convergence.
-/

namespace Cuttlegate.Sdk

/-! ## Announcements on their way -/

/-- What is shown of the flags, overwritten by the announcements on their way, is
    what the server has. -/
def Shows (shown : String → Bool) (queue : List WireEvent) (bits : String → Bool) : Prop :=
  ∀ k, Feed.settled WireEvent.flagKey WireEvent.enabled queue k (shown k) = bits k

/-- A toggle is announced. -/
theorem shows_toggle (shown : String → Bool) (queue : List WireEvent) (bits : String → Bool)
    (flagKey : String) (enabled : Bool) (occurredAt : String) (h : Shows shown queue bits) :
    Shows shown (queue ++ [stateChanged flagKey enabled occurredAt])
      (Function.update bits flagKey enabled) := by
  intro k
  exact Feed.settled_sent WireEvent.flagKey WireEvent.enabled queue
    (stateChanged flagKey enabled occurredAt) bits k (shown k) (h k)

/-- An announcement is entered for its flag whether it is there or not. -/
theorem shownBit_changed (flags : Cache (Option String)) (e : WireEvent) :
    shownBit (Function.update flags e.flagKey (some (Provider.changed e (flags e.flagKey)))) =
      Function.update (shownBit flags) e.flagKey e.enabled := by
  funext k
  by_cases hk : k = e.flagKey
  · rw [hk, shownBit, Function.update_self, Function.update_self]
    rfl
  · rw [shownBit, Function.update_of_ne hk, Function.update_of_ne hk]
    rfl

/-- An announcement arrives. -/
theorem shows_deliver (flags : Cache (Option String)) (e : WireEvent) (queue : List WireEvent)
    (bits : String → Bool) :
    Shows (shownBit (Function.update flags e.flagKey
        (some (Provider.changed e (flags e.flagKey))))) queue bits ↔
      Shows (shownBit flags) (e :: queue) bits := by
  rw [shownBit_changed]
  refine forall_congr' (fun k => ?_)
  rw [Feed.settled_cons]
  by_cases hk : e.flagKey = k
  · rw [if_pos hk, ← hk, Function.update_self]
  · rw [if_neg hk, Function.update_of_ne (Ne.symm hk)]

namespace Provider

variable (config : Config)

/-- The provider is mounted, its stream is connected, and no response is
    outstanding. -/
def Ready (s : Provider) : Prop :=
  s.closed = false ∧ s.stream = .connected ∧ s.initial = none ∧ s.refetches = []

/-- The provider is ready, and the stream has delivered everything. -/
def Quiet (s : Provider) : Prop := s.Ready ∧ s.queue = []

/-- Every component is shown the bit of the server. -/
def Converged (s : Provider) : Prop := ∀ k, useFlag s.state k = ⟨s.bits k, false⟩

/-- What is shown once a request is settled. An answer without flags changes
    nothing. -/
def heard (answer : Js.Answer) (shown : String → Bool) : String → Bool :=
  match Js.evaluateAll config.timeout config.defaults answer with
  | .ok results => fun k => (Feed.latest (·.key) k results).elim false (·.enabled)
  | .error _ => shown

/-- What a step tells the provider of the flags: an answer says it anew, and an
    announcement that is delivered says it of its flag. -/
def hears (s : Provider) : ProviderAct → (String → Bool) → String → Bool
  | .deliver, shown =>
      if s.closed = true then shown
      else s.queue.head?.elim shown (fun e => Function.update shown e.flagKey e.enabled)
  | .settle answer, shown | .resettle _ answer, shown =>
      if s.closed = true then shown else heard config answer shown
  | _, shown => shown

/-- What a run has told the provider. -/
def told (bits : String → Bool) (acts : List ProviderAct) : String → Bool :=
  (Steps.gathered (step config) (hears config) { bits := bits } (fun _ => false) acts).2

/-- What a step that leaves nothing outstanding has to bring: flags that are the
    server's, but for those an announcement on its way will put right. The
    provider has been told of the flags before. -/
def Fresh (s : Provider) (told : String → Bool) : ProviderAct → Prop
  -- The first connection is not followed by a request.
  | .connect => s.hasConnectedBefore = false → s.closed = false → s.initial = none →
      s.refetches = [] → Shows told s.queue s.bits
  | .settle answer => s.closed = false → s.stream = .connected → s.refetches = [] →
      Shows (heard config answer told) s.queue s.bits
  | .resettle _ answer => s.closed = false → s.stream = .connected → s.initial = none →
      s.refetches.length = 1 → Shows (heard config answer told) s.queue s.bits
  | _ => True

/-- A provider that is ready shows what the server has once everything is
    delivered. -/
def Good (s : Provider) : Prop := s.Ready → Shows (shownBit s.state.flags) s.queue s.bits

/-- The loading ends with the first request. -/
def Loaded (s : Provider) : Prop :=
  s.closed = false → s.initial = none → s.state.loading = false

/-- An unmounted provider is never ready. -/
theorem closed_unready (s : Provider) (hclosed : s.closed = true) : ¬ s.Ready :=
  fun hready => absurd (hready.1.symm.trans hclosed) (by decide)

/-- Nothing is asked of an unmounted provider. -/
theorem closed_good_iff (s : Provider) (hclosed : s.closed = true) (Q : Prop) :
    s.Good ↔ (s.closed = false → Q) :=
  iff_of_true (fun hready => absurd hready (closed_unready s hclosed))
    (fun hopen => absurd (hopen.symm.trans hclosed) (by decide))

/-! ### One step -/

/-- What a step can do. -/
inductive Does (s : Provider) : ProviderAct → Provider → Prop
  | toggled (flagKey : String) (enabled : Bool) (occurredAt : String) :
      s.Does (.toggle flagKey enabled occurredAt) { s with
        bits := Function.update s.bits flagKey enabled
        queue := if s.stream = .subscribed ∨ s.stream = .connected then
            s.queue ++ [stateChanged flagKey enabled occurredAt]
          else s.queue }
  | subscribed : s.Does .subscribe { s with stream := .subscribed, queue := [] }
  | connected (t : Provider)
      (ht : t = onConnected s.hasConnectedBefore { s with stream := .connected }) :
      s.Does .connect t
  | refused (hoff : s.stream = .off) : s.Does .refused { s with hasConnectedBefore := true }
  | terminated : s.Does .terminal { s with stream := .stopped }
  | delivered (e : WireEvent) (rest : List WireEvent) (t : Provider) (hqueue : s.queue = e :: rest)
      (ht : t = onFlagChange e { s with queue := rest }) : s.Does .deliver t
  | dropped : s.Does .drop { s with stream := .off, queue := [], hasConnectedBefore := true }
  | taken (r : BulkResponse) : s.Does (.snapshot r) { s with initial := some (some r) }
  | ignored (answer : Js.Answer) (hclosed : s.closed = true) :
      s.Does (.settle answer) { s with initial := none }
  | settled (answer : Js.Answer) (hopen : ¬ s.closed = true) :
      s.Does (.settle answer) { s with
        initial := none
        state := ⟨received config answer s.state.flags, false⟩ }
  | takenAgain (i : Nat) (r : BulkResponse) (hwaits : s.refetches[i]? = some none) :
      s.Does (.snapshotAgain i r) { s with refetches := s.refetches.set i (some r) }
  | ignoredAgain (i : Nat) (answer : Js.Answer) (hclosed : s.closed = true) :
      s.Does (.resettle i answer) { s with refetches := s.refetches.eraseIdx i }
  | settledAgain (i : Nat) (answer : Js.Answer) (hlt : i < s.refetches.length)
      (hopen : ¬ s.closed = true) :
      s.Does (.resettle i answer) { s with
        refetches := s.refetches.eraseIdx i
        state := { s.state with flags := received config answer s.state.flags } }
  | unmounted : s.Does .unmount { s with closed := true, stream := .stopped }

theorem step_does (s t : Provider) (a : ProviderAct) (h : step config s a = some t) :
    s.Does config a t := by
  cases a with
  | toggle flagKey enabled occurredAt =>
      cases h
      exact .toggled flagKey enabled occurredAt
  | unmount =>
      cases h
      exact .unmounted
  | deliver =>
      simp only [step, Option.ite_none_right_eq_some] at h
      rcases h with ⟨_, h⟩
      cases hqueue : s.queue with
      | nil => simp [hqueue] at h
      | cons e rest =>
          simp only [hqueue, Option.some.injEq] at h
          exact .delivered e rest t hqueue h.symm
  | settle answer =>
      simp only [step] at h
      cases hinitial : s.initial with
      | none => simp [hinitial] at h
      | some taken =>
          simp only [hinitial, Option.ite_none_right_eq_some] at h
          rcases h with ⟨_, h⟩
          -- An answer that arrives after the unmount changes nothing.
          split_ifs at h with hclosed
          · cases h
            exact .ignored answer hclosed
          · cases h
            exact .settled answer hclosed
  | resettle i answer =>
      simp only [step] at h
      cases htaken : s.refetches[i]? with
      | none => simp [htaken] at h
      | some taken =>
          simp only [htaken, Option.ite_none_right_eq_some] at h
          rcases h with ⟨_, h⟩
          split_ifs at h with hclosed
          · cases h
            exact .ignoredAgain i answer hclosed
          · cases h
            exact .settledAgain i answer (List.getElem?_eq_some_iff.mp htaken).1 hclosed
  | connect =>
      simp only [step, Option.ite_none_right_eq_some, Option.some.injEq] at h
      rcases h with ⟨_, rfl⟩
      exact .connected _ rfl
  | subscribe =>
      simp only [step, Option.ite_none_right_eq_some, Option.some.injEq] at h
      rcases h with ⟨_, rfl⟩
      exact .subscribed
  | refused =>
      simp only [step, Option.ite_none_right_eq_some, Option.some.injEq] at h
      rcases h with ⟨hoff, rfl⟩
      exact .refused hoff
  | terminal =>
      simp only [step, Option.ite_none_right_eq_some, Option.some.injEq] at h
      rcases h with ⟨_, rfl⟩
      exact .terminated
  | drop =>
      simp only [step, Option.ite_none_right_eq_some, Option.some.injEq] at h
      rcases h with ⟨_, rfl⟩
      exact .dropped
  | snapshot r =>
      simp only [step, Option.ite_none_right_eq_some, Option.some.injEq] at h
      rcases h with ⟨_, rfl⟩
      exact .taken r
  | snapshotAgain i r =>
      simp only [step, Option.ite_none_right_eq_some, Option.some.injEq] at h
      rcases h with ⟨hwaits, rfl⟩
      exact .takenAgain i r hwaits

section Steps

variable (s t : Provider)

theorem onConnected_loaded (reconnect : Bool) (h : s.Loaded) :
    (onConnected reconnect s).Loaded := by
  unfold onConnected
  by_cases hnone : s.closed = true ∨ reconnect = false
  · rw [if_pos hnone]
    exact h
  · rw [if_neg hnone]
    exact h

theorem onFlagChange_loaded (e : WireEvent) (h : s.Loaded) : (onFlagChange e s).Loaded := by
  unfold onFlagChange
  by_cases hclosed : s.closed = true
  · rw [if_pos hclosed]
    exact h
  · rw [if_neg hclosed]
    exact h

/-- Nothing starts the loading again. -/
theorem step_loaded (a : ProviderAct) (hstep : step config s a = some t) (h : s.Loaded) :
    t.Loaded := by
  cases step_does config s t a hstep with
  | connected t ht =>
      rw [ht]
      exact onConnected_loaded { s with stream := .connected } s.hasConnectedBefore h
  | delivered e rest t hqueue ht =>
      rw [ht]
      exact onFlagChange_loaded { s with queue := rest } e h
  | taken r => exact fun _ hnone => absurd hnone (by simp)
  | ignored answer hclosed => exact fun hopen => absurd (hopen.symm.trans hclosed) (by decide)
  | settled answer hopen => exact fun _ _ => rfl
  | unmounted => exact fun hopen => absurd hopen (by simp)
  -- The remaining steps change neither the loading nor the first request.
  | _ => exact h

/-- A first connection is not followed by a request, so the flags have to be
    right already. A reconnection sends one, which the provider waits for. -/
theorem connected_good_iff :
    (onConnected s.hasConnectedBefore { s with stream := .connected }).Good ↔
      s.Fresh config (shownBit s.state.flags) .connect := by
  unfold onConnected
  by_cases hnone : s.closed = true ∨ s.hasConnectedBefore = false
  · rw [if_pos hnone]
    constructor
    · exact fun h _ hopen hinitial hrefetches => h ⟨hopen, rfl, hinitial, hrefetches⟩
    · rintro hfresh ⟨hopen, _, hinitial, hrefetches⟩
      rcases hnone with hclosed | hfirst
      · exact absurd (hopen.symm.trans hclosed) (by decide)
      · exact hfresh hfirst hopen hinitial hrefetches
  · rw [if_neg hnone]
    refine iff_of_true (fun hready => ?_) (fun hfirst => absurd (.inr hfirst) hnone)
    exact absurd hready.2.2.2 (by simp)

/-- A delivered announcement moves from the stream into the flags. -/
theorem delivered_good (e : WireEvent) (rest : List WireEvent) (hqueue : s.queue = e :: rest)
    (hgood : s.Good) : (onFlagChange e { s with queue := rest }).Good := by
  unfold onFlagChange
  by_cases hclosed : s.closed = true
  · rw [if_pos hclosed]
    exact fun hready => absurd hready (closed_unready _ hclosed)
  · rw [if_neg hclosed]
    intro hready
    have hbefore := hgood hready
    rw [hqueue] at hbefore
    exact (shows_deliver s.state.flags e rest s.bits).mpr hbefore

/-- What a settled request leaves in the flags. -/
theorem received_shown (answer : Js.Answer) (flags : Cache (Option String)) :
    shownBit (received config answer flags) = heard config answer (shownBit flags) := by
  unfold received heard
  cases Js.evaluateAll config.timeout config.defaults answer with
  | error err => rfl
  | ok results =>
      funext k
      simp only [shownBit, flagsOf, Feed.fill_eq, Option.map_id']

/-- The answer to the first request has to be right, unless another request is
    outstanding. -/
theorem settled_good_iff (answer : Js.Answer) :
    Good { s with
        initial := none
        state := ⟨received config answer s.state.flags, false⟩ } ↔
      s.Fresh config (shownBit s.state.flags) (.settle answer) := by
  simp only [Good, Fresh, ← received_shown]
  constructor
  · exact fun h hopen hconnected hrefetches => h ⟨hopen, hconnected, rfl, hrefetches⟩
  · rintro hfresh ⟨hopen, hconnected, _, hrefetches⟩
    exact hfresh hopen hconnected hrefetches

/-- The last response that is outstanding has to be right: the provider is ready
    again only when that is in. -/
theorem settledAgain_good_iff (i : Nat) (answer : Js.Answer) (hlt : i < s.refetches.length) :
    Good { s with
        refetches := s.refetches.eraseIdx i
        state := { s.state with flags := received config answer s.state.flags } } ↔
      s.Fresh config (shownBit s.state.flags) (.resettle i answer) := by
  simp only [Good, Fresh, ← received_shown]
  have hlast : s.refetches.eraseIdx i = [] ↔ s.refetches.length = 1 := by
    rw [← List.length_eq_zero_iff, List.length_eraseIdx_of_lt hlt]
    omega
  constructor
  · exact fun h hopen hconnected hinitial hone => h ⟨hopen, hconnected, hinitial, hlast.mpr hone⟩
  · rintro hfresh ⟨hopen, hconnected, hinitial, hnone⟩
    exact hfresh hopen hconnected hinitial (hlast.mp hnone)

/-- While a request waits for its snapshot the provider is not ready. -/
theorem takenAgain_unready (i : Nat) (r : BulkResponse) (hwaits : s.refetches[i]? = some none) :
    ¬ Ready { s with refetches := s.refetches.set i (some r) } := by
  intro hready
  have hnone : s.refetches = [] := by
    have hlen := congrArg List.length hready.2.2.2
    rw [List.length_set] at hlen
    exact List.length_eq_zero_iff.mp hlen
  rw [hnone] at hwaits
  exact absurd hwaits (by simp)

end Steps

/-- Given that the provider is good before a step, it is after the step exactly
    when the step brought what it had to. -/
theorem step_good_iff (s t : Provider) (a : ProviderAct) (hstep : step config s a = some t)
    (hgood : s.Good) : t.Good ↔ s.Fresh config (shownBit s.state.flags) a := by
  cases step_does config s t a hstep with
  | connected t ht =>
      rw [ht]
      exact connected_good_iff config s
  | delivered e rest t hqueue ht =>
      rw [ht]
      exact iff_of_true (delivered_good s e rest hqueue hgood) trivial
  | ignored answer hclosed => exact closed_good_iff { s with initial := none } hclosed _
  | settled answer hopen => exact settled_good_iff config s answer
  | ignoredAgain i answer hclosed =>
      exact closed_good_iff { s with refetches := s.refetches.eraseIdx i } hclosed _
  | settledAgain i answer hlt hopen => exact settledAgain_good_iff config s i answer hlt
  | takenAgain i r hwaits =>
      have hunready := takenAgain_unready s i r hwaits
      exact iff_of_true (fun hready => absurd hready hunready) trivial
  | toggled flagKey enabled occurredAt =>
      refine iff_of_true (fun hready => ?_) trivial
      have hconnected : s.stream = .connected := hready.2.1
      simp only [hconnected, or_true, if_true]
      exact shows_toggle _ _ _ _ _ _ (hgood hready)
  | unmounted => exact iff_of_true (fun hready => absurd hready (closed_unready _ rfl)) trivial
  -- After the remaining steps the first request is outstanding, or the stream
  -- is not connected.
  | taken r => exact iff_of_true (fun hready => absurd hready.2.2.1 (by simp)) trivial
  | refused hoff =>
      exact iff_of_true (fun hready => absurd (hoff.symm.trans hready.2.1) (by decide)) trivial
  | subscribed | terminated | dropped =>
      exact iff_of_true (fun hready => absurd hready.2.1 (by simp)) trivial

/-- What a step tells the provider is what it shows afterwards. -/
theorem step_hears (s t : Provider) (a : ProviderAct) (hstep : step config s a = some t) :
    s.hears config a (shownBit s.state.flags) = shownBit t.state.flags := by
  cases step_does config s t a hstep with
  | connected t ht =>
      rw [ht, onConnected]
      split_ifs <;> rfl
  | delivered e rest t hqueue ht =>
      rw [ht, onFlagChange, hears, hqueue]
      by_cases hclosed : s.closed = true
      · rw [if_pos hclosed, if_pos hclosed]
      · rw [if_neg hclosed, if_neg hclosed]
        exact (shownBit_changed s.state.flags e).symm
  | ignored answer hclosed | ignoredAgain i answer hclosed => exact if_pos hclosed
  | settled answer hopen | settledAgain i answer hlt hopen =>
      exact (if_neg hopen).trans (received_shown config answer s.state.flags).symm
  | _ => rfl

/-- A provider shows what the run has told it. -/
theorem told_eq (bits : String → Bool) (acts : List ProviderAct) (t : Provider)
    (hrun : Runs config { bits := bits } acts t) :
    told config bits acts = shownBit t.state.flags := by
  refine (Steps.gathered_invariant (step config) (hears config) _
    (fun t shown => shown = shownBit t.state.flags) _ (fun _ _ _ hstep => hstep.2) rfl
    (fun t a u shown hstep hshown => ?_) acts t hrun).2
  rw [hshown]
  exact step_hears config t u a hstep.2

/-- What a loaded provider shows. -/
theorem converged_iff (s : Provider) (hloaded : s.state.loading = false) :
    s.Converged ↔ ∀ k, shownBit s.state.flags k = s.bits k := by
  refine forall_congr' (fun k => ?_)
  simp [useFlag, hloaded]

/-- The stream of a ready provider can deliver what it has, and then shows the
    bits of the server exactly when it was to. -/
theorem drain (queue : List WireEvent) (s : Provider) (hready : s.Ready)
    (hloaded : s.state.loading = false) (hqueue : s.queue = queue) :
    ∃ u, Runs config s (List.replicate queue.length .deliver) u ∧ u.Quiet ∧
      (u.Converged ↔ Shows (shownBit s.state.flags) queue s.bits) := by
  induction queue generalizing s with
  | nil => exact ⟨s, Steps.refl s, ⟨hready, hqueue⟩, converged_iff s hloaded⟩
  | cons e rest ih =>
      have hopen : ¬ s.closed = true := by
        rw [hready.1]
        decide
      have hstep : step config s .deliver = some (onFlagChange e { s with queue := rest }) := by
        simp only [step, hready.2.1, if_true, hqueue]
      unfold onFlagChange at hstep
      rw [if_neg hopen] at hstep
      rcases ih { s with
          queue := rest
          state := { s.state with
            flags := Function.update s.state.flags e.flagKey
              (some (changed e (s.state.flags e.flagKey))) } } hready hloaded rfl
        with ⟨u, hrun, hquiet, hiff⟩
      refine ⟨u, Steps.cons _ _ _ _ _ ⟨trivial, hstep⟩ hrun, hquiet, hiff.trans ?_⟩
      exact shows_deliver s.state.flags e rest s.bits

/-- Deliveries keep a good provider good. -/
theorem deliveries_good (t u : Provider) (n : Nat)
    (hrun : Runs config t (List.replicate n .deliver) u) (hgood : t.Good) : u.Good :=
  Steps.invariant_replicate Good ProviderAct.deliver
    (fun v x hstep hv => (step_good_iff config v x .deliver hstep.2 hv).mpr trivial) n t u hrun
    hgood

theorem runs_loaded (s t : Provider) (acts : List ProviderAct) (hrun : Runs config s acts t)
    (h : s.Loaded) : t.Loaded :=
  Steps.invariant (fun _ v => v.Loaded) s h
    (fun _ v a u _ hv hstep => step_loaded config v u a hstep.2 hv) acts t hrun

/-- A provider whose loading is over with its first request converges with
    every delivery of its stream exactly when it is good. -/
theorem good_iff (t : Provider) (hloaded : t.Loaded) :
    t.Good ↔ ∀ n u, Runs config t (List.replicate n .deliver) u → u.Quiet → u.Converged := by
  constructor
  · rintro hgood n u hrun ⟨hready, hqueue⟩
    have hshows := deliveries_good config t u n hrun hgood hready
    rw [hqueue] at hshows
    exact (converged_iff u (runs_loaded config t u _ hrun hloaded hready.1 hready.2.2.1)).mpr hshows
  · intro hall hready
    rcases drain config t.queue t hready (hloaded hready.1 hready.2.2.1) rfl
      with ⟨u, hrun, hquiet, hiff⟩
    exact hiff.mp (hall _ u hrun hquiet)

end Provider

/-- The provider converges along a run, at every moment at which the stream is
    connected and everything has arrived (what the stream still has to deliver
    then included), exactly when every step of the run brought what it had to,
    given what the run had told the provider before it. -/
theorem provider_converges_iff (config : Provider.Config) (bits : String → Bool)
    (acts : List ProviderAct) :
    (∀ past rest t n u, acts = past ++ rest → Provider.Runs config { bits := bits } past t →
        Provider.Runs config t (List.replicate n .deliver) u → u.Quiet → u.Converged) ↔
      ∀ past a rest t u, acts = past ++ a :: rest →
        Provider.Runs config { bits := bits } past t →
        t.Reported a ∧ Provider.step config t a = some u →
          t.Fresh config (Provider.told config bits past) a := by
  have hstart : Provider.Good { bits := bits } := fun hready => absurd hready.2.1 (by simp)
  have hloaded : Provider.Loaded { bits := bits } := fun _ hnone => absurd hnone (by simp)
  have hstep : ∀ past t a u, Provider.Runs config { bits := bits } past t →
      t.Reported a ∧ Provider.step config t a = some u → t.Good →
        (u.Good ↔ t.Fresh config (Provider.told config bits past) a) := by
    intro past t a u hpast hstep
    rw [Provider.told_eq config bits past t hpast]
    exact Provider.step_good_iff config t u a hstep.2
  rw [← Steps.kept_iff Provider.Good
    (fun past t a => t.Fresh config (Provider.told config bits past) a) _ hstart hstep acts]
  constructor
  · intro hall past rest t hacts hpast
    exact (Provider.good_iff config t (Provider.runs_loaded config _ t past hpast hloaded)).mpr
      (fun n u => hall past rest t n u hacts hpast)
  · intro hgood past rest t n u hacts hpast
    exact (Provider.good_iff config t (Provider.runs_loaded config _ t past hpast hloaded)).mp
      (hgood past rest t hacts hpast) n u

/-- The snapshot of a server whose flags are all off. -/
theorem offSnapshot_snapshot : offSnapshot.Snapshot (fun _ => false) :=
  ⟨by decide, fun _ hon => absurd hon (by simp)⟩

/-- The snapshot behind the first response is taken, the flag is turned on, the
    stream announces it, and then the response arrives. -/
theorem provider_reverts_toggle : ¬ ∀ config bits acts s,
    Provider.Runs config { bits := bits } acts s → s.Quiet → s.Converged := by
  intro hall
  have hconverged := hall ⟨5000, []⟩ (fun _ => false) [.snapshot offSnapshot, .subscribe, .connect,
    .toggle "dark-mode" true "2026-03-21T12:00:00Z", .deliver,
    .settle (.answered 200 (.parsed offSnapshot))] _
    (Steps.cons _ _ _ _ _ ⟨offSnapshot_snapshot, rfl⟩ <|
      Steps.cons _ _ _ _ _ ⟨trivial, rfl⟩ <| Steps.cons _ _ _ _ _ ⟨trivial, rfl⟩ <|
      Steps.cons _ _ _ _ _ ⟨trivial, rfl⟩ <| Steps.cons _ _ _ _ _ ⟨trivial, rfl⟩ <|
      Steps.single _ _ _ ⟨trivial, rfl⟩)
    ⟨⟨rfl, rfl, rfl, rfl⟩, rfl⟩
  exact absurd (hconverged "dark-mode") (by decide)

end Cuttlegate.Sdk
