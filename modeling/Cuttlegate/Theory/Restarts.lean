import Cuttlegate.Sdk.Restarts

/-!
# Flags That Outlive a Process

A client whose process ends, and that finds no server when it starts again, has
the flags it had.

For Go and Python a process and its store are an instance of `Recovery`
(`Session.step_process`). So from the first save that arrives, the client looks
like one that never forgets its flags, over any number of processes, as long as
what it saves arrives (`flags_endure`).

The JavaScript client does not save what a re-hydration brings. Its store keeps
the flags of the last client that had any, if none of them has ended with flags
that came so and were followed by no announcement (`Js.flags_outlive`).

## Main definitions

* `Library.recovery`, `Session.process`, `SessionAct.act`: The instance.
* `Js.Kept`: What is kept during the life of a JavaScript client.

## Theorems

* `Library.bootstrap_fresh`, `Library.bootstrap_stored`: What a bootstrap does.
* `Session.step_process`: A step of a process.
* `flags_endure`: What outlives a process.
* `Js.Kept.step`: A step of a JavaScript client.
* `Js.flags_outlive`: What outlives it.
-/

namespace Cuttlegate.Sdk

open Recovery (Enduring)

/-! ## Go and Python -/

section

variable (lib : Library) (defaults : List (String × Go.FlagDefault))

/-- An announcement that the Python client does not save is for a flag that it
    does not hold. -/
theorem Library.apply_unsaved (wire : WireEvent) (cache : Cache String)
    (h : lib.saves wire cache = false) : lib.apply wire cache = cache := by
  cases lib with
  | go => exact Bool.noConfusion h
  | python =>
      have hnone : cache wire.flagKey = none := by simpa [Library.saves] using h
      funext k
      change (if k = wire.flagKey then (cache k).map (Python.update wire) else cache k) = cache k
      by_cases hk : k = wire.flagKey
      · rw [if_pos hk, hk, hnone]
        rfl
      · rw [if_neg hk]

/-- Flags and announcements. -/
def Library.recovery : Recovery (Cache String) WireEvent where
  change := lib.apply
  saves := lib.saves
  unsaved := lib.apply_unsaved

variable {lib}

/-- The flags of a process that has some, and the copy. -/
def Session.process (s : Session) : Recovery.Process (Cache String) :=
  ⟨if s.streaming then some s.cache else none, s.kept⟩

/-- An empty map is as good as none. -/
def SessionAct.act : SessionAct lib → Recovery.Act (Cache String) WireEvent
  | .bootstrap answer load arrives =>
      .start (lib.evaluateAll defaults answer)
        (if load.getD [] = [] then none else some (ofEntries (load.getD []))) arrives
  | .event wire arrives => .input wire arrives
  | .halt => .halt

theorem Library.bootstrap_fresh (answer : lib.Answer) (load : Option (Entries String))
    (fresh : Cache String) (h : lib.evaluateAll defaults answer = some fresh) :
    lib.bootstrap defaults load answer =
      { raised := none, asked := false, cache := fresh, streaming := true } := by
  cases lib with
  | go =>
      simp only [Library.evaluateAll, Library.bootstrap, Go.CachedClient.bootstrap] at h ⊢
      cases heval : Go.evaluateAll defaults answer with
      | ok found =>
          rw [heval] at h
          cases h
          rfl
      | error e =>
          rw [heval] at h
          exact (nomatch h)
  | python =>
      simp only [Library.evaluateAll, Library.bootstrap, Python.bootstrap] at h ⊢
      cases heval : Python.evaluateAll defaults answer with
      | ok found =>
          rw [heval] at h
          cases h
          rfl
      | error e =>
          rw [heval] at h
          exact (nomatch h)

theorem Library.bootstrap_stored (answer : lib.Answer) (load : Option (Entries String))
    (h : lib.evaluateAll defaults answer = none) :
    (lib.bootstrap defaults load answer).asked = true ∧
      if load.getD [] = [] then (lib.bootstrap defaults load answer).streaming = false
      else (lib.bootstrap defaults load answer).streaming = true ∧
        (lib.bootstrap defaults load answer).cache = ofEntries (load.getD []) := by
  cases lib with
  | go =>
      simp only [Library.evaluateAll, Library.bootstrap, Go.CachedClient.bootstrap] at h ⊢
      cases heval : Go.evaluateAll defaults answer with
      | ok found =>
          rw [heval] at h
          exact (nomatch h)
      | error e =>
          cases load with
          | none => exact ⟨rfl, rfl⟩
          | some l =>
              cases l with
              | nil => exact ⟨rfl, rfl⟩
              | cons a l => exact ⟨rfl, rfl, rfl⟩
  | python =>
      simp only [Library.evaluateAll, Library.bootstrap, Python.bootstrap] at h ⊢
      cases heval : Python.evaluateAll defaults answer with
      | ok found =>
          rw [heval] at h
          exact (nomatch h)
      | error e =>
          cases load with
          | none => exact ⟨rfl, rfl⟩
          | some l =>
              cases l with
              | nil => exact ⟨rfl, rfl⟩
              | cons a l => exact ⟨rfl, rfl, rfl⟩

/-- A step of a process is one of a process that keeps a copy. -/
theorem Session.step_process (s : Session) (a : SessionAct lib) :
    (s.step lib defaults a).process = lib.recovery.step s.process (a.act defaults) := by
  rcases s with ⟨cache, streaming, kept⟩
  cases a with
  | halt => cases streaming <;> rfl
  | event wire arrives => cases streaming <;> rfl
  | bootstrap answer load arrives =>
      cases streaming with
      | true => rfl
      | false =>
          cases heval : lib.evaluateAll defaults answer with
          | some fresh =>
              have hboot := Library.bootstrap_fresh defaults answer load fresh heval
              simp [Session.step, Session.process, SessionAct.act, Recovery.step, heval, hboot]
          | none =>
              rcases Library.bootstrap_stored defaults answer load heval with ⟨hasked, hstored⟩
              by_cases hload : load.getD [] = []
              · rw [if_pos hload] at hstored
                simp [Session.step, Session.process, SessionAct.act, Recovery.step, heval, hasked,
                  hstored, hload]
              · rw [if_neg hload] at hstored
                simp [Session.step, Session.process, SessionAct.act, Recovery.step, heval, hasked,
                  hstored, hload]

theorem Session.run_process (s : Session) (acts : List (SessionAct lib)) :
    (s.run lib defaults acts).process =
      lib.recovery.run s.process (acts.map (SessionAct.act defaults)) := by
  induction acts generalizing s with
  | nil => rfl
  | cons a acts ih =>
      change ((s.step lib defaults a).run lib defaults acts).process = _
      rw [ih, Session.step_process]
      rfl

/-- What the store loads is the copy. -/
theorem SessionAct.loads_act (kept : Cache String) (a : SessionAct lib) (h : a.Loads kept) :
    (a.act defaults).Loads kept := by
  cases a with
  | event wire arrives => trivial
  | halt => trivial
  | bootstrap answer load arrives =>
      cases load with
      | none => trivial
      | some l =>
          change Recovery.Act.Loads kept (.start _ (if l = [] then none else some (ofEntries l)) _)
          by_cases hl : l = []
          · rw [if_pos hl]
            trivial
          · rw [if_neg hl]
            exact h

theorem Session.honest_process (s : Session) (acts : List (SessionAct lib))
    (h : s.Honest lib defaults acts) :
    lib.recovery.Honest s.process (acts.map (SessionAct.act defaults)) := by
  induction acts generalizing s with
  | nil => trivial
  | cons a acts ih =>
      refine ⟨a.loads_act defaults s.kept h.1, ?_⟩
      rw [← Session.step_process]
      exact ih (s.step lib defaults a) h.2

theorem Session.keeps_process (s : Session) (a : SessionAct lib) :
    lib.recovery.Keeps s.process (a.act defaults) ↔ s.Keeps lib defaults a := by
  rcases s with ⟨cache, streaming, kept⟩
  cases a with
  | halt => cases streaming <;> exact Iff.rfl
  | event wire arrives => cases streaming <;> simp [Session.process, SessionAct.act,
      Recovery.Keeps, Session.Keeps, Library.recovery]
  | bootstrap answer load arrives =>
      cases streaming <;> cases heval : lib.evaluateAll defaults answer <;>
        simp [Session.process, SessionAct.act, Recovery.Keeps, Session.Keeps, heval]

/-- A client that never forgets is a state that endures. -/
theorem Library.endure_act (q : Enduring (Cache String)) (a : SessionAct lib) :
    lib.endure defaults q a = lib.recovery.endure q (a.act defaults) := by
  cases q with
  | running flags => cases a <;> rfl
  | paused flags =>
      cases a with
      | event wire arrives => rfl
      | halt => rfl
      | bootstrap answer load arrives =>
          simp only [Library.endure, SessionAct.act]
          cases lib.evaluateAll defaults answer with
          | some fresh => rfl
          | none => by_cases hload : load.getD [] = [] <;> simp [hload, Recovery.endure]

theorem Library.foldl_endure (q : Enduring (Cache String)) (acts : List (SessionAct lib)) :
    acts.foldl (lib.endure defaults) q =
      (acts.map (SessionAct.act defaults)).foldl lib.recovery.endure q := by
  rw [List.foldl_map]
  congr 1
  funext q a
  exact Library.endure_act defaults q a

/-- A flag that is on, as the server and the client have it, and the announcement
    that it is off. -/
def foundOn : BulkResponse :=
  ⟨[⟨"dark-mode", true, none, "true", "rule", "bool"⟩], "2026-03-01T00:00:00Z"⟩

def foundOnResult : EvalResult String :=
  ⟨"dark-mode", true, "", "true", "rule", "2026-03-01T00:00:00Z"⟩

def announcedOff : WireEvent :=
  ⟨sseEventType, "shop", "prod", "dark-mode", false, "2026-03-01T00:00:01Z"⟩

/-- Once a save has arrived, and as long as those that follow do, a client that
    is restarted any number of times has the flags of one that never ends. -/
theorem flags_endure (s : Session) (a : SessionAct lib) (hkeeps : s.Keeps lib defaults a)
    (acts : List (SessionAct lib)) (harrives : ∀ b ∈ acts, b.arrives = true)
    (hhonest : (s.step lib defaults a).Honest lib defaults acts) :
    ((s.step lib defaults a).run lib defaults acts).process =
      (acts.foldl (lib.endure defaults) (.running (s.step lib defaults a).cache)).process := by
  rcases lib.recovery.step_saved s.process (a.act defaults)
    ((Session.keeps_process defaults s a).mpr hkeeps) with ⟨flags, hsaved⟩
  rw [← Session.step_process] at hsaved
  -- What has just been saved are the flags of the client.
  have hflags : (s.step lib defaults a).cache = flags := by
    have hlive := congrArg Recovery.Process.live hsaved
    simp only [Session.process, Enduring.process] at hlive
    split_ifs at hlive
    exact Option.some.inj hlive
  have hmapped : ∀ b ∈ acts.map (SessionAct.act defaults), b.arrives = true := by
    intro b hb
    rcases List.mem_map.mp hb with ⟨c, hc, rfl⟩
    have hc := harrives c hc
    cases c <;> exact hc
  have hloads := Session.honest_process defaults _ acts hhonest
  rw [hsaved] at hloads
  rw [Session.run_process, hsaved, hflags, Library.foldl_endure]
  exact lib.recovery.recovers (.running flags) _ hmapped hloads

/-- A process is told that the flag is off. The next one gets no answer. -/
def lostServer : List (SessionAct .go) :=
  [.event announcedOff true, .halt,
    .bootstrap .failed (some [("dark-mode", Go.update announcedOff foundOnResult)]) true]

theorem flags_endure_darkMode :
    ((Session.step .go [] {} (.bootstrap (.answered 200 (some foundOn)) none true)).run
      .go [] lostServer).process =
      (Enduring.running (Go.applyCacheUpdate announcedOff (Go.results foundOn))).process := by
  refine flags_endure [] {} (.bootstrap (.answered 200 (some foundOn)) none true : SessionAct .go)
    ⟨rfl, rfl, rfl⟩ lostServer
    (by simp [lostServer, SessionAct.arrives]) ⟨trivial, trivial, ?_, trivial⟩
  -- What the store loads is the cache of the first process at its end.
  change Function.update (fun _ => none) "dark-mode" _ = Feed.modify "dark-mode" _
    (Function.update (fun _ => none) "dark-mode" (some foundOnResult))
  funext k
  by_cases hk : k = "dark-mode"
  · simp [Feed.modify, hk]
  · simp [Feed.modify, hk]

end

/-! ## JavaScript -/

namespace Js

theorem keptAfter_append (kept : Cache (Option String)) (l l' : List Effect) :
    keptAfter kept (l ++ l') = keptAfter (keptAfter kept l) l' :=
  List.foldl_append

/-- Without a save the store keeps what it kept. -/
theorem keptAfter_same (kept : Cache (Option String)) (effects : List Effect)
    (h : ∀ e ∈ effects, e.saves = false) : keptAfter kept effects = kept := by
  induction effects with
  | nil => rfl
  | cons e effects ih =>
      have hrest := ih (fun e' he' => h e' (List.mem_cons_of_mem e he'))
      have hfirst := h e List.mem_cons_self
      cases e with
      | save entries => exact Bool.noConfusion hfirst
      | write | load | call | resolveReady | rejectReady | onError | request => exact hrest

/-- Reports are no calls of the store, and leave the cache alone. -/
theorem reports_saves (e : Effect) (h : e.reports = true) :
    e.saves = false ∧ e.writes = false := by
  cases e with
  | onError err => exact ⟨rfl, rfl⟩
  | request => exact ⟨rfl, rfl⟩
  | write | save | load | call | resolveReady | rejectReady => exact Bool.noConfusion h

/-- A change of the cache is saved. -/
theorem applyCacheEvent_kept (s : CachedClient) (event : WireEvent)
    (kept : Cache (Option String)) :
    keptAfter kept (s.applyCacheEvent event).2 = (s.applyCacheEvent event).1.cache ∨
      ((s.applyCacheEvent event).2 = [] ∧ (s.applyCacheEvent event).1.cache = s.cache) := by
  unfold CachedClient.applyCacheEvent
  cases s.cache event.flagKey with
  | none => exact .inr ⟨rfl, rfl⟩
  | some r =>
      refine .inl ?_
      -- The calls of the subscribers come after the save.
      refine keptAfter_same (Js.applyCacheEvent event s.cache)
        ((s.subscribers event.flagKey).map (fun cb => .call cb event.flagKey event.enabled))
        (fun e he => ?_)
      rcases List.mem_map.mp he with ⟨cb, _, rfl⟩
      rfl

/-- What is kept during a life: until there are flags, what was kept before, and
    then the flags, unless they have been replaced without a save. -/
structure Kept (before : Cache (Option String)) (life : Life) : Prop where
  waits : life.2.awaits ≠ .nothing → life.2.hydrationComplete = false
  blank : life.2.hydrationComplete = false → life.kept before = before
  current : life.2.hydrationComplete = true → life.unsaved = false →
    life.kept before = life.2.cache

theorem Life.kept_snoc (before : Cache (Option String)) (H : List Observed) (s : CachedClient)
    (o : Observed) (u : CachedClient) :
    Life.kept before (H ++ [o], u) = keptAfter (Life.kept before (H, s)) o.effects :=
  List.foldl_append

theorem Life.unsaved_snoc (H : List Observed) (s : CachedClient) (o : Observed)
    (u : CachedClient) :
    Life.unsaved (H ++ [o], u) = unsavedAfter (Life.unsaved (H, s)) o :=
  List.foldl_append

/-- Neither the flags nor the store are touched. -/
theorem Kept.quiet (before : Cache (Option String)) (H : List Observed) (s : CachedClient)
    (h : Kept before (H, s)) (o : Observed) (u : CachedClient)
    (hwaits : u.awaits ≠ .nothing → s.awaits ≠ .nothing)
    (hcomplete : u.hydrationComplete = s.hydrationComplete)
    (hcache : s.hydrationComplete = true → u.cache = s.cache)
    (hsaves : ∀ e ∈ o.effects, e.saves = false)
    (hunsaved : s.hydrationComplete = true → unsavedAfter (Life.unsaved (H, s)) o = false →
      Life.unsaved (H, s) = false) :
    Kept before (H ++ [o], u) := by
  have hkept : Life.kept before (H ++ [o], u) = Life.kept before (H, s) := by
    rw [Life.kept_snoc before H s o u, keptAfter_same _ _ hsaves]
  refine ⟨fun hu => ?_, fun hu => ?_, fun hu hun => ?_⟩
  · exact hcomplete.trans (h.waits (hwaits hu))
  · exact hkept.trans (h.blank (hcomplete.symm.trans hu))
  · have hs : s.hydrationComplete = true := hcomplete.symm.trans hu
    rw [Life.unsaved_snoc H s o u] at hun
    exact (hkept.trans (h.current hs (hunsaved hs hun))).trans (hcache hs).symm

/-- As long as the hydration waits, nothing is saved. -/
theorem Kept.waiting (before : Cache (Option String)) (H : List Observed) (s : CachedClient)
    (h : Kept before (H, s)) (o : Observed) (u : CachedClient) (hs : s.awaits ≠ .nothing)
    (hcomplete : u.hydrationComplete = s.hydrationComplete)
    (hsaves : ∀ e ∈ o.effects, e.saves = false) : Kept before (H ++ [o], u) := by
  have hfalse : ¬ s.hydrationComplete = true := by
    rw [h.waits hs]
    exact Bool.false_ne_true
  exact h.quiet before H s o u (fun _ => hs) hcomplete (fun ht => absurd ht hfalse) hsaves
    (fun ht => absurd ht hfalse)

theorem unsavedAfter_same (b : Bool) (o : Observed)
    (hevent : ∀ r l, o.event ≠ .loaded (some (r :: l)))
    (heffects : ∀ e ∈ o.effects, e.saves = false ∧ e.writes = false) :
    unsavedAfter b o = b := by
  have hsaves : o.effects.any Effect.saves = false :=
    List.any_eq_false.mpr (fun e he => by rw [(heffects e he).1]; exact Bool.false_ne_true)
  have hwrites : o.effects.any Effect.writes = false :=
    List.any_eq_false.mpr (fun e he => by rw [(heffects e he).2]; exact Bool.false_ne_true)
  unfold unsavedAfter
  split
  · rw [hwrites, Bool.or_false]
  next r l hloaded => exact absurd hloaded (hevent r l)
  · rw [hsaves, Bool.not_false, Bool.and_true]

/-- One step of a client. -/
theorem Kept.step (before : Cache (Option String)) (H : List Observed) (s : CachedClient)
    (h : Kept before (H, s)) (o : Observed) (u : CachedClient)
    (hdoes : s.Does o.event (u, o.effects))
    (hload : ∀ entries, o.event = .loaded (some entries) → restoreCache entries = before) :
    Kept before (H ++ [o], u) := by
  rcases o with ⟨s', event, effects, u'⟩
  generalize hp : (u, effects) = p at hdoes
  cases hdoes with
  | abandoned e he hw hr hc =>
      cases hp
      -- A client that still waits for its answer saves nothing.
      exact h.waiting before H s _ _ hw rfl (by simp [Effect.saves])
  | refused status he hw hc =>
      cases hp
      exact h.waiting before H s _ _ (by simp [hw]) rfl (by simp [Effect.saves])
  | fallback e err he hl hw hstore hc hcode =>
      cases hp
      exact h.waiting before H s _ _ hw rfl (by simp [Effect.saves])
  | reading status he hw hc =>
      cases hp
      exact h.waiting before H s _ _ (by simp [hw]) rfl (by simp)
  | thrown json message hw hc =>
      cases hp
      exact h.waiting before H s _ _ (by simp [hw]) rfl (by simp [Effect.saves])
  | lost entries err hw hnone =>
      cases hp
      exact h.waiting before H s _ _ (by simp [hw]) rfl (by simp [Effect.saves])
  | hydrated json hw hc =>
      cases hp
      refine ⟨fun hu => absurd rfl hu, fun hu => Bool.noConfusion hu, fun _ _ => ?_⟩
      rw [Life.kept_snoc before H s, keptAfter_append]
      rfl
  | restored entries err hw hsome =>
      cases hp
      refine ⟨fun hu => absurd rfl hu, fun hu => Bool.noConfusion hu, fun _ _ => ?_⟩
      -- What was restored is what the client before it had saved.
      have hblank := h.blank (h.waits (by simp [hw]))
      rw [Life.kept_snoc before H s, keptAfter_same _ _ (by simp [Effect.saves]), hblank]
      exact (hload entries rfl).symm
  | buffered e hc hh =>
      cases hp
      refine h.quiet before H s _ _ (fun hu => hu) rfl (fun _ => rfl) (by simp) (fun ht => ?_)
      exact absurd ht (by simp [hh])
  | applied e hc hh =>
      have hu : u = (s.applyCacheEvent e).1 := congrArg Prod.fst hp
      have heffects : effects = (s.applyCacheEvent e).2 := congrArg Prod.snd hp
      rcases applyCacheEvent_kept s e (Life.kept before (H, s)) with hsaved | ⟨hnone, hsame⟩
      · -- An event that is applied is saved with the whole cache, or changes nothing.
        refine ⟨fun ha => ?_, fun hf => ?_, fun _ _ => ?_⟩
        · exact absurd (h.waits (by simpa [hu] using ha)) (by simp [hh])
        · exact absurd hf (by simp [hu, hh])
        · rw [Life.kept_snoc before H s]
          change keptAfter _ effects = u.cache
          rw [heffects, hu, hsaved]
      · refine h.quiet before H s _ _ ?_ (by simp [hu]) (fun _ => by rw [hu, hsame])
          (by simp [heffects, hnone]) (fun _ hun => ?_)
        · simp [hu]
        · rwa [unsavedAfter_same _ _ (by simp) (by simp [heffects, hnone])] at hun
  | rehydrated i json left hc =>
      cases hp
      refine ⟨h.waits, fun hu => ?_, fun _ hun => ?_⟩
      · rw [Life.kept_snoc before H s]
        exact h.blank hu
      · -- A rehydration changes the cache and saves nothing: it is the unsaved step.
        rw [Life.unsaved_snoc H s] at hun
        exact absurd hun (by simp [unsavedAfter, Effect.writes])
  | aside e left effects' he hc hreports =>
      cases hp
      refine h.quiet before H s _ _ (fun hu => hu) rfl (fun _ => rfl)
        (fun a ha => (reports_saves a (hreports a ha)).1) (fun _ hun => ?_)
      rwa [unsavedAfter_same _ _ (fun r l heq => ?_)
        (fun a ha => reports_saves a (hreports a ha))] at hun
      rw [show event = .loaded (some (r :: l)) from heq] at he
      exact Bool.noConfusion he
  | subscribe key callback =>
      cases hp
      exact h.quiet before H s _ _ (fun hu => hu) rfl (fun _ => rfl) (by simp)
        (fun _ hun => by rwa [unsavedAfter_same _ _ (by simp) (by simp)] at hun)
  | unsubscribe key callback =>
      cases hp
      exact h.quiet before H s _ _ (fun hu => hu) rfl (fun _ => rfl) (by simp)
        (fun _ hun => by rwa [unsavedAfter_same _ _ (by simp) (by simp)] at hun)
  | close streaming =>
      cases hp
      exact h.quiet before H s _ _ (fun hu => hu) rfl (fun _ => rfl) (by simp)
        (fun _ hun => by rwa [unsavedAfter_same _ _ (by simp) (by simp)] at hun)

/-- A life of a client. -/
theorem Life.Lived.kept_of (timeout : Nat) (before : Cache (Option String)) (life : Life)
    (h : life.Lived timeout before) : Kept before life := by
  rcases life with ⟨H, u⟩
  rcases h with ⟨hrun, hload⟩
  refine Steps.invariant
    (fun H s => (∀ o ∈ H, ∀ entries, o.event = .loaded (some entries) →
      restoreCache entries = before) → Kept before (H, s)) {} ?_ ?_ H u hrun hload
  · exact fun _ => ⟨fun _ => rfl, fun _ => rfl, fun hu => Bool.noConfusion hu⟩
  · intro H s o u _ ih hstep hall
    rcases hstep with ⟨_, _, hstep⟩
    exact (ih (fun o' ho' => hall o' (List.mem_append_left _ ho'))).step before H s o u
      (s.does_of_step timeout o.event (u, o.effects) hstep)
      (hall o (List.mem_append_right _ List.mem_cons_self))

/-- The flags that clients leave behind, one after another. -/
def flagsAfter (before : Cache (Option String)) (lives : List Life) : Cache (Option String) :=
  lives.foldl (fun flags life =>
    if life.2.hydrationComplete then life.2.cache else flags) before

/-- What the store keeps after any number of lives are the flags of the last
    client that had any, provided no client has ended with flags that replaced
    others without a save. -/
theorem flags_outlive (timeout : Nat) (before : Cache (Option String)) (lives : List Life)
    (hlives : Lives timeout before lives) (hsaved : ∀ life ∈ lives, life.unsaved = false) :
    lives.foldl Life.kept before = flagsAfter before lives := by
  induction lives generalizing before with
  | nil => rfl
  | cons life lives ih =>
      have hkept := hlives.1.kept_of timeout before life
      have hone : life.kept before =
          if life.2.hydrationComplete then life.2.cache else before := by
        cases hcomplete : life.2.hydrationComplete with
        | true => exact hkept.current hcomplete (hsaved life List.mem_cons_self)
        | false => exact hkept.blank hcomplete
      rw [flagsAfter, List.foldl_cons, List.foldl_cons, ← hone]
      exact ih (life.kept before) hlives.2 (fun l hl => hsaved l (List.mem_cons_of_mem life hl))

/-- A client gets a flag. -/
def hydratedEvents : List Event := [.response 200, .body ⟨foundOn, none⟩]

/-- A client gets no flags, loads one, and is told that it is off. -/
def restoredEvents : List Event :=
  [.failed (.error "fetch failed"),
    .loaded (some [⟨"dark-mode", true, none, "true", "rule", "2026-03-01T00:00:00Z"⟩]),
    .flagChange announcedOff]

def hydratedLife : Life := (observe 5000 {} hydratedEvents).get rfl

def restoredLife : Life := (observe 5000 {} restoredEvents).get rfl

theorem flags_outlive_darkMode :
    [hydratedLife, restoredLife].foldl Life.kept (fun _ => none) =
      flagsAfter (fun _ => none) [hydratedLife, restoredLife] := by
  have hfirst : observe 5000 {} hydratedEvents = some hydratedLife := rfl
  have hsecond : observe 5000 {} restoredEvents = some restoredLife := rfl
  have hevents : hydratedLife.1.map (·.event) = hydratedEvents ∧
      restoredLife.1.map (·.event) = restoredEvents :=
    ⟨rfl, rfl⟩
  refine flags_outlive 5000 (fun _ => none) [hydratedLife, restoredLife]
    ⟨⟨observe_steps 5000 {} _ _ _ hfirst, fun o ho entries hevent => ?_⟩,
      ⟨observe_steps 5000 {} _ _ _ hsecond, fun o ho entries hevent => ?_⟩, trivial⟩ ?_
  · have hmem := List.mem_map_of_mem (f := (·.event)) ho
    rw [hevents.1, hevent] at hmem
    simp [hydratedEvents] at hmem
  · have hmem := List.mem_map_of_mem (f := (·.event)) ho
    rw [hevents.2, hevent] at hmem
    simp only [restoredEvents, List.mem_cons, List.not_mem_nil, or_false, reduceCtorEq, false_or,
      Event.loaded.injEq, Option.some.injEq] at hmem
    rw [hmem]
    rfl
  · simp only [List.mem_cons, List.not_mem_nil, or_false, forall_eq_or_imp, forall_eq]
    exact ⟨rfl, rfl⟩

end Js

end Cuttlegate.Sdk
