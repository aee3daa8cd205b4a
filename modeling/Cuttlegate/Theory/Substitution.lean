import Cuttlegate.Lib.Steps
import Cuttlegate.Sdk.Wire
import Cuttlegate.Theory.Batch
import Cuttlegate.Theory.CacheAgreement

/-!
# The Cached Client in Place of the Plain One

The Go cached client is seeded with one bulk evaluation and then hears of
every toggle. The plain client asks the server each time. Both take the
variant of a flag for its answer; the cached client, once it has heard of a
toggle, takes the new state for the variant.

The server serves a flag that is off with its default variant, and one that is
on with what its rules say. The two clients therefore agree on a flag that was
never toggled. On a toggled flag they agree exactly when what the server
serves in its new state is spelt like the state: for a flag that is off, a
default variant `false`; for one that is on, `true`, served by the rule that
decides or, when none fires, by default.

## Main definitions

* `toggleStep`: A toggle of a flag of the project in the environment.
* `ToggledTo`: What a list of toggles does.
* `Spells`: What the server serves for a flag in a state is spelt like it.
* `Substitutes`: The cached client answers what the plain one does.

## Theorems

* `toggles_settle`: The states of flags after a list of toggles.
* `viewOf_spells`: What the server serves for a flag in a state.
* `live_answers`, `substitutes_iff`: What the clients answer.
* `cached_substitutes_iff`: When the cached client answers what the plain one
  does.
-/

namespace Cuttlegate

/-! ## Toggles -/

/-- A flag still has at most one state in an environment. -/
theorem setEnabled_evalStore (uuid : String → Option String) (flagID environmentID : String)
    (enabled : Bool) (s s' : Store) (hs : EvalStore uuid s)
    (h : setEnabled flagID environmentID enabled s = .ok ((), s')) : EvalStore uuid s' := by
  have hisFor : ∀ st : FlagEnvironmentState, st.flagID = flagID →
      st.environmentID = environmentID → st.isFor flagID environmentID = true :=
    fun st hflag henv => (isFor_iff _ _ st).mpr ⟨hflag, henv⟩
  -- An update keeps every row's key; an insert happens only when no row has it.
  rcases setEnabled_ok _ _ _ _ _ _ h with rfl | ⟨hnone, rfl⟩
  · refine ⟨hs.keys, ?_, hs.priorities, hs.rules, hs.segments⟩
    intro a' ha' b' hb' hflag henv
    rcases List.mem_map.mp ha' with ⟨a, ha, rfl⟩
    rcases List.mem_map.mp hb' with ⟨b, hb, rfl⟩
    have hkey : ∀ st : FlagEnvironmentState,
        (if st.isFor flagID environmentID then { st with enabled := enabled } else st).flagID =
          st.flagID ∧
        (if st.isFor flagID environmentID then
          { st with enabled := enabled } else st).environmentID = st.environmentID := by
      intro st
      by_cases hst : st.isFor flagID environmentID = true
      · simp only [hst, if_true, and_self]
      · simp only [hst, if_false, Bool.false_eq_true, and_self]
    rw [(hkey a).1, (hkey b).1] at hflag
    rw [(hkey a).2, (hkey b).2] at henv
    rw [hs.states a ha b hb hflag henv]
  · refine ⟨hs.keys, ?_, hs.priorities, hs.rules, hs.segments⟩
    intro a ha b hb hflag henv
    rcases List.mem_append.mp ha with ha | ha <;> rcases List.mem_append.mp hb with hb | hb
    · exact hs.states a ha b hb hflag henv
    · rw [List.mem_singleton.mp hb] at hflag henv
      exact absurd (hisFor a hflag henv) (by rw [hnone a ha]; decide)
    · rw [List.mem_singleton.mp ha] at hflag henv
      exact absurd (hisFor b hflag.symm henv.symm) (by rw [hnone b hb]; decide)
    · rw [List.mem_singleton.mp ha, List.mem_singleton.mp hb]

/-- A toggle of the flag with the given key of the project in the environment,
    as the repository writes it. -/
def toggleStep (projectID environmentID : String) (s : Store) (t : String × Bool) (s' : Store) :
    Prop :=
  ∃ f ∈ s.flags, f.projectID = projectID ∧ f.key = t.1 ∧
    setEnabled f.id environmentID t.2 s = .ok ((), s')

/-- What a list of toggles does: the states of the flags in the environment
    are those of the last toggles, and the rest of the configuration is as it
    was. -/
structure ToggledTo (uuid : String → Option String) (projectID environmentID : String) (s : Store)
    (toggles : List (String × Bool)) (s' : Store) : Prop where
  evalStore : EvalStore uuid s'
  flags : s'.flags = s.flags
  rules : s'.rules = s.rules
  segments : s'.segments = s.segments
  segmentMembers : s'.segmentMembers = s.segmentMembers
  states : ∀ f ∈ s.flags, f.projectID = projectID →
    s'.states.find? (FlagEnvironmentState.isFor f.id environmentID) =
      (Feed.latest Prod.fst f.key toggles).elim
        (s.states.find? (FlagEnvironmentState.isFor f.id environmentID))
        (fun t => some ⟨f.id, environmentID, t.2⟩)

theorem toggles_settle (uuid : String → Option String) (projectID environmentID : String)
    (s s' : Store) (hs : EvalStore uuid s)
    (hids : ∀ f ∈ s.flags, ∀ g ∈ s.flags, f.id = g.id → f = g) (toggles : List (String × Bool))
    (h : Steps (toggleStep projectID environmentID) s toggles s') :
    ToggledTo uuid projectID environmentID s toggles s' := by
  refine Steps.invariant (ToggledTo uuid projectID environmentID s)
    s ⟨hs, rfl, rfl, rfl, rfl, fun _ _ _ => rfl⟩ (fun H t o u _ hJ hstep => ?_) toggles s' h
  rcases hstep with ⟨g, hg, hproj, hkey, hset⟩
  rw [hJ.flags] at hg
  have hkept : u.flags = t.flags ∧ u.rules = t.rules ∧ u.segments = t.segments ∧
      u.segmentMembers = t.segmentMembers := by
    rcases setEnabled_ok _ _ _ _ _ _ hset with rfl | ⟨_, rfl⟩ <;> exact ⟨rfl, rfl, rfl, rfl⟩
  refine ⟨setEnabled_evalStore uuid _ _ _ t u hJ.evalStore hset, hkept.1.trans hJ.flags,
    hkept.2.1.trans hJ.rules, hkept.2.2.1.trans hJ.segments,
    hkept.2.2.2.trans hJ.segmentMembers, fun f hf hfproj => ?_⟩
  rw [setEnabled_find _ _ _ t u () hset f.id, hJ.states f hf hfproj, Feed.latest_snoc]
  -- Flags of one project with one key are one flag, and so are flags with one id.
  by_cases hsame : o.1 = f.key
  · have hfg : g = f := hs.keys g hg f hf (hproj.trans hfproj.symm) (hkey.trans hsame)
    rw [if_pos hsame, if_pos ⟨by rw [hfg], rfl⟩]
    rfl
  · have hid : ¬ f.id = g.id := fun hid => hsame (hkey.symm.trans
      (congrArg Flag.key (hids f hf g hg hid).symm))
    rw [if_neg hsame, if_neg (fun hrow => hid hrow.1)]

/-! ## What the server serves -/

/-- What the server serves for a flag in a state is spelt like the state. A
    flag that is off is served its default variant; one that is on is served by
    the firing rule of least priority, or by default when no rule fires. -/
def Spells (conn : Conn) (s : Store) (projectID environmentID : String) (evalCtx : EvalContext)
    (f : Flag) : Bool → Prop
  | false => f.defaultVariantKey = "false"
  | true =>
      let rules := s.rulesIn f.id environmentID
      let segs := (segmentRefs rules).filter (inSegment conn s projectID evalCtx.userID)
      (∀ r ∈ rules, r.Fires evalCtx segs →
        (∀ q ∈ rules, q.Fires evalCtx segs → q ≠ r → r.priority < q.priority) →
          r.served f evalCtx = .ok "true") ∧
        ((∀ r ∈ rules, ¬ r.Fires evalCtx segs) → f.defaultVariantKey = "true")

section Toggled

variable {uuid : String → Option String} {projectID environmentID : String} {s s' : Store}
  {toggles : List (String × Bool)} (hsettled : ToggledTo uuid projectID environmentID s toggles s')

include hsettled

theorem ToggledTo.inSegment_eq (conn : Conn) (userKey : String) :
    inSegment conn s' projectID userKey = inSegment conn s projectID userKey := by
  funext slug
  unfold inSegment
  rw [hsettled.segments, hsettled.segmentMembers]

theorem ToggledTo.rulesIn_eq (flagID : String) :
    s'.rulesIn flagID environmentID = s.rulesIn flagID environmentID := by
  unfold Store.rulesIn
  rw [hsettled.rules]

/-- What is served in a state does not depend on the states of flags. -/
theorem ToggledTo.spells_iff (conn : Conn) (evalCtx : EvalContext) (f : Flag) (b : Bool) :
    Spells conn s' projectID environmentID evalCtx f b ↔
      Spells conn s projectID environmentID evalCtx f b := by
  unfold Spells
  rw [hsettled.inSegment_eq, hsettled.rulesIn_eq]

/-- A flag that was not toggled is served what it was served. -/
theorem ToggledTo.viewOf_eq (srt : Sorter) (conn : Conn) (evalCtx : EvalContext) (f : Flag)
    (hf : f ∈ s.flags) (hproj : f.projectID = projectID)
    (hnone : Feed.latest Prod.fst f.key toggles = none) :
    viewOf srt conn s' projectID environmentID evalCtx f =
      viewOf srt conn s projectID environmentID evalCtx f := by
  have hstate := hsettled.states f hf hproj
  rw [hnone, Option.elim_none] at hstate
  unfold viewOf
  rw [hsettled.inSegment_eq, hsettled.rulesIn_eq, hstate]

end Toggled

/-- The variant served to a flag whose state is known, compared with the
    spelling of the state. -/
theorem viewOf_spells (uuid : String → Option String) (srt : Sorter) (conn : Conn) (s : Store)
    (hs : EvalStore uuid s) (projectID environmentID : String) (evalCtx : EvalContext) (f : Flag)
    (b : Bool) (hstate : s.states.find? (FlagEnvironmentState.isFor f.id environmentID) =
      some ⟨f.id, environmentID, b⟩) (v : EvalView)
    (hv : viewOf srt conn s projectID environmentID evalCtx f = .ok v) :
    v.valueKey = Sdk.stateText b ↔ Spells conn s projectID environmentID evalCtx f b := by
  unfold viewOf at hv
  rw [hstate] at hv
  cases b with
  | false =>
      rw [← Except.ok.inj hv]
      rfl
  | true =>
      have hwf : ∀ r ∈ s.rulesIn f.id environmentID, ∀ c ∈ r.conditions, c.WellFormed := by
        intro r hr
        exact ((Rule.validate_ok_iff r).mp (hs.rules r (List.mem_of_mem_filter hr))).wellFormed
      simp only [evaluate, Bool.true_eq_false, if_false] at hv
      unfold Spells
      dsimp only
      by_cases hsome : ∃ r ∈ s.rulesIn f.id environmentID, r.Fires evalCtx
          ((segmentRefs (s.rulesIn f.id environmentID)).filter
            (inSegment conn s projectID evalCtx.userID))
      · rcases exists_least_firing _ evalCtx _ (hs.priorities f.id environmentID) hsome
          with ⟨r, hr, hfires, hleast⟩
        rw [evaluateRules_sort_some srt f _ evalCtx _ hwf r hr hfires hleast] at hv
        rcases r.served_ok f evalCtx with ⟨key, hkey⟩
        rw [hkey] at hv
        have hvalue : v.valueKey = key := by
          rw [← Except.ok.inj hv]
          rfl
        rw [hvalue]
        constructor
        · intro hspelt
          refine ⟨fun q hq hqf hqleast => ?_, fun hnone => absurd hfires (hnone r hr)⟩
          -- Two firing rules that are each below every other are one rule.
          have hqr : q = r := by
            by_contra hne
            have hlt := hleast q hq hqf hne
            have hgt := hqleast r hr hfires (Ne.symm hne)
            omega
          rw [hqr, hkey, hspelt]
          rfl
        · intro hspells
          exact Except.ok.inj (hkey.symm.trans (hspells.1 r hr hfires hleast))
      · have hnone : ∀ r ∈ s.rulesIn f.id environmentID, ¬ r.Fires evalCtx
            ((segmentRefs (s.rulesIn f.id environmentID)).filter
              (inSegment conn s projectID evalCtx.userID)) :=
          fun r hr hfires => hsome ⟨r, hr, hfires⟩
        rw [evaluateRules_sort_none srt f _ evalCtx _ hwf hnone] at hv
        have hvalue : v.valueKey = f.defaultVariantKey := by
          rw [← Except.ok.inj hv]
          rfl
        rw [hvalue]
        exact ⟨fun hspelt => ⟨fun r hr hfires _ => absurd hfires (hnone r hr), fun _ => hspelt⟩,
          fun hspells => hspells.2 hnone⟩

/-! ## What the clients answer -/

/-- The variant of a view needs no fallback: where the key is empty, so is the
    value. -/
theorem viewOf_variant (srt : Sorter) (conn : Conn) (s : Store) (projectID environmentID : String)
    (evalCtx : EvalContext) (f : Flag) (v : EvalView)
    (hv : viewOf srt conn s projectID environmentID evalCtx f = .ok v) :
    (Sdk.evaluateResponse v).variant = v.valueKey := by
  -- The view's value, where there is one, is the key served.
  have hvalue : v.value.getD v.valueKey = v.valueKey := by
    unfold viewOf at hv
    cases hres : evaluate srt f (s.states.find? (FlagEnvironmentState.isFor f.id environmentID))
        (s.rulesIn f.id environmentID) evalCtx ((segmentRefs (s.rulesIn f.id environmentID)).filter
          (inSegment conn s projectID evalCtx.userID)) with
    | error e =>
        rw [hres] at hv
        exact (nomatch hv)
    | ok res =>
        rw [hres] at hv
        rw [← Except.ok.inj hv]
        unfold evalView
        by_cases htype : f.type ≠ .bool
        · rw [if_pos htype]
          rfl
        · rw [if_neg htype]
          rfl
  unfold Sdk.BulkFlag.variant Sdk.BulkFlag.valueText Sdk.evaluateResponse
  by_cases hempty : v.valueKey = ""
  · rw [hempty] at hvalue
    simp only [hempty, if_true, hvalue]
  · simp only [hempty, if_false]

/-- Of the flags in the response, the last one with the key of a listed flag
    is the view of that flag. -/
theorem latest_response (uuid : String → Option String) (srt : Sorter) (conn : Conn) (s : Store)
    (hs : EvalStore uuid s) (projectID environmentID : String) (evalCtx : EvalContext)
    (listed : List Flag) (hlisted : ∀ f ∈ listed, f ∈ s.flags ∧ f.projectID = projectID)
    (views : List EvalView) (hviews : List.Forall₂ (fun f v =>
      viewOf srt conn s projectID environmentID evalCtx f = .ok v) listed views)
    (f : Flag) (hf : f ∈ listed) :
    ∃ v, viewOf srt conn s projectID environmentID evalCtx f = .ok v ∧
      Feed.latest Sdk.BulkFlag.key f.key (views.map Sdk.evaluateResponse) =
        some (Sdk.evaluateResponse v) := by
  -- On the response: the last entry of a key decides, and each key has one entry.
  induction hviews using List.Forall₂.rec with
  | nil => exact absurd hf List.not_mem_nil
  | @cons g v rest views hv hrest ih =>
      specialize ih (fun f hf => hlisted f (List.mem_cons_of_mem _ hf))
      rw [List.map_cons, Feed.latest_cons]
      by_cases hin : f ∈ rest
      · rcases ih hin with ⟨v', hv', hlatest⟩
        exact ⟨v', hv', by rw [hlatest, Option.some_or]⟩
      · rcases List.mem_cons.mp hf with rfl | hf
        · refine ⟨v, hv, ?_⟩
          have hnone : Feed.latest Sdk.BulkFlag.key f.key (views.map Sdk.evaluateResponse) =
              none := by
            rw [Feed.latest_none]
            intro resp hresp hkey
            rcases List.mem_map.mp hresp with ⟨v', hv'mem, rfl⟩
            rcases Rows.forall₂_mem_right hrest v' hv'mem with ⟨g, hg, hvg⟩
            have hgkey : g.key = f.key :=
              (viewOf_key _ _ _ _ _ _ g v' hvg).symm.trans hkey
            have hgf := hlisted g (List.mem_cons_of_mem _ hg)
            have hff := hlisted f List.mem_cons_self
            exact hin (hs.keys g hgf.1 f hff.1 (hgf.2.trans hff.2.symm) hgkey ▸ hg)
          have hkey : (Sdk.evaluateResponse v).key = f.key := viewOf_key _ _ _ _ _ _ f v hv
          rw [hnone, Option.none_or, if_pos hkey]
        · exact absurd hf hin

/-- Evaluating all flags of the project answers with a response in which the
    flag stands with its view. -/
theorem response_ends (h : Host) (hfails : ∀ n, h.fails n = false) (ctx : Ctx)
    (ac : AuthContext) (hauth : ctx.auth = some ac) (hrole : roleLevel .viewer ≤ roleLevel ac.role)
    (s : Store) (hs : EvalStore h.uuid s) (environmentID : String) (evalCtx : EvalContext)
    (f : Flag) (hf : f ∈ s.flags) (hsees : Conn.sees ⟨ctx.tenant, h.rls⟩ f.projectID = true)
    (w : World) (hw : Reads s w) :
    ∃ out v, (Proc.run (exec h) (EvaluationService.evaluateAll h.sortSlice ctx f.projectID
        environmentID evalCtx) w).1 = .ok out ∧
      viewOf h.sortSlice ⟨ctx.tenant, h.rls⟩ s f.projectID environmentID evalCtx f = .ok v ∧
      Feed.latest Sdk.BulkFlag.key f.key (out.1.map Sdk.evaluateResponse) =
        some (Sdk.evaluateResponse v) := by
  rcases EvaluationService.evaluateAll_ends h hfails ctx s hs f.projectID environmentID evalCtx ac
    hauth hrole w hw with ⟨⟨out, hrun, hviews⟩, _⟩
  -- The response lists the project's flags, this one among them, and keys are unique there.
  have hlisted : ∀ g ∈ (h.order (w.calls + 1)).sort (fun a b => decide (a.createdAt < b.createdAt))
      (s.flags.filter (fun g => Conn.sees ⟨ctx.tenant, h.rls⟩ g.projectID &&
        g.projectID == f.projectID)), g ∈ s.flags ∧ g.projectID = f.projectID := by
    intro g hg
    rcases List.mem_filter.mp ((Sorter.mem_sort _ _ _ _).mp hg) with ⟨hmem, hgood⟩
    simp only [Bool.and_eq_true, beq_iff_eq] at hgood
    exact ⟨hmem, hgood.2⟩
  have hself : f ∈ (h.order (w.calls + 1)).sort (fun a b => decide (a.createdAt < b.createdAt))
      (s.flags.filter (fun g => Conn.sees ⟨ctx.tenant, h.rls⟩ g.projectID &&
        g.projectID == f.projectID)) := by
    rw [Sorter.mem_sort, List.mem_filter, hsees, Bool.true_and, beq_self_eq_true]
    exact ⟨hf, rfl⟩
  rcases latest_response h.uuid _ _ s hs f.projectID environmentID evalCtx _ hlisted out.1 hviews f
    hself with ⟨v, hv, hlatest⟩
  exact ⟨out, v, hrun, hv, hlatest⟩

/-- The announcement of a toggle. -/
def announced (projectSlug environmentSlug occurredAt : String) (t : String × Bool) :
    Sdk.WireEvent :=
  ⟨Sdk.sseEventType, projectSlug, environmentSlug, t.1, t.2, occurredAt⟩

theorem latest_announced (projectSlug environmentSlug occurredAt k : String)
    (toggles : List (String × Bool)) :
    Feed.latest Sdk.WireEvent.flagKey k
        (toggles.map (announced projectSlug environmentSlug occurredAt)) =
      (Feed.latest Prod.fst k toggles).map (announced projectSlug environmentSlug occurredAt) := by
  induction toggles using List.reverseRecOn with
  | nil => rfl
  | append_singleton toggles t ih =>
      rw [List.map_append, List.map_singleton, Feed.latest_snoc, Feed.latest_snoc, ih]
      by_cases ht : t.1 = k
      · have hkey : (announced projectSlug environmentSlug occurredAt t).flagKey = k := ht
        rw [if_pos hkey, if_pos ht]
        rfl
      · have hkey : ¬ (announced projectSlug environmentSlug occurredAt t).flagKey = k := ht
        rw [if_neg hkey, if_neg ht]

/-- What the plain client answers, given the response. -/
theorem live_answers (r : Sdk.BulkResponse) (k : String) (resp : Sdk.BulkFlag)
    (hlatest : Feed.latest Sdk.BulkFlag.key k r.flags = some resp) :
    Sdk.Go.bool (.answered 200 (some r)) k = .ok (resp.variant == "true") ∧
      Sdk.Go.string (.answered 200 (some r)) k = .ok resp.variant := by
  have hfound : Sdk.Go.evaluate (.answered 200 (some r)) k =
      .ok (Sdk.Go.resultOf r.evaluatedAt resp) := by
    have hentry : Sdk.Go.results r k = some (Sdk.Go.resultOf r.evaluatedAt resp) := by
      rw [Sdk.Go.results, Feed.fill_eq, hlatest]
      rfl
    simp only [Sdk.Go.evaluate, Sdk.Go.doBulkEval, Nat.reduceEqDiff, or_self, if_false,
      Nat.reduceLeDiff, ge_iff_le, ne_eq, not_true, bind, Except.bind, hentry]
  unfold Sdk.Go.bool Sdk.Go.string
  rw [hfound]
  exact ⟨rfl, rfl⟩

/-- The answer of the server to a bulk evaluation request. -/
def answer (format : Time → String) (out : List EvalView × Time) : Sdk.Reply :=
  .answered 200 (some (Sdk.evaluateAllResponse format out))

/-- A cached client seeded with one answer, after the given announcements,
    answers for a key what the plain client makes of another answer. -/
def Substitutes (defaults : List (String × Sdk.Go.FlagDefault))
    (loaded : Option (List (Sdk.EvalResult String))) (format : Time → String)
    (seed now : List EvalView × Time) (events : List Sdk.WireEvent) (k : String) : Prop :=
  ∃ cache, Sdk.Go.bootstrap defaults loaded (answer format seed) = .ok cache ∧
    Sdk.Go.cachedBool (Sdk.Go.bool (answer format now)) (Sdk.Go.applyAll events cache) k =
      Sdk.Go.bool (answer format now) k ∧
    Sdk.Go.cachedString (Sdk.Go.string (answer format now)) (Sdk.Go.applyAll events cache) k =
      Sdk.Go.string (answer format now) k

/-- Substitution in terms of the flags in the two answers. -/
theorem substitutes_iff (defaults : List (String × Sdk.Go.FlagDefault))
    (loaded : Option (List (Sdk.EvalResult String))) (format : Time → String)
    (seed now : List EvalView × Time) (events : List Sdk.WireEvent) (k : String)
    (resp resp' : Sdk.BulkFlag)
    (hresp : Feed.latest Sdk.BulkFlag.key k (seed.1.map Sdk.evaluateResponse) = some resp)
    (hresp' : Feed.latest Sdk.BulkFlag.key k (now.1.map Sdk.evaluateResponse) = some resp') :
    Substitutes defaults loaded format seed now events k ↔
      (Feed.latest Sdk.WireEvent.flagKey k events).elim resp.variant
        (fun e => Sdk.stateText e.enabled) = resp'.variant := by
  have hcached := Sdk.Go.cached_answers (Sdk.Go.bool (answer format now))
    (Sdk.Go.string (answer format now)) (Sdk.evaluateAllResponse format seed) events k resp hresp
  have hlive : Sdk.Go.bool (answer format now) k = .ok (resp'.variant == "true") ∧
      Sdk.Go.string (answer format now) k = .ok resp'.variant :=
    live_answers (Sdk.evaluateAllResponse format now) k resp' hresp'
  -- The seed request answers, so the client starts from its results and not from the
  -- defaults.
  have hboot : ∀ cache, Sdk.Go.bootstrap defaults loaded (answer format seed) = .ok cache ↔
      Sdk.Go.results (Sdk.evaluateAllResponse format seed) = cache := by
    intro cache
    exact ⟨fun heq => Except.ok.inj heq, fun heq => congrArg Except.ok heq⟩
  unfold Substitutes
  simp only [hboot, exists_eq_left']
  rw [hcached.1, hcached.2, hlive.1, hlive.2]
  cases Feed.latest Sdk.WireEvent.flagKey k events with
  | none =>
      simp only [Option.elim_none, Except.ok.injEq]
      refine ⟨fun hboth => hboth.2, fun hsame => ?_⟩
      rw [hsame]
      exact ⟨rfl, rfl⟩
  | some e =>
      simp only [Option.elim_some, Except.ok.injEq]
      refine ⟨fun hboth => hboth.2, fun hsame => ?_⟩
      rw [← hsame]
      exact ⟨(Sdk.stateText_beq_true _).symm, rfl⟩

/-- The cached client is seeded with one bulk evaluation and hears of every
    toggle made since. On a flag of the project it answers what the plain
    client is answered by the server now, exactly when the flag was not toggled
    or what the server serves for it in its new state is spelt like the
    state. -/
theorem cached_substitutes_iff (h : Host) (hfails : ∀ n, h.fails n = false) (ctx : Ctx)
    (ac : AuthContext) (hauth : ctx.auth = some ac) (hrole : roleLevel .viewer ≤ roleLevel ac.role)
    (w : World) (hs : EvalStore h.uuid w.store)
    (hids : ∀ f ∈ w.store.flags, ∀ g ∈ w.store.flags, f.id = g.id → f = g)
    (f : Flag) (hf : f ∈ w.store.flags)
    (hsees : Conn.sees ⟨ctx.tenant, h.rls⟩ f.projectID = true) (environmentID : String)
    (evalCtx : EvalContext) (toggles : List (String × Bool)) (s' : Store)
    (htoggles : Steps (toggleStep f.projectID environmentID) w.store toggles s')
    (w' : World) (hw' : Reads s' w') (defaults : List (String × Sdk.Go.FlagDefault))
    (loaded : Option (List (Sdk.EvalResult String))) (format : Time → String)
    (projectSlug environmentSlug occurredAt : String) :
    ∃ seed now,
      (Proc.run (exec h) (EvaluationService.evaluateAll h.sortSlice ctx f.projectID environmentID
        evalCtx) w).1 = .ok seed ∧
      (Proc.run (exec h) (EvaluationService.evaluateAll h.sortSlice ctx f.projectID environmentID
        evalCtx) w').1 = .ok now ∧
      (Substitutes defaults loaded format seed now
          (toggles.map (announced projectSlug environmentSlug occurredAt)) f.key ↔
        ∀ t, Feed.latest Prod.fst f.key toggles = some t →
          Spells ⟨ctx.tenant, h.rls⟩ w.store f.projectID environmentID evalCtx f t.2) := by
  have hsettled := toggles_settle h.uuid f.projectID environmentID w.store s' hs hids toggles
    htoggles
  have hf' : f ∈ s'.flags := by
    rw [hsettled.flags]
    exact hf
  rcases response_ends h hfails ctx ac hauth hrole w.store hs environmentID evalCtx f hf hsees w
    ⟨rfl, rfl, rfl, rfl, rfl⟩ with ⟨seed, v, hseed, hv, hresp⟩
  rcases response_ends h hfails ctx ac hauth hrole s' hsettled.evalStore environmentID evalCtx
    f hf' hsees w' hw' with ⟨now, v', hnow, hv', hresp'⟩
  refine ⟨seed, now, hseed, hnow, ?_⟩
  rw [substitutes_iff defaults loaded format seed now _ f.key _ _ hresp hresp', latest_announced,
    viewOf_variant _ _ _ _ _ _ f v' hv']
  cases hlast : Feed.latest Prod.fst f.key toggles with
  | none =>
      -- Nothing about the flag has changed.
      rw [hsettled.viewOf_eq _ _ evalCtx f hf rfl hlast, hv] at hv'
      rw [← Except.ok.inj hv', Option.map_none, Option.elim_none, viewOf_variant _ _ _ _ _ _ f v hv]
      exact ⟨fun _ t ht => (nomatch ht), fun _ => rfl⟩
  | some t =>
      have hstate := hsettled.states f hf rfl
      rw [hlast, Option.elim_some] at hstate
      have hspells := viewOf_spells h.uuid h.sortSlice _ s' hsettled.evalStore f.projectID
        environmentID evalCtx f t.2 hstate v' hv'
      rw [hsettled.spells_iff] at hspells
      simp only [Option.map_some, Option.elim_some, Option.some.injEq, forall_eq']
      rw [← hspells]
      exact ⟨fun heq => heq.symm, fun heq => heq.symm⟩

/-- A project with one flag, which is off in its environment. -/
def offStore : Store where
  environments := [⟨"e1", "p1", "Production", "prod", 0⟩]
  flags := [darkMode]
  states := [⟨"f1", "e1", false⟩]

/-- The same with a rule that serves `true` to paying users. -/
def onRuleStore : Store := { offStore with rules := [darkModePaying] }

theorem offStore_evalStore : EvalStore Host.steady.uuid offStore :=
  ⟨by decide, by decide, fun _ _ => List.nodup_nil, by decide, by decide⟩

theorem onRuleStore_evalStore : EvalStore Host.steady.uuid onRuleStore := by
  refine ⟨by decide, by decide, fun flagID environmentID => ?_, by decide, by decide⟩
  exact List.Nodup.sublist (List.filter_sublist.map _) (by decide)

/-- A rule serves `true` to a paying user, and the flag is turned on. -/
theorem cached_substitutes_rule :
    ∃ seed now, Substitutes [] none (fun _ => "") seed now
      [announced "shop" "prod" "2026-03-21T12:00:00Z" ("dark-mode", true)] "dark-mode" := by
  rcases cached_substitutes_iff Host.steady (fun _ => rfl) ⟨some ⟨"u1", .viewer⟩, none⟩
    ⟨"u1", .viewer⟩ rfl (le_refl _) { store := onRuleStore } onRuleStore_evalStore
    (by decide) darkMode
    (by decide) rfl "e1" ⟨"ann", fun _ => some "pro"⟩ [("dark-mode", true)]
    { onRuleStore with states := [⟨"f1", "e1", true⟩] }
    (Steps.single _ _ _ ⟨darkMode, by decide, rfl, rfl, rfl⟩)
    { store := { onRuleStore with states := [⟨"f1", "e1", true⟩] } } ⟨rfl, rfl, rfl, rfl, rfl⟩ []
    none (fun _ => "") "shop" "prod" "2026-03-21T12:00:00Z" with ⟨seed, now, _, _, hiff⟩
  refine ⟨seed, now, hiff.mpr (fun t ht => ?_)⟩
  rw [← Option.some.inj ht]
  refine ⟨fun r hr _ _ => ?_, fun hnone => ?_⟩
  · rw [List.mem_singleton.mp hr]
    rfl
  · exact absurd (by simp [Rule.Fires, darkModePaying, Condition.Holds])
      (hnone darkModePaying (by decide))

/-- A flag without rules whose default is `false` is turned on: the server
    serves `false` and the cached client answers true. -/
theorem cached_client_differs : ¬ ∀ (h : Host), (∀ n, h.fails n = false) → ∀ (w : World),
    EvalStore h.uuid w.store →
    (∀ f ∈ w.store.flags, ∀ g ∈ w.store.flags, f.id = g.id → f = g) →
    ∀ f ∈ w.store.flags, ∀ (evalCtx : EvalContext) (toggles : List (String × Bool)) (s' : Store),
    Steps (toggleStep f.projectID "e1") w.store toggles s' → ∀ (w' : World), Reads s' w' →
    ∀ seed now,
      (Proc.run (exec h) (EvaluationService.evaluateAll h.sortSlice ⟨some ⟨"u1", .viewer⟩, none⟩
        f.projectID "e1" evalCtx) w).1 = .ok seed →
      (Proc.run (exec h) (EvaluationService.evaluateAll h.sortSlice ⟨some ⟨"u1", .viewer⟩, none⟩
        f.projectID "e1" evalCtx) w').1 = .ok now →
      Substitutes [] none (fun _ => "") seed now
        (toggles.map (announced "shop" "prod" "2026-03-21T12:00:00Z")) f.key := by
  intro hall
  -- The flag starts disabled, has no rule, and is toggled on.
  have hone : Steps (toggleStep "p1" "e1") offStore [("dark-mode", true)]
      { offStore with states := [⟨"f1", "e1", true⟩] } :=
    Steps.single _ _ _ ⟨darkMode, by decide, rfl, rfl, rfl⟩
  have hsettled := toggles_settle Host.steady.uuid "p1" "e1" offStore _ offStore_evalStore
    (by decide) _ hone
  rcases response_ends Host.steady (fun _ => rfl) ⟨some ⟨"u1", .viewer⟩, none⟩ ⟨"u1", .viewer⟩ rfl
    (le_refl _) offStore offStore_evalStore "e1" ⟨"ann", fun _ => none⟩ darkMode (by decide) rfl
    { store := offStore } ⟨rfl, rfl, rfl, rfl, rfl⟩ with ⟨seed, v, hseed, hv, hresp⟩
  rcases response_ends Host.steady (fun _ => rfl) ⟨some ⟨"u1", .viewer⟩, none⟩ ⟨"u1", .viewer⟩ rfl
    (le_refl _) _ hsettled.evalStore "e1" ⟨"ann", fun _ => none⟩ darkMode (by decide) rfl
    { store := { offStore with states := [⟨"f1", "e1", true⟩] } } ⟨rfl, rfl, rfl, rfl, rfl⟩
    with ⟨now, v', hnow, hv', hresp'⟩
  have hsub := hall Host.steady (fun _ => rfl) { store := offStore } offStore_evalStore (by decide)
    darkMode (by decide) ⟨"ann", fun _ => none⟩ _ _ hone _ ⟨rfl, rfl, rfl, rfl, rfl⟩ seed now hseed
    hnow
  rw [substitutes_iff _ _ _ _ _ _ _ _ _ hresp hresp', viewOf_variant _ _ _ _ _ _ _ v' hv',
    ← Except.ok.inj hv'] at hsub
  -- The event says on, and the evaluation serves the default.
  change Sdk.stateText true = "false" at hsub
  exact absurd hsub (by decide)

end Cuttlegate
