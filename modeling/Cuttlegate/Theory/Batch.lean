import Cuttlegate.App.EvaluationService
import Cuttlegate.Lib.Rows

/-!
# One Flag and All Flags

Evaluating all flags of a project in an environment gives, for each flag, what
evaluating that flag alone gives.

The two paths read the database differently. One queries the state and the
rules of its flag; the other loads the states and rules of the whole
environment, in whatever order the database returns them, and sorts them into
maps. Both are compared with one description of the answer, `viewOf`, which is
a function of the rows that belong to the flag: its state and its rules in the
environment, and the membership of the user in the segments of the project.
Each path is shown to compute it, and that it is a function of those rows is
why nothing else can influence the answer.

## Main definitions

* `EvalStore`: What evaluation relies on in the database.
* `inSegment`, `viewOf`: The answer for one flag.
* `Reads`: A world that still has the rows evaluation reads.
* `SameForFlag`: Two databases that agree on what belongs to a flag.

## Theorems

* `resolveSegments_ends`: Resolving segments finds those the user is in.
* `EvaluationService.evaluate_ends`: Evaluating one flag gives its view.
* `EvaluationService.evaluateAll_ends`: Evaluating all flags gives theirs.
* `viewOf_congr`: The view depends on the rows of the flag only.
* `evaluateAll_agrees`: The two paths agree.
-/

namespace Cuttlegate

/-- What evaluation relies on: flag keys are unique in a project, a flag has at
    most one state in an environment, its rules there are valid and have
    distinct priorities, and segment ids are in canonical spelling. -/
structure EvalStore (uuid : String → Option String) (s : Store) : Prop where
  keys : ∀ f ∈ s.flags, ∀ g ∈ s.flags, f.projectID = g.projectID → f.key = g.key → f = g
  states : ∀ a ∈ s.states, ∀ b ∈ s.states, a.flagID = b.flagID →
    a.environmentID = b.environmentID → a = b
  priorities : ∀ flagID environmentID, ((s.rules.filter (fun r =>
    r.flagID == flagID && r.environmentID == environmentID)).map (·.priority)).Nodup
  rules : ∀ r ∈ s.rules, r.validate = .ok ()
  segments : ∀ g ∈ s.segments, uuid g.id = some g.id

/-! ## The answer for one flag -/

/-- The rules of a flag in an environment. -/
def Store.rulesIn (s : Store) (flagID environmentID : String) : List Rule :=
  s.rules.filter (fun r => r.flagID == flagID && r.environmentID == environmentID)

/-- Whether a segment exists in the project and contains the user. -/
def inSegment (conn : Conn) (s : Store) (projectID userKey slug : String) : Bool :=
  match s.segments.find? (fun g =>
    conn.sees g.projectID && g.projectID == projectID && g.slug == slug) with
  | some g => s.segmentMembers.any (fun m => m.segmentID == g.id && m.userKey == userKey)
  | none => false

def viewOf (srt : Sorter) (conn : Conn) (s : Store) (projectID environmentID : String)
    (evalCtx : EvalContext) (f : Flag) : Except Err EvalView :=
  (evaluate srt f (s.states.find? (FlagEnvironmentState.isFor f.id environmentID))
    (s.rulesIn f.id environmentID) evalCtx
    ((segmentRefs (s.rulesIn f.id environmentID)).filter
      (inSegment conn s projectID evalCtx.userID))).map (evalView f)

/-- The segments named by rules do not depend on the order of the rules. -/
theorem mem_segmentRefs_of_perm (rules rules' : List Rule) (hperm : rules.Perm rules')
    (slug : String) : slug ∈ segmentRefs rules ↔ slug ∈ segmentRefs rules' := by
  simp only [segmentRefs, List.mem_eraseDups, List.mem_flatMap, hperm.mem_iff]

/-- A view computed from the rules in any order, and from any list of the
    segments that contain the user. -/
theorem viewOf_of_perm (uuid : String → Option String) (srt : Sorter) (conn : Conn) (s : Store)
    (hs : EvalStore uuid s) (projectID environmentID : String) (evalCtx : EvalContext) (f : Flag)
    (rules : List Rule) (hperm : rules.Perm (s.rulesIn f.id environmentID)) (segs : List String)
    (hsegs : ∀ slug, slug ∈ segs ↔ slug ∈ segmentRefs rules ∧
      inSegment conn s projectID evalCtx.userID slug = true) :
    ∃ res, evaluate srt f (s.states.find? (FlagEnvironmentState.isFor f.id environmentID)) rules
        evalCtx segs = .ok res ∧
      viewOf srt conn s projectID environmentID evalCtx f = .ok (evalView f res) := by
  have hvalid : ∀ r ∈ rules, ∀ c ∈ r.conditions, c.WellFormed := by
    intro r hr
    have hmem := List.mem_of_mem_filter (hperm.mem_iff.mp hr)
    exact ((Rule.validate_ok_iff r).mp (hs.rules r hmem)).wellFormed
  rcases evaluate_total srt f _ rules hvalid evalCtx segs with ⟨res, hres⟩
  refine ⟨res, hres, ?_⟩
  have hsame : ∀ slug, slug ∈ segs ↔ slug ∈ (segmentRefs (s.rulesIn f.id environmentID)).filter
      (inSegment conn s projectID evalCtx.userID) := by
    intro slug
    rw [hsegs slug, List.mem_filter, mem_segmentRefs_of_perm rules _ hperm slug]
  -- Priorities are unique in the store, so the order the rules come in does not matter.
  have hdistinct : (rules.map (·.priority)).Nodup :=
    (hperm.map _).nodup_iff.mpr (hs.priorities f.id environmentID)
  unfold viewOf
  rw [← evaluate_congr srt f _ rules _ hperm hdistinct evalCtx segs _ hsame, hres]
  rfl

/-! ## Runs -/

/-- The world still has the rows of the store that evaluation reads. -/
structure Reads (s : Store) (w : World) : Prop where
  flags : w.store.flags = s.flags
  states : w.store.states = s.states
  rules : w.store.rules = s.rules
  segments : w.store.segments = s.segments
  segmentMembers : w.store.segmentMembers = s.segmentMembers

theorem Reads.tick (s : Store) (w : World) (hw : Reads s w) : Reads s w.tick :=
  ⟨hw.flags, hw.states, hw.rules, hw.segments, hw.segmentMembers⟩

/-- Evaluation leaves behind audit events and records of itself only. -/
theorem Reads.run {α : Type} (h : Host) (p : Prog α) (hp : Within [.auditEvents, .evaluations] p)
    (s : Store) (w w' : World) (r : Except Err α) (hw : Reads s w)
    (hrun : Proc.run (exec h) p w = (r, w')) : Reads s w' := by
  have hsame : ∀ t, t ∉ [Tbl.auditEvents, .evaluations] → w.Same w' t := by
    intro t ht
    have hframe := Within.same h p hp t ht w
    rw [hrun] at hframe
    exact hframe
  exact ⟨(hsame .flags (by decide)).trans hw.flags, (hsame .states (by decide)).trans hw.states,
    (hsame .rules (by decide)).trans hw.rules, (hsame .segments (by decide)).trans hw.segments,
    (hsame .segmentMembers (by decide)).trans hw.segmentMembers⟩

section Runs

variable (h : Host) (hfails : ∀ n, h.fails n = false) (ctx : Ctx) (s : Store)

/-- The run answers with a value, and leaves the rows that evaluation reads. -/
def Answers {α : Type} (Q : α → Prop) (r : Except Err α) (w : World) : Prop :=
  (∃ a, r = .ok a ∧ Q a) ∧ Reads s w

/-- Answers compose. -/
theorem answers_bind {α β : Type} {P : α → Prop} {Q : β → Prop} (x : Prog α) (k : α → Prog β)
    (w : World) (hx : Proc.Ends (exec h) (Answers s P) x w)
    (hk : ∀ a w', P a → Reads s w' → Proc.Ends (exec h) (Answers s Q) (k a) w') :
    Proc.Ends (exec h) (Answers s Q) (x >>= k) w := by
  refine Proc.ends_seq x k w hx (fun e w' hno => ?_) (fun a w' hyes => ?_)
  · rcases hno.1 with ⟨a, ha, _⟩
    exact (nomatch ha)
  · rcases hyes with ⟨⟨b, hb, hP⟩, hreads⟩
    rw [← Except.ok.inj hb] at hP
    exact hk a w' hP hreads

include hfails

/-- The loop keeps the segments the user is in. -/
theorem resolveLoop_ends (hids : ∀ g ∈ s.segments, h.uuid g.id = some g.id)
    (projectID flagID environmentID userKey : String) (slugs : List String) (w : World)
    (hw : Reads s w) :
    Proc.Ends (exec h)
      (Answers s (fun segs => segs =
        slugs.filter (inSegment ⟨ctx.tenant, h.rls⟩ s projectID userKey)))
      (resolveLoop ctx projectID flagID environmentID userKey slugs) w := by
  induction slugs generalizing w with
  | nil => exact ⟨⟨[], rfl, rfl⟩, hw⟩
  | cons slug rest ih =>
      rw [List.filter_cons]
      cases hfind : s.segments.find? (fun g => Conn.sees ⟨ctx.tenant, h.rls⟩ g.projectID &&
          g.projectID == projectID && g.slug == slug) with
      | none =>
          -- The segment is gone, which is recorded and counts as not being in it.
          have hlookup : (Op.segmentBySlug projectID slug).perform h ⟨ctx.tenant, h.rls⟩ w
              = .error .notFound := by
            refine World.onStore_noRow w _ ?_
            rw [hw.segments, hfind]
          have hout : inSegment ⟨ctx.tenant, h.rls⟩ s projectID userKey slug = false := by
            simp only [inSegment, hfind]
          rw [hout, if_neg Bool.false_ne_true]
          refine ends_attempt_call hfails ctx _ _ w (fun g w' hp => ?_) (fun e hp => ?_)
          · rw [hlookup] at hp
            cases hp
          · rw [hlookup, Except.error.injEq] at hp
            rw [← hp]
            refine ends_bestEffort _ _ _ (fun r w' hrun => ih w' ?_)
            refine (hw.tick s w).run h _ ?_ s _ w' r hrun
            exact within_call ctx _ (by simp [Op.writes])
      | some g =>
          -- The segment exists, and the user is in it or not.
          have hlookup : (Op.segmentBySlug projectID slug).perform h ⟨ctx.tenant, h.rls⟩ w
              = .ok (g, w) := by
            refine World.onStore_row w _ g ?_
            rw [hw.segments, hfind]
          have hcanon := hids g (List.mem_of_find?_eq_some hfind)
          have hmember : (Op.isMember g.id userKey).perform h ⟨ctx.tenant, h.rls⟩ w.tick
              = .ok (inSegment ⟨ctx.tenant, h.rls⟩ s projectID userKey slug, w.tick) := by
            simp only [Op.perform, World.onStore, Cuttlegate.isMember, hcanon, inSegment, hfind,
              World.tick_store, hw.segmentMembers]
            rfl
          refine ends_attempt_call hfails ctx _ _ w (fun g' w' hp => ?_) (fun e hp => ?_)
          · rw [hlookup] at hp
            rcases Prod.mk.inj (Except.ok.inj hp) with ⟨rfl, rfl⟩
            refine ends_answer hfails ctx _ _ _ _ _ hmember ?_
            refine answers_bind h s _ _ _ (ih _ (((hw.tick s w).tick s _)))
              (fun found w' hfound hw' => ?_)
            refine ⟨⟨_, rfl, ?_⟩, hw'⟩
            rw [hfound]
          · rw [hlookup] at hp
            cases hp

/-- Resolving segments finds those named by the rules that contain the user. -/
theorem resolveSegments_ends (hids : ∀ g ∈ s.segments, h.uuid g.id = some g.id)
    (projectID flagID environmentID : String) (rules : List Rule) (userKey : String) (w : World)
    (hw : Reads s w) :
    Proc.Ends (exec h)
      (Answers s (fun segs => ∀ slug, slug ∈ segs ↔ slug ∈ segmentRefs rules ∧
        inSegment ⟨ctx.tenant, h.rls⟩ s projectID userKey slug = true))
      (resolveSegments ctx projectID flagID environmentID rules userKey) w := by
  unfold resolveSegments
  by_cases hnone : (segmentRefs rules).length = 0
  · simp only [if_pos hnone]
    refine ⟨⟨[], rfl, fun slug => ?_⟩, hw⟩
    rw [List.length_eq_zero_iff.mp hnone]
    simp
  · simp only [if_neg hnone]
    refine ends_answer hfails ctx _ _ _ _ _ rfl ?_
    refine Proc.ends_mono _ _ (resolveLoop_ends h hfails ctx s hids projectID flagID environmentID
      userKey _ _ (hw.tick s w)) (fun r w' hr => ?_)
    rcases hr with ⟨⟨segs, hsegs, hfilter⟩, hw'⟩
    refine ⟨⟨segs, hsegs, fun slug => ?_⟩, hw'⟩
    rw [hfilter, List.mem_filter, Sorter.mem_sort]

/-- Recording an evaluation never stands in the way of it. -/
theorem publishEvent_ends (projectID environmentID : String) (flag : Flag) (evalCtx : EvalContext)
    (result : EvalResult) (now : Time) (w : World) (hw : Reads s w) :
    Proc.Ends (exec h) (Answers s (fun _ => True))
      (publishEvent ctx projectID environmentID flag evalCtx result now) w := by
  have hreads := hw.run h _
    (publishEvent_within ctx projectID environmentID flag evalCtx result now)
    s w _ _ rfl
  refine ⟨⟨(), ?_, trivial⟩, hreads⟩
  have hends : Proc.Ends (exec h) (fun r _ => r = .ok ())
      (publishEvent ctx projectID environmentID flag evalCtx result now) w := by
    refine Proc.ends_attempt _ _ w (fun r w' _ => ?_)
    cases r with
    | error e => rfl
    | ok id =>
        unfold Proc.Ends
        simp only [Ctx.call, Proc.run_call, exec_steady h hfails]
        rfl
  exact hends

/-- The tail of an evaluation: find the segments, evaluate, record, answer. -/
theorem evaluated_ends (hs : EvalStore h.uuid s) (projectID environmentID : String)
    (evalCtx : EvalContext) (f : Flag) (rules : List Rule)
    (hperm : rules.Perm (s.rulesIn f.id environmentID)) (segs : List String)
    (hsegs : ∀ slug, slug ∈ segs ↔ slug ∈ segmentRefs rules ∧
      inSegment ⟨ctx.tenant, h.rls⟩ s projectID evalCtx.userID slug = true)
    (now : Time) {β : Type} {Q : β → Prop} (k : EvalView → Prog β) (w : World) (hw : Reads s w)
    (hk : ∀ v w',
        viewOf h.sortSlice ⟨ctx.tenant, h.rls⟩ s projectID environmentID evalCtx f = .ok v →
      Reads s w' → Proc.Ends (exec h) (Answers s Q) (k v) w') :
    Proc.Ends (exec h) (Answers s Q)
      (check (Cuttlegate.evaluate h.sortSlice f
        (s.states.find? (FlagEnvironmentState.isFor f.id environmentID)) rules evalCtx segs) >>=
        fun result => publishEvent ctx projectID environmentID f evalCtx result now >>=
          fun _ => k (evalView f result)) w := by
  rcases viewOf_of_perm h.uuid h.sortSlice ⟨ctx.tenant, h.rls⟩ s hs projectID environmentID
    evalCtx f rules hperm segs hsegs with ⟨res, hres, hview⟩
  rw [hres]
  refine ends_check _ _ w (fun e he => (nomatch he)) (fun res' hres' => ?_)
  rw [← Except.ok.inj hres']
  exact answers_bind h s _ _ w
    (publishEvent_ends h hfails ctx s projectID environmentID f evalCtx res now w hw)
    (fun _ w' _ hw' => hk _ w' hview hw')

/-! ## One flag -/

omit hfails in
/-- A flag of the project is found by its key. -/
theorem find_flag (uuid : String → Option String) (conn : Conn) (hs : EvalStore uuid s)
    (f : Flag) (hf : f ∈ s.flags) (hsees : conn.sees f.projectID = true) :
    s.flags.find? (fun g => conn.sees g.projectID && g.projectID == f.projectID && g.key == f.key)
      = some f := by
  refine (Rows.find_unique_iff _ s.flags (fun g hg g' hg' hkey hkey' => ?_) f).mpr ⟨hf, ?_⟩
  · simp only [Bool.and_eq_true, beq_iff_eq] at hkey hkey'
    exact hs.keys g hg g' hg' (hkey.1.2.trans hkey'.1.2.symm) (hkey.2.trans hkey'.2.symm)
  · simp [hsees]

/-- Evaluating a flag of the project gives its view. -/
theorem EvaluationService.evaluate_ends (hs : EvalStore h.uuid s) (environmentID : String)
    (evalCtx : EvalContext) (f : Flag) (hf : f ∈ s.flags)
    (hsees : Conn.sees ⟨ctx.tenant, h.rls⟩ f.projectID = true) (ac : AuthContext)
    (hauth : ctx.auth = some ac) (hrole : roleLevel .viewer ≤ roleLevel ac.role) (w : World)
    (hw : Reads s w) :
    Proc.Ends (exec h)
      (Answers s (fun v =>
        viewOf h.sortSlice ⟨ctx.tenant, h.rls⟩ s f.projectID environmentID evalCtx f = .ok v))
      (EvaluationService.evaluate h.sortSlice ctx f.projectID environmentID f.key evalCtx) w := by
  refine ends_require ctx _ _ w (fun hlow => ?_) (fun _ _ _ => ?_)
  · exact absurd hrole (Nat.not_le.mpr (hlow ac hauth))
  -- The four reads answer from the store, in the order the service makes them.
  have hflag : (Op.flagByKey f.projectID f.key).perform h ⟨ctx.tenant, h.rls⟩ w = .ok (f, w) := by
    refine World.onStore_row w _ f ?_
    rw [hw.flags]
    exact find_flag s h.uuid _ hs f hf hsees
  refine ends_answer hfails ctx _ _ w w f hflag ?_
  have hw₁ := hw.tick s w
  have hstate : (Op.stateOf f.id environmentID).perform h ⟨ctx.tenant, h.rls⟩ w.tick =
      .ok (s.states.find? (FlagEnvironmentState.isFor f.id environmentID), w.tick) := by
    rw [← hw₁.states]
    rfl
  refine ends_answer hfails ctx _ _ _ _ _ hstate ?_
  have hw₂ := hw₁.tick s _
  refine ends_answer hfails ctx _ _ _ _ _ rfl ?_
  have hperm : ((h.order w.tick.tick.calls).sort (fun a b => decide (a.priority < b.priority))
      (w.tick.tick.store.rules.filter (fun r =>
        r.flagID == f.id && r.environmentID == environmentID))).Perm
      (s.rulesIn f.id environmentID) := by
    rw [hw₂.rules]
    exact Sorter.perm _ _ _
  have hw₃ := hw₂.tick s _
  -- Resolving the segments may write, but nothing an evaluation reads.
  refine answers_bind h s _ _ _ (resolveSegments_ends h hfails ctx s hs.segments f.projectID f.id
    environmentID _ evalCtx.userID _ hw₃) (fun segs w₄ hsegs hw₄ => ?_)
  refine ends_answer hfails ctx _ _ _ _ _ rfl ?_
  refine evaluated_ends h hfails ctx s hs f.projectID environmentID evalCtx f _ hperm segs hsegs _
    Proc.ret _ (hw₄.tick s _) (fun v w' hv hw' => ?_)
  exact ⟨⟨v, rfl, hv⟩, hw'⟩

end Runs

/-! ## All flags -/

/-- Filling a map entry by entry: the last entry for a key stays. -/
theorem mapLoop_append {α β : Type} (key : α → String) (val : α → β) (l : List α) (a : α)
    (k : String) :
    mapLoop key val (l ++ [a]) k = if k = key a then some (val a) else mapLoop key val l k := by
  unfold mapLoop
  rw [List.foldl_append]
  rfl

/-- With one entry for each key, the map finds it. -/
theorem mapLoop_eq_some {α : Type} (key : α → String) (l : List α)
    (hone : ∀ a ∈ l, ∀ b ∈ l, key a = key b → a = b) (k : String) (a : α) :
    mapLoop key (fun x => x) l k = some a ↔ a ∈ l ∧ key a = k := by
  -- From the end, since the last assignment to a key wins.
  induction l using List.reverseRecOn with
  | nil => simp [mapLoop]
  | append_singleton l b ih =>
      have hmem : b ∈ l ++ [b] := List.mem_append_right _ (List.mem_singleton.mpr rfl)
      specialize ih (fun x hx y hy =>
        hone x (List.mem_append_left _ hx) y (List.mem_append_left _ hy))
      rw [mapLoop_append]
      by_cases hk : k = key b
      · rw [if_pos hk, Option.some.injEq]
        constructor
        · rintro rfl
          exact ⟨hmem, hk.symm⟩
        · rintro ⟨ha, hka⟩
          exact (hone a ha b hmem (hka.trans hk)).symm
      · rw [if_neg hk, ih, List.mem_append, List.mem_singleton]
        constructor
        · exact fun ⟨ha, hka⟩ => ⟨.inl ha, hka⟩
        · rintro ⟨ha | rfl, hka⟩
          · exact ⟨ha, hka⟩
          · exact absurd hka.symm hk

/-- Grouping rules by flag keeps, for each flag, its rules. -/
theorem groupRules_eq (rules : List Rule) (k : String) :
    EvaluationService.groupRules rules k = rules.filter (fun r => r.flagID == k) := by
  induction rules using List.reverseRecOn with
  | nil => rfl
  | append_singleton rules r ih =>
      have hstep : EvaluationService.groupRules (rules ++ [r]) k =
          if k = r.flagID then EvaluationService.groupRules rules k ++ [r]
          else EvaluationService.groupRules rules k := by
        unfold EvaluationService.groupRules
        rw [List.foldl_append]
        rfl
      rw [hstep, ih, List.filter_append]
      by_cases hk : k = r.flagID
      · simp [hk]
      · simp [hk, Ne.symm hk]

section Batch

variable (h : Host) (hfails : ∀ n, h.fails n = false) (ctx : Ctx) (s : Store)

/-- The state the map has for a flag is the one the query finds. -/
theorem stateByFlag_eq (uuid : String → Option String) (hs : EvalStore uuid s) (order : Sorter)
    (flagID environmentID : String) :
    mapLoop (·.flagID) (fun st => st) (order.sort (fun _ _ => false)
        (s.states.filter (fun st => st.environmentID == environmentID))) flagID =
      s.states.find? (FlagEnvironmentState.isFor flagID environmentID) := by
  have hmem : ∀ st, st ∈ order.sort (fun _ _ => false)
      (s.states.filter (fun st => st.environmentID == environmentID)) ↔
      st ∈ s.states ∧ st.environmentID = environmentID := by
    intro st
    rw [Sorter.mem_sort, List.mem_filter, beq_iff_eq]
  -- Both lookups find the one row the store has for the flag and environment.
  refine Option.ext (fun st => ?_)
  rw [mapLoop_eq_some]
  · rw [hmem]
    constructor
    · rintro ⟨⟨hst, henv⟩, hflag⟩
      have hfor : st.isFor flagID environmentID = true := by
        simp [FlagEnvironmentState.isFor, hflag, henv]
      cases hfind : s.states.find? (FlagEnvironmentState.isFor flagID environmentID) with
      | none => exact absurd hfor (List.find?_eq_none.mp hfind st hst)
      | some st' =>
          have hfor' := List.find?_some hfind
          simp only [FlagEnvironmentState.isFor, Bool.and_eq_true, beq_iff_eq] at hfor'
          rw [hs.states st' (List.mem_of_find?_eq_some hfind) st hst (hfor'.1.trans hflag.symm)
            (hfor'.2.trans henv.symm)]
    · intro hfind
      have hfor := List.find?_some hfind
      simp only [FlagEnvironmentState.isFor, Bool.and_eq_true, beq_iff_eq] at hfor
      exact ⟨⟨List.mem_of_find?_eq_some hfind, hfor.2⟩, hfor.1⟩
  · intro a ha b hb hab
    rcases (hmem a).mp ha with ⟨ha, hea⟩
    rcases (hmem b).mp hb with ⟨hb, heb⟩
    exact hs.states a ha b hb hab (hea.trans heb.symm)

/-- The rules the map has for a flag are those the query lists, in some
    order. -/
theorem rulesByFlag_perm (order : Sorter) (less : Rule → Rule → Bool)
    (flagID environmentID : String) :
    (EvaluationService.groupRules (order.sort less
      (s.rules.filter (fun r => r.environmentID == environmentID))) flagID).Perm
      (s.rulesIn flagID environmentID) := by
  rw [groupRules_eq]
  have hfilter : s.rulesIn flagID environmentID =
      (s.rules.filter (fun r => r.environmentID == environmentID)).filter
        (fun r => r.flagID == flagID) := by
    rw [List.filter_filter]
    rfl
  rw [hfilter]
  exact (order.perm less _).filter _

include hfails

/-- The loop over the flags gives each of them its view, in their order. -/
theorem EvaluationService.evaluateLoop_ends (hs : EvalStore h.uuid s)
    (projectID environmentID : String) (evalCtx : EvalContext) (evaluatedAt : Time)
    (stateByFlag : String → Option FlagEnvironmentState) (rulesByFlag : String → List Rule)
    (hstate : ∀ id, stateByFlag id = s.states.find? (FlagEnvironmentState.isFor id environmentID))
    (hrules : ∀ id, (rulesByFlag id).Perm (s.rulesIn id environmentID)) (flags : List Flag)
    (w : World) (hw : Reads s w) :
    Proc.Ends (exec h)
      (Answers s (fun views => List.Forall₂ (fun f v =>
        viewOf h.sortSlice ⟨ctx.tenant, h.rls⟩ s projectID environmentID evalCtx f = .ok v)
        flags views))
      (EvaluationService.evaluateLoop h.sortSlice ctx projectID environmentID evalCtx evaluatedAt
        stateByFlag rulesByFlag flags) w := by
  -- On the flags, with the store read the same in every round.
  induction flags generalizing w with
  | nil => exact ⟨⟨[], rfl, List.Forall₂.nil⟩, hw⟩
  | cons f rest ih =>
      refine answers_bind h s _ _ w (resolveSegments_ends h hfails ctx s hs.segments projectID f.id
        environmentID _ evalCtx.userID w hw) (fun segs w₁ hsegs hw₁ => ?_)
      rw [hstate f.id]
      refine evaluated_ends h hfails ctx s hs projectID environmentID evalCtx f _ (hrules f.id) segs
        hsegs _ (fun v => EvaluationService.evaluateLoop h.sortSlice ctx projectID environmentID
          evalCtx evaluatedAt stateByFlag rulesByFlag rest >>= fun views => Proc.ret (v :: views))
        w₁ hw₁ (fun v w₂ hv hw₂ => ?_)
      refine answers_bind h s _ _ w₂ (ih w₂ hw₂) (fun views w₃ hviews hw₃ => ?_)
      exact ⟨⟨_, rfl, List.Forall₂.cons hv hviews⟩, hw₃⟩

/-- Evaluating all flags gives each flag of the project its view, in the order
    the project lists them. -/
theorem EvaluationService.evaluateAll_ends (hs : EvalStore h.uuid s)
    (projectID environmentID : String) (evalCtx : EvalContext) (ac : AuthContext)
    (hauth : ctx.auth = some ac) (hrole : roleLevel .viewer ≤ roleLevel ac.role) (w : World)
    (hw : Reads s w) :
    Proc.Ends (exec h)
      (Answers s (fun out => List.Forall₂ (fun f v =>
        viewOf h.sortSlice ⟨ctx.tenant, h.rls⟩ s projectID environmentID evalCtx f = .ok v)
        ((h.order (w.calls + 1)).sort (fun a b => decide (a.createdAt < b.createdAt))
          (s.flags.filter (fun f =>
            Conn.sees ⟨ctx.tenant, h.rls⟩ f.projectID && f.projectID == projectID))) out.1))
      (EvaluationService.evaluateAll h.sortSlice ctx projectID environmentID evalCtx) w := by
  refine ends_require ctx _ _ w (fun hlow => ?_) (fun _ _ _ => ?_)
  · exact absurd hrole (Nat.not_le.mpr (hlow ac hauth))
  -- The time, the flags, and the states and rules of the whole environment.
  refine ends_answer hfails ctx _ _ w w _ rfl ?_
  have hw₁ := hw.tick s w
  have hflags : (Op.listFlags projectID).perform h ⟨ctx.tenant, h.rls⟩ w.tick =
      .ok ((h.order (w.calls + 1)).sort (fun a b => decide (a.createdAt < b.createdAt))
        (s.flags.filter (fun f =>
          Conn.sees ⟨ctx.tenant, h.rls⟩ f.projectID && f.projectID == projectID)), w.tick) := by
    rw [← hw₁.flags]
    rfl
  refine ends_answer hfails ctx _ _ w.tick w.tick _ hflags ?_
  have hw₂ := hw₁.tick s _
  have hstates : (Op.listStates environmentID).perform h ⟨ctx.tenant, h.rls⟩ w.tick.tick =
      .ok ((h.order (w.calls + 2)).sort (fun _ _ => false)
        (s.states.filter (fun st => st.environmentID == environmentID)), w.tick.tick) := by
    rw [← hw₂.states]
    rfl
  refine ends_answer hfails ctx _ _ w.tick.tick w.tick.tick _ hstates ?_
  have hw₃ := hw₂.tick s _
  have hrules : (Op.listRulesByEnvironment environmentID).perform h ⟨ctx.tenant, h.rls⟩
      w.tick.tick.tick =
      .ok ((h.order (w.calls + 3)).sort (fun a b => decide (a.flagID < b.flagID) ||
          (a.flagID == b.flagID && decide (a.priority < b.priority)))
        (s.rules.filter (fun r => r.environmentID == environmentID)), w.tick.tick.tick) := by
    rw [← hw₃.rules]
    rfl
  refine ends_answer hfails ctx _ _ w.tick.tick.tick w.tick.tick.tick _ hrules ?_
  have hw₄ := hw₃.tick s _
  refine answers_bind h s _ _ _ (EvaluationService.evaluateLoop_ends h hfails ctx s hs projectID
    environmentID evalCtx _ _ _ (fun id => stateByFlag_eq s h.uuid hs _ id environmentID)
    (fun id => rulesByFlag_perm s _ _ id environmentID) _ _ hw₄) (fun views w' hviews hw' => ?_)
  exact ⟨⟨_, rfl, hviews⟩, hw'⟩

end Batch

/-! ## What belongs to a flag -/

/-- Two databases agree on what belongs to a flag of the project in an
    environment: the flag, its state and rules there, and the segments of the
    project with their members. -/
structure SameForFlag (projectID environmentID : String) (f : Flag) (s s₂ : Store) : Prop where
  flag : f ∈ s₂.flags
  states : s₂.states.filter (FlagEnvironmentState.isFor f.id environmentID) =
    s.states.filter (FlagEnvironmentState.isFor f.id environmentID)
  rules : s₂.rulesIn f.id environmentID = s.rulesIn f.id environmentID
  segments : s₂.segments.filter (fun g => g.projectID == projectID) =
    s.segments.filter (fun g => g.projectID == projectID)
  segmentMembers : ∀ g ∈ s.segments, g.projectID = projectID →
    s₂.segmentMembers.filter (fun m => m.segmentID == g.id) =
      s.segmentMembers.filter (fun m => m.segmentID == g.id)

/-- Membership in a segment is settled by the rows of the project. -/
theorem inSegment_congr (conn : Conn) (projectID environmentID : String) (f : Flag) (s s₂ : Store)
    (hsame : SameForFlag projectID environmentID f s s₂) (userKey slug : String) :
    inSegment conn s₂ projectID userKey slug = inSegment conn s projectID userKey slug := by
  have hsub : ∀ g : Segment, (conn.sees g.projectID && g.projectID == projectID && g.slug == slug)
      = true → (g.projectID == projectID) = true := by
    intro g hg
    simp only [Bool.and_eq_true] at hg
    exact hg.1.2
  have hfind := Rows.find_congr (fun g : Segment => g.projectID == projectID) _ s.segments
    s₂.segments hsub hsame.segments
  unfold inSegment
  rw [hfind]
  cases hg : s.segments.find? (fun g =>
      conn.sees g.projectID && g.projectID == projectID && g.slug == slug) with
  | none => rfl
  | some g =>
      have hgood := List.find?_some hg
      simp only [Bool.and_eq_true, beq_iff_eq] at hgood
      have hmembers := hsame.segmentMembers g (List.mem_of_find?_eq_some hg) hgood.1.2
      -- Both sides ask whether some member of the segment has the user's key.
      have hany : ∀ l : List SegmentMember,
          l.any (fun m => m.segmentID == g.id && m.userKey == userKey) =
            (l.filter (fun m => m.segmentID == g.id)).any (fun m => m.userKey == userKey) := by
        intro l
        rw [List.any_filter]
      simp only [hany, hmembers]

/-- The view of a flag depends only on what belongs to it. -/
theorem viewOf_congr (srt : Sorter) (conn : Conn) (projectID environmentID : String)
    (evalCtx : EvalContext) (f : Flag) (s s₂ : Store)
    (hsame : SameForFlag projectID environmentID f s s₂) :
    viewOf srt conn s₂ projectID environmentID evalCtx f =
      viewOf srt conn s projectID environmentID evalCtx f := by
  have hstate := Rows.find_congr (FlagEnvironmentState.isFor f.id environmentID)
    (FlagEnvironmentState.isFor f.id environmentID) s.states s₂.states (fun _ hp => hp) hsame.states
  have hsegs : inSegment conn s₂ projectID evalCtx.userID =
      inSegment conn s projectID evalCtx.userID :=
    funext (inSegment_congr conn projectID environmentID f s s₂ hsame evalCtx.userID)
  unfold viewOf
  rw [hstate, hsame.rules, hsegs]

/-- A view carries the key of its flag. -/
theorem viewOf_key (srt : Sorter) (conn : Conn) (s : Store) (projectID environmentID : String)
    (evalCtx : EvalContext) (f : Flag) (v : EvalView)
    (hv : viewOf srt conn s projectID environmentID evalCtx f = .ok v) : v.key = f.key := by
  unfold viewOf at hv
  cases hres : evaluate srt f (s.states.find? (FlagEnvironmentState.isFor f.id environmentID))
      (s.rulesIn f.id environmentID) evalCtx ((segmentRefs (s.rulesIn f.id environmentID)).filter
        (inSegment conn s projectID evalCtx.userID)) with
  | error e =>
      rw [hres] at hv
      exact (nomatch hv)
  | ok res =>
      rw [hres] at hv
      rw [← Except.ok.inj hv]
      rfl

/-! ## The two paths -/

/-- The flags of the project that the connection sees, as the database lists
    them. -/
def listedFlags (order : Sorter) (conn : Conn) (s : Store) (projectID : String) : List Flag :=
  order.sort (fun a b => decide (a.createdAt < b.createdAt))
    (s.flags.filter (fun f => conn.sees f.projectID && f.projectID == projectID))

/-- Evaluating all flags answers with one view for each flag of the project, in
    the order the project lists them, and each is what evaluating that flag
    alone answers, from any database that agrees on what belongs to it. -/
theorem evaluateAll_agrees (h : Host) (hfails : ∀ n, h.fails n = false) (ctx : Ctx)
    (ac : AuthContext) (hauth : ctx.auth = some ac) (hrole : roleLevel .viewer ≤ roleLevel ac.role)
    (w : World) (hs : EvalStore h.uuid w.store) (projectID environmentID : String)
    (evalCtx : EvalContext) :
    ∃ views evaluatedAt,
      (Proc.run (exec h) (EvaluationService.evaluateAll h.sortSlice ctx projectID environmentID
        evalCtx) w).1 = .ok (views, evaluatedAt) ∧
      (listedFlags (h.order (w.calls + 1)) ⟨ctx.tenant, h.rls⟩ w.store projectID).Perm
        (w.store.flags.filter (fun f =>
          Conn.sees ⟨ctx.tenant, h.rls⟩ f.projectID && f.projectID == projectID)) ∧
      List.Forall₂ (fun f v => v.key = f.key ∧
          ∀ w₂ : World, EvalStore h.uuid w₂.store →
            SameForFlag projectID environmentID f w.store w₂.store →
            (Proc.run (exec h) (EvaluationService.evaluate h.sortSlice ctx projectID environmentID
              f.key evalCtx) w₂).1 = .ok v)
        (listedFlags (h.order (w.calls + 1)) ⟨ctx.tenant, h.rls⟩ w.store projectID) views := by
  have hall := EvaluationService.evaluateAll_ends h hfails ctx w.store hs projectID environmentID
    evalCtx ac hauth hrole w ⟨rfl, rfl, rfl, rfl, rfl⟩
  rcases hall with ⟨⟨⟨views, evaluatedAt⟩, hrun, hviews⟩, _⟩
  refine ⟨views, evaluatedAt, hrun, Sorter.perm _ _ _, ?_⟩
  -- What is listed is the project's, so each flag is evaluated under its own project.
  have hlisted : ∀ f ∈ listedFlags (h.order (w.calls + 1)) ⟨ctx.tenant, h.rls⟩ w.store projectID,
      f.projectID = projectID ∧ Conn.sees ⟨ctx.tenant, h.rls⟩ f.projectID = true := by
    intro f hf
    have hmem := (List.mem_filter.mp ((Sorter.mem_sort _ _ _ _).mp hf)).2
    simp only [Bool.and_eq_true, beq_iff_eq] at hmem
    exact ⟨hmem.2, hmem.1⟩
  refine List.forall₂_iff_zip.mpr ⟨hviews.length_eq, @fun f v hmem => ?_⟩
  have hv := (List.forall₂_iff_zip.mp hviews).2 hmem
  rcases hlisted f (List.of_mem_zip hmem).1 with ⟨rfl, hsees⟩
  refine ⟨viewOf_key _ _ _ _ _ _ f v hv, fun w₂ hs₂ hsame => ?_⟩
  -- The single evaluation reads the same rows, hence gives the same view.
  have hone := EvaluationService.evaluate_ends h hfails ctx w₂.store hs₂ environmentID evalCtx f
    hsame.flag hsees ac hauth hrole w₂ ⟨rfl, rfl, rfl, rfl, rfl⟩
  rcases hone with ⟨⟨v₂, hrun₂, hv₂⟩, _⟩
  rw [viewOf_congr _ _ _ _ _ f w.store w₂.store hsame, hv] at hv₂
  rw [Except.ok.inj hv₂]
  exact hrun₂

/-- A project with two flags, one of which is on for the members of a
    segment. -/
def betaStore : Store where
  flags := [darkMode, { darkMode with id := "f2", key := "new-nav" }]
  states := [⟨"f1", "e1", true⟩]
  rules := [{ darkModePaying with conditions := [⟨"", .inSegment, ["beta"]⟩] }]
  segments := [⟨sampleUUID 7, "beta", "Beta", "p1", 0⟩]
  segmentMembers := [⟨sampleUUID 7, "ann", 0⟩]

theorem betaStore_evalStore : EvalStore Host.steady.uuid betaStore := by
  refine ⟨by decide, by decide, fun flagID environmentID => ?_, by decide, by decide⟩
  exact List.Nodup.sublist (List.filter_sublist.map _) (by decide)

theorem evaluateAll_agrees_beta :
    ∃ v v' evaluatedAt,
      (Proc.run (exec Host.steady) (EvaluationService.evaluateAll Sorter.insertion
        ⟨some ⟨"u1", .viewer⟩, none⟩ "p1" "e1" ⟨"ann", fun _ => none⟩) { store := betaStore }).1 =
        .ok ([v, v'], evaluatedAt) ∧
      v.key = "dark-mode" ∧ v'.key = "new-nav" ∧
      (Proc.run (exec Host.steady) (EvaluationService.evaluate Sorter.insertion
        ⟨some ⟨"u1", .viewer⟩, none⟩ "p1" "e1" "dark-mode" ⟨"ann", fun _ => none⟩)
        { store := betaStore }).1 = .ok v := by
  rcases evaluateAll_agrees Host.steady (fun _ => rfl) ⟨some ⟨"u1", .viewer⟩, none⟩ ⟨"u1", .viewer⟩
    rfl (le_refl _) { store := betaStore } betaStore_evalStore "p1" "e1" ⟨"ann", fun _ => none⟩
    with ⟨views, evaluatedAt, hrun, _, hviews⟩
  have hlisted :
      listedFlags (Host.steady.order 1) ⟨none, false⟩ betaStore "p1" = betaStore.flags := by
    decide
  change List.Forall₂ _
    (listedFlags (Host.steady.order 1) ⟨none, false⟩ betaStore "p1") views at hviews
  rw [hlisted] at hviews
  rcases hviews with _ | ⟨⟨hkey, hone⟩, _ | ⟨⟨hkey', _⟩, _ | _⟩⟩
  exact ⟨_, _, evaluatedAt, hrun, hkey, hkey', hone { store := betaStore } betaStore_evalStore
    ⟨by decide, rfl, rfl, rfl, fun _ _ _ => rfl⟩⟩

end Cuttlegate
