import Cuttlegate.App.Methods
import Cuttlegate.Domain.Evaluator

/-!
# The Variants that Rules Serve

Rules name variants of flags by key, and no constraint of the database ties
the two together. What keeps them together is the services, or would be: the
deletion of a variant looks for the rules that mention it and rewrites them,
but creating or updating a rule never looks at the variants of the flag, and
updating a flag never looks at its rules. One rule naming a variant that does
not exist is enough for that variant to be served
(`dangling_variant_served`).

With these three calls made in good order, integrity is an invariant of every
run. `Served` is that invariant: every flag has its default among its
variants, every rule belongs to a flag, and every variant a rule can serve is
a variant of that flag. It is kept by each write (`Served.upsert`,
`Served.updateFlag`, `Served.createFlag`, `Served.dropFlags`), and along the
rewriting loop of a forced deletion, which `Patching` follows rule by rule.

## Main definitions

* `Rule.servable`: The variants a rule can serve.
* `Served`: The invariant.
* `NamesVariants`: A rule names variants of the flag it is stored under.
* `KeepsVariants`: Calls in good order.
* `Patching`: The rewriting loop.

## Theorems

* `Served.evaluate`: Under the invariant evaluation serves a variant of the
  flag.
* `Method.keeps_served`: Calls in good order keep the invariant.
* `no_dangling_variant`: No run of such calls serves a dangling variant.
-/

namespace Cuttlegate

/-- The variants a rule can serve: those of its rollout if it has one, and its
    own otherwise. -/
def Rule.servable (r : Rule) : List String :=
  if r.rollout = [] then [r.variantKey] else r.rollout.map (·.variantKey)

/-- Whatever a rule serves is one of them. -/
theorem Rule.served_mem (r : Rule) (flag : Flag) (ctx : EvalContext) :
    ∃ key ∈ r.servable, r.served flag ctx = .ok key := by
  unfold Rule.served Rule.servable
  by_cases hroll : r.rollout = []
  · rw [if_pos hroll, if_pos hroll]
    exact ⟨r.variantKey, List.mem_singleton.mpr rfl, rfl⟩
  · rw [if_neg hroll, if_neg hroll]
    rcases resolveRollout_ok r.rollout (bucket flag.key ctx.userID) hroll with ⟨e, he, hserved⟩
    exact ⟨e.variantKey, List.mem_map_of_mem he, hserved⟩

/-- A rule can serve only variants it mentions. -/
theorem Rule.servable_mentions (r : Rule) (key : String) (h : key ∈ r.servable) :
    r.mentions key = true := by
  unfold Rule.servable at h
  unfold Rule.mentions
  by_cases hroll : r.rollout = []
  · rw [if_pos hroll, List.mem_singleton] at h
    simp [h]
  · rw [if_neg hroll] at h
    rcases List.mem_map.mp h with ⟨e, he, hkey⟩
    rw [Bool.or_eq_true, List.any_eq_true]
    exact .inr ⟨e, he, by rw [hkey, beq_self_eq_true]⟩

/-! ## The invariant -/

structure Served (uuid : String → Option String) (s : Store) : Prop where
  flagIDs : (s.flags.map (·.id)).Nodup
  defaults : ∀ f ∈ s.flags, f.defaultVariantKey ∈ f.variantKeys
  canonical : ∀ r ∈ s.rules, uuid r.id = some r.id
  oneFlag : ∀ r ∈ s.rules, ∀ q ∈ s.rules, r.id = q.id → r.flagID = q.flagID
  parents : ∀ r ∈ s.rules, ∃ f ∈ s.flags, f.id = r.flagID
  conditions : ∀ r ∈ s.rules, ∀ c ∈ r.conditions, c.WellFormed
  variants : ∀ r ∈ s.rules, ∀ f ∈ s.flags, f.id = r.flagID → r.servable ⊆ f.variantKeys

/-- Under the invariant, evaluating a flag with its rules in an environment
    answers, and the answer is a variant of the flag. -/
theorem Served.evaluate (uuid : String → Option String) (s : Store) (hs : Served uuid s)
    (srt : Sorter) (f : Flag) (hf : f ∈ s.flags) (state : Option FlagEnvironmentState)
    (rules : List Rule) (hrules : ∀ r ∈ rules, r ∈ s.rules ∧ r.flagID = f.id) (ctx : EvalContext)
    (segmentSlugs : List String) :
    ∃ res, Cuttlegate.evaluate srt f state rules ctx segmentSlugs = .ok res ∧
      res.variantKey ∈ f.variantKeys := by
  classical
  have hdefault := hs.defaults f hf
  unfold Cuttlegate.evaluate
  cases state with
  | none => exact ⟨_, rfl, hdefault⟩
  | some st =>
      by_cases hoff : st.enabled = false
      · simp only [hoff, if_true]
        exact ⟨_, rfl, hdefault⟩
      simp only [if_neg hoff]
      rw [evaluateRules_eq f ctx segmentSlugs _ (fun r hr =>
        hs.conditions r (hrules r ((srt.mem_sort _ _ _).mp hr)).1)]
      -- Either the default is served, or the first rule that fires.
      cases hfind : (srt.sort (fun a b => decide (a.priority < b.priority)) rules).find?
          (fun r => decide (r.Fires ctx segmentSlugs)) with
      | none => exact ⟨_, rfl, hdefault⟩
      | some r =>
          have hr := hrules r ((srt.mem_sort _ _ _).mp (List.mem_of_find?_eq_some hfind))
          rcases r.served_mem f ctx with ⟨key, hkey, hserved⟩
          simp only [hserved]
          exact ⟨_, rfl, hs.variants r hr.1 f hf hr.2.symm hkey⟩

/-! ## What each write does to it -/

section Writes

variable (uuid : String → Option String)

/-- The invariant is about flags and rules. -/
theorem Served.congr (s s' : Store) (hs : Served uuid s) (hflags : s'.flags = s.flags)
    (hrules : s'.rules = s.rules) : Served uuid s' := by
  rcases hs with ⟨hids, hdefaults, hcanon, hone, hparents, hconds, hvariants⟩
  refine ⟨?_, ?_, ?_, ?_, ?_, ?_, ?_⟩ <;> simp only [hflags, hrules] <;> assumption

/-- A new flag has no rules yet. -/
theorem Served.createFlag (s : Store) (hs : Served uuid s) (f : Flag)
    (hfresh : ∀ g ∈ s.flags, g.id ≠ f.id) (hdefault : f.defaultVariantKey ∈ f.variantKeys) :
    Served uuid { s with flags := s.flags ++ [f] } := by
  -- A rule has a flag already, so none can be waiting for the new id.
  have hlost : ∀ r ∈ s.rules, f.id ≠ r.flagID := by
    intro r hr heq
    rcases hs.parents r hr with ⟨g, hg, hid⟩
    exact hfresh g hg (hid.trans heq.symm)
  refine ⟨?_, fun g hg => ?_, hs.canonical, hs.oneFlag, fun r hr => ?_, hs.conditions,
    fun r hr g hg hid => ?_⟩
  · rw [List.map_append, List.nodup_append]
    refine ⟨hs.flagIDs, by simp, fun a ha b hb hab => ?_⟩
    rcases List.mem_map.mp ha with ⟨g, hg, hga⟩
    rw [List.map_singleton, List.mem_singleton] at hb
    exact hfresh g hg (hga.trans (hab.trans hb))
  · rcases List.mem_append.mp hg with hold | hnew
    · exact hs.defaults g hold
    · rw [List.mem_singleton.mp hnew]
      exact hdefault
  · rcases hs.parents r hr with ⟨g, hg, hid⟩
    exact ⟨g, List.mem_append_left _ hg, hid⟩
  · rcases List.mem_append.mp hg with hold | hnew
    · exact hs.variants r hr g hold hid
    · rw [List.mem_singleton.mp hnew] at hid
      exact absurd hid (hlost r hr)

/-- Writing a flag whose variants cover what its rules serve. -/
theorem Served.updateFlag (s : Store) (hs : Served uuid s) (c : Conn) (new : Flag)
    (hdefault : new.defaultVariantKey ∈ new.variantKeys)
    (hcover : ∀ r ∈ s.rules, r.flagID = new.id → r.servable ⊆ new.variantKeys) :
    Served uuid { s with
      flags := s.flags.map (fun f => if c.isFlagRow new.id f then f.overwrite new else f) } := by
  have hid : ∀ f : Flag, (if c.isFlagRow new.id f then f.overwrite new else f).id = f.id := by
    intro f
    by_cases hrow : c.isFlagRow new.id f = true
    · rw [if_pos hrow]
      rfl
    · rw [if_neg hrow]
  -- A written row has the new variants, any other row is as it was.
  have hrows : ∀ f ∈ s.flags, ∀ g, (if c.isFlagRow new.id f then f.overwrite new else f) = g →
      (g = f ∨ (f.id = new.id ∧ g.variantKeys = new.variantKeys ∧
        g.defaultVariantKey = new.defaultVariantKey)) := by
    intro f _ g hg
    by_cases hrow : c.isFlagRow new.id f = true
    · rw [if_pos hrow] at hg
      simp only [Conn.isFlagRow, Bool.and_eq_true, beq_iff_eq] at hrow
      rw [← hg]
      exact .inr ⟨hrow.2, rfl, rfl⟩
    · rw [if_neg hrow] at hg
      exact .inl hg.symm
  refine ⟨?_, fun g hg => ?_, hs.canonical, hs.oneFlag, fun r hr => ?_, hs.conditions,
    fun r hr g hg hrid => ?_⟩
  · rw [List.map_map]
    have hsame : (fun f : Flag => f.id) ∘
        (fun f => if c.isFlagRow new.id f then f.overwrite new else f) = fun f => f.id := by
      funext f
      exact hid f
    rw [hsame]
    exact hs.flagIDs
  · rcases List.mem_map.mp hg with ⟨f, hf, hfg⟩
    rcases hrows f hf g hfg with rfl | ⟨_, hkeys, hdef⟩
    · exact hs.defaults g hf
    · rw [hkeys, hdef]
      exact hdefault
  · rcases hs.parents r hr with ⟨f, hf, hfid⟩
    exact ⟨_, List.mem_map_of_mem hf, (hid f).trans hfid⟩
  · rcases List.mem_map.mp hg with ⟨f, hf, hfg⟩
    have hfid : f.id = r.flagID := by rw [← hrid, ← hfg, hid f]
    rcases hrows f hf g hfg with rfl | ⟨hnew, hkeys, _⟩
    · exact hs.variants r hr g hf hfid
    · rw [hkeys]
      exact hcover r hr (hfid.symm.trans hnew)

/-- Flags go with their rules. -/
theorem Served.dropFlags (s : Store) (hs : Served uuid s) (gone : Flag → Bool) :
    Served uuid (s.dropFlags gone) := by
  have hflag : ∀ f, f ∈ (s.dropFlags gone).flags → f ∈ s.flags := fun f hf =>
    List.mem_of_mem_filter hf
  have hrule : ∀ r, r ∈ (s.dropFlags gone).rules → r ∈ s.rules := fun r hr =>
    List.mem_of_mem_filter hr
  refine ⟨?_, fun f hf => hs.defaults f (hflag f hf), fun r hr => hs.canonical r (hrule r hr),
    fun r hr q hq => hs.oneFlag r (hrule r hr) q (hrule q hq), fun r hr => ?_,
    fun r hr => hs.conditions r (hrule r hr),
    fun r hr f hf => hs.variants r (hrule r hr) f (hflag f hf)⟩
  · exact hs.flagIDs.sublist (List.filter_sublist.map _)
  · rcases hs.parents r (hrule r hr) with ⟨f, hf, hid⟩
    refine ⟨f, List.mem_filter.mpr ⟨hf, ?_⟩, hid⟩
    -- Had its flag gone, the rule would have gone too.
    by_contra hgone
    have hlost : r.flagID ∈ (s.flags.filter gone).map (·.id) := by
      rw [← hid]
      exact List.mem_map_of_mem (List.mem_filter.mpr ⟨hf, by simpa using hgone⟩)
    have hkept := (List.mem_filter.mp hr).2
    simp only [decide_eq_true_eq] at hkept
    exact hkept hlost

/-- Rules may go. -/
theorem Served.dropRules (s : Store) (hs : Served uuid s) (keep : Rule → Bool) :
    Served uuid { s with rules := s.rules.filter keep } := by
  have hrule : ∀ r, r ∈ s.rules.filter keep → r ∈ s.rules := fun r hr => List.mem_of_mem_filter hr
  exact ⟨hs.flagIDs, hs.defaults, fun r hr => hs.canonical r (hrule r hr),
    fun r hr q hq => hs.oneFlag r (hrule r hr) q (hrule q hq),
    fun r hr => hs.parents r (hrule r hr), fun r hr => hs.conditions r (hrule r hr),
    fun r hr => hs.variants r (hrule r hr)⟩

/-- The rule names variants of the flag it is stored under: that of the stored
    rule with its id, and its own when there is none. -/
structure NamesVariants (s : Store) (new : Rule) : Prop where
  stored : ∀ id, uuid new.id = some id → ∀ old ∈ s.rules, old.id = id →
    ∀ f ∈ s.flags, f.id = old.flagID → new.servable ⊆ f.variantKeys
  fresh : ∀ id, uuid new.id = some id → (∀ old ∈ s.rules, old.id ≠ id) →
    ∀ f ∈ s.flags, f.id = new.flagID → new.servable ⊆ f.variantKeys

/-- What an upsert leaves in the table: rows with another id as they were, and
    rows with the content of the new rule under the flag they had. -/
theorem upsertRule_rows (s s' : Store) (new : Rule) (t : Time)
    (hup : upsertRule uuid new s = .ok (t, s')) :
    ∃ id, uuid new.id = some id ∧ s'.flags = s.flags ∧ ∀ r ∈ s'.rules,
      (r ∈ s.rules ∧ r.id ≠ id) ∨
      (r.id = id ∧ r.conditions = new.conditions ∧ r.servable = new.servable ∧
        ((∃ old ∈ s.rules, old.id = id ∧ r.flagID = old.flagID) ∨
          ((∀ old ∈ s.rules, old.id ≠ id) ∧ r.flagID = new.flagID ∧
            s.HasParents new.flagID new.environmentID))) := by
  -- Overwrite keeps the row's place and takes the rest; insert takes all of it.
  rcases upsertRule_ok uuid new s s' t hup with ⟨id, hid, _, ⟨_, rfl⟩ | ⟨hnone, hpar, rfl⟩⟩
  · refine ⟨id, hid, rfl, fun r hr => ?_⟩
    rcases List.mem_map.mp hr with ⟨old, hold, hr⟩
    by_cases hrow : old.id = id
    · rw [if_pos hrow] at hr
      rw [← hr]
      exact .inr ⟨hrow, rfl, rfl, .inl ⟨old, hold, hrow, rfl⟩⟩
    · rw [if_neg hrow] at hr
      rw [← hr]
      exact .inl ⟨hold, hrow⟩
  · refine ⟨id, hid, rfl, fun r hr => ?_⟩
    rcases List.mem_append.mp hr with hold | hnew
    · exact .inl ⟨hold, hnone r hold⟩
    · rw [List.mem_singleton.mp hnew]
      exact .inr ⟨rfl, rfl, rfl, .inr ⟨hnone, rfl, hpar⟩⟩

/-- Writing a rule that names variants of its flag. -/
theorem Served.upsert (huuid : ∀ text id, uuid text = some id → uuid id = some id) (s s' : Store)
    (hs : Served uuid s) (new : Rule) (t : Time) (hup : upsertRule uuid new s = .ok (t, s'))
    (hconds : ∀ c ∈ new.conditions, c.WellFormed) (hnames : NamesVariants uuid s new) :
    Served uuid s' := by
  rcases upsertRule_rows uuid s s' new t hup with ⟨id, hid, hflags, hrows⟩
  -- Every row after the write has the flag of a row before it, or of the new
  -- rule when its id is new.
  refine ⟨by rw [hflags]; exact hs.flagIDs, by rw [hflags]; exact hs.defaults, fun r hr => ?_,
    fun r hr q hq hrq => ?_, fun r hr => ?_, fun r hr => ?_, fun r hr f hf hfid => ?_⟩
  · rcases hrows r hr with ⟨hold, _⟩ | ⟨hrid, _⟩
    · exact hs.canonical r hold
    · rw [hrid]
      exact huuid new.id id hid
  · rcases hrows r hr with ⟨hr', hrne⟩ | ⟨hrid, _, _, hrflag⟩
    · rcases hrows q hq with ⟨hq', _⟩ | ⟨hqid, _⟩
      · exact hs.oneFlag r hr' q hq' hrq
      · exact absurd (hrq.trans hqid) hrne
    · rcases hrows q hq with ⟨_, hqne⟩ | ⟨_, _, _, hqflag⟩
      · exact absurd (hrq.symm.trans hrid) hqne
      · rcases hrflag with ⟨o, ho, hoid, hro⟩ | ⟨hnone, hrnew, _⟩
        · rcases hqflag with ⟨o', ho', hoid', hqo'⟩ | ⟨hnone, _, _⟩
          · rw [hro, hqo']
            exact hs.oneFlag o ho o' ho' (hoid.trans hoid'.symm)
          · exact absurd hoid (hnone o ho)
        · rcases hqflag with ⟨o', ho', hoid', _⟩ | ⟨_, hqnew, _⟩
          · exact absurd hoid' (hnone o' ho')
          · rw [hrnew, hqnew]
  · rw [hflags]
    rcases hrows r hr with ⟨hold, _⟩ | ⟨_, _, _, ⟨o, ho, _, hro⟩ | ⟨_, hrnew, hpar⟩⟩
    · exact hs.parents r hold
    · rw [hro]
      exact hs.parents o ho
    · rw [hrnew]
      exact hpar.1
  · rcases hrows r hr with ⟨hold, _⟩ | ⟨_, hrconds, _⟩
    · exact hs.conditions r hold
    · rw [hrconds]
      exact hconds
  · rw [hflags] at hf
    rcases hrows r hr with ⟨hold, _⟩ | ⟨_, _, hserv, ⟨o, ho, hoid, hro⟩ | ⟨hnone, hrnew, _⟩⟩
    · exact hs.variants r hold f hf hfid
    · rw [hserv]
      exact hnames.stored id hid o ho hoid f hf (hfid.trans hro)
    · rw [hserv]
      exact hnames.fresh id hid hnone f hf (hfid.trans hrnew)

end Writes

/-! ## The rewriting loop of a forced deletion -/

/-- The entries left of a rollout serve variants it had, and not the one that
    goes. -/
theorem patchRollout_mem (variantKey : String) (rollout : List RolloutEntry) (e : RolloutEntry)
    (he : e ∈ patchRollout variantKey rollout) :
    e.variantKey ≠ variantKey ∧ ∃ d ∈ rollout, d.variantKey = e.variantKey := by
  -- Entries of the removed variant are filtered out first.
  have hkept : ∀ d ∈ rollout.filter (fun d => d.variantKey != variantKey),
      d.variantKey ≠ variantKey ∧ d ∈ rollout := by
    intro d hd
    rcases List.mem_filter.mp hd with ⟨hmem, hne⟩
    exact ⟨by simpa using hne, hmem⟩
  unfold patchRollout at he
  cases hleft : rollout.filter (fun d => d.variantKey != variantKey) with
  | nil =>
      simp only [hleft] at he
      exact absurd he List.not_mem_nil
  | cons d kept =>
      simp only [hleft] at he
      rw [hleft] at hkept
      rcases List.mem_cons.mp he with rfl | htail
      · -- The first entry keeps its variant and gains weight.
        rcases hkept d List.mem_cons_self with ⟨hne, hmem⟩
        exact ⟨hne, d, hmem, rfl⟩
      · rcases hkept e (List.mem_cons_of_mem d htail) with ⟨hne, hmem⟩
        exact ⟨hne, e, hmem, rfl⟩

/-- A rewritten rule serves variants it served before, or the default, and not
    the one that goes. -/
theorem patchRule_servable (variantKey defaultKey : String) (hne : defaultKey ≠ variantKey)
    (r : Rule) (key : String) (hkey : key ∈ (patchRule variantKey defaultKey r).servable) :
    key ≠ variantKey ∧ (key = defaultKey ∨ key ∈ r.servable) := by
  unfold patchRule at hkey
  by_cases hroll : r.rollout = []
  · -- Without a rollout the rule serves its own variant.
    simp only [if_pos hroll, Rule.servable, List.mem_singleton] at hkey
    by_cases hdirect : r.variantKey = variantKey
    · rw [if_pos hdirect] at hkey
      rw [hkey]
      exact ⟨hne, .inl rfl⟩
    · rw [if_neg hdirect] at hkey
      rw [hkey, Rule.servable, if_pos hroll]
      exact ⟨hdirect, .inr (List.mem_singleton.mpr rfl)⟩
  rw [if_neg hroll] at hkey
  -- A rollout left empty turns into the default, and what is left is served otherwise.
  by_cases hempty : patchRollout variantKey r.rollout = []
  · rw [if_pos hempty] at hkey
    simp only [Rule.servable, if_true, List.mem_singleton] at hkey
    rw [hkey]
    exact ⟨hne, .inl rfl⟩
  · rw [if_neg hempty] at hkey
    simp only [Rule.servable, if_neg hempty] at hkey
    rcases List.mem_map.mp hkey with ⟨e, he, hek⟩
    rcases patchRollout_mem variantKey r.rollout e he with ⟨hother, d, hd, hde⟩
    rw [← hek]
    refine ⟨hother, .inr ?_⟩
    rw [Rule.servable, if_neg hroll, ← hde]
    exact List.mem_map_of_mem hd

/-- Rewriting keeps what a rule is and when it matches. -/
theorem patchRule_keeps (variantKey defaultKey : String) (r : Rule) :
    (patchRule variantKey defaultKey r).id = r.id ∧
      (patchRule variantKey defaultKey r).flagID = r.flagID ∧
      (patchRule variantKey defaultKey r).conditions = r.conditions := by
  unfold patchRule
  by_cases hroll : r.rollout = []
  · simp only [if_pos hroll, and_self]
  · by_cases hempty : patchRollout variantKey r.rollout = []
    · simp only [if_neg hroll, if_pos hempty, and_self]
    · simp only [if_neg hroll, if_neg hempty, and_self]

/-- The state of the loop: the rules of `rest` are still to be rewritten, and
    no other rule of the flag serves the variant that goes. -/
structure Patching (uuid : String → Option String) (variantKey : String) (f : Flag)
    (rest : List Rule) (s : Store) : Prop where
  served : Served uuid s
  flag : f ∈ s.flags
  names : ∀ p ∈ rest, p.servable ⊆ f.variantKeys
  conditions : ∀ p ∈ rest, ∀ c ∈ p.conditions, c.WellFormed
  canonical : ∀ p ∈ rest, uuid p.id = some p.id
  own : ∀ p ∈ rest, p.flagID = f.id ∧ ∀ q ∈ s.rules, q.id = p.id → q.flagID = f.id
  left : ∀ r ∈ s.rules, r.flagID = f.id → variantKey ∈ r.servable → ∃ p ∈ rest, p.id = r.id

/-- One rule rewritten. -/
theorem Patching.step (uuid : String → Option String)
    (huuid : ∀ text id, uuid text = some id → uuid id = some id) (variantKey : String) (f : Flag)
    (p : Rule) (rest : List Rule) (s s' : Store)
    (hP : Patching uuid variantKey f (p :: rest) s) (hne : f.defaultVariantKey ≠ variantKey)
    (t : Time)
    (hup : upsertRule uuid (patchRule variantKey f.defaultVariantKey p) s = .ok (t, s')) :
    Patching uuid variantKey f rest s' := by
  rcases patchRule_keeps variantKey f.defaultVariantKey p with ⟨hid, hflagID, hconds⟩
  rcases hP.own p List.mem_cons_self with ⟨hpflag, hprows⟩
  have hpid := hP.canonical p List.mem_cons_self
  -- What the rewritten rule serves are variants of the flag.
  have hcover : (patchRule variantKey f.defaultVariantKey p).servable ⊆ f.variantKeys := by
    intro key hkey
    rcases (patchRule_servable variantKey _ hne p key hkey).2 with rfl | hold
    · exact hP.served.defaults f hP.flag
    · exact hP.names p List.mem_cons_self hold
  have hsame : ∀ g ∈ s.flags, g.id = f.id → g = f := fun g hg hgid =>
    List.inj_on_of_nodup_map hP.served.flagIDs hg hP.flag hgid
  have hnames : NamesVariants uuid s (patchRule variantKey f.defaultVariantKey p) := by
    refine ⟨fun id huid old hold hoid g hg hgid => ?_, fun id huid hnone g hg hgid => ?_⟩
    · rw [hid, hpid, Option.some.injEq] at huid
      rw [hsame g hg (hgid.trans (hprows old hold (hoid.trans huid.symm)))]
      exact hcover
    · rw [hsame g hg (hgid.trans (hflagID.trans hpflag))]
      exact hcover
  have hserved : Served uuid s' := by
    refine hP.served.upsert uuid huuid s s' _ t hup ?_ hnames
    rw [hconds]
    exact hP.conditions p List.mem_cons_self
  rcases upsertRule_rows uuid s s' _ t hup with ⟨id, huid, hflags, hrows⟩
  rw [hid, hpid, Option.some.injEq] at huid
  refine ⟨hserved, by rw [hflags]; exact hP.flag,
    fun q hq => hP.names q (List.mem_cons_of_mem p hq),
    fun q hq => hP.conditions q (List.mem_cons_of_mem p hq),
    fun q hq => hP.canonical q (List.mem_cons_of_mem p hq), fun q hq => ?_, fun r hr hrf hv => ?_⟩
  · rcases hP.own q (List.mem_cons_of_mem p hq) with ⟨hqflag, hqrows⟩
    refine ⟨hqflag, fun r hr hrq => ?_⟩
    rcases hrows r hr with ⟨hold, _⟩ | ⟨hrid, _, _, ⟨o, ho, hoid, hro⟩ | ⟨_, hrnew, _⟩⟩
    · exact hqrows r hold hrq
    · rw [hro]
      exact hqrows o ho (hoid.trans (hrid.symm.trans hrq))
    · exact hrnew.trans (hflagID.trans hpflag)
  · rcases hrows r hr with ⟨hold, hrne⟩ | ⟨_, _, hserv, _⟩
    · rcases hP.left r hold hrf hv with ⟨q, hq, hqr⟩
      rcases List.mem_cons.mp hq with rfl | hq
      · exact absurd (hqr.symm.trans huid) hrne
      · exact ⟨q, hq, hqr⟩
    · -- A rewritten row no longer serves the variant.
      rw [hserv] at hv
      exact absurd rfl (patchRule_servable variantKey _ hne p variantKey hv).1

/-- The loop ends with the variant out of the rules of the flag, or fails on
    the way with the invariant intact. -/
theorem upsertPatched_ends (h : Host) (ctx : Ctx) (variantKey : String) (f : Flag)
    (hne : f.defaultVariantKey ≠ variantKey) (rest : List Rule) (w : World)
    (hP : Patching h.uuid variantKey f rest w.store) :
    Proc.Ends (exec h)
      (fun r w' => Served h.uuid w'.store ∧
        (r = .ok () → Patching h.uuid variantKey f [] w'.store))
      (upsertPatched ctx variantKey f.defaultVariantKey rest) w := by
  induction rest generalizing w with
  | nil => exact ⟨hP.served, fun _ => hP⟩
  | cons p rest ih =>
      refine ends_call ctx _ _ w (fun e => ⟨hP.served, fun hr => (nomatch hr)⟩) (fun t w' hp => ?_)
      rcases World.onStore_ok _ _ _ _ hp with ⟨s', hs', rfl⟩
      exact ih _ (hP.step h.uuid h.uuid_canonical variantKey f p rest _ s' hne t hs')

/-! ## The calls -/

/-- The nine calls that write flags and rules. -/
def Method.onVariants : Method → Prop
  | .flagCreate _ | .flagUpdate _ | .flagAddVariant _ _ _ | .flagRenameVariant _ _ _ _
  | .flagDeleteVariant _ _ _ _ | .flagDeleteByKey _ _ => True
  | .ruleCreate _ | .ruleUpdate _ | .ruleDelete _ => True
  | _ => False

/-- Calls in good order. A rule is written with variants of its flag only, a
    created rule under an id no rule has, and an updated flag keeps the
    variants its rules serve. The id is drawn after the rules have been listed. -/
def KeepsVariants (h : Host) (w : World) (_ : Ctx) (m : Method) : Prop :=
  m.onVariants ∧ match m with
    | .flagUpdate f => ∀ r ∈ w.store.rules, r.flagID = f.id → r.servable ⊆ f.variantKeys
    | .ruleCreate new =>
        (∀ f ∈ w.store.flags, f.id = new.flagID → (new.toRule "" 0).servable ⊆ f.variantKeys) ∧
          ∀ id, h.newUUID (w.calls + 1) = some id → ∀ r ∈ w.store.rules, r.id ≠ id
    | .ruleUpdate r => NamesVariants h.uuid w.store r
    | _ => True

section Calls

variable (h : Host)

/-- The postcondition of every call. -/
def LeavesServed {α : Type} (_ : Except Err α) (w : World) : Prop := Served h.uuid w.store

/-- Operations that at most delete flags keep the invariant. -/
theorem exec_served (c : Call) (w : World) (hc : DeletesOnly c) (hw : Served h.uuid w.store) :
    Served h.uuid (exec h c w).2.store := by
  rcases hc with hin | ⟨id, hid⟩
  · have hflags : w.Same (exec h c w).2 .flags :=
      exec_frame h c w .flags (fun hmem => absurd (hin hmem) (by decide))
    have hrules : w.Same (exec h c w).2 .rules :=
      exec_frame h c w .rules (fun hmem => absurd (hin hmem) (by decide))
    exact hw.congr h.uuid w.store _ hflags hrules
  · rcases c with ⟨tenant, op⟩
    rw [show op = .deleteFlag id from hid]
    rcases exec_cases h ⟨tenant, .deleteFlag id⟩ w with ⟨e, he⟩ | ⟨a, w', hp, he⟩
    · rw [he]
      exact hw
    · rw [he]
      rcases w.onStore_affect w' _ _ a hp with ⟨_, rfl⟩
      exact hw.dropFlags h.uuid w.store _

theorem ends_deletesOnly {α : Type} (p : Prog α) (hp : Proc.Uses DeletesOnly p) (w : World)
    (hw : Served h.uuid w.store) : Proc.Ends (exec h) (LeavesServed h) p w :=
  Proc.run_rel (exec h) (fun w w' => Served h.uuid w.store → Served h.uuid w'.store)
    (fun _ hs => hs) (fun _ _ _ h₁ h₂ hs => h₂ (h₁ hs)) (fun c w hc => exec_served h c w hc)
    p hp w hw

/-- The tail of an edit: a write that covers what the rules serve, then an
    audit event. -/
theorem ends_write_back {α : Type} (ctx : Ctx) (new : Flag) (hvalid : new.validate = .ok ())
    (w : World) (hw : Served h.uuid w.store)
    (hcover : ∀ r ∈ w.store.rules, r.flagID = new.id → r.servable ⊆ new.variantKeys)
    (k : Unit → Prog α) (hk : Proc.Uses DeletesOnly (k ())) :
    Proc.Ends (exec h) (LeavesServed h) (ctx.call (.updateFlag new) >>= k) w := by
  refine ends_call ctx _ _ w (fun _ => hw) (fun _ w' hp => ?_)
  rcases World.onStore_affect _ _ _ _ _ hp with ⟨_, rfl⟩
  have hdefault := ((Flag.validate_ok_iff new).mp hvalid).default
  exact ends_deletesOnly h _ hk _ (hw.updateFlag h.uuid _ _ new hdefault hcover)

/-- A flag that was just read is a row, and its rules serve its variants. -/
theorem ends_flagByKey {α : Type} (ctx : Ctx) (projectID key : String) (k : Flag → Prog α)
    (w : World) (hw : Served h.uuid w.store)
    (hok : ∀ f ∈ w.store.flags, Proc.Ends (exec h) (LeavesServed h) (k f) w.tick) :
    Proc.Ends (exec h) (LeavesServed h) (ctx.call (.flagByKey projectID key) >>= k) w := by
  refine ends_read ctx _ rfl _ w (fun _ => hw) (fun f hp => ?_)
  exact hok f (List.mem_of_find?_eq_some (World.onStore_queryRow _ _ _ _ hp).1)

theorem FlagService.create_served (ctx : Ctx) (f : Flag) (w : World)
    (hw : Served h.uuid w.store) :
    Proc.Ends (exec h) (LeavesServed h) (FlagService.create ctx f) w := by
  refine ends_require ctx _ _ w (fun _ => hw) (fun _ _ _ => ?_)
  refine ends_check _ _ w (fun _ _ => hw) (fun _ hvalid => ?_)
  refine ends_read ctx _ rfl _ w (fun _ => hw) (fun id _ => ?_)
  refine ends_read ctx _ rfl _ _ (fun _ => hw) (fun now _ => ?_)
  refine ends_call ctx _ _ _ (fun _ => hw) (fun _ w' hp => ?_)
  rcases World.onStore_ok _ _ _ _ hp with ⟨s', hs', rfl⟩
  rcases createFlag_ok _ _ _ _ _ hs' with ⟨_, hfresh, _, rfl⟩
  refine ends_deletesOnly h _ (FlagService.enterEnvironments_uses ctx _) _ ?_
  exact hw.createFlag h.uuid w.store _ (fun g hg => (hfresh g hg).1)
    ((Flag.validate_ok_iff f).mp hvalid).default

theorem FlagService.update_served (ctx : Ctx) (f : Flag) (w : World) (hw : Served h.uuid w.store)
    (hcover : ∀ r ∈ w.store.rules, r.flagID = f.id → r.servable ⊆ f.variantKeys) :
    Proc.Ends (exec h) (LeavesServed h) (FlagService.update ctx f) w := by
  refine ends_require ctx _ _ w (fun _ => hw) (fun _ _ _ => ?_)
  refine ends_check _ _ w (fun _ _ => hw) (fun _ hvalid => ?_)
  exact ends_write_back h ctx f hvalid w hw hcover _
    (deletesOnly_of_within (by simp) _ (recordAudit_within ctx _))

theorem FlagService.addVariant_served (ctx : Ctx) (projectID flagKey : String) (v : Variant)
    (w : World) (hw : Served h.uuid w.store) :
    Proc.Ends (exec h) (LeavesServed h) (FlagService.addVariant ctx projectID flagKey v) w := by
  refine ends_require ctx _ _ w (fun _ => hw) (fun _ _ _ => ?_)
  refine ends_flagByKey h ctx _ _ _ w hw (fun f hf => ?_)
  refine ends_check _ _ _ (fun _ _ => hw) (fun _ _ => ?_)
  refine ends_check _ _ _ (fun _ _ => hw) (fun _ _ => ?_)
  refine ends_check _ _ _ (fun _ _ => hw) (fun _ hvalid => ?_)
  refine ends_write_back h ctx _ hvalid w.tick hw (fun r hr hrf key hkey => ?_) _ ?_
  · have hold := hw.variants r hr f hf hrf.symm hkey
    rw [Flag.variantKeys, List.map_append]
    exact List.mem_append_left _ hold
  · exact deletesOnly_audited ctx _ _

/-- Renaming a variant keeps the keys. -/
theorem renameFirst_keys (variantKey newName : String) (vs vs' : List Variant)
    (hren : renameFirst variantKey newName vs = some vs') :
    vs'.map (·.key) = vs.map (·.key) := by
  induction vs generalizing vs' with
  | nil => exact (nomatch hren)
  | cons v vs ih =>
      rw [renameFirst] at hren
      by_cases hkey : v.key = variantKey
      · rw [if_pos hkey] at hren
        rw [← Option.some.inj hren]
        rfl
      · rw [if_neg hkey, Option.map_eq_some_iff] at hren
        rcases hren with ⟨rest, hrest, rfl⟩
        rw [List.map_cons, List.map_cons, ih rest hrest]

theorem FlagService.renameVariant_served (ctx : Ctx)
    (projectID flagKey variantKey newName : String) (w : World) (hw : Served h.uuid w.store) :
    Proc.Ends (exec h) (LeavesServed h)
      (FlagService.renameVariant ctx projectID flagKey variantKey newName) w := by
  refine ends_require ctx _ _ w (fun _ => hw) (fun _ _ _ => ?_)
  refine ends_flagByKey h ctx _ _ _ w hw (fun f hf => ?_)
  cases hren : renameFirst variantKey newName f.variants with
  | none => exact hw
  | some variants =>
      refine ends_check _ _ _ (fun _ _ => hw) (fun _ hvalid => ?_)
      refine ends_write_back h ctx _ hvalid w.tick hw (fun r hr hrf key hkey => ?_) _ ?_
      · have hold := hw.variants r hr f hf hrf.symm hkey
        rw [Flag.variantKeys, renameFirst_keys variantKey newName _ _ hren]
        exact hold
      · exact deletesOnly_audited ctx _ _

/-- The loop starts from the rules of the flag that mention the variant. -/
theorem Patching.start (uuid : String → Option String) (variantKey : String) (f : Flag) (s : Store)
    (hs : Served uuid s) (hf : f ∈ s.flags) (rules : List Rule)
    (hrules : ∀ r, r ∈ rules ↔ r ∈ s.rules ∧ r.flagID = f.id) :
    Patching uuid variantKey f (rules.filter (fun r => r.mentions variantKey)) s := by
  have hmem : ∀ p ∈ rules.filter (fun r => r.mentions variantKey),
      p ∈ s.rules ∧ p.flagID = f.id := fun p hp =>
    (hrules p).mp (List.mem_of_mem_filter hp)
  refine ⟨hs, hf, fun p hp => ?_, fun p hp => hs.conditions p (hmem p hp).1,
    fun p hp => hs.canonical p (hmem p hp).1, fun p hp => ⟨(hmem p hp).2, fun q hq hqp => ?_⟩,
    fun r hr hrf hv => ?_⟩
  · exact hs.variants p (hmem p hp).1 f hf (hmem p hp).2.symm
  · rw [hs.oneFlag q hq p (hmem p hp).1 hqp]
    exact (hmem p hp).2
  · refine ⟨r, List.mem_filter.mpr ⟨(hrules r).mpr ⟨hr, hrf⟩, ?_⟩, rfl⟩
    exact r.servable_mentions variantKey hv

theorem FlagService.deleteVariant_served (ctx : Ctx) (projectID flagKey variantKey : String)
    (force : Bool) (w : World) (hw : Served h.uuid w.store) :
    Proc.Ends (exec h) (LeavesServed h)
      (FlagService.deleteVariant ctx projectID flagKey variantKey force) w := by
  refine ends_require ctx _ _ w (fun _ => hw) (fun _ _ _ => ?_)
  refine ends_flagByKey h ctx _ _ _ w hw (fun f hf => ?_)
  refine ends_check _ _ _ (fun _ _ => hw) (fun _ _ => ?_)
  refine ends_check _ _ _ (fun _ _ => hw) (fun _ hdefault => ?_)
  refine ends_check _ _ _ (fun _ _ => hw) (fun _ _ => ?_)
  refine ends_check _ _ _ (fun _ _ => hw) (fun _ _ => ?_)
  refine ends_read ctx _ rfl _ _ (fun _ => hw) (fun rules hlist => ?_)
  refine ends_check _ _ _ (fun _ _ => hw) (fun _ _ => ?_)
  have hne : f.defaultVariantKey ≠ variantKey := fun heq =>
    ((refuseIf_ok _ _).mp hdefault) heq.symm
  have hrules : ∀ r, r ∈ rules ↔ r ∈ w.store.rules ∧ r.flagID = f.id := by
    intro r
    rw [← (Prod.mk.inj (Except.ok.inj hlist)).1, Sorter.mem_sort, List.mem_filter, beq_iff_eq]
    rfl
  have hP := Patching.start h.uuid variantKey f w.store hw hf rules hrules
  have hloop := upsertPatched_ends h ctx variantKey f hne _ w.tick.tick hP
  refine Proc.ends_bind _ _ _ (fun e w' hrun => ?_) (fun _ w' hrun => ?_)
  · unfold Proc.Ends at hloop
    rw [hrun] at hloop
    exact hloop.1
  unfold Proc.Ends at hloop
  rw [hrun] at hloop
  have hdone := hloop.2 rfl
  refine ends_check _ _ _ (fun _ _ => hloop.1) (fun _ hvalid => ?_)
  refine ends_write_back h ctx _ hvalid _ hloop.1 (fun r hr hrf key hkey => ?_) _
    (by exact deletesOnly_audited ctx _ _)
  -- The key is a variant of the flag, and not the one that goes.
  have hold := hdone.served.variants r hr f hdone.flag hrf.symm hkey
  have hother : key ≠ variantKey := by
    rintro rfl
    rcases hdone.left r hr hrf hkey with ⟨p, hp, _⟩
    exact absurd hp List.not_mem_nil
  rcases List.mem_map.mp hold with ⟨v, hv, hvk⟩
  refine List.mem_map.mpr ⟨v, (List.mem_eraseP_of_neg ?_).mpr hv, hvk⟩
  rw [hvk, beq_iff_eq]
  exact hother

theorem RuleService.create_served (ctx : Ctx) (new : NewRule) (w : World)
    (hw : Served h.uuid w.store)
    (hnames : ∀ f ∈ w.store.flags, f.id = new.flagID →
      (new.toRule "" 0).servable ⊆ f.variantKeys)
    (hfresh : ∀ id, h.newUUID (w.calls + 1) = some id → ∀ r ∈ w.store.rules, r.id ≠ id) :
    Proc.Ends (exec h) (LeavesServed h) (RuleService.create ctx new) w := by
  refine ends_require ctx _ _ w (fun _ => hw) (fun _ _ _ => ?_)
  refine ends_check _ _ w (fun _ _ => hw) (fun _ hvalid => ?_)
  refine ends_read ctx _ rfl _ w (fun _ => hw) (fun existing _ => ?_)
  refine ends_check _ _ _ (fun _ _ => hw) (fun _ _ => ?_)
  refine ends_read ctx _ rfl _ _ (fun _ => hw) (fun id hdraw => ?_)
  refine ends_read ctx _ rfl _ _ (fun _ => hw) (fun now _ => ?_)
  refine ends_call ctx _ _ _ (fun _ => hw) (fun t w' hp => ?_)
  rcases World.onStore_ok _ _ _ _ hp with ⟨s', hs', rfl⟩
  -- No row in the store has the id.
  have hdrawn := (World.draw_ok _ _ _ _ hdraw).1
  have hno := hfresh id hdrawn
  refine hw.upsert h.uuid h.uuid_canonical w.store s' (new.toRule id now) t hs' ?_ ?_
  · exact ((Rule.validate_ok_iff _).mp hvalid).wellFormed
  · refine ⟨fun key hkey old hold hoid => ?_, fun _ _ _ => hnames⟩
    have hcanon := h.uuid_new _ id hdrawn
    rw [show (new.toRule id now).id = id from rfl, hcanon, Option.some.injEq] at hkey
    exact absurd (hoid.trans hkey.symm) (hno old hold)

theorem RuleService.update_served (ctx : Ctx) (r : Rule) (w : World) (hw : Served h.uuid w.store)
    (hnames : NamesVariants h.uuid w.store r) :
    Proc.Ends (exec h) (LeavesServed h) (RuleService.update ctx r) w := by
  refine ends_require ctx _ _ w (fun _ => hw) (fun _ _ _ => ?_)
  refine ends_check _ _ w (fun _ _ => hw) (fun _ hvalid => ?_)
  refine ends_read ctx _ rfl _ w (fun _ => hw) (fun existing _ => ?_)
  refine ends_check _ _ _ (fun _ _ => hw) (fun _ _ => ?_)
  refine ends_call ctx _ _ _ (fun _ => hw) (fun t w' hp => ?_)
  rcases World.onStore_ok _ _ _ _ hp with ⟨s', hs', rfl⟩
  exact hw.upsert h.uuid h.uuid_canonical w.store s' r t hs'
    ((Rule.validate_ok_iff _).mp hvalid).wellFormed hnames

theorem RuleService.delete_served (ctx : Ctx) (id : String) (w : World)
    (hw : Served h.uuid w.store) :
    Proc.Ends (exec h) (LeavesServed h) (RuleService.delete ctx id) w := by
  refine ends_require ctx _ _ w (fun _ => hw) (fun _ _ _ => ?_)
  refine ends_last ctx (.deleteRule id) w (fun _ => hw) (fun _ w' hp => ?_)
  rcases World.onStore_ok _ _ _ _ hp with ⟨s', hs', rfl⟩
  rcases deleteRule_ok _ _ _ _ _ hs' with ⟨_, _, _, rfl⟩
  exact hw.dropRules h.uuid w.store _

/-- Calls in good order keep the invariant. -/
theorem Method.keeps_served (ctx : Ctx) (m : Method) (w : World) (hm : KeepsVariants h w ctx m)
    (hw : Served h.uuid w.store) : Served h.uuid (m.run h ctx w).2.store := by
  have hignore : ∀ (α : Type) (p : Prog α), Proc.Ends (exec h) (LeavesServed h) p w →
      Served h.uuid (Proc.run (exec h) (ignore p) w).2.store := by
    intro α p hp
    rw [run_ignore]
    exact hp
  rcases hm with ⟨hnine, hm⟩
  -- One spec lemma per method; those outside the nine are excluded.
  cases m with
  | flagCreate f => exact hignore _ _ (FlagService.create_served h ctx f w hw)
  | flagUpdate f => exact FlagService.update_served h ctx f w hw hm
  | flagAddVariant p k v => exact hignore _ _ (FlagService.addVariant_served h ctx p k v w hw)
  | flagRenameVariant p k v n =>
      exact hignore _ _ (FlagService.renameVariant_served h ctx p k v n w hw)
  | flagDeleteVariant p k v force =>
      exact hignore _ _ (FlagService.deleteVariant_served h ctx p k v force w hw)
  | flagDeleteByKey p k =>
      exact ends_deletesOnly h _ (FlagService.deleteByKey_uses ctx p k) w hw
  | ruleCreate new => exact hignore _ _ (RuleService.create_served h ctx new w hw hm.1 hm.2)
  | ruleUpdate r => exact hignore _ _ (RuleService.update_served h ctx r w hw hm)
  | ruleDelete id => exact RuleService.delete_served h ctx id w hw
  | _ => exact absurd hnine (fun hno => hno)

end Calls

/-- In every run of calls in good order, from a database without flags and
    rules, evaluating any flag in any environment serves one of the variants
    the flag then has. -/
theorem no_dangling_variant (h : Host) (start w : World) (hflags : start.store.flags = [])
    (hrules : start.store.rules = []) (hrun : Reaches h (KeepsVariants h) start w) (f : Flag)
    (hf : f ∈ w.store.flags) (environmentID : String) (state : Option FlagEnvironmentState)
    (rules : List Rule)
    (hperm : rules.Perm (w.store.rules.filter (fun r =>
      r.flagID == f.id && r.environmentID == environmentID)))
    (srt : Sorter) (ctx : EvalContext) (segmentSlugs : List String) :
    ∃ res, evaluate srt f state rules ctx segmentSlugs = .ok res ∧
      res.variantKey ∈ f.variantKeys := by
  have hstart : Served h.uuid start.store := by
    refine ⟨?_, ?_, ?_, ?_, ?_, ?_, ?_⟩ <;> simp [hflags, hrules]
  have hw := Reaches.invariant h (KeepsVariants h) (fun w => Served h.uuid w.store)
    (fun w ctx m hm hs => m.keeps_served h ctx w hm hs) start w hstart hrun
  refine hw.evaluate h.uuid w.store srt f hf state rules (fun r hr => ?_) ctx segmentSlugs
  rcases List.mem_filter.mp (hperm.mem_iff.mp hr) with ⟨hmem, hfor⟩
  rw [Bool.and_eq_true, beq_iff_eq] at hfor
  exact ⟨hmem, hfor.1⟩

/-- A project with one environment, in which an editor creates a flag with the
    single variant `light`. -/
def emptyProject : World where
  store :=
    { projects := [⟨"p1", "Acme", "acme", 0⟩]
      environments := [⟨"e1", "p1", "Production", "production", 0⟩] }

def themeEditor : Ctx := ⟨some ⟨"u1", .editor⟩, none⟩

def createTheme : Method :=
  .flagCreate ⟨"", "p1", "theme", "Theme", .string, [⟨"light", "Light"⟩], "light", 0⟩

def themeCreated : World := (createTheme.run Host.steady themeEditor emptyProject).2

/-- A rule on that flag for paying users, serving the given variant. -/
def themeRule (variantKey : String) : Method :=
  .ruleCreate ⟨sampleUUID 0, "e1", 1, [⟨"plan", .eq, ["pro"]⟩], variantKey, "paying users", []⟩

def themeRuled (variantKey : String) : World :=
  ((themeRule variantKey).run Host.steady themeEditor themeCreated).2

def themeFlag : Flag :=
  ⟨sampleUUID 0, "p1", "theme", "Theme", .string, [⟨"light", "Light"⟩], "light", 1⟩

/-- What the flag serves a paying user once it is enabled. -/
def themeServed (variantKey : String) : Except Err EvalResult :=
  evaluate Sorter.insertion themeFlag (some ⟨sampleUUID 0, "e1", true⟩)
    ((themeRuled variantKey).store.rules.filter (fun r =>
      r.flagID == themeFlag.id && r.environmentID == "e1"))
    ⟨"user", fun _ => some "pro"⟩ []

theorem no_dangling_variant_theme :
    ∃ res, themeServed "light" = .ok res ∧ res.variantKey ∈ themeFlag.variantKeys := by
  have hcreate : KeepsVariants Host.steady emptyProject themeEditor createTheme :=
    ⟨trivial, trivial⟩
  have hrule : KeepsVariants Host.steady themeCreated themeEditor (themeRule "light") := by
    refine ⟨trivial, by decide, fun id _ r hr => ?_⟩
    rw [show themeCreated.store.rules = [] by decide] at hr
    exact absurd hr List.not_mem_nil
  have hrun : Reaches Host.steady (KeepsVariants Host.steady) emptyProject (themeRuled "light") :=
    Reaches.call themeCreated themeEditor (themeRule "light")
      (Reaches.call emptyProject themeEditor createTheme Reaches.start hcreate) hrule
  exact no_dangling_variant Host.steady emptyProject _ rfl rfl hrun themeFlag (by decide) "e1" _ _
    (List.Perm.refl _) _ _ _

/-- A rule that names a variant the flag does not have is accepted, and the
    variant is served. -/
theorem dangling_variant_served :
    ¬ ∀ (h : Host) (start w : World), start.store.flags = [] → start.store.rules = [] →
      Reaches h (fun _ _ m => m.onVariants) start w →
      ∀ f ∈ w.store.flags, ∀ (environmentID : String) (state : Option FlagEnvironmentState)
        (srt : Sorter) (ctx : EvalContext) (segmentSlugs : List String),
        ∃ res, evaluate srt f state (w.store.rules.filter (fun r =>
            r.flagID == f.id && r.environmentID == environmentID)) ctx segmentSlugs = .ok res ∧
          res.variantKey ∈ f.variantKeys := by
  intro hclaim
  have hrun : Reaches Host.steady (fun _ _ m => m.onVariants) emptyProject (themeRuled "dark") :=
    Reaches.call themeCreated themeEditor (themeRule "dark")
      (Reaches.call emptyProject themeEditor createTheme Reaches.start trivial) trivial
  rcases hclaim Host.steady emptyProject _ rfl rfl hrun themeFlag (by decide) "e1"
    (some ⟨sampleUUID 0, "e1", true⟩) Sorter.insertion ⟨"user", fun _ => some "pro"⟩ []
    with ⟨res, hres, hmem⟩
  have hdark : themeServed "dark" = .ok ⟨"dark", .ruleMatch, sampleUUID 9, "paying users"⟩ := by
    decide
  rw [show res = ⟨"dark", .ruleMatch, sampleUUID 9, "paying users"⟩ from
    Except.ok.inj (hres.symm.trans hdark)] at hmem
  exact absurd hmem (by decide)

end Cuttlegate
