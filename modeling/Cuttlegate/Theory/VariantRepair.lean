import Cuttlegate.Theory.Rollout
import Cuttlegate.Theory.Variants

/-!
# Repairing the Rules of a Variant

What a forced deletion of a variant leaves of the rules that mention it.

The rewriting of one rule is a pure function, `patchRule`, and one equation
says what it changes: the rollout, and the variant the rule names itself
(`patchRule_eq`). The weight that leaves a rollout goes to the first entry
that stays, so a full rollout stays full (`FullRollout.patch`), and a rule
whose rollout stays non-empty stays valid. A rule that has nothing left to
serve falls back on the default variant of the flag; the check of a flag asks
that this default be one of its variants, but not that its key be non-empty,
and a rule that names an empty variant is not valid.

The loop that writes the rules back is followed on the table itself. Because
the ids of the rows are unique and in the spelling of their column, an upsert
of a rewritten row changes that row and no other (`upsertRule_patched`), and
the table after any number of steps is `rewritten` at the ids done so far
(`upsertPatched_run`).

## Main definitions

* `StoredRules`: What the columns of the table of rules guarantee.
* `rewritten`: The table after some of its rows have been rewritten.
* `prepareDelete`, `writeBack`: The two halves of a deletion.
* `Deletable`: A deletion passes its checks and lookups.
* `Repaired`: What a forced deletion is meant to leave.

## Theorems

* `FullRollout.patch`: Rewriting keeps a rollout full.
* `patchRule_valid_iff`: When a rewritten rule is valid.
* `upsertPatched_run`: The loop, with every point at which it can stop.
* `ends_selectAffected`: The checks and lookups, with what forbids a deletion.
* `prepareDelete_run`: The first half of a deletion.
* `deleteVariant_repairs_iff`: When a forced deletion repairs every rule.
-/

namespace Cuttlegate

/-! ## One rule rewritten -/

/-- The variant a rewritten rule names itself. -/
def patchedKey (variantKey defaultKey : String) (r : Rule) : String :=
  if r.rollout ≠ [] ∧ patchRollout variantKey r.rollout = [] then defaultKey
  else if r.variantKey = variantKey then defaultKey
  else r.variantKey

/-- Rewriting a rule changes what it serves and nothing else. -/
theorem patchRule_eq (variantKey defaultKey : String) (r : Rule) :
    patchRule variantKey defaultKey r =
      { r with rollout := patchRollout variantKey r.rollout
               variantKey := patchedKey variantKey defaultKey r } := by
  unfold patchRule
  by_cases hroll : r.rollout = []
  · have hnothing : patchRollout variantKey r.rollout = r.rollout := by
      rw [hroll]
      rfl
    have hkey : patchedKey variantKey defaultKey r =
        if r.variantKey = variantKey then defaultKey else r.variantKey := by
      rw [patchedKey, if_neg (fun h => h.1 hroll)]
    rw [if_pos hroll, hnothing, hkey]
  · rw [if_neg hroll]
    by_cases hempty : patchRollout variantKey r.rollout = []
    · rw [if_pos hempty, patchedKey, if_pos ⟨hroll, hempty⟩, hempty]
    · have hkey : patchedKey variantKey defaultKey r =
          if r.variantKey = variantKey then defaultKey else r.variantKey := by
        rw [patchedKey, if_neg (fun h => hempty h.2)]
      rw [if_neg hempty, hkey]

theorem patchRollout_nil_iff (variantKey : String) (rollout : List RolloutEntry) :
    patchRollout variantKey rollout = [] ↔ ∀ e ∈ rollout, e.variantKey = variantKey := by
  have hfilter : rollout.filter (fun e => e.variantKey != variantKey) = [] ↔
      ∀ e ∈ rollout, e.variantKey = variantKey := by
    simp [List.filter_eq_nil_iff]
  rw [← hfilter, patchRollout]
  cases rollout.filter (fun e => e.variantKey != variantKey) with
  | nil => simp
  | cons e kept => simp

/-- A rewritten rule no longer mentions the variant. -/
theorem patchRule_mentions (variantKey defaultKey : String) (hne : defaultKey ≠ variantKey)
    (r : Rule) : (patchRule variantKey defaultKey r).mentions variantKey = false := by
  rw [patchRule_eq, Rule.mentions, Bool.or_eq_false_iff]
  constructor
  · simp only [patchedKey, beq_eq_false_iff_ne]
    split_ifs with hcollapse hdirect
    · exact hne
    · exact hne
    · exact hdirect
  · rw [List.any_eq_false]
    intro e he
    simpa using (patchRollout_mem variantKey r.rollout e he).1

/-- The weights split into those that stay and those that go. -/
theorem weightSum_split (variantKey : String) (rollout : List RolloutEntry) :
    weightSum rollout = weightSum (rollout.filter (fun e => e.variantKey != variantKey)) +
      weightSum (rollout.filter (fun e => e.variantKey == variantKey)) := by
  induction rollout with
  | nil => simp
  | cons e es ih =>
      by_cases hkey : e.variantKey = variantKey
      · simp [hkey, ih]
        omega
      · simp [hkey, ih]
        omega

theorem weightSum_nonneg (entries : List RolloutEntry)
    (hpos : ∀ e ∈ entries, 1 ≤ e.weight.toInt) : 0 ≤ weightSum entries :=
  (weight_le_weightSum entries hpos).1

/-- A running total that cannot wrap is the sum. -/
theorem rolloutTotal_exact (entries : List RolloutEntry) (hlow : 0 ≤ weightSum entries)
    (hhigh : weightSum entries ≤ 100) : (rolloutTotal 0 entries).toInt = weightSum entries := by
  rw [rolloutTotal_toInt, Int64.toInt_zero, Int.zero_add, Int.bmod_def]
  split <;> omega

/-- The weight that goes is added to the first entry that stays, so a rollout
    of which something stays is full when it was full. -/
theorem FullRollout.patch {rollout : List RolloutEntry} (h : FullRollout rollout)
    (variantKey : String) (hleft : patchRollout variantKey rollout ≠ []) :
    FullRollout (patchRollout variantKey rollout) := by
  have hsplit := weightSum_split variantKey rollout
  rw [h.total] at hsplit
  have hstay : ∀ e ∈ rollout.filter (fun e => e.variantKey != variantKey), 1 ≤ e.weight.toInt :=
    fun e he => h.positive e (List.mem_of_mem_filter he)
  have hgone := weightSum_nonneg (rollout.filter (fun e => e.variantKey == variantKey))
    (fun e he => h.positive e (List.mem_of_mem_filter he))
  have hstaySum := weightSum_nonneg _ hstay
  have htotal := rolloutTotal_exact (rollout.filter (fun e => e.variantKey == variantKey)) hgone
    (by omega)
  unfold patchRollout at hleft ⊢
  cases hkept : rollout.filter (fun e => e.variantKey != variantKey) with
  | nil => simp [hkept] at hleft
  | cons e kept =>
      simp only
      rw [hkept] at hstay hsplit
      rw [weightSum_cons] at hsplit
      have he := hstay e List.mem_cons_self
      have hkeptSum := weightSum_nonneg kept (fun d hd => hstay d (List.mem_cons_of_mem e hd))
      -- The weights are small, so adding them does not wrap either.
      have hadd : (e.weight + rolloutTotal 0
          (rollout.filter (fun e => e.variantKey == variantKey))).toInt =
          e.weight.toInt + weightSum (rollout.filter (fun e => e.variantKey == variantKey)) := by
        rw [Int64.toInt_add, htotal, Int.bmod_def]
        split <;> omega
      constructor
      · intro d hd
        rcases List.mem_cons.mp hd with heq | hmem
        · rw [heq, hadd]
          omega
        · exact hstay d (List.mem_cons_of_mem e hmem)
      · rw [weightSum_cons, hadd]
        omega

/-- A rule is in order: it passes its check, and its weights are one hundred
    without wrapping. -/
def Rule.InOrder (r : Rule) : Prop :=
  r.validate = .ok () ∧ (r.rollout ≠ [] → weightSum r.rollout = 100)

theorem Rule.InOrder.fullRollout {r : Rule} (h : r.InOrder) (hroll : r.rollout ≠ []) :
    FullRollout r.rollout := by
  have hwf := (r.validate_ok_iff).mp h.1
  exact ⟨fun e he => (weight_ge_iff e).mp (hwf.entries e he).2, h.2 hroll⟩

/-- The rule has nothing but the variant to serve. -/
def Rule.ServesOnly (r : Rule) (variantKey : String) : Prop :=
  ∀ key ∈ r.servable, key = variantKey

theorem Rule.servesOnly_iff (r : Rule) (variantKey : String) :
    r.ServesOnly variantKey ↔
      (r.rollout = [] ∧ r.variantKey = variantKey) ∨
        (r.rollout ≠ [] ∧ patchRollout variantKey r.rollout = []) := by
  unfold Rule.ServesOnly Rule.servable
  by_cases hroll : r.rollout = []
  · simp [hroll]
  · rw [if_neg hroll, patchRollout_nil_iff]
    simp [hroll]

/-- A rule in order that mentions the variant is in order after the rewriting,
    unless it has only the variant to serve and the default is empty. -/
theorem patchRule_inOrder_iff (variantKey defaultKey : String) (r : Rule) (hr : r.InOrder) :
    (patchRule variantKey defaultKey r).InOrder ↔
      defaultKey ≠ "" ∨ ¬ r.ServesOnly variantKey := by
  have hwf := (r.validate_ok_iff).mp hr.1
  rw [r.servesOnly_iff, patchRule_eq]
  unfold Rule.InOrder
  rw [Rule.validate_ok_iff]
  by_cases hempty : patchRollout variantKey r.rollout = []
  · -- Nothing of a rollout is left, so the rule serves the variant it names.
    have hvalid : Rule.WellFormed { r with
        rollout := patchRollout variantKey r.rollout
        variantKey := patchedKey variantKey defaultKey r } ↔
        patchedKey variantKey defaultKey r ≠ "" := by
      constructor
      · intro h
        exact h.variantKey hempty
      · intro hkey
        exact ⟨hwf.nameLength, hwf.conditions, by simp [hempty], fun h => absurd hempty h,
          fun _ => hkey, hwf.wellFormed⟩
    rw [hvalid, patchedKey]
    by_cases hroll : r.rollout = []
    · have hown := hwf.variantKey hroll
      by_cases hdirect : r.variantKey = variantKey
      · simp [hroll, hdirect, patchRollout]
      · simp [hroll, hdirect, patchRollout, hown]
    · simp [hroll, hempty]
  · -- What is left of the rollout is full.
    have hroll : r.rollout ≠ [] := by
      intro hnil
      rw [hnil] at hempty
      exact hempty rfl
    have hfull := (hr.fullRollout hroll).patch variantKey hempty
    have hkeys : ∀ e ∈ patchRollout variantKey r.rollout, e.variantKey ≠ "" := by
      intro e he
      rcases (patchRollout_mem variantKey r.rollout e he).2 with ⟨d, hd, hkey⟩
      rw [← hkey]
      exact (hwf.entries d hd).1
    simp only [hroll, hempty, ne_eq, not_false_eq_true, forall_const, false_and, and_false,
      or_self, or_true, iff_true]
    refine ⟨⟨hwf.nameLength, hwf.conditions, fun e he => ⟨hkeys e he,
      (weight_ge_iff e).mpr (hfull.positive e he)⟩, fun _ => ?_, fun h => absurd h hempty,
      hwf.wellFormed⟩, hfull.total⟩
    exact (rolloutTotal_eq_iff _).mpr ⟨0, by rw [hfull.total]; omega⟩

/-! ## The loop over the rules -/

/-- What the columns of the table of rules guarantee: the ids are a primary
    key in the spelling of their column, and the priorities fit theirs. -/
structure StoredRules (uuid : String → Option String) (rules : List Rule) : Prop where
  ids : (rules.map (·.id)).Nodup
  canonical : ∀ r ∈ rules, uuid r.id = some r.id
  priority : ∀ r ∈ rules, fitsInt32 r.priority = true

/-- The table after the rows with the given ids have been rewritten. -/
def rewritten (variantKey defaultKey : String) (done : List String) (rules : List Rule) :
    List Rule :=
  rules.map (fun r => if r.id ∈ done then patchRule variantKey defaultKey r else r)

theorem rewritten_nil (variantKey defaultKey : String) (rules : List Rule) :
    rewritten variantKey defaultKey [] rules = rules := by
  simp [rewritten]

/-- The world with another table of rules and another count. -/
def World.withRules (w : World) (rules : List Rule) (calls : Nat) : World :=
  { w with store := { w.store with rules := rules }, calls := calls }

@[simp] theorem World.withRules_rules (w : World) (rules : List Rule) (calls : Nat) :
    (w.withRules rules calls).store.rules = rules := rfl

@[simp] theorem World.withRules_flags (w : World) (rules : List Rule) (calls : Nat) :
    (w.withRules rules calls).store.flags = w.store.flags := rfl

@[simp] theorem World.withRules_calls (w : World) (rules : List Rule) (calls : Nat) :
    (w.withRules rules calls).calls = calls := rfl

@[simp] theorem World.withRules_withRules (w : World) (rules rules' : List Rule)
    (calls calls' : Nat) :
    (w.withRules rules calls).withRules rules' calls' = w.withRules rules' calls' := rfl

/-- Writing a row of the table back rewritten changes this row and no other. -/
theorem upsertRule_patched (uuid : String → Option String) (variantKey defaultKey : String)
    (rules : List Rule) (hstored : StoredRules uuid rules) (done : List String) (p : Rule)
    (hp : p ∈ rules) (hnew : p.id ∉ done) (s : Store)
    (hs : s.rules = rewritten variantKey defaultKey done rules) :
    ∃ t, upsertRule uuid (patchRule variantKey defaultKey p) s =
      .ok (t, { s with rules := rewritten variantKey defaultKey (done ++ [p.id]) rules }) := by
  have hpatch := patchRule_eq variantKey defaultKey p
  have hid : (patchRule variantKey defaultKey p).id = p.id := by rw [hpatch]
  have hpriority : (patchRule variantKey defaultKey p).priority = p.priority := by rw [hpatch]
  -- Overwriting the row with its own rewriting is the rewriting.
  have hrows : s.rules.map (fun r => if r.id = p.id then
      r.overwrite (patchRule variantKey defaultKey p) else r) =
      rewritten variantKey defaultKey (done ++ [p.id]) rules := by
    rw [hs, rewritten, rewritten, List.map_map]
    refine List.map_congr_left (fun r hr => ?_)
    simp only [Function.comp_apply, List.mem_append, List.mem_singleton]
    by_cases hrow : r.id = p.id
    · have hrp : r = p := List.inj_on_of_nodup_map hstored.ids hr hp hrow
      rw [hrp, if_neg hnew, if_pos rfl, if_pos (.inr rfl), hpatch]
      rfl
    · by_cases hdone : r.id ∈ done
      · have hkeeps : (patchRule variantKey defaultKey r).id = r.id := by rw [patchRule_eq]
        rw [if_pos hdone, hkeeps, if_neg hrow, if_pos (.inl hdone)]
      · rw [if_neg hdone, if_neg hrow, if_neg (by simp [hdone, hrow])]
  have hfind : s.rules.find? (fun r => r.id == p.id) ≠ none := by
    rw [hs]
    intro hnone
    have hmem : (if p.id ∈ done then patchRule variantKey defaultKey p else p) ∈
        rewritten variantKey defaultKey done rules := List.mem_map_of_mem hp
    rw [if_neg hnew] at hmem
    exact absurd (List.find?_eq_none.mp hnone p hmem) (by simp)
  unfold upsertRule
  rw [hid, hstored.canonical p hp, hpriority, hstored.priority p hp]
  cases hold : s.rules.find? (fun r => r.id == p.id) with
  | none => exact absurd hold hfind
  | some old =>
      refine ⟨old.createdAt, ?_⟩
      simp only [bind_unit_ok, refuseIf_ok, Bool.true_eq_false, not_false_eq_true, true_and, hold,
        hrows]

/-- The operations from `n` on pass if the first does and those after it do. -/
theorem passes_succ (h : Host) (n k : Nat) (hfirst : h.fails n = false)
    (hrest : ∀ i, i < k → h.fails (n + 1 + i) = false) :
    ∀ i, i < k + 1 → h.fails (n + i) = false := by
  intro i hi
  cases i with
  | zero => exact hfirst
  | succ i =>
      rw [show n + (i + 1) = n + 1 + i by omega]
      exact hrest i (by omega)

/-- The loop rewrites the rules in turn until a statement fails. -/
theorem upsertPatched_run (h : Host) (ctx : Ctx) (variantKey defaultKey : String)
    (rules : List Rule) (hstored : StoredRules h.uuid rules) (rest : List Rule)
    (done : List String) (w : World)
    (hw : w.store.rules = rewritten variantKey defaultKey done rules)
    (hrest : ∀ p ∈ rest, p ∈ rules) (hnodup : (done ++ rest.map (·.id)).Nodup) :
    ((∀ i, i < rest.length → h.fails (w.calls + i) = false) ∧
        Proc.run (exec h) (upsertPatched ctx variantKey defaultKey rest) w = (.ok (),
          w.withRules (rewritten variantKey defaultKey (done ++ rest.map (·.id)) rules)
            (w.calls + rest.length))) ∨
      ∃ k, k < rest.length ∧ h.fails (w.calls + k) = true ∧
        (∀ i, i < k → h.fails (w.calls + i) = false) ∧
        Proc.run (exec h) (upsertPatched ctx variantKey defaultKey rest) w = (.error .internal,
          w.withRules (rewritten variantKey defaultKey (done ++ (rest.take k).map (·.id)) rules)
            (w.calls + k + 1)) := by
  induction rest generalizing done w with
  | nil =>
      left
      refine ⟨by simp, ?_⟩
      simp only [List.map_nil, List.append_nil, List.length_nil, Nat.add_zero, ← hw]
      rfl
  | cons p rest ih =>
      rw [upsertPatched]
      by_cases hfails : h.fails w.calls = true
      · -- The first statement fails and nothing is written.
        right
        refine ⟨0, by simp, hfails, by simp, ?_⟩
        rw [run_call_failing ctx _ _ w hfails rfl]
        simp only [List.take_zero, List.map_nil, List.append_nil, ← hw]
        rfl
      · rw [Bool.not_eq_true] at hfails
        have hp := hrest p List.mem_cons_self
        have hnew : p.id ∉ done := by
          intro hmem
          rw [List.nodup_append'] at hnodup
          exact hnodup.2.2 hmem (by simp)
        rcases upsertRule_patched h.uuid variantKey defaultKey rules hstored done p hp hnew w.store
          hw with ⟨t, hup⟩
        have hperform : Op.perform h ⟨ctx.tenant, h.rls⟩ w
            (.upsertRule (patchRule variantKey defaultKey p)) = .ok (t, w.withRules
              (rewritten variantKey defaultKey (done ++ [p.id]) rules) w.calls) := by
          simp only [Op.perform, World.onStore, hup]
          rfl
        rw [run_call_ok ctx _ _ w _ t hfails hperform]
        -- The rest of the loop starts from the table with this row rewritten.
        rcases ih (done ++ [p.id])
          (w.withRules (rewritten variantKey defaultKey (done ++ [p.id]) rules) (w.calls + 1)) rfl
          (fun q hq => hrest q (List.mem_cons_of_mem p hq)) (by simpa using hnodup) with
          ⟨hall, hrun⟩ | ⟨k, hk, hkfails, hbefore, hrun⟩
        · left
          rw [World.withRules_calls] at hall
          refine ⟨passes_succ h _ _ hfails hall, hrun.trans ?_⟩
          simp only [World.withRules_calls, World.withRules_withRules, List.map_cons,
            List.append_assoc, List.singleton_append, List.length_cons]
          rw [show w.calls + 1 + rest.length = w.calls + (rest.length + 1) by omega]
        · right
          rw [World.withRules_calls] at hkfails hbefore hrun
          refine ⟨k + 1, by simpa using hk, ?_, passes_succ h _ _ hfails hbefore, ?_⟩
          · rw [show w.calls + (k + 1) = w.calls + 1 + k by omega]
            exact hkfails
          · refine hrun.trans ?_
            simp only [World.withRules_withRules, List.take_succ_cons, List.map_cons,
              List.append_assoc, List.singleton_append]
            rw [show w.calls + 1 + k + 1 = w.calls + (k + 1) + 1 by omega]

/-! ## The halves of a deletion -/

/-- The rules of a flag that mention a variant. -/
def Store.mentioning (s : Store) (flagID variantKey : String) : List Rule :=
  s.rules.filter (fun r => r.flagID == flagID && r.mentions variantKey)

/-- The flag as a deletion writes it back, without the first variant of the
    key. -/
def Flag.eraseVariant (f : Flag) (variantKey : String) : Flag :=
  { f with variants := f.variants.eraseP (fun v => v.key == variantKey) }

namespace FlagService

/-- The checks and lookups of a deletion, up to the rules it has to rewrite. -/
def selectAffected (ctx : Ctx) (projectID flagKey variantKey : String) (force : Bool) :
    Prog (Flag × List Rule) := do
  let _ ← ctx.require .editor
  let f ← ctx.call (.flagByKey projectID flagKey)
  check (refuseIf (f.type = .bool) .immutableVariants)
  check (refuseIf (variantKey = f.defaultVariantKey) .defaultVariant)
  check (refuseIf (f.variants.length = 1) .lastVariant)
  check (refuseIf (∀ v ∈ f.variants, v.key ≠ variantKey) .notFound)
  let rules ← ctx.call (.listRulesByFlag f.id)
  let affected := rules.filter (fun r => r.mentions variantKey)
  check (refuseIf (affected.length > 0 ∧ force = false) .variantInUse)
  return (f, affected)

/-- Everything before the flag is written. -/
def prepareDelete (ctx : Ctx) (projectID flagKey variantKey : String) (force : Bool) :
    Prog Flag := do
  let (f, affected) ← selectAffected ctx projectID flagKey variantKey force
  upsertPatched ctx variantKey f.defaultVariantKey affected
  check (f.eraseVariant variantKey).validate
  return f.eraseVariant variantKey

/-- The flag is written, and the deletion recorded. -/
def writeBack (ctx : Ctx) (variantKey : String) (f : Flag) : Prog Flag := do
  ctx.call (.updateFlag f)
  recordAudit ctx { action := "flag.variant_deleted", entityID := f.id, entityKey := f.key
                    projectID := f.projectID, before := variantKey }
  return f

theorem deleteVariant_eq (ctx : Ctx) (projectID flagKey variantKey : String) (force : Bool) :
    deleteVariant ctx projectID flagKey variantKey force =
      prepareDelete ctx projectID flagKey variantKey force >>= writeBack ctx variantKey := by
  simp only [deleteVariant, prepareDelete, selectAffected, Proc.bind_assoc, Proc.pure_eq,
    Proc.ret_bind]
  rfl

theorem selectAffected_within (ctx : Ctx) (projectID flagKey variantKey : String) (force : Bool) :
    Within [] (selectAffected ctx projectID flagKey variantKey force) := by
  refine within_require ctx _ _ (fun _ => ?_)
  refine within_bind _ _ (within_read ctx _ rfl) (fun f => ?_)
  refine within_check _ _ (fun _ => within_check _ _ (fun _ => ?_))
  refine within_check _ _ (fun _ => within_check _ _ (fun _ => ?_))
  refine within_bind _ _ (within_read ctx _ rfl) (fun rules => ?_)
  exact within_check _ _ (fun _ => within_ret _)

end FlagService

/-- A deletion of a variant of `f` passes its checks and lookups. -/
structure Deletable (h : Host) (ctx : Ctx) (projectID flagKey variantKey : String) (force : Bool)
    (w : World) (f : Flag) : Prop where
  role : ∃ ac, ctx.auth = some ac ∧ roleLevel .editor ≤ roleLevel ac.role
  lookup : h.fails w.calls = false
  found : flagByKey ⟨ctx.tenant, h.rls⟩ projectID flagKey w.store = .ok (f, w.store)
  type : f.type ≠ .bool
  other : variantKey ≠ f.defaultVariantKey
  several : f.variants.length ≠ 1
  present : ∃ v ∈ f.variants, v.key = variantKey
  listing : h.fails (w.calls + 1) = false
  allowed : force = true ∨ w.store.mentioning f.id variantKey = []

/-- The rules of a flag are listed in some order, so those that mention a
    variant are selected in some order. -/
theorem listRules_mentioning (h : Host) (ctx : Ctx) (flagID variantKey : String) (w : World) :
    ∃ rules, Op.perform h ⟨ctx.tenant, h.rls⟩ w (.listRulesByFlag flagID) = .ok (rules, w) ∧
      (rules.filter (fun r => r.mentions variantKey)).Perm
        (w.store.mentioning flagID variantKey) := by
  refine ⟨_, rfl, ?_⟩
  have hsorted := ((h.order w.calls).perm (fun a b =>
    decide (a.environmentID < b.environmentID) ||
      (a.environmentID == b.environmentID && decide (a.priority < b.priority)))
    (w.store.rules.filter (fun r => r.flagID == flagID))).filter (fun r => r.mentions variantKey)
  rw [List.filter_filter] at hsorted
  simpa only [Store.mentioning, Bool.and_comm] using hsorted

/-- At most one flag can lose the variant. -/
theorem Deletable.unique {h : Host} {ctx : Ctx} {projectID flagKey variantKey : String}
    {force : Bool} {w : World} {f g : Flag}
    (hf : Deletable h ctx projectID flagKey variantKey force w f)
    (hg : Deletable h ctx projectID flagKey variantKey force w g) : g = f := by
  have hfound := hg.found
  rw [hf.found, Except.ok.injEq, Prod.mk.injEq] at hfound
  exact hfound.1.symm

/-- The checks and lookups are passed, and the rules of the flag that mention
    the variant are selected in some order; or the deletion ends there. -/
theorem ends_selectAffected (h : Host) (ctx : Ctx) (projectID flagKey variantKey : String)
    (force : Bool) (w : World) :
    Proc.Ends (exec h) (fun r w' =>
        (∃ f affected, Deletable h ctx projectID flagKey variantKey force w f ∧
          affected.Perm (w.store.mentioning f.id variantKey) ∧
          r = .ok (f, affected) ∧ w' = w.tick.tick) ∨
        ((∀ f, ¬ Deletable h ctx projectID flagKey variantKey force w f) ∧
          ∃ e, r = .error e ∧ w'.store = w.store))
      (FlagService.selectAffected ctx projectID flagKey variantKey force) w := by
  refine ends_require ctx _ _ w (fun hlow => ?_) (fun ac hauth hlevel => ?_)
  · refine .inr ⟨fun f hf => ?_, _, rfl, rfl⟩
    rcases hf.role with ⟨ac, hauth, hlevel⟩
    exact absurd (hlow ac hauth) (by omega)
  refine ends_findFlag ctx projectID flagKey _ w (fun e hnone => ?_) (fun hlookup f hfound => ?_)
  · exact .inr ⟨fun f hf => hnone hf.lookup f hf.found, e, rfl, rfl⟩
  -- Whatever else forbids the deletion is said of the flag found.
  have hsame : ∀ g, Deletable h ctx projectID flagKey variantKey force w g → g = f := by
    intro g hg
    have hg' := hg.found
    rw [hfound, Except.ok.injEq, Prod.mk.injEq] at hg'
    exact hg'.1.symm
  refine ends_guard _ _ _ _ (fun htype => ?_) (fun htype => ?_)
  · exact .inr ⟨fun g hg => absurd htype (hsame g hg ▸ hg.type), _, rfl, rfl⟩
  refine ends_guard _ _ _ _ (fun hother => ?_) (fun hother => ?_)
  · exact .inr ⟨fun g hg => absurd hother (hsame g hg ▸ hg.other), _, rfl, rfl⟩
  refine ends_guard _ _ _ _ (fun hone => ?_) (fun hone => ?_)
  · exact .inr ⟨fun g hg => absurd hone (hsame g hg ▸ hg.several), _, rfl, rfl⟩
  refine ends_guard _ _ _ _ (fun habsent => ?_) (fun hpresent => ?_)
  · refine .inr ⟨fun g hg => ?_, _, rfl, rfl⟩
    rcases hsame g hg ▸ hg.present with ⟨v, hv, hkey⟩
    exact habsent v hv hkey
  -- The rules come in an order of the database's choice.
  rcases listRules_mentioning h ctx f.id variantKey w.tick with ⟨rules, hlist, hperm⟩
  rw [World.tick_store] at hperm
  refine ends_step ctx (.listRulesByFlag f.id) rfl _ _ (fun hfails => ?_) (fun e herror => ?_)
    (fun hlisting rules' w' hlist' => ?_)
  · refine .inr ⟨fun g hg => ?_, _, rfl, rfl⟩
    have hpass := hg.listing
    rw [World.tick_calls, hpass] at hfails
    exact absurd hfails Bool.false_ne_true
  · rw [hlist] at herror
    exact (nomatch herror)
  rw [hlist, Except.ok.injEq, Prod.mk.injEq] at hlist'
  rcases hlist' with ⟨rfl, rfl⟩
  refine ends_guard _ _ _ _ (fun hused => ?_) (fun hused => ?_)
  · refine .inr ⟨fun g hg => ?_, _, rfl, rfl⟩
    rw [hsame g hg] at hg
    rcases hg.allowed with hforce | hnone
    · exact absurd (hforce.symm.trans hused.2) (by decide)
    · rw [hperm.length_eq, hnone] at hused
      exact absurd hused.1 (by simp)
  · refine .inl ⟨f, _, ⟨⟨ac, hauth, hlevel⟩, hlookup, hfound, htype, hother, hone,
      by simpa using hpresent, hlisting, ?_⟩, hperm, rfl, rfl⟩
    by_cases hforce : force = true
    · exact .inl hforce
    · right
      rw [← List.length_eq_zero_iff, ← hperm.length_eq]
      have hnot := not_and'.mp hused (by simpa using hforce)
      omega

/-- What the first half of a deletion does. It ends before it writes; or one of
    its upserts fails, with the rules in front of it rewritten; or all rules
    are rewritten, and the flag without the variant is checked. -/
theorem prepareDelete_run (h : Host) (ctx : Ctx) (projectID flagKey variantKey : String)
    (force : Bool) (w : World) (hstored : StoredRules h.uuid w.store.rules) :
    ((∀ f, ¬ Deletable h ctx projectID flagKey variantKey force w f) ∧
        ∃ e w', Proc.run (exec h)
            (FlagService.prepareDelete ctx projectID flagKey variantKey force) w =
          (.error e, w') ∧ w'.store = w.store) ∨
      ∃ (f : Flag) (affected : List Rule),
        Deletable h ctx projectID flagKey variantKey force w f ∧
        affected.Perm (w.store.mentioning f.id variantKey) ∧
        ((∃ k, k < affected.length ∧ h.fails (w.calls + 2 + k) = true ∧
            (∀ i, i < k → h.fails (w.calls + 2 + i) = false) ∧
            Proc.run (exec h)
                (FlagService.prepareDelete ctx projectID flagKey variantKey force) w =
              (.error .internal, w.withRules (rewritten variantKey f.defaultVariantKey
                ((affected.take k).map (·.id)) w.store.rules) (w.calls + 2 + k + 1))) ∨
          ((∀ i, i < affected.length → h.fails (w.calls + 2 + i) = false) ∧
            Proc.run (exec h)
                (FlagService.prepareDelete ctx projectID flagKey variantKey force) w =
              ((f.eraseVariant variantKey).validate.map (fun _ => f.eraseVariant variantKey),
                w.withRules (rewritten variantKey f.defaultVariantKey (affected.map (·.id))
                  w.store.rules) (w.calls + 2 + affected.length)))) := by
  unfold FlagService.prepareDelete
  rcases ends_selectAffected h ctx projectID flagKey variantKey force w with
    ⟨f, affected, hdel, hperm, hanswer, hafter⟩ | ⟨hnone, e, hanswer, hstore⟩
  · right
    refine ⟨f, affected, hdel, hperm, ?_⟩
    have hselect : Proc.run (exec h)
        (FlagService.selectAffected ctx projectID flagKey variantKey force) w =
        (.ok (f, affected), w.tick.tick) := Prod.ext hanswer hafter
    rw [Proc.run_bind_ok _ _ _ _ _ _ hselect]
    simp only
    have hmem : ∀ p ∈ affected, p ∈ w.store.rules := fun p hp =>
      List.mem_of_mem_filter (hperm.mem_iff.mp hp)
    have hnodup : (affected.map (·.id)).Nodup := by
      rw [(hperm.map (·.id)).nodup_iff]
      exact hstored.ids.sublist (List.filter_sublist.map _)
    -- The loop starts from the table as it is.
    rcases upsertPatched_run h ctx variantKey f.defaultVariantKey w.store.rules hstored affected []
      w.tick.tick (rewritten_nil _ _ _).symm hmem hnodup with
      ⟨hall, hloop⟩ | ⟨k, hk, hfails, hbefore, hloop⟩
    · right
      refine ⟨hall, ?_⟩
      rw [Proc.run_bind_ok _ _ _ _ _ _ hloop, run_check]
      cases (f.eraseVariant variantKey).validate with
      | error e => rfl
      | ok u => rfl
    · left
      refine ⟨k, hk, hfails, hbefore, ?_⟩
      rw [Proc.run_bind, hloop]
      rfl
  · left
    refine ⟨hnone, e, _, ?_, hstore⟩
    have hselect : Proc.run (exec h)
        (FlagService.selectAffected ctx projectID flagKey variantKey force) w =
        (.error e, (Proc.run (exec h)
          (FlagService.selectAffected ctx projectID flagKey variantKey force) w).2) :=
      Prod.ext hanswer rfl
    rw [Proc.run_bind, hselect]

/-- The flag is written unless the statement fails, and recording the deletion
    touches neither flags nor rules. -/
theorem writeBack_run (h : Host) (ctx : Ctx) (variantKey : String) (f : Flag) (w : World)
    (hrow : w.store.flags.any (Conn.isFlagRow ⟨ctx.tenant, h.rls⟩ f.id) = true) :
    (h.fails w.calls = true ∧
        Proc.run (exec h) (FlagService.writeBack ctx variantKey f) w = (.error .internal, w.tick)) ∨
      (h.fails w.calls = false ∧
        ∃ w', Proc.run (exec h) (FlagService.writeBack ctx variantKey f) w = (.ok f, w') ∧
          w'.store.rules = w.store.rules ∧
          w'.store.flags = w.store.flags.map (fun g =>
            if Conn.isFlagRow ⟨ctx.tenant, h.rls⟩ f.id g then g.overwrite f else g)) := by
  unfold FlagService.writeBack
  by_cases hfails : h.fails w.calls = true
  · exact .inl ⟨hfails, run_call_failing ctx _ _ w hfails rfl⟩
  rw [Bool.not_eq_true] at hfails
  refine .inr ⟨hfails, ?_⟩
  have hperform : Op.perform h ⟨ctx.tenant, h.rls⟩ w (.updateFlag f) =
      .ok ((), { w with store := { w.store with flags := w.store.flags.map (fun g =>
        if Conn.isFlagRow ⟨ctx.tenant, h.rls⟩ f.id g then g.overwrite f else g) } }) := by
    simp only [Op.perform, World.onStore, updateFlag, affect, hrow, if_true]
  rw [run_call_ok ctx _ _ w _ () hfails hperform, Proc.run_bind]
  unfold recordAudit
  rw [run_bestEffort]
  have haudit := recordAuditErr_within ctx
    { action := "flag.variant_deleted", entityID := f.id, entityKey := f.key
      projectID := f.projectID, before := variantKey }
  refine ⟨_, rfl, ?_, ?_⟩
  · exact haudit.same h _ .rules (by decide) _
  · exact haudit.same h _ .flags (by decide) _

/-! ## What a forced deletion leaves -/

/-- The two rules differ at most in what they serve. -/
structure Rule.SameBesidesServed (r r' : Rule) : Prop where
  id : r'.id = r.id
  flagID : r'.flagID = r.flagID
  environmentID : r'.environmentID = r.environmentID
  name : r'.name = r.name
  priority : r'.priority = r.priority
  conditions : r'.conditions = r.conditions
  enabled : r'.enabled = r.enabled

/-- The flag without a variant. -/
def Flag.without (f : Flag) (variantKey : String) : Flag :=
  { f with variants := f.variants.filter (fun v => v.key != variantKey) }

/-- A forced deletion of a variant of `f` has left the flag without it, and
    every rule of the flag in order and without it. -/
structure Repaired (variantKey : String) (f f' : Flag) (s s' : Store) : Prop where
  present : variantKey ∈ f.variantKeys
  answer : f' = f.without variantKey
  flags : s'.flags = s.flags.map (fun g => if g.id = f.id then f.without variantKey else g)
  rules : List.Forall₂ (fun r r' => Rule.SameBesidesServed r r' ∧
    (¬ (r.flagID = f.id ∧ r.mentions variantKey = true) → r' = r)) s.rules s'.rules
  unmentioned : ∀ r ∈ s'.rules, r.flagID = f.id → r.mentions variantKey = false
  inOrder : ∀ r ∈ s'.rules, r.flagID = f.id → r.InOrder

/-- With distinct keys the first variant of a key is all of them. -/
theorem Flag.eraseVariant_eq (f : Flag) (variantKey : String) (hkeys : f.variantKeys.Nodup) :
    f.eraseVariant variantKey = f.without variantKey := by
  have hvariants : ∀ vs : List Variant, (vs.map (·.key)).Nodup →
      vs.eraseP (fun v => v.key == variantKey) = vs.filter (fun v => v.key != variantKey) := by
    intro vs
    induction vs with
    | nil => intro _; rfl
    | cons v vs ih =>
        intro hnodup
        rw [List.map_cons, List.nodup_cons] at hnodup
        by_cases hkey : v.key = variantKey
        · have hrest : vs.filter (fun v => v.key != variantKey) = vs := by
            rw [List.filter_eq_self]
            intro x hx
            rw [bne_iff_ne]
            intro hxkey
            exact hnodup.1 (List.mem_map.mpr ⟨x, hx, hxkey.trans hkey.symm⟩)
          simp [hkey, hrest]
        · simp [hkey, ih hnodup.2]
  rw [Flag.eraseVariant, hvariants f.variants hkeys]
  rfl

/-- The rows with the ids of the selected rules are the rules of the flag that
    mention the variant. -/
theorem rewritten_mentioning (uuid : String → Option String) (variantKey defaultKey : String)
    (s : Store) (hstored : StoredRules uuid s.rules) (flagID : String) (affected : List Rule)
    (hperm : affected.Perm (s.mentioning flagID variantKey)) :
    rewritten variantKey defaultKey (affected.map (·.id)) s.rules =
      s.rules.map (fun r => if r.flagID = flagID ∧ r.mentions variantKey = true then
        patchRule variantKey defaultKey r else r) := by
  refine List.map_congr_left (fun r hr => ?_)
  have hiff : r.id ∈ affected.map (·.id) ↔ r.flagID = flagID ∧ r.mentions variantKey = true := by
    rw [(hperm.map (·.id)).mem_iff]
    constructor
    · intro hmem
      rcases List.mem_map.mp hmem with ⟨q, hq, hid⟩
      rcases List.mem_filter.mp hq with ⟨hqs, hment⟩
      rw [List.inj_on_of_nodup_map hstored.ids hr hqs hid.symm]
      simpa using hment
    · intro hment
      exact List.mem_map_of_mem (List.mem_filter.mpr ⟨hr, by simpa using hment⟩)
  simp only [hiff]

/-- The flag a lookup has found is a row the connection may write. -/
theorem isFlagRow_found (c : Conn) (projectID flagKey : String) (s : Store) (f : Flag)
    (hfound : flagByKey c projectID flagKey s = .ok (f, s)) :
    f ∈ s.flags ∧ c.isFlagRow f.id f = true := by
  have hfind := (queryRow_ok _ _ _ _ hfound).1
  have hmatch := List.find?_some hfind
  simp only [Bool.and_eq_true] at hmatch
  exact ⟨List.mem_of_find?_eq_some hfind, by simp [Conn.isFlagRow, hmatch.1.1]⟩

/-- What a forced deletion that succeeds has done. -/
theorem deleteVariant_ok (h : Host) (ctx : Ctx) (projectID flagKey variantKey : String)
    (w w' : World) (f f' : Flag) (hstored : StoredRules h.uuid w.store.rules)
    (hids : (w.store.flags.map (·.id)).Nodup)
    (hfound : flagByKey ⟨ctx.tenant, h.rls⟩ projectID flagKey w.store = .ok (f, w.store))
    (hkeys : f.variantKeys.Nodup)
    (hrun : Proc.run (exec h) (FlagService.deleteVariant ctx projectID flagKey variantKey true) w =
      (.ok f', w')) :
    Deletable h ctx projectID flagKey variantKey true w f ∧ f' = f.without variantKey ∧
      w'.store.flags =
        w.store.flags.map (fun g => if g.id = f.id then f.without variantKey else g) ∧
      w'.store.rules = w.store.rules.map (fun r =>
        if r.flagID = f.id ∧ r.mentions variantKey = true then
          patchRule variantKey f.defaultVariantKey r else r) := by
  rw [FlagService.deleteVariant_eq, Proc.run_bind] at hrun
  rcases prepareDelete_run h ctx projectID flagKey variantKey true w hstored with
    ⟨_, e, w₁, hprep, _⟩ | ⟨g, affected, hdel, hperm, ⟨k, _, _, _, hprep⟩ | ⟨_, hprep⟩⟩
  · rw [hprep] at hrun
    exact (nomatch hrun)
  · rw [hprep] at hrun
    exact (nomatch hrun)
  have hg := hdel.found
  rw [hfound, Except.ok.injEq, Prod.mk.injEq] at hg
  rw [← hg.1] at hdel hperm hprep
  rw [f.eraseVariant_eq variantKey hkeys,
    rewritten_mentioning h.uuid _ _ w.store hstored f.id affected hperm] at hprep
  rw [hprep] at hrun
  cases hvalid : (f.without variantKey).validate with
  | error e =>
      rw [hvalid] at hrun
      exact (nomatch hrun)
  | ok u =>
      rw [hvalid] at hrun
      simp only [Except.map] at hrun
      generalize hmid : w.withRules _ _ = mid at hrun
      have hflags : mid.store.flags = w.store.flags := by rw [← hmid, World.withRules_flags]
      rcases isFlagRow_found _ _ _ _ f hfound with ⟨hmem, hsees⟩
      have hrow : mid.store.flags.any
          (Conn.isFlagRow ⟨ctx.tenant, h.rls⟩ (f.without variantKey).id) = true :=
        List.any_eq_true.mpr ⟨f, by rw [hflags]; exact hmem, hsees⟩
      rcases writeBack_run h ctx variantKey (f.without variantKey) mid hrow with
        ⟨_, hwrite⟩ | ⟨_, w₁, hwrite, hrules₁, hflags₁⟩
      · rw [hwrite] at hrun
        exact (nomatch hrun)
      rw [hwrite, Prod.mk.injEq, Except.ok.injEq] at hrun
      rw [← hrun.1, ← hrun.2, hrules₁, hflags₁, hflags, ← hmid]
      refine ⟨hdel, rfl, List.map_congr_left (fun g hg => ?_), rfl⟩
      -- The flag found is the only row with its id.
      by_cases hid : g.id = f.id
      · rw [List.inj_on_of_nodup_map hids hg hmem hid, if_pos rfl]
        exact if_pos hsees
      · rw [if_neg hid, if_neg]
        simp [Conn.isFlagRow, Flag.without, hid]

theorem Rule.ServesOnly.mentions {r : Rule} {variantKey : String} (h : r.ServesOnly variantKey) :
    r.mentions variantKey = true := by
  rcases (r.servesOnly_iff variantKey).mp h with ⟨_, hown⟩ | ⟨hroll, hnil⟩
  · simp [Rule.mentions, hown]
  · rcases List.exists_mem_of_ne_nil _ hroll with ⟨e, he⟩
    have hkey := (patchRollout_nil_iff variantKey r.rollout).mp hnil e he
    rw [Rule.mentions, Bool.or_eq_true, List.any_eq_true]
    exact .inr ⟨e, he, by simp [hkey]⟩

/-- The rules of the flag are in order after the rewriting exactly if the
    default has a key, or none had only the deleted variant to serve. -/
theorem patched_inOrder_iff (variantKey : String) (f : Flag) (rules : List Rule)
    (hrules : ∀ r ∈ rules, r.flagID = f.id → r.InOrder) :
    (∀ r ∈ rules.map (fun r => if r.flagID = f.id ∧ r.mentions variantKey = true then
        patchRule variantKey f.defaultVariantKey r else r), r.flagID = f.id → r.InOrder) ↔
      f.defaultVariantKey ≠ "" ∨ ∀ r ∈ rules, r.flagID = f.id → ¬ r.ServesOnly variantKey := by
  rw [List.forall_mem_map]
  constructor
  · intro hall
    by_cases hkey : f.defaultVariantKey ≠ ""
    · exact .inl hkey
    · right
      intro r hr hid honly
      have hr' := hall r hr
      rw [if_pos ⟨hid, honly.mentions⟩, patchRule_inOrder_iff _ _ r (hrules r hr hid)] at hr'
      have hkeeps : (patchRule variantKey f.defaultVariantKey r).flagID = r.flagID := by
        rw [patchRule_eq]
      rcases hr' (hkeeps.trans hid) with hne | hnot
      · exact hkey hne
      · exact hnot honly
  · intro hcond r hr
    by_cases hhit : r.flagID = f.id ∧ r.mentions variantKey = true
    · rw [if_pos hhit, patchRule_inOrder_iff _ _ r (hrules r hr hhit.1)]
      intro _
      rcases hcond with hne | hall
      · exact .inl hne
      · exact .inr (hall r hr hhit.1)
    · rw [if_neg hhit]
      exact hrules r hr

/-- A forced deletion that succeeds repairs every rule of the flag exactly if
    the default variant has a key, or no rule had only the deleted variant to
    serve. -/
theorem deleteVariant_repairs_iff (h : Host) (ctx : Ctx) (projectID flagKey variantKey : String)
    (w w' : World) (f f' : Flag) (hstored : StoredRules h.uuid w.store.rules)
    (hids : (w.store.flags.map (·.id)).Nodup)
    (hfound : flagByKey ⟨ctx.tenant, h.rls⟩ projectID flagKey w.store = .ok (f, w.store))
    (hflag : f.validate = .ok ())
    (hrules : ∀ r ∈ w.store.rules, r.flagID = f.id → r.InOrder)
    (hrun : Proc.run (exec h) (FlagService.deleteVariant ctx projectID flagKey variantKey true) w =
      (.ok f', w')) :
    Repaired variantKey f f' w.store w'.store ↔
      f.defaultVariantKey ≠ "" ∨
        ∀ r ∈ w.store.rules, r.flagID = f.id → ¬ r.ServesOnly variantKey := by
  have hwf := (f.validate_ok_iff).mp hflag
  rcases deleteVariant_ok h ctx projectID flagKey variantKey w w' f f' hstored hids hfound
    hwf.distinct hrun with ⟨hdel, hanswer, hflags', hrules'⟩
  have horder := patched_inOrder_iff variantKey f w.store.rules hrules
  rw [← hrules'] at horder
  constructor
  · intro hrep
    exact horder.mp hrep.inOrder
  · intro hcond
    refine ⟨?_, hanswer, hflags', ?_, ?_, horder.mpr hcond⟩
    · rcases hdel.present with ⟨v, hv, hkey⟩
      exact List.mem_map.mpr ⟨v, hv, hkey⟩
    · -- Row by row, a rule is rewritten or as it was.
      rw [hrules', List.forall₂_map_right_iff, List.forall₂_same]
      intro r _
      by_cases hhit : r.flagID = f.id ∧ r.mentions variantKey = true
      · rw [if_pos hhit, patchRule_eq]
        exact ⟨⟨rfl, rfl, rfl, rfl, rfl, rfl, rfl⟩, fun hnot => absurd hhit hnot⟩
      · rw [if_neg hhit]
        exact ⟨⟨rfl, rfl, rfl, rfl, rfl, rfl, rfl⟩, fun _ => rfl⟩
    · rw [hrules', List.forall_mem_map]
      intro r _ hid
      by_cases hhit : r.flagID = f.id ∧ r.mentions variantKey = true
      · rw [if_pos hhit]
        exact patchRule_mentions _ _ (Ne.symm hdel.other) r
      · rw [if_neg hhit] at hid ⊢
        simpa [hid] using hhit

/-- A flag of two themes, the default with the given key, and a rule that
    serves the other. -/
def twoThemes (defaultKey : String) : World where
  store := {
    projects := [⟨"p1", "Shop", "shop", 0⟩]
    environments := [⟨"e1", "p1", "Production", "prod", 0⟩]
    flags := [⟨"f1", "p1", "theme", "Theme", .string, [⟨defaultKey, "Plain"⟩, ⟨"blue", "Blue"⟩],
      defaultKey, 0⟩]
    rules := [{ darkModePaying with id := sampleUUID 1, variantKey := "blue" }] }

def twoThemesFlag (defaultKey : String) : Flag :=
  ⟨"f1", "p1", "theme", "Theme", .string, [⟨defaultKey, "Plain"⟩, ⟨"blue", "Blue"⟩], defaultKey, 0⟩

def twoThemesDeleted (defaultKey : String) : Except Err Flag × World :=
  Proc.run (exec Host.steady)
    (FlagService.deleteVariant ⟨some ⟨"u1", .editor⟩, none⟩ "p1" "theme" "blue" true)
    (twoThemes defaultKey)

/-- With a default that has a key the rule is repaired. -/
theorem deleteVariant_repairs_plain :
    Repaired "blue" (twoThemesFlag "plain") ((twoThemesFlag "plain").without "blue")
      (twoThemes "plain").store (twoThemesDeleted "plain").2.store := by
  have hrules : ∀ r ∈ (twoThemes "plain").store.rules, r.flagID = (twoThemesFlag "plain").id →
      r.InOrder := by
    intro r hr _
    rw [List.mem_singleton.mp hr]
    exact ⟨by decide +kernel, fun hroll => absurd rfl hroll⟩
  exact (deleteVariant_repairs_iff Host.steady ⟨some ⟨"u1", .editor⟩, none⟩ "p1" "theme" "blue"
    (twoThemes "plain") _ (twoThemesFlag "plain") _
    ⟨by decide +kernel, by decide +kernel, by decide +kernel⟩ (by decide +kernel)
    (by decide +kernel) (by decide +kernel) hrules (Prod.ext (by decide +kernel) rfl)).mpr
    (.inl (by decide))

/-- With an empty default the deletion succeeds, and the rule is left without a
    variant to serve. -/
theorem deleteVariant_breaks_keyless :
    (twoThemesFlag "").validate = .ok () ∧
      (∀ r ∈ (twoThemes "").store.rules, r.validate = .ok () ∧ r.rollout = []) ∧
      (twoThemesDeleted "").1 = .ok ((twoThemesFlag "").without "blue") ∧
      ¬ Repaired "blue" (twoThemesFlag "") ((twoThemesFlag "").without "blue")
        (twoThemes "").store (twoThemesDeleted "").2.store := by
  refine ⟨by decide +kernel, by decide +kernel, by decide +kernel, fun hrep => ?_⟩
  have hleft : (twoThemesDeleted "").2.store.rules =
      [{ darkModePaying with id := sampleUUID 1, variantKey := "" }] := by
    decide +kernel
  have hbad := hrep.inOrder
  rw [hleft] at hbad
  have hvalid := (hbad _ (List.mem_singleton.mpr rfl) (by decide)).1
  exact absurd hvalid (by decide +kernel)

end Cuttlegate
