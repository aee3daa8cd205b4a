import Cuttlegate.Adapters.RuleRows
import Cuttlegate.App.RuleService

/-!
# Stored Rules

What a rule means after it has crossed the representations of the code: the
arguments of the service, the row with its documents, the rule that a list
reads back, and the response of the API that a client may send again.

The programs of the service are run with the rule table one level down, where
an operation on rules is a statement on rows (`execRows`). The rule that comes
back is the accepted one up to two things. Its id is spelt as the database
spells it, which is the spelling of the request only when that was canonical;
a generated id always is. And an update under another flag or environment
leaves the row where it was. Whatever the evaluator looks at is the same.

## Main definitions

* `RuleWorld`, `execRows`: Running programs over the rows.
* `RuleWorld.view`: The world with the rules in the rows.
* `RuleWrite`: A creation or an update.
* `ReadBack`: A rule is returned by the lists with its meaning.

## Theorems

* `performRows_upsert`, `performRows_delete`, `performRows_list`: Operations
  on rows are operations on the rules in them.
* `create_upserts`, `update_upserts`: What a successful run writes.
* `evaluate_anonymous`: Evaluation ignores where and when a rule was made.
* `readBack_upsert`: A valid rule is read back with its meaning.
* `RuleWrite.reads_back`: So is every rule the service accepts and writes.
* `RuleWrite.respelled`: An update under a spelling that does not come back.
-/

namespace Cuttlegate

/-! ## Programs over rows -/

/-- The world with the rule table one level down. The list of rules in the
    store of the world is not used. -/
structure RuleWorld where
  world : World
  table : RuleTable

def RuleWorld.tick (s : RuleWorld) : RuleWorld := { s with world := s.world.tick }

/-- The rows that go with the flag or the environment they belong to, when an
    operation has deleted it. -/
def RuleTable.cascade (table : RuleTable) (before after : Store) : RuleTable :=
  table.filter (fun row => decide (before.HasParents row.flagID row.environmentID →
    after.HasParents row.flagID row.environmentID))

/-- What an operation does when it does not fail: the operations on rules are
    statements on rows, and the others are as before. -/
def Op.performRows (col : JsonColumn) (h : Host) (conn : Conn) (s : RuleWorld) :
    (op : Op) → Except Err (op.Ret × RuleWorld)
  | .listRulesByFlag flagID =>
      (s.table.listByFlag (h.order s.world.calls) flagID).map (fun l => (l, s))
  | .listRulesByFlagEnvironment flagID environmentID =>
      (s.table.listByFlagEnvironment (h.order s.world.calls) flagID environmentID).map
        (fun l => (l, s))
  | .listRulesByEnvironment environmentID =>
      (s.table.listByEnvironment (h.order s.world.calls) environmentID).map (fun l => (l, s))
  | .upsertRule rule => (s.table.upsert col h.uuid s.world.store rule).map
      (fun out => (out.1, { s with table := out.2 }))
  | .deleteRule id => (s.table.delete h.uuid id).map (fun out => (out.1, { s with table := out.2 }))
  | op => (op.perform h conn s.world).map
      (fun out => (out.1, ⟨out.2, s.table.cascade s.world.store out.2.store⟩))

/-- The effect of an operation: a failed one only counts. -/
def execRows (col : JsonColumn) (h : Host) (c : Call) (s : RuleWorld) :
    Except Err c.Ret × RuleWorld :=
  if h.fails s.world.calls && c.op.fallible then (.error .internal, s.tick)
  else match c.op.performRows col h ⟨c.tenant, h.rls⟩ s with
    | .ok (a, s') => (.ok a, s'.tick)
    | .error e => (.error e, s.tick)

theorem map_eq_ok {α β : Type} (x : Except Err α) (f : α → β) (b : β) (hx : x.map f = .ok b) :
    ∃ a, x = .ok a ∧ f a = b := by
  cases x with
  | error e => exact (nomatch hx)
  | ok a => exact ⟨a, rfl, Except.ok.inj hx⟩

/-! ## The same operations on rules -/

/-- The world with the rules that are in the table. -/
def RuleWorld.view (s : RuleWorld) : World :=
  { s.world with store := { s.world.store with rules := s.table.rules } }

section Views

variable (col : JsonColumn) (h : Host) (conn : Conn) (s s' : RuleWorld)

theorem performRows_upsert (rule : Rule) (t : Time)
    (hp : Op.performRows col h conn s (.upsertRule rule) = .ok (t, s')) :
    Op.perform h conn s.view (.upsertRule rule.reread) = .ok (t, s'.view) := by
  rcases map_eq_ok _ _ _ hp with ⟨⟨t', table'⟩, hup, heq⟩
  rcases Prod.mk.inj heq with ⟨rfl, rfl⟩
  have hrules := s.table.upsert_rules col h.uuid s.world.store rule table' t' hup
  simp only [Op.perform, World.onStore, RuleWorld.view, hrules]

theorem performRows_delete (id : String)
    (hp : Op.performRows col h conn s (.deleteRule id) = .ok ((), s')) :
    Op.perform h conn s.view (.deleteRule id) = .ok ((), s'.view) := by
  rcases map_eq_ok _ _ _ hp with ⟨⟨_, table'⟩, hdelete, heq⟩
  rcases Prod.mk.inj heq with ⟨_, rfl⟩
  have hrules := s.table.delete_rules h.uuid s.world.store id table' hdelete
  simp only [Op.perform, World.onStore, RuleWorld.view, hrules]

/-- A list answers with the rules of the other list, up to their order. -/
theorem performRows_list (flagID environmentID : String) (l : List Rule)
    (hp : Op.performRows col h conn s (.listRulesByFlagEnvironment flagID environmentID)
      = .ok (l, s')) :
    s' = s ∧ ∃ l', Op.perform h conn s.view (.listRulesByFlagEnvironment flagID environmentID)
      = .ok (l', s.view) ∧ l.Perm l' := by
  rcases map_eq_ok _ _ _ hp with ⟨l₁, hlist, heq⟩
  rcases Prod.mk.inj heq with ⟨rfl, rfl⟩
  rcases s.table.listByFlagEnvironment_perm (h.order s.world.calls) flagID environmentID with
    ⟨l₂, hlist₂, hperm⟩
  rw [hlist, Except.ok.injEq] at hlist₂
  exact ⟨rfl, _, rfl, hlist₂ ▸ hperm.trans ((h.order s.world.calls).perm _ _).symm⟩

end Views

/-- A rule handed to the service, to be created or updated. -/
inductive RuleWrite where
  | create (new : NewRule)
  | update (rule : Rule)

def RuleWrite.prog (ctx : Ctx) : RuleWrite → Prog Rule
  | .create new => RuleService.create ctx new
  | .update rule => RuleService.update ctx rule

/-- What the answer has to do with the request. A creation draws an id, in
    the spelling of the database; an update comes with one. -/
def RuleWrite.Accepts (h : Host) (accepted : Rule) : RuleWrite → Prop
  | .create new => accepted = new.toRule accepted.id accepted.createdAt ∧
      h.uuid accepted.id = some accepted.id
  | .update rule => accepted = { rule with createdAt := accepted.createdAt }

section Runs

variable (col : JsonColumn) (h : Host) (ctx : Ctx) (s s' : RuleWorld)

theorem execRows_ok (c : Call) (a : c.Ret) (hexec : execRows col h c s = (.ok a, s')) :
    ∃ s₁, c.op.performRows col h ⟨c.tenant, h.rls⟩ s = .ok (a, s₁) ∧ s' = s₁.tick := by
  unfold execRows at hexec
  by_cases hfails : (h.fails s.world.calls && c.op.fallible) = true
  · rw [if_pos hfails] at hexec
    exact (nomatch hexec)
  · rw [if_neg hfails] at hexec
    cases hp : c.op.performRows col h ⟨c.tenant, h.rls⟩ s with
    | error e =>
        rw [hp] at hexec
        exact (nomatch hexec)
    | ok out =>
        rw [hp, Prod.mk.injEq, Except.ok.injEq] at hexec
        exact ⟨out.2, by rw [← hexec.1], hexec.2.symm⟩

/-- Without a deletion no row goes. -/
theorem RuleTable.cascade_self (table : RuleTable) (st : Store) : table.cascade st st = table := by
  have hrows : (table.cascade st st).rows = table.rows :=
    List.filter_eq_self.mpr (fun row _ => decide_eq_true id)
  rcases table with ⟨rows, ids, readable⟩
  rcases hcascade : RuleTable.cascade ⟨rows, ids, readable⟩ st st with ⟨rows', _, _⟩
  rw [hcascade] at hrows
  cases hrows
  rfl

/-- A check that let the run go on. -/
theorem run_check_ok {α β : Type} (x : Except Err α) (k : α → Prog β) (b : β)
    (hrun : Proc.run (execRows col h) (check x >>= k) s = (.ok b, s')) :
    ∃ a, x = .ok a ∧ Proc.run (execRows col h) (k a) s = (.ok b, s') := by
  cases x with
  | error e => exact absurd (congrArg Prod.fst hrun) nofun
  | ok a => exact ⟨a, rfl, hrun⟩

/-- A step that is an operation of the service. Only the upsert changes the
    table. -/
theorem run_rows_ok (op : Op) (a : op.Ret)
    (hrun : Proc.run (execRows col h) (ctx.call op) s = (.ok a, s')) :
    ∃ s₁, op.performRows col h ⟨ctx.tenant, h.rls⟩ s = .ok (a, s₁) ∧ s' = s₁.tick := by
  rw [Ctx.call, Proc.run_call] at hrun
  exact execRows_ok col h s s' ⟨ctx.tenant, op⟩ a hrun

theorem run_list_table (flagID environmentID : String) (l : List Rule)
    (hrun : Proc.run (execRows col h)
      (ctx.call (.listRulesByFlagEnvironment flagID environmentID)) s = (.ok l, s')) :
    s'.table = s.table := by
  rcases run_rows_ok col h ctx s s' (.listRulesByFlagEnvironment flagID environmentID) l hrun with
    ⟨s₁, hp, rfl⟩
  rw [(performRows_list col h _ s s₁ flagID environmentID l hp).1]
  rfl

theorem run_newUUID_table (id : String)
    (hrun : Proc.run (execRows col h) (ctx.call .newUUID) s = (.ok id, s')) :
    s'.table = s.table ∧ h.uuid id = some id := by
  rcases run_rows_ok col h ctx s s' .newUUID id hrun with ⟨s₁, hp, rfl⟩
  rcases map_eq_ok _ _ _ hp with ⟨⟨drawn, w⟩, hdraw, heq⟩
  rcases Prod.mk.inj heq with ⟨rfl, rfl⟩
  rcases World.draw_ok s.world w _ drawn hdraw with ⟨hnew, rfl⟩
  exact ⟨s.table.cascade_self s.world.store, h.uuid_new _ _ hnew⟩

theorem run_now_table (now : Time)
    (hrun : Proc.run (execRows col h) (ctx.call .now) s = (.ok now, s')) :
    s'.table = s.table := by
  rcases run_rows_ok col h ctx s s' .now now hrun with ⟨s₁, hp, rfl⟩
  rcases Prod.mk.inj (Except.ok.inj hp) with ⟨rfl, rfl⟩
  exact s.table.cascade_self s.world.store

theorem run_upsert_table (rule : Rule) (t : Time)
    (hrun : Proc.run (execRows col h) (ctx.call (.upsertRule rule)) s = (.ok t, s')) :
    s.table.upsert col h.uuid s.world.store rule = .ok (t, s'.table) := by
  rcases run_rows_ok col h ctx s s' (.upsertRule rule) t hrun with ⟨s₁, hp, rfl⟩
  rcases map_eq_ok _ _ _ hp with ⟨⟨t', table'⟩, hup, heq⟩
  rcases Prod.mk.inj heq with ⟨rfl, rfl⟩
  exact hup

/-- A creation writes the rule it was asked for, under a fresh id. -/
theorem create_upserts (new : NewRule) (accepted : Rule)
    (hrun : Proc.run (execRows col h) (RuleService.create ctx new) s = (.ok accepted, s')) :
    ∃ id now t st, (new.toRule "" 0).validate = .ok () ∧ h.uuid id = some id ∧
      s.table.upsert col h.uuid st (new.toRule id now) = .ok (t, s'.table) ∧
      accepted = new.toRule id t := by
  -- The steps of `Create` in their order; only the last of them writes.
  rcases run_check_ok col h s s' (requireRole ctx.auth .editor) _ accepted hrun with ⟨_, _, hrun⟩
  rcases run_check_ok col h s s' _ _ accepted hrun with ⟨_, hvalid, hrun⟩
  rcases Proc.run_bind_eq_ok _ _ _ s s' accepted hrun with ⟨existing, s₁, hlist, hrun⟩
  rcases run_check_ok col h s₁ s' _ _ accepted hrun with ⟨_, _, hrun⟩
  rcases Proc.run_bind_eq_ok _ _ _ s₁ s' accepted hrun with ⟨id, s₂, hid, hrun⟩
  rcases Proc.run_bind_eq_ok _ _ _ s₂ s' accepted hrun with ⟨now, s₃, hnow, hrun⟩
  rcases Proc.run_bind_eq_ok _ _ _ s₃ s' accepted hrun with ⟨t, s₄, hup, hret⟩
  rcases run_newUUID_table col h ctx s₁ s₂ id hid with ⟨htable, hcanonical⟩
  have hupsert := run_upsert_table col h ctx s₃ s₄ _ t hup
  rw [run_now_table col h ctx s₂ s₃ now hnow, htable,
    run_list_table col h ctx s s₁ _ _ existing hlist] at hupsert
  rcases Prod.mk.inj hret with ⟨haccepted, rfl⟩
  exact ⟨id, now, t, _, hvalid, hcanonical, hupsert, (Except.ok.inj haccepted).symm⟩

/-- An update writes the rule it was given. -/
theorem update_upserts (rule accepted : Rule)
    (hrun : Proc.run (execRows col h) (RuleService.update ctx rule) s = (.ok accepted, s')) :
    ∃ t st, rule.validate = .ok () ∧ s.table.upsert col h.uuid st rule = .ok (t, s'.table) ∧
      accepted = { rule with createdAt := t } := by
  rcases run_check_ok col h s s' (requireRole ctx.auth .editor) _ accepted hrun with ⟨_, _, hrun⟩
  rcases run_check_ok col h s s' _ _ accepted hrun with ⟨_, hvalid, hrun⟩
  rcases Proc.run_bind_eq_ok _ _ _ s s' accepted hrun with ⟨existing, s₁, hlist, hrun⟩
  rcases run_check_ok col h s₁ s' _ _ accepted hrun with ⟨_, _, hrun⟩
  rcases Proc.run_bind_eq_ok _ _ _ s₁ s' accepted hrun with ⟨t, s₂, hup, hret⟩
  have hupsert := run_upsert_table col h ctx s₁ s₂ rule t hup
  rw [run_list_table col h ctx s s₁ _ _ existing hlist] at hupsert
  rcases Prod.mk.inj hret with ⟨haccepted, rfl⟩
  exact ⟨t, _, hvalid, hupsert, (Except.ok.inj haccepted).symm⟩

end Runs

/-! ## Evaluation -/

/-- A rule without what the evaluator does not look at. -/
def Rule.anonymous (r : Rule) : Rule :=
  { r with flagID := "", environmentID := "", createdAt := 0 }

theorem evaluateRules_anonymous (flag : Flag) (ctx : EvalContext) (segs : List String)
    (rules : List Rule) :
    evaluateRules flag ctx segs (rules.map Rule.anonymous) = evaluateRules flag ctx segs rules := by
  induction rules with
  | nil => rfl
  | cons r rest ih =>
      rw [List.map_cons, evaluateRules, evaluateRules, ih]
      rfl

/-- Evaluation ignores where and when a rule was made. -/
theorem evaluate_anonymous (srt : Sorter) (flag : Flag) (state : Option FlagEnvironmentState)
    (rules : List Rule) (hdistinct : (rules.map (·.priority)).Nodup) (ctx : EvalContext)
    (segs : List String) :
    evaluate srt flag state (rules.map Rule.anonymous) ctx segs
      = evaluate srt flag state rules ctx segs := by
  have hsort := srt.sort_map (fun a b : Rule => decide (a.priority < b.priority))
    (fun a b : Rule => decide (a.priority < b.priority)) strictWeak_priority strictWeak_priority
    Rule.anonymous (fun _ _ => rfl) rules (fun a ha b hb hab hba => by
      refine List.inj_on_of_nodup_map hdistinct ha hb ?_
      simp only [decide_eq_false_iff_not] at hab hba
      omega)
  unfold evaluate
  simp only [hsort, evaluateRules_anonymous]

/-! ## The rule that comes back -/

/-- The lists over the table answer with the stored rule, which means what the
    accepted one means. -/
structure ReadBack (h : Host) (render : Time → String) (before after : RuleTable)
    (accepted stored : Rule) : Prop where
  /-- The id is the accepted one in the spelling of the database. -/
  id : h.uuid accepted.id = some stored.id
  /-- Everything else but the place is the same. -/
  content : stored = { accepted with id := stored.id, flagID := stored.flagID
                                     environmentID := stored.environmentID }
  /-- So is the place of a new rule, and of one that is updated where it is. -/
  place : (∀ r ∈ before.rules, r.id = stored.id →
      r.flagID = accepted.flagID ∧ r.environmentID = accepted.environmentID) →
    stored.flagID = accepted.flagID ∧ stored.environmentID = accepted.environmentID
  byFlagEnvironment : ∀ order, ∃ l,
    after.listByFlagEnvironment order stored.flagID stored.environmentID = .ok l ∧
      ∀ r, r ∈ l ∧ r.id = stored.id ↔ r = stored
  byEnvironment : ∀ order, ∃ l, after.listByEnvironment order stored.environmentID = .ok l ∧
    ∀ r, r ∈ l ∧ r.id = stored.id ↔ r = stored
  valid : stored.validate = .ok ()
  evaluates : ∀ srt flag state ctx segs, evaluate srt flag state [stored] ctx segs
    = evaluate srt flag state [{ accepted with id := stored.id }] ctx segs
  /-- Also among other rules, when the priorities tell them apart. -/
  among : ∀ pre post, ((pre ++ stored :: post).map (·.priority)).Nodup →
    ∀ srt flag state ctx segs, evaluate srt flag state (pre ++ stored :: post) ctx segs
      = evaluate srt flag state (pre ++ { accepted with id := stored.id } :: post) ctx segs
  /-- The response, sent back as an update, asks for the rule. -/
  response : ∃ b, RuleBody.decode (toRuleResponse render stored) = some b ∧
    b.conditions = accepted.conditions ∧ b.rollout = accepted.rollout ∧
    b.toRule stored.id stored.flagID stored.environmentID = { stored with createdAt := 0 }

/-- A rule with the content of another is evaluated as that one. -/
theorem evaluate_moved (accepted stored : Rule)
    (hcontent : stored = { accepted with id := stored.id, flagID := stored.flagID
                                         environmentID := stored.environmentID })
    (pre post : List Rule) (hdistinct : ((pre ++ stored :: post).map (·.priority)).Nodup)
    (srt : Sorter) (flag : Flag) (state : Option FlagEnvironmentState) (ctx : EvalContext)
    (segs : List String) :
    evaluate srt flag state (pre ++ stored :: post) ctx segs
      = evaluate srt flag state (pre ++ { accepted with id := stored.id } :: post) ctx segs := by
  have hsame : stored.anonymous = Rule.anonymous { accepted with id := stored.id } := by
    rw [hcontent]
    rfl
  have hpriority : stored.priority = accepted.priority := by
    rw [hcontent]
  have hdistinct' : ((pre ++ { accepted with id := stored.id } :: post).map
      (·.priority)).Nodup := by
    simpa [hpriority] using hdistinct
  -- The evaluation does not look at what the two rules differ in.
  rw [← evaluate_anonymous srt flag state _ hdistinct ctx segs,
    ← evaluate_anonymous srt flag state _ hdistinct' ctx segs, List.map_append, List.map_append,
    List.map_cons, List.map_cons, hsame]

/-- A valid rule is read back with its meaning. -/
theorem readBack_upsert (col : JsonColumn) (h : Host) (render : Time → String) (st : Store)
    (before after : RuleTable) (rule : Rule) (hvalid : rule.validate = .ok ()) (t : Time)
    (hup : before.upsert col h.uuid st rule = .ok (t, after)) :
    ∃ stored, ReadBack h render before after { rule with createdAt := t } stored := by
  rcases before.upsert_stored col h.uuid st rule hvalid after t hup with
    ⟨stored, hstored, hid, hfits, hcontent, hplace⟩
  have hstoredValid : stored.validate = .ok () := by
    rw [hcontent]
    exact hvalid
  have hevaluate := evaluate_moved { rule with createdAt := t } stored hcontent
  refine ⟨stored, hid, hcontent, hplace, fun order => ?_, fun order => ?_, hstoredValid,
    fun srt flag state ctx segs => hevaluate [] [] (by simp) srt flag state ctx segs, hevaluate, ?_⟩
  · -- The two lists: each returns a permutation of the rows that match.
    rcases after.listByFlagEnvironment_perm order stored.flagID stored.environmentID with
      ⟨l, hlist, hl⟩
    exact ⟨l, hlist, after.mem_list_iff _ l hl stored hstored (by simp)⟩
  · rcases after.listByEnvironment_perm order stored.environmentID with ⟨l, hlist, hl⟩
    exact ⟨l, hlist, after.mem_list_iff _ l hl stored hstored (by simp)⟩
  · -- The response: valid conditions are decoded as they were encoded.
    have hreread := congrArg Rule.conditions (stored.reread_valid hstoredValid)
    refine ⟨_, decode_toRuleResponse render stored hfits, ?_, ?_, ?_⟩
    · refine hreread.trans ?_
      rw [hcontent]
    · show stored.rollout = rule.rollout
      rw [hcontent]
    · rw [show stored.conditions.map Condition.reread = stored.conditions from hreread]
      rfl

/-- Every rule the service accepts and writes is returned by the lists with its
    meaning, under the spelling of its id that the database gives back. -/
theorem RuleWrite.reads_back (col : JsonColumn) (h : Host) (render : Time → String) (ctx : Ctx)
    (s s' : RuleWorld) (write : RuleWrite) (accepted : Rule)
    (hrun : Proc.run (execRows col h) (write.prog ctx) s = (.ok accepted, s')) :
    write.Accepts h accepted ∧ ∃ stored, ReadBack h render s.table s'.table accepted stored := by
  cases write with
  | create new =>
      rcases create_upserts col h ctx s s' new accepted hrun with
        ⟨id, now, t, st, hvalid, hcanonical, hup, rfl⟩
      exact ⟨⟨rfl, hcanonical⟩,
        readBack_upsert col h render st s.table s'.table (new.toRule id now) hvalid t hup⟩
  | update rule =>
      rcases update_upserts col h ctx s s' rule accepted hrun with ⟨t, st, hvalid, hup, rfl⟩
      exact ⟨rfl, readBack_upsert col h render st s.table s'.table rule hvalid t hup⟩

/-! ## Concrete runs -/

/-- A shop with a flag in one environment and no rules yet. -/
def darkShop : RuleWorld where
  world := { store := {
    flags := [darkMode]
    environments := [⟨"e1", "p1", "Production", "prod", 0⟩] } }
  table := .empty

def ruleEditor : Ctx := ⟨some ⟨"u1", .editor⟩, none⟩

/-- A ramp for two plans, except for members of a segment. -/
def rampTwoPlans : NewRule where
  flagID := "f1"
  environmentID := "e1"
  priority := 2
  conditions := [⟨"plan", .isIn, ["pro", "team"]⟩, ⟨"", .notInSegment, ["beta"]⟩]
  variantKey := ""
  name := "ramp"
  rollout := [⟨"true", 30⟩, ⟨"false", 70⟩]

theorem RuleWrite.reads_back_ramp :
    ∃ s' stored, Proc.run (execRows .jsonb Host.steady)
        ((RuleWrite.create rampTwoPlans).prog ruleEditor) darkShop
        = (.ok (rampTwoPlans.toRule (sampleUUID 1) 2), s') ∧
      ReadBack Host.steady (fun _ => "") darkShop.table s'.table
        (rampTwoPlans.toRule (sampleUUID 1) 2) stored := by
  have hrun : Proc.run (execRows .jsonb Host.steady)
      ((RuleWrite.create rampTwoPlans).prog ruleEditor) darkShop
      = (.ok (rampTwoPlans.toRule (sampleUUID 1) 2), _) := Prod.ext (by decide +kernel) rfl
  rcases RuleWrite.reads_back .jsonb Host.steady (fun _ => "") ruleEditor darkShop _
    (.create rampTwoPlans) _ hrun with ⟨_, stored, hback⟩
  exact ⟨_, stored, hrun, hback⟩

/-- A host whose database takes a UUID in letters of either case. -/
def Host.folding : Host :=
  { Host.steady with
    newUUID := fun _ => none
    uuid := fun s =>
      let t := String.ofList (s.toList.map Char.toLower)
      if isCanonicalUUID t then some t else none
    uuid_canonical := by
      intro text id hid
      simp only [Option.ite_none_right_eq_some, Option.some.injEq] at hid
      rcases hid with ⟨hcanonical, rfl⟩
      simp [List.map_map, Function.comp_def, hcanonical]
    uuid_new := nofun }

/-- A rule under an id with a capital letter. -/
def darkModeShouted : Rule :=
  { darkModePaying with id := "00000000-0000-4000-8000-00000000000A" }

/-- The update is accepted, and the rule comes back under another id. -/
theorem RuleWrite.respelled :
    ∃ s', Proc.run (execRows .jsonb Host.folding)
        ((RuleWrite.update darkModeShouted).prog ruleEditor) darkShop
        = (.ok darkModeShouted, s') ∧
      ∃ stored, s'.table.listByFlagEnvironment .insertion "f1" "e1" = .ok [stored] ∧
        s'.table.listByEnvironment .insertion "e1" = .ok [stored] ∧
        stored.id ≠ darkModeShouted.id :=
  ⟨_, Prod.ext (by decide +kernel) rfl,
    { darkModePaying with id := "00000000-0000-4000-8000-00000000000a" },
    by decide +kernel, by decide +kernel, by decide⟩

end Cuttlegate
