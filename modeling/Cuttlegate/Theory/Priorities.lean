import Cuttlegate.Lib.Discipline
import Cuttlegate.Lib.Reports
import Cuttlegate.App.RuleService

/-!
# Rule Priorities under Interleaving

Two rules of one flag in one environment should not have the same priority:
the evaluator could then pick either. The rule service checks for it before
every write, against a list of rules it read earlier, and the database does
not check at all. So two requests that both list before either writes can
both write one priority (`priorities_race`), and an update whose id belongs to
a rule of another flag is checked against the wrong list.

Left to themselves the checks are right. When no other request stores a rule
of the same flag and environment between the list and the write, and every
write lands where its check looked, priorities stay unique in every
interleaving. The proof follows what each request knows: the list it read, as
a note it carries (`RuleView`), which is still an upper bound of the stored
rules as long as nobody wrote there since.

## Main definitions

* `Store.PrioritiesUnique`: No two rules share flag, environment and priority.
* `RuleCall`, `ruleThread`: The requests.
* `RuleView`, `ruleDiscipline`: What a request has listed and checked.
* `Orderly`: The write is undisturbed and lands in place.

## Theorems

* `upsertRule_unique`: A checked write in place keeps priorities unique.
* `ruleThread_follows`: Every request checks before it writes.
* `priorities_unique`: Orderly runs keep priorities unique.
-/

namespace Cuttlegate

/-- No two rules of one flag and environment have the same priority. -/
def Store.PrioritiesUnique (s : Store) : Prop :=
  (s.rules.map (fun r => (r.flagID, r.environmentID, r.priority))).Nodup

instance (s : Store) : Decidable s.PrioritiesUnique :=
  inferInstanceAs (Decidable (List.Nodup _))

/-- The rule ids are distinct and in canonical spelling. -/
structure RuleIDs (uuid : String → Option String) (s : Store) : Prop where
  nodup : (s.rules.map (·.id)).Nodup
  canonical : ∀ r ∈ s.rules, uuid r.id = some r.id

/-! ## The requests -/

inductive RuleCall where
  | create (new : NewRule)
  | update (rule : Rule)
  | delete (id : String)

def RuleCall.program (ctx : Ctx) : RuleCall → Prog Unit
  | .create new => RuleService.create ctx new >>= fun _ => Proc.ret ()
  | .update rule => RuleService.update ctx rule >>= fun _ => Proc.ret ()
  | .delete id => RuleService.delete ctx id

/-- A thread is a request by anybody, with any flag, environment and id. -/
def ruleThread (p : Prog Unit) : Prop := ∃ ctx c, p = RuleCall.program ctx c

/-! ## One write -/

section Write

variable (uuid : String → Option String)

/-- A stored rule with a text for its id is the row the text stands for. -/
theorem RuleIDs.of_spelling (s : Store) (id text : String) (hid : uuid text = some id)
    (hids : RuleIDs uuid s) (r : Rule) (hr : r ∈ s.rules) (hrid : r.id = text) : r.id = id := by
  have hcanon := hids.canonical r hr
  rw [hrid, hid, Option.some.injEq] at hcanon
  rw [hrid, hcanon]

/-- A rule is overwritten where it stands. -/
theorem overwrite_unique (s : Store) (new : Rule) (id : String) (hid : uuid new.id = some id)
    (hids : RuleIDs uuid s) (huniq : s.PrioritiesUnique)
    (hchecked : ∀ r ∈ s.rules, r.flagID = new.flagID → r.environmentID = new.environmentID →
      r.priority = new.priority → r.id = new.id)
    (hplace : ∀ r ∈ s.rules, uuid new.id = some r.id →
      r.flagID = new.flagID ∧ r.environmentID = new.environmentID) :
    let s' : Store :=
      { s with rules := s.rules.map (fun r => if r.id = id then r.overwrite new else r) }
    RuleIDs uuid s' ∧ s'.PrioritiesUnique := by
  have hidOf : ∀ r : Rule, (if r.id = id then r.overwrite new else r).id = r.id := by
    intro r
    by_cases hrow : r.id = id
    · rw [if_pos hrow]
      rfl
    · rw [if_neg hrow]
  refine ⟨⟨?_, fun r hr => ?_⟩, ?_⟩
  · rw [List.map_map]
    have hsame : (fun r : Rule => r.id) ∘ (fun r => if r.id = id then r.overwrite new else r)
        = fun r => r.id := by
      funext r
      exact hidOf r
    rw [hsame]
    exact hids.nodup
  · rcases List.mem_map.mp hr with ⟨q, hq, rfl⟩
    rw [hidOf q]
    exact hids.canonical q hq
  · -- Distinct rows stay apart: both as they were, or one of them new.
    unfold Store.PrioritiesUnique at huniq ⊢
    rw [List.map_map]
    refine (List.nodup_map_iff_inj_on (List.Nodup.of_map _ hids.nodup)).mpr ?_
    intro r hr q hq heq
    have hrq := (List.nodup_map_iff_inj_on (List.Nodup.of_map _ hids.nodup)).mp huniq r hr q hq
    -- The check saw every rule of the place, so the only one with the new priority is the
    -- row itself.
    have hside : ∀ a ∈ s.rules, ∀ b ∈ s.rules, a.id = id → b.id ≠ id →
        a.flagID = b.flagID → a.environmentID = b.environmentID → new.priority ≠ b.priority := by
      intro a ha b hb haid hbid hflag henv hprio
      have hput := hplace a ha (by rw [haid]; exact hid)
      exact hbid (hids.of_spelling uuid s id new.id hid b hb
        (hchecked b hb (hflag ▸ hput.1) (henv ▸ hput.2) hprio.symm))
    by_cases hrid : r.id = id
    · by_cases hqid : q.id = id
      · exact List.inj_on_of_nodup_map hids.nodup hr hq (hrid.trans hqid.symm)
      · simp only [Function.comp, if_pos hrid, if_neg hqid, Rule.overwrite, Prod.mk.injEq] at heq
        exact absurd heq.2.2 (hside r hr q hq hrid hqid heq.1 heq.2.1)
    · by_cases hqid : q.id = id
      · simp only [Function.comp, if_neg hrid, if_pos hqid, Rule.overwrite, Prod.mk.injEq] at heq
        exact absurd heq.2.2.symm (hside q hq r hr hqid hrid heq.1.symm heq.2.1.symm)
      · simp only [Function.comp, if_neg hrid, if_neg hqid] at heq
        exact hrq heq

/-- A new rule is added under the spelling the database gives its id. -/
theorem insert_unique (huuid : ∀ text id, uuid text = some id → uuid id = some id)
    (s : Store) (new : Rule) (id : String) (hid : uuid new.id = some id)
    (hnone : ∀ r ∈ s.rules, r.id ≠ id) (hids : RuleIDs uuid s) (huniq : s.PrioritiesUnique)
    (hchecked : ∀ r ∈ s.rules, r.flagID = new.flagID → r.environmentID = new.environmentID →
      r.priority = new.priority → r.id = new.id) :
    let s' : Store := { s with rules := s.rules ++ [{ new with id := id }] }
    RuleIDs uuid s' ∧ s'.PrioritiesUnique := by
  refine ⟨⟨?_, fun r hr => ?_⟩, ?_⟩
  · rw [List.map_append, List.nodup_append]
    refine ⟨hids.nodup, by simp, fun a ha b hb hab => ?_⟩
    rcases List.mem_map.mp ha with ⟨r, hr, hra⟩
    rw [List.map_singleton, List.mem_singleton] at hb
    exact hnone r hr (hra.trans (hab.trans hb))
  · rcases List.mem_append.mp hr with hold | hnew
    · exact hids.canonical r hold
    · rw [List.mem_singleton.mp hnew]
      exact huuid new.id id hid
  · unfold Store.PrioritiesUnique at huniq ⊢
    rw [List.map_append, List.nodup_append]
    refine ⟨huniq, by simp, fun a ha b hb hab => ?_⟩
    rcases List.mem_map.mp ha with ⟨r, hr, hra⟩
    rw [List.map_singleton, List.mem_singleton] at hb
    -- A rule of the same place and priority would have been the new one by the check.
    have hsame := hra.trans (hab.trans hb)
    simp only [Prod.mk.injEq] at hsame
    exact hnone r hr (hids.of_spelling uuid s id new.id hid r hr
      (hchecked r hr hsame.1 hsame.2.1 hsame.2.2))

/-- A write whose priority no other listed rule has, in the flag and
    environment of the list, keeps priorities unique. -/
theorem upsertRule_unique (huuid : ∀ text id, uuid text = some id → uuid id = some id)
    (s s' : Store) (new : Rule) (t : Time) (hup : upsertRule uuid new s = .ok (t, s'))
    (hids : RuleIDs uuid s) (huniq : s.PrioritiesUnique)
    (hchecked : ∀ r ∈ s.rules, r.flagID = new.flagID → r.environmentID = new.environmentID →
      r.priority = new.priority → r.id = new.id)
    (hplace : ∀ r ∈ s.rules, uuid new.id = some r.id →
      r.flagID = new.flagID ∧ r.environmentID = new.environmentID) :
    RuleIDs uuid s' ∧ s'.PrioritiesUnique := by
  rcases upsertRule_ok uuid new s s' t hup with ⟨id, hid, _, ⟨_, rfl⟩ | ⟨hnone, _, rfl⟩⟩
  · exact overwrite_unique uuid s new id hid hids huniq hchecked hplace
  · exact insert_unique uuid huuid s new id hid hnone hids huniq hchecked

end Write

/-! ## What a request knows -/

/-- The rules of a flag in an environment, as a request listed them. -/
structure RuleView where
  flagID : String
  environmentID : String
  listed : List Rule

/-- A request writes a rule only after it listed the rules of that flag and
    environment and found no other with the priority. -/
def ruleDiscipline : Discipline Err Call Call.Ret (Option RuleView) where
  permits := fun c view => match c.op with
    | .upsertRule new => ∃ v, view = some v ∧ v.flagID = new.flagID ∧
        v.environmentID = new.environmentID ∧
        ∀ r ∈ v.listed, r.priority = new.priority → r.id = new.id
    | op => .rules ∉ op.writes ∨ ∃ id, op = .deleteRule id
  after := fun c r view => match c, r with
    | ⟨_, .listRulesByFlagEnvironment flagID environmentID⟩, .ok listed =>
        some ⟨flagID, environmentID, listed⟩
    | _, _ => view

section Programs

variable (ctx : Ctx) (view : Option RuleView)

theorem RuleService.create_follows (new : NewRule) :
    Proc.Follows ruleDiscipline (RuleService.create ctx new) view := by
  refine Proc.follows_check _ _ view (fun _ _ => ?_)
  refine Proc.follows_check _ _ view (fun _ _ => ?_)
  refine Proc.follows_call _ _ view (.inl List.not_mem_nil) (fun listed => ?_)
  refine Proc.follows_check _ _ _ (fun _ hfree => ?_)
  refine Proc.follows_call _ _ _ (.inl List.not_mem_nil) (fun id => ?_)
  refine Proc.follows_call _ _ _ (.inl List.not_mem_nil) (fun now => ?_)
  refine Proc.follows_call _ _ _ ?_ (fun _ => trivial)
  refine ⟨⟨new.flagID, new.environmentID, listed⟩, rfl, rfl, rfl, fun r hr hprio => ?_⟩
  exact absurd ⟨r, hr, hprio⟩ ((refuseIf_ok _ _).mp hfree)

theorem RuleService.update_follows (rule : Rule) :
    Proc.Follows ruleDiscipline (RuleService.update ctx rule) view := by
  refine Proc.follows_check _ _ view (fun _ _ => ?_)
  refine Proc.follows_check _ _ view (fun _ _ => ?_)
  refine Proc.follows_call _ _ view (.inl List.not_mem_nil) (fun listed => ?_)
  refine Proc.follows_check _ _ _ (fun _ hothers => ?_)
  refine Proc.follows_call _ _ _ ?_ (fun _ => trivial)
  refine ⟨⟨rule.flagID, rule.environmentID, listed⟩, rfl, rfl, rfl, fun r hr hprio => ?_⟩
  by_contra hne
  exact (refuseIf_ok _ _).mp hothers ⟨r, hr, hprio, hne⟩

theorem RuleService.delete_follows (id : String) :
    Proc.Follows ruleDiscipline (RuleService.delete ctx id) view := by
  refine Proc.follows_check _ _ view (fun _ _ => ?_)
  refine ⟨.inr ⟨id, rfl⟩, fun r => ?_⟩
  cases r <;> trivial

end Programs

/-- Every request checks before it writes. -/
theorem ruleThread_follows (p : Prog Unit) (hp : ruleThread p) :
    Proc.Follows ruleDiscipline p none := by
  rcases hp with ⟨ctx, c, rfl⟩
  cases c with
  | create new =>
      exact Proc.follows_then _ _ _ (RuleService.create_follows ctx none new) (fun _ _ => trivial)
  | update rule =>
      exact Proc.follows_then _ _ _ (RuleService.update_follows ctx none rule) (fun _ _ => trivial)
  | delete id => exact RuleService.delete_follows ctx none id

/-- The operation has stored the rule. -/
def Upserted (h : Host) (w : World) (new : Rule) (c : Call) : Prop :=
  c.op = .upsertRule new ∧ (exec h c w).1.isOk = true

/-- The operation has stored a rule of the flag in the environment. -/
def WroteRule (h : Host) (flagID environmentID : String) (w : World) (c : Call) : Prop :=
  ∃ new, Upserted h w new c ∧ new.flagID = flagID ∧ new.environmentID = environmentID

/-- A write in good order, in a run from `start`: since the request listed the
    rules nobody has stored one there, and the stored rule with its id, if there
    is one, is there too. -/
structure Orderly (h : Host) (start : World) (tr : List (Nat × Call)) (w : World) (i : Nat)
    (c : Call) : Prop where
  undisturbed : ∀ new, Upserted h w new c → ∀ pre tenant post,
    tr = pre ++ (i, ⟨tenant, .listRulesByFlagEnvironment new.flagID new.environmentID⟩) :: post →
    ReplayMeets (exec h) (fun v x => ¬ WroteRule h new.flagID new.environmentID v x)
      (replay (exec h) start
        (pre ++ [(i, ⟨tenant, .listRulesByFlagEnvironment new.flagID new.environmentID⟩)])) post
  inPlace : ∀ new, Upserted h w new c → ∀ r ∈ w.store.rules, h.uuid new.id = some r.id →
    r.flagID = new.flagID ∧ r.environmentID = new.environmentID

/-! ## Orderly runs -/

/-- The invariant: ids and priorities are unique, and what a request listed
    bounds what is stored as long as nobody wrote there since. -/
structure RulesInv (h : Host) (start : World) (tr : List (Nat × Call)) (w : World)
    (view : Nat → Option RuleView) : Prop where
  now : w = replay (exec h) start tr
  ids : RuleIDs h.uuid w.store
  unique : w.store.PrioritiesUnique
  views : ∀ i v, view i = some v → ∃ pre tenant post,
    tr = pre ++ (i, ⟨tenant, .listRulesByFlagEnvironment v.flagID v.environmentID⟩) :: post ∧
      (ReplayMeets (exec h) (fun u x => ¬ WroteRule h v.flagID v.environmentID u x)
          (replay (exec h) start
            (pre ++ [(i, ⟨tenant, .listRulesByFlagEnvironment v.flagID v.environmentID⟩)])) post →
        ∀ r ∈ w.store.rules, r.flagID = v.flagID → r.environmentID = v.environmentID →
          r ∈ v.listed)

section Runs

variable (h : Host)

/-- A request that performed an operation carries the note it had, or has just
    listed rules. -/
theorem ruleDiscipline_after (c : Call) (w : World) (view : Option RuleView) :
    ruleDiscipline.after c (exec h c w).1 view = view ∨
      ∃ tenant v, c = ⟨tenant, .listRulesByFlagEnvironment v.flagID v.environmentID⟩ ∧
        ruleDiscipline.after c (exec h c w).1 view = some v ∧
        ∀ r ∈ w.store.rules, r.flagID = v.flagID → r.environmentID = v.environmentID →
          r ∈ v.listed := by
  rcases c with ⟨tenant, op⟩
  cases op
  case listRulesByFlagEnvironment flagID environmentID =>
    rcases exec_cases h ⟨tenant, .listRulesByFlagEnvironment flagID environmentID⟩ w
      with ⟨e, he⟩ | ⟨l, w', hp, he⟩
    · rw [he]
      exact .inl rfl
    · rw [he]
      refine .inr ⟨tenant, ⟨flagID, environmentID, l⟩, rfl, rfl, fun r hr hf henv => ?_⟩
      rw [← (Prod.mk.inj (Except.ok.inj hp)).1]
      refine (Sorter.mem_sort _ _ _ _).mpr (List.mem_filter.mpr ⟨hr, ?_⟩)
      rw [Bool.and_eq_true, beq_iff_eq, beq_iff_eq]
      exact ⟨hf, henv⟩
  all_goals exact .inl rfl

/-- An operation of a request stores a rule, or at most removes some. -/
theorem ruleStep_cases (c : Call) (w : World) (view : Option RuleView)
    (hc : ruleDiscipline.permits c view) :
    (∃ new t s', Upserted h w new c ∧ upsertRule h.uuid new w.store = .ok (t, s') ∧
        (exec h c w).2.store = s') ∨
      (exec h c w).2.store.rules.Sublist w.store.rules := by
  rcases exec_cases h c w with ⟨e, he⟩ | ⟨a, w', hp, he⟩
  · rw [he]
    exact .inr (List.Sublist.refl _)
  rcases c with ⟨tenant, op⟩
  unfold Upserted
  rw [he]
  -- Of the calls the rule service makes, only the upsert can add or change a rule.
  by_cases hup : ∃ new, op = .upsertRule new
  · rcases hup with ⟨new, rfl⟩
    rcases World.onStore_ok _ _ _ _ hp with ⟨s', hs', rfl⟩
    exact .inl ⟨new, a, s', ⟨rfl, rfl⟩, hs', rfl⟩
  have hquiet : Tbl.rules ∉ op.writes ∨ ∃ id, op = .deleteRule id := by
    cases op <;> first | exact hc | exact absurd ⟨_, rfl⟩ hup
  rcases hquiet with hframe | ⟨id, rfl⟩
  · have hsame : w'.store.rules = w.store.rules := op.perform_frame h _ w w' a hp .rules hframe
    rw [World.tick_store, hsame]
    exact .inr (List.Sublist.refl _)
  · rcases World.onStore_ok _ _ _ _ hp with ⟨s', hs', rfl⟩
    rcases deleteRule_ok _ _ _ _ _ hs' with ⟨_, _, _, rfl⟩
    exact .inr List.filter_sublist

/-- Removing rules keeps ids and priorities unique. -/
theorem unique_of_sublist (uuid : String → Option String) (s s' : Store)
    (hsub : s'.rules.Sublist s.rules) (hids : RuleIDs uuid s) (huniq : s.PrioritiesUnique) :
    RuleIDs uuid s' ∧ s'.PrioritiesUnique :=
  ⟨⟨hids.nodup.sublist (hsub.map _), fun r hr => hids.canonical r (hsub.subset hr)⟩,
    huniq.sublist (hsub.map _)⟩

/-- An orderly operation adds no rule where it does not store one. -/
theorem ruleStep_rows (start : World) (tr : List (Nat × Call)) (i : Nat) (c : Call) (w : World)
    (view : Option RuleView) (hc : ruleDiscipline.permits c view) (hok : Orderly h start tr w i c)
    (flagID environmentID : String) (hno : ¬ WroteRule h flagID environmentID w c) :
    ∀ r ∈ (exec h c w).2.store.rules, r.flagID = flagID → r.environmentID = environmentID →
      r ∈ w.store.rules := by
  intro r hr hf henv
  rcases ruleStep_cases h c w view hc with ⟨new, t, s', hop, hup, hs'⟩ | hsub
  · rw [hs'] at hr
    rcases upsertRule_ok _ _ _ _ _ hup with ⟨id, hid, _, ⟨_, rfl⟩ | ⟨_, _, rfl⟩⟩
    · rcases List.mem_map.mp hr with ⟨old, hold, hor⟩
      -- The row overwritten stays in its place, which is the place written.
      by_cases hrow : old.id = id
      · rw [if_pos hrow] at hor
        rw [← hor] at hf henv
        rcases hok.inPlace new hop old hold (by rw [hrow]; exact hid) with ⟨hflag, henv'⟩
        exact absurd ⟨new, hop, hflag.symm.trans hf, henv'.symm.trans henv⟩ hno
      · rw [if_neg hrow] at hor
        rw [← hor]
        exact hold
    · rcases List.mem_append.mp hr with hold | hnew
      · exact hold
      · rw [List.mem_singleton.mp hnew] at hf henv
        exact absurd ⟨new, hop, hf, henv⟩ hno
  · exact hsub.subset hr

/-- An orderly operation keeps the invariant. -/
theorem RulesInv.step (start : World) (tr : List (Nat × Call)) (w : World)
    (view : Nat → Option RuleView) (i : Nat) (c : Call) (hJ : RulesInv h start tr w view)
    (hok : Orderly h start tr w i c) (hc : ruleDiscipline.permits c (view i)) :
    RulesInv h start (tr ++ [(i, c)]) (exec h c w).2
      (Function.update view i (ruleDiscipline.after c (exec h c w).1 (view i))) := by
  have hstore : RuleIDs h.uuid (exec h c w).2.store ∧ (exec h c w).2.store.PrioritiesUnique := by
    rcases ruleStep_cases h c w (view i) hc with ⟨new, t, s', hop, hup, hs'⟩ | hsub
    · rw [hs']
      -- The note of the thread says what its check looked at.
      have hview : ∃ v, view i = some v ∧ v.flagID = new.flagID ∧
          v.environmentID = new.environmentID ∧
          ∀ r ∈ v.listed, r.priority = new.priority → r.id = new.id := by
        rcases c with ⟨tenant, op⟩
        rw [show op = .upsertRule new from hop.1] at hc
        exact hc
      rcases hview with ⟨v, hv, hflag, henv, hchecked⟩
      rcases hJ.views i v hv with ⟨pre, tenant, post, htr, hbound⟩
      rw [hflag, henv] at htr hbound
      have hlisted := hbound (hok.undisturbed new hop pre tenant post htr)
      exact upsertRule_unique h.uuid h.uuid_canonical w.store s' new t hup hJ.ids hJ.unique
        (fun r hr hrf hre hprio => hchecked r (hlisted r hr hrf hre) hprio)
        (hok.inPlace new hop)
    · exact unique_of_sublist h.uuid w.store _ hsub hJ.ids hJ.unique
  refine ⟨?_, hstore.1, hstore.2, fun j v hv => ?_⟩
  · rw [replay_append, ← hJ.now, replay_cons, replay_nil]
  -- A view from before bounds the rules still, unless somebody wrote there.
  have hkeep : ∀ j v, view j = some v → ∃ pre tenant post,
      tr ++ [(i, c)] =
        pre ++ (j, ⟨tenant, .listRulesByFlagEnvironment v.flagID v.environmentID⟩) :: post ∧
      (ReplayMeets (exec h) (fun u x => ¬ WroteRule h v.flagID v.environmentID u x)
          (replay (exec h) start
            (pre ++ [(j, ⟨tenant, .listRulesByFlagEnvironment v.flagID v.environmentID⟩)])) post →
        ∀ r ∈ (exec h c w).2.store.rules, r.flagID = v.flagID →
          r.environmentID = v.environmentID → r ∈ v.listed) := by
    intro j v hv
    rcases hJ.views j v hv with ⟨pre, tenant, post, htr, hbound⟩
    refine ⟨pre, tenant, post ++ [(i, c)], by rw [htr]; simp, fun hquiet r hr hrf hre => ?_⟩
    rcases (replayMeets_snoc (exec h) _ post (i, c)).mp hquiet with ⟨hbefore, hno⟩
    have hw : replay (exec h) (replay (exec h) start
        (pre ++ [(j, ⟨tenant, .listRulesByFlagEnvironment v.flagID v.environmentID⟩)])) post =
        w := by
      rw [hJ.now, htr, ← replay_append, List.append_assoc, List.singleton_append]
    rw [hw] at hno
    exact hbound hbefore r
      (ruleStep_rows h start tr i c w (view i) hc hok _ _ hno r hr hrf hre) hrf hre
  by_cases hji : j = i
  · subst hji
    rw [Function.update_self] at hv
    rcases ruleDiscipline_after h c w (view j) with hsame | ⟨tenant, v', rfl, hafter, hlisted⟩
    · rw [hsame] at hv
      exact hkeep j v hv
    · rw [hafter, Option.some.injEq] at hv
      rw [← hv]
      refine ⟨tr, tenant, [], rfl, fun _ r hr => ?_⟩
      have hread : (exec h ⟨tenant, .listRulesByFlagEnvironment v'.flagID v'.environmentID⟩
          w).2.store.rules = w.store.rules := exec_frame h _ w .rules List.not_mem_nil
      rw [hread] at hr
      exact hlisted r hr
  · rw [Function.update_of_ne hji] at hv
    exact hkeep j v hv

end Runs

/-- In every interleaving of requests whose writes are orderly, no two rules of
    one flag and environment have the same priority. -/
theorem priorities_unique (h : Host) (start : World) (hids : RuleIDs h.uuid start.store)
    (hstart : start.store.PrioritiesUnique) (tr : List (Nat × Call))
    (P : Pool Err Call Call.Ret World)
    (hrun : Pool.RunWhile (exec h) ruleThread (Orderly h start) ⟨start, []⟩ tr P) :
    P.shared.store.PrioritiesUnique := by
  have hfirst : RulesInv h start [] start (fun _ => none) :=
    ⟨rfl, hids, hstart, fun i v hv => (nomatch hv)⟩
  rcases Pool.runWhile_discipline ruleDiscipline none (RulesInv h start) ruleThread_follows
    (fun tr w view i c hJ hok hc => hJ.step h start tr w view i c hok hc) start hfirst tr P hrun
    with ⟨view, hJ⟩
  exact hJ.unique

/-- A store with a flag in an environment, and requests to create a rule there
    with the given priority. -/
def ruleStore : Store where
  projects := [⟨"p1", "Acme", "acme", 0⟩]
  environments := [⟨"e1", "p1", "Production", "production", 0⟩]
  flags := [darkMode]

def createAt (priority : Int) : Prog Unit :=
  RuleCall.program ⟨some ⟨"u1", .editor⟩, none⟩ (.create
    ⟨"f1", "e1", priority, [⟨"plan", .eq, ["pro"]⟩], "true", "paying users", []⟩)

/-- Operations that write no rule are in good order. -/
theorem orderly_of_ne (h : Host) (start : World) (tr : List (Nat × Call)) (w : World) (i : Nat)
    (c : Call) (hc : ∀ new, c.op ≠ .upsertRule new) : Orderly h start tr w i c :=
  ⟨fun new hop => absurd hop.1 (hc new), fun new hop => absurd hop.1 (hc new)⟩

/-- A rule of priority 1 is stored, and a request creates one of priority 2. -/
def secondRule : Pool Err Call Call.Ret World where
  shared :=
    { store := { ruleStore with rules := [{ darkModePaying with id := sampleUUID 0 }] } }
  threads := [createAt 2]

/-- The operations of that request before it writes. -/
def secondRuleTrace : List (Nat × Call) :=
  [(0, ⟨none, .listRulesByFlagEnvironment "f1" "e1"⟩), (0, ⟨none, .newUUID⟩), (0, ⟨none, .now⟩)]

theorem priorities_unique_second :
    (Pool.follow (exec Host.steady) secondRule [0, 0, 0, 0]).shared.store.rules.length = 2 ∧
      (Pool.follow (exec Host.steady) secondRule [0, 0, 0, 0]).shared.store.PrioritiesUnique := by
  have hread : ∀ (tr : List (Nat × Call)) (w : World) (c : Call), c.op.writes = [] →
      Orderly Host.steady secondRule.shared tr w 0 c := fun tr w c hc =>
    orderly_of_ne Host.steady secondRule.shared tr w 0 c
      (fun new hop => by rw [hop] at hc; exact (nomatch hc))
  have hspawn : Pool.RunWhile (exec Host.steady) ruleThread
      (Orderly Host.steady secondRule.shared) ⟨secondRule.shared, []⟩ [] secondRule :=
    Pool.RunWhile.spawn [] ⟨_, []⟩ _ Pool.RunWhile.start ⟨_, _, rfl⟩
  have hlist := Pool.RunWhile.perform _ _ 0 _ _ hspawn rfl (hread _ _ _ rfl)
  have hdraw := Pool.RunWhile.perform _ _ 0 _ _ hlist rfl (hread _ _ _ rfl)
  have hnow := Pool.RunWhile.perform _ _ 0 _ _ hdraw rfl (hread _ _ _ rfl)
  -- Between the listing and the write, nothing wrote a rule.
  have hquiet : ∀ x ∈ secondRuleTrace, ∀ new, x.2.op ≠ .upsertRule new := by
    simp [secondRuleTrace]
  have hwrite := Pool.RunWhile.perform secondRuleTrace _ 0 _ _ hnow rfl
    ⟨fun new _ pre tenant post htr => ?_, fun new hop r hr _ => ?_⟩
  · exact ⟨by decide, priorities_unique Host.steady secondRule.shared ⟨by decide, by decide⟩
      (by decide) _ _ hwrite⟩
  · refine replayMeets_of_forall (exec Host.steady) post (fun v x hx hwrote => ?_) _
    rcases hwrote with ⟨q, hq, _⟩
    refine hquiet x ?_ q hq.1
    rw [htr]
    exact List.mem_append_right _ (List.mem_cons_of_mem _ hx)
  · cases hop.1
    rw [show r = { darkModePaying with id := sampleUUID 0 } from List.mem_singleton.mp hr]
    exact ⟨rfl, rfl⟩

/-- Both requests list before either writes, and both write priority 1. -/
theorem priorities_race :
    ¬ ∀ (h : Host) (start : World), start.store.rules = [] →
      ∀ (tr : List (Nat × Call)) (P : Pool Err Call Call.Ret World),
        Pool.Run (exec h) ruleThread ⟨start, []⟩ tr P → P.shared.store.PrioritiesUnique := by
  intro hclaim
  have hspawn : Pool.Run (exec Host.steady) ruleThread ⟨{ store := ruleStore }, []⟩ []
      ⟨{ store := ruleStore }, [createAt 1, createAt 1]⟩ :=
    Pool.Run.spawn [] ⟨_, [_]⟩ _ (Pool.Run.spawn [] ⟨_, []⟩ _ Pool.Run.start ⟨_, _, rfl⟩)
      ⟨_, _, rfl⟩
  rcases Pool.run_follow _ _ _ [0, 1, 0, 0, 0, 1, 1, 1] _ _ hspawn with ⟨tr, hrun⟩
  exact absurd (hclaim Host.steady { store := ruleStore } rfl tr _ hrun) (by decide)

end Cuttlegate
