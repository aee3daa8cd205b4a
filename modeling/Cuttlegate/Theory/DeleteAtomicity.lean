import Cuttlegate.Adapters.Routes
import Cuttlegate.Theory.ExistenceOracle
import Cuttlegate.Theory.VariantRepair

/-!
# Half a Deletion

What a deletion of a variant leaves when it does not succeed.

The rules are rewritten one statement at a time, and only then is the flag
checked and written. The repository of rules does not join the transaction of
the request, so nothing takes a rewritten rule back: once the first rule is
written, every failure that follows leaves it, whether it is another upsert,
the final check of the flag, its update, or the commit of the transaction.
Before the first rule is written a failure leaves nothing.

`HalfDone` collects these failures, and `deleteVariant_atomic_iff` says that
they are the only ones: for the call of the service, and for the route, where
the middleware adds its own steps in front and the commit at the end.

## Main definitions

* `Undisturbed`: Flags and rules are as before.
* `HalfDone`: A deletion fails after its first rule is written.
* `closing`: The end of a request in a transaction.
* `Routed`: A request reaches its handler with the project of its path.

## Theorems

* `Deletable.halfDone_upsert`, `Deletable.halfDone_later`: Half done, by the
  step that fails.
* `prepareDelete_half`: The first half of a deletion and what can fail in it.
* `deleteVariant_half_iff`: The call of the service.
* `tenantRLS_routed`: The middleware, with every point at which it can stop.
* `onDB_writeBack`: Writing the flag in the transaction.
* `deleteVariant_atomic_iff`: When a deletion is all or nothing.
-/

namespace Cuttlegate

/-- The flags and rules of two databases are the same. -/
def Undisturbed (s s' : Store) : Prop := s'.flags = s.flags ∧ s'.rules = s.rules

/-- A deletion writes the first of the rules it has to rewrite, and a later
    step fails. `commits` says whether what it writes last is kept. -/
def HalfDone (h : Host) (ctx : Ctx) (projectID flagKey variantKey : String) (force : Bool)
    (w : World) (commits : Bool) : Prop :=
  ∃ f, Deletable h ctx projectID flagKey variantKey force w f ∧
    w.store.mentioning f.id variantKey ≠ [] ∧ h.fails (w.calls + 2) = false ∧
    ((∃ i, 0 < i ∧ i < (w.store.mentioning f.id variantKey).length ∧
        h.fails (w.calls + 2 + i) = true) ∨
      (f.eraseVariant variantKey).validate ≠ .ok () ∨
      h.fails (w.calls + 2 + (w.store.mentioning f.id variantKey).length) = true ∨
      commits = false)

/-- A table with a rewritten row is another table. -/
theorem rewritten_ne (uuid : String → Option String) (variantKey defaultKey : String)
    (hne : defaultKey ≠ variantKey) (rules : List Rule) (hstored : StoredRules uuid rules)
    (done : List String) (p : Rule) (hp : p ∈ rules) (hdone : p.id ∈ done)
    (hment : p.mentions variantKey = true) :
    rewritten variantKey defaultKey done rules ≠ rules := by
  intro heq
  have hmem : patchRule variantKey defaultKey p ∈ rules := by
    rw [← heq]
    refine List.mem_map.mpr ⟨p, hp, ?_⟩
    rw [if_pos hdone]
  have hid : (patchRule variantKey defaultKey p).id = p.id := by rw [patchRule_eq]
  have hsame := List.inj_on_of_nodup_map hstored.ids hmem hp hid
  have hgone := patchRule_mentions variantKey defaultKey hne p
  rw [hsame, hment] at hgone
  exact absurd hgone (by decide)

section Half

variable {h : Host} {ctx : Ctx} {projectID flagKey variantKey : String} {force : Bool} {w : World}
  {f : Flag}

/-- Rewriting some of the selected rules changes the table. -/
theorem Deletable.rewritten_iff (hdel : Deletable h ctx projectID flagKey variantKey force w f)
    (hstored : StoredRules h.uuid w.store.rules) (selected : List Rule)
    (hsub : ∀ p ∈ selected, p ∈ w.store.mentioning f.id variantKey) :
    rewritten variantKey f.defaultVariantKey (selected.map (·.id)) w.store.rules =
      w.store.rules ↔ selected = [] := by
  constructor
  · intro heq
    cases selected with
    | nil => rfl
    | cons p rest =>
        rcases List.mem_filter.mp (hsub p List.mem_cons_self) with ⟨hmem, hment⟩
        rw [Bool.and_eq_true] at hment
        exact absurd heq (rewritten_ne h.uuid variantKey _ (Ne.symm hdel.other) w.store.rules
          hstored _ p hmem List.mem_cons_self hment.2)
  · intro hnil
    rw [hnil]
    exact rewritten_nil _ _ _

/-- An upsert that fails leaves the deletion half done unless it is the first. -/
theorem Deletable.halfDone_upsert (hdel : Deletable h ctx projectID flagKey variantKey force w f)
    (k : Nat) (hk : k < (w.store.mentioning f.id variantKey).length)
    (hfails : h.fails (w.calls + 2 + k) = true)
    (hbefore : ∀ i, i < k → h.fails (w.calls + 2 + i) = false) (commits : Bool) :
    HalfDone h ctx projectID flagKey variantKey force w commits ↔ k ≠ 0 := by
  constructor
  · rintro ⟨_, _, _, hfirst, _⟩ hzero
    rw [hzero, Nat.add_zero, hfirst] at hfails
    exact absurd hfails Bool.false_ne_true
  · intro hk₀
    refine ⟨f, hdel, List.ne_nil_of_length_pos (by omega), hbefore 0 (by omega), .inl ?_⟩
    exact ⟨k, by omega, hk, hfails⟩

/-- With all upserts passed, the deletion is half done if there were any and a
    later step fails. -/
theorem Deletable.halfDone_later (hdel : Deletable h ctx projectID flagKey variantKey force w f)
    (hall : ∀ i, i < (w.store.mentioning f.id variantKey).length →
      h.fails (w.calls + 2 + i) = false) (commits : Bool) :
    HalfDone h ctx projectID flagKey variantKey force w commits ↔
      w.store.mentioning f.id variantKey ≠ [] ∧
        ((f.eraseVariant variantKey).validate ≠ .ok () ∨
          h.fails (w.calls + 2 + (w.store.mentioning f.id variantKey).length) = true ∨
          commits = false) := by
  constructor
  · rintro ⟨g, hg, hne, _, hlater⟩
    rw [hdel.unique hg] at hne hlater
    refine ⟨hne, hlater.resolve_left ?_⟩
    rintro ⟨i, _, hi, hfails⟩
    rw [hall i hi] at hfails
    exact absurd hfails Bool.false_ne_true
  · rintro ⟨hne, hlater⟩
    exact ⟨f, hdel, hne, hall 0 (List.length_pos_iff.mpr hne), .inr hlater⟩

end Half

/-- What the first half of a deletion leaves of the table of rules, and how far
    it can get. When it fails it has written the first rule exactly if a later
    step of the half is to blame; when it succeeds it has rewritten all rules,
    and there was none to rewrite exactly if the table is as before. -/
theorem prepareDelete_half (h : Host) (ctx : Ctx) (projectID flagKey variantKey : String)
    (force : Bool) (w : World) (hstored : StoredRules h.uuid w.store.rules) :
    (∃ e w', Proc.run (exec h)
          (FlagService.prepareDelete ctx projectID flagKey variantKey force) w = (.error e, w') ∧
        w'.store.flags = w.store.flags ∧
        (∀ commits, w'.store.rules = w.store.rules ↔
          ¬ HalfDone h ctx projectID flagKey variantKey force w commits)) ∨
      ∃ f w', Deletable h ctx projectID flagKey variantKey force w f ∧
        Proc.run (exec h)
          (FlagService.prepareDelete ctx projectID flagKey variantKey force) w =
            (.ok (f.eraseVariant variantKey), w') ∧
        w'.store.flags = w.store.flags ∧
        (∀ commits, HalfDone h ctx projectID flagKey variantKey force w commits ↔
          w'.store.rules ≠ w.store.rules ∧ (h.fails w'.calls = true ∨ commits = false)) := by
  rcases prepareDelete_run h ctx projectID flagKey variantKey force w hstored with
    ⟨hnone, e, w', hrun, hstore⟩ | ⟨f, affected, hdel, hperm, hcases⟩
  · refine .inl ⟨e, w', hrun, by rw [hstore], fun commits => ?_⟩
    rw [hstore]
    refine ⟨fun _ => ?_, fun _ => rfl⟩
    rintro ⟨f, hf, _⟩
    exact hnone f hf
  have hlength := hperm.length_eq
  rcases hcases with ⟨k, hk, hfails, hbefore, hrun⟩ | ⟨hall, hrun⟩
  · -- An upsert fails: the rules in front of it have been rewritten.
    refine .inl ⟨_, _, hrun, rfl, fun commits => ?_⟩
    rw [World.withRules_rules, hdel.rewritten_iff hstored (affected.take k)
        (fun p hp => hperm.mem_iff.mp (List.mem_of_mem_take hp)),
      hdel.halfDone_upsert k (by omega) hfails hbefore commits, List.take_eq_nil_iff, not_not]
    have hne : affected ≠ [] := List.ne_nil_of_length_pos (by omega)
    exact ⟨fun hnil => hnil.resolve_right hne, .inl⟩
  · rw [hlength] at hall hrun
    have hrules := hdel.rewritten_iff hstored affected (fun p hp => hperm.mem_iff.mp hp)
    have hnil : affected = [] ↔ w.store.mentioning f.id variantKey = [] := by
      rw [← List.length_eq_zero_iff, hlength, List.length_eq_zero_iff]
    cases hvalid : (f.eraseVariant variantKey).validate with
    | error e =>
        -- All rules are written, and the flag does not pass its check.
        rw [hvalid] at hrun
        refine .inl ⟨e, _, hrun, rfl, fun commits => ?_⟩
        rw [World.withRules_rules, hrules, hnil, hdel.halfDone_later hall, hvalid]
        simp
    | ok u =>
        rw [hvalid] at hrun
        refine .inr ⟨f, _, hdel, hrun, rfl, fun commits => ?_⟩
        rw [World.withRules_rules, World.withRules_calls, ne_eq, hrules, hnil,
          hdel.halfDone_later hall, hvalid]
        simp

/-- A call of the service that fails leaves flags and rules as they were
    exactly if it is not left half done. -/
theorem deleteVariant_half_iff (h : Host) (ctx : Ctx) (projectID flagKey variantKey : String)
    (force : Bool) (w : World) (hstored : StoredRules h.uuid w.store.rules) :
    (∀ e w', Proc.run (exec h)
        (FlagService.deleteVariant ctx projectID flagKey variantKey force) w = (.error e, w') →
        Undisturbed w.store w'.store) ↔
      ¬ HalfDone h ctx projectID flagKey variantKey force w true := by
  rw [FlagService.deleteVariant_eq, Proc.run_bind]
  rcases prepareDelete_half h ctx projectID flagKey variantKey force w hstored with
    ⟨e, w₁, hrun, hflags, hiff⟩ | ⟨f, w₁, hdel, hrun, hflags, hiff⟩
  · rw [hrun, ← hiff true]
    constructor
    · intro hall
      exact (hall e w₁ rfl).2
    · intro hrules e' w' heq
      rw [Prod.mk.injEq] at heq
      rw [← heq.2]
      exact ⟨hflags, hrules⟩
  · rw [hrun, hiff true]
    simp only [Bool.true_eq_false, or_false]
    rcases isFlagRow_found _ _ _ _ f hdel.found with ⟨hmem, hsees⟩
    have hrow : w₁.store.flags.any
        (Conn.isFlagRow ⟨ctx.tenant, h.rls⟩ (f.eraseVariant variantKey).id) = true :=
      List.any_eq_true.mpr ⟨f, by rw [hflags]; exact hmem, hsees⟩
    rcases writeBack_run h ctx variantKey _ w₁ hrow with ⟨hfails, hwrite⟩ | ⟨hpasses, w₂, hwrite, _⟩
    · rw [hwrite, hfails]
      simp only [and_true, ne_eq, not_not]
      constructor
      · intro hall
        exact (hall _ _ rfl).2
      · intro hrules e' w' heq
        rw [Prod.mk.injEq] at heq
        rw [← heq.2]
        exact ⟨hflags, hrules⟩
    · rw [hwrite, hpasses]
      simp

/-! ## The route -/

section Route

variable (h : HttpHost)

/-- The end of a request in a transaction, which is committed or rolled back as
    the answer asks. -/
def closing (out : Except Err Response × HttpState) : Except Err Response × HttpState :=
  match out.1 with
  | .error e => (.error e, out.2)
  | .ok resp =>
      if resp.status ≥ 400 then (.ok resp, (httpExec h .rollback out.2).2)
      else (.ok resp, (httpExec h .commit out.2).2)

theorem run_closes (p : HttpProg Response) (s : HttpState) :
    Proc.run (httpExec h) (p >>= fun resp =>
      if resp.status ≥ 400 then do
        Proc.call HttpOp.rollback
        return resp
      else do
        let _ ← (Proc.call HttpOp.commit).attempt
        return resp) s = closing h (Proc.run (httpExec h) p s) := by
  rw [Proc.run_bind, closing]
  rcases Proc.run (httpExec h) p s with ⟨r, s'⟩
  cases r with
  | error e => rfl
  | ok resp =>
      by_cases hbad : resp.status ≥ 400
      · simp only [if_pos hbad]
        rfl
      · simp only [if_neg hbad]
        rw [Proc.run_bind, Proc.run_attempt, Proc.run_call]
        rfl

/-- Nothing fails on the way of a request to its handler, and its path names
    the project. -/
structure Routed (slug : String) (s : HttpState) (proj : Project) : Prop where
  lookup : h.host.fails s.world.calls = false
  found : s.world.store.projectAt slug = some proj
  begin : h.host.fails (s.world.calls + 1) = false
  tenant : h.host.fails (s.world.calls + 2) = false
  resolve : h.host.fails (s.world.calls + 3) = false

/-- A request in a transaction reaches the body of its handler, or it ends with
    the committed database as it was. -/
theorem tenantRLS_routed (slug : String) (hslug : slug ≠ "") (ac : AuthContext)
    (k : Ctx → Project → HttpProg Response) (s : HttpState) (htx : s.tx = none) :
    (∃ proj, Routed h slug s proj ∧
        Proc.run (httpExec h) (tenantRLS slug (fun tenant =>
            resolveProject ⟨some ac, tenant⟩ slug (k ⟨some ac, tenant⟩))) s =
          closing h (Proc.run (httpExec h) (k ⟨some ac, some proj.id⟩ proj)
            ⟨s.world.tick.tick.tick.tick, some none, s.windows⟩)) ∨
      ((∀ proj, ¬ Routed h slug s proj) ∧
        (Proc.run (httpExec h) (tenantRLS slug (fun tenant =>
          resolveProject ⟨some ac, tenant⟩ slug (k ⟨some ac, tenant⟩))) s).2.world.store =
          s.world.store) := by
  unfold tenantRLS orWriteError
  rw [if_neg hslug, run_read_attempt h _ rfl _ s (.inl htx), projectBySlug_answer]
  by_cases hlookup : h.host.fails s.world.calls = true
  · rw [if_pos hlookup]
    refine .inr ⟨fun proj hr => ?_, rfl⟩
    rw [hr.lookup] at hlookup
    exact absurd hlookup Bool.false_ne_true
  rw [if_neg hlookup]
  cases hproj : s.world.store.projectAt slug with
  | none =>
      refine .inr ⟨fun proj hr => ?_, rfl⟩
      rw [hr.found] at hproj
      exact (nomatch hproj)
  | some proj =>
      simp only [lookedUp_some]
      rw [Proc.run_bind, Proc.run_attempt, Proc.run_call]
      simp only [httpExec, HttpState.manage, World.tick_calls]
      by_cases hbegin : h.host.fails (s.world.calls + 1) = true
      · simp only [hbegin, if_true]
        refine .inr ⟨fun proj hr => ?_, rfl⟩
        rw [hr.begin] at hbegin
        exact absurd hbegin Bool.false_ne_true
      simp only [hbegin, if_false, Bool.false_eq_true]
      rw [Proc.run_bind, Proc.run_attempt, Proc.run_call]
      simp only [httpExec, HttpState.manage, World.tick_calls]
      by_cases htenant : h.host.fails (s.world.calls + 1 + 1) = true
      · simp only [htenant, if_true]
        refine .inr ⟨fun proj hr => ?_, rfl⟩
        rw [hr.tenant] at htenant
        exact absurd htenant Bool.false_ne_true
      simp only [htenant, if_false, Bool.false_eq_true]
      rw [run_closes]
      unfold resolveProject ProjectService.getBySlug
      -- The handler looks the project up once more.
      rw [onDB_call, orWriteError, run_read_attempt h _ rfl _
        ⟨s.world.tick.tick.tick, some none, s.windows⟩ (.inr rfl), projectBySlug_answer]
      simp only [World.tick_calls, World.tick_store, hproj]
      by_cases hresolve : h.host.fails (s.world.calls + 1 + 1 + 1) = true
      · simp only [hresolve, if_true]
        refine .inr ⟨fun proj hr => ?_, rfl⟩
        rw [hr.resolve] at hresolve
        exact absurd hresolve Bool.false_ne_true
      · simp only [hresolve, if_false, Bool.false_eq_true, lookedUp_some]
        simp only [Bool.not_eq_true] at hlookup hbegin htenant hresolve
        exact .inl ⟨proj, ⟨hlookup, hproj, hbegin, htenant, hresolve⟩, rfl⟩

/-- A program that writes flags only in the transaction and rules not at all
    leaves the committed flags and rules alone. -/
theorem onDB_undisturbed {α : Type} (p : Prog α)
    (hp : Proc.Uses (fun c : Call => Tbl.rules ∉ c.op.writes ∧
      (Tbl.flags ∉ c.op.writes ∨ c.inTx = true)) p)
    (s : HttpState) (hopen : s.tx.isSome = true) :
    Undisturbed s.world.store (Proc.run (httpExec h) (onDB p) s).2.world.store := by
  have hstep : ∀ (c : Call) (s : HttpState), (Tbl.rules ∉ c.op.writes ∧
      (Tbl.flags ∉ c.op.writes ∨ c.inTx = true)) → s.tx.isSome = true →
      (httpExec h (.db c) s).2.tx.isSome = true ∧
        Undisturbed s.world.store (httpExec h (.db c) s).2.world.store := by
    rintro c s ⟨hrules, hflags⟩ hopen
    cases htx : s.tx with
    | none =>
        rw [htx] at hopen
        exact absurd hopen Bool.false_ne_true
    | some view =>
        by_cases hin : c.inTx = true
        · simp only [httpExec, htx, hin, if_true]
          exact ⟨by simp, rfl, rfl⟩
        · simp only [httpExec, htx, hin, Bool.false_eq_true, if_false]
          have hpool := hflags.resolve_right hin
          exact ⟨by simp, exec_frame h.host c s.world .flags hpool,
            exec_frame h.host c s.world .rules hrules⟩
  induction p generalizing s with
  | ret a => exact ⟨rfl, rfl⟩
  | fail e => exact ⟨rfl, rfl⟩
  | act c k ih =>
      rcases hstep c s hp.1 hopen with ⟨hopen', hflags, hrules⟩
      rcases ih _ (hp.2 _) (httpExec h (.db c) s).2 hopen' with ⟨hflags', hrules'⟩
      exact ⟨hflags'.trans hflags, hrules'.trans hrules⟩

/-- In the transaction the flag is written unless the statement fails, and the
    committed flags and rules stay as they are either way. -/
theorem onDB_writeBack (ac : AuthContext) (tenant variantKey : String) (f : Flag) (s : HttpState)
    (htx : s.tx = some none)
    (hrow : s.world.store.flags.any (Conn.isFlagRow ⟨some tenant, h.host.rls⟩ f.id) = true) :
    Undisturbed s.world.store (Proc.run (httpExec h)
        (onDB (FlagService.writeBack ⟨some ac, some tenant⟩ variantKey f)) s).2.world.store ∧
      (Proc.run (httpExec h)
        (onDB (FlagService.writeBack ⟨some ac, some tenant⟩ variantKey f)) s).1 =
        if h.host.fails s.world.calls then .error .internal else .ok f := by
  have huses : Proc.Uses (fun c : Call => Tbl.rules ∉ c.op.writes ∧
      (Tbl.flags ∉ c.op.writes ∨ c.inTx = true))
      (FlagService.writeBack ⟨some ac, some tenant⟩ variantKey f) := by
    refine Proc.uses_bind _ _ ((Proc.uses_call _).mpr ⟨by simp [Op.writes], .inr rfl⟩)
      (fun _ => ?_)
    have haudit : Within [.auditEvents] (recordAudit ⟨some ac, some tenant⟩
        { action := "flag.variant_deleted", entityID := f.id, entityKey := f.key
          projectID := f.projectID, before := variantKey } >>= fun _ => Proc.ret f) :=
      audited_within _ List.mem_cons_self _ _
    refine Proc.uses_mono (fun c hc => ?_) _ haudit
    exact ⟨fun hmem => by simpa using hc hmem, .inl (fun hmem => by simpa using hc hmem)⟩
  refine ⟨onDB_undisturbed h _ huses s (by rw [htx]; rfl), ?_⟩
  -- The answer is that of the update; recording the deletion never fails.
  have hanswer : ∀ s', (Proc.run (httpExec h) (onDB (recordAudit ⟨some ac, some tenant⟩
      { action := "flag.variant_deleted", entityID := f.id, entityKey := f.key
        projectID := f.projectID, before := variantKey } >>= fun _ => Proc.ret f)) s').1 =
      .ok f := by
    intro s'
    unfold recordAudit bestEffort
    rw [onDB_bind, onDB_bind, onDB_attempt, Proc.run_bind, Proc.run_bind, Proc.run_attempt]
    rfl
  have hin : Call.inTx ⟨some tenant, .updateFlag f⟩ = true := rfl
  have hexec : (httpExec h (.db ⟨some tenant, .updateFlag f⟩) s).1 =
      if h.host.fails s.world.calls then .error .internal else .ok () := by
    simp only [httpExec, htx, hin, if_true, Option.getD_none]
    by_cases hfails : h.host.fails s.world.calls = true
    · rw [if_pos hfails, exec_failing h.host ⟨some tenant, .updateFlag f⟩ _ hfails rfl]
    · rw [if_neg hfails, exec_passing h.host ⟨some tenant, .updateFlag f⟩ _
        (by simpa using hfails)]
      simp only [Op.perform, World.onStore, updateFlag, affect, hrow, if_true]
  unfold FlagService.writeBack
  rw [onDB_bind, onDB_call, Proc.run_bind, Proc.run_call]
  cases hout : httpExec h (.db ⟨some tenant, .updateFlag f⟩) s with
  | mk r s' =>
      rw [hout] at hexec
      by_cases hfails : h.host.fails s.world.calls = true
      · rw [if_pos hfails] at hexec ⊢
        simp only at hexec
        rw [hexec]
      · rw [if_neg hfails] at hexec ⊢
        simp only at hexec
        rw [hexec]
        exact hanswer s'

/-- A request to delete a variant has succeeded: its answer is no error, and
    its transaction is committed. -/
def Succeeded (r : Except Err Response) : Prop :=
  (∃ resp, r = .ok resp ∧ resp.status < 400) ∧ h.commits = true

/-- An error ends the request without success, and with the committed database
    as it is. -/
theorem closing_error (e : Err) (s : HttpState) :
    ¬ Succeeded h (closing h (answerOf e, s)).1 ∧
      (closing h (answerOf e, s)).2.world.store = s.world.store := by
  have hstatus := answerOf_status e
  cases hanswer : answerOf e with
  | error e' =>
      refine ⟨?_, rfl⟩
      rintro ⟨⟨resp, hresp, _⟩, _⟩
      exact (nomatch hresp)
  | ok resp =>
      have hbad : resp.status ≥ 400 := hstatus resp hanswer
      simp only [closing, if_pos hbad]
      refine ⟨?_, rfl⟩
      rintro ⟨⟨resp', hresp, hgood⟩, _⟩
      rw [← Except.ok.inj hresp] at hgood
      omega

/-- A success is one if the transaction can be committed, and otherwise the
    committed database stays as it is. -/
theorem closing_ok (resp : Response) (s : HttpState) (hgood : resp.status < 400) :
    (h.commits = true ∧ Succeeded h (closing h (.ok resp, s)).1) ∨
      (h.commits = false ∧ ¬ Succeeded h (closing h (.ok resp, s)).1 ∧
        (closing h (.ok resp, s)).2.world.store = s.world.store) := by
  have hnot : ¬ resp.status ≥ 400 := by omega
  simp only [closing, if_neg hnot]
  cases hcommits : h.commits with
  | true => exact .inl ⟨rfl, ⟨resp, rfl, hgood⟩, hcommits⟩
  | false =>
      refine .inr ⟨rfl, ?_, ?_⟩
      · rintro ⟨_, hdone⟩
        rw [hcommits] at hdone
        exact absurd hdone (by decide)
      · simp [httpExec, hcommits]

/-- A request to delete a variant is left half done. -/
def RouteHalfDone (ac : AuthContext) (slug flagKey variantKey force : String) (s : HttpState) :
    Prop :=
  ∃ proj, Routed h slug s proj ∧
    HalfDone h.host ⟨some ac, some proj.id⟩ proj.id flagKey variantKey (force == "true")
      s.world.tick.tick.tick.tick h.commits

/-- The body of the handler, from a transaction that has written nothing. -/
theorem deleteVariant_body (ac : AuthContext) (projectID flagKey variantKey : String)
    (force : Bool) (s : HttpState) (htx : s.tx = some none)
    (hstored : StoredRules h.host.uuid s.world.store.rules) :
    ∀ out, closing h (Proc.run (httpExec h) (orWriteError
        (onDB (FlagService.deleteVariant ⟨some ac, some projectID⟩ projectID flagKey variantKey
          force)) (fun f => return ⟨200, .flag f⟩)) s) = out →
      ((¬ Succeeded h out.1 → Undisturbed s.world.store out.2.world.store) ↔
        ¬ HalfDone h.host ⟨some ac, some projectID⟩ projectID flagKey variantKey force s.world
          h.commits) := by
  intro out hout
  have hpool : Proc.Uses Call.sparesTx (FlagService.prepareDelete ⟨some ac, some projectID⟩
      projectID flagKey variantKey force) := by
    refine within_sparesTx _ [.rules] ?_ (by simp)
    refine within_bind _ _ (within_mono (by simp) _ (FlagService.selectAffected_within _ _ _ _ _))
      (fun x => ?_)
    exact within_bind _ _ (upsertPatched_within _ _ _ _)
      (fun _ => within_check _ _ (fun _ => within_ret _))
  rw [FlagService.deleteVariant_eq, onDB_bind, run_orWriteError, Proc.run_bind,
    run_onDB_pool h _ hpool s (.inr htx)] at hout
  rcases prepareDelete_half h.host ⟨some ac, some projectID⟩ projectID flagKey variantKey force
    s.world hstored with ⟨e, w₁, hrun, hflags, hiff⟩ | ⟨f, w₁, hdel, hrun, hflags, hiff⟩
  · -- The first half fails, and the transaction is rolled back or abandoned.
    rw [hrun] at hout
    rcases closing_error h e { s with world := w₁ } with ⟨hfailed, hstore⟩
    simp only at hout
    rw [hout] at hfailed hstore
    rw [← hiff h.commits, hstore]
    exact ⟨fun hall => (hall hfailed).2, fun hrules _ => ⟨hflags, hrules⟩⟩
  · rw [hrun] at hout
    rcases isFlagRow_found _ _ _ _ f hdel.found with ⟨hmem, hsees⟩
    have hrow : w₁.store.flags.any
        (Conn.isFlagRow ⟨some projectID, h.host.rls⟩ (f.eraseVariant variantKey).id) = true :=
      List.any_eq_true.mpr ⟨f, by rw [hflags]; exact hmem, hsees⟩
    have hwrite := onDB_writeBack h ac projectID variantKey (f.eraseVariant variantKey)
      { s with world := w₁ } htx hrow
    rw [hiff h.commits]
    rcases hrest : Proc.run (httpExec h)
        (onDB (FlagService.writeBack ⟨some ac, some projectID⟩ variantKey
          (f.eraseVariant variantKey))) { s with world := w₁ } with ⟨r, s₂⟩
    rw [hrest] at hwrite
    rcases hwrite with ⟨⟨hflags₂, hrules₂⟩, hanswer⟩
    simp only at hout hflags₂ hrules₂ hanswer
    rw [hrest, hanswer] at hout
    -- The committed rules are those of the first half, whatever comes after it.
    have hkept : ∀ st : Store, st = s₂.world.store →
        (Undisturbed s.world.store st ↔ w₁.store.rules = s.world.store.rules) := by
      intro st hst
      rw [Undisturbed, hst, hflags₂, hrules₂, hflags]
      simp
    by_cases hfails : h.host.fails w₁.calls = true
    · rw [if_pos hfails] at hout
      rcases closing_error h .internal s₂ with ⟨hfailed, hstore⟩
      simp only at hout
      rw [hout] at hfailed hstore
      rw [hkept _ hstore]
      simp [hfails, hfailed]
    · rw [if_neg hfails] at hout
      simp only [Proc.pure_eq, Proc.run_ret] at hout
      rcases closing_ok h ⟨200, .flag (f.eraseVariant variantKey)⟩ s₂ (by simp) with
        ⟨hcommits, hdone⟩ | ⟨hcommits, hfailed, hstore⟩
      · rw [hout] at hdone
        simp [hdone, hfails, hcommits]
      · rw [hout] at hfailed hstore
        rw [hkept _ hstore]
        simp [hfailed, hcommits]

end Route

/-- A deletion that does not succeed leaves flags and rules as they were,
    called on the service or through its route, exactly if it does not fail
    after the first of the rules has been written. -/
theorem deleteVariant_atomic_iff (flagKey variantKey : String) :
    (∀ (h : Host) (ctx : Ctx) (projectID : String) (force : Bool) (w : World),
      StoredRules h.uuid w.store.rules →
      ((∀ e w', Proc.run (exec h)
          (FlagService.deleteVariant ctx projectID flagKey variantKey force) w = (.error e, w') →
          Undisturbed w.store w'.store) ↔
        ¬ HalfDone h ctx projectID flagKey variantKey force w true)) ∧
    (∀ (h : HttpHost) (ac : AuthContext) (slug force : String) (s : HttpState),
      slug ≠ "" → s.tx = none → StoredRules h.host.uuid s.world.store.rules →
      ∀ r s', Proc.run (httpExec h) (tenantRLS slug (fun tenant =>
          (ScopedRoute.deleteVariant flagKey variantKey force).handler h.host.sha256
            ⟨some ac, tenant⟩ slug)) s = (r, s') →
        ((¬ Succeeded h r → Undisturbed s.world.store s'.world.store) ↔
          ¬ RouteHalfDone h ac slug flagKey variantKey force s)) := by
  refine ⟨fun h ctx projectID force w => deleteVariant_half_iff h ctx projectID flagKey variantKey
    force w, fun h ac slug force s hslug htx hstored r s' hrun => ?_⟩
  rcases tenantRLS_routed h slug hslug ac (fun ctx proj => orWriteError
      (onDB (FlagService.deleteVariant ctx proj.id flagKey variantKey (force == "true")))
      (fun f => return ⟨200, .flag f⟩)) s htx with
    ⟨proj, hrouted, hbody⟩ | ⟨hnone, hstore⟩
  · -- The request reaches the service inside the transaction of its tenant.
    have hiff := deleteVariant_body h ac proj.id flagKey variantKey (force == "true")
      ⟨s.world.tick.tick.tick.tick, some none, s.windows⟩ rfl hstored (r, s')
      (hbody.symm.trans hrun)
    refine hiff.trans (not_congr ?_)
    constructor
    · intro hhalf
      exact ⟨proj, hrouted, hhalf⟩
    · rintro ⟨proj', hrouted', hhalf⟩
      have hsame := hrouted.found.symm.trans hrouted'.found
      rw [Option.some.inj hsame]
      exact hhalf
  · -- A request that is turned away before has written nothing.
    have hsame : s'.world.store = s.world.store := by
      change (Proc.run (httpExec h) (tenantRLS slug (fun tenant => _)) s).2.world.store = _
        at hstore
      rw [← hstore]
      exact congrArg (fun out => out.2.world.store) hrun.symm
    rw [hsame]
    refine ⟨fun _ => ?_, fun _ _ => ⟨rfl, rfl⟩⟩
    rintro ⟨proj, hrouted, _⟩
    exact hnone proj hrouted

/-- The flag and its rule, behind a server that is between requests. -/
def twoThemesServed : HttpState where
  world := twoThemes "plain"
  tx := none
  windows := fun _ => none

/-- A server whose statements do not fail. -/
def steadyServer : HttpHost where
  host := Host.steady
  verify := fun _ => .error .invalid
  commits := true
  evalRateLimiter := ⟨600, 60 * second⟩

/-- Without force nothing is written while a rule is in the way. -/
theorem deleteVariant_atomic_unforced :
    (∀ e w', Proc.run (exec Host.steady) (FlagService.deleteVariant ⟨some ⟨"u1", .editor⟩, none⟩
        "p1" "theme" "blue" false) (twoThemes "plain") = (.error e, w') →
      Undisturbed (twoThemes "plain").store w'.store) ∧
    ∀ r s', Proc.run (httpExec steadyServer) (tenantRLS "shop" (fun tenant =>
        (ScopedRoute.deleteVariant "theme" "blue" "").handler steadyServer.host.sha256
          ⟨some ⟨"u1", .editor⟩, tenant⟩ "shop")) twoThemesServed = (r, s') →
      ¬ Succeeded steadyServer r → Undisturbed (twoThemes "plain").store s'.world.store := by
  have hstored : StoredRules Host.steady.uuid (twoThemes "plain").store.rules :=
    ⟨by decide +kernel, by decide +kernel, by decide +kernel⟩
  -- Not forced, so nothing is left half done.
  have hunforced : ∀ (h : Host) (ctx : Ctx) (projectID : String) (w : World) (commits : Bool),
      ¬ HalfDone h ctx projectID "theme" "blue" false w commits := by
    rintro h ctx projectID w commits ⟨f, hdel, hne, _⟩
    exact hne (hdel.allowed.resolve_left (by decide))
  refine ⟨?_, fun r s' hrun => ?_⟩
  · exact ((deleteVariant_atomic_iff "theme" "blue").1 Host.steady _ "p1" false _ hstored).mpr
      (hunforced _ _ _ _ _)
  · refine ((deleteVariant_atomic_iff "theme" "blue").2 steadyServer ⟨"u1", .editor⟩ "shop" ""
      twoThemesServed (by decide) rfl hstored r s' hrun).mpr ?_
    rintro ⟨proj, _, hhalf⟩
    exact hunforced _ _ _ _ _ hhalf

/-- The rule is rewritten, and the update of the flag fails. -/
theorem deleteVariant_half_deleted :
    (Proc.run (exec { Host.steady with fails := fun n => n == 3 })
        (FlagService.deleteVariant ⟨some ⟨"u1", .editor⟩, none⟩ "p1" "theme" "blue" true)
        (twoThemes "plain")).1 = .error .internal ∧
      ¬ Undisturbed (twoThemes "plain").store
        (Proc.run (exec { Host.steady with fails := fun n => n == 3 })
          (FlagService.deleteVariant ⟨some ⟨"u1", .editor⟩, none⟩ "p1" "theme" "blue" true)
          (twoThemes "plain")).2.store := by
  refine ⟨by decide +kernel, fun hsame => ?_⟩
  have hkeys := congrArg (List.map (fun r : Rule => r.variantKey)) hsame.2
  exact absurd hkeys (by decide +kernel)

end Cuttlegate
