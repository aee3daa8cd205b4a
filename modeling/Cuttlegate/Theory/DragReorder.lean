import Cuttlegate.Theory.NestedRoutes
import Cuttlegate.Theory.Streaming
import Cuttlegate.Web.RulesPage
import Mathlib.Data.List.Perm.Basic

/-!
# Dragging a Rule

What becomes of a rule that is dragged to another place.

The request for a rule carries its new priority and nothing else, while the
endpoint replaces the rule by what the body says: a rule without conditions,
which the check of a rule refuses whatever else it says. So no request
succeeds. And there is always one: were every rule numbered on the server as
the page numbers it, the rules would be listed in the order they have after
the drag, and nothing would have moved.

## Main definitions

* `Store.rulesByPriority`: The rules of a flag and environment in their order.
* `DragWorks`: What a drag should do.

## Theorems

* `RulesPage.patchJSON_refused`: A request of the page is refused.
* `RulesPage.moveItem_ne`: A drag moves something.
* `RulesPage.renumber_differs`: A request is sent.
* `drag_never_works`: No drag does what it should.
-/

namespace Cuttlegate

/-- The rules of a flag and environment, as the server lists them. -/
def Store.rulesByPriority (s : Store) (order : Sorter) (flagID environmentID : String) :
    List Rule :=
  order.sort (fun a b => decide (a.priority < b.priority))
    (s.rules.filter (fun r => r.flagID == flagID && r.environmentID == environmentID))

/-- What a drag should do: every request succeeds, then the server lists the
    rules in the order shown, and of no rule anything but the priority has
    changed. -/
structure DragWorks (page : RulesPage) (hosts : Rule → HttpHost) (order : Sorter)
    (flagID environmentID : String) (updated sent : List Rule) (s : HttpState) : Prop where
  succeed : ∀ r ∈ (page.serveAll hosts sent s).1, ∃ resp, r = .ok resp ∧ resp.status < 400
  shown : ((page.serveAll hosts sent s).2.world.store.rulesByPriority order flagID
    environmentID).map (·.id) = updated.map (·.id)
  kept : (page.serveAll hosts sent s).2.world.store.rules.map (fun r => { r with priority := 0 }) =
    s.world.store.rules.map (fun r => { r with priority := 0 })

/-! ## The requests -/

namespace RulesPage

/-- A body with a priority only asks for a rule without conditions. -/
theorem decode_priority (n : Json) (b : RuleBody)
    (h : RuleBody.decode (.obj [("priority", n)]) = some b) : b.conditions = [] := by
  have hset : RuleBody.decode (.obj [("priority", n)]) =
      (Json.decodeInt 0 n).map (fun i => { ({} : RuleBody) with priority := i }) := by
    cases hn : Json.decodeInt 0 n with
    | none => simp [RuleBody.decode, Json.decodeRecord, Json.named, Json.fold, hn]
    | some i => simp [RuleBody.decode, Json.decodeRecord, Json.named, Json.fold, hn]
  rw [hset] at h
  rcases Option.map_eq_some_iff.mp h with ⟨i, _, rfl⟩
  rfl

end RulesPage

/-- An update to a rule without conditions fails before anything is read. -/
theorem RuleService.update_fails (ctx : Ctx) (rule : Rule) (hrule : rule.conditions = []) :
    ∃ e, RuleService.update ctx rule = Proc.fail e := by
  have hinvalid : ∃ e, rule.validate = .error e := by
    cases hvalid : rule.validate with
    | error e => exact ⟨e, rfl⟩
    | ok _ => exact absurd hrule ((Rule.validate_ok_iff rule).mp hvalid).conditions
  rcases hinvalid with ⟨e, he⟩
  unfold RuleService.update Ctx.require
  rw [he]
  cases requireRole ctx.auth .editor with
  | error e' => exact ⟨e', rfl⟩
  | ok ac => exact ⟨e, rfl⟩

/-- A request with a priority only is refused, whoever sends it. -/
theorem RulesPage.patchJSON_refused (page : RulesPage) (r : Rule) (h : HttpHost) (s : HttpState) :
    Proc.Ends (httpExec h) Refused ((page.patchJSON r).serve h) s := by
  have hupdate : ∀ ctx s', Proc.Ends (httpExec h) Refused
      ((page.patchJSON r).handler ctx) s' := by
    intro ctx s'
    unfold NestedRequest.handler RulesPage.patchJSON
    dsimp only
    unfold RuleHandler.update RuleHandler.resolveContext resolvePath
    refine ends_orWriteError h refused_refusal _ _ s' (fun proj s₁ _ => ?_)
    refine ends_orWriteError h refused_refusal _ _ s₁ (fun env s₂ _ => ?_)
    refine ends_orWriteError h refused_refusal _ _ s₂ (fun flag s₃ _ => ?_)
    -- A body with a priority alone decodes to a rule without variant or rollout, which the
    -- service refuses.
    cases hbody : RuleBody.decode (.obj [("priority", .num (toString r.priority))]) with
    | none =>
        simp only [Option.bind_some, hbody]
        exact refused_ok _ s₃ (writeError_status _)
    | some b =>
        simp only [Option.bind_some, hbody]
        rcases RuleService.update_fails ctx (b.toRule r.id flag.id env.id)
          (RulesPage.decode_priority _ b hbody) with ⟨e, he⟩
        rw [he]
        refine ends_orWriteError h refused_refusal _ _ s₃ (fun a s₄ hrun => ?_)
        exact absurd (congrArg Prod.fst hrun) (fun hr => nomatch hr)
  unfold NestedRequest.serve requireBearer
  cases bearerToken (page.patchJSON r).authorization with
  | none => exact refused_ok _ s (by decide)
  | some token =>
      dsimp only
      cases h.verify token with
      | error e => exact refused_ok _ s (writeVerifyError_status e)
      | ok who =>
          refine Proc.ends_attempt _ _ s (fun _ s₁ _ => ?_)
          exact ends_tenantRLS_refused h _ page.slug_ne _ s₁ (fun tenant s₂ => hupdate _ s₂)

/-! ## The order -/

namespace RulesPage

theorem moveItem_eq {α : Type} (l : List α) (i j : Nat) (hi : i < l.length) :
    moveItem l i j = (l.eraseIdx i).insertIdx j l[i] := by
  unfold moveItem
  rw [List.getElem?_eq_getElem hi]

theorem getElem?_moveItem {α : Type} (l : List α) (i j : Nat) (hi : i < l.length)
    (hj : j < l.length) : (moveItem l i j)[j]? = l[i]? := by
  have hlength := List.length_eraseIdx_of_lt hi
  rw [moveItem_eq l i j hi, List.getElem?_insertIdx_self, if_pos (by omega),
    List.getElem?_eq_getElem hi]

theorem moveItem_perm {α : Type} (l : List α) (i j : Nat) (hi : i < l.length)
    (hj : j < l.length) : (moveItem l i j).Perm l := by
  have hlength := List.length_eraseIdx_of_lt hi
  rw [moveItem_eq l i j hi]
  exact (List.perm_insertIdx _ _ (by omega)).trans (List.getElem_cons_eraseIdx_perm hi)

/-- A list without repetitions is another one when something has moved. -/
theorem moveItem_ne {α : Type} (l : List α) (hnodup : l.Nodup) (i j : Nat) (hi : i < l.length)
    (hj : j < l.length) (hij : i ≠ j) : moveItem l i j ≠ l := by
  intro hsame
  have hget := getElem?_moveItem l i j hi hj
  rw [hsame, List.getElem?_eq_getElem hi, List.getElem?_eq_getElem hj] at hget
  exact hij (hnodup.getElem_inj_iff.mp (Option.some.inj hget).symm)

/-- Rules whose priorities are the numbers of their places are in order. -/
theorem numbered_sorted (l : List Rule)
    (h : ∀ k (hk : k < l.length), l[k].priority = (k : Int) + 1) :
    l.Pairwise (fun a b => a.priority < b.priority) := by
  rw [List.pairwise_iff_getElem]
  intro i j hi hj hij
  rw [h i hi, h j hj]
  omega

/-- A rule is sent when the server's rules are in order and one has moved. -/
theorem renumber_differs (page : RulesPage)
    (hids : (page.serverRules.map (·.id)).Nodup)
    (hsorted : page.serverRules.Pairwise (fun a b => a.priority < b.priority)) (i j : Nat)
    (hi : i < page.serverRules.length) (hj : j < page.serverRules.length) (hij : i ≠ j) :
    (renumber (moveItem page.serverRules i j)).filter page.differs ≠ [] := by
  intro hnone
  rw [List.filter_eq_nil_iff] at hnone
  have hperm := moveItem_perm page.serverRules i j hi hj
  -- The server has for each rule the number the page gives it.
  have hnumbered : ∀ k (hk : k < (moveItem page.serverRules i j).length),
      (moveItem page.serverRules i j)[k].priority = (k : Int) + 1 := by
    intro k hk
    have hfind : page.serverRules.find?
        (fun s => s.id == (moveItem page.serverRules i j)[k].id) =
        some (moveItem page.serverRules i j)[k] := by
      refine (Rows.find_unique_iff _ _ (fun a ha b hb hida hidb => ?_) _).mpr
        ⟨hperm.mem_iff.mp (List.getElem_mem hk), beq_self_eq_true _⟩
      exact List.inj_on_of_nodup_map hids ha hb
        ((beq_iff_eq.mp hida).trans (beq_iff_eq.mp hidb).symm)
    have hsame := hnone { (moveItem page.serverRules i j)[k] with priority := k + 1 }
      (List.mem_iff_getElem.mpr ⟨k, by simpa [renumber] using hk, by simp [renumber]⟩)
    unfold differs at hsame
    rw [hfind] at hsame
    simpa using hsame
  refine moveItem_ne page.serverRules hids.of_map i j hi hj hij ?_
  refine List.Perm.eq_of_pairwise (fun a b _ _ hab hba => ?_) (numbered_sorted _ hnumbered)
    hsorted hperm
  exact absurd hab (lt_asymm hba)

/-- A drag that does something moves one of the rules shown. -/
theorem handleDragEnd_eq (page : RulesPage) (active : String) (overID : Option String)
    (updated changed : List Rule)
    (h : page.handleDragEnd active overID = some (updated, changed)) :
    ∃ i j, i < page.rules.length ∧ j < page.rules.length ∧ i ≠ j ∧
      updated = renumber (moveItem page.rules i j) ∧ changed = updated.filter page.differs := by
  cases overID with
  | none => exact nomatch h
  | some overID =>
      unfold handleDragEnd at h
      dsimp only at h
      -- A drop on the dragged row itself is ignored.
      by_cases hsame : active = overID
      · rw [if_pos hsame] at h
        exact nomatch h
      · rw [if_neg hsame] at h
        cases hi : page.rules.findIdx? (fun r => r.id == active) with
        | none => rw [hi] at h; exact nomatch h
        | some i =>
            cases hj : page.rules.findIdx? (fun r => r.id == overID) with
            | none => rw [hi, hj] at h; exact nomatch h
            | some j =>
                rw [hi, hj] at h
                cases h
                rw [List.findIdx?_eq_some_iff_getElem] at hi hj
                rcases hi with ⟨hi, hactive, _⟩
                rcases hj with ⟨hj, hover, _⟩
                refine ⟨i, j, hi, hj, ?_, rfl, rfl⟩
                rintro rfl
                exact hsame ((beq_iff_eq.mp hactive).symm.trans (beq_iff_eq.mp hover))

/-- Of a list of requests that is not empty the first one is refused. -/
theorem serveAll_refused (page : RulesPage) (hosts : Rule → HttpHost) (sent : List Rule)
    (hsent : sent ≠ []) (s : HttpState) :
    ∃ r ∈ (page.serveAll hosts sent s).1, ∀ resp, r = .ok resp → 400 ≤ resp.status := by
  cases sent with
  | nil => exact absurd rfl hsent
  | cons rule rest =>
      exact ⟨_, List.mem_cons_self, page.patchJSON_refused rule (hosts rule) s⟩

end RulesPage

/-- No drag of a rule to another place does what it should: whatever rules of
    distinct priorities are stored and listed, and in whatever order the
    server handles the requests. -/
theorem drag_never_works (page : RulesPage) (hosts : Rule → HttpHost) (order : Sorter)
    (flagID environmentID : String) (s : HttpState)
    (hids : (s.world.store.rules.map (·.id)).Nodup)
    (hpriorities : ((s.world.store.rulesByPriority order flagID environmentID).map
      (·.priority)).Nodup)
    (hlisted : page.serverRules = s.world.store.rulesByPriority order flagID environmentID)
    (hshown : page.optimisticOrder = none) (active : String) (overID : Option String)
    (updated changed sent : List Rule)
    (hdrag : page.handleDragEnd active overID = some (updated, changed))
    (hsent : sent.Perm changed) :
    ¬ DragWorks page hosts order flagID environmentID updated sent s := by
  have hrules : page.rules = page.serverRules := by
    unfold RulesPage.rules
    rw [hshown, Option.getD_none]
  have hweak := strictWeak_key (fun r : Rule => r.priority)
  have hserverIds : (page.serverRules.map (·.id)).Nodup := by
    rw [hlisted]
    refine ((order.perm _ _).map _).nodup_iff.mpr ?_
    exact hids.sublist (List.filter_sublist.map _)
  -- The page shows the rules as listed, in strictly increasing priority.
  have hsorted : page.serverRules.Pairwise (fun a b => a.priority < b.priority) := by
    rw [← hlisted] at hpriorities
    have hweakly : page.serverRules.Pairwise (fun a b => a.priority ≤ b.priority) := by
      rw [hlisted]
      refine (order.sorted _ _ hweak).imp (fun hab => ?_)
      simpa using hab
    have hne := List.pairwise_map.mp hpriorities
    exact (hweakly.and hne).imp (fun hboth => lt_of_le_of_ne hboth.1 hboth.2)
  rcases page.handleDragEnd_eq active overID updated changed hdrag with
    ⟨i, j, hi, hj, hij, hupdated, hchanged⟩
  rw [hrules] at hi hj hupdated
  -- A move between two places renumbers some rule, so there is a request to refuse.
  have hsome : changed ≠ [] := by
    rw [hchanged, hupdated]
    exact page.renumber_differs hserverIds hsorted i j hi hj hij
  intro hworks
  rcases page.serveAll_refused hosts sent (fun hnil => hsome (List.nil_perm.mp (hnil ▸ hsent))) s
    with ⟨r, hr, hrefused⟩
  rcases hworks.succeed r hr with ⟨resp, hresp, hlow⟩
  exact absurd (hrefused resp hresp) (by omega)

/-- Two rules of one flag and environment. -/
def twoRules : HttpState where
  world := { store := {
    projects := [⟨"p1", "Shop", "shop", 0⟩]
    environments := [⟨"e1", "p1", "Production", "prod", 0⟩]
    flags := [darkMode]
    rules := [{ darkModePaying with id := sampleUUID 1, priority := 1 },
      { darkModePaying with id := sampleUUID 2, priority := 2 }] } }
  tx := none
  windows := fun _ => none

/-- The page an editor sees. -/
def shopRulesPage : RulesPage where
  authorization := "Bearer token-u1"
  slug := "shop"
  slug_ne := shop_ne_empty
  envSlug := "prod"
  key := "dark-mode"
  serverRules := twoRules.world.store.rulesByPriority .insertion darkMode.id "e1"
  optimisticOrder := none

/-- The rules in the order of the drag, numbered anew. -/
def swapped : List Rule :=
  [{ darkModePaying with id := sampleUUID 2, priority := 1 },
    { darkModePaying with id := sampleUUID 1, priority := 2 }]

theorem drag_never_works_swapped :
    ¬ DragWorks shopRulesPage (fun _ => editorHost) .insertion darkMode.id "e1" swapped swapped
      twoRules :=
  drag_never_works shopRulesPage (fun _ => editorHost) .insertion darkMode.id "e1" twoRules
    (by decide +kernel) (by decide +kernel) rfl rfl (sampleUUID 1) (some (sampleUUID 2)) swapped
    swapped swapped (by decide +kernel) (List.Perm.refl _)

/-- An editor swaps two valid rules with different priorities, nothing fails,
    and the first request is refused. -/
theorem drag_refused :
    (∀ r ∈ twoRules.world.store.rules, r.validate = .ok ()) ∧
      shopRulesPage.handleDragEnd (sampleUUID 1) (some (sampleUUID 2)) = some (swapped, swapped) ∧
      ¬ DragWorks shopRulesPage (fun _ => editorHost) .insertion darkMode.id "e1" swapped swapped
        twoRules := by
  refine ⟨by decide +kernel, by decide +kernel, fun hworks => ?_⟩
  rcases shopRulesPage.serveAll_refused (fun _ => editorHost) swapped (by simp [swapped]) twoRules
    with ⟨r, hr, hrefused⟩
  rcases hworks.succeed r hr with ⟨resp, hresp, hlow⟩
  exact absurd (hrefused resp hresp) (by omega)

end Cuttlegate
