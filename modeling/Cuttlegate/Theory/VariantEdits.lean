import Cuttlegate.App.Methods
import Cuttlegate.Lib.Cell
import Cuttlegate.Adapters.Handlers

/-!
# Concurrent Edits of Variants

Adding, renaming and deleting a variant, and the update of a flag, each read
the flag with all its variants, change the list in memory, and write it back
whole. The write asks for the id of the flag and for nothing else, so it also
replaces a list that another request has stored since the read: two additions
that overlap are both acknowledged, and one of the two variants is gone.

What a request does to the flag it read is `VariantRequest.edit`. When no
request writes a flag that was written since it read it, the stored flag is
the result of these edits one after another, in the order of the writes, and
each acknowledged request is among them. What this says of a single variant is
read off the list of edits alone: it is there when it was added and no later
edit removes it, under the name given to it last.

## Main definitions

* `VariantRequest`, `VariantRequest.program`: The requests.
* `VariantRequest.edit`, `editAll`: What they do to a flag.
* `VariantRequest.Removes`, `VariantRequest.names`, `lastName`: What they do to
  one variant.
* `flagCell`: The row of a flag, as a cell that is read and written back.
* `NoLostEdit`: The stored flag is the result of the acknowledged edits.

## Theorems

* `flagCell_lawful`: What the statements do to the row.
* `VariantRequest.edits`: Every request writes back an edit of what it read.
* `editAll_added`: An added variant stays, under its last name.
* `variant_edits_serial`: Without a write in between no edit is lost.
* `variant_edit_lost`: With one in between it may be.
-/

namespace Cuttlegate

/-! ## Requests -/

inductive VariantRequest where
  | add (v : Variant)
  | rename (variantKey newName : String)
  | delete (variantKey : String) (force : Bool)
  | patch (body : Option Json)

def VariantRequest.program (ctx : Ctx) (projectID flagKey : String) : VariantRequest → Prog Unit
  | .add v => ignore (FlagService.addVariant ctx projectID flagKey v)
  | .rename variantKey newName =>
      ignore (FlagService.renameVariant ctx projectID flagKey variantKey newName)
  | .delete variantKey force =>
      ignore (FlagService.deleteVariant ctx projectID flagKey variantKey force)
  | .patch body => ignore (FlagHandler.patch ctx projectID flagKey body)

/-- The flag a request writes back, given the one it read. The rules that stop
    a deletion are rows of another table, and not part of this. -/
def VariantRequest.edit : VariantRequest → Flag → Except Err Flag
  | .add v, f => do
      refuseIf (f.type = .bool) .immutableVariants
      refuseIf (∃ existing ∈ f.variants, existing.key = v.key) .conflict
      let f := { f with variants := f.variants ++ [v] }
      f.validate
      return f
  | .rename variantKey newName, f =>
      match renameFirst variantKey newName f.variants with
      | none => .error .notFound
      | some variants => do
          let f := { f with variants := variants }
          f.validate
          return f
  -- Whether rules use the variant is not the flag's to say, so `force` does not count here.
  | .delete variantKey _, f => do
      refuseIf (f.type = .bool) .immutableVariants
      refuseIf (variantKey = f.defaultVariantKey) .defaultVariant
      refuseIf (f.variants.length = 1) .lastVariant
      refuseIf (∀ v ∈ f.variants, v.key ≠ variantKey) .notFound
      let f := { f with variants := f.variants.eraseP (fun v => v.key == variantKey) }
      f.validate
      return f
  | .patch body, f =>
      match body.bind FlagPatch.decode with
      | none => .error (.badRequest "invalid request body")
      | some b => do
          (b.apply f).validate
          return b.apply f

/-- Requests applied to a flag one after another. -/
def editAll (requests : List VariantRequest) (f : Flag) : Except Err Flag :=
  requests.foldlM (fun f r => r.edit f) f

/-- The request takes the variant with the given key away. -/
def VariantRequest.Removes (k : String) : VariantRequest → Prop
  | .add _ | .rename _ _ => False
  | .delete variantKey _ => variantKey = k
  | .patch body => ∃ b vs, body.bind FlagPatch.decode = some b ∧ b.variants = some vs ∧
      ∀ v ∈ vs, v.key ≠ k

/-- The name the request gives to the variant with the given key. -/
def VariantRequest.names (k : String) : VariantRequest → Option String
  | .add v => if v.key = k then some v.name else none
  | .rename variantKey newName => if variantKey = k then some newName else none
  | .delete _ _ => none
  | .patch body => do
      let b ← body.bind FlagPatch.decode
      let vs ← b.variants
      let v ← vs.find? (fun v => v.key == k)
      return v.name

/-- The name given to a variant last, starting with `name`. -/
def lastName (k name : String) (requests : List VariantRequest) : String :=
  requests.foldl (fun name r => (r.names k).getD name) name

/-! ## What is written back -/

theorem bind_unit_eq_ok {α : Type} (x : Except Err Unit) (k : Except Err α) (a : α)
    (h : (x >>= fun _ => k) = .ok a) : x = .ok () ∧ k = .ok a := by
  cases x with
  | error e => exact (nomatch h)
  | ok u => exact ⟨rfl, h⟩

/-- An edit changes nothing but what a write stores, and what it gives is
    valid. -/
theorem VariantRequest.edit_ok (r : VariantRequest) (f g : Flag) (h : r.edit f = .ok g) :
    f.overwrite g = g ∧ g.WellFormed := by
  -- Each edit ends by validating the flag it made.
  have hwritten : ∀ new : Flag, f.overwrite new = new →
      ((new.validate >>= fun _ => Except.ok new) = .ok g) → f.overwrite g = g ∧ g.WellFormed := by
    intro new hnew hok
    rcases bind_unit_eq_ok _ _ g hok with ⟨hvalid, hg⟩
    rw [← Except.ok.inj hg]
    exact ⟨hnew, new.validate_ok_iff.mp hvalid⟩
  cases r with
  | add v =>
      rcases bind_unit_eq_ok _ _ g h with ⟨_, h⟩
      rcases bind_unit_eq_ok _ _ g h with ⟨_, h⟩
      exact hwritten _ rfl h
  | rename variantKey newName =>
      rw [edit] at h
      cases hren : renameFirst variantKey newName f.variants with
      | none =>
          rw [hren] at h
          exact (nomatch h)
      | some vs =>
          rw [hren] at h
          exact hwritten _ rfl h
  | delete variantKey force =>
      rcases bind_unit_eq_ok _ _ g h with ⟨_, h⟩
      rcases bind_unit_eq_ok _ _ g h with ⟨_, h⟩
      rcases bind_unit_eq_ok _ _ g h with ⟨_, h⟩
      rcases bind_unit_eq_ok _ _ g h with ⟨_, h⟩
      exact hwritten _ rfl h
  | patch body =>
      rw [edit] at h
      cases hbody : body.bind FlagPatch.decode with
      | none =>
          rw [hbody] at h
          exact (nomatch h)
      | some b =>
          rw [hbody] at h
          exact hwritten _ rfl h

/-! ## One variant among the edits -/

theorem renameFirst_mem (variantKey newName k name : String) (vs vs' : List Variant)
    (hren : renameFirst variantKey newName vs = some vs') (hdistinct : (vs.map (·.key)).Nodup)
    (hmem : ⟨k, name⟩ ∈ vs) : ⟨k, if variantKey = k then newName else name⟩ ∈ vs' := by
  induction vs generalizing vs' with
  | nil => exact (nomatch hmem)
  | cons v vs ih =>
      rw [List.map_cons, List.nodup_cons] at hdistinct
      rw [renameFirst] at hren
      -- Only the first variant of the key is renamed, and keys are distinct.
      by_cases hv : v.key = variantKey
      · rw [if_pos hv, Option.some.injEq] at hren
        rw [← hren]
        rcases List.mem_cons.mp hmem with rfl | hmem
        · rw [if_pos hv.symm]
          exact List.mem_cons_self
        · -- The variant is further down, so the renamed one is another.
          have hne : variantKey ≠ k := by
            rintro rfl
            exact hdistinct.1 (hv ▸ List.mem_map_of_mem hmem)
          rw [if_neg hne]
          exact List.mem_cons_of_mem _ hmem
      · rw [if_neg hv, Option.map_eq_some_iff] at hren
        rcases hren with ⟨rest, hrest, rfl⟩
        rcases List.mem_cons.mp hmem with rfl | hmem
        · rw [if_neg (fun hk => hv hk.symm)]
          exact List.mem_cons_self
        · exact List.mem_cons_of_mem _ (ih rest hrest hdistinct.2 hmem)

theorem FlagPatch.apply_mem (b : FlagPatch) (f : Flag) (k name : String)
    (hmem : ⟨k, name⟩ ∈ f.variants)
    (hkeep : ∀ vs, b.variants = some vs → ∃ v ∈ vs, v.key = k) :
    ⟨k, ((b.variants.bind (fun vs => vs.find? (fun v => v.key == k))).map (·.name)).getD name⟩ ∈
      (b.apply f).variants := by
  rw [FlagPatch.apply]
  cases hvs : b.variants with
  | none => exact hmem
  | some vs =>
      rcases hkeep vs hvs with ⟨u, hu, huk⟩
      have hfind : (vs.find? (fun v => v.key == k)).isSome = true :=
        List.find?_isSome.mpr ⟨u, hu, beq_iff_eq.mpr huk⟩
      rcases Option.isSome_iff_exists.mp hfind with ⟨v, hv⟩
      have hvk : v.key = k := by simpa using List.find?_some hv
      rw [Option.bind_some, hv, Option.map_some, Option.getD_some, ← hvk]
      exact List.mem_of_find?_eq_some hv

/-- A variant that an edit does not remove stays, under the name it had or the
    one the edit gives it. -/
theorem VariantRequest.edit_mem (r : VariantRequest) (f g : Flag) (k name : String)
    (h : r.edit f = .ok g) (hdistinct : f.variantKeys.Nodup) (hmem : ⟨k, name⟩ ∈ f.variants)
    (hkeep : ¬ r.Removes k) : ⟨k, (r.names k).getD name⟩ ∈ g.variants := by
  cases r with
  | add v =>
      rcases bind_unit_eq_ok _ _ g h with ⟨_, h⟩
      rcases bind_unit_eq_ok _ _ g h with ⟨hnew, h⟩
      rcases bind_unit_eq_ok _ _ g h with ⟨_, hg⟩
      have hne : v.key ≠ k := fun hk =>
        (refuseIf_ok _ _).mp hnew ⟨⟨k, name⟩, hmem, hk.symm⟩
      rw [← Except.ok.inj hg, names, if_neg hne]
      exact List.mem_append_left _ hmem
  | rename variantKey newName =>
      rw [edit] at h
      cases hren : renameFirst variantKey newName f.variants with
      | none =>
          rw [hren] at h
          exact (nomatch h)
      | some vs =>
          rw [hren] at h
          rcases bind_unit_eq_ok _ _ g h with ⟨_, hg⟩
          have hvs := renameFirst_mem variantKey newName k name _ vs hren hdistinct hmem
          rw [← Except.ok.inj hg, names]
          by_cases hk : variantKey = k
          · rw [if_pos hk] at hvs ⊢
            exact hvs
          · rw [if_neg hk] at hvs ⊢
            exact hvs
  | delete variantKey force =>
      rcases bind_unit_eq_ok _ _ g h with ⟨_, h⟩
      rcases bind_unit_eq_ok _ _ g h with ⟨_, h⟩
      rcases bind_unit_eq_ok _ _ g h with ⟨_, h⟩
      rcases bind_unit_eq_ok _ _ g h with ⟨_, h⟩
      rcases bind_unit_eq_ok _ _ g h with ⟨_, hg⟩
      rw [← Except.ok.inj hg]
      refine (List.mem_eraseP_of_neg ?_).mpr hmem
      exact fun hk => hkeep (beq_iff_eq.mp hk).symm
  | patch body =>
      rw [edit] at h
      cases hbody : body.bind FlagPatch.decode with
      | none =>
          rw [hbody] at h
          exact (nomatch h)
      | some b =>
          rw [hbody] at h
          rcases bind_unit_eq_ok _ _ g h with ⟨_, hg⟩
          rw [← Except.ok.inj hg]
          -- A patch replaces the list, so the variant stays when the new list has its key.
          have hstays : ∀ vs, b.variants = some vs → ∃ v ∈ vs, v.key = k := by
            intro vs hvs
            by_contra hnone
            exact hkeep ⟨b, vs, hbody, hvs, fun v hv hvk => hnone ⟨v, hv, hvk⟩⟩
          have hnames : (VariantRequest.patch body).names k =
              (b.variants.bind (fun vs => vs.find? (fun v => v.key == k))).map (·.name) := by
            simp [names, hbody, Option.map_eq_bind, Option.bind_assoc]
          rw [hnames]
          exact b.apply_mem f k name hmem hstays

theorem editAll_cons (r : VariantRequest) (rest : List VariantRequest) (f g : Flag)
    (h : editAll (r :: rest) f = .ok g) : ∃ f', r.edit f = .ok f' ∧ editAll rest f' = .ok g := by
  rw [editAll, List.foldlM_cons] at h
  cases hr : r.edit f with
  | error e =>
      rw [hr] at h
      exact (nomatch h)
  | ok f' =>
      rw [hr] at h
      exact ⟨f', rfl, h⟩

theorem editAll_mem (requests : List VariantRequest) (f g : Flag) (k name : String)
    (h : editAll requests f = .ok g) (hdistinct : f.variantKeys.Nodup)
    (hmem : ⟨k, name⟩ ∈ f.variants) (hkeep : ∀ r ∈ requests, ¬ r.Removes k) :
    ⟨k, lastName k name requests⟩ ∈ g.variants := by
  induction requests generalizing f name with
  | nil =>
      rw [← Except.ok.inj h]
      exact hmem
  | cons r rest ih =>
      rcases editAll_cons r rest f g h with ⟨f', hr, hrest⟩
      exact ih f' ((r.names k).getD name) hrest (r.edit_ok f f' hr).2.distinct
        (r.edit_mem f f' k name hr hdistinct hmem (hkeep r List.mem_cons_self))
        (fun r' hr' => hkeep r' (List.mem_cons_of_mem _ hr'))

/-- An added variant that no later edit removes is there, under the name given
    to it last. -/
theorem editAll_added (before after : List VariantRequest) (v : Variant) (f g : Flag)
    (h : editAll (before ++ .add v :: after) f = .ok g)
    (hkeep : ∀ r ∈ after, ¬ r.Removes v.key) :
    ⟨v.key, lastName v.key v.name after⟩ ∈ g.variants := by
  induction before generalizing f with
  | nil =>
      rcases editAll_cons _ _ f g h with ⟨f', hadd, hafter⟩
      have hvalid := (VariantRequest.edit_ok _ f f' hadd).2
      rcases bind_unit_eq_ok _ _ f' hadd with ⟨_, hadd⟩
      rcases bind_unit_eq_ok _ _ f' hadd with ⟨_, hadd⟩
      rcases bind_unit_eq_ok _ _ f' hadd with ⟨_, hf'⟩
      refine editAll_mem after f' g v.key v.name hafter hvalid.distinct ?_ hkeep
      rw [← Except.ok.inj hf']
      exact List.mem_append_right _ List.mem_cons_self
  | cons r rest ih =>
      rcases editAll_cons _ _ f g h with ⟨f', _, hrest⟩
      exact ih f' hrest

/-! ## The row of the flag -/

/-- The row of a flag: requests look it up by its key and write it back by its
    id, over the connection of their tenant. -/
def flagCell (projectID key : String) : Cell Err Call Call.Ret Flag (Option String) where
  looks := fun c => decide (c.op = .flagByKey projectID key)
  saw := fun c r =>
    match c, r with
    | ⟨_, .flagByKey _ _⟩, .ok f => some f
    | _, _ => none
  writes := fun c =>
    match c.op with
    | .updateFlag f => some f
    | _ => none
  via := fun c => c.tenant
  leaves := fun c => Tbl.flags ∉ c.op.writes
  fits := fun f new => f.overwrite new = new

section Row

variable (h : Host) (projectID key : String)

/-- A connection that finds the flag may see it, and it is the flag of that
    key. -/
theorem flagByKey_found (conn : Conn) (s : Store) (f : Flag)
    (hf : s.flags.find? (fun f =>
      conn.sees f.projectID && f.projectID == projectID && f.key == key) = some f) :
    s.flagAt projectID key = some f ∧ conn.sees projectID = true := by
  have hrow := List.find?_some hf
  simp only [Bool.and_eq_true, beq_iff_eq] at hrow
  have hsees : conn.sees projectID = true := by
    rw [← hrow.1.2]
    exact hrow.1.1
  refine ⟨?_, hsees⟩
  rw [Store.flagAt, ← hf]
  refine congrArg (s.flags.find? ·) (funext (fun g => ?_))
  by_cases hg : g.projectID = projectID
  · simp [hg, hsees]
  · simp [beq_eq_false_iff_ne.mpr hg]

/-- A write that a connection makes to a row it sees replaces it. -/
theorem updateFlag_flagAt (conn : Conn) (s : Store) (f new : Flag)
    (hf : s.flagAt projectID key = some f) (hsees : conn.sees projectID = true)
    (hfits : f.overwrite new = new) :
    Store.flagAt { s with flags := s.flags.map (fun g =>
      if conn.isFlagRow new.id g then g.overwrite new else g) } projectID key = some new := by
  -- The update keeps project and key, so the lookup finds the same row.
  have hpred : ((fun g : Flag => g.projectID == projectID && g.key == key) ∘
      fun g => if conn.isFlagRow new.id g then g.overwrite new else g) =
      fun g => g.projectID == projectID && g.key == key := by
    funext g
    rw [Function.comp_apply]
    split
    · rfl
    · rfl
  have hrow := List.find?_some hf
  simp only [Bool.and_eq_true, beq_iff_eq] at hrow
  have hid : f.id = new.id := by rw [← hfits, Flag.overwrite]
  have hits : conn.isFlagRow new.id f = true := by
    simp [Conn.isFlagRow, hrow.1, hsees, hid]
  change (s.flags.map _).find? _ = some new
  rw [List.find?_map, hpred]
  change (s.flagAt projectID key).map _ = some new
  rw [hf, Option.map_some, if_pos hits, hfits]

theorem flagCell_lawful :
    (flagCell projectID key).Lawful (exec h) (fun w => w.store.flagAt projectID key)
      (fun tenant => (⟨tenant, h.rls⟩ : Conn).sees projectID = true) where
  -- The flag's row is a cell: its lookup reads it, the update overwrites it, and no other
  -- call touches it.
  apart := by
    rintro ⟨tenant, op⟩ hlooks
    have hop : op = .flagByKey projectID key := of_decide_eq_true hlooks
    rw [hop]
    rfl
  look := by
    rintro ⟨tenant, op⟩ w f hlooks hsaw
    have hop : op = .flagByKey projectID key := of_decide_eq_true hlooks
    subst hop
    rcases exec_cases h ⟨tenant, .flagByKey projectID key⟩ w with ⟨e, he⟩ | ⟨g, w', hp, he⟩
    · rw [he] at hsaw
      exact (nomatch hsaw)
    · rw [he] at hsaw
      rw [← Option.some.inj hsaw]
      exact flagByKey_found projectID key _ _ g (w.onStore_queryRow w' _ g hp).1
  leave := by
    intro c w hleaves
    have hsame : (exec h c w).2.store.flags = w.store.flags := exec_frame h c w .flags hleaves
    change Store.flagAt _ projectID key = Store.flagAt _ projectID key
    rw [Store.flagAt, Store.flagAt, hsame]
  refuse := by
    intro c w new e _ herror
    rcases exec_cases h c w with ⟨e, he⟩ | ⟨a, w', hp, he⟩
    · rw [he]
      rfl
    · rw [he] at herror
      exact (nomatch herror)
  write := by
    rintro ⟨tenant, op⟩ w new f a hwrites hans hf hsees hfits
    cases op with
    | updateFlag g =>
        have hg : g = new := Option.some.inj hwrites
        subst hg
        rcases exec_cases h ⟨tenant, .updateFlag g⟩ w with ⟨e, he⟩ | ⟨u, w', hp, he⟩
        · rw [he] at hans
          exact (nomatch hans)
        · rcases w.onStore_affect w' _ _ u hp with ⟨_, rfl⟩
          rw [he]
          exact updateFlag_flagAt projectID key _ _ f g hf hsees hfits
    | _ => exact (nomatch hwrites)

/-! ## What the requests do with it -/

variable (ctx : Ctx)

/-- What a request carries along. -/
def VariantRequest.note (ctx : Ctx) (r : VariantRequest) : EditNote Err Flag (Option String) where
  edit := r.edit
  via := ctx.tenant

variable {projectID key}

theorem flagCell_aside (op : Op) (hwrites : Tbl.flags ∉ op.writes)
    (hlooks : op ≠ .flagByKey projectID key) :
    Proc.Uses (flagCell projectID key).Aside (ctx.call op) := by
  refine (Proc.uses_call (⟨ctx.tenant, op⟩ : Call)).mpr ⟨decide_eq_false hlooks, ?_, hwrites⟩
  cases op with
  | updateFlag f => exact absurd (List.mem_singleton.mpr rfl) hwrites
  | _ => rfl

theorem recordAuditErr_aside (entry : AuditEntry) :
    Proc.Uses (flagCell projectID key).Aside (recordAuditErr ctx entry) := by
  refine Proc.uses_bind _ _ (flagCell_aside ctx _ (by simp [Op.writes]) (by simp)) (fun _ => ?_)
  refine Proc.uses_bind _ _ (flagCell_aside ctx _ (by simp [Op.writes]) (by simp)) (fun _ => ?_)
  exact flagCell_aside ctx _ (by simp [Op.writes]) (by simp)

theorem upsertPatched_aside (variantKey defaultKey : String) (rules : List Rule) :
    Proc.Uses (flagCell projectID key).Aside
      (upsertPatched ctx variantKey defaultKey rules) := by
  induction rules with
  | nil => trivial
  | cons r rest ih =>
      exact Proc.uses_bind _ _ (flagCell_aside ctx _ (by simp [Op.writes]) (by simp))
        (fun _ => ih)

/-- The end of every request: the edited flag is written, and then nothing
    fails any more. -/
theorem edits_written {α : Type} (r : VariantRequest) (f new : Flag) (hedit : r.edit f = .ok new)
    (entry : AuditEntry) (k : Unit → Prog α)
    (hk : ∀ note, note.wrote = true → (flagCell projectID key).Edits (k ()) note) :
    (flagCell projectID key).Edits
      (ctx.call (.updateFlag new) >>= fun _ => recordAudit ctx entry >>= k)
      { r.note ctx with seen := some f } := by
  refine Cell.edits_write (⟨ctx.tenant, .updateFlag new⟩ : Call) _ _ f new rfl rfl rfl rfl rfl hedit
    (r.edit_ok f new hedit).1 (fun _ => ?_)
  rw [recordAudit, bestEffort, Proc.bind_assoc]
  exact Cell.edits_attempt _ (recordAuditErr_aside ctx entry) _ _ (fun _ => hk _ rfl)

/-- The beginning of every request: the flag is looked up. -/
theorem edits_flagByKey {α : Type} (r : VariantRequest) (k : Flag → Prog α)
    (hk : ∀ f, (flagCell projectID key).Edits (k f) { r.note ctx with seen := some f }) :
    (flagCell projectID key).Edits (ctx.call (.flagByKey projectID key) >>= k) (r.note ctx) := by
  have hlooks : (flagCell projectID key).looks ⟨ctx.tenant, .flagByKey projectID key⟩ = true :=
    decide_eq_true rfl
  exact Cell.edits_look (⟨ctx.tenant, .flagByKey projectID key⟩ : Call) k _ hlooks rfl rfl
    List.not_mem_nil rfl hk

theorem edits_require {α : Type} (min : Role) (k : AuthContext → Prog α)
    (note : EditNote Err Flag (Option String)) (hwrote : note.wrote = false)
    (hk : ∀ ac, (flagCell projectID key).Edits (k ac) note) :
    (flagCell projectID key).Edits (ctx.require min >>= k) note :=
  Cell.edits_check _ k note hwrote (fun ac _ => hk ac)

theorem edits_refuseIf {α : Type} (p : Prop) [Decidable p] (e : Err) (k : Unit → Prog α)
    (note : EditNote Err Flag (Option String)) (hwrote : note.wrote = false)
    (hk : refuseIf p e = .ok () → (flagCell projectID key).Edits (k ()) note) :
    (flagCell projectID key).Edits (check (refuseIf p e) >>= k) note :=
  Cell.edits_check _ k note hwrote (fun _ hok => hk hok)

theorem edits_return {α : Type} (a : α) (note : EditNote Err Flag (Option String))
    (hwrote : note.wrote = true) :
    (flagCell projectID key).Edits (Proc.ret a >>= fun _ => Proc.ret () : Prog Unit) note :=
  hwrote

theorem edits_add (v : Variant) :
    (flagCell projectID key).Edits ((VariantRequest.add v).program ctx projectID key)
      ((VariantRequest.add v).note ctx) := by
  rw [VariantRequest.program, ignore, FlagService.addVariant]
  simp only [Proc.bind_assoc]
  refine edits_require ctx _ _ _ rfl (fun _ => ?_)
  refine edits_flagByKey ctx _ _ (fun f => ?_)
  refine edits_refuseIf _ _ _ _ rfl (fun htype => ?_)
  refine edits_refuseIf _ _ _ _ rfl (fun hnew => ?_)
  refine Cell.edits_check _ _ _ rfl (fun _ hvalid => ?_)
  refine edits_written ctx _ f _ ?_ _ _ (fun note hwrote => edits_return _ note hwrote)
  simp only [VariantRequest.edit, htype, hnew, hvalid]
  rfl

theorem edits_rename (variantKey newName : String) :
    (flagCell projectID key).Edits
      ((VariantRequest.rename variantKey newName).program ctx projectID key)
      ((VariantRequest.rename variantKey newName).note ctx) := by
  rw [VariantRequest.program, ignore, FlagService.renameVariant]
  simp only [Proc.bind_assoc]
  refine edits_require ctx _ _ _ rfl (fun _ => ?_)
  refine edits_flagByKey ctx _ _ (fun f => ?_)
  cases hren : renameFirst variantKey newName f.variants with
  | none => exact Cell.edits_fail _ _ rfl
  | some vs =>
      simp only [Proc.bind_assoc]
      refine Cell.edits_check _ _ _ rfl (fun _ hvalid => ?_)
      refine edits_written ctx _ f _ ?_ _ _ (fun note hwrote => edits_return _ note hwrote)
      simp only [VariantRequest.edit, hren, hvalid]
      rfl

theorem edits_delete (variantKey : String) (force : Bool) :
    (flagCell projectID key).Edits
      ((VariantRequest.delete variantKey force).program ctx projectID key)
      ((VariantRequest.delete variantKey force).note ctx) := by
  rw [VariantRequest.program, ignore, FlagService.deleteVariant]
  simp only [Proc.bind_assoc]
  refine edits_require ctx _ _ _ rfl (fun _ => ?_)
  refine edits_flagByKey ctx _ _ (fun f => ?_)
  refine edits_refuseIf _ _ _ _ rfl (fun htype => ?_)
  refine edits_refuseIf _ _ _ _ rfl (fun hdefault => ?_)
  refine edits_refuseIf _ _ _ _ rfl (fun hlast => ?_)
  refine edits_refuseIf _ _ _ _ rfl (fun hfound => ?_)
  -- The rules are looked at and rewritten while the flag is already in hand.
  refine Cell.edits_aside _ (flagCell_aside ctx (.listRulesByFlag f.id) (by simp [Op.writes])
    (by simp)) _ _ rfl (fun rules => ?_)
  refine edits_refuseIf _ _ _ _ rfl (fun _ => ?_)
  refine Cell.edits_aside _ (upsertPatched_aside ctx _ _ _) _ _ rfl (fun _ => ?_)
  refine Cell.edits_check _ _ _ rfl (fun _ hvalid => ?_)
  refine edits_written ctx _ f _ ?_ _ _ (fun note hwrote => edits_return _ note hwrote)
  simp only [VariantRequest.edit, htype, hdefault, hlast, hfound, hvalid]
  rfl

theorem edits_patch (body : Option Json) :
    (flagCell projectID key).Edits ((VariantRequest.patch body).program ctx projectID key)
      ((VariantRequest.patch body).note ctx) := by
  rw [VariantRequest.program, ignore, FlagHandler.patch, FlagService.getByKey]
  simp only [Proc.bind_assoc]
  refine edits_flagByKey ctx _ _ (fun f => ?_)
  cases hbody : body.bind FlagPatch.decode with
  | none => exact Cell.edits_fail _ _ rfl
  | some b =>
      simp only [FlagService.update, Proc.bind_assoc]
      refine edits_require ctx _ _ _ rfl (fun _ => ?_)
      refine Cell.edits_check _ _ _ rfl (fun _ hvalid => ?_)
      refine edits_written ctx _ f _ ?_ _ _ (fun note hwrote => edits_return _ note hwrote)
      simp only [VariantRequest.edit, hbody, hvalid]
      rfl

/-- Every request writes back an edit of the flag it read, and succeeds when it
    has. -/
theorem VariantRequest.edits (r : VariantRequest) :
    (flagCell projectID key).Edits (r.program ctx projectID key) (r.note ctx) := by
  cases r with
  | add v => exact edits_add ctx v
  | rename variantKey newName => exact edits_rename ctx variantKey newName
  | delete variantKey force => exact edits_delete ctx variantKey force
  | patch body => exact edits_patch ctx body

end Row

/-! ## No lost edit -/

/-- Requests on one flag, each by its own caller. -/
def editorPool (start : World) (projectID key : String) (requests : List (Ctx × VariantRequest)) :
    Pool Err Call Call.Ret World :=
  ⟨start, requests.map (fun r => r.2.program r.1 projectID key)⟩

/-- The requests with the given numbers. -/
def numbered (requests : List (Ctx × VariantRequest)) (order : List Nat) : List VariantRequest :=
  order.filterMap (fun i => (requests[i]?).map Prod.snd)

/-- The stored flag is what the successful requests make of the first one when
    they are applied one after another in some order: every request that
    returned is in it, and none that failed. An added variant that no later
    request in the order removes is stored, under the name given last. -/
def NoLostEdit (projectID key : String) (first : Flag) (requests : List (Ctx × VariantRequest))
    (P : Pool Err Call Call.Ret World) : Prop :=
  ∃ (order : List Nat) (f : Flag), order.Nodup ∧
    (∀ i ∈ order, i < requests.length ∧ ∀ e, P.threads[i]? ≠ some (.fail e)) ∧
    (∀ i, P.threads[i]? = some (.ret ()) → i ∈ order) ∧
    P.shared.store.flagAt projectID key = some f ∧
    editAll (numbered requests order) first = .ok f ∧
    ∀ before v after, numbered requests order = before ++ .add v :: after →
      (∀ r ∈ after, ¬ r.Removes v.key) → ⟨v.key, lastName v.key v.name after⟩ ∈ f.variants

/-- What the request with a number carries along, or would. -/
def noteOf (requests : List (Ctx × VariantRequest)) (i : Nat) :
    EditNote Err Flag (Option String) :=
  match requests[i]? with
  | some r => r.2.note r.1
  | none => { edit := .ok, via := none }

theorem applyAll_numbered (requests : List (Ctx × VariantRequest)) (order : List Nat)
    (f : Flag) :
    Cell.applyAll (fun i => (noteOf requests i).edit) order f =
      editAll (numbered requests order) f := by
  induction order generalizing f with
  | nil => rfl
  | cons i rest ih =>
      rw [Cell.applyAll, List.foldlM_cons, numbered, List.filterMap_cons, noteOf]
      cases hi : requests[i]? with
      | none => exact ih f
      | some r =>
          change (r.2.edit f >>= fun g => Cell.applyAll _ rest g) =
            r.2.edit f >>= fun g => editAll (numbered requests rest) g
          exact congrArg (r.2.edit f >>= ·) (funext ih)

/-- When no request writes a flag that was written since it read it, no edit
    is lost. -/
theorem variant_edits_serial (h : Host) (start : World) (projectID key : String) (first : Flag)
    (hfirst : start.store.flagAt projectID key = some first)
    (requests : List (Ctx × VariantRequest)) (tr : List (Nat × Call))
    (P : Pool Err Call Call.Ret World)
    (hrun : Pool.RunWhile (exec h) (fun _ => False)
      (fun tr _ i c => (flagCell projectID key).OnLatest tr i c)
      (editorPool start projectID key requests) tr P) :
    NoLostEdit projectID key first requests P := by
  have hlen : P.threads.length = requests.length := by
    rw [Pool.runWhile_length (fun _ hp => hp) _ tr P hrun, editorPool, List.length_map]
  have hnotes : ∀ i, (noteOf requests i).seen = none ∧ (noteOf requests i).wrote = false := by
    intro i
    rw [noteOf]
    cases requests[i]? with
    | none => exact ⟨rfl, rfl⟩
    | some r => exact ⟨rfl, rfl⟩
  -- Every request looks, edits and overwrites in the manner the cell rule asks.
  have hstart : Pool.Notes (flagCell projectID key).Edits { edit := .ok, via := none }
      (editorPool start projectID key requests) (noteOf requests) := by
    refine ⟨fun i p hp => ?_, fun i hi => ?_⟩
    · rw [editorPool, List.getElem?_map, Option.map_eq_some_iff] at hp
      rcases hp with ⟨r, hr, rfl⟩
      rw [noteOf, hr]
      exact r.2.edits r.1
    · rw [editorPool, List.length_map] at hi
      rw [noteOf, List.getElem?_eq_none hi]
  rcases Cell.serial (flagCell_lawful h projectID key) (editorPool start projectID key requests)
    (noteOf requests) (fun _ => rfl) (fun i => (hnotes i).1) (fun i => (hnotes i).2) _ hstart hfirst
    rfl tr P hrun with ⟨order, hnodup, hmem, hreturned, f, hf, happly⟩
  rw [applyAll_numbered] at happly
  refine ⟨order, f, hnodup, fun i hi => ?_, hreturned, hf, happly, fun before v after hsplit => ?_⟩
  · rw [← hlen]
    exact hmem i hi
  · rw [hsplit] at happly
    exact editAll_added before after v first f happly

/-- A flag with one variant. -/
def oneVariant : Flag :=
  ⟨"f1", "p1", "theme", "Theme", .string, [⟨"light", "Light"⟩], "light", 0⟩

def variantShop : World where
  store := { projects := [⟨"p1", "Shop", "shop", 0⟩], flags := [oneVariant] }

/-- Two editors who each add a variant. -/
def twoAdditions : List (Ctx × VariantRequest) :=
  [(⟨some ⟨"u1", .editor⟩, none⟩, .add ⟨"dark", "Dark"⟩),
    (⟨some ⟨"u2", .editor⟩, none⟩, .add ⟨"blue", "Blue"⟩)]

/-- The additions in turn. -/
theorem variant_edits_serial_turns :
    NoLostEdit "p1" "theme" oneVariant twoAdditions
      (Pool.follow (exec Host.steady) (editorPool variantShop "p1" "theme" twoAdditions)
        [0, 0, 0, 0, 0, 1, 1, 1, 1, 1]) := by
  have hstart : Pool.RunWhile (exec Host.steady) (fun _ => False)
      (fun tr _ i c => (flagCell "p1" "theme").OnLatest tr i c)
      (editorPool variantShop "p1" "theme" twoAdditions) []
      (editorPool variantShop "p1" "theme" twoAdditions) :=
    Pool.RunWhile.start
  rcases Pool.runWhile_follow _ (fun tr _ i c => decide ((flagCell "p1" "theme").OnLatest tr i c))
    (fun _ _ _ _ htest => of_decide_eq_true htest) [0, 0, 0, 0, 0, 1, 1, 1, 1, 1] [] _ hstart
    (by decide) with ⟨tr, hrun⟩
  exact variant_edits_serial Host.steady variantShop "p1" "theme" oneVariant rfl twoAdditions
    tr _ hrun

/-- Neither addition takes a variant away. -/
theorem twoAdditions_keep (order : List Nat) (k : String) :
    ∀ r ∈ numbered twoAdditions order, ¬ r.Removes k := by
  intro r hr
  rcases List.mem_filterMap.mp hr with ⟨i, _, hi⟩
  rcases Option.map_eq_some_iff.mp hi with ⟨x, hx, rfl⟩
  have hmem : x ∈ twoAdditions := List.mem_of_getElem? hx
  simp only [twoAdditions, List.mem_cons, List.not_mem_nil, or_false] at hmem
  rcases hmem with rfl | rfl
  · exact id
  · exact id

/-- Both additions read the flag before either writes it. Both are
    acknowledged, and only the second variant is stored. -/
theorem variant_edit_lost :
    ¬ ∀ (h : Host) (start : World) (projectID key : String) (first : Flag),
      start.store.flagAt projectID key = some first →
      ∀ (requests : List (Ctx × VariantRequest)) (tr : List (Nat × Call))
        (P : Pool Err Call Call.Ret World),
        Pool.Run (exec h) (fun _ => False) (editorPool start projectID key requests) tr P →
        (∀ p ∈ P.threads, Proc.Done p) → NoLostEdit projectID key first requests P := by
  intro hclaim
  have hthreads : (Pool.follow (exec Host.steady)
      (editorPool variantShop "p1" "theme" twoAdditions)
      [0, 1, 0, 1, 0, 0, 0, 1, 1, 1]).threads = [Proc.ret (), Proc.ret ()] := rfl
  have hstored : ∀ f ∈ (Pool.follow (exec Host.steady)
      (editorPool variantShop "p1" "theme" twoAdditions)
      [0, 1, 0, 1, 0, 0, 0, 1, 1, 1]).shared.store.flagAt "p1" "theme", "dark" ∉ f.variantKeys := by
    decide
  rcases Pool.run_follow (exec Host.steady) (fun _ => False)
    (editorPool variantShop "p1" "theme" twoAdditions) [0, 1, 0, 1, 0, 0, 0, 1, 1, 1] [] _
    Pool.Run.start with ⟨tr, hrun⟩
  have hdone : ∀ p ∈ (Pool.follow (exec Host.steady)
      (editorPool variantShop "p1" "theme" twoAdditions)
      [0, 1, 0, 1, 0, 0, 0, 1, 1, 1]).threads, Proc.Done p := by
    rw [hthreads]
    simp [Proc.Done]
  rcases hclaim Host.steady variantShop "p1" "theme" oneVariant rfl twoAdditions tr _ hrun hdone
    with ⟨order, f, _, _, hreturned, hf, _, hadded⟩
  -- The first addition has its place in the order, and nothing after it removes
  -- what it added.
  have hfirst : 0 ∈ order := hreturned 0 (by rw [hthreads]; rfl)
  rcases List.append_of_mem hfirst with ⟨earlier, later, rfl⟩
  have hdark := hadded (numbered twoAdditions earlier) ⟨"dark", "Dark"⟩
    (numbered twoAdditions later) List.filterMap_append (twoAdditions_keep later "dark")
  exact hstored f hf (List.mem_map_of_mem hdark)

end Cuttlegate
