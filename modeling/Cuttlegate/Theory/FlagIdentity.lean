import Cuttlegate.Lib.Tokens
import Cuttlegate.App.FlagService

/-!
# Stored Flags under Interleaving

Any number of calls to the flag service, interleaved operation by operation.
Every flag row in every state they reach is valid, and a row keeps its id,
project, key, type and creation time for as long as a row with that id exists.

The methods edit the variants of a flag they read some time ago and write them
back whole. What makes a stale write harmless is that it writes only the name,
the variants and the default, all checked together with the type and key of
the flag as it was read; so the check is about the right row as long as the
row with that id still has that type and key. It does, because an id belongs
to one flag forever: ids are drawn fresh, and a creation uses the one it drew
and uses it once (`run_spent`). The invariant is therefore stated over the log
of operations: every row goes back to a flag that was there at the start or
was created since.

## Main definitions

* `Flag.SameIdentity`: Two versions of one flag.
* `FlagEdit`, `FlagCall`, `flagThread`: The calls.
* `rowsEver`, `Known`: The flags that ever were, and a version of one.
* `FlagInv`: The invariant over the world and the log.
* `idLedger`: Drawing an id and creating a flag under it.

## Theorems

* `safely_update`: A checked write of a known flag keeps the invariant.
* `flagThread_safe`: So does every call, however it is interleaved.
* `flagThread_spends`: Every call creates under ids it drew.
* `stored_flags`: Every stored flag is valid and keeps its identity.
-/

namespace Cuttlegate

/-- Two versions of one flag. -/
structure Flag.SameIdentity (f g : Flag) : Prop where
  id : f.id = g.id
  projectID : f.projectID = g.projectID
  key : f.key = g.key
  type : f.type = g.type
  createdAt : f.createdAt = g.createdAt

theorem Flag.SameIdentity.symm (f g : Flag) (h : f.SameIdentity g) : g.SameIdentity f :=
  ⟨h.id.symm, h.projectID.symm, h.key.symm, h.type.symm, h.createdAt.symm⟩

theorem Flag.SameIdentity.trans (f g k : Flag) (hfg : f.SameIdentity g) (hgk : g.SameIdentity k) :
    f.SameIdentity k :=
  ⟨hfg.id.trans hgk.id, hfg.projectID.trans hgk.projectID, hfg.key.trans hgk.key,
    hfg.type.trans hgk.type, hfg.createdAt.trans hgk.createdAt⟩

/-- A write keeps the identity of the row. -/
theorem Flag.overwrite_sameIdentity (f new : Flag) : (f.overwrite new).SameIdentity f :=
  ⟨rfl, rfl, rfl, rfl, rfl⟩

/-- The check looks at nothing but the type, the key, the variants, the default
    and the name. -/
theorem Flag.WellFormed.congr (f g : Flag) (htype : f.type = g.type) (hkey : f.key = g.key)
    (hvariants : f.variants = g.variants) (hdefault : f.defaultVariantKey = g.defaultVariantKey)
    (hname : f.name = g.name) (h : g.WellFormed) : f.WellFormed := by
  have hkeys : f.variantKeys = g.variantKeys := by rw [variantKeys, hvariants, variantKeys]
  refine ⟨?_, ?_, ?_, ?_, ?_, ?_, ?_, ?_⟩
  · rw [htype]
    exact h.type
  · rw [hkey]
    exact h.keyLength
  · rw [hkey]
    exact h.keyGrammar
  · rw [hvariants]
    exact h.variants
  · rw [hkeys]
    exact h.distinct
  · rw [htype, hvariants, hkeys]
    exact h.bool
  · rw [hdefault, hkeys]
    exact h.default
  · rw [hname]
    exact h.name

/-! ## The calls -/

/-- An arbitrary edit of the three editable fields of a flag. -/
structure FlagEdit where
  name : Flag → String
  variants : Flag → List Variant
  defaultVariantKey : Flag → String

def FlagEdit.apply (edit : FlagEdit) (f : Flag) : Flag :=
  { f with name := edit.name f, variants := edit.variants f
           defaultVariantKey := edit.defaultVariantKey f }

inductive FlagCall where
  | create (f : Flag)
  | update (projectID key : String) (edit : FlagEdit)
  | addVariant (projectID flagKey : String) (v : Variant)
  | renameVariant (projectID flagKey variantKey newName : String)
  | deleteVariant (projectID flagKey variantKey : String) (force : Bool)
  | deleteByKey (projectID key : String)

/-- What a call runs. An update is fed with the flag as it was read, edited. -/
def FlagCall.program (ctx : Ctx) : FlagCall → Prog Unit
  | .create f => FlagService.create ctx f >>= fun _ => Proc.ret ()
  | .update p k edit => FlagService.getByKey ctx p k >>= fun f =>
      FlagService.update ctx (edit.apply f)
  | .addVariant p k v => FlagService.addVariant ctx p k v >>= fun _ => Proc.ret ()
  | .renameVariant p k v n => FlagService.renameVariant ctx p k v n >>= fun _ => Proc.ret ()
  | .deleteVariant p k v force => FlagService.deleteVariant ctx p k v force >>= fun _ => Proc.ret ()
  | .deleteByKey p k => FlagService.deleteByKey ctx p k

/-- A thread is a call by anybody. -/
def flagThread (p : Prog Unit) : Prop := ∃ ctx c, p = FlagCall.program ctx c

/-! ## The flags that ever were -/

/-- The flag an operation creates, if it creates one. -/
def created (c : Call) : Option Flag :=
  match c.op with
  | .createFlag f => some f
  | _ => none

/-- The flags there were at the start and those created since. -/
def rowsEver (start : World) (log : List Call) : List Flag :=
  start.store.flags ++ log.filterMap created

/-- No two of them share an id. -/
def OneEach (start : World) (log : List Call) : Prop :=
  ((rowsEver start log).map (·.id)).Nodup

/-- The flag is a version of one that was there or was created. -/
def Known (start : World) (f : Flag) (log : List Call) : Prop :=
  OneEach start log → ∃ c ∈ rowsEver start log, f.SameIdentity c

/-- Every row is valid and goes back to a flag that was there or was
    created. -/
def FlagInv (start : World) (s : World × List Call) : Prop :=
  OneEach start s.2 → ∀ f ∈ s.1.store.flags, f.WellFormed ∧
    ∃ c ∈ rowsEver start s.2, f.SameIdentity c

/-- The log only grows. -/
def Grows (s s' : World × List Call) : Prop := ∃ more, s'.2 = s.2 ++ more

theorem Grows.refl (s : World × List Call) : Grows s s := ⟨[], by simp⟩

theorem Grows.trans (s t u : World × List Call) (h₁ : Grows s t) (h₂ : Grows t u) : Grows s u := by
  rcases h₁ with ⟨m₁, h₁⟩
  rcases h₂ with ⟨m₂, h₂⟩
  exact ⟨m₁ ++ m₂, by rw [h₂, h₁, List.append_assoc]⟩

section Flags

variable (start : World)

theorem rowsEver_append (log more : List Call) :
    rowsEver start (log ++ more) = rowsEver start log ++ more.filterMap created := by
  rw [rowsEver, rowsEver, List.filterMap_append, List.append_assoc]

/-- What was so far one flag each still was before. -/
theorem OneEach.before (log more : List Call) (h : OneEach start (log ++ more)) :
    OneEach start log := by
  unfold OneEach at h ⊢
  rw [rowsEver_append, List.map_append, List.nodup_append] at h
  exact h.1

theorem Known.grows (f : Flag) (s t : World × List Call) (hst : Grows s t)
    (h : Known start f s.2) : Known start f t.2 := by
  rcases hst with ⟨more, hmore⟩
  rw [hmore]
  intro hone
  rcases h (hone.before start s.2 more) with ⟨c, hc, hsame⟩
  rw [rowsEver_append]
  exact ⟨c, List.mem_append_left _ hc, hsame⟩

/-- Two versions with one id are versions of one flag. -/
theorem sameIdentity_of_id (log : List Call) (hone : OneEach start log) (f g c d : Flag)
    (hc : c ∈ rowsEver start log) (hfc : f.SameIdentity c) (hd : d ∈ rowsEver start log)
    (hgd : g.SameIdentity d) (hid : f.id = g.id) : f.SameIdentity g := by
  have hcd : c = d := by
    refine List.inj_on_of_nodup_map hone hc hd ?_
    rw [← hfc.id, ← hgd.id, hid]
  rw [hcd] at hfc
  exact hfc.trans _ _ _ (hgd.symm)

/-! ## What each operation does to the invariant -/

variable (h : Host)

/-- An operation that adds no row and rewrites none. -/
def Harmless (c : Call) : Prop := .flags ∉ c.op.writes ∨ ∃ id, c.op = .deleteFlag id

theorem Harmless.created (c : Call) (hc : Harmless c) : created c = none := by
  rcases c with ⟨tenant, op⟩
  rcases hc with hc | ⟨id, hid⟩
  · cases op <;> first | rfl | exact absurd hc (by simp [Op.writes])
  · rw [show op = .deleteFlag id from hid]
    rfl

theorem Harmless.rows (c : Call) (hc : Harmless c) (w : World) :
    ∀ f ∈ (exec h c w).2.store.flags, f ∈ w.store.flags := by
  intro f hf
  rcases hc with hc | ⟨id, hid⟩
  · have hsame : (exec h c w).2.store.flags = w.store.flags := exec_frame h c w .flags hc
    rw [hsame] at hf
    exact hf
  · rcases c with ⟨tenant, op⟩
    rw [show op = .deleteFlag id from hid] at hf
    rcases exec_cases h ⟨tenant, .deleteFlag id⟩ w with ⟨e, he⟩ | ⟨a, w', hp, he⟩
    · rw [he] at hf
      exact hf
    · rw [he] at hf
      rcases w.onStore_affect w' _ _ a hp with ⟨_, rfl⟩
      exact List.mem_of_mem_filter hf

/-- Every operation extends the log. -/
theorem grows_logged (c : Call) (s : World × List Call) : Grows s (logged (exec h) c s).2 :=
  ⟨[c], rfl⟩

/-- Harmless operations keep the invariant. -/
theorem Harmless.keeps (c : Call) (s : World × List Call) (hc : Harmless c) (hI : FlagInv start s) :
    FlagInv start (logged (exec h) c s).2 ∧ Grows s (logged (exec h) c s).2 := by
  refine ⟨fun hone f hf => ?_, grows_logged h c s⟩
  rcases hI (hone.before start s.2 [c]) f (hc.rows h c s.1 f hf) with ⟨hwf, d, hd, hsame⟩
  refine ⟨hwf, d, ?_, hsame⟩
  change d ∈ rowsEver start (s.2 ++ [c])
  rw [rowsEver_append]
  exact List.mem_append_left _ hd

/-- The obligation on a program over the log. -/
def Safely {α : Type} (Q : α → World × List Call → Prop) (p : Prog α) (s : World × List Call) :
    Prop :=
  Proc.Safe (logged (exec h)) (FlagInv start) Grows Q p s

variable {α β : Type} {S : β → World × List Call → Prop}

theorem safely_harmless (p : Prog α) (hp : Proc.Uses Harmless p) (s : World × List Call) :
    Safely start h (fun _ _ => True) p s :=
  Proc.safe_of_uses (fun c s hc hI => hc.keeps start h c s hI) p hp s

theorem safely_bind {Q : α → World × List Call → Prop} (x : Prog α) (f : α → Prog β)
    (s : World × List Call) (hx : Safely start h Q x s)
    (hf : ∀ a s', Grows s s' → Q a s' → Safely start h S (f a) s') :
    Safely start h S (x >>= f) s :=
  Proc.safe_bind Grows.refl Grows.trans x f s hx (fun a s' hgrow _ hQ => hf a s' hgrow hQ)

/-- A harmless step before the rest. -/
theorem safely_step (x : Prog α) (f : α → Prog β) (s : World × List Call)
    (hx : Proc.Uses Harmless x) (hf : ∀ a s', Grows s s' → Safely start h S (f a) s') :
    Safely start h S (x >>= f) s :=
  safely_bind start h x f s (safely_harmless start h x hx s) (fun a s' hgrow _ => hf a s' hgrow)

theorem safely_check (x : Except Err α) (f : α → Prog β) (s : World × List Call)
    (hf : ∀ a, x = .ok a → Safely start h S (f a) s) : Safely start h S (check x >>= f) s := by
  cases x with
  | error e => trivial
  | ok a => exact hf a rfl

theorem safely_require (ctx : Ctx) (min : Role) (f : AuthContext → Prog β) (s : World × List Call)
    (hf : ∀ ac, Safely start h S (f ac) s) : Safely start h S (ctx.require min >>= f) s :=
  safely_check start h (requireRole ctx.auth min) f s (fun ac _ => hf ac)

theorem harmless_of_within {ts : List Tbl} (hts : Tbl.flags ∉ ts) (p : Prog α) (hp : Within ts p) :
    Proc.Uses Harmless p :=
  Proc.uses_mono (fun _ hc => .inl (fun hmem => hts (hc hmem))) p hp

theorem harmless_read (ctx : Ctx) (op : Op) (hop : op.writes = []) :
    Proc.Uses Harmless (ctx.call op) := by
  have hread : Within [] (ctx.call op) := within_read ctx op hop
  exact harmless_of_within List.not_mem_nil _ hread

theorem harmless_of_deletesOnly (p : Prog α) (hp : Proc.Uses DeletesOnly p) :
    Proc.Uses Harmless p := by
  refine Proc.uses_mono (fun c hc => ?_) p hp
  rcases hc with hin | hdelete
  · exact .inl (fun hmem => absurd (hin hmem) (by decide))
  · exact .inr hdelete

theorem harmless_audited (ctx : Ctx) (entry : AuditEntry) (a : α) :
    Proc.Uses Harmless (recordAudit ctx entry >>= fun _ => Proc.ret a) :=
  harmless_of_deletesOnly _ (deletesOnly_audited ctx entry a)

/-- A flag that was read is a known one, from then on. -/
theorem safely_flagByKey (ctx : Ctx) (projectID key : String) (s : World × List Call) :
    Safely start h (fun f s' => Known start f s'.2) (ctx.call (.flagByKey projectID key)) s := by
  refine Proc.safe_call (⟨ctx.tenant, .flagByKey projectID key⟩ : Call) s (fun s' _ hI => ?_)
  rcases Harmless.keeps start h ⟨ctx.tenant, .flagByKey projectID key⟩ s' (.inl List.not_mem_nil) hI
    with ⟨hI', hgrow⟩
  refine ⟨hI', hgrow, fun f hf t ht _ => ?_⟩
  rcases exec_ok h ⟨ctx.tenant, .flagByKey projectID key⟩ s'.1 _ f (Prod.ext hf rfl)
    with ⟨w₁, hp, _⟩
  have hmem := List.mem_of_find?_eq_some (World.onStore_queryRow _ _ _ _ hp).1
  have hknown : Known start f s'.2 := fun hone => (hI hone f hmem).2
  exact hknown.grows start f s' t (Grows.trans _ _ _ hgrow ht)

/-- Creating a flag that passed its check keeps the invariant. -/
theorem safely_create (ctx : Ctx) (f : Flag) (hf : f.WellFormed) (s : World × List Call) :
    Safely start h (fun _ _ => True) (ctx.call (.createFlag f)) s := by
  refine Proc.safe_call (⟨ctx.tenant, .createFlag f⟩ : Call) s (fun s' _ hI => ?_)
  refine ⟨fun hone g hg => ?_, grows_logged h _ s', fun _ _ _ _ _ => trivial⟩
  have hlog : rowsEver start (s'.2 ++ [⟨ctx.tenant, .createFlag f⟩]) =
      rowsEver start s'.2 ++ [f] := by
    rw [rowsEver_append]
    rfl
  -- The rows are those from before, and perhaps the new one.
  have hrows : g ∈ s'.1.store.flags ∨ g = f := by
    rcases exec_cases h ⟨ctx.tenant, .createFlag f⟩ s'.1 with ⟨e, he⟩ | ⟨a, w', hp, he⟩
    · rw [logged, he] at hg
      exact .inl hg
    · rw [logged, he] at hg
      rcases World.onStore_ok _ _ _ _ hp with ⟨s₁, hs₁, rfl⟩
      rcases createFlag_ok _ _ _ _ _ hs₁ with ⟨_, _, _, rfl⟩
      rcases List.mem_append.mp hg with hold | hnew
      · exact .inl hold
      · exact .inr (List.mem_singleton.mp hnew)
  change g.WellFormed ∧ ∃ c ∈ rowsEver start (s'.2 ++ [⟨ctx.tenant, .createFlag f⟩]),
    g.SameIdentity c
  rw [hlog]
  rcases hrows with hold | rfl
  · rcases hI (hone.before start s'.2 _) g hold with ⟨hwf, d, hd, hsame⟩
    exact ⟨hwf, d, List.mem_append_left _ hd, hsame⟩
  · exact ⟨hf, g, List.mem_append_right _ (List.mem_singleton.mpr rfl), rfl, rfl, rfl, rfl, rfl⟩

/-- Writing back a known flag that passed its check keeps the invariant: the
    row it lands on has the type and key the check was about. -/
theorem safely_update (ctx : Ctx) (new : Flag) (hnew : new.WellFormed) (s : World × List Call)
    (hknown : Known start new s.2) :
    Safely start h (fun _ _ => True) (ctx.call (.updateFlag new)) s := by
  refine Proc.safe_call (⟨ctx.tenant, .updateFlag new⟩ : Call) s (fun s' hgrow hI => ?_)
  refine ⟨fun hone g hg => ?_, grows_logged h _ s', fun _ _ _ _ _ => trivial⟩
  -- An update enters no row of its own into the history.
  have hlog : rowsEver start (s'.2 ++ [⟨ctx.tenant, .updateFlag new⟩]) = rowsEver start s'.2 := by
    rw [rowsEver_append]
    exact List.append_nil _
  change g.WellFormed ∧ ∃ c ∈ rowsEver start (s'.2 ++ [⟨ctx.tenant, .updateFlag new⟩]),
    g.SameIdentity c
  rw [hlog]
  have hone' := hone.before start s'.2 [_]
  rcases exec_cases h ⟨ctx.tenant, .updateFlag new⟩ s'.1 with ⟨e, he⟩ | ⟨a, w', hp, he⟩
  · rw [logged, he] at hg
    exact hI hone' g hg
  rw [logged, he] at hg
  rcases World.onStore_affect _ _ _ _ _ hp with ⟨_, rfl⟩
  rcases List.mem_map.mp hg with ⟨r, hr, hgr⟩
  rcases hI hone' r hr with ⟨hwf, c, hc, hrc⟩
  -- The row hit has the id the caller read, hence the identity the caller read.
  by_cases hrow : Conn.isFlagRow ⟨ctx.tenant, h.rls⟩ new.id r = true
  · rw [if_pos hrow] at hgr
    have hid : r.id = new.id := by
      simp only [Conn.isFlagRow, Bool.and_eq_true, beq_iff_eq] at hrow
      exact hrow.2
    rcases hknown.grows start new s s' hgrow hone' with ⟨d, hd, hnd⟩
    have hsame := sameIdentity_of_id start s'.2 hone' r new c d hc hrc hd hnd hid
    rw [← hgr]
    refine ⟨?_, c, hc, (r.overwrite_sameIdentity new).trans _ _ _ hrc⟩
    exact Flag.WellFormed.congr _ new hsame.type hsame.key rfl rfl rfl hnew
  · rw [if_neg hrow] at hgr
    rw [← hgr]
    exact ⟨hwf, c, hc, hrc⟩

/-! ## The calls are safe -/

/-- The tail of an edit: the write, an audit event, the answer. -/
theorem safely_write_back (ctx : Ctx) (new : Flag) (hnew : new.validate = .ok ())
    (s : World × List Call) (hknown : Known start new s.2) (entry : AuditEntry) (a : α) :
    Safely start h (fun _ _ => True)
      (ctx.call (.updateFlag new) >>= fun _ =>
        recordAudit ctx entry >>= fun _ => Proc.ret a) s := by
  refine safely_bind start h _ _ s (safely_update start h ctx new ?_ s hknown) (fun _ s' _ _ => ?_)
  · exact (Flag.validate_ok_iff new).mp hnew
  · exact safely_harmless start h _ (harmless_audited ctx entry a) s'

/-- An edited version of a known flag is known. -/
theorem Known.edited (f g : Flag) (log : List Call) (hsame : g.SameIdentity f)
    (hf : Known start f log) : Known start g log := by
  intro hone
  rcases hf hone with ⟨c, hc, hfc⟩
  exact ⟨c, hc, hsame.trans _ _ _ hfc⟩

theorem FlagService.create_safe (ctx : Ctx) (f : Flag) (s : World × List Call) :
    Safely start h (fun _ _ => True) (FlagService.create ctx f) s := by
  refine safely_require start h ctx _ _ s (fun _ => ?_)
  refine safely_check start h _ _ s (fun _ hvalid => ?_)
  refine safely_step start h _ _ s (harmless_read ctx _ rfl) (fun id s₁ _ => ?_)
  refine safely_step start h _ _ s₁ (harmless_read ctx _ rfl) (fun now s₂ _ => ?_)
  refine safely_bind start h _ _ s₂ (safely_create start h ctx _ ?_ s₂) (fun _ s₃ _ _ => ?_)
  · exact Flag.WellFormed.congr _ f rfl rfl rfl rfl rfl ((Flag.validate_ok_iff f).mp hvalid)
  · exact safely_harmless start h _
      (harmless_of_deletesOnly _ (FlagService.enterEnvironments_uses ctx _)) s₃

theorem FlagService.update_safe (ctx : Ctx) (f : Flag) (s : World × List Call)
    (hknown : Known start f s.2) :
    Safely start h (fun _ _ => True) (FlagService.update ctx f) s := by
  refine safely_require start h ctx _ _ s (fun _ => ?_)
  refine safely_check start h _ _ s (fun _ hvalid => ?_)
  refine safely_bind start h _ _ s (safely_update start h ctx f ?_ s hknown) (fun _ s' _ _ => ?_)
  · exact (Flag.validate_ok_iff f).mp hvalid
  · exact safely_harmless start h _
      (harmless_of_within (by decide) _ (recordAudit_within ctx _)) s'

theorem FlagService.addVariant_safe (ctx : Ctx) (projectID flagKey : String) (v : Variant)
    (s : World × List Call) :
    Safely start h (fun _ _ => True) (FlagService.addVariant ctx projectID flagKey v) s := by
  refine safely_require start h ctx _ _ s (fun _ => ?_)
  refine safely_bind start h _ _ s (safely_flagByKey start h ctx _ _ s) (fun f s₁ _ hknown => ?_)
  refine safely_check start h _ _ s₁ (fun _ _ => safely_check start h _ _ s₁ (fun _ _ => ?_))
  refine safely_check start h _ _ s₁ (fun _ hvalid => ?_)
  exact safely_write_back start h ctx _ hvalid s₁
    (hknown.edited start f _ _ ⟨rfl, rfl, rfl, rfl, rfl⟩) _ _

theorem FlagService.renameVariant_safe (ctx : Ctx) (projectID flagKey variantKey newName : String)
    (s : World × List Call) :
    Safely start h (fun _ _ => True)
      (FlagService.renameVariant ctx projectID flagKey variantKey newName) s := by
  refine safely_require start h ctx _ _ s (fun _ => ?_)
  refine safely_bind start h _ _ s (safely_flagByKey start h ctx _ _ s) (fun f s₁ _ hknown => ?_)
  cases renameFirst variantKey newName f.variants with
  | none => trivial
  | some variants =>
      refine safely_check start h _ _ s₁ (fun _ hvalid => ?_)
      exact safely_write_back start h ctx _ hvalid s₁
        (hknown.edited start f _ _ ⟨rfl, rfl, rfl, rfl, rfl⟩) _ _

theorem FlagService.deleteVariant_safe (ctx : Ctx) (projectID flagKey variantKey : String)
    (force : Bool) (s : World × List Call) :
    Safely start h (fun _ _ => True)
      (FlagService.deleteVariant ctx projectID flagKey variantKey force) s := by
  refine safely_require start h ctx _ _ s (fun _ => ?_)
  refine safely_bind start h _ _ s (safely_flagByKey start h ctx _ _ s) (fun f s₁ _ hknown => ?_)
  refine safely_check start h _ _ s₁ (fun _ _ => safely_check start h _ _ s₁ (fun _ _ => ?_))
  refine safely_check start h _ _ s₁ (fun _ _ => safely_check start h _ _ s₁ (fun _ _ => ?_))
  refine safely_step start h _ _ s₁ (harmless_read ctx _ rfl) (fun rules s₂ h₁₂ => ?_)
  refine safely_check start h _ _ s₂ (fun _ _ => ?_)
  refine safely_step start h _ _ s₂ ?_ (fun _ s₃ h₂₃ => ?_)
  · exact harmless_of_within (by decide) _ (upsertPatched_within ctx _ _ _)
  refine safely_check start h _ _ s₃ (fun _ hvalid => ?_)
  have hknown₃ := hknown.grows start f s₁ s₃ (Grows.trans _ _ _ h₁₂ h₂₃)
  exact safely_write_back start h ctx _ hvalid s₃
    (hknown₃.edited start f _ _ ⟨rfl, rfl, rfl, rfl, rfl⟩) _ _

/-- Every call keeps the invariant, whatever runs between its operations. -/
theorem flagThread_safe (p : Prog Unit) (hp : flagThread p) (s : World × List Call) :
    Safely start h (fun _ _ => True) p s := by
  rcases hp with ⟨ctx, c, rfl⟩
  have hend : ∀ (γ : Type) (x : Prog γ), Safely start h (fun _ _ => True) x s →
      Safely start h (fun _ _ => True) (x >>= fun _ => Proc.ret ()) s := fun γ x hx =>
    safely_bind start h x _ s hx (fun _ _ _ _ _ _ _ => trivial)
  cases c with
  | create f => exact hend _ _ (FlagService.create_safe start h ctx f s)
  | update p k edit =>
      refine safely_bind start h _ _ s (safely_flagByKey start h ctx p k s)
        (fun f s₁ _ hknown => ?_)
      exact FlagService.update_safe start h ctx _ s₁
        (hknown.edited start f _ _ ⟨rfl, rfl, rfl, rfl, rfl⟩)
  | addVariant p k v => exact hend _ _ (FlagService.addVariant_safe start h ctx p k v s)
  | renameVariant p k v n =>
      exact hend _ _ (FlagService.renameVariant_safe start h ctx p k v n s)
  | deleteVariant p k v force =>
      exact hend _ _ (FlagService.deleteVariant_safe start h ctx p k v force s)
  | deleteByKey p k =>
      exact safely_harmless start h _
        (harmless_of_deletesOnly _ (FlagService.deleteByKey_uses ctx p k)) s

end Flags

/-! ## Ids are drawn once and used once -/

/-- Drawing an id grants it, and creating a flag spends the id of the flag. -/
def idLedger : Ledger Call Call.Ret String where
  grants := fun c a => match c, a with
    | ⟨_, .newUUID⟩, id => some id
    | _, _ => none
  spends := fun c => (created c).map (·.id)

/-- The ids in use at the start, and those drawn since the count began. -/
def Issued (h : Host) (start w : World) (id : String) : Prop :=
  (∃ f ∈ start.store.flags, f.id = id) ∨ ∃ n < w.calls, h.newUUID n = some id

/-- An operation that creates no flag. -/
def NoCreate (c : Call) : Prop := idLedger.spends c = none

theorem Harmless.noCreate (c : Call) (hc : Harmless c) : NoCreate c := by
  change (Cuttlegate.created c).map (·.id) = none
  rw [hc.created]
  rfl

/-- Drawing never gives an id twice. -/
theorem idLedger_fresh (h : Host) (start : World)
    (hdraw : ∀ n m id, h.newUUID n = some id → h.newUUID m = some id → n = m)
    (hnew : ∀ f ∈ start.store.flags, ∀ n, h.newUUID n ≠ some f.id) :
    idLedger.Fresh (exec h) (Issued h start) := by
  refine ⟨fun c w id hid => ?_, fun c w a id ha hgrant => ?_⟩
  · rcases hid with hstart | ⟨n, hn, hid⟩
    · exact .inl hstart
    · refine .inr ⟨n, ?_, hid⟩
      rw [exec_calls]
      omega
  -- Only a draw grants an id, and the drawn one is that of its call number.
  · have hdrawn : h.newUUID w.calls = some id := by
      rcases c with ⟨tenant, op⟩
      cases op <;> simp only [idLedger, reduceCtorEq, Option.some.injEq] at hgrant
      rcases exec_ok h ⟨tenant, .newUUID⟩ w _ a (Prod.ext ha rfl) with ⟨w₁, hp, _⟩
      rw [← hgrant]
      exact (World.draw_ok _ _ _ _ hp).1
    refine ⟨?_, .inr ⟨w.calls, ?_, hdrawn⟩⟩
    · rintro (⟨f, hf, hid⟩ | ⟨n, hn, hid⟩)
      · rw [← hid] at hdrawn
        exact hnew f hf w.calls hdrawn
      · have hsame := hdraw n w.calls id hid hdrawn
        omega
    · rw [exec_calls]
      omega

theorem noCreate_of_harmless {α : Type} (p : Prog α) (hp : Proc.Uses Harmless p) :
    Proc.Uses NoCreate p :=
  Proc.uses_mono (fun c hc => hc.noCreate c) p hp

/-- Creating a flag uses the id it drew, once. -/
theorem FlagService.create_spends (ctx : Ctx) (f : Flag) (held : Set String) :
    Proc.Follows (idLedger.discipline Err) (FlagService.create ctx f) held := by
  refine Proc.spends_bind _ _ held (Proc.uses_ofExcept _) (fun _ => ?_)
  refine Proc.spends_bind _ _ held (Proc.uses_ofExcept _) (fun _ => ?_)
  refine Proc.spends_grant (L := idLedger) ⟨ctx.tenant, .newUUID⟩ _ held rfl (fun id => ?_)
  refine Proc.spends_grant (L := idLedger) ⟨ctx.tenant, .now⟩ _ _ rfl (fun now => ?_)
  refine Proc.spends_pay (L := idLedger) ⟨ctx.tenant, .createFlag _⟩ _ _ (fun t ht => ?_)
    (fun _ => noCreate_of_harmless _
      (harmless_of_deletesOnly _ (FlagService.enterEnvironments_uses ctx _)))
  exact .inl (.inr ht)

/-- The tail of an edit creates nothing. -/
theorem noCreate_write_back {α : Type} (ctx : Ctx) (new : Flag) (entry : AuditEntry) (a : α) :
    Proc.Uses NoCreate
      (ctx.call (.updateFlag new) >>= fun _ => recordAudit ctx entry >>= fun _ => Proc.ret a) := by
  refine Proc.uses_bind _ _ ?_ (fun _ => noCreate_of_harmless _ (harmless_audited ctx entry a))
  exact (Proc.uses_call (⟨ctx.tenant, .updateFlag new⟩ : Call)).mpr rfl

/-- An edit reads a flag and creates nothing. -/
theorem noCreate_edit {α : Type} (ctx : Ctx) (projectID flagKey : String) (k : Flag → Prog α)
    (hk : ∀ f, Proc.Uses NoCreate (k f)) :
    Proc.Uses NoCreate (ctx.require .editor >>= fun _ =>
      ctx.call (.flagByKey projectID flagKey) >>= k) := by
  refine Proc.uses_bind _ _ (Proc.uses_ofExcept _) (fun _ => ?_)
  exact Proc.uses_bind _ _ (noCreate_of_harmless _ (harmless_read ctx _ rfl)) hk

theorem noCreate_check {α β : Type} (x : Except Err α) (k : α → Prog β)
    (hk : ∀ a, Proc.Uses NoCreate (k a)) : Proc.Uses NoCreate (check x >>= k) :=
  Proc.uses_bind _ _ (Proc.uses_ofExcept x) hk

theorem FlagService.addVariant_noCreate (ctx : Ctx) (projectID flagKey : String) (v : Variant) :
    Proc.Uses NoCreate (FlagService.addVariant ctx projectID flagKey v) := by
  refine noCreate_edit ctx _ _ _ (fun f => noCreate_check _ _ (fun _ => ?_))
  refine noCreate_check _ _ (fun _ => noCreate_check _ _ (fun _ => ?_))
  exact noCreate_write_back ctx _ _ _

theorem FlagService.renameVariant_noCreate (ctx : Ctx)
    (projectID flagKey variantKey newName : String) :
    Proc.Uses NoCreate
      (FlagService.renameVariant ctx projectID flagKey variantKey newName) := by
  refine noCreate_edit ctx _ _ _ (fun f => ?_)
  cases renameFirst variantKey newName f.variants with
  | none => trivial
  | some variants => exact noCreate_check _ _ (fun _ => noCreate_write_back ctx _ _ _)

theorem FlagService.deleteVariant_noCreate (ctx : Ctx) (projectID flagKey variantKey : String)
    (force : Bool) :
    Proc.Uses NoCreate
      (FlagService.deleteVariant ctx projectID flagKey variantKey force) := by
  refine noCreate_edit ctx _ _ _ (fun f => noCreate_check _ _ (fun _ => ?_))
  refine noCreate_check _ _ (fun _ => noCreate_check _ _ (fun _ => ?_))
  refine noCreate_check _ _ (fun _ => ?_)
  refine Proc.uses_bind _ _ (noCreate_of_harmless _ (harmless_read ctx _ rfl)) (fun rules => ?_)
  refine noCreate_check _ _ (fun _ => Proc.uses_bind _ _ ?_ (fun _ => ?_))
  · exact noCreate_of_harmless _
      (harmless_of_within (by decide) _ (upsertPatched_within ctx _ _ _))
  · exact noCreate_check _ _ (fun _ => noCreate_write_back ctx _ _ _)

theorem FlagService.update_noCreate (ctx : Ctx) (f : Flag) :
    Proc.Uses NoCreate (FlagService.update ctx f) := by
  refine Proc.uses_bind _ _ (Proc.uses_ofExcept _) (fun _ => noCreate_check _ _ (fun _ => ?_))
  refine Proc.uses_bind _ _ ?_ (fun _ => ?_)
  · exact (Proc.uses_call (⟨ctx.tenant, .updateFlag f⟩ : Call)).mpr rfl
  · exact noCreate_of_harmless _ (harmless_of_within (by decide) _ (recordAudit_within ctx _))

/-- Every call creates flags only under ids it drew. -/
theorem flagThread_spends (p : Prog Unit) (hp : flagThread p) :
    Proc.Follows (idLedger.discipline Err) p ∅ := by
  rcases hp with ⟨ctx, c, rfl⟩
  have hedit : ∀ (γ : Type) (x : Prog γ), Proc.Uses NoCreate x →
      Proc.Follows (idLedger.discipline Err) (x >>= fun _ => Proc.ret ()) ∅ := fun γ x hx =>
    Proc.spends_bind x _ ∅ hx (fun _ => trivial)
  cases c with
  | create f =>
      exact Proc.follows_then _ _ ∅ (FlagService.create_spends ctx f ∅) (fun _ _ => trivial)
  | update p k edit =>
      refine Proc.spends_bind _ _ ∅ (noCreate_of_harmless _ (harmless_read ctx _ rfl)) (fun f => ?_)
      exact Proc.spends_of_uses _ ∅ (FlagService.update_noCreate ctx _)
  | addVariant p k v => exact hedit _ _ (FlagService.addVariant_noCreate ctx p k v)
  | renameVariant p k v n => exact hedit _ _ (FlagService.renameVariant_noCreate ctx p k v n)
  | deleteVariant p k v force =>
      exact hedit _ _ (FlagService.deleteVariant_noCreate ctx p k v force)
  | deleteByKey p k =>
      exact Proc.spends_of_uses _ ∅ (noCreate_of_harmless _
        (harmless_of_deletesOnly _ (FlagService.deleteByKey_uses ctx p k)))

/-! ## Every run -/

section Runs

variable (h : Host) (start : World)

/-- In every run each id belongs to one flag. -/
theorem run_oneEach (hdraw : ∀ n m id, h.newUUID n = some id → h.newUUID m = some id → n = m)
    (hnew : ∀ f ∈ start.store.flags, ∀ n, h.newUUID n ≠ some f.id)
    (hkeys : (start.store.flags.map (·.id)).Nodup) (tr : List (Nat × Call))
    (P : Pool Err Call Call.Ret World) (hrun : Pool.Run (exec h) flagThread ⟨start, []⟩ tr P) :
    OneEach start (tr.map Prod.snd) := by
  rcases Ledger.run_spent flagThread (idLedger_fresh h start hdraw hnew) flagThread_spends
      start tr P
    hrun with ⟨honce, hfresh⟩
  have hspent : ((tr.map Prod.snd).filterMap created).map (·.id) = idLedger.spent tr := by
    rw [List.filterMap_map, List.map_filterMap]
    rfl
  unfold OneEach rowsEver
  rw [List.map_append, hspent, List.nodup_append]
  refine ⟨hkeys, honce, fun a ha b hb hab => ?_⟩
  rcases List.mem_map.mp ha with ⟨f, hf, hid⟩
  exact hfresh b hb (.inl ⟨f, hf, hid.trans hab⟩)

/-- In every run the rows are valid and go back to flags that were there or
    were created. -/
theorem run_flagInv (hvalid : ∀ f ∈ start.store.flags, f.WellFormed) (tr : List (Nat × Call))
    (P : Pool Err Call Call.Ret World) (hrun : Pool.Run (exec h) flagThread ⟨start, []⟩ tr P) :
    FlagInv start (P.shared, tr.map Prod.snd) := by
  have hstart : FlagInv start (start, []) := fun _ f hf =>
    ⟨hvalid f hf, f, List.mem_append_left _ hf, rfl, rfl, rfl, rfl, rfl⟩
  refine (Pool.run_safe (logged (exec h)) flagThread (FlagInv start) Grows Grows.refl Grows.trans
    (fun p s hp _ => flagThread_safe start h p hp s) ⟨(start, []), []⟩ hstart
    (fun p hp => absurd hp List.not_mem_nil) tr _ (Pool.run_logged _ _ _ tr P hrun)).1

end Runs

/-- Every stored flag is valid and keeps its identity, in every interleaving
    of calls to the flag service. The start may hold valid flags with distinct
    ids; the generator of ids never repeats itself. -/
theorem stored_flags (h : Host) (start : World)
    (hdraw : ∀ n m id, h.newUUID n = some id → h.newUUID m = some id → n = m)
    (hnew : ∀ f ∈ start.store.flags, ∀ n, h.newUUID n ≠ some f.id)
    (hkeys : (start.store.flags.map (·.id)).Nodup)
    (hvalid : ∀ f ∈ start.store.flags, f.validate = .ok ()) (tr : List (Nat × Call))
    (P : Pool Err Call Call.Ret World) (hrun : Pool.Run (exec h) flagThread ⟨start, []⟩ tr P) :
    (∀ f ∈ P.shared.store.flags, f.validate = .ok () ∧ f.WellFormed) ∧
      ∀ (tr' : List (Nat × Call)) (P' : Pool Err Call Call.Ret World),
        Pool.Run (exec h) flagThread P tr' P' →
        ∀ f ∈ P.shared.store.flags, ∀ f' ∈ P'.shared.store.flags, f'.id = f.id →
          f'.projectID = f.projectID ∧ f'.key = f.key ∧ f'.type = f.type ∧
            f'.createdAt = f.createdAt := by
  have hwf : ∀ f ∈ start.store.flags, f.WellFormed := fun f hf =>
    (Flag.validate_ok_iff f).mp (hvalid f hf)
  have hone := run_oneEach h start hdraw hnew hkeys tr P hrun
  have hinv := run_flagInv h start hwf tr P hrun hone
  refine ⟨fun f hf => ⟨(Flag.validate_ok_iff f).mpr (hinv f hf).1, (hinv f hf).1⟩, ?_⟩
  intro tr' P' hlater f hf f' hf' hid
  have hwhole := Pool.run_trans _ _ _ _ _ tr tr' hrun hlater
  have hone' := run_oneEach h start hdraw hnew hkeys _ P' hwhole
  rcases run_flagInv h start hwf _ P' hwhole hone' f' hf' with ⟨_, c', hc', hsame'⟩
  -- The earlier row goes back to the same list of flags, grown since.
  have hknown : Known start f (tr.map Prod.snd) := fun _ => (hinv f hf).2
  have hgrows : Grows (P.shared, tr.map Prod.snd) (P'.shared, (tr ++ tr').map Prod.snd) :=
    ⟨tr'.map Prod.snd, List.map_append⟩
  rcases hknown.grows start f _ _ hgrows hone' with ⟨c, hc, hsame⟩
  have hident := sameIdentity_of_id start _ hone' f' f c' c hc' hsame' hc hsame hid
  exact ⟨hident.projectID, hident.key, hident.type, hident.createdAt⟩

/-- Two editors at work on one project: one creates a flag, the other adds a
    variant to it. -/
def twoEditors : Pool Err Call Call.Ret World where
  shared := { store := { projects := [⟨"p1", "Acme", "acme", 0⟩] } }
  threads := [
    FlagCall.program ⟨some ⟨"u1", .editor⟩, none⟩ (.create
      ⟨"", "p1", "theme", "Theme", .string, [⟨"light", "Light"⟩], "light", 0⟩),
    FlagCall.program ⟨some ⟨"u2", .editor⟩, none⟩ (.addVariant "p1" "theme" ⟨"dark", "Dark"⟩)]

theorem stored_flags_twoEditors :
    ∃ f ∈ (Pool.follow (exec Host.steady) twoEditors [0, 0, 0, 1, 0, 1]).shared.store.flags,
      f.variantKeys = ["light", "dark"] ∧ f.WellFormed := by
  have hspawn : Pool.Run (exec Host.steady) flagThread ⟨twoEditors.shared, []⟩ [] twoEditors :=
    Pool.Run.spawn [] ⟨_, [_]⟩ _ (Pool.Run.spawn [] ⟨_, []⟩ _ Pool.Run.start ⟨_, _, rfl⟩)
      ⟨_, _, rfl⟩
  rcases Pool.run_follow _ _ _ [0, 0, 0, 1, 0, 1] _ _ hspawn with ⟨tr, hrun⟩
  have hall := (stored_flags Host.steady twoEditors.shared Host.steady_newUUID_inj
    (fun f hf => absurd hf List.not_mem_nil) (by decide) (by decide) tr _ hrun).1
  have hrow : ∃ f ∈
      (Pool.follow (exec Host.steady) twoEditors [0, 0, 0, 1, 0, 1]).shared.store.flags,
      f.variantKeys = ["light", "dark"] := by
    decide
  rcases hrow with ⟨f, hf, hvariants⟩
  exact ⟨f, hf, hvariants, (hall f hf).2⟩

end Cuttlegate
