import Cuttlegate.Lib.Reports
import Cuttlegate.Lib.Rows
import Cuttlegate.Theory.Capability
import Mathlib.Data.Set.Function

/-!
# The Life of an API Key

A key is issued once, may change its tier any number of times, and is revoked
at most once. The three ways to authenticate look the hash of a plaintext up
and each check for a revocation on their own; a change of tier reads the key,
checks, and writes. All of them run interleaved, one statement at a time.

Two facts about the table of keys carry everything. A stored key keeps its
identity: the statements on keys change the tier and the revocation and
nothing else. And a revoked key is left alone altogether, since both updates
ask for a row that is not revoked. So whatever an update read before the
revocation, its write finds no row after it.

An authentication saw its key live at its own lookup, and a lookup that comes
after the revocation finds the row revoked.

## Main definitions

* `KeyCall`, `KeyReport`: The calls and what they report.
* `APIKey.SameIssue`: The same key, up to its tier and its revocation.
* `Store.KeysUnique`, `KeysEvolve`: What holds of the keys, and how they may
  change.
* `IssuedFor`: A plaintext was issued for a key.
* `plaintexts`: The plaintexts of a run.

## Theorems

* `keys_step`: What one operation does to the keys.
* `key_lifecycle`: Authentication, and revocation for good.
-/

namespace Cuttlegate

/-! ## Calls -/

inductive KeyCall where
  | create (ctx : Ctx) (projectID environmentID name : String) (tier : ToolCapabilityTier)
  | revoke (ctx : Ctx) (id : String)
  | updateCapabilityTier (ctx : Ctx) (id : String) (tier : ToolCapabilityTier)
  | authenticate (ctx : Ctx) (plaintext : String)
  | authenticateMCP (ctx : Ctx) (plaintext : String)
  | liveKeyCheck (plaintext : String)

/-- What a call reports: what it did, or that it failed. An authentication
    reports the plaintext it was given as well. -/
inductive KeyReport where
  | created (out : APIKeyCreateResult)
  | revoked (id : String)
  | updated (view : APIKeyView)
  | scoped (plaintext projectID environmentID : String)
  | live (plaintext : String) (key : APIKey)
  | failed

/-- The plaintext that was accepted, with the project and environment it
    authenticates for. -/
def KeyReport.grants : KeyReport → Option (String × String × String)
  | .scoped plaintext projectID environmentID => some (plaintext, projectID, environmentID)
  | .live plaintext key => some (plaintext, key.projectID, key.environmentID)
  | _ => none

abbrev KeyOp := Reporting McpOp KeyReport

abbrev KeyOp.Ret : KeyOp → Type := Reporting.Answer McpOp.Ret

/-- Report the answer of a call, or its failure. -/
def orFailed {α : Type} (f : α → KeyReport) : Except Err α → KeyReport
  | .ok a => f a
  | .error _ => .failed

/-- The program of a call, which reports in the end. -/
def KeyCall.program (h : McpHost) : KeyCall → Proc Err KeyOp KeyOp.Ret Unit
  | .create ctx projectID environmentID name tier =>
      (db (APIKeyService.create h.host.sha256 ctx projectID environmentID name tier)).reports
        (orFailed .created)
  | .revoke ctx id => (db (APIKeyService.revoke ctx id)).reports (orFailed fun _ => .revoked id)
  | .updateCapabilityTier ctx id tier =>
      (db (APIKeyService.updateCapabilityTier ctx id tier)).reports (orFailed .updated)
  | .authenticate ctx plaintext =>
      (db (APIKeyService.authenticate h.host.sha256 ctx plaintext)).reports
        (orFailed fun scope => .scoped plaintext scope.1 scope.2)
  | .authenticateMCP ctx plaintext =>
      (db (APIKeyService.authenticateMCP h.host.sha256 ctx plaintext)).reports
        (orFailed (.live plaintext))
  | .liveKeyCheck plaintext =>
      (Cuttlegate.liveKeyCheck h.host.sha256 plaintext).reports (orFailed fun key =>
        match key with
        | some key => .live plaintext key
        | none => .failed)

/-- A thread of the pool: a call. -/
def keyThread (h : McpHost) (p : Proc Err KeyOp KeyOp.Ret Unit) : Prop :=
  ∃ c, p = KeyCall.program h c

/-! ## The table of keys -/

/-- The same key, up to its tier and its revocation. -/
def APIKey.SameIssue (k k' : APIKey) : Prop :=
  k' = { k with capabilityTier := k'.capabilityTier, revokedAt := k'.revokedAt }

theorem APIKey.SameIssue.trans (a b c : APIKey) (hab : a.SameIssue b) (hbc : b.SameIssue c) :
    a.SameIssue c := by
  unfold APIKey.SameIssue at *
  rw [hbc, hab]

theorem APIKey.SameIssue.id (k k' : APIKey) (h : k.SameIssue k') : k'.id = k.id := by rw [h]

theorem APIKey.SameIssue.keyHash (k k' : APIKey) (h : k.SameIssue k') : k'.keyHash = k.keyHash := by
  rw [h]

/-- No two keys share an id or a hash. -/
structure Store.KeysUnique (s : Store) : Prop where
  ids : (s.apiKeys.map (·.id)).Nodup
  hashes : (s.apiKeys.map (·.keyHash)).Nodup

/-- How the keys may change: every key stays, and a revoked one as it is. -/
def KeysEvolve (s s' : Store) : Prop :=
  ∀ k ∈ s.apiKeys, ∃ k' ∈ s'.apiKeys, k.SameIssue k' ∧ (k.revoked = true → k' = k)

theorem KeysEvolve.refl (s : Store) : KeysEvolve s s := fun k hk => ⟨k, hk, rfl, fun _ => rfl⟩

theorem KeysEvolve.trans (a b c : Store) (hab : KeysEvolve a b) (hbc : KeysEvolve b c) :
    KeysEvolve a c := by
  intro k hk
  rcases hab k hk with ⟨k', hk', hsame, hrev⟩
  rcases hbc k' hk' with ⟨k'', hk'', hsame', hrev'⟩
  refine ⟨k'', hk'', hsame.trans _ _ _ hsame', fun h => ?_⟩
  rw [hrev' (by rw [hrev h]; exact h), hrev h]

/-- Two stored keys with one id are one key. -/
theorem Store.KeysUnique.eq_of_id (s : Store) (h : s.KeysUnique) (k k' : APIKey)
    (hk : k ∈ s.apiKeys) (hk' : k' ∈ s.apiKeys) (hid : k.id = k'.id) : k = k' :=
  List.inj_on_of_nodup_map h.ids hk hk' hid

/-- Two stored keys with one hash are one key. -/
theorem Store.KeysUnique.eq_of_hash (s : Store) (h : s.KeysUnique) (k k' : APIKey)
    (hk : k ∈ s.apiKeys) (hk' : k' ∈ s.apiKeys) (hhash : k.keyHash = k'.keyHash) : k = k' :=
  List.inj_on_of_nodup_map h.hashes hk hk' hhash

/-- The call leaves the keys alone, or inserts one, or updates a live one. -/
def Call.keepsKeys (c : Call) : Prop :=
  Tbl.apiKeys ∉ c.op.writes ∨ (∃ k, c.op = .createAPIKey k) ∨ (∃ id, c.op = .revokeAPIKey id) ∨
    ∃ id tier, c.op = .updateAPIKeyTier id tier

/-- What such a call does to the keys: nothing; or it inserts a key whose id
    and hash are new; or it updates keys, none of them revoked. -/
theorem keys_step (h : Host) (c : Call) (w : World) (hc : c.keepsKeys) :
    (exec h c w).2.store.apiKeys = w.store.apiKeys ∨
      (∃ tenant k, c = ⟨tenant, .createAPIKey k⟩ ∧
        (exec h ⟨tenant, .createAPIKey k⟩ w).1 = .ok () ∧
        (∀ j ∈ w.store.apiKeys, j.id ≠ k.id ∧ j.keyHash ≠ k.keyHash) ∧
        (exec h c w).2.store.apiKeys = w.store.apiKeys ++ [k]) ∨
      ∃ f : APIKey → APIKey, (∀ k : APIKey, k.SameIssue (f k)) ∧
        (∀ k : APIKey, k.revoked = true → f k = k) ∧
        (exec h c w).2.store.apiKeys = w.store.apiKeys.map f := by
  rcases exec_cases h c w with ⟨e, he⟩ | ⟨a, w', hp, he⟩
  · rw [he]
    exact .inl rfl
  rcases c with ⟨tenant, op⟩
  rw [he]
  -- An update that asks for a live row spares the revoked ones.
  have hspared : ∀ (id : String) (k : APIKey), k.revoked = true →
      Conn.isLiveKeyRow ⟨tenant, h.rls⟩ id k = false := by
    intro id k hk
    rw [APIKey.revoked, Option.isSome_iff_exists] at hk
    rcases hk with ⟨t, ht⟩
    rw [Conn.isLiveKeyRow, ht]
    exact Bool.and_false _
  change _ ∨ (∃ k, op = _) ∨ (∃ id, op = _) ∨ (∃ id tier, op = _) at hc
  rcases hc with hframe | ⟨k, rfl⟩ | ⟨id, rfl⟩ | ⟨id, tier, rfl⟩
  · exact .inl (op.perform_frame h _ w w' a hp .apiKeys hframe)
  · rcases World.onStore_ok _ _ _ _ hp with ⟨s', hs', rfl⟩
    rcases createAPIKey_ok _ _ _ _ _ hs' with ⟨_, hfresh, rfl⟩
    exact .inr (.inl ⟨tenant, k, rfl, by rw [he], hfresh, rfl⟩)
  · rcases World.onStore_affect _ _ _ _ _ hp with ⟨_, rfl⟩
    refine .inr (.inr ⟨_, fun k => ?_, fun k hk => ?_, rfl⟩)
    · split <;> rfl
    · rw [hspared id k hk]
      rfl
  · rcases World.onStore_affect _ _ _ _ _ hp with ⟨_, rfl⟩
    refine .inr (.inr ⟨_, fun k => ?_, fun k hk => ?_, rfl⟩)
    · split <;> rfl
    · rw [hspared id k hk]
      rfl

/-- A step keeps ids and hashes unique and every key in place. -/
theorem keysUnique_step (h : Host) (c : Call) (w : World) (hc : c.keepsKeys)
    (hw : w.store.KeysUnique) :
    (exec h c w).2.store.KeysUnique ∧ KeysEvolve w.store (exec h c w).2.store := by
  -- Rows kept, one row added under the two unique constraints, or rows updated in place.
  rcases keys_step h c w hc with hsame | ⟨tenant, k, _, _, hfresh, hrows⟩ |
    ⟨f, hf, hspared, hrows⟩
  · refine ⟨⟨?_, ?_⟩, fun k hk => ⟨k, ?_, rfl, fun _ => rfl⟩⟩
    · rw [hsame]
      exact hw.ids
    · rw [hsame]
      exact hw.hashes
    · rw [hsame]
      exact hk
  · rw [KeysEvolve, hrows]
    refine ⟨⟨?_, ?_⟩, fun j hj => ⟨j, List.mem_append_left _ hj, rfl, fun _ => rfl⟩⟩
    · rw [hrows]
      exact Rows.nodup_insert _ _ k (fun j hj => (hfresh j hj).1) hw.ids
    · rw [hrows]
      exact Rows.nodup_insert _ _ k (fun j hj => (hfresh j hj).2) hw.hashes
  · rw [KeysEvolve, hrows]
    refine ⟨⟨?_, ?_⟩, fun k hk => ⟨f k, List.mem_map_of_mem hk, hf k, hspared k⟩⟩
    · rw [hrows]
      exact Rows.nodup_update _ _ f (fun k => (hf k).id) hw.ids
    · rw [hrows]
      exact Rows.nodup_update _ _ f (fun k => (hf k).keyHash) hw.hashes

/-- Where the keys of a step come from. -/
theorem keys_origin (h : Host) (c : Call) (w : World) (hc : c.keepsKeys) (k : APIKey)
    (hk : k ∈ (exec h c w).2.store.apiKeys) :
    (∃ j ∈ w.store.apiKeys, j.SameIssue k) ∨ ∃ tenant, c = ⟨tenant, .createAPIKey k⟩ ∧
      (exec h ⟨tenant, .createAPIKey k⟩ w).1 = .ok () := by
  rcases keys_step h c w hc with hsame | ⟨tenant, j, hcall, hok, _, hrows⟩ | ⟨f, hf, _, hrows⟩
  · rw [hsame] at hk
    exact .inl ⟨k, hk, rfl⟩
  · rw [hrows] at hk
    rcases List.mem_append.mp hk with hold | hnew
    · exact .inl ⟨k, hold, rfl⟩
    · rw [List.mem_singleton.mp hnew]
      exact .inr ⟨tenant, hcall, hok⟩
  · rw [hrows] at hk
    rcases List.mem_map.mp hk with ⟨j, hj, rfl⟩
    exact .inl ⟨j, hj, hf j⟩

/-- A creation that succeeds stores the key, whose id was new. -/
theorem createAPIKey_stored (h : Host) (tenant : Option String) (k : APIKey) (w : World)
    (hok : (exec h ⟨tenant, .createAPIKey k⟩ w).1 = .ok ()) :
    (∀ j ∈ w.store.apiKeys, j.id ≠ k.id) ∧
      k ∈ (exec h ⟨tenant, .createAPIKey k⟩ w).2.store.apiKeys := by
  rcases exec_cases h ⟨tenant, .createAPIKey k⟩ w with ⟨e, he⟩ | ⟨a, w', hp, he⟩
  · rw [he] at hok
    exact (nomatch hok)
  rw [he]
  rcases World.onStore_ok _ _ _ _ hp with ⟨s', hs', rfl⟩
  rcases createAPIKey_ok _ _ _ _ _ hs' with ⟨_, hfresh, rfl⟩
  exact ⟨fun j hj => (hfresh j hj).1, List.mem_append_right _ (List.mem_singleton_self k)⟩

/-- A revocation that succeeds leaves the key revoked. -/
theorem revokeAPIKey_revoked (h : Host) (tenant : Option String) (id : String) (w : World)
    (hok : (exec h ⟨tenant, .revokeAPIKey id⟩ w).1 = .ok ()) :
    ∃ k ∈ (exec h ⟨tenant, .revokeAPIKey id⟩ w).2.store.apiKeys, k.id = id ∧ k.revoked = true := by
  rcases exec_cases h ⟨tenant, .revokeAPIKey id⟩ w with ⟨e, he⟩ | ⟨a, w', hp, he⟩
  · rw [he] at hok
    exact (nomatch hok)
  rw [he]
  rcases World.onStore_affect _ _ _ _ _ hp with ⟨hfound, rfl⟩
  rcases List.any_eq_true.mp hfound with ⟨k, hk, hrow⟩
  refine ⟨_, List.mem_map_of_mem hk, ?_⟩
  rw [if_pos hrow]
  simp only [Conn.isLiveKeyRow, Bool.and_eq_true, beq_iff_eq] at hrow
  exact ⟨hrow.1.2, rfl⟩

/-! ## What the calls rely on -/

/-- What a call has seen when it performs an operation. A key is generated from
    bytes that were drawn, a revocation is reported after it was written, and
    an authentication after the key was looked up and found live. -/
def KeyEvidence (h : McpHost) (seen : List (KeyOp × McpState)) : KeyOp → Prop
  | .op (.db ⟨_, .createAPIKey k⟩) => ∃ tenant s raw,
      (.op (.db ⟨tenant, .randomBytes⟩), s) ∈ seen ∧ h.host.randomBytes s.world.calls = some raw ∧
        generateAPIKey h.host.sha256 raw k.createdAt k.id k.projectID k.environmentID k.name
          k.capabilityTier = (k, apiKeyPlaintext raw)
  | .report r =>
      (∀ id, r = .revoked id → ∃ tenant s, (.op (.db ⟨tenant, .revokeAPIKey id⟩), s) ∈ seen ∧
        (exec h.host ⟨tenant, .revokeAPIKey id⟩ s.world).1 = .ok ()) ∧
      ∀ plaintext projectID environmentID,
        r.grants = some (plaintext, projectID, environmentID) → ∃ tenant s key,
          (.op (.db ⟨tenant, .apiKeyByHash (h.host.sha256 plaintext)⟩), s) ∈ seen ∧
          key ∈ s.world.store.apiKeys ∧ key.keyHash = h.host.sha256 plaintext ∧
          key.revoked = false ∧ projectID = key.projectID ∧ environmentID = key.environmentID ∧
          ∀ p key', r = .live p key' → key' = key
  | _ => True

section Evidence

variable (h : McpHost)

/-- A failure needs no evidence. -/
theorem keyEvidence_failed {α : Type} (f : α → KeyReport) (seen : List (KeyOp × McpState))
    (e : Err) : KeyEvidence h seen (.report (orFailed f (.error e))) :=
  ⟨fun _ hrevoked => (nomatch hrevoked), fun _ _ _ hgrants => (nomatch hgrants)⟩

section Rules

variable {α β : Type} {f : α → KeyReport}

theorem keyGuarded_call (ctx : Ctx) (op : Op) (g : op.Ret → Prog α)
    (seen : List (KeyOp × McpState))
    (hop : KeyEvidence h seen (.op (.db ⟨ctx.tenant, op⟩)))
    (hg : ∀ s a, (exec h.host ⟨ctx.tenant, op⟩ s.world).1 = .ok a →
      ((db (g a)).reports (orFailed f)).Guarded (reporting (mcpExec h)) (KeyEvidence h)
        (seen ++ [(.op (.db ⟨ctx.tenant, op⟩), s)])) :
    ((db (ctx.call op >>= g)).reports (orFailed f)).Guarded (reporting (mcpExec h))
      (KeyEvidence h) seen := by
  have hlift : db (ctx.call op >>= g)
      = Proc.call (McpOp.db ⟨ctx.tenant, op⟩) >>= fun a => db (g a) := by
    refine congrArg (Proc.act (McpOp.db ⟨ctx.tenant, op⟩)) (funext (fun r => ?_))
    cases r <;> rfl
  rw [hlift]
  exact Proc.guarded_reports_call (keyEvidence_failed h f) _ _ seen hop hg

theorem keyGuarded_check (x : Except Err β) (g : β → Prog α) (seen : List (KeyOp × McpState))
    (hg : ∀ b, x = .ok b → ((db (g b)).reports (orFailed f)).Guarded (reporting (mcpExec h))
      (KeyEvidence h) seen) :
    ((db (check x >>= g)).reports (orFailed f)).Guarded (reporting (mcpExec h))
      (KeyEvidence h) seen := by
  cases x with
  | error e => exact Proc.guarded_report _ _ (keyEvidence_failed h f seen e)
  | ok b => exact hg b rfl

end Rules

theorem KeyCall.create_guarded (ctx : Ctx) (projectID environmentID name : String)
    (tier : ToolCapabilityTier) :
    (KeyCall.program h (.create ctx projectID environmentID name tier)).Guarded
      (reporting (mcpExec h)) (KeyEvidence h) [] := by
  refine keyGuarded_check h _ _ _ (fun _ _ => ?_)
  refine keyGuarded_call h ctx _ _ _ trivial (fun s₁ id _ => ?_)
  refine keyGuarded_call h ctx _ _ _ trivial (fun s₂ raw hraw => ?_)
  refine keyGuarded_call h ctx _ _ _ trivial (fun s₃ now _ => ?_)
  refine keyGuarded_call h ctx _ _ _ ⟨ctx.tenant, s₂, raw, by simp, ?_, rfl⟩ (fun s₄ _ _ => ?_)
  · rcases exec_cases h.host ⟨ctx.tenant, .randomBytes⟩ s₂.world with ⟨e, he⟩ | ⟨a, w', hp, he⟩
    · rw [he] at hraw
      exact (nomatch hraw)
    · rw [he] at hraw
      rw [← Except.ok.inj hraw]
      exact (World.draw_ok _ _ _ _ hp).1
  · exact Proc.guarded_report _ _ ⟨fun _ hrevoked => (nomatch hrevoked),
      fun _ _ _ hgrants => (nomatch hgrants)⟩

theorem KeyCall.revoke_guarded (ctx : Ctx) (id : String) :
    (KeyCall.program h (.revoke ctx id)).Guarded (reporting (mcpExec h)) (KeyEvidence h) [] := by
  have hprogram : APIKeyService.revoke ctx id
      = ctx.require .admin >>= fun _ => ctx.call (.revokeAPIKey id) >>= fun _ => Proc.ret () := by
    refine congrArg (ctx.require .admin >>= ·) (funext (fun _ => ?_))
    refine congrArg (Proc.act (⟨ctx.tenant, .revokeAPIKey id⟩ : Call)) (funext (fun r => ?_))
    cases r <;> rfl
  rw [KeyCall.program, hprogram]
  refine keyGuarded_check h _ _ _ (fun _ _ => ?_)
  refine keyGuarded_call h ctx _ _ _ trivial (fun s a ha => ?_)
  refine Proc.guarded_report _ _ ⟨fun id' hid => ?_, fun _ _ _ hgrants => (nomatch hgrants)⟩
  rw [← KeyReport.revoked.inj hid]
  exact ⟨ctx.tenant, s, by simp, ha⟩

theorem KeyCall.updateCapabilityTier_guarded (ctx : Ctx) (id : String) (tier : ToolCapabilityTier) :
    (KeyCall.program h (.updateCapabilityTier ctx id tier)).Guarded (reporting (mcpExec h))
      (KeyEvidence h) [] := by
  refine keyGuarded_check h _ _ _ (fun _ _ => keyGuarded_check h _ _ _ (fun _ _ => ?_))
  refine keyGuarded_call h ctx _ _ _ trivial (fun s₁ key _ => ?_)
  refine keyGuarded_check h _ _ _ (fun _ _ => ?_)
  refine keyGuarded_call h ctx _ _ _ trivial (fun s₂ _ _ => ?_)
  exact Proc.guarded_report _ _ ⟨fun _ hrevoked => (nomatch hrevoked),
      fun _ _ _ hgrants => (nomatch hgrants)⟩

/-- A live key was looked up by the hash of the plaintext. -/
theorem apiKeyByHash_found (tenant : Option String) (hash : KeyHash) (s : McpState) (key : APIKey)
    (hfound : (exec h.host ⟨tenant, .apiKeyByHash hash⟩ s.world).1 = .ok key) :
    key ∈ s.world.store.apiKeys ∧ key.keyHash = hash := by
  rcases exec_cases h.host ⟨tenant, .apiKeyByHash hash⟩ s.world with ⟨e, he⟩ | ⟨a, w', hp, he⟩
  · rw [he] at hfound
    exact (nomatch hfound)
  · rw [he] at hfound
    rw [← Except.ok.inj hfound]
    have hfind := (World.onStore_queryRow _ _ _ _ hp).1
    have hrow := List.find?_some hfind
    rw [Bool.and_eq_true, beq_iff_eq] at hrow
    exact ⟨List.mem_of_find?_eq_some hfind, hrow.2⟩

/-- Whoever reports a key it looked up and found live has the evidence. -/
theorem keyEvidence_live (tenant : Option String) (plaintext : String) (s : McpState) (key : APIKey)
    (hfound : (exec h.host ⟨tenant, .apiKeyByHash (h.host.sha256 plaintext)⟩ s.world).1 = .ok key)
    (hlive : key.revoked = false) (r : KeyReport)
    (hr : r = .live plaintext key ∨ r = .scoped plaintext key.projectID key.environmentID) :
    KeyEvidence h [(.op (.db ⟨tenant, .apiKeyByHash (h.host.sha256 plaintext)⟩), s)]
      (.report r) := by
  rcases apiKeyByHash_found h _ _ _ _ hfound with ⟨hmem, hhash⟩
  rcases hr with rfl | rfl
  · refine ⟨fun _ hrevoked => (nomatch hrevoked), fun p projectID environmentID hgrants => ?_⟩
    simp only [KeyReport.grants, Option.some.injEq, Prod.mk.injEq] at hgrants
    rcases hgrants with ⟨rfl, rfl, rfl⟩
    exact ⟨tenant, s, key, List.mem_singleton_self _, hmem, hhash, hlive, rfl, rfl,
      fun _ key' hkey => (KeyReport.live.inj hkey).2.symm⟩
  · refine ⟨fun _ hrevoked => (nomatch hrevoked), fun p projectID environmentID hgrants => ?_⟩
    simp only [KeyReport.grants, Option.some.injEq, Prod.mk.injEq] at hgrants
    rcases hgrants with ⟨rfl, rfl, rfl⟩
    exact ⟨tenant, s, key, List.mem_singleton_self _, hmem, hhash, hlive, rfl, rfl,
      fun _ _ hkey => (nomatch hkey)⟩

/-- The three ways to authenticate have the evidence for what they report. -/
theorem KeyCall.authenticateMCP_guarded (ctx : Ctx) (plaintext : String) :
    (KeyCall.program h (.authenticateMCP ctx plaintext)).Guarded (reporting (mcpExec h))
      (KeyEvidence h) [] := by
  refine ⟨trivial, fun s => ?_⟩
  change ((db ((Proc.ofExcept (exec h.host ⟨ctx.tenant, .apiKeyByHash (h.host.sha256 plaintext)⟩
    s.world).1).attempt >>= _)).reports _).Guarded _ _ _
  cases hr : (exec h.host ⟨ctx.tenant, .apiKeyByHash (h.host.sha256 plaintext)⟩ s.world).1 with
  | error e => exact Proc.guarded_report _ _ (keyEvidence_failed h _ _ _)
  | ok key =>
      refine keyGuarded_check h _ _ _ (fun _ hlive => ?_)
      rw [refuseIf_ok, Bool.not_eq_true] at hlive
      exact Proc.guarded_report _ _ (keyEvidence_live h _ _ _ _ hr hlive _ (.inl rfl))

theorem KeyCall.authenticate_guarded (ctx : Ctx) (plaintext : String) :
    (KeyCall.program h (.authenticate ctx plaintext)).Guarded (reporting (mcpExec h))
      (KeyEvidence h) [] := by
  refine ⟨trivial, fun s => ?_⟩
  change ((db (((Proc.ofExcept (exec h.host ⟨ctx.tenant, .apiKeyByHash (h.host.sha256 plaintext)⟩
    s.world).1).attempt >>= _) >>= _)).reports _).Guarded _ _ _
  cases hr : (exec h.host ⟨ctx.tenant, .apiKeyByHash (h.host.sha256 plaintext)⟩ s.world).1 with
  | error e => exact Proc.guarded_report _ _ (keyEvidence_failed h _ _ _)
  | ok key =>
      change ((db ((check (refuseIf (key.revoked = true) .forbidden) >>= fun _ => _) >>= _)).reports
        _).Guarded _ _ _
      rw [Proc.bind_assoc]
      refine keyGuarded_check h _ _ _ (fun _ hlive => ?_)
      rw [refuseIf_ok, Bool.not_eq_true] at hlive
      exact Proc.guarded_report _ _ (keyEvidence_live h _ _ _ _ hr hlive _ (.inr rfl))

theorem KeyCall.liveKeyCheck_guarded (plaintext : String) :
    (KeyCall.program h (.liveKeyCheck plaintext)).Guarded (reporting (mcpExec h))
      (KeyEvidence h) [] := by
  refine Proc.guarded_reports_attempt _ _ _ trivial (fun s => ?_)
  cases hr : (mcpExec h (.db ⟨none, .apiKeyByHash (h.host.sha256 plaintext)⟩) s).1 with
  | error e => exact Proc.guarded_report _ _ (keyEvidence_failed h (.live plaintext) _ e)
  | ok key =>
      by_cases hlive : key.revoked = true
      · simp only [if_pos hlive]
        exact Proc.guarded_report _ _ (keyEvidence_failed h (.live plaintext) _ .forbidden)
      · simp only [if_neg hlive]
        rw [Bool.not_eq_true] at hlive
        exact Proc.guarded_report _ _ (keyEvidence_live h _ _ _ _ hr hlive _ (.inl rfl))

/-- Every call has the evidence for what it does. -/
theorem KeyCall.guarded (c : KeyCall) :
    (c.program h).Guarded (reporting (mcpExec h)) (KeyEvidence h) [] := by
  cases c with
  | create ctx projectID environmentID name tier => exact KeyCall.create_guarded h ctx _ _ _ _
  | revoke ctx id => exact KeyCall.revoke_guarded h ctx id
  | updateCapabilityTier ctx id tier => exact KeyCall.updateCapabilityTier_guarded h ctx id tier
  | authenticate ctx plaintext => exact KeyCall.authenticate_guarded h ctx plaintext
  | authenticateMCP ctx plaintext => exact KeyCall.authenticateMCP_guarded h ctx plaintext
  | liveKeyCheck plaintext => exact KeyCall.liveKeyCheck_guarded h plaintext

end Evidence

/-! ## Runs -/

/-- The operation keeps the keys that are there. -/
def KeyOp.keepsKeys : KeyOp → Prop
  | .op (.db c) => c.keepsKeys
  | _ => True

/-- Every operation of a call keeps the keys that are there. -/
theorem KeyCall.uses (h : McpHost) (c : KeyCall) : (c.program h).Uses KeyOp.keepsKeys := by
  have hread : ∀ (ctx : Ctx) (op : Op), op.writes = [] →
      Proc.Uses Call.keepsKeys (ctx.call op) := by
    intro ctx op hop
    refine (Proc.uses_call _).mpr (.inl ?_)
    rw [hop]
    exact List.not_mem_nil
  -- Both forms of authentication only look the hash up.
  have hauth : ∀ ctx plaintext, Proc.Uses Call.keepsKeys
      (APIKeyService.authenticateMCP h.host.sha256 ctx plaintext) := by
    intro ctx plaintext
    refine Proc.uses_bind _ _ ((Proc.uses_attempt _).mpr (hread ctx _ rfl)) (fun r => ?_)
    cases r with
    | error e => trivial
    | ok key => exact Proc.uses_bind _ _ (Proc.uses_ofExcept _) (fun _ => trivial)
  cases c with
  | create ctx projectID environmentID name tier =>
      refine Proc.uses_reports _ (fun _ => trivial) _ _ (Proc.uses_lift _ _ _ _ ?_)
      refine Proc.uses_bind _ _ (Proc.uses_ofExcept _) (fun _ => ?_)
      refine Proc.uses_bind _ _ (hread ctx _ rfl) (fun id => ?_)
      refine Proc.uses_bind _ _ (hread ctx _ rfl) (fun raw => ?_)
      refine Proc.uses_bind _ _ (hread ctx _ rfl) (fun now => ?_)
      exact Proc.uses_bind _ _ ((Proc.uses_call _).mpr (.inr (.inl ⟨_, rfl⟩))) (fun _ => trivial)
  | revoke ctx id =>
      refine Proc.uses_reports _ (fun _ => trivial) _ _ (Proc.uses_lift _ _ _ _ ?_)
      refine Proc.uses_bind _ _ (Proc.uses_ofExcept _) (fun _ => ?_)
      exact (Proc.uses_call _).mpr (.inr (.inr (.inl ⟨id, rfl⟩)))
  | updateCapabilityTier ctx id tier =>
      refine Proc.uses_reports _ (fun _ => trivial) _ _ (Proc.uses_lift _ _ _ _ ?_)
      refine Proc.uses_bind _ _ (Proc.uses_ofExcept _) (fun _ => ?_)
      refine Proc.uses_bind _ _ (Proc.uses_ofExcept _) (fun _ => ?_)
      refine Proc.uses_bind _ _ (hread ctx _ rfl) (fun key => ?_)
      refine Proc.uses_bind _ _ (Proc.uses_ofExcept _) (fun _ => ?_)
      refine Proc.uses_bind _ _ ?_ (fun _ => trivial)
      exact (Proc.uses_call _).mpr (.inr (.inr (.inr ⟨id, tier, rfl⟩)))
  | authenticate ctx plaintext =>
      refine Proc.uses_reports _ (fun _ => trivial) _ _ (Proc.uses_lift _ _ _ _ ?_)
      exact Proc.uses_bind _ _ (hauth ctx plaintext) (fun _ => trivial)
  | authenticateMCP ctx plaintext =>
      refine Proc.uses_reports _ (fun _ => trivial) _ _ (Proc.uses_lift _ _ _ _ ?_)
      exact hauth ctx plaintext
  | liveKeyCheck plaintext =>
      refine Proc.uses_reports _ (fun _ => trivial) _ _ ?_
      refine Proc.uses_bind _ _ ((Proc.uses_attempt _).mpr ?_) (fun r => ?_)
      · exact (Proc.uses_call _).mpr (.inl List.not_mem_nil)
      · cases r with
        | error e => trivial
        | ok key => trivial

/-- How the state of the server may change, as far as keys are concerned. -/
def ServerEvolves (s s' : McpState) : Prop :=
  KeysEvolve s.world.store s'.world.store ∧ s.world.calls ≤ s'.world.calls

section Runs

variable (h : McpHost)

/-- The effect of an operation or a report. -/
abbrev keyExec (o : KeyOp) (s : McpState) : Except Err (KeyOp.Ret o) × McpState :=
  reporting (mcpExec h) o s

theorem keyExec_step (o : KeyOp) (ho : o.keepsKeys) (s : McpState)
    (hs : s.world.store.KeysUnique) :
    (keyExec h o s).2.world.store.KeysUnique ∧ ServerEvolves s (keyExec h o s).2 := by
  -- Sessions, the limiter and the reports leave the database alone.
  have hquiet : ∀ s' : McpState, s'.world.store = s.world.store → s.world.calls ≤ s'.world.calls →
      s'.world.store.KeysUnique ∧ ServerEvolves s s' := by
    intro s' hstore hcalls
    rw [ServerEvolves, hstore]
    exact ⟨hs, KeysEvolve.refl _, hcalls⟩
  cases o with
  | report r => exact hquiet s rfl (Nat.le_refl _)
  | op o =>
      cases o with
      | db c =>
          rcases keysUnique_step h.host c s.world ho hs with ⟨hunique, hevolve⟩
          refine ⟨hunique, hevolve, ?_⟩
          change s.world.calls ≤ (exec h.host c s.world).2.calls
          rw [exec_calls]
          exact Nat.le_succ _
      | newSessionID =>
          cases hid : h.newSessionID s.world.calls with
          | none =>
              simp only [keyExec, reporting, mcpExec, hid]
              exact hquiet { s with world := s.world.tick } rfl (Nat.le_succ _)
          | some id =>
              simp only [keyExec, reporting, mcpExec, hid]
              exact hquiet { s with world := s.world.tick } rfl (Nat.le_succ _)
      | openSession sess => exact hquiet _ rfl (Nat.le_refl _)
      | closeSession id => exact hquiet _ rfl (Nat.le_refl _)
      | session id => exact hquiet _ rfl (Nat.le_refl _)
      | setSessionTier at_ tier => exact hquiet _ rfl (Nat.le_refl _)
      | allow key => exact hquiet _ rfl (Nat.le_succ _)

/-- The state after a trace of such operations. -/
theorem replay_evolves (tr : List (Nat × KeyOp)) (htr : ∀ e ∈ tr, e.2.keepsKeys) (s : McpState)
    (hs : s.world.store.KeysUnique) :
    (replay (keyExec h) s tr).world.store.KeysUnique ∧
      ServerEvolves s (replay (keyExec h) s tr) :=
  replay_rel (keyExec h) (fun s => s.world.store.KeysUnique) ServerEvolves
    (fun _ => ⟨KeysEvolve.refl _, Nat.le_refl _⟩)
    (fun _ _ _ hab hbc => ⟨KeysEvolve.trans _ _ _ hab.1 hbc.1, Nat.le_trans hab.2 hbc.2⟩) tr
    (fun e he s hs => keyExec_step h e.2 (htr e he) s hs) s hs

/-- The key was created along a trace. -/
def Created (start : McpState) (tr : List (Nat × KeyOp)) (k : APIKey) : Prop :=
  ∃ pre i tenant post, tr = pre ++ (i, .op (.db ⟨tenant, .createAPIKey k⟩)) :: post ∧
    (exec h.host ⟨tenant, .createAPIKey k⟩ (replay (keyExec h) start pre).world).1 = .ok ()

/-- The plaintext was issued for the key: the key is stored under its hash, and
    was there at the start or was created along the trace, generated together
    with the plaintext. -/
def IssuedFor (start : McpState) (tr : List (Nat × KeyOp)) (plaintext : String)
    (k : APIKey) : Prop :=
  k.keyHash = h.host.sha256 plaintext ∧ (k ∈ start.world.store.apiKeys ∨
    (Created h start tr k ∧ ∃ raw, generateAPIKey h.host.sha256 raw k.createdAt k.id k.projectID
      k.environmentID k.name k.capabilityTier = (k, plaintext)))

/-- The plaintexts of a run: those that were accepted, and those of the keys
    generated from the random bytes of its operations. -/
def plaintexts (tr : List (Nat × KeyOp)) (calls : Nat) : Set String :=
  {q | (∃ i r projectID environmentID, (i, .report r) ∈ tr ∧
      KeyReport.grants r = some (q, projectID, environmentID)) ∨
    ∃ n < calls, ∃ raw, h.host.randomBytes n = some raw ∧ q = apiKeyPlaintext raw}

theorem Created.append (start : McpState) (tr tr' : List (Nat × KeyOp)) (k : APIKey)
    (hk : Created h start tr k) : Created h start (tr ++ tr') k := by
  rcases hk with ⟨pre, i, tenant, post, htr, hok⟩
  refine ⟨pre, i, tenant, post ++ tr', ?_, hok⟩
  rw [htr, List.append_assoc, List.cons_append]

/-- Every stored key was there at the start or was created. -/
theorem keys_created (start : McpState) (tr : List (Nat × KeyOp))
    (htr : ∀ e ∈ tr, e.2.keepsKeys) (k : APIKey)
    (hk : k ∈ (replay (keyExec h) start tr).world.store.apiKeys) :
    ∃ j, (j ∈ start.world.store.apiKeys ∨ Created h start tr j) ∧ j.SameIssue k := by
  -- From the end of the run: the last step kept the row, changed it in place or created it.
  induction tr using List.reverseRecOn generalizing k with
  | nil => exact ⟨k, .inl hk, rfl⟩
  | append_singleton tr e ih =>
      have hbefore : ∀ j ∈ (replay (keyExec h) start tr).world.store.apiKeys, j.SameIssue k →
          ∃ j, (j ∈ start.world.store.apiKeys ∨ Created h start (tr ++ [e]) j) ∧
            j.SameIssue k := by
        intro j hj hsame
        rcases ih (fun e he => htr e (List.mem_append_left _ he)) j hj with ⟨i, hi, hij⟩
        exact ⟨i, hi.imp_right (Created.append h start tr [e] i), hij.trans _ _ _ hsame⟩
      rw [replay_append, replay_cons, replay_nil] at hk
      rcases e with ⟨i, o⟩
      have ho : o.keepsKeys := htr (i, o) (List.mem_append_right _ (List.mem_singleton_self _))
      by_cases hdb : ∃ c, o = .op (.db c)
      · rcases hdb with ⟨c, rfl⟩
        rcases keys_origin h.host c _ ho k hk with ⟨j, hj, hsame⟩ | ⟨tenant, rfl, hok⟩
        · exact hbefore j hj hsame
        · exact ⟨k, .inr ⟨tr, i, tenant, [], rfl, hok⟩, rfl⟩
      · -- The other operations and the reports leave the database alone.
        refine hbefore k ?_ rfl
        have hstore : (keyExec h o (replay (keyExec h) start tr)).2.world.store
            = (replay (keyExec h) start tr).world.store := by
          cases o with
          | report r => rfl
          | op o =>
              cases o with
              | db c => exact absurd ⟨c, rfl⟩ hdb
              | newSessionID =>
                  simp only [keyExec, reporting, mcpExec]
                  split <;> rfl
              | _ => rfl
        rw [← hstore]
        exact hk

/-- An entry of the trace of a run has its evidence before it. -/
theorem run_keyEvidence (start : McpState) (tr : List (Nat × KeyOp))
    (P : Pool Err KeyOp KeyOp.Ret McpState)
    (hrun : Pool.Run (keyExec h) (keyThread h) ⟨start, []⟩ tr P) (pre post : List (Nat × KeyOp))
    (i : Nat) (o : KeyOp) (htr : tr = pre ++ (i, o) :: post) :
    ∃ seen, KeyEvidence h seen o ∧ ∀ e ∈ seen, ∃ pre' mid, pre = pre' ++ (i, e.1) :: mid ∧
      e.2 = replay (keyExec h) start pre' := by
  rcases Pool.run_split _ tr P hrun pre post i o htr with ⟨P₁, k, hrun₁, hi⟩
  rcases Pool.run_evidence (KeyCall.program h) (fun _ => KeyEvidence h) (KeyCall.guarded h) start
    pre P₁ hrun₁ i _ hi with ⟨_, seen, _, hguarded, hseen⟩
  refine ⟨seen, hguarded.1, fun e he => ?_⟩
  rcases hseen e he with ⟨pre', P₂, _, mid, hrun₂, hs, _, _, hpre⟩
  refine ⟨pre', mid, hpre, ?_⟩
  rw [← hs]
  exact Pool.run_replay _ pre' P₂ hrun₂

/-- The operations of a run keep the keys that are there. -/
theorem run_keepsKeys (start : McpState) (tr : List (Nat × KeyOp))
    (P : Pool Err KeyOp KeyOp.Ret McpState)
    (hrun : Pool.Run (keyExec h) (keyThread h) ⟨start, []⟩ tr P) : ∀ e ∈ tr, e.2.keepsKeys := by
  refine (Pool.run_uses _ (fun p hp => ?_) start tr P hrun).1
  rcases hp with ⟨c, rfl⟩
  exact c.uses h

/-- The keys from one point of a run to a later one. -/
theorem run_evolves (start : McpState) (hstart : start.world.store.KeysUnique)
    (tr : List (Nat × KeyOp)) (P : Pool Err KeyOp KeyOp.Ret McpState)
    (hrun : Pool.Run (keyExec h) (keyThread h) ⟨start, []⟩ tr P)
    (pre mid post : List (Nat × KeyOp)) (htr : tr = pre ++ mid ++ post) :
    (replay (keyExec h) start (pre ++ mid)).world.store.KeysUnique ∧
      ServerEvolves (replay (keyExec h) start pre) (replay (keyExec h) start (pre ++ mid)) := by
  have hkeeps := run_keepsKeys h start tr P hrun
  rw [htr] at hkeeps
  have hpre := (replay_evolves h pre (fun e he => hkeeps e (by simp [he])) start hstart).1
  rw [replay_append]
  exact replay_evolves h mid (fun e he => hkeeps e (by simp [he])) _ hpre

/-- An authentication looked the key up before, and found it live. -/
theorem grant_lookup (start : McpState) (tr : List (Nat × KeyOp))
    (P : Pool Err KeyOp KeyOp.Ret McpState)
    (hrun : Pool.Run (keyExec h) (keyThread h) ⟨start, []⟩ tr P) (pre post : List (Nat × KeyOp))
    (j : Nat) (r : KeyReport) (htr : tr = pre ++ (j, .report r) :: post)
    (q projectID environmentID : String)
    (hgrants : r.grants = some (q, projectID, environmentID)) :
    ∃ before tenant after key,
      pre = before ++ (j, .op (.db ⟨tenant, .apiKeyByHash (h.host.sha256 q)⟩)) :: after ∧
      key ∈ (replay (keyExec h) start before).world.store.apiKeys ∧
      key.keyHash = h.host.sha256 q ∧ key.revoked = false ∧ projectID = key.projectID ∧
      environmentID = key.environmentID ∧ ∀ p key', r = .live p key' → key' = key := by
  rcases run_keyEvidence h start tr P hrun pre post j _ htr with ⟨seen, hevidence, hseen⟩
  rcases hevidence.2 q projectID environmentID hgrants with
    ⟨tenant, s, key, hlookup, hkey, hrest⟩
  rcases hseen _ hlookup with ⟨before, after, hpre, hs⟩
  refine ⟨before, tenant, after, key, hpre, ?_, hrest⟩
  rw [← hs]
  exact hkey

/-- A key that was created was generated together with a plaintext. -/
theorem created_generated (start : McpState) (hstart : start.world.store.KeysUnique)
    (tr : List (Nat × KeyOp)) (P : Pool Err KeyOp KeyOp.Ret McpState)
    (hrun : Pool.Run (keyExec h) (keyThread h) ⟨start, []⟩ tr P) (k : APIKey)
    (hk : Created h start tr k) :
    ∃ raw, generateAPIKey h.host.sha256 raw k.createdAt k.id k.projectID k.environmentID k.name
        k.capabilityTier = (k, apiKeyPlaintext raw) ∧
      apiKeyPlaintext raw ∈ plaintexts h tr P.shared.world.calls := by
  rcases hk with ⟨pre, i, tenant, post, htr, _⟩
  rcases run_keyEvidence h start tr P hrun pre post i _ htr with ⟨seen, hevidence, hseen⟩
  rcases hevidence with ⟨tenant', s, raw, hdraw, hraw, hgenerate⟩
  rcases hseen _ hdraw with ⟨before, after, hpre, hs⟩
  refine ⟨raw, hgenerate, .inr ⟨s.world.calls, ?_, raw, hraw, rfl⟩⟩
  -- The draw is an operation of the run, so the count has gone past it.
  change s = _ at hs
  have hlater := (run_evolves h start hstart tr P hrun
    (before ++ [(i, .op (.db ⟨tenant', .randomBytes⟩))])
    (after ++ (i, .op (.db ⟨tenant, .createAPIKey k⟩)) :: post) []
    (by rw [htr, hpre]; simp)).2.2
  rw [replay_append, replay_cons, replay_nil, ← hs] at hlater
  change (exec h.host ⟨tenant', .randomBytes⟩ s.world).2.calls ≤ _ at hlater
  rw [exec_calls] at hlater
  rw [Pool.run_replay _ tr P hrun]
  refine Nat.lt_of_succ_le (Nat.le_trans hlater (Nat.le_of_eq ?_))
  rw [htr, hpre]
  simp

/-- A plaintext is accepted only for the key it was issued for. -/
theorem grant_issued (start : McpState) (hstart : start.world.store.KeysUnique)
    (tr : List (Nat × KeyOp)) (P : Pool Err KeyOp KeyOp.Ret McpState)
    (hrun : Pool.Run (keyExec h) (keyThread h) ⟨start, []⟩ tr P)
    (hinj : Set.InjOn h.host.sha256 (plaintexts h tr P.shared.world.calls)) (j : Nat)
    (r : KeyReport) (q projectID environmentID : String) (hmem : (j, .report r) ∈ tr)
    (hgrants : r.grants = some (q, projectID, environmentID)) :
    ∃ k, IssuedFor h start tr q k ∧ projectID = k.projectID ∧ environmentID = k.environmentID ∧
      ∀ p key, r = .live p key → k.SameIssue key := by
  rcases List.append_of_mem hmem with ⟨pre, post, htr⟩
  rcases grant_lookup h start tr P hrun pre post j r htr q _ _ hgrants with
    ⟨before, tenant, after, key, hpre, hkey, hhash, _, hproj, henv, hlive⟩
  have hkeeps := run_keepsKeys h start tr P hrun
  rw [htr, hpre] at hkeeps
  rcases keys_created h start before (fun e he => hkeeps e (by simp [he])) key hkey with
    ⟨k, horigin, hsame⟩
  rw [hsame.keyHash] at hhash
  refine ⟨k, ⟨hhash, ?_⟩, ?_, ?_, fun p key' hr => ?_⟩
  · rcases horigin with hold | hcreated
    · exact .inl hold
    · have hcreated' : Created h start tr k := by
        rw [htr, hpre, List.append_assoc]
        exact hcreated.append h start before _ k
      rcases created_generated h start hstart tr P hrun k hcreated' with ⟨raw, hgenerate, hraw⟩
      -- Both plaintexts have the hash of the key, so they are the same.
      have hkeyHash : k.keyHash = h.host.sha256 (apiKeyPlaintext raw) := by
        rw [← (Prod.mk.inj hgenerate).1]
      have hsame : apiKeyPlaintext raw = q :=
        hinj hraw (.inl ⟨j, r, projectID, environmentID, hmem, hgrants⟩) (hkeyHash.symm.trans hhash)
      rw [hsame] at hgenerate
      exact .inr ⟨hcreated', raw, hgenerate⟩
  · rw [hproj, hsame]
  · rw [henv, hsame]
  · rw [hlive p key' hr]
    exact hsame

/-- A reported revocation has happened, and the key stays revoked. -/
theorem revoked_stays (start : McpState) (hstart : start.world.store.KeysUnique)
    (tr : List (Nat × KeyOp)) (P : Pool Err KeyOp KeyOp.Ret McpState)
    (hrun : Pool.Run (keyExec h) (keyThread h) ⟨start, []⟩ tr P)
    (pre post : List (Nat × KeyOp)) (htr : tr = pre ++ post) (i : Nat) (id : String)
    (hmem : (i, .report (.revoked id)) ∈ pre) :
    ∃ k ∈ (replay (keyExec h) start pre).world.store.apiKeys, k.id = id ∧ k.revoked = true := by
  rcases List.append_of_mem hmem with ⟨pre₁, mid, hpre⟩
  rcases run_keyEvidence h start tr P hrun pre₁ (mid ++ post) i
    (.report (.revoked id)) (by rw [htr, hpre]; simp) with ⟨seen, hevidence, hseen⟩
  rcases hevidence.1 id rfl with ⟨tenant, s, hrevoke, hok⟩
  rcases hseen _ hrevoke with ⟨before, after, hpre₁, hs⟩
  change s = _ at hs
  rcases revokeAPIKey_revoked h.host tenant id s.world hok with ⟨k, hk, hid, hrevoked⟩
  -- The row the revocation left is there from then on.
  have hlater := (run_evolves h start hstart tr P hrun
    (before ++ [(i, .op (.db ⟨tenant, .revokeAPIKey id⟩))])
    (after ++ (i, .report (.revoked id)) :: mid) post (by rw [htr, hpre, hpre₁]; simp)).2.1
  have hsplit : before ++ [(i, .op (.db ⟨tenant, .revokeAPIKey id⟩))] ++
      (after ++ (i, .report (.revoked id)) :: mid) = pre := by
    rw [hpre, hpre₁]
    simp
  rw [hsplit, replay_append, replay_cons, replay_nil, ← hs] at hlater
  rcases hlater k hk with ⟨k', hk', hsame, hfrozen⟩
  refine ⟨k', hk', ?_⟩
  rw [hfrozen hrevoked]
  exact ⟨hid, hrevoked⟩

/-- A row with the id of a key that is issued sometime in the run is a row of
    that key. -/
theorem issued_row (start : McpState) (hstart : start.world.store.KeysUnique)
    (tr : List (Nat × KeyOp)) (P : Pool Err KeyOp KeyOp.Ret McpState)
    (hrun : Pool.Run (keyExec h) (keyThread h) ⟨start, []⟩ tr P) (pre post : List (Nat × KeyOp))
    (htr : tr = pre ++ post) (q : String) (k row : APIKey) (hissued : IssuedFor h start tr q k)
    (hrow : row ∈ (replay (keyExec h) start pre).world.store.apiKeys) (hid : row.id = k.id) :
    k.SameIssue row := by
  rcases run_evolves h start hstart tr P hrun [] pre post htr with ⟨hunique, hevolves⟩
  rw [List.nil_append] at hunique hevolves
  -- If the key was stored before, its row has stayed, and there is only one.
  have hbefore : ∀ k' ∈ (replay (keyExec h) start pre).world.store.apiKeys, k.SameIssue k' →
      k.SameIssue row := by
    intro k' hk' hsame
    rw [hunique.eq_of_id _ row k' hrow hk' (by rw [hid, hsame.id])]
    exact hsame
  rcases hissued.2 with hold | ⟨⟨pre', i, tenant, post', htr', hok⟩, _⟩
  · rcases hevolves.1 k hold with ⟨k', hk', hsame, _⟩
    exact hbefore k' hk' hsame
  rcases createAPIKey_stored h.host tenant k _ hok with ⟨hfresh, hstored⟩
  -- It cannot be created later, since its id is taken.
  have hlater : ∀ mid, pre' = pre ++ mid → k.SameIssue row := by
    intro mid hpre'
    have hsince := (run_evolves h start hstart tr P hrun pre mid
      ((i, .op (.db ⟨tenant, .createAPIKey k⟩)) :: post') (by rw [htr', hpre'])).2.1
    rw [← hpre'] at hsince
    rcases hsince row hrow with ⟨k', hk', hsame, _⟩
    exact absurd (by rw [hsame.id, hid]) (hfresh k' hk')
  rcases List.append_eq_append_iff.mp (htr.symm.trans htr') with ⟨mid, hpre', _⟩ | ⟨mid, hpre, hmid⟩
  · exact hlater mid hpre'
  · cases mid with
    | nil => exact hlater [] (by rw [hpre, List.append_nil, List.append_nil])
    | cons e mid =>
        rw [List.cons_append, List.cons.injEq] at hmid
        rw [← hmid.1, ← List.singleton_append, ← List.append_assoc] at hpre
        have hsince := (run_evolves h start hstart tr P hrun
          (pre' ++ [(i, .op (.db ⟨tenant, .createAPIKey k⟩))]) mid post (by rw [htr, hpre])).2.1
        rw [← hpre, replay_append, replay_cons, replay_nil] at hsince
        rcases hsince k hstored with ⟨k', hk', hsame, _⟩
        exact hbefore k' hk' hsame

/-- An attempt that begins after a revocation was reported is not accepted with
    the plaintext of the key. -/
theorem no_grant_after_revoke (start : McpState) (hstart : start.world.store.KeysUnique)
    (tr : List (Nat × KeyOp)) (P : Pool Err KeyOp KeyOp.Ret McpState)
    (hrun : Pool.Run (keyExec h) (keyThread h) ⟨start, []⟩ tr P) (pre post : List (Nat × KeyOp))
    (i : Nat) (id : String) (htr : tr = pre ++ (i, .report (.revoked id)) :: post) (j : Nat)
    (r : KeyReport) (hmem : (j, .report r) ∈ post) (hlater : ∀ e ∈ pre, e.1 ≠ j)
    (q projectID environmentID : String)
    (hgrants : r.grants = some (q, projectID, environmentID)) (k : APIKey)
    (hissued : IssuedFor h start tr q k) : k.id ≠ id := by
  intro hid
  rcases List.append_of_mem hmem with ⟨mid, rest, hpost⟩
  rcases grant_lookup h start tr P hrun (pre ++ (i, .report (.revoked id)) :: mid) rest j r
    (by rw [htr, hpost]; simp) q _ _ hgrants with
    ⟨before, tenant, after, key, hsplit, hkey, hhash, hlive, _⟩
  -- The lookup is an operation of a thread that had not begun, so it comes
  -- after the report.
  have hreported : (i, .report (.revoked id)) ∈ before := by
    rcases append_cons_cases _ _ _ _ _ _ hsplit with ⟨_, hsame, _⟩ | ⟨m, hbefore, _⟩ | ⟨m, hpre, _⟩
    · exact (nomatch (Prod.mk.inj hsame).2)
    · rw [hbefore]
      simp
    · rw [hpre] at hlater
      exact absurd rfl (hlater _ (List.mem_append_right _ List.mem_cons_self))
  have hwhole : tr = before ++ ((j, .op (.db ⟨tenant, .apiKeyByHash (h.host.sha256 q)⟩)) :: after ++
      (j, .report r) :: rest) := by
    rw [List.cons_append, ← List.cons_append, ← List.append_assoc, ← hsplit, htr, hpost]
    simp
  rcases revoked_stays h start hstart tr P hrun before _ hwhole i id hreported with
    ⟨gone, hgone, hgoneid, hgonerev⟩
  have hrow := issued_row h start hstart tr P hrun before _ hwhole q k gone hissued hgone
    (hgoneid.trans hid.symm)
  have hunique := (run_evolves h start hstart tr P hrun [] before _ hwhole).1
  have hsame : key = gone :=
    hunique.eq_of_hash _ key gone hkey hgone (by rw [hhash, hrow.keyHash, hissued.1])
  rw [hsame, hgonerev] at hlive
  exact (nomatch hlive)

/-- The row of a revoked key never changes again. -/
theorem revoked_frozen (start : McpState) (hstart : start.world.store.KeysUnique)
    (tr : List (Nat × KeyOp)) (P : Pool Err KeyOp KeyOp.Ret McpState)
    (hrun : Pool.Run (keyExec h) (keyThread h) ⟨start, []⟩ tr P) (i : Nat) (id : String)
    (hmem : (i, .report (.revoked id)) ∈ tr) :
    ∃ k, k.id = id ∧ k.revoked = true ∧ ∀ tr' P', Pool.Run (keyExec h) (keyThread h) P tr' P' →
      k ∈ P'.shared.world.store.apiKeys ∧
        ∀ k' ∈ P'.shared.world.store.apiKeys, k'.id = id → k' = k := by
  rcases revoked_stays h start hstart tr P hrun tr [] (List.append_nil tr).symm i id hmem with
    ⟨k, hk, hid, hrevoked⟩
  refine ⟨k, hid, hrevoked, fun tr' P' hrun' => ?_⟩
  have hwhole := Pool.run_trans _ _ _ _ _ _ _ hrun hrun'
  rcases run_evolves h start hstart (tr ++ tr') P' hwhole tr tr' [] (List.append_nil _).symm with
    ⟨hunique, hevolves, _⟩
  rw [Pool.run_replay _ _ P' hwhole]
  rcases hevolves k hk with ⟨k'', hk'', _, hfrozen⟩
  rw [hfrozen hrevoked] at hk''
  refine ⟨hk'', fun k' hk' hid' => ?_⟩
  exact hunique.eq_of_id _ k' k hk' hk'' (hid'.trans hid.symm)

end Runs

/-- The life of an API key, in every interleaving of the calls. A plaintext is
    accepted only for the key it was issued for, with the project and
    environment of that key. Once a revocation was reported, no attempt that
    begins later is accepted with the plaintext of the key, and its row never
    changes again, whatever the calls still in progress do. -/
theorem key_lifecycle (h : McpHost) (start : McpState) (hstart : start.world.store.KeysUnique)
    (tr : List (Nat × KeyOp)) (P : Pool Err KeyOp KeyOp.Ret McpState)
    (hrun : Pool.Run (keyExec h) (keyThread h) ⟨start, []⟩ tr P)
    (hinj : Set.InjOn h.host.sha256 (plaintexts h tr P.shared.world.calls)) :
    (∀ j r q projectID environmentID, (j, .report r) ∈ tr →
      KeyReport.grants r = some (q, projectID, environmentID) →
        ∃ k, IssuedFor h start tr q k ∧ projectID = k.projectID ∧ environmentID = k.environmentID ∧
          ∀ p key, r = .live p key → k.SameIssue key) ∧
    (∀ pre i id post, tr = pre ++ (i, .report (.revoked id)) :: post →
      ∀ j r q projectID environmentID k, (j, .report r) ∈ post → (∀ e ∈ pre, e.1 ≠ j) →
        KeyReport.grants r = some (q, projectID, environmentID) → IssuedFor h start tr q k →
          k.id ≠ id) ∧
    ∀ i id, (i, .report (.revoked id)) ∈ tr → ∃ k : APIKey, k.id = id ∧ k.revoked = true ∧
      ∀ tr' P', Pool.Run (keyExec h) (keyThread h) P tr' P' →
        k ∈ P'.shared.world.store.apiKeys ∧
          ∀ k' ∈ P'.shared.world.store.apiKeys, k'.id = id → k' = k :=
  ⟨fun j r q projectID environmentID hmem hgrants =>
      grant_issued h start hstart tr P hrun hinj j r q projectID environmentID hmem hgrants,
    fun pre i id post htr j r q projectID environmentID k hmem hlater hgrants hissued =>
      no_grant_after_revoke h start hstart tr P hrun pre post i id htr j r hmem hlater q projectID
        environmentID hgrants k hissued,
    fun i id hmem => revoked_frozen h start hstart tr P hrun i id hmem⟩

/-- The key of the agent. -/
def agentKey : APIKey :=
  ⟨"k1", "p1", "e1", "agent", demoHost.host.sha256 "cg_demo", "demo", .write, 0, none⟩

/-- The agent authenticates, and then an admin revokes its key. -/
def revocation : Pool Err KeyOp KeyOp.Ret McpState where
  shared := demoState
  threads := [KeyCall.program demoHost (.authenticateMCP ⟨none, none⟩ "cg_demo"),
    KeyCall.program demoHost (.revoke ⟨some ⟨"u1", .admin⟩, none⟩ "k1")]

def revocationTrace : List (Nat × KeyOp) :=
  [(0, .op (.db ⟨none, .apiKeyByHash (demoHost.host.sha256 "cg_demo")⟩)),
    (0, .report (.live "cg_demo" agentKey)), (1, .op (.db ⟨none, .revokeAPIKey "k1"⟩)),
    (1, .report (.revoked "k1"))]

theorem key_lifecycle_demo :
    (∃ k, IssuedFor demoHost demoState revocationTrace "cg_demo" k ∧ k.projectID = "p1" ∧
        k.environmentID = "e1") ∧
      ∃ k : APIKey, k.id = "k1" ∧ k.revoked = true ∧
        k ∈ (Pool.follow (keyExec demoHost) revocation [0, 0, 1, 1]).shared.world.store.apiKeys := by
  have hspawn : Pool.Run (keyExec demoHost) (keyThread demoHost) ⟨demoState, []⟩ [] revocation :=
    Pool.Run.spawn [] ⟨_, [_]⟩ _ (Pool.Run.spawn [] ⟨_, []⟩ _ Pool.Run.start ⟨_, rfl⟩) ⟨_, rfl⟩
  have hrun : Pool.Run (keyExec demoHost) (keyThread demoHost) ⟨demoState, []⟩ revocationTrace
      (Pool.follow (keyExec demoHost) revocation [0, 0, 1, 1]) :=
    Pool.run_trace _ _ _ [0, 0, 1, 1] _ _ hspawn
  -- One plaintext is presented, and none is generated.
  have honly : ∀ n, plaintexts demoHost revocationTrace n ⊆ {"cg_demo"} := by
    rintro n q (⟨i, r, projectID, environmentID, hmem, hgrants⟩ | ⟨m, _, raw, hraw, _⟩)
    · simp only [revocationTrace, List.mem_cons, Prod.mk.injEq, reduceCtorEq, and_false, false_or,
        Reporting.report.injEq, List.not_mem_nil, or_false] at hmem
      rcases hmem with ⟨_, rfl⟩ | ⟨_, rfl⟩
      · exact (Prod.mk.inj (Option.some.inj hgrants)).1.symm
      · exact (nomatch hgrants)
    · exact (nomatch hraw)
  rcases key_lifecycle demoHost demoState ⟨by decide, by decide⟩ _ _ hrun
    (Set.InjOn.mono (honly _) (Set.injOn_singleton _ _)) with ⟨hgrant, _, hfrozen⟩
  refine ⟨?_, ?_⟩
  · rcases hgrant 0 (.live "cg_demo" agentKey) "cg_demo" "p1" "e1" (by simp [revocationTrace]) rfl
      with ⟨k, hissued, hproj, henv, _⟩
    exact ⟨k, hissued, hproj.symm, henv.symm⟩
  · rcases hfrozen 1 "k1" (by simp [revocationTrace]) with ⟨k, hid, hrevoked, hstays⟩
    exact ⟨k, hid, hrevoked, (hstays [] _ Pool.Run.start).1⟩

end Cuttlegate
