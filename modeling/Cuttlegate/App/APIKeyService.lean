import Cuttlegate.App.Context

/-!
# The API Key Service

Keys are created, listed, revoked and moved between tiers by an admin, and
presented as plaintext by clients. Only the hash of a plaintext is stored, so
authentication hashes what was presented and looks the hash up; an unknown or
revoked key is `forbidden`.

## Main definitions

* `APIKeyView`: A key without its hash.
* `APIKeyService.create`, `APIKeyService.list`, `APIKeyService.revoke`,
  `APIKeyService.updateCapabilityTier`: Management.
* `APIKeyService.authenticate`, `APIKeyService.authenticateMCP`: Use.

## Theorems

* `APIKeyService.create_within` and the other footprints.
* `APIKeyService.authenticateMCP_ok`, `APIKeyService.authenticate_ok`: Whom a
  plaintext authenticates as.
-/

namespace Cuttlegate

structure APIKeyView where
  id : String
  projectID : String
  environmentID : String
  name : String
  displayPrefix : String
  capabilityTier : ToolCapabilityTier
  createdAt : Time
  revokedAt : Option Time
  deriving DecidableEq, Repr

def APIKey.view (k : APIKey) : APIKeyView :=
  ⟨k.id, k.projectID, k.environmentID, k.name, k.displayPrefix, k.capabilityTier, k.createdAt,
    k.revokedAt⟩

structure APIKeyCreateResult where
  view : APIKeyView
  plaintext : String
  deriving DecidableEq, Repr

namespace APIKeyService

/-- A new key. The digest is the library's, so it is a parameter. -/
def create (sha256 : String → KeyHash) (ctx : Ctx) (projectID environmentID name : String)
    (tier : ToolCapabilityTier) : Prog APIKeyCreateResult := do
  let _ ← ctx.require .admin
  let id ← ctx.call .newUUID
  let raw ← ctx.call .randomBytes
  let now ← ctx.call .now
  let key := generateAPIKey sha256 raw now id projectID environmentID name tier
  ctx.call (.createAPIKey key.1)
  return ⟨key.1.view, key.2⟩

def list (ctx : Ctx) (projectID environmentID : String) : Prog (List APIKeyView) := do
  let _ ← ctx.require .viewer
  let keys ← ctx.call (.listAPIKeys projectID environmentID)
  return keys.map APIKey.view

def revoke (ctx : Ctx) (id : String) : Prog Unit := do
  let _ ← ctx.require .admin
  ctx.call (.revokeAPIKey id)

def updateCapabilityTier (ctx : Ctx) (id : String) (tier : ToolCapabilityTier) :
    Prog APIKeyView := do
  let _ ← ctx.require .admin
  check (refuseIf (tier.valid = false)
    (.validation "capability_tier" "must be one of: read, write, destructive"))
  let key ← ctx.call (.apiKeyByID id)
  check (refuseIf (key.revoked = true) .keyRevoked)
  ctx.call (.updateAPIKeyTier id tier)
  return { key.view with capabilityTier := tier }

/-- The stored, unrevoked key of a plaintext; every failure is `forbidden`. -/
def authenticateMCP (sha256 : String → KeyHash) (ctx : Ctx) (plaintext : String) :
    Prog APIKey := do
  match ← (ctx.call (.apiKeyByHash (sha256 plaintext))).attempt with
  | .error _ => Proc.fail .forbidden
  | .ok key => do
      check (refuseIf (key.revoked = true) .forbidden)
      return key

/-- The project and environment a plaintext is scoped to. -/
def authenticate (sha256 : String → KeyHash) (ctx : Ctx) (plaintext : String) :
    Prog (String × String) := do
  let key ← authenticateMCP sha256 ctx plaintext
  return (key.projectID, key.environmentID)

/-! ## Footprints -/

section Footprint

variable (sha256 : String → KeyHash) (ctx : Ctx)

theorem create_within (projectID environmentID name : String) (tier : ToolCapabilityTier) :
    Within [.apiKeys] (create sha256 ctx projectID environmentID name tier) := by
  refine within_require ctx _ _ (fun _ => ?_)
  refine within_bind _ _ (within_read ctx _ rfl) (fun id => ?_)
  refine within_bind _ _ (within_read ctx _ rfl) (fun raw => ?_)
  refine within_bind _ _ (within_read ctx _ rfl) (fun now => ?_)
  exact within_bind _ _ (within_call ctx _ (List.Subset.refl _)) (fun _ => within_ret _)

theorem updateCapabilityTier_within (id : String) (tier : ToolCapabilityTier) :
    Within [.apiKeys] (updateCapabilityTier ctx id tier) := by
  refine within_require ctx _ _ (fun _ => within_check _ _ (fun _ => ?_))
  refine within_bind _ _ (within_read ctx _ rfl) (fun key => within_check _ _ (fun _ => ?_))
  exact within_bind _ _ (within_call ctx _ (List.Subset.refl _)) (fun _ => within_ret _)

theorem authenticateMCP_within (plaintext : String) :
    Within [] (authenticateMCP sha256 ctx plaintext) := by
  refine within_bind _ _ (within_attempt _ (within_read ctx _ rfl)) (fun r => ?_)
  cases r with
  | error e => exact within_fail _
  | ok key => exact within_check _ _ (fun _ => within_ret key)

end Footprint

/-! ## Authentication -/

/-- A plaintext authenticates as the unrevoked key its hash finds. -/
theorem authenticateMCP_ok (h : Host) (sha256 : String → KeyHash) (ctx : Ctx) (plaintext : String)
    (w w' : World) (key : APIKey)
    (hrun : Proc.run (exec h) (authenticateMCP sha256 ctx plaintext) w = (.ok key, w')) :
    w.store.apiKeys.find? (fun k => Conn.sees ⟨ctx.tenant, h.rls⟩ k.projectID &&
      k.keyHash == sha256 plaintext) = some key ∧ key.revoked = false := by
  have hends : Proc.Ends (exec h) (fun r _ => ∀ key, r = .ok key →
      w.store.apiKeys.find? (fun k => Conn.sees ⟨ctx.tenant, h.rls⟩ k.projectID &&
        k.keyHash == sha256 plaintext) = some key ∧ key.revoked = false)
      (authenticateMCP sha256 ctx plaintext) w := by
    refine Proc.ends_attempt _ _ w (fun r w₁ hrun => ?_)
    cases r with
    | error e =>
        intro key hkey
        cases hkey
    | ok found =>
        rw [Ctx.call, Proc.run_call] at hrun
        rcases exec_ok h ⟨ctx.tenant, .apiKeyByHash (sha256 plaintext)⟩ w w₁ found hrun with
          ⟨w₂, hp, _⟩
        refine ends_check _ _ w₁ (fun _ _ key hkey => by cases hkey) (fun _ hlive key hkey => ?_)
        rw [← Except.ok.inj hkey]
        rw [refuseIf_ok, Bool.not_eq_true] at hlive
        exact ⟨(World.onStore_queryRow _ _ _ _ hp).1, hlive⟩
  exact Proc.ends_run _ w w' _ hends hrun key rfl

/-- The project and environment are those of the key. -/
theorem authenticate_ok (h : Host) (sha256 : String → KeyHash) (ctx : Ctx) (plaintext : String)
    (w w' : World) (scope : String × String)
    (hrun : Proc.run (exec h) (authenticate sha256 ctx plaintext) w = (.ok scope, w')) :
    ∃ key, w.store.apiKeys.find? (fun k => Conn.sees ⟨ctx.tenant, h.rls⟩ k.projectID &&
        k.keyHash == sha256 plaintext) = some key ∧ key.revoked = false ∧
      scope = (key.projectID, key.environmentID) := by
  unfold authenticate at hrun
  rw [Proc.run_bind] at hrun
  rcases hkey : Proc.run (exec h) (authenticateMCP sha256 ctx plaintext) w with ⟨r, w₁⟩
  rw [hkey] at hrun
  cases r with
  | error e => exact (nomatch hrun)
  | ok key =>
      rcases authenticateMCP_ok h sha256 ctx plaintext w w₁ key hkey with ⟨hfound, hlive⟩
      exact ⟨key, hfound, hlive, (Except.ok.inj (Prod.mk.inj hrun).1).symm⟩

end APIKeyService

end Cuttlegate
