import Cuttlegate.Domain.Errors
import Mathlib.Data.List.Basic

/-!
# Roles, Tiers and API Keys

Who may do what. A human caller carries a role from the identity provider and
the services compare roles by level; an API key carries a capability tier and
the tool server compares tiers by rank. The two never mix.

Both types are strings in the source, so each has a value outside its
constants. An unknown role has level zero, below every requirement, and an
unknown tier has rank minus one.

## Main definitions

* `Role`, `roleLevel`, `AuthContext`: Roles and the caller they belong to.
* `requireRole`: The check at the head of a service method.
* `ToolCapabilityTier`, `tierRank`, `ToolCapabilityTier.permits`: Tiers.
* `APIKey`, `generateAPIKey`: Keys, stored by the hash of their plaintext.
* `base64RawURL`: The encoding of the random part of a key.

## Theorems

* `requireRole_ok_iff`: The check passes for a caller of sufficient level.
-/

namespace Cuttlegate

inductive Role where
  | admin
  | editor
  | viewer
  | other (name : String)
  deriving DecidableEq, Repr

/-- The level of a role; a role missing from the table has level zero. -/
def roleLevel : Role → Nat
  | .viewer => 1
  | .editor => 2
  | .admin => 3
  | .other _ => 0

structure AuthContext where
  userID : String
  role : Role
  deriving DecidableEq, Repr

/-- The caller, if there is one and the role is high enough. -/
def requireRole (auth : Option AuthContext) (min : Role) : Except Err AuthContext :=
  match auth with
  | none => .error .forbidden
  | some ac => if roleLevel ac.role < roleLevel min then .error .forbidden else .ok ac

theorem requireRole_ok_iff (auth : Option AuthContext) (min : Role) (ac : AuthContext) :
    requireRole auth min = .ok ac ↔ auth = some ac ∧ roleLevel min ≤ roleLevel ac.role := by
  unfold requireRole
  cases auth with
  | none => simp
  | some a =>
      by_cases hlow : roleLevel a.role < roleLevel min
      · simp only [hlow, if_true, reduceCtorEq, false_iff, not_and, Option.some.injEq]
        intro heq
        rw [← heq]
        omega
      · simp only [hlow, if_false, Except.ok.injEq, Option.some.injEq]
        refine ⟨fun heq => ⟨heq, ?_⟩, fun h => h.1⟩
        rw [← heq]
        omega

/-- The check fails with `forbidden` and nothing else. -/
theorem requireRole_error_iff (auth : Option AuthContext) (min : Role) (e : Err) :
    requireRole auth min = .error e ↔
      e = .forbidden ∧ ∀ ac, auth = some ac → roleLevel ac.role < roleLevel min := by
  unfold requireRole
  cases auth with
  | none => simp [eq_comm]
  | some a =>
      by_cases hlow : roleLevel a.role < roleLevel min
      · simp [hlow, eq_comm]
      · simp [hlow]

/-! ## Tiers -/

inductive ToolCapabilityTier where
  | read
  | write
  | destructive
  | other (name : String)
  deriving DecidableEq, Repr

def tierRank : ToolCapabilityTier → Int
  | .read => 0
  | .write => 1
  | .destructive => 2
  | .other _ => -1

def ToolCapabilityTier.permits (t required : ToolCapabilityTier) : Bool :=
  decide (tierRank t ≥ tierRank required)

def ToolCapabilityTier.valid : ToolCapabilityTier → Bool
  | .read | .write | .destructive => true
  | .other _ => false

/-! ## API keys -/

/-- A 32-byte digest. -/
abbrev KeyHash := List UInt8

structure APIKey where
  id : String
  projectID : String
  environmentID : String
  name : String
  keyHash : KeyHash
  displayPrefix : String
  capabilityTier : ToolCapabilityTier
  createdAt : Time
  revokedAt : Option Time
  deriving DecidableEq, Repr

def APIKey.revoked (k : APIKey) : Bool := k.revokedAt.isSome

/-- The alphabet of URL-safe base64. -/
def base64Char (n : Nat) : Char :=
  if n < 26 then Char.ofNat (n + 65)
  else if n < 52 then Char.ofNat (n + 71)
  else if n < 62 then Char.ofNat (n - 4)
  else if n = 62 then '-' else '_'

/-- URL-safe base64 without padding: three bytes become four characters, and
    a rest of one or two bytes becomes two or three. -/
def base64RawURL : List UInt8 → List Char
  | a :: b :: c :: rest =>
      let n := a.toNat * 65536 + b.toNat * 256 + c.toNat
      base64Char (n / 262144) :: base64Char (n / 4096 % 64) :: base64Char (n / 64 % 64) ::
        base64Char (n % 64) :: base64RawURL rest
  | [a, b] =>
      let n := a.toNat * 1024 + b.toNat * 4
      [base64Char (n / 4096), base64Char (n / 64 % 64), base64Char (n % 64)]
  | [a] => [base64Char (a.toNat / 4), base64Char (a.toNat % 4 * 16)]
  | [] => []

/-- The plaintext of the key made from the given random bytes. -/
def apiKeyPlaintext (raw : List UInt8) : String := "cg_" ++ String.ofList (base64RawURL raw)

/-- A new key and its plaintext, made from random bytes. The plaintext itself
    is not part of the key. -/
def generateAPIKey (sha256 : String → KeyHash) (raw : List UInt8) (now : Time)
    (id projectID environmentID name : String) (tier : ToolCapabilityTier) : APIKey × String :=
  let key : APIKey :=
    { id := id, projectID := projectID, environmentID := environmentID, name := name
      keyHash := sha256 (apiKeyPlaintext raw)
      displayPrefix := String.ofList ((base64RawURL raw).take 8)
      capabilityTier := tier, createdAt := now, revokedAt := none }
  (key, apiKeyPlaintext raw)

end Cuttlegate
