import Cuttlegate.Adapters.Routes

/-!
# Roles from the Identity Provider

How the role of a human caller is read off a verified token. The claim with
the role is a text or an array; from an array one element is selected. The
selected text is then mapped to a role by the mapper the server was configured
with, and a missing one is a matter of policy.

The selection looks for a role by the name the domain gives it, the mapping by
whatever the mapper recognises.

## Main definitions

* `RoleMapper`, `RoleMapper.mapRole`: The two mappers.
* `MissingRolePolicy`: What to do without a role.
* `extractRoleClaim`: The text a claim value gives.
* `resolveRole`: The role of a text.
* `verifiedRole`: The two in the order of the verifier.
-/

namespace Cuttlegate

/-- A role by its literal name. -/
def identityRole (claimValue : String) : Option Role :=
  if (Role.ofText claimValue).valid = true then some (Role.ofText claimValue) else none

/-- The mappers: by literal names, or by a table first. -/
inductive RoleMapper where
  | identity
  | static (m : String → Option Role)

/-- The role of a claim value, when the mapper recognises it. The table falls
    back on literal names. -/
def RoleMapper.mapRole : RoleMapper → String → Option Role
  | .identity, claimValue => identityRole claimValue
  | .static m, claimValue => (m claimValue).or (identityRole claimValue)

/-- What to do when the claim is missing; the source's type is a string, and
    every value but the constant for viewers rejects. -/
inductive MissingRolePolicy where
  | reject
  | viewer
  | other (name : String)
  deriving DecidableEq, Repr

def errMissingRoleClaim : String := "oidc: missing role claim"

/-- The loop over an array: the first literal name of a role ends it, and
    `first` is the first text so far that is not empty. -/
def extractLoop (first : String) : List Json → String
  | [] => first
  | .str s :: rest =>
      if (Role.ofText s).valid = true then s
      else extractLoop (if first = "" then s else first) rest
  | _ :: rest => extractLoop first rest

/-- The text of a claim value; a claim that is absent has none. -/
def extractRoleClaim : Option Json → String
  | some (.str s) => s
  | some (.arr elems) => extractLoop "" elems
  | _ => ""

/-- The role of a text, or the error for a missing one. A mapper need not be
    given. -/
def resolveRole (roleStr : String) (policy : MissingRolePolicy) (mapper : Option RoleMapper) :
    Except String Role :=
  if roleStr = "" then
    if policy = .viewer then .ok .viewer else .error errMissingRoleClaim
  else match mapper.bind (fun m => m.mapRole roleStr) with
    | some role => .ok role
    | none => match identityRole roleStr with
      | some role => .ok role
      | none => .ok .viewer

/-- The role of a verified token, from the value of its claim. -/
def verifiedRole (claim : Option Json) (policy : MissingRolePolicy) (mapper : RoleMapper) :
    Except String Role :=
  resolveRole (extractRoleClaim claim) policy (some mapper)

end Cuttlegate
