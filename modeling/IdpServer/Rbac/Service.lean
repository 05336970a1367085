import IdpServer.Repository

/-!
# Rbac.Service — roles of operators

A role has a mask of privileges. `assignRole` **copies** the mask of the role, or one that is given with the
request, into the account. No call uses a transaction. Listing roles and users is left out.
-/

namespace IdpServer.Rbac

open Conc Conc.Prog IdpServer.Cache Go

inductive RbacError where
  | invalidRoleCode
  | roleAlreadyExists
  | roleNotFound
  | systemRoleImmutable
  | roleInUse
  | userNotFound
  | invalidTenantScope
  | invalidDisplayName
  | invalidDescription
  | store
  deriving DecidableEq, Repr

structure AssignRoleInput where
  userID : Int
  roleCode : String
  privilegeMask : Option Mask := none
  tenantScope : String := ""

structure AssignRoleResult where
  userID : Int
  username : String
  roleCode : String
  privilegeMask : Mask
  tenantScope : String
  deriving DecidableEq, Repr

structure UpsertRoleInput where
  roleCode : String
  displayName : String
  description : String
  privilegeMask : Mask

def isRoleCodeChar (c : Char) : Bool :=
  c.isLower || c.isDigit || c = '_' || c = ':' || c = '-'

def isRoleCode (code : String) : Bool :=
  match code.toList with
  | [] => false
  | c :: rest => c.isLower && rest.all isRoleCodeChar && 2 ≤ rest.length && rest.length ≤ 63

def assignRole (env : Env) (input : AssignRoleInput) : Service RbacError AssignRoleResult := do
  require (0 < input.userID) .userNotFound
  let roleCode := trimSpace input.roleCode
  require (roleCode ≠ "") .invalidRoleCode
  require (input.tenantScope.utf8ByteSize ≤ 128) .invalidTenantScope
  let user ← found (← call .store (Repository.findUserByID input.userID)) .userNotFound
  let role ← found (← call .store (Repository.findByRoleCode env roleCode)) .roleNotFound
  let mask := input.privilegeMask.getD role.privilegeMask
  call .store (Repository.updateRoleAndPrivilege input.userID roleCode mask
    (trimSpace input.tenantScope))
  return ⟨user.id, user.username, roleCode, mask, trimSpace input.tenantScope⟩

def normalizeRoleInput (input : UpsertRoleInput) : Service RbacError String := do
  let roleCode := trimSpace input.roleCode
  let nameSize := (trimSpace input.displayName).utf8ByteSize
  let descriptionSize := (trimSpace input.description).utf8ByteSize
  require (isRoleCode roleCode = true) .invalidRoleCode
  require (2 ≤ nameSize ∧ nameSize ≤ 128) .invalidDisplayName
  require (4 ≤ descriptionSize ∧ descriptionSize ≤ 512) .invalidDescription
  return roleCode

def createRole (env : Env) (input : UpsertRoleInput) : Service RbacError OperatorRole := do
  let roleCode ← normalizeRoleInput input
  let existing ← call .store (Repository.findByRoleCode env roleCode)
  require (existing = none) .roleAlreadyExists
  let model : OperatorRole := {
    roleCode := roleCode
    displayName := trimSpace input.displayName
    description := trimSpace input.description
    privilegeMask := input.privilegeMask
    isSystem := false }
  let created ← call .store (Repository.createRole env model)
  require (created = true) .store
  return model

def updateRole (env : Env) (input : UpsertRoleInput) : Service RbacError OperatorRole := do
  let roleCode ← normalizeRoleInput input
  let existing ← found (← call .store (Repository.findByRoleCode env roleCode)) .roleNotFound
  require (existing.isSystem = false) .systemRoleImmutable
  let model := { existing with
    displayName := trimSpace input.displayName
    description := trimSpace input.description
    privilegeMask := input.privilegeMask }
  call .store (Repository.updateRole env { model with roleCode := trimSpace model.roleCode })
  return model

def deleteRole (env : Env) (roleCode : String) : Service RbacError Unit := do
  let roleCode := trimSpace roleCode
  require (isRoleCode roleCode = true) .invalidRoleCode
  let existing ← found (← call .store (Repository.findByRoleCode env roleCode)) .roleNotFound
  require (existing.isSystem = false) .systemRoleImmutable
  let count ← call .store (Repository.countByRoleCode env roleCode)
  require (count = 0) .roleInUse
  call .store (Repository.deleteByRoleCode env roleCode)

def builtinRoles : List OperatorRole :=
  [⟨"end_user", "End User", "regular end user without management privilege", 0x00000000#32, true⟩,
    ⟨"support", "Support Engineer", "support operator with read and limited execution permissions",
      0xCC8C888C#32, true⟩,
    ⟨"oauth_admin", "OAuth Administrator", "operator managing oauth clients and protocol settings",
      0x8EEC8888#32, true⟩,
    ⟨"security_admin", "Security Administrator",
      "security operator with broad but not catastrophic security permissions", 0xEEEEEAEE#32, true⟩,
    ⟨"super_admin", "Super Administrator",
      "full access operator for bootstrap and emergency operations", 0xFFFFFFFF#32, true⟩]

def upsertRoles (env : Env) : List OperatorRole → Service RbacError Unit
  | [] => pure ()
  | role :: rest => do
    call .store (Repository.upsertRole env role)
    upsertRoles env rest

def bootstrapBuiltinRoles (env : Env) : Service RbacError Unit := upsertRoles env builtinRoles

end IdpServer.Rbac
