import IdpServer.Http.Middleware
import IdpServer.Rbac.Service

/-!
# Http.Roles — the routes of role administration

Each request passes `requireSessionPermissions` with the permissions of its route, and then goes to the
service, which does not learn who asked.
-/

namespace IdpServer.Http

open Conc Conc.Prog IdpServer.Cache IdpServer.Rbac

def authExec : Mask := 0x4#32 <<< 28

def userManage : Mask := 0x2#32 <<< 16

def opsManage : Mask := 0x2#32

/-- A request to one of the routes that change roles. -/
inductive RoleRequest where
  | assign (input : AssignRoleInput)
  | create (input : UpsertRoleInput)
  | update (input : UpsertRoleInput)
  | delete (roleCode : String)
  | bootstrap

def RoleRequest.permissions : RoleRequest → List Mask
  | assign _ => [authExec, userManage]
  | create _ | update _ | delete _ | bootstrap => [authExec, opsManage]

def RoleRequest.perform (env : Env) : RoleRequest → Service RbacError Unit
  | assign input => do let _ ← assignRole env input
  | create input => do let _ ← createRole env input
  | update input => do let _ ← updateRole env input
  | delete roleCode => deleteRole env roleCode
  | bootstrap => bootstrapBuiltinRoles env

/-- Why a request is refused. -/
inductive RoleRefusal where
  | guard (message : String)
  | service (e : RbacError)
  deriving DecidableEq, Repr

/-- A request with the session cookie it came with; the answer is the account that made it. -/
def serveRole (env : Env) (request : RoleRequest) (cookie : String) : Service RoleRefusal User := do
  let (user, _) ← adapt .guard (requireSessionPermissions env request.permissions cookie)
  adapt .service (request.perform env)
  return user

end IdpServer.Http
