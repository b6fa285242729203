import CallingAgent.Framework.Session

/-!
# Tenant context

`services/api/src/database.py` and `tenant.py`: the dependencies that give a
request its database session, and the setting `app.current_tenant` that the
row-level-security policies of the migrations compare a row's tenant with. The
setting belongs to the pooled connection (`Framework.Conn`). A `Request` has one
connection for all its transactions, on which `serve` answers it; the session of a
`PooledRequest` takes a connection of the pool for each.
-/

namespace CallingAgent.Impl.Tenant

open CallingAgent.Framework

/-- `current_setting('app.current_tenant', true)`; `none` is `NULL`, of a
setting that was never made. -/
abbrev Setting := Option String

/-- The setting that `RESET` leaves, of a setting without a default. -/
def resetSetting : Setting := some ""

/-- What an unset setting looks like. -/
def isUnset : Setting → Bool
  | none => true
  | some v => v == ""

/-- `_ALL_TENANTS_SENTINEL`. -/
def allTenantsSentinel : String := "__all_tenants__"

/-- The `tenant_isolation` policy, of a row with this `tenant_id`: `_BYPASS OR
tenant_id = current_setting('app.current_tenant', true)`, which is not true of
a `NULL` on either side. -/
def tenantIsolation (g : Setting) (tenantId : Option String) : Bool :=
  g == some allTenantsSentinel ||
    match tenantId, g with
    | some t, some v => t == v
    | _, _ => false

/-- `dialect.name` of the engine: the deployed one, and that of the unit tests. -/
inductive Dialect
  | postgresql
  | sqlite
  deriving DecidableEq

/-- The claims of a decoded token that the dependencies read. -/
structure User where
  role : Option String := none
  clientId : Option Int := none
  deriving DecidableEq

/-- `tenant_value` of `get_tenant_scoped_db`. -/
def User.tenantValue (user : User) : String :=
  if user.role.getD "agent" = "super_admin" then allTenantsSentinel
  else
    match user.clientId with
    | some n => if n = 0 then "" else toString n
    | none => ""

/-- `_set_tenant_context`. -/
def setTenantContext (dialect : Dialect) (db : Conn Setting) (tenantValue : String) : Conn Setting :=
  match dialect with
  | .postgresql => db.set (some tenantValue)
  | .sqlite => db

def getTenantScopedDb (dialect : Dialect) (user : User) (db : Conn Setting) : Conn Setting :=
  setTenantContext dialect db user.tenantValue

def getInternalServiceDb (dialect : Dialect) (db : Conn Setting) : Conn Setting :=
  setTenantContext dialect db allTenantsSentinel

def getLoginDb (dialect : Dialect) (db : Conn Setting) : Conn Setting :=
  setTenantContext dialect db allTenantsSentinel

/-- `get_db` around a request: `body` is what the dependencies over it and the
handler do with the session, and whether they raise. -/
def getDb (dialect : Dialect) (session : Conn Setting) (body : Conn Setting → Conn Setting × Bool) :
    Conn Setting :=
  let (session, raises) := body session
  let session := if raises then session.op .rollback else session
  let session :=
    match dialect with
    | .postgresql => session.set resetSetting
    | .sqlite => session
  -- `async with` closes the session, which rolls back an open transaction.
  session.op .rollback

/-- How a route gets its session. -/
inductive Dependency
  | db
  | tenantScoped (user : User)
  | internalService
  | login
  deriving DecidableEq

def Dependency.enter (dialect : Dialect) (session : Conn Setting) : Dependency → Conn Setting
  | .db => session
  | .tenantScoped user => getTenantScopedDb dialect user session
  | .internalService => getInternalServiceDb dialect session
  | .login => getLoginDb dialect session

/-- A request on a pool of one connection: what its handler does with the session, and
whether it raises then. -/
structure Request where
  dependency : Dependency
  ops : List SessionOp
  raises : Bool := false

/-- The connection after a request. -/
def serve (dialect : Dialect) (c : Conn Setting) (r : Request) : Conn Setting :=
  getDb dialect c fun session => (run Conn.op (r.dependency.enter dialect session) r.ops, r.raises)

/-- The settings that the statements of the handler see. -/
def settings (dialect : Dialect) (c : Conn Setting) (r : Request) : List Setting :=
  collect Conn.op Conn.seen (r.dependency.enter dialect c) r.ops

/-- A request on a pool of several: what its handler does, with what the setting is on the
connection that the pool would hand out. -/
structure PooledRequest where
  dependency : Dependency
  steps : List (SessionOp × Setting)

/-- The settings that the statements of the handler see. -/
def PooledRequest.settings (dialect : Dialect) (c : Conn Setting) (r : PooledRequest) : List Setting :=
  collect Conn.opOn Conn.seenOn (r.dependency.enter dialect c) r.steps

/-- The settings that its transactions after the first find on their connections. -/
def PooledRequest.found (dialect : Dialect) (c : Conn Setting) (r : PooledRequest) : List Setting :=
  collect Conn.opOn Conn.found (r.dependency.enter dialect c) r.steps

end CallingAgent.Impl.Tenant
