import CallingAgent.Impl.Reads

/-!
# The administration

`services/api/src/routers/admin.py`: the role gates, the changes of a user's
record, and the read endpoints. `_write_audit_log` comes after the commit and
swallows its failures, so it is not part of what a request makes of the record.
-/

namespace CallingAgent.Impl.Admin

open CallingAgent.Framework CallingAgent.Impl.Auth CallingAgent.Impl.Reads

/-! ## RBAC -/

/-- `_require_super_admin` in front of a handler. -/
def requireSuperAdmin {β : Type} (user : Claims) (httpException : Nat → String → β) (handler : β) : β :=
  if user.role = some "super_admin" then handler else httpException 403 "super_admin role required"

/-- `_require_admin` in front of a handler. -/
def requireAdmin {β : Type} (user : Claims) (httpException : Nat → String → β) (handler : β) : β :=
  if user.role = some "super_admin" ∨ user.role = some "tenant_admin" then handler
  else httpException 403 "admin role required"

/-! ## Users -/

/-- `VALID_USER_ROLES`. -/
def userRole : String → Option UserRole
  | "super_admin" => some .superAdmin
  | "tenant_admin" => some .tenantAdmin
  | "agent" => some .agent
  | _ => none

/-- `VALID_USER_STATUSES`. -/
def userStatus : String → Option UserStatus
  | "active" => some .active
  | "suspended" => some .suspended
  | _ => none

/-- A validated body of `PUT /admin/users/{user_id}`. -/
structure UserUpdate where
  fullName : Option String := none
  role : Option String := none
  status : Option String := none
  password : Option String := none
  password_length : ∀ p ∈ password, 8 ≤ p.length ∧ p.length ≤ 72

/-- A change of one row. -/
def setUser (userId : String) (change : AdminUser → AdminUser) (keeps : ∀ r, (change r).id = r.id) :
    Update AdminUser.id where
  guard r := r.id == userId
  set := change
  keeps := keeps

/-- What the body makes of the record; its role and status are valid. -/
def UserUpdate.apply (body : UserUpdate) (bcrypt : Bcrypt) (salt : String) (user : AdminUser) : AdminUser :=
  { user with
    fullName := body.fullName.getD user.fullName
    role := (body.role.bind userRole).or user.role
    status := (body.status.bind userStatus).or user.status
    passwordHash := (body.password.map (bcrypt.hashpw salt)).or user.passwordHash }

/-- The table after the request, and its answer. -/
def updateUser (bcrypt : Bcrypt) (salt : String) (users : Users) (userId : String) (body : UserUpdate)
    (actor : Claims) : Users × Answer AdminUser :=
  requireSuperAdmin actor (fun statusCode detail => (users, .httpException statusCode detail)) <|
    match users.lookup userId with
    | none => (users, .httpException 404 "User not found")
    | some user =>
      if body.role.any fun role => (userRole role).isNone then
        (users, .httpException 400 "role must be one of ['agent', 'super_admin', 'tenant_admin']")
      else if body.status.any fun status => (userStatus status).isNone then
        (users, .httpException 400 "status must be one of ['active', 'suspended']")
      else
        (users.update (setUser userId (body.apply bcrypt salt) fun _ => rfl), .ok (body.apply bcrypt salt user))

/-- A soft delete. -/
def suspend (user : AdminUser) : AdminUser := { user with status := some .suspended }

def deleteUser (users : Users) (userId : String) (actor : Claims) : Users × Answer Unit :=
  requireSuperAdmin actor (fun statusCode detail => (users, .httpException statusCode detail)) <|
    match users.lookup userId with
    | none => (users, .httpException 404 "User not found")
    | some _ => (users.update (setUser userId suspend fun _ => rfl), .ok ())

/-! ## Responses -/

structure ClientResponse where
  id : Int
  name : String
  slug : Option String
  plan : Option Plan
  status : Option ClientStatus
  contactEmail : Option String
  contactPhone : Option String
  apiLimit : Option Int
  maxConcurrentCalls : Option Int
  createdAt : Option Time
  updatedAt : Option Time
  deriving DecidableEq

/-- `model_config = {"from_attributes": True}`. -/
def clientResponse (client : Client) : ClientResponse where
  id := client.id
  name := client.name
  slug := client.slug
  plan := client.plan
  status := client.status
  contactEmail := client.contactEmail
  contactPhone := client.contactPhone
  apiLimit := client.apiLimit
  maxConcurrentCalls := client.maxConcurrentCalls
  createdAt := client.createdAt
  updatedAt := client.updatedAt

structure TenantResponse where
  tenantId : String
  name : String
  slug : Option String
  plan : Option Plan
  status : Option ClientStatus
  contactEmail : Option String
  contactPhone : Option String
  apiLimit : Option Int
  maxConcurrentCalls : Option Int
  createdAt : Option Time
  updatedAt : Option Time
  deriving DecidableEq

/-- `_client_to_tenant`. -/
def clientToTenant (client : Client) : TenantResponse where
  tenantId := toString client.id
  name := client.name
  slug := client.slug
  plan := client.plan
  status := client.status
  contactEmail := client.contactEmail
  contactPhone := client.contactPhone
  apiLimit := client.apiLimit
  maxConcurrentCalls := client.maxConcurrentCalls
  createdAt := client.createdAt
  updatedAt := client.updatedAt

structure UserResponse where
  userId : String
  email : String
  fullName : String
  role : Option UserRole
  tenantId : Option String
  status : Option UserStatus
  createdAt : Option Time
  deriving DecidableEq

/-- `_user_to_response`. -/
def userToResponse (user : AdminUser) : UserResponse where
  userId := user.id
  email := user.email
  fullName := user.fullName
  role := user.role
  tenantId := user.tenantId.map toString
  status := user.status
  createdAt := user.createdAt

/-- `ClientStats` and `TenantStats`, which name the tenant by a number and by
its text. -/
structure Stats (κ : Type) where
  tenant : κ
  totalCalls : Nat
  callsThisMonth : Nat
  activeUsers : Nat
  planCallLimit : Int
  planUsagePct : String
  deriving DecidableEq

/-- What a handler returns. -/
inductive Body
  | clients (page : Page Client)
  | client (client : Client)
  | clientStats (stats : Stats Int)
  | users (page : Page AdminUser)
  | user (user : AdminUser)
  | calls (page : Page Caller)
  | call (call : Caller)
  | tenants (page : Page Client)
  | tenant (client : Client)
  | tenantStats (stats : Stats String)
  | auditLogs (page : Page AuditLog)
  deriving DecidableEq

/-- The body of a 200; `CallResponse` and `AuditLogResponse` have all columns
of their rows. -/
inductive Response
  | clients (page : Page ClientResponse)
  | client (client : ClientResponse)
  | clientStats (stats : Stats Int)
  | users (page : Page UserResponse)
  | user (user : UserResponse)
  | calls (page : Page Caller)
  | call (call : Caller)
  | tenants (page : Page TenantResponse)
  | tenant (tenant : TenantResponse)
  | tenantStats (stats : Stats String)
  | auditLogs (page : Page AuditLog)
  deriving DecidableEq

/-- The query of a page is one that the driver takes. -/
def Body.fits : Body → Bool
  | .clients page => page.fits
  | .users page => page.fits
  | .calls page => page.fits
  | .tenants page => page.fits
  | .auditLogs page => page.fits
  | _ => true

/-- `Optional[dict]` of a JSON column; a JSON `null` is loaded as `None`, like an SQL one. -/
def optionalDict (env : Env) (value : Option Json) : Bool :=
  value.all fun document => document == "null" || env.isDict document

/-- `response_model`. The values of an audit row have to be objects or null. -/
def response (env : Env) : Body → Answer Response
  | .clients page => .ok (.clients (page.map clientResponse))
  | .client client => .ok (.client (clientResponse client))
  | .clientStats stats => .ok (.clientStats stats)
  | .users page => .ok (.users (page.map userToResponse))
  | .user user => .ok (.user (userToResponse user))
  | .calls page => .ok (.calls page)
  | .call call => .ok (.call call)
  | .tenants page => .ok (.tenants (page.map clientToTenant))
  | .tenant client => .ok (.tenant (clientToTenant client))
  | .tenantStats stats => .ok (.tenantStats stats)
  | .auditLogs page =>
    if page.data.all fun log => optionalDict env log.beforeValue && optionalDict env log.afterValue then
      .ok (.auditLogs page)
    else .raised

/-! ## Read endpoints -/

structure ClientsQuery where
  paging : Paging
  status : Option String := none
  search : Option String := none

structure UsersQuery where
  paging : Paging
  tenantId : Option Int := none
  role : Option String := none
  status : Option String := none

structure CallsQuery where
  paging : Paging
  tenantId : Option Int := none
  search : Option String := none

structure AuditLogsQuery where
  paging : Paging
  tenantId : Option Int := none
  action : Option String := none

/-- The tenant whose rows `list_users`, `list_calls` and `list_audit_logs`
select: that of the token, or for a super admin that of the query, if any. -/
def boundTenant (user : Claims) (tenantId : Option Int) (handler : Option Int → Answer Body) : Answer Body :=
  if user.role = some "tenant_admin" then
    if noTenant user then .httpException 403 "tenant_admin token has no tenant assigned" else handler user.clientId
  else handler tenantId

/-- `stmt.where(column == value)`, if there is a value. -/
def whereTenant {κ : Type} [DecidableEq κ] (value column : Option κ) : Bool := value.all (column = some ·)

/-- The rows of `list_clients` and `list_tenants`. -/
def selectClients (env : Env) (db : Session) (query : ClientsQuery) : Page Client :=
  query.paging.select env.clientOrder <| db.clients.filter fun client =>
    whereEqual query.status (client.status.map (·.text)) && whereLike env query.search [some client.name]

def listClients (env : Env) (db : Session) (query : ClientsQuery) : Answer Body :=
  .ok (.clients (selectClients env db query))

def getClient (db : Session) (clientId : Int) : Answer Body :=
  match db.getClient clientId with
  | none => .httpException 404 "Client not found"
  | some client => .ok (.client client)

/-- The numbers of `get_client_stats` and `get_tenant_stats`. -/
def stats {κ : Type} (env : Env) (db : Session) (client : Client) (id : Int) (tenant : κ) : Stats κ :=
  let calls := db.callRequests.filter fun call => call.clientId = some id
  let limit := client.apiLimit.getD 0
  { tenant := tenant
    totalCalls := calls.length
    callsThisMonth := countSince (startOfMonth env.now) (·.createdAt) calls
    activeUsers := db.users.countP fun user => user.tenantId = some id && user.status = some .active
    planCallLimit := limit
    planUsagePct := if limit = 0 then "0.0" else env.usagePct calls.length limit }

def getClientStats (env : Env) (db : Session) (clientId : Int) : Answer Body :=
  match db.getClient clientId with
  | none => .httpException 404 "Client not found"
  | some client => .ok (.clientStats (stats env db client clientId clientId))

def listUsers (env : Env) (db : Session) (user : Claims) (query : UsersQuery) : Answer Body :=
  boundTenant user query.tenantId fun tenantId =>
    .ok <| .users <| query.paging.select env.userOrder <| db.users.filter fun row =>
      whereTenant tenantId row.tenantId && whereEqual query.role (row.role.map (·.text)) &&
        whereEqual query.status (row.status.map (·.text))

/-- The row that `get_user` or `get_call` fetched: a tenant admin may only view
those of their own tenant. -/
def viewRow {ρ : Type} (user : Claims) (notFound : String) (tenantId : ρ → Option Int) (body : ρ → Body)
    (fetched : Option ρ) : Answer Body :=
  match fetched with
  | none => .httpException 404 notFound
  | some row =>
    if user.role = some "tenant_admin" ∧ tenantId row ≠ user.clientId then .httpException 403 "Access denied"
    else .ok (body row)

def getUser (db : Session) (user : Claims) (userId : String) : Answer Body :=
  viewRow user "User not found" AdminUser.tenantId .user (db.getUser userId)

def listCalls (env : Env) (db : Session) (user : Claims) (query : CallsQuery) : Answer Body :=
  boundTenant user query.tenantId fun tenantId =>
    .ok <| .calls <| query.paging.select env.callOrder <| db.callRequests.filter fun row =>
      whereTenant tenantId row.clientId && whereLike env query.search [row.customerName, row.phoneNumber]

def getCall (db : Session) (user : Claims) (callId : Int) : Answer Body :=
  viewRow user "Call not found" Caller.clientId .call (db.getCaller callId)

def listTenants (env : Env) (db : Session) (query : ClientsQuery) : Answer Body :=
  .ok (.tenants (selectClients env db query))

def getTenant (db : Session) (tenantId : Int) : Answer Body :=
  match db.getClient tenantId with
  | none => .httpException 404 "Tenant not found"
  | some client => .ok (.tenant client)

def getTenantStats (env : Env) (db : Session) (tenantId : Int) : Answer Body :=
  match db.getClient tenantId with
  | none => .httpException 404 "Tenant not found"
  | some client => .ok (.tenantStats (stats env db client tenantId (toString tenantId)))

def listAuditLogs (env : Env) (db : Session) (user : Claims) (query : AuditLogsQuery) : Answer Body :=
  boundTenant user query.tenantId fun tenantId =>
    .ok <| .auditLogs <| query.paging.select (env.auditLogOrder.desc env.dialect (·.occurredAt)) <|
      db.auditLogs.filter fun row =>
        whereTenant (tenantId.map toString) row.tenantId && whereEqual query.action (some row.action)

/-- A `GET` below `/admin`. -/
inductive Get
  | listClients (query : Params ClientsQuery)
  | getClient (clientId : Params Int)
  | getClientStats (clientId : Params Int)
  | listUsers (query : Params UsersQuery)
  | getUser (userId : String)
  | listCalls (query : Params CallsQuery)
  | getCall (callId : Params Int)
  | listTenants (query : Params ClientsQuery)
  | getTenant (tenantId : Params Int)
  | getTenantStats (tenantId : Params Int)
  | listAuditLogs (query : Params AuditLogsQuery)

/-- What the handler returns, behind its dependencies. -/
def get (env : Env) (db : Session) (user : Claims) : Get → Answer Body
  | .listClients query =>
    requireSuperAdmin user .httpException <| validated query <| listClients env db
  | .getClient clientId =>
    requireSuperAdmin user .httpException <| validated clientId <| getClient db
  | .getClientStats clientId =>
    requireSuperAdmin user .httpException <| validated clientId <| getClientStats env (tenantScopedDb user db)
  | .listUsers query =>
    requireAdmin user .httpException <| validated query <| listUsers env (tenantScopedDb user db) user
  | .getUser userId => requireAdmin user .httpException <| getUser (tenantScopedDb user db) user userId
  | .listCalls query =>
    requireAdmin user .httpException <| validated query <| listCalls env (tenantScopedDb user db) user
  | .getCall callId =>
    requireAdmin user .httpException <| validated callId <| getCall (tenantScopedDb user db) user
  | .listTenants query =>
    requireSuperAdmin user .httpException <| validated query <| listTenants env db
  | .getTenant tenantId =>
    requireSuperAdmin user .httpException <| validated tenantId <| getTenant db
  | .getTenantStats tenantId =>
    requireSuperAdmin user .httpException <| validated tenantId <| getTenantStats env (tenantScopedDb user db)
  | .listAuditLogs query =>
    requireAdmin user .httpException <| validated query <| listAuditLogs env (tenantScopedDb user db) user

end CallingAgent.Impl.Admin
