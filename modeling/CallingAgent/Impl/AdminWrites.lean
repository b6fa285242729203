import CallingAgent.Framework.Index
import CallingAgent.Impl.Admin

/-!
# The changes of the administration

`services/api/src/routers/admin.py`: the requests that create, update and delete
clients, tenants and users, and `_write_audit_log`. A handler runs up to its commit
(`mutate`), which the unique indexes can refuse, and so can the columns, whose lengths
are not modelled; then it writes its audit row. If the database refuses that one, the
rollback expires the changed row, and reading it again for the response raises. All
transactions of a request run on one connection, so that its refresh sees the row.
-/

namespace CallingAgent.Impl.AdminWrites

open CallingAgent.Framework CallingAgent.Impl.Auth CallingAgent.Impl.Reads CallingAgent.Impl.Admin

/-- `VALID_PLANS`. -/
def clientPlan : String → Option Plan
  | "starter" => some .starter
  | "pro" => some .pro
  | "enterprise" => some .enterprise
  | _ => none

/-- `VALID_CLIENT_STATUSES`. -/
def clientStatus : String → Option ClientStatus
  | "active" => some .active
  | "suspended" => some .suspended
  | "inactive" => some .inactive
  | _ => none

/-! ## Bodies -/

structure ClientCreate where
  name : String
  slug : String
  plan : String := "starter"
  contactEmail : Option String := none
  contactPhone : Option String := none
  apiLimit : Int := 100
  maxConcurrentCalls : Int := 10

structure ClientUpdate where
  name : Option String := none
  slug : Option String := none
  plan : Option String := none
  status : Option String := none
  contactEmail : Option String := none
  contactPhone : Option String := none
  apiLimit : Option Int := none
  maxConcurrentCalls : Option Int := none

structure UserCreate where
  email : String
  fullName : String
  role : String := "agent"
  tenantId : Option Int := none
  password : Option String := none
  password_length : ∀ p ∈ password, 8 ≤ p.length ∧ p.length ≤ 72

/-! ## Tables -/

structure ClientSnapshot where
  id : Int
  name : String
  slug : Option String
  plan : Option Plan
  status : Option ClientStatus
  contactEmail : Option String
  contactPhone : Option String
  apiLimit : Option Int
  maxConcurrentCalls : Option Int
  deriving DecidableEq

/-- `_client_audit_snapshot`. -/
def clientAuditSnapshot (client : Client) : ClientSnapshot where
  id := client.id
  name := client.name
  slug := client.slug
  plan := client.plan
  status := client.status
  contactEmail := client.contactEmail
  contactPhone := client.contactPhone
  apiLimit := client.apiLimit
  maxConcurrentCalls := client.maxConcurrentCalls

structure UserSnapshot where
  userId : String
  email : String
  fullName : String
  role : Option UserRole
  tenantId : Option Int
  status : Option UserStatus
  deriving DecidableEq

/-- `_user_audit_snapshot`. -/
def userAuditSnapshot (user : AdminUser) : UserSnapshot where
  userId := user.id
  email := user.email
  fullName := user.fullName
  role := user.role
  tenantId := user.tenantId
  status := user.status

inductive Snapshot
  | client (snapshot : ClientSnapshot)
  | user (snapshot : UserSnapshot)
  deriving DecidableEq

/-- What `_write_audit_log` adds. -/
structure AuditRow where
  tenantId : Option String
  userId : Option String
  action : String
  beforeValue : Option Snapshot
  afterValue : Option Snapshot
  deriving DecidableEq

/-- The committed tables, with the unique indexes on `slug` and `email`. -/
structure Tables where
  clients : Indexed Client.id Client.slug
  users : Indexed AdminUser.id fun user => some user.email
  auditLogs : List AuditRow

/-- What a request gets from outside. -/
structure Effects where
  now : Time
  uuid4 : String
  /-- The next value of the sequence of `clients.id`. -/
  clientId : Int
  /-- `bcrypt.gensalt`. -/
  salt : String
  /-- The values fit into their columns. -/
  fits : Bool

/-- A response: its status code, and the body, which is made from the row. -/
structure Reply where
  statusCode : Nat
  body : Option Response
  deriving DecidableEq

/-- What a handler is about to commit, and what it then writes and returns. -/
structure Change where
  clients : Table Client.id
  users : Users
  action : String
  tenantId : Option Int
  before : Option Snapshot
  after : Option Snapshot
  reply : Reply

/-! ## Clients and tenants -/

/-- The row of `Client(**body.model_dump())` after the flush. -/
def ClientCreate.client (body : ClientCreate) (eff : Effects) (plan : Plan) : Client where
  id := eff.clientId
  name := body.name
  slug := some body.slug
  plan := some plan
  status := some .active
  contactEmail := body.contactEmail
  contactPhone := body.contactPhone
  apiLimit := some body.apiLimit
  maxConcurrentCalls := some body.maxConcurrentCalls
  createdAt := some eff.now
  updatedAt := some eff.now
  country := none
  timezone := none
  currency := none
  defaultLanguage := none
  phoneCountryCode := none

/-- `onupdate`, which applies if a column has changed. -/
def touched (now : Time) (client changed : Client) : Client :=
  if changed = client then client else { changed with updatedAt := some now }

theorem touched_id {now : Time} {client changed : Client} (h : changed.id = client.id) :
    (touched now client changed).id = client.id := by
  unfold touched
  split
  · rfl
  · exact h

/-- What the body makes of the row; its plan and status are valid. -/
def ClientUpdate.apply (body : ClientUpdate) (now : Time) (client : Client) : Client :=
  touched now client
    { client with
      name := body.name.getD client.name
      slug := body.slug.or client.slug
      plan := (body.plan.bind clientPlan).or client.plan
      status := (body.status.bind clientStatus).or client.status
      contactEmail := body.contactEmail.or client.contactEmail
      contactPhone := body.contactPhone.or client.contactPhone
      apiLimit := body.apiLimit.or client.apiLimit
      maxConcurrentCalls := body.maxConcurrentCalls.or client.maxConcurrentCalls }

/-- A soft delete. -/
def deactivate (now : Time) (client : Client) : Client := touched now client { client with status := some .inactive }

/-- A change of one row. -/
def setClient (clientId : Int) (change : Client → Client) (keeps : ∀ r, (change r).id = r.id) : Update Client.id where
  guard r := r.id == clientId
  set := change
  keeps := keeps

/-- `select(Client).where(Client.slug == slug)` finds a row. -/
def slugTaken (db : Tables) (slug : String) : Bool := db.clients.rows.any fun client => client.slug == some slug

/-- The change of the row `client`. -/
def clientChange (db : Tables) (clients : Table Client.id) (action : String) (before : Option Client) (client : Client)
    (reply : Reply) : Change where
  clients := clients
  users := db.users.toTable
  action := action
  tenantId := some client.id
  before := before.map fun client => .client (clientAuditSnapshot client)
  after := some (.client (clientAuditSnapshot client))
  reply := reply

/-- The checks of `create_client` and `create_tenant`, which give the plan. -/
def ClientCreate.check (body : ClientCreate) (db : Tables) : Answer Plan :=
  match clientPlan body.plan with
  | none => .httpException 400 "plan must be one of ['enterprise', 'pro', 'starter']"
  | some plan => if slugTaken db body.slug then .httpException 409 "Slug already exists" else .ok plan

/-- What they add. -/
def insertClient (action : String) (response : Client → Response) (eff : Effects) (db : Tables) (body : ClientCreate)
    (plan : Plan) : Answer Change :=
  let client := body.client eff plan
  match db.clients.insert client with
  | none => .raised
  | some clients => .ok (clientChange db clients action none client ⟨201, some (response client)⟩)

/-- The checks of `update_client` and `update_tenant`, which give the row. -/
def ClientUpdate.check (body : ClientUpdate) (notFound : String) (db : Tables) (clientId : Int) : Answer Client :=
  match db.clients.lookup clientId with
  | none => .httpException 404 notFound
  | some client =>
    if body.plan.any fun plan => (clientPlan plan).isNone then
      .httpException 400 "plan must be one of ['enterprise', 'pro', 'starter']"
    else if body.status.any fun status => (clientStatus status).isNone then
      .httpException 400 "status must be one of ['active', 'inactive', 'suspended']"
    else if body.slug.any fun slug => client.slug ≠ some slug && slugTaken db slug then
      .httpException 409 "Slug already exists"
    else .ok client

def replaceClient (action : String) (response : Client → Response) (eff : Effects) (db : Tables) (body : ClientUpdate)
    (client : Client) : Answer Change :=
  let changed := body.apply eff.now client
  let clients := db.clients.update (setClient client.id (body.apply eff.now) fun _ => touched_id rfl)
  .ok (clientChange db clients action (some client) changed ⟨200, some (response changed)⟩)

/-- `delete_client` and `delete_tenant`. -/
def removeClient (action notFound : String) (eff : Effects) (db : Tables) (clientId : Int) : Answer Change :=
  match db.clients.lookup clientId with
  | none => .httpException 404 notFound
  | some client =>
    let clients := db.clients.update (setClient clientId (deactivate eff.now) fun _ => touched_id rfl)
    .ok (clientChange db clients action (some client) (deactivate eff.now client) ⟨204, none⟩)

def clientBody (client : Client) : Response := .client (clientResponse client)

def tenantBody (client : Client) : Response := .tenant (clientToTenant client)

def createClient (eff : Effects) (db : Tables) (body : ClientCreate) : Answer Change :=
  (body.check db).bind (insertClient "client.create" clientBody eff db body)

def createTenant (eff : Effects) (db : Tables) (body : ClientCreate) : Answer Change :=
  (body.check db).bind (insertClient "tenant.create" tenantBody eff db body)

def updateClient (eff : Effects) (db : Tables) (clientId : Int) (body : ClientUpdate) : Answer Change :=
  (body.check "Client not found" db clientId).bind (replaceClient "client.update" clientBody eff db body)

def updateTenant (eff : Effects) (db : Tables) (clientId : Int) (body : ClientUpdate) : Answer Change :=
  (body.check "Tenant not found" db clientId).bind (replaceClient "tenant.update" tenantBody eff db body)

def deleteClient (eff : Effects) (db : Tables) (clientId : Int) : Answer Change :=
  removeClient "client.delete" "Client not found" eff db clientId

def deleteTenant (eff : Effects) (db : Tables) (clientId : Int) : Answer Change :=
  removeClient "tenant.delete" "Tenant not found" eff db clientId

/-! ## Users -/

/-- The row of `User(**fields, password_hash=…)` after the flush. -/
def UserCreate.user (body : UserCreate) (bcrypt : Bcrypt) (eff : Effects) (role : UserRole) : AdminUser where
  id := eff.uuid4
  email := body.email
  fullName := body.fullName
  passwordHash := body.password.map (bcrypt.hashpw eff.salt)
  role := some role
  tenantId := body.tenantId
  status := some .active
  createdAt := some eff.now

/-- The change of a user's row. -/
def userChange (db : Tables) (users : Users) (action : String) (before after : Option AdminUser) (reply : Reply) :
    Change where
  clients := db.clients.toTable
  users := users
  action := action
  tenantId := after.bind (·.tenantId)
  before := before.map fun user => .user (userAuditSnapshot user)
  after := after.map fun user => .user (userAuditSnapshot user)
  reply := reply

/-- The checks of `create_user`, which give the role. -/
def UserCreate.check (body : UserCreate) (db : Tables) : Answer UserRole :=
  match userRole body.role with
  | none => .httpException 400 "role must be one of ['agent', 'super_admin', 'tenant_admin']"
  | some role =>
    if db.users.rows.any fun user => user.email == body.email then .httpException 409 "Email already exists"
    else if body.tenantId.any fun tenantId => (db.clients.lookup tenantId).isNone then
      .httpException 404 "Tenant not found"
    else .ok role

def insertUser (bcrypt : Bcrypt) (eff : Effects) (db : Tables) (body : UserCreate) (role : UserRole) : Answer Change :=
  let user := body.user bcrypt eff role
  match db.users.insert user with
  | none => .raised
  | some users => .ok (userChange db users "user.create" none (some user) ⟨201, some (.user (userToResponse user))⟩)

def createUser (bcrypt : Bcrypt) (eff : Effects) (db : Tables) (body : UserCreate) : Answer Change :=
  (body.check db).bind (insertUser bcrypt eff db body)

/-- `Admin.updateUser` with what follows it. -/
def updateUser (bcrypt : Bcrypt) (eff : Effects) (db : Tables) (userId : String) (body : UserUpdate) (actor : Claims) :
    Answer Change :=
  let (users, answer) := Admin.updateUser bcrypt eff.salt db.users.toTable userId body actor
  answer.bind fun user =>
    .ok (userChange db users "user.update" (db.users.lookup userId) (some user) ⟨200, some (.user (userToResponse user))⟩)

/-- `Admin.deleteUser` with what follows it. -/
def deleteUser (db : Tables) (userId : String) (actor : Claims) : Answer Change :=
  let (users, answer) := Admin.deleteUser db.users.toTable userId actor
  answer.bind fun _ =>
    .ok (userChange db users "user.delete" (db.users.lookup userId) (users.lookup userId) ⟨204, none⟩)

/-! ## Requests -/

/-- A `POST`, `PUT` or `DELETE` below `/admin`; a path parameter that has to be a number is
validated together with the body. -/
inductive Write
  | createClient (body : Params ClientCreate)
  | updateClient (params : Params (Int × ClientUpdate))
  | deleteClient (clientId : Params Int)
  | createTenant (body : Params ClientCreate)
  | updateTenant (params : Params (Int × ClientUpdate))
  | deleteTenant (clientId : Params Int)
  | createUser (body : Params UserCreate)
  | updateUser (userId : String) (body : Params UserUpdate)
  | deleteUser (userId : String)

structure Request where
  authorization : Option Token
  write : Write
  eff : Effects

/-- A handler up to its commit. -/
def handler (bcrypt : Bcrypt) (eff : Effects) (db : Tables) (actor : Claims) : Write → Answer Change
  | .createClient body => validated body (createClient eff db)
  | .updateClient params => validated params fun (clientId, body) => updateClient eff db clientId body
  | .deleteClient clientId => validated clientId (deleteClient eff db)
  | .createTenant body => validated body (createTenant eff db)
  | .updateTenant params => validated params fun (clientId, body) => updateTenant eff db clientId body
  | .deleteTenant clientId => validated clientId (deleteTenant eff db)
  | .createUser body => validated body (createUser bcrypt eff db)
  | .updateUser userId body => validated body fun body => updateUser bcrypt eff db userId body actor
  | .deleteUser userId => deleteUser db userId actor

/-- `db.commit()`: the tables, unless a unique index or a column refuses the change. -/
def commit (eff : Effects) (db : Tables) (change : Change) : Option Tables :=
  match Indexed.check change.clients, Indexed.check change.users with
  | some clients, some users => if eff.fits then some { db with clients := clients, users := users } else none
  | _, _ => none

/-- A change that has been committed. -/
structure Mutation where
  actor : Claims
  change : Change
  tables : Tables

/-- A request up to its commit. -/
def mutate (bcrypt : Bcrypt) (db : Tables) (request : Request) : Answer Mutation :=
  (getCurrentUser request.eff.now request.authorization).bind fun actor =>
    requireSuperAdmin actor .httpException <|
      (handler bcrypt request.eff db actor request.write).bind fun change =>
        match commit request.eff db change with
        | some tables => .ok ⟨actor, change, tables⟩
        | none => .raised

/-- The arguments of `AuditLog(…)`. -/
def Mutation.auditRow (m : Mutation) : AuditRow where
  tenantId := m.change.tenantId.map toString
  userId := m.actor.sub
  action := m.change.action
  beforeValue := m.change.before
  afterValue := m.change.after

/-- `_write_audit_log`, whose `INSERT` the database takes or refuses. -/
def writeAuditLog (inserts : Bool) (m : Mutation) : Tables :=
  if inserts then { m.tables with auditLogs := m.tables.auditLogs ++ [m.auditRow] } else m.tables

/-- The response after `_write_audit_log`: its rollback has expired the row, and a
response that is made from it raises. -/
def respond (inserts : Bool) (reply : Reply) : Answer Reply :=
  if inserts || reply.body.isNone then .ok reply else .raised

/-- The tables after a request, and its answer; `inserts` says which audit rows the database
takes. -/
def serve (bcrypt : Bcrypt) (inserts : Mutation → Bool) (db : Tables) (request : Request) : Tables × Answer Reply :=
  match mutate bcrypt db request with
  | .ok m => (writeAuditLog (inserts m) m, respond (inserts m) m.change.reply)
  | .httpException statusCode detail => (db, .httpException statusCode detail)
  | .raised => (db, .raised)

/-- The tables after a request. -/
def step (bcrypt : Bcrypt) (inserts : Mutation → Bool) (db : Tables) (request : Request) : Tables :=
  (serve bcrypt inserts db request).1

/-- `audit_logs.user_id` references `admin_users.id`. -/
def userIdExists (m : Mutation) : Bool := m.actor.sub.all fun id => (m.tables.users.lookup id).isSome

end CallingAgent.Impl.AdminWrites
