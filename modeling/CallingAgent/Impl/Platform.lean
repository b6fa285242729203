import CallingAgent.Impl.AdminWrites
import CallingAgent.Impl.CallerRequest
import CallingAgent.Impl.Customers

/-!
# The API and its users

The requests of the operators of the platform and of the users of its tenants, on one
database with row-level security: the changes of the administration, the reads, the
customers, and `POST /call` of `services/api/src/main.py`. `serve` answers one request.
-/

namespace CallingAgent.Impl.Platform

open CallingAgent.Framework CallingAgent.Impl.Auth CallingAgent.Impl.Reads

/-! ## The database -/

/-- The tables that only the administration changes. -/
structure Administration where
  clients : Indexed Client.id Client.slug
  users : Indexed AdminUser.id fun user => some user.email
  auditLogs : Table AuditLog.auditId
  phoneNumberRoutes : Table PhoneNumberRoute.number

structure Tables where
  administration : Administration
  customers : Table Customer.id
  callRequests : Table Caller.id

def Tables.database (s : Tables) : Database where
  clients := s.administration.clients.toTable
  users := s.administration.users.toTable
  customers := s.customers
  callRequests := s.callRequests
  auditLogs := s.administration.auditLogs
  phoneNumberRoutes := s.administration.phoneNumberRoutes

/-! ## The administration -/

/-- What the audit row of a request gets from outside. -/
structure Audit where
  uuid4 : String
  occurredAt : Time
  json : AdminWrites.Snapshot → Json
  /-- The database takes it. -/
  inserts : AdminWrites.Mutation → Bool

/-- A value of an audit row; `None` is stored as a JSON `null`. -/
def Audit.value (audit : Audit) (snapshot : Option AdminWrites.Snapshot) : Json :=
  (snapshot.map audit.json).getD "null"

/-- `AuditLog(…)`, as it is after the flush. -/
def Audit.auditLog (audit : Audit) (row : AdminWrites.AuditRow) : AuditLog where
  auditId := audit.uuid4
  tenantId := row.tenantId
  userId := row.userId
  action := row.action
  beforeValue := some (audit.value row.beforeValue)
  afterValue := some (audit.value row.afterValue)
  occurredAt := some audit.occurredAt

/-- A request of `AdminWrites`, with its audit row in `audit_logs`. -/
def administer (bcrypt : Bcrypt) (audit : Audit) (s : Administration) (request : AdminWrites.Request) :
    Administration × Answer AdminWrites.Reply :=
  let inserts (m : AdminWrites.Mutation) : Bool :=
    audit.inserts m && (s.auditLogs.insert (audit.auditLog m.auditRow)).isSome
  let (tables, answer) := AdminWrites.serve bcrypt inserts ⟨s.clients, s.users, []⟩ request
  -- One row, or none.
  let auditLogs := tables.auditLogs.foldl (fun t row => (t.insert (audit.auditLog row)).getD t) s.auditLogs
  ({ s with clients := tables.clients, users := tables.users, auditLogs := auditLogs }, answer)

/-! ## `POST /call` -/

/-- `CallerRequest`, before `validate_phone`. -/
structure CallerRequest where
  customerName : String
  phoneNumber : String
  hotelName : String
  checkInDate : String
  checkOutDate : String

/-- What a call gets from outside. -/
structure Effects where
  now : Time
  /-- The next value of the sequence of `call_requests.id`. -/
  id : Int
  uuid4 : String
  /-- The database carries out the commit. -/
  commits : Bool
  /-- `REDIS_URL` is set. -/
  redis : Bool
  /-- The errors of a 422, from the message of a validator. -/
  errors : String → Json

/-- The body of the answer. -/
structure Saved where
  status : String := "success"
  database : String := "Saved"
  redisSession : Option String
  deriving DecidableEq

/-- `Caller(…)`, as it is after the flush. -/
def CallerRequest.caller (request : CallerRequest) (io : Effects) (user : Claims) : Caller where
  id := io.id
  customerName := some request.customerName
  phoneNumber := some request.phoneNumber
  hotelName := some request.hotelName
  checkInDate := some request.checkInDate
  checkOutDate := some request.checkOutDate
  clientId := user.clientId
  createdAt := some io.now
  status := .pending
  callType := .outbound
  isSimulation := false
  customerId := none
  connectionStatus := .notAttempted
  failureReason := none
  durationSeconds := none
  outcome := none

/-- The insert of `make_call`, with its commit. -/
def insertCall (io : Effects) (db : Session) (user : Claims) (request : CallerRequest) : Option (Table Caller.id) :=
  let caller := request.caller io user
  -- The policy's `WITH CHECK`.
  if db.visible (caller.clientId.map toString) && io.commits then db.database.callRequests.insert caller else none

/-- `make_call`; its session in Redis is read by nothing. `found` is the setting of the
connection on which the transaction after the commit runs. -/
def makeCall (io : Effects) (found : Tenant.Setting) (db : Session) (user : Claims) (request : CallerRequest) :
    Session × Answer Saved :=
  match insertCall io db user request with
  | none => (db, .raised)
  | some callRequests =>
    let db : Session := { db with database := { db.database with callRequests := callRequests } }
    -- `db.refresh(caller)`
    match ({ db with rls := some found } : Session).getCaller io.id with
    | some _ => (db, .ok { redisSession := if io.redis then some io.uuid4 else none })
    | none => (db, .raised)

/-- The body after `validate_phone`. -/
def validPhone (io : Effects) (body : Params CallerRequest) : Params CallerRequest :=
  body.bind fun request =>
    match CallerRequest.validatePhone request.phoneNumber with
    | .ok cleaned => .ok { request with phoneNumber := cleaned }
    | .error message => .error (io.errors message)

/-- `make_call` behind its dependencies. -/
def serveCall (database : Database) (setting found : Tenant.Setting) (authorization : Option Token) (io : Effects)
    (body : Params CallerRequest) : Session × Answer Saved :=
  let db : Session := ⟨database, some setting⟩
  match getCurrentUser io.now authorization with
  | .raised => (db, .raised)
  | .httpException statusCode detail => (db, .httpException statusCode detail)
  | .ok user =>
    match validPhone io body with
    | .ok request => makeCall io found (tenantScopedDb user db) user request
    | .error errors => (db, .httpException 422 errors)

/-! ## Requests -/

/-- A request, with what it gets from outside; `setting` is that of the connection it
takes from the pool. After its commit a request for a customer or a call may get another
one, with the setting `found`; the transactions of a request of the administration (but
for its audit row) are all on one connection. -/
inductive Request
  | administer (request : AdminWrites.Request) (audit : Audit)
  | get (env : Env) (setting : Tenant.Setting) (authorization : Option Token) (request : Api.Get)
  | customer (setting found : Tenant.Setting) (authorization : Option Token) (write : ClientRouter.Write)
      (io : ClientRouter.Effects)
  | call (setting found : Tenant.Setting) (authorization : Option Token) (body : Params CallerRequest) (io : Effects)

/-- Who makes a request. -/
def Request.actor : Request → Answer Claims
  | .administer request _ => getCurrentUser request.eff.now request.authorization
  | .get env _ authorization _ => getCurrentUser env.now authorization
  | .customer _ _ authorization _ io => getCurrentUser io.now authorization
  | .call _ _ authorization _ io => getCurrentUser io.now authorization

inductive Reply
  | administer (answer : Answer AdminWrites.Reply)
  | get (answer : Answer Api.Response)
  | customer (answer : Answer Customer)
  | call (answer : Answer Saved)

def serve (bcrypt : Bcrypt) (s : Tables) : Request → Tables × Reply
  | .administer request audit =>
    let (administration, answer) := administer bcrypt audit s.administration request
    ({ s with administration := administration }, .administer answer)
  | .get env setting authorization request =>
    (s, .get (Api.serve env ⟨s.database, some setting⟩ authorization request))
  | .customer setting found authorization write io =>
    let (db, answer) := ClientRouter.serve s.database ⟨authorization, write, io, some setting, some found⟩
    ({ s with customers := db.database.customers }, .customer answer)
  | .call setting found authorization body io =>
    let (db, answer) := serveCall s.database setting found authorization io body
    ({ s with callRequests := db.database.callRequests }, .call answer)

/-- The database after a request. -/
def step (bcrypt : Bcrypt) (s : Tables) (request : Request) : Tables := (serve bcrypt s request).1

/-- The answer to a request. -/
def reply (bcrypt : Bcrypt) (s : Tables) (request : Request) : Reply := (serve bcrypt s request).2

end CallingAgent.Impl.Platform
