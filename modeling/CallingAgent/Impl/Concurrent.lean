import CallingAgent.Framework.TwoStep
import CallingAgent.Impl.AdminWrites
import CallingAgent.Impl.Calls
import CallingAgent.Impl.Customers

/-!
# Creates that run at the same time

`create_client`, `create_tenant`, `create_user`, `create_call` and
`create_or_update_customer`, each as the check for an existing row and the insert with its
commit. Between the two are awaits, in which other requests commit. A unique index that
refuses a commit raises `IntegrityError`, which none of the five catches.

`db.refresh` after the commit opens another transaction, on any connection of the pool.
`found` is the setting that it finds there, or `none` if row-level security is not in effect;
a row that the policy hides from it raises.
-/

namespace CallingAgent.Impl.Concurrent

open CallingAgent.Framework CallingAgent.Impl.Auth CallingAgent.Impl.Reads CallingAgent.Impl.Admin
open CallingAgent.Impl.AdminWrites CallingAgent.Impl.Calls
open CallingAgent.Impl.ClientRouter (CustomerCreate setCustomer insertCustomer commitCustomers)

/-- Code that goes on, or is answered. -/
def goOn {α β : Type} : Answer α → Except (Answer β) α
  | .ok a => .ok a
  | .httpException statusCode detail => .error (.httpException statusCode detail)
  | .raised => .error .raised

/-- The policy shows a row of this tenant to a transaction. -/
def shows (found : Option Tenant.Setting) (tenantId : Option String) : Bool :=
  found.all fun setting => Tenant.tenantIsolation setting tenantId

/-! ## The administration -/

/-- The commit of a change, the refresh, which finds the row or not, the audit row, which the
database takes or refuses, and the response. -/
def finish (actor : Claims) (eff : AdminWrites.Effects) (refreshes inserts : Bool) (db : Tables) :
    Answer Change → Tables × Answer Reply
  | .ok change =>
    match commit eff db change with
    | some tables =>
      if refreshes then (writeAuditLog inserts ⟨actor, change, tables⟩, respond inserts change.reply)
      else (tables, .raised)
    | none => (db, .raised)
  | .httpException statusCode detail => (db, .httpException statusCode detail)
  | .raised => (db, .raised)

/-- A request to `create_client`, or to `create_tenant`; `inserts` is whether the database
takes its audit row. -/
structure ClientCreation where
  actor : Claims
  tenant : Bool
  body : ClientCreate
  eff : AdminWrites.Effects
  inserts : Bool

def ClientCreation.insert (r : ClientCreation) (db : Tables) (plan : Plan) : Answer Change :=
  if r.tenant then insertClient "tenant.create" tenantBody r.eff db r.body plan
  else insertClient "client.create" clientBody r.eff db r.body plan

def ClientCreation.handler (r : ClientCreation) : TwoStep Tables Plan (Answer Reply) where
  check db := goOn (r.body.check db)
  -- `clients` has no policy.
  commit db plan := finish r.actor r.eff true r.inserts db (r.insert db plan)

/-- A request to `create_user`. -/
structure UserCreation where
  actor : Claims
  body : UserCreate
  eff : AdminWrites.Effects
  found : Option Tenant.Setting
  inserts : Bool

/-- The refresh sees the new row. -/
def UserCreation.refreshes (r : UserCreation) : Bool := shows r.found (r.body.tenantId.map toString)

def UserCreation.handler (bcrypt : Bcrypt) (r : UserCreation) : TwoStep Tables UserRole (Answer Reply) where
  check db := goOn (r.body.check db)
  commit db role := finish r.actor r.eff r.refreshes r.inserts db (insertUser bcrypt r.eff db r.body role)

/-! ## Calls -/

/-- A request to `create_call`. -/
structure CallCreation where
  body : CallCreateRequest
  /-- The values fit into their columns. -/
  fits : Bool
  found : Option Tenant.Setting

def CallCreation.refreshes (r : CallCreation) : Bool := shows r.found (some r.body.tenantId)

def CallCreation.handler (r : CallCreation) : TwoStep CallTable Unit (Answer Call) where
  check calls :=
    match calls.lookup r.body.callId with
    | some _ => .error (.httpException 409 ("Call " ++ r.body.callId ++ " already exists"))
    | none => .ok ()
  commit calls _ :=
    match if r.fits then calls.insert (newCall r.body) else none with
    | some calls' => (calls', if r.refreshes then .ok (newCall r.body) else .raised)
    | none => (calls, .raised)

/-! ## Customers -/

/-- The columns of `uq_customers_client_phone`. -/
def clientPhone (customer : Customer) : Option (Int × String) := some (customer.clientId, customer.phone)

abbrev CustomerTable := Indexed Customer.id clientPhone

/-- `UPDATE` with the columns that have changed since the row was loaded. -/
def overwrite (loaded changed row : Customer) : Customer :=
  if changed = loaded then row
  else
    { row with
      name := if changed.name = loaded.name then row.name else changed.name
      email := if changed.email = loaded.email then row.email else changed.email
      languageCode := if changed.languageCode = loaded.languageCode then row.languageCode else changed.languageCode
      timezone := if changed.timezone = loaded.timezone then row.timezone else changed.timezone
      countryCode := if changed.countryCode = loaded.countryCode then row.countryCode else changed.countryCode
      notes := if changed.notes = loaded.notes then row.notes else changed.notes
      externalId := if changed.externalId = loaded.externalId then row.externalId else changed.externalId
      updatedAt := changed.updatedAt }

theorem overwrite_id (loaded changed row : Customer) : (overwrite loaded changed row).id = row.id := by
  unfold overwrite
  split
  · rfl
  · rfl

/-- A request to `create_or_update_customer` by a user of a tenant. -/
structure Upsert where
  user : Claims
  clientId : Int
  role : user.role = some "tenant_admin" ∨ user.role = some "agent"
  clientId_eq : user.clientId = some clientId
  clientId_ne : clientId ≠ 0
  body : CustomerCreate
  io : ClientRouter.Effects
  /-- The setting of the connection that the request gets. -/
  rls : Option Tenant.Setting
  found : Option Tenant.Setting

/-- The session of the request; `database` has the other tables. -/
def Upsert.session (r : Upsert) (database : Database) (customers : CustomerTable) : Session :=
  tenantScopedDb r.user ⟨{ database with customers := customers.toTable }, r.rls⟩

/-- The existing row, if there is one. -/
def upsertCheck (db : Session) (clientId : Int) (body : CustomerCreate) : Except (Answer Customer) (Option Customer) :=
  match db.customers.filter fun customer => customer.clientId = clientId && customer.phone = body.phone with
  | [existingRow] => .ok (some existingRow)
  | [] => .ok none
  | _ => .error .raised

/-- The commit, and the refresh in a session with what it finds. -/
def upsertCommit (io : ClientRouter.Effects) (found : Option Tenant.Setting) (db : Session) (clientId : Int)
    (body : CustomerCreate) : Option Customer → Session × Answer Customer
  | some existingRow =>
    commitCustomers io { db with rls := found }
      (db.database.customers.update
        (setCustomer existingRow.id (overwrite existingRow (body.merge io.now existingRow)) (overwrite_id _ _)))
      existingRow.id
  | none =>
    if db.visible (some (toString clientId)) then
      match insertCustomer db.database.customers (body.customer io clientId) with
      | some customers => commitCustomers io { db with rls := found } customers io.uuid4
      | none => (db, .raised)
    else (db, .raised)

def Upsert.handler (database : Database) (r : Upsert) : TwoStep CustomerTable (Option Customer) (Answer Customer) where
  check customers := upsertCheck (r.session database customers) r.clientId r.body
  commit customers existingRow :=
    let (db, answer) := upsertCommit r.io r.found (r.session database customers) r.clientId r.body existingRow
    match Indexed.check db.database.customers with
    | some customers' => (customers', answer)
    | none => (customers, .raised)

end CallingAgent.Impl.Concurrent
