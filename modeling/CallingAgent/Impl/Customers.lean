import CallingAgent.Impl.ClientRouter

/-!
# The customers of a tenant

`services/api/src/routers/client.py`: `create_or_update_customer` and
`update_customer`. A request gets the clock, `uuid4` and the outcome of its commit
from outside: the database may refuse what is to be committed, and then the request
raises and is rolled back. The refresh after the commit is a transaction of its own,
which may run on another connection and not see the row there.
-/

namespace CallingAgent.Impl.ClientRouter

open CallingAgent.Framework CallingAgent.Impl.Auth CallingAgent.Impl.Reads

structure CustomerCreate where
  name : Option String := none
  phone : String
  email : Option String := none
  languageCode : Option String := none
  timezone : Option String := none
  countryCode : Option String := none
  notes : Option String := none
  externalId : Option String := none

structure CustomerUpdate where
  name : Option String := none
  email : Option String := none
  languageCode : Option String := none
  timezone : Option String := none
  countryCode : Option String := none
  notes : Option String := none
  externalId : Option String := none

/-- What a request gets from outside. -/
structure Effects where
  now : Time
  uuid4 : String
  /-- The database carries out the commit. -/
  commits : Bool

/-- The columns of an `UPDATE` are those that have changed; without any there is no
statement, and `onupdate` does not apply. -/
def flushed (now : Time) (customer changed : Customer) : Customer :=
  if changed = customer then customer else { changed with updatedAt := some now }

/-- A change of one row. -/
def setCustomer (customerId : String) (change : Customer → Customer) (keeps : ∀ r, (change r).id = r.id) :
    Update Customer.id where
  guard r := r.id == customerId
  set := change
  keeps := keeps

/-- The non-null fields of the body, set on the existing row. -/
def CustomerCreate.merge (body : CustomerCreate) (now : Time) (existingRow : Customer) : Customer :=
  flushed now existingRow
    { existingRow with
      name := body.name.or existingRow.name
      email := body.email.or existingRow.email
      languageCode := body.languageCode.or existingRow.languageCode
      timezone := body.timezone.or existingRow.timezone
      countryCode := body.countryCode.or existingRow.countryCode
      notes := body.notes.or existingRow.notes
      externalId := body.externalId.or existingRow.externalId }

def CustomerUpdate.merge (body : CustomerUpdate) (now : Time) (customer : Customer) : Customer :=
  flushed now customer
    { customer with
      name := body.name.or customer.name
      email := body.email.or customer.email
      languageCode := body.languageCode.or customer.languageCode
      timezone := body.timezone.or customer.timezone
      countryCode := body.countryCode.or customer.countryCode
      notes := body.notes.or customer.notes
      externalId := body.externalId.or customer.externalId }

/-- `Customer(…)`, as it is after the flush. -/
def CustomerCreate.customer (body : CustomerCreate) (io : Effects) (clientId : Int) : Customer where
  id := io.uuid4
  clientId := clientId
  name := body.name
  phone := body.phone
  email := body.email
  languageCode := body.languageCode
  timezone := body.timezone
  countryCode := body.countryCode
  notes := body.notes
  externalId := body.externalId
  createdAt := some io.now
  updatedAt := some io.now

theorem flushed_id {now : Time} {customer changed : Customer} (h : changed.id = customer.id) :
    (flushed now customer changed).id = customer.id := by
  unfold flushed
  split
  · rfl
  · exact h

/-- `uq_customers_client_phone` and the primary key. -/
def insertCustomer (customers : Table Customer.id) (customer : Customer) : Option (Table Customer.id) :=
  if customers.rows.any fun r => r.clientId = customer.clientId && r.phone = customer.phone then none
  else customers.insert customer

/-- `db.commit()` and `db.refresh(customer)`, with the table as the flush has left it. -/
def commitCustomers (io : Effects) (db : Session) (customers : Table Customer.id) (customerId : String) :
    Session × Answer Customer :=
  if io.commits then
    let db := { db with database := { db.database with customers := customers } }
    match db.getCustomer customerId with
    | some customer => (db, .ok customer)
    | none => (db, .raised)
  else (db, .raised)

/-- `found` is the setting of the connection on which the transaction after the commit
runs. -/
def createOrUpdateCustomer (io : Effects) (found : Option Tenant.Setting) (db : Session) (clientId : Int)
    (body : CustomerCreate) : Session × Answer Customer :=
  -- `scalar_one_or_none` raises if there are several.
  match db.customers.filter fun customer => customer.clientId = clientId && customer.phone = body.phone with
  | [existingRow] =>
    commitCustomers io { db with rls := found }
      (db.database.customers.update (setCustomer existingRow.id (body.merge io.now) fun _ => flushed_id rfl))
      existingRow.id
  | [] =>
    -- The policy's `WITH CHECK`.
    if db.visible (some (toString clientId)) then
      match insertCustomer db.database.customers (body.customer io clientId) with
      | some customers => commitCustomers io { db with rls := found } customers io.uuid4
      | none => (db, .raised)
    else (db, .raised)
  | _ => (db, .raised)

def updateCustomer (io : Effects) (found : Option Tenant.Setting) (db : Session) (clientId : Int)
    (customerId : String) (body : CustomerUpdate) : Session × Answer Customer :=
  match db.getCustomer customerId with
  | none => (db, .httpException 404 "Customer not found")
  | some customer =>
    if customer.clientId ≠ clientId then (db, .httpException 404 "Customer not found")
    else
      commitCustomers io { db with rls := found }
        (db.database.customers.update (setCustomer customerId (body.merge io.now) fun _ => flushed_id rfl)) customerId

/-- A `POST` or `PUT` below `/client/customers`. -/
inductive Write
  | createOrUpdateCustomer (body : Params CustomerCreate)
  | updateCustomer (customerId : String) (body : Params CustomerUpdate)

/-- A request; `rls` is that of the session it gets, and `found` that of the transaction
after its commit. -/
structure Request where
  authorization : Option Token
  write : Write
  io : Effects
  rls : Option Tenant.Setting
  found : Option Tenant.Setting

/-- The handler of a request, behind its dependencies. -/
def serve (database : Database) (request : Request) : Session × Answer Customer :=
  let db : Session := ⟨database, request.rls⟩
  match getCurrentUser request.io.now request.authorization with
  | .raised => (db, .raised)
  | .httpException statusCode detail => (db, .httpException statusCode detail)
  | .ok user =>
    requireClient user (fun statusCode detail => (db, .httpException statusCode detail)) fun clientId =>
      match request.write with
      | .createOrUpdateCustomer (.ok body) =>
        createOrUpdateCustomer request.io request.found (tenantScopedDb user db) clientId body
      | .updateCustomer customerId (.ok body) =>
        updateCustomer request.io request.found (tenantScopedDb user db) clientId customerId body
      | .createOrUpdateCustomer (.error errors) | .updateCustomer _ (.error errors) => (db, .httpException 422 errors)

/-- The database after a request. -/
def step (database : Database) (request : Request) : Database := (serve database request).1.database

end CallingAgent.Impl.ClientRouter
