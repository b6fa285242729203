import CallingAgent.Impl.ClientRouter
import CallingAgent.Framework.Paging

/-!
# What the pages of a list are

The nine list endpoints by their filters (`Listing`), the rows that match
(`Listing.matching`), and what it is for pages to be those of one result
(`Partitioned`). The queries of the pages are independent: each may return its
rows in another order (`Orders`).
-/

namespace CallingAgent.Spec.Pages

open CallingAgent.Framework CallingAgent.Impl CallingAgent.Impl.Auth CallingAgent.Impl.Reads

/-! ## Orders -/

/-- The orders in which the database returns the rows of one query. -/
structure Orders where
  clients : RowOrder Client
  users : RowOrder AdminUser
  customers : RowOrder Customer
  calls : RowOrder Caller
  auditLogs : RowOrder AuditLog
  phoneNumbers : RowOrder PhoneNumberRoute

/-- The request meets these orders. -/
def ordered (env : Env) (orders : Orders) : Env :=
  { env with
    clientOrder := orders.clients
    userOrder := orders.users
    customerOrder := orders.customers
    callOrder := orders.calls
    auditLogOrder := orders.auditLogs
    phoneNumberOrder := orders.phoneNumbers }

/-! ## Results -/

/-- A row of a list. -/
inductive Row
  | client (row : Admin.ClientResponse)
  | tenant (row : Admin.TenantResponse)
  | user (row : Admin.UserResponse)
  | call (row : Caller)
  | auditLog (row : AuditLog)
  | clientCall (row : ClientRouter.CallResponse)
  | clientUser (row : ClientRouter.UserResponse)
  | phoneNumber (row : PhoneNumberRoute)
  | customer (row : Customer)

/-- The page in a response. -/
def pageOf : Api.Response → Option (Page Row)
  | .admin (.clients page) => some (page.map .client)
  | .admin (.tenants page) => some (page.map .tenant)
  | .admin (.users page) => some (page.map .user)
  | .admin (.calls page) => some (page.map .call)
  | .admin (.auditLogs page) => some (page.map .auditLog)
  | .client (.calls page) => some (page.map .clientCall)
  | .client (.users page) => some (page.map .clientUser)
  | .client (.phoneNumbers page) => some (page.map .phoneNumber)
  | .client (.customers page) => some (page.map .customer)
  | _ => none

/-- The answer is this page. -/
def IsPage (answer : Answer Api.Response) (page : Page Row) : Prop :=
  ∃ response, answer = .ok response ∧ pageOf response = some page

/-- A list endpoint and its filters. -/
inductive Listing
  | clients (status search : Option String)
  | tenants (status search : Option String)
  | users (tenantId : Option Int) (role status : Option String)
  | calls (tenantId : Option Int) (search : Option String)
  | auditLogs (tenantId : Option Int) (action : Option String)
  | clientCalls (search : Option String)
  | clientUsers (role status : Option String)
  | clientPhoneNumbers
  | clientCustomers (search : Option String)

namespace Listing

def request : Listing → Paging → Api.Get
  | .clients status search, paging => .admin (.listClients (.ok ⟨paging, status, search⟩))
  | .tenants status search, paging => .admin (.listTenants (.ok ⟨paging, status, search⟩))
  | .users tenantId role status, paging => .admin (.listUsers (.ok ⟨paging, tenantId, role, status⟩))
  | .calls tenantId search, paging => .admin (.listCalls (.ok ⟨paging, tenantId, search⟩))
  | .auditLogs tenantId action, paging => .admin (.listAuditLogs (.ok ⟨paging, tenantId, action⟩))
  | .clientCalls search, paging => .client (.listCalls (.ok ⟨paging, search⟩))
  | .clientUsers role status, paging => .client (.listUsers (.ok ⟨paging, role, status⟩))
  | .clientPhoneNumbers, paging => .client (.listPhoneNumbers (.ok paging))
  | .clientCustomers search, paging => .client (.listCustomers (.ok ⟨paging, search⟩))

end Listing

/-- What a list endpoint selects. -/
structure Select where
  Source : Type
  rows : List Source
  /-- Whether the `ORDER BY` lets a row come before another. -/
  mayPrecede : Source → Source → Bool
  shown : Source → Row
  /-- Whether the response model takes the row. -/
  presentable : Source → Bool

/-- Without an `ORDER BY`. -/
def unordered {ρ : Type} (_ _ : ρ) : Bool := true

/-- `order_by(column.desc())`. -/
def latestFirst {ρ : Type} (env : Env) (column : ρ → Option Time) (r r' : ρ) : Bool :=
  descending env.dialect (column r) (column r')

/-- The tenant whose rows match: a tenant admin's own, or that of the filter. -/
def tenantOf (user : Claims) (tenantId : Option Int) : Option Int :=
  if user.role = some "tenant_admin" then user.clientId else tenantId

namespace Listing

def select (env : Env) (db : Session) (user : Claims) : Listing → Select
  | .clients status search =>
    { Source := Client
      rows := db.clients.filter fun client =>
        whereEqual status (client.status.map (·.text)) && whereLike env search [some client.name]
      mayPrecede := unordered
      shown := fun client => .client (Admin.clientResponse client)
      presentable := fun _ => true }
  | .tenants status search =>
    { Source := Client
      rows := db.clients.filter fun client =>
        whereEqual status (client.status.map (·.text)) && whereLike env search [some client.name]
      mayPrecede := unordered
      shown := fun client => .tenant (Admin.clientToTenant client)
      presentable := fun _ => true }
  | .users tenantId role status =>
    { Source := AdminUser
      rows := (tenantScopedDb user db).users.filter fun row =>
        Admin.whereTenant (tenantOf user tenantId) row.tenantId && whereEqual role (row.role.map (·.text)) &&
          whereEqual status (row.status.map (·.text))
      mayPrecede := unordered
      shown := fun row => .user (Admin.userToResponse row)
      presentable := fun _ => true }
  | .calls tenantId search =>
    { Source := Caller
      rows := (tenantScopedDb user db).callRequests.filter fun call =>
        Admin.whereTenant (tenantOf user tenantId) call.clientId &&
          whereLike env search [call.customerName, call.phoneNumber]
      mayPrecede := unordered
      shown := .call
      presentable := fun _ => true }
  | .auditLogs tenantId action =>
    { Source := AuditLog
      rows := (tenantScopedDb user db).auditLogs.filter fun log =>
        Admin.whereTenant ((tenantOf user tenantId).map toString) log.tenantId && whereEqual action (some log.action)
      mayPrecede := latestFirst env (·.occurredAt)
      shown := .auditLog
      presentable := fun log => Admin.optionalDict env log.beforeValue && Admin.optionalDict env log.afterValue }
  | .clientCalls search =>
    { Source := Caller
      rows := (tenantScopedDb user db).callRequests.filter fun call =>
        call.clientId = user.clientId && whereLike env search [call.customerName, call.phoneNumber]
      mayPrecede := latestFirst env (·.createdAt)
      shown := fun call => .clientCall (ClientRouter.callResponse call)
      presentable := fun _ => true }
  | .clientUsers role status =>
    { Source := AdminUser
      rows := (tenantScopedDb user db).users.filter fun row =>
        row.tenantId = user.clientId && whereEqual role (row.role.map (·.text)) &&
          whereEqual status (row.status.map (·.text))
      mayPrecede := latestFirst env (·.createdAt)
      shown := fun row => .clientUser (ClientRouter.userResponse row)
      presentable := fun _ => true }
  | .clientPhoneNumbers =>
    { Source := PhoneNumberRoute
      rows := db.phoneNumberRoutes.filter fun route => some route.tenantId = user.clientId.map toString
      mayPrecede := unordered
      shown := .phoneNumber
      presentable := fun route => route.provider.isSome }
  | .clientCustomers search =>
    { Source := Customer
      rows := (tenantScopedDb user db).customers.filter fun customer =>
        some customer.clientId = user.clientId &&
          whereLike env search [customer.name, some customer.phone, customer.email]
      mayPrecede := latestFirst env (·.createdAt)
      shown := .customer
      presentable := fun _ => true }

/-- The rows of the list. -/
def matching (env : Env) (db : Session) (user : Claims) (list : Listing) : List Row :=
  (list.select env db user).rows.map (list.select env db user).shown

/-- The endpoint does not serve this user. -/
def Refused (env : Env) (db : Session) (authorization : Option Token) (list : Listing) : Prop :=
  ∃ detail, ∀ orders paging,
    Api.serve (ordered env orders) db authorization (list.request paging) = .httpException 403 detail

end Listing

end CallingAgent.Spec.Pages
