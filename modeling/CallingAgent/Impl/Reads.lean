import CallingAgent.Impl.Auth
import CallingAgent.Impl.Tenant
import Mathlib.Data.Finset.Sort

/-!
# Queries of the read endpoints

What the `GET` routes of `routers/admin.py` and `routers/client.py` share: the
session with its row-level security, the filters, orders and pages of a
`select`, and the dates of the statistics.
-/

namespace CallingAgent.Impl.Reads

open CallingAgent.Framework CallingAgent.Impl.Auth CallingAgent.Impl.Tenant

variable {ρ α β : Type}

/-! ## Sessions -/

/-- A session of a request. `rls` is the setting `app.current_tenant` of its
connection, or `none` if row-level security is not in effect there (SQLite, or
a superuser). -/
structure Session where
  database : Database
  rls : Option Setting

/-- The claims that `get_tenant_scoped_db` reads. -/
def tenantUser (user : Claims) : Tenant.User where
  role := user.role
  clientId := user.clientId

/-- `get_tenant_scoped_db`, on a route with a session of its own. -/
def tenantScopedDb (user : Claims) (db : Session) : Session :=
  { db with rls := db.rls.map fun _ => some (tenantUser user).tenantValue }

namespace Session

/-- Whether the policy shows a row with this tenant. -/
def visible (db : Session) (tenantId : Option String) : Bool :=
  db.rls.all fun setting => tenantIsolation setting tenantId

/-- The rows that the session sees. `clients` and `phone_number_routes` have no
policy (`_UNSCOPED_APP_TABLES`). -/
def clients (db : Session) : List Client := db.database.clients.rows

def users (db : Session) : List AdminUser :=
  db.database.users.rows.filter fun user => db.visible (user.tenantId.map toString)

def customers (db : Session) : List Customer :=
  db.database.customers.rows.filter fun customer => db.visible (some (toString customer.clientId))

def callRequests (db : Session) : List Caller :=
  db.database.callRequests.rows.filter fun call => db.visible (call.clientId.map toString)

def auditLogs (db : Session) : List AuditLog :=
  db.database.auditLogs.rows.filter fun log => db.visible log.tenantId

def phoneNumberRoutes (db : Session) : List PhoneNumberRoute := db.database.phoneNumberRoutes.rows

/-- `db.get(Client, id)`, and so on. -/
def getClient (db : Session) (id : Int) : Option Client := db.clients.find? (·.id == id)

def getUser (db : Session) (id : String) : Option AdminUser := db.users.find? (·.id == id)

def getCustomer (db : Session) (id : String) : Option Customer := db.customers.find? (·.id == id)

def getCaller (db : Session) (id : Int) : Option Caller := db.callRequests.find? (·.id == id)

end Session

/-! ## Orders -/

/-- The order in which the database returns the rows of a result. -/
structure RowOrder (ρ : Type) where
  arrange : List ρ → List ρ
  perm : ∀ rows, (arrange rows).Perm rows

/-- The order is a function of the rows. -/
def RowOrder.OfRows (order : RowOrder ρ) : Prop :=
  ∀ rows rows' : List ρ, rows.Perm rows' → order.arrange rows = order.arrange rows'

/-- `DESC` on a nullable timestamp: nulls come first in PostgreSQL and last in
SQLite. -/
def descending : Dialect → Option Time → Option Time → Bool
  | _, some t, some t' => t' ≤ t
  | .postgresql, none, _ => true
  | .postgresql, some _, none => false
  | .sqlite, _, none => true
  | .sqlite, none, some _ => false

/-- `order_by(column.desc())`; rows with the same value are in the order of the
database. -/
def RowOrder.desc (order : RowOrder ρ) (dialect : Dialect) (column : ρ → Option Time) : RowOrder ρ where
  arrange rows := (order.arrange rows).mergeSort fun r r' => descending dialect (column r) (column r')
  perm rows := (List.mergeSort_perm _ _).trans (order.perm rows)

/-- What a request meets outside its own code. -/
structure Env where
  now : Time
  dialect : Dialect
  /-- `column.ilike(pattern)`. -/
  ilike : String → String → Bool
  /-- `func.date`, in days from the epoch: the day of a timestamp in the time
  zone of the database session. -/
  date : Time → Int
  /-- `round((total_calls / limit) * 100, 1)`, as its text. -/
  usagePct : Nat → Int → String
  /-- Whether a JSON document is an object. -/
  isDict : Json → Bool
  clientOrder : RowOrder Client
  userOrder : RowOrder AdminUser
  customerOrder : RowOrder Customer
  callOrder : RowOrder Caller
  auditLogOrder : RowOrder AuditLog
  phoneNumberOrder : RowOrder PhoneNumberRoute

/-- The order of every table is a function of the rows. -/
structure Env.OrderOfRows (env : Env) : Prop where
  clients : env.clientOrder.OfRows
  users : env.userOrder.OfRows
  customers : env.customerOrder.OfRows
  calls : env.callOrder.OfRows
  auditLogs : env.auditLogOrder.OfRows
  phoneNumbers : env.phoneNumberOrder.OfRows

/-! ## Parameters -/

/-- The parameters of a request after FastAPI's validation: their values, or
the errors of the 422. -/
abbrev Params (α : Type) := Except Json α

/-- A handler behind the validation. -/
def validated (params : Params α) (handler : α → Answer β) : Answer β :=
  match params with
  | .ok a => handler a
  | .error errors => .httpException 422 errors

/-- `if value: stmt = stmt.where(column == value)`. -/
def whereEqual (value column : Option String) : Bool :=
  value.all fun v => v == "" || column == some v

/-- `if search: stmt = stmt.where(or_(column.ilike(f"%{search}%"), …))`. -/
def whereLike (env : Env) (search : Option String) (columns : List (Option String)) : Bool :=
  search.all fun s => s == "" || columns.any fun column => column.any fun value => env.ilike value ("%" ++ s ++ "%")

/-- `not user.get("client_id")`. -/
def noTenant (user : Claims) : Bool := user.clientId.all (· == 0)

/-! ## Pages -/

/-- `page` and `per_page`, within their bounds. -/
structure Paging where
  page : Nat := 1
  perPage : Nat := 20
  page_pos : 1 ≤ page := by decide
  perPage_pos : 1 ≤ perPage := by decide
  perPage_le : perPage ≤ 100 := by decide

/-- The `Paginated…` response models. -/
structure Page (ρ : Type) where
  data : List ρ
  total : Nat
  page : Nat
  perPage : Nat
  totalPages : Nat
  deriving DecidableEq

/-- `_paginate`. -/
def paginate (total perPage : Nat) : Nat := if total = 0 then 0 else (total + perPage - 1) / perPage

/-- The count of a `select`, and the rows of one page of it. -/
def Paging.select (paging : Paging) (order : RowOrder ρ) (rows : List ρ) : Page ρ where
  data := ((order.arrange rows).drop ((paging.page - 1) * paging.perPage)).take paging.perPage
  total := rows.length
  page := paging.page
  perPage := paging.perPage
  totalPages := paginate rows.length paging.perPage

def Page.map (f : ρ → α) (page : Page ρ) : Page α :=
  { page with data := page.data.map f }

/-- The `OFFSET` of page `p`, counted from zero, is a `bigint`. -/
def offsetFits (perPage p : Nat) : Bool := decide (p * perPage < 2 ^ 63)

/-- The driver takes the query of the page. -/
def Page.fits (page : Page ρ) : Bool := offsetFits page.perPage (page.page - 1)

/-! ## Dates -/

/-- Year, month and day, of a number of days from the epoch. -/
def civil (day : Int) : Int × Int × Int :=
  -- A year of this calendar starts in March, so that the leap day is its last.
  let era := (day + 719468) / 146097
  let doe := day + 719468 - era * 146097
  let yoe := (doe - doe / 1460 + doe / 36524 - doe / 146096) / 365
  let doy := doe - (365 * yoe + yoe / 4 - yoe / 100)
  let mp := (5 * doy + 2) / 153
  let month := if mp < 10 then mp + 3 else mp - 9
  (yoe + era * 400 + if month ≤ 2 then 1 else 0, month, doy - (153 * mp + 2) / 5 + 1)

def pad (width : Nat) (n : Int) : String := "".pushn '0' (width - (toString n).length) ++ toString n

/-- `str(date)`. -/
def isoDate (day : Int) : String :=
  pad 4 (civil day).1 ++ "-" ++ pad 2 (civil day).2.1 ++ "-" ++ pad 2 (civil day).2.2

/-- `timedelta(days=n)`. -/
def days (n : Nat) : Time := seconds (86400 * n)

/-- `now.replace(day=1, hour=0, minute=0, second=0, microsecond=0)`. -/
def startOfMonth (now : Time) : Time :=
  (now / days 1 - ((civil (now / days 1)).2.2 - 1)) * days 1

theorem civil_day (day : Int) : 1 ≤ (civil day).2.2 ∧ (civil day).2.2 ≤ 31 := by
  simp only [civil]
  omega

/-- A time is in the month that it is said to be in. -/
theorem startOfMonth_le (now : Int) : startOfMonth now ≤ now ∧ now < startOfMonth now + days 31 := by
  have hd := civil_day (now / 86400000000)
  have hday : days 1 = 86400000000 := rfl
  have hdays : days 31 = 2678400000000 := rfl
  simp only [startOfMonth, hday, hdays]
  lia

example : isoDate 19782 = "2024-02-29" ∧ startOfMonth 1709210096000000 = 1706745600000000 := by decide

/-- The number of rows since a time; `NULL >= t` is not true. -/
def countSince (t : Time) (column : ρ → Option Time) (rows : List ρ) : Nat :=
  rows.countP fun r => (column r).any (t ≤ ·)

end CallingAgent.Impl.Reads
