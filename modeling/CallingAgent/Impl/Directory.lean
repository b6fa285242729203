import CallingAgent.Framework.Table
import CallingAgent.Impl.Models

/-!
# The rows of the administration

`services/api/src/models.py`: tenants (`clients`), their users (`admin_users`),
customers, call requests, phone numbers and the audit log. Columns with a
server default but no `NOT NULL` can be `NULL`; those with a `CHECK` have the
values it lists.
-/

namespace CallingAgent.Impl

open CallingAgent.Framework

/-- `ck_clients_plan`. -/
inductive Plan
  | starter
  | pro
  | enterprise
  deriving DecidableEq

/-- `ck_clients_status`. -/
inductive ClientStatus
  | active
  | suspended
  | inactive
  deriving DecidableEq

/-- `ck_admin_users_role`. -/
inductive UserRole
  | superAdmin
  | tenantAdmin
  | agent
  deriving DecidableEq

/-- `ck_admin_users_status`. -/
inductive UserStatus
  | active
  | suspended
  deriving DecidableEq

/-- `ck_call_requests_status`. -/
inductive CallRequestStatus
  | pending
  | queued
  | dialing
  | ringing
  | connected
  | inProgress
  | completed
  | failed
  | cancelled
  | noAnswer
  | voicemail
  deriving DecidableEq

/-- `ck_call_requests_call_type`. -/
inductive CallType
  | inbound
  | outbound
  deriving DecidableEq

def ClientStatus.text : ClientStatus → String
  | .active => "active"
  | .suspended => "suspended"
  | .inactive => "inactive"

def UserRole.text : UserRole → String
  | .superAdmin => "super_admin"
  | .tenantAdmin => "tenant_admin"
  | .agent => "agent"

def UserStatus.text : UserStatus → String
  | .active => "active"
  | .suspended => "suspended"

/-- A row of `clients`: a tenant. -/
structure Client where
  id : Int
  name : String
  slug : Option String
  plan : Option Plan
  status : Option ClientStatus
  contactEmail : Option String
  contactPhone : Option String
  apiLimit : Option Int
  maxConcurrentCalls : Option Int
  createdAt : Option Time
  updatedAt : Option Time
  country : Option String
  timezone : Option String
  currency : Option String
  defaultLanguage : Option String
  phoneCountryCode : Option String
  deriving DecidableEq

/-- A row of `admin_users`. -/
structure AdminUser where
  id : String
  email : String
  fullName : String
  passwordHash : Option String
  role : Option UserRole
  tenantId : Option Int
  status : Option UserStatus
  createdAt : Option Time
  deriving DecidableEq

/-- A row of `customers`. -/
structure Customer where
  id : String
  clientId : Int
  name : Option String
  phone : String
  email : Option String
  languageCode : Option String
  timezone : Option String
  countryCode : Option String
  notes : Option String
  externalId : Option String
  createdAt : Option Time
  updatedAt : Option Time
  deriving DecidableEq

/-- A row of `call_requests` (`Caller`). -/
structure Caller where
  id : Int
  customerName : Option String
  phoneNumber : Option String
  hotelName : Option String
  checkInDate : Option String
  checkOutDate : Option String
  clientId : Option Int
  createdAt : Option Time
  status : CallRequestStatus
  callType : CallType
  isSimulation : Bool
  customerId : Option String
  connectionStatus : ConnectionStatus
  failureReason : Option String
  durationSeconds : Option Int
  outcome : Option String
  deriving DecidableEq

/-- A row of `audit_logs`. -/
structure AuditLog where
  auditId : String
  tenantId : Option String
  userId : Option String
  action : String
  beforeValue : Option Json
  afterValue : Option Json
  occurredAt : Option Time
  deriving DecidableEq

/-- A row of `phone_number_routes`. -/
structure PhoneNumberRoute where
  number : String
  tenantId : String
  agentId : String
  provider : Option String
  createdAt : Option Time
  deriving DecidableEq

abbrev Users := Table AdminUser.id

/-- The tables that the routers of the administration read. -/
structure Database where
  clients : Table Client.id
  users : Users
  customers : Table Customer.id
  callRequests : Table Caller.id
  auditLogs : Table AuditLog.auditId
  phoneNumberRoutes : Table PhoneNumberRoute.number

end CallingAgent.Impl
