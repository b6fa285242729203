import CallingAgent.Impl.Admin

/-!
# The client's view

`services/api/src/routers/client.py`: the read endpoints for the users of a
tenant, and the answer of either router to a `GET`.
-/

namespace CallingAgent.Impl.ClientRouter

open CallingAgent.Framework CallingAgent.Impl.Auth CallingAgent.Impl.Reads

/-! ## Authorization -/

/-- `_require_client` in front of a handler, which gets `user["client_id"]`. -/
def requireClient {β : Type} (user : Claims) (httpException : Nat → String → β) (handler : Int → β) : β :=
  if user.role = some "tenant_admin" ∨ user.role = some "agent" then
    match user.clientId with
    | some clientId =>
      if clientId = 0 then httpException 403 "Token has no tenant assigned. Contact your administrator."
      else handler clientId
    | none => httpException 403 "Token has no tenant assigned. Contact your administrator."
  else httpException 403 "Client account required. Platform admins use /admin/*."

/-- `_require_client_admin` in front of a handler. -/
def requireClientAdmin {β : Type} (user : Claims) (httpException : Nat → String → β) (handler : Int → β) : β :=
  requireClient user httpException fun clientId =>
    if user.role = some "tenant_admin" then handler clientId
    else httpException 403 "Client administrator role required."

/-! ## Responses -/

structure ClientProfile where
  userId : String
  email : String
  fullName : String
  role : String
  permissions : List String
  tenantId : String
  tenantName : String
  tenantSlug : Option String
  plan : Option Plan
  tenantStatus : Option ClientStatus
  contactEmail : Option String
  contactPhone : Option String
  maxConcurrentCalls : Option Int
  apiLimit : Option Int
  country : Option String
  timezone : Option String
  currency : Option String
  defaultLanguage : Option String
  phoneCountryCode : Option String
  deriving DecidableEq

structure UserResponse where
  userId : String
  email : String
  fullName : String
  role : Option UserRole
  status : Option UserStatus
  createdAt : Option Time
  deriving DecidableEq

def userResponse (user : AdminUser) : UserResponse where
  userId := user.id
  email := user.email
  fullName := user.fullName
  role := user.role
  status := user.status
  createdAt := user.createdAt

structure CallResponse where
  id : Int
  customerName : Option String
  phoneNumber : Option String
  hotelName : Option String
  checkInDate : Option String
  checkOutDate : Option String
  createdAt : Option Time
  status : CallRequestStatus
  callType : CallType
  isSimulation : Bool
  customerId : Option String
  connectionStatus : ConnectionStatus
  failureReason : Option String
  durationSeconds : Option Int
  outcome : Option String
  deriving DecidableEq

def callResponse (call : Caller) : CallResponse where
  id := call.id
  customerName := call.customerName
  phoneNumber := call.phoneNumber
  hotelName := call.hotelName
  checkInDate := call.checkInDate
  checkOutDate := call.checkOutDate
  createdAt := call.createdAt
  status := call.status
  callType := call.callType
  isSimulation := call.isSimulation
  customerId := call.customerId
  connectionStatus := call.connectionStatus
  failureReason := call.failureReason
  durationSeconds := call.durationSeconds
  outcome := call.outcome

structure CallVolumeDay where
  date : String
  count : Nat
  deriving DecidableEq

structure AnalyticsResponse where
  totalCalls : Nat
  callsThisMonth : Nat
  callsThisWeek : Nat
  dailyVolume : List CallVolumeDay
  deriving DecidableEq

/-- What a handler returns. -/
inductive Body
  | profile (profile : ClientProfile)
  | calls (page : Page Caller)
  | call (call : Caller)
  | analytics (analytics : AnalyticsResponse)
  | users (page : Page AdminUser)
  | user (user : AdminUser)
  | phoneNumbers (page : Page PhoneNumberRoute)
  | customers (page : Page Customer)
  | customer (customer : Customer)
  deriving DecidableEq

/-- The query of a page is one that the driver takes. -/
def Body.fits : Body → Bool
  | .calls page => page.fits
  | .users page => page.fits
  | .phoneNumbers page => page.fits
  | .customers page => page.fits
  | _ => true

/-- The body of a 200; `CustomerResponse` and `PhoneNumberResponse` have all
columns of their rows. -/
inductive Response
  | profile (profile : ClientProfile)
  | calls (page : Page CallResponse)
  | call (call : CallResponse)
  | analytics (analytics : AnalyticsResponse)
  | users (page : Page UserResponse)
  | user (user : UserResponse)
  | phoneNumbers (page : Page PhoneNumberRoute)
  | customers (page : Page Customer)
  | customer (customer : Customer)
  deriving DecidableEq

/-- `response_model`. The `provider` of a phone number is not optional there,
but it is in the table. -/
def response : Body → Answer Response
  | .profile profile => .ok (.profile profile)
  | .calls page => .ok (.calls (page.map callResponse))
  | .call call => .ok (.call (callResponse call))
  | .analytics analytics => .ok (.analytics analytics)
  | .users page => .ok (.users (page.map userResponse))
  | .user user => .ok (.user (userResponse user))
  | .phoneNumbers page =>
    if page.data.all fun route => route.provider.isSome then .ok (.phoneNumbers page) else .raised
  | .customers page => .ok (.customers page)
  | .customer customer => .ok (.customer customer)

/-! ## Read endpoints -/

structure SearchQuery where
  paging : Paging
  search : Option String := none

structure UsersQuery where
  paging : Paging
  role : Option String := none
  status : Option String := none

def getMyProfile (db : Session) (user : Claims) (clientId : Int) : Answer Body :=
  match db.getClient clientId with
  | none => .httpException 404 "Tenant not found"
  | some client =>
    .ok <| .profile
      { userId := user.sub.getD ""
        email := user.email.getD ""
        fullName := user.fullName.getD ""
        role := user.role.getD "agent"
        permissions := rolePermissions (user.role.getD "agent")
        tenantId := toString client.id
        tenantName := client.name
        tenantSlug := client.slug
        plan := client.plan
        tenantStatus := client.status
        contactEmail := client.contactEmail
        contactPhone := client.contactPhone
        maxConcurrentCalls := client.maxConcurrentCalls
        apiLimit := client.apiLimit
        country := client.country
        timezone := client.timezone
        currency := client.currency
        defaultLanguage := client.defaultLanguage
        phoneCountryCode := client.phoneCountryCode }

/-- `select(Caller).where(Caller.client_id == client_id)`. -/
def ownCalls (db : Session) (clientId : Int) : List Caller :=
  db.callRequests.filter fun call => call.clientId = some clientId

def listCalls (env : Env) (db : Session) (clientId : Int) (query : SearchQuery) : Answer Body :=
  .ok <| .calls <| query.paging.select (env.callOrder.desc env.dialect (·.createdAt)) <|
    (ownCalls db clientId).filter fun call => whereLike env query.search [call.customerName, call.phoneNumber]

/-- The row that a route by id fetched: one of another tenant is not found. -/
def ownRow {ρ : Type} (clientId : Int) (notFound : String) (tenantId : ρ → Option Int) (body : ρ → Body)
    (fetched : Option ρ) : Answer Body :=
  match fetched with
  | none => .httpException 404 notFound
  | some row => if tenantId row ≠ some clientId then .httpException 404 notFound else .ok (body row)

def getCall (db : Session) (clientId callId : Int) : Answer Body :=
  ownRow clientId "Call not found" Caller.clientId .call (db.getCaller callId)

/-- `group_by(func.date(created_at))`, in the order of the dates. -/
def dailyVolume (env : Env) (calls : List Caller) : List CallVolumeDay :=
  let dates := (calls.filterMap (·.createdAt)).map env.date
  (dates.toFinset.sort (· ≤ ·)).map fun day => ⟨isoDate day, dates.count day⟩

def getAnalytics (env : Env) (db : Session) (clientId : Int) : Answer Body :=
  let calls := ownCalls db clientId
  .ok <| .analytics
    { totalCalls := calls.length
      callsThisMonth := countSince (startOfMonth env.now) (·.createdAt) calls
      callsThisWeek := countSince (env.now - days 7) (·.createdAt) calls
      dailyVolume := dailyVolume env (calls.filter fun call => call.createdAt.any (env.now - days 30 ≤ ·)) }

def listUsers (env : Env) (db : Session) (clientId : Int) (query : UsersQuery) : Answer Body :=
  .ok <| .users <| query.paging.select (env.userOrder.desc env.dialect (·.createdAt)) <|
    db.users.filter fun user =>
      user.tenantId = some clientId && whereEqual query.role (user.role.map (·.text)) &&
        whereEqual query.status (user.status.map (·.text))

def getUser (db : Session) (clientId : Int) (userId : String) : Answer Body :=
  ownRow clientId "User not found" AdminUser.tenantId .user (db.getUser userId)

def listPhoneNumbers (env : Env) (db : Session) (clientId : Int) (paging : Paging) : Answer Body :=
  .ok <| .phoneNumbers <| paging.select env.phoneNumberOrder <|
    db.phoneNumberRoutes.filter fun route => route.tenantId = toString clientId

def listCustomers (env : Env) (db : Session) (clientId : Int) (query : SearchQuery) : Answer Body :=
  .ok <| .customers <| query.paging.select (env.customerOrder.desc env.dialect (·.createdAt)) <|
    db.customers.filter fun customer =>
      customer.clientId = clientId &&
        whereLike env query.search [customer.name, some customer.phone, customer.email]

def getCustomer (db : Session) (clientId : Int) (customerId : String) : Answer Body :=
  ownRow clientId "Customer not found" (fun customer => some customer.clientId) .customer
    (db.getCustomer customerId)

/-- A `GET` below `/client`. -/
inductive Get
  | getMyProfile
  | listCalls (query : Params SearchQuery)
  | getCall (callId : Params Int)
  | getAnalytics
  | listUsers (query : Params UsersQuery)
  | getUser (userId : String)
  | listPhoneNumbers (query : Params Paging)
  | listCustomers (query : Params SearchQuery)
  | getCustomer (customerId : String)

/-- What the handler returns, behind its dependencies. -/
def get (env : Env) (db : Session) (user : Claims) : Get → Answer Body
  | .getMyProfile => requireClient user .httpException <| getMyProfile db user
  | .listCalls query =>
    requireClient user .httpException fun clientId =>
      validated query <| listCalls env (tenantScopedDb user db) clientId
  | .getCall callId =>
    requireClient user .httpException fun clientId => validated callId <| getCall (tenantScopedDb user db) clientId
  | .getAnalytics => requireClientAdmin user .httpException <| getAnalytics env (tenantScopedDb user db)
  | .listUsers query =>
    requireClientAdmin user .httpException fun clientId =>
      validated query <| listUsers env (tenantScopedDb user db) clientId
  | .getUser userId =>
    requireClientAdmin user .httpException fun clientId => getUser (tenantScopedDb user db) clientId userId
  | .listPhoneNumbers query =>
    requireClientAdmin user .httpException fun clientId => validated query <| listPhoneNumbers env db clientId
  | .listCustomers query =>
    requireClient user .httpException fun clientId =>
      validated query <| listCustomers env (tenantScopedDb user db) clientId
  | .getCustomer customerId =>
    requireClient user .httpException fun clientId => getCustomer (tenantScopedDb user db) clientId customerId

end CallingAgent.Impl.ClientRouter

/-! ## Both routers -/

namespace CallingAgent.Impl.Api

open CallingAgent.Impl.Auth CallingAgent.Impl.Reads

/-- A `GET` below `/admin` or `/client`. -/
inductive Get
  | admin (request : Admin.Get)
  | client (request : ClientRouter.Get)

/-- What a handler returns. -/
inductive Body
  | admin (body : Admin.Body)
  | client (body : ClientRouter.Body)
  deriving DecidableEq

inductive Response
  | admin (response : Admin.Response)
  | client (response : ClientRouter.Response)
  deriving DecidableEq

/-- What the handler of a request returns. -/
def get (env : Env) (db : Session) (authorization : Option Token) (request : Get) : Answer Body :=
  (getCurrentUser env.now authorization).bind fun user =>
    match request with
    | .admin request => (Admin.get env db user request).bind fun body => .ok (.admin body)
    | .client request => (ClientRouter.get env db user request).bind fun body => .ok (.client body)

/-- `response_model`. -/
def response (env : Env) : Body → Answer Response
  | .admin body => (Admin.response env body).bind fun response => .ok (.admin response)
  | .client body => (ClientRouter.response body).bind fun response => .ok (.client response)

def Body.fits : Body → Bool
  | .admin body => body.fits
  | .client body => body.fits

/-- The answer to a request. A page too far on for the driver raises with its query, which
`get` leaves out. -/
def serve (env : Env) (db : Session) (authorization : Option Token) (request : Get) : Answer Response :=
  (get env db authorization request).bind fun body => if body.fits then response env body else .raised

end CallingAgent.Impl.Api
