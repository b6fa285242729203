import CallingAgent.Impl.ClientRouter
import CallingAgent.Proof.Auth.Identity

/-!
# The application's own scoping

Without row-level security only the code of a route keeps other tenants' rows
out of its answer. The lists select on the token's tenant, and refuse a token
without one; `/client` refuses such a token as a whole. `GET
/admin/users/{user_id}` and `GET /admin/calls/{call_id}` compare the tenant of
the row with that of the token after they fetched it, and two missing tenants
are equal: that is the one way in which a row of no tenant gets out
(`own_rows_iff`).
-/

namespace CallingAgent.Proof.Reads

open CallingAgent.Framework CallingAgent.Impl CallingAgent.Impl.Auth CallingAgent.Impl.Reads

variable {ρ α β κ : Type} {env : Env} {user : Claims} {db : Session}

/-- A role of the users of a tenant. -/
def OfTenant (user : Claims) : Prop := user.role = some "tenant_admin" ∨ user.role = some "agent"

theorem OfTenant.role_ne (h : OfTenant user) : user.role ≠ some "super_admin" := by
  rcases h with h | h <;> rw [h] <;> decide

theorem noTenant_cases (user : Claims) : noTenant user = true ∨ ∃ n, user.clientId = some n ∧ n ≠ 0 := by
  cases hu : user.clientId with
  | none => exact .inl (by simp [noTenant, hu])
  | some n =>
    by_cases hn : n = 0
    · exact .inl (by simp [noTenant, hu, hn])
    · exact .inr ⟨n, rfl, hn⟩

/-! ## Gates and pages -/

theorem requireSuperAdmin_of_ne (h : user.role ≠ some "super_admin") (httpException : Nat → String → β)
    (handler : β) : Admin.requireSuperAdmin user httpException handler =
      httpException 403 "super_admin role required" := by
  rw [Admin.requireSuperAdmin, if_neg h]

/-- An agent does not get past the gate. -/
theorem requireAdmin_ok (h : OfTenant user) {handler : Answer α} {body : α}
    (hb : Admin.requireAdmin user .httpException handler = .ok body) :
    user.role = some "tenant_admin" ∧ handler = .ok body := by
  unfold Admin.requireAdmin at hb
  split at hb
  · rename_i hr
    exact ⟨hr.resolve_left h.role_ne, hb⟩
  · cases hb

theorem validated_ok {params : Params α} {handler : α → Answer β} {body : β}
    (hb : validated params handler = .ok body) : ∃ a, params = .ok a ∧ handler a = .ok body := by
  cases params with
  | ok a => exact ⟨a, rfl, hb⟩
  | error errors => cases hb

/-- A tenant admin's list is that of the token's tenant. -/
theorem boundTenant_ok (hr : user.role = some "tenant_admin") {tenantId : Option Int}
    {handler : Option Int → Answer Admin.Body} {body : Admin.Body}
    (hb : Admin.boundTenant user tenantId handler = .ok body) :
    ∃ n, user.clientId = some n ∧ handler (some n) = .ok body := by
  unfold Admin.boundTenant at hb
  rw [if_pos hr] at hb
  rcases noTenant_cases user with hc | ⟨n, hc, -⟩
  · rw [if_pos hc] at hb
    cases hb
  · split at hb
    · cases hb
    · exact ⟨n, hc, hc ▸ hb⟩

theorem requireClient_ok {handler : Int → Answer α} {body : α}
    (hb : ClientRouter.requireClient user .httpException handler = .ok body) :
    ∃ n, user.clientId = some n ∧ handler n = .ok body := by
  unfold ClientRouter.requireClient at hb
  split at hb
  · cases hc : user.clientId with
    | none => simp [hc] at hb
    | some n =>
      simp only [hc] at hb
      split at hb
      · cases hb
      · exact ⟨n, rfl, hb⟩
  · cases hb

theorem requireClientAdmin_ok {handler : Int → Answer α} {body : α}
    (hb : ClientRouter.requireClientAdmin user .httpException handler = .ok body) :
    ∃ n, user.clientId = some n ∧ handler n = .ok body := by
  obtain ⟨n, hc, hb⟩ := requireClient_ok hb
  split at hb
  · exact ⟨n, hc, hb⟩
  · cases hb

/-- The rows of a page were selected. -/
theorem mem_of_mem_select {paging : Paging} {order : RowOrder ρ} {rows : List ρ} {r : ρ}
    (h : r ∈ (paging.select order rows).data) : r ∈ rows :=
  (order.perm rows).mem_iff.mp (List.mem_of_mem_drop (List.mem_of_mem_take h))

/-! ## Own rows -/

/-- A tenant column that is not null, and equal to the token's. -/
def Owned (clientId tenantId : Option κ) : Prop := tenantId ≠ none ∧ tenantId = clientId

theorem owned_of_some {n : κ} {clientId tenantId : Option κ} (hc : clientId = some n) (ht : tenantId = some n) :
    Owned clientId tenantId :=
  ⟨ht ▸ Option.some_ne_none n, ht.trans hc.symm⟩

/-- Every user, call, customer, phone number and audit row of the body is of
the token's tenant. -/
def OwnRows (user : Claims) : Api.Body → Prop
  | .admin (.users page) => ∀ r ∈ page.data, Owned user.clientId r.tenantId
  | .admin (.user r) => Owned user.clientId r.tenantId
  | .admin (.calls page) => ∀ r ∈ page.data, Owned user.clientId r.clientId
  | .admin (.call r) => Owned user.clientId r.clientId
  | .admin (.auditLogs page) => ∀ r ∈ page.data, Owned (user.clientId.map toString) r.tenantId
  | .client (.calls page) => ∀ r ∈ page.data, Owned user.clientId r.clientId
  | .client (.call r) => Owned user.clientId r.clientId
  | .client (.users page) => ∀ r ∈ page.data, Owned user.clientId r.tenantId
  | .client (.user r) => Owned user.clientId r.tenantId
  | .client (.phoneNumbers page) => ∀ r ∈ page.data, Owned (user.clientId.map toString) (some r.tenantId)
  | .client (.customers page) => ∀ r ∈ page.data, Owned user.clientId (some r.clientId)
  | .client (.customer r) => Owned user.clientId (some r.clientId)
  -- Tenants, and numbers.
  | .admin (.clients _) | .admin (.client _) | .admin (.clientStats _) | .admin (.tenants _)
  | .admin (.tenant _) | .admin (.tenantStats _) | .client (.profile _) | .client (.analytics _) => True

/-- The rows of a 200 are of the token's tenant. -/
def Isolated (env : Env) (db : Session) (authorization : Option Token) (user : Claims) (request : Api.Get) : Prop :=
  ∀ body response, Api.get env db authorization request = .ok body →
    Api.response env body = .ok response → OwnRows user body

/-- The request is for one user or call, by a tenant admin without a tenant,
and that row has no tenant either. -/
def FetchesUnowned (db : Session) (user : Claims) : Api.Get → Prop
  | .admin (.getUser userId) =>
    user.role = some "tenant_admin" ∧ user.clientId = none ∧
      ∃ r ∈ db.database.users.rows, r.id = userId ∧ r.tenantId = none
  | .admin (.getCall (.ok callId)) =>
    user.role = some "tenant_admin" ∧ user.clientId = none ∧
      ∃ r ∈ db.database.callRequests.rows, r.id = callId ∧ r.clientId = none
  | _ => False

/-! ## The routes of the administration -/

/-- The comparison after a fetch passes for two tenants or for none. -/
theorem owned_of_eq {clientId tenantId : Option κ} (e : tenantId = clientId)
    (hn : ¬ (clientId = none ∧ tenantId = none)) : Owned clientId tenantId := by
  refine ⟨fun h => hn ⟨e ▸ h, h⟩, e⟩

theorem viewRow_ok {notFound : String} {tenantId : ρ → Option Int} {toBody : ρ → Admin.Body}
    {fetched : Option ρ} {body : Admin.Body} (hr : user.role = some "tenant_admin")
    (hb : Admin.viewRow user notFound tenantId toBody fetched = .ok body) :
    ∃ r, fetched = some r ∧ tenantId r = user.clientId ∧ body = toBody r := by
  unfold Admin.viewRow at hb
  split at hb
  · cases hb
  · rename_i r
    split at hb
    · cases hb
    · rename_i hc
      exact ⟨r, rfl, not_not.mp fun hne => hc ⟨hr, hne⟩, (Answer.ok.inj hb).symm⟩

/-- A row that a session fetches is in the table. -/
theorem mem_of_find?_filter {p q : ρ → Bool} {rows : List ρ} {r : ρ}
    (h : (rows.filter p).find? q = some r) : r ∈ rows ∧ q r = true :=
  ⟨(List.mem_filter.mp (List.mem_of_find?_eq_some h)).1, List.find?_some h⟩

theorem admin_ownRows (h : OfTenant user) {request : Admin.Get} (hf : ¬ FetchesUnowned db user (.admin request))
    {body : Admin.Body} (hb : Admin.get env db user request = .ok body) : OwnRows user (.admin body) := by
  cases request with
  | listClients | getClient | getClientStats | listTenants | getTenant | getTenantStats =>
    simp only [Admin.get, requireSuperAdmin_of_ne h.role_ne] at hb
    cases hb
  | listUsers query =>
    obtain ⟨hr, hb⟩ := requireAdmin_ok h hb
    obtain ⟨query, -, hb⟩ := validated_ok hb
    obtain ⟨n, hc, hb⟩ := boundTenant_ok hr hb
    obtain rfl := Answer.ok.inj hb
    intro r hr
    have hw := (List.mem_filter.mp (mem_of_mem_select hr)).2
    simp only [Admin.whereTenant, Option.all_some, Bool.and_eq_true, decide_eq_true_eq] at hw
    exact owned_of_some hc hw.1.1
  | getUser userId =>
    obtain ⟨hr, hb⟩ := requireAdmin_ok h hb
    obtain ⟨r, hf', e, rfl⟩ := viewRow_ok hr hb
    obtain ⟨hm, hk⟩ := mem_of_find?_filter hf'
    exact owned_of_eq e fun hn => hf ⟨hr, hn.1, r, hm, of_decide_eq_true hk, hn.2⟩
  | listCalls query =>
    obtain ⟨hr, hb⟩ := requireAdmin_ok h hb
    obtain ⟨query, -, hb⟩ := validated_ok hb
    obtain ⟨n, hc, hb⟩ := boundTenant_ok hr hb
    obtain rfl := Answer.ok.inj hb
    intro r hr
    have hw := (List.mem_filter.mp (mem_of_mem_select hr)).2
    simp only [Admin.whereTenant, Option.all_some, Bool.and_eq_true, decide_eq_true_eq] at hw
    exact owned_of_some hc hw.1
  | getCall callId =>
    obtain ⟨hr, hb⟩ := requireAdmin_ok h hb
    obtain ⟨callId, rfl, hb⟩ := validated_ok hb
    obtain ⟨r, hf', e, rfl⟩ := viewRow_ok hr hb
    obtain ⟨hm, hk⟩ := mem_of_find?_filter hf'
    exact owned_of_eq e fun hn => hf ⟨hr, hn.1, r, hm, of_decide_eq_true hk, hn.2⟩
  | listAuditLogs query =>
    obtain ⟨hr, hb⟩ := requireAdmin_ok h hb
    obtain ⟨query, -, hb⟩ := validated_ok hb
    obtain ⟨n, hc, hb⟩ := boundTenant_ok hr hb
    obtain rfl := Answer.ok.inj hb
    intro r hr
    have hw := (List.mem_filter.mp (mem_of_mem_select hr)).2
    simp only [Admin.whereTenant, Option.map_some, Option.all_some, Bool.and_eq_true, decide_eq_true_eq] at hw
    exact owned_of_some (congrArg (Option.map toString) hc) hw.1

/-! ## The routes of the client -/

theorem ownRow_ok {n : Int} {notFound : String} {tenantId : ρ → Option Int} {toBody : ρ → ClientRouter.Body}
    {fetched : Option ρ} {body : ClientRouter.Body}
    (hb : ClientRouter.ownRow n notFound tenantId toBody fetched = .ok body) :
    ∃ r, tenantId r = some n ∧ body = toBody r := by
  unfold ClientRouter.ownRow at hb
  split at hb
  · cases hb
  · rename_i r
    split at hb
    · cases hb
    · rename_i hne
      exact ⟨r, not_not.mp hne, (Answer.ok.inj hb).symm⟩

theorem client_ownRows {request : ClientRouter.Get} {body : ClientRouter.Body}
    (hb : ClientRouter.get env db user request = .ok body) : OwnRows user (.client body) := by
  cases request with
  | getMyProfile =>
    obtain ⟨n, hc, hb⟩ := requireClient_ok hb
    unfold ClientRouter.getMyProfile at hb
    split at hb
    · cases hb
    · obtain rfl := Answer.ok.inj hb
      trivial
  | listCalls query =>
    obtain ⟨n, hc, hb⟩ := requireClient_ok hb
    obtain ⟨query, -, hb⟩ := validated_ok hb
    obtain rfl := Answer.ok.inj hb
    intro r hr
    have hw := (List.mem_filter.mp (List.mem_filter.mp (mem_of_mem_select hr)).1).2
    exact owned_of_some hc (of_decide_eq_true hw)
  | getCall callId =>
    obtain ⟨n, hc, hb⟩ := requireClient_ok hb
    obtain ⟨callId, -, hb⟩ := validated_ok hb
    obtain ⟨r, e, rfl⟩ := ownRow_ok hb
    exact owned_of_some hc e
  | getAnalytics =>
    obtain ⟨n, hc, hb⟩ := requireClientAdmin_ok hb
    obtain rfl := Answer.ok.inj hb
    trivial
  | listUsers query =>
    obtain ⟨n, hc, hb⟩ := requireClientAdmin_ok hb
    obtain ⟨query, -, hb⟩ := validated_ok hb
    obtain rfl := Answer.ok.inj hb
    intro r hr
    have hw := (List.mem_filter.mp (mem_of_mem_select hr)).2
    simp only [Bool.and_eq_true, decide_eq_true_eq] at hw
    exact owned_of_some hc hw.1.1
  | getUser userId =>
    obtain ⟨n, hc, hb⟩ := requireClientAdmin_ok hb
    obtain ⟨r, e, rfl⟩ := ownRow_ok hb
    exact owned_of_some hc e
  | listPhoneNumbers query =>
    obtain ⟨n, hc, hb⟩ := requireClientAdmin_ok hb
    obtain ⟨paging, -, hb⟩ := validated_ok hb
    obtain rfl := Answer.ok.inj hb
    intro r hr
    have hw := (List.mem_filter.mp (mem_of_mem_select hr)).2
    exact owned_of_some (congrArg (Option.map toString) hc) (congrArg some (of_decide_eq_true hw))
  | listCustomers query =>
    obtain ⟨n, hc, hb⟩ := requireClient_ok hb
    obtain ⟨query, -, hb⟩ := validated_ok hb
    obtain rfl := Answer.ok.inj hb
    intro r hr
    have hw := (List.mem_filter.mp (mem_of_mem_select hr)).2
    simp only [Bool.and_eq_true, decide_eq_true_eq] at hw
    exact owned_of_some hc (congrArg some hw.1)
  | getCustomer customerId =>
    obtain ⟨n, hc, hb⟩ := requireClient_ok hb
    obtain ⟨r, e, rfl⟩ := ownRow_ok hb
    exact owned_of_some hc e

/-! ## Isolation -/

theorem get_admin {authorization : Option Token} (hauth : getCurrentUser env.now authorization = .ok user)
    (request : Admin.Get) : Api.get env db authorization (.admin request) =
      (Admin.get env db user request).bind fun body => .ok (.admin body) := by
  rw [Api.get, hauth]
  rfl

theorem get_client {authorization : Option Token} (hauth : getCurrentUser env.now authorization = .ok user)
    (request : ClientRouter.Get) : Api.get env db authorization (.client request) =
      (ClientRouter.get env db user request).bind fun body => .ok (.client body) := by
  rw [Api.get, hauth]
  rfl

theorem bind_ok {answer : Answer α} {next : α → Answer β} {body : β} (h : answer.bind next = .ok body) :
    ∃ a, answer = .ok a ∧ next a = .ok body := by
  cases answer with
  | ok a => exact ⟨a, rfl, h⟩
  | httpException statusCode detail => cases h
  | raised => cases h

/-- The gate and the comparison let such a row through. -/
theorem viewRow_unowned {notFound : String} {tenantId : ρ → Option Int} {toBody : ρ → Admin.Body} {r : ρ}
    (hr : user.role = some "tenant_admin") (hc : user.clientId = none) (ht : tenantId r = none) :
    Admin.requireAdmin user .httpException (Admin.viewRow user notFound tenantId toBody (some r)) =
      .ok (toBody r) := by
  rw [Admin.requireAdmin, if_pos (.inr hr), Admin.viewRow, if_neg (fun h => h.2 (by rw [ht, hc]))]

theorem not_isolated_of_fetchesUnowned {authorization : Option Token}
    (hauth : getCurrentUser env.now authorization = .ok user) (hrls : db.rls = none) {request : Api.Get}
    (h : FetchesUnowned db user request) : ¬ Isolated env db authorization user request := by
  intro hi
  unfold FetchesUnowned at h
  split at h
  · obtain ⟨hr, hc, r, hm, rfl, ht⟩ := h
    have hf : (tenantScopedDb user db).getUser r.id = some r := by
      have hl : db.database.users.rows.find? (·.id == r.id) = some r := Table.lookup_of_mem hm
      simpa [Session.getUser, Session.users, Session.visible, tenantScopedDb, hrls] using hl
    refine (hi (.admin (.user r)) _ ?_ rfl).1 ht
    rw [get_admin hauth]
    simp only [Admin.get, Admin.getUser, hf, viewRow_unowned hr hc ht, Answer.bind]
  · obtain ⟨hr, hc, r, hm, rfl, ht⟩ := h
    have hf : (tenantScopedDb user db).getCaller r.id = some r := by
      have hl : db.database.callRequests.rows.find? (·.id == r.id) = some r := Table.lookup_of_mem hm
      simpa [Session.getCaller, Session.callRequests, Session.visible, tenantScopedDb, hrls] using hl
    refine (hi (.admin (.call r)) _ ?_ rfl).1 ht
    rw [get_admin hauth]
    simp only [Admin.get, validated, Admin.getCall, hf, viewRow_unowned hr hc ht, Answer.bind]
  · exact h

/-- Without row-level security, the rows in the answer to a `tenant_admin` or an
`agent` all have a tenant and it is that of the token, if and only if the
request is not that of a tenant admin without a tenant for one user or call
that has none. -/
theorem own_rows_iff (env : Env) (db : Session) (hrls : db.rls = none) (authorization : Option Token)
    (user : Claims) (hauth : getCurrentUser env.now authorization = .ok user)
    (hrole : user.role = some "tenant_admin" ∨ user.role = some "agent") (request : Api.Get) :
    Isolated env db authorization user request ↔ ¬ FetchesUnowned db user request := by
  constructor
  · intro hi hf
    exact not_isolated_of_fetchesUnowned hauth hrls hf hi
  · intro hf body response hb _
    cases request with
    | admin request =>
      rw [get_admin hauth] at hb
      obtain ⟨body, hget, h⟩ := bind_ok hb
      obtain rfl := Answer.ok.inj h
      exact admin_ownRows hrole hf hget
    | client request =>
      rw [get_client hauth] at hb
      obtain ⟨body, hget, h⟩ := bind_ok hb
      obtain rfl := Answer.ok.inj h
      exact client_ownRows hget

/-- PostgreSQL in UTC, with these orders. -/
def postgresEnv (order : (ρ : Type) → RowOrder ρ) : Env where
  now := 0
  dialect := .postgresql
  ilike value pattern := "%" ++ value ++ "%" == pattern
  date t := t / days 1
  usagePct totalCalls limit := toString (totalCalls * 100 / limit) ++ ".0"
  isDict json := json.startsWith "\x7b"
  clientOrder := order Client
  userOrder := order AdminUser
  customerOrder := order Customer
  callOrder := order Caller
  auditLogOrder := order AuditLog
  phoneNumberOrder := order PhoneNumberRoute

/-- Rows come in the order of the table. -/
def tableOrder (ρ : Type) : RowOrder ρ := ⟨fun rows => rows, fun rows => .refl rows⟩

/-- An operator of the platform. -/
def platformUser : AdminUser where
  id := "u0"
  email := "ops@staykaro.com"
  fullName := "Ops"
  passwordHash := none
  role := some .superAdmin
  tenantId := none
  status := some .active
  createdAt := none

def platformDatabase : Database where
  clients := .empty
  users := ⟨[platformUser], by decide⟩
  customers := .empty
  callRequests := .empty
  auditLogs := .empty
  phoneNumberRoutes := .empty

/-- The claims of a tenant admin's access token. -/
def tenantAdmin (clientId : Option Int) : Claims where
  sub := some "u1"
  role := some "tenant_admin"
  exp := some 1800
  type := some "access"
  clientId := clientId

theorem own_rows_of_tenant :
    Isolated (postgresEnv tableOrder) ⟨platformDatabase, none⟩ (some (some (tenantAdmin (some 1)))) (tenantAdmin (some 1))
      (.admin (.getUser "u0")) :=
  (own_rows_iff _ _ rfl _ _ rfl (.inl rfl) _).mpr fun h => by cases h.2.1

/-- The token that a refresh gives a tenant admin has no tenant, and reads the
record of an operator of the platform. -/
theorem unowned_user_fetched :
    getCurrentUser 0 (some (some (tenantAdmin none))) = .ok (tenantAdmin none) ∧
      ¬ Isolated (postgresEnv tableOrder) ⟨platformDatabase, none⟩ (some (some (tenantAdmin none))) (tenantAdmin none)
        (.admin (.getUser "u0")) :=
  ⟨rfl, fun h => (h (.admin (.user platformUser)) _ rfl rfl).1 rfl⟩

end CallingAgent.Proof.Reads
