import CallingAgent.Proof.Reads.Visible

/-!
# Reads do not see other tenants

With row-level security in effect, what a user of a tenant reads is a function
of the tenant's own rows. Under the setting that `get_tenant_scoped_db` makes,
a session sees the rows of the token's tenant alone (`visible_tenantScopedDb`), so
two databases with the same rows of that tenant show it the same ones up to
their order (`Alike.users` and so on); the tables without a policy are read
with a filter on the tenant. What a handler computes does not depend on the
order, except through the order in which the database returns rows.
-/

namespace CallingAgent.Proof.Reads

open CallingAgent.Framework CallingAgent.Impl CallingAgent.Impl.Auth CallingAgent.Impl.Tenant
  CallingAgent.Impl.Reads

variable {ρ α β : Type} {env : Env} {user : Claims} {db db' : Session}

/-! ## Two databases -/

/-- The databases have the same row of the tenant, and the same rows of it. -/
structure Agree (n : Int) (d d' : Database) : Prop where
  client : d.clients.lookup n = d'.clients.lookup n
  users : ∀ r : AdminUser, r.tenantId = some n → (r ∈ d.users.rows ↔ r ∈ d'.users.rows)
  customers : ∀ r : Customer, r.clientId = n → (r ∈ d.customers.rows ↔ r ∈ d'.customers.rows)
  callRequests : ∀ r : Caller, r.clientId = some n → (r ∈ d.callRequests.rows ↔ r ∈ d'.callRequests.rows)
  auditLogs : ∀ r : AuditLog, r.tenantId = some (toString n) → (r ∈ d.auditLogs.rows ↔ r ∈ d'.auditLogs.rows)
  phoneNumberRoutes : ∀ r : PhoneNumberRoute, r.tenantId = toString n →
    (r ∈ d.phoneNumberRoutes.rows ↔ r ∈ d'.phoneNumberRoutes.rows)

/-- Two sessions for a user's requests, under row-level security, that differ
in the rows of others only. -/
structure Alike (user : Claims) (db db' : Session) : Prop where
  ofTenant : OfTenant user
  rls : db.rls.isSome
  rls' : db'.rls.isSome
  agree : ∀ n ∈ user.clientId, Agree n db.database db'.database

namespace Alike

/-- The rows that either session sees of a table with a policy are the same,
if all that the policy shows are the token's. -/
theorem scoped_perm {κ : Type} {key : ρ → κ} {t t' : Table key} (h : Alike user db db')
    (tenantId : ρ → Option String)
    (ht : ∀ r, tenantId r = some (tenantUser user).tenantValue → (r ∈ t.rows ↔ r ∈ t'.rows)) :
    (t.rows.filter fun r => (tenantScopedDb user db).visible (tenantId r)).Perm
      (t'.rows.filter fun r => (tenantScopedDb user db').visible (tenantId r)) := by
  simp only [visible_tenantScopedDb h.ofTenant h.rls, visible_tenantScopedDb h.ofTenant h.rls']
  exact Table.filter_rows_perm fun r hr => ht r (of_decide_eq_true hr)

theorem scoped_find? {κ : Type} [DecidableEq κ] {key : ρ → κ} {t t' : Table key}
    (h : Alike user db db') (tenantId : ρ → Option String)
    (ht : ∀ r, tenantId r = some (tenantUser user).tenantValue → (r ∈ t.rows ↔ r ∈ t'.rows)) (k : κ) :
    (t.rows.filter fun r => (tenantScopedDb user db).visible (tenantId r)).find? (fun r => key r == k) =
      (t'.rows.filter fun r => (tenantScopedDb user db').visible (tenantId r)).find? fun r => key r == k := by
  simp only [visible_tenantScopedDb h.ofTenant h.rls, visible_tenantScopedDb h.ofTenant h.rls']
  exact Table.find?_filter_rows_congr (fun r hr => ht r (of_decide_eq_true hr)) k

theorem users_rows (h : Alike user db db') (r : AdminUser)
    (hr : r.tenantId.map toString = some (tenantUser user).tenantValue) :
    r ∈ db.database.users.rows ↔ r ∈ db'.database.users.rows := by
  obtain ⟨m, hm, e⟩ := Option.map_eq_some_iff.mp hr
  exact (h.agree m (clientId_of_tenantValue h.ofTenant e)).users r hm

theorem callRequests_rows (h : Alike user db db') (r : Caller)
    (hr : r.clientId.map toString = some (tenantUser user).tenantValue) :
    r ∈ db.database.callRequests.rows ↔ r ∈ db'.database.callRequests.rows := by
  obtain ⟨m, hm, e⟩ := Option.map_eq_some_iff.mp hr
  exact (h.agree m (clientId_of_tenantValue h.ofTenant e)).callRequests r hm

theorem customers_rows (h : Alike user db db') (r : Customer)
    (hr : some (toString r.clientId) = some (tenantUser user).tenantValue) :
    r ∈ db.database.customers.rows ↔ r ∈ db'.database.customers.rows :=
  (h.agree _ (clientId_of_tenantValue h.ofTenant (Option.some.inj hr))).customers r rfl

/-- An audit row can have an empty tenant, which a token without a tenant would
see, but not through a route. -/
theorem auditLogs_rows (h : Alike user db db') (hc : noTenant user = false) (r : AuditLog)
    (hr : r.tenantId = some (tenantUser user).tenantValue) :
    r ∈ db.database.auditLogs.rows ↔ r ∈ db'.database.auditLogs.rows := by
  rcases noTenant_cases user with hc' | ⟨n, hn, hn0⟩
  · rw [hc] at hc'
    cases hc'
  · rw [tenantValue_some h.ofTenant hn hn0] at hr
    exact (h.agree n hn).auditLogs r hr

theorem users (h : Alike user db db') :
    (tenantScopedDb user db).users.Perm (tenantScopedDb user db').users :=
  h.scoped_perm (fun r : AdminUser => r.tenantId.map toString) h.users_rows

theorem getUser (h : Alike user db db') (id : String) :
    (tenantScopedDb user db).getUser id = (tenantScopedDb user db').getUser id :=
  h.scoped_find? (fun r : AdminUser => r.tenantId.map toString) h.users_rows id

theorem callRequests (h : Alike user db db') :
    (tenantScopedDb user db).callRequests.Perm (tenantScopedDb user db').callRequests :=
  h.scoped_perm (fun r : Caller => r.clientId.map toString) h.callRequests_rows

theorem getCaller (h : Alike user db db') (id : Int) :
    (tenantScopedDb user db).getCaller id = (tenantScopedDb user db').getCaller id :=
  h.scoped_find? (fun r : Caller => r.clientId.map toString) h.callRequests_rows id

theorem customers (h : Alike user db db') :
    (tenantScopedDb user db).customers.Perm (tenantScopedDb user db').customers :=
  h.scoped_perm (fun r : Customer => some (toString r.clientId)) h.customers_rows

theorem getCustomer (h : Alike user db db') (id : String) :
    (tenantScopedDb user db).getCustomer id = (tenantScopedDb user db').getCustomer id :=
  h.scoped_find? (fun r : Customer => some (toString r.clientId)) h.customers_rows id

theorem auditLogs (h : Alike user db db') (hc : noTenant user = false) :
    (tenantScopedDb user db).auditLogs.Perm (tenantScopedDb user db').auditLogs :=
  h.scoped_perm AuditLog.tenantId (h.auditLogs_rows hc)

end Alike

/-! ## Queries -/

theorem ofRows_desc {order : RowOrder ρ} (h : order.OfRows) (dialect : Dialect) (column : ρ → Option Time) :
    (order.desc dialect column).OfRows := by
  intro rows rows' hp
  simp only [RowOrder.desc, h rows rows' hp]

theorem select_congr {order : RowOrder ρ} (h : order.OfRows) (paging : Paging) {rows rows' : List ρ}
    (hp : rows.Perm rows') : paging.select order rows = paging.select order rows' := by
  simp only [Paging.select, h rows rows' hp, hp.length_eq]

theorem countSince_congr (t : Time) (column : ρ → Option Time) {rows rows' : List ρ} (hp : rows.Perm rows') :
    countSince t column rows = countSince t column rows' :=
  hp.countP_eq _

theorem dailyVolume_congr (env : Env) {calls calls' : List Caller} (hp : calls.Perm calls') :
    ClientRouter.dailyVolume env calls = ClientRouter.dailyVolume env calls' := by
  have hd : ((calls.filterMap (·.createdAt)).map env.date).Perm ((calls'.filterMap (·.createdAt)).map env.date) :=
    (hp.filterMap _).map _
  simp only [ClientRouter.dailyVolume, List.toFinset_eq_of_perm _ _ hd, hd.count_eq]

/-! ## The routes of the administration -/

/-- An agent does not get past the gate. -/
theorem requireAdmin_congr (h : OfTenant user) (httpException : Nat → String → β) {handler handler' : β}
    (he : user.role = some "tenant_admin" → handler = handler') :
    Admin.requireAdmin user httpException handler = Admin.requireAdmin user httpException handler' := by
  unfold Admin.requireAdmin
  split
  · rename_i hr
    exact he (hr.resolve_left h.role_ne)
  · rfl

theorem boundTenant_congr (hr : user.role = some "tenant_admin") (tenantId : Option Int)
    {handler handler' : Option Int → Answer Admin.Body}
    (he : noTenant user = false → handler user.clientId = handler' user.clientId) :
    Admin.boundTenant user tenantId handler = Admin.boundTenant user tenantId handler' := by
  unfold Admin.boundTenant
  rw [if_pos hr, if_pos hr]
  split
  · rfl
  · rename_i hc
    exact he (Bool.eq_false_iff.mpr hc)

theorem admin_get_congr (horder : env.OrderOfRows) (h : Alike user db db') (request : Admin.Get) :
    Admin.get env db user request = Admin.get env db' user request := by
  cases request with
  | listClients | getClient | getClientStats | listTenants | getTenant | getTenantStats =>
    simp only [Admin.get, requireSuperAdmin_of_ne h.ofTenant.role_ne]
  | listUsers query =>
    refine requireAdmin_congr h.ofTenant _ fun hr => congrArg _ (funext fun query => ?_)
    refine boundTenant_congr hr _ fun _ => ?_
    rw [select_congr horder.users _ (h.users.filter _)]
  | getUser userId =>
    refine requireAdmin_congr h.ofTenant _ fun _ => ?_
    simp only [Admin.getUser, h.getUser]
  | listCalls query =>
    refine requireAdmin_congr h.ofTenant _ fun hr => congrArg _ (funext fun query => ?_)
    refine boundTenant_congr hr _ fun _ => ?_
    rw [select_congr horder.calls _ (h.callRequests.filter _)]
  | getCall callId =>
    refine requireAdmin_congr h.ofTenant _ fun _ => congrArg _ (funext fun callId => ?_)
    simp only [Admin.getCall, h.getCaller]
  | listAuditLogs query =>
    refine requireAdmin_congr h.ofTenant _ fun hr => congrArg _ (funext fun query => ?_)
    refine boundTenant_congr hr _ fun hc => ?_
    rw [select_congr (ofRows_desc horder.auditLogs _ _) _ ((h.auditLogs hc).filter _)]

/-! ## The routes of the client -/

theorem requireClient_congr (httpException : Nat → String → β) {handler handler' : Int → β}
    (he : ∀ n ∈ user.clientId, handler n = handler' n) :
    ClientRouter.requireClient user httpException handler =
      ClientRouter.requireClient user httpException handler' := by
  cases hc : user.clientId with
  | none => simp only [ClientRouter.requireClient, hc]
  | some n => simp only [ClientRouter.requireClient, hc, he n hc]

theorem requireClientAdmin_congr (httpException : Nat → String → β) {handler handler' : Int → β}
    (he : ∀ n ∈ user.clientId, handler n = handler' n) :
    ClientRouter.requireClientAdmin user httpException handler =
      ClientRouter.requireClientAdmin user httpException handler' :=
  requireClient_congr _ fun n hn => by rw [he n hn]

theorem ownCalls_perm (h : Alike user db db') (n : Int) :
    (ClientRouter.ownCalls (tenantScopedDb user db) n).Perm
      (ClientRouter.ownCalls (tenantScopedDb user db') n) :=
  h.callRequests.filter _

theorem client_get_congr (horder : env.OrderOfRows) (h : Alike user db db') (request : ClientRouter.Get) :
    ClientRouter.get env db user request = ClientRouter.get env db' user request := by
  cases request with
  | getMyProfile =>
    refine requireClient_congr _ fun n hn => ?_
    have hg : db.getClient n = db'.getClient n := (h.agree n hn).client
    simp only [ClientRouter.getMyProfile, hg]
  | listCalls query =>
    refine requireClient_congr _ fun n _ => congrArg _ (funext fun query => ?_)
    simp only [ClientRouter.listCalls]
    rw [select_congr (ofRows_desc horder.calls _ _) _ ((ownCalls_perm h n).filter _)]
  | getCall callId =>
    refine requireClient_congr _ fun n _ => congrArg _ (funext fun callId => ?_)
    simp only [ClientRouter.getCall, h.getCaller]
  | getAnalytics =>
    refine requireClientAdmin_congr _ fun n _ => ?_
    have hp := ownCalls_perm h n
    simp only [ClientRouter.getAnalytics, hp.length_eq, countSince_congr _ _ hp,
      dailyVolume_congr env (hp.filter _)]
  | listUsers query =>
    refine requireClientAdmin_congr _ fun n _ => congrArg _ (funext fun query => ?_)
    simp only [ClientRouter.listUsers]
    rw [select_congr (ofRows_desc horder.users _ _) _ (h.users.filter _)]
  | getUser userId =>
    refine requireClientAdmin_congr _ fun n _ => ?_
    simp only [ClientRouter.getUser, h.getUser]
  | listPhoneNumbers query =>
    refine requireClientAdmin_congr _ fun n hn => congrArg _ (funext fun paging => ?_)
    have hp : (db.phoneNumberRoutes.filter fun route => route.tenantId = toString n).Perm
        (db'.phoneNumberRoutes.filter fun route => route.tenantId = toString n) :=
      Table.filter_rows_perm fun r hr => (h.agree n hn).phoneNumberRoutes r (of_decide_eq_true hr)
    simp only [ClientRouter.listPhoneNumbers]
    rw [select_congr horder.phoneNumbers _ hp]
  | listCustomers query =>
    refine requireClient_congr _ fun n _ => congrArg _ (funext fun query => ?_)
    simp only [ClientRouter.listCustomers]
    rw [select_congr (ofRows_desc horder.customers _ _) _ (h.customers.filter _)]
  | getCustomer customerId =>
    refine requireClient_congr _ fun n _ => ?_
    simp only [ClientRouter.getCustomer, h.getCustomer]

/-- A token of a `tenant_admin` or an `agent` gets the same answers, with the
same bodies, from two databases that have the same `clients` row and the same
rows of the token's tenant, if there is one. -/
theorem tenant_non_interference (env : Env) (horder : env.OrderOfRows) (user : Claims)
    (hrole : user.role = some "tenant_admin" ∨ user.role = some "agent") (db db' : Session)
    (hrls : db.rls.isSome) (hrls' : db'.rls.isSome)
    (hagree : ∀ n ∈ user.clientId, Agree n db.database db'.database) (request : Api.Get) :
    Api.serve env db (some (some user)) request = Api.serve env db' (some (some user)) request := by
  have h : Alike user db db' := ⟨hrole, hrls, hrls', hagree⟩
  have hg : Api.get env db (some (some user)) request = Api.get env db' (some (some user)) request := by
    unfold Api.get
    cases he : getCurrentUser env.now (some (some user)) with
    | ok payload =>
      obtain rfl := Option.some.inj (Option.some.inj (Auth.getCurrentUser_eq_ok he))
      cases request with
      | admin request => simp only [Answer.bind, admin_get_congr horder h request]
      | client request => simp only [Answer.bind, client_get_congr horder h request]
    | httpException statusCode detail => rfl
    | raised => rfl
  rw [Api.serve, Api.serve, hg]

/-- An order that is a function of the rows. -/
noncomputable def orderOfRows (ρ : Type) : RowOrder ρ where
  arrange rows := (rows : Multiset ρ).toList
  perm _ := Multiset.coe_eq_coe.mp (Multiset.coe_toList _)

theorem ofRows_orderOfRows (ρ : Type) : (orderOfRows ρ).OfRows := by
  intro rows rows' hp
  simp only [orderOfRows, Multiset.coe_eq_coe.mpr hp]

theorem orderOfRows_postgresEnv : (postgresEnv orderOfRows).OrderOfRows :=
  ⟨ofRows_orderOfRows _, ofRows_orderOfRows _, ofRows_orderOfRows _, ofRows_orderOfRows _,
    ofRows_orderOfRows _, ofRows_orderOfRows _⟩

/-- A tenant admin cannot tell whether there is an operator of the platform. -/
theorem platform_user_unseen :
    Api.serve (postgresEnv orderOfRows) ⟨platformDatabase, some none⟩ (some (some (tenantAdmin (some 1))))
        (.admin (.getUser "u0")) =
      Api.serve (postgresEnv orderOfRows) ⟨{ platformDatabase with users := .empty }, some none⟩
        (some (some (tenantAdmin (some 1)))) (.admin (.getUser "u0")) := by
  refine tenant_non_interference _ orderOfRows_postgresEnv _ (.inl rfl) _ _ rfl rfl (fun n hn => ?_) _
  refine ⟨rfl, fun r hr => ?_, fun _ _ => .rfl, fun _ _ => .rfl, fun _ _ => .rfl, fun _ _ => .rfl⟩
  constructor
  · intro h
    obtain rfl := List.mem_singleton.mp h
    cases hr
  · intro h
    cases h

end CallingAgent.Proof.Reads
