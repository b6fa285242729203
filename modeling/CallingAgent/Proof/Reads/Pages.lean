import CallingAgent.Spec.Pages
import CallingAgent.Proof.Reads.Visible

/-!
# Pages of the lists

A list that has no `ORDER BY`, or one on a time that rows can share, leaves the
order of tied rows to each query. Its pages are those of one result exactly if
no page ends within tied rows (`pages_partition_iff`).
-/

namespace CallingAgent.Proof.Reads

open CallingAgent.Framework CallingAgent.Impl CallingAgent.Impl.Auth CallingAgent.Impl.Tenant
  CallingAgent.Impl.Reads CallingAgent.Spec.Pages

variable {ρ σ α : Type} {env : Env} {db : Session} {user : Claims} {authorization : Option Token}

/-! ## The number of pages -/

/-- The queries of a list: their rows are in this order, and in any such. -/
structure Sorts (le : σ → σ → Bool) (order : Orders → RowOrder σ) : Prop where
  total : ∀ a b, (le a b || le b a) = true
  trans : ∀ a b c, le a b → le b c → le a c
  sorted : ∀ orders rows, ((order orders).arrange rows).Pairwise fun a b => le a b
  any : ∀ rows l : List σ, l.Perm rows → (l.Pairwise fun a b => le a b) → ∃ orders, (order orders).arrange rows = l

/-- Orders of which only that of one table matters. -/
def tableOrders : Orders where
  clients := tableOrder Client
  users := tableOrder AdminUser
  customers := tableOrder Customer
  calls := tableOrder Caller
  auditLogs := tableOrder AuditLog
  phoneNumbers := tableOrder PhoneNumberRoute

theorem exists_arrange {rows l : List ρ} (h : l.Perm rows) : ∃ order : RowOrder ρ, order.arrange rows = l := by
  classical
  refine ⟨⟨fun rows' => if rows' = rows then l else rows', fun rows' => ?_⟩, if_pos rfl⟩
  split
  case isTrue e => exact e ▸ h
  case isFalse => exact .refl _

theorem latestFirst_total (column : ρ → Option Time) (r r' : ρ) :
    (latestFirst env column r r' || latestFirst env column r' r) = true := by
  simp only [latestFirst]
  cases env.dialect <;> cases column r <;> cases column r' <;> simp [descending, Int.le_total]

theorem descending_trans {dialect : Dialect} {t t' t'' : Option Time} (h : descending dialect t t')
    (h' : descending dialect t' t'') : descending dialect t t'' := by
  cases dialect <;> cases t <;> cases t' <;> cases t'' <;> simp_all [descending]
  all_goals exact Int.le_trans h' h

theorem latestFirst_trans (column : ρ → Option Time) (r r' r'' : ρ) (h : latestFirst env column r r')
    (h' : latestFirst env column r' r'') : latestFirst env column r r'' := descending_trans h h'

/-- `set` puts the order of the table among the others. -/
theorem sorts_unordered (order : Orders → RowOrder σ) (set : RowOrder σ → Orders)
    (hset : ∀ rowOrder, order (set rowOrder) = rowOrder) : Sorts unordered order where
  total _ _ := rfl
  trans _ _ _ _ _ := rfl
  sorted _ _ := List.pairwise_of_forall fun _ _ => rfl
  any rows l hperm _ := by
    obtain ⟨rowOrder, h⟩ := exists_arrange hperm
    exact ⟨set rowOrder, by rw [hset, h]⟩

theorem sorts_latestFirst (order : Orders → RowOrder σ) (set : RowOrder σ → Orders) {column : σ → Option Time}
    (hset : ∀ rowOrder, order (set rowOrder) = rowOrder) :
    Sorts (latestFirst env column) fun orders => (order orders).desc env.dialect column where
  total := latestFirst_total column
  trans := latestFirst_trans column
  sorted _ _ := List.pairwise_mergeSort (latestFirst_trans column) (latestFirst_total column) _
  any rows l hperm hsorted := by
    obtain ⟨rowOrder, h⟩ := exists_arrange hperm
    refine ⟨set rowOrder, ?_⟩
    rw [hset]
    show (rowOrder.arrange rows).mergeSort (latestFirst env column) = l
    rw [h]
    exact List.mergeSort_of_pairwise hsorted

/-! ## Pages -/

/-- A page of a list, as it is shown. -/
def Shows (s : Select) (order : RowOrder s.Source) (paging : Paging) (answer : Answer Api.Response) : Prop :=
  ∀ page, IsPage answer page ↔ (paging.select order s.rows).fits = true ∧
    (paging.select order s.rows).data.all s.presentable = true ∧ page = (paging.select order s.rows).map s.shown

theorem superAdmin_cases (user : Claims) :
    (∃ detail, ∀ handler : Answer α, Admin.requireSuperAdmin user .httpException handler = .httpException 403 detail) ∨
      ∀ handler : Answer α, Admin.requireSuperAdmin user .httpException handler = handler := by
  by_cases hr : user.role = some "super_admin"
  · exact .inr fun handler => if_pos hr
  · exact .inl ⟨_, fun handler => if_neg hr⟩

/-- The lists of the rows of a tenant. -/
theorem boundTenant_cases (user : Claims) (tenantId : Option Int) :
    (∃ detail, ∀ handler, Admin.requireAdmin user .httpException (Admin.boundTenant user tenantId handler) =
      .httpException 403 detail) ∨
      ∀ handler, Admin.requireAdmin user .httpException (Admin.boundTenant user tenantId handler) =
        handler (tenantOf user tenantId) := by
  by_cases ht : user.role = some "tenant_admin"
  · by_cases hc : noTenant user = true
    · refine .inl ⟨"tenant_admin token has no tenant assigned", fun handler => ?_⟩
      rw [Admin.requireAdmin, if_pos (.inr ht), Admin.boundTenant, if_pos ht, if_pos hc]
    · refine .inr fun handler => ?_
      rw [Admin.requireAdmin, if_pos (.inr ht), Admin.boundTenant, if_pos ht, if_neg hc, tenantOf, if_pos ht]
  · by_cases hr : user.role = some "super_admin"
    · refine .inr fun handler => ?_
      rw [Admin.requireAdmin, if_pos (.inl hr), Admin.boundTenant, if_neg ht, tenantOf, if_neg ht]
    · exact .inl ⟨_, fun handler => if_neg fun h => h.elim hr ht⟩

theorem client_cases (user : Claims) :
    (∃ detail, ∀ handler : Int → Answer α, ClientRouter.requireClient user .httpException handler =
      .httpException 403 detail) ∨
      ∃ n, user.clientId = some n ∧
        ∀ handler : Int → Answer α, ClientRouter.requireClient user .httpException handler = handler n := by
  unfold ClientRouter.requireClient
  split
  case isTrue =>
    cases user.clientId with
    | none => exact .inl ⟨_, fun handler => rfl⟩
    | some n =>
      by_cases hn : n = 0
      · exact .inl ⟨_, fun handler => if_pos hn⟩
      · exact .inr ⟨n, rfl, fun handler => if_neg hn⟩
  case isFalse => exact .inl ⟨_, fun handler => rfl⟩

theorem clientAdmin_cases (user : Claims) :
    (∃ detail, ∀ handler : Int → Answer α, ClientRouter.requireClientAdmin user .httpException handler =
      .httpException 403 detail) ∨
      ∃ n, user.clientId = some n ∧
        ∀ handler : Int → Answer α, ClientRouter.requireClientAdmin user .httpException handler = handler n := by
  unfold ClientRouter.requireClientAdmin
  rcases client_cases user with ⟨detail, h⟩ | ⟨n, hc, h⟩
  · exact .inl ⟨detail, fun handler => h _⟩
  · by_cases ht : user.role = some "tenant_admin"
    · refine .inr ⟨n, hc, fun handler => ?_⟩
      rw [h, if_pos ht]
    · refine .inl ⟨"Client administrator role required.", fun handler => ?_⟩
      rw [h, if_neg ht]

/-! ## The lists -/

/-- The endpoint refuses the user, or shows the rows in an order of the database. -/
def Served (env : Env) (db : Session) (authorization : Option Token) (user : Claims) (list : Listing) : Prop :=
  list.Refused env db authorization ∨
    (list.matching env db user).Nodup ∧ ∃ order, Sorts (list.select env db user).mayPrecede order ∧
      ∀ orders paging, Shows (list.select env db user) (order orders) paging
        (Api.serve (ordered env orders) db authorization (list.request paging))

theorem shown_nodup {κ : Type} {key : ρ → κ} {t : Table key} {rows : List ρ} (hrows : rows.Sublist t.rows)
    {shown : ρ → Row} (hshown : ∀ r r', shown r = shown r' → key r = key r') : (rows.map shown).Nodup := by
  have hkeys : (rows.map key).Nodup := (hrows.map key).nodup t.keyed
  rw [List.Nodup, List.pairwise_map] at hkeys ⊢
  exact hkeys.imp fun hne e => hne (hshown _ _ e)

theorem shows_of_eq {s : Select} {order : RowOrder s.Source} {paging : Paging} {answer : Answer Api.Response}
    {response : Api.Response}
    (h : answer = if (paging.select order s.rows).fits then
      if (paging.select order s.rows).data.all s.presentable then .ok response else .raised else .raised)
    (hpage : pageOf response = some ((paging.select order s.rows).map s.shown)) : Shows s order paging answer := by
  have hraised : ∀ page, ¬IsPage .raised page := by
    rintro page ⟨response', e, -⟩
    cases e
  intro page
  rw [h]
  split
  case isTrue hfits =>
    split
    case isTrue hall =>
      constructor
      · rintro ⟨response', e, hpage'⟩
        obtain rfl := Answer.ok.inj e
        exact ⟨hfits, hall, Option.some.inj (hpage'.symm.trans hpage)⟩
      · rintro ⟨-, -, rfl⟩
        exact ⟨response, rfl, hpage⟩
    case isFalse hall => exact iff_of_false (hraised page) fun h => hall h.2.1
  case isFalse hfits => exact iff_of_false (hraised page) fun h => hfits h.1

theorem map_map {β : Type} (page : Page ρ) (f : ρ → α) (g : α → β) : (page.map f).map g = page.map fun r => g (f r) := by
  simp [Page.map, Function.comp_def]

theorem all_presentable (page : Page ρ) : page.data.all (fun _ => true) = true := by simp

theorem response_ordered (orders : Orders) (body : Admin.Body) :
    Admin.response (ordered env orders) body = Admin.response env body := by
  cases body <;> rfl

theorem bind_guard {β : Type} (b : Bool) (a : Answer α) (next : α → Answer β) :
    (if b then a else .raised).bind next = if b then a.bind next else .raised := by
  cases b <;> rfl

section Serve

variable {list : Listing} {order : Orders → RowOrder (list.select env db user).Source}

/-- A list of `/admin`. -/
theorem served_admin (hauth : getCurrentUser env.now authorization = .ok user) (request : Paging → Admin.Get)
    (hrequest : ∀ paging, list.request paging = .admin (request paging))
    (hnodup : (list.matching env db user).Nodup) (hsorts : Sorts (list.select env db user).mayPrecede order)
    (h : (∃ detail, ∀ orders paging, Admin.get (ordered env orders) db user (request paging) =
        .httpException 403 detail) ∨
      ∀ orders paging, ∃ body response, Admin.get (ordered env orders) db user (request paging) = .ok body ∧
        body.fits = (paging.select (order orders) (list.select env db user).rows).fits ∧
        (Admin.response env body = if (paging.select (order orders) (list.select env db user).rows).data.all
          (list.select env db user).presentable then .ok response else .raised) ∧
        pageOf (.admin response) = some ((paging.select (order orders) (list.select env db user).rows).map
          (list.select env db user).shown)) :
    Served env db authorization user list := by
  have hserve : ∀ orders paging, Api.serve (ordered env orders) db authorization (list.request paging) =
      ((Admin.get (ordered env orders) db user (request paging)).bind fun body =>
        if body.fits then Admin.response env body else .raised).bind fun response => .ok (.admin response) := by
    intro orders paging
    rw [hrequest, Api.serve, get_admin (show getCurrentUser (ordered env orders).now _ = _ from hauth)]
    cases Admin.get (ordered env orders) db user (request paging) with
    | ok body =>
      rw [Answer.bind, Answer.bind, Answer.bind, bind_guard, Api.response, response_ordered]
      rfl
    | httpException statusCode detail => rfl
    | raised => rfl
  rcases h with ⟨detail, h⟩ | h
  · refine .inl ⟨detail, fun orders paging => ?_⟩
    rw [hserve, h]
    rfl
  · refine .inr ⟨hnodup, order, hsorts, fun orders paging => ?_⟩
    obtain ⟨body, response, hget, hfits, hresponse, hpage⟩ := h orders paging
    refine shows_of_eq ?_ hpage
    rw [hserve, hget, Answer.bind, hfits, hresponse]
    split
    · split <;> rfl
    · rfl

/-- A list of `/client`. -/
theorem served_client (hauth : getCurrentUser env.now authorization = .ok user) (request : Paging → ClientRouter.Get)
    (hrequest : ∀ paging, list.request paging = .client (request paging))
    (hnodup : (list.matching env db user).Nodup) (hsorts : Sorts (list.select env db user).mayPrecede order)
    (h : (∃ detail, ∀ orders paging, ClientRouter.get (ordered env orders) db user (request paging) =
        .httpException 403 detail) ∨
      ∀ orders paging, ∃ body response, ClientRouter.get (ordered env orders) db user (request paging) = .ok body ∧
        body.fits = (paging.select (order orders) (list.select env db user).rows).fits ∧
        (ClientRouter.response body = if (paging.select (order orders) (list.select env db user).rows).data.all
          (list.select env db user).presentable then .ok response else .raised) ∧
        pageOf (.client response) = some ((paging.select (order orders) (list.select env db user).rows).map
          (list.select env db user).shown)) :
    Served env db authorization user list := by
  have hserve : ∀ orders paging, Api.serve (ordered env orders) db authorization (list.request paging) =
      ((ClientRouter.get (ordered env orders) db user (request paging)).bind fun body =>
        if body.fits then ClientRouter.response body else .raised).bind fun response => .ok (.client response) := by
    intro orders paging
    rw [hrequest, Api.serve, get_client (show getCurrentUser (ordered env orders).now _ = _ from hauth)]
    cases ClientRouter.get (ordered env orders) db user (request paging) with
    | ok body => exact (bind_guard body.fits _ _).symm
    | httpException statusCode detail => rfl
    | raised => rfl
  rcases h with ⟨detail, h⟩ | h
  · refine .inl ⟨detail, fun orders paging => ?_⟩
    rw [hserve, h]
    rfl
  · refine .inr ⟨hnodup, order, hsorts, fun orders paging => ?_⟩
    obtain ⟨body, response, hget, hfits, hresponse, hpage⟩ := h orders paging
    refine shows_of_eq ?_ hpage
    rw [hserve, hget, Answer.bind, hfits, hresponse]
    split
    · split <;> rfl
    · rfl

end Serve

theorem served_clients (hauth : getCurrentUser env.now authorization = .ok user) (status search : Option String) :
    Served env db authorization user (.clients status search) := by
  refine served_admin hauth (fun paging => .listClients (.ok ⟨paging, status, search⟩)) (fun _ => rfl)
    (shown_nodup List.filter_sublist fun r r' e => congrArg Admin.ClientResponse.id (Row.client.inj e))
    (sorts_unordered Orders.clients (fun order => { tableOrders with clients := order }) fun _ => rfl) ?_
  rcases superAdmin_cases user with ⟨detail, h⟩ | h
  · exact .inl ⟨detail, fun orders paging => h _⟩
  · exact .inr fun orders paging => ⟨_, _, h _, rfl, (if_pos (all_presentable _)).symm, congrArg some (map_map ..)⟩

theorem served_tenants (hauth : getCurrentUser env.now authorization = .ok user) (status search : Option String) :
    Served env db authorization user (.tenants status search) := by
  refine served_admin hauth (fun paging => .listTenants (.ok ⟨paging, status, search⟩)) (fun _ => rfl)
    (shown_nodup List.filter_sublist fun r r' e =>
      toString_injective (congrArg Admin.TenantResponse.tenantId (Row.tenant.inj e)))
    (sorts_unordered Orders.clients (fun order => { tableOrders with clients := order }) fun _ => rfl) ?_
  rcases superAdmin_cases user with ⟨detail, h⟩ | h
  · exact .inl ⟨detail, fun orders paging => h _⟩
  · exact .inr fun orders paging => ⟨_, _, h _, rfl, (if_pos (all_presentable _)).symm, congrArg some (map_map ..)⟩

theorem served_users (hauth : getCurrentUser env.now authorization = .ok user) (tenantId : Option Int)
    (role status : Option String) : Served env db authorization user (.users tenantId role status) := by
  refine served_admin hauth (fun paging => .listUsers (.ok ⟨paging, tenantId, role, status⟩)) (fun _ => rfl)
    (shown_nodup (List.filter_sublist.trans List.filter_sublist) fun r r' e =>
      congrArg Admin.UserResponse.userId (Row.user.inj e))
    (sorts_unordered Orders.users (fun order => { tableOrders with users := order }) fun _ => rfl) ?_
  have hget : ∀ orders paging, Admin.get (ordered env orders) db user (.listUsers (.ok ⟨paging, tenantId, role, status⟩)) =
      Admin.requireAdmin user .httpException
        (Admin.listUsers (ordered env orders) (tenantScopedDb user db) user ⟨paging, tenantId, role, status⟩) :=
    fun _ _ => rfl
  rcases boundTenant_cases user tenantId with ⟨detail, h⟩ | h
  · exact .inl ⟨detail, fun orders paging => (hget ..).trans (h _)⟩
  · exact .inr fun orders paging => ⟨_, _, (hget ..).trans (h _), rfl, (if_pos (all_presentable _)).symm,
      congrArg some (map_map ..)⟩

theorem served_calls (hauth : getCurrentUser env.now authorization = .ok user) (tenantId : Option Int)
    (search : Option String) : Served env db authorization user (.calls tenantId search) := by
  refine served_admin hauth (fun paging => .listCalls (.ok ⟨paging, tenantId, search⟩)) (fun _ => rfl)
    (shown_nodup (List.filter_sublist.trans List.filter_sublist) fun r r' e => congrArg Caller.id (Row.call.inj e))
    (sorts_unordered Orders.calls (fun order => { tableOrders with calls := order }) fun _ => rfl) ?_
  have hget : ∀ orders paging, Admin.get (ordered env orders) db user (.listCalls (.ok ⟨paging, tenantId, search⟩)) =
      Admin.requireAdmin user .httpException
        (Admin.listCalls (ordered env orders) (tenantScopedDb user db) user ⟨paging, tenantId, search⟩) :=
    fun _ _ => rfl
  rcases boundTenant_cases user tenantId with ⟨detail, h⟩ | h
  · exact .inl ⟨detail, fun orders paging => (hget ..).trans (h _)⟩
  · exact .inr fun orders paging => ⟨_, _, (hget ..).trans (h _), rfl, (if_pos (all_presentable _)).symm, rfl⟩

theorem served_auditLogs (hauth : getCurrentUser env.now authorization = .ok user) (tenantId : Option Int)
    (action : Option String) : Served env db authorization user (.auditLogs tenantId action) := by
  refine served_admin hauth (fun paging => .listAuditLogs (.ok ⟨paging, tenantId, action⟩)) (fun _ => rfl)
    (shown_nodup (List.filter_sublist.trans List.filter_sublist) fun r r' e =>
      congrArg AuditLog.auditId (Row.auditLog.inj e))
    (sorts_latestFirst Orders.auditLogs (fun order => { tableOrders with auditLogs := order }) fun _ => rfl) ?_
  have hget : ∀ orders paging, Admin.get (ordered env orders) db user (.listAuditLogs (.ok ⟨paging, tenantId, action⟩)) =
      Admin.requireAdmin user .httpException
        (Admin.listAuditLogs (ordered env orders) (tenantScopedDb user db) user ⟨paging, tenantId, action⟩) :=
    fun _ _ => rfl
  rcases boundTenant_cases user tenantId with ⟨detail, h⟩ | h
  · exact .inl ⟨detail, fun orders paging => (hget ..).trans (h _)⟩
  · exact .inr fun orders paging => ⟨_, _, (hget ..).trans (h _), rfl, rfl, rfl⟩

theorem served_clientCalls (hauth : getCurrentUser env.now authorization = .ok user) (search : Option String) :
    Served env db authorization user (.clientCalls search) := by
  refine served_client hauth (fun paging => .listCalls (.ok ⟨paging, search⟩)) (fun _ => rfl)
    (shown_nodup (List.filter_sublist.trans List.filter_sublist) fun r r' e =>
      congrArg ClientRouter.CallResponse.id (Row.clientCall.inj e))
    (sorts_latestFirst Orders.calls (fun order => { tableOrders with calls := order }) fun _ => rfl) ?_
  rcases client_cases user with ⟨detail, h⟩ | ⟨n, hc, h⟩
  · exact .inl ⟨detail, fun orders paging => h _⟩
  · refine .inr fun orders paging => ⟨_, _, h _, rfl, (if_pos (all_presentable _)).symm, ?_⟩
    have hrows : ((ClientRouter.ownCalls (tenantScopedDb user db) n).filter fun call =>
        whereLike env search [call.customerName, call.phoneNumber]) =
        ((Listing.clientCalls search).select env db user).rows := by
      simp only [Listing.select, ClientRouter.ownCalls, List.filter_filter, hc, Bool.and_comm]
    rw [← hrows]
    exact congrArg some (map_map ..)

theorem served_clientUsers (hauth : getCurrentUser env.now authorization = .ok user) (role status : Option String) :
    Served env db authorization user (.clientUsers role status) := by
  refine served_client hauth (fun paging => .listUsers (.ok ⟨paging, role, status⟩)) (fun _ => rfl)
    (shown_nodup (List.filter_sublist.trans List.filter_sublist) fun r r' e =>
      congrArg ClientRouter.UserResponse.userId (Row.clientUser.inj e))
    (sorts_latestFirst Orders.users (fun order => { tableOrders with users := order }) fun _ => rfl) ?_
  rcases clientAdmin_cases user with ⟨detail, h⟩ | ⟨n, hc, h⟩
  · exact .inl ⟨detail, fun orders paging => h _⟩
  · refine .inr fun orders paging => ⟨_, _, h _, rfl, (if_pos (all_presentable _)).symm, ?_⟩
    simp only [Listing.select, hc]
    exact congrArg some (map_map ..)

theorem served_clientPhoneNumbers (hauth : getCurrentUser env.now authorization = .ok user) :
    Served env db authorization user .clientPhoneNumbers := by
  refine served_client hauth (fun paging => .listPhoneNumbers (.ok paging)) (fun _ => rfl)
    (shown_nodup List.filter_sublist fun r r' e => congrArg _ (Row.phoneNumber.inj e))
    (sorts_unordered Orders.phoneNumbers (fun order => { tableOrders with phoneNumbers := order }) fun _ => rfl) ?_
  rcases clientAdmin_cases user with ⟨detail, h⟩ | ⟨n, hc, h⟩
  · exact .inl ⟨detail, fun orders paging => h _⟩
  · have hrows : (Listing.clientPhoneNumbers.select env db user).rows =
        db.phoneNumberRoutes.filter fun route => route.tenantId = toString n := by
      simp only [Listing.select, hc, Option.map_some, Option.some.injEq]
    refine .inr fun orders paging => ⟨_, .phoneNumbers (paging.select orders.phoneNumbers
      (Listing.clientPhoneNumbers.select env db user).rows), h _, rfl, ?_, rfl⟩
    rw [hrows]
    rfl

theorem served_clientCustomers (hauth : getCurrentUser env.now authorization = .ok user) (search : Option String) :
    Served env db authorization user (.clientCustomers search) := by
  refine served_client hauth (fun paging => .listCustomers (.ok ⟨paging, search⟩)) (fun _ => rfl)
    (shown_nodup (List.filter_sublist.trans List.filter_sublist) fun r r' e => congrArg Customer.id (Row.customer.inj e))
    (sorts_latestFirst Orders.customers (fun order => { tableOrders with customers := order }) fun _ => rfl) ?_
  rcases client_cases user with ⟨detail, h⟩ | ⟨n, hc, h⟩
  · exact .inl ⟨detail, fun orders paging => h _⟩
  · refine .inr fun orders paging => ⟨_, _, h _, rfl, (if_pos (all_presentable _)).symm, ?_⟩
    simp only [Listing.select, hc, Option.some.injEq]
    rfl

theorem served (hauth : getCurrentUser env.now authorization = .ok user) (list : Listing) :
    Served env db authorization user list := by
  cases list with
  | clients status search => exact served_clients hauth status search
  | tenants status search => exact served_tenants hauth status search
  | users tenantId role status => exact served_users hauth tenantId role status
  | calls tenantId search => exact served_calls hauth tenantId search
  | auditLogs tenantId action => exact served_auditLogs hauth tenantId action
  | clientCalls search => exact served_clientCalls hauth search
  | clientUsers role status => exact served_clientUsers hauth role status
  | clientPhoneNumbers => exact served_clientPhoneNumbers hauth
  | clientCustomers search => exact served_clientCustomers hauth search

end CallingAgent.Proof.Reads
