import CallingAgent.Framework.Run
import CallingAgent.Impl.Platform
import CallingAgent.Proof.Customers.Requests
import CallingAgent.Proof.Reads.NonInterference
import CallingAgent.Proof.Tenant.SavedCalls

/-!
# Tenants do not notice each other

What the users of a tenant are answered over a whole run of the API is what they
would be answered in the run without the requests of other tenants' users
(`tenants_unnoticed`). The two runs stay `Indistinct` for the tenant: they have the same
administration, which only operators change, and the same rows of the tenant, and
the run with more requests has all the primary keys of the other one.

* a request of another tenant's user keeps that in the first run alone
  (`step_other`);
* every other request keeps it in both (`step_same`), and a user of the tenant gets the
  same answer in both (`reply_same`).

The new ids and the clock readings are the same in both runs, and no row has a new id
already.
-/

namespace CallingAgent.Proof.Tenant.Interference

open CallingAgent.Framework CallingAgent.Impl CallingAgent.Impl.Auth CallingAgent.Impl.Reads CallingAgent.Impl.Platform
open CallingAgent.Proof.Reads CallingAgent.Proof.Customers
open CallingAgent.Proof.Tenant.SavedCalls (makeCall_eq sees noTables)
open CallingAgent.Impl.ClientRouter (createOrUpdateCustomer updateCustomer CustomerCreate CustomerUpdate)

variable {bcrypt : Bcrypt} {n : Int} {s s' : Tables} {db db' : Session} {user : Claims} {request : Platform.Request}

/-! ## The requests -/

/-- A request of a user of the tenant. -/
def ofTenant (n : Int) (request : Platform.Request) : Bool :=
  match request.actor with
  | .ok user => (user.role = some "tenant_admin" || user.role = some "agent") && user.clientId = some n
  | _ => false

/-- A request of a user of another tenant, or of none, who is no operator of the
platform. -/
def ofOthers (n : Int) (request : Platform.Request) : Bool :=
  match request.actor with
  | .ok user => user.role ≠ some "super_admin" && user.clientId ≠ some n
  | _ => false

/-- What the users of the tenant are answered. -/
def answered (bcrypt : Bcrypt) (n : Int) (s : Tables) (request : Platform.Request) : List Reply :=
  if ofTenant n request then [reply bcrypt s request] else []

/-- The database orders the rows of a result by the rows alone, and a new id is new. -/
def Orderly (s : Tables) : Platform.Request → Prop
  | .administer _ _ => True
  | .get env _ _ _ => env.OrderOfRows
  | .customer _ _ _ _ io => s.customers.lookup io.uuid4 = none
  | .call _ _ _ _ io => s.callRequests.lookup io.id = none

/-- The second database lacks at most rows of other tenants. -/
structure Indistinct (n : Int) (s s' : Tables) : Prop where
  administration : s.administration = s'.administration
  customers : Table.Within (fun r => r.clientId = n) s.customers s'.customers
  callRequests : Table.Within (fun r => r.clientId = some n) s.callRequests s'.callRequests

theorem Indistinct.refl (n : Int) (s : Tables) : Indistinct n s s := ⟨rfl, .refl _ _, .refl _ _⟩

theorem Indistinct.agree (h : Indistinct n s s') : Agree n s.database s'.database where
  client := by simp only [Tables.database, h.administration]
  users r _ := by simp only [Tables.database, h.administration]
  customers := h.customers.agree
  callRequests := h.callRequests.agree
  auditLogs r _ := by simp only [Tables.database, h.administration]
  phoneNumberRoutes r _ := by simp only [Tables.database, h.administration]

theorem ofTenant_eq_true (h : ofTenant n request = true) :
    ∃ user, request.actor = .ok user ∧ OfTenant user ∧ user.clientId = some n := by
  unfold ofTenant at h
  split at h
  · rename_i user hactor
    simp only [Bool.and_eq_true, Bool.or_eq_true, decide_eq_true_eq] at h
    exact ⟨user, hactor, h.1, h.2⟩
  · cases h

theorem ofOthers_eq_true (h : ofOthers n request = true) :
    ∃ user, request.actor = .ok user ∧ user.role ≠ some "super_admin" ∧ user.clientId ≠ some n := by
  unfold ofOthers at h
  split at h
  · rename_i user hactor
    simp only [Bool.and_eq_true, decide_eq_true_eq] at h
    exact ⟨user, hactor, h.1, h.2⟩
  · cases h

/-- A user of the tenant is not one of the others. -/
theorem ofTenant_of_ofOthers (h : ofOthers n request = true) : ofTenant n request = false := by
  obtain ⟨user, hactor, -, hclient⟩ := ofOthers_eq_true h
  refine Bool.eq_false_iff.mpr fun h' => ?_
  obtain ⟨user', hactor', -, hclient'⟩ := ofTenant_eq_true h'
  rw [hactor] at hactor'
  obtain rfl : user = user' := by injection hactor'
  exact hclient hclient'

/-- A user of a tenant who is not one of the others is of this tenant. -/
theorem clientId_of_not_ofOthers (h : ofOthers n request = false) (hactor : request.actor = .ok user)
    (hrole : OfTenant user) : user.clientId = some n := by
  simp only [ofOthers, hactor, Bool.and_eq_false_iff, decide_eq_false_iff_not, not_not] at h
  exact h.resolve_left hrole.role_ne

/-! ## The administration -/

/-- Only an operator changes it. -/
theorem administer_of_ne {administration : Administration} {write : AdminWrites.Request} (audit : Audit)
    (hactor : getCurrentUser write.eff.now write.authorization = .ok user) (hrole : user.role ≠ some "super_admin") :
    (administer bcrypt audit administration write).1 = administration := by
  have hmutate : ∀ db, AdminWrites.mutate bcrypt db write = .httpException 403 "super_admin role required" := fun db => by
    rw [AdminWrites.mutate, hactor]
    exact requireSuperAdmin_of_ne hrole _ _
  simp only [administer, AdminWrites.serve, hmutate, List.foldl_nil]

/-! ## The reads -/

/-- A read of a user of the tenant. -/
theorem get_same (h : Indistinct n s s') {env : Env} (horder : env.OrderOfRows) (setting : Tenant.Setting)
    {authorization : Option Token} (hactor : getCurrentUser env.now authorization = .ok user) (hrole : OfTenant user)
    (hclient : user.clientId = some n) (request : Api.Get) :
    Api.serve env ⟨s.database, some setting⟩ authorization request =
      Api.serve env ⟨s'.database, some setting⟩ authorization request := by
  have halike : Alike user ⟨s.database, some setting⟩ ⟨s'.database, some setting⟩ := by
    refine ⟨hrole, rfl, rfl, fun m hm => ?_⟩
    obtain rfl : n = m := Option.some.inj (hclient.symm.trans hm)
    exact h.agree
  have hget : Api.get env ⟨s.database, some setting⟩ authorization request =
      Api.get env ⟨s'.database, some setting⟩ authorization request := by
    unfold Api.get
    rw [hactor]
    cases request with
    | admin request => simp only [Answer.bind, admin_get_congr horder halike request]
    | client request => simp only [Answer.bind, client_get_congr horder halike request]
  rw [Api.serve, Api.serve, hget]

/-! ## The customers -/

/-- What two sessions make of one request for the customers. -/
def Same (n : Int) (p p' : Session × Answer Customer) : Prop :=
  Table.Within (fun r => r.clientId = n) p.1.database.customers p'.1.database.customers ∧ p.2 = p'.2

section Customers

variable {io : ClientRouter.Effects}

/-- The rows of a pair of the tenant and a phone number. -/
theorem pair_perm (hsees : Sees db n) (hsees' : Sees db' n)
    (h : Table.Within (fun r => r.clientId = n) db.database.customers db'.database.customers) (phone : String) :
    (db.customers.filter fun customer => customer.clientId = n && customer.phone = phone).Perm
      (db'.customers.filter fun customer => customer.clientId = n && customer.phone = phone) := by
  have hnodup : ∀ db : Session, db.customers.Nodup := fun db => db.database.customers.nodup_rows.filter _
  refine (List.perm_ext_iff_of_nodup ((hnodup db).filter _) ((hnodup db').filter _)).mpr fun c => ?_
  rw [mem_pair hsees, mem_pair hsees']
  exact and_congr_left fun hc => h.agree c hc.1

/-- A merge into a row of the tenant. -/
theorem merge_same {values : Spec.CustomerProfiles.Field → Option String} {change : Customer → Customer}
    (hmerges : Merges values change) {t t' : Table Customer.id}
    (h : Table.Within (fun r => r.clientId = n) t t') (customerId : String) :
    Table.Within (fun r => r.clientId = n) (t.update (ClientRouter.setCustomer customerId change hmerges.id))
      (t'.update (ClientRouter.setCustomer customerId change hmerges.id)) := by
  refine h.update _ fun r hr => ?_
  rcases Update.row_cases (ClientRouter.setCustomer customerId change hmerges.id) r with e | ⟨-, e⟩
  · rwa [e] at hr
  · rw [e] at hr
    exact (hmerges.clientId r).symm.trans hr

theorem createOrUpdate_same (found : Option Tenant.Setting) (hsees : Sees db n) (hsees' : Sees db' n)
    (h : Table.Within (fun r => r.clientId = n) db.database.customers db'.database.customers)
    (hnew : db.database.customers.lookup io.uuid4 = none) (body : CustomerCreate) :
    Same n (createOrUpdateCustomer io found db n body) (createOrUpdateCustomer io found db' n body) := by
  have hperm := pair_perm hsees hsees' h body.phone
  by_cases hcommits : io.commits = true
  · cases hpair : db.customers.filter fun customer => customer.clientId = n && customer.phone = body.phone with
    | nil =>
      have hpair' := (hpair ▸ hperm).nil_eq.symm
      obtain ⟨t, ht⟩ := Table.exists_insert (r := body.customer io n) hnew
      obtain ⟨t', ht'⟩ := Table.exists_insert (r := body.customer io n) (h.lookup_eq_none hnew)
      rw [createOrUpdate_new hsees hpair ht hcommits found, createOrUpdate_new hsees' hpair' ht' hcommits found]
      exact ⟨h.insert ht ht', rfl⟩
    | cons c rest =>
      cases rest with
      | nil =>
        have hpair' := List.perm_singleton.mp (hpair ▸ hperm).symm
        rw [createOrUpdate_existing hsees hpair hcommits found, createOrUpdate_existing hsees' hpair' hcommits found]
        exact ⟨merge_same (merges_create body io.now) h c.id, rfl⟩
      | cons c' rest =>
        -- There are several rows in both.
        have hraised : ∀ db : Session, (db.customers.filter fun customer =>
            customer.clientId = n && customer.phone = body.phone).length = rest.length + 2 →
            Sees db n → ∃ rls, createOrUpdateCustomer io found db n body = (⟨db.database, rls⟩, .raised) := by
          intro db hlength hsees
          refine (createOrUpdate_cases hsees body).resolve_right ?_ found
          rintro ⟨-, ⟨c, hc⟩ | ⟨hnil, -⟩⟩
          · rw [hc] at hlength
            cases hlength
          · rw [hnil] at hlength
            cases hlength
        obtain ⟨rls, e⟩ := hraised db (by rw [hpair]; rfl) hsees
        obtain ⟨rls', e'⟩ := hraised db' (by rw [← hperm.length_eq, hpair]; rfl) hsees'
        rw [e, e']
        exact ⟨h, rfl⟩
  · have hraised : ∀ db : Session, Sees db n →
        ∃ rls, createOrUpdateCustomer io found db n body = (⟨db.database, rls⟩, .raised) := fun db hsees =>
      (createOrUpdate_cases hsees body).resolve_right (fun hc => hcommits hc.1) found
    obtain ⟨rls, e⟩ := hraised db hsees
    obtain ⟨rls', e'⟩ := hraised db' hsees'
    rw [e, e']
    exact ⟨h, rfl⟩

theorem updateCustomer_same (found : Option Tenant.Setting) (hsees : Sees db n) (hsees' : Sees db' n)
    (h : Table.Within (fun r => r.clientId = n) db.database.customers db'.database.customers) (customerId : String)
    (body : CustomerUpdate) :
    Same n (updateCustomer io found db n customerId body) (updateCustomer io found db' n customerId body) := by
  by_cases hown : ∃ c ∈ db.database.customers.rows, c.id = customerId ∧ c.clientId = n
  · obtain ⟨c, hc, rfl, hclient⟩ := hown
    have hc' := (h.agree c hclient).mp hc
    by_cases hcommits : io.commits = true
    · rw [updateCustomer_own hsees body hc hclient hcommits found,
        updateCustomer_own hsees' body hc' hclient hcommits found]
      exact ⟨merge_same (merges_update body io.now) h c.id, rfl⟩
    · have hraised : ∀ db : Session, Sees db n → c ∈ db.database.customers.rows →
          updateCustomer io found db n c.id body = (⟨db.database, found⟩, .raised) := by
        intro db hsees hc
        rw [updateCustomer, getCustomer_of_mem (hclient ▸ hsees) hc]
        dsimp only
        rw [if_neg (not_not.mpr hclient), commitCustomers_refused hcommits]
      rw [hraised db hsees hc, hraised db' hsees' hc']
      exact ⟨h, rfl⟩
  · have hnone : ∀ c ∈ db.database.customers.rows, c.id = customerId → c.clientId ≠ n := fun c hc hid hclient =>
      hown ⟨c, hc, hid, hclient⟩
    have hnone' : ∀ c ∈ db'.database.customers.rows, c.id = customerId → c.clientId ≠ n := fun c hc hid hclient =>
      hnone c ((h.agree c hclient).mpr hc) hid hclient
    rw [updateCustomer_notFound body hnone found, updateCustomer_notFound body hnone' found]
    exact ⟨h, rfl⟩

end Customers

section Requests

variable {request : ClientRouter.Request}

/-- The tenant of a request is that of the token. -/
theorem tenant_eq_some {m : Int} (h : tenant request = some m) :
    ∃ user, getCurrentUser request.io.now request.authorization = .ok user ∧ OfTenant user ∧ user.clientId = some m := by
  unfold tenant at h
  cases hu : getCurrentUser request.io.now request.authorization with
  | raised => rw [hu] at h; cases h
  | httpException statusCode detail => rw [hu] at h; cases h
  | ok user =>
    rw [hu] at h
    dsimp only at h
    rcases requireClient_cases user with ⟨statusCode, detail, hgate⟩ | ⟨hrole, m', hclient, -, hgate⟩
    · rw [hgate] at h
      cases h
    · rw [hgate] at h
      exact ⟨user, rfl, hrole, hclient.trans h⟩

/-- A request that submits nothing. -/
theorem serve_refused (h : requested request = none) (d d' : Database) :
    (ClientRouter.serve d request).1.database = d ∧ (ClientRouter.serve d request).2 = (ClientRouter.serve d' request).2 := by
  unfold requested tenant at h
  unfold ClientRouter.serve
  cases hu : getCurrentUser request.io.now request.authorization with
  | raised => exact ⟨rfl, rfl⟩
  | httpException statusCode detail => exact ⟨rfl, rfl⟩
  | ok user =>
    rw [hu] at h
    dsimp only at h ⊢
    rcases requireClient_cases user with ⟨statusCode, detail, hgate⟩ | ⟨-, m, -, -, hgate⟩
    · rw [hgate, hgate]
      exact ⟨rfl, rfl⟩
    · rw [hgate, hgate]
      rw [hgate, Option.bind_some] at h
      cases hw : request.write with
      | createOrUpdateCustomer body =>
        cases body with
        | ok body => rw [hw] at h; cases h
        | error errors => exact ⟨rfl, rfl⟩
      | updateCustomer customerId body =>
        cases body with
        | ok body => rw [hw] at h; cases h
        | error errors => exact ⟨rfl, rfl⟩

/-- A request of the tenant, or of nobody's. -/
theorem customer_same {d d' : Database} (h : Table.Within (fun r => r.clientId = n) d.customers d'.customers)
    (hnew : d.customers.lookup request.io.uuid4 = none) (htenant : ∀ m, tenant request = some m → m = n) :
    Same n (ClientRouter.serve d request) (ClientRouter.serve d' request) := by
  cases hr : requested request with
  | none =>
    obtain ⟨hd, hanswer⟩ := serve_refused hr d d'
    have hd' := (serve_refused hr d' d).1
    exact ⟨by rwa [hd, hd'], hanswer⟩
  | some submission =>
    obtain ⟨m, ht, hr⟩ := Option.bind_eq_some_iff.mp hr
    obtain rfl := htenant m ht
    obtain ⟨db, rfl, hsees, hserve⟩ := serve_of_tenant d ht
    obtain ⟨db', rfl, hsees', hserve'⟩ := serve_of_tenant d' ht
    replace hserve := hserve request.found
    replace hserve' := hserve' request.found
    rw [finding_self] at hserve hserve'
    cases hw : request.write with
    | createOrUpdateCustomer body =>
      rw [hw] at hr hserve hserve'
      cases body with
      | ok body =>
        rw [hserve, hserve']
        exact createOrUpdate_same request.found hsees hsees' h hnew body
      | error errors => cases hr
    | updateCustomer customerId body =>
      rw [hw] at hr hserve hserve'
      cases body with
      | ok body =>
        rw [hserve, hserve']
        exact updateCustomer_same request.found hsees hsees' h customerId body
      | error errors => cases hr

/-- A submission concerns customers of the tenant that made it. -/
theorem clientId_of_concerns {m : Int} {submission : Spec.CustomerProfiles.Submission} {c : Customer}
    (ht : tenant request = some m) (hr : requested request = some submission) (hc : submission.concerns c = true) :
    c.clientId = m := by
  simp only [requested, ht, Option.bind_some] at hr
  split at hr
  all_goals cases hr
  all_goals
    simp only [Spec.CustomerProfiles.Submission.concerns, Bool.and_eq_true, decide_eq_true_eq] at hc
    exact hc.1

theorem change_clientId (request : ClientRouter.Request) (c : Customer) : (change request c).clientId = c.clientId := by
  unfold change
  split
  · exact (merges_create _ _).clientId c
  · exact (merges_update _ _).clientId c
  · rfl

/-- A request of another tenant. -/
theorem customer_other {d : Database} {t : Table Customer.id} (h : Table.Within (fun r => r.clientId = n) d.customers t)
    (htenant : ∀ m, tenant request = some m → m ≠ n) :
    Table.Within (fun r => r.clientId = n) (ClientRouter.serve d request).1.database.customers t := by
  rcases serve_cases d request with
    hrejected | ⟨-, m, body, customers, ht, -, -, hinsert, hserve⟩ | ⟨c, -, submission, hr, hmem, hc, hserve⟩
  · rw [← ClientRouter.step, hrejected.step_eq]
    exact h
  · rw [hserve.serve_eq]
    exact h.insert_left (htenant m ht) hinsert
  · obtain ⟨m, ht, -⟩ := Option.bind_eq_some_iff.mp hr
    have hclient : c.clientId ≠ n := fun e => htenant m ht ((clientId_of_concerns ht hr hc).symm.trans e)
    rw [hserve.serve_eq]
    refine h.update_left fun r hmem' hown => ?_
    rcases Update.row_cases (ClientRouter.setCustomer c.id (change request) (change_id request)) r with e | ⟨hguard, e⟩
    · exact e
    · obtain rfl : r = c := Table.eq_of_key_eq hmem' hmem (of_decide_eq_true hguard)
      refine absurd hown (not_or_intro hclient ?_)
      rw [e]
      exact (change_clientId request r).trans_ne hclient

end Requests

/-! ## The calls -/

section Calls

variable {io : Platform.Effects} {body : Params CallerRequest}

/-- The insert of a call with a new id. What the session sees depends on its setting, not on
the rows. -/
theorem insertCall_eq {d : Database} (setting : Tenant.Setting) {call : CallerRequest} {t : Table Caller.id}
    (h : d.callRequests.insert (call.caller io user) = some t) :
    insertCall io (tenantScopedDb user ⟨d, some setting⟩) user call =
      if Tenant.tenantIsolation (tenantUser user).tenantValue (user.clientId.map toString) && io.commits then some t
      else none := by
  have hinsert : (tenantScopedDb user ⟨d, some setting⟩).database.callRequests.insert (call.caller io user) = some t := h
  have hvisible : (tenantScopedDb user ⟨d, some setting⟩).visible ((call.caller io user).clientId.map toString) =
      Tenant.tenantIsolation (tenantUser user).tenantValue (user.clientId.map toString) := rfl
  unfold insertCall
  dsimp only
  rw [hinsert, hvisible]

/-- A call of whomever, made in both databases. -/
theorem call_same (d d' : Database) (setting found : Tenant.Setting) (authorization : Option Token)
    (body : Params CallerRequest) (h : Table.Within (fun r => r.clientId = some n) d.callRequests d'.callRequests)
    (hnew : d.callRequests.lookup io.id = none) :
    Table.Within (fun r => r.clientId = some n) (serveCall d setting found authorization io body).1.database.callRequests
        (serveCall d' setting found authorization io body).1.database.callRequests ∧
      (serveCall d setting found authorization io body).2 = (serveCall d' setting found authorization io body).2 := by
  unfold serveCall
  cases getCurrentUser io.now authorization with
  | raised => exact ⟨h, rfl⟩
  | httpException statusCode detail => exact ⟨h, rfl⟩
  | ok user =>
    dsimp only
    cases validPhone io body with
    | error errors => exact ⟨h, rfl⟩
    | ok call =>
      obtain ⟨t, ht⟩ := Table.exists_insert (r := call.caller io user) hnew
      obtain ⟨t', ht'⟩ := Table.exists_insert (r := call.caller io user) (h.lookup_eq_none hnew)
      dsimp only
      rw [makeCall_eq, makeCall_eq, insertCall_eq setting ht, insertCall_eq setting ht']
      cases Tenant.tenantIsolation (tenantUser user).tenantValue (user.clientId.map toString) && io.commits with
      | true => exact ⟨h.insert ht ht', rfl⟩
      | false => exact ⟨h, rfl⟩

/-- A call of a user of another tenant. -/
theorem call_other (d : Database) {t : Table Caller.id}
    (h : Table.Within (fun r => r.clientId = some n) d.callRequests t) (hnew : d.callRequests.lookup io.id = none)
    {setting found : Tenant.Setting} {authorization : Option Token}
    (hactor : getCurrentUser io.now authorization = .ok user) (hclient : user.clientId ≠ some n) :
    Table.Within (fun r => r.clientId = some n)
      (serveCall d setting found authorization io body).1.database.callRequests t := by
  unfold serveCall
  rw [hactor]
  dsimp only
  cases validPhone io body with
  | error errors => exact h
  | ok call =>
    obtain ⟨t₁, ht₁⟩ := Table.exists_insert (r := call.caller io user) hnew
    dsimp only
    rw [makeCall_eq, insertCall_eq setting ht₁]
    cases Tenant.tenantIsolation (tenantUser user).tenantValue (user.clientId.map toString) && io.commits with
    | true => exact h.insert_left hclient ht₁
    | false => exact h

end Calls

/-! ## Runs -/

/-- The tenant that a customer request is of is that of the user who makes it. -/
theorem tenant_of_actor {setting found : Tenant.Setting} {authorization : Option Token} {write : ClientRouter.Write}
    {io : ClientRouter.Effects} {m : Int} (ht : tenant ⟨authorization, write, io, some setting, some found⟩ = some m) :
    ∃ user, (Request.customer setting found authorization write io).actor = .ok user ∧ OfTenant user ∧
      user.clientId = some m :=
  tenant_eq_some ht

/-- A request of a user of another tenant, in the first database alone. -/
theorem step_other (h : Indistinct n s s') (horderly : Orderly s request) (hothers : ofOthers n request = true) :
    Indistinct n (step bcrypt s request) s' := by
  obtain ⟨user, hactor, hrole, hclient⟩ := ofOthers_eq_true hothers
  cases request with
  | administer write audit =>
    have hsame : (administer bcrypt audit s.administration write).1 = s.administration :=
      administer_of_ne audit hactor hrole
    exact { h with administration := hsame.trans h.administration }
  | get env setting authorization request => exact h
  | customer setting found authorization write io =>
    refine { h with customers := customer_other h.customers fun m ht e => ?_ }
    obtain ⟨user', hactor', -, hclient'⟩ := tenant_of_actor ht
    rw [hactor] at hactor'
    obtain rfl : user = user' := by injection hactor'
    exact hclient (e ▸ hclient')
  | call setting found authorization body io =>
    have hcalls : Table.Within (fun r => r.clientId = some n)
        (serveCall s.database setting found authorization io body).1.database.callRequests s'.callRequests :=
      call_other s.database h.callRequests horderly hactor hclient
    exact { h with callRequests := hcalls }

/-- Any other request, in both databases. -/
theorem serve_same (h : Indistinct n s s') (horderly : Orderly s request) (hothers : ofOthers n request = false) :
    Indistinct n (step bcrypt s request) (step bcrypt s' request) ∧
      (ofTenant n request = true → reply bcrypt s request = reply bcrypt s' request) := by
  cases request with
  | administer write audit =>
    refine ⟨{ h with administration := ?_ }, fun _ => ?_⟩
    · simp only [step, serve, h.administration]
    · simp only [reply, serve, h.administration]
  | get env setting authorization request =>
    refine ⟨h, fun hown => ?_⟩
    obtain ⟨user, hactor, hrole, hclient⟩ := ofTenant_eq_true hown
    exact congrArg Reply.get (get_same h horderly setting hactor hrole hclient request)
  | customer setting found authorization write io =>
    have hof : ∀ m, tenant ⟨authorization, write, io, some setting, some found⟩ = some m → m = n := by
      intro m ht
      obtain ⟨user, hactor, hrole, hclient⟩ := tenant_of_actor ht
      exact Option.some.inj (hclient.symm.trans (clientId_of_not_ofOthers hothers hactor hrole))
    have hsame : Same n (ClientRouter.serve s.database ⟨authorization, write, io, some setting, some found⟩)
        (ClientRouter.serve s'.database ⟨authorization, write, io, some setting, some found⟩) :=
      customer_same h.customers horderly hof
    exact ⟨{ h with customers := hsame.1 }, fun _ => congrArg Reply.customer hsame.2⟩
  | call setting found authorization body io =>
    have hsame := call_same s.database s'.database setting found authorization body h.callRequests horderly
    exact ⟨{ h with callRequests := hsame.1 }, fun _ => congrArg Reply.call hsame.2⟩

/-- Over every run in which the database orders rows by themselves and new ids are new,
the users of a tenant are answered as they would be without the requests of the users of
other tenants, and the database has the same rows of the tenant in the end. -/
theorem tenants_unnoticed (bcrypt : Bcrypt) (n : Int) (s : Tables) (requests : List Platform.Request)
    (h : AllSteps (step bcrypt) Orderly s requests) :
    collect (step bcrypt) (answered bcrypt n) s requests =
        collect (step bcrypt) (answered bcrypt n) s (requests.filter fun request => !ofOthers n request) ∧
      Agree n (run (step bcrypt) s requests).database
        (run (step bcrypt) s (requests.filter fun request => !ofOthers n request)).database := by
  have hown : ∀ s s' request, Indistinct n s s' → Orderly s request → (!ofOthers n request) = true →
      Indistinct n (step bcrypt s request) (step bcrypt s' request) ∧
        answered bcrypt n s request = answered bcrypt n s' request := by
    intro s s' request hR horderly ho
    obtain ⟨hstep, hreply⟩ := serve_same hR horderly (by simpa using ho)
    refine ⟨hstep, ?_⟩
    unfold answered
    split
    · rename_i hn
      rw [hreply hn]
    · rfl
  have hother : ∀ s s' request, Indistinct n s s' → Orderly s request → (!ofOthers n request) = false →
      Indistinct n (step bcrypt s request) s' ∧ answered bcrypt n s request = [] := by
    intro s s' request hR horderly ho
    have ho : ofOthers n request = true := by simpa using ho
    exact ⟨step_other hR horderly ho, if_neg (Bool.eq_false_iff.mp (ofTenant_of_ofOthers ho))⟩
  refine ⟨collect_filter (.refl n s) hown hother h, Indistinct.agree ?_⟩
  exact run_filter (.refl n s) (fun s s' request hR hC ho => (hown s s' request hR hC ho).1)
    (fun s s' request hR hC ho => (hother s s' request hR hC ho).1) h

/-- The second tenant adds a customer. -/
def newCustomer : Platform.Request :=
  .customer none (some "2") (some (some (tenantAdmin (some 2)))) (.createOrUpdateCustomer (.ok { phone := "+919876543210" }))
    ⟨0, "c0", true⟩

/-- The first one lists its own. -/
noncomputable def ownCustomers : Platform.Request :=
  .get (postgresEnv orderOfRows) none (some (some (tenantAdmin (some 1)))) (.client (.listCustomers (.ok { paging := {} })))

theorem newCustomer_unnoticed :
    (step ⟨fun _ _ => "", fun _ _ => true⟩ noTables newCustomer).customers.rows.length = 1 ∧
      collect (step ⟨fun _ _ => "", fun _ _ => true⟩) (answered ⟨fun _ _ => "", fun _ _ => true⟩ 1) noTables
          [newCustomer, ownCustomers] =
        collect (step ⟨fun _ _ => "", fun _ _ => true⟩) (answered ⟨fun _ _ => "", fun _ _ => true⟩ 1) noTables
          [ownCustomers] := by
  have horderly : AllSteps (step ⟨fun _ _ => "", fun _ _ => true⟩) Orderly noTables [newCustomer, ownCustomers] :=
    allSteps_cons.mpr ⟨rfl, allSteps_cons.mpr ⟨orderOfRows_postgresEnv, allSteps_nil⟩⟩
  have hfilter : [newCustomer, ownCustomers].filter (fun request => !ofOthers 1 request) = [ownCustomers] := rfl
  have h := (tenants_unnoticed _ 1 noTables _ horderly).1
  exact ⟨by decide, by rwa [hfilter] at h⟩

end CallingAgent.Proof.Tenant.Interference
