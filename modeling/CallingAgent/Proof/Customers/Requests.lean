import CallingAgent.Impl.Customers
import CallingAgent.Proof.Reads.Visible
import CallingAgent.Spec.CustomerProfiles

/-!
# The requests for customers

What a request submits (`requested`), and what it makes of the table, whatever its
refresh sees: it is answered with an error and changes nothing, or it inserts the row
of a new pair of tenant and phone number, or it merges its values into the row it
names (`serve_cases`).
-/

namespace CallingAgent.Proof.Customers

open CallingAgent.Framework CallingAgent.Impl CallingAgent.Impl.Auth CallingAgent.Impl.Reads CallingAgent.Impl.ClientRouter
open CallingAgent.Spec.CustomerProfiles CallingAgent.Proof.Reads

/-! ## The merge -/

def createValues (body : CustomerCreate) : Field → Option String
  | .name => body.name
  | .email => body.email
  | .languageCode => body.languageCode
  | .timezone => body.timezone
  | .countryCode => body.countryCode
  | .notes => body.notes
  | .externalId => body.externalId

def updateValues (body : CustomerUpdate) : Field → Option String
  | .name => body.name
  | .email => body.email
  | .languageCode => body.languageCode
  | .timezone => body.timezone
  | .countryCode => body.countryCode
  | .notes => body.notes
  | .externalId => body.externalId

/-- A flush keeps all columns but `updated_at`. -/
theorem flushed_eq {β : Type} {g : Customer → β} (hg : ∀ (c : Customer) x, g { c with updatedAt := x } = g c)
    (now : Time) (customer changed : Customer) : g (flushed now customer changed) = g changed := by
  unfold flushed
  split
  · rename_i h
    rw [h]
  · exact hg changed _

/-- The row keeps its tenant and phone number, and each field takes the value
submitted for it, if there is one. -/
structure Merges (values : Field → Option String) (change : Customer → Customer) : Prop where
  id : ∀ r, (change r).id = r.id
  clientId : ∀ r, (change r).clientId = r.clientId
  phone : ∀ r, (change r).phone = r.phone
  field : ∀ r f, field (change r) f = (values f).or (field r f)

theorem merges_create (body : CustomerCreate) (now : Time) : Merges (createValues body) (body.merge now) where
  id r := flushed_eq (fun _ _ => rfl) ..
  clientId r := flushed_eq (fun _ _ => rfl) ..
  phone r := flushed_eq (fun _ _ => rfl) ..
  field r f := by
    rw [CustomerCreate.merge, flushed_eq (g := fun c => field c f) fun _ _ => by cases f <;> rfl]
    cases f <;> rfl

theorem merges_update (body : CustomerUpdate) (now : Time) : Merges (updateValues body) (body.merge now) where
  id r := flushed_eq (fun _ _ => rfl) ..
  clientId r := flushed_eq (fun _ _ => rfl) ..
  phone r := flushed_eq (fun _ _ => rfl) ..
  field r f := by
    rw [CustomerUpdate.merge, flushed_eq (g := fun c => field c f) fun _ _ => by cases f <;> rfl]
    cases f <;> rfl

theorem field_customer (body : CustomerCreate) (io : Effects) (clientId : Int) (f : Field) :
    field (body.customer io clientId) f = createValues body f := by
  cases f <;> rfl

/-! ## The requests -/

/-- The tenant whose user makes the request. -/
def tenant (request : Request) : Option Int :=
  match getCurrentUser request.io.now request.authorization with
  | .ok user => requireClient user (fun _ _ => none) some
  | _ => none

/-- What a request submits. -/
def requested (request : Request) : Option Submission :=
  (tenant request).bind fun clientId =>
    match request.write with
    | .createOrUpdateCustomer (.ok body) => some (.upsert clientId body.phone (createValues body))
    | .updateCustomer customerId (.ok body) => some (.update clientId customerId (updateValues body))
    | _ => none

def Answer.isOk {α : Type} : Answer α → Bool
  | .ok _ => true
  | _ => false

/-- The request, if its refresh runs on a connection with this setting. -/
def finding (found : Option Tenant.Setting) (request : Request) : Request := { request with found := found }

theorem finding_self (request : Request) : finding request.found request = request := rfl

/-- The database carries out the commit of a request: it is answered with a success, if
its refresh sees every row. -/
def committed (database : Database) (request : Request) : Bool :=
  Answer.isOk (serve database (finding none request)).2

/-- What a request has submitted: nothing, if there is no commit. -/
def submitted (database : Database) (request : Request) : List Submission :=
  if committed database request then (requested request).toList else []

/-- A session that sees the rows of the tenant. -/
def Sees (db : Session) (clientId : Int) : Prop := db.visible (some (toString clientId)) = true

theorem sees_tenantScopedDb {user : Claims} (h : OfTenant user) {n : Int} (hc : user.clientId = some n) (hn : n ≠ 0)
    (db : Session) : Sees (tenantScopedDb user db) n := by
  cases hr : db.rls with
  | none => simp [Sees, Session.visible, tenantScopedDb, hr]
  | some setting =>
    rw [Sees, visible_tenantScopedDb h (by rw [hr]; rfl), tenantValue_some h hc hn]
    exact decide_eq_true rfl

/-- The gate lets through the users of a tenant. -/
theorem requireClient_cases (user : Claims) :
    (∃ statusCode detail, ∀ {β : Type} (httpException : Nat → String → β) (handler : Int → β),
      requireClient user httpException handler = httpException statusCode detail) ∨
    (OfTenant user ∧ ∃ n, user.clientId = some n ∧ n ≠ 0 ∧
      ∀ {β : Type} (httpException : Nat → String → β) (handler : Int → β),
        requireClient user httpException handler = handler n) := by
  by_cases hrole : user.role = some "tenant_admin" ∨ user.role = some "agent"
  · cases hc : user.clientId with
    | none => exact .inl ⟨_, _, fun _ _ => by rw [requireClient, if_pos hrole, hc]⟩
    | some n =>
      by_cases hn : n = 0
      · exact .inl ⟨_, _, fun _ _ => by rw [requireClient, if_pos hrole, hc]; exact if_pos hn⟩
      · exact .inr ⟨hrole, n, rfl, hn, fun _ _ => by rw [requireClient, if_pos hrole, hc]; exact if_neg hn⟩
  · exact .inl ⟨_, _, fun _ _ => by rw [requireClient, if_neg hrole]⟩

/-! ## What the handlers make of the table -/

/-- The change that a request makes of an existing row. -/
def change (request : Request) (customer : Customer) : Customer :=
  match request.write with
  | .createOrUpdateCustomer (.ok body) => body.merge request.io.now customer
  | .updateCustomer _ (.ok body) => body.merge request.io.now customer
  | _ => customer

theorem change_id (request : Request) (c : Customer) : (change request c).id = c.id := by
  unfold change
  split
  · exact (merges_create _ _).id c
  · exact (merges_update _ _).id c
  · rfl

/-- The table with a submission merged into a row. -/
def mergedTable (customers : Table Customer.id) (request : Request) (customerId : String) : Table Customer.id :=
  customers.update (setCustomer customerId (change request) (change_id request))

variable {s : Database} {request : Request} {db : Session} {clientId : Int} {io : Effects}

theorem getCustomer_eq (db : Session) (customerId : String) :
    db.getCustomer customerId =
      (db.database.customers.lookup customerId).filter fun c => db.visible (some (toString c.clientId)) :=
  Table.find?_filter_rows db.database.customers _ customerId

/-- The answer with a row that has been committed: the refresh sees it, or raises. -/
def refreshed (found : Option Tenant.Setting) (c : Customer) : Answer Customer :=
  if found.all fun setting => Tenant.tenantIsolation setting (some (toString c.clientId)) then .ok c else .raised

theorem getCustomer_of_mem {c : Customer} (hsees : Sees db c.clientId) (hc : c ∈ db.database.customers.rows) :
    db.getCustomer c.id = some c := by
  rw [getCustomer_eq, Table.lookup_of_mem hc]
  exact Option.filter_some_pos hsees

/-- The commit leaves the table, and the refresh finds the row if the session sees it. -/
theorem commitCustomers_eq {customers : Table Customer.id} {c : Customer} (hcommits : io.commits = true)
    (hc : c ∈ customers.rows) :
    commitCustomers io db customers c.id =
      (⟨{ db.database with customers := customers }, db.rls⟩, refreshed db.rls c) := by
  have hget : ({ db with database := { db.database with customers := customers } } : Session).getCustomer c.id =
      (some c).filter fun c => db.visible (some (toString c.clientId)) := by
    rw [getCustomer_eq, Table.lookup_of_mem hc]
    rfl
  rw [commitCustomers, if_pos hcommits]
  simp only [hget, Option.filter_some]
  unfold refreshed Session.visible
  cases db.rls.all fun setting => Tenant.tenantIsolation setting (some (toString c.clientId)) <;> rfl

theorem commitCustomers_refused {customers : Table Customer.id} {customerId : String} (hcommits : io.commits ≠ true) :
    commitCustomers io db customers customerId = (db, .raised) := if_neg hcommits

theorem mem_update {customers : Table Customer.id} {f : Customer → Customer} (hf : ∀ r, (f r).id = r.id) {c : Customer}
    (hc : c ∈ customers.rows) : f c ∈ (customers.update (setCustomer c.id f hf)).rows := by
  refine List.mem_map.mpr ⟨c, hc, Update.row_of_guard ?_⟩
  simp [setCustomer]

/-- The rows of a pair that the tenant's session sees are those of the table. -/
theorem mem_pair (hsees : Sees db clientId) (phone : String) (c : Customer) :
    (c ∈ db.customers.filter fun customer => customer.clientId = clientId && customer.phone = phone) ↔
      c ∈ db.database.customers.rows ∧ c.clientId = clientId ∧ c.phone = phone := by
  simp only [Session.customers, List.mem_filter, Bool.and_eq_true, decide_eq_true_eq]
  constructor
  · rintro ⟨⟨hc, -⟩, hpair⟩
    exact ⟨hc, hpair⟩
  · rintro ⟨hc, hclient, hphone⟩
    exact ⟨⟨hc, by rw [hclient]; exact hsees⟩, hclient, hphone⟩

/-- A row that the index lets through is added. -/
theorem insert_of_insertCustomer {customers customers' : Table Customer.id} {c : Customer}
    (h : insertCustomer customers c = some customers') : customers.insert c = some customers' := by
  unfold insertCustomer at h
  split at h
  · cases h
  · exact h

/-- `create_or_update_customer` for a pair that has a row. -/
theorem createOrUpdate_existing (hsees : Sees db clientId) {body : CustomerCreate} {c : Customer}
    (hpair : (db.customers.filter fun customer => customer.clientId = clientId && customer.phone = body.phone) = [c])
    (hcommits : io.commits = true) (found : Option Tenant.Setting) :
    createOrUpdateCustomer io found db clientId body =
      (⟨{ db.database with
            customers := db.database.customers.update (setCustomer c.id (body.merge io.now) (merges_create body _).id) },
          found⟩,
        refreshed found (body.merge io.now c)) := by
  obtain ⟨hc, -, -⟩ := (mem_pair hsees body.phone c).mp (by rw [hpair]; exact List.mem_singleton_self c)
  have hmerges := merges_create body io.now
  have h : commitCustomers io { db with rls := found } _ _ = _ := commitCustomers_eq hcommits (mem_update hmerges.id hc)
  rw [hmerges.id] at h
  rw [createOrUpdateCustomer, hpair]
  exact h

/-- `create_or_update_customer` for a new pair. -/
theorem createOrUpdate_new (hsees : Sees db clientId) {body : CustomerCreate}
    (hpair : (db.customers.filter fun customer => customer.clientId = clientId && customer.phone = body.phone) = [])
    {customers : Table Customer.id} (hinsert : db.database.customers.insert (body.customer io clientId) = some customers)
    (hcommits : io.commits = true) (found : Option Tenant.Setting) :
    createOrUpdateCustomer io found db clientId body =
      (⟨{ db.database with customers := customers }, found⟩, refreshed found (body.customer io clientId)) := by
  have hindex : insertCustomer db.database.customers (body.customer io clientId) = some customers := by
    rw [insertCustomer, if_neg ?_, hinsert]
    intro h
    obtain ⟨c, hc, h⟩ := List.any_eq_true.mp h
    have hc' := (mem_pair hsees body.phone c).mpr ⟨hc, by simp only [Bool.and_eq_true, decide_eq_true_eq] at h; exact h⟩
    rw [hpair] at hc'
    cases hc'
  have hmem : body.customer io clientId ∈ customers.rows := (Table.mem_insert hinsert).mpr (.inr rfl)
  rw [createOrUpdateCustomer, hpair]
  dsimp only
  rw [if_pos (show db.visible (some (toString clientId)) = true from hsees), hindex]
  exact commitCustomers_eq (c := body.customer io clientId) hcommits hmem

/-- It goes as in the other lemmas, or raises. -/
theorem createOrUpdate_cases (hsees : Sees db clientId) (body : CustomerCreate) :
    (∀ found, ∃ rls, createOrUpdateCustomer io found db clientId body = (⟨db.database, rls⟩, .raised)) ∨
      io.commits = true ∧
        ((∃ c, (db.customers.filter fun customer => customer.clientId = clientId && customer.phone = body.phone) = [c]) ∨
          (db.customers.filter fun customer => customer.clientId = clientId && customer.phone = body.phone) = [] ∧
            ∃ customers, db.database.customers.insert (body.customer io clientId) = some customers) := by
  cases hpair : db.customers.filter fun customer => customer.clientId = clientId && customer.phone = body.phone with
  | nil =>
    cases hinsert : insertCustomer db.database.customers (body.customer io clientId) with
    | none =>
      refine .inl fun found => ⟨db.rls, ?_⟩
      rw [createOrUpdateCustomer, hpair]
      simp only [hinsert]
      exact if_pos hsees
    | some customers =>
      by_cases hcommits : io.commits = true
      · exact .inr ⟨hcommits, .inr ⟨rfl, customers, insert_of_insertCustomer hinsert⟩⟩
      · refine .inl fun found => ⟨found, ?_⟩
        rw [createOrUpdateCustomer, hpair]
        simp only [hinsert, commitCustomers_refused hcommits]
        exact if_pos hsees
  | cons c rest =>
    cases rest with
    | nil =>
      by_cases hcommits : io.commits = true
      · exact .inr ⟨hcommits, .inl ⟨c, rfl⟩⟩
      · refine .inl fun found => ⟨found, ?_⟩
        rw [createOrUpdateCustomer, hpair]
        exact commitCustomers_refused hcommits
    | cons c' rest =>
      refine .inl fun found => ⟨db.rls, ?_⟩
      rw [createOrUpdateCustomer, hpair]

/-- `update_customer` for a customer of the tenant. -/
theorem updateCustomer_own (hsees : Sees db clientId) (body : CustomerUpdate) {c : Customer}
    (hc : c ∈ db.database.customers.rows) (hclient : c.clientId = clientId) (hcommits : io.commits = true)
    (found : Option Tenant.Setting) :
    updateCustomer io found db clientId c.id body =
      (⟨{ db.database with
            customers := db.database.customers.update (setCustomer c.id (body.merge io.now) (merges_update body _).id) },
          found⟩,
        refreshed found (body.merge io.now c)) := by
  subst hclient
  have hmerges := merges_update body io.now
  have h : commitCustomers io { db with rls := found } _ _ = _ := commitCustomers_eq hcommits (mem_update hmerges.id hc)
  rw [hmerges.id] at h
  rw [updateCustomer, getCustomer_of_mem hsees hc]
  dsimp only
  rw [if_neg (not_not.mpr rfl)]
  exact h

/-- `update_customer` for a customer that the tenant does not have. -/
theorem updateCustomer_notFound {customerId : String} (body : CustomerUpdate)
    (h : ∀ c ∈ db.database.customers.rows, c.id = customerId → c.clientId ≠ clientId) (found : Option Tenant.Setting) :
    updateCustomer io found db clientId customerId body = (db, .httpException 404 "Customer not found") := by
  rw [updateCustomer]
  cases hget : db.getCustomer customerId with
  | none => rfl
  | some c =>
    rw [getCustomer_eq, Option.filter_eq_some_iff, Table.lookup_eq_some] at hget
    exact if_pos (h c hget.1.1 hget.1.2)

theorem updateCustomer_refused (db : Session) (clientId : Int) (customerId : String) (body : CustomerUpdate)
    (hcommits : io.commits ≠ true) (found : Option Tenant.Setting) :
    ∃ rls answer, updateCustomer io found db clientId customerId body = (⟨db.database, rls⟩, answer) ∧
      Answer.isOk answer = false := by
  rw [updateCustomer]
  split
  · exact ⟨_, _, rfl, rfl⟩
  · split
    · exact ⟨_, _, rfl, rfl⟩
    · exact ⟨_, _, commitCustomers_refused hcommits, rfl⟩

/-! ## What a request makes of the database -/

/-- A request without the token of a tenant's user. -/
theorem serve_of_no_tenant (s : Database) (h : tenant request = none) :
    (serve s request).1.database = s ∧ Answer.isOk (serve s request).2 = false := by
  unfold tenant at h
  unfold serve
  cases hu : getCurrentUser request.io.now request.authorization with
  | raised => exact ⟨rfl, rfl⟩
  | httpException statusCode detail => exact ⟨rfl, rfl⟩
  | ok user =>
    rw [hu] at h
    dsimp only at h ⊢
    rcases requireClient_cases user with ⟨statusCode, detail, hgate⟩ | ⟨-, n, -, -, hgate⟩
    · rw [hgate]
      exact ⟨rfl, rfl⟩
    · rw [hgate] at h
      cases h

/-- The request of a tenant's user. -/
theorem serve_of_tenant (s : Database) (h : tenant request = some clientId) :
    ∃ db : Session, db.database = s ∧ Sees db clientId ∧ ∀ found,
      match request.write with
      | .createOrUpdateCustomer (.ok body) =>
        serve s (finding found request) = createOrUpdateCustomer request.io found db clientId body
      | .updateCustomer customerId (.ok body) =>
        serve s (finding found request) = updateCustomer request.io found db clientId customerId body
      | _ => ∃ errors, serve s (finding found request) = (⟨s, request.rls⟩, .httpException 422 errors) := by
  unfold tenant at h
  cases hu : getCurrentUser request.io.now request.authorization with
  | raised => rw [hu] at h; cases h
  | httpException statusCode detail => rw [hu] at h; cases h
  | ok user =>
    rw [hu] at h
    dsimp only at h
    rcases requireClient_cases user with ⟨statusCode, detail, hgate⟩ | ⟨hrole, n, hc, hn, hgate⟩
    · rw [hgate] at h
      cases h
    · rw [hgate] at h
      obtain rfl : n = clientId := Option.some.inj h
      refine ⟨tenantScopedDb user ⟨s, request.rls⟩, rfl, sees_tenantScopedDb hrole hc hn _, fun found => ?_⟩
      simp only [serve, finding, hu, hgate]
      cases request.write with
      | createOrUpdateCustomer body =>
        cases body with
        | ok body => rfl
        | error errors => exact ⟨errors, rfl⟩
      | updateCustomer customerId body =>
        cases body with
        | ok body => rfl
        | error errors => exact ⟨errors, rfl⟩

/-- A request is answered with an error and changes nothing. -/
def Rejected (s : Database) (request : Request) : Prop :=
  ∀ found, (serve s (finding found request)).1.database = s ∧
    Answer.isOk (serve s (finding found request)).2 = false

/-- It commits the table, with this row for the answer. -/
def Commits (s : Database) (request : Request) (customers : Table Customer.id) (c : Customer) : Prop :=
  ∀ found, serve s (finding found request) = (⟨{ s with customers := customers }, found⟩, refreshed found c)

/-- It inserts the row of a new pair. -/
def Creates (s : Database) (request : Request) : Prop :=
  request.io.commits = true ∧ ∃ clientId body customers,
    tenant request = some clientId ∧ request.write = .createOrUpdateCustomer (.ok body) ∧
    (∀ c ∈ s.customers.rows, ¬ (c.clientId = clientId ∧ c.phone = body.phone)) ∧
    s.customers.insert (body.customer request.io clientId) = some customers ∧
    Commits s request customers (body.customer request.io clientId)

/-- It merges its values into the row it names. -/
def MergesInto (s : Database) (request : Request) (c : Customer) : Prop :=
  request.io.commits = true ∧ ∃ submission,
    requested request = some submission ∧ c ∈ s.customers.rows ∧ submission.concerns c = true ∧
    Commits s request (mergedTable s.customers request c.id) (change request c)

theorem Rejected.step_eq (h : Rejected s request) : step s request = s := (h request.found).1

theorem Rejected.not_committed (h : Rejected s request) : committed s request = false := (h none).2

theorem Rejected.not_ok {c : Customer} (h : Rejected s request) : (serve s request).2 ≠ .ok c := fun e => by
  have hfalse := (h request.found).2
  rw [finding_self, e] at hfalse
  cases hfalse

theorem Commits.serve_eq {customers : Table Customer.id} {c : Customer} (h : Commits s request customers c) :
    serve s request = (⟨{ s with customers := customers }, request.found⟩, refreshed request.found c) :=
  h request.found

theorem Commits.step_eq {customers : Table Customer.id} {c : Customer} (h : Commits s request customers c) :
    step s request = { s with customers := customers } := by
  rw [step, h.serve_eq]

theorem Commits.ok {customers : Table Customer.id} {c c' : Customer} (h : Commits s request customers c)
    (hok : (serve s request).2 = .ok c') : (serve s request).2 = .ok c := by
  rw [h.serve_eq, refreshed] at hok ⊢
  split at hok
  · exact if_pos ‹_›
  · cases hok

theorem Commits.committed {customers : Table Customer.id} {c : Customer} (h : Commits s request customers c) :
    committed s request = true := by
  rw [Customers.committed, h none]
  rfl

theorem change_create {body : CustomerCreate} (hw : request.write = .createOrUpdateCustomer (.ok body)) :
    change request = body.merge request.io.now := by
  funext c
  simp only [change, hw]

theorem change_update {customerId : String} {body : CustomerUpdate}
    (hw : request.write = .updateCustomer customerId (.ok body)) : change request = body.merge request.io.now := by
  funext c
  simp only [change, hw]

theorem mergedTable_eq (customers : Table Customer.id) (customerId : String) {f : Customer → Customer}
    (hf : change request = f) (hid : ∀ r, (f r).id = r.id) :
    mergedTable customers request customerId = customers.update (setCustomer customerId f hid) := by
  subst hf
  rfl

theorem rejected_of_serve
    (h : ∀ found, ∃ rls answer, serve s (finding found request) = (⟨s, rls⟩, answer) ∧
      Answer.isOk answer = false) : Rejected s request := by
  intro found
  obtain ⟨rls, answer, e, hanswer⟩ := h found
  rw [e]
  exact ⟨rfl, hanswer⟩

/-- Its merge, if `serve` is as a handler's lemma says. -/
theorem mergesInto_of_serve {submission : Submission} {f : Customer → Customer} {hid : ∀ r, (f r).id = r.id}
    {c : Customer} (hcommits : request.io.commits = true) (hrequested : requested request = some submission)
    (hc : c ∈ s.customers.rows) (hconcerns : submission.concerns c = true) (hf : change request = f)
    (h : Commits s request (s.customers.update (setCustomer c.id f hid)) (f c)) : MergesInto s request c := by
  refine ⟨hcommits, submission, hrequested, hc, hconcerns, ?_⟩
  rw [mergedTable_eq _ _ hf hid, hf]
  exact h

theorem requested_create {body : CustomerCreate} (ht : tenant request = some clientId)
    (hw : request.write = .createOrUpdateCustomer (.ok body)) :
    requested request = some (.upsert clientId body.phone (createValues body)) := by
  simp only [requested, ht, hw, Option.bind_some]

theorem requested_update {customerId : String} {body : CustomerUpdate} (ht : tenant request = some clientId)
    (hw : request.write = .updateCustomer customerId (.ok body)) :
    requested request = some (.update clientId customerId (updateValues body)) := by
  simp only [requested, ht, hw, Option.bind_some]

/-- `create_or_update_customer` for a pair that has no row. -/
theorem serve_new {body : CustomerCreate} {customers : Table Customer.id} (hcommits : request.io.commits = true)
    (ht : tenant request = some clientId) (hw : request.write = .createOrUpdateCustomer (.ok body))
    (habsent : ∀ c ∈ s.customers.rows, ¬ (c.clientId = clientId ∧ c.phone = body.phone))
    (hinsert : s.customers.insert (body.customer request.io clientId) = some customers) :
    Commits s request customers (body.customer request.io clientId) := by
  obtain ⟨db, rfl, hsees, hserve⟩ := serve_of_tenant s ht
  rw [hw] at hserve
  have hpair : (db.customers.filter fun customer => customer.clientId = clientId && customer.phone = body.phone) = [] := by
    refine List.eq_nil_iff_forall_not_mem.mpr fun c hc => ?_
    obtain ⟨hc, hcpair⟩ := (mem_pair hsees body.phone c).mp hc
    exact habsent c hc hcpair
  exact fun found => (hserve found).trans (createOrUpdate_new hsees hpair hinsert hcommits found)

/-- `create_or_update_customer` for a pair that has one row. -/
theorem upserts_of {body : CustomerCreate} {c : Customer} (hcommits : request.io.commits = true)
    (ht : tenant request = some clientId) (hw : request.write = .createOrUpdateCustomer (.ok body))
    (hc : c ∈ s.customers.rows) (hclient : c.clientId = clientId) (hphone : c.phone = body.phone)
    (hone : ∀ c' ∈ s.customers.rows, c'.clientId = clientId → c'.phone = body.phone → c' = c) :
    MergesInto s request c := by
  obtain ⟨db, rfl, hsees, hserve⟩ := serve_of_tenant s ht
  rw [hw] at hserve
  have hpair :
      (db.customers.filter fun customer => customer.clientId = clientId && customer.phone = body.phone) = [c] := by
    have hnodup := (db.database.customers.nodup_rows.filter fun c => db.visible (some (toString c.clientId))).filter
      fun customer => customer.clientId = clientId && customer.phone = body.phone
    refine List.perm_singleton.mp ((List.perm_ext_iff_of_nodup hnodup (List.nodup_singleton c)).mpr fun c' => ?_)
    refine (mem_pair hsees body.phone c').trans ?_
    rw [List.mem_singleton]
    constructor
    · rintro ⟨hc', hclient', hphone'⟩
      exact hone c' hc' hclient' hphone'
    · rintro rfl
      exact ⟨hc, hclient, hphone⟩
  refine mergesInto_of_serve hcommits (requested_create ht hw) hc ?_ (change_create hw)
    fun found => (hserve found).trans (createOrUpdate_existing hsees hpair hcommits found)
  simp [Submission.concerns, hclient, hphone]

theorem create_cases (s : Database) {body : CustomerCreate} (ht : tenant request = some clientId)
    (hw : request.write = .createOrUpdateCustomer (.ok body)) :
    Rejected s request ∨ Creates s request ∨ ∃ c, MergesInto s request c := by
  obtain ⟨db, rfl, hsees, hserve⟩ := serve_of_tenant s ht
  rw [hw] at hserve
  rcases createOrUpdate_cases hsees body with hraised | ⟨hcommits, ⟨c, hpair⟩ | ⟨hpair, customers, hinsert⟩⟩
  · refine .inl (rejected_of_serve fun found => ?_)
    obtain ⟨rls, hraised⟩ := hraised found
    exact ⟨rls, _, (hserve found).trans hraised, rfl⟩
  · obtain ⟨hc, hclient, hphone⟩ := (mem_pair hsees body.phone c).mp (by rw [hpair]; exact List.mem_singleton_self c)
    refine .inr (.inr ⟨c, ?_⟩)
    refine mergesInto_of_serve hcommits (requested_create ht hw) hc ?_ (change_create hw)
      fun found => (hserve found).trans (createOrUpdate_existing hsees hpair hcommits found)
    simp [Submission.concerns, hclient, hphone]
  · have habsent : ∀ c ∈ db.database.customers.rows, ¬ (c.clientId = clientId ∧ c.phone = body.phone) := by
      intro c hc hcpair
      have hmem := (mem_pair hsees body.phone c).mpr ⟨hc, hcpair⟩
      rw [hpair] at hmem
      cases hmem
    exact .inr (.inl ⟨hcommits, clientId, body, customers, ht, hw, habsent, hinsert,
      serve_new hcommits ht hw habsent hinsert⟩)

/-- `update_customer` for a customer of the tenant. -/
theorem updates_of {body : CustomerUpdate} {c : Customer} (hcommits : request.io.commits = true)
    (ht : tenant request = some clientId) (hw : request.write = .updateCustomer c.id (.ok body))
    (hc : c ∈ s.customers.rows) (hclient : c.clientId = clientId) : MergesInto s request c := by
  obtain ⟨db, rfl, hsees, hserve⟩ := serve_of_tenant s ht
  rw [hw] at hserve
  refine mergesInto_of_serve hcommits (requested_update ht hw) hc ?_ (change_update hw)
    fun found => (hserve found).trans (updateCustomer_own hsees body hc hclient hcommits found)
  simp [Submission.concerns, hclient]

/-- An update of a customer of another tenant, or of none. -/
theorem update_notFound {customerId : String} {body : CustomerUpdate} (ht : tenant request = some clientId)
    (hw : request.write = .updateCustomer customerId (.ok body))
    (h : ∀ c ∈ s.customers.rows, c.id = customerId → c.clientId ≠ clientId) :
    ∀ found, ∃ rls, serve s (finding found request) =
      (⟨s, rls⟩, .httpException 404 "Customer not found") := by
  obtain ⟨db, rfl, -, hserve⟩ := serve_of_tenant s ht
  rw [hw] at hserve
  exact fun found => ⟨db.rls, (hserve found).trans (updateCustomer_notFound body h found)⟩

theorem update_cases (s : Database) {customerId : String} {body : CustomerUpdate} (ht : tenant request = some clientId)
    (hw : request.write = .updateCustomer customerId (.ok body)) :
    Rejected s request ∨ ∃ c, MergesInto s request c := by
  by_cases hown : ∃ c ∈ s.customers.rows, c.id = customerId ∧ c.clientId = clientId
  · obtain ⟨c, hc, rfl, hclient⟩ := hown
    by_cases hcommits : request.io.commits = true
    · exact .inr ⟨c, updates_of hcommits ht hw hc hclient⟩
    · obtain ⟨db, rfl, -, hserve⟩ := serve_of_tenant s ht
      rw [hw] at hserve
      refine .inl (rejected_of_serve fun found => ?_)
      obtain ⟨rls, answer, h, hanswer⟩ := updateCustomer_refused db clientId c.id body hcommits found
      exact ⟨rls, answer, (hserve found).trans h, hanswer⟩
  · have hnone := update_notFound (s := s) ht hw fun c hc hid hclient => hown ⟨c, hc, hid, hclient⟩
    refine .inl (rejected_of_serve fun found => ?_)
    obtain ⟨rls, h⟩ := hnone found
    exact ⟨rls, _, h, rfl⟩

/-- What a request can do. -/
theorem serve_cases (s : Database) (request : Request) :
    Rejected s request ∨ Creates s request ∨ ∃ c, MergesInto s request c := by
  cases ht : tenant request with
  | none => exact .inl fun found => serve_of_no_tenant s ht
  | some clientId =>
    have hclient := serve_of_tenant s ht
    cases hw : request.write with
    | createOrUpdateCustomer body =>
      cases body with
      | ok body => exact create_cases s ht hw
      | error errors =>
        obtain ⟨db, rfl, -, hserve⟩ := hclient
        rw [hw] at hserve
        refine .inl (rejected_of_serve fun found => ?_)
        obtain ⟨errors, h⟩ := hserve found
        exact ⟨_, _, h, rfl⟩
    | updateCustomer customerId body =>
      cases body with
      | ok body => exact (update_cases s ht hw).imp_right .inr
      | error errors =>
        obtain ⟨db, rfl, -, hserve⟩ := hclient
        rw [hw] at hserve
        refine .inl (rejected_of_serve fun found => ?_)
        obtain ⟨errors, h⟩ := hserve found
        exact ⟨_, _, h, rfl⟩

end CallingAgent.Proof.Customers
