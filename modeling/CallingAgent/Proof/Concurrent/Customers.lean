import CallingAgent.Proof.Admin.AuditFailure
import CallingAgent.Proof.Concurrent.Inserts
import CallingAgent.Proof.Customers.Requests

/-!
# Concurrent upserts of customers

An upsert that has found a row updates it, which no other request prevents; one that has
found none inserts a row, and is refused if the row has come in the meantime.
`creates_resolve` puts it together with the other creates.
-/

namespace CallingAgent.Proof.Concurrent

open CallingAgent.Framework CallingAgent.Impl CallingAgent.Impl.Auth CallingAgent.Impl.Reads CallingAgent.Impl.Concurrent
open CallingAgent.Impl.ClientRouter (CustomerCreate setCustomer insertCustomer commitCustomers createOrUpdateCustomer)
open CallingAgent.Proof.Customers

variable {database : Database} {r : Upsert} {t : CustomerTable}

/-! ## The sessions of the requests -/

theorem upsert_sees (r : Upsert) (database : Database) (t : CustomerTable) : Sees (r.session database t) r.clientId :=
  sees_tenantScopedDb r.role r.clientId_eq r.clientId_ne _

/-- The row is that of the request's tenant and phone number. -/
def ownCustomer (r : Upsert) (c : Customer) : Prop := c.clientId = r.clientId ∧ c.phone = r.body.phone

theorem ownCustomer_iff {c : Customer} : ownCustomer r c ↔ clientPhone c = some (r.clientId, r.body.phone) := by
  simp [ownCustomer, clientPhone]

theorem mem_session_pair {c : Customer} :
    (c ∈ (r.session database t).customers.filter fun c => c.clientId = r.clientId && c.phone = r.body.phone) ↔
      c ∈ t.rows ∧ ownCustomer r c :=
  mem_pair (upsert_sees r database t) r.body.phone c

theorem own_unique {c c' : Customer} (hc : c ∈ t.rows) (hc' : c' ∈ t.rows) (h : ownCustomer r c) (h' : ownCustomer r c') :
    c = c' :=
  Indexed.eq_of_index hc hc' (ownCustomer_iff.mp h) (ownCustomer_iff.mp h')

/-- The check goes on, with the row if it is there. -/
theorem upsert_check (r : Upsert) (database : Database) (t : CustomerTable) :
    (∃ c, (r.handler database).check t = .ok (some c) ∧ c ∈ t.rows ∧ ownCustomer r c) ∨
      (r.handler database).check t = .ok none := by
  have hcheck : (r.handler database).check t = upsertCheck (r.session database t) r.clientId r.body := rfl
  rw [hcheck]
  unfold upsertCheck
  cases h : (r.session database t).customers.filter fun c => c.clientId = r.clientId && c.phone = r.body.phone with
  | nil => exact .inr rfl
  | cons c rest =>
    have hmem : ∀ x ∈ c :: rest, x ∈ t.rows ∧ ownCustomer r x := fun x hx => mem_session_pair.mp (h ▸ hx)
    obtain ⟨hc, hown⟩ := hmem c List.mem_cons_self
    cases rest with
    | nil => exact .inl ⟨c, rfl, hc, hown⟩
    | cons c' rest =>
      obtain ⟨hc', hown'⟩ := hmem c' (List.mem_cons_of_mem c List.mem_cons_self)
      have hnodup : (c :: c' :: rest).Nodup := by
        rw [← h]
        exact ((t.toTable.nodup_rows.filter _).filter _)
      rw [own_unique hc hc' hown hown'] at hnodup
      simp at hnodup

/-! ## Their commits -/

/-- A row that a request has found is still there: its id, tenant and phone number stay. -/
def Found (r : Upsert) (t : CustomerTable) : Option Customer → Prop
  | some c => ∃ row ∈ t.rows, row.id = c.id ∧ ownCustomer r row
  | none => True

/-- The refresh sees the rows of the request's tenant. -/
def upsertRefreshes (r : Upsert) : Bool := shows r.found (some (toString r.clientId))

/-- The database refuses the commit, or another row has come for an insert. -/
def upsertRefused (r : Upsert) (t : CustomerTable) (existingRow : Option Customer) : Prop :=
  r.io.commits = false ∨
    existingRow = none ∧ ((∃ c ∈ t.rows, ownCustomer r c) ∨ ∃ c ∈ t.rows, c.id = r.io.uuid4)

/-- The commit is refused, or the refresh does not see the row. -/
def upsertLate (r : Upsert) (t : CustomerTable) (existingRow : Option Customer) : Prop :=
  upsertRefused r t existingRow ∨ upsertRefreshes r = false

/-- Success, with the customer of the tenant and phone number. -/
def upsertGood (r : Upsert) (answer : Answer Customer) : Prop := ∃ c, answer = .ok c ∧ ownCustomer r c

theorem overwrite_pair (loaded changed row : Customer) :
    (overwrite loaded changed row).clientId = row.clientId ∧ (overwrite loaded changed row).phone = row.phone := by
  unfold overwrite
  split
  · exact ⟨rfl, rfl⟩
  · exact ⟨rfl, rfl⟩

theorem clientPhone_overwrite (loaded changed row : Customer) :
    clientPhone (overwrite loaded changed row) = clientPhone row := by
  obtain ⟨hc, hp⟩ := overwrite_pair loaded changed row
  rw [clientPhone, clientPhone, hc, hp]

/-- What a commit does to the table. -/
structure Keeps (t t' : CustomerTable) : Prop where
  row : ∀ c ∈ t.rows, ∃ c' ∈ t'.rows, c'.id = c.id ∧ clientPhone c' = clientPhone c

theorem Keeps.refl (t : CustomerTable) : Keeps t t := ⟨fun c hc => ⟨c, hc, rfl, rfl⟩⟩

/-- The insert is refused exactly if the pair or the id is taken. -/
theorem insertCustomer_eq_none (r : Upsert) (t : CustomerTable) :
    insertCustomer t.toTable (r.body.customer r.io r.clientId) = none ↔
      (∃ c ∈ t.rows, ownCustomer r c) ∨ ∃ c ∈ t.rows, c.id = r.io.uuid4 := by
  have hpair : (t.rows.any fun c => c.clientId = r.clientId && c.phone = r.body.phone) = true ↔
      ∃ c ∈ t.rows, ownCustomer r c := by
    simp only [List.any_eq_true, Bool.and_eq_true, decide_eq_true_eq, ownCustomer]
  have hid : t.toTable.insert (r.body.customer r.io r.clientId) = none ↔ ∃ c ∈ t.rows, c.id = r.io.uuid4 := insert_eq_none
  rw [← hpair, ← hid]
  by_cases h : (t.rows.any fun c => c.clientId = r.clientId && c.phone = r.body.phone) = true
  · exact iff_of_true (if_pos h) (.inl h)
  · rw [or_iff_right h]
    exact iff_of_eq (congrArg (· = none) (if_neg h))

/-- What the commit makes of the customers that the request leaves. -/
theorem upsert_commit_eq {r : Upsert} {database : Database} {t t' : CustomerTable} {existingRow : Option Customer}
    {result : Session × Answer Customer}
    (e : upsertCommit r.io r.found (r.session database t) r.clientId r.body existingRow = result)
    (h : Indexed.check result.1.database.customers = some t') :
    (r.handler database).commit t existingRow = (t', result.2) := by
  simp only [Upsert.handler, e, h]

/-- The commit succeeds, with a row that is there, and the refresh sees it or raises. -/
theorem upsert_commit_done {r : Upsert} {database : Database} {t t' : CustomerTable} {existingRow : Option Customer}
    {c : Customer} (hcommits : r.io.commits = true) (hc : c ∈ t'.rows) (hown : ownCustomer r c)
    (e : upsertCommit r.io r.found (r.session database t) r.clientId r.body existingRow =
      commitCustomers r.io { r.session database t with rls := r.found } t'.toTable c.id) :
    (r.handler database).commit t existingRow = (t', if upsertRefreshes r then .ok c else .raised) := by
  have h := upsert_commit_eq (e.trans (commitCustomers_eq hcommits hc)) (Indexed.check_eq_some.mpr rfl)
  rw [h, refreshed, hown.1]
  rfl

/-- The row that the check found is overwritten. -/
theorem upsert_commit_overwrites {r : Upsert} (database : Database) {t : CustomerTable} {loaded : Customer}
    (hfound : Found r t (some loaded)) (hcommits : r.io.commits = true) :
    ∃ c t', (r.handler database).commit t (some loaded) =
      (t', if upsertRefreshes r then .ok c else .raised) ∧ c ∈ t'.rows ∧ ownCustomer r c ∧ Keeps t t' := by
  obtain ⟨row, hrow, hid, hown⟩ := hfound
  let changed := overwrite loaded (r.body.merge r.io.now loaded)
  let customers := t.toTable.update (setCustomer loaded.id changed (overwrite_id _ _))
  have hunique : Unique Customer.id clientPhone customers.rows :=
    unique_update t.unique fun c => clientPhone_overwrite loaded _ c
  have hmem : changed row ∈ customers.rows := by
    have h := mem_update (overwrite_id loaded (r.body.merge r.io.now loaded)) hrow
    rw [hid] at h
    exact h
  have hpair := overwrite_pair loaded (r.body.merge r.io.now loaded) row
  have hown' : ownCustomer r (changed row) := ⟨hpair.1.trans hown.1, hpair.2.trans hown.2⟩
  have hcid : (changed row).id = loaded.id := (overwrite_id _ _ row).trans hid
  refine ⟨changed row, ⟨customers, hunique⟩, upsert_commit_done hcommits hmem hown' ?_, hmem, hown', ⟨fun c hc => ?_⟩⟩
  · rw [hcid]
    rfl
  · refine ⟨_, List.mem_map_of_mem hc, Update.row_key _ c, ?_⟩
    obtain h | ⟨-, h⟩ := Update.row_cases (setCustomer loaded.id changed (overwrite_id _ _)) c
    · rw [h]
    · rw [h]
      exact clientPhone_overwrite loaded _ c

/-- A row that the table takes is added. -/
theorem upsert_commit_inserts {r : Upsert} (database : Database) {t : CustomerTable} {customers : Table Customer.id}
    (hinsert : insertCustomer t.toTable (r.body.customer r.io r.clientId) = some customers)
    (e : upsertCommit r.io r.found (r.session database t) r.clientId r.body none =
      commitCustomers r.io { r.session database t with rls := r.found } customers r.io.uuid4)
    (hcommits : r.io.commits = true) :
    ∃ c t', (r.handler database).commit t none = (t', if upsertRefreshes r then .ok c else .raised) ∧ c ∈ t'.rows ∧
      ownCustomer r c ∧ Keeps t t' := by
  have hfree : ¬∃ c ∈ t.rows, ownCustomer r c := fun h => by
    have hnone := (insertCustomer_eq_none r t).mpr (.inl h)
    cases hnone.symm.trans hinsert
  have htable : t.toTable.insert (r.body.customer r.io r.clientId) = some customers := insert_of_insertCustomer hinsert
  have hunique : Unique Customer.id clientPhone customers.rows := by
    refine (unique_insert t.unique htable).mpr fun c hc e => ?_
    exact absurd ⟨c, hc, ownCustomer_iff.mpr e⟩ hfree
  have hmem : r.body.customer r.io r.clientId ∈ customers.rows := (Table.mem_insert htable).mpr (.inr rfl)
  refine ⟨_, ⟨customers, hunique⟩, upsert_commit_done hcommits hmem ⟨rfl, rfl⟩ e, hmem, ⟨rfl, rfl⟩, ⟨fun c hc => ?_⟩⟩
  exact ⟨c, (Table.mem_insert htable).mpr (.inl hc), rfl, rfl⟩

/-- A refused commit raises. -/
theorem upsert_commit_refused {r : Upsert} (database : Database) {t : CustomerTable} {existingRow : Option Customer}
    (h : upsertRefused r t existingRow) : (r.handler database).commit t existingRow = (t, .raised) := by
  have hvisible : (r.session database t).visible (some (toString r.clientId)) = true := upsert_sees r database t
  cases existingRow with
  | some loaded =>
    have hcommits : r.io.commits ≠ true := by
      obtain h | ⟨h, -⟩ := h
      · exact Bool.eq_false_iff.mp h
      · cases h
    have hupsert : upsertCommit r.io r.found (r.session database t) r.clientId r.body (some loaded) =
        ({ r.session database t with rls := r.found }, .raised) := commitCustomers_refused hcommits
    exact upsert_commit_eq hupsert (check_self t)
  | none =>
    cases hinsert : insertCustomer (r.session database t).database.customers (r.body.customer r.io r.clientId) with
    | none =>
      have hraised : upsertCommit r.io r.found (r.session database t) r.clientId r.body none =
          (r.session database t, .raised) := by
        simp only [upsertCommit, hvisible, if_true, hinsert]
      exact upsert_commit_eq hraised (check_self t)
    | some customers =>
      have hcommits : r.io.commits ≠ true := by
        obtain h | ⟨-, h⟩ := h
        · exact Bool.eq_false_iff.mp h
        · cases ((insertCustomer_eq_none r t).mpr h).symm.trans hinsert
      have hupsert : upsertCommit r.io r.found (r.session database t) r.clientId r.body none =
          commitCustomers r.io { r.session database t with rls := r.found } customers r.io.uuid4 := by
        simp only [upsertCommit, hvisible, if_true, hinsert]
      exact upsert_commit_eq (hupsert.trans (commitCustomers_refused hcommits)) (check_self t)

/-- A commit that is not refused leaves the row, whatever the refresh sees. -/
theorem upsert_commit_accepted {r : Upsert} (database : Database) {t : CustomerTable} {existingRow : Option Customer}
    (hfound : Found r t existingRow) (h : ¬upsertRefused r t existingRow) :
    ∃ c t', (r.handler database).commit t existingRow = (t', if upsertRefreshes r then .ok c else .raised) ∧ c ∈ t'.rows ∧
      ownCustomer r c ∧ Keeps t t' := by
  have hcommits : r.io.commits = true := by
    by_contra hc
    exact h (.inl (Bool.eq_false_iff.mpr hc))
  cases existingRow with
  | some loaded => exact upsert_commit_overwrites database hfound hcommits
  | none =>
    have hvisible : (r.session database t).visible (some (toString r.clientId)) = true := upsert_sees r database t
    cases hinsert : insertCustomer t.toTable (r.body.customer r.io r.clientId) with
    | none => exact absurd (.inr ⟨rfl, (insertCustomer_eq_none r t).mp hinsert⟩) h
    | some customers =>
      have hinsert' : insertCustomer (r.session database t).database.customers (r.body.customer r.io r.clientId) =
          some customers := hinsert
      refine upsert_commit_inserts database hinsert ?_ hcommits
      simp only [upsertCommit, hvisible, if_true, hinsert']

/-- The commit is too late and raises, or it succeeds with the row, which is there then. -/
theorem upsert_commit (r : Upsert) (database : Database) (t : CustomerTable) (existingRow : Option Customer)
    (hfound : Found r t existingRow) :
    (upsertLate r t existingRow ∧ ∃ t', (r.handler database).commit t existingRow = (t', .raised) ∧ Keeps t t') ∨
    ¬upsertLate r t existingRow ∧
      ∃ c t', (r.handler database).commit t existingRow = (t', .ok c) ∧ c ∈ t'.rows ∧ ownCustomer r c ∧ Keeps t t' := by
  by_cases hrefused : upsertRefused r t existingRow
  · exact .inl ⟨.inl hrefused, t, upsert_commit_refused database hrefused, .refl t⟩
  · obtain ⟨c, t', e, hc, hown, hkeeps⟩ := upsert_commit_accepted database hfound hrefused
    cases hrefreshes : upsertRefreshes r with
    | false =>
      rw [hrefreshes] at e
      exact .inl ⟨.inr hrefreshes, t', e, hkeeps⟩
    | true =>
      rw [hrefreshes] at e
      refine .inr ⟨fun hlate => ?_, c, t', e, hc, hown, hkeeps⟩
      obtain hlate | hlate := hlate
      · exact hrefused hlate
      · cases hrefreshes.symm.trans hlate

/-! ## Runs -/

theorem upsert_keeps (r : Upsert) (database : Database) (t : CustomerTable) (existingRow : Option Customer)
    (hfound : Found r t existingRow) : Keeps t ((r.handler database).commit t existingRow).1 := by
  obtain ⟨-, t', e, hkeeps⟩ | ⟨-, c, t', e, -, -, hkeeps⟩ := upsert_commit r database t existingRow hfound
  · rw [e]
    exact hkeeps
  · rw [e]
    exact hkeeps

/-- There is one customer of the tenant and phone number. -/
def oneCustomer (r : Upsert) (t : CustomerTable) : Prop := ∃! c, c ∈ t.rows ∧ ownCustomer r c

theorem oneCustomer_of_mem {c : Customer} (hc : c ∈ t.rows) (hown : ownCustomer r c) : oneCustomer r t :=
  ⟨c, ⟨hc, hown⟩, fun _ h => own_unique h.1 hc h.2 hown⟩

theorem ownCustomer_congr {c c' : Customer} (h : clientPhone c' = clientPhone c) : ownCustomer r c' ↔ ownCustomer r c := by
  rw [ownCustomer_iff, ownCustomer_iff, h]

theorem upsert_rules (database : Database) (requests : Nat → Upsert) :
    TwoStep.Rules (fun i => (requests i).handler database) (fun _ => True) (fun i => Found (requests i))
      (fun i => upsertGood (requests i)) fun i => upsertLate (requests i) where
  check_ok i t existingRow _ h := by
    obtain ⟨c, e, hc, hown⟩ | e := upsert_check (requests i) database t
    · rw [e] at h
      cases h
      exact ⟨c, hc, rfl, hown⟩
    · rw [e] at h
      cases h
      exact trivial
  check_error i t answer _ h := by
    obtain ⟨c, e, -⟩ | e := upsert_check (requests i) database t
    · rw [e] at h
      cases h
    · rw [e] at h
      cases h
  commit i t existingRow _ hfound := by
    obtain ⟨hlate, t', e, -⟩ | ⟨hfree, c, t', e, -, hown, -⟩ := upsert_commit (requests i) database t existingRow hfound
    · rw [e]
      refine iff_of_false (fun hg => ?_) (not_not_intro hlate)
      obtain ⟨c, h, -⟩ := hg
      cases h
    · rw [e]
      exact iff_of_true ⟨c, rfl, hown⟩ hfree
  keeps _ _ _ _ _ := trivial
  keeps_found i j t p q _ hp hq := by
    cases q with
    | none => exact trivial
    | some c =>
      obtain ⟨row, hrow, hid, hown⟩ := hq
      obtain ⟨row', hrow', hid', hpair⟩ := (upsert_keeps (requests i) database t p hp).row row hrow
      exact ⟨row', hrow', hid'.trans hid, (ownCustomer_congr hpair).mpr hown⟩

theorem upsert_settles (database : Database) (requests : Nat → Upsert) :
    TwoStep.Settles (fun i => (requests i).handler database) (fun _ => True) (fun i => Found (requests i))
      (fun i => upsertGood (requests i)) fun i => oneCustomer (requests i) where
  check i t answer _ h _ := by
    obtain ⟨c, e, -⟩ | e := upsert_check (requests i) database t
    · rw [e] at h
      cases h
    · rw [e] at h
      cases h
  commit i t existingRow _ hfound hd := by
    obtain ⟨-, t', e, -⟩ | ⟨-, c, t', e, hc, hown, -⟩ := upsert_commit (requests i) database t existingRow hfound
    · rw [e] at hd
      obtain ⟨c, h, -⟩ := hd
      cases h
    · rw [e]
      exact oneCustomer_of_mem hc hown
  keeps i j t p _ hp h := by
    obtain ⟨c, ⟨hc, hown⟩, -⟩ := h
    obtain ⟨c', hc', -, hpair⟩ := (upsert_keeps (requests j) database t p hp).row c hc
    exact oneCustomer_of_mem hc' ((ownCustomer_congr hpair).mpr hown)

/-! ## Both steps at once -/

theorem overwrite_self (body : CustomerCreate) (now : Time) (loaded : Customer) :
    overwrite loaded (body.merge now loaded) loaded = body.merge now loaded := by
  unfold overwrite
  split
  · rename_i h
    exact h.symm
  · rename_i h
    unfold CustomerCreate.merge ClientRouter.flushed at h ⊢
    split at h
    · exact absurd rfl h
    · rename_i hne
      rw [if_neg hne]
      simp only [Customer.mk.injEq, true_and, and_true]
      refine ⟨?_, ?_, ?_, ?_, ?_, ?_, ?_⟩ <;> exact ite_eq_right_iff.mpr fun e => e.symm

/-- `create_or_update_customer`, if nothing comes between its two steps. -/
theorem upsert_atOnce (io : ClientRouter.Effects) (found : Option Tenant.Setting) (db : Session) (clientId : Int)
    (body : CustomerCreate) :
    createOrUpdateCustomer io found db clientId body =
      match upsertCheck db clientId body with
      | .ok existingRow => upsertCommit io found db clientId body existingRow
      | .error answer => (db, answer) := by
  unfold createOrUpdateCustomer upsertCheck
  cases h : db.customers.filter fun customer => customer.clientId = clientId && customer.phone = body.phone with
  | nil => rfl
  | cons c rest =>
    cases rest with
    | cons c' rest => rfl
    | nil =>
      have hc : c ∈ db.database.customers.rows := by
        have hmem : c ∈ db.customers.filter fun customer => customer.clientId = clientId && customer.phone = body.phone := by
          rw [h]
          exact List.mem_singleton_self c
        exact List.mem_of_mem_filter (List.mem_of_mem_filter hmem)
      have hrows : ∀ r ∈ db.database.customers.rows,
          (setCustomer c.id (body.merge io.now) fun _ => ClientRouter.flushed_id rfl).row r =
            (setCustomer c.id (overwrite c (body.merge io.now c)) (overwrite_id _ _)).row r := by
        intro r hr
        by_cases hid : r.id = c.id
        · obtain rfl := Table.eq_of_key_eq hr hc hid
          rw [Update.row_of_guard (by simp [setCustomer]), Update.row_of_guard (by simp [setCustomer])]
          exact (overwrite_self body io.now r).symm
        · rw [Update.row_of_not_guard (by simp [setCustomer, hid]), Update.row_of_not_guard (by simp [setCustomer, hid])]
      have htable : db.database.customers.update (setCustomer c.id (body.merge io.now) fun _ => ClientRouter.flushed_id rfl) =
          db.database.customers.update (setCustomer c.id (overwrite c (body.merge io.now c)) (overwrite_id _ _)) := by
        simp only [Table.update, List.map_congr_left hrows]
      dsimp only [upsertCommit]
      rw [htable]

/-! ## All creates -/

/-- The creates with conflicting keys. There is one row for a key as soon as a request for it
has been answered with success or 409, and all requests get a documented answer exactly if
none commits an insert whose key has been taken since its check, and no commit, refresh or
audit row fails for a reason of its own. -/
theorem creates_resolve (bcrypt : Bcrypt) (database : Database) (as : List TwoStep.Act) :
    (∀ (requests : Nat → ClientCreation) (db : AdminWrites.Tables),
      Resolves (fun i => (requests i).handler) (fun i => clientGood (requests i)) (fun _ => clientDone)
        (fun i db => ∃! client, client ∈ db.clients.rows ∧ client.slug = some (requests i).body.slug)
        (fun i db _ => clientLate (requests i) db) db as) ∧
    (∀ (requests : Nat → UserCreation) (db : AdminWrites.Tables),
      Resolves (fun i => (requests i).handler bcrypt) (fun i => userGood (requests i)) (fun _ => userDone)
        (fun i db => ∃! user, user ∈ db.users.rows ∧ user.email = (requests i).body.email)
        (fun i db _ => userLate (requests i) db) db as) ∧
    (∀ (requests : Nat → CallCreation) (calls : Calls.CallTable),
      Resolves (fun i => (requests i).handler) (fun i => callGood (requests i)) (fun i => callGood (requests i))
        (fun i calls => ∃! call, call ∈ calls.rows ∧ call.callId = (requests i).body.callId)
        (fun i calls _ => callLate (requests i) calls) calls as) ∧
    ∀ (requests : Nat → Upsert) (customers : CustomerTable),
      Resolves (fun i => (requests i).handler database) (fun i => upsertGood (requests i)) (fun i => upsertGood (requests i))
        (fun i => oneCustomer (requests i)) (fun i => upsertLate (requests i)) customers as := by
  refine ⟨fun requests db => ?_, fun requests db => ?_, fun requests calls => ?_, fun requests customers => ?_⟩
  · exact creates_resolves (fun i => client_creates (requests i)) db as
  · exact creates_resolves (fun i => user_creates bcrypt (requests i)) db as
  · exact creates_resolves (fun i => call_creates (requests i)) calls as
  · exact resolves (upsert_rules database requests) (upsert_settles database requests) customers as

/-- Two requests for one slug. -/
def hotels (i : Nat) : ClientCreation where
  actor := Admin.superAdmin
  tenant := false
  body := { name := "Hotel", slug := "hotel" }
  eff := { now := 0, uuid4 := "u1", clientId := i, salt := "", fits := true }
  inserts := true

/-- Both find no row, and then both commit: the second is answered with a 500. -/
theorem second_hotel_raises :
    ¬∀ (requests : Nat → ClientCreation) (db : AdminWrites.Tables) (as : List TwoStep.Act),
      TwoStep.AllGood (fun i => clientGood (requests i))
        (run (TwoStep.step fun i => (requests i).handler) (.init db) as) := by
  intro h
  have hraised : (run (TwoStep.step fun i => (hotels i).handler) (.init Admin.noTables)
      [.check 1, .check 2, .commit 1, .commit 2]).stage 2 = .answered .raised := rfl
  exact (client_creates (hotels 2)).not_good (h hotels Admin.noTables _ 2 _ hraised)

end CallingAgent.Proof.Concurrent
