import CallingAgent.Proof.Admin.Handlers
import CallingAgent.Spec.AuditTrail

/-!
# Passwords leave no trace in the audit rows

Without the hashes of the passwords a request does to the tables what it does without its
password (`step_bare`), so runs that differ only in passwords write the same audit rows
(`auditLogs_congr`).
-/

namespace CallingAgent.Proof.Admin

open CallingAgent.Framework CallingAgent.Impl CallingAgent.Impl.Auth CallingAgent.Impl.Reads CallingAgent.Impl.Admin
open CallingAgent.Impl.AdminWrites CallingAgent.Spec.AuditTrail

/-! ## What is left of an answer -/

/-- The body of a successful answer. -/
def okOf {α : Type} : Answer α → Option α
  | .ok a => some a
  | _ => none

section Answers

variable {α β γ : Type} {g : β → β} {k : γ → γ}

theorem okOf_bind {x : Answer α} {f f' : α → Answer γ} (h : ∀ a, okOf (f' a) = (okOf (f a)).map k) :
    okOf (x.bind f') = (okOf (x.bind f)).map k := by
  cases x with
  | ok a => exact h a
  | httpException statusCode detail => rfl
  | raised => rfl

theorem okOf_bind_map {x x' : Answer β} {f f' : β → Answer γ} (hx : okOf x' = (okOf x).map g)
    (h : ∀ a, okOf (f' (g a)) = (okOf (f a)).map k) : okOf (x'.bind f') = (okOf (x.bind f)).map k := by
  cases x with
  | ok a =>
    cases x' with
    | ok a' =>
      obtain rfl : a' = g a := Option.some.inj hx
      exact h a
    | httpException statusCode detail => cases hx
    | raised => cases hx
  | httpException statusCode detail =>
    cases x' with
    | ok a' => cases hx
    | httpException statusCode detail => rfl
    | raised => rfl
  | raised =>
    cases x' with
    | ok a' => cases hx
    | httpException statusCode detail => rfl
    | raised => rfl

theorem okOf_validated {params : Params β} {f f' : β → Answer γ} (h : ∀ a, okOf (f' a) = (okOf (f a)).map k) :
    okOf (validated params f') = (okOf (validated params f)).map k := by
  cases params with
  | ok a => exact h a
  | error errors => rfl

theorem okOf_validated_strip {params : Params β} {f f' : β → Answer γ} (h : ∀ a, okOf (f' (g a)) = (okOf (f a)).map k) :
    okOf (validated (strip g params) f') = (okOf (validated params f)).map k := by
  cases params with
  | ok a => exact h a
  | error errors => rfl

end Answers

/-! ## Tables without hashes -/

def hidePassword : Update AdminUser.id where
  guard _ := true
  set user := { user with passwordHash := none }

def bareTables (db : Tables) : Tables := { db with users := db.users.overwrite hidePassword fun _ => rfl }

def bareChange (change : Change) : Change := { change with users := change.users.update hidePassword }

def bareMutation (m : Mutation) : Mutation := ⟨m.actor, bareChange m.change, bareTables m.tables⟩

variable {bcrypt : Bcrypt} {eff : Effects} {db : Tables} {actor : Claims}

theorem insertClient_bare (action : String) (response : Client → Response) (body : ClientCreate) (plan : Plan) :
    okOf (insertClient action response eff (bareTables db) body plan) =
      (okOf (insertClient action response eff db body plan)).map bareChange := by
  have hclients : (bareTables db).clients = db.clients := rfl
  unfold insertClient
  dsimp only
  rw [hclients]
  cases db.clients.insert (body.client eff plan) with
  | none => rfl
  | some clients => rfl

theorem removeClient_bare (action notFound : String) (clientId : Int) :
    okOf (removeClient action notFound eff (bareTables db) clientId) =
      (okOf (removeClient action notFound eff db clientId)).map bareChange := by
  have hclients : (bareTables db).clients = db.clients := rfl
  unfold removeClient
  rw [hclients]
  cases db.clients.lookup clientId with
  | none => rfl
  | some client => rfl

theorem createUser_bare (body : UserCreate) :
    okOf (createUser bcrypt eff (bareTables db) (withoutCreatePassword body)) =
      (okOf (createUser bcrypt eff db body)).map bareChange := by
  have hcheck : (withoutCreatePassword body).check (bareTables db) = body.check db := by
    have hemail : ((bareTables db).users.rows.any fun user => user.email == body.email) =
        db.users.rows.any fun user => user.email == body.email := List.any_map
    unfold UserCreate.check withoutCreatePassword
    dsimp only
    rw [hemail]
    rfl
  unfold createUser
  rw [hcheck]
  refine okOf_bind fun role => ?_
  have hinsert : (bareTables db).users.toTable.insert ((withoutCreatePassword body).user bcrypt eff role) =
      (db.users.toTable.insert (body.user bcrypt eff role)).map (·.update hidePassword) :=
    Table.insert_update db.users.toTable hidePassword (body.user bcrypt eff role)
  unfold insertUser
  dsimp only
  rw [hinsert]
  cases db.users.toTable.insert (body.user bcrypt eff role) with
  | none => rfl
  | some users => rfl

theorem lookup_bare (db : Tables) (userId : String) :
    (bareTables db).users.lookup userId = (db.users.lookup userId).map hidePassword.row :=
  Table.lookup_update db.users.toTable hidePassword userId

/-- A change of a user that does the same without the hash. -/
theorem setUser_bare {userId : String} {f f' : AdminUser → AdminUser} {keeps : ∀ r, (f r).id = r.id}
    {keeps' : ∀ r, (f' r).id = r.id} (h : ∀ r, f' (hidePassword.row r) = hidePassword.row (f r)) (users : Users) :
    (users.update hidePassword).update (setUser userId f' keeps') =
      (users.update (setUser userId f keeps)).update hidePassword := by
  refine Table.update_update (fun r => ?_) users
  have hid : (hidePassword.row r).id = r.id := rfl
  by_cases hr : r.id = userId
  · have hguard : (setUser userId f keeps).guard r = true := (setUser_guard r).mpr hr
    have hguard' : (setUser userId f' keeps').guard (hidePassword.row r) = true := (setUser_guard _).mpr (hid.trans hr)
    rw [Update.row_of_guard hguard, Update.row_of_guard hguard']
    exact h r
  · have hguard : (setUser userId f keeps).guard r = false := Bool.eq_false_iff.mpr fun hg => hr ((setUser_guard r).mp hg)
    have hguard' : (setUser userId f' keeps').guard (hidePassword.row r) = false :=
      Bool.eq_false_iff.mpr fun hg => hr (hid.symm.trans ((setUser_guard _).mp hg))
    rw [Update.row_of_not_guard hguard, Update.row_of_not_guard hguard']

theorem updateUser_bare (userId : String) (body : UserUpdate) :
    okOf (AdminWrites.updateUser bcrypt eff (bareTables db) userId (withoutUpdatePassword body) actor) =
      (okOf (AdminWrites.updateUser bcrypt eff db userId body actor)).map bareChange := by
  have hrole : (withoutUpdatePassword body).role = body.role := rfl
  have hstatus : (withoutUpdatePassword body).status = body.status := rfl
  have hlookup := lookup_bare db userId
  unfold AdminWrites.updateUser Admin.updateUser requireSuperAdmin
  dsimp only
  rw [hlookup, hrole, hstatus]
  split
  · cases db.users.lookup userId with
    | none => rfl
    | some user =>
      dsimp only [Option.map_some]
      split
      · rfl
      · split
        · rfl
        · have husers : (bareTables db).users.toTable.update
              (setUser userId ((withoutUpdatePassword body).apply bcrypt eff.salt) fun _ => rfl) =
              (db.users.toTable.update (setUser userId (body.apply bcrypt eff.salt) fun _ => rfl)).update hidePassword :=
            setUser_bare (by intro _; rfl) db.users.toTable
          dsimp only [Answer.bind]
          rw [husers]
          rfl
  · rfl

theorem deleteUser_bare (userId : String) :
    okOf (AdminWrites.deleteUser (bareTables db) userId actor) =
      (okOf (AdminWrites.deleteUser db userId actor)).map bareChange := by
  have hlookup := lookup_bare db userId
  unfold AdminWrites.deleteUser Admin.deleteUser requireSuperAdmin
  dsimp only
  rw [hlookup]
  split
  · cases db.users.lookup userId with
    | none => rfl
    | some user =>
      have husers : (bareTables db).users.toTable.update (setUser userId suspend fun _ => rfl) =
          (db.users.toTable.update (setUser userId suspend fun _ => rfl)).update hidePassword :=
        setUser_bare (by intro _; rfl) db.users.toTable
      dsimp only [Option.map_some, Answer.bind]
      rw [husers, Table.lookup_update]
      cases (db.users.toTable.update (setUser userId suspend fun _ => rfl)).lookup userId with
      | none => rfl
      | some user => rfl
  · rfl

theorem handler_bare (authorization : Option Token) (w : Write) :
    okOf (handler bcrypt eff (bareTables db) actor (withoutPassword ⟨authorization, w, eff⟩).write) =
      (okOf (handler bcrypt eff db actor w)).map bareChange := by
  cases w with
  | createClient body => exact okOf_validated fun body => okOf_bind fun plan => insertClient_bare ..
  | createTenant body => exact okOf_validated fun body => okOf_bind fun plan => insertClient_bare ..
  | updateClient params => exact okOf_validated fun params => okOf_bind fun client => rfl
  | updateTenant params => exact okOf_validated fun params => okOf_bind fun client => rfl
  | deleteClient clientId => exact okOf_validated fun clientId => removeClient_bare ..
  | deleteTenant clientId => exact okOf_validated fun clientId => removeClient_bare ..
  | createUser body => exact okOf_validated_strip createUser_bare
  | updateUser userId body => exact okOf_validated_strip (updateUser_bare userId)
  | deleteUser userId => exact deleteUser_bare userId

/-! ## Requests -/

theorem commit_bare (change : Change) :
    commit eff (bareTables db) (bareChange change) = (commit eff db change).map bareTables := by
  have husers : (Indexed.check (bareChange change).users : Option (Indexed AdminUser.id fun user => some user.email)) =
      (Indexed.check change.users).map fun users => users.overwrite hidePassword fun _ => rfl :=
    Indexed.check_update change.users fun _ => rfl
  have hclients : (bareChange change).clients = change.clients := rfl
  unfold commit
  rw [husers, hclients]
  cases (Indexed.check change.clients : Option (Indexed Client.id Client.slug)) with
  | none => rfl
  | some clients =>
    cases (Indexed.check change.users : Option (Indexed AdminUser.id fun user => some user.email)) with
    | none => rfl
    | some users =>
      dsimp only [Option.map_some]
      split
      · rfl
      · rfl

theorem mutate_bare (request : Request) :
    okOf (mutate bcrypt (bareTables db) (withoutPassword request)) = (okOf (mutate bcrypt db request)).map bareMutation := by
  obtain ⟨authorization, w, eff⟩ := request
  unfold mutate
  refine okOf_bind fun actor => ?_
  unfold requireSuperAdmin
  split
  · refine okOf_bind_map (handler_bare authorization w) fun change => ?_
    dsimp only [withoutPassword]
    rw [commit_bare]
    cases commit eff db change with
    | none => rfl
    | some tables => rfl
  · rfl

theorem userIdExists_bare (m : Mutation) : userIdExists (bareMutation m) = userIdExists m := by
  have hlookup : ∀ id, ((bareMutation m).tables.users.lookup id).isSome = (m.tables.users.lookup id).isSome := by
    intro id
    exact (congrArg Option.isSome (lookup_bare m.tables id)).trans Option.isSome_map
  unfold userIdExists
  simp only [hlookup]
  rfl

/-- A request as far as its tables are concerned. -/
theorem step_eq (inserts : Mutation → Bool) (db : Tables) (request : Request) :
    step bcrypt inserts db request = ((okOf (mutate bcrypt db request)).map fun m => writeAuditLog (inserts m) m).getD db := by
  unfold step serve
  cases mutate bcrypt db request with
  | ok m => rfl
  | httpException statusCode detail => rfl
  | raised => rfl

theorem step_bare (db : Tables) (request : Request) :
    step bcrypt userIdExists (bareTables db) (withoutPassword request) = bareTables (step bcrypt userIdExists db request) := by
  rw [step_eq, step_eq, mutate_bare]
  cases okOf (mutate bcrypt db request) with
  | none => rfl
  | some m =>
    dsimp only [Option.map_some, Option.getD_some]
    rw [userIdExists_bare]
    unfold writeAuditLog
    split
    · rfl
    · rfl

theorem run_bare (db : Tables) (requests : List Request) :
    run (step bcrypt userIdExists) (bareTables db) (requests.map withoutPassword) =
      bareTables (run (step bcrypt userIdExists) db requests) := by
  induction requests generalizing db with
  | nil => rfl
  | cons request requests ih => rw [List.map_cons, run_cons, run_cons, step_bare, ih]

/-- Requests that differ only in passwords are audited alike. -/
theorem auditLogs_congr (db : Tables) {requests requests' : List Request}
    (h : requests'.map withoutPassword = requests.map withoutPassword) :
    (run (step bcrypt userIdExists) db requests').auditLogs = (run (step bcrypt userIdExists) db requests).auditLogs := by
  have hrun : bareTables (run (step bcrypt userIdExists) db requests') =
      bareTables (run (step bcrypt userIdExists) db requests) := by
    rw [← run_bare, ← run_bare, h]
  exact (congrArg Tables.auditLogs hrun :)

end CallingAgent.Proof.Admin
