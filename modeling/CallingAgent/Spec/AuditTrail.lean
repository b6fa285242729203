import CallingAgent.Impl.AdminWrites

/-!
# The audit trail

What the audit rows of a run say about its entities: those of each chain from its
snapshot before the run to the one after it (`Replays`). Requests that differ only in
passwords are the same `withoutPassword`.
-/

namespace CallingAgent.Spec.AuditTrail

open CallingAgent.Framework CallingAgent.Impl CallingAgent.Impl.Auth CallingAgent.Impl.Reads CallingAgent.Impl.Admin
  CallingAgent.Impl.AdminWrites

/-! ## Entities -/

/-- What an audit row is about. A tenant is a client. -/
inductive Entity
  | client (id : Int)
  | user (id : String)
  deriving DecidableEq

def entity : Snapshot → Entity
  | .client snapshot => .client snapshot.id
  | .user snapshot => .user snapshot.userId

/-- The snapshot of the entity's row, if there is one. -/
def current (db : Tables) : Entity → Option Snapshot
  | .client id => (db.clients.lookup id).map fun client => .client (clientAuditSnapshot client)
  | .user id => (db.users.lookup id).map fun user => .user (userAuditSnapshot user)

/-- The audit row has a value of the entity. -/
def about (e : Entity) (row : AuditRow) : Bool := row.afterValue.any fun snapshot => entity snapshot = e

/-- The rows lead from one value to another: each starts where the one before it ends. -/
def Chain : Option Snapshot → List AuditRow → Option Snapshot → Prop
  | before, [], after => before = after
  | before, row :: rows, after => row.beforeValue = before ∧ Chain row.afterValue rows after

/-- The audit rows `rows` of a run from `start` to `db`: each is about an entity, and those of
an entity lead from its snapshot before the run to the one after it. -/
structure Replays (start : Tables) (rows : List AuditRow) (db : Tables) : Prop where
  auditLogs : db.auditLogs = start.auditLogs ++ rows
  ofEntity : ∀ row ∈ rows, ∃ e, about e row = true
  chain : ∀ e, Chain (current start e) (rows.filter (about e)) (current db e)

/-! ## Requests -/

/-- The user of the request is a super admin, and has a row. -/
def ByAdmin (db : Tables) (request : Request) : Prop :=
  ∃ actor id, request.authorization = some (some actor) ∧ actor.role = some "super_admin" ∧ actor.sub = some id ∧
    (db.users.lookup id).isSome

/-- The request is answered with an error, and leaves no trace. -/
def Rejected (bcrypt : Bcrypt) (inserts : Mutation → Bool) (db : Tables) (request : Request) : Prop :=
  (∀ reply, (serve bcrypt inserts db request).2 ≠ .ok reply) ∧ step bcrypt inserts db request = db

/-- The request succeeds, with one audit row more. -/
def Recorded (bcrypt : Bcrypt) (inserts : Mutation → Bool) (db : Tables) (request : Request) : Prop :=
  (∃ reply, (serve bcrypt inserts db request).2 = .ok reply) ∧
    ∃ row, (step bcrypt inserts db request).auditLogs = db.auditLogs ++ [row]

/-! ## Passwords -/

def withoutCreatePassword (body : UserCreate) : UserCreate :=
  { body with password := none, password_length := nofun }

def withoutUpdatePassword (body : UserUpdate) : UserUpdate :=
  { body with password := none, password_length := nofun }

/-- Parameters with a part left out; of errors, which can be about the password, all is. -/
def strip {α : Type} (f : α → α) : Params α → Params α
  | .ok a => .ok (f a)
  | .error _ => .error ""

def withoutPassword (request : Request) : Request :=
  { request with
    write :=
      match request.write with
      | .createUser body => .createUser (strip withoutCreatePassword body)
      | .updateUser userId body => .updateUser userId (strip withoutUpdatePassword body)
      | write => write }

end CallingAgent.Spec.AuditTrail
