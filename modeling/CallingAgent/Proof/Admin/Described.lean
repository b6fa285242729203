import CallingAgent.Proof.Admin.Handlers
import CallingAgent.Spec.AuditTrail

/-!
# What an audit row describes

A mutation changes the row of one entity, from the snapshot before to the snapshot after in
its audit row (`describes`). A user who has a row keeps it, so the database takes the audit
rows of a super admin of its own (`inserts_of_user`).
-/

namespace CallingAgent.Proof.Admin

open CallingAgent.Framework CallingAgent.Impl CallingAgent.Impl.Auth CallingAgent.Impl.Reads CallingAgent.Impl.Admin
open CallingAgent.Impl.AdminWrites CallingAgent.Spec.AuditTrail

variable {bcrypt : Bcrypt} {eff : Effects} {db db' : Tables} {actor : Claims} {w : Write} {change : Change}

/-- The audit row of a request: who made it, its action, and what became of one entity. -/
structure Describes (actor : Claims) (w : Write) (db db' : Tables) (row : AuditRow) : Prop where
  userId : row.userId = actor.sub
  action : row.action = action w
  changed : ∃ e, about e row = true ∧ row.beforeValue = current db e ∧ row.afterValue = current db' e ∧
    ∀ e' ≠ e, current db' e' = current db e'

/-- The snapshots of two tables. -/
def snapshots (clients : Table Client.id) (users : Users) : Entity → Option Snapshot
  | .client id => (clients.lookup id).map fun client => .client (clientAuditSnapshot client)
  | .user id => (users.lookup id).map fun user => .user (userAuditSnapshot user)

theorem current_eq (db : Tables) : current db = snapshots db.clients.toTable db.users.toTable := by
  funext e
  cases e <;> rfl

theorem current_client {clientId : Int} {client : Client} (h : db.clients.lookup clientId = some client) :
    current db (.client clientId) = some (.client (clientAuditSnapshot client)) := by
  simp only [current, h, Option.map_some]

theorem current_user {userId : String} {user : AdminUser} (h : db.users.lookup userId = some user) :
    current db (.user userId) = some (.user (userAuditSnapshot user)) := by
  simp only [current, h, Option.map_some]

/-- The row that `ClientUpdate.check` gives. -/
theorem check_lookup {body : ClientUpdate} {notFound : String} {clientId : Int} {client : Client}
    (h : body.check notFound db clientId = .ok client) : db.clients.lookup clientId = some client := by
  unfold ClientUpdate.check at h
  split at h
  · cases h
  · rename_i row hrow
    split at h
    · cases h
    · split at h
      · cases h
      · split at h
        · cases h
        · rw [hrow, Answer.ok.inj h]

section Changes

variable {clients : Table Client.id} {users : Users}

theorem snapshots_insertClient {clients' : Table Client.id} {client : Client} (h : clients.insert client = some clients')
    (e : Entity) : snapshots clients' users e =
      if e = .client client.id then some (.client (clientAuditSnapshot client)) else snapshots clients users e := by
  cases e with
  | client id =>
    simp only [snapshots, Table.lookup_insert h, Entity.client.injEq, eq_comm (a := id)]
    split <;> rfl
  | user id => rfl

theorem snapshots_setClient {clientId : Int} {f : Client → Client} {keeps : ∀ r, (f r).id = r.id} {client : Client}
    (h : clients.lookup clientId = some client) (e : Entity) :
    snapshots (clients.update (setClient clientId f keeps)) users e =
      if e = .client clientId then some (.client (clientAuditSnapshot (f client))) else snapshots clients users e := by
  cases e with
  | client id =>
    simp only [snapshots, Table.lookup_update_key setClient_guard, Entity.client.injEq]
    split
    · rename_i hid
      rw [hid, h]
      rfl
    · rfl
  | user id => rfl

theorem snapshots_insertUser {users' : Users} {user : AdminUser} (h : users.insert user = some users') (e : Entity) :
    snapshots clients users' e =
      if e = .user user.id then some (.user (userAuditSnapshot user)) else snapshots clients users e := by
  cases e with
  | client id => rfl
  | user id =>
    simp only [snapshots, Table.lookup_insert h, Entity.user.injEq, eq_comm (a := id)]
    split <;> rfl

theorem snapshots_setUser {userId : String} {f : AdminUser → AdminUser} {keeps : ∀ r, (f r).id = r.id} {user : AdminUser}
    (h : users.lookup userId = some user) (e : Entity) :
    snapshots clients (users.update (setUser userId f keeps)) e =
      if e = .user userId then some (.user (userAuditSnapshot (f user))) else snapshots clients users e := by
  cases e with
  | client id => rfl
  | user id =>
    simp only [snapshots, Table.lookup_update_key setUser_guard, Entity.user.injEq]
    split
    · rename_i hid
      rw [hid, h]
      rfl
    · rfl

end Changes

/-! ## Mutations -/

theorem about_iff {e : Entity} {row : AuditRow} :
    about e row = true ↔ ∃ snapshot, row.afterValue = some snapshot ∧ entity snapshot = e := by
  unfold about
  cases row.afterValue with
  | none => simp
  | some snapshot => simp

/-- A row is about one entity. -/
theorem about_unique {e e' : Entity} {row : AuditRow} (h : about e row = true) (h' : about e' row = true) : e = e' := by
  obtain ⟨snapshot, hs, rfl⟩ := about_iff.mp h
  obtain ⟨snapshot', hs', rfl⟩ := about_iff.mp h'
  rw [hs] at hs'
  rw [Option.some.inj hs']

/-- A change sets the snapshot of one entity. -/
structure Sets (w : Write) (db : Tables) (change : Change) (e : Entity) (snapshot : Snapshot) : Prop where
  action : change.action = action w
  entity : entity snapshot = e
  before : change.before = current db e
  after : change.after = some snapshot
  snapshots : ∀ e', snapshots change.clients change.users e' = if e' = e then some snapshot else current db e'

theorem sets_of_handled (h : Handled bcrypt eff db w change) : ∃ e snapshot, Sets w db change e snapshot := by
  cases h with
  | @insertClient w body plan clients response hw hcheck hinsert =>
    have hfree : db.clients.lookup (body.client eff plan).id = none := (Table.insert_eq_some hinsert).1
    refine ⟨.client (body.client eff plan).id, _, rfl, rfl, ?_, rfl, fun e' => ?_⟩
    · exact (congrArg (Option.map _) hfree).symm
    · rw [current_eq]
      exact snapshots_insertClient hinsert e'
  | @replaceClient w clientId body client response notFound hw hcheck =>
    have hfound := check_lookup hcheck
    have hclient : db.clients.lookup client.id = some client := Table.lookup_of_mem (Table.lookup_mem hfound)
    refine ⟨.client client.id, .client (clientAuditSnapshot (body.apply eff.now client)), rfl, ?_, ?_, rfl, fun e' => ?_⟩
    · exact congrArg Entity.client (touched_id rfl)
    · exact (current_client hclient).symm
    · rw [current_eq]
      exact snapshots_setClient hclient e'
  | @removeClient w clientId client hw hclient =>
    have hid : client.id = clientId := Table.lookup_key hclient
    refine ⟨.client clientId, .client (clientAuditSnapshot (deactivate eff.now client)), rfl, ?_, ?_, rfl, fun e' => ?_⟩
    · have htouched : (deactivate eff.now client).id = client.id := touched_id rfl
      exact congrArg Entity.client (htouched.trans hid)
    · exact (current_client hclient).symm
    · rw [current_eq]
      exact snapshots_setClient hclient e'
  | @insertUser body role users hcheck hinsert =>
    have hfree : db.users.lookup (body.user bcrypt eff role).id = none := (Table.insert_eq_some hinsert).1
    refine ⟨.user (body.user bcrypt eff role).id, _, rfl, rfl, ?_, rfl, fun e' => ?_⟩
    · exact (congrArg (Option.map _) hfree).symm
    · rw [current_eq]
      exact snapshots_insertUser hinsert e'
  | @replaceUser userId body user huser =>
    refine ⟨.user userId, .user (userAuditSnapshot (body.apply bcrypt eff.salt user)), rfl, ?_, ?_, rfl, fun e' => ?_⟩
    · have hid : user.id = userId := Table.lookup_key huser
      exact congrArg Entity.user hid
    · exact (current_user huser).symm
    · rw [current_eq]
      exact snapshots_setUser huser e'
  | @suspendUser userId user huser =>
    refine ⟨.user userId, .user (userAuditSnapshot (suspend user)), rfl, ?_, ?_, rfl, fun e' => ?_⟩
    · have hid : user.id = userId := Table.lookup_key huser
      exact congrArg Entity.user hid
    · exact (current_user huser).symm
    · rw [current_eq]
      exact snapshots_setUser huser e'

/-- The audit row of a mutation describes it. -/
theorem describes {request : Request} {m : Mutation} (h : mutate bcrypt db request = .ok m) :
    Describes m.actor request.write db m.tables m.auditRow := by
  obtain ⟨-, -, hchange, hcommit⟩ := mutate_eq_ok.mp h
  obtain ⟨-, hclients, husers, -⟩ := commit_eq_some.mp hcommit
  obtain ⟨e, snapshot, hsets⟩ := sets_of_handled (handled hchange)
  have hcurrent : ∀ e', current m.tables e' = if e' = e then some snapshot else current db e' := by
    intro e'
    rw [current_eq m.tables, hclients, husers]
    exact hsets.snapshots e'
  refine ⟨rfl, hsets.action, e, ?_, hsets.before, ?_, fun e' he => ?_⟩
  · exact about_iff.mpr ⟨snapshot, hsets.after, hsets.entity⟩
  · rw [hcurrent e, if_pos rfl]
    exact hsets.after
  · rw [hcurrent e', if_neg he]

/-- What has a snapshot keeps having one. -/
theorem Describes.isSome {row : AuditRow} (h : Describes actor w db db' row) {e : Entity} (he : (current db e).isSome) :
    (current db' e).isSome := by
  obtain ⟨e', habout, -, hafter, hother⟩ := h.changed
  by_cases hsame : e = e'
  · obtain ⟨snapshot, hs, -⟩ := about_iff.mp habout
    rw [hsame, ← hafter, hs]
    rfl
  · rw [hother e hsame]
    exact he

theorem isSome_current_user {id : String} : (current db (.user id)).isSome = (db.users.lookup id).isSome := Option.isSome_map

/-- The database takes the audit row of a user who has a row before the request. -/
theorem inserts_of_user {request : Request} {m : Mutation} {id : String} (h : mutate bcrypt db request = .ok m)
    (hsub : m.actor.sub = some id) (hid : (db.users.lookup id).isSome) : userIdExists m = true := by
  rw [← isSome_current_user] at hid
  have hkept := (describes h).isSome hid
  rw [isSome_current_user] at hkept
  unfold userIdExists
  rw [hsub]
  exact hkept

end CallingAgent.Proof.Admin
