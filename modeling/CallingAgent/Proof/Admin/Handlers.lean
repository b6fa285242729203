import CallingAgent.Impl.AdminWrites

/-!
# What the handlers of the administration commit

`Handled` has one constructor for each kind of change, with all that a handler has
checked; `handled` is the inversion of the nine handlers, and `mutate_eq_ok` and
`commit_eq_some` those of what stands around them.
-/

namespace CallingAgent.Proof.Admin

open CallingAgent.Framework CallingAgent.Impl CallingAgent.Impl.Auth CallingAgent.Impl.Reads CallingAgent.Impl.Admin
open CallingAgent.Impl.AdminWrites

variable {bcrypt : Bcrypt} {eff : Effects} {db db' : Tables} {actor : Claims} {w : Write} {change : Change}

/-! ## Around the handlers -/

theorem requireSuperAdmin_eq_ok {α : Type} {user : Claims} {next : Answer α} {a : α} :
    requireSuperAdmin user .httpException next = .ok a ↔ user.role = some "super_admin" ∧ next = .ok a := by
  unfold requireSuperAdmin
  split
  · rename_i h
    exact ⟨fun e => ⟨h, e⟩, fun e => e.2⟩
  · rename_i h
    exact ⟨fun e => (by cases e), fun e => absurd e.1 h⟩

theorem validated_eq_ok {α β : Type} {params : Params α} {next : α → Answer β} {b : β} :
    validated params next = .ok b ↔ ∃ a, params = .ok a ∧ next a = .ok b := by
  cases params with
  | ok a => simp [validated]
  | error errors => simp [validated]

theorem commit_eq_some :
    commit eff db change = some db' ↔
      eff.fits = true ∧ db'.clients.toTable = change.clients ∧ db'.users.toTable = change.users ∧
        db'.auditLogs = db.auditLogs := by
  unfold commit
  constructor
  · intro h
    split at h
    · rename_i clients users hc hu
      split at h
      · rename_i hfits
        rw [← Option.some.inj h]
        exact ⟨hfits, Indexed.check_eq_some.mp hc, Indexed.check_eq_some.mp hu, rfl⟩
      · cases h
    · cases h
  · intro h
    obtain ⟨hfits, hc, hu, hlogs⟩ := h
    rw [Indexed.check_eq_some.mpr hc, Indexed.check_eq_some.mpr hu]
    simp only [hfits, if_true]
    rw [← hlogs]

theorem mutate_eq_ok {request : Request} {m : Mutation} :
    mutate bcrypt db request = .ok m ↔
      getCurrentUser request.eff.now request.authorization = .ok m.actor ∧ m.actor.role = some "super_admin" ∧
        handler bcrypt request.eff db m.actor request.write = .ok m.change ∧
          commit request.eff db m.change = some m.tables := by
  simp only [mutate, Answer.bind_eq_ok, requireSuperAdmin_eq_ok]
  constructor
  · intro h
    obtain ⟨actor, hactor, hrole, change, hchange, h⟩ := h
    split at h
    · rename_i tables hcommit
      rw [← Answer.ok.inj h]
      exact ⟨hactor, hrole, hchange, hcommit⟩
    · cases h
  · intro h
    obtain ⟨hactor, hrole, hchange, hcommit⟩ := h
    exact ⟨m.actor, hactor, hrole, m.change, hchange, by rw [hcommit]⟩

theorem setClient_guard {clientId : Int} {f : Client → Client} {keeps : ∀ r, (f r).id = r.id} (r : Client) :
    (setClient clientId f keeps).guard r = true ↔ r.id = clientId := beq_iff_eq

theorem setUser_guard {userId : String} {f : AdminUser → AdminUser} {keeps : ∀ r, (f r).id = r.id} (r : AdminUser) :
    (setUser userId f keeps).guard r = true ↔ r.id = userId := beq_iff_eq

/-! ## The handlers -/

/-- The `action` of the request's audit row. -/
def action : Write → String
  | .createClient _ => "client.create"
  | .updateClient _ => "client.update"
  | .deleteClient _ => "client.delete"
  | .createTenant _ => "tenant.create"
  | .updateTenant _ => "tenant.update"
  | .deleteTenant _ => "tenant.delete"
  | .createUser _ => "user.create"
  | .updateUser _ _ => "user.update"
  | .deleteUser _ => "user.delete"

/-- What the handler of a request is about to commit. -/
inductive Handled (bcrypt : Bcrypt) (eff : Effects) (db : Tables) : Write → Change → Prop
  | insertClient {w : Write} {body : ClientCreate} {plan : Plan} {clients : Table Client.id} (response : Client → Response)
      (hw : w = .createClient (.ok body) ∨ w = .createTenant (.ok body)) (hcheck : body.check db = .ok plan)
      (hinsert : db.clients.insert (body.client eff plan) = some clients) :
      Handled bcrypt eff db w
        (clientChange db clients (action w) none (body.client eff plan) ⟨201, some (response (body.client eff plan))⟩)
  | replaceClient {w : Write} {clientId : Int} {body : ClientUpdate} {client : Client} (response : Client → Response)
      (notFound : String) (hw : w = .updateClient (.ok (clientId, body)) ∨ w = .updateTenant (.ok (clientId, body)))
      (hcheck : body.check notFound db clientId = .ok client) :
      Handled bcrypt eff db w
        (clientChange db (db.clients.update (setClient client.id (body.apply eff.now) fun _ => touched_id rfl)) (action w)
          (some client) (body.apply eff.now client) ⟨200, some (response (body.apply eff.now client))⟩)
  | removeClient {w : Write} {clientId : Int} {client : Client}
      (hw : w = .deleteClient (.ok clientId) ∨ w = .deleteTenant (.ok clientId))
      (hclient : db.clients.lookup clientId = some client) :
      Handled bcrypt eff db w
        (clientChange db (db.clients.update (setClient clientId (deactivate eff.now) fun _ => touched_id rfl)) (action w)
          (some client) (deactivate eff.now client) ⟨204, none⟩)
  | insertUser {body : UserCreate} {role : UserRole} {users : Users} (hcheck : body.check db = .ok role)
      (hinsert : db.users.insert (body.user bcrypt eff role) = some users) :
      Handled bcrypt eff db (.createUser (.ok body))
        (userChange db users "user.create" none (some (body.user bcrypt eff role))
          ⟨201, some (.user (userToResponse (body.user bcrypt eff role)))⟩)
  | replaceUser {userId : String} {body : UserUpdate} {user : AdminUser} (huser : db.users.lookup userId = some user) :
      Handled bcrypt eff db (.updateUser userId (.ok body))
        (userChange db (db.users.update (setUser userId (body.apply bcrypt eff.salt) fun _ => rfl)) "user.update"
          (some user) (some (body.apply bcrypt eff.salt user))
          ⟨200, some (.user (userToResponse (body.apply bcrypt eff.salt user)))⟩)
  | suspendUser {userId : String} {user : AdminUser} (huser : db.users.lookup userId = some user) :
      Handled bcrypt eff db (.deleteUser userId)
        (userChange db (db.users.update (setUser userId suspend fun _ => rfl)) "user.delete" (some user)
          (some (suspend user)) ⟨204, none⟩)

theorem createRow_eq_ok {name : String} {response : Client → Response} {body : ClientCreate} {w : Write}
    (hw : w = .createClient (.ok body) ∨ w = .createTenant (.ok body)) (hname : action w = name)
    (h : (body.check db).bind (insertClient name response eff db body) = .ok change) : Handled bcrypt eff db w change := by
  obtain ⟨plan, hcheck, h⟩ := Answer.bind_eq_ok.mp h
  unfold insertClient at h
  dsimp only at h
  split at h
  · cases h
  · rename_i clients hinsert
    rw [← Answer.ok.inj h, ← hname]
    exact .insertClient response hw hcheck hinsert

theorem updateRow_eq_ok {name notFound : String} {response : Client → Response} {clientId : Int} {body : ClientUpdate}
    {w : Write} (hw : w = .updateClient (.ok (clientId, body)) ∨ w = .updateTenant (.ok (clientId, body)))
    (hname : action w = name)
    (h : (body.check notFound db clientId).bind (replaceClient name response eff db body) = .ok change) :
    Handled bcrypt eff db w change := by
  obtain ⟨client, hcheck, h⟩ := Answer.bind_eq_ok.mp h
  rw [← Answer.ok.inj h, ← hname]
  exact .replaceClient response notFound hw hcheck

theorem deleteRow_eq_ok {name notFound : String} {clientId : Int} {w : Write}
    (hw : w = .deleteClient (.ok clientId) ∨ w = .deleteTenant (.ok clientId)) (hname : action w = name)
    (h : removeClient name notFound eff db clientId = .ok change) : Handled bcrypt eff db w change := by
  unfold removeClient at h
  split at h
  · cases h
  · rename_i client hclient
    rw [← Answer.ok.inj h, ← hname]
    exact .removeClient hw hclient

theorem createUser_eq_ok {body : UserCreate} (h : createUser bcrypt eff db body = .ok change) :
    Handled bcrypt eff db (.createUser (.ok body)) change := by
  obtain ⟨role, hcheck, h⟩ := Answer.bind_eq_ok.mp h
  unfold insertUser at h
  dsimp only at h
  split at h
  · cases h
  · rename_i users hinsert
    rw [← Answer.ok.inj h]
    exact .insertUser hcheck hinsert

theorem admin_updateUser_cases (bcrypt : Bcrypt) (salt : String) (users : Users) (userId : String) (body : UserUpdate)
    (actor : Claims) :
    (∃ statusCode detail,
      Admin.updateUser bcrypt salt users userId body actor = (users, .httpException statusCode detail)) ∨
    ∃ user, users.lookup userId = some user ∧
      Admin.updateUser bcrypt salt users userId body actor =
        (users.update (setUser userId (body.apply bcrypt salt) fun _ => rfl), .ok (body.apply bcrypt salt user)) := by
  unfold Admin.updateUser requireSuperAdmin
  by_cases hrole : actor.role = some "super_admin"
  · rw [if_pos hrole]
    cases huser : users.lookup userId with
    | none => exact .inl ⟨404, _, rfl⟩
    | some user =>
      by_cases hr : (body.role.any fun role => (userRole role).isNone) = true
      · exact .inl ⟨400, _, if_pos hr⟩
      · by_cases hs : (body.status.any fun status => (userStatus status).isNone) = true
        · exact .inl ⟨400, _, (if_neg hr).trans (if_pos hs)⟩
        · exact .inr ⟨user, rfl, (if_neg hr).trans (if_neg hs)⟩
  · exact .inl ⟨403, _, if_neg hrole⟩

theorem admin_deleteUser_cases (users : Users) (userId : String) (actor : Claims) :
    (∃ statusCode detail, Admin.deleteUser users userId actor = (users, .httpException statusCode detail)) ∨
    ∃ user, users.lookup userId = some user ∧
      Admin.deleteUser users userId actor = (users.update (setUser userId suspend fun _ => rfl), .ok ()) := by
  unfold Admin.deleteUser requireSuperAdmin
  by_cases hrole : actor.role = some "super_admin"
  · rw [if_pos hrole]
    cases huser : users.lookup userId with
    | none => exact .inl ⟨404, _, rfl⟩
    | some user => exact .inr ⟨user, rfl, rfl⟩
  · exact .inl ⟨403, _, if_neg hrole⟩

theorem updateUser_eq_ok {userId : String} {body : UserUpdate}
    (h : updateUser bcrypt eff db userId body actor = .ok change) :
    Handled bcrypt eff db (.updateUser userId (.ok body)) change := by
  unfold AdminWrites.updateUser at h
  obtain ⟨statusCode, detail, e⟩ | ⟨user, huser, e⟩ :=
    admin_updateUser_cases bcrypt eff.salt db.users.toTable userId body actor
  · rw [e] at h
    cases h
  · rw [e, huser] at h
    rw [← Answer.ok.inj h]
    exact .replaceUser huser

theorem deleteUser_eq_ok {userId : String} (h : deleteUser db userId actor = .ok change) :
    Handled bcrypt eff db (.deleteUser userId) change := by
  unfold AdminWrites.deleteUser at h
  obtain ⟨statusCode, detail, e⟩ | ⟨user, huser, e⟩ := admin_deleteUser_cases db.users.toTable userId actor
  · rw [e] at h
    cases h
  · have hnew : (db.users.update (setUser userId suspend fun _ => rfl)).lookup userId = some (suspend user) := by
      refine (Table.lookup_update_key setUser_guard userId).trans ?_
      rw [if_pos rfl, huser]
      rfl
    rw [e, huser] at h
    dsimp only at h
    rw [hnew] at h
    rw [← Answer.ok.inj h]
    exact .suspendUser huser

/-- What a handler commits is of its kind. -/
theorem handled (h : handler bcrypt eff db actor w = .ok change) : Handled bcrypt eff db w change := by
  cases w with
  | createClient params =>
    obtain ⟨body, rfl, h⟩ := validated_eq_ok.mp h
    exact createRow_eq_ok (.inl rfl) rfl h
  | createTenant params =>
    obtain ⟨body, rfl, h⟩ := validated_eq_ok.mp h
    exact createRow_eq_ok (.inr rfl) rfl h
  | updateClient params =>
    obtain ⟨⟨clientId, body⟩, rfl, h⟩ := validated_eq_ok.mp h
    exact updateRow_eq_ok (.inl rfl) rfl h
  | updateTenant params =>
    obtain ⟨⟨clientId, body⟩, rfl, h⟩ := validated_eq_ok.mp h
    exact updateRow_eq_ok (.inr rfl) rfl h
  | deleteClient params =>
    obtain ⟨clientId, rfl, h⟩ := validated_eq_ok.mp h
    exact deleteRow_eq_ok (.inl rfl) rfl h
  | deleteTenant params =>
    obtain ⟨clientId, rfl, h⟩ := validated_eq_ok.mp h
    exact deleteRow_eq_ok (.inr rfl) rfl h
  | createUser params =>
    obtain ⟨body, rfl, h⟩ := validated_eq_ok.mp h
    exact createUser_eq_ok h
  | updateUser userId params =>
    obtain ⟨body, rfl, h⟩ := validated_eq_ok.mp h
    exact updateUser_eq_ok h
  | deleteUser userId => exact deleteUser_eq_ok h

end CallingAgent.Proof.Admin
