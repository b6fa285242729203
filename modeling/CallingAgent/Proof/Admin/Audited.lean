import CallingAgent.Impl.AdminSessions
import CallingAgent.Proof.Admin.AuditTrail

/-!
# Whose changes are audited

The audit row of a request is refused by its foreign key if no user has the id of the token.
A login that found a user gives out an id that stays; the break-glass login gives out its
email address. So the changes of a run are all audited exactly if each can be attributed
(`changes_audited_iff`).
-/

namespace CallingAgent.Proof.Admin

open CallingAgent.Framework CallingAgent.Impl CallingAgent.Impl.Auth CallingAgent.Impl.Reads CallingAgent.Impl.Admin
open CallingAgent.Impl.AdminWrites CallingAgent.Spec.AuditTrail
open CallingAgent.Impl.AdminSessions (Login World)

/-- A request that is committed leaves one audit row more, which describes it. -/
def Audited (bcrypt : Bcrypt) (w : World) : AdminSessions.Action → Prop
  | .login _ _ => True
  | .request k write eff => ∀ login m, w.logins[k]? = some login → mutate bcrypt w.tables (login.request write eff) = .ok m →
      ∃ row, (AdminWrites.step bcrypt userIdExists w.tables (login.request write eff)).auditLogs =
          w.tables.auditLogs ++ [row] ∧
        Describes login.accessToken write w.tables m.tables row

/-- The request creates a user of this id. -/
def CreatesUser (w : Write) (eff : Effects) (id : String) : Prop := ∃ body, w = .createUser (.ok body) ∧ eff.uuid4 = id

/-- The request is no break-glass request, or there is a user whose id is the email address
of the break-glass login, if only the one that the request creates. -/
def Attributable (cfg : Config) (bcrypt : Bcrypt) (w : World) : AdminSessions.Action → Prop
  | .login _ _ => True
  | .request k write eff => ∀ login, w.logins[k]? = some login → Passes bcrypt w.tables (login.request write eff) →
      login.user ≠ none ∨ (w.tables.users.lookup cfg.apiAdminEmail).isSome ∨
        CreatesUser write eff cfg.apiAdminEmail

variable {cfg : Config} {bcrypt : Bcrypt} {db : Tables} {w : World} {request : Request} {m : Mutation} {id : String}

/-! ## Users -/

theorem isSome_setUser {users : Users} {userId : String} {f : AdminUser → AdminUser} {keeps : ∀ r, (f r).id = r.id} :
    ((users.update (setUser userId f keeps)).lookup id).isSome = (users.lookup id).isSome := by
  rw [Table.lookup_update, Option.isSome_map]

/-- Users come only by `create_user`, and none goes. -/
theorem lookup_handled {eff : Effects} {write : Write} {change : Change}
    (h : Handled bcrypt eff db write change) (id : String) :
    (change.users.lookup id).isSome ↔ (db.users.lookup id).isSome ∨ CreatesUser write eff id := by
  have hnot : (∀ body, write ≠ .createUser body) → ¬CreatesUser write eff id :=
    fun hw hcreates => hcreates.elim fun body hb => hw _ hb.1
  cases h with
  | insertClient response hw hcheck hinsert =>
    exact (or_iff_left (hnot fun body e => by rcases hw with hw | hw <;> cases hw.symm.trans e)).symm
  | replaceClient response notFound hw hcheck =>
    exact (or_iff_left (hnot fun body e => by rcases hw with hw | hw <;> cases hw.symm.trans e)).symm
  | removeClient hw hclient =>
    exact (or_iff_left (hnot fun body e => by rcases hw with hw | hw <;> cases hw.symm.trans e)).symm
  | @insertUser body role users hcheck hinsert =>
    show (users.lookup id).isSome ↔ _
    rw [Table.lookup_insert hinsert]
    by_cases hid : (body.user bcrypt eff role).id = id
    · exact iff_of_true (by rw [if_pos hid]; rfl) (.inr ⟨body, rfl, hid⟩)
    · rw [if_neg hid]
      exact (or_iff_left fun hcreates => hid (hcreates.elim fun _ hb => hb.2)).symm
  | replaceUser huser =>
    refine Iff.trans ?_ (or_iff_left (hnot fun body e => by cases e)).symm
    exact Bool.eq_iff_iff.mp isSome_setUser
  | suspendUser huser =>
    refine Iff.trans ?_ (or_iff_left (hnot fun body e => by cases e)).symm
    exact Bool.eq_iff_iff.mp isSome_setUser

theorem lookup_mutate (h : mutate bcrypt db request = .ok m) (id : String) :
    (m.tables.users.lookup id).isSome ↔ (db.users.lookup id).isSome ∨ CreatesUser request.write request.eff id := by
  obtain ⟨-, -, hchange, hcommit⟩ := mutate_eq_ok.mp h
  obtain ⟨-, -, husers, -⟩ := commit_eq_some.mp hcommit
  have hlookup : m.tables.users.lookup id = m.change.users.lookup id := congrArg (Table.lookup · id) husers
  rw [hlookup]
  exact lookup_handled (handled hchange) id

/-- A user who has a row keeps it. -/
theorem user_step (bcrypt : Bcrypt) (inserts : Mutation → Bool) (request : Request) (h : (db.users.lookup id).isSome) :
    ((AdminWrites.step bcrypt inserts db request).users.lookup id).isSome := by
  unfold AdminWrites.step serve
  cases hm : mutate bcrypt db request with
  | ok m =>
    have hkept := (lookup_mutate hm id).mpr (.inl h)
    dsimp only [writeAuditLog]
    split
    · exact hkept
    · exact hkept
  | httpException statusCode detail => exact h
  | raised => exact h

/-! ## Logins -/

/-- The token names the user that the login found, who still has a row, or the email address
of the break-glass login. -/
def Known (cfg : Config) (db : Tables) (login : Login) : Prop :=
  (∃ user, login.user = some user ∧ login.accessToken.sub = some user.id ∧ (db.users.lookup user.id).isSome) ∨
    login.user = none ∧ login.accessToken.sub = some cfg.apiAdminEmail

/-- A break-glass login is one with the configured email address. -/
theorem login_breakGlass {users : Users} {body : LoginRequest} {now : Time} {tokens : TokenResponse}
    (hnone : userOf users body = none) (h : login cfg bcrypt users body now = .ok tokens) :
    body.email = cfg.apiAdminEmail := by
  unfold login at h
  rw [hnone] at h
  dsimp only at h
  split at h
  · rename_i hconfigured
    exact hconfigured.2.2
  · cases h

theorem known_login {body : LoginRequest} {now : Time} {tokens : TokenResponse}
    (h : login cfg bcrypt db.users.toTable body now = .ok tokens) :
    Known cfg db ⟨userOf db.users.toTable body, tokens.accessToken⟩ := by
  obtain ⟨user, huser, -, rfl⟩ | ⟨hnone, rfl⟩ := Auth.login_cases h
  · have hmem : user ∈ db.users.rows := List.mem_of_find?_eq_some huser
    have hlookup : db.users.lookup user.id = some user := Table.lookup_of_mem hmem
    exact .inl ⟨user, huser, rfl, by rw [hlookup]; rfl⟩
  · exact .inr ⟨hnone, congrArg some (login_breakGlass hnone h)⟩

theorem known_step (w : World) (a : AdminSessions.Action) (h : ∀ login ∈ w.logins, Known cfg w.tables login) :
    ∀ login ∈ (AdminSessions.step cfg bcrypt w a).logins, Known cfg (AdminSessions.step cfg bcrypt w a).tables login := by
  cases a with
  | login body now =>
    unfold AdminSessions.step
    dsimp only
    split
    · rename_i tokens htokens
      intro login hlogin
      rcases List.mem_append.mp hlogin with hlogin | hlogin
      · exact h login hlogin
      · rw [List.mem_singleton.mp hlogin]
        exact known_login htokens
    · exact h
  | request k write eff =>
    unfold AdminSessions.step
    dsimp only
    split
    · intro login hlogin
      obtain ⟨user, huser, hsub, hrow⟩ | hbreakGlass := h login hlogin
      · exact .inl ⟨user, huser, hsub, user_step bcrypt userIdExists _ hrow⟩
      · exact .inr hbreakGlass
    · exact h

/-! ## Requests -/

/-- The audit row of a mutation is there exactly if the database takes it. -/
theorem recorded_iff (h : mutate bcrypt db request = .ok m) :
    (∃ row, (AdminWrites.step bcrypt userIdExists db request).auditLogs = db.auditLogs ++ [row] ∧
      Describes m.actor request.write db m.tables row) ↔ userIdExists m = true := by
  obtain ⟨-, -, -, hcommit⟩ := mutate_eq_ok.mp h
  obtain ⟨-, -, -, hlogs⟩ := commit_eq_some.mp hcommit
  have hstep : (AdminWrites.step bcrypt userIdExists db request).auditLogs =
      if userIdExists m then db.auditLogs ++ [m.auditRow] else db.auditLogs := by
    unfold AdminWrites.step serve writeAuditLog
    rw [h]
    dsimp only
    split
    · rw [← hlogs]
    · exact hlogs
  rw [hstep]
  constructor
  · intro hrow
    obtain ⟨row, hrow, -⟩ := hrow
    by_contra hnot
    rw [if_neg hnot] at hrow
    exact absurd (List.self_eq_append_right.mp hrow) (List.cons_ne_nil row [])
  · intro hinserts
    exact ⟨m.auditRow, if_pos hinserts, describes h⟩

/-- A token of the break-glass login is taken if its email address is the id of a user. -/
theorem inserts_iff {login : Login} (hlogin : Known cfg db login) (hactor : m.actor = login.accessToken)
    (h : mutate bcrypt db request = .ok m) :
    userIdExists m = true ↔
      login.user ≠ none ∨ (db.users.lookup cfg.apiAdminEmail).isSome ∨
        CreatesUser request.write request.eff cfg.apiAdminEmail := by
  obtain ⟨user, huser, hsub, hrow⟩ | ⟨hnone, hsub⟩ := hlogin
  · exact iff_of_true (inserts_of_user h (hactor ▸ hsub) hrow) (.inl (by rw [huser]; exact Option.some_ne_none user))
  · rw [hnone, or_iff_right (not_not_intro rfl), ← lookup_mutate h]
    unfold userIdExists
    rw [hactor, hsub]
    exact Iff.rfl

theorem audited_iff (h : ∀ login ∈ w.logins, Known cfg w.tables login) (a : AdminSessions.Action) :
    Audited bcrypt w a ↔ Attributable cfg bcrypt w a := by
  cases a with
  | login body now => exact Iff.rfl
  | request k write eff =>
    have hactor : ∀ (login : Login) (m : Mutation),
        mutate bcrypt w.tables (login.request write eff) = .ok m → m.actor = login.accessToken := by
      intro login m hm
      obtain ⟨hm, -, -, -⟩ := mutate_eq_ok.mp hm
      exact (Option.some.inj (Option.some.inj (Auth.getCurrentUser_eq_ok hm))).symm
    constructor
    · intro haudited login hlogin hpasses
      obtain ⟨m, hm⟩ := hpasses
      have hrow := haudited login m hlogin hm
      rw [← hactor login m hm] at hrow
      exact (inserts_iff (h login (List.mem_of_getElem? hlogin)) (hactor login m hm) hm).mp ((recorded_iff hm).mp hrow)
    · intro hattributable login m hlogin hm
      have hinserts := hattributable login hlogin ⟨m, hm⟩
      rw [← hactor login m hm]
      exact (recorded_iff hm).mpr ((inserts_iff (h login (List.mem_of_getElem? hlogin)) (hactor login m hm) hm).mpr hinserts)

/-- In a run from any tables, every change that is committed is audited exactly if every
request that is committed can be attributed. -/
theorem changes_audited_iff (cfg : Config) (bcrypt : Bcrypt) (db : Tables) (as : List AdminSessions.Action) :
    AllSteps (AdminSessions.step cfg bcrypt) (Audited bcrypt) (.init db) as ↔
      AllSteps (AdminSessions.step cfg bcrypt) (Attributable cfg bcrypt) (.init db) as :=
  allSteps_congr (I := fun w => ∀ login ∈ w.logins, Known cfg w.tables login) (fun _ h => absurd h List.not_mem_nil)
    (fun w a h _ => known_step w a h) (fun _ a h => audited_iff h a) as

/-- The break-glass admin of a new deployment creates a client. -/
def breakGlass : List AdminSessions.Action :=
  [.login ⟨"admin@staykaro.com", "change-me"⟩ 0] ++ [.request 0 creation.write creation.eff]

/-- The client is there, and no audit row. -/
theorem breakGlass_unaudited :
    (run (AdminSessions.step Auth.deployed Auth.oneHash) (.init noTables) breakGlass).tables.clients.rows.length = 1 ∧
      (run (AdminSessions.step Auth.deployed Auth.oneHash) (.init noTables) breakGlass).tables.auditLogs = [] ∧
      ¬AllSteps (AdminSessions.step Auth.deployed Auth.oneHash) (Audited Auth.oneHash) (.init noTables) breakGlass := by
  refine ⟨by decide, by decide, fun h => ?_⟩
  obtain ⟨row, hrow, -⟩ := h _ _ (List.prefix_refl breakGlass) _ _ rfl rfl
  have hnil : [] = [] ++ [row] := hrow
  exact absurd hnil.symm (List.cons_ne_nil row [])

end CallingAgent.Proof.Admin
