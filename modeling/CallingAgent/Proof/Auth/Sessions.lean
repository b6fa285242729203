import CallingAgent.Impl.Sessions
import CallingAgent.Proof.Auth.Identity

/-!
# Tokens and the user's record

`login` looks at the user's record, `/auth/refresh` only at the token, which has
the role of the record that the login found (`Named`). So a request that is
answered with tokens follows the record exactly if it is not a refresh of a
session whose user has since been suspended or given another role
(`StaleRefresh`): `tokens_follow_record_iff`.
-/

namespace CallingAgent.Proof.Auth

open CallingAgent.Framework CallingAgent.Impl CallingAgent.Impl.Auth CallingAgent.Impl.Admin
open CallingAgent.Impl.Sessions

variable {cfg : Config} {bcrypt : Bcrypt} {w : World} {a : Action}

/-- The record is active, and has this role. -/
def Follows (users : Users) (userId : String) (role : Option String) : Prop :=
  ∃ user, users.lookup userId = some user ∧ user.status = some .active ∧ role = some (roleText user)

/-- An access token that the request is answered with, for a user of the
database, is issued while that user is active and has the role of the record. -/
def FollowsRecord (cfg : Config) (bcrypt : Bcrypt) (w : World) (a : Action) : Prop :=
  ∀ i, issue cfg bcrypt w a = some i → ∀ user, i.user = some user →
    i.tokens.accessToken.sub = some user.id ∧ Follows w.users user.id i.tokens.accessToken.role

/-- A refresh token that has not expired is presented for a session whose user
is no longer active, or has another role than at the login. -/
def StaleRefresh (w : World) (a : Action) : Prop :=
  ∃ k i user, a = .refresh k ∧ w.issued[k]? = some i ∧ i.user = some user ∧
    decode w.now (some i.tokens.refreshToken) ≠ none ∧ ¬ Follows w.users user.id (some (roleText user))

/-- The tokens of a user's session are for that user, with the role that the
login found. -/
def Named (cfg : Config) (i : Issue) : Prop :=
  ∀ user, i.user = some user → ∃ now clientId email fullName,
    i.tokens = tokenResponse cfg now user.id (roleText user) clientId email fullName

/-! ## Answers with tokens -/

theorem issue_login {body : LoginRequest} {i : Issue} (h : issue cfg bcrypt w (.login body) = some i)
    {user : AdminUser} (hu : i.user = some user) :
    userOf w.users body = some user ∧ user.status = some .active ∧
      i.tokens = tokenResponse cfg w.now user.id (roleText user) user.tenantId user.email user.fullName := by
  simp only [issue] at h
  split at h
  · rename_i tokens hl
    obtain rfl := Option.some.inj h
    rcases login_cases hl with ⟨user', hu', hs, e⟩ | ⟨hn, -⟩
    · obtain rfl : user' = user := Option.some.inj (hu'.symm.trans hu)
      exact ⟨hu', hs, e⟩
    · rw [hn] at hu; cases hu
  · cases h

theorem reissue_user {now : Time} {i i' : Issue} {token : Claims} (h : reissue cfg now i token = some i') :
    i'.user = i.user := by
  unfold reissue at h
  split at h
  · rw [← Option.some.inj h]
  · cases h

/-- A refresh is answered with tokens for the user of its session. -/
theorem reissue_refresh {now : Time} {i i' : Issue} (hi : Named cfg i) {user : AdminUser}
    (hu : i.user = some user) (h : reissue cfg now i i.tokens.refreshToken = some i') :
    decode now (some i.tokens.refreshToken) ≠ none ∧
      ∃ email fullName, i'.tokens = tokenResponse cfg now user.id (roleText user) none email fullName := by
  obtain ⟨t, clientId, email, fullName, e⟩ := hi user hu
  unfold reissue at h
  rw [e] at h ⊢
  split at h
  · rename_i tokens hr
    have hd := decode_of_refreshToken hr
    rw [refreshToken_tokenResponse hd] at hr
    obtain rfl := Option.some.inj h
    exact ⟨hd, email, fullName, (Answer.ok.inj hr).symm⟩
  · cases h

theorem reissue_of_decode {now : Time} {i : Issue} (hi : Named cfg i) {user : AdminUser} (hu : i.user = some user)
    (hd : decode now (some i.tokens.refreshToken) ≠ none) :
    ∃ i', reissue cfg now i i.tokens.refreshToken = some i' := by
  obtain ⟨t, clientId, email, fullName, e⟩ := hi user hu
  unfold reissue
  rw [e] at hd ⊢
  rw [refreshToken_tokenResponse hd]
  exact ⟨_, rfl⟩

/-- An access token is not refreshed. -/
theorem reissue_access {now : Time} {i : Issue} (hi : Named cfg i) {user : AdminUser} (hu : i.user = some user) :
    reissue cfg now i i.tokens.accessToken = none := by
  obtain ⟨t, clientId, email, fullName, e⟩ := hi user hu
  unfold reissue
  rw [e]
  split
  · rename_i tokens hr
    obtain ⟨payload, hd⟩ := Option.ne_none_iff_exists'.mp (decode_of_refreshToken hr)
    obtain rfl := Option.some.inj (decode_eq_some hd)
    unfold refreshToken decodeRefreshToken at hr
    rw [hd] at hr
    cases hr
  · rfl

/-! ## Runs -/

/-- What a request is answered with for a user of the database. -/
inductive Issues (cfg : Config) (w : World) (user : AdminUser) (i : Issue) : Action → Prop
  | login {body : LoginRequest} {clientId : Option Int} {email fullName : String}
      (hu : userOf w.users body = some user) (hs : user.status = some .active)
      (ht : i.tokens = tokenResponse cfg w.now user.id (roleText user) clientId email fullName) :
      Issues cfg w user i (.login body)
  | refresh {k : Nat} {j : Issue} {email fullName : String} (hk : w.issued[k]? = some j)
      (hu : j.user = some user) (hd : decode w.now (some j.tokens.refreshToken) ≠ none)
      (ht : i.tokens = tokenResponse cfg w.now user.id (roleText user) none email fullName) :
      Issues cfg w user i (.refresh k)

theorem issues (hw : ∀ i ∈ w.issued, Named cfg i) {i : Issue} (hi : issue cfg bcrypt w a = some i)
    {user : AdminUser} (hu : i.user = some user) : Issues cfg w user i a := by
  cases a with
  | login body =>
    obtain ⟨hu, hs, e⟩ := issue_login hi hu
    exact .login hu hs e
  | refresh k =>
    obtain ⟨j, hj, hr⟩ := Option.bind_eq_some_iff.mp hi
    rw [reissue_user hr] at hu
    obtain ⟨hd, email, fullName, e⟩ := reissue_refresh (hw j (List.mem_of_getElem? hj)) hu hr
    exact .refresh hj hu hd e
  | refreshWithAccess k =>
    obtain ⟨j, hj, hr⟩ := Option.bind_eq_some_iff.mp hi
    rw [reissue_user hr] at hu
    rw [reissue_access (hw j (List.mem_of_getElem? hj)) hu] at hr
    cases hr
  | tick | updateUser | deleteUser => cases hi

theorem named_step (hw : ∀ i ∈ w.issued, Named cfg i) (a : Action) :
    ∀ i ∈ (step cfg bcrypt w a).issued, Named cfg i := by
  intro i hi
  rcases List.mem_append.mp hi with hi | hi
  · exact hw i hi
  · intro user hu
    cases issues hw (show issue cfg bcrypt w a = some i by simpa using hi) hu with
    | login _ _ ht => exact ⟨_, _, _, _, ht⟩
    | refresh _ _ _ ht => exact ⟨_, _, _, _, ht⟩

/-- A request follows the record exactly if it is not a stale refresh. -/
theorem followsRecord_iff (hw : ∀ i ∈ w.issued, Named cfg i) (a : Action) :
    FollowsRecord cfg bcrypt w a ↔ ¬ StaleRefresh w a := by
  constructor
  · rintro h ⟨k, j, user, rfl, hk, hu, hd, hn⟩
    obtain ⟨i, hi⟩ := reissue_of_decode (hw j (List.mem_of_getElem? hk)) hu hd
    have hissue : issue cfg bcrypt w (.refresh k) = some i := Option.bind_eq_some_iff.mpr ⟨j, hk, hi⟩
    have hiu := (reissue_user hi).trans hu
    obtain ⟨-, email, fullName, e⟩ := reissue_refresh (hw j (List.mem_of_getElem? hk)) hu hi
    have hf := (h i hissue user hiu).2
    rw [e] at hf
    exact hn hf
  · intro h i hi user hu
    cases issues hw hi hu with
    | login hu hs ht =>
      rw [ht]
      exact ⟨rfl, user, Table.lookup_of_mem (List.mem_of_find?_eq_some hu), hs, rfl⟩
    | @refresh k j email fullName hk hu hd ht =>
      rw [ht]
      refine ⟨rfl, not_not.mp fun hn => h ⟨k, j, user, rfl, hk, hu, hd, hn⟩⟩

/-- Every access token that is issued for a user of the database is issued while
the user is active and has the role of the user's record, in every run in which
no refresh token is presented for a user who is no longer active, or has another
role than at the login, and in no other. -/
theorem tokens_follow_record_iff (cfg : Config) (bcrypt : Bcrypt) (users : Users) (now : Time)
    (as : List Action) :
    AllSteps (step cfg bcrypt) (FollowsRecord cfg bcrypt) (.init users now) as ↔
      AllSteps (step cfg bcrypt) (fun w a => ¬ StaleRefresh w a) (.init users now) as :=
  allSteps_congr (I := fun w => ∀ i ∈ w.issued, Named cfg i) (fun _ hi => absurd hi List.not_mem_nil)
    (fun _ a hw _ => named_step hw a) (fun _ a hw => followsRecord_iff hw a) as

/-- A user logs in, is deleted by an administrator, and refreshes. -/
def deletedRun : List Action :=
  [.login (loginOf tenantAdmin), .deleteUser "u1" { role := some "super_admin" }, .refresh 0]

theorem deleted_user_refreshes :
    ((run (step deployed oneHash) (.init twoUsers 0) (deletedRun.take 2)).users.lookup "u1").map (·.status) =
        some (some .suspended) ∧
      ((run (step deployed oneHash) (.init twoUsers 0) deletedRun).issued.map
        fun i => (i.tokens.accessToken.sub, i.tokens.accessToken.role)) =
          [(some "u1", some "tenant_admin"), (some "u1", some "tenant_admin")] ∧
      ¬ AllSteps (step deployed oneHash) (FollowsRecord deployed oneHash) (.init twoUsers 0) deletedRun := by
  refine ⟨by decide, by decide, fun h => ?_⟩
  obtain ⟨-, user, hu, hs, -⟩ :=
    h (deletedRun.take 2) (.refresh 0) ⟨[], rfl⟩ _ rfl tenantAdmin rfl
  have hnone : (run (step deployed oneHash) (.init twoUsers 0) (deletedRun.take 2)).users.lookup "u1" =
      some (suspend tenantAdmin) := by decide
  obtain rfl := Option.some.inj (hnone.symm.trans hu)
  cases hs

end CallingAgent.Proof.Auth
