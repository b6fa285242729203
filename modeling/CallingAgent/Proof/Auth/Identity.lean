import CallingAgent.Impl.Auth

/-!
# Identity over a session

`create_access_token` encodes `client_id`, `create_refresh_token` does not, and
`/auth/refresh` makes its new access token from the claims of the refresh token.
So the first refresh drops the tenant (`refreshChain_tokenResponse`), and a
session keeps its identity exactly if it is not refreshed or its user has no
tenant (`refresh_preserves_identity_iff`).
-/

namespace CallingAgent.Proof.Auth

open CallingAgent.Framework CallingAgent.Impl CallingAgent.Impl.Auth

variable {cfg : Config} {bcrypt : Bcrypt} {now : Time} {tokens tokens' : TokenResponse}

/-- The claims that say who a token is for. -/
structure SameIdentity (c c' : Claims) : Prop where
  sub : c'.sub = c.sub
  role : c'.role = c.role
  clientId : c'.clientId = c.clientId
  email : c'.email = c.email
  fullName : c'.fullName = c.fullName

/-- Whom a login gives tokens to: an active user, or the break-glass admin if
there is no user of that email. -/
theorem login_cases {users : Users} {body : LoginRequest} (h : login cfg bcrypt users body now = .ok tokens) :
    (∃ user, userOf users body = some user ∧ user.status = some .active ∧
      tokens = tokenResponse cfg now user.id (roleText user) user.tenantId user.email user.fullName) ∨
    (userOf users body = none ∧
      tokens = tokenResponse cfg now body.email "super_admin" none body.email cfg.apiAdminFullName) := by
  unfold login at h
  cases hu : userOf users body with
  | some user =>
    left
    simp only [hu] at h
    split at h
    · cases h
    · rename_i hs
      split at h
      · cases h
      · split at h
        · cases h
        · split at h
          · cases h
          · exact ⟨user, rfl, not_not.mp hs, (Answer.ok.inj h).symm⟩
  | none =>
    right
    simp only [hu] at h
    split at h
    · split at h
      · cases h
      · exact ⟨rfl, (Answer.ok.inj h).symm⟩
    · cases h

/-- The tenant that a login encodes. -/
theorem login_tokenResponse {users : Users} {body : LoginRequest}
    (h : login cfg bcrypt users body now = .ok tokens) :
    ∃ subject role email fullName, tokens =
      tokenResponse cfg now subject role ((userOf users body).bind (·.tenantId)) email fullName := by
  rcases login_cases h with ⟨user, hu, -, e⟩ | ⟨hu, e⟩
  · exact ⟨_, _, _, _, by rw [e, hu]; rfl⟩
  · exact ⟨_, _, _, _, by rw [e, hu]; rfl⟩

theorem decode_eq_some {token : Token} {payload : Claims} (h : decode now token = some payload) :
    token = some payload := by
  cases token with
  | none => cases h
  | some claims =>
    simp only [decode] at h
    split at h
    · cases h
    · exact h

/-- The user is the claims of the token. -/
theorem getCurrentUser_eq_ok {authorization : Option Token} {user : Claims}
    (h : getCurrentUser now authorization = .ok user) : authorization = some (some user) := by
  cases authorization with
  | none => cases h
  | some token =>
    simp only [getCurrentUser] at h
    split at h
    · cases h
    · rename_i payload hd
      split at h
      · cases h
      · rw [decode_eq_some hd, Answer.ok.inj h]

/-- A refresh keeps all but the tenant. -/
theorem refreshToken_tokenResponse {t : Time} {subject role email fullName : String} {clientId : Option Int}
    (h : decode t (some (tokenResponse cfg now subject role clientId email fullName).refreshToken) ≠ none) :
    refreshToken cfg (some (tokenResponse cfg now subject role clientId email fullName).refreshToken) t =
      .ok (tokenResponse cfg t subject role none email fullName) := by
  obtain ⟨payload, hd⟩ := Option.ne_none_iff_exists'.mp h
  obtain rfl := Option.some.inj (decode_eq_some hd)
  unfold refreshToken decodeRefreshToken
  rw [hd]
  rfl

/-- Only a token that decodes is refreshed. -/
theorem decode_of_refreshToken {t : Time} {token : Token} (h : refreshToken cfg token t = .ok tokens) :
    decode t token ≠ none := by
  intro hd
  simp [refreshToken, decodeRefreshToken, hd] at h

theorem refreshChain_tokenResponse {times : List Time} {subject role email fullName : String}
    {clientId : Option Int}
    (h : refreshChain cfg (tokenResponse cfg now subject role clientId email fullName) times = .ok tokens) :
    ∃ t, tokens =
      tokenResponse cfg t subject role (if times = [] then clientId else none) email fullName := by
  induction times generalizing now clientId with
  | nil => exact ⟨now, (Answer.ok.inj h).symm⟩
  | cons t times ih =>
    unfold refreshChain at h
    split at h
    · rename_i tokens₁ h₁
      rw [refreshToken_tokenResponse (decode_of_refreshToken h₁)] at h₁
      rw [← Answer.ok.inj h₁] at h
      obtain ⟨t', e⟩ := ih h
      exact ⟨t', by rw [e]; simp⟩
    · rename_i hn
      rw [h] at hn
      exact absurd rfl (hn tokens)

/-- The access token after a chain of refreshes has the `sub`, `role`,
`client_id`, `email` and `full_name` of the one that the login gave, if and
only if there was no refresh or the login's user has no tenant. -/
theorem refresh_preserves_identity_iff (cfg : Config) (bcrypt : Bcrypt) (users : Users) (body : LoginRequest)
    (now : Time) (times : List Time) (tokens tokens' : TokenResponse)
    (hlogin : login cfg bcrypt users body now = .ok tokens)
    (hchain : refreshChain cfg tokens times = .ok tokens') :
    SameIdentity tokens.accessToken tokens'.accessToken ↔
      times = [] ∨ ∀ user, userOf users body = some user → user.tenantId = none := by
  obtain ⟨subject, role, email, fullName, rfl⟩ := login_tokenResponse hlogin
  obtain ⟨t, rfl⟩ := refreshChain_tokenResponse hchain
  have hnone : (userOf users body).bind (·.tenantId) = none ↔
      ∀ user, userOf users body = some user → user.tenantId = none := by
    rw [Option.bind_eq_none_iff]
  rw [← hnone]
  constructor
  · intro h
    have hc := h.clientId
    by_cases e : times = []
    · exact .inl e
    · simp only [e, if_false, tokenResponse, createAccessToken] at hc
      exact .inr hc.symm
  · intro h
    refine ⟨rfl, rfl, ?_, rfl, rfl⟩
    show (if times = [] then _ else none) = (userOf users body).bind (·.tenantId)
    split
    · rfl
    · rename_i e
      exact (h.resolve_left e).symm

/-! ## Sessions of two users -/

def passwordHash : String := "$2a$06$.rCVZVOThsIa97pEDOxvGuRRgzG64bvtJ0938xuqzv18d3ZpQhstC"

/-- `bcrypt` on one password. -/
def oneHash : Bcrypt where
  hashpw _ _ := passwordHash
  checkpw password hash := password == "abcdefghijklmnopqrstuvwxyz" && hash == passwordHash

def deployed : Config where
  apiPassword := "change-me"

/-- A tenant's administrator. -/
def tenantAdmin : AdminUser where
  id := "u1"
  email := "a@hotel.example"
  fullName := "A"
  passwordHash := some passwordHash
  role := some .tenantAdmin
  tenantId := some 7
  status := some .active
  createdAt := none

/-- An administrator of the platform. -/
def platformAdmin : AdminUser where
  id := "u2"
  email := "b@platform.example"
  fullName := "B"
  passwordHash := some passwordHash
  role := some .superAdmin
  tenantId := none
  status := some .active
  createdAt := none

def twoUsers : Users where
  rows := [tenantAdmin, platformAdmin]
  keyed := by decide

def loginOf (user : AdminUser) : LoginRequest where
  email := user.email
  password := "abcdefghijklmnopqrstuvwxyz"

/-- The tokens that a user's login at time 0 gives. -/
def loginTokens (user : AdminUser) : TokenResponse :=
  tokenResponse deployed 0 user.id (roleText user) user.tenantId user.email user.fullName

/-- Half an hour after the login, and again half an hour later. -/
theorem refresh_preserves_identity_platform :
    SameIdentity (loginTokens platformAdmin).accessToken
      (tokenResponse deployed (seconds 3600) "u2" "super_admin" none "b@platform.example" "B").accessToken :=
  (refresh_preserves_identity_iff deployed oneHash twoUsers (loginOf platformAdmin) 0
    [seconds 1800, seconds 3600] (loginTokens platformAdmin) _ (by decide) (by decide)).mpr
    (.inr fun user h => by cases h; rfl)

/-- The tenant is gone after the first refresh. -/
theorem refresh_drops_tenant :
    login deployed oneHash twoUsers (loginOf tenantAdmin) 0 = .ok (loginTokens tenantAdmin) ∧
      (loginTokens tenantAdmin).accessToken.clientId = some 7 ∧
      ∃ tokens, refreshChain deployed (loginTokens tenantAdmin) [seconds 1800] = .ok tokens ∧
        tokens.accessToken.clientId = none ∧ ¬ SameIdentity (loginTokens tenantAdmin).accessToken tokens.accessToken :=
  ⟨by decide, by decide, _, rfl, rfl, fun h => by cases h.clientId⟩

end CallingAgent.Proof.Auth
