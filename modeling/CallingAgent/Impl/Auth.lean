import CallingAgent.Impl.Directory

/-!
# Tokens

`services/api/src/auth.py`, with the endpoints `/auth/login` and `/auth/refresh`
of `services/api/src/main.py`. A token is what `jwt.decode` makes of it before
it looks at `exp`: the claims that were encoded, or none if the signature does
not verify. The password hash is `bcrypt`'s, a parameter.
-/

namespace CallingAgent.Impl.Auth

open CallingAgent.Framework

/-- The claims of a token; `exp` is in seconds. -/
structure Claims where
  sub : Option String := none
  role : Option String := none
  exp : Option Int := none
  type : Option String := none
  email : Option String := none
  fullName : Option String := none
  clientId : Option Int := none
  deriving DecidableEq

abbrev Token := Option Claims

/-- `src/config.py`. -/
structure Config where
  accessTokenExpireMinutes : Nat := 30
  refreshTokenExpireMinutes : Nat := 10080
  apiAdminEmail : String := "admin@staykaro.com"
  apiPassword : String
  apiAdminFullName : String := "System Admin"

/-- `_ROLE_PERMISSIONS.get(role, [])`. -/
def rolePermissions : String → List String
  | "super_admin" => ["tenant:read", "tenant:write", "user:read", "user:write", "call:read"]
  | "tenant_admin" => ["user:read", "call:read"]
  | "agent" => ["call:read"]
  | _ => []

/-- `bcrypt`: `hashpw` with its salt, and `checkpw`, false on a malformed hash
(`verify_password`). -/
structure Bcrypt where
  hashpw : String → String → String
  checkpw : String → String → Bool

/-- A timestamp as `jwt` encodes it. -/
def numericDate (t : Time) : Int := t / 1000000

def createAccessToken (cfg : Config) (now : Time) (subject role : String) (clientId : Option Int)
    (email fullName : String) : Claims where
  sub := some subject
  role := some role
  exp := some (numericDate (now + seconds (60 * cfg.accessTokenExpireMinutes)))
  type := some "access"
  email := some email
  fullName := some fullName
  clientId := clientId

def createRefreshToken (cfg : Config) (now : Time) (subject role email fullName : String) : Claims where
  sub := some subject
  role := some role
  exp := some (numericDate (now + seconds (60 * cfg.refreshTokenExpireMinutes)))
  type := some "refresh"
  email := some email
  fullName := some fullName

/-- `jwt.decode`, or `none` for a `JWTError`. -/
def decode (now : Time) : Token → Option Claims
  | some payload => if payload.exp.any fun exp => exp < numericDate now then none else some payload
  | none => none

def decodeRefreshToken (now : Time) (token : Token) : Answer Claims :=
  match decode now token with
  | none => .httpException 401 "Invalid or expired refresh token"
  | some payload =>
    if payload.type ≠ some "refresh" then .httpException 401 "Token is not a refresh token" else .ok payload

def getCurrentUser (now : Time) : Option Token → Answer Claims
  | none => .httpException 401 "Bearer token required"
  | some token =>
    match decode now token with
    | none => .httpException 401 "Invalid or expired token"
    | some payload =>
      if payload.type = some "refresh" then
        .httpException 401 "Refresh token cannot be used as an access token"
      else .ok payload

structure LoginRequest where
  email : String
  password : String

structure TokenResponse where
  accessToken : Claims
  refreshToken : Claims
  expiresIn : Nat
  deriving DecidableEq

/-- The pair of tokens of an answer. -/
def tokenResponse (cfg : Config) (now : Time) (subject role : String) (clientId : Option Int)
    (email fullName : String) : TokenResponse where
  accessToken := createAccessToken cfg now subject role clientId email fullName
  refreshToken := createRefreshToken cfg now subject role email fullName
  expiresIn := cfg.accessTokenExpireMinutes * 60

/-- `user.role or "agent"`. -/
def roleText (user : AdminUser) : String := (user.role.getD .agent).text

/-- The `User` that `login` selects. -/
def userOf (users : Users) (body : LoginRequest) : Option AdminUser :=
  users.rows.find? fun user => user.email == body.email

def login (cfg : Config) (bcrypt : Bcrypt) (users : Users) (body : LoginRequest) (now : Time) :
    Answer TokenResponse :=
  match userOf users body with
  | some user =>
    if user.status ≠ some .active then .httpException 401 "Invalid credentials"
    else
      match user.passwordHash with
      | none => .httpException 401 "Invalid credentials"
      | some passwordHash =>
        if passwordHash = "" then .httpException 401 "Invalid credentials"
        else if bcrypt.checkpw body.password passwordHash = false then .httpException 401 "Invalid credentials"
        else .ok (tokenResponse cfg now user.id (roleText user) user.tenantId user.email user.fullName)
  | none =>
    if cfg.apiAdminEmail ≠ "" ∧ cfg.apiPassword ≠ "" ∧ body.email = cfg.apiAdminEmail then
      if body.password ≠ cfg.apiPassword then .httpException 401 "Invalid credentials"
      else .ok (tokenResponse cfg now body.email "super_admin" none body.email cfg.apiAdminFullName)
    else .httpException 401 "Invalid credentials"

/-- `/auth/refresh`; a payload without `sub` is a `KeyError`. -/
def refreshToken (cfg : Config) (token : Token) (now : Time) : Answer TokenResponse :=
  match decodeRefreshToken now token with
  | .ok payload =>
    match payload.sub with
    | none => .raised
    | some subject =>
      .ok
        (tokenResponse cfg now subject (payload.role.getD "agent") none (payload.email.getD "")
          (payload.fullName.getD ""))
  | .httpException statusCode detail => .httpException statusCode detail
  | .raised => .raised

/-- Successive calls of `/auth/refresh` at these times, each with the refresh
token of the answer before. -/
def refreshChain (cfg : Config) (tokens : TokenResponse) : List Time → Answer TokenResponse
  | [] => .ok tokens
  | now :: times =>
    match refreshToken cfg (some tokens.refreshToken) now with
    | .ok tokens => refreshChain cfg tokens times
    | answer => answer

end CallingAgent.Impl.Auth
