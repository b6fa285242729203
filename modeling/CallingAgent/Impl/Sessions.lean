import CallingAgent.Framework.Run
import CallingAgent.Impl.Admin

/-!
# Sessions

Requests to `/auth/login`, `/auth/refresh`, `update_user` and `delete_user`, one
after another, on any table of users. `World.issued` records the answers with
tokens in order, each with the row that the session's login found: none for the
break-glass login. A refresh presents a token that was issued before; any other
does not decode.
-/

namespace CallingAgent.Impl.Sessions

open CallingAgent.Framework CallingAgent.Impl.Auth CallingAgent.Impl.Admin

/-- An answer with tokens. -/
structure Issue where
  user : Option AdminUser
  tokens : TokenResponse

structure World where
  now : Time
  users : Users
  issued : List Issue

def World.init (users : Users) (now : Time) : World where
  now := now
  users := users
  issued := []

inductive Action
  | tick (d : Nat)
  | login (body : LoginRequest)
  /-- With the refresh token of the `k`-th answer, or with its access token. -/
  | refresh (k : Nat)
  | refreshWithAccess (k : Nat)
  | updateUser (userId : String) (body : UserUpdate) (salt : String) (actor : Claims)
  | deleteUser (userId : String) (actor : Claims)

/-- The answer of `/auth/refresh` to a token of the session of `i`. -/
def reissue (cfg : Config) (now : Time) (i : Issue) (token : Claims) : Option Issue :=
  match refreshToken cfg (some token) now with
  | .ok tokens => some { user := i.user, tokens := tokens }
  | _ => none

/-- The tokens that a request is answered with. -/
def issue (cfg : Config) (bcrypt : Bcrypt) (w : World) : Action → Option Issue
  | .login body =>
    match login cfg bcrypt w.users body w.now with
    | .ok tokens => some { user := userOf w.users body, tokens := tokens }
    | _ => none
  | .refresh k => w.issued[k]?.bind fun i => reissue cfg w.now i i.tokens.refreshToken
  | .refreshWithAccess k => w.issued[k]?.bind fun i => reissue cfg w.now i i.tokens.accessToken
  | _ => none

/-- The users after a request. -/
def usersAfter (bcrypt : Bcrypt) (w : World) : Action → Users
  | .updateUser userId body salt actor => (updateUser bcrypt salt w.users userId body actor).1
  | .deleteUser userId actor => (deleteUser w.users userId actor).1
  | _ => w.users

def step (cfg : Config) (bcrypt : Bcrypt) (w : World) (a : Action) : World where
  now :=
    match a with
    | .tick d => w.now + d
    | _ => w.now
  users := usersAfter bcrypt w a
  issued := w.issued ++ (issue cfg bcrypt w a).toList

end CallingAgent.Impl.Sessions
