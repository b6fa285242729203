import CallingAgent.Framework.Run
import CallingAgent.Impl.AdminWrites

/-!
# Administrators at work

Logins and the requests that are made with their access tokens, one after another, on any
tables. `World.logins` records the answers to `/auth/login` in order, each with the row that
the login found: none for the break-glass login. The foreign key of `audit_logs.user_id` is
enforced.
-/

namespace CallingAgent.Impl.AdminSessions

open CallingAgent.Framework CallingAgent.Impl.Auth CallingAgent.Impl.Reads CallingAgent.Impl.Admin
open CallingAgent.Impl.AdminWrites (Tables Write Effects Request userIdExists)

structure Login where
  user : Option AdminUser
  accessToken : Claims

structure World where
  tables : Tables
  logins : List Login

def World.init (tables : Tables) : World where
  tables := tables
  logins := []

inductive Action
  | login (body : LoginRequest) (now : Time)
  /-- With the access token of the `k`-th login. -/
  | request (k : Nat) (write : Write) (eff : Effects)

/-- A request with the token of a login. -/
def Login.request (login : Login) (write : Write) (eff : Effects) : Request where
  authorization := some (some login.accessToken)
  write := write
  eff := eff

def step (cfg : Config) (bcrypt : Bcrypt) (w : World) : Action → World
  | .login body now =>
    match login cfg bcrypt w.tables.users.toTable body now with
    | .ok tokens =>
      { w with logins := w.logins ++ [⟨userOf w.tables.users.toTable body, tokens.accessToken⟩] }
    | _ => w
  | .request k write eff =>
    match w.logins[k]? with
    | some login => { w with tables := AdminWrites.step bcrypt userIdExists w.tables (login.request write eff) }
    | none => w

end CallingAgent.Impl.AdminSessions
