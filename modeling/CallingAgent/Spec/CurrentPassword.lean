import CallingAgent.Impl.AdminWrites
import Mathlib.Logic.Function.Basic

/-!
# The password of a user

The password most recently set, beside the tables: a request that is committed sets the
password of its body. `HashesPrefix` is what is known of `bcrypt`, which looks at the first
72 bytes of a password.
-/

namespace CallingAgent.Spec.CurrentPassword

open CallingAgent.Framework CallingAgent.Impl CallingAgent.Impl.Auth CallingAgent.Impl.AdminWrites

/-- A password in UTF-8. -/
def encoded (password : String) : List UInt8 := password.toUTF8.data.toList

/-- What `bcrypt` sees of a password. -/
def seen (password : String) : List UInt8 := (encoded password).take 72

/-- `bcrypt` distinguishes two passwords exactly if it sees a difference. -/
structure HashesPrefix (bcrypt : Bcrypt) : Prop where
  checkpw_hashpw : ∀ salt password q, bcrypt.checkpw q (bcrypt.hashpw salt password) = true ↔ seen q = seen password
  hashpw_ne_empty : ∀ salt password, bcrypt.hashpw salt password ≠ ""

/-- The password that a request sets, and whose. -/
def sets (request : Request) : Option (String × String) :=
  match request.write with
  | .createUser (.ok body) => body.password.map fun password => (request.eff.uuid4, password)
  | .updateUser userId (.ok body) => body.password.map fun password => (userId, password)
  | _ => none

/-- The tables, and the password most recently set for each user. -/
structure World where
  tables : Tables
  current : String → Option String

/-- Nothing has been set so far. -/
def World.init (db : Tables) : World where
  tables := db
  current _ := none

def step (bcrypt : Bcrypt) (inserts : Mutation → Bool) (w : World) (request : Request) : World where
  tables := AdminWrites.step bcrypt inserts w.tables request
  current :=
    match mutate bcrypt w.tables request, sets request with
    | .ok _, some (userId, password) => Function.update w.current userId (some password)
    | _, _ => w.current

/-- The login of a user with a password is answered with tokens. -/
def Accepted (cfg : Config) (bcrypt : Bcrypt) (db : Tables) (now : Time) (user : AdminUser) (q : String) : Prop :=
  ∃ tokens, login cfg bcrypt db.users.toTable ⟨user.email, q⟩ now = .ok tokens

end CallingAgent.Spec.CurrentPassword
