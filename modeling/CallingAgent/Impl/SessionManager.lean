import Mathlib.Logic.Function.Basic
import CallingAgent.Framework.Program
import CallingAgent.Framework.Run
import CallingAgent.Impl.Models

/-!
# `services/voice-gateway/src/main.py`: `_GatewaySessionManager`

The methods are programs that call out for the clock, for the process's own
`_mem` and for Redis, whose commands can fail with a `RedisError`, whether or not
they have been carried out. They are synchronous: no other code of the process
runs between their calls, but other processes may use Redis.

`Store` is a manager on its own with its Redis, in which every method runs to its
end (`exec`). Keys do not expire in it.
-/

namespace CallingAgent.Impl.SessionManager

open CallingAgent.Framework CallingAgent.Impl

inductive SessionStatus
  | active
  | ended
  deriving DecidableEq

inductive Role
  | user
  | assistant
  deriving DecidableEq

/-- An entry of `session["turns"]`. `time` is its `at`. -/
structure Turn where
  role : Role
  text : String
  time : Time
  deriving DecidableEq

/-- A session. It has no `turns` before the first. -/
structure Session where
  callId : CallId
  tenantId : String
  agentId : String
  startedAt : Time
  status : SessionStatus
  turns : Option (List Turn)
  deriving DecidableEq

/-- `json.dumps` and `json.loads` on sessions. -/
structure Codec where
  dumps : Session → String
  loads : String → Session
  loads_dumps : ∀ session, loads (dumps session) = session
  /-- The text of an object starts with a brace. -/
  dumps_ne_empty : ∀ session, dumps session ≠ ""

structure Config where
  codec : Codec
  /-- `self._r is not None`. -/
  redis : Bool

inductive RedisError
  | mk
  deriving DecidableEq

/-- What a method calls out for. -/
inductive Query
  | now
  | memGet (callId : CallId)
  | memPut (callId : CallId) (session : Session)
  | memPop (callId : CallId)
  | redisGet (key : String)
  | redisSet (key value : String)
  | redisDelete (key : String)
  deriving DecidableEq

abbrev Reply : Query → Type
  | .now => Time
  | .memGet _ => Option Session
  | .memPut _ _ => Unit
  | .memPop _ => Unit
  | .redisGet _ => Except RedisError (Option String)
  | .redisSet _ _ => Except RedisError Unit
  | .redisDelete _ => Except RedisError Unit

/-- A program of the manager. It raises nothing, so that it can be part of a program
with exceptions of any kind. -/
abbrev Method (E α : Type) := Prog Query Reply E α

section

variable {E : Type}

/-! ## Calls -/

abbrev clock : Method E Time := Prog.ask Query.now

abbrev memGet (callId : CallId) : Method E (Option Session) := Prog.ask (Query.memGet callId)

abbrev memPut (callId : CallId) (session : Session) : Method E Unit := Prog.ask (Query.memPut callId session)

abbrev memPop (callId : CallId) : Method E Unit := Prog.ask (Query.memPop callId)

abbrev redisGet (key : String) : Method E (Except RedisError (Option String)) := Prog.ask (Query.redisGet key)

abbrev redisSet (key value : String) : Method E (Except RedisError Unit) := Prog.ask (Query.redisSet key value)

abbrev redisDelete (key : String) : Method E (Except RedisError Unit) := Prog.ask (Query.redisDelete key)

/-! ## The methods -/

/-- `_key`. -/
def key (callId : CallId) : String := "call_session:" ++ callId

/-- `self._r.set(self._key(call_id), json.dumps(session), ex=3600)`, where a
`RedisError` is suppressed. -/
def save (cfg : Config) (callId : CallId) (session : Session) : Method E Unit := do
  if cfg.redis then
    let _ ← redisSet (key callId) (cfg.codec.dumps session)

/-- `self._r.get(self._key(call_id))`, loaded if there is something; a `RedisError`
is passed over. -/
def load (cfg : Config) (callId : CallId) : Method E (Option Session) := do
  if cfg.redis then
    match ← redisGet (key callId) with
    | .ok (some raw) => return if raw = "" then none else some (cfg.codec.loads raw)
    | _ => return none
  else return none

def create (cfg : Config) (callId : CallId) (tenantId agentId : String) : Method E Unit := do
  let now ← clock
  let data : Session := ⟨callId, tenantId, agentId, now, .active, none⟩
  memPut callId data
  save cfg callId data

def get (cfg : Config) (callId : CallId) : Method E (Option Session) := do
  match ← memGet callId with
  | some session => return some session
  | none =>
    match ← load cfg callId with
    | some data =>
      memPut callId data
      return some data
    | none => return none

/-- `session["status"] = "ended"`. -/
def Session.ended (session : Session) : Session := { session with status := .ended }

/-- `end`, the part on `_mem`. -/
def endMem (callId : CallId) : Method E Unit := do
  match ← memGet callId with
  | some session => memPut callId session.ended
  | none => return

/-- `end`. -/
def endSession (cfg : Config) (callId : CallId) : Method E Unit := do
  endMem callId
  match ← load cfg callId with
  | some data => save cfg callId data.ended
  | none => return

def remove (cfg : Config) (callId : CallId) : Method E Unit := do
  memPop callId
  if cfg.redis then
    let _ ← redisDelete (key callId)

/-- A session with one more turn. -/
def Session.addTurn (session : Session) (turn : Turn) : Session :=
  { session with turns := some (session.turns.getD [] ++ [turn]) }

def addTurn (cfg : Config) (callId : CallId) (role : Role) (text : String) : Method E Unit := do
  match ← get cfg callId with
  | none => return
  | some session =>
    let now ← clock
    let session := session.addTurn ⟨role, text, now⟩
    memPut callId session
    save cfg callId session

end

/-! ## A manager and its Redis -/

/-- What becomes of a command: it is carried out and answered, or it fails, with
or without having been carried out. -/
inductive Outcome
  | done
  | failed
  | failedAfter
  deriving DecidableEq

/-- `faults` are the outcomes of the next commands; those beyond are carried out. -/
structure Store where
  mem : CallId → Option Session
  redis : String → Option String
  now : Time
  faults : List Outcome

/-- The outcome of the next command. -/
def Store.outcome (s : Store) : Outcome := s.faults.headD .done

/-- A command that writes to Redis. -/
def Store.write (s : Store) (key : String) (value : Option String) : Store × Except RedisError Unit :=
  ({ s with
      redis := if s.outcome = .failed then s.redis else Function.update s.redis key value
      faults := s.faults.tail },
    if s.outcome = .done then .ok () else .error .mk)

def Store.answer (s : Store) : (q : Query) → Store × Reply q
  | .now => (s, s.now)
  | .memGet callId => (s, s.mem callId)
  | .memPut callId session => ({ s with mem := Function.update s.mem callId (some session) }, ())
  | .memPop callId => ({ s with mem := Function.update s.mem callId none }, ())
  | .redisGet key =>
    ({ s with faults := s.faults.tail }, if s.outcome = .done then .ok (s.redis key) else .error .mk)
  | .redisSet key value => s.write key (some value)
  | .redisDelete key => s.write key none

/-- A call of a method. -/
inductive Op
  | create (callId : CallId) (tenantId agentId : String)
  | get (callId : CallId)
  | endSession (callId : CallId)
  | remove (callId : CallId)
  | addTurn (callId : CallId) (role : Role) (text : String)
  deriving DecidableEq

/-- The method called, with what it returns, which is `None` for all but `get`. -/
def Op.prog {E : Type} (cfg : Config) : Op → Method E (Option Session)
  | .create callId tenantId agentId => do
    SessionManager.create cfg callId tenantId agentId
    return none
  | .get callId => SessionManager.get cfg callId
  | .endSession callId => do
    SessionManager.endSession cfg callId
    return none
  | .remove callId => do
    SessionManager.remove cfg callId
    return none
  | .addTurn callId role text => do
    SessionManager.addTurn cfg callId role text
    return none

/-- The store after a call, and what it returned. No method raises. -/
def Store.exec (cfg : Config) (s : Store) (op : Op) : Store × Option Session :=
  let (s, result) := (op.prog (E := Empty) cfg).serve Store.answer s
  (s, result.toOption.join)

/-- A new process: nothing is in `_mem`. -/
def Store.restart (s : Store) : Store := { s with mem := fun _ => none }

/-- What can happen to a manager. -/
inductive Action
  | tick (d : Nat)
  | call (op : Op)
  | restart
  deriving DecidableEq

def Action.isRestart : Action → Bool
  | .restart => true
  | _ => false

def step (cfg : Config) (s : Store) : Action → Store
  | .tick d => { s with now := s.now + d }
  | .call op => (s.exec cfg op).1
  | .restart => s.restart

/-- The result of a call. -/
def results (cfg : Config) (s : Store) : Action → List (Option Session)
  | .call op => [(s.exec cfg op).2]
  | _ => []

end CallingAgent.Impl.SessionManager
