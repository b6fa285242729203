import Mathlib.Tactic.TypeStar

/-!
# The rows of the API's tables

`services/api/src/models.py`: the columns of `call_jobs` and `calls` that the
routers read or write, and the form of a router's answer. Identifiers are the strings the code passes around;
a timestamp is a number of microseconds, and the JSON of a payload is its text,
since no code here looks inside.
-/

namespace CallingAgent.Impl

/-- A timestamp, in microseconds. -/
abbrev Time := Int

/-- `timedelta(seconds=n)`. -/
def seconds (n : Nat) : Time := n * 1000000

abbrev JobId := String

abbrev CallId := String

/-- A JSON document, as its text. -/
abbrev Json := String

/-- `ck_call_jobs_status`. -/
inductive JobStatus
  | queued
  | processing
  | completed
  | failed
  | retrying
  deriving DecidableEq, Repr

/-- A row of `call_jobs`. -/
structure CallJob where
  jobId : JobId
  tenantId : Option String
  callId : Option CallId
  providerCallId : Option String
  eventType : String
  payload : Option Json
  status : JobStatus
  attempts : Nat
  maxAttempts : Nat
  lastError : Option String
  createdAt : Time
  updatedAt : Time
  availableAt : Time
  processedAt : Option Time
  deriving DecidableEq, Repr

/-- `ck_calls_status`. -/
inductive CallStatus
  | active
  | completed
  | failed
  | noAnswer
  | voicemail
  | cancelled
  deriving DecidableEq, Repr

/-- `ck_calls_connection_status`. -/
inductive ConnectionStatus
  | notAttempted
  | attempted
  | connected
  | failedPreConnect
  deriving DecidableEq, Repr

/-- A row of `calls`. -/
structure Call where
  callId : CallId
  tenantId : String
  agentId : String
  providerCallId : Option String
  status : CallStatus
  connectionStatus : ConnectionStatus
  isSimulation : Bool
  startedAt : Time
  endedAt : Option Time
  endReason : Option String
  deriving DecidableEq, Repr

/-- The answer to a request: its body, an `HTTPException`, or another exception,
which is a 500. -/
inductive Answer (α : Type)
  | ok (body : α)
  | httpException (statusCode : Nat) (detail : String)
  | raised
  deriving DecidableEq

/-- Code that goes on with the body. -/
def Answer.bind {α β : Type} : Answer α → (α → Answer β) → Answer β
  | .ok body, next => next body
  | .httpException statusCode detail, _ => .httpException statusCode detail
  | .raised, _ => .raised

theorem Answer.bind_eq_ok {α β : Type} {x : Answer α} {next : α → Answer β} {b : β} :
    x.bind next = .ok b ↔ ∃ a, x = .ok a ∧ next a = .ok b := by
  cases x with
  | ok a => simp [Answer.bind]
  | httpException statusCode detail => simp [Answer.bind]
  | raised => simp [Answer.bind]

end CallingAgent.Impl
