import CallingAgent.Framework.Run
import CallingAgent.Impl.Calls

/-!
# `finalize_call` among other requests

`finalize_call` and `get_call` of `services/api/src/routers/internal.py`, cut
where other requests can come in between. `finalize_call` loads the row
(`load`) and answers at once if there is none or it has ended; otherwise it
assigns four columns and commits (`commit`), reads the row again and answers
with it (`refresh`). The flush of the commit writes a column only if the value
assigned to it differs from the value that was loaded (`written`), and looks at
the primary key alone. Every statement sees every row. `Calls.finalizeCall` is a
request that nothing interrupts.

`World.log` has the states of calls that `get_call` and `finalize_call` were
answered with, latest first.
-/

namespace CallingAgent.Impl.Finalize

open CallingAgent.Framework CallingAgent.Impl CallingAgent.Impl.Calls

structure FinalizeResponse where
  callId : CallId
  status : CallStatus
  connectionStatus : ConnectionStatus
  isSimulation : Bool
  endedAt : Time
  endReason : String
  deriving DecidableEq

/-- `new_status` and `new_connection_status`. -/
def endStatus (endReason : String) : CallStatus × ConnectionStatus :=
  (endReasonMap endReason).getD (.failed, .failedPreConnect)

/-- A column after the flush of an object that had `loaded` in it and was then
assigned `assigned`. -/
def written {α : Type} [DecidableEq α] (loaded assigned current : α) : α :=
  if assigned = loaded then current else assigned

/-- The `UPDATE` of the flush. -/
def flushStmt (loaded : Call) (body : FinalizeRequest) : Update Call.callId where
  guard r := r.callId == loaded.callId
  set r :=
    { r with
      endedAt := written loaded.endedAt (some body.endedAt) r.endedAt
      endReason := written loaded.endReason (some body.endReason) r.endReason
      status := written loaded.status (endStatus body.endReason).1 r.status
      connectionStatus := written loaded.connectionStatus (endStatus body.endReason).2 r.connectionStatus }

/-- The answer for a call that has ended before. -/
def alreadyFinalized (call : Call) (endedAt : Time) : FinalizeResponse where
  callId := call.callId
  status := call.status
  connectionStatus := call.connectionStatus
  isSimulation := call.isSimulation
  endedAt := endedAt
  endReason := call.endReason.getD ""

/-- The answer with the row read again; the response has no place for `None`. -/
def finalized (call : Call) : Answer FinalizeResponse :=
  match call.endedAt, call.endReason with
  | some endedAt, some endReason =>
    .ok
      { callId := call.callId
        status := call.status
        connectionStatus := call.connectionStatus
        isSimulation := call.isSimulation
        endedAt := endedAt
        endReason := endReason }
  | _, _ => .raised

/-- Where a `finalize_call` request stands after its load. -/
inductive Phase
  | loaded (call : Call) (body : FinalizeRequest)
  | committed (callId : CallId)
  | answered (answer : Answer FinalizeResponse)

/-- The state of a call, as `get_call` or `finalize_call` answers with it. -/
inductive Reply
  | state (call : Call)
  | finalized (response : FinalizeResponse)

structure World where
  calls : CallTable
  requests : Nat → Option Phase
  log : List Reply

def World.init : World where
  calls := .empty
  requests _ := none
  log := []

inductive Action
  | create (body : CallCreateRequest)
  | get (callId : CallId)
  | load (req : Nat) (callId : CallId) (body : FinalizeRequest)
  | commit (req : Nat)
  | refresh (req : Nat)

def World.setRequest (w : World) (req : Nat) (phase : Phase) : World :=
  { w with requests := Function.update w.requests req (some phase) }

/-- The request is answered; an answer with the state of the call is logged. -/
def World.answer (w : World) (req : Nat) (answer : Answer FinalizeResponse) : World :=
  match answer with
  | .ok response => { w.setRequest req (.answered answer) with log := .finalized response :: w.log }
  | _ => w.setRequest req (.answered answer)

def step (w : World) : Action → World
  | .create body => { w with calls := (createCall w.calls body).1 }
  | .get callId =>
    match w.calls.lookup callId with
    | some call => { w with log := .state call :: w.log }
    | none => w
  | .load req callId body =>
    match w.requests req with
    | some _ => w
    | none =>
      match w.calls.lookup callId with
      | none => w.answer req (.httpException 404 "Call not found")
      | some call =>
        match call.endedAt with
        | some endedAt => w.answer req (.ok (alreadyFinalized call endedAt))
        | none => w.setRequest req (.loaded call body)
  | .commit req =>
    match w.requests req with
    | some (.loaded call body) =>
      { w.setRequest req (.committed call.callId) with calls := w.calls.update (flushStmt call body) }
    | _ => w
  | .refresh req =>
    match w.requests req with
    | some (.committed callId) =>
      match w.calls.lookup callId with
      | some call => w.answer req (finalized call)
      | none => w.answer req .raised
    | _ => w

end CallingAgent.Impl.Finalize
