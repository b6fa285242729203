import CallingAgent.Framework.Table
import CallingAgent.Impl.Models

/-!
# The calls API

`create_call` and `finalize_call` of `services/api/src/routers/internal.py`,
each on the table as it finds it. Their responses are columns of the row, so
the row stands for them. Neither rolls back and reads again, so both run with
the sentinel throughout and see every row.
-/

namespace CallingAgent.Impl.Calls

open CallingAgent.Framework

/-- The table `calls`. -/
abbrev CallTable := Table Call.callId

structure CallCreateRequest where
  callId : CallId
  tenantId : String
  agentId : String
  startedAt : Time
  providerCallId : Option String := none
  isSimulation : Bool := false
  deriving DecidableEq

structure FinalizeRequest where
  endedAt : Time
  endReason : String
  deriving DecidableEq

/-- `_END_REASON_MAP`. -/
def endReasonMap : String → Option (CallStatus × ConnectionStatus)
  | "caller_hangup" => some (.completed, .connected)
  | "agent_finished" => some (.completed, .connected)
  | "no_answer" => some (.noAnswer, .attempted)
  | "voicemail" => some (.voicemail, .attempted)
  | "invalid_number" => some (.failed, .failedPreConnect)
  | "network_error" => some (.failed, .failedPreConnect)
  | "provider_failure" => some (.failed, .failedPreConnect)
  | "cancelled" => some (.cancelled, .notAttempted)
  | "simulation_complete" => some (.completed, .connected)
  | "simulation_cancelled" => some (.cancelled, .notAttempted)
  | "simulation_no_answer" => some (.noAnswer, .attempted)
  | _ => none

/-- The row that `create_call` adds; `connection_status` has its server
default. -/
def newCall (body : CallCreateRequest) : Call where
  callId := body.callId
  tenantId := body.tenantId
  agentId := body.agentId
  providerCallId := body.providerCallId
  status := .active
  connectionStatus := .connected
  isSimulation := body.isSimulation
  startedAt := body.startedAt
  endedAt := none
  endReason := none

def createCall (calls : CallTable) (body : CallCreateRequest) : CallTable × Answer Call :=
  match calls.lookup body.callId with
  | some _ => (calls, .httpException 409 ("Call " ++ body.callId ++ " already exists"))
  | none =>
    match calls.insert (newCall body) with
    | some calls' => (calls', .ok (newCall body))
    | none => (calls, .raised)

/-- What `finalize_call` writes. -/
def finalizeStmt (callId : CallId) (body : FinalizeRequest) : Update Call.callId where
  guard r := r.callId == callId
  set r :=
    { r with
      endedAt := some body.endedAt
      endReason := some body.endReason
      status := ((endReasonMap body.endReason).getD (.failed, .failedPreConnect)).1
      connectionStatus := ((endReasonMap body.endReason).getD (.failed, .failedPreConnect)).2 }

/-- Idempotent: a call that has ended is answered as it is. -/
def finalizeCall (calls : CallTable) (callId : CallId) (body : FinalizeRequest) : CallTable × Answer Call :=
  match calls.lookup callId with
  | none => (calls, .httpException 404 "Call not found")
  | some call =>
    if call.endedAt.isSome then (calls, .ok call)
    else (calls.update (finalizeStmt callId body), .ok ((finalizeStmt callId body).set call))

end CallingAgent.Impl.Calls
