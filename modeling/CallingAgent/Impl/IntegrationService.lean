import CallingAgent.Impl.RunLoop
import CallingAgent.Impl.SharedSecret
import CallingAgent.Impl.Text

/-!
# `services/integration-service/src/main.py`: `process`

The endpoint that the worker calls for each event, up to the response that its
client gets (`respond`).
-/

namespace CallingAgent.Impl.IntegrationService

open CallingAgent.Impl CallingAgent.Impl.RunLoop CallingAgent.Impl.SharedSecret CallingAgent.Impl.Text

/-- The two services' `INTERNAL_API_TOKEN`, and what is read of a payload and written
of a response: both are JSON. -/
structure Env where
  internalApiToken : String
  workerToken : String
  /-- The value of a header is ASCII. -/
  workerToken_ascii : isAscii workerToken = true
  /-- `isinstance(payload, dict) and payload.get("_test_force_failure")`, as a truth
  value. -/
  forcesFailure : Json → Bool
  /-- `repr`. -/
  repr : String → String
  resultText : ProcessResult → String
  errorText : String → String

/-- `process_event`. -/
def processEvent (env : Env) (body : ProcessEventRequest) : Answer ProcessResult :=
  if body.payload.any env.forcesFailure then
    .httpException 503 "forced failure for testing (payload._test_force_failure)"
  else if strip body.eventType = "" then .httpException 422 "event_type must not be empty"
  else
    .ok
      { status := "processed"
        detail := some ("event " ++ env.repr body.eventType ++ " acknowledged for job " ++ body.jobId) }

/-- `process`, behind its guard. -/
def process (env : Env) (xInternalApiToken : Option String) (body : ProcessEventRequest) : Answer ProcessResult :=
  (IntegrationService.verifyInternalToken env.internalApiToken xInternalApiToken).bind fun _ => processEvent env body

/-- The header that `IntegrationClient.process` sends. -/
def Env.header (env : Env) : Option String := if env.workerToken = "" then none else some env.workerToken

def Env.response (env : Env) : Answer ProcessResult → Response ProcessResult
  | .ok result => { statusCode := 200, text := env.resultText result, body := some result }
  | .httpException statusCode detail => { statusCode := statusCode, text := env.errorText detail, body := none }
  | .raised => { statusCode := 500, text := "Internal Server Error", body := none }

/-- The response to the worker's request. -/
def respond (env : Env) (body : ProcessEventRequest) : Response ProcessResult :=
  env.response (process env env.header body)

end CallingAgent.Impl.IntegrationService
