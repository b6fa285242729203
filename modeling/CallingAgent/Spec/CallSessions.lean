import CallingAgent.Impl.SessionManager

/-!
# The sessions of the calls

What the session manager is for: at most one session for each call, and the
methods on it. There is one copy of it, and it does not fail.
-/

namespace CallingAgent.Spec.CallSessions

open CallingAgent.Impl CallingAgent.Impl.SessionManager

abbrev Sessions := CallId → Option Session

def apply (now : Time) (v : Sessions) : Op → Sessions
  | .create callId tenantId agentId =>
    Function.update v callId (some ⟨callId, tenantId, agentId, now, .active, none⟩)
  | .get _ => v
  | .endSession callId => Function.update v callId ((v callId).map Session.ended)
  | .remove callId => Function.update v callId none
  | .addTurn callId role text => Function.update v callId ((v callId).map (·.addTurn ⟨role, text, now⟩))

/-- What a call returns. -/
def result (v : Sessions) : Op → Option Session
  | .get callId => v callId
  | _ => none

end CallingAgent.Spec.CallSessions
