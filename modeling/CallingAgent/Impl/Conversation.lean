import CallingAgent.Impl.SessionManager

/-!
# `services/voice-gateway/conversation.py`: `AIProcessor`

The processors of any number of calls over the session manager of their process.
A processor handles its frames one at a time: it takes the next one (`frame`)
when it does not await its provider, and goes on with the provider's answer
(`reply`) otherwise. Between these steps any other code of the process runs:
other processors, and other calls of the session manager (`call`).

The provider is handed either a new empty list or the list of turns that is in
the session. The latter is not copied, so that what the provider sees is what the
list holds when it answers.
-/

namespace CallingAgent.Impl.Conversation

open CallingAgent.Framework CallingAgent.Impl CallingAgent.Impl.SessionManager

/-- A frame; `other` is one that no branch tests for. -/
inductive Frame
  | start
  | transcription (text : String)
  | text (text : String)
  | other
  deriving DecidableEq

structure AIError where
  message : String
  deriving DecidableEq

/-- The list handed to `generate_response`: `[]`, or the list in the session. -/
inductive History
  | empty
  | session
  deriving DecidableEq

/-- `_greeted`, and the list with which the provider is awaited. -/
structure AIProcessor where
  greeted : Bool
  pending : Option History
  deriving DecidableEq

def AIProcessor.init : AIProcessor := ⟨false, none⟩

structure World where
  store : Store
  processors : CallId → AIProcessor

/-- The turns that a list holds. -/
def World.turns (w : World) (callId : CallId) : History → List Turn
  | .empty => []
  | .session => ((w.store.mem callId).bind Session.turns).getD []

/-- `session.get("turns", [])` of `get(call_id) or {}`. -/
def historyOf : Option Session → History
  | some session => if session.turns.isSome then .session else .empty
  | none => .empty

/-- What `_respond` makes of the provider's answer. -/
def response : Except AIError String → String
  | .ok text => text
  | .error _ => "I'm sorry, something went wrong on my end. Could you repeat that?"

/-- `process_frame`, up to the call of the provider: the store, the processor and
the frames pushed. -/
def processFrame (cfg : Config) (s : Store) (callId : CallId) (p : AIProcessor) :
    Frame → Store × AIProcessor × List Frame
  | .start => (s, if p.greeted then p else { greeted := true, pending := some .empty }, [.start])
  | .transcription text =>
    let s := (s.exec cfg (.addTurn callId .user text)).1
    let (s, session) := s.exec cfg (.get callId)
    (s, { p with pending := some (historyOf session) }, [])
  | frame => (s, p, [frame])

/-- `_respond`, after the call of the provider. -/
def respond (cfg : Config) (s : Store) (callId : CallId) (p : AIProcessor) (answer : Except AIError String) :
    Store × AIProcessor × List Frame :=
  ((s.exec cfg (.addTurn callId .assistant (response answer))).1, { p with pending := none },
    [.text (response answer)])

/-- The outcomes of its Redis commands are given with each step. -/
inductive Action
  | tick (d : Nat)
  | frame (callId : CallId) (frame : Frame) (faults : List Outcome)
  | reply (callId : CallId) (answer : Except AIError String) (faults : List Outcome)
  | call (op : Op) (faults : List Outcome)

def World.withFaults (w : World) (faults : List Outcome) : Store := { w.store with faults := faults }

def World.set (w : World) (callId : CallId) (x : Store × AIProcessor × List Frame) : World where
  store := x.1
  processors := Function.update w.processors callId x.2.1

def step (cfg : Config) (w : World) : Action → World
  | .tick d => { w with store := { w.store with now := w.store.now + d } }
  | .frame callId frame faults =>
    match (w.processors callId).pending with
    | none => w.set callId (processFrame cfg (w.withFaults faults) callId (w.processors callId) frame)
    | some _ => w
  | .reply callId answer faults =>
    match (w.processors callId).pending with
    | some _ => w.set callId (respond cfg (w.withFaults faults) callId (w.processors callId) answer)
    | none => w
  | .call op faults => { w with store := ((w.withFaults faults).exec cfg op).1 }

/-- The frame that a step takes for a call. -/
def handled (callId : CallId) (w : World) : Action → List Frame
  | .frame callId' frame _ => if callId' = callId ∧ (w.processors callId).pending = none then [frame] else []
  | _ => []

/-- The frames that a step pushes for a call. -/
def pushed (cfg : Config) (callId : CallId) (w : World) : Action → List Frame
  | .frame callId' frame faults =>
    if callId' = callId ∧ (w.processors callId).pending = none then
      (processFrame cfg (w.withFaults faults) callId (w.processors callId) frame).2.2
    else []
  | .reply callId' answer faults =>
    if callId' = callId ∧ (w.processors callId).pending ≠ none then
      (respond cfg (w.withFaults faults) callId (w.processors callId) answer).2.2
    else []
  | _ => []

/-- What the provider has been shown for a call and what it has answered. -/
def answered (callId : CallId) (w : World) : Action → List (List Turn × Except AIError String)
  | .reply callId' answer _ =>
    if callId' = callId then
      match (w.processors callId).pending with
      | some history => [(w.turns callId history, answer)]
      | none => []
    else []
  | _ => []

end CallingAgent.Impl.Conversation
