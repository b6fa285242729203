import CallingAgent.Impl.CallPipeline

/-!
# What a caller gets to hear

What the voice pipeline is for: the assistant greets its caller and answers each of
the turns that are understood, in order and knowing all that has been said before.
There are no queues, and no step is apart from the next.
-/

namespace CallingAgent.Spec.PhoneCall

open CallingAgent.Impl.CallPipeline CallingAgent.Impl.SpeechToText CallingAgent.Impl.Text
open CallingAgent.Impl.SessionManager (Role)

/-- What the caller and the assistant have said. -/
abbrev Said := List (Role × String)

/-- What is understood of the turns of a caller. -/
def understood (transcribe : Nat → List UInt8 → Except STTError String) : Nat → List (List UInt8) → List String
  | _, [] => []
  | n, audio :: audios =>
    (match transcribe n audio with
      | .ok text => if strip text = "" then [] else [strip text]
      | .error _ => []) ++ understood transcribe (n + 1) audios

section

variable (respond : Said → String)

/-- The caller speaks, and is answered. -/
def exchange (said : Said) (t : String) : Said :=
  said ++ [(.user, t), (.assistant, respond (said ++ [(.user, t)]))]

def greeted (said : Said) : Said := said ++ [(.assistant, respond [])]

/-- All that is said when the caller says `ts`. -/
def record (said : Said) (ts : List String) : Said := ts.foldl (exchange respond) (greeted respond said)

/-- The answers to `ts`. -/
def answers (said : Said) : List String → List String
  | [] => []
  | t :: ts => respond (said ++ [(.user, t)]) :: answers (exchange respond said t) ts

/-- What the assistant says when the caller says `ts`. -/
def speeches (said : Said) (ts : List String) : List String := respond [] :: answers respond (greeted respond said) ts

end

/-- The audio of what is said, where there is some. -/
def voiced (synthesize : Nat → String → Except TTSError Audio) : Nat → List String → List Audio
  | _, [] => []
  | n, text :: texts =>
    if strip text = "" then voiced synthesize n texts
    else
      (match synthesize n text with
        | .ok audio => [audio]
        | .error _ => []) ++ voiced synthesize (n + 1) texts

end CallingAgent.Spec.PhoneCall
