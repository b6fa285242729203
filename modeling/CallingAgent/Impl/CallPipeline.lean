import CallingAgent.Framework.Network
import CallingAgent.Impl.Conversation
import CallingAgent.Impl.SpeechToText
import CallingAgent.Impl.Text

/-!
# `services/voice-gateway/voice_pipeline.py`: the pipeline of `_run_call`,
`services/voice-gateway/conversation.py`: its three processors

The frames of `transport.input()` go through `STTProcessor`, `AIProcessor` and
`TTSProcessor` to `transport.output()`. A processor takes the frames pushed to it one
at a time, in order, and goes on with the next when it is done, for which it may have
to await its provider; meanwhile the other processors and the rest of the process run.

A provider is what it answers: to its `n`-th call, or to what has been said so far.
-/

namespace CallingAgent.Impl.CallPipeline

open CallingAgent.Framework CallingAgent.Impl CallingAgent.Impl.SpeechToText CallingAgent.Impl.Text
open CallingAgent.Impl.SessionManager (Config Role Turn Outcome)
open CallingAgent.Impl.Conversation (AIError)

/-- `(pcm16_mono_audio_bytes, sample_rate)` -/
structure Audio where
  audio : List UInt8
  sampleRate : Nat
  deriving DecidableEq

structure TTSError where
  message : String
  deriving DecidableEq

/-- The frames, as far as a processor tests for their class. `ending` is an `EndFrame`
or a `CancelFrame`. -/
inductive Frame
  | start
  | inputAudio (frame : AudioFrame)
  | ending
  | transcription (text : String)
  | text (text : String)
  | outputAudio (audio : Audio)
  | other

/-! ## `STTProcessor` -/

/-- The processor, and how often it has called its provider. -/
structure STT where
  processor : STTProcessor
  calls : Nat

/-- `_flush_turn`, after the call of the provider. -/
def transcribed : Except STTError String → List Frame
  | .ok text => if strip text = "" then [] else [.transcription (strip text)]
  | .error _ => []

/-- `process_frame`, up to the call of the provider. -/
def STT.take (cfg : STTConfig) (s : STT) : Frame → STT × List Frame × Option (List UInt8)
  | .inputAudio frame =>
    let (processor, audios) := handleAudio cfg s.processor frame
    ({ s with processor := processor }, [], audios.head?)
  | .ending => ({ s with processor := { s.processor with buffer := [] } }, [.ending], none)
  | frame => (s, [frame], none)

def sttProcessor (cfg : STTConfig) (transcribe : Nat → List UInt8 → Except STTError String) :
    Processor STT Frame Frame (List UInt8) Unit Empty where
  take s _ frame := s.take cfg frame
  resume s _ audio := ({ s with calls := s.calls + 1 }, transcribed (transcribe s.calls audio))
  disturb _ d := d.elim

/-! ## `AIProcessor` -/

/-- Its branches, over those of `Conversation.processFrame`. -/
def toConversation : Frame → Conversation.Frame
  | .start => .start
  | .transcription text => .transcription text
  | .text text => .text text
  | _ => .other

def fromConversation (frame : Frame) : Conversation.Frame → Frame
  | .start => .start
  | .transcription text => .transcription text
  | .text text => .text text
  | .other => frame

/-- What other code of the process does: it neither runs the processor of `callId` nor
appends to its turns, makes its session anew or removes it. -/
def elsewhere (callId : CallId) : Conversation.Action → Bool
  | .tick _ => true
  | .frame d _ _ => d != callId
  | .reply d _ _ => d != callId
  | .call (.get _) _ => true
  | .call (.endSession _) _ => true
  | .call (.create d _ _) _ => d != callId
  | .call (.remove d) _ => d != callId
  | .call (.addTurn d _ _) _ => d != callId

/-- What the provider reads of the turns: their `role` and `text`. -/
def shown (turns : List Turn) : List (Role × String) := turns.map fun t => (t.role, t.text)

/-- The processor of a call among those of its process, with the outcomes of its Redis
commands. -/
def aiProcessor (cfg : Config) (callId : CallId) (provider : List (Role × String) → Except AIError String) :
    Processor Conversation.World Frame Frame Conversation.History (List Outcome)
      {a : Conversation.Action // elsewhere callId a = true} where
  take w faults frame :=
    let a : Conversation.Action := .frame callId (toConversation frame) faults
    let w' := Conversation.step cfg w a
    (w', (Conversation.pushed cfg callId w a).map (fromConversation frame), (w'.processors callId).pending)
  resume w faults history :=
    let a : Conversation.Action := .reply callId (provider (shown (w.turns callId history))) faults
    (Conversation.step cfg w a, (Conversation.pushed cfg callId w a).map (fromConversation .other))
  disturb w a := Conversation.step cfg w a

/-! ## `TTSProcessor` -/

/-- `_handle_text`, after the call of the provider. -/
def synthesized : Except TTSError Audio → List Frame
  | .ok audio => [.outputAudio audio]
  | .error _ => []

/-- `process_frame` and `_handle_text`, up to the call of the provider. A
`TranscriptionFrame` is a `TextFrame`. -/
def ttsTake (calls : Nat) : Frame → Nat × List Frame × Option String
  | .text text => (calls, [], if strip text = "" then none else some text)
  | .transcription text => (calls, [], if strip text = "" then none else some text)
  | frame => (calls, [frame], none)

def ttsProcessor (synthesize : Nat → String → Except TTSError Audio) :
    Processor Nat Frame Frame String Unit Empty where
  take calls _ frame := ttsTake calls frame
  resume calls _ text := (calls + 1, synthesized (synthesize calls text))
  disturb _ d := d.elim

/-! ## The pipeline -/

/-- What the pipeline of a call depends on. -/
structure Env where
  stt : STTConfig
  sessions : Config
  callId : CallId
  transcribe : Nat → List UInt8 → Except STTError String
  generateResponse : List (Role × String) → Except AIError String
  synthesize : Nat → String → Except TTSError Audio

abbrev State :=
  Queued STT Frame (List UInt8) × Queued Conversation.World Frame Conversation.History × Queued Nat Frame String

abbrev Action (callId : CallId) :=
  Move Unit Empty ⊕ (Move (List Outcome) {a : Conversation.Action // elsewhere callId a = true} ⊕ Move Unit Empty)

def pipeline (env : Env) : Stage State Frame Frame (Action env.callId) :=
  (sttProcessor env.stt env.transcribe).queued.pipe
    ((aiProcessor env.sessions env.callId env.generateResponse).queued.pipe (ttsProcessor env.synthesize).queued)

/-- New processors. -/
def start (w : Conversation.World) : State :=
  (Processor.fresh ⟨.init, 0⟩, Processor.fresh w, Processor.fresh 0)

end CallingAgent.Impl.CallPipeline
