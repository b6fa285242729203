import Mathlib.Algebra.Field.Rat
import CallingAgent.Framework.Program
import CallingAgent.Impl.Text

/-!
# `services/voice-gateway/tts_provider.py`: `LocalPyttsx3TTSProvider.synthesize`

A program that calls out to the engine, the file system and the clock, any of which
can raise. Times are rational numbers of seconds. The loop that waits for the file has
no bound of its own, so it is given one here (`fuel`), beyond which the program is
`unfinished`.
-/

namespace CallingAgent.Impl.SpeechSynthesis

open CallingAgent.Framework CallingAgent.Impl.Text

/-- `MAX_TEXT_CHARS`. -/
def maxTextChars : Nat := 1000

/-- `_WAV_READY_POLL_TIMEOUT_SECONDS`. -/
def wavReadyPollTimeoutSeconds : ℚ := 2

/-- `_WAV_READY_POLL_INTERVAL_SECONDS`. -/
def wavReadyPollIntervalSeconds : ℚ := 5 / 100

/-- What is read of the file. -/
structure WavFile where
  framerate : Nat
  channels : Nat
  sampwidth : Nat
  raw : List UInt8
  deriving DecidableEq

/-- The exceptions of the libraries, as far as they are told apart. -/
inductive Fault
  | eofError
  | waveError
  | other
  deriving DecidableEq

inductive Exc
  | ttsError (message : String)
  | fault (fault : Fault)
  /-- Not an exception: the loop has not come to an end. -/
  | unfinished
  deriving DecidableEq

inductive Query
  | init
  | mkstemp
  | close (fd : Nat)
  | saveToFile (text path : String)
  | runAndWait
  | monotonic
  | readWav (path : String)
  | sleep (seconds : ℚ)
  | unlink (path : String)
  | stop

abbrev Reply : Query → Type
  | .init => Except Fault Unit
  | .mkstemp => Except Fault (Nat × String)
  | .close _ => Except Fault Unit
  | .saveToFile _ _ => Except Fault Unit
  | .runAndWait => Except Fault Unit
  | .monotonic => ℚ
  | .readWav _ => Except Fault WavFile
  | .sleep _ => Unit
  | .unlink _ => Except Fault Unit
  | .stop => Except Fault Unit

abbrev Tts := Prog Query Reply Exc

/-- Goes on with what a library returns, or as it raises. -/
def raising {α : Type} : Except Fault α → Tts α
  | .ok a => pure a
  | .error e => throw (.fault e)

/-- The end of a pass of the loop, after which `next` follows. -/
def pause (deadline : ℚ) (next : Tts WavFile) : Tts WavFile := do
  if deadline ≤ (← Prog.ask .monotonic) then throw (.ttsError "TTS output file never became ready")
  else
    Prog.ask (Query.sleep wavReadyPollIntervalSeconds)
    next

/-- The `while` loop: the file, once there is something in it. -/
def poll (path : String) (deadline : ℚ) : Nat → Tts WavFile
  | 0 => throw .unfinished
  | fuel + 1 => do
    let file : Except Fault WavFile ← Prog.ask (Query.readWav path)
    match file with
    | .ok wavFile => if wavFile.raw ≠ [] then pure wavFile else pause deadline (poll path deadline fuel)
    | .error .other => throw (.fault .other)
    | .error _ => pause deadline (poll path deadline fuel)

/-- The body of the inner `try`. -/
def render (fuel : Nat) (text path : String) : Tts (List UInt8 × Nat) := do
  raising (← Prog.ask (.saveToFile text path))
  raising (← Prog.ask .runAndWait)
  let wavFile ← poll path ((← Prog.ask .monotonic) + wavReadyPollTimeoutSeconds) fuel
  if wavFile.channels ≠ 1 ∨ wavFile.sampwidth ≠ 2 then
    throw
      (.ttsError
        ("unexpected TTS output format: channels=" ++ toString wavFile.channels ++ " sampwidth=" ++
          toString wavFile.sampwidth ++ " (expected mono 16-bit)"))
  else pure (wavFile.raw, wavFile.framerate)

/-- The body of the outer `try`. -/
def toTempFile (fuel : Nat) (text : String) : Tts (List UInt8 × Nat) := do
  let (fd, path) ← raising (← Prog.ask .mkstemp)
  raising (← Prog.ask (.close fd))
  Prog.tryFinally (render fuel text path) do raising (← Prog.ask (.unlink path))

/-- `_run`. -/
def runEngine (fuel : Nat) (text : String) : Tts (List UInt8 × Nat) := do
  raising (← Prog.ask .init)
  Prog.tryFinally (toTempFile fuel text) do raising (← Prog.ask .stop)

/-- The `except` clauses around `_run`. -/
def typed {α : Type} : Exc → Tts α
  | .fault _ => throw (.ttsError "text-to-speech failed")
  | e => throw e

def synthesize (fuel : Nat) (text : String) : Tts (List UInt8 × Nat) :=
  if strip text = "" then throw (.ttsError "empty text")
  else Prog.tryCatch typed (runEngine fuel (upTo maxTextChars (strip text)))

end CallingAgent.Impl.SpeechSynthesis
