import Mathlib.Data.Rat.Floor
import CallingAgent.Framework.Run

/-!
# `services/voice-gateway/conversation.py`: `STTProcessor`,
`services/voice-gateway/stt_provider.py`: `LocalWhisperSTTProvider.transcribe`

Buffers the caller's audio, finds the end of a turn by its silence, and has it
transcribed. A frame comes with what its energy says about it: `is_silent` is a
comparison of floating-point numbers. Frames are handled one at a time, and
`_flush_turn` resets the processor before it awaits the provider, so that a turn
is over once its audio has been passed on, whatever the provider answers.
-/

namespace CallingAgent.Impl.SpeechToText

/-- `InputAudioRawFrame`, with `is_silent`. -/
structure AudioFrame where
  audio : List UInt8
  silent : Bool
  /-- `np.frombuffer(frame.audio, dtype=np.int16)` refuses anything else. -/
  whole : audio.length % 2 = 0
  /-- The energy of an empty frame is 0. -/
  empty : audio = [] → silent = true

structure STTError where
  message : String
  deriving DecidableEq

def WHISPER_SAMPLE_RATE : Nat := 16000

/-! ## `LocalWhisperSTTProvider` -/

/-- `max_bytes`: 30 s of audio. -/
def transcribeMaxBytes : Nat := 30 * WHISPER_SAMPLE_RATE * 2

/-- `transcribe`. `runModel` is `_ensure_model()` and `_run()`, with what is left of
the audio. -/
def transcribe (runModel : List UInt8 → Except STTError String) (audio : List UInt8) (sampleRate : Nat) :
    Except STTError String :=
  if audio = [] then .ok ""
  else if sampleRate ≠ WHISPER_SAMPLE_RATE then
    .error ⟨s!"unexpected sample rate {sampleRate}, expected {WHISPER_SAMPLE_RATE}"⟩
  else runModel (if audio.length > transcribeMaxBytes then audio.take transcribeMaxBytes else audio)

/-! ## `STTProcessor` -/

/-- The arguments of `__init__` that are kept: `_silence_frames_to_end_turn` and
`_max_buffer_bytes`. -/
structure STTConfig where
  silenceFramesToEndTurn : Nat
  maxBufferBytes : Nat

/-- `int(max_buffer_seconds * WHISPER_SAMPLE_RATE * 2)`. -/
def maxBufferBytes (maxBufferSeconds : ℚ) : Nat := ⌊maxBufferSeconds * WHISPER_SAMPLE_RATE * 2⌋₊

/-- The defaults of `__init__`. -/
def STTConfig.default : STTConfig where
  silenceFramesToEndTurn := 15
  maxBufferBytes := SpeechToText.maxBufferBytes 20

structure STTProcessor where
  buffer : List UInt8
  silenceRun : Nat
  speaking : Bool
  deriving DecidableEq

def STTProcessor.init : STTProcessor := ⟨[], 0, false⟩

/-- `_flush_turn`, up to the call of the provider: the processor, and the audio
passed to `transcribe` if it is called. -/
def flushTurn (p : STTProcessor) : STTProcessor × List (List UInt8) :=
  (STTProcessor.init, if p.buffer = [] then [] else [p.buffer])

/-- `len(self._buffer) >= self._max_buffer_bytes`. -/
def flushIfFull (cfg : STTConfig) (p : STTProcessor) : STTProcessor × List (List UInt8) :=
  if p.buffer.length ≥ cfg.maxBufferBytes then flushTurn p else (p, [])

/-- `_handle_audio`. -/
def handleAudio (cfg : STTConfig) (p : STTProcessor) (frame : AudioFrame) : STTProcessor × List (List UInt8) :=
  if !frame.silent then
    flushIfFull cfg { speaking := true, silenceRun := 0, buffer := p.buffer ++ frame.audio }
  else if p.speaking then
    let p' := { p with silenceRun := p.silenceRun + 1, buffer := p.buffer ++ frame.audio }
    if p'.silenceRun ≥ cfg.silenceFramesToEndTurn then flushTurn p' else flushIfFull cfg p'
  else flushIfFull cfg p

/-- The processor after a frame. -/
def step (cfg : STTConfig) (p : STTProcessor) (frame : AudioFrame) : STTProcessor := (handleAudio cfg p frame).1

/-- What a frame has transcribed. -/
def passed (cfg : STTConfig) (p : STTProcessor) (frame : AudioFrame) : List (List UInt8) :=
  (handleAudio cfg p frame).2

/-- A frame that is not silence while no speech is in progress. -/
def kept (p : STTProcessor) (frame : AudioFrame) : List AudioFrame :=
  if frame.silent && !p.speaking then [] else [frame]

end CallingAgent.Impl.SpeechToText
