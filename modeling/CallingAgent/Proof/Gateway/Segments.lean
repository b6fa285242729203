import Mathlib.Data.List.DropRight
import CallingAgent.Framework.Segment
import CallingAgent.Impl.SpeechToText

/-!
# The turns of a caller

`STTProcessor` cuts the frames into turns: it simulates `Segments.push`
(`Sim.step`), where a turn starts with a frame that is not silent and is over
after `silence_frames_to_end_turn` silent frames in a row or when it has
`max_buffer_bytes`. What the processor has passed to the provider and what it
still holds are then the frames of the closed segments and of the current one.
-/

namespace CallingAgent.Proof.Gateway.Segments

open CallingAgent.Framework CallingAgent.Impl.SpeechToText

/-- The audio of some frames. -/
def bytes (frames : List AudioFrame) : List UInt8 := frames.flatMap AudioFrame.audio

/-- The length of the run of silent frames at the end. -/
def trailingSilence (frames : List AudioFrame) : Nat := (frames.rtakeWhile AudioFrame.silent).length

/-- A frame with speech. -/
def speech (f : AudioFrame) : Bool := !f.silent

/-- `n` silent frames have followed the speech, or there are `m` bytes. -/
def closes (n m : Nat) (frames : List AudioFrame) : Bool :=
  n ≤ trailingSilence frames || m ≤ (bytes frames).length

@[simp] theorem bytes_append (xs ys : List AudioFrame) : bytes (xs ++ ys) = bytes xs ++ bytes ys :=
  List.flatMap_append

@[simp] theorem bytes_singleton (f : AudioFrame) : bytes [f] = f.audio := by simp [bytes]

theorem trailingSilence_speech {f : AudioFrame} (h : f.silent = false) (xs : List AudioFrame) :
    trailingSilence (xs ++ [f]) = 0 := by
  rw [trailingSilence, List.rtakeWhile_concat_neg _ _ _ (by simp [h])]; rfl

theorem trailingSilence_silent {f : AudioFrame} (h : f.silent = true) (xs : List AudioFrame) :
    trailingSilence (xs ++ [f]) = trailingSilence xs + 1 := by
  rw [trailingSilence, List.rtakeWhile_concat_pos _ _ _ h, List.length_append]; rfl

/-- A frame with speech is not empty, and neither is what begins with one. -/
theorem audio_ne_nil {f : AudioFrame} (h : f.silent = false) : f.audio ≠ [] := fun e => by
  rw [f.empty e] at h; cases h

theorem bytes_ne_nil {xs : List AudioFrame} {n m : Nat} (h : IsSegment speech (closes n m) xs) :
    bytes xs ≠ [] := by
  obtain ⟨f, rest, rfl, hf⟩ := h.head
  have hne := audio_ne_nil (f := f) (by simpa [speech] using hf)
  simp [bytes, hne]

variable {cfg : STTConfig} {p : STTProcessor} {s : Segments AudioFrame}

/-- The processor holds the current segment. -/
structure Sim (cfg : STTConfig) (p : STTProcessor) (s : Segments AudioFrame) : Prop where
  valid : s.Valid speech (closes cfg.silenceFramesToEndTurn cfg.maxBufferBytes)
  buffer : p.buffer = bytes s.current
  silenceRun : p.silenceRun = trailingSilence s.current
  speaking : p.speaking = !s.current.isEmpty

/-- The processor after `_flush_turn` holds nothing. -/
theorem Sim.init (h : s.Valid speech (closes cfg.silenceFramesToEndTurn cfg.maxBufferBytes))
    (hc : s.current = []) : Sim cfg STTProcessor.init s :=
  ⟨h, by rw [hc]; rfl, by rw [hc]; rfl, by rw [hc]; rfl⟩

/-- What a frame that is kept does, with the processor before it is decided
whether the turn is over. -/
theorem handleAudio_kept (hN : 1 ≤ cfg.silenceFramesToEndTurn) (h : Sim cfg p s) (f : AudioFrame)
    (hf : s.current = [] → speech f = true) :
    handleAudio cfg p f =
      if closes cfg.silenceFramesToEndTurn cfg.maxBufferBytes (s.current ++ [f]) then
        (STTProcessor.init, [bytes (s.current ++ [f])])
      else (⟨bytes (s.current ++ [f]), trailingSilence (s.current ++ [f]), true⟩, []) := by
  have hbuf : p.buffer ++ f.audio = bytes (s.current ++ [f]) := by
    rw [bytes_append, bytes_singleton, h.buffer]
  have hne : bytes (s.current ++ [f]) ≠ [] := bytes_ne_nil (h.valid.isSegment_concat hf)
  cases hs : f.silent with
  | false =>
    have ht := trailingSilence_speech hs s.current
    simp only [handleAudio, hs, Bool.not_false, if_true, flushIfFull, hbuf, flushTurn, hne, if_false, closes, ht]
    simp only [show ¬ cfg.silenceFramesToEndTurn ≤ 0 by omega, decide_false, Bool.false_or, decide_eq_true_eq,
      ge_iff_le]
  | true =>
    have hcur : s.current ≠ [] := fun e => by
      have := hf e
      simp [speech, hs] at this
    have hspk : p.speaking = true := by rw [h.speaking]; simpa using hcur
    have ht : p.silenceRun + 1 = trailingSilence (s.current ++ [f]) := by
      rw [trailingSilence_silent hs, h.silenceRun]
    simp only [handleAudio, hs, hspk, Bool.not_true, Bool.false_eq_true, if_false, if_true, flushIfFull, hbuf, ht,
      flushTurn, hne, closes, Bool.or_eq_true, decide_eq_true_eq, ge_iff_le]
    split
    · rw [if_pos (.inl ‹_›)]
    · simp only [‹¬ _›, false_or]

theorem kept_eq (h : Sim cfg p s) {f : AudioFrame} (hf : s.current = [] → speech f = true) :
    kept p f = [f] := by
  rw [kept, if_neg]
  intro hk
  simp only [Bool.and_eq_true, Bool.not_eq_true'] at hk
  have hspeech := hf (by simpa [h.speaking] using hk.2)
  simp [speech, hk.1] at hspeech

/-- One frame: the processor and the segments move together, what is passed on
is the segment that is closed, and the frames kept are those not skipped. -/
theorem Sim.step (hN : 1 ≤ cfg.silenceFramesToEndTurn) (hM : 1 ≤ cfg.maxBufferBytes) (h : Sim cfg p s)
    (f : AudioFrame) :
    let s' := s.push speech (closes cfg.silenceFramesToEndTurn cfg.maxBufferBytes) f
    Sim cfg (step cfg p f) s' ∧
      s'.closed.map (bytes ∘ Prod.snd) = s.closed.map (bytes ∘ Prod.snd) ++ passed cfg p f ∧
      s'.kept = s.kept ++ kept p f := by
  have hv := h.valid.push f
  obtain ⟨hc, hf, e⟩ | ⟨hf, hover, e⟩ | ⟨hf, hover, e⟩ :=
    Segments.push_cases speech (closes cfg.silenceFramesToEndTurn cfg.maxBufferBytes) s f
  · -- silence while no speech is in progress
    have hs : f.silent = true := by simpa [speech] using hf
    have hspk : p.speaking = false := by rw [h.speaking, hc]; rfl
    have hbuf : ¬ p.buffer.length ≥ cfg.maxBufferBytes := by rw [h.buffer, hc]; simp [bytes]; omega
    have hp : handleAudio cfg p f = (p, []) := by
      simp [handleAudio, hs, hspk, flushIfFull, hbuf]
    rw [e] at hv ⊢
    refine ⟨⟨hv, ?_, ?_, ?_⟩, ?_, ?_⟩
    · rw [Impl.SpeechToText.step, hp]; exact h.buffer
    · rw [Impl.SpeechToText.step, hp]; exact h.silenceRun
    · rw [Impl.SpeechToText.step, hp]; exact h.speaking
    · rw [passed, hp, List.append_nil]
    · simp [kept, hs, hspk, Segments.kept]
  · have hk := kept_eq h hf
    have hp := handleAudio_kept hN h f hf
    rw [if_pos hover] at hp
    rw [e] at hv ⊢
    refine ⟨?_, ?_, ?_⟩
    · rw [Impl.SpeechToText.step, hp]; exact Sim.init hv rfl
    · rw [passed, hp, List.map_append]; rfl
    · simp [hk, Segments.kept]
  · have hk := kept_eq h hf
    have hp := handleAudio_kept hN h f hf
    rw [if_neg (by simp [hover])] at hp
    rw [e] at hv ⊢
    refine ⟨?_, ?_, ?_⟩
    · rw [Impl.SpeechToText.step, hp]
      exact ⟨hv, rfl, rfl, by simp⟩
    · rw [passed, hp, List.append_nil]
    · simp [hk, Segments.kept]

/-- The segments of some frames. -/
def segments (cfg : STTConfig) (frames : List AudioFrame) : Segments AudioFrame :=
  run (Segments.push speech (closes cfg.silenceFramesToEndTurn cfg.maxBufferBytes)) Segments.empty frames

theorem sim_run (hN : 1 ≤ cfg.silenceFramesToEndTurn) (hM : 1 ≤ cfg.maxBufferBytes) (frames : List AudioFrame) :
    Sim cfg (run (step cfg) STTProcessor.init frames) (segments cfg frames) ∧
      (segments cfg frames).closed.map (bytes ∘ Prod.snd) = collect (step cfg) (passed cfg) STTProcessor.init frames ∧
      (segments cfg frames).kept = collect (step cfg) kept STTProcessor.init frames := by
  induction frames using List.reverseRecOn with
  | nil => exact ⟨Sim.init (Segments.valid_run []) rfl, rfl, rfl⟩
  | append_singleton frames f ih =>
    obtain ⟨hsim, hpassed, hkept⟩ := ih
    obtain ⟨hsim', hpassed', hkept'⟩ := hsim.step hN hM f
    simp only [segments, run_concat, collect_concat] at *
    exact ⟨hsim', by rw [hpassed', hpassed], by rw [hkept', hkept]⟩

/-! ## What the processor holds between frames -/

theorem Sim.length_buffer_lt (hM : 1 ≤ cfg.maxBufferBytes) (h : Sim cfg p s) :
    p.buffer.length < cfg.maxBufferBytes := by
  rw [h.buffer]
  rcases h.valid.current with hc | ⟨-, hover⟩
  · rw [hc]; simp [bytes]; omega
  · simp only [closes, Bool.or_eq_false_iff, decide_eq_false_iff_not] at hover
    omega

theorem Sim.silenceRun_lt (hN : 1 ≤ cfg.silenceFramesToEndTurn) (h : Sim cfg p s) :
    p.silenceRun < cfg.silenceFramesToEndTurn := by
  rw [h.silenceRun]
  rcases h.valid.current with hc | ⟨-, hover⟩
  · rw [hc]; simp [trailingSilence]; omega
  · simp only [closes, Bool.or_eq_false_iff, decide_eq_false_iff_not] at hover
    omega

theorem Sim.buffer_eq_nil_iff (h : Sim cfg p s) : p.buffer = [] ↔ p.speaking = false := by
  rw [h.buffer, h.speaking]
  rcases h.valid.current with hc | ⟨hseg, -⟩
  · rw [hc]; simp [bytes]
  · obtain ⟨f, rest, e, -⟩ := hseg.head
    exact iff_of_false (bytes_ne_nil hseg) (by simp [e])

/-- A turn is over as soon as it has `m` bytes, so that only its last frame may
go beyond. -/
theorem length_segment_lt {n m k : Nat} {xs : List AudioFrame} (hm : 1 ≤ m)
    (h : IsSegment speech (closes n m) xs) (hk : ∀ f ∈ xs, f.audio.length ≤ k) : (bytes xs).length < m + k := by
  obtain ⟨ys, f, rfl, hys⟩ := h.exists_concat
  have hf := hk f (by simp)
  have hlen : (bytes ys).length < m := by
    rcases hys with rfl | hover
    · simp [bytes]; omega
    · simp only [closes, Bool.or_eq_false_iff, decide_eq_false_iff_not] at hover
      omega
  rw [bytes_append, bytes_singleton, List.length_append]
  omega

/-- The audio of the segments and of the current one is that of the frames kept. -/
theorem bytes_kept (s : Segments AudioFrame) :
    (s.closed.map (bytes ∘ Prod.snd)).flatten ++ bytes s.current = bytes s.kept := by
  rw [Segments.kept, bytes_append, ← List.flatMap_def]
  simp only [bytes, List.flatMap_assoc, Function.comp_def]

theorem default_maxBufferBytes : STTConfig.default.maxBufferBytes = 640000 := by
  simp only [STTConfig.default, maxBufferBytes, WHISPER_SAMPLE_RATE]
  norm_num

/-- The limit of `transcribe` leaves audio of at most 30 s as it is. -/
theorem transcribe_eq {runModel : List UInt8 → Except STTError String} {audio : List UInt8} (hne : audio ≠ [])
    (hlen : audio.length ≤ transcribeMaxBytes) : transcribe runModel audio WHISPER_SAMPLE_RATE = runModel audio := by
  rw [transcribe, if_neg hne, if_neg (by simp), if_neg (by omega)]

/-- Whatever frames come, the audio passed to `transcribe` and the buffer are, in
order, the frames that were not silence while no speech was in progress. They
are cut into turns: each starts with a frame that is not silent, and ends with
the first frame with which `silence_frames_to_end_turn` silent frames in a row
have followed the speech or `max_buffer_bytes` are reached. With the default of
20 s and frames of at most 10 s, `transcribe` gets all of it to the model. -/
theorem segmentation (cfg : STTConfig) (hN : 1 ≤ cfg.silenceFramesToEndTurn) (hM : 1 ≤ cfg.maxBufferBytes)
    (frames : List AudioFrame) :
    let p := run (step cfg) STTProcessor.init frames
    let audios := collect (step cfg) (passed cfg) STTProcessor.init frames
    let keptFrames := collect (step cfg) kept STTProcessor.init frames
    audios.flatten ++ p.buffer = bytes keptFrames ∧
    (∃ s : Segments AudioFrame, s.items = frames ∧ s.kept = keptFrames ∧
      s.Valid speech (closes cfg.silenceFramesToEndTurn cfg.maxBufferBytes) ∧
      audios = s.closed.map (fun c => bytes c.2) ∧ p.buffer = bytes s.current ∧
      p.silenceRun = trailingSilence s.current) ∧
    p.buffer.length < cfg.maxBufferBytes ∧ p.silenceRun < cfg.silenceFramesToEndTurn ∧
    (p.buffer = [] ↔ p.speaking = false) ∧
    (cfg.maxBufferBytes = STTConfig.default.maxBufferBytes →
      (∀ f ∈ frames, f.audio.length ≤ 10 * WHISPER_SAMPLE_RATE * 2) →
      ∀ runModel, ∀ audio ∈ audios, transcribe runModel audio WHISPER_SAMPLE_RATE = runModel audio) := by
  intro p audios keptFrames
  obtain ⟨hsim, hpassed, hkept⟩ := sim_run hN hM frames
  have hitems : (segments cfg frames).items = frames := Segments.items_run frames
  refine ⟨?_, ⟨_, hitems, hkept, hsim.valid, hpassed.symm, hsim.buffer, hsim.silenceRun⟩,
    hsim.length_buffer_lt hM, hsim.silenceRun_lt hN, hsim.buffer_eq_nil_iff, fun hdef hframes runModel audio ha => ?_⟩
  · show audios.flatten ++ (run (step cfg) STTProcessor.init frames).buffer = bytes keptFrames
    rw [hsim.buffer, show audios = _ from hpassed.symm, show keptFrames = _ from hkept.symm, bytes_kept]
  · have hmem : audio ∈ (segments cfg frames).closed.map (bytes ∘ Prod.snd) := hpassed ▸ ha
    obtain ⟨c, hc, rfl⟩ := List.mem_map.mp hmem
    obtain ⟨-, hseg, -⟩ := hsim.valid.closed c hc
    have hlen := length_segment_lt hM hseg fun f hf =>
      hframes f (hitems ▸ Segments.mem_items_of_closed hc hf)
    refine transcribe_eq (bytes_ne_nil hseg) ?_
    simp only [hdef, default_maxBufferBytes, WHISPER_SAMPLE_RATE, transcribeMaxBytes, Function.comp] at hlen ⊢
    omega

/-- A frame of one sample, loud or not. -/
def sampleFrame (loud : Bool) : AudioFrame where
  audio := if loud then [0, 64] else [0, 0]
  silent := !loud
  whole := by cases loud <;> rfl
  empty := by cases loud <;> simp

theorem segmentation_one_turn :
    (1 ≤ STTConfig.default.silenceFramesToEndTurn ∧ 1 ≤ STTConfig.default.maxBufferBytes) ∧
    (∀ f ∈ sampleFrame true :: List.replicate 15 (sampleFrame false),
      f.audio.length ≤ 10 * WHISPER_SAMPLE_RATE * 2) ∧
    ∃ audio ∈ collect (step STTConfig.default) (passed STTConfig.default) STTProcessor.init
        (sampleFrame true :: List.replicate 15 (sampleFrame false)),
      ∀ runModel, transcribe runModel audio WHISPER_SAMPLE_RATE = runModel audio := by
  have hframes : ∀ f ∈ sampleFrame true :: List.replicate 15 (sampleFrame false),
      f.audio.length ≤ 10 * WHISPER_SAMPLE_RATE * 2 := by decide
  have hM : 1 ≤ STTConfig.default.maxBufferBytes := by rw [default_maxBufferBytes]; decide
  have hseg := segmentation STTConfig.default (by decide) hM
    (sampleFrame true :: List.replicate 15 (sampleFrame false))
  have hmem : bytes (sampleFrame true :: List.replicate 15 (sampleFrame false)) ∈
      collect (step STTConfig.default) (passed STTConfig.default) STTProcessor.init
        (sampleFrame true :: List.replicate 15 (sampleFrame false)) := by
    rw [show STTConfig.default = ⟨15, 640000⟩ from congrArg (STTConfig.mk 15) default_maxBufferBytes]
    decide
  exact ⟨⟨by decide, hM⟩, hframes, _, hmem, fun runModel => hseg.2.2.2.2.2 rfl hframes runModel _ hmem⟩

end CallingAgent.Proof.Gateway.Segments
