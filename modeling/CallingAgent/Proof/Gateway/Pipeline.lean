import CallingAgent.Proof.Gateway.Conversation
import CallingAgent.Proof.Gateway.Segments
import CallingAgent.Spec.PhoneCall

/-!
# What a caller gets to hear

Each of the three processors of a call realizes a transducer: the two that have their
state to themselves realize what they do at once, and `AIProcessor`, whose turns are in
the session store, realizes `converse` (`simulates_converse`). The pipeline then
realizes the three one after the other (`realizes_pipeline`), which are read off frame
by frame as what `Spec.PhoneCall` says.
-/

namespace CallingAgent.Proof.Gateway.Pipeline

open CallingAgent.Framework CallingAgent.Impl CallingAgent.Impl.CallPipeline CallingAgent.Impl.SpeechToText
open CallingAgent.Spec.PhoneCall
open CallingAgent.Impl.SessionManager (Config Role Turn Outcome Session Store)
open CallingAgent.Impl.Conversation (AIError World History AIProcessor response processFrame respond)
open CallingAgent.Proof.Gateway.Conversation (saidIn saidIn_addTurn exec_keeps processFrame_mem_of_ne
  respond_mem_of_ne processFrame_transcription)
open CallingAgent.Proof.Gateway.SessionOps (exec_addTurn_mem)

/-! ## `AIProcessor` -/

variable {cfg : Config} {c : CallId} {provider : Said → Except AIError String}

/-- What `_respond` makes of what has been said. -/
def reply (provider : Said → Except AIError String) (said : Said) : String := response (provider said)

/-- Whether the caller has been greeted, and what has been said. -/
def converse (provider : Said → Except AIError String) (said : Said) : Transducer (Bool × Said) Frame Frame where
  start := (false, said)
  step s
    | .start =>
      if s.1 then (s, [.start]) else ((true, greeted (reply provider) s.2), [.start, .text (reply provider [])])
    | .transcription t =>
      ((s.1, exchange (reply provider) s.2 t), [.text (reply provider (s.2 ++ [(.user, t)]))])
    | frame => (s, [frame])

/-- The session of the call holds what has been said. -/
def Holds (c : CallId) (w : World) (said : Said) : Prop :=
  ∃ session, w.store.mem c = some session ∧ saidIn session = said

/-- No provider is awaited. -/
def Idle (c : CallId) (w : World) (s : Bool × Said) : Prop :=
  w.processors c = ⟨s.1, none⟩ ∧ Holds c w s.2

/-- The provider is awaited, with what has been said up to its answer. -/
def Awaits (provider : Said → Except AIError String) (c : CallId) (history : History) (w : World) (s : Bool × Said)
    (owed : List Frame) : Prop :=
  w.processors c = ⟨s.1, some history⟩ ∧
    owed = [.text (reply provider (shown (w.turns c history)))] ∧
    ∃ said, Holds c w said ∧ s.2 = said ++ [(.assistant, reply provider (shown (w.turns c history)))]

/-- Other code keeps the processor and the turns. -/
theorem disturb_keeps (cfg : Config) {w : World} {a : Conversation.Action} (ha : elsewhere c a = true) :
    (Conversation.step cfg w a).processors c = w.processors c ∧
      ∀ session, w.store.mem c = some session →
        ∃ session', (Conversation.step cfg w a).store.mem c = some session' ∧ session'.turns = session.turns := by
  cases a with
  | tick d => exact ⟨rfl, fun session h => ⟨session, h, rfl⟩⟩
  | frame d frame faults =>
    have hne : c ≠ d := Ne.symm (bne_iff_ne.mp ha)
    simp only [Conversation.step]
    split
    · refine ⟨Function.update_of_ne hne _ _, fun session h => ⟨session, ?_, rfl⟩⟩
      exact (processFrame_mem_of_ne hne _ _ _).trans h
    · exact ⟨rfl, fun session h => ⟨session, h, rfl⟩⟩
  | reply d answer faults =>
    have hne : c ≠ d := Ne.symm (bne_iff_ne.mp ha)
    simp only [Conversation.step]
    split
    · refine ⟨Function.update_of_ne hne _ _, fun session h => ⟨session, ?_, rfl⟩⟩
      exact (respond_mem_of_ne hne _ (w.processors d) _).trans h
    · exact ⟨rfl, fun session h => ⟨session, h, rfl⟩⟩
  | call op faults =>
    refine ⟨rfl, fun session h => ?_⟩
    have hop : Proof.Gateway.Conversation.Keeps c (.call op faults) := by
      intro e
      cases op with
      | get d => exact .inl ⟨d, rfl⟩
      | endSession d => exact .inr ⟨d, rfl⟩
      | create d tenantId agentId => exact absurd e (bne_iff_ne.mp ha)
      | remove d => exact absurd e (bne_iff_ne.mp ha)
      | addTurn d role text => exact absurd e (bne_iff_ne.mp ha)
    exact exec_keeps (s := w.withFaults faults) h hop

theorem Holds.disturb {w : World} {said : Said} (h : Holds c w said) {a : Conversation.Action}
    (ha : elsewhere c a = true) : Holds c (Conversation.step cfg w a) said := by
  obtain ⟨session, hs, hsaid⟩ := h
  obtain ⟨session', hs', hturns⟩ := (disturb_keeps cfg ha).2 session hs
  exact ⟨session', hs', by rw [saidIn, hturns]; exact hsaid⟩

/-- What the provider is shown is what the session holds, or nothing. -/
theorem shown_turns {w : World} {said : Said} (h : Holds c w said) (history : History) :
    shown (w.turns c history) = match history with
      | .empty => []
      | .session => said := by
  cases history with
  | empty => rfl
  | session =>
    obtain ⟨session, hs, rfl⟩ := h
    simp only [World.turns, hs]
    rfl

/-- A frame is taken. -/
theorem take_eq {w : World} (h : (w.processors c).pending = none) (faults : List Outcome) (frame : Frame) :
    (aiProcessor cfg c provider).take w faults frame =
      let x := processFrame cfg (w.withFaults faults) c (w.processors c) (toConversation frame)
      (w.set c x, x.2.2.map (fromConversation frame), x.2.1.pending) := by
  simp only [aiProcessor, Conversation.step, Conversation.pushed, h, and_self, if_true]
  exact congrArg (fun p : AIProcessor => (_, _, p.pending)) (Function.update_self ..)

/-- The provider answers. -/
theorem resume_eq {w : World} {history : History} (h : (w.processors c).pending = some history) (faults : List Outcome) :
    (aiProcessor cfg c provider).resume w faults history =
      let r := reply provider (shown (w.turns c history))
      (w.set c (respond cfg (w.withFaults faults) c (w.processors c) (provider (shown (w.turns c history)))), [.text r]) := by
  simp only [aiProcessor, Conversation.step, Conversation.pushed, h, true_and, ne_eq, reduceCtorEq, not_false_eq_true,
    if_true]
  rfl

theorem simulates_converse (cfg : Config) (c : CallId) (provider : Said → Except AIError String) (said : Said) :
    (aiProcessor cfg c provider).Simulates (converse provider said) (Idle c) (Awaits provider c) where
  take w s faults frame h := by
    obtain ⟨greeted, said⟩ := s
    obtain ⟨hp, session, hs, rfl⟩ := h
    have hpending : (w.processors c).pending = none := by rw [hp]
    rw [take_eq hpending, hp]
    have hself : ∀ x, (w.set c x).processors c = x.2.1 := fun x => Function.update_self ..
    cases frame with
    | start =>
      cases greeted with
      | true => exact ⟨rfl, hself _, session, hs, rfl⟩
      | false => exact ⟨_, rfl, hself _, rfl, _, ⟨session, hs, rfl⟩, rfl⟩
    | transcription t =>
      have hw : (w.withFaults faults).mem c = some session := hs
      obtain ⟨hmem, hrest⟩ := processFrame_transcription cfg hw ⟨greeted, none⟩ t
      simp only [toConversation, hrest, List.map_nil]
      have hholds : Holds c (w.set c (processFrame cfg (w.withFaults faults) c ⟨greeted, none⟩ (.transcription t)))
          (saidIn session ++ [(.user, t)]) := ⟨_, hmem, saidIn_addTurn ..⟩
      have hshown := shown_turns hholds .session
      refine ⟨_, rfl, (hself _).trans (by rw [hrest]; rfl), ?_, _, hholds, ?_⟩
      · exact congrArg (fun x => [Frame.text (reply provider x)]) hshown.symm
      · refine (List.append_assoc (saidIn session) [(Role.user, t)] [_]).symm.trans ?_
        exact congrArg (fun x => saidIn session ++ [(.user, t)] ++ [(Role.assistant, reply provider x)]) hshown.symm
    | inputAudio _ => exact ⟨rfl, hself _, session, hs, rfl⟩
    | ending => exact ⟨rfl, hself _, session, hs, rfl⟩
    | text _ => exact ⟨rfl, hself _, session, hs, rfl⟩
    | outputAudio _ => exact ⟨rfl, hself _, session, hs, rfl⟩
    | other => exact ⟨rfl, hself _, session, hs, rfl⟩
  resume w s faults history owed h := by
    obtain ⟨hp, rfl, said', ⟨session, hs, rfl⟩, hsaid⟩ := h
    have hpending : (w.processors c).pending = some history := by rw [hp]
    rw [resume_eq hpending]
    have hw : (w.withFaults faults).mem c = some session := hs
    refine ⟨rfl, (Function.update_self ..).trans ?_, _, exec_addTurn_mem cfg hw .assistant _, ?_⟩
    · rw [hp]
      rfl
    · rw [saidIn_addTurn, hsaid]
      rfl
  disturb w s a h := by
    obtain ⟨hp, hsaid⟩ := h
    exact ⟨(disturb_keeps cfg a.2).1.trans hp, hsaid.disturb a.2⟩
  disturb_mid w s a history owed h := by
    obtain ⟨hp, howed, said', hsaid, hs⟩ := h
    have hshown : shown ((Conversation.step cfg w a).turns c history) = shown (w.turns c history) := by
      rw [shown_turns hsaid, shown_turns (hsaid.disturb a.2)]
    refine ⟨(disturb_keeps cfg a.2).1.trans hp, ?_, said', hsaid.disturb a.2, ?_⟩
    · rw [howed]; exact congrArg (fun x => [Frame.text (reply provider x)]) hshown.symm
    · rw [hs]; exact congrArg (fun x => said' ++ [(Role.assistant, reply provider x)]) hshown.symm

/-! ## The pipeline -/

/-- The three, each at once and one after the other. -/
def sttMeant (env : Env) : Transducer STT Frame Frame := (sttProcessor env.stt env.transcribe).atOnce () ⟨.init, 0⟩

def ttsMeant (env : Env) : Transducer Nat Frame Frame := (ttsProcessor env.synthesize).atOnce () 0

def meant (env : Env) (said : Said) : List Frame → List Frame :=
  ((ttsMeant env).outputs ∘ (converse env.generateResponse said).outputs) ∘ (sttMeant env).outputs

theorem realizes_stt (env : Env) :
    (sttProcessor env.stt env.transcribe).queued.Realizes (Processor.fresh (⟨.init, 0⟩ : STT)) (sttMeant env).outputs :=
  (Processor.simulates_atOnce _ () (⟨.init, 0⟩ : STT)).realizes () rfl

theorem realizes_tts (env : Env) :
    (ttsProcessor env.synthesize).queued.Realizes (Processor.fresh 0) (ttsMeant env).outputs :=
  (Processor.simulates_atOnce _ () 0).realizes () rfl

theorem realizes_ai (env : Env) {w : World} {said : Said} (h : Idle env.callId w (false, said)) :
    (aiProcessor env.sessions env.callId env.generateResponse).queued.Realizes (Processor.fresh w)
      (converse env.generateResponse said).outputs :=
  (simulates_converse _ _ _ said).realizes [] h

theorem realizes_pipeline (env : Env) {w : World} {said : Said} (h : Idle env.callId w (false, said)) :
    (pipeline env).Realizes (start w) (meant env said) := by
  have hlater := (realizes_ai env h).pipe (realizes_tts env) fun _ _ => (ttsMeant env).outputs_mono
  refine (realizes_stt env).pipe hlater fun xs ys hxy => ?_
  exact (ttsMeant env).outputs_mono ((converse env.generateResponse said).outputs_mono hxy)

/-! ## Frame by frame -/

/-- The frames of a call that goes on, once it has started. -/
def Ongoing (f : Frame) : Prop := (∃ frame, f = .inputAudio frame) ∨ f = .other

def inputAudio : List Frame → List AudioFrame := List.filterMap fun
  | .inputAudio frame => some frame
  | _ => none

def transcriptions : List Frame → List String := List.filterMap fun
  | .transcription text => some text
  | _ => none

def texts : List Frame → List String := List.filterMap fun
  | .text text => some text
  | _ => none

/-- What reaches the caller. -/
def heard : List Frame → List Audio := List.filterMap fun
  | .outputAudio audio => some audio
  | _ => none

/-- A frame passes at most one turn on. -/
theorem passed_eq (cfg : STTConfig) (p : STTProcessor) (frame : AudioFrame) :
    passed cfg p frame = (handleAudio cfg p frame).2.head?.toList := by
  have hflush : ∀ q : STTProcessor, (flushTurn q).2 = (flushTurn q).2.head?.toList := fun q => by
    simp only [flushTurn]
    split <;> rfl
  have hfull : ∀ q : STTProcessor, (flushIfFull cfg q).2 = (flushIfFull cfg q).2.head?.toList := fun q => by
    unfold flushIfFull
    split
    · exact hflush q
    · rfl
  unfold passed handleAudio
  split
  · exact hfull _
  · split
    · dsimp only
      split
      · exact hflush _
      · exact hfull _
    · exact hfull _

theorem understood_cons (transcribe : Nat → List UInt8 → Except STTError String) (n : Nat) (audio : List UInt8)
    (audios : List (List UInt8)) :
    understood transcribe n (audio :: audios) =
      transcriptions (transcribed (transcribe n audio)) ++ understood transcribe (n + 1) audios := by
  rw [understood]
  refine congrArg (· ++ understood transcribe (n + 1) audios) ?_
  cases transcribe n audio with
  | error e => rfl
  | ok text =>
    simp only [transcribed]
    split <;> rfl

/-- An audio frame: at most one turn is transcribed. -/
theorem stt_inputAudio (env : Env) (s : STT) (frame : AudioFrame) :
    (passed env.stt s.processor frame = [] ∧
      (sttMeant env).step s (.inputAudio frame) = (⟨step env.stt s.processor frame, s.calls⟩, [])) ∨
    ∃ audio, passed env.stt s.processor frame = [audio] ∧
      (sttMeant env).step s (.inputAudio frame) =
        (⟨step env.stt s.processor frame, s.calls + 1⟩, transcribed (env.transcribe s.calls audio)) := by
  have hpassed := passed_eq env.stt s.processor frame
  cases haudio : (handleAudio env.stt s.processor frame).2.head? with
  | none =>
    refine .inl ⟨by rw [hpassed, haudio]; rfl, ?_⟩
    simp only [sttMeant, Processor.atOnce, sttProcessor, STT.take, haudio]
    rfl
  | some audio =>
    refine .inr ⟨audio, by rw [hpassed, haudio]; rfl, ?_⟩
    simp only [sttMeant, Processor.atOnce, sttProcessor, STT.take, haudio]
    rfl

theorem transcriptions_append (fs gs : List Frame) : transcriptions (fs ++ gs) = transcriptions fs ++ transcriptions gs :=
  List.filterMap_append

theorem heard_append (fs gs : List Frame) : heard (fs ++ gs) = heard fs ++ heard gs := List.filterMap_append

theorem mem_transcribed {answer : Except STTError String} {g : Frame} (h : g ∈ transcribed answer) :
    ∃ t, g = .transcription t := by
  cases answer with
  | error e => simp [transcribed] at h
  | ok text =>
    simp only [transcribed] at h
    split at h
    · simp at h
    · exact ⟨_, List.mem_singleton.mp h⟩

/-- `STTProcessor` passes on what is understood of the turns. -/
theorem transcriptions_stt (env : Env) (s : STT) {fs : List Frame} (h : ∀ f ∈ fs, Ongoing f) :
    transcriptions ((sttMeant env).outputsFrom s fs) =
        understood env.transcribe s.calls (collect (step env.stt) (passed env.stt) s.processor (inputAudio fs)) ∧
      ∀ g ∈ (sttMeant env).outputsFrom s fs, (∃ t, g = .transcription t) ∨ g = .other := by
  induction fs generalizing s with
  | nil => exact ⟨rfl, nofun⟩
  | cons f fs ih =>
    have hrest := fun s' => ih s' fun g hg => h g (List.mem_cons_of_mem _ hg)
    rcases h f List.mem_cons_self with ⟨frame, rfl⟩ | rfl
    · rw [show inputAudio (.inputAudio frame :: fs) = frame :: inputAudio fs from rfl, collect]
      rcases stt_inputAudio env s frame with ⟨hnone, hstep⟩ | ⟨audio, hsome, hstep⟩
      · rw [Transducer.outputsFrom_cons, hstep, hnone]
        exact hrest _
      · obtain ⟨htext, hmem⟩ := hrest ⟨step env.stt s.processor frame, s.calls + 1⟩
        rw [Transducer.outputsFrom_cons, hstep, hsome, transcriptions_append, htext, List.singleton_append,
          understood_cons]
        refine ⟨rfl, fun g hg => ?_⟩
        rcases List.mem_append.mp hg with hg | hg
        · exact .inl (mem_transcribed hg)
        · exact hmem g hg
    · obtain ⟨htext, hmem⟩ := hrest s
      refine ⟨htext, fun g hg => ?_⟩
      rcases List.mem_cons.mp hg with rfl | hg
      · exact .inr rfl
      · exact hmem g hg

/-- `AIProcessor` answers what is transcribed. -/
theorem texts_converse (provider : Said → Except AIError String) (said said₀ : Said) {gs : List Frame}
    (h : ∀ g ∈ gs, (∃ t, g = .transcription t) ∨ g = .other) :
    texts ((converse provider said₀).outputsFrom (true, said) gs) =
        answers (reply provider) said (transcriptions gs) ∧
      (converse provider said₀).afterFrom (true, said) gs =
        (true, (transcriptions gs).foldl (exchange (reply provider)) said) ∧
      ∀ g ∈ (converse provider said₀).outputsFrom (true, said) gs, (∃ t, g = .text t) ∨ g = .other := by
  induction gs generalizing said with
  | nil => exact ⟨rfl, rfl, nofun⟩
  | cons g gs ih =>
    have hrest := fun said' => ih said' fun g hg => h g (List.mem_cons_of_mem _ hg)
    rcases h g List.mem_cons_self with ⟨t, rfl⟩ | rfl
    · obtain ⟨htext, hafter, hmem⟩ := hrest (exchange (reply provider) said t)
      refine ⟨congrArg (List.cons _) htext, hafter, fun g hg => ?_⟩
      rcases List.mem_cons.mp hg with rfl | hg
      · exact .inl ⟨_, rfl⟩
      · exact hmem g hg
    · obtain ⟨htext, hafter, hmem⟩ := hrest said
      refine ⟨htext, hafter, fun g hg => ?_⟩
      rcases List.mem_cons.mp hg with rfl | hg
      · exact .inr rfl
      · exact hmem g hg

theorem heard_synthesized (answer : Except TTSError Audio) :
    heard (synthesized answer) = match answer with
      | .ok audio => [audio]
      | .error _ => [] := by
  cases answer <;> rfl

/-- `TTSProcessor` gives the texts a voice. -/
theorem heard_tts (env : Env) (n : Nat) {gs : List Frame} (h : ∀ g ∈ gs, (∃ t, g = .text t) ∨ g = .other ∨ g = .start) :
    heard ((ttsMeant env).outputsFrom n gs) = voiced env.synthesize n (texts gs) := by
  induction gs generalizing n with
  | nil => rfl
  | cons g gs ih =>
    have hrest := fun n' => ih n' fun g hg => h g (List.mem_cons_of_mem _ hg)
    rcases h g List.mem_cons_self with ⟨t, rfl⟩ | rfl | rfl
    · rw [Transducer.outputsFrom_cons, heard_append, show texts (.text t :: gs) = t :: texts gs from rfl, voiced]
      by_cases hblank : Text.strip t = ""
      · rw [if_pos hblank, show (ttsMeant env).step n (.text t) = (n, []) by
          simp [ttsMeant, Processor.atOnce, ttsProcessor, ttsTake, hblank]]
        exact hrest n
      · rw [if_neg hblank, show (ttsMeant env).step n (.text t) = (n + 1, synthesized (env.synthesize n t)) by
          simp [ttsMeant, Processor.atOnce, ttsProcessor, ttsTake, hblank], heard_synthesized]
        exact congrArg (_ ++ ·) (hrest (n + 1))
    · exact hrest n
    · exact hrest n

/-- All the frames of a call together. -/
theorem heard_meant (env : Env) (said : Said) {fs : List Frame} (h : ∀ f ∈ fs, Ongoing f) :
    let ts := understood env.transcribe 0 (collect (step env.stt) (passed env.stt) STTProcessor.init (inputAudio fs))
    heard (meant env said (.start :: fs)) =
        voiced env.synthesize 0 (speeches (reply env.generateResponse) said ts) ∧
      ((converse env.generateResponse said).after ((sttMeant env).outputs (.start :: fs))).2 =
        record (reply env.generateResponse) said ts := by
  intro ts
  obtain ⟨htranscribed, hstt⟩ := transcriptions_stt env ⟨.init, 0⟩ h
  obtain ⟨htexts, hafter, hai⟩ := texts_converse env.generateResponse
    (greeted (reply env.generateResponse) said) said hstt
  rw [htranscribed] at htexts hafter
  refine ⟨?_, congrArg Prod.snd hafter⟩
  have hmem : ∀ g ∈ (converse env.generateResponse said).outputs ((sttMeant env).outputs (.start :: fs)),
      (∃ t, g = .text t) ∨ g = .other ∨ g = .start := fun g hg => by
    rcases List.mem_cons.mp hg with rfl | hg
    · exact .inr (.inr rfl)
    rcases List.mem_cons.mp hg with rfl | hg
    · exact .inl ⟨_, rfl⟩
    · exact (hai g hg).imp_right .inl
  exact (heard_tts env 0 hmem).trans (congrArg (voiced env.synthesize 0) (congrArg (List.cons _) htexts))

/-- When the pipeline is idle, the session has what has been said. -/
theorem holds_said (env : Env) {w : World} {said : Said} (h : Idle env.callId w (false, said))
    {as : List (Frame ⊕ CallPipeline.Action env.callId)}
    (hidle : (pipeline env).idle (run (pipeline env).step (start w) as)) :
    Holds env.callId (run (pipeline env).step (start w) as).2.1.state
      ((converse env.generateResponse said).after ((sttMeant env).outputs (Stage.arrived as))).2 := by
  obtain ⟨hrun, harr, -⟩ := Stage.run_pipe (sttProcessor env.stt env.transcribe).queued _ (Processor.fresh ⟨.init, 0⟩)
    (Processor.fresh w, Processor.fresh 0) as
  rw [pipeline, start, hrun] at hidle ⊢
  have hstt := (realizes_stt env).complete _ hidle.1
  obtain ⟨hrun', harr', -⟩ := Stage.run_pipe (aiProcessor env.sessions env.callId env.generateResponse).queued
    (ttsProcessor env.synthesize).queued (Processor.fresh w) (Processor.fresh 0) (Stage.seconds _ _ _ as)
  have hrest := hidle.2
  rw [hrun'] at hrest ⊢
  have hrelated := (simulates_converse _ _ _ said).related h hrest.1
  rw [Stage.arrived_firsts, harr, hstt, Stage.arrived_firsts] at hrelated
  exact hrelated.2

/-- What a caller gets to hear. Whatever the providers answer, and however the
processors of a call with a session, its Redis and the rest of the process (which leaves
the session alone, `elsewhere`) take their turns, what has reached the caller is a
beginning of the audio for the greeting and for the answers to the turns understood so
far. When the processors are idle, which they always can become, it is all of it, and the
session has what has been said. -/
theorem call_heard (env : Env) (w : World) (session₀ : Session) (hsession : w.store.mem env.callId = some session₀)
    (hnew : w.processors env.callId = AIProcessor.init) (fs : List Frame) (hfs : ∀ f ∈ fs, Ongoing f)
    (as : List (Frame ⊕ CallPipeline.Action env.callId)) (harrived : Stage.arrived as = .start :: fs) :
    let ts := understood env.transcribe 0 (collect (step env.stt) (passed env.stt) STTProcessor.init (inputAudio fs))
    let audios := voiced env.synthesize 0 (speeches (reply env.generateResponse) (saidIn session₀) ts)
    let s := run (pipeline env).step (start w) as
    heard ((pipeline env).outputs (start w) as) <+: audios ∧
      ((pipeline env).idle s → heard ((pipeline env).outputs (start w) as) = audios ∧
        Holds env.callId s.2.1.state (record (reply env.generateResponse) (saidIn session₀) ts)) ∧
      ∃ bs : List (CallPipeline.Action env.callId),
        (pipeline env).idle (run (pipeline env).step (start w) (as ++ bs.map .inr)) := by
  intro ts audios s
  have hidle : Idle env.callId w (false, saidIn session₀) := ⟨hnew, session₀, hsession, rfl⟩
  have hreal := realizes_pipeline env hidle
  obtain ⟨hheard, hrecord⟩ := heard_meant env (saidIn session₀) hfs
  refine ⟨?_, fun hs => ⟨?_, ?_⟩, hreal.drains as⟩
  · have hpushed := hreal.pushed as
    rw [harrived] at hpushed
    show _ <+: voiced env.synthesize 0 _
    rw [← hheard]
    exact hpushed.filterMap _
  · rw [hreal.complete as hs, harrived]
    exact hheard
  · rw [← hrecord, ← harrived]
    exact holds_said env hidle hs

/-- A caller who is understood once. -/
def understoodOnce (codec : SessionManager.Codec) : Env where
  stt := ⟨1, 640000⟩
  sessions := ⟨codec, true⟩
  callId := "c1"
  transcribe _ _ := .ok " two nights "
  generateResponse said := .ok (if said = [] then "Welcome." else "Noted.")
  synthesize n _ := .ok ⟨[], n⟩

theorem call_heard_once :
    ∃ (env : Env) (w : World) (as : List (Frame ⊕ CallPipeline.Action env.callId)),
      Stage.arrived as = [.start, .inputAudio (Segments.sampleFrame true), .inputAudio (Segments.sampleFrame false)] ∧
        heard ((pipeline env).outputs (start w) as) = [⟨[], 0⟩, ⟨[], 1⟩] ∧
        Holds env.callId (run (pipeline env).step (start w) as).2.1.state
          [(.assistant, "Welcome."), (.user, "two nights"), (.assistant, "Noted.")] := by
  obtain ⟨codec, -⟩ := SessionCache.exists_codec SessionCache.callerSession SessionCache.callerText (by decide)
  let w : World :=
    { store := ⟨fun _ => some SessionCache.callerSession, fun _ => none, 0, []⟩
      processors := fun _ => AIProcessor.init }
  let fs := [Frame.inputAudio (Segments.sampleFrame true), .inputAudio (Segments.sampleFrame false)]
  have hfs : ∀ f ∈ fs, Ongoing f := by simp [fs, Ongoing]
  -- All arrives before anything is handled.
  obtain ⟨-, -, moves, hidle⟩ := call_heard (understoodOnce codec) w SessionCache.callerSession rfl rfl fs hfs
    ((Frame.start :: fs).map .inl) rfl
  have harrived : Stage.arrived ((Frame.start :: fs).map .inl ++ moves.map .inr) = .start :: fs := by
    rw [Stage.arrived_append, Stage.arrived_map_inl, Stage.arrived_map_inr, List.append_nil]
  obtain ⟨-, hcomplete, -⟩ := call_heard (understoodOnce codec) w SessionCache.callerSession rfl rfl fs hfs _ harrived
  obtain ⟨hheard, hholds⟩ := hcomplete hidle
  have hturns : collect (step ⟨1, 640000⟩) (passed ⟨1, 640000⟩) STTProcessor.init
      [Segments.sampleFrame true, Segments.sampleFrame false] = [[0, 64, 0, 0]] := by decide
  have hts : understood (understoodOnce codec).transcribe 0 (collect (step (understoodOnce codec).stt)
      (passed (understoodOnce codec).stt) STTProcessor.init (inputAudio fs)) = ["two nights"] :=
    (congrArg (understood (fun _ _ => .ok " two nights ") 0) hturns).trans (by decide)
  rw [hts] at hheard hholds
  have hvoiced : voiced (fun n _ => .ok ⟨[], n⟩) 0 ["Welcome.", "Noted."] = [⟨[], 0⟩, ⟨[], 1⟩] := by decide
  exact ⟨understoodOnce codec, w, _, harrived, hheard.trans hvoiced, hholds⟩

end CallingAgent.Proof.Gateway.Pipeline
