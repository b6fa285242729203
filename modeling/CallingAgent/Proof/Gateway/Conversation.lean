import CallingAgent.Impl.Conversation
import CallingAgent.Proof.Gateway.SessionCache

/-!
# The history of a conversation

The turns in a call's session are what its provider has answered and what its
caller has said, in turn (`dialogue`). The list that the provider sees is the one
in the session, which nobody else appends to while the provider is awaited.

`Inv` follows one call through a run of all of them, with the frames it has
handled and the answers it has got.
-/

namespace CallingAgent.Proof.Gateway.Conversation

open CallingAgent.Framework CallingAgent.Impl CallingAgent.Impl.Conversation CallingAgent.Proof.Gateway.SessionOps
open CallingAgent.Impl.SessionManager hiding Action step

/-! ## Dialogues -/

/-- The caller's turns, each with the assistant's answer as far as there is one. -/
def exchanges : List String → List String → List (Role × String)
  | [], _ => []
  | t :: _, [] => [(.user, t)]
  | t :: ts, r :: rs => (.user, t) :: (.assistant, r) :: exchanges ts rs

/-- The greeting, then the exchanges. -/
def dialogue : List String → List String → List (Role × String)
  | [], _ => []
  | g :: rs, ts => (.assistant, g) :: exchanges ts rs

theorem exchanges_concat_user {ts rs : List String} (h : rs.length = ts.length) (t : String) :
    exchanges (ts ++ [t]) rs = exchanges ts rs ++ [(.user, t)] := by
  induction ts generalizing rs with
  | nil =>
    rw [List.length_nil, List.length_eq_zero_iff] at h
    rw [h]
    rfl
  | cons u ts ih =>
    cases rs with
    | nil => simp at h
    | cons r rs => simp [exchanges, ih (by simpa using h)]

theorem exchanges_concat_assistant {ts rs : List String} (h : rs.length + 1 = ts.length) (r : String) :
    exchanges ts (rs ++ [r]) = exchanges ts rs ++ [(.assistant, r)] := by
  induction ts generalizing rs with
  | nil => simp at h
  | cons u ts ih =>
    cases rs with
    | nil =>
      rw [List.length_nil, List.length_cons, Nat.add_right_cancel_iff, eq_comm, List.length_eq_zero_iff] at h
      rw [h]
      rfl
    | cons r' rs => simp [exchanges, ih (by simpa using h)]

/-- The caller speaks when all has been answered. -/
theorem dialogue_concat_user {ts rs : List String} (h : rs.length = ts.length + 1) (t : String) :
    dialogue rs (ts ++ [t]) = dialogue rs ts ++ [(.user, t)] := by
  cases rs with
  | nil => simp at h
  | cons g rs => simp [dialogue, exchanges_concat_user (by simpa using h)]

/-- The assistant answers the greeting, or the caller's last turn. -/
theorem dialogue_concat_assistant {ts rs : List String} (h : rs.length = ts.length) (r : String) :
    dialogue (rs ++ [r]) ts = dialogue rs ts ++ [(.assistant, r)] := by
  cases rs with
  | nil =>
    rw [List.length_nil, eq_comm, List.length_eq_zero_iff] at h
    rw [h]
    rfl
  | cons g rs => simp [dialogue, exchanges_concat_assistant (by simpa using h)]

/-! ## One call -/

/-- What is said in some turns. -/
def said (turns : List Turn) : List (Role × String) := turns.map fun t => (t.role, t.text)

/-- What is said in a session. -/
def saidIn (session : Session) : List (Role × String) := said (session.turns.getD [])

theorem saidIn_addTurn (session : Session) (turn : Turn) :
    saidIn (session.addTurn turn) = saidIn session ++ [(turn.role, turn.text)] := by
  simp [saidIn, said, Session.addTurn]

/-- The transcriptions among some frames. -/
def transcripts (frames : List Frame) : List String :=
  frames.filterMap fun
    | .transcription text => some text
    | _ => none

/-- What has been answered, with the apology for what has failed. -/
def responses (answers : List (List Turn × Except AIError String)) : List String :=
  answers.map fun x => response x.2

/-- Each answer was given to the dialogue before it. -/
def Shown (answers : List (List Turn × Except AIError String)) (ts : List String) : Prop :=
  ∀ i x, answers[i]? = some x → said x.1 = dialogue ((responses answers).take i) (ts.take i)

/-- Where the processor of a call stands: nothing has happened, or the greeting has
been asked for; it awaits the answer that is missing, or none is. -/
def Stage (p : AIProcessor) (frames : List Frame) (answers : List (List Turn × Except AIError String)) : Prop :=
  (frames = [] ∧ p = AIProcessor.init ∧ answers = []) ∨
  ((∃ rest, frames = .start :: rest) ∧ p.greeted = true ∧
    match p.pending with
    | none => answers.length = (transcripts frames).length + 1
    | some history => answers.length = (transcripts frames).length ∧ (history = .empty ↔ answers = []))

/-- A call with the frames handled, but those that are passed on, the answers of
its provider and the texts pushed. -/
structure Inv (w : World) (c : CallId) (frames : List Frame)
    (answers : List (List Turn × Except AIError String)) (texts : List String) : Prop where
  session : ∃ session, w.store.mem c = some session ∧ saidIn session = dialogue (responses answers) (transcripts frames)
  shown : Shown answers (transcripts frames)
  texts : texts = responses answers
  stage : Stage (w.processors c) frames answers

/-- No code but the processor appends to the turns of `c`, makes its session anew or
removes it. -/
def Keeps (c : CallId) : Action → Prop
  | .call op _ => callOf op = c → (∃ d, op = .get d) ∨ ∃ d, op = .endSession d
  | _ => True

variable {cfg : Config} {w : World} {c : CallId} {frames : List Frame}
  {answers : List (List Turn × Except AIError String)} {texts : List String}

/-- Nothing happens to a call. -/
theorem Inv.of_same {w' : World} (h : Inv w c frames answers texts)
    (hmem : ∀ session, w.store.mem c = some session →
      ∃ session', w'.store.mem c = some session' ∧ session'.turns = session.turns)
    (hproc : w'.processors c = w.processors c) : Inv w' c frames answers texts := by
  obtain ⟨session, hsession, hsaid⟩ := h.session
  obtain ⟨session', hsession', hturns⟩ := hmem session hsession
  exact ⟨⟨session', hsession', by rw [saidIn, hturns]; exact hsaid⟩, h.shown, h.texts, hproc ▸ h.stage⟩

/-- Other code uses the session manager. -/
theorem exec_keeps {s : Store} {session : Session} (hs : s.mem c = some session) {op : Op} {faults : List Outcome}
    (hop : Keeps c (.call op faults)) :
    ∃ session', (s.exec cfg op).1.mem c = some session' ∧ session'.turns = session.turns := by
  by_cases e : callOf op = c
  · rcases hop e with ⟨d, rfl⟩ | ⟨d, rfl⟩
    · obtain rfl : d = c := e
      exact ⟨session, by rw [exec_get_of_mem hs]; exact hs, rfl⟩
    · obtain rfl : d = c := e
      exact ⟨session.ended, exec_endSession_mem hs, rfl⟩
  · exact ⟨session, by rw [(exec_of_ne op (Ne.symm e)).1]; exact hs, rfl⟩

/-- A processor takes a frame or an answer of another call. -/
theorem Inv.of_ne {d : CallId} (hcd : c ≠ d) (h : Inv w c frames answers texts) {x : Store × AIProcessor × List Frame}
    (hx : x.1.mem c = w.store.mem c) : Inv (w.set d x) c frames answers texts :=
  h.of_same (fun session hs => ⟨session, hx.trans hs, rfl⟩) (Function.update_of_ne hcd _ _)

/-- The turns of other calls. -/
theorem processFrame_mem_of_ne {d : CallId} (hcd : c ≠ d) (s : Store) (p : AIProcessor) (frame : Frame) :
    (processFrame cfg s d p frame).1.mem c = s.mem c := by
  cases frame with
  | transcription text =>
    simp only [processFrame]
    rw [(exec_of_ne (.get d) hcd).1, (exec_of_ne (.addTurn d .user text) hcd).1]
  | start => rfl
  | text text => rfl
  | other => rfl

theorem respond_mem_of_ne {d : CallId} (hcd : c ≠ d) (s : Store) (p : AIProcessor)
    (answer : Except AIError String) : (respond cfg s d p answer).1.mem c = s.mem c :=
  (exec_of_ne (.addTurn d .assistant (response answer)) hcd).1

/-! ## The steps of a call -/

/-- A transcription: the caller's turn is added, and the provider is handed the list
in the session. -/
theorem processFrame_transcription (cfg : Config) {s : Store} {session : Session}
    (hs : s.mem c = some session) (p : AIProcessor)
    (text : String) :
    (processFrame cfg s c p (.transcription text)).1.mem c = some (session.addTurn ⟨.user, text, s.now⟩) ∧
      (processFrame cfg s c p (.transcription text)).2 = ({ p with pending := some .session }, []) := by
  have hadd := exec_addTurn_mem cfg hs .user text
  simp only [processFrame, exec_get_of_mem hadd]
  exact ⟨hadd, rfl⟩

theorem Shown.concat_transcript {ts : List String} (h : Shown answers ts) (hlen : answers.length = ts.length + 1)
    (t : String) : Shown answers (ts ++ [t]) := by
  intro i x hx
  have hi : i < answers.length := (List.getElem?_eq_some_iff.mp hx).1
  rw [List.take_append_of_le_length (by omega)]
  exact h i x hx

@[simp] theorem length_responses (answers : List (List Turn × Except AIError String)) :
    (responses answers).length = answers.length := List.length_map ..

theorem responses_concat (answers : List (List Turn × Except AIError String)) (x : List Turn × Except AIError String) :
    responses (answers ++ [x]) = responses answers ++ [response x.2] := List.map_append

theorem Shown.concat_answer {ts : List String} (h : Shown answers ts) (hlen : answers.length = ts.length)
    {x : List Turn × Except AIError String} (hx : said x.1 = dialogue (responses answers) ts) :
    Shown (answers ++ [x]) ts := by
  intro i y hy
  rw [responses_concat]
  rcases getElem?_concat_cases hy with hy | ⟨rfl, rfl⟩
  · have hi : i < answers.length := (List.getElem?_eq_some_iff.mp hy).1
    rw [List.take_append_of_le_length (by rw [length_responses]; omega)]
    exact h i y hy
  · rw [List.take_append_of_le_length (by rw [length_responses]), List.take_of_length_le (by rw [length_responses]),
      List.take_of_length_le (by omega)]
    exact hx

/-- A frame is taken. Before the first one, that is the start frame. -/
theorem Inv.frame (h : Inv w c frames answers texts) (hpending : (w.processors c).pending = none)
    {f : Frame} (faults : List Outcome) (hfirst : frames = [] → f = .start) (hf : f = .start ∨ ∃ t, f = .transcription t) :
    Inv (w.set c (processFrame cfg (w.withFaults faults) c (w.processors c) f)) c (frames ++ [f]) answers texts := by
  obtain ⟨session, hsession, hsaid⟩ := h.session
  have hproc : (w.set c (processFrame cfg (w.withFaults faults) c (w.processors c) f)).processors c =
      (processFrame cfg (w.withFaults faults) c (w.processors c) f).2.1 := Function.update_self ..
  rcases hf with rfl | ⟨t, rfl⟩
  · have hts : transcripts (frames ++ [.start]) = transcripts frames := by simp [transcripts]
    refine ⟨⟨session, hsession, by rw [hts]; exact hsaid⟩, hts ▸ h.shown, h.texts, .inr ⟨?_, ?_⟩⟩
    · rcases h.stage with ⟨rfl, -, -⟩ | ⟨⟨rest, rfl⟩, -⟩
      · exact ⟨[], rfl⟩
      · exact ⟨rest ++ [.start], rfl⟩
    · rw [hproc, hts]
      rcases h.stage with ⟨rfl, hp, rfl⟩ | ⟨-, hg, hp⟩
      · rw [hp]
        exact ⟨rfl, rfl, iff_of_true rfl rfl⟩
      · simp only [processFrame, hg, if_true]
        exact ⟨trivial, hp⟩
  · have hne : frames ≠ [] := fun e => by cases hfirst e
    obtain ⟨⟨rest, hrest⟩, hg, hp⟩ := h.stage.resolve_left fun e => hne e.1
    rw [hpending] at hp
    have hts : transcripts (frames ++ [.transcription t]) = transcripts frames ++ [t] := by simp [transcripts]
    have hs : (w.withFaults faults).mem c = some session := hsession
    obtain ⟨hmem, hrest'⟩ := processFrame_transcription cfg hs (w.processors c) t
    refine ⟨⟨_, hmem, ?_⟩, ?_, h.texts, .inr ⟨⟨rest ++ [.transcription t], by rw [hrest]; rfl⟩, ?_⟩⟩
    · rw [saidIn_addTurn, hsaid, hts, dialogue_concat_user (by rw [length_responses]; exact hp)]
    · rw [hts]
      exact h.shown.concat_transcript hp t
    · rw [hproc, hrest', hts]
      refine ⟨hg, ?_, ?_⟩
      · rw [List.length_append]; exact hp
      · refine iff_of_false (by decide) fun e => ?_
        rw [e] at hp
        simp at hp

/-- The provider answers. -/
theorem Inv.reply (cfg : Config) (h : Inv w c frames answers texts) {history : History}
    (hpending : (w.processors c).pending = some history) (answer : Except AIError String) (faults : List Outcome) :
    Inv (w.set c (respond cfg (w.withFaults faults) c (w.processors c) answer)) c frames
      (answers ++ [(w.turns c history, answer)]) (texts ++ [response answer]) := by
  obtain ⟨session, hsession, hsaid⟩ := h.session
  obtain ⟨hrest, hg, hp⟩ := h.stage.resolve_left fun e => by rw [e.2.1] at hpending; cases hpending
  rw [hpending] at hp
  obtain ⟨hlen, hempty⟩ := hp
  have hshown : said (w.turns c history) = dialogue (responses answers) (transcripts frames) := by
    cases history with
    | empty =>
      rw [hempty.mp rfl]
      rfl
    | session =>
      rw [← hsaid, World.turns, hsession]
      rfl
  have hs : (w.withFaults faults).mem c = some session := hsession
  refine ⟨⟨_, exec_addTurn_mem cfg hs .assistant (response answer), ?_⟩, h.shown.concat_answer hlen hshown, ?_,
    .inr ⟨hrest, ?_⟩⟩
  · rw [saidIn_addTurn, hsaid, responses_concat, dialogue_concat_assistant (by rw [length_responses]; exact hlen)]
  · rw [responses_concat, h.texts]
  · rw [show (w.set c (respond cfg (w.withFaults faults) c (w.processors c) answer)).processors c =
      { w.processors c with pending := none } from Function.update_self ..]
    refine ⟨hg, ?_⟩
    rw [List.length_append, hlen]
    rfl

/-! ## Runs -/

/-- The frames but those that are passed on. -/
def relevant (frames : List Frame) : List Frame := frames.filter (· ≠ .other)

/-- The text frames among some frames. -/
def textsOf (frames : List Frame) : List String :=
  frames.filterMap fun
    | .text text => some text
    | _ => none

/-- A start frame comes first, and no text frames come in. -/
def Proper (frames : List Frame) : Prop :=
  (∀ f ∈ frames, f = .start ∨ ∃ t, f = .transcription t) ∧ frames.head?.all (· = .start) = true

theorem Proper.of_append {xs ys : List Frame} (h : Proper (xs ++ ys)) : Proper xs := by
  refine ⟨fun f hf => h.1 f (List.mem_append_left _ hf), ?_⟩
  cases xs with
  | nil => rfl
  | cons x xs => exact h.2

theorem textsOf_processFrame {s : Store} {p : AIProcessor} {f : Frame}
    (hf : f ≠ .other → f = .start ∨ ∃ t, f = .transcription t) :
    textsOf (processFrame cfg s c p f).2.2 = [] := by
  cases f with
  | start => rfl
  | transcription text => rfl
  | text text => simp at hf
  | other => rfl

/-- One step of the whole system. -/
theorem Inv.step (cfg : Config) (h : Inv w c frames answers texts) {a : Action} (hk : Keeps c a)
    (hp : Proper (frames ++ relevant (handled c w a))) :
    Inv (step cfg w a) c (frames ++ relevant (handled c w a)) (answers ++ answered c w a)
      (texts ++ textsOf (pushed cfg c w a)) := by
  cases a with
  | tick d =>
    simp only [relevant, textsOf, handled, answered, pushed, List.filter_nil, List.filterMap_nil, List.append_nil]
    exact h.of_same (fun session hs => ⟨session, hs, rfl⟩) rfl
  | call op faults =>
    simp only [relevant, textsOf, handled, answered, pushed, List.filter_nil, List.filterMap_nil, List.append_nil]
    refine h.of_same (fun session hs => ?_) rfl
    exact exec_keeps (s := w.withFaults faults) hs hk
  | frame d f faults =>
    by_cases e : d = c
    · subst e
      cases hpending : (w.processors d).pending with
      | some history =>
        simpa [Conversation.step, relevant, textsOf, handled, answered, pushed, hpending] using h
      | none =>
        simp only [Conversation.step, handled, answered, pushed, hpending, and_self, if_true, List.append_nil] at hp ⊢
        by_cases hf : f = .other
        · subst hf
          simp only [processFrame, relevant, textsOf, ne_eq, not_true, decide_false, List.filter_cons,
            Bool.false_eq_true, if_false, List.filter_nil, List.filterMap_cons, List.filterMap_nil, List.append_nil]
          exact h.of_same (fun session hs => ⟨session, hs, rfl⟩) (Function.update_self ..)
        · have hrel : relevant [f] = [f] := by simp [relevant, hf]
          rw [hrel] at hp ⊢
          have hf' := hp.1 f (by simp)
          rw [textsOf_processFrame fun _ => hf', List.append_nil]
          refine h.frame hpending faults (fun e => ?_) hf'
          rw [e] at hp
          simpa using hp.2
    · have hd : handled c w (.frame d f faults) = [] := if_neg fun h => e h.1
      have hpu : pushed cfg c w (.frame d f faults) = [] := if_neg fun h => e h.1
      simp only [hd, hpu, answered, relevant, textsOf, List.filter_nil, List.filterMap_nil, List.append_nil]
      simp only [Conversation.step]
      split
      · exact h.of_ne (Ne.symm e) (processFrame_mem_of_ne (Ne.symm e) _ _ _)
      · exact h
  | reply d answer faults =>
    by_cases e : d = c
    · subst e
      cases hpending : (w.processors d).pending with
      | none =>
        simpa [Conversation.step, relevant, textsOf, handled, answered, pushed, hpending] using h
      | some history =>
        simpa [Conversation.step, relevant, textsOf, handled, answered, pushed, hpending, respond] using
          h.reply cfg hpending answer faults
    · have hpu : pushed cfg c w (.reply d answer faults) = [] := if_neg fun h => e h.1
      have ha : answered c w (.reply d answer faults) = [] := if_neg e
      simp only [ha, hpu, handled, relevant, textsOf, List.filter_nil, List.filterMap_nil, List.append_nil]
      simp only [Conversation.step]
      split
      · exact h.of_ne (Ne.symm e) (respond_mem_of_ne (Ne.symm e) _ _ _)
      · exact h

theorem inv_run {w₀ : World} (h : Inv w₀ c [] [] []) {as : List Action} (hk : ∀ a ∈ as, Keeps c a)
    (hp : Proper (relevant (collect (step cfg) (handled c) w₀ as))) :
    Inv (run (step cfg) w₀ as) c (relevant (collect (step cfg) (handled c) w₀ as))
      (collect (step cfg) (answered c) w₀ as) (textsOf (collect (step cfg) (pushed cfg c) w₀ as)) := by
  induction as using List.reverseRecOn with
  | nil => exact h
  | append_singleton as a ih =>
    have happ : relevant (collect (step cfg) (handled c) w₀ (as ++ [a])) =
        relevant (collect (step cfg) (handled c) w₀ as) ++ relevant (handled c (run (step cfg) w₀ as) a) := by
      rw [collect_concat, relevant, List.filter_append]
      rfl
    rw [happ] at hp ⊢
    have hstep := (ih (fun b hb => hk b (List.mem_append_left _ hb)) hp.of_append).step cfg
      (hk a (by simp)) hp
    rw [run_concat, collect_concat, collect_concat, textsOf, List.filterMap_append]
    exact hstep

/-- A step of one call leaves the sessions of the others as they are, in `_mem` and
in Redis. -/
theorem step_of_ne {d : CallId} (hcd : d ≠ c) {a : Action}
    (ha : (∃ f faults, a = .frame c f faults) ∨ ∃ r faults, a = .reply c r faults) :
    (step cfg w a).store.mem d = w.store.mem d ∧ (step cfg w a).store.redis (key d) = w.store.redis (key d) := by
  rcases ha with ⟨f, faults, rfl⟩ | ⟨r, faults, rfl⟩ <;> simp only [Conversation.step] <;> split
  · refine ⟨processFrame_mem_of_ne hcd _ _ _, ?_⟩
    cases f with
    | transcription text =>
      simp only [World.set, processFrame]
      rw [(exec_of_ne (.get c) hcd).2, (exec_of_ne (.addTurn c .user text) hcd).2]
      rfl
    | start => rfl
    | text text => rfl
    | other => rfl
  · exact ⟨rfl, rfl⟩
  · exact exec_of_ne (.addTurn c .assistant (response r)) hcd
  · exact ⟨rfl, rfl⟩

/-- The turns of a call that has got a start frame, maybe several times, and then
transcriptions are the dialogue of its caller and its provider; each answer was
given to the dialogue up to the turn it answers, and is what is pushed. The
session is in `_mem` from the start, since `voice_websocket` has found or made it
there, and stays. -/
theorem history_faithful (cfg : Config) (w₀ : World) (c : CallId) (session₀ : Session)
    (hsession : w₀.store.mem c = some session₀)
    (hturns : session₀.turns.getD [] = []) (hproc : w₀.processors c = AIProcessor.init) (as : List Action)
    (hkeeps : ∀ a ∈ as, Keeps c a) (k : Nat) (ts : List String)
    (hframes : (collect (step cfg) (handled c) w₀ as).filter (· ≠ .other) =
      List.replicate (k + 1) .start ++ ts.map .transcription) :
    let w := run (step cfg) w₀ as
    let answers := collect (step cfg) (answered c) w₀ as
    (∃ session, w.store.mem c = some session ∧
      said (session.turns.getD []) = dialogue (answers.map fun x => response x.2) ts) ∧
    answers.length = ts.length + (if (w.processors c).pending = none then 1 else 0) ∧
    (∀ i x, answers[i]? = some x →
      said x.1 = dialogue ((answers.map fun x => response x.2).take i) (ts.take i)) ∧
    textsOf (collect (step cfg) (pushed cfg c) w₀ as) = answers.map (fun x => response x.2) ∧
    ∀ d, d ≠ c → ∀ p a, p ++ [a] <+: as →
      (∃ f faults, a = .frame c f faults) ∨ (∃ r faults, a = .reply c r faults) →
      (run (step cfg) w₀ (p ++ [a])).store.mem d = (run (step cfg) w₀ p).store.mem d ∧
        (run (step cfg) w₀ (p ++ [a])).store.redis (key d) = (run (step cfg) w₀ p).store.redis (key d) := by
  intro w answers
  have h₀ : Inv w₀ c [] [] [] :=
    ⟨⟨session₀, hsession, by rw [saidIn, hturns]; rfl⟩, fun i x hx => by simp at hx, rfl, .inl ⟨rfl, hproc, rfl⟩⟩
  have hrel : relevant (collect (step cfg) (handled c) w₀ as) = List.replicate (k + 1) .start ++ ts.map .transcription :=
    hframes
  have hp : Proper (relevant (collect (step cfg) (handled c) w₀ as)) := by
    rw [hrel]
    refine ⟨fun f hf => ?_, rfl⟩
    rcases List.mem_append.mp hf with hf | hf
    · exact .inl (List.eq_of_mem_replicate hf)
    · obtain ⟨t, -, rfl⟩ := List.mem_map.mp hf
      exact .inr ⟨t, rfl⟩
  have hts : transcripts (relevant (collect (step cfg) (handled c) w₀ as)) = ts := by
    rw [hrel]
    simp [transcripts, List.filterMap_map]
  have h := inv_run h₀ hkeeps hp
  have hsaid := h.session
  have hshown := h.shown
  rw [hts] at hsaid hshown
  refine ⟨hsaid, ?_, hshown, h.texts, fun d hd p a _ ha => ?_⟩
  · obtain ⟨-, -, hpending⟩ := h.stage.resolve_left fun e => by
      rw [hrel] at e; exact absurd e.1 (by simp [List.replicate_succ])
    rw [hts] at hpending
    show answers.length = _
    cases hq : (w.processors c).pending with
    | none =>
      rw [show ((run (step cfg) w₀ as).processors c).pending = none from hq] at hpending
      exact hpending
    | some history =>
      rw [show ((run (step cfg) w₀ as).processors c).pending = some history from hq] at hpending
      exact hpending.1
  · rw [run_concat]
    exact step_of_ne hd ha

/-- Two calls; the Redis of the first fails when its caller speaks, and its provider
fails to answer. -/
def twoCalls : List Action :=
  [.frame "c1" .start [], .frame "c2" .start [], .frame "c1" .start [], .reply "c1" (.ok "Hello.") [],
    .frame "c1" .start [], .frame "c1" (.transcription "A room, please.") [.failed], .reply "c2" (.ok "Hi.") [],
    .reply "c1" (.error ⟨"provider down"⟩) []]

theorem history_faithful_two_calls :
    ∃ (cfg : Config) (w₀ : World), cfg.codec.dumps SessionCache.callerSession = SessionCache.callerText ∧
      w₀.store.mem "c1" = some SessionCache.callerSession ∧
      ∃ session, (run (step cfg) w₀ twoCalls).store.mem "c1" = some session ∧
        said (session.turns.getD []) =
          [(.assistant, "Hello."), (.user, "A room, please."), (.assistant, response (.error ⟨"provider down"⟩))] := by
  obtain ⟨codec, hcodec⟩ := SessionCache.exists_codec SessionCache.callerSession SessionCache.callerText (by decide)
  let w₀ : World :=
    { store := ⟨fun _ => some SessionCache.callerSession, fun _ => none, 0, []⟩
      processors := fun _ => AIProcessor.init }
  have hkeeps : ∀ a ∈ twoCalls, Keeps "c1" a := by
    simp [twoCalls, Keeps]
  obtain ⟨⟨session, hs, hsaid⟩, -⟩ :=
    history_faithful ⟨codec, true⟩ w₀ "c1" SessionCache.callerSession rfl rfl rfl twoCalls hkeeps 1
      ["A room, please."] rfl
  exact ⟨⟨codec, true⟩, w₀, hcodec, rfl, session, hs, hsaid⟩

end CallingAgent.Proof.Gateway.Conversation
