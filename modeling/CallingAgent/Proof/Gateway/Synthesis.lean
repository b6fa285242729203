import CallingAgent.Impl.SpeechSynthesis
import Mathlib.Algebra.Order.Ring.Rat
import Mathlib.Tactic.Linarith

/-!
# The text-to-speech provider

Whatever the engine, the file system and the clock do, `synthesize` stops its engine,
removes its file and closes it, and ends with audio or a `TTSError` (`synthesize_meets`).
The calls are followed by a `Ledger` of what is held; each part of the program has a
lemma that says what it makes of it (`poll_meets`, `render_meets`, `toTempFile_meets`,
`runEngine_meets`).

The clock is steady if it does not go back, and goes on by what is slept; with it the
loop looks at the file 41 times at most (`Left`).
-/

namespace CallingAgent.Proof.Gateway.Synthesis

open CallingAgent.Framework CallingAgent.Framework.Prog CallingAgent.Impl CallingAgent.Impl.SpeechSynthesis
  CallingAgent.Impl.Text

/-- What the calls so far have come to. -/
structure Ledger where
  engines : Nat := 0
  files : List String := []
  openFds : List Nat := []
  /-- How often the file was looked at, and what was there last. -/
  reads : Nat := 0
  wavFile : Option WavFile := none
  now : ℚ
  steady : Prop := True

/-- A call that was answered. An engine has been stopped, and a file removed, by the
call, even if it raises. -/
def Ledger.next (g : Ledger) : (q : Query) → Reply q → Ledger
  | .init, .ok () => { g with engines := g.engines + 1 }
  | .mkstemp, .ok (fd, path) => { g with files := path :: g.files, openFds := fd :: g.openFds }
  | .close fd, .ok () => { g with openFds := g.openFds.erase fd }
  | .monotonic, t => { g with now := t, steady := g.steady ∧ g.now ≤ t }
  | .readWav _, file => { g with reads := g.reads + 1, wavFile := file.toOption }
  | .sleep d, () => { g with now := g.now + d }
  | .unlink path, _ => { g with files := g.files.erase path }
  | .stop, _ => { g with engines := g.engines - 1 }
  | _, _ => g

/-- What may be called: only with what is held, and the engine only for the text that
is due; and the file is not looked at too often. -/
def Ledger.allows (text : String) (g : Ledger) : Query → Prop
  | .saveToFile spoken path => spoken = text ∧ path ∈ g.files ∧ 0 < g.engines
  | .runAndWait => 0 < g.engines
  | .readWav path => path ∈ g.files ∧ (g.steady → g.reads < 41)
  | .close fd => fd ∈ g.openFds
  | .unlink path => path ∈ g.files
  | .stop => 0 < g.engines
  | _ => True

variable {text path : String} {g : Ledger} {deadline : ℚ}

/-- Nothing is taken or given back. -/
structure Keeps (g g' : Ledger) : Prop where
  engines : g'.engines = g.engines
  files : g'.files = g.files
  openFds : g'.openFds = g.openFds
  steady : g'.steady → g.steady

theorem Keeps.trans {g g' g'' : Ledger} (h : Keeps g g') (h' : Keeps g' g'') : Keeps g g'' :=
  ⟨h'.engines.trans h.engines, h'.files.trans h.files, h'.openFds.trans h.openFds, fun hs => h.steady (h'.steady hs)⟩

/-- The passes of the loop that the deadline leaves, and the bound, after this one. -/
def Left (deadline : ℚ) (fuel : Nat) (g : Ledger) : Prop :=
  g.steady → ∃ k, k < fuel ∧ deadline ≤ g.now + k * wavReadyPollIntervalSeconds ∧ g.reads + k ≤ 40

/-- How the loop ends. -/
def PollEnd (g' : Ledger) : Except Exc WavFile → Prop
  | .ok wavFile => wavFile.raw ≠ [] ∧ g'.wavFile = some wavFile
  | .error .unfinished => ¬g'.steady
  | .error _ => True

/-! ## The loop -/

/-- A pass that has found nothing. -/
theorem pause_meets {fuel : Nat} (hleft : g.steady → ∃ k, k ≤ fuel ∧ deadline ≤ g.now + k * wavReadyPollIntervalSeconds ∧
      g.reads + k ≤ 41) {next : Tts WavFile}
    (hnext : ∀ g', Keeps g g' → Left deadline fuel g' →
      next.Meets (Ledger.allows text) Ledger.next (fun g'' x => Keeps g' g'' ∧ PollEnd g'' x) g') :
    (pause deadline next).Meets (Ledger.allows text) Ledger.next (fun g'' x => Keeps g g'' ∧ PollEnd g'' x) g := by
  refine meets_ask_bind.mpr ⟨trivial, fun t => ?_⟩
  split
  · exact ⟨⟨rfl, rfl, rfl, And.left⟩, trivial⟩
  · rename_i hlate
    have hkeeps : Keeps g ((g.next .monotonic t).next (.sleep wavReadyPollIntervalSeconds) ()) := ⟨rfl, rfl, rfl, And.left⟩
    refine meets_ask_bind.mpr ⟨trivial, fun _ => (hnext _ hkeeps ?_).mono fun g' x h => ⟨hkeeps.trans h.1, h.2⟩⟩
    rintro ⟨hsteady, hle⟩
    obtain ⟨k, hk, hdeadline, hreads⟩ := hleft hsteady
    have hinterval : wavReadyPollIntervalSeconds = 5 / 100 := rfl
    cases k with
    | zero =>
      simp only [Nat.cast_zero, zero_mul, add_zero] at hdeadline
      exact absurd (hdeadline.trans hle) hlate
    | succ k =>
      refine ⟨k, by omega, ?_, ?_⟩
      · simp only [Ledger.next, hinterval] at hdeadline hle ⊢
        push_cast at hdeadline
        linarith
      · simp only [Ledger.next]
        omega

theorem poll_meets (fuel : Nat) (hfile : path ∈ g.files) (hleft : Left deadline fuel g) :
    (poll path deadline fuel).Meets (Ledger.allows text) Ledger.next (fun g' x => Keeps g g' ∧ PollEnd g' x) g := by
  induction fuel generalizing g with
  | zero =>
    refine ⟨⟨rfl, rfl, rfl, id⟩, fun hsteady => ?_⟩
    obtain ⟨k, hk, -⟩ := hleft hsteady
    exact absurd hk (Nat.not_lt_zero k)
  | succ fuel ih =>
    refine meets_ask_bind.mpr ⟨⟨hfile, fun hsteady => ?_⟩, fun file => ?_⟩
    · obtain ⟨k, -, -, hreads⟩ := hleft hsteady
      omega
    have hkeeps : Keeps g (g.next (.readWav path) file) := ⟨rfl, rfl, rfl, id⟩
    -- Nothing has been found.
    have hpause : (pause deadline (poll path deadline fuel)).Meets (Ledger.allows text) Ledger.next
        (fun g' x => Keeps g g' ∧ PollEnd g' x) (g.next (.readWav path) file) := by
      refine (pause_meets (g := g.next (.readWav path) file) (fun hsteady => ?_) fun g' h' hleft' =>
        ih (h'.files ▸ hfile) hleft').mono fun g' x h => ⟨hkeeps.trans h.1, h.2⟩
      obtain ⟨k, hk, hdeadline, hreads⟩ := hleft hsteady
      exact ⟨k, Nat.le_of_lt_succ hk, hdeadline, by simp only [Ledger.next]; omega⟩
    cases file with
    | ok wavFile =>
      dsimp only
      split
      · rename_i hraw
        exact ⟨hkeeps, hraw, rfl⟩
      · exact hpause
    | error fault =>
      cases fault with
      | eofError => exact hpause
      | waveError => exact hpause
      | other => exact ⟨hkeeps, trivial⟩

/-! ## The parts around it -/

/-- How the work on the file ends. -/
def RenderEnd (g' : Ledger) : Except Exc (List UInt8 × Nat) → Prop
  | .ok (raw, framerate) => raw ≠ [] ∧ g'.wavFile = some ⟨framerate, 1, 2, raw⟩
  | .error .unfinished => ¬g'.steady
  | .error _ => True

theorem render_meets {fuel : Nat} (hfuel : 41 ≤ fuel) (hfile : path ∈ g.files) (hengine : 0 < g.engines)
    (hreads : g.reads = 0) :
    (render fuel text path).Meets (Ledger.allows text) Ledger.next (fun g' x => Keeps g g' ∧ RenderEnd g' x) g := by
  refine meets_ask_bind.mpr ⟨⟨rfl, hfile, hengine⟩, fun saved => ?_⟩
  cases saved with
  | error fault => exact ⟨⟨rfl, rfl, rfl, id⟩, trivial⟩
  | ok =>
    refine meets_ask_bind.mpr ⟨hengine, fun ran => ?_⟩
    cases ran with
    | error fault => exact ⟨⟨rfl, rfl, rfl, id⟩, trivial⟩
    | ok =>
      refine meets_ask_bind.mpr ⟨trivial, fun t => meets_bind.mpr ?_⟩
      have hleft : Left (t + wavReadyPollTimeoutSeconds) fuel (g.next .monotonic t) := by
        refine fun _ => ⟨40, hfuel, ?_, by simp only [Ledger.next, hreads]; omega⟩
        simp only [Ledger.next, wavReadyPollTimeoutSeconds, wavReadyPollIntervalSeconds]
        norm_num
      have hkeeps : Keeps g (g.next .monotonic t) := ⟨rfl, rfl, rfl, And.left⟩
      refine (poll_meets fuel (g := g.next .monotonic t) hfile hleft).mono fun g' x h => ?_
      have hkeeps' := hkeeps.trans h.1
      cases x with
      | error e =>
        cases e with
        | unfinished => exact ⟨hkeeps', h.2⟩
        | ttsError message => exact ⟨hkeeps', trivial⟩
        | fault fault => exact ⟨hkeeps', trivial⟩
      | ok wavFile =>
        obtain ⟨-, hraw, hlast⟩ := h
        show (ite _ _ _ : Tts _).Meets _ _ _ _
        split
        · exact ⟨hkeeps', trivial⟩
        · rename_i hformat
          rw [not_or, not_not, not_not] at hformat
          refine ⟨hkeeps', hraw, hlast.trans ?_⟩
          obtain ⟨framerate, channels, sampwidth, raw⟩ := wavFile
          obtain ⟨rfl, rfl⟩ := hformat
          rfl

/-- What is left of the file: nothing, unless it could not be closed. -/
def FileEnd (g' : Ledger) (x : Except Exc (List UInt8 × Nat)) : Prop :=
  g'.files = [] ∧ g'.openFds = [] ∨
    ∃ path fd fault, g'.files = [path] ∧ g'.openFds = [fd] ∧ x = .error (.fault fault)

theorem FileEnd.clean {g' : Ledger} {x : Except Exc (List UInt8 × Nat)} (h : FileEnd g' x)
    (hx : ∀ fault, x ≠ .error (.fault fault)) : g'.files = [] ∧ g'.openFds = [] := by
  rcases h with h | ⟨path, fd, fault, -, -, e⟩
  · exact h
  · exact absurd e (hx fault)

/-- How a part of the program ends that is given no file. -/
structure PartEnd (g g' : Ledger) (x : Except Exc (List UInt8 × Nat)) : Prop where
  engines : g'.engines = g.engines
  file : FileEnd g' x
  render : RenderEnd g' x

theorem ofExcept_meets {α : Type} {post : Ledger → Except Exc α → Prop} {x : Except Exc α} (h : post g x) :
    (Prog.ofExcept x : Tts α).Meets (Ledger.allows text) Ledger.next post g := by
  cases x with
  | ok a => exact h
  | error e => exact h

/-- A `finally` that makes one call. -/
theorem finally_meets {α : Type} {p : Tts α} {q : Query} {outcome : Reply q → Except Fault Unit}
    {post : Ledger → Except Exc α → Prop}
    (h : p.Meets (Ledger.allows text) Ledger.next (fun g' x => g'.allows text q ∧
      ∀ r, post (g'.next q r) (match outcome r with
        | .ok () => x
        | .error fault => .error (.fault fault))) g) :
    (Prog.tryFinally p do raising (outcome (← Prog.ask q))).Meets (Ledger.allows text) Ledger.next post g := by
  refine meets_tryFinally.mpr (h.mono fun g' x h => ⟨h.1, fun r => ?_⟩)
  have hr := h.2 r
  show ((raising (outcome r)).bind fun _ => Prog.ofExcept x : Tts α).Meets _ _ _ _
  cases hout : outcome r with
  | ok =>
    rw [hout] at hr
    exact ofExcept_meets hr
  | error fault =>
    rw [hout] at hr
    exact hr

/-- The file is removed, whatever comes of the work on it. -/
theorem unlinking_meets {fuel : Nat} (hfuel : 41 ≤ fuel) (hfiles : g.files = [path]) (hfds : g.openFds = [])
    (hengine : 0 < g.engines) (hreads : g.reads = 0) :
    (Prog.tryFinally (render fuel text path) do raising (← Prog.ask (.unlink path))).Meets (Ledger.allows text) Ledger.next
      (PartEnd g) g := by
  have hheld : path ∈ g.files := hfiles ▸ List.mem_singleton_self path
  refine finally_meets ((render_meets hfuel hheld hengine hreads).mono fun g' x h => ⟨?_, fun removed => ?_⟩)
  · show path ∈ g'.files
    rw [h.1.files]
    exact hheld
  · obtain ⟨hkeeps, hend⟩ := h
    have hnone : (g'.next (.unlink path) removed).files = [] := by
      simp only [Ledger.next, hkeeps.files, hfiles, List.erase_cons_head]
    have hclosed : (g'.next (.unlink path) removed).openFds = [] := hkeeps.openFds.trans hfds
    refine ⟨hkeeps.engines, .inl ⟨hnone, hclosed⟩, ?_⟩
    cases removed with
    | ok => exact hend
    | error fault => trivial

theorem toTempFile_meets {fuel : Nat} (hfuel : 41 ≤ fuel) (hfiles : g.files = []) (hfds : g.openFds = [])
    (hengine : 0 < g.engines) (hreads : g.reads = 0) :
    (toTempFile fuel text).Meets (Ledger.allows text) Ledger.next (PartEnd g) g := by
  refine meets_ask_bind.mpr ⟨trivial, fun made => ?_⟩
  cases made with
  | error fault => exact ⟨rfl, .inl ⟨hfiles, hfds⟩, trivial⟩
  | ok made =>
    obtain ⟨fd, path⟩ := made
    have hfiles' : (g.next .mkstemp (.ok (fd, path))).files = [path] := by simp only [Ledger.next, hfiles]
    have hfds' : (g.next .mkstemp (.ok (fd, path))).openFds = [fd] := by simp only [Ledger.next, hfds]
    refine meets_ask_bind.mpr ⟨?_, fun closed => ?_⟩
    · show fd ∈ (g.next .mkstemp (.ok (fd, path))).openFds
      rw [hfds']
      exact List.mem_singleton_self fd
    cases closed with
    | error fault => exact ⟨rfl, .inr ⟨path, fd, fault, hfiles', hfds', rfl⟩, trivial⟩
    | ok =>
      have hclosed : ((g.next .mkstemp (.ok (fd, path))).next (.close fd) (.ok ())).openFds = [] := by
        simp only [Ledger.next, hfds, List.erase_cons_head]
      exact (unlinking_meets (g := (g.next .mkstemp (.ok (fd, path))).next (.close fd) (.ok ())) hfuel hfiles' hclosed hengine
        hreads).mono fun g' x h => ⟨h.engines, h.file, h.render⟩

/-- What is held at the end, and what has come of it. -/
structure Finished (g : Ledger) (x : Except Exc (List UInt8 × Nat)) : Prop where
  engines : g.engines = 0
  file : g.files = [] ∧ g.openFds = [] ∨
    ∃ path fd, g.files = [path] ∧ g.openFds = [fd] ∧ x = .error (.ttsError "text-to-speech failed")
  result : g.steady → match x with
    | .ok (raw, framerate) => raw ≠ [] ∧ g.wavFile = some ⟨framerate, 1, 2, raw⟩
    | .error (.ttsError _) => True
    | .error _ => False

theorem runEngine_meets {fuel : Nat} (hfuel : 41 ≤ fuel) (now : ℚ) :
    (runEngine fuel text).Meets (Ledger.allows text) Ledger.next
      (fun g x => g.engines = 0 ∧ FileEnd g x ∧ RenderEnd g x) { now := now } := by
  refine meets_ask_bind.mpr ⟨trivial, fun started => ?_⟩
  cases started with
  | error fault => exact ⟨rfl, .inl ⟨rfl, rfl⟩, trivial⟩
  | ok =>
    refine finally_meets ((toTempFile_meets (g := ({ now := now } : Ledger).next .init (.ok ())) hfuel rfl rfl Nat.one_pos
      rfl).mono fun g' x h => ⟨?_, fun stopped => ?_⟩)
    · show 0 < g'.engines
      rw [h.engines]
      exact Nat.one_pos
    · have hzero : (g'.next .stop stopped).engines = 0 := by
        simp only [Ledger.next, h.engines]
      cases stopped with
      | ok => exact ⟨hzero, h.file, h.render⟩
      | error fault =>
        refine ⟨hzero, ?_, trivial⟩
        rcases h.file with hclean | ⟨path, fd, fault', hfiles, hfds, -⟩
        · exact .inl hclean
        · exact .inr ⟨path, fd, fault, hfiles, hfds, rfl⟩

/-- With the engine asked at most for its first thousand characters, the text is
spoken, or a `TTSError` raised, and nothing is kept; only a temporary file that could
not be closed is left. -/
theorem synthesize_meets (fuel : Nat) (hfuel : 41 ≤ fuel) (text : String) (now : ℚ) :
    (synthesize fuel text).Meets (Ledger.allows (upTo maxTextChars (strip text))) Ledger.next Finished { now := now } := by
  unfold synthesize
  split
  · exact ⟨rfl, .inl ⟨rfl, rfl⟩, fun _ => trivial⟩
  · refine meets_tryCatch.mpr ((runEngine_meets hfuel now).mono fun g x h => ?_)
    obtain ⟨hengines, hfile, hrender⟩ := h
    cases x with
    | ok result => exact ⟨hengines, .inl (hfile.clean nofun), fun _ => hrender⟩
    | error e =>
      cases e with
      | ttsError message => exact ⟨hengines, .inl (hfile.clean nofun), fun _ => trivial⟩
      | fault fault =>
        refine ⟨hengines, ?_, fun _ => trivial⟩
        rcases hfile with hclean | ⟨path, fd, fault', hfiles, hfds, -⟩
        · exact .inl hclean
        · exact .inr ⟨path, fd, hfiles, hfds, rfl⟩
      | unfinished => exact ⟨hengines, .inl (hfile.clean nofun), fun hsteady => hrender hsteady⟩

theorem greeting_meets :
    (synthesize 41 " Welcome to Staykaro. ").Meets (Ledger.allows "Welcome to Staykaro.")
      Ledger.next Finished { now := 0 } := by
  have htext : upTo maxTextChars (strip " Welcome to Staykaro. ") = "Welcome to Staykaro." := by decide +kernel
  exact htext ▸ synthesize_meets 41 (Nat.le_refl 41) " Welcome to Staykaro. " 0

end CallingAgent.Proof.Gateway.Synthesis
