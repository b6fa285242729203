import Mathlib.Tactic.TypeStar
import CallingAgent.Impl.VoicePipeline

/-!
# Draining

A handler tests `_draining` before it awaits `accept()` and is counted in
`_active_calls` after it. A handler that awaits `accept()` is therefore not
counted, and starts its call even if the drain loop has seen no active calls in
the meantime. Once `_draining` is set no further handler gets there, so the
drain is safe exactly if no handler awaits `accept()` when the loop ends
(`drain_safe_iff`).

The counter itself is exact (`Counted`, `counted_run`).
-/

namespace CallingAgent.Proof.Gateway.Drain

open CallingAgent.Framework CallingAgent.Impl.VoicePipeline

variable {cfg : Config} {w : World}

def isRunning : Handler → Bool
  | .running => true
  | _ => false

/-- The step calls `on_call_started`. -/
def Starts (w : World) (a : Action) : Prop := ∃ n, a = .accepted n ∧ w.handlers[n]? = some .accepting

/-- `_active_calls` is the number of handlers whose call is running, and
`_draining` is set once the shutdown phase has begun. -/
structure Counted (w : World) : Prop where
  active : w.activeCalls = w.handlers.countP isRunning
  draining : w.lifespan ≠ .serving → w.draining = true

/-- One handler moves, and the counter with it. -/
theorem Counted.set (h : Counted w) {n : Nat} {x y : Handler} (hn : w.handlers[n]? = some x) {active : Int}
    (ha : active = w.activeCalls - (if isRunning x then 1 else 0) + if isRunning y then 1 else 0) :
    Counted { w.setHandler n y with activeCalls := active } := by
  refine ⟨?_, h.draining⟩
  show active = (w.handlers.set n y).countP isRunning
  rw [ha, countP_set y hn, h.active]

theorem counted_step (w : World) (a : Action) (h : Counted w) : Counted (step cfg w a) := by
  cases a with
  | connect known =>
    refine ⟨?_, h.draining⟩
    have hnew : isRunning (connect cfg w known) = false := by
      unfold connect
      split
      · rfl
      · split <;> rfl
    simp only [step, List.countP_append, List.countP_singleton, hnew, h.active]
    simp
  | closed n =>
    simp only [step]
    split
    · rename_i code hn
      exact h.set hn (by simp [isRunning])
    · exact h
  | accepted n =>
    simp only [step]
    split
    · rename_i hn
      exact h.set hn (by simp [isRunning, World.setHandler])
    · exact h
  | refused n =>
    simp only [step]
    split
    · rename_i hn
      exact h.set hn (by simp [isRunning])
    · exact h
  | callEnds n =>
    simp only [step]
    split
    · rename_i hn
      exact h.set hn (by simp [isRunning, World.setHandler])
    · exact h
  | shutdown =>
    simp only [step]
    split
    · exact ⟨h.active, fun _ => rfl⟩
    · exact h
  | wake =>
    simp only [step]
    split
    · rename_i hl
      exact ⟨h.active, fun _ => h.draining (by rw [hl]; simp)⟩
    · exact h

theorem counted_run (cfg : Config) (as : List Action) : Counted (run (step cfg) .init as) :=
  run_inv ⟨rfl, fun h => absurd rfl h⟩ counted_step as

/-! ## After the drain -/

/-- New connections are turned away, and no handler is starting or running. -/
structure Drained (w : World) : Prop where
  draining : w.draining = true
  quiet : ∀ {n : Nat}, w.handlers[n]? ≠ some Handler.accepting ∧ w.handlers[n]? ≠ some Handler.running

theorem Drained.not_starts (h : Drained w) (a : Action) : ¬ Starts w a := by
  rintro ⟨n, -, hn⟩
  exact h.quiet.1 hn

theorem Drained.set (h : Drained w) {n : Nat} : Drained (w.setHandler n .ended) := by
  refine ⟨h.draining, fun {m} => ?_⟩
  simp only [World.setHandler, List.getElem?_set]
  split
  · split <;> simp
  · exact h.quiet

theorem drained_step (w : World) (a : Action) (h : Drained w) : Drained (step cfg w a) := by
  cases a with
  | connect known =>
    refine ⟨h.draining, fun {n} => ?_⟩
    have hc : connect cfg w known = .closing 1013 := by simp only [connect, h.draining, if_true]
    simp only [step, hc, List.getElem?_append]
    split
    · exact h.quiet
    · cases n - w.handlers.length <;> simp
  | closed n =>
    simp only [step]
    split
    · exact h.set
    · exact h
  | accepted n =>
    simp only [step]
    split
    · rename_i hn; exact absurd hn h.quiet.1
    · exact h
  | refused n =>
    simp only [step]
    split
    · exact h.set
    · exact h
  | callEnds n =>
    simp only [step]
    split
    · rename_i hn; exact absurd hn h.quiet.2
    · exact h
  | shutdown =>
    simp only [step]
    split
    · exact ⟨rfl, h.quiet⟩
    · exact h
  | wake =>
    simp only [step]
    split
    · exact ⟨h.draining, h.quiet⟩
    · exact h

/-- The loop ends as complete only when there are no active calls. -/
theorem activeCalls_of_complete {waited : Int} (h : drainLoop cfg w waited = .complete) : w.activeCalls ≤ 0 := by
  unfold drainLoop at h
  split at h
  · cases h
  · split at h
    · cases h
    · rename_i hn; exact Int.not_lt.mp hn

/-- The step that ends the drain loop as complete moves no handler, and finds no
active calls. -/
theorem step_complete {a : Action} (hn : w.lifespan ≠ .complete) (hc : (step cfg w a).lifespan = .complete) :
    (step cfg w a).handlers = w.handlers ∧ w.activeCalls ≤ 0 := by
  cases a with
  | shutdown =>
    cases hl : w.lifespan <;> simp only [step, hl] at hc hn ⊢
    · exact ⟨trivial, activeCalls_of_complete hc⟩
    · cases hc
    · cases hc
    · exact absurd rfl hn
  | wake =>
    cases hl : w.lifespan <;> simp only [step, hl] at hc hn ⊢
    · cases hc
    · exact ⟨trivial, activeCalls_of_complete hc⟩
    · cases hc
    · exact absurd rfl hn
  | connect => exact absurd hc hn
  | closed m => simp only [step] at hc; split at hc <;> exact absurd hc hn
  | accepted m => simp only [step] at hc; split at hc <;> exact absurd hc hn
  | refused m => simp only [step] at hc; split at hc <;> exact absurd hc hn
  | callEnds m => simp only [step] at hc; split at hc <;> exact absurd hc hn

theorem Counted.not_running (h : Counted w) (hle : w.activeCalls ≤ 0) (n : Nat) :
    w.handlers[n]? ≠ some .running := by
  intro hr
  have hpos : 0 < w.handlers.countP isRunning :=
    List.countP_pos_iff.mpr ⟨.running, List.mem_of_getElem? hr, rfl⟩
  rw [h.active] at hle
  omega

theorem drained_of_complete {a : Action} (h : Counted w) (hn : w.lifespan ≠ .complete)
    (hc : (step cfg w a).lifespan = .complete) (hq : ∀ n : Nat, w.handlers[n]? ≠ some .accepting) :
    Drained (step cfg w a) := by
  obtain ⟨hw, hle⟩ := step_complete hn hc
  refine ⟨(counted_step w a h).draining (by rw [hc]; simp), fun {n} => ?_⟩
  rw [hw]
  exact ⟨hq n, h.not_running hle n⟩

/-- After the step that ends the drain loop because there are no active calls,
no handler starts a call and none has one running, exactly if no handler awaits
`accept()` at that step. -/
theorem drain_safe_iff (cfg : Config) (p : List Action) (a : Action)
    (hn : (run (step cfg) .init p).lifespan ≠ .complete)
    (hc : (run (step cfg) .init (p ++ [a])).lifespan = .complete) :
    (∀ bs, AllSteps (step cfg) (fun w b => ¬ Starts w b) (run (step cfg) .init (p ++ [a])) bs ∧
        Always (step cfg) (fun w => ∀ n : Nat, w.handlers[n]? ≠ some .running)
          (run (step cfg) .init (p ++ [a])) bs) ↔
      ∀ n : Nat, (run (step cfg) .init p).handlers[n]? ≠ some .accepting := by
  rw [run_concat] at hc ⊢
  constructor
  · intro h n hacc
    -- the handler goes on as soon as `accept()` returns
    have hstart := (h [.accepted n]).1 [] (.accepted n) (List.prefix_refl _)
    exact hstart ⟨n, rfl, by rw [run_nil, (step_complete hn hc).1]; exact hacc⟩
  · intro hq bs
    have hd := drained_of_complete (counted_run cfg p) hn hc hq
    have hinv : ∀ p, Drained (run (step cfg) (step cfg (run (step cfg) .init _) a) p) :=
      run_inv hd drained_step
    exact ⟨fun p b _ => (hinv p).not_starts b, fun p _ n => (hinv p).quiet.2⟩

/-- The limits of the gateway as deployed. -/
def deployed : Config where
  allowUnresolvedSessions := false
  drainTimeoutSeconds := 300

/-- One call starts, the shutdown waits for it, and it ends. -/
theorem drain_safe_after_call :
    (run (step deployed) .init ([.connect true, .accepted 0, .shutdown, .callEnds 0] ++ [.wake])).lifespan =
        .complete ∧
      ∀ bs, AllSteps (step deployed) (fun w b => ¬ Starts w b)
          (run (step deployed) .init ([.connect true, .accepted 0, .shutdown, .callEnds 0] ++ [.wake])) bs ∧
        Always (step deployed) (fun w => ∀ n : Nat, w.handlers[n]? ≠ some .running)
          (run (step deployed) .init ([.connect true, .accepted 0, .shutdown, .callEnds 0] ++ [.wake])) bs := by
  have hw : (run (step deployed) .init [.connect true, .accepted 0, .shutdown, .callEnds 0]).handlers =
    [.ended] := by decide
  refine ⟨by decide, (drain_safe_iff deployed [.connect true, .accepted 0, .shutdown, .callEnds 0] .wake
    (by decide) (by decide)).mpr fun n => ?_⟩
  rw [hw]
  cases n <;> simp

/-- A connection passes the test of `_draining` and awaits `accept()`; the
shutdown finds no active calls and reports the drain complete; then `accept()`
returns and the call starts. -/
theorem drain_starts_call :
    (run (step deployed) .init [.connect true, .shutdown]).lifespan = .complete ∧
      Starts (run (step deployed) .init [.connect true, .shutdown]) (.accepted 0) ∧
      (run (step deployed) .init [.connect true, .shutdown, .accepted 0]).handlers[0]? = some .running :=
  ⟨by decide, ⟨0, rfl, by decide⟩, by decide⟩

end CallingAgent.Proof.Gateway.Drain
