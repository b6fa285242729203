import Mathlib.Data.Rat.Floor
import CallingAgent.Proof.Gateway.Tasks

/-!
# The counter of active calls

Every way through `voice_websocket` that passes `on_call_started` passes
`on_call_ended` afterwards, and no other handler passes either: each program
meets `pre`, with the end `paired` (`meets_prog`). So `_active_calls` counts the
handlers in between, in every state of the system.
-/

namespace CallingAgent.Proof.Gateway.ActiveCalls

open CallingAgent.Framework CallingAgent.Impl CallingAgent.Impl.VoiceGateway CallingAgent.Proof.Gateway.Tasks
open CallingAgent.Impl.VoicePipeline (Lifespan drainPollIntervalSeconds)

/-! ## The handlers -/

/-- Whether a handler has passed `on_call_started` and `on_call_ended`. -/
structure Passed where
  started : Bool
  ended : Bool

/-- A handler passes `on_call_started` once, and then `on_call_ended` once. -/
def pre (g : Passed) : Query → Prop
  | .onCallStarted => g.started = false ∧ g.ended = false
  | .onCallEnded => g.started = true ∧ g.ended = false
  | _ => True

def next (g : Passed) (q : Query) (_ : Reply q) : Passed where
  started := g.started || q = .onCallStarted
  ended := g.ended || q = .onCallEnded

/-- It ends having passed both or neither. -/
def paired {α : Type} (g : Passed) (_ : Except Exc α) : Prop := g.ended = g.started

/-- A call for something else. -/
def Uncounted : Query → Prop
  | .onCallStarted => False
  | .onCallEnded => False
  | _ => True

theorem uncounted_of_plain (_ : Unit) (q : Query) (hq : Plain q) : Uncounted q := by
  cases q <;> trivial

/-- A program that passes neither. -/
theorem meets_of_uncounted {α : Type} {p : Handler α} (hp : p.Only Uncounted) (g : Passed) :
    p.Meets pre next (fun g' _ => g' = g) g := by
  refine hp.meets (fun q hq => ?_) fun q r hq => ?_
  · cases q <;> trivial
  · cases q <;> first | exact hq.elim | simp [next]

section

variable {α : Type} {cfg : Config} {c : CallId}

theorem uncounted_session (q : SessionManager.Query) (_ : SessionOps.About c q) : Uncounted (.session q) := trivial

theorem only_createSession (payload : Exotel.ExotelCallback) (tenantId agentId : String) :
    (createSession cfg payload tenantId agentId).Only Uncounted := by
  refine Prog.Safe.bind (Prog.only_ask trivial) fun callId => ?_
  refine Prog.Safe.bind (only_session (c := callId) (Prog.only_ask trivial) uncounted_session) fun now => ?_
  refine Prog.Safe.bind (Prog.only_ask trivial) fun r => (safe_except? _ r).bind fun x => ?_
  cases x with
  | none => exact Prog.safe_throw _
  | some a =>
    refine (only_session (SessionOps.only_create _ _) uncounted_session).bind fun _ => ?_
    exact Prog.Safe.bind (Prog.only_ask trivial) fun _ => Prog.safe_pure _

/-- A handler that passes neither, before the call has started. -/
theorem meets_paired {p : Handler α} (hp : p.Only Uncounted) : p.Meets pre next paired ⟨false, false⟩ :=
  (meets_of_uncounted hp _).mono fun g x hg => by rw [hg]; rfl

/-- From `accept()` on: if it returns, `on_call_started` is passed, and
`on_call_ended` however `_run_call` ends. -/
theorem meets_acceptCall : (acceptCall cfg c).Meets pre next paired ⟨false, false⟩ := by
  have hrun : (runCall cfg c).Only Uncounted := safe_runCall uncounted_of_plain (safeSession_only uncounted_session)
  unfold acceptCall
  rw [Prog.meets_ask_bind]
  refine ⟨trivial, fun r => ?_⟩
  cases r with
  | error e => exact rfl
  | ok a =>
    refine ⟨⟨rfl, rfl⟩, fun _ => Prog.meets_tryFinally.mpr ((meets_of_uncounted hrun _).mono fun g x hg => ?_)⟩
    subst hg
    refine ⟨⟨rfl, rfl⟩, fun _ => ?_⟩
    cases x with
    | ok a => exact rfl
    | error e => exact rfl

theorem meets_voiceWebsocket : (voiceWebsocket cfg c).Meets pre next paired ⟨false, false⟩ := by
  unfold voiceWebsocket
  rw [Prog.meets_ask_bind]
  refine ⟨trivial, fun draining => ?_⟩
  rw [show next ⟨false, false⟩ .isDraining draining = ⟨false, false⟩ from rfl]
  split
  · exact meets_paired (safe_close uncounted_of_plain _ _)
  · rw [Prog.meets_bind]
    refine (meets_of_uncounted (only_session SessionOps.only_get uncounted_session) _).mono fun g x hg => ?_
    subst hg
    cases x with
    | error e => exact rfl
    | ok existing =>
      cases existing with
      | some session => exact meets_acceptCall
      | none =>
        dsimp only
        split
        · exact meets_paired (safe_close uncounted_of_plain _ _)
        · rw [Prog.meets_bind]
          refine (meets_of_uncounted (only_session (SessionOps.only_create _ _) uncounted_session) _).mono
            fun g x hg => ?_
          subst hg
          cases x with
          | error e => exact rfl
          | ok a => exact meets_acceptCall

end

theorem meets_prog (cfg : Config) (kind : Kind) : (kind.prog cfg).Meets pre next paired ⟨false, false⟩ := by
  cases kind with
  | websocket callId =>
    refine Prog.meets_bind.mpr (meets_voiceWebsocket.mono fun g x hg => ?_)
    cases x <;> exact hg
  | conversation callId text => 
    have h : (converse cfg callId text).Only Uncounted :=
      safe_converse uncounted_of_plain (safeSession_only uncounted_session) text
    exact meets_paired (h.bind fun _ => Prog.safe_pure _)
  | callback request => 
    have h : (callback cfg request).Only Uncounted :=
      safe_callback uncounted_of_plain (fun _ => safeSession_only uncounted_session) request fun _ => only_createSession
    exact meets_paired (h.bind fun _ => Prog.safe_pure _)

/-! ## The counter -/

/-- A handler of process `i` between `on_call_started` and `on_call_ended`. -/
def inCall (i : Nat) (t : Task) : Bool := t.inst = i && t.alive && t.started && !t.ended

/-- What is left of a handler's program meets `pre`, from what it has passed. -/
structure TaskInv (t : Task) : Prop where
  meets : t.prog.Meets pre next paired ⟨t.started, t.ended⟩
  started : t.ended = true → t.started = true

structure Inv (w : World) : Prop where
  active : ∀ i, (w.processes i).activeCalls = w.tasks.countP (inCall i)
  tasks : ∀ t ∈ w.tasks, TaskInv t

variable {cfg : Config} {w : World}

/-- What a call does to `_active_calls`. -/
def delta : Query → Int
  | .onCallStarted => 1
  | .onCallEnded => -1
  | _ => 0

theorem serve_activeCalls (w : World) (i j : Nat) (outcome : SessionManager.Outcome) (env : (q : Query) → Reply q)
    (q : Query) : ((w.serve i outcome env q).1.processes j).activeCalls =
      (w.processes j).activeCalls + if j = i then delta q else 0 := by
  cases q with
  | session q =>
    simp only [World.serve, setProcess_processes, delta]
    split <;> simp_all
  | onCallStarted =>
    simp only [World.serve, setProcess_processes, delta]
    split <;> simp_all
  | onCallEnded =>
    simp only [World.serve, setProcess_processes, delta]
    split
    · subst_vars; rfl
    · simp
  | _ => simp [World.serve, delta]

theorem inCall_after {t : Task} {q : Query} (hpre : pre ⟨t.started, t.ended⟩ q) (halive : t.alive = true)
    (j : Nat) (rest : Handler (Option Exotel.Reply)) :
    (if inCall j (taskAfter t q rest) then (1 : Int) else 0) =
      (if inCall j t then 1 else 0) + if j = t.inst then delta q else 0 := by
  by_cases hj : t.inst = j
  · subst hj
    cases q with
    | onCallStarted =>
      obtain ⟨hs, he⟩ := hpre
      simp_all [inCall, taskAfter, delta]
    | onCallEnded =>
      obtain ⟨hs, he⟩ := hpre
      simp_all [inCall, taskAfter, delta]
    | _ => simp [inCall, taskAfter, delta]
  · simp [inCall, taskAfter, hj, Ne.symm hj]

/-- A process changes in anything but its counter. -/
theorem Inv.setProcess (h : Inv w) {i : Nat} {p : Process} (hp : p.activeCalls = (w.processes i).activeCalls) :
    Inv (w.setProcess i p) := by
  refine ⟨fun j => ?_, h.tasks⟩
  rw [setProcess_processes]
  split
  · rename_i e
    rw [hp, e]
    exact h.active i
  · exact h.active j

theorem Inv.spawn (h : Inv w) (i : Nat) (kind : Kind) : Inv (w.spawn cfg i kind) := by
  rcases spawn_cases cfg w i kind with e | ⟨current, e⟩
  · rw [e]; exact h
  · have hw : Inv (World.withCurrent w i current) := h.setProcess rfl
    rw [e]
    refine ⟨fun j => ?_, fun t ht => ?_⟩
    · have hnew : [newTask cfg i kind].countP (inCall j) = 0 := by simp [newTask, inCall]
      rw [List.countP_append, hnew]
      exact hw.active j
    · rcases List.mem_append.mp ht with ht | ht
      · exact h.tasks t ht
      · rw [List.mem_singleton.mp ht]
        exact ⟨meets_prog cfg kind, fun e => by cases e⟩

/-- A coroutine has its call answered. -/
theorem Inv.go (h : Inv w) (n : Nat) (outcome : SessionManager.Outcome) (env : (q : Query) → Reply q) :
    Inv (step cfg w (.go n outcome env)) := by
  rcases go_cases cfg w n outcome env with e | ⟨t, q, k, ht, hq, halive, e⟩
  · rw [e]; exact h
  · obtain ⟨hmeets, hstarted⟩ := h.tasks t (List.mem_of_getElem? ht)
    rw [hq] at hmeets
    obtain ⟨hpre, hrest⟩ := hmeets
    rw [e]
    refine ⟨fun j => ?_, fun t' ht' => ?_⟩
    · simp only [World.resume, serve_tasks]
      have hcount := countP_set (p := inCall j) (taskAfter t q (k (w.serve t.inst outcome env q).2)) ht
      rw [inCall_after hpre halive] at hcount
      have hactive := serve_activeCalls w t.inst j outcome env q
      have hj := h.active j
      have hproc : (Function.update (w.serve t.inst outcome env q).1.processes t.inst
          { (w.serve t.inst outcome env q).1.processes t.inst with
            current := if goesOn (k (w.serve t.inst outcome env q).2) then some n else none } j).activeCalls =
          ((w.serve t.inst outcome env q).1.processes j).activeCalls := by
        rw [Function.update_apply]
        split
        · rename_i e; rw [e]
        · rfl
      rw [hproc, hactive]
      unfold taskAfter at hcount
      omega
    · simp only [World.resume, serve_tasks] at ht'
      rcases List.mem_or_eq_of_mem_set ht' with ht' | rfl
      · exact h.tasks t' ht'
      · refine ⟨hrest _, fun he => ?_⟩
        cases q <;> simp_all [pre]

theorem Inv.restart (h : Inv w) (i : Nat) :
    Inv { w.setProcess i .init with tasks := w.tasks.map (Task.restart i) } := by
  refine ⟨fun j => ?_, fun t ht => ?_⟩
  · rw [List.countP_map]
    show ((w.setProcess i .init).processes j).activeCalls = _
    rw [setProcess_processes]
    split
    · rename_i e
      subst e
      have hnone : w.tasks.countP (inCall j ∘ Task.restart j) = 0 := by
        refine List.countP_eq_zero.mpr fun t _ => ?_
        by_cases e : t.inst = j <;> simp [inCall, Task.restart, e]
      rw [hnone]
      rfl
    · rename_i e
      have hsame : inCall j ∘ Task.restart i = inCall j := by
        funext t
        by_cases e' : t.inst = i
        · simp [inCall, Task.restart, e', Ne.symm e]
        · simp [inCall, Task.restart, e']
      rw [hsame]
      exact h.active j
  · obtain ⟨t', ht', rfl⟩ := List.mem_map.mp ht
    obtain ⟨hmeets, hstarted⟩ := h.tasks t' ht'
    unfold Task.restart
    split
    · exact ⟨hmeets, hstarted⟩
    · exact ⟨hmeets, hstarted⟩

/-! ## The drain loop -/

/-- The sleeps of the drain loop, each of which began with time left; `waited` is what
those before the current one add up to. -/
structure Drain (cfg : Config) (p : Process) : Prop where
  sleeps : p.sleeps = 0 ∨ 2 * ((p.sleeps : Int) - 1) < cfg.drainTimeoutSeconds
  serving : p.lifespan = .serving → p.sleeps = 0
  draining : ∀ waited, p.lifespan = .draining waited → waited = 2 * ((p.sleeps : Int) - 1) ∧ 1 ≤ p.sleeps
  timedOut : ∀ active, p.lifespan = .timedOut active → cfg.drainTimeoutSeconds ≤ 2 * (p.sleeps : Int)

theorem drainLoop_activeCalls (p : Process) (waited : Int) :
    (p.drainLoop cfg waited).activeCalls = p.activeCalls := by
  unfold Process.drainLoop
  repeat' split
  all_goals rfl

/-- The test of the loop, after the sleeps that add up to `waited`. -/
theorem Drain.drainLoop {p : Process} (h : Drain cfg p) {waited : Int} (hw : waited = 2 * (p.sleeps : Int)) :
    Drain cfg (p.drainLoop cfg waited) := by
  unfold Process.drainLoop
  split
  · rename_i hlt
    refine ⟨.inr ?_, (fun e => by cases e), fun waited' e => ?_, (fun active e => by cases e)⟩
    · push_cast
      omega
    · cases e
      refine ⟨?_, Nat.le_add_left 1 _⟩
      dsimp only
      push_cast
      omega
  · split
    · rename_i hge hpos
      refine ⟨h.sleeps, (fun e => by cases e), (fun waited' e => by cases e), fun active _ => ?_⟩
      dsimp only
      omega
    · exact ⟨h.sleeps, (fun e => by cases e), (fun waited' e => by cases e), (fun active e => by cases e)⟩

theorem Drain.shutdown {p : Process} (h : Drain cfg p) : Drain cfg (p.shutdown cfg) := by
  unfold Process.shutdown
  split
  · rename_i hl _
    have h0 := h.serving hl
    exact Drain.drainLoop (p := { p with draining := true }) ⟨h.sleeps, h.serving, h.draining, h.timedOut⟩
      (by dsimp only; omega)
  · exact h

theorem Drain.wake {p : Process} (h : Drain cfg p) : Drain cfg (p.wake cfg) := by
  unfold Process.wake
  split
  · rename_i waited hl _
    obtain ⟨hw, hs⟩ := h.draining waited hl
    exact h.drainLoop (by unfold drainPollIntervalSeconds; omega)
  · exact h

/-- What only changes `_mem`, the counter and the coroutine that runs. -/
theorem Drain.of_eq {p p' : Process} (h : Drain cfg p) (hl : p'.lifespan = p.lifespan) (hs : p'.sleeps = p.sleeps) :
    Drain cfg p' :=
  ⟨hs ▸ h.sleeps, fun e => hs ▸ h.serving (hl ▸ e), fun waited e => hs ▸ h.draining waited (hl ▸ e),
    fun active e => hs ▸ h.timedOut active (hl ▸ e)⟩

theorem serve_lifespan (w : World) (i j : Nat) (outcome : SessionManager.Outcome) (env : (q : Query) → Reply q)
    (q : Query) : ((w.serve i outcome env q).1.processes j).lifespan = (w.processes j).lifespan ∧
      ((w.serve i outcome env q).1.processes j).sleeps = (w.processes j).sleeps := by
  cases q with
  | session q =>
    simp only [World.serve, setProcess_processes]
    split <;> simp_all
  | onCallStarted =>
    simp only [World.serve, setProcess_processes]
    split <;> simp_all
  | onCallEnded =>
    simp only [World.serve, setProcess_processes]
    split <;> simp_all
  | _ => exact ⟨rfl, rfl⟩

theorem drain_setProcess (h : ∀ j, Drain cfg (w.processes j)) {i : Nat} {p : Process} (hp : Drain cfg p) (j : Nat) :
    Drain cfg ((w.setProcess i p).processes j) := by
  rw [setProcess_processes]
  split
  · exact hp
  · exact h j

theorem drain_withCurrent (h : ∀ j, Drain cfg (w.processes j)) (i : Nat) (current : Option Nat) (j : Nat) :
    Drain cfg ((World.withCurrent w i current).processes j) := by
  have hp : Drain cfg { w.processes i with current := current } := (h i).of_eq rfl rfl
  exact drain_setProcess h hp j

theorem drain_spawn (h : ∀ j, Drain cfg (w.processes j)) (i : Nat) (kind : Kind) (j : Nat) :
    Drain cfg ((w.spawn cfg i kind).processes j) := by
  rcases spawn_cases cfg w i kind with e | ⟨current, e⟩
  · rw [e]; exact h j
  · rw [e]
    exact drain_withCurrent h i current j

theorem drain_init : Drain cfg .init := ⟨.inl rfl, fun _ => rfl, (fun _ e => by cases e), (fun _ e => by cases e)⟩

/-- Both, step by step. -/
theorem inv_step (w : World) (a : Action) (h : Inv w ∧ ∀ i, Drain cfg (w.processes i)) :
    Inv (step cfg w a) ∧ ∀ i, Drain cfg ((step cfg w a).processes i) := by
  obtain ⟨hI, hD⟩ := h
  cases a with
  | tick d => exact ⟨⟨hI.active, hI.tasks⟩, hD⟩
  | expire key => exact ⟨⟨hI.active, hI.tasks⟩, hD⟩
  | connect i callId => exact ⟨hI.spawn i _, drain_spawn hD i _⟩
  | callback i request => exact ⟨hI.spawn i _, drain_spawn hD i _⟩
  | turn n text =>
    rcases turn_cases cfg w n text with e | ⟨t, callId, -, -, -, -, e⟩
    · rw [e]; exact ⟨hI, hD⟩
    · rw [e]; exact ⟨hI.spawn _ _, drain_spawn hD _ _⟩
  | go n outcome env =>
    refine ⟨hI.go n outcome env, fun j => ?_⟩
    rcases go_cases cfg w n outcome env with e | ⟨t, q, k, -, -, -, e⟩
    · rw [e]; exact hD j
    · have hserve : ∀ j, Drain cfg ((w.serve t.inst outcome env q).1.processes j) := fun j =>
        (hD j).of_eq (serve_lifespan w t.inst j outcome env q).1 (serve_lifespan w t.inst j outcome env q).2
      rw [e]
      exact drain_withCurrent hserve t.inst _ j
  | shutdown i =>
    refine ⟨hI.setProcess ?_, drain_setProcess hD (hD i).shutdown⟩
    unfold Process.shutdown
    split
    · exact drainLoop_activeCalls _ _
    · rfl
  | wake i =>
    refine ⟨hI.setProcess ?_, drain_setProcess hD (hD i).wake⟩
    unfold Process.wake
    split
    · exact drainLoop_activeCalls _ _
    · rfl
  | restart i => exact ⟨hI.restart i, drain_setProcess hD drain_init⟩

theorem inv_run (cfg : Config) (now : Time) (as : List Action) :
    Inv (run (step cfg) (.init now) as) ∧ ∀ i, Drain cfg ((run (step cfg) (.init now) as).processes i) :=
  run_inv ⟨⟨fun _ => rfl, fun _ ht => absurd ht List.not_mem_nil⟩, fun _ => drain_init⟩ inv_step as

/-! ## The end of the loop -/

theorem drainLoop_complete {p : Process} {waited : Int} (h : (p.drainLoop cfg waited).lifespan = .complete) :
    (p.drainLoop cfg waited).activeCalls ≤ 0 := by
  rw [drainLoop_activeCalls]
  unfold Process.drainLoop at h
  split at h
  · cases h
  · split at h
    · cases h
    · omega

/-- The loop only ends without a timeout when no calls are active. -/
theorem activeCalls_of_complete {a : Action} {i : Nat} (h : ((step cfg w a).processes i).lifespan = .complete) :
    (w.processes i).lifespan = .complete ∨ ((step cfg w a).processes i).activeCalls ≤ 0 := by
  have hspawn : ∀ j kind, ((w.spawn cfg j kind).processes i).lifespan = .complete →
      (w.processes i).lifespan = .complete := by
    intro j kind h
    rcases spawn_cases cfg w j kind with e | ⟨current, e⟩ <;> rw [e] at h
    · exact h
    · have hcur : ((World.withCurrent w j current).processes i).lifespan = .complete := h
      simp only [World.withCurrent, setProcess_processes] at hcur
      split at hcur
      · rename_i e; rw [e]; exact hcur
      · exact hcur
  cases a with
  | tick d => exact .inl h
  | expire key => exact .inl h
  | connect j callId => exact .inl (hspawn _ _ h)
  | callback j request => exact .inl (hspawn _ _ h)
  | turn n text =>
    rcases turn_cases cfg w n text with e | ⟨t, callId, -, -, -, -, e⟩ <;> rw [e] at h
    · exact .inl h
    · exact .inl (hspawn _ _ h)
  | go n outcome env =>
    rcases go_cases cfg w n outcome env with e | ⟨t, q, k, -, -, -, e⟩ <;> rw [e] at h
    · exact .inl h
    · have hcur : ((World.withCurrent (w.serve t.inst outcome env q).1 t.inst
          (if goesOn (k (w.serve t.inst outcome env q).2) then some n else none)).processes i).lifespan = .complete := h
      simp only [World.withCurrent, setProcess_processes] at hcur
      refine .inl ?_
      rw [← (serve_lifespan w t.inst i outcome env q).1]
      split at hcur
      · rename_i e; rw [e]; exact hcur
      · exact hcur
  | shutdown j =>
    simp only [step, setProcess_processes] at h ⊢
    split at h
    · rename_i e
      subst e
      unfold Process.shutdown at h ⊢
      split at h
      · exact .inr (by rw [if_pos rfl]; exact drainLoop_complete h)
      · exact .inl h
    · exact .inl h
  | wake j =>
    simp only [step, setProcess_processes] at h ⊢
    split at h
    · rename_i e
      subst e
      unfold Process.wake at h ⊢
      split at h
      · exact .inr (by rw [if_pos rfl]; exact drainLoop_complete h)
      · exact .inl h
    · exact .inl h
  | restart j =>
    have hinit : ((w.setProcess j .init).processes i).lifespan = .complete := h
    rw [setProcess_processes] at hinit
    split at hinit
    · cases hinit
    · exact .inl hinit

/-- A program at its end. -/
theorem TaskInv.paired {t : Task} (h : TaskInv t) (hend : ∀ q k, t.prog ≠ .call q k) : t.ended = t.started := by
  have hmeets := h.meets
  cases hp : t.prog with
  | pure x => rw [hp] at hmeets; exact hmeets
  | raise e => rw [hp] at hmeets; exact hmeets
  | call q k => exact absurd hp (hend q k)

end CallingAgent.Proof.Gateway.ActiveCalls
