import CallingAgent.Impl.VoiceGateway
import CallingAgent.Proof.Gateway.SessionOps

/-!
# The coroutines of the gateway's processes

What the handlers call out for: `safe_runCall`, `safe_converse` and `safe_callback`
go through them once, for any conditions on the calls that are not `Plain`.

What a step can do to the coroutines: none moves, a new one is added
(`spawn_cases`), or one has its call answered and goes on (`go_cases`).
-/

namespace CallingAgent.Proof.Gateway.Tasks

open CallingAgent.Framework CallingAgent.Impl CallingAgent.Impl.VoiceGateway
open CallingAgent.Proof.Gateway.SessionOps (About only_get only_endSession only_remove only_create only_addTurn)

/-! ## The calls of the handlers -/

/-- A call for none of the sessions, the counter of active calls, the call's row and
the acceptance of the websocket. -/
def Plain : Query → Prop
  | .session _ | .onCallStarted | .onCallEnded | .create _ | .accept => False
  | _ => True

section

variable {α G : Type} {pre : G → Query → Prop} {next : G → (q : Query) → Reply q → G} {cfg : Config} {c : CallId}

/-- The methods that the handlers use on the session of `c`, apart from `create`. -/
structure SafeSession (pre : G → Query → Prop) (next : G → (q : Query) → Reply q → G) (cfg : Config) (c : CallId) :
    Prop where
  get : (session (SessionManager.get cfg.sessions c)).Safe pre next
  endSession : (session (SessionManager.endSession cfg.sessions c)).Safe pre next
  remove : (session (SessionManager.remove cfg.sessions c)).Safe pre next
  addTurn : ∀ role text, (session (SessionManager.addTurn cfg.sessions c role text)).Safe pre next
  clock : (session SessionManager.clock).Safe pre next

theorem safe_orRaise (x : Except Exc α) : (orRaise x).Safe pre next := by
  cases x with
  | ok a => exact Prog.safe_pure a
  | error e => exact Prog.safe_throw e

theorem safe_except? (exc : Exc) (x : Except Exc α) : (except? exc x).Safe pre next := by
  cases x with
  | ok a => exact Prog.safe_pure _
  | error e =>
    simp only [except?]
    split
    · exact Prog.safe_pure _
    · exact Prog.safe_throw e

theorem safe_cleanSession (hs : SafeSession pre next cfg c) : (cleanSession cfg c).Safe pre next := by
  refine hs.get.bind fun x => ?_
  split
  · exact hs.endSession.bind fun _ => hs.remove
  · exact Prog.safe_pure ()

variable (hplain : ∀ g q, Plain q → pre g q)

include hplain

theorem safe_ask {q : Query} (hq : Plain q) : (Prog.ask q : Handler (Reply q)).Safe pre next :=
  Prog.safe_ask fun g => hplain g q hq

theorem safe_close (code : Nat) (reason : String) :
    (do orRaise (← Prog.ask (Query.close code reason)) : Handler Unit).Safe pre next :=
  Prog.Safe.bind (safe_ask hplain trivial) fun r => safe_orRaise r

theorem safe_runCall (hs : SafeSession pre next cfg c) : (runCall cfg c).Safe pre next := by
  refine Prog.Safe.bind (safe_ask hplain trivial) fun r => (safe_except? _ r).bind fun x => ?_
  cases x with
  | none => exact safe_cleanSession hs
  | some a =>
    refine Prog.Safe.bind (safe_ask hplain trivial) fun r => (safe_orRaise r).bind fun _ => ?_
    refine Prog.Safe.bind (safe_ask hplain trivial) fun r => (safe_orRaise r).bind fun _ => ?_
    refine Prog.Safe.tryFinally ?_ ?_
    · exact Prog.Safe.bind (safe_ask hplain trivial) fun r => safe_orRaise r
    · refine (safe_cleanSession hs).bind fun _ => ?_
      exact Prog.Safe.bind (safe_ask hplain trivial) fun r => safe_orRaise r

theorem safe_respond (hs : SafeSession pre next cfg c) : (respond cfg c).Safe pre next := by
  refine Prog.Safe.bind (safe_ask hplain trivial) fun r => (safe_except? _ r).bind fun x => ?_
  refine (hs.addTurn _ _).bind fun _ => ?_
  exact Prog.Safe.bind (safe_ask hplain trivial) fun r => safe_orRaise r

theorem safe_converse (hs : SafeSession pre next cfg c) (text : Option String) :
    (converse cfg c text).Safe pre next := by
  cases text with
  | none => exact safe_respond hplain hs
  | some text => exact (hs.addTurn _ _).bind fun _ => hs.get.bind fun _ => safe_respond hplain hs

theorem safe_endCall (hs : ∀ c, SafeSession pre next cfg c) (payload : Exotel.ExotelCallback) :
    (endCall cfg payload).Safe pre next := by
  refine Prog.Safe.bind (safe_ask hplain trivial) fun entry => ?_
  split
  · exact Prog.safe_pure _
  · rename_i callId _
    refine (hs callId).clock.bind fun now => ?_
    refine Prog.Safe.bind (safe_ask hplain trivial) fun r => (safe_except? _ r).bind fun x => ?_
    cases x with
    | none => exact Prog.safe_throw _
    | some a =>
      refine (safe_cleanSession (hs callId)).bind fun _ => ?_
      exact Prog.Safe.bind (safe_ask hplain trivial) fun _ => Prog.safe_pure _

theorem safe_startCall (payload : Exotel.ExotelCallback)
    (hcreate : ∀ tenantId agentId, (createSession cfg payload tenantId agentId).Safe pre next) :
    (startCall cfg payload).Safe pre next := by
  unfold startCall
  split
  · exact Prog.safe_throw _
  · exact Prog.safe_throw _
  · refine Prog.Safe.bind (safe_ask hplain trivial) fun r => (safe_except? _ r).bind fun x => ?_
    cases x with
    | none => exact Prog.safe_throw _
    | some ids => exact hcreate ids.1 ids.2

/-- `callback`, which goes on only with a request that is authenticated. -/
theorem safe_callback (hs : ∀ c, SafeSession pre next cfg c) (request : CallbackRequest)
    (hcreate : authenticate cfg request = .ok () →
      ∀ payload tenantId agentId, (createSession cfg payload tenantId agentId).Safe pre next) :
    (callback cfg request).Safe pre next := by
  unfold callback
  cases hauth : authenticate cfg request with
  | error e => exact Prog.safe_throw e
  | ok a =>
    refine (safe_orRaise _).bind fun _ => ?_
    split
    · exact Prog.safe_throw _
    · refine Prog.Safe.bind (safe_ask hplain trivial) fun r => (safe_except? _ r).bind fun x => ?_
      split
      · exact Prog.safe_throw _
      · exact Prog.Safe.bind (safe_ask hplain trivial) fun _ => Prog.safe_pure _
      · split
        · exact safe_startCall hplain _ (hcreate hauth _)
        · split
          · exact safe_endCall hplain hs _
          · exact Prog.safe_pure _

end

section

variable {α : Type} {P : Query → Prop} {cfg : Config} {c : CallId}

theorem only_session {p : SessionManager.Method Exc α} (hp : p.Only (About c)) (hP : ∀ q, About c q → P (.session q)) :
    (session p).Only P :=
  hp.translate fun q hq => Prog.only_ask (hP q hq)

/-- The methods for `c` call out for nothing of other calls. -/
theorem safeSession_only (hP : ∀ q, About c q → P (.session q)) :
    SafeSession (fun (_ : Unit) q => P q) (fun _ _ _ => ()) cfg c where
  get := only_session only_get hP
  endSession := only_session only_endSession hP
  remove := only_session only_remove hP
  addTurn role text := only_session (only_addTurn role text) hP
  clock := only_session (Prog.only_ask trivial) hP

end

/-! ## The steps -/

variable {cfg : Config} {w : World}

/-- A coroutine that has just started. -/
def newTask (cfg : Config) (i : Nat) (kind : Kind) : Task := ⟨i, kind, kind.prog cfg, true, false, false⟩

/-- A coroutine after its call. -/
def taskAfter (t : Task) (q : Query) (rest : Handler (Option Exotel.Reply)) : Task :=
  { t with prog := rest, started := t.started || q = .onCallStarted, ended := t.ended || q = .onCallEnded }

/-- Coroutine `h` of some process runs, or none does. -/
def World.withCurrent (w : World) (i : Nat) (current : Option Nat) : World :=
  w.setProcess i { w.processes i with current := current }

theorem spawn_cases (cfg : Config) (w : World) (i : Nat) (kind : Kind) :
    w.spawn cfg i kind = w ∨
      ∃ current, w.spawn cfg i kind =
        { World.withCurrent w i current with tasks := w.tasks ++ [newTask cfg i kind] } := by
  unfold World.spawn
  split
  · exact .inr ⟨_, rfl⟩
  · exact .inl rfl

theorem turn_cases (cfg : Config) (w : World) (h : Nat) (text : Option String) :
    step cfg w (.turn h text) = w ∨
      ∃ t callId, w.tasks[h]? = some t ∧ t.kind = .websocket callId ∧ t.alive = true ∧ t.started = true ∧
        step cfg w (.turn h text) = w.spawn cfg t.inst (.conversation callId text) := by
  simp only [step]
  split
  · rename_i ht
    exact .inr ⟨_, _, ht, rfl, rfl, rfl, rfl⟩
  · exact .inl rfl

/-- The call that coroutine `h` has come to is answered. -/
theorem go_cases (cfg : Config) (w : World) (h : Nat) (outcome : SessionManager.Outcome) (env : (q : Query) → Reply q) :
    step cfg w (.go h outcome env) = w ∨
      ∃ t q k, w.tasks[h]? = some t ∧ t.prog = .call q k ∧ t.alive = true ∧
        step cfg w (.go h outcome env) =
          (w.serve t.inst outcome env q).1.resume h t q (w.serve t.inst outcome env q).2
            (k (w.serve t.inst outcome env q).2) := by
  simp only [step]
  split
  · rename_i t ht
    split
    · rename_i q k hq
      split
      · rename_i hready
        simp only [World.ready, Bool.and_eq_true] at hready
        exact .inr ⟨t, q, k, ht, hq, hready.1, rfl⟩
      · exact .inl rfl
    · exact .inl rfl
  · exact .inl rfl

@[simp] theorem serve_tasks (w : World) (i : Nat) (outcome : SessionManager.Outcome) (env : (q : Query) → Reply q)
    (q : Query) : (w.serve i outcome env q).1.tasks = w.tasks := by
  cases q <;> rfl

@[simp] theorem serve_trace (w : World) (i : Nat) (outcome : SessionManager.Outcome) (env : (q : Query) → Reply q)
    (q : Query) : (w.serve i outcome env q).1.trace = w.trace := by
  cases q <;> rfl

theorem resume_tasks (w : World) (h : Nat) (t : Task) (q : Query) (r : Reply q) (rest : Handler (Option Exotel.Reply)) :
    (w.resume h t q r rest).tasks = w.tasks.set h (taskAfter t q rest) := rfl

theorem resume_trace (w : World) (h : Nat) (t : Task) (q : Query) (r : Reply q) (rest : Handler (Option Exotel.Reply)) :
    (w.resume h t q r rest).trace = ⟨h, q, r⟩ :: w.trace := rfl

/-- The process `j` of a world after that of `i` has been set. -/
theorem setProcess_processes (w : World) (i j : Nat) (p : Process) :
    (w.setProcess i p).processes j = if j = i then p else w.processes j := Function.update_apply ..

theorem withCurrent_mem (w : World) (i j : Nat) (current : Option Nat) :
    ((World.withCurrent w i current).processes j).mem = (w.processes j).mem := by
  rw [World.withCurrent, setProcess_processes]
  split
  · rename_i e; rw [e]
  · rfl

/-- What holds of the programs of new coroutines, and goes on to hold when a call is
answered, holds of what is left of every coroutine. -/
theorem tasks_step {T : Kind → Handler (Option Exotel.Reply) → Prop} (hnew : ∀ kind, T kind (kind.prog cfg))
    (hcall : ∀ kind q k r, T kind (.call q k) → T kind (k r)) (hw : ∀ t ∈ w.tasks, T t.kind t.prog) (a : Action) :
    ∀ t ∈ (step cfg w a).tasks, T t.kind t.prog := by
  have hspawn : ∀ i kind, ∀ t ∈ (w.spawn cfg i kind).tasks, T t.kind t.prog := by
    intro i kind t ht
    rcases spawn_cases cfg w i kind with e | ⟨current, e⟩ <;> rw [e] at ht
    · exact hw t ht
    · rcases List.mem_append.mp ht with ht | ht
      · exact hw t ht
      · rw [List.mem_singleton.mp ht]
        exact hnew kind
  intro t ht
  cases a with
  | connect i callId => exact hspawn _ _ t ht
  | callback i request => exact hspawn _ _ t ht
  | turn h text =>
    rcases turn_cases cfg w h text with e | ⟨t', callId, -, -, -, -, e⟩ <;> rw [e] at ht
    · exact hw t ht
    · exact hspawn _ _ t ht
  | go h outcome env =>
    rcases go_cases cfg w h outcome env with e | ⟨t', q, k, ht', hq, -, e⟩ <;> rw [e] at ht
    · exact hw t ht
    · rw [resume_tasks, serve_tasks] at ht
      rcases List.mem_or_eq_of_mem_set ht with ht | rfl
      · exact hw t ht
      · have hbefore := hw t' (List.mem_of_getElem? ht')
        rw [hq] at hbefore
        exact hcall _ q k _ hbefore
  | restart i =>
    obtain ⟨t', ht', rfl⟩ := List.mem_map.mp ht
    unfold Task.restart
    split <;> exact hw t' ht'
  | tick d => exact hw t ht
  | expire k => exact hw t ht
  | shutdown i => exact hw t ht
  | wake i => exact hw t ht

theorem tasks_run {T : Kind → Handler (Option Exotel.Reply) → Prop} (hnew : ∀ kind, T kind (kind.prog cfg))
    (hcall : ∀ kind q k r, T kind (.call q k) → T kind (k r)) (now : Time) (as : List Action) :
    ∀ t ∈ (run (step cfg) (.init now) as).tasks, T t.kind t.prog :=
  run_inv (I := fun w : World => ∀ t ∈ w.tasks, T t.kind t.prog) (fun _ ht => by cases ht)
    (fun _ a hw => tasks_step hnew hcall hw a) as

end CallingAgent.Proof.Gateway.Tasks
