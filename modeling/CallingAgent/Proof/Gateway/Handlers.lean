import CallingAgent.Proof.Gateway.Steps

/-!
# What a step does to a handler

A step is one of at most one handler (`handlerOf`), and leaves the others as
they are (`handlers_other`), unless a process is restarted. A handler comes with
its delivery (`handler_new`), serves one callback at one process and records its
event once (`handler_kept`), and returns when it receives an answer.
-/

namespace CallingAgent.Proof.Gateway

open CallingAgent.Framework CallingAgent.Impl CallingAgent.Impl.Exotel

/-- The handler whose step an action is. -/
def handlerOf : Action → Option Nat
  | .deliver h _ _ => some h
  | .serve h _ => some h
  | .receive h => some h
  | .fail h => some h
  | _ => none

/-- No client fails, and no process is restarted. -/
def isWorking : Action → Bool
  | .fail _ => false
  | .restart _ => false
  | _ => true

/-- What a handler has returned. -/
def replyOf (w : World) (h : Nat) : Option Reply :=
  (w.handlers h).bind fun x =>
    match x.phase with
    | .returned reply => some reply
    | _ => none

variable {env : Env} {w : World} {h : Nat} {x y : Handler} {a : Action}

@[simp] theorem setHandler_handlers (w : World) (h : Nat) (x : Handler) :
    (w.setHandler h x).handlers h = some x := Function.update_self ..

theorem replyOf_eq (hx : w.handlers h = some x) {reply : Reply} (hp : x.phase = .returned reply) :
    replyOf w h = some reply := by
  simp only [replyOf, hx, hp, Option.bind_some]

theorem step_serve (env : Env) {request : ApiRequest} (hx : w.handlers h = some x) (hr : x.request = some request)
    (session : Tenant.Setting) :
    step env w (.serve h session) = (serveRequest env session w request).1.setHandler h
      { x with request := none, answer := some (serveRequest env session w request).2 } := by
  simp only [step, hx, hr]

theorem step_receive (env : Env) {answer : ApiAnswer} (hx : w.handlers h = some x) (ha : x.answer = some answer) :
    step env w (.receive h) = resume env w h { x with answer := none } answer := by
  simp only [step, hx, ha]

/-- Serving a handler without a request does nothing. -/
theorem serve_cases (env : Env) (w : World) (h : Nat) (session : Tenant.Setting) :
    step env w (.serve h session) = w ∨ ∃ x request, w.handlers h = some x ∧ x.request = some request := by
  cases hx : w.handlers h with
  | none => exact .inl (by simp only [step, hx])
  | some x =>
    cases hr : x.request with
    | none => exact .inl (by simp only [step, hx, hr])
    | some request => exact .inr ⟨x, request, rfl, hr⟩

/-- A handler without an answer receives none. -/
theorem receive_cases (env : Env) (w : World) (h : Nat) :
    step env w (.receive h) = w ∧ (∀ x, w.handlers h = some x → x.answer = none) ∨
      ∃ x answer, w.handlers h = some x ∧ x.answer = some answer := by
  cases hx : w.handlers h with
  | none => exact .inl ⟨by simp only [step, hx], fun _ e => by cases e⟩
  | some x =>
    cases ha : x.answer with
    | none =>
      refine .inl ⟨by simp only [step, hx, ha], fun y hy => ?_⟩
      rw [← Option.some.inj hy]; exact ha
    | some answer => exact .inr ⟨x, answer, rfl, ha⟩

/-- An answer comes after its request. -/
theorem request_eq_none {answer : ApiAnswer} (hu : x.request ≠ none → x.answer = none)
    (ha : x.answer = some answer) : x.request = none := by
  by_contra hr
  rw [hu hr] at ha; cases ha

/-- A restart leaves a handler alone or ends it. -/
theorem restart_cases (inst : Nat) (x : Handler) :
    x.restart inst = x ∨ x.restart inst = { x with phase := .lost } := by
  unfold Handler.restart
  split
  · exact .inl rfl
  · split
    · exact .inr rfl
    · exact .inl rfl

/-- `y` serves whom `x` serves, and does not record again. -/
def Continues (x y : Handler) : Prop :=
  y.inst = x.inst ∧ y.payload = x.payload ∧
    ∀ body, y.request = some (.record body) → x.request = some (.record body)

theorem handler_kept (env : Env) (hx : w.handlers h = some x) (a : Action) :
    ∃ y, (step env w a).handlers h = some y ∧ Continues x y := by
  have hs := gStep env w a
  generalize step env w a = w' at hs
  have hrefl : Continues x x := ⟨rfl, rfl, fun _ e => e⟩
  have hset : ∀ {h' x' y'}, w.handlers h' = some x' → Continues x' y' →
      ∃ y, Function.update w.handlers h' (some y') h = some y ∧ Continues x y := by
    intro h' x' y' hx' hc
    by_cases hh : h = h'
    · subst hh
      obtain rfl : x = x' := Option.some.inj (hx.symm.trans hx')
      exact ⟨y', Function.update_self .., hc⟩
    · exact ⟨x, by rw [Function.update_of_ne hh]; exact hx, hrefl⟩
  cases hs with
  | skip => exact ⟨x, hx, hrefl⟩
  | tick => exact ⟨x, hx, hrefl⟩
  | @deliver h' _ _ hn =>
    refine ⟨x, ?_, hrefl⟩
    have hne : h ≠ h' := fun e => by rw [e, hn] at hx; cases hx
    exact (Function.update_of_ne hne _ _).trans hx
  | serve hx' _ hs =>
    rw [World.setHandler, hs.frame.1]
    exact hset hx' ⟨rfl, rfl, fun _ e => by cases e⟩
  | reply _ hx' => exact hset hx' ⟨rfl, rfl, fun _ e => e⟩
  | resolve hx' => exact hset hx' ⟨rfl, rfl, fun _ e => by cases e⟩
  | create hx' => exact hset hx' ⟨rfl, rfl, fun _ e => by cases e⟩
  | finalize hx' => exact hset hx' ⟨rfl, rfl, fun _ e => by cases e⟩
  | started hx' => exact hset hx' ⟨rfl, rfl, fun _ e => e⟩
  | cleaned hx' => exact hset hx' ⟨rfl, rfl, fun _ e => e⟩
  | @restart inst =>
    refine ⟨x.restart inst, by simp only [step, hx, Option.map_some], ?_⟩
    rcases restart_cases inst x with e | e <;> rw [e]
    · exact hrefl
    · exact ⟨rfl, rfl, fun _ e => e⟩

/-- A handler comes with a delivery. -/
theorem handler_new (hx : w.handlers h = none) (hy : (step env w a).handlers h = some y) :
    a = .deliver h y.inst y.payload := by
  have hs := gStep env w a
  generalize step env w a = w' at hs hy
  have hset : ∀ {h' x' y'}, w.handlers h' = some x' → Function.update w.handlers h' (some y') h ≠ some y := by
    intro h' x' y' hx' e
    rcases update_cases e with ⟨rfl, -⟩ | ⟨-, e⟩
    · rw [hx] at hx'; cases hx'
    · rw [hx] at e; cases e
  cases hs with
  | skip => rw [hx] at hy; cases hy
  | tick => exact absurd (hx.symm.trans hy) nofun
  | deliver =>
    rcases update_cases hy with ⟨rfl, rfl⟩ | ⟨-, e⟩
    · rfl
    · rw [hx] at e; cases e
  | serve hx' _ hs =>
    rw [World.setHandler, hs.frame.1] at hy
    exact absurd hy (hset hx')
  | reply _ hx' => exact absurd hy (hset hx')
  | resolve hx' => exact absurd hy (hset hx')
  | create hx' => exact absurd hy (hset hx')
  | finalize hx' => exact absurd hy (hset hx')
  | started hx' => exact absurd hy (hset hx')
  | cleaned hx' => exact absurd hy (hset hx')
  | restart =>
    simp only [step, hx, Option.map_none] at hy
    cases hy

/-- A step of another handler. -/
theorem handlers_other (hwork : isWorking a = true) (ha : handlerOf a ≠ some h) :
    (step env w a).handlers h = w.handlers h := by
  have hs := gStep env w a
  generalize step env w a = w' at hs
  have hne : ∀ h', handlerOf a = some h' → ∀ y, Function.update w.handlers h' (some y) h = w.handlers h :=
    fun h' e y => Function.update_of_ne (fun e' => ha (e.trans (congrArg some e'.symm))) _ _
  cases hs with
  | skip => rfl
  | tick => rfl
  | serve _ _ hs =>
    rw [World.setHandler, hs.frame.1]
    exact hne _ rfl _
  | reply ha' =>
    rcases ha' with ⟨rfl, -⟩ | ⟨rfl, -⟩
    · exact hne _ rfl _
    · exact hne _ rfl _
  | restart => cases hwork
  | _ => exact hne _ rfl _

/-- A handler that waits has not returned. -/
theorem replyOf_waiting (hx : w.handlers h = some x) (hp : isWaiting x.phase = true) : replyOf w h = none := by
  unfold replyOf
  rw [hx, Option.bind_some]
  cases hph : x.phase with
  | returned reply => rw [hph] at hp; cases hp
  | _ => rfl

/-- A handler returns when it receives an answer. -/
theorem replyOf_of_ne_receive (hwork : isWorking a = true) (ha : a ≠ .receive h) :
    replyOf (step env w a) h = replyOf w h := by
  by_cases hh : handlerOf a = some h
  · unfold replyOf
    cases a with
    | deliver h' inst payload =>
      obtain rfl : h' = h := Option.some.inj hh
      cases hx : w.handlers h' with
      | none => simp only [step, hx, setHandler_handlers, Option.bind_some, Option.bind_none]
      | some x => simp only [step, hx]
    | serve h' session =>
      obtain rfl : h' = h := Option.some.inj hh
      cases hx : w.handlers h' with
      | none => simp only [step, hx]
      | some x =>
        cases hr : x.request with
        | none => simp only [step, hx, hr]
        | some request => rw [step_serve env hx hr, setHandler_handlers]; rfl
    | receive h' => exact absurd (congrArg Action.receive (Option.some.inj hh)) ha
    | fail h' => cases hwork
    | tick d => cases hh
    | restart inst => cases hh
  · unfold replyOf
    rw [handlers_other hwork hh]

end CallingAgent.Proof.Gateway
