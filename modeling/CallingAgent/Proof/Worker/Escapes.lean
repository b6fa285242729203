import CallingAgent.Impl.RunLoop

/-!
# What the worker does not survive

Of all that can be answered to a worker, it does not survive a successful response of
which it cannot read the body (`Unreadable`): the clients make a `JobsApiError` or an
`IntegrationError` of everything else, and `process_one` and the loop except these
(`failsOn_processOne`, `failsOn_iteration`).
-/

namespace CallingAgent.Proof.Escapes

open CallingAgent.Framework CallingAgent.Impl CallingAgent.Impl.RunLoop

def Succeeds {α : Type} (response : Response α) : Prop := 200 ≤ response.statusCode ∧ response.statusCode ≤ 299

/-- A successful response, of which the body raises as it is read. -/
def UnreadableBody {α : Type} (r : Http α) : Prop := ∃ response, r = some response ∧ Succeeds response ∧ response.body = none

/-- The client reads the body of the response, and that raises. A job whose payload
cannot be sent on as JSON counts as unreadable: `process` raises before it sends. -/
def Unreadable : (q : Query) → Reply q → Prop
  | .list _ _, r => UnreadableBody r
  | .claim _, r => UnreadableBody r
  | .fail _ _ _, r => UnreadableBody r
  | .reap, r => UnreadableBody r
  | .process _, r => ∃ response, r = some response ∧ response.statusCode < 400 ∧ response.body = none
  | _, _ => False

def IsJobsApiError : Exc → Prop
  | .jobsApiError _ => True
  | _ => False

def IsIntegrationError : Exc → Prop
  | .integrationError _ => True
  | _ => False

/-- A program that raises `other` where an answer is unreadable, and otherwise at most
what `may` allows. -/
abbrev Fails {α : Type} (may : Exc → Prop) (p : Worker α) : Prop := Prog.FailsOn Unreadable .other may p

/-! ## The clients -/

theorem raiseForStatus_ok {α : Type} {response : Response α} (h : Succeeds response) (message : String) :
    response.raiseForStatus message = pure () := if_pos h

theorem raiseForStatus_not_ok {α : Type} {response : Response α} (h : ¬Succeeds response) (message : String) :
    response.raiseForStatus message = throw (.jobsApiError message) := if_neg h

/-- A request of which the body is read. -/
theorem fails_body {α : Type} (method path message : String) (r : Http α) :
    let p : Worker α := do
      let response ← request method path r
      response.raiseForStatus message
      response.validate
    (UnreadableBody r → p = .raise .other) ∧ (¬UnreadableBody r → Fails IsJobsApiError p) := by
  intro p
  cases r with
  | none => exact ⟨fun ⟨_, h, _⟩ => (by cases h), fun _ => trivial⟩
  | some response =>
    by_cases hok : Succeeds response
    · have hp : p = response.validate := by
        show ((response.raiseForStatus message >>= fun _ => response.validate : Worker α)) = _
        rw [raiseForStatus_ok hok]
        rfl
      cases hb : response.body with
      | none =>
        rw [hp, Response.validate, hb]
        exact ⟨fun _ => rfl, fun h => absurd ⟨response, rfl, hok, hb⟩ h⟩
      | some a =>
        rw [hp, Response.validate, hb]
        exact ⟨fun ⟨_, h, _, h'⟩ => (by cases h; rw [hb] at h'; cases h'), fun _ => trivial⟩
    · have hp : p = throw (.jobsApiError message) := by
        show ((response.raiseForStatus message >>= fun _ => response.validate : Worker α)) = _
        rw [raiseForStatus_not_ok hok]
        rfl
      rw [hp]
      exact ⟨fun ⟨_, h, h', _⟩ => (by cases h; exact absurd h' hok), fun _ => trivial⟩

theorem fails_reap : Fails IsJobsApiError RunLoop.reap := Prog.failsOn_ask_bind.mpr fun r => fails_body _ _ _ r

theorem fails_listEligible (statuses : List String) (limit : Nat) : Fails IsJobsApiError (listEligible statuses limit) :=
  Prog.failsOn_ask_bind.mpr fun r => fails_body _ _ _ r

theorem fails_fail (jobId : JobId) (error : String) (retry : Bool) :
    Fails IsJobsApiError (RunLoop.fail jobId error retry) :=
  Prog.failsOn_ask_bind.mpr fun r => fails_body _ _ _ r

/-- The body of the answer to `complete` is not read. -/
theorem fails_complete (jobId : JobId) : Fails IsJobsApiError (RunLoop.complete jobId) := by
  refine Prog.failsOn_ask_bind.mpr fun r => ⟨fun hb => absurd hb id, fun _ => ?_⟩
  cases r with
  | none => exact trivial
  | some response =>
    show Fails IsJobsApiError (response.raiseForStatus "complete failed")
    by_cases hok : Succeeds response
    · rw [raiseForStatus_ok hok]
      exact trivial
    · rw [raiseForStatus_not_ok hok]
      exact trivial

theorem fails_claim (jobId : JobId) : Fails IsJobsApiError (RunLoop.claim jobId) := by
  refine Prog.failsOn_ask_bind.mpr fun r => ?_
  cases r with
  | none => exact ⟨fun ⟨_, h, _⟩ => (by cases h), fun _ => trivial⟩
  | some response =>
    by_cases hnone : response.statusCode = 404 ∨ response.statusCode = 409
    · -- `None` without a look at the body, which only a success would need.
      have hok : ¬Succeeds response := by
        intro h
        unfold Succeeds at h
        omega
      refine ⟨fun ⟨_, h, h', _⟩ => (by cases h; exact absurd h' hok), fun _ => ?_⟩
      show Fails IsJobsApiError (if response.statusCode = 404 ∨ response.statusCode = 409 then pure none else _)
      rw [if_pos hnone]
      exact trivial
    · have hp : (do
          let response ← request "POST" (eventPath jobId "claim") (some response)
          if response.statusCode = 404 ∨ response.statusCode = 409 then return none
          response.raiseForStatus "claim failed"
          return some (← response.validate) : Worker (Option Job)) =
          response.raiseForStatus "claim failed" >>= fun _ => response.validate >>= fun job => pure (some job) :=
        if_neg hnone
      rw [hp]
      by_cases hok : Succeeds response
      · rw [raiseForStatus_ok hok]
        cases hb : response.body with
        | none =>
          rw [Response.validate, hb]
          exact ⟨fun _ => rfl, fun h => absurd ⟨response, rfl, hok, hb⟩ h⟩
        | some job =>
          rw [Response.validate, hb]
          exact ⟨fun ⟨_, h, _, h'⟩ => (by cases h; rw [hb] at h'; cases h'), fun _ => trivial⟩
      · rw [raiseForStatus_not_ok hok]
        exact ⟨fun ⟨_, h, h', _⟩ => (by cases h; exact absurd h' hok), fun _ => trivial⟩

theorem fails_process (body : ProcessEventRequest) : Fails IsIntegrationError (RunLoop.process body) := by
  refine Prog.failsOn_ask_bind.mpr fun r => ?_
  cases r with
  | none => exact ⟨fun ⟨_, h, _⟩ => (by cases h), fun _ => trivial⟩
  | some response =>
    dsimp only
    by_cases h500 : response.statusCode ≥ 500
    · rw [if_pos h500]
      exact ⟨fun ⟨_, h, h', _⟩ => (by cases h; omega), fun _ => trivial⟩
    · rw [if_neg h500]
      by_cases h400 : response.statusCode ≥ 400
      · rw [if_pos h400]
        exact ⟨fun ⟨_, h, h', _⟩ => (by cases h; omega), fun _ => trivial⟩
      · rw [if_neg h400]
        cases hb : response.body with
        | none =>
          rw [Response.validate, hb]
          exact ⟨fun _ => rfl, fun h => absurd ⟨response, rfl, by omega, hb⟩ h⟩
        | some a =>
          rw [Response.validate, hb]
          exact ⟨fun ⟨_, h, _, h'⟩ => (by cases h; rw [hb] at h'; cases h'), fun _ => trivial⟩

/-! ## The worker -/

/-- `except JobsApiError` leaves what else is raised. -/
theorem fails_exceptJobsApiError {may : Exc → Prop} {p handler : Worker Unit} (hp : Fails IsJobsApiError p)
    (hh : Fails may handler) : Fails may (exceptJobsApiError p handler) := by
  refine Prog.FailsOn.tryCatch hp (fun e he => ?_) rfl
  cases e with
  | jobsApiError message => exact hh
  | integrationError message => cases he
  | other => cases he

theorem fails_integrationError? {may : Exc → Prop} {p : Worker ProcessResult} (hp : Fails IsIntegrationError p) :
    Fails may (integrationError? p) := by
  refine Prog.FailsOn.tryCatch (hp.bind fun _ => Prog.failsOn_pure _) (fun e he => ?_) rfl
  cases e with
  | integrationError message => exact trivial
  | jobsApiError message => cases he
  | other => cases he

/-- `process_one` raises nothing but a `JobsApiError`, if every answer can be read. -/
theorem fails_processOne (jobId : JobId) : Fails IsJobsApiError (processOne jobId) := by
  refine (fails_claim jobId).bind fun job => ?_
  cases job with
  | none => exact Prog.failsOn_pure _
  | some job =>
    refine (fails_integrationError? (fails_process _)).bind fun exc => ?_
    cases exc with
    | none => exact fails_exceptJobsApiError (fails_complete _) (Prog.failsOn_pure _)
    | some exc =>
      exact fails_exceptJobsApiError ((fails_fail _ _ _).bind fun _ => Prog.failsOn_pure _) (Prog.failsOn_pure _)

theorem fails_processEligible (eligible : List Job) : Fails IsJobsApiError (processEligible eligible) := by
  induction eligible with
  | nil => exact Prog.failsOn_pure _
  | cons job rest ih =>
    refine (Prog.failsOn_ask fun _ => id).bind fun stop => ?_
    cases stop with
    | true => exact Prog.failsOn_pure _
    | false => exact (fails_processOne job.jobId).bind fun _ => ih

theorem fails_sleep {may : Exc → Prop} : Fails may (Prog.ask Query.sleep) := Prog.failsOn_ask fun _ => id

theorem fails_poll {may : Exc → Prop} : Fails may poll :=
  fails_exceptJobsApiError ((fails_listEligible _ _).bind fun eligible => fails_processEligible eligible) fails_sleep

theorem fails_work {may : Exc → Prop} (popped : Except Unit (Option JobId)) : Fails may (work popped) := by
  match popped with
  | .ok (some jobId) => exact fails_exceptJobsApiError (fails_processOne jobId) (Prog.failsOn_pure _)
  | .ok none => exact fails_poll
  | .error _ => exact fails_sleep.bind fun _ => fails_poll

theorem fails_reapIfDue {may : Exc → Prop} (cfg : Config) (lastReap now : Time) :
    Fails may (reapIfDue cfg lastReap now) := by
  unfold reapIfDue
  split
  · exact (fails_exceptJobsApiError (fails_reap.bind fun _ => Prog.failsOn_pure _) (Prog.failsOn_pure _)).bind fun _ =>
      Prog.failsOn_pure _
  · exact Prog.failsOn_pure _

/-- A pass of the loop raises nothing, if every answer can be read. -/
theorem fails_iteration (cfg : Config) (lastReap : Time) : Fails (fun _ => False) (iteration cfg lastReap) := by
  refine (Prog.failsOn_ask fun _ => id).bind fun stop => ?_
  cases stop with
  | true => exact Prog.failsOn_pure _
  | false =>
    refine (Prog.failsOn_ask fun _ => id).bind fun now => (fails_reapIfDue cfg lastReap now).bind fun lastReap => ?_
    exact (Prog.failsOn_ask fun _ => id).bind fun popped => (fails_work popped).bind fun _ => Prog.failsOn_pure _

/-! ## Runs -/

abbrev Env := (q : Query) → Reply q

/-- `_shutdown` is looked at, and is set. -/
def sees : (q : Query) → Reply q → Bool
  | .shutdown, set => set
  | _, _ => false

/-- The loop, and whether its latest call has seen `_shutdown`. -/
structure Running where
  prog : Worker (Option Time)
  shutdown : Bool

/-- `_run_loop` begins, with `last_reap = 0.0`. -/
def Running.init (cfg : Config) : Running where
  prog := iteration cfg 0
  shutdown := false

/-- The next call is answered. -/
def step (cfg : Config) (w : Running) (env : Env) : Running :=
  match w.prog with
  | .call q k => { prog := loop cfg (k (env q)), shutdown := sees q (env q) }
  | _ => w

/-- No exception escapes the loop, and it returns only because `_shutdown` is set. -/
structure Safe (w : Running) : Prop where
  raises : ∀ e, w.prog ≠ .raise e
  returns : ∀ x, w.prog = .pure x → w.shutdown = true

/-- The next answer is readable. -/
def Readable (w : Running) (env : Env) : Prop := w.prog.Survives Unreadable env

/-- The end of a pass: the loop ends only after `_shutdown` has been seen. -/
def Ends (shutdown : Bool) (x : Except Exc (Option Time)) : Prop := x = .ok none → shutdown = true

/-- The calls of a program that ends as `Ends` says. -/
abbrev Ending (p : Worker (Option Time)) (shutdown : Bool) : Prop :=
  p.Meets (fun _ _ => True) (fun _ q r => sees q r) Ends shutdown

theorem ending_iteration (cfg : Config) (lastReap : Time) (shutdown : Bool) : Ending (iteration cfg lastReap) shutdown := by
  refine Prog.meets_ask_bind.mpr ⟨trivial, fun stop => ?_⟩
  cases stop with
  | true => exact fun _ => rfl
  | false =>
    refine Prog.meets_ask_bind.mpr ⟨trivial, fun now => Prog.meets_bind.mpr ?_⟩
    refine Prog.meets_of_forall (fun _ _ => trivial) (fun g x => ?_) _
    cases x with
    | error e => exact fun h => by cases h
    | ok lastReap =>
      refine Prog.meets_ask_bind.mpr ⟨trivial, fun popped => Prog.meets_bind.mpr ?_⟩
      refine Prog.meets_of_forall (fun _ _ => trivial) (fun g x => ?_) _
      cases x with
      | error e => exact fun h => by cases h
      | ok x => exact fun h => by cases h

/-- What every state of the loop is. -/
structure Inv (w : Running) : Prop where
  fails : Fails (fun _ => False) w.prog
  ends : Ending w.prog w.shutdown
  goesOn : ∀ lastReap, w.prog ≠ .pure (some lastReap)

theorem inv_loop (cfg : Config) {p : Worker (Option Time)} {shutdown : Bool} (hf : Fails (fun _ => False) p)
    (he : Ending p shutdown) : Inv ⟨loop cfg p, shutdown⟩ := by
  match p with
  | .pure (some lastReap) =>
    exact ⟨fails_iteration cfg lastReap, ending_iteration cfg lastReap shutdown, fun _ h => by cases h⟩
  | .pure none => exact ⟨hf, he, fun _ h => by cases h⟩
  | .raise e => exact ⟨hf, he, fun _ h => by cases h⟩
  | .call q k => exact ⟨hf, he, fun _ h => by cases h⟩

theorem Inv.safe {w : Running} (h : Inv w) : Safe w := by
  obtain ⟨p, shutdown⟩ := w
  refine ⟨fun e he => ?_, fun x hx => ?_⟩
  · obtain rfl : p = .raise e := he
    exact h.fails
  · obtain rfl : p = .pure x := hx
    cases x with
    | none => exact h.ends rfl
    | some lastReap => exact absurd rfl (h.goesOn lastReap)

theorem inv_init (cfg : Config) : Inv (.init cfg) :=
  ⟨fails_iteration cfg 0, ending_iteration cfg 0 false, fun _ h => by cases h⟩

theorem inv_step (cfg : Config) {w : Running} {env : Env} (h : Inv w) (hr : Readable w env) : Inv (step cfg w env) := by
  obtain ⟨p, shutdown⟩ := w
  cases p with
  | pure x => exact h
  | raise e => exact h
  | call q k => exact inv_loop cfg (h.fails.reply hr) (h.ends.2 (env q))

/-- An unreadable answer ends the loop with an exception. -/
theorem step_unreadable (cfg : Config) {w : Running} {env : Env} (h : Inv w) (hr : ¬Readable w env) :
    (step cfg w env).prog = .raise .other := by
  obtain ⟨p, shutdown⟩ := w
  cases p with
  | pure x => exact absurd trivial hr
  | raise e => exact absurd trivial hr
  | call q k =>
    have hraise : k (env q) = .raise .other := h.fails.reply_bad hr
    show loop cfg (k (env q)) = _
    rw [hraise]
    rfl

/-- Whatever the clock, `_shutdown`, Redis and the HTTP requests answer: the loop
returns only because `_shutdown` is set, and no exception escapes it, exactly if every
answer is readable; and exactly then `process_one` raises nothing but `JobsApiError`. -/
theorem loop_survives_iff (cfg : Config) :
    (∀ envs : List Env, Always (step cfg) Safe (.init cfg) envs ↔ AllSteps (step cfg) Readable (.init cfg) envs) ∧
    ∀ (jobId : JobId) (envs : List Env),
      Always Prog.reply (fun p => ∀ e, p = .raise e → IsJobsApiError e) (processOne jobId) envs ↔
        AllSteps Prog.reply (fun p env => p.Survives Unreadable env) (processOne jobId) envs := by
  constructor
  · refine always_iff_allSteps (I := Inv) (inv_init cfg) (inv_init cfg).safe (fun w env hI _ hr => ?_) fun w env hI _ hs => ?_
    · exact ⟨inv_step cfg hI hr, (inv_step cfg hI hr).safe⟩
    · by_contra hr
      exact hs.raises _ (step_unreadable cfg hI hr)
  · intro jobId
    have hsafe : ∀ p : Worker Unit, Fails IsJobsApiError p → ∀ e, p = .raise e → IsJobsApiError e := by
      rintro p hp e rfl
      exact hp
    refine always_iff_allSteps (I := fun p => Fails IsJobsApiError p) (fails_processOne jobId)
      (hsafe _ (fails_processOne jobId)) (fun p env hI _ hr => ⟨hI.reply hr, hsafe _ (hI.reply hr)⟩) fun p env hI _ hs => ?_
    by_contra hr
    exact hs _ (hI.reply_bad hr)

/-- A claim is answered with a page that is not JSON, as a proxy in between may do. -/
def badClaim : Env
  | .shutdown => false
  | .monotonic => 0
  | .sleep => ()
  | .blpop => .ok (some "job")
  | .list _ _ => none
  | .claim _ => some ⟨200, "<html></html>", none⟩
  | .complete _ => none
  | .fail _ _ _ => none
  | .reap => none
  | .process _ => none

/-- The worker looks at `_shutdown` and the clock, pops a job id and claims the job. -/
theorem bad_claim_escapes : ¬∀ (cfg : Config) (envs : List Env), Always (step cfg) Safe (.init cfg) envs := by
  intro h
  have hsafe := (h ⟨seconds 60⟩ (List.replicate 4 badClaim)).last
  exact hsafe.raises .other rfl

end CallingAgent.Proof.Escapes
