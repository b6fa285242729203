import CallingAgent.Impl.Workers
import CallingAgent.Proof.Jobs.Rows

/-!
# What the worker's loop calls

A worker calls `integration.process` only for the job that its latest reply has
granted, and `complete` only for a job whose integration has returned: whatever
the replies, every call of the loop meets `pre` (`meets_iteration`). There is
one rule for each function of the worker and its clients.
-/

namespace CallingAgent.Proof.Workers

open CallingAgent.Framework CallingAgent.Impl CallingAgent.Impl.RunLoop CallingAgent.Impl.Workers

/-! ## The loop -/

/-- What a worker has seen: the jobs whose integration has returned, and the job
that the latest reply granted. -/
structure Seen where
  succeeded : JobId → Prop
  granted : Option JobId

/-- The calls a worker may make. -/
def pre (g : Seen) : Query → Prop
  | .complete jobId => g.succeeded jobId
  | .process body => g.granted = some body.jobId
  | _ => True

def next (g : Seen) (q : Query) (r : Reply q) : Seen where
  succeeded jobId := g.succeeded jobId ∨ processed q r = some jobId
  granted := (granted q r).map (·.jobId)

variable {α : Type} {g : Seen}

section

variable {post : Seen → Except Exc α → Prop}

theorem meets_request {method path : String} {r : Http α} {post : Seen → Except Exc (Response α) → Prop}
    (he : ∀ e, post g (.error e)) (h : ∀ response, r = some response → post g (.ok response)) :
    (request method path r).Meets pre next post g := by
  cases r with
  | none => exact he _
  | some response => exact h response rfl

theorem meets_raiseForStatus {response : Response α} {message : String} {post : Seen → Except Exc Unit → Prop}
    (he : ∀ e, post g (.error e))
    (h : 200 ≤ response.statusCode ∧ response.statusCode ≤ 299 → post g (.ok ())) :
    (response.raiseForStatus message).Meets pre next post g := by
  unfold Response.raiseForStatus
  split
  · rename_i hs; exact h hs
  · exact he _

theorem meets_validate {response : Response α} (he : ∀ e, post g (.error e))
    (h : ∀ a, response.body = some a → post g (.ok a)) : response.validate.Meets pre next post g := by
  unfold Response.validate
  split
  · rename_i a ha; exact h a ha
  · exact he _

end

/-- Nothing is asked of the end. -/
def anyEnd (_ : Seen) (_ : Except Exc α) : Prop := True

/-- A request of which only the body is of interest. -/
theorem meets_body {method path message : String} (r : Http α) :
    Prog.Meets pre next anyEnd
      (do
        let response ← request method path r
        response.raiseForStatus message
        response.validate) g := by
  rw [Prog.meets_bind]
  refine meets_request (fun _ => trivial) fun response _ => ?_
  dsimp only
  rw [Prog.meets_bind]
  exact meets_raiseForStatus (fun _ => trivial) fun _ => meets_validate (fun _ => trivial) fun _ _ => trivial

/-- The job that `jobs.claim` returns is the one the API has granted. -/
theorem meets_claim (jobId : JobId) :
    (claim jobId).Meets pre next (fun g x => ∀ job, x = .ok (some job) → g.granted = some job.jobId) g := by
  unfold claim
  rw [Prog.meets_ask_bind]
  refine ⟨trivial, fun r => ?_⟩
  rw [Prog.meets_bind]
  refine meets_request (fun e job h => by cases h) fun response hr => ?_
  dsimp only
  split
  · intro job h; cases h
  · rw [Prog.meets_bind]
    refine meets_raiseForStatus (fun e job h => by cases h) fun hs => ?_
    dsimp only
    rw [Prog.meets_bind]
    refine meets_validate (fun e job h => by cases h) fun job hb => ?_
    intro job' h
    cases h
    simp only [next, hr, granted, hs, and_self, if_true, hb, Option.map_some]

theorem meets_complete {jobId : JobId} (h : g.succeeded jobId) : (complete jobId).Meets pre next anyEnd g := by
  unfold complete
  rw [Prog.meets_ask_bind]
  refine ⟨h, fun r => ?_⟩
  rw [Prog.meets_bind]
  exact meets_request (fun _ => trivial) fun response _ => meets_raiseForStatus (fun _ => trivial) fun _ => trivial

theorem meets_fail (jobId : JobId) (error : String) (retry : Bool) :
    (fail jobId error retry).Meets pre next anyEnd g := by
  unfold fail
  rw [Prog.meets_ask_bind]
  exact ⟨trivial, fun r => meets_body r⟩

/-- If `integration.process` returns, its job has succeeded. -/
theorem meets_process {body : ProcessEventRequest} (h : g.granted = some body.jobId) :
    (process body).Meets pre next (fun g x => ∀ result, x = .ok result → g.succeeded body.jobId) g := by
  unfold process
  rw [Prog.meets_ask_bind]
  refine ⟨h, fun r => ?_⟩
  split
  · intro result h; cases h
  · rename_i response
    split
    · intro result h; cases h
    · split
      · intro result h; cases h
      · rename_i hlt
        refine meets_validate (fun e result h => by cases h) fun result hb => ?_
        intro _ _
        exact .inr (by simp [processed, hb, Nat.lt_of_not_le hlt])

theorem meets_exceptJobsApiError {p handler : Worker Unit} (hp : p.Meets pre next anyEnd g)
    (hh : ∀ g, handler.Meets pre next anyEnd g) : (exceptJobsApiError p handler).Meets pre next anyEnd g := by
  unfold exceptJobsApiError
  rw [Prog.meets_tryCatch]
  refine hp.mono fun g x _ => ?_
  cases x with
  | ok => trivial
  | error e =>
    dsimp only
    split
    · exact hh g
    · trivial

theorem meets_integrationError? {p : Worker ProcessResult} {P : Seen → Prop}
    (hp : p.Meets pre next (fun g x => ∀ result, x = .ok result → P g) g) :
    (integrationError? p).Meets pre next (fun g x => x = .ok none → P g) g := by
  unfold integrationError?
  rw [Prog.meets_tryCatch, Prog.meets_bind]
  refine hp.mono fun g x hx => ?_
  cases x with
  | ok result => exact fun _ => hx result rfl
  | error e =>
    dsimp only
    split
    · intro h; cases h
    · intro h; cases h

theorem meets_processOne (jobId : JobId) : (processOne jobId).Meets pre next anyEnd g := by
  unfold processOne
  rw [Prog.meets_bind]
  refine (meets_claim jobId).mono fun g x hx => ?_
  cases x with
  | error e => trivial
  | ok job =>
    cases job with
    | none => trivial
    | some job =>
      dsimp only
      rw [Prog.meets_bind]
      refine (meets_integrationError? (meets_process (hx job rfl))).mono fun g x hx => ?_
      cases x with
      | error e => trivial
      | ok exc =>
        cases exc with
        | none => exact meets_exceptJobsApiError (meets_complete (hx rfl)) fun _ => trivial
        | some exc =>
          refine meets_exceptJobsApiError ?_ fun _ => trivial
          rw [Prog.meets_bind]
          exact (meets_fail _ _ _).mono fun g x _ => by cases x <;> trivial

theorem meets_processEligible (jobs : List Job) : (processEligible jobs).Meets pre next anyEnd g := by
  induction jobs generalizing g with
  | nil => trivial
  | cons eligible rest ih =>
    unfold processEligible
    rw [Prog.meets_ask_bind]
    refine ⟨trivial, fun shutdown => ?_⟩
    split
    · trivial
    · rw [Prog.meets_bind]
      refine (meets_processOne _).mono fun g x _ => ?_
      cases x with
      | ok => exact ih
      | error => trivial

theorem meets_listEligible (statuses : List String) (limit : Nat) :
    (listEligible statuses limit).Meets pre next anyEnd g := by
  unfold listEligible
  rw [Prog.meets_ask_bind]
  exact ⟨trivial, fun r => meets_body r⟩

theorem meets_reap : reap.Meets pre next anyEnd g := by
  unfold reap
  rw [Prog.meets_ask_bind]
  exact ⟨trivial, fun r => meets_body r⟩

theorem meets_reapIfDue (cfg : Config) (lastReap now : Time) :
    (reapIfDue cfg lastReap now).Meets pre next anyEnd g := by
  unfold reapIfDue
  split
  · have h : Prog.Meets pre next anyEnd (do let _ ← reap) g :=
      Prog.meets_bind.mpr (meets_reap.mono fun g x _ => by cases x <;> trivial)
    have h' : (exceptJobsApiError (do let _ ← reap) (pure ())).Meets pre next anyEnd g :=
      meets_exceptJobsApiError h fun _ => trivial
    exact Prog.meets_bind.mpr (h'.mono fun g x _ => by cases x <;> trivial)
  · trivial

theorem meets_poll : poll.Meets pre next anyEnd g := by
  unfold poll
  refine meets_exceptJobsApiError ?_ fun _ => Prog.meets_ask.mpr ⟨trivial, fun _ => trivial⟩
  rw [Prog.meets_bind]
  refine (meets_listEligible _ _).mono fun g x _ => ?_
  cases x with
  | ok jobs => exact meets_processEligible jobs
  | error => trivial

theorem meets_work (popped : Except Unit (Option JobId)) : (work popped).Meets pre next anyEnd g := by
  unfold work
  split
  · exact meets_exceptJobsApiError (meets_processOne _) fun _ => trivial
  · exact meets_poll
  · rw [Prog.meets_ask_bind]
    exact ⟨trivial, fun _ => meets_poll⟩

theorem meets_iteration (cfg : Config) (lastReap : Time) :
    (iteration cfg lastReap).Meets pre next anyEnd g := by
  unfold iteration
  rw [Prog.meets_ask_bind]
  refine ⟨trivial, fun shutdown => ?_⟩
  split
  · trivial
  · rw [Prog.meets_ask_bind]
    refine ⟨trivial, fun now => ?_⟩
    rw [Prog.meets_bind]
    refine (meets_reapIfDue cfg lastReap now).mono fun g x _ => ?_
    cases x with
    | error => trivial
    | ok lastReap =>
      dsimp only
      rw [Prog.meets_ask_bind]
      refine ⟨trivial, fun popped => ?_⟩
      rw [Prog.meets_bind]
      exact (meets_work popped).mono fun g x _ => by cases x <;> trivial

/-- Whatever the replies, the loop goes on as it should. -/
theorem meets_loop (cfg : Config) {p : Worker (Option Time)} (h : p.Meets pre next anyEnd g) :
    (loop cfg p).Meets pre next anyEnd g := by
  unfold loop
  split
  · exact meets_iteration cfg _
  · exact h

end CallingAgent.Proof.Workers
