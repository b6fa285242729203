import CallingAgent.Proof.Jobs.Lifecycle

/-!
# Bounded retry

`fail_event` chooses `retrying` from the attempts it has read, and its `UPDATE`
looks at the status alone. Between the two the job can be reaped and claimed
again, and if that attempt is its last, the `UPDATE` makes a job without
attempts left `retrying` (`StaleRetry`). Every other step keeps the bound, so a
run keeps it exactly when no step of it is a `StaleRetry`
(`bounded_retry_iff`); `bounded_retry_fails` is a run with such a step, in which
a job with `max_attempts = 2` is claimed three times.
-/

namespace CallingAgent.Proof.Jobs

open CallingAgent.Framework CallingAgent.Impl CallingAgent.Impl.Jobs CallingAgent.Spec.JobLifecycle

/-- No row has more than its maximum of attempts, and one that will be
attempted again has attempts left. -/
def Bounded (s : State) : Prop :=
  ∀ r ∈ s.jobs.rows, r.attempts ≤ r.maxAttempts ∧ (r.status = .retrying → r.attempts < r.maxAttempts)

/-- The `UPDATE` of a `fail_event` that read attempts left and chose `retrying`
finds the job `processing` with no attempts left: it has been reaped and
claimed again since the read. -/
def StaleRetry (s : State) (a : Action) : Prop :=
  ∃ req jobId begun existing body r, a = .update req ∧
    s.pending req = some (.fail jobId begun existing body) ∧ canRetry existing body = true ∧
    s.job jobId = some r ∧ r.status = .processing ∧ r.maxAttempts ≤ r.attempts

/-- A job that was never claimed has no attempts, and every job may have one. -/
def Started (s : State) : Prop :=
  ∀ r ∈ s.jobs.rows, (r.status = .queued → r.attempts = 0) ∧ 1 ≤ r.maxAttempts

theorem one_le_maxAttempts (body : EventCreateRequest) : 1 ≤ body.maxAttempts.getD 5 := by
  cases h : body.maxAttempts with
  | none => decide
  | some n => exact (body.maxAttempts_range n h).1

/-- A row of the table after a step is new, or comes from a row before. -/
theorem mem_step {s : State} {a : Action} {r' : CallJob} (h : r' ∈ (step s a).jobs.rows) :
    (∃ body jobId, r' = newJob body jobId s.now) ∨ ∃ r ∈ s.jobs.rows, RowStep s a r r' := by
  have hj : (step s a).job r'.jobId = some r' := Table.lookup_of_mem h
  cases hs : s.job r'.jobId with
  | none =>
    obtain ⟨body, -, e⟩ := job_create hs hj
    exact .inl ⟨body, r'.jobId, e⟩
  | some r =>
    obtain ⟨x, hx, hstep⟩ := rowStep hs a
    rw [hj] at hx
    cases hx
    exact .inr ⟨r, Table.lookup_mem hs, hstep⟩

theorem started_step {s : State} (h : Started s) (a : Action) : Started (step s a) := by
  intro r' hr'
  rcases mem_step hr' with ⟨body, jobId, rfl⟩ | ⟨r, hr, hs⟩
  · exact ⟨fun _ => rfl, one_le_maxAttempts body⟩
  · obtain ⟨hq, hm⟩ := h r hr
    refine ⟨fun e => ?_, by rw [hs.same.maxAttempts]; exact hm⟩
    cases hs with
    | keep => exact hq e
    | claim => cases e
    | complete => cases e
    | fail => rw [failStmt_status] at e; split at e <;> cases e
    | reap => simp only [reapStmt] at e; split at e <;> cases e

theorem bounded_step {s : State} {a : Action} (hi : Started s) (hb : Bounded s)
    (hc : ¬ StaleRetry s a) : Bounded (step s a) := by
  intro r' hr'
  rcases mem_step hr' with ⟨body, jobId, rfl⟩ | ⟨r, hr, hs⟩
  · exact ⟨Nat.zero_le _, fun e => by cases e⟩
  · obtain ⟨hle, hlt⟩ := hb r hr
    obtain ⟨hq, hm⟩ := hi r hr
    cases hs with
    | keep => exact ⟨hle, hlt⟩
    | claim _ hcl =>
      refine ⟨?_, fun e => by cases e⟩
      show r.attempts + 1 ≤ r.maxAttempts
      -- A queued job has no attempts yet; a retrying one has some left.
      cases hst : r.status <;> simp only [hst, isClaimable, Bool.false_eq_true] at hcl
      · rw [hq hst]; exact hm
      · exact hlt hst
    | complete => exact ⟨hle, fun e => by cases e⟩
    | @fail req begun existing body ha hp hst =>
      cases hcan : canRetry existing body with
      | true =>
        have hnot : ¬ r.maxAttempts ≤ r.attempts := fun h =>
          hc ⟨req, r.jobId, begun, existing, body, r, ha, hp, hcan, Table.lookup_of_mem hr, hst, h⟩
        simp only [failStmt, hcan, if_true]
        exact ⟨hle, fun _ => by omega⟩
      | false =>
        simp only [failStmt, hcan, Bool.false_eq_true, if_false]
        exact ⟨hle, fun e => by cases e⟩
    | reap =>
      refine ⟨hle, fun e => ?_⟩
      simp only [reapStmt] at e ⊢
      split at e
      · assumption
      · cases e

/-- A `StaleRetry` breaks the bound. -/
theorem not_bounded_of_staleRetry {s : State} {a : Action} (h : StaleRetry s a) :
    ¬ Bounded (step s a) := by
  obtain ⟨req, jobId, begun, existing, body, r, rfl, hp, hcan, hr, hst, hle⟩ := h
  obtain rfl : r.jobId = jobId := Table.lookup_key hr
  have hg : (failStmt r.jobId existing body begun begun).guard r = true := by simp [failStmt, hst]
  have hj := job_step hr (.update req)
  simp only [stmtOf, hp, Option.map_some, Option.getD_some, Pending.stmt, Update.row_of_guard hg] at hj
  intro hb
  have := (hb _ (Table.lookup_mem hj)).2 (by rw [failStmt_status, hcan]; rfl)
  simp only [failStmt, hcan, if_true] at this
  omega

/-- In a run, the rows count the claims, so bounding the attempts bounds the
claims. -/
theorem claimCount_eq_attempts {now : Time} {as : List Action} {r : CallJob}
    (h : r ∈ (run step (.init now) as).jobs.rows) : claimCount r.jobId (.init now) as = r.attempts :=
  (job_of_init (Table.lookup_of_mem h)).2.1.symm

/-- Bounded retry. In every state of a run each row has at most
`max_attempts` attempts, a `retrying` one fewer, and has been claimed at most
`max_attempts` times, if and only if no step of the run is a `StaleRetry`. -/
theorem bounded_retry_iff (now : Time) (as : List Action) :
    (∀ p, p <+: as → ∀ r ∈ (run step (.init now) p).jobs.rows,
      r.attempts ≤ r.maxAttempts ∧ (r.status = .retrying → r.attempts < r.maxAttempts) ∧
        claimCount r.jobId (.init now) p ≤ r.maxAttempts) ↔
      AllSteps step (fun s a => ¬ StaleRetry s a) (.init now) as := by
  rw [← always_iff_allSteps (I := Started) (P := Bounded) (s := .init now)
    (fun r hr => absurd hr List.not_mem_nil) (fun r hr => absurd hr List.not_mem_nil)
    (fun s a hi hb hc => ⟨started_step hi a, bounded_step hi hb hc⟩)
    (fun s a _ _ hb hc => not_bounded_of_staleRetry hc hb) as]
  constructor
  · exact fun h p hp r hr => ⟨(h p hp r hr).1, (h p hp r hr).2.1⟩
  · intro h p hp r hr
    obtain ⟨hle, hlt⟩ := h p hp r hr
    exact ⟨hle, hlt, by rw [claimCount_eq_attempts hr]; exact hle⟩

/-- Claimed with one attempt of two left, read by a slow `fail_event`, reaped,
claimed for its last attempt, and only then failed; the job is `retrying`, and
claimed once more. -/
def staleRun : List Action :=
  [.create "job" { answeredEvent with maxAttempts := some 2, maxAttempts_range := by decide }, .claim "job",
    .failRead 0 "job" timedOut, .tick 121000000, .reap, .claim "job", .update 0, .claim "job"]

theorem bounded_retry_fails :
    ¬ Bounded (run step (.init 0) (staleRun.take 7)) ∧ ¬ Bounded (run step (.init 0) staleRun) ∧
      claimCount "job" (.init 0) staleRun = 3 ∧
      ((run step (.init 0) staleRun).job "job").map (·.maxAttempts) = some 2 := by
  refine ⟨?_, ?_, by decide, by decide⟩ <;> unfold Bounded <;> decide

end CallingAgent.Proof.Jobs
