import CallingAgent.Spec.JobLifecycle

/-!
# What a request does to one job

Every request moves the table by at most one `UPDATE` (`stmtOf`), so the row of
a job after a step is that statement's image of the row before (`job_step`),
and a row that was not there is the new row of `create_event` (`job_create`).
`RowStep` lists what can come of it, with the guards under which it does; the
invariants of `call_jobs` are case analyses of it (`rowStep`).
-/

namespace CallingAgent.Proof.Jobs

open CallingAgent.Framework CallingAgent.Impl CallingAgent.Impl.Jobs CallingAgent.Spec.JobLifecycle

/-- The `UPDATE` an action runs. -/
def stmtOf (s : State) : Action → Option (Update CallJob.jobId)
  | .claim jobId => some (claimStmt jobId s.now)
  | .update req => (s.pending req).map Pending.stmt
  | .reap => some (reapStmt s.now)
  | _ => none

/-- A successful `claim_event` of `jobId`: its `UPDATE` returns a row. -/
def claims (jobId : JobId) (s : State) : Action → Bool
  | .claim k => k == jobId && !((claimStmt k s.now).returning s.jobs.rows).isEmpty
  | _ => false

theorem read_jobs (s : State) (req : Nat) (jobId : JobId) (next : CallJob → Pending) :
    (s.read req jobId next).jobs = s.jobs := by
  unfold State.read
  split
  · split <;> rfl
  · rfl

theorem insertJob_eq_some {calls : List CallId} {jobs jobs' : CallJobs} {job : CallJob}
    (h : insertJob calls jobs job = some jobs') :
    jobs.insert job = some jobs' ∧
      (∀ p, job.providerCallId = some p → ∀ r ∈ jobs.rows, hasPair p job.eventType r = false) := by
  unfold insertJob at h
  split at h
  · cases h
  · rename_i hp
    split at h
    · cases h
    · refine ⟨h, fun p e r hr => ?_⟩
      rw [e] at hp
      simp only [Option.any_some, List.any_eq_true, not_exists, not_and, Bool.not_eq_true] at hp
      exact hp r hr

/-- The row of a job that is there. -/
theorem job_step {s : State} {jobId : JobId} {r : CallJob} (h : s.job jobId = some r) (a : Action) :
    (step s a).job jobId = some (((stmtOf s a).map fun u => u.row r).getD r) := by
  have hu : ∀ u : Update CallJob.jobId, (s.jobs.update u).lookup jobId = some (u.row r) := fun u => by
    rw [Table.lookup_update, show s.jobs.lookup jobId = some r from h]; rfl
  cases a with
  | tick d => exact h
  | addCall c => exact h
  | create k body =>
    simp only [step, stmtOf]
    split
    · rename_i jobs hi
      obtain ⟨hi, -⟩ := insertJob_eq_some hi
      have hk : (newJob body k s.now).jobId ≠ jobId := fun e => by
        have hn := (Table.insert_eq_some hi).1
        rw [e, show s.jobs.lookup jobId = some r from h] at hn
        cases hn
      simp only [State.job, Table.lookup_insert hi, hk, if_false]
      exact h
    · exact h
  | claim k => exact hu _
  | completeRead req k => simp only [step, State.job, read_jobs]; exact h
  | failRead req k body => simp only [step, State.job, read_jobs]; exact h
  | update req =>
    simp only [step, stmtOf]
    cases hp : s.pending req with
    | none => exact h
    | some p => exact hu _
  | reap => exact hu _

/-- A row that was not there is the one `create_event` adds. -/
theorem job_create {s : State} {jobId : JobId} {r : CallJob} {a : Action} (h : s.job jobId = none)
    (h' : (step s a).job jobId = some r) :
    ∃ body, a = .create jobId body ∧ r = newJob body jobId s.now := by
  have hu : ∀ u : Update CallJob.jobId, (s.jobs.update u).lookup jobId = none := fun u => by
    rw [Table.lookup_update, show s.jobs.lookup jobId = none from h]; rfl
  have none_ne : ∀ {o : Option CallJob}, o = none → o = some r → False := fun e e' => by
    rw [e] at e'; cases e'
  cases a with
  | create k body =>
    simp only [step] at h'
    split at h'
    · rename_i jobs hi
      simp only [State.job, Table.lookup_insert (insertJob_eq_some hi).1] at h'
      split at h'
      · rename_i hk
        obtain rfl : k = jobId := hk
        exact ⟨body, rfl, (Option.some.inj h').symm⟩
      · exact (none_ne h h').elim
    · exact (none_ne h h').elim
  | tick d => exact (none_ne h h').elim
  | addCall c => exact (none_ne h h').elim
  | claim k => exact (none_ne (hu _) h').elim
  | completeRead req k =>
    simp only [step, State.job, read_jobs] at h'
    exact (none_ne h h').elim
  | failRead req k body =>
    simp only [step, State.job, read_jobs] at h'
    exact (none_ne h h').elim
  | update req =>
    simp only [step] at h'
    split at h'
    · exact (none_ne (hu _) h').elim
    · exact (none_ne h h').elim
  | reap => exact (none_ne (hu _) h').elim

/-- A claim is successful exactly when its guard holds of the job's row. -/
theorem claims_claim {s : State} {jobId : JobId} :
    claims jobId s (.claim jobId) = true ↔
      ∃ r, s.job jobId = some r ∧ isClaimable r.status = true ∧ r.availableAt ≤ s.now := by
  simp only [claims, beq_self_eq_true, Bool.true_and, Bool.not_eq_true', List.isEmpty_eq_false_iff,
    ne_eq, Update.returning_eq_nil, not_forall, Bool.not_eq_false]
  constructor
  · rintro ⟨r, hr, hg⟩
    simp only [claimStmt, Bool.and_eq_true, beq_iff_eq, decide_eq_true_eq] at hg
    exact ⟨r, by rw [← hg.1.1]; exact Table.lookup_of_mem hr, hg.1.2, hg.2⟩
  · rintro ⟨r, hr, hc, ht⟩
    refine ⟨r, Table.lookup_mem hr, ?_⟩
    simp only [claimStmt, Table.lookup_key hr, beq_self_eq_true, hc, ht, decide_true, Bool.and_self]

theorem claims_eq {s : State} {jobId : JobId} {a : Action} (h : claims jobId s a = true) :
    a = .claim jobId := by
  cases a <;> simp only [claims, Bool.false_eq_true] at h
  simp only [Bool.and_eq_true, beq_iff_eq] at h
  rw [h.1]

/-- What one step makes of a row. -/
inductive RowStep (s : State) (a : Action) (r : CallJob) : CallJob → Prop
  | keep (hc : claims r.jobId s a = false) : RowStep s a r r
  | claim (ha : claims r.jobId s a = true) (hc : isClaimable r.status = true)
      (ht : r.availableAt ≤ s.now) : RowStep s a r ((claimStmt r.jobId s.now).set r)
  | complete {req : Nat} {begun : Time} (ha : a = .update req)
      (hp : s.pending req = some (.complete r.jobId begun)) (hr : r.status = .processing) :
      RowStep s a r ((completeStmt r.jobId begun).set r)
  | fail {req : Nat} {begun : Time} {existing : CallJob} {body : EventFailRequest}
      (ha : a = .update req) (hp : s.pending req = some (.fail r.jobId begun existing body))
      (hr : r.status = .processing) : RowStep s a r ((failStmt r.jobId existing body begun begun).set r)
  | reap (ha : a = .reap) (hr : r.status = .processing)
      (ht : r.updatedAt < s.now - seconds staleProcessingSeconds) :
      RowStep s a r ((reapStmt s.now).set r)

/-- The row of a job after a step, by what the step did to it. -/
theorem rowStep {s : State} {jobId : JobId} {r : CallJob} (h : s.job jobId = some r) (a : Action) :
    ∃ r', (step s a).job jobId = some r' ∧ RowStep s a r r' := by
  refine ⟨_, job_step h a, ?_⟩
  have hk : r.jobId = jobId := Table.lookup_key h
  have hkeep : (∀ k, a ≠ .claim k) → claims r.jobId s a = false := fun hn => by
    cases hc : claims r.jobId s a with
    | false => rfl
    | true => exact absurd (claims_eq hc) (hn _)
  cases a with
  | claim k =>
    show RowStep s _ r ((claimStmt k s.now).row r)
    cases hg : (claimStmt k s.now).guard r with
    | true =>
      rw [Update.row_of_guard hg]
      simp only [claimStmt, Bool.and_eq_true, beq_iff_eq, decide_eq_true_eq] at hg
      obtain rfl := hg.1.1
      exact .claim (claims_claim.mpr ⟨r, by rw [hk]; exact h, hg.1.2, hg.2⟩) hg.1.2 hg.2
    | false =>
      rw [Update.row_of_not_guard hg]
      refine .keep ?_
      cases hc : claims r.jobId s (.claim k) with
      | false => rfl
      | true =>
        obtain rfl : k = r.jobId := by simpa using claims_eq hc
        obtain ⟨r', hr', hs, ht⟩ := claims_claim.mp hc
        rw [hk, h] at hr'
        cases hr'
        simp [claimStmt, hs, ht] at hg
  | update req =>
    show RowStep s _ r ((((s.pending req).map Pending.stmt).map fun u => u.row r).getD r)
    cases hp : s.pending req with
    | none => exact .keep (hkeep (by simp))
    | some p =>
      show RowStep s _ r (p.stmt.row r)
      rcases p.stmt.row_cases r with hg | ⟨hg, e⟩
      · rw [hg]; exact .keep (hkeep (by simp))
      · rw [e]
        cases p with
        | complete k begun =>
          simp only [Pending.stmt, completeStmt, Bool.and_eq_true, beq_iff_eq] at hg
          obtain ⟨rfl, hs⟩ := hg
          exact .complete rfl hp hs
        | fail k begun existing body =>
          simp only [Pending.stmt, failStmt, Bool.and_eq_true, beq_iff_eq] at hg
          obtain ⟨rfl, hs⟩ := hg
          exact .fail rfl hp hs
  | reap =>
    show RowStep s _ r ((reapStmt s.now).row r)
    rcases (reapStmt s.now).row_cases r with hg | ⟨hg, e⟩
    · rw [hg]; exact .keep (hkeep (by simp))
    · rw [e]
      simp only [reapStmt, Bool.and_eq_true, beq_iff_eq, decide_eq_true_eq] at hg
      exact .reap rfl hg.1 hg.2
  | tick d => exact .keep rfl
  | addCall c => exact .keep rfl
  | create k body => exact .keep rfl
  | completeRead req k => exact .keep rfl
  | failRead req k body => exact .keep rfl

end CallingAgent.Proof.Jobs
