import CallingAgent.Proof.Jobs.Rows

/-!
# The lifecycle of a job, over every run

`history` is the sequence of moves of a job's status in a run, and `claimCount`
the number of its successful claims. One step moves a row along an edge of the
lifecycle, counts a claim, and leaves alone a row that has ended (`RowStep.*`);
a run composes these (`job_run`, a segment of a run from a row that is there),
and a row that is there was created at some point of the run, before which it
has no history (`job_born`). `job_lifecycle` puts them together.
-/

namespace CallingAgent.Proof.Jobs

open CallingAgent.Framework CallingAgent.Impl CallingAgent.Impl.Jobs CallingAgent.Spec.JobLifecycle

/-- The move of a job's status in one step, if it moves. -/
def move (jobId : JobId) (s : State) (a : Action) : List (JobStatus × JobStatus) :=
  match s.job jobId, (step s a).job jobId with
  | some r, some r' => if r.status = r'.status then [] else [(r.status, r'.status)]
  | _, _ => []

/-- The moves of a job's status in a run. -/
def history (jobId : JobId) (s : State) (as : List Action) : List (JobStatus × JobStatus) :=
  collect step (move jobId) s as

/-- The number of successful claims of a job in a run. -/
def claimCount (jobId : JobId) (s : State) (as : List Action) : Nat :=
  (collect step (fun s a => if claims jobId s a then [a] else []) s as).length

/-- The columns that `create_event` fixes. -/
structure SameJob (r r' : CallJob) : Prop where
  jobId : r'.jobId = r.jobId
  tenantId : r'.tenantId = r.tenantId
  callId : r'.callId = r.callId
  providerCallId : r'.providerCallId = r.providerCallId
  eventType : r'.eventType = r.eventType
  payload : r'.payload = r.payload
  maxAttempts : r'.maxAttempts = r.maxAttempts

theorem SameJob.refl (r : CallJob) : SameJob r r := ⟨rfl, rfl, rfl, rfl, rfl, rfl, rfl⟩

theorem SameJob.trans {r r' r'' : CallJob} (h : SameJob r r') (h' : SameJob r' r'') : SameJob r r'' :=
  ⟨h'.jobId.trans h.jobId, h'.tenantId.trans h.tenantId, h'.callId.trans h.callId,
    h'.providerCallId.trans h.providerCallId, h'.eventType.trans h.eventType,
    h'.payload.trans h.payload, h'.maxAttempts.trans h.maxAttempts⟩

/-! ## One step -/

section Step

variable {s : State} {a : Action} {r r' : CallJob}

theorem failStmt_status (jobId : JobId) (existing : CallJob) (body : EventFailRequest)
    (readAt now : Time) (r : CallJob) :
    ((failStmt jobId existing body readAt now).set r).status =
      if canRetry existing body then .retrying else .failed := by
  simp only [failStmt]; split <;> rfl

theorem RowStep.same (h : RowStep s a r r') : SameJob r r' := by
  cases h with
  | keep => exact .refl r
  | claim => exact ⟨rfl, rfl, rfl, rfl, rfl, rfl, rfl⟩
  | complete => exact ⟨rfl, rfl, rfl, rfl, rfl, rfl, rfl⟩
  | fail => simp only [failStmt]; split <;> exact ⟨rfl, rfl, rfl, rfl, rfl, rfl, rfl⟩
  | reap => exact ⟨rfl, rfl, rfl, rfl, rfl, rfl, rfl⟩

theorem RowStep.status (h : RowStep s a r r') : r'.status = r.status ∨ edge r.status r'.status = true := by
  cases h with
  | keep => exact .inl rfl
  | claim _ hc =>
    right
    show edge r.status .processing = true
    cases hs : r.status <;> simp_all [isClaimable, edge]
  | complete _ _ hr => right; rw [hr]; rfl
  | fail _ _ hr => right; rw [hr, failStmt_status]; split <;> rfl
  | reap _ hr => right; rw [hr]; simp only [reapStmt]; split <;> rfl

theorem RowStep.attempts (h : RowStep s a r r') :
    r'.attempts = r.attempts + if claims r.jobId s a then 1 else 0 := by
  have hn : ∀ b, a = b → (∀ k, b ≠ .claim k) → claims r.jobId s a = false := fun b e hb => by
    cases hc : claims r.jobId s a with
    | false => rfl
    | true => exact absurd (e ▸ claims_eq hc) (hb _)
  cases h with
  | keep hc => simp [hc]
  | claim ha => simp [ha, claimStmt]
  | complete ha => simp [hn _ ha (by simp), completeStmt]
  | fail ha => simp only [hn _ ha (by simp), failStmt]; split <;> rfl
  | reap ha => simp [hn _ ha (by simp), reapStmt]

/-- Only a successful claim starts an attempt. -/
theorem RowStep.claims_of_processing (h : RowStep s a r r') (hr : r.status ≠ .processing)
    (hr' : r'.status = .processing) : claims r.jobId s a = true := by
  cases h with
  | keep => exact absurd hr' hr
  | claim ha => exact ha
  | complete _ _ h => exact absurd h hr
  | fail _ _ h => exact absurd h hr
  | reap _ h => exact absurd h hr

/-- A row that has ended is left alone. -/
theorem RowStep.ended (h : RowStep s a r r') (hr : isTerminal r.status = true) : r' = r := by
  cases h with
  | keep => rfl
  | claim _ hc => cases hs : r.status <;> simp_all [isTerminal, isClaimable]
  | complete _ _ h => rw [h] at hr; cases hr
  | fail _ _ h => rw [h] at hr; cases hr
  | reap _ h => rw [h] at hr; cases hr

theorem RowStep.processedAt (h : RowStep s a r r') (hr : r.processedAt.isSome = isTerminal r.status) :
    r'.processedAt.isSome = isTerminal r'.status := by
  cases h with
  | keep => exact hr
  | claim _ hc =>
    show r.processedAt.isSome = false
    rw [hr]; cases hs : r.status <;> simp_all [isTerminal, isClaimable]
  | complete => rfl
  | fail _ _ h =>
    rw [h] at hr
    simp only [failStmt]; split
    · exact hr
    · rfl
  | reap _ h => simp only [reapStmt]; split <;> rfl

end Step

/-! ## Runs -/

theorem history_concat (jobId : JobId) (s : State) (as : List Action) (a : Action) :
    history jobId s (as ++ [a]) = history jobId s as ++ move jobId (run step s as) a :=
  collect_concat _ _ _ _

theorem claimCount_concat (jobId : JobId) (s : State) (as : List Action) (a : Action) :
    claimCount jobId s (as ++ [a]) =
      claimCount jobId s as + if claims jobId (run step s as) a then 1 else 0 := by
  rw [claimCount, collect_concat, List.length_append]
  congr 1
  split <;> rfl

theorem claims_false_of_none {jobId : JobId} {s : State} (h : s.job jobId = none) (a : Action) :
    claims jobId s a = false := by
  cases hc : claims jobId s a with
  | false => rfl
  | true =>
    obtain ⟨r, hr, -⟩ := claims_claim.mp (claims_eq hc ▸ hc)
    rw [h] at hr; cases hr

/-- What a run makes of a row that is there: its history is a path, its
attempts count its claims, and it keeps what no step changes. -/
structure RowRun (s : State) (as : List Action) (r r' : CallJob) : Prop where
  same : SameJob r r'
  path : Path r.status (history r.jobId s as) r'.status
  attempts : r'.attempts = r.attempts + claimCount r.jobId s as
  claimed : (∃ m ∈ history r.jobId s as, m.2 = .processing) → claimCount r.jobId s as ≠ 0
  ended : isTerminal r.status = true → r' = r
  processedAt : r.processedAt.isSome = isTerminal r.status → r'.processedAt.isSome = isTerminal r'.status

theorem job_run {s : State} {jobId : JobId} {r : CallJob} (h : s.job jobId = some r) (as : List Action) :
    ∃ r', (run step s as).job jobId = some r' ∧ RowRun s as r r' := by
  obtain rfl : r.jobId = jobId := Table.lookup_key h
  induction as using List.reverseRecOn with
  | nil =>
    exact ⟨r, h, .refl r, .nil _, rfl, fun ⟨m, hm, _⟩ => absurd hm List.not_mem_nil, fun _ => rfl, id⟩
  | append_singleton as a ih =>
    obtain ⟨x, hx, ih⟩ := ih
    obtain ⟨r', hr', hs⟩ := rowStep hx a
    have hid : x.jobId = r.jobId := ih.same.jobId
    have hmove : move r.jobId (run step s as) a =
        if x.status = r'.status then [] else [(x.status, r'.status)] := by
      simp only [move, hx, hr']
    refine ⟨r', by rw [run_concat]; exact hr', ih.same.trans hs.same, ?_, ?_, ?_, ?_, ?_⟩
    · rw [history_concat, hmove]
      refine ih.path.append ?_
      split
      · rename_i e; rw [← e]; exact .nil _
      · rename_i e
        exact .single (hs.status.resolve_left fun e' => e e'.symm)
    · rw [hs.attempts, ih.attempts, claimCount_concat, hid, Nat.add_assoc]
    · rw [history_concat, claimCount_concat, hmove]
      rintro ⟨m, hm, hp⟩
      rcases List.mem_append.mp hm with hm | hm
      · have := ih.claimed ⟨m, hm, hp⟩
        omega
      · split at hm
        · cases hm
        · rename_i e
          obtain rfl := List.mem_singleton.mp hm
          have hp : r'.status = .processing := hp
          have := hs.claims_of_processing (fun e' => e (e'.trans hp.symm)) hp
          rw [hid] at this
          rw [this]; simp
    · intro ht
      obtain rfl := ih.ended ht
      exact hs.ended ht
    · exact fun hp => hs.processedAt (ih.processedAt hp)

theorem none_of_none {jobId : JobId} {s : State} {a : Action} (h : (step s a).job jobId = none) :
    s.job jobId = none := by
  cases hs : s.job jobId with
  | none => rfl
  | some r => rw [job_step hs a] at h; cases h

/-- A job that is not there yet has no history. -/
theorem history_of_none {now : Time} {jobId : JobId} {as : List Action}
    (h : (run step (.init now) as).job jobId = none) :
    history jobId (.init now) as = [] ∧ claimCount jobId (.init now) as = 0 := by
  induction as using List.reverseRecOn with
  | nil => exact ⟨rfl, rfl⟩
  | append_singleton as a ih =>
    rw [run_concat] at h
    have hn := none_of_none h
    obtain ⟨hh, hc⟩ := ih hn
    rw [history_concat, claimCount_concat, hh, hc, claims_false_of_none hn]
    exact ⟨by simp only [move, hn, List.nil_append], rfl⟩

/-- A job that is there was created in the run, before which it had no history. -/
theorem job_born {now : Time} {jobId : JobId} {as : List Action} {r : CallJob}
    (h : (run step (.init now) as).job jobId = some r) :
    ∃ p body q, as = p ++ [.create jobId body] ++ q ∧
      (run step (.init now) (p ++ [.create jobId body])).job jobId =
        some (newJob body jobId (run step (.init now) p).now) ∧
      history jobId (.init now) (p ++ [.create jobId body]) = [] ∧
      claimCount jobId (.init now) (p ++ [.create jobId body]) = 0 := by
  induction as using List.reverseRecOn generalizing r with
  | nil => cases h
  | append_singleton as a ih =>
    cases hs : (run step (.init now) as).job jobId with
    | some x =>
      obtain ⟨p, body, q, rfl, hrest⟩ := ih hs
      exact ⟨p, body, q ++ [a], by simp, hrest⟩
    | none =>
      rw [run_concat] at h
      obtain ⟨body, rfl, rfl⟩ := job_create hs h
      obtain ⟨hh, hc⟩ := history_of_none hs
      refine ⟨as, body, [], by simp, by rw [run_concat]; exact h, ?_, ?_⟩
      · rw [history_concat, hh]; simp only [move, hs, List.nil_append]
      · rw [claimCount_concat, hc, claims_false_of_none hs]; rfl

theorem history_append (jobId : JobId) (s : State) (as bs : List Action) :
    history jobId s (as ++ bs) = history jobId s as ++ history jobId (run step s as) bs :=
  collect_append _ _ _ _

theorem claimCount_append (jobId : JobId) (s : State) (as bs : List Action) :
    claimCount jobId s (as ++ bs) = claimCount jobId s as + claimCount jobId (run step s as) bs := by
  simp only [claimCount, collect_append, List.length_append]

/-- A row of a run is the row of its creation, run on. -/
theorem job_of_init {now : Time} {jobId : JobId} {as : List Action} {r : CallJob}
    (h : (run step (.init now) as).job jobId = some r) :
    Path .queued (history jobId (.init now) as) r.status ∧
      r.attempts = claimCount jobId (.init now) as ∧
      r.processedAt.isSome = isTerminal r.status := by
  obtain ⟨p, body, q, rfl, hj, hh, hc⟩ := job_born h
  obtain ⟨r', hr', hrun⟩ := job_run hj q
  rw [← run_append, h] at hr'
  cases hr'
  rw [history_append, claimCount_append, hh, hc]
  exact ⟨hrun.path, by rw [hrun.attempts]; rfl, hrun.processedAt rfl⟩

/-- After a successful claim the job is being attempted. -/
theorem processing_of_claims {jobId : JobId} {s : State} {a : Action} (h : claims jobId s a = true) :
    ∃ r, (step s a).job jobId = some r ∧ r.status = .processing := by
  obtain rfl := claims_eq h
  obtain ⟨r, hr, hs, ht⟩ := claims_claim.mp h
  refine ⟨_, job_step hr _, ?_⟩
  have hg : (claimStmt jobId s.now).guard r = true := by
    simp [claimStmt, Table.lookup_key hr, hs, ht]
  show ((claimStmt jobId s.now).row r).status = .processing
  rw [Update.row_of_guard hg]; rfl

/-- Between two successful claims, with none in between, the job makes one
move: its attempt ends `retrying`. -/
theorem history_between {jobId : JobId} {s : State} {q : List Action} {a b : Action}
    (ha : claims jobId s a = true) (hb : claims jobId (run step (step s a) q) b = true)
    (hn : claimCount jobId (step s a) q = 0) :
    history jobId (step s a) q = [(.processing, .retrying)] := by
  obtain ⟨r, hr, hp⟩ := processing_of_claims ha
  obtain ⟨r', hr', hrun⟩ := job_run hr q
  obtain ⟨x, hx, hs, -⟩ := claims_claim.mp (claims_eq hb ▸ hb)
  rw [hr'] at hx
  cases hx
  obtain rfl : r.jobId = jobId := Table.lookup_key hr
  have hpath := hrun.path
  rw [hp] at hpath
  rcases hpath.attempt fun m hm e => hrun.claimed ⟨m, hm, e⟩ hn with ⟨-, e⟩ | e
  · rw [e] at hs; cases hs
  · rw [e]
    have hedge : edge .processing r'.status = true := by
      rw [e] at hpath; cases hpath with | cons h _ => exact h
    cases h : r'.status <;> simp_all [isClaimable, edge]

/-- Job lifecycle. In every run of the job API, a row's status history is a
path of the lifecycle and its attempts count its successful claims; between
two successive claims lies one move, from `processing` to `retrying`; its
`processed_at` is set exactly when it has ended, after which the row never
changes; and the columns that `create_event` fixes never change. -/
theorem job_lifecycle (now : Time) (as : List Action) (jobId : JobId) (r : CallJob)
    (h : (run step (.init now) as).job jobId = some r) :
    Path .queued (history jobId (.init now) as) r.status ∧
    r.attempts = claimCount jobId (.init now) as ∧
    (∀ p q, p ++ [.claim jobId] ++ q ++ [.claim jobId] <+: as →
      claims jobId (run step (.init now) p) (.claim jobId) = true →
      claims jobId (run step (.init now) (p ++ [.claim jobId] ++ q)) (.claim jobId) = true →
      claimCount jobId (run step (.init now) (p ++ [.claim jobId])) q = 0 →
      history jobId (run step (.init now) (p ++ [.claim jobId])) q = [(.processing, .retrying)]) ∧
    (r.processedAt.isSome = true ↔ r.status = .completed ∨ r.status = .failed) ∧
    (r.status = .completed ∨ r.status = .failed →
      ∀ bs, (run step (.init now) (as ++ bs)).job jobId = some r) ∧
    ∀ bs, ∃ r', (run step (.init now) (as ++ bs)).job jobId = some r' ∧ SameJob r r' := by
  obtain ⟨hpath, hatt, hproc⟩ := job_of_init h
  have hterm : isTerminal r.status = true ↔ r.status = .completed ∨ r.status = .failed := by
    cases r.status <;> simp [isTerminal]
  refine ⟨hpath, hatt, fun p q _ ha hb hn => ?_, ?_, fun ht bs => ?_, fun bs => ?_⟩
  · rw [run_append, run_concat] at hb
    rw [run_concat] at hn ⊢
    exact history_between ha hb hn
  · rw [hproc, hterm]
  · obtain ⟨r', hr', hrun⟩ := job_run h bs
    rw [run_append, hr', hrun.ended (hterm.mpr ht)]
  · obtain ⟨r', hr', hrun⟩ := job_run h bs
    exact ⟨r', by rw [run_append]; exact hr', hrun.same⟩

/-- An event with no tenant, call or provider call. -/
def answeredEvent : EventCreateRequest where
  eventType := "answered"
  maxAttempts_range := maxAttempts_range_none

/-- A failure that asks for a retry. -/
def timedOut : EventFailRequest where
  error := "timeout"

/-- Claimed, failed with attempts left, claimed again after the backoff, and
completed. -/
def retriedRun : List Action :=
  [.create "job" answeredEvent, .claim "job", .failRead 0 "job" timedOut,
    .update 0, .tick 5000000, .claim "job", .completeRead 1 "job", .update 1]

/-- The row at the end of `retriedRun`. -/
def retriedRow : CallJob where
  jobId := "job"
  tenantId := none
  callId := none
  providerCallId := none
  eventType := "answered"
  payload := none
  status := .completed
  attempts := 2
  maxAttempts := 5
  lastError := some "timeout"
  createdAt := 0
  updatedAt := 5000000
  availableAt := 5000000
  processedAt := some 5000000

theorem job_lifecycle_retried :
    (run step (.init 0) retriedRun).job "job" = some retriedRow ∧
      Path .queued (history "job" (.init 0) retriedRun) .completed ∧
      claimCount "job" (.init 0) retriedRun = 2 := by
  have h : (run step (.init 0) retriedRun).job "job" = some retriedRow := by decide
  have hl := job_lifecycle 0 retriedRun "job" retriedRow h
  exact ⟨h, hl.1, hl.2.1.symm⟩

end CallingAgent.Proof.Jobs
