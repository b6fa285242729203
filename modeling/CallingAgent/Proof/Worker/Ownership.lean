import CallingAgent.Proof.Worker.Steps
import CallingAgent.Proof.Jobs.Lifecycle

/-!
# Which attempt a report counts for

The guard of `complete_event` and `fail_event` is the status alone, so a report
whose attempt has been reaped is applied to the next attempt once the job is
claimed again. `Attempted` is what the runs keep as long as this does not
happen: a run whose attempt has not been reaped owns the job, which is being
attempted. Along a run of the workers, every report that changes a row counts
for the run's own attempt exactly when no report finds the job being attempted
after its own attempt was reaped (`report_counts_for_own_attempt_iff`).
-/

namespace CallingAgent.Proof.Worker

open CallingAgent.Framework CallingAgent.Impl CallingAgent.Impl.Worker CallingAgent.Proof.Jobs

/-! ## Rows -/

theorem stmt_guard {job : CallJob} {report : Report} {x : Jobs.Pending} (h : Matches job report x)
    (r : CallJob) : x.stmt.guard r = (r.jobId == job.jobId && r.status == .processing) := by
  cases x <;> cases report <;> simp only [Matches] at h
  · rw [h]; rfl
  · rw [h.1]; rfl

theorem stmt_status (x : Jobs.Pending) (r : CallJob) : (x.stmt.set r).status ≠ .processing := by
  cases x with
  | complete => simp [Jobs.Pending.stmt, Jobs.completeStmt]
  | fail => rw [Jobs.Pending.stmt, Jobs.failStmt_status]; split <;> simp

theorem job_update {s : Jobs.State} {n : Nat} {x : Jobs.Pending} (hx : s.pending n = some x) (jobId : JobId) :
    (Jobs.step s (.update n)).job jobId = (s.job jobId).map x.stmt.row := by
  simp only [Jobs.step, hx]
  exact Table.lookup_update _ _ _

section Update

variable {s : Jobs.State} {n : Nat} {job : CallJob} {report : Report} {x : Jobs.Pending}

theorem job_update_of_ne (hx : s.pending n = some x) (hm : Matches job report x) {jobId : JobId}
    (hne : jobId ≠ job.jobId) : (Jobs.step s (.update n)).job jobId = s.job jobId := by
  rw [job_update hx]
  cases hr : s.job jobId with
  | none => rfl
  | some r =>
    have hk : r.jobId = jobId := Table.lookup_key hr
    rw [Option.map_some, Update.row_of_not_guard (by rw [stmt_guard hm, hk]; simp [hne])]

/-- A report that finds its job being attempted changes the row, and the job is
no longer being attempted. -/
theorem job_update_hit (hx : s.pending n = some x) (hm : Matches job report x)
    (hp : Processing s job.jobId) :
    ∃ r, s.job job.jobId = some r ∧ (Jobs.step s (.update n)).job job.jobId = some (x.stmt.set r) ∧
      ¬ Processing (Jobs.step s (.update n)) job.jobId := by
  obtain ⟨r, hr, hs⟩ := hp
  have hj : (Jobs.step s (.update n)).job job.jobId = some (x.stmt.set r) := by
    rw [job_update hx, hr, Option.map_some,
      Update.row_of_guard (by rw [stmt_guard hm, hs, Table.lookup_key hr]; simp)]
  refine ⟨r, hr, hj, ?_⟩
  rintro ⟨r', hr', hs'⟩
  rw [hj] at hr'
  cases hr'
  exact stmt_status x r hs'

theorem job_update_miss (hx : s.pending n = some x) (hm : Matches job report x)
    (hp : ¬ Processing s job.jobId) : (Jobs.step s (.update n)).job job.jobId = s.job job.jobId := by
  rw [job_update hx]
  cases hr : s.job job.jobId with
  | none => rfl
  | some r =>
    have hs : r.status ≠ .processing := fun e => hp ⟨r, hr, e⟩
    rw [Option.map_some, Update.row_of_not_guard (by rw [stmt_guard hm]; simp [hs])]

end Update

/-- Requests that run no `UPDATE` start and end no attempt. -/
theorem processing_outside {s : Jobs.State} {b : Jobs.Action} (hb : Jobs.stmtOf s b = none) (jobId : JobId) :
    Processing (Jobs.step s b) jobId ↔ Processing s jobId := by
  cases hr : s.job jobId with
  | some r =>
    have := Jobs.job_step hr b
    rw [hb] at this
    exact processing_congr (this.trans hr.symm)
  | none =>
    constructor
    · rintro ⟨r', hr', hs⟩
      obtain ⟨body, -, rfl⟩ := Jobs.job_create hr hr'
      cases hs
    · rintro ⟨r', hr', -⟩
      rw [hr] at hr'; cases hr'

theorem mem_reaped {s : Jobs.State} {jobId : JobId} :
    Event.reaped jobId ∈ ((Jobs.reapStmt s.now).returning s.jobs.rows).map (fun r => .reaped r.jobId) ↔
      ∃ r, s.job jobId = some r ∧ (Jobs.reapStmt s.now).guard r = true := by
  constructor
  · intro h
    obtain ⟨r', hr', e⟩ := List.mem_map.mp h
    obtain ⟨r, hr, rfl⟩ := List.mem_map.mp hr'
    obtain ⟨hm, hg⟩ := List.mem_filter.mp hr
    obtain rfl : r.jobId = jobId := by
      rw [← (Jobs.reapStmt s.now).keeps r]; exact Event.reaped.inj e
    exact ⟨r, Table.lookup_of_mem hm, hg⟩
  · rintro ⟨r, hr, hg⟩
    refine List.mem_map.mpr ⟨(Jobs.reapStmt s.now).set r, ?_, ?_⟩
    · exact List.mem_map.mpr ⟨r, List.mem_filter.mpr ⟨Table.lookup_mem hr, hg⟩, rfl⟩
    · rw [(Jobs.reapStmt s.now).keeps r, Table.lookup_key hr]

theorem job_reap (s : Jobs.State) (jobId : JobId) :
    (Jobs.step s .reap).job jobId = (s.job jobId).map (Jobs.reapStmt s.now).row :=
  Table.lookup_update _ _ _

/-- A reap that moves a job ends its attempt, and leaves the other jobs alone. -/
theorem processing_reap (s : Jobs.State) (jobId : JobId) :
    (∃ r, s.job jobId = some r ∧ (Jobs.reapStmt s.now).guard r = true) ∧
        ¬ Processing (Jobs.step s .reap) jobId ∨
      (¬ ∃ r, s.job jobId = some r ∧ (Jobs.reapStmt s.now).guard r = true) ∧
        (Jobs.step s .reap).job jobId = s.job jobId := by
  cases hr : s.job jobId with
  | none =>
    right
    refine ⟨(by rintro ⟨r, hr', -⟩; cases hr'), ?_⟩
    rw [job_reap, hr]; rfl
  | some r =>
    cases hg : (Jobs.reapStmt s.now).guard r with
    | true =>
      left
      refine ⟨⟨r, rfl, hg⟩, ?_⟩
      rintro ⟨r', hr', hs⟩
      rw [job_reap, hr, Option.map_some, Update.row_of_guard hg] at hr'
      cases hr'
      simp only [Jobs.reapStmt] at hs
      split at hs <;> cases hs
    | false =>
      right
      refine ⟨?_, ?_⟩
      · rintro ⟨r', hr', hg'⟩
        cases hr'
        rw [hg] at hg'
        cases hg'
      · rw [job_reap, hr, Option.map_some, Update.row_of_not_guard hg]

theorem job_claim_of_ne {s : Jobs.State} {jobId k : JobId} (hne : k ≠ jobId) :
    (Jobs.step s (.claim jobId)).job k = s.job k := by
  have : (Jobs.step s (.claim jobId)).job k = (s.job k).map (Jobs.claimStmt jobId s.now).row :=
    Table.lookup_update _ _ _
  rw [this]
  cases hr : s.job k with
  | none => rfl
  | some r =>
    have hk : r.jobId ≠ jobId := by rw [Table.lookup_key hr]; exact hne
    rw [Option.map_some, Update.row_of_not_guard (by simp [Jobs.claimStmt, hk])]

/-- A job that can be claimed is not being attempted. -/
theorem not_processing_of_claims {s : Jobs.State} {jobId : JobId}
    (h : Jobs.claims jobId s (.claim jobId) = true) : ¬ Processing s jobId := by
  obtain ⟨r, hr, hs, -⟩ := Jobs.claims_claim.mp h
  rintro ⟨r', hr', hs'⟩
  rw [hr] at hr'
  cases hr'
  rw [hs'] at hs; cases hs

/-! ## What the runs keep -/

/-- A run that has claimed a job and not yet reported. -/
structure Attempted (w : World) : Prop where
  /-- Its claim is in the log. -/
  logged : ∀ {n job}, Phase.job? (w.phase n) = some job → .claimed job.jobId n ∈ w.log
  /-- A run claims once. -/
  fresh : ∀ {n}, w.phase n = .idle → ∀ jobId, .claimed jobId n ∉ w.log
  tied : ∀ {n job report}, w.phase n = .reporting job report →
    ∃ x, w.api.pending n = some x ∧ Matches job report x
  /-- Unless its attempt was reaped, it is the job's attempt. -/
  owned : ∀ {n job}, Phase.job? (w.phase n) = some job →
    .reaped job.jobId ∉ since n job.jobId w.log →
    Processing w.api job.jobId ∧ ∀ m, .claimed job.jobId m ∉ since n job.jobId w.log
  /-- If it was reaped, the job is only being attempted if it was claimed again. -/
  reclaimed : ∀ {n job}, Phase.job? (w.phase n) = some job →
    .reaped job.jobId ∈ since n job.jobId w.log → Processing w.api job.jobId →
    ∃ m, .claimed job.jobId m ∈ since n job.jobId w.log

/-- Steps that start no run, end or start no attempt and log no claim or reap. -/
theorem Attempted.mono {w w' : World} (h : Attempted w)
    (hj : ∀ {n job}, Phase.job? (w'.phase n) = some job → Phase.job? (w.phase n) = some job)
    (hi : ∀ {n}, w'.phase n = .idle → w.phase n = .idle)
    (ht : ∀ {n job report}, w'.phase n = .reporting job report →
      ∃ x, w'.api.pending n = some x ∧ Matches job report x)
    (hp : ∀ jobId, Processing w'.api jobId ↔ Processing w.api jobId)
    (hl : w'.log = w.log ∨ ∃ jobId n, w'.log = .succeeded jobId n :: w.log) : Attempted w' := by
  have hmem : ∀ n jobId e, (∀ k m, e ≠ .succeeded k m) →
      (e ∈ w'.log ↔ e ∈ w.log) ∧ (e ∈ since n jobId w'.log ↔ e ∈ since n jobId w.log) := by
    intro n jobId e he
    rcases hl with e' | ⟨k, m, e'⟩
    · rw [e']; exact ⟨Iff.rfl, Iff.rfl⟩
    · rw [e', since_cons_of_ne (by simp), List.mem_cons, List.mem_cons]
      exact ⟨or_iff_right (he k m), or_iff_right (he k m)⟩
  have hc : ∀ k m j n, .claimed k m ∈ since n j w'.log ↔ .claimed k m ∈ since n j w.log :=
    fun k m j n => (hmem n j _ (by simp)).2
  have hr : ∀ k j n, .reaped k ∈ since n j w'.log ↔ .reaped k ∈ since n j w.log :=
    fun k j n => (hmem n j _ (by simp)).2
  refine ⟨fun h' => ?_, fun h' jobId hm => ?_, ht, fun h' hn => ?_, fun h' hm hq => ?_⟩
  · exact (hmem 0 "" _ (by simp)).1.mpr (h.logged (hj h'))
  · exact h.fresh (hi h') jobId ((hmem 0 "" _ (by simp)).1.mp hm)
  · rw [hr] at hn
    obtain ⟨hq, ho⟩ := h.owned (hj h') hn
    exact ⟨(hp _).mpr hq, fun m hm => ho m ((hc _ _ _ _).mp hm)⟩
  · rw [hr] at hm
    obtain ⟨m, hm⟩ := h.reclaimed (hj h') hm ((hp _).mp hq)
    exact ⟨m, (hc _ _ _ _).mpr hm⟩

/-- The report of a run whose attempt was reaped finds the job being attempted
again. -/
def ReapedReport (w : World) (a : Action) : Prop :=
  ∃ n job report, a = .update n ∧ w.phase n = .reporting job report ∧
    Processing w.api job.jobId ∧ .reaped job.jobId ∈ since n job.jobId w.log

/-- The phases of the other runs are left alone. -/
theorem update_phase {w : World} {n m : Nat} {phase : Phase} (hne : m ≠ n) :
    Function.update w.phase n phase m = w.phase m := Function.update_of_ne hne _ _

theorem Attempted.setPhase {w : World} {n : Nat} {phase : Phase} {api : Jobs.State} {log : List Event}
    (h : Attempted w) (hj : ∀ job, Phase.job? phase = some job → Phase.job? (w.phase n) = some job)
    (hi : phase ≠ .idle)
    (ht : ∀ job report, phase = .reporting job report → ∃ x, api.pending n = some x ∧ Matches job report x)
    (hpend : ∀ m, m ≠ n → api.pending m = w.api.pending m)
    (hp : ∀ jobId, Processing api jobId ↔ Processing w.api jobId)
    (hl : log = w.log ∨ ∃ jobId n, log = .succeeded jobId n :: w.log) :
    Attempted { api := api, phase := Function.update w.phase n phase, log := log } := by
  refine h.mono (fun {m job} h' => ?_) (fun {m} h' => ?_) (fun {m job report} h' => ?_) hp hl <;>
    dsimp only at h' ⊢ <;> by_cases e : m = n
  · subst e; rw [Function.update_self] at h'; exact hj _ h'
  · rwa [update_phase e] at h'
  · subst e; rw [Function.update_self] at h'; exact absurd h' hi
  · rwa [update_phase e] at h'
  · subst e; rw [Function.update_self] at h'; exact ht _ _ h'
  · rw [update_phase e] at h'
    rw [hpend m e]; exact h.tied h'

theorem Attempted.reap {w : World} (h : Attempted w) : Attempted (step w .reap) := by
  have hs : ∀ n jobId, since n jobId (step w .reap).log =
      ((Jobs.reapStmt w.api.now).returning w.api.jobs.rows).map (fun r => Event.reaped r.jobId) ++
        since n jobId w.log := fun n jobId => since_append fun e he => by
    obtain ⟨r, -, rfl⟩ := List.mem_map.mp he; simp
  have hc : ∀ k m, .claimed k m ∉
      ((Jobs.reapStmt w.api.now).returning w.api.jobs.rows).map (fun r => Event.reaped r.jobId) :=
    fun k m hm => by obtain ⟨r, -, e⟩ := List.mem_map.mp hm; cases e
  refine ⟨fun h' => ?_, fun h' jobId hm => ?_, fun h' => h.tied h', fun {n job} h' hn => ?_,
    fun {n job} h' hm hp => ?_⟩
  · exact List.mem_append_right _ (h.logged h')
  · exact h.fresh h' jobId ((List.mem_append.mp hm).resolve_left (hc _ _))
  · rw [hs, List.mem_append, not_or] at hn
    obtain ⟨hp, ho⟩ := h.owned h' hn.2
    rcases processing_reap w.api job.jobId with ⟨hr, -⟩ | ⟨-, e⟩
    · exact absurd (mem_reaped.mpr hr) hn.1
    · refine ⟨(processing_congr e).mpr hp, fun m hm => ?_⟩
      rw [hs] at hm
      exact ho m ((List.mem_append.mp hm).resolve_left (hc _ _))
  · rw [hs, List.mem_append] at hm
    rcases processing_reap w.api job.jobId with ⟨-, hn⟩ | ⟨hr, e⟩
    · exact absurd hp hn
    · obtain ⟨m, hm⟩ := h.reclaimed h' (hm.resolve_left fun hm => hr (mem_reaped.mp hm))
        ((processing_congr e).mp hp)
      exact ⟨m, by rw [hs]; exact List.mem_append_right _ hm⟩

theorem Attempted.claim {w : World} (h : Attempted w) {n : Nat} {jobId : JobId} {phase : Phase}
    (hi : w.phase n = .idle) (hc : Jobs.claims jobId w.api (.claim jobId) = true)
    (hj : phase = .done ∨ ∃ job, phase = .claimed job ∧ job.jobId = jobId) :
    Attempted
      { api := Jobs.step w.api (.claim jobId)
        phase := Function.update w.phase n phase
        log := .claimed jobId n :: w.log } := by
  have hnp := not_processing_of_claims hc
  -- The claimed job is the one of run `n`; an earlier run of it was reaped.
  have hphase : ∀ m job, Phase.job? (Function.update w.phase n phase m) = some job →
      m = n ∧ job.jobId = jobId ∨ m ≠ n ∧ Phase.job? (w.phase m) = some job := by
    intro m job h'
    by_cases e : m = n
    · subst e
      rw [Function.update_self] at h'
      rcases hj with rfl | ⟨x, rfl, hx⟩
      · cases h'
      · cases h'; exact .inl ⟨rfl, hx⟩
    · rw [update_phase e] at h'; exact .inr ⟨e, h'⟩
  have hne : ∀ {m : Nat} (k : JobId), m ≠ n → Event.claimed jobId n ≠ .claimed k m := fun k e e' =>
    e (Event.claimed.inj e').2.symm
  have hother : ∀ k, k ≠ jobId →
      (Processing (Jobs.step w.api (.claim jobId)) k ↔ Processing w.api k) := fun k hk =>
    processing_congr (job_claim_of_ne hk)
  refine ⟨fun {m job} h' => ?_, fun {m} h' k hm => ?_, fun {m job report} h' => ?_,
    fun {m job} h' hn => ?_, fun {m job} h' hm hp => ?_⟩
  · rcases hphase m job h' with ⟨rfl, e⟩ | ⟨-, h'⟩
    · rw [e]; exact List.mem_cons_self
    · exact List.mem_cons_of_mem _ (h.logged h')
  · by_cases e : m = n
    · subst e
      change Function.update w.phase m phase m = .idle at h'
      rw [Function.update_self] at h'
      rcases hj with rfl | ⟨x, rfl, -⟩ <;> cases h'
    · change Function.update w.phase n phase m = .idle at h'
      rw [update_phase e] at h'
      exact h.fresh h' k ((List.mem_cons.mp hm).resolve_left (Ne.symm (hne k e)))
  · by_cases e : m = n
    · subst e
      change Function.update w.phase m phase m = .reporting job report at h'
      rw [Function.update_self] at h'
      rcases hj with rfl | ⟨x, rfl, -⟩ <;> cases h'
    · change Function.update w.phase n phase m = .reporting job report at h'
      rw [update_phase e] at h'
      exact h.tied h'
  · rcases hphase m job h' with ⟨rfl, e⟩ | ⟨e, h'⟩
    · rw [e, since_cons_self]
      refine ⟨?_, fun _ => List.not_mem_nil⟩
      obtain ⟨r, hr, hs⟩ := Jobs.processing_of_claims hc
      exact ⟨r, hr, hs⟩
    · rw [since_cons_of_ne (hne _ e)] at hn ⊢
      obtain ⟨hp, ho⟩ := h.owned h' fun hm => hn (List.mem_cons_of_mem _ hm)
      have hk : job.jobId ≠ jobId := fun e => hnp (e ▸ hp)
      refine ⟨(hother _ hk).mpr hp, fun q hq => ?_⟩
      rcases List.mem_cons.mp hq with e' | hq
      · exact hk (Event.claimed.inj e').1
      · exact ho q hq
  · rcases hphase m job h' with ⟨rfl, e⟩ | ⟨e, h'⟩
    · rw [e, since_cons_self] at hm; cases hm
    · rw [since_cons_of_ne (hne _ e)] at hm ⊢
      by_cases hk : job.jobId = jobId
      · exact ⟨n, by rw [hk]; exact List.mem_cons_self⟩
      · obtain ⟨q, hq⟩ := h.reclaimed h' ((List.mem_cons.mp hm).resolve_left (by simp)) ((hother _ hk).mp hp)
        exact ⟨q, List.mem_cons_of_mem _ hq⟩

theorem Attempted.update {w : World} (h : Attempted w) {n : Nat} {job : CallJob} {report : Report}
    (hn : w.phase n = .reporting job report) (hc : ¬ ReapedReport w (.update n)) :
    Attempted { w.setPhase n .done with api := Jobs.step w.api (.update n) } := by
  obtain ⟨x, hx, hm⟩ := h.tied hn
  have hpend : ∀ m, m ≠ n → (Jobs.step w.api (.update n)).pending m = w.api.pending m := fun m e => by
    simp only [Jobs.step, hx]; exact Function.update_of_ne e _ _
  by_cases hp : Processing w.api job.jobId
  · obtain ⟨r, -, -, hnp⟩ := job_update_hit hx hm hp
    have hself : Phase.job? (w.phase n) = some job := by rw [hn]; rfl
    have howned := (h.owned hself fun hr => hc ⟨n, job, report, rfl, hn, hp, hr⟩).2
    have hphase : ∀ m job, Phase.job? (Function.update w.phase n .done m) = some job →
        m ≠ n ∧ Phase.job? (w.phase m) = some job := fun m k h' => by
      by_cases e : m = n
      · subst e; rw [Function.update_self] at h'; cases h'
      · rw [update_phase e] at h'; exact ⟨e, h'⟩
    have hidle : ∀ m, Function.update w.phase n .done m = .idle → w.phase m = .idle := fun m h' => by
      by_cases e : m = n
      · subst e; rw [Function.update_self] at h'; cases h'
      · rwa [update_phase e] at h'
    refine ⟨fun {m k} h' => h.logged (hphase m k h').2, fun {m} h' => h.fresh (hidle m h'),
      fun {m k rep} h' => ?_, fun {m k} h' hr => ?_, fun {m k} h' hr hq => ?_⟩
    · by_cases e : m = n
      · subst e
        change Function.update w.phase m .done m = .reporting k rep at h'
        rw [Function.update_self] at h'; cases h'
      · change Function.update w.phase n .done m = .reporting k rep at h'
        rw [update_phase e] at h'
        show ∃ x, (Jobs.step w.api (.update n)).pending m = some x ∧ _
        rw [hpend m e]; exact h.tied h'
    · obtain ⟨e, h'⟩ := hphase m k h'
      obtain ⟨hq, ho⟩ := h.owned h' hr
      refine ⟨?_, ho⟩
      -- Two runs that both own the job are one.
      have hk : k.jobId ≠ job.jobId := fun hk => by
        rw [hk] at ho
        rcases since_total (h.logged hself) (hk ▸ h.logged h') (Ne.symm e) with hs | hs
        · exact ho n hs
        · exact howned m hs
      exact (processing_congr (job_update_of_ne hx hm hk)).mpr hq
    · obtain ⟨e, h'⟩ := hphase m k h'
      have hk : k.jobId ≠ job.jobId := fun hk => hnp (hk ▸ hq)
      exact h.reclaimed h' hr ((processing_congr (job_update_of_ne hx hm hk)).mp hq)
  · refine h.setPhase (fun _ h' => by cases h') (by simp) (fun _ _ h' => by cases h') hpend (fun k => ?_)
      (.inl rfl)
    by_cases hk : k = job.jobId
    · rw [hk]; exact processing_congr (job_update_miss hx hm hp)
    · exact processing_congr (job_update_of_ne hx hm hk)

theorem attempted_step {w : World} {a : Action} (h : Attempted w) (hc : ¬ ReapedReport w a) :
    Attempted (step w a) := by
  have hs := wStep w a
  generalize hw : step w a = w' at hs
  cases hs with
  | skip => exact h
  | outside _ hb hp =>
    exact h.mono id id (fun h' => by rw [hp]; exact h.tied h') (processing_outside hb) (.inl rfl)
  | reap ha => rw [← hw, ha]; exact h.reap
  | claim _ hi hcl hj => exact h.claim hi hcl hj
  | @succeed n job _ hp =>
    exact h.setPhase (fun _ h' => by rw [hp]; exact h') (by simp) (fun _ _ h' => by cases h')
      (fun _ _ => rfl) (fun _ => Iff.rfl) (.inr ⟨_, _, rfl⟩)
  | @fail n job body _ hp =>
    exact h.setPhase (fun _ h' => by rw [hp]; exact h') (by simp) (fun _ _ h' => by cases h')
      (fun _ _ => rfl) (fun _ => Iff.rfl) (.inl rfl)
  | stop =>
    exact h.setPhase (fun _ h' => by cases h') (by simp) (fun _ _ h' => by cases h') (fun _ _ => rfl)
      (fun _ => Iff.rfl) (.inl rfl)
  | @read n job report x _ hp hx _ =>
    refine h.setPhase (fun _ h' => by rw [hp]; exact h') (by simp) (fun k rep e => ?_)
      (fun m e => Function.update_of_ne e _ _) (fun _ => Iff.rfl) (.inl rfl)
    cases e
    exact ⟨x, Function.update_self _ _ _, hx⟩
  | @update n job report ha hp => rw [ha] at hc; exact h.update hp hc

theorem attempted_init (now : Time) : Attempted (.init now) where
  logged h := by cases h
  fresh _ _ h := by cases h
  tied h := by cases h
  owned h := by cases h
  reclaimed h := by cases h

/-- A report that changes its job's row counts for the run's own attempt: no
other claim of the job has succeeded since its own. -/
def CountsForOwnAttempt (w : World) (a : Action) : Prop :=
  ∀ n job report, a = .update n → w.phase n = .reporting job report →
    (step w a).api.job job.jobId ≠ w.api.job job.jobId →
    ∀ m, .claimed job.jobId m ∉ since n job.jobId w.log

/-- Reports only count for the attempt they belong to, in a run of the workers
and reaps, if and only if no report finds the job being attempted after its own
attempt was reaped. -/
theorem report_counts_for_own_attempt_iff (now : Time) (as : List Action) :
    AllSteps step CountsForOwnAttempt (.init now) as ↔
      AllSteps step (fun w a => ¬ ReapedReport w a) (.init now) as := by
  refine allSteps_congr (I := Attempted) (attempted_init now) (fun w a h hc => attempted_step h hc)
    (fun w a h => ⟨fun hP => ?_, fun hC n job report ha hn hne => ?_⟩) as
  · rintro ⟨n, job, report, rfl, hn, hp, hr⟩
    obtain ⟨x, hx, hm⟩ := h.tied hn
    obtain ⟨m, hmem⟩ := h.reclaimed (by rw [hn]; rfl) hr hp
    refine hP n job report rfl hn (fun e => ?_) m hmem
    obtain ⟨r, -, -, hnp⟩ := job_update_hit hx hm hp
    simp only [step, hn] at e
    exact hnp ((processing_congr e).mpr hp)
  · subst ha
    obtain ⟨x, hx, hm⟩ := h.tied hn
    have hp : Processing w.api job.jobId := by
      by_contra hp
      refine hne ?_
      simp only [step, hn]
      exact job_update_miss hx hm hp
    exact (h.owned (by rw [hn]; rfl) fun hr => hC ⟨n, job, report, rfl, hn, hp, hr⟩).2

/-- Run 0 is slow: its job is reaped and claimed by run 1, and then run 0
reports success. -/
def slowRun : List Action :=
  [.create "job" answeredEvent, .claim 0 "job" true, .tick 121000000, .reap,
    .claim 1 "job" true, .process 0 .success, .read 0, .update 0]

/-- The report of run 0 completes the attempt of run 1. -/
theorem report_counts_for_other_attempt :
    ¬ AllSteps step CountsForOwnAttempt (.init 0) slowRun := by
  intro h
  exact h (slowRun.take 7) (.update 0) ⟨[], rfl⟩ 0 _ .complete rfl rfl (by decide) 1 (by decide)

end CallingAgent.Proof.Worker
