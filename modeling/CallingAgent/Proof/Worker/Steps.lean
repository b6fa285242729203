import CallingAgent.Impl.Worker
import CallingAgent.Proof.Jobs.Rows

/-!
# What a step of the workers does

`WStep` lists what one step of the workers and the job API can do to the world
(`wStep`), and `since` is what the log says of a job since one run's claim of
it. The rows move as in `Proof.Jobs`: a step runs at most one action of the job
API.
-/

namespace CallingAgent.Proof.Worker

open CallingAgent.Framework CallingAgent.Impl CallingAgent.Impl.Worker

/-- The job a run has claimed and not yet reported. -/
def Phase.job? : Phase → Option CallJob
  | .claimed job => some job
  | .sending job _ => some job
  | .reporting job _ => some job
  | _ => none

/-- The request that the API has read for a report. -/
def Matches (job : CallJob) : Report → Jobs.Pending → Prop
  | .complete, .complete k _ => k = job.jobId
  | .fail body, .fail k _ _ b => k = job.jobId ∧ b = body
  | _, _ => False

/-- A job is being attempted. -/
def Processing (s : Jobs.State) (jobId : JobId) : Prop := ∃ r, s.job jobId = some r ∧ r.status = .processing

theorem isProcessing_iff {s : Jobs.State} {jobId : JobId} : s.isProcessing jobId = true ↔ Processing s jobId := by
  simp only [Jobs.State.isProcessing, Option.any_eq_true, beq_iff_eq]
  rfl

theorem processing_congr {s s' : Jobs.State} {jobId : JobId} (h : s'.job jobId = s.job jobId) :
    Processing s' jobId ↔ Processing s jobId := by
  unfold Processing; rw [h]

inductive WStep (w : World) (a : Action) : World → Prop
  | skip (ha : ∀ n, a = .update n → ∀ job report, w.phase n ≠ .reporting job report) : WStep w a w
  | outside {b : Jobs.Action} (ha : ∀ n, a ≠ .update n) (hb : Jobs.stmtOf w.api b = none)
      (hp : (Jobs.step w.api b).pending = w.api.pending) :
      WStep w a { w with api := Jobs.step w.api b }
  | reap (ha : a = .reap) :
      WStep w a
        { w with
          api := Jobs.step w.api .reap
          log := ((Jobs.reapStmt w.api.now).returning w.api.jobs.rows).map (fun r => .reaped r.jobId) ++ w.log }
  | claim {n : Nat} {jobId : JobId} {phase : Phase} (ha : ∀ n, a ≠ .update n) (hi : w.phase n = .idle)
      (hc : Jobs.claims jobId w.api (.claim jobId) = true)
      (hj : phase = .done ∨ ∃ job, phase = .claimed job ∧ job.jobId = jobId) :
      WStep w a
        { api := Jobs.step w.api (.claim jobId)
          phase := Function.update w.phase n phase
          log := .claimed jobId n :: w.log }
  | succeed {n : Nat} {job : CallJob} (ha : ∀ n, a ≠ .update n) (hp : w.phase n = .claimed job) :
      WStep w a { w.setPhase n (.sending job .complete) with log := .succeeded job.jobId n :: w.log }
  | fail {n : Nat} {job : CallJob} {body : Jobs.EventFailRequest} (ha : ∀ n, a ≠ .update n)
      (hp : w.phase n = .claimed job) : WStep w a (w.setPhase n (.sending job (.fail body)))
  | stop {n : Nat} (ha : ∀ n, a ≠ .update n) : WStep w a (w.setPhase n .done)
  | read {n : Nat} {job : CallJob} {report : Report} {x : Jobs.Pending} (ha : ∀ n, a ≠ .update n)
      (hp : w.phase n = .sending job report) (hx : Matches job report x) (hr : Processing w.api job.jobId) :
      WStep w a
        { w.setPhase n (.reporting job report) with
          api := { w.api with pending := Function.update w.api.pending n (some x) } }
  | update {n : Nat} {job : CallJob} {report : Report} (ha : a = .update n)
      (hp : w.phase n = .reporting job report) :
      WStep w a { w.setPhase n .done with api := Jobs.step w.api (.update n) }

theorem claimAnswer_eq_some {api : Jobs.State} {jobId : JobId} {job : CallJob}
    (h : claimAnswer api jobId = some job) :
    Jobs.claims jobId api (.claim jobId) = true ∧ job.jobId = jobId := by
  unfold claimAnswer at h
  have hm := List.mem_of_mem_head? h
  refine ⟨?_, ?_⟩
  · simp only [Jobs.claims, beq_self_eq_true, Bool.true_and, Bool.not_eq_true', List.isEmpty_eq_false_iff]
    exact List.ne_nil_of_mem hm
  · obtain ⟨r, hr, rfl⟩ := List.mem_map.mp hm
    have := (List.mem_filter.mp hr).2
    simp only [Jobs.claimStmt, Bool.and_eq_true, beq_iff_eq] at this
    exact this.1.1

/-- A report that the API reads: it is pending afterwards exactly if the job is
being attempted. -/
theorem read_cases (s : Jobs.State) (n : Nat) (job : CallJob) (report : Report) :
    (Processing s job.jobId ∧ ∃ x, Matches job report x ∧
      Jobs.step s (readAction n job report) = { s with pending := Function.update s.pending n (some x) }) ∨
    (s.isProcessing job.jobId = false ∧ Jobs.step s (readAction n job report) = s) := by
  cases hp : s.isProcessing job.jobId with
  | true =>
    left
    obtain ⟨r, hr, hs⟩ := isProcessing_iff.mp hp
    refine ⟨⟨r, hr, hs⟩, ?_⟩
    cases report with
    | complete =>
      refine ⟨.complete job.jobId s.now, rfl, ?_⟩
      simp only [readAction, Jobs.step, Jobs.State.read, hr, hs, if_true]
    | fail body =>
      refine ⟨.fail job.jobId s.now r body, ⟨rfl, rfl⟩, ?_⟩
      simp only [readAction, Jobs.step, Jobs.State.read, hr, hs, if_true]
  | false =>
    right
    refine ⟨rfl, ?_⟩
    have hn : ∀ next, s.read n job.jobId next = s := fun next => by
      unfold Jobs.State.read
      split
      · rename_i r hr
        split
        · rename_i hs
          rw [isProcessing_iff.mpr ⟨r, hr, hs⟩] at hp; cases hp
        · rfl
      · rfl
    cases report <;> exact hn _

theorem wStep (w : World) (a : Action) : WStep w a (step w a) := by
  cases a with
  | tick d => exact .outside (by simp) (b := .tick d) rfl rfl
  | addCall c => exact .outside (by simp) (b := .addCall c) rfl rfl
  | create jobId body =>
    refine .outside (by simp) (b := .create jobId body) rfl ?_
    simp only [Jobs.step]; split <;> rfl
  | reap => exact .reap rfl
  | claim n jobId answered =>
    simp only [step]
    split
    · rename_i hi
      unfold World.claim
      split
      · exact .stop (by simp)
      · rename_i job hc
        obtain ⟨hc, hj⟩ := claimAnswer_eq_some hc
        refine .claim (by simp) hi hc ?_
        split
        · exact .inr ⟨job, rfl, hj⟩
        · exact .inl rfl
    · exact .skip (by simp)
  | process n outcome =>
    simp only [step]
    split
    · rename_i hp; exact .succeed (by simp) hp
    · rename_i hp; exact .fail (by simp) hp
    · exact .stop (by simp)
    · exact .skip (by simp)
  | read n =>
    simp only [step]
    split
    · rename_i job report hp
      rcases read_cases w.api n job report with ⟨hr, x, hx, e⟩ | ⟨hr, e⟩
      · rw [e, isProcessing_iff.mpr hr]
        exact .read (by simp) hp hx hr
      · rw [e, hr]
        exact .stop (by simp)
    · exact .skip (by simp)
  | update n =>
    simp only [step]
    split
    · rename_i job report hp; exact .update rfl hp
    · rename_i hn
      refine .skip fun m e job report hm => ?_
      cases e; exact hn job report hm
  | lost n => exact .stop (by simp)

/-! ## The log since a run's claim -/

/-- What the log says since run `n` claimed job `jobId`. -/
def since (n : Nat) (jobId : JobId) (log : List Event) : List Event :=
  log.takeWhile fun e => e ≠ .claimed jobId n

theorem since_cons_of_ne {n : Nat} {jobId : JobId} {e : Event} {log : List Event}
    (h : e ≠ .claimed jobId n) : since n jobId (e :: log) = e :: since n jobId log := by
  simp [since, h]

@[simp] theorem since_cons_self (n : Nat) (jobId : JobId) (log : List Event) :
    since n jobId (.claimed jobId n :: log) = [] := by
  simp [since]

theorem since_append {n : Nat} {jobId : JobId} {es log : List Event}
    (h : ∀ e ∈ es, e ≠ .claimed jobId n) : since n jobId (es ++ log) = es ++ since n jobId log := by
  unfold since
  rw [List.takeWhile_append_of_pos fun e he => by simpa using h e he]

/-- Of two claims of a job, one is since the other. -/
theorem since_total {n m : Nat} {jobId : JobId} {log : List Event} (hn : .claimed jobId n ∈ log)
    (hm : .claimed jobId m ∈ log) (hne : n ≠ m) :
    .claimed jobId n ∈ since m jobId log ∨ .claimed jobId m ∈ since n jobId log := by
  induction log with
  | nil => cases hn
  | cons e log ih =>
    by_cases h₁ : e = .claimed jobId n
    · left
      rw [h₁, since_cons_of_ne (by simpa using hne)]
      exact List.mem_cons_self
    · by_cases h₂ : e = .claimed jobId m
      · right
        rw [h₂, since_cons_of_ne (by simpa using Ne.symm hne)]
        exact List.mem_cons_self
      · rw [since_cons_of_ne h₁, since_cons_of_ne h₂]
        have := ih ((List.mem_cons.mp hn).resolve_left (Ne.symm h₁))
          ((List.mem_cons.mp hm).resolve_left (Ne.symm h₂))
        exact this.imp (List.mem_cons_of_mem _) (List.mem_cons_of_mem _)

end CallingAgent.Proof.Worker
