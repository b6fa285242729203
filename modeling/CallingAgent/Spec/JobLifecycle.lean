import CallingAgent.Impl.Jobs

/-!
# The life of a job

What `call_jobs` is for: a job is queued, then attempted (`processing`); an
attempt ends `completed`, `failed` or `retrying`, and only a retrying job is
attempted again. `Path a l b` is a life from status `a` to status `b` with the
moves `l`. An attempt that is over without a new one has made exactly one move
(`Path.attempt`).
-/

namespace CallingAgent.Spec.JobLifecycle

open CallingAgent.Impl CallingAgent.Impl.Jobs

/-- The moves of a job. -/
def edge : JobStatus → JobStatus → Bool
  | .queued, .processing => true
  | .processing, .completed => true
  | .processing, .retrying => true
  | .processing, .failed => true
  | .retrying, .processing => true
  | _, _ => false

/-- A path of moves from one status to another. -/
inductive Path : JobStatus → List (JobStatus × JobStatus) → JobStatus → Prop
  | nil (a : JobStatus) : Path a [] a
  | cons {a b c : JobStatus} {l : List (JobStatus × JobStatus)} :
      edge a b = true → Path b l c → Path a ((a, b) :: l) c

theorem Path.append {a b c : JobStatus} {l m : List (JobStatus × JobStatus)} (h : Path a l b)
    (hm : Path b m c) : Path a (l ++ m) c := by
  induction h with
  | nil => exact hm
  | cons he _ ih => exact .cons he (ih hm)

theorem Path.single {a b : JobStatus} (h : edge a b = true) : Path a [(a, b)] b := .cons h (.nil b)

/-- An attempt, up to the next one: it is going on, or has made one move. -/
theorem Path.attempt {b : JobStatus} {l : List (JobStatus × JobStatus)} (h : Path .processing l b)
    (hn : ∀ m ∈ l, m.2 ≠ .processing) : l = [] ∧ b = .processing ∨ l = [(.processing, b)] := by
  cases h with
  | nil => exact .inl ⟨rfl, rfl⟩
  | @cons _ c _ l he h =>
    right
    cases h with
    | nil => rfl
    | @cons _ d _ l hd h =>
      -- The second move can only be the next attempt: `retrying` to `processing`.
      have hp : d ≠ .processing := hn (c, d) (by simp)
      cases c <;> cases d <;> simp_all [edge]

end CallingAgent.Spec.JobLifecycle
