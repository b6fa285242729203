import Mathlib.Algebra.Order.Floor.Semiring
import Mathlib.Data.List.DropRight
import Mathlib.Data.List.Sort
import Mathlib.Data.NNRat.Defs
import Mathlib.Data.Rat.Floor
import CallingAgent.Framework.Run

/-!
# `services/api/src/monitoring.py`: `MetricsRegistry`

The rolling window of recent requests. Times and latencies are rational numbers,
so that `error_rate` is an exact ratio; `time.monotonic()` is the clock of the
world the registry is in, which every call reads once. The deque holds at most
`max_samples` entries: adding one to a full deque drops the oldest.
-/

namespace CallingAgent.Impl.Monitoring

open CallingAgent.Framework

/-- `_Sample`. `time` is its field `at`. -/
structure Sample where
  time : ℚ
  statusCode : Nat
  elapsedMs : ℚ
  deriving DecidableEq

structure MetricsRegistry where
  windowSeconds : ℚ
  maxSamples : Nat
  samples : List Sample
  /-- `deque(maxlen=max_samples)`. -/
  bounded : samples.length ≤ maxSamples

structure MetricsSnapshot where
  windowSeconds : ℚ
  requestCount : Nat
  errorCount : Nat
  errorRate : ℚ
  p50LatencyMs : Option ℚ
  p95LatencyMs : Option ℚ
  deriving DecidableEq

/-- `_percentile`. `int` rounds towards zero, as `floor` does on what is not
negative; an empty list has no entry at the index. -/
def percentile (sortedValues : List ℚ) (p : ℚ) : Option ℚ :=
  sortedValues[min (sortedValues.length - 1) ⌊sortedValues.length * p⌋₊]?

namespace MetricsRegistry

/-- `__init__`. -/
def init (windowSeconds : ℚ) (maxSamples : Nat) : MetricsRegistry where
  windowSeconds := windowSeconds
  maxSamples := maxSamples
  samples := []
  bounded := Nat.zero_le _

def record (m : MetricsRegistry) (now : ℚ) (statusCode : Nat) (elapsedMs : ℚ) : MetricsRegistry where
  windowSeconds := m.windowSeconds
  maxSamples := m.maxSamples
  samples := (m.samples ++ [Sample.mk now statusCode elapsedMs]).rtake m.maxSamples
  bounded := by
    rw [List.rtake, List.length_drop]
    omega

/-- `_recent`: the deque is trimmed from the left, and what is left is the
answer. -/
def recent (m : MetricsRegistry) (now : ℚ) : MetricsRegistry where
  windowSeconds := m.windowSeconds
  maxSamples := m.maxSamples
  samples := m.samples.dropWhile fun s => s.time < now - m.windowSeconds
  bounded := (List.dropWhile_suffix _).length_le.trans m.bounded

end MetricsRegistry

/-- `sum(1 for s in recent if s.status_code >= 500)`. -/
def errors (recent : List Sample) : Nat := recent.countP fun s => 500 ≤ s.statusCode

/-- `sorted(s.elapsed_ms for s in recent)`. -/
def latencies (recent : List Sample) : List ℚ := (recent.map Sample.elapsedMs).insertionSort (· ≤ ·)

/-- The registry after `snapshot` and its answer. -/
def MetricsRegistry.snapshot (m : MetricsRegistry) (now : ℚ) : MetricsRegistry × MetricsSnapshot :=
  let m' := m.recent now
  let total := m'.samples.length
  let errs := errors m'.samples
  (m', { windowSeconds := m.windowSeconds
         requestCount := total
         errorCount := errs
         errorRate := if total ≠ 0 then errs / total else 0
         p50LatencyMs := percentile (latencies m'.samples) (1 / 2)
         p95LatencyMs := percentile (latencies m'.samples) (95 / 100) })

/-! ## A registry and its clock -/

structure World where
  now : ℚ
  registry : MetricsRegistry

def World.init (windowSeconds : ℚ) (maxSamples : Nat) (now : ℚ) : World where
  now := now
  registry := MetricsRegistry.init windowSeconds maxSamples

inductive Action
  /-- The clock is monotonic. -/
  | tick (d : ℚ≥0)
  | record (statusCode : Nat) (elapsedMs : ℚ)
  | snapshot

def Action.isSnapshot : Action → Bool
  | .snapshot => true
  | _ => false

def step (w : World) : Action → World
  | .tick d => { w with now := w.now + d }
  | .record statusCode elapsedMs => { w with registry := w.registry.record w.now statusCode elapsedMs }
  | .snapshot => { w with registry := (w.registry.snapshot w.now).1 }

/-- What a call adds to the samples ever recorded. -/
def recorded (w : World) : Action → List Sample
  | .record statusCode elapsedMs => [⟨w.now, statusCode, elapsedMs⟩]
  | _ => []

end CallingAgent.Impl.Monitoring
