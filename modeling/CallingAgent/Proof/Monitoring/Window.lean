import CallingAgent.Framework.Window
import CallingAgent.Impl.Monitoring

/-!
# What a snapshot counts

The deque loses samples in two ways, one when it is full and one when it is read,
and a snapshot counts what is left. `World.Inv`: the deque retains every suffix of
all samples ever recorded that has at most `max_samples` elements, all inside
the window. The window only moves forward, so what was dropped stays outside.
-/

namespace CallingAgent.Proof.Monitoring

open CallingAgent.Framework CallingAgent.Impl.Monitoring

/-- The samples a snapshot is about, apart from being the most recent ones. -/
def InWindow (maxSamples : Nat) (cutoff : ℚ) (zs : List Sample) : Prop :=
  zs.length ≤ maxSamples ∧ ∀ s ∈ zs, cutoff ≤ s.time

theorem InWindow.mono {n : Nat} {c c' : ℚ} {zs : List Sample} (hc : c ≤ c') (h : InWindow n c' zs) :
    InWindow n c zs :=
  ⟨h.1, fun s hs => hc.trans (h.2 s hs)⟩

theorem InWindow.of_concat {n : Nat} {c : ℚ} {zs : List Sample} {x : Sample} (h : InWindow n c (zs ++ [x])) :
    InWindow n c zs := by
  obtain ⟨hlen, hmem⟩ := h
  rw [List.length_append] at hlen
  exact ⟨by omega, fun s hs => hmem s (List.mem_append_left _ hs)⟩

/-- `all` is what was ever recorded. -/
structure Inv (windowSeconds : ℚ) (maxSamples : Nat) (w : World) (all : List Sample) : Prop where
  window : w.registry.windowSeconds = windowSeconds
  max : w.registry.maxSamples = maxSamples
  sorted : all.Pairwise fun s t => s.time ≤ t.time
  past : ∀ s ∈ all, s.time ≤ w.now
  retains : Retains (InWindow maxSamples (w.now - windowSeconds)) all w.registry.samples

variable {windowSeconds : ℚ} {maxSamples : Nat} {w : World} {all : List Sample}

/-- Once the deque is trimmed, all that is left is in the window: it is in order
of time. -/
theorem recent_inWindow (hI : Inv windowSeconds maxSamples w all) :
    InWindow maxSamples (w.now - windowSeconds) (w.registry.recent w.now).samples := by
  have hb := (w.registry.recent w.now).bounded
  have hsorted := hI.sorted.sublist
    ((List.dropWhile_suffix fun s => decide (s.time < w.now - w.registry.windowSeconds)).trans
      hI.retains.suffix).sublist
  refine ⟨hI.max ▸ hb, fun s hs => ?_⟩
  simp only [MetricsRegistry.recent, hI.window] at hs hsorted
  -- the first entry left is not older than the cutoff, and the others are no older than it
  match hd : w.registry.samples.dropWhile fun s => decide (s.time < w.now - windowSeconds) with
  | [] => simp [hd] at hs
  | x :: xs =>
    have hx : w.now - windowSeconds ≤ x.time := by
      have := List.dropWhile_get_zero_not (fun s : Sample => decide (s.time < w.now - windowSeconds))
        w.registry.samples (by rw [hd]; simp)
      simpa [hd] using this
    rw [hd] at hs hsorted
    rcases List.mem_cons.mp hs with rfl | hs
    · exact hx
    · exact hx.trans ((List.pairwise_cons.mp hsorted).1 s hs)

theorem recent_retains (hI : Inv windowSeconds maxSamples w all) :
    Retains (InWindow maxSamples (w.now - windowSeconds)) all (w.registry.recent w.now).samples := by
  refine hI.retains.dropWhile fun zs hz s hs => ?_
  rw [hI.window]
  simpa using hz.2 s hs

/-- What one call does to the deque and to all samples recorded. -/
theorem Inv.step (hI : Inv windowSeconds maxSamples w all) (a : Action) :
    Inv windowSeconds maxSamples (step w a) (all ++ recorded w a) := by
  cases a with
  | tick d =>
    have hd : w.now ≤ w.now + d := le_add_of_nonneg_right d.coe_nonneg
    simp only [recorded, List.append_nil]
    exact ⟨hI.window, hI.max, hI.sorted, fun s hs => (hI.past s hs).trans hd,
      hI.retains.mono fun zs hz => hz.mono (sub_le_sub_right hd _)⟩
  | record statusCode elapsedMs =>
    have hretains := hI.retains.rtake_concat ⟨w.now, statusCode, elapsedMs⟩
      (fun zs hz => hz.1) (fun zs hz => hz.of_concat)
    refine ⟨hI.window, hI.max, ?_, ?_, ?_⟩
    · exact List.pairwise_append.mpr
        ⟨hI.sorted, List.pairwise_singleton _ _, fun s hs t ht => by
          rw [List.mem_singleton.mp ht]; exact hI.past s hs⟩
    · intro s hs
      rcases List.mem_append.mp hs with hs | hs
      · exact hI.past s hs
      · rw [List.mem_singleton.mp hs]; exact le_refl w.now
    · simpa only [Impl.Monitoring.step, MetricsRegistry.record, recorded, hI.max] using hretains
  | snapshot =>
    simp only [recorded, List.append_nil]
    exact ⟨hI.window, hI.max, hI.sorted, hI.past, recent_retains hI⟩

theorem inv_run (windowSeconds : ℚ) (maxSamples : Nat) (now : ℚ) (as : List Action) :
    Inv windowSeconds maxSamples (run step (World.init windowSeconds maxSamples now) as)
      (collect step recorded (World.init windowSeconds maxSamples now) as) := by
  induction as using List.reverseRecOn with
  | nil => exact ⟨rfl, rfl, List.Pairwise.nil, fun s hs => absurd hs List.not_mem_nil, Retains.nil⟩
  | append_singleton as a ih => simpa using ih.step a

theorem recent_isLongestSuffix (hI : Inv windowSeconds maxSamples w all) :
    IsLongestSuffix (InWindow maxSamples (w.now - windowSeconds)) all (w.registry.recent w.now).samples :=
  (recent_retains hI).isLongestSuffix (recent_inWindow hI)

/-- A call but a snapshot reads nothing but the clock for what is compared here. -/
theorem step_congr {w w' : World} (hnow : w.now = w'.now) (a : Action) :
    (step w a).now = (step w' a).now ∧ recorded w a = recorded w' a := by
  cases a <;> simp [step, recorded, hnow]

/-- Snapshots change neither the clock nor what is recorded. -/
theorem run_filter_snapshot (w : World) (as : List Action) :
    (run step w (as.filter fun a => !a.isSnapshot)).now = (run step w as).now ∧
      collect step recorded w (as.filter fun a => !a.isSnapshot) = collect step recorded w as := by
  induction as using List.reverseRecOn with
  | nil => exact ⟨rfl, rfl⟩
  | append_singleton as a ih =>
    obtain ⟨hnow, hall⟩ := ih
    rw [List.filter_append, run_concat, collect_concat]
    cases ha : a.isSnapshot with
    | false =>
      obtain ⟨hnow', hall'⟩ := step_congr hnow a
      rw [List.filter_singleton, ha, Bool.not_false, cond_true, run_concat, collect_concat]
      exact ⟨hnow', by rw [hall, hall']⟩
    | true =>
      rw [List.filter_singleton, ha, Bool.not_true, cond_false, List.append_nil]
      cases a with
      | snapshot => exact ⟨hnow, hall.trans (List.append_nil _).symm⟩
      | tick d => cases ha
      | record statusCode elapsedMs => cases ha

/-- Whatever calls were made before, a snapshot counts the longest suffix of all
samples ever recorded that has at most `max_samples` elements, none of them
older than the window; and it is the snapshot there would be had none been
taken before. -/
theorem snapshot_eq_window (windowSeconds : ℚ) (maxSamples : Nat) (now : ℚ) (as : List Action) :
    let w := run step (World.init windowSeconds maxSamples now) as
    let all := collect step recorded (World.init windowSeconds maxSamples now) as
    let w' := run step (World.init windowSeconds maxSamples now) (as.filter fun a => !a.isSnapshot)
    (∃ zs, IsLongestSuffix (fun zs => zs.length ≤ maxSamples ∧ ∀ s ∈ zs, w.now - windowSeconds ≤ s.time) all zs ∧
      (w.registry.recent w.now).samples = zs ∧
      (w.registry.snapshot w.now).2 =
        { windowSeconds := windowSeconds
          requestCount := zs.length
          errorCount := (zs.filter fun s => 500 ≤ s.statusCode).length
          errorRate := if zs = [] then 0 else (zs.filter fun s => 500 ≤ s.statusCode).length / zs.length
          p50LatencyMs := percentile ((zs.map Sample.elapsedMs).insertionSort (· ≤ ·)) (1 / 2)
          p95LatencyMs := percentile ((zs.map Sample.elapsedMs).insertionSort (· ≤ ·)) (95 / 100) }) ∧
    (w'.registry.snapshot w'.now).2 = (w.registry.snapshot w.now).2 := by
  intro w all w'
  have hI := inv_run windowSeconds maxSamples now as
  obtain ⟨hnow, hall⟩ := run_filter_snapshot (World.init windowSeconds maxSamples now) as
  have hI' := inv_run windowSeconds maxSamples now (as.filter fun a => !a.isSnapshot)
  have hlong := recent_isLongestSuffix hI
  have hlong' := recent_isLongestSuffix hI'
  refine ⟨⟨_, hlong, rfl, ?_⟩, ?_⟩
  · simp only [MetricsRegistry.snapshot, errors, latencies, List.countP_eq_length_filter, ne_eq,
      List.length_eq_zero_iff, ite_not]
    rw [show w.registry.windowSeconds = windowSeconds from hI.window]
  · rw [hnow, hall] at hlong'
    have hsame := hlong'.unique hlong
    have hw : w'.now = w.now := hnow
    simp only [MetricsRegistry.snapshot]
    rw [hw, show w'.registry.windowSeconds = windowSeconds from hI'.window,
      show w.registry.windowSeconds = windowSeconds from hI.window,
      show (w'.registry.recent w.now).samples = (w.registry.recent w.now).samples from hsame]

end CallingAgent.Proof.Monitoring
