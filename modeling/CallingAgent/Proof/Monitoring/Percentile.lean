import CallingAgent.Framework.Paging
import CallingAgent.Impl.Monitoring
import Mathlib.Algebra.Order.Field.Basic

/-!
# What a percentile is

The entry of a sorted list at `floor(n * p)`, or the last one, is a `p`-quantile
(`percentile_isQuantile`), and a higher one for a greater `p` (`percentile_mono`). So the
latencies of a snapshot are in order, between the extremes of its window
(`percentiles_quantiles`).
-/

namespace CallingAgent.Proof.Monitoring

open CallingAgent.Framework CallingAgent.Impl.Monitoring

/-- At most a part `p` of the values is below `v`, and at least such a part up to it. -/
structure IsQuantile (values : List ℚ) (p v : ℚ) : Prop where
  mem : v ∈ values
  below : (values.countP fun x => x < v : ℚ) ≤ p * values.length
  upTo : p * values.length ≤ (values.countP fun x => x ≤ v : ℚ)

variable {values : List ℚ} {p q v w : ℚ}

/-- The index, of a list that is not empty. -/
def index (values : List ℚ) (p : ℚ) : Nat := min (values.length - 1) ⌊values.length * p⌋₊

theorem index_lt (hne : values ≠ []) (p : ℚ) : index values p < values.length := by
  have := List.length_pos_iff.mpr hne
  unfold index
  omega

theorem percentile_eq_some : percentile values p = some v ↔
    ∃ h : index values p < values.length, values[index values p] = v := List.getElem?_eq_some_iff

theorem percentile_eq (hne : values ≠ []) (p : ℚ) :
    percentile values p = some (values.get ⟨index values p, index_lt hne p⟩) :=
  List.getElem?_eq_getElem (index_lt hne p)

/-- The index is not above `n * p`, and the next one is not below, as `p` is at most 1. -/
theorem index_bounds (values : List ℚ) (hp : 0 ≤ p) (hp1 : p ≤ 1) :
    (index values p : ℚ) ≤ p * values.length ∧ p * values.length ≤ (index values p : ℚ) + 1 := by
  have hpos : 0 ≤ (values.length : ℚ) * p := mul_nonneg (Nat.cast_nonneg _) hp
  have hfloor := Nat.floor_le hpos
  have hceil := Nat.lt_floor_add_one ((values.length : ℚ) * p)
  have hle : index values p ≤ ⌊(values.length : ℚ) * p⌋₊ := min_le_right _ _
  rw [mul_comm p]
  refine ⟨le_trans (Nat.cast_le.mpr hle) hfloor, ?_⟩
  rcases min_choice (values.length - 1) ⌊(values.length : ℚ) * p⌋₊ with h | h
  · have hn : values.length ≤ index values p + 1 := by
      rw [index, h]
      omega
    calc (values.length : ℚ) * p ≤ values.length * 1 := mul_le_mul_of_nonneg_left hp1 (Nat.cast_nonneg _)
      _ = values.length := mul_one _
      _ ≤ ((index values p + 1 : Nat) : ℚ) := Nat.cast_le.mpr hn
      _ = (index values p : ℚ) + 1 := Nat.cast_add_one _
  · rw [index, h]
    exact hceil.le

theorem percentile_isQuantile (hne : values ≠ []) (hsorted : values.Pairwise (· ≤ ·)) (hp : 0 ≤ p) (hp1 : p ≤ 1) :
    IsQuantile values p (values.get ⟨index values p, index_lt hne p⟩) := by
  have hlt := index_lt hne p
  obtain ⟨hlow, hhigh⟩ := index_bounds values hp hp1
  have hle : values.Pairwise fun a b => decide (a ≤ b) = true := hsorted.imp fun h => decide_eq_true h
  have hrefl : ∀ a : ℚ, (fun a b : ℚ => decide (a ≤ b)) a a = true := fun a => decide_eq_true le_rfl
  obtain ⟨hbelow, hupTo⟩ := countP_getElem hrefl hle hlt
  have hnot : (fun x => !decide (values[index values p] ≤ x)) = fun x => decide (x < values[index values p]) := by
    funext x
    rw [← decide_not, decide_eq_decide, not_le]
  rw [hnot] at hbelow
  refine ⟨List.getElem_mem hlt, le_trans (Nat.cast_le.mpr hbelow) hlow, hhigh.trans ?_⟩
  have hcast := (Nat.cast_le (α := ℚ)).mpr hupTo
  rwa [Nat.cast_add_one] at hcast

theorem index_mono (values : List ℚ) (hpq : p ≤ q) : index values p ≤ index values q := by
  have hmul : (values.length : ℚ) * p ≤ values.length * q := mul_le_mul_of_nonneg_left hpq (Nat.cast_nonneg _)
  exact min_le_min le_rfl (Nat.floor_le_floor hmul)

theorem getElem_le (hsorted : values.Pairwise (· ≤ ·)) {i j : Nat} (hij : i ≤ j) (hj : j < values.length) :
    values[i] ≤ values[j] := by
  rcases Nat.lt_or_eq_of_le hij with hlt | rfl
  · exact List.pairwise_iff_getElem.mp hsorted i j (by omega) hj hlt
  · exact le_rfl

theorem percentile_mono (hsorted : values.Pairwise (· ≤ ·)) (hpq : p ≤ q) (hv : percentile values p = some v)
    (hw : percentile values q = some w) : v ≤ w := by
  obtain ⟨hp, rfl⟩ := percentile_eq_some.mp hv
  obtain ⟨hq, rfl⟩ := percentile_eq_some.mp hw
  exact getElem_le hsorted (index_mono values hpq) hq

/-! ## Snapshots -/

/-- The percentiles of a snapshot of this window. -/
def InOrder (window : List Sample) (snapshot : MetricsSnapshot) : Prop :=
  ∃ fastest ∈ window, ∃ slowest ∈ window, ∃ p50 p95,
    (∀ s ∈ window, fastest.elapsedMs ≤ s.elapsedMs ∧ s.elapsedMs ≤ slowest.elapsedMs) ∧
      snapshot.p50LatencyMs = some p50 ∧ snapshot.p95LatencyMs = some p95 ∧
        fastest.elapsedMs ≤ p50 ∧ p50 ≤ p95 ∧ p95 ≤ slowest.elapsedMs

theorem latencies_perm (window : List Sample) : (latencies window).Perm (window.map Sample.elapsedMs) :=
  List.perm_insertionSort _ _

theorem latencies_sorted (window : List Sample) : (latencies window).Pairwise (· ≤ ·) :=
  List.pairwise_insertionSort _ _

theorem mem_latencies {window : List Sample} {v : ℚ} : v ∈ latencies window ↔ ∃ s ∈ window, s.elapsedMs = v := by
  rw [(latencies_perm window).mem_iff, List.mem_map]

theorem snapshot_inOrder (m : MetricsRegistry) (now : ℚ) (hne : (m.recent now).samples ≠ []) :
    InOrder (m.recent now).samples (m.snapshot now).2 := by
  have hsorted := latencies_sorted (m.recent now).samples
  have hlen : (latencies (m.recent now).samples).length = (m.recent now).samples.length :=
    (latencies_perm _).length_eq.trans (List.length_map _)
  have hpos : 0 < (latencies (m.recent now).samples).length := by
    rw [hlen]
    exact List.length_pos_iff.mpr hne
  have hlat : latencies (m.recent now).samples ≠ [] := List.length_pos_iff.mp hpos
  obtain ⟨fastest, hfastest, hlow⟩ := mem_latencies.mp (List.getElem_mem hpos)
  obtain ⟨slowest, hslowest, hhigh⟩ := mem_latencies.mp (List.getElem_mem (Nat.sub_one_lt_of_lt hpos))
  refine ⟨fastest, hfastest, slowest, hslowest, _, _, fun s hs => ?_, percentile_eq hlat _, percentile_eq hlat _, ?_, ?_, ?_⟩
  · obtain ⟨i, hi, e⟩ := List.mem_iff_getElem.mp (mem_latencies.mpr ⟨s, hs, rfl⟩)
    rw [hlow, hhigh, ← e]
    exact ⟨getElem_le hsorted (Nat.zero_le i) hi, getElem_le hsorted (by omega) _⟩
  · rw [hlow]
    exact getElem_le hsorted (Nat.zero_le _) _
  · exact getElem_le hsorted (index_mono _ (by norm_num)) _
  · rw [hhigh]
    exact getElem_le hsorted (Nat.le_sub_one_of_lt (index_lt hlat _)) _

/-- `_percentile` of a sorted list that is not empty is a quantile, and a higher one for a
greater `p`. In a snapshot the median is not above the 95th percentile, and both are between
the lowest and the highest latency of its window. -/
theorem percentiles_quantiles :
    (∀ (values : List ℚ) (p : ℚ), values ≠ [] → values.Pairwise (· ≤ ·) → 0 ≤ p → p ≤ 1 →
      ∃ v, percentile values p = some v ∧ IsQuantile values p v) ∧
    (∀ (values : List ℚ) (p q v w : ℚ), values.Pairwise (· ≤ ·) → 0 ≤ p → p ≤ q → q ≤ 1 →
      percentile values p = some v → percentile values q = some w → v ≤ w) ∧
    ∀ (m : MetricsRegistry) (now : ℚ),
      if (m.recent now).samples = [] then
        (m.snapshot now).2.p50LatencyMs = none ∧ (m.snapshot now).2.p95LatencyMs = none
      else InOrder (m.recent now).samples (m.snapshot now).2 := by
  refine ⟨fun values p hne hsorted hp hp1 => ?_, fun values p q v w hsorted _ hpq _ hv hw => ?_, fun m now => ?_⟩
  · exact ⟨_, percentile_eq hne p, percentile_isQuantile hne hsorted hp hp1⟩
  · exact percentile_mono hsorted hpq hv hw
  · split
    · rename_i hempty
      simp [MetricsRegistry.snapshot, hempty, latencies, percentile]
    · rename_i hne
      exact snapshot_inOrder m now hne

/-- The median of three values is the second. -/
theorem percentiles_quantiles_three : ∃ v, percentile [1, 2, 4] (1 / 2) = some v ∧ IsQuantile [1, 2, 4] (1 / 2) v :=
  percentiles_quantiles.1 [1, 2, 4] (1 / 2) (by simp) (by norm_num) (by norm_num) (by norm_num)

end CallingAgent.Proof.Monitoring
