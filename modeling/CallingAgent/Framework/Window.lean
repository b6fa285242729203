import Mathlib.Data.List.DropRight
import Mathlib.Data.List.Infix

/-!
# Longest suffixes

A log that only grows at its end is often kept only in part: its oldest entries
are dropped as they are no longer needed. What is wanted of it is the longest
suffix of all that was ever logged that meets some `P`, where the kept part may
be longer.

* `IsLongestSuffix P xs ys`: `ys` is the longest suffix of `xs` with `P`;
* `Retains P xs ys`: `ys` is a suffix of `xs` that has every suffix with `P`;
* `Retains.mono`, `Retains.rtake_concat`, `Retains.dropWhile`: what may be
  dropped when `P` gets stronger, when an entry is added and when the log is
  read;
* `Retains.isLongestSuffix`: a retained suffix with `P` is the longest.
-/

namespace CallingAgent.Framework

variable {α : Type} {P Q : List α → Prop} {xs ys zs : List α}

structure IsLongestSuffix (P : List α → Prop) (xs ys : List α) : Prop where
  suffix : ys <:+ xs
  holds : P ys
  longest : ∀ zs, zs <:+ xs → P zs → zs.length ≤ ys.length

/-- There is at most one. -/
theorem IsLongestSuffix.unique (hy : IsLongestSuffix P xs ys) (hz : IsLongestSuffix P xs zs) :
    ys = zs := by
  have hle := hz.longest ys hy.suffix hy.holds
  have hge := hy.longest zs hz.suffix hz.holds
  exact (List.suffix_of_suffix_length_le hy.suffix hz.suffix hle).eq_of_length (by omega)

/-- `ys` is a suffix of `xs` that has every suffix of `xs` with `P`. -/
structure Retains (P : List α → Prop) (xs ys : List α) : Prop where
  suffix : ys <:+ xs
  has : ∀ zs, zs <:+ xs → P zs → zs <:+ ys

theorem Retains.nil : Retains P ([] : List α) [] :=
  ⟨List.suffix_refl _, fun _ hz _ => hz⟩

theorem Retains.mono (h : Retains P xs ys) (hPQ : ∀ zs, Q zs → P zs) : Retains Q xs ys :=
  ⟨h.suffix, fun zs hz hQ => h.has zs hz (hPQ zs hQ)⟩

theorem Retains.isLongestSuffix (h : Retains P xs ys) (hP : P ys) : IsLongestSuffix P xs ys :=
  ⟨h.suffix, hP, fun zs hz hQ => (h.has zs hz hQ).length_le⟩

/-- Only the last `n` entries are kept, and no suffix with `P` is longer. -/
theorem Retains.rtake_concat {n : Nat} (h : Retains P xs ys) (x : α)
    (hn : ∀ zs, P zs → zs.length ≤ n) (hP : ∀ zs, P (zs ++ [x]) → P zs) :
    Retains P (xs ++ [x]) ((ys ++ [x]).rtake n) := by
  have hys : ys ++ [x] <:+ xs ++ [x] := (List.suffix_append_inj_of_length_eq rfl).mpr ⟨h.suffix, rfl⟩
  have hr : (ys ++ [x]).rtake n <:+ ys ++ [x] := List.drop_suffix _ _
  refine ⟨hr.trans hys, fun zs hz hPz => ?_⟩
  have hlen := hn zs hPz
  have hz' : zs <:+ ys ++ [x] := by
    rcases List.suffix_concat_iff.mp hz with rfl | ⟨us, rfl, hus⟩
    · exact List.nil_suffix
    · exact (List.suffix_append_inj_of_length_eq rfl).mpr ⟨h.has us hus (hP us hPz), rfl⟩
  refine List.suffix_of_suffix_length_le hz' hr ?_
  have := hz'.length_le
  simp only [List.rtake, List.length_drop]
  omega

/-- A suffix none of whose entries meet `p` outlives dropping those that do. -/
theorem suffix_dropWhile {p : α → Bool} (hz : zs <:+ ys) (hp : ∀ z ∈ zs, p z = false) :
    zs <:+ ys.dropWhile p := by
  induction ys with
  | nil => simpa using hz
  | cons y ys ih =>
    rw [List.dropWhile_cons]
    split
    · rename_i hy
      rcases List.suffix_cons_iff.mp hz with rfl | hz
      · exact absurd hy (by simp [hp y List.mem_cons_self])
      · exact ih hz
    · exact hz

theorem Retains.dropWhile {p : α → Bool} (h : Retains P xs ys)
    (hp : ∀ zs, P zs → ∀ z ∈ zs, p z = false) : Retains P xs (ys.dropWhile p) :=
  ⟨(List.dropWhile_suffix p).trans h.suffix,
    fun zs hz hP => suffix_dropWhile (h.has zs hz hP) (hp zs hP)⟩

end CallingAgent.Framework
