import Mathlib.Data.List.Infix

/-!
# Substrings

Python's search and replacement in a text, on lists of characters.

* `replaceFirst`: `str.replace` with a count of one; it changes one occurrence, if there
  is any (`replaceFirst_of_infix`, `replaceFirst_eq_self_iff`);
* `index`: `str.index`; of a text whose first character is in it only once, the first
  occurrence is the one that is put after a text without it (`index_append`).
-/

namespace CallingAgent.Framework

variable {α : Type} [DecidableEq α] {old new s t : List α}

/-- `s.replace(old, new, 1)`, of an `old` that is not empty. -/
def replaceFirst (old new : List α) : List α → List α
  | [] => []
  | a :: s => if old.isPrefixOf (a :: s) then new ++ (a :: s).drop old.length else a :: replaceFirst old new s

theorem replaceFirst_cons {a : α} (h : ¬old <+: a :: s) : replaceFirst old new (a :: s) = a :: replaceFirst old new s := by
  rw [replaceFirst, if_neg (by rw [List.isPrefixOf_iff_prefix]; exact h)]

theorem replaceFirst_append (hold : old ≠ []) (s : List α) : replaceFirst old new (old ++ s) = new ++ s := by
  cases old with
  | nil => exact absurd rfl hold
  | cons a old =>
    have hprefix : (a :: old).isPrefixOf (a :: (old ++ s)) = true := List.isPrefixOf_iff_prefix.mpr (List.prefix_append _ s)
    rw [List.cons_append, replaceFirst, if_pos hprefix, ← List.cons_append, List.drop_left]

/-- No occurrence begins in `front`. -/
theorem replaceFirst_append_right {front : List α} (h : ∀ t ∈ front.tails, t ≠ [] → ¬old <+: t ∧ ¬t <+: old) (s : List α) :
    replaceFirst old new (front ++ s) = front ++ replaceFirst old new s := by
  induction front with
  | nil => rfl
  | cons a front ih =>
    rw [List.tails, List.forall_mem_cons] at h
    have hnot : ¬old <+: a :: (front ++ s) := by
      intro hold
      have hs : a :: front <+: a :: (front ++ s) := List.prefix_append (a :: front) s
      have hor : old <+: a :: front ∨ a :: front <+: old := List.prefix_or_prefix_of_prefix hold hs
      have hneither := h.1 (List.cons_ne_nil a front)
      exact hor.elim hneither.1 hneither.2
    rw [List.cons_append, replaceFirst_cons hnot, ih h.2]
    rfl

theorem replaceFirst_eq_self (h : ¬old <:+: s) : replaceFirst old new s = s := by
  induction s with
  | nil => rfl
  | cons a s ih =>
    rw [List.infix_cons_iff, not_or] at h
    rw [replaceFirst_cons h.1, ih h.2]

/-- One occurrence is replaced. -/
theorem replaceFirst_of_infix (new : List α) (hold : old ≠ []) (h : old <:+: s) :
    ∃ before after, s = before ++ old ++ after ∧ replaceFirst old new s = before ++ new ++ after := by
  induction s with
  | nil => exact absurd (List.infix_nil.mp h) hold
  | cons a s ih =>
    by_cases hprefix : old <+: a :: s
    · obtain ⟨after, e⟩ := hprefix
      exact ⟨[], after, e.symm, by rw [← e, replaceFirst_append hold]; rfl⟩
    · obtain ⟨before, after, e, e'⟩ := ih ((List.infix_cons_iff.mp h).resolve_left hprefix)
      refine ⟨a :: before, after, by rw [e]; rfl, ?_⟩
      rw [replaceFirst_cons hprefix, e']
      rfl

theorem infix_replaceFirst (hold : old ≠ []) (h : old <:+: s) : new <:+: replaceFirst old new s := by
  obtain ⟨before, after, -, e⟩ := replaceFirst_of_infix new hold h
  rw [e]
  exact ⟨before, after, rfl⟩

/-- A replacement by a longer text. -/
theorem length_lt_replaceFirst (hlt : old.length < new.length) (hold : old ≠ []) (h : old <:+: s) :
    s.length < (replaceFirst old new s).length := by
  obtain ⟨before, after, e, e'⟩ := replaceFirst_of_infix new hold h
  rw [e', e]
  simp only [List.length_append]
  omega

theorem length_le_replaceFirst (hlt : old.length < new.length) (hold : old ≠ []) (s : List α) :
    s.length ≤ (replaceFirst old new s).length := by
  by_cases h : old <:+: s
  · exact Nat.le_of_lt (length_lt_replaceFirst hlt hold h)
  · exact Nat.le_of_eq (by rw [replaceFirst_eq_self h])

theorem replaceFirst_eq_self_iff (hlt : old.length < new.length) (hold : old ≠ []) :
    replaceFirst old new s = s ↔ ¬old <:+: s :=
  ⟨fun e h => Nat.lt_irrefl s.length (by simpa only [e] using length_lt_replaceFirst hlt hold h), replaceFirst_eq_self⟩

/-- `s.index(sub)`, or `none` for its `ValueError`. -/
def index (sub : List α) : List α → Option Nat
  | [] => if sub = [] then some 0 else none
  | a :: s => if sub.isPrefixOf (a :: s) then some 0 else (index sub s).map (· + 1)

omit [DecidableEq α] in
/-- A text without `c` is at the beginning of what comes before `c`, or not at all. -/
theorem prefix_append_cons {p : List α} {c : α} (hc : c ∉ p) : p <+: s ++ c :: t ↔ p <+: s := by
  constructor
  · intro h
    obtain hps | ⟨u, rfl⟩ := List.prefix_or_prefix_of_prefix h (List.prefix_append s (c :: t))
    · exact hps
    · cases u with
      | nil => exact (List.append_nil s).symm ▸ List.prefix_refl s
      | cons a u =>
        rw [List.prefix_append_right_inj, List.cons_prefix_cons] at h
        exact absurd (h.1 ▸ List.mem_append_right s List.mem_cons_self) hc
  · intro h
    exact h.trans (List.prefix_append s _)

theorem index_append {sub : List α} {c : α} (hc : c ∉ sub) (h : ¬c :: sub <:+: s) :
    index (c :: sub) (s ++ c :: (sub ++ t)) = some s.length := by
  induction s with
  | nil =>
    have hprefix : (c :: sub).isPrefixOf (c :: (sub ++ t)) = true :=
      List.isPrefixOf_iff_prefix.mpr (List.prefix_append (c :: sub) t)
    rw [List.nil_append, index, if_pos hprefix]
    rfl
  | cons a s ih =>
    rw [List.infix_cons_iff, not_or] at h
    have hnot : (c :: sub).isPrefixOf (a :: (s ++ c :: (sub ++ t))) = false := by
      rw [Bool.eq_false_iff, ne_eq, List.isPrefixOf_iff_prefix, List.cons_prefix_cons, prefix_append_cons hc]
      exact fun hp => h.1 (List.cons_prefix_cons.mpr hp)
    rw [List.cons_append, index, hnot, ih h.2]
    rfl

end CallingAgent.Framework
