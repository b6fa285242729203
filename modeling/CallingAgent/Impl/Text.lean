import Mathlib.Data.List.DropRight
import CallingAgent.Impl.CallerRequest

/-!
# Methods of `str`

Python's, as far as several services call them.
-/

namespace CallingAgent.Impl.Text

open CallingAgent.Impl.CallerRequest

/-- `s.strip()`. -/
def strip (s : String) : String := String.ofList ((s.toList.dropWhile isSpace).rdropWhile isSpace)

/-- `s[:n]`. -/
def upTo (n : Nat) (s : String) : String := String.ofList (s.toList.take n)

theorem toList_strip (s : String) : (strip s).toList = (s.toList.dropWhile isSpace).rdropWhile isSpace :=
  String.toList_ofList

/-- Nothing is left exactly of a text that is blank. -/
theorem strip_eq_empty {s : String} : strip s = "" ↔ s.toList.all isSpace = true := by
  rw [← String.toList_inj, toList_strip, String.toList_empty, List.rdropWhile_eq_nil_iff, List.all_eq_true]
  constructor
  · intro h c hc
    rcases List.mem_append.mp (List.takeWhile_append_dropWhile (p := isSpace) (l := s.toList) ▸ hc) with hc | hc
    · exact List.mem_takeWhile_imp hc
    · exact h c hc
  · intro h c hc
    exact h c ((List.dropWhile_sublist _).subset hc)

/-- What is left has no blank at either end. -/
theorem strip_strip (s : String) : strip (strip s) = strip s := by
  have hhead : ∀ l : List Char, (∀ c, l.head? = some c → isSpace c = false) → l.dropWhile isSpace = l := by
    intro l hl
    cases l with
    | nil => rfl
    | cons c l => rw [List.dropWhile_cons_of_neg]; simp [hl c rfl]
  have hfirst : ∀ c, (strip s).toList.head? = some c → isSpace c = false := by
    intro c hc
    rw [toList_strip] at hc
    obtain ⟨t, ht⟩ := List.rdropWhile_prefix isSpace (l := s.toList.dropWhile isSpace)
    have hd := congrArg List.head? ht
    rw [List.head?_append, hc, Option.some_or] at hd
    have hnot := List.head?_dropWhile_not isSpace s.toList
    rw [← hd] at hnot
    simpa using hnot
  refine String.toList_inj.mp ?_
  rw [toList_strip (strip s), hhead _ hfirst, toList_strip, List.rdropWhile_idempotent]

end CallingAgent.Impl.Text
