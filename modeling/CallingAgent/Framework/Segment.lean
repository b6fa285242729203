import Mathlib.Data.List.Infix
import CallingAgent.Framework.Run

/-!
# Cutting a stream into segments

Items arrive one at a time. Outside a segment items are skipped, until one
starts a segment; a segment is closed by the item with which it is over.

* `IsSegment`: a run of items that starts with such an item and is not over
  before its last one;
* `IsSegment.exists_concat`: the segment up to its last item;
* `Segments`: what has arrived so far, cut up; `push` adds an item;
* `Valid.push`, `valid_run`, `items_run`: nothing is lost, reordered or repeated,
  and every closed segment is over.
-/

namespace CallingAgent.Framework

variable {α : Type}

/-- `xs` begins with an item that starts a segment, and is not over before its
last item. -/
structure IsSegment (starts : α → Bool) (closes : List α → Bool) (xs : List α) : Prop where
  head : ∃ x rest, xs = x :: rest ∧ starts x = true
  notOver : ∀ ys, ys <+: xs → ys ≠ [] → ys ≠ xs → closes ys = false

/-- All of a segment but its last item is not over. -/
theorem IsSegment.exists_concat {starts : α → Bool} {closes : List α → Bool} {xs : List α}
    (h : IsSegment starts closes xs) : ∃ ys x, xs = ys ++ [x] ∧ (ys = [] ∨ closes ys = false) := by
  obtain ⟨y, rest, e, -⟩ := h.head
  have hne : xs ≠ [] := by rw [e]; exact List.cons_ne_nil _ _
  obtain ⟨ys, x, rfl⟩ := List.eq_nil_or_concat' xs |>.resolve_left hne
  refine ⟨ys, x, rfl, ?_⟩
  by_cases hys : ys = []
  · exact .inl hys
  · exact .inr (h.notOver ys (List.prefix_append _ _) hys (by simp))

/-- The closed segments, each with the items skipped before it, those skipped
since, and the segment that is not over yet. -/
structure Segments (α : Type) where
  closed : List (List α × List α)
  skipped : List α
  current : List α

namespace Segments

def empty : Segments α := ⟨[], [], []⟩

def push (starts : α → Bool) (closes : List α → Bool) (s : Segments α) (x : α) : Segments α :=
  if s.current.isEmpty && !starts x then { s with skipped := s.skipped ++ [x] }
  else if closes (s.current ++ [x]) then ⟨s.closed ++ [(s.skipped, s.current ++ [x])], [], []⟩
  else { s with current := s.current ++ [x] }

/-- All that has arrived. -/
def items (s : Segments α) : List α := s.closed.flatMap (fun c => c.1 ++ c.2) ++ s.skipped ++ s.current

/-- All but what was skipped. -/
def kept (s : Segments α) : List α := s.closed.flatMap Prod.snd ++ s.current

structure Valid (starts : α → Bool) (closes : List α → Bool) (s : Segments α) : Prop where
  closed : ∀ c ∈ s.closed, (∀ x ∈ c.1, starts x = false) ∧ IsSegment starts closes c.2 ∧ closes c.2 = true
  skipped : ∀ x ∈ s.skipped, starts x = false
  current : s.current = [] ∨ IsSegment starts closes s.current ∧ closes s.current = false

variable {starts : α → Bool} {closes : List α → Bool} {s : Segments α} {x : α}

/-- The three things an item can do. -/
theorem push_cases (starts : α → Bool) (closes : List α → Bool) (s : Segments α) (x : α) :
    (s.current = [] ∧ starts x = false ∧ s.push starts closes x = { s with skipped := s.skipped ++ [x] }) ∨
    ((s.current = [] → starts x = true) ∧ closes (s.current ++ [x]) = true ∧
      s.push starts closes x = ⟨s.closed ++ [(s.skipped, s.current ++ [x])], [], []⟩) ∨
    ((s.current = [] → starts x = true) ∧ closes (s.current ++ [x]) = false ∧
      s.push starts closes x = { s with current := s.current ++ [x] }) := by
  unfold push
  split
  · rename_i h
    simp only [Bool.and_eq_true, List.isEmpty_iff, Bool.not_eq_true'] at h
    exact .inl ⟨h.1, h.2, rfl⟩
  · rename_i h
    have hstart : s.current = [] → starts x = true := fun e => by
      simpa [e] using h
    split
    · exact .inr (.inl ⟨hstart, by assumption, rfl⟩)
    · exact .inr (.inr ⟨hstart, by simpa using ‹¬ closes (s.current ++ [x]) = true›, rfl⟩)

theorem mem_items_of_closed {c : List α × List α} (hc : c ∈ s.closed) (hx : x ∈ c.2) : x ∈ s.items :=
  List.mem_append_left _ (List.mem_append_left _ (List.mem_flatMap.mpr ⟨c, hc, List.mem_append_right _ hx⟩))

theorem items_push (s : Segments α) (x : α) : (s.push starts closes x).items = s.items ++ [x] := by
  obtain ⟨hc, -, e⟩ | ⟨-, -, e⟩ | ⟨-, -, e⟩ := push_cases starts closes s x <;>
    rw [e]
  · simp [items, hc]
  · simp [items]
  · simp [items]

/-- The segment an item is added to. -/
theorem Valid.isSegment_concat (h : s.Valid starts closes) (hx : s.current = [] → starts x = true) :
    IsSegment starts closes (s.current ++ [x]) := by
  rcases h.current with hc | ⟨hseg, hover⟩
  · rw [hc]
    refine ⟨⟨x, [], rfl, hx hc⟩, fun ys hys hne hne' => ?_⟩
    rcases List.prefix_concat_iff.mp hys with e | e
    · exact absurd e hne'
    · exact absurd (List.prefix_nil.mp e) hne
  · obtain ⟨y, rest, e, hy⟩ := hseg.head
    refine ⟨⟨y, rest ++ [x], by rw [e]; rfl, hy⟩, fun ys hys hne hne' => ?_⟩
    rcases List.prefix_concat_iff.mp hys with e' | hp
    · exact absurd e' hne'
    · by_cases hlast : ys = s.current
      · rw [hlast]; exact hover
      · exact hseg.notOver ys hp hne hlast

theorem Valid.push (h : s.Valid starts closes) (x : α) : (s.push starts closes x).Valid starts closes := by
  obtain ⟨hc, hx, e⟩ | ⟨hx, hover, e⟩ | ⟨hx, hover, e⟩ := push_cases starts closes s x <;>
    rw [e]
  · refine ⟨h.closed, fun y hy => ?_, .inl hc⟩
    rcases List.mem_append.mp hy with hy | hy
    · exact h.skipped y hy
    · rw [List.mem_singleton.mp hy]; exact hx
  · refine ⟨fun c hc => ?_, fun y hy => absurd hy List.not_mem_nil, .inl rfl⟩
    rcases List.mem_append.mp hc with hc | hc
    · exact h.closed c hc
    · rw [List.mem_singleton.mp hc]
      exact ⟨h.skipped, h.isSegment_concat hx, hover⟩
  · exact ⟨h.closed, h.skipped, .inr ⟨h.isSegment_concat hx, hover⟩⟩

theorem valid_run (xs : List α) : (run (Segments.push starts closes) Segments.empty xs).Valid starts closes :=
  run_inv ⟨fun _ hc => absurd hc List.not_mem_nil, fun _ hx => absurd hx List.not_mem_nil, .inl rfl⟩
    (fun _ x h => h.push x) xs

theorem items_run (xs : List α) : (run (Segments.push starts closes) Segments.empty xs).items = xs := by
  induction xs using List.reverseRecOn with
  | nil => rfl
  | append_singleton xs x ih => rw [run_concat, items_push, ih]

end Segments

end CallingAgent.Framework
