import Mathlib.Data.List.Basic

/-!
# Regular expressions by backtracking

A pattern is matched from a place in a text, and every place where a match may
end is listed, the one a greedy matcher tries first at the head.

* `Pattern.ends`: the places where a match ends;
* `mem_ends_cls`, `mem_ends_seq`, `mem_ends_rep`, …: what each construct matches;
* `Pattern.accepts`: `re.match`, from the beginning of a text.
-/

namespace CallingAgent.Framework

variable {α : Type}

/-- A place in a text: how much lies before it, and what lies after it. -/
structure Cursor (α : Type) where
  position : Nat
  rest : List α

inductive Pattern (α : Type)
  /-- `^`, without `MULTILINE`. -/
  | start
  /-- `$`, without `MULTILINE`: the end, or a line break there. -/
  | finish (newline : α)
  /-- One character of a class. -/
  | cls (p : α → Bool)
  /-- `p{m,n}` -/
  | rep (p : α → Bool) (m n : Nat)
  | seq (a b : Pattern α)

namespace Pattern

/-- `p{m,n}`, as many as there are first. -/
def repeated (p : α → Bool) (m n position : Nat) (text : List α) : List (Cursor α) :=
  match n, text with
  | n + 1, c :: rest =>
    (if p c then repeated p (m - 1) n (position + 1) rest else []) ++ (if m = 0 then [⟨position, c :: rest⟩] else [])
  | _, rest => if m = 0 then [⟨position, rest⟩] else []

/-- To match no more is to have matched enough. -/
theorem mem_stop {m i : Nat} {text : List α} {c : Cursor α} :
    c ∈ (if m = 0 then [(⟨i, text⟩ : Cursor α)] else []) ↔ m = 0 ∧ text = c.rest ∧ c.position = i := by
  obtain ⟨j, rest⟩ := c
  by_cases hm : m = 0
  · simp [hm, eq_comm, and_comm]
  · simp [hm]

/-- No character at all. -/
theorem exists_nil {p : α → Bool} {m n i j : Nat} {text rest : List α}
    (h : ∀ xs, text = xs ++ rest → xs.length ≤ n → xs = []) :
    (∃ xs, text = xs ++ rest ∧ m ≤ xs.length ∧ xs.length ≤ n ∧ xs.all p = true ∧ j = i + xs.length) ↔
      m = 0 ∧ text = rest ∧ j = i := by
  constructor
  · intro ⟨xs, e, hm, hn, _, hj⟩
    have hx := h xs e hn
    subst hx
    exact ⟨Nat.le_zero.1 hm, e, hj⟩
  · intro ⟨hm, e, hj⟩
    exact ⟨[], e, by simp [hm], by simp, rfl, hj⟩

/-- Between `m` and `n` characters of the class, by induction on `n`. -/
theorem mem_repeated {p : α → Bool} {n : Nat} : ∀ {m i : Nat} {text : List α} {c : Cursor α},
    c ∈ repeated p m n i text ↔
      ∃ xs, text = xs ++ c.rest ∧ m ≤ xs.length ∧ xs.length ≤ n ∧ xs.all p = true ∧ c.position = i + xs.length := by
  induction n with
  | zero =>
    intro m i text c
    rw [repeated, mem_stop, exists_nil fun xs _ h => List.length_eq_zero_iff.1 (Nat.le_zero.1 h)]
    simp
  | succ n ih =>
    intro m i text c
    match text with
    | [] =>
      rw [repeated, mem_stop, exists_nil fun xs e _ => (List.append_eq_nil_iff.1 e.symm).1]
      simp
    | x :: text =>
      have some_iff : c ∈ (if p x then repeated p (m - 1) n (i + 1) text else []) ↔
          p x = true ∧ c ∈ repeated p (m - 1) n (i + 1) text := by
        by_cases hp : p x = true <;> simp [hp]
      rw [repeated, List.mem_append, mem_stop, some_iff, ih]
      constructor
      · rintro (⟨hp, xs, e, hm, hn, hall, hj⟩ | ⟨hm, e, hj⟩)
        · have hl : (x :: xs).length = xs.length + 1 := rfl
          exact ⟨x :: xs, by rw [e]; rfl, by omega, by omega, by simp [hp, hall], by omega⟩
        · exact ⟨[], e, by simp [hm], by simp, rfl, hj⟩
      · intro ⟨xs, e, hm, hn, hall, hj⟩
        match xs with
        | [] => exact .inr ⟨Nat.le_zero.1 hm, e, hj⟩
        | y :: ys =>
          rw [List.cons_append, List.cons.injEq] at e
          rw [List.length_cons] at hm hn hj
          rw [List.all_cons, Bool.and_eq_true] at hall
          exact .inl ⟨e.1 ▸ hall.1, ys, e.2, by omega, by omega, hall.2, by omega⟩

variable [DecidableEq α]

/-- The places where a match from `cursor` ends. -/
def ends : Pattern α → Cursor α → List (Cursor α)
  | start, cursor => if cursor.position = 0 then [cursor] else []
  | finish newline, cursor => if cursor.rest = [] ∨ cursor.rest = [newline] then [cursor] else []
  | cls p, cursor =>
    match cursor.rest with
    | c :: rest => if p c then [⟨cursor.position + 1, rest⟩] else []
    | [] => []
  | rep p m n, cursor => repeated p m n cursor.position cursor.rest
  | seq a b, cursor => (a.ends cursor).flatMap b.ends

/-- `re.match` -/
def accepts (pattern : Pattern α) (text : List α) : Bool := !(pattern.ends ⟨0, text⟩).isEmpty

theorem accepts_iff {pattern : Pattern α} {text : List α} :
    pattern.accepts text = true ↔ ∃ c, c ∈ pattern.ends ⟨0, text⟩ := by
  simp [accepts, List.eq_nil_iff_forall_not_mem]

@[simp] theorem mem_ends_start {c c' : Cursor α} : c' ∈ (start : Pattern α).ends c ↔ c.position = 0 ∧ c' = c := by
  by_cases h : c.position = 0 <;> simp [ends, h]

@[simp] theorem mem_ends_finish {newline : α} {c c' : Cursor α} :
    c' ∈ (finish newline).ends c ↔ (c.rest = [] ∨ c.rest = [newline]) ∧ c' = c := by
  by_cases h : c.rest = [] ∨ c.rest = [newline] <;> simp [ends, h]

@[simp] theorem mem_ends_cls {p : α → Bool} {c c' : Cursor α} :
    c' ∈ (cls p).ends c ↔ ∃ x, c.rest = x :: c'.rest ∧ p x = true ∧ c'.position = c.position + 1 := by
  obtain ⟨i, text⟩ := c
  obtain ⟨j, rest⟩ := c'
  match text with
  | [] => simp [ends]
  | x :: text =>
    by_cases h : p x = true
    · simp only [ends, h, ite_true, List.mem_singleton, Cursor.mk.injEq, List.cons.injEq]
      grind
    · simp [ends, h]

@[simp] theorem mem_ends_seq {a b : Pattern α} {c c' : Cursor α} :
    c' ∈ (seq a b).ends c ↔ ∃ d ∈ a.ends c, c' ∈ b.ends d := by
  simp [ends]

@[simp] theorem mem_ends_rep {p : α → Bool} {m n : Nat} {c c' : Cursor α} :
    c' ∈ (rep p m n).ends c ↔ ∃ xs, c.rest = xs ++ c'.rest ∧ m ≤ xs.length ∧ xs.length ≤ n ∧ xs.all p = true ∧
      c'.position = c.position + xs.length := mem_repeated

end Pattern

end CallingAgent.Framework
