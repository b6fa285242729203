import Mathlib.Data.List.Basic

/-!
# Searching for words

Regular expressions with `\b`, which looks at both sides of a place in a text.

* `Regex.ends`, `Regex.search`: matching by backtracking, and `re.search`;
* `spells`, `mem_ends`: what an expression without boundaries matches does not depend
  on what is around it;
* `search_bounded`: `\b(…)\b` is found exactly if a text that it spells stands somewhere
  with no word character next to it;
* `literal`, `spells_literal`: a text up to a folding of its characters.
-/

namespace CallingAgent.Framework

variable {α : Type}

/-- A place in a text: what lies before it, the nearest first, and what lies after it. -/
structure Place (α : Type) where
  before : List α
  after : List α

inductive Regex (α : Type)
  | empty
  /-- One character of a class. -/
  | cls (p : α → Bool)
  /-- `\b` -/
  | boundary (word : α → Bool)
  | seq (a b : Regex α)
  /-- `a|b` -/
  | alt (a b : Regex α)
  /-- `a?` -/
  | opt (a : Regex α)

namespace Regex

/-- The places where a match from `place` ends, the preferred first. -/
def ends : Regex α → Place α → List (Place α)
  | empty, place => [place]
  | cls p, place =>
    match place.after with
    | c :: after => if p c then [⟨c :: place.before, after⟩] else []
    | [] => []
  | boundary word, place => if place.before.head?.any word != place.after.head?.any word then [place] else []
  | seq a b, place => (a.ends place).flatMap b.ends
  | alt a b, place => a.ends place ++ b.ends place
  | opt a, place => a.ends place ++ [place]

def searchFrom (r : Regex α) (before : List α) : List α → Bool
  | [] => !(r.ends ⟨before, []⟩).isEmpty
  | c :: after => !(r.ends ⟨before, c :: after⟩).isEmpty || r.searchFrom (c :: before) after

/-- `re.search` -/
def search (r : Regex α) (text : List α) : Bool := r.searchFrom [] text

theorem searchFrom_iff {r : Regex α} (before after : List α) :
    r.searchFrom before after = true ↔
      ∃ xs ys, after = xs ++ ys ∧ ∃ place, place ∈ r.ends ⟨xs.reverse ++ before, ys⟩ := by
  have hends : ∀ place : Place α, (!(r.ends place).isEmpty) = true ↔ ∃ place', place' ∈ r.ends place := fun place => by
    simp [List.eq_nil_iff_forall_not_mem]
  induction after generalizing before with
  | nil =>
    rw [searchFrom, hends]
    constructor
    · exact fun h => ⟨[], [], rfl, h⟩
    · rintro ⟨xs, ys, e, h⟩
      obtain ⟨rfl, rfl⟩ := List.append_eq_nil_iff.mp e.symm
      exact h
  | cons c after ih =>
    rw [searchFrom, Bool.or_eq_true, hends]
    refine (or_congr_right (ih (c :: before))).trans ?_
    constructor
    · rintro (h | ⟨xs, ys, rfl, h⟩)
      · exact ⟨[], c :: after, rfl, h⟩
      · exact ⟨c :: xs, ys, rfl, by simpa using h⟩
    · rintro ⟨xs, ys, e, h⟩
      cases xs with
      | nil =>
        rw [List.nil_append] at e
        exact .inl (e ▸ h)
      | cons x xs =>
        obtain ⟨rfl, rfl⟩ := List.cons.inj e
        exact .inr ⟨xs, ys, rfl, by simpa using h⟩

/-! ## What is matched -/

/-- There is no boundary in it. -/
def plain : Regex α → Bool
  | boundary _ => false
  | seq a b => a.plain && b.plain
  | alt a b => a.plain && b.plain
  | opt a => a.plain
  | _ => true

/-- The texts that a plain expression matches. -/
def spells : Regex α → List α → Prop
  | empty, xs => xs = []
  | cls p, xs => ∃ c, xs = [c] ∧ p c = true
  | boundary _, _ => False
  | seq a b, xs => ∃ ys zs, xs = ys ++ zs ∧ a.spells ys ∧ b.spells zs
  | alt a b, xs => a.spells xs ∨ b.spells xs
  | opt a, xs => a.spells xs ∨ xs = []

theorem mem_ends {r : Regex α} (h : r.plain = true) {place place' : Place α} :
    place' ∈ r.ends place ↔
      ∃ xs, r.spells xs ∧ place.after = xs ++ place'.after ∧ place'.before = xs.reverse ++ place.before := by
  induction r generalizing place place' with
  | empty =>
    obtain ⟨before, after⟩ := place
    obtain ⟨before', after'⟩ := place'
    simp [ends, spells, and_comm, eq_comm]
  | cls p =>
    obtain ⟨before, after⟩ := place
    obtain ⟨before', after'⟩ := place'
    cases after with
    | nil => simp [ends, spells]
    | cons c after =>
      simp only [ends, spells]
      split
      · rename_i hp
        simp only [List.mem_singleton, Place.mk.injEq]
        constructor
        · rintro ⟨rfl, rfl⟩
          exact ⟨[c], ⟨c, rfl, hp⟩, rfl, rfl⟩
        · rintro ⟨xs, ⟨d, rfl, -⟩, e, e'⟩
          obtain ⟨rfl, rfl⟩ := List.cons.inj e
          exact ⟨e', rfl⟩
      · rename_i hp
        refine iff_of_false (List.not_mem_nil) ?_
        rintro ⟨xs, ⟨d, rfl, hd⟩, e, -⟩
        exact hp ((List.cons.inj e).1 ▸ hd)
  | boundary word => cases h
  | seq a b iha ihb =>
    simp only [plain, Bool.and_eq_true] at h
    simp only [ends, spells, List.mem_flatMap]
    constructor
    · rintro ⟨middle, hm, hm'⟩
      obtain ⟨xs, hx, e₁, e₂⟩ := (iha h.1).mp hm
      obtain ⟨ys, hy, e₃, e₄⟩ := (ihb h.2).mp hm'
      exact ⟨xs ++ ys, ⟨xs, ys, rfl, hx, hy⟩, by rw [e₁, e₃, List.append_assoc], by simp [e₄, e₂]⟩
    · rintro ⟨_, ⟨xs, ys, rfl, hx, hy⟩, e₁, e₂⟩
      refine ⟨⟨xs.reverse ++ place.before, ys ++ place'.after⟩, (iha h.1).mpr ⟨xs, hx, ?_, rfl⟩,
        (ihb h.2).mpr ⟨ys, hy, rfl, ?_⟩⟩
      · rw [e₁, List.append_assoc]
      · simp [e₂]
  | alt a b iha ihb =>
    simp only [plain, Bool.and_eq_true] at h
    simp only [ends, spells, List.mem_append, iha h.1, ihb h.2, or_and_right, exists_or]
  | opt a iha =>
    simp only [ends, spells, List.mem_append, iha h, or_and_right, exists_or, List.mem_singleton]
    refine or_congr_right ?_
    obtain ⟨before, after⟩ := place
    obtain ⟨before', after'⟩ := place'
    simp [and_comm, eq_comm]

/-! ## Whole words -/

/-- `\b(r)\b` -/
def bounded (word : α → Bool) (r : Regex α) : Regex α := seq (boundary word) (seq r (boundary word))

/-- `xs` stands in a text with no word character next to it. -/
def Stands (word : α → Bool) (xs text : List α) : Prop :=
  ∃ pre post, text = pre ++ xs ++ post ∧ pre.getLast?.any word = false ∧ post.head?.any word = false

theorem mem_ends_boundary {word : α → Bool} {place place' : Place α} :
    place' ∈ (boundary word).ends place ↔
      place' = place ∧ (place.before.head?.any word != place.after.head?.any word) = true := by
  rw [ends]
  split
  · rename_i h
    simp [h]
  · rename_i h
    simp [h]

theorem mem_ends_seq {a b : Regex α} {place place' : Place α} :
    place' ∈ (seq a b).ends place ↔ ∃ middle ∈ a.ends place, place' ∈ b.ends middle := List.mem_flatMap

/-- A bounded expression all of whose texts begin and end with a word character. -/
theorem search_bounded {word : α → Bool} {r : Regex α} (hplain : r.plain = true)
    (hword : ∀ xs, r.spells xs → xs.head?.any word = true ∧ xs.getLast?.any word = true) {text : List α} :
    (bounded word r).search text = true ↔ ∃ xs, r.spells xs ∧ Stands word xs text := by
  -- Between word characters and a text that begins and ends with one there is no boundary.
  have hhead : ∀ {xs ys : List α}, xs.head?.any word = true → (xs ++ ys).head?.any word = true := fun {xs ys} h => by
    cases xs with
    | nil => simp at h
    | cons x xs => exact h
  have hlast : ∀ {xs ys : List α}, xs.getLast?.any word = true → (xs.reverse ++ ys).head?.any word = true :=
    fun {xs ys} h => hhead (by rwa [List.head?_reverse])
  rw [search, searchFrom_iff]
  constructor
  · rintro ⟨pre, ys, rfl, place, hplace⟩
    simp only [bounded, mem_ends_seq, mem_ends_boundary] at hplace
    obtain ⟨_, ⟨rfl, hleft⟩, _, hr, rfl, hright⟩ := hplace
    obtain ⟨xs, hxs, e₁, e₂⟩ := (mem_ends hplain).mp hr
    obtain ⟨hx, hx'⟩ := hword xs hxs
    simp only [List.append_nil] at hleft e₁ e₂
    refine ⟨xs, hxs, pre, place.after, by rw [e₁, List.append_assoc], ?_, ?_⟩
    · rw [e₁, hhead hx, List.head?_reverse] at hleft
      simpa using hleft
    · rw [e₂, hlast hx'] at hright
      simpa using hright
  · rintro ⟨xs, hxs, pre, post, rfl, hpre, hpost⟩
    obtain ⟨hx, hx'⟩ := hword xs hxs
    refine ⟨pre, xs ++ post, List.append_assoc .., ⟨xs.reverse ++ pre.reverse, post⟩, ?_⟩
    simp only [bounded, mem_ends_seq, mem_ends_boundary, List.append_nil]
    refine ⟨_, ⟨rfl, ?_⟩, _, (mem_ends hplain).mpr ⟨xs, hxs, rfl, rfl⟩, rfl, ?_⟩
    · rw [hhead hx, List.head?_reverse, hpre]
      rfl
    · rw [hlast hx', hpost]
      rfl

/-! ## Texts -/

/-- One after the other. -/
def seqs (rs : List (Regex α)) : Regex α := rs.foldr seq empty

/-- `a|b|…` -/
def oneOf (a : Regex α) : List (Regex α) → Regex α
  | [] => a
  | b :: bs => alt a (oneOf b bs)

/-- A text, where a character stands for all that are folded to it. -/
def literal [BEq α] (fold : α → α) (text : List α) : Regex α := seqs (text.map fun c => cls fun x => fold x == c)

theorem spells_literal [BEq α] [LawfulBEq α] {fold : α → α} {text xs : List α} :
    (literal fold text).spells xs ↔ xs.map fold = text := by
  induction text generalizing xs with
  | nil => simp [literal, seqs, spells]
  | cons c text ih =>
    rw [show literal fold (c :: text) = seq (cls fun x => fold x == c) (literal fold text) from rfl]
    simp only [spells, ih]
    constructor
    · rintro ⟨_, zs, rfl, ⟨x, rfl, hx⟩, rfl⟩
      simpa using hx
    · intro h
      obtain ⟨x, zs, rfl, hx, hzs⟩ := List.map_eq_cons_iff.mp h
      exact ⟨[x], zs, rfl, ⟨x, rfl, by simpa using hx⟩, hzs⟩

end Regex

end CallingAgent.Framework
