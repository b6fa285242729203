import Mathlib.Data.List.Induction
import Mathlib.Data.List.Infix

/-!
# Runs of a step function

A system is a step function `step : S → A → S` on states, driven by the
actions of its environment. `run step s as` is the state after the actions
`as`; the states a run goes through are those after the prefixes of `as`.

* `Always P`: `P` holds in every state the run goes through;
* `AllSteps C`: every action of the run meets `C` in the state it is taken in;
* `run_inv`, `always_of_step`: what every step keeps, every run keeps;
* `always_iff_allSteps`: a property that each step keeps exactly when it meets
  `C` holds throughout a run exactly when all its steps meet `C`;
* `allSteps_congr`: conditions on steps that agree where an invariant holds;
* `run_iff_not_allSteps`: what only some steps bring about;
* `run_filter`: a run and the run of some of its actions, of which the others do
  not matter;
* `exists_progress`: a counter that follows a script of labels gets as far as the
  run has its labels, in order;
* `collect`: what the steps of a run give, in order, such as its events;
  `collect_filter`: what those of some of its actions give, if the others give nothing;
* `update_cases`, `forall_update`, `getElem?_concat_cases`, `getElem?_set_cases`,
  `countP_set`: the states of the parties after that of one has been set.
-/

namespace CallingAgent.Framework

variable {S A : Type} {step : S → A → S}

/-- The state after the actions `as`. -/
def run (step : S → A → S) (s : S) (as : List A) : S := as.foldl step s

@[simp] theorem run_nil (s : S) : run step s [] = s := rfl

@[simp] theorem run_cons (s : S) (a : A) (as : List A) :
    run step s (a :: as) = run step (step s a) as := rfl

theorem run_append (s : S) (as bs : List A) :
    run step s (as ++ bs) = run step (run step s as) bs := List.foldl_append

@[simp] theorem run_concat (s : S) (as : List A) (a : A) :
    run step s (as ++ [a]) = step (run step s as) a := by
  rw [run_append]; rfl

/-- `P` holds in every state the run of `as` from `s` goes through. -/
def Always (step : S → A → S) (P : S → Prop) (s : S) (as : List A) : Prop :=
  ∀ p, p <+: as → P (run step s p)

/-- Every action of the run of `as` from `s` meets `C` in the state it is
taken in. -/
def AllSteps (step : S → A → S) (C : S → A → Prop) (s : S) (as : List A) : Prop :=
  ∀ p a, p ++ [a] <+: as → C (run step s p) a

theorem always_nil {P : S → Prop} {s : S} : Always step P s [] ↔ P s := by
  refine ⟨fun h => h [] (List.prefix_refl _), fun h p hp => ?_⟩
  rw [List.prefix_nil.mp hp]; exact h

theorem always_concat {P : S → Prop} {s : S} {as : List A} {a : A} :
    Always step P s (as ++ [a]) ↔ Always step P s as ∧ P (step (run step s as) a) := by
  constructor
  · intro h
    refine ⟨fun p hp => h p (hp.trans (List.prefix_append _ _)), ?_⟩
    have := h _ (List.prefix_refl _)
    rwa [run_concat] at this
  · rintro ⟨h, ha⟩ p hp
    rcases List.prefix_concat_iff.mp hp with rfl | hp
    · rwa [run_concat]
    · exact h p hp

theorem Always.last {P : S → Prop} {s : S} {as : List A} (h : Always step P s as) :
    P (run step s as) := h as (List.prefix_refl _)

theorem allSteps_nil {C : S → A → Prop} {s : S} : AllSteps step C s [] := fun p a h => by
  have := List.prefix_nil.mp h
  simp at this

theorem allSteps_concat {C : S → A → Prop} {s : S} {as : List A} {a : A} :
    AllSteps step C s (as ++ [a]) ↔ AllSteps step C s as ∧ C (run step s as) a := by
  constructor
  · exact fun h => ⟨fun p b hp => h p b (hp.trans (List.prefix_append _ _)), h as a (List.prefix_refl _)⟩
  · rintro ⟨h, ha⟩ p b hp
    rcases List.prefix_concat_iff.mp hp with e | hp
    · obtain ⟨rfl, hb⟩ := List.append_inj' e rfl
      rw [(List.cons.inj hb).1]; exact ha
    · exact h p b hp

theorem allSteps_cons {C : S → A → Prop} {s : S} {a : A} {as : List A} :
    AllSteps step C s (a :: as) ↔ C s a ∧ AllSteps step C (step s a) as := by
  constructor
  · intro h
    refine ⟨h [] a ⟨as, rfl⟩, fun p b hp => ?_⟩
    exact h (a :: p) b ((List.cons_prefix_cons).mpr ⟨rfl, hp⟩)
  · rintro ⟨ha, h⟩ p b hp
    cases p with
    | nil =>
      obtain ⟨rfl, -⟩ := List.cons_prefix_cons.mp hp
      exact ha
    | cons x p =>
      obtain ⟨rfl, hp'⟩ := List.cons_prefix_cons.mp hp
      exact h p b hp'

/-- A condition on the actions alone. -/
theorem allSteps_iff_forall_mem {C : A → Prop} {s : S} {as : List A} :
    AllSteps step (fun _ a => C a) s as ↔ ∀ a ∈ as, C a := by
  induction as generalizing s with
  | nil => exact iff_of_true allSteps_nil nofun
  | cons a as ih => rw [allSteps_cons, ih, List.forall_mem_cons]

/-- The states in which the actions of a run are taken are those after the
prefixes of all its actions but the last. -/
theorem always_dropLast {P : S → Prop} {s : S} (hP : P s) {as : List A} :
    (∀ p a, p ++ [a] <+: as → P (run step s p)) ↔ Always step P s as.dropLast := by
  rcases List.eq_nil_or_concat as with rfl | ⟨as, a, rfl⟩
  · exact iff_of_true (fun p a h => allSteps_nil (C := fun s _ => P s) p a h) (always_nil.mpr hP)
  · rw [List.concat_eq_append, List.dropLast_concat]
    refine ⟨fun h p hp => ?_, fun h p b hp => h p ?_⟩
    · obtain ⟨q, rfl⟩ := hp
      cases q with
      | nil => exact h p a (by rw [List.append_nil])
      | cons b q => exact h p b ⟨q ++ [a], by simp⟩
    · rcases List.prefix_concat_iff.mp hp with e | hp
      · exact (List.append_inj' e rfl).1 ▸ List.prefix_refl _
      · exact (List.prefix_append p [b]).trans hp

theorem AllSteps.of_prefix {C : S → A → Prop} {s : S} {as bs : List A} (h : AllSteps step C s as)
    (hb : bs <+: as) : AllSteps step C s bs := fun p a hp => h p a (hp.trans hb)

/-- What every step keeps, every run keeps. -/
theorem run_inv {I : S → Prop} {s : S} (h : I s) (hstep : ∀ s a, I s → I (step s a)) (as : List A) :
    I (run step s as) := by
  induction as using List.reverseRecOn with
  | nil => exact h
  | append_singleton as a ih => rw [run_concat]; exact hstep _ _ ih

/-- What every step that meets `C` keeps, every run of such steps keeps. -/
theorem always_of_step {I : S → Prop} {C : S → A → Prop} {s : S} (h : I s)
    (hstep : ∀ s a, I s → C s a → I (step s a)) {as : List A} (hC : AllSteps step C s as) :
    Always step I s as := by
  induction as using List.reverseRecOn with
  | nil => exact always_nil.mpr h
  | append_singleton as a ih =>
    obtain ⟨hC, ha⟩ := allSteps_concat.mp hC
    exact always_concat.mpr ⟨ih hC, hstep _ _ (ih hC).last ha⟩

/-- If a step from a state with `I` and `P` that meets `C` keeps both, and one
that does not loses `P`, then `P` holds throughout a run exactly when every
step of it meets `C`. -/
theorem always_iff_allSteps {I P : S → Prop} {C : S → A → Prop} {s : S} (hI : I s) (hP : P s)
    (hkeep : ∀ s a, I s → P s → C s a → I (step s a) ∧ P (step s a))
    (hlose : ∀ s a, I s → P s → P (step s a) → C s a) (as : List A) :
    Always step P s as ↔ AllSteps step C s as := by
  have hboth : ∀ bs, AllSteps step C s bs → Always step (fun s => I s ∧ P s) s bs := fun _ =>
    always_of_step ⟨hI, hP⟩ fun s a h hC => hkeep s a h.1 h.2 hC
  refine ⟨fun h => ?_, fun h p hp => (hboth as h p hp).2⟩
  induction as using List.reverseRecOn with
  | nil => exact allSteps_nil
  | append_singleton as a ih =>
    obtain ⟨h, ha⟩ := always_concat.mp h
    have hC := ih h
    obtain ⟨hi, hp⟩ := (hboth as hC).last
    exact allSteps_concat.mpr ⟨hC, hlose _ _ hi hp ha⟩

/-- If two conditions on steps agree wherever `I` holds, and `I` is kept by the
steps that meet them, then all steps of a run meet the one exactly when all
meet the other. -/
theorem allSteps_congr {I : S → Prop} {C D : S → A → Prop} {s : S} (hI : I s)
    (hkeep : ∀ s a, I s → D s a → I (step s a)) (hiff : ∀ s a, I s → (C s a ↔ D s a)) (as : List A) :
    AllSteps step C s as ↔ AllSteps step D s as := by
  have hinv : ∀ bs, AllSteps step D s bs → I (run step s bs) := fun _ h =>
    (always_of_step hI hkeep h).last
  constructor <;> intro h
  · induction as using List.reverseRecOn with
    | nil => exact allSteps_nil
    | append_singleton as a ih =>
      obtain ⟨h, ha⟩ := allSteps_concat.mp h
      exact allSteps_concat.mpr ⟨ih h, (hiff _ _ (hinv as (ih h))).mp ha⟩
  · exact fun p a hp =>
      (hiff _ _ (hinv p (h.of_prefix ((List.prefix_append p [a]).trans hp)))).mpr (h p a hp)

/-- What only a step that meets `C` brings about, and no step undoes, has come
about in a run exactly if some step of it met `C`. -/
theorem run_iff_not_allSteps {I P : S → Prop} {C : S → A → Prop} {s : S} (hI : I s) (hP : ¬ P s)
    (hkeep : ∀ s a, I s → I (step s a)) (hstep : ∀ s a, I s → (P (step s a) ↔ P s ∨ C s a)) (as : List A) :
    P (run step s as) ↔ ¬ AllSteps step (fun s a => ¬ C s a) s as := by
  induction as using List.reverseRecOn with
  | nil => exact iff_of_false hP fun h => h allSteps_nil
  | append_singleton as a ih =>
    rw [run_concat, hstep _ _ (run_inv hI hkeep as), ih, allSteps_concat, not_and_or, not_not]

/-- If the actions with `own` lead related states to related states, and each of
the others keeps the relation when it is taken in the first state alone, then a
run is related to the run of its actions with `own`. -/
theorem run_filter {T : Type} {step' : T → A → T} {R : S → T → Prop} {C : S → A → Prop} {own : A → Bool}
    {s : S} {t : T} (h : R s t)
    (hown : ∀ s t a, R s t → C s a → own a = true → R (step s a) (step' t a))
    (hother : ∀ s t a, R s t → C s a → own a = false → R (step s a) t) {as : List A}
    (hC : AllSteps step C s as) : R (run step s as) (run step' t (as.filter own)) := by
  induction as using List.reverseRecOn with
  | nil => exact h
  | append_singleton as a ih =>
    obtain ⟨hC, ha⟩ := allSteps_concat.mp hC
    rw [run_concat, List.filter_append]
    cases ho : own a with
    | true =>
      rw [List.filter_singleton, ho, Bool.cond_true, run_concat]
      exact hown _ _ a (ih hC) ha ho
    | false =>
      rw [List.filter_singleton, ho, Bool.cond_false, List.append_nil]
      exact hother _ _ a (ih hC) ha ho

/-- If a step with the label that the script has at `n` takes `P n` to `P (n + 1)`,
and every other step keeps `P n`, then in a run whose labels have a beginning of
the script as a subsequence the counter has come at least that far. -/
theorem exists_progress {B : Type} [DecidableEq B] {script : List B} {label : A → Option B} {P : S → Nat → Prop}
    {C : S → A → Prop} {s : S} (h : P s 0)
    (hown : ∀ s a b n, P s n → C s a → label a = some b → P (step s a) (if script[n]? = some b then n + 1 else n))
    (hother : ∀ s a n, P s n → C s a → label a = none → P (step s a) n) {as : List A}
    (hC : AllSteps step C s as) :
    ∃ n, P (run step s as) n ∧ ∀ l, l <+: script → l.Sublist (as.filterMap label) → l.length ≤ n := by
  induction as using List.reverseRecOn with
  | nil =>
    refine ⟨0, h, fun l _ hl => ?_⟩
    rw [List.sublist_nil.mp hl, List.length_nil]
  | append_singleton as a ih =>
    obtain ⟨hC, ha⟩ := allSteps_concat.mp hC
    obtain ⟨n, hn, hle⟩ := ih hC
    rw [run_concat, List.filterMap_append]
    cases hb : label a with
    | none =>
      refine ⟨n, hother _ a n hn ha hb, fun l hp hl => hle l hp ?_⟩
      rwa [List.filterMap_cons_none hb, List.filterMap_nil, List.append_nil] at hl
    | some b =>
      refine ⟨_, hown _ a b n hn ha hb, fun l hp hl => ?_⟩
      rw [List.filterMap_cons_some hb, List.filterMap_nil] at hl
      obtain ⟨l₁, l₂, rfl, hl₁, hl₂⟩ := List.sublist_append_iff.mp hl
      have h₁ := hle l₁ ((List.prefix_append l₁ l₂).trans hp) hl₁
      rcases List.sublist_singleton.mp hl₂ with rfl | rfl
      · rw [List.append_nil]
        split <;> omega
      · -- The script has `b` next.
        have hnext : script[l₁.length]? = some b := by
          obtain ⟨rest, rfl⟩ := hp
          rw [List.append_assoc, List.getElem?_append_right (le_refl _), Nat.sub_self]
          rfl
        rw [List.length_append, List.length_singleton]
        split
        · omega
        · rename_i hb'
          have hne : l₁.length ≠ n := fun e => hb' (e ▸ hnext)
          omega

/-! ## What the steps of a run give -/

variable {β : Type}

/-- What the steps of the run of `as` from `s` give by `f`, in order. -/
def collect (step : S → A → S) (f : S → A → List β) (s : S) : List A → List β
  | [] => []
  | a :: as => f s a ++ collect step f (step s a) as

@[simp] theorem collect_nil (f : S → A → List β) (s : S) : collect step f s [] = [] := rfl

theorem collect_cons (f : S → A → List β) (s : S) (a : A) (as : List A) :
    collect step f s (a :: as) = f s a ++ collect step f (step s a) as := rfl

theorem collect_append (f : S → A → List β) (s : S) (as bs : List A) :
    collect step f s (as ++ bs) = collect step f s as ++ collect step f (run step s as) bs := by
  induction as generalizing s with
  | nil => rfl
  | cons a as ih => simp only [List.cons_append, collect, ih, run_cons, List.append_assoc]

@[simp] theorem collect_concat (f : S → A → List β) (s : S) (as : List A) (a : A) :
    collect step f s (as ++ [a]) = collect step f s as ++ f (run step s as) a := by
  rw [collect_append]; simp [collect]

/-- If the actions with `own` give the same in related states and lead to related
states, and the others give nothing and keep the relation when they are taken in the
first state alone, then a run gives what the run of its actions with `own` does. -/
theorem collect_filter {T : Type} {step' : T → A → T} {f : S → A → List β} {g : T → A → List β} {R : S → T → Prop}
    {C : S → A → Prop} {own : A → Bool} {s : S} {t : T} (h : R s t)
    (hown : ∀ s t a, R s t → C s a → own a = true → R (step s a) (step' t a) ∧ f s a = g t a)
    (hother : ∀ s t a, R s t → C s a → own a = false → R (step s a) t ∧ f s a = []) {as : List A}
    (hC : AllSteps step C s as) : collect step f s as = collect step' g t (as.filter own) := by
  induction as generalizing s t with
  | nil => rfl
  | cons a as ih =>
    obtain ⟨ha, hC⟩ := allSteps_cons.mp hC
    cases ho : own a with
    | true =>
      obtain ⟨h', heq⟩ := hown s t a h ha ho
      rw [List.filter_cons_of_pos ho, collect, collect, heq, ih h' hC]
    | false =>
      obtain ⟨h', hnil⟩ := hother s t a h ha ho
      rw [List.filter_cons_of_neg (Bool.eq_false_iff.mp ho), collect, hnil, List.nil_append, ih h' hC]

/-! ## Numbered parties -/

/-- The state of a party after that of party `i` has been set. -/
theorem update_cases {f : Nat → Option β} {i j : Nat} {x y : β}
    (h : Function.update f i (some x) j = some y) : j = i ∧ y = x ∨ j ≠ i ∧ f j = some y := by
  by_cases e : j = i
  · subst e
    rw [Function.update_self] at h
    exact .inl ⟨rfl, (Option.some.inj h).symm⟩
  · rw [Function.update_of_ne e] at h
    exact .inr ⟨e, h⟩

/-- What holds of the new state of one party and of the states of the others. -/
theorem forall_update {f : Nat → β} {i : Nat} {x : β} {Q : Nat → β → Prop} (h : Q i x)
    (h' : ∀ j, j ≠ i → Q j (f j)) (j : Nat) : Q j (Function.update f i x j) := by
  by_cases e : j = i
  · subst e; rw [Function.update_self]; exact h
  · rw [Function.update_of_ne e]; exact h' j e

theorem getElem?_concat_cases {xs : List β} {x y : β} {k : Nat} (h : (xs ++ [x])[k]? = some y) :
    xs[k]? = some y ∨ k = xs.length ∧ y = x := by
  rw [List.getElem?_append] at h
  split at h
  · exact .inl h
  · rename_i hk
    obtain ⟨hlt, e⟩ := List.getElem?_eq_some_iff.mp h
    have hlen : k - xs.length < 1 := hlt
    exact .inr ⟨by omega, by simpa using e.symm⟩

theorem getElem?_set_cases {xs : List β} {x y : β} {i k : Nat} (h : (xs.set i x)[k]? = some y) :
    k = i ∧ y = x ∨ k ≠ i ∧ xs[k]? = some y := by
  rw [List.getElem?_set] at h
  split at h
  · rename_i e
    split at h
    · exact .inl ⟨e.symm, (Option.some.inj h).symm⟩
    · cases h
  · rename_i e
    exact .inr ⟨Ne.symm e, h⟩

/-- How many parties are in a certain state, after one of them has moved. -/
theorem countP_set {xs : List β} {p : β → Bool} {n : Nat} {x : β} (y : β) (h : xs[n]? = some x) :
    ((xs.set n y).countP p : Int) = xs.countP p - (if p x then 1 else 0) + if p y then 1 else 0 := by
  obtain ⟨hn, e⟩ := List.getElem?_eq_some_iff.mp h
  rw [List.countP_set hn, e]
  have hpos : p x = true → 0 < xs.countP p := fun hx =>
    List.countP_pos_iff.mpr ⟨x, List.mem_of_getElem? h, hx⟩
  cases hx : p x <;> cases p y
  · simp
  · simp
  · have := hpos hx
    simp only [if_true, Bool.false_eq_true, if_false]
    omega
  · have := hpos hx
    simp only [if_true]
    omega

end CallingAgent.Framework
