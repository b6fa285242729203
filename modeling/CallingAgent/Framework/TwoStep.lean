import CallingAgent.Framework.Run

/-!
# Handlers that check and then commit

Any number of requests share a state. Each takes two steps: it reads the state and is
answered or goes on, and later it commits what it goes on with and is answered. Between the
two the steps of other requests may come.

* `Rules`: what is known of each of the two steps of a handler on its own;
* `Rules.answers_iff`: all answers are good exactly if no request is too late in its commit;
* `Rules.settled_run`: what the answers say of the state stays true (`Settles`);
* `answered_of_steps`: who takes both steps is answered.
-/

namespace CallingAgent.Framework

/-- A handler with state `S`, which goes on with a `P` or answers an `R`. -/
structure TwoStep (S P R : Type) where
  check : S → Except R P
  commit : S → P → S × R

namespace TwoStep

variable {S P R : Type}

/-- Where a request is. -/
inductive Stage (P R : Type)
  | waiting
  | checked (p : P)
  | answered (r : R)

structure World (S P R : Type) where
  state : S
  stage : Nat → Stage P R

def World.init (s : S) : World S P R where
  state := s
  stage _ := .waiting

/-- A step of request `i`. -/
inductive Act
  | check (i : Nat)
  | commit (i : Nat)

/-- A request that is not at the step is left alone. -/
def step (handler : Nat → TwoStep S P R) (w : World S P R) : Act → World S P R
  | .check i =>
    match w.stage i with
    | .waiting =>
      match (handler i).check w.state with
      | .ok p => { w with stage := Function.update w.stage i (.checked p) }
      | .error r => { w with stage := Function.update w.stage i (.answered r) }
    | _ => w
  | .commit i =>
    match w.stage i with
    | .checked p =>
      { state := ((handler i).commit w.state p).1
        stage := Function.update w.stage i (.answered ((handler i).commit w.state p).2) }
    | _ => w

/-- Both steps at once. -/
def atOnce (handler : TwoStep S P R) (s : S) : S × R :=
  match handler.check s with
  | .ok p => handler.commit s p
  | .error r => (s, r)

/-- All requests that have been answered have got a good answer. -/
def AllGood (good : Nat → R → Prop) (w : World S P R) : Prop := ∀ i r, w.stage i = .answered r → good i r

/-- The step is the commit of a request that is too late for it. -/
def LateCommit (late : Nat → S → P → Prop) (w : World S P R) (a : Act) : Prop :=
  ∃ i p, a = .commit i ∧ w.stage i = .checked p ∧ late i w.state p

variable {handler : Nat → TwoStep S P R} {good : Nat → R → Prop} {late : Nat → S → P → Prop} {w : World S P R}

/-- What a step can do: nothing, a check that goes on, a check that answers, or a commit. -/
theorem step_cases (handler : Nat → TwoStep S P R) (w : World S P R) (a : Act) :
    step handler w a = w ∨
    (∃ i p, a = .check i ∧ w.stage i = .waiting ∧ (handler i).check w.state = .ok p ∧
      step handler w a = { w with stage := Function.update w.stage i (.checked p) }) ∨
    (∃ i r, a = .check i ∧ w.stage i = .waiting ∧ (handler i).check w.state = .error r ∧
      step handler w a = { w with stage := Function.update w.stage i (.answered r) }) ∨
    ∃ i p, a = .commit i ∧ w.stage i = .checked p ∧
      step handler w a =
        { state := ((handler i).commit w.state p).1
          stage := Function.update w.stage i (.answered ((handler i).commit w.state p).2) } := by
  cases a with
  | check i =>
    cases hi : w.stage i with
    | waiting =>
      cases hcheck : (handler i).check w.state with
      | ok p => exact .inr (.inl ⟨i, p, rfl, hi, hcheck, by simp only [step, hi, hcheck]⟩)
      | error r => exact .inr (.inr (.inl ⟨i, r, rfl, hi, hcheck, by simp only [step, hi, hcheck]⟩))
    | checked p => exact .inl (by simp only [step, hi])
    | answered r => exact .inl (by simp only [step, hi])
  | commit i =>
    cases hi : w.stage i with
    | waiting => exact .inl (by simp only [step, hi])
    | checked p => exact .inr (.inr (.inr ⟨i, p, rfl, hi, by simp only [step, hi]⟩))
    | answered r => exact .inl (by simp only [step, hi])

/-! ## Answers -/

theorem answered_update {i j : Nat} {x : Stage P R} {r : R} (h : Function.update w.stage i x j = .answered r) :
    j = i ∧ x = .answered r ∨ j ≠ i ∧ w.stage j = .answered r := by
  by_cases e : j = i
  · subst e
    rw [Function.update_self] at h
    exact .inl ⟨rfl, h⟩
  · rw [Function.update_of_ne e] at h
    exact .inr ⟨e, h⟩

/-- An answer stays. -/
theorem answered_step {i : Nat} {r : R} (h : w.stage i = .answered r) (a : Act) :
    (step handler w a).stage i = .answered r := by
  obtain e | ⟨j, p, -, hj, -, e⟩ | ⟨j, r', -, hj, -, e⟩ | ⟨j, p, -, hj, e⟩ := step_cases handler w a
  · rw [e]
    exact h
  all_goals
    have hne : i ≠ j := by
      intro hij
      rw [hij, hj] at h
      cases h
    rw [e]
    dsimp only
    rw [Function.update_of_ne hne]
    exact h

theorem answered_run {i : Nat} {r : R} (h : w.stage i = .answered r) (as : List Act) :
    (run (step handler) w as).stage i = .answered r :=
  run_inv (I := fun w : World S P R => w.stage i = .answered r) h (fun _ a h => answered_step h a) as

/-- A request that has taken its first step is not waiting again. -/
theorem started_step {i : Nat} (h : w.stage i ≠ .waiting) (a : Act) : (step handler w a).stage i ≠ .waiting := by
  obtain e | ⟨j, p, -, hj, -, e⟩ | ⟨j, r', -, hj, -, e⟩ | ⟨j, p, -, hj, e⟩ := step_cases handler w a
  · rw [e]
    exact h
  all_goals
    rw [e]
    dsimp only
    by_cases hij : i = j
    · rw [hij, Function.update_self]
      exact nofun
    · rw [Function.update_of_ne hij]
      exact h

theorem started_run (handler : Nat → TwoStep S P R) {i : Nat} (h : w.stage i ≠ .waiting) (as : List Act) :
    (run (step handler) w as).stage i ≠ .waiting :=
  run_inv (I := fun w : World S P R => w.stage i ≠ .waiting) h (fun _ a h => started_step h a) as

theorem started_check (handler : Nat → TwoStep S P R) (w : World S P R) (i : Nat) :
    (step handler w (.check i)).stage i ≠ .waiting := by
  cases hi : w.stage i with
  | waiting => cases hcheck : (handler i).check w.state <;> simp [step, hi, hcheck]
  | checked p => simp [step, hi]
  | answered r => simp [step, hi]

theorem answered_commit (handler : Nat → TwoStep S P R) {i : Nat} (h : w.stage i ≠ .waiting) :
    ∃ r, (step handler w (.commit i)).stage i = .answered r := by
  cases hi : w.stage i with
  | waiting => exact absurd hi h
  | checked p =>
    refine ⟨((handler i).commit w.state p).2, ?_⟩
    simp [step, hi]
  | answered r => exact ⟨r, answered_step hi _⟩

/-- Who takes both steps is answered. -/
theorem answered_of_steps {i : Nat} {as : List Act} (h : List.Sublist [.check i, .commit i] as) (w : World S P R) :
    ∃ r, (run (step handler) w as).stage i = .answered r := by
  obtain ⟨bs, cs, rfl, hcheck, hcs⟩ :=
    List.append_sublist_iff.mp (show List.Sublist ([Act.check i] ++ [Act.commit i]) as from h)
  obtain ⟨cs, ds, rfl⟩ := List.append_of_mem (List.singleton_sublist.mp hcs)
  obtain ⟨es, fs, rfl⟩ := List.append_of_mem (List.singleton_sublist.mp hcheck)
  rw [run_append, run_append, run_append, run_cons, run_cons]
  have hstarted := started_run handler (started_run handler (started_check handler (run (step handler) w es) i) fs) cs
  obtain ⟨r, hr⟩ := answered_commit handler hstarted
  exact ⟨r, answered_run hr ds⟩

/-! ## Runs -/

/-- What is known of the two steps of each handler on its own, in a state with `I`; what a
check has found goes on to hold as `J`. -/
structure Rules (handler : Nat → TwoStep S P R) (I : S → Prop) (J : Nat → S → P → Prop) (good : Nat → R → Prop)
    (late : Nat → S → P → Prop) : Prop where
  check_ok : ∀ i s p, I s → (handler i).check s = .ok p → J i s p
  check_error : ∀ i s r, I s → (handler i).check s = .error r → good i r
  commit : ∀ i s p, I s → J i s p → (good i ((handler i).commit s p).2 ↔ ¬late i s p)
  keeps : ∀ i s p, I s → J i s p → I ((handler i).commit s p).1
  keeps_found : ∀ i j s p q, I s → J i s p → J j s q → J j ((handler i).commit s p).1 q

variable {I : S → Prop} {J : Nat → S → P → Prop} {s : S}

/-- The state, and what the requests between their steps have found. -/
structure Inv (I : S → Prop) (J : Nat → S → P → Prop) (w : World S P R) : Prop where
  state : I w.state
  found : ∀ i p, w.stage i = .checked p → J i w.state p

theorem checked_update {i j : Nat} {x : Stage P R} {p : P} (h : Function.update w.stage i x j = .checked p) :
    j = i ∧ x = .checked p ∨ j ≠ i ∧ w.stage j = .checked p := by
  by_cases e : j = i
  · subst e
    rw [Function.update_self] at h
    exact .inl ⟨rfl, h⟩
  · rw [Function.update_of_ne e] at h
    exact .inr ⟨e, h⟩

theorem Rules.inv_step (hr : Rules handler I J good late) (h : Inv I J w) (a : Act) : Inv I J (step handler w a) := by
  obtain e | ⟨i, p, -, hi, hcheck, e⟩ | ⟨i, r, -, hi, hcheck, e⟩ | ⟨i, p, -, hi, e⟩ := step_cases handler w a
  · rw [e]
    exact h
  · rw [e]
    refine ⟨h.state, fun j q hj => ?_⟩
    obtain ⟨rfl, hp⟩ | ⟨-, hj⟩ := checked_update hj
    · cases hp
      exact hr.check_ok j w.state p h.state hcheck
    · exact h.found j q hj
  · rw [e]
    refine ⟨h.state, fun j q hj => ?_⟩
    obtain ⟨-, hp⟩ | ⟨-, hj⟩ := checked_update hj
    · cases hp
    · exact h.found j q hj
  · rw [e]
    have hfound := h.found i p hi
    refine ⟨hr.keeps i w.state p h.state hfound, fun j q hj => ?_⟩
    obtain ⟨-, hp⟩ | ⟨-, hj⟩ := checked_update hj
    · cases hp
    · exact hr.keeps_found i j w.state p q h.state hfound (h.found j q hj)

theorem inv_init (h : I s) : Inv I J (.init s : World S P R) := ⟨h, fun _ _ e => by cases e⟩

theorem Rules.inv_run (hr : Rules handler I J good late) (h : I s) (as : List Act) :
    Inv I J (run (step handler) (.init s) as) :=
  Framework.run_inv (inv_init h) (fun _ a hw => hr.inv_step hw a) as

/-- One step keeps the answers good exactly if it is not a late commit. -/
theorem Rules.allGood_step (hr : Rules handler I J good late) (h : Inv I J w) (a : Act) :
    AllGood good (step handler w a) ↔ AllGood good w ∧ ¬LateCommit late w a := by
  have hkeep : AllGood good (step handler w a) → AllGood good w := fun hg i r hi => hg i r (answered_step hi a)
  obtain e | ⟨i, p, ha, hi, hcheck, e⟩ | ⟨i, r, ha, hi, hcheck, e⟩ | ⟨i, p, ha, hi, e⟩ :=
    step_cases handler w a
  · have hlate : ¬LateCommit late w a := by
      rintro ⟨i, p, rfl, hi, -⟩
      have hstage := congrArg (fun w => w.stage i) e
      simp only [step, hi, Function.update_self] at hstage
      cases hstage
    rw [e]
    exact (and_iff_left hlate).symm
  · have hlate : ¬LateCommit late w a := by
      rintro ⟨j, q, hj, -⟩
      rw [ha] at hj
      cases hj
    refine ⟨fun hg => ⟨hkeep hg, hlate⟩, fun hg j r hj => ?_⟩
    rw [e] at hj
    obtain ⟨-, hp⟩ | ⟨-, hj⟩ := answered_update hj
    · cases hp
    · exact hg.1 j r hj
  · have hlate : ¬LateCommit late w a := by
      rintro ⟨j, q, hj, -⟩
      rw [ha] at hj
      cases hj
    refine ⟨fun hg => ⟨hkeep hg, hlate⟩, fun hg j r' hj => ?_⟩
    rw [e] at hj
    obtain ⟨rfl, hp⟩ | ⟨-, hj⟩ := answered_update hj
    · cases hp
      exact hr.check_error j w.state r h.state hcheck
    · exact hg.1 j r' hj
  · have hcommit := hr.commit i w.state p h.state (h.found i p hi)
    constructor
    · intro hg
      refine ⟨hkeep hg, ?_⟩
      rintro ⟨j, q, hj, hq, hlate⟩
      obtain rfl : i = j := by
        rw [ha] at hj
        exact Act.commit.inj hj
      obtain rfl : p = q := by
        rw [hi] at hq
        exact Stage.checked.inj hq
      refine hcommit.mp (hg i _ ?_) hlate
      rw [e]
      exact Function.update_self ..
    · intro hg j r hj
      rw [e] at hj
      obtain ⟨rfl, hp⟩ | ⟨-, hj⟩ := answered_update hj
      · cases hp
        exact hcommit.mpr fun hlate => hg.2 ⟨j, p, ha, hi, hlate⟩
      · exact hg.1 j r hj

/-- All answers of a run are good exactly if no commit was too late. -/
theorem Rules.answers_iff (hr : Rules handler I J good late) (h : I s) (as : List Act) :
    AllGood good (run (step handler) (.init s) as) ↔
      AllSteps (step handler) (fun w a => ¬LateCommit late w a) (.init s) as := by
  have hinit : ¬¬AllGood good (.init s : World S P R) := not_not_intro fun _ _ e => by cases e
  have hstep : ∀ w a, Inv I J w → (¬AllGood good (step handler w a) ↔ ¬AllGood good w ∨ LateCommit late w a) := by
    intro w a hw
    rw [hr.allGood_step hw a, not_and_or, not_not]
  exact not_iff_not.mp
    (run_iff_not_allSteps (P := fun w => ¬AllGood good w) (inv_init h) hinit (fun w a hw => hr.inv_step hw a) hstep as)

/-- What the answers with `done` say of the state: it holds then, and the commits of others
keep it. -/
structure Settles (handler : Nat → TwoStep S P R) (I : S → Prop) (J : Nat → S → P → Prop) (done : Nat → R → Prop)
    (settled : Nat → S → Prop) : Prop where
  check : ∀ i s r, I s → (handler i).check s = .error r → done i r → settled i s
  commit : ∀ i s p, I s → J i s p → done i ((handler i).commit s p).2 → settled i ((handler i).commit s p).1
  keeps : ∀ i j s p, I s → J j s p → settled i s → settled i ((handler j).commit s p).1

theorem Rules.settled_run (hr : Rules handler I J good late) {done : Nat → R → Prop} {settled : Nat → S → Prop}
    (hs : Settles handler I J done settled) (h : I s) (as : List Act) (i : Nat) (r : R)
    (hi : (run (step handler) (.init s) as).stage i = .answered r) (hd : done i r) :
    settled i (run (step handler) (.init s) as).state := by
  induction as using List.reverseRecOn generalizing i r with
  | nil => cases hi
  | append_singleton as a ih =>
    have hinv := hr.inv_run h as
    rw [run_concat] at hi ⊢
    generalize run (step handler) (.init s) as = w at *
    obtain e | ⟨j, p, -, -, -, e⟩ | ⟨j, r', -, -, hcheck, e⟩ | ⟨j, p, -, hj, e⟩ := step_cases handler w a
    · rw [e] at hi ⊢
      exact ih i r hi hd
    · rw [e] at hi ⊢
      obtain ⟨-, hp⟩ | ⟨-, hi⟩ := answered_update hi
      · cases hp
      · exact ih i r hi hd
    · rw [e] at hi ⊢
      obtain ⟨rfl, hp⟩ | ⟨-, hi⟩ := answered_update hi
      · cases hp
        exact hs.check i w.state r hinv.state hcheck hd
      · exact ih i r hi hd
    · rw [e] at hi ⊢
      have hfound := hinv.found j p hj
      obtain ⟨rfl, hp⟩ | ⟨-, hi⟩ := answered_update hi
      · cases hp
        exact hs.commit i w.state p hinv.state hfound hd
      · exact hs.keeps i j w.state p hinv.state hfound (ih i r hi hd)

end TwoStep

end CallingAgent.Framework
