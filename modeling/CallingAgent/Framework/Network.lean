import CallingAgent.Framework.Run

/-!
# Pipelines of processors

Each stage of a pipeline has a queue, handles its items one at a time and may await
something in the middle of one. What the stages do is interleaved in any way.

* `Transducer`: what a stage is meant to do, one item after the other, at once;
* `Stage`, `Stage.pipe`: items come in, and the stages move by themselves;
* `Realizes`: whatever the schedule, a stage has pushed a beginning of what it is
  meant to push, and all of it once it is idle, which it can always become;
* `Realizes.pipe`: a pipe of stages realizes the composition of what they realize;
* `Processor.queued`, `Simulates.realizes`: a processor with its queue realizes a
  transducer that it simulates item by item;
* `Processor.atOnce`: what a processor does by itself, as a transducer.
-/

namespace CallingAgent.Framework

/-! ## Transducers -/

/-- What is pushed for each item in turn. -/
structure Transducer (S I O : Type) where
  start : S
  step : S → I → S × List O

namespace Transducer

variable {S I O : Type} (M : Transducer S I O)

def afterFrom (s : S) (xs : List I) : S := run (fun s x => (M.step s x).1) s xs

def outputsFrom (s : S) (xs : List I) : List O := collect (fun s x => (M.step s x).1) (fun s x => (M.step s x).2) s xs

def after (xs : List I) : S := M.afterFrom M.start xs

def outputs (xs : List I) : List O := M.outputsFrom M.start xs

theorem outputsFrom_cons (s : S) (x : I) (xs : List I) :
    M.outputsFrom s (x :: xs) = (M.step s x).2 ++ M.outputsFrom (M.step s x).1 xs := rfl

theorem after_concat (xs : List I) (x : I) : M.after (xs ++ [x]) = (M.step (M.after xs) x).1 := run_concat ..

theorem outputs_concat (xs : List I) (x : I) : M.outputs (xs ++ [x]) = M.outputs xs ++ (M.step (M.after xs) x).2 :=
  collect_concat ..

theorem outputs_mono {xs ys : List I} (h : xs <+: ys) : M.outputs xs <+: M.outputs ys := by
  obtain ⟨zs, rfl⟩ := h
  rw [outputs, outputs, outputsFrom, outputsFrom, collect_append]
  exact List.prefix_append _ _

end Transducer

/-! ## Stages -/

/-- Items arrive, and are only put by; the rest a stage does by moving itself. -/
structure Stage (S I O A : Type) where
  arrive : S → I → S
  move : S → A → S × List O
  idle : S → Prop

namespace Stage

variable {S T I O P A B : Type}

def step (C : Stage S I O A) (s : S) : I ⊕ A → S
  | .inl x => C.arrive s x
  | .inr a => (C.move s a).1

/-- What a step pushes. -/
def pushed (C : Stage S I O A) (s : S) : I ⊕ A → List O
  | .inl _ => []
  | .inr a => (C.move s a).2

/-- All that has arrived. -/
def arrived (as : List (I ⊕ A)) : List I := as.filterMap Sum.getLeft?

def outputs (C : Stage S I O A) (s : S) (as : List (I ⊕ A)) : List O := collect C.step C.pushed s as

/-- What one stage pushes arrives at the next. -/
def pipe (C : Stage S I O A) (D : Stage T O P B) : Stage (S × T) I P (A ⊕ B) where
  arrive s x := (C.arrive s.1 x, s.2)
  move s
    | .inl a => (((C.move s.1 a).1, (C.move s.1 a).2.foldl D.arrive s.2), [])
    | .inr b => ((s.1, (D.move s.2 b).1), (D.move s.2 b).2)
  idle s := C.idle s.1 ∧ D.idle s.2

@[simp] theorem arrived_append (as bs : List (I ⊕ A)) : arrived (as ++ bs) = arrived as ++ arrived bs :=
  List.filterMap_append ..

@[simp] theorem arrived_map_inl (xs : List I) : arrived (xs.map (Sum.inl : I → I ⊕ A)) = xs := by
  simp [arrived, List.filterMap_map, Function.comp_def]

@[simp] theorem arrived_map_inr (as : List A) : arrived (as.map (Sum.inr : A → I ⊕ A)) = [] := by
  simp [arrived, List.filterMap_map, Function.comp_def]

theorem outputs_append (C : Stage S I O A) (s : S) (as bs : List (I ⊕ A)) :
    C.outputs s (as ++ bs) = C.outputs s as ++ C.outputs (run C.step s as) bs := collect_append ..

/-- Items that arrive push nothing. -/
theorem arrive_all (C : Stage S I O A) (s : S) (xs : List I) :
    run C.step s (xs.map .inl) = xs.foldl C.arrive s ∧ C.outputs s (xs.map .inl) = [] := by
  induction xs generalizing s with
  | nil => exact ⟨rfl, rfl⟩
  | cons x xs ih => exact ih (C.arrive s x)

/-! ### What a run of a pipe is for each of its stages -/

/-- The steps of the first stage. -/
def firsts (as : List (I ⊕ (A ⊕ B))) : List (I ⊕ A) :=
  as.filterMap fun
    | .inl x => some (.inl x)
    | .inr (.inl a) => some (.inr a)
    | .inr (.inr _) => none

/-- The steps for the second stage: what the first pushes arrives. -/
def second (C : Stage S I O A) (s : S × T) : I ⊕ (A ⊕ B) → List (O ⊕ B)
  | .inl _ => []
  | .inr (.inl a) => (C.move s.1 a).2.map .inl
  | .inr (.inr b) => [.inr b]

def seconds (C : Stage S I O A) (D : Stage T O P B) (s : S × T) (as : List (I ⊕ (A ⊕ B))) : List (O ⊕ B) :=
  collect (C.pipe D).step C.second s as

theorem firsts_append (as bs : List (I ⊕ (A ⊕ B))) : firsts (as ++ bs) = firsts as ++ firsts bs :=
  List.filterMap_append ..

theorem arrived_firsts (as : List (I ⊕ (A ⊕ B))) : arrived (firsts as) = arrived as := by
  rw [arrived, arrived, firsts, List.filterMap_filterMap]
  refine congrArg (List.filterMap · as) (funext fun a => ?_)
  rcases a with x | a | b <;> rfl

/-- A run of a pipe is a run of its first stage, together with a run of its second
stage at which arrives what the first pushes. -/
theorem run_pipe (C : Stage S I O A) (D : Stage T O P B) (s : S) (t : T) (as : List (I ⊕ (A ⊕ B))) :
    run (C.pipe D).step (s, t) as = (run C.step s (firsts as), run D.step t (C.seconds D (s, t) as)) ∧
      arrived (C.seconds D (s, t) as) = C.outputs s (firsts as) ∧
      (C.pipe D).outputs (s, t) as = D.outputs t (C.seconds D (s, t) as) := by
  induction as using List.reverseRecOn with
  | nil => exact ⟨rfl, rfl, rfl⟩
  | append_singleton as a ih =>
    obtain ⟨hrun, harr, hout⟩ := ih
    have hseconds : C.seconds D (s, t) (as ++ [a]) =
        C.seconds D (s, t) as ++ C.second (run C.step s (firsts as), run D.step t (C.seconds D (s, t) as)) a := by
      rw [seconds, collect_concat, hrun]; rfl
    rw [run_concat, hrun, hseconds, firsts_append, arrived_append, harr, run_append, run_append, outputs_append,
      outputs_append, outputs_append, hrun, hout]
    rcases a with x | a | b
    · exact ⟨rfl, rfl, rfl⟩
    · obtain ⟨hall, hnone⟩ := D.arrive_all (run D.step t (C.seconds D (s, t) as))
        (C.move (run C.step s (firsts as)) a).2
      refine ⟨Prod.ext rfl hall.symm, ?_, congrArg (D.outputs t (C.seconds D (s, t) as) ++ ·) hnone.symm⟩
      refine congrArg (C.outputs s (firsts as) ++ ·) ?_
      rw [second, arrived_map_inl]
      exact (List.append_nil _).symm
    · exact ⟨rfl, rfl, rfl⟩

/-- When only the second stage moves. -/
theorem seconds_map (C : Stage S I O A) (D : Stage T O P B) (s : S × T) (bs : List B) :
    C.seconds D s (bs.map fun b => .inr (.inr b)) = bs.map .inr := by
  induction bs generalizing s with
  | nil => rfl
  | cons b bs ih => exact congrArg (Sum.inr b :: ·) (ih _)

/-! ### What a stage realizes -/

/-- From `s`, whatever the schedule, what has been pushed is a beginning of what `f`
makes of what has arrived, and all of that when the stage is idle; and the stage can
always become idle. -/
structure Realizes (C : Stage S I O A) (s : S) (f : List I → List O) : Prop where
  pushed : ∀ as, C.outputs s as <+: f (arrived as)
  complete : ∀ as, C.idle (run C.step s as) → C.outputs s as = f (arrived as)
  drains : ∀ as, ∃ bs : List A, C.idle (run C.step s (as ++ bs.map .inr))

theorem Realizes.pipe {C : Stage S I O A} {D : Stage T O P B} {s : S} {t : T} {f : List I → List O}
    {g : List O → List P} (hC : C.Realizes s f) (hD : D.Realizes t g)
    (hg : ∀ xs ys, xs <+: ys → g xs <+: g ys) : (C.pipe D).Realizes (s, t) (g ∘ f) where
  pushed as := by
    obtain ⟨-, harr, hout⟩ := C.run_pipe D s t as
    have hfirst := hC.pushed (firsts as)
    have hsecond := hD.pushed (C.seconds D (s, t) as)
    rw [arrived_firsts, ← harr] at hfirst
    rw [hout]
    exact hsecond.trans (hg _ _ hfirst)
  complete as hidle := by
    obtain ⟨hrun, harr, hout⟩ := C.run_pipe D s t as
    rw [hrun] at hidle
    have hfirst := hC.complete (firsts as) hidle.1
    rw [hout, hD.complete _ hidle.2, harr, hfirst, arrived_firsts]
    rfl
  drains as := by
    -- First the one stage comes to rest, and then the other.
    obtain ⟨bs, hbs⟩ := hC.drains (firsts as)
    obtain ⟨cs, hcs⟩ := hD.drains (C.seconds D (s, t) (as ++ bs.map fun b => .inr (.inl b)))
    refine ⟨bs.map .inl ++ cs.map .inr, ?_⟩
    have hlist : as ++ (bs.map Sum.inl ++ cs.map Sum.inr).map Sum.inr =
        (as ++ bs.map fun b => (.inr (.inl b) : I ⊕ (A ⊕ B))) ++ cs.map fun c => .inr (.inr c) := by
      simp [Function.comp_def]
    have hfirst : firsts ((as ++ bs.map fun b => (.inr (.inl b) : I ⊕ (A ⊕ B))) ++ cs.map fun c => .inr (.inr c)) =
        firsts as ++ bs.map .inr := by
      rw [firsts_append, firsts_append]
      simp [firsts, List.filterMap_map]
    have hsecond : C.seconds D (s, t) ((as ++ bs.map fun b => .inr (.inl b)) ++ cs.map fun c => .inr (.inr c)) =
        C.seconds D (s, t) (as ++ bs.map fun b => .inr (.inl b)) ++ cs.map .inr := by
      rw [seconds, collect_append]
      exact congrArg (C.seconds D (s, t) _ ++ ·) (seconds_map C D _ cs)
    rw [hlist, (C.run_pipe D s t _).1, hfirst, hsecond]
    exact ⟨hbs, hcs⟩

end Stage

/-! ## Processors -/

/-- A processor that handles one item at a time. It may await something, and goes on
when it has got it (`resume`). With each of these moves comes an `E`, what its
surroundings contribute, and with a `D` they change its state (`disturb`). -/
structure Processor (S I O W E D : Type) where
  take : S → E → I → S × List O × Option W
  resume : S → E → W → S × List O
  disturb : S → D → S

/-- A processor's queue, its state, and what it awaits. -/
structure Queued (S I W : Type) where
  inbox : List I
  state : S
  awaiting : Option W

/-- The processor takes an item, goes on, or is disturbed. -/
inductive Move (E D : Type)
  | take (e : E)
  | resume (e : E)
  | disturb (d : D)

namespace Processor

variable {S I O W E D : Type}

/-- Nothing has arrived yet. -/
def fresh (s : S) : Queued S I W := ⟨[], s, none⟩

def queued (P : Processor S I O W E D) : Stage (Queued S I W) I O (Move E D) where
  arrive s x := { s with inbox := s.inbox ++ [x] }
  move s
    | .take e =>
      match s.awaiting, s.inbox with
      | none, x :: inbox =>
        let (state, pushed, awaiting) := P.take s.state e x
        (⟨inbox, state, awaiting⟩, pushed)
      | _, _ => (s, [])
    | .resume e =>
      match s.awaiting with
      | some w =>
        let (state, pushed) := P.resume s.state e w
        (⟨s.inbox, state, none⟩, pushed)
      | none => (s, [])
    | .disturb d => ({ s with state := P.disturb s.state d }, [])
  idle s := s.inbox = [] ∧ s.awaiting = none

/-- Between two items the processor and the transducer are related by `R`; while `w` is
awaited, by `Mid w`, and the last list is still to be pushed. -/
structure Simulates {T : Type} (P : Processor S I O W E D) (M : Transducer T I O) (R : S → T → Prop)
    (Mid : W → S → T → List O → Prop) : Prop where
  take : ∀ s t e x, R s t → match P.take s e x with
    | (s', out, none) => out = (M.step t x).2 ∧ R s' (M.step t x).1
    | (s', out, some w) => ∃ owed, (M.step t x).2 = out ++ owed ∧ Mid w s' (M.step t x).1 owed
  resume : ∀ s t e w owed, Mid w s t owed → (P.resume s e w).2 = owed ∧ R (P.resume s e w).1 t
  disturb : ∀ s t d, R s t → R (P.disturb s d) t
  disturb_mid : ∀ s t d w owed, Mid w s t owed → Mid w (P.disturb s d) t owed

variable {T : Type} {P : Processor S I O W E D} {M : Transducer T I O} {R : S → T → Prop}
  {Mid : W → S → T → List O → Prop} {s : Queued S I W} {xs : List I} {out : List O}

/-- What has arrived has been handled or waits, and what the transducer makes of the
items handled has been pushed, but for what is owed. -/
def Inv (M : Transducer T I O) (R : S → T → Prop) (Mid : W → S → T → List O → Prop) (s : Queued S I W) (xs : List I)
    (out : List O) : Prop :=
  ∃ ys, xs = ys ++ s.inbox ∧ match s.awaiting with
    | none => out = M.outputs ys ∧ R s.state (M.after ys)
    | some w => ∃ owed, M.outputs ys = out ++ owed ∧ Mid w s.state (M.after ys) owed

theorem Inv.arrive (h : Inv M R Mid s xs out) (x : I) :
    Inv M R Mid { s with inbox := s.inbox ++ [x] } (xs ++ [x]) out := by
  obtain ⟨ys, rfl, hrest⟩ := h
  exact ⟨ys, List.append_assoc .., hrest⟩

theorem Inv.move (hsim : P.Simulates M R Mid) (h : Inv M R Mid s xs out) (a : Move E D) :
    Inv M R Mid (P.queued.move s a).1 xs (out ++ (P.queued.move s a).2) := by
  obtain ⟨ys, rfl, hrest⟩ := h
  obtain ⟨inbox, state, awaiting⟩ := s
  cases a with
  | take e =>
    cases awaiting with
    | some w => exact ⟨ys, rfl, by simpa [queued] using hrest⟩
    | none =>
      cases inbox with
      | nil => exact ⟨ys, rfl, by simpa [queued] using hrest⟩
      | cons x inbox =>
        obtain ⟨rfl, hR⟩ := hrest
        have htake := hsim.take state (M.after ys) e x hR
        refine ⟨ys ++ [x], by simp [queued], ?_⟩
        rw [M.outputs_concat, M.after_concat]
        rcases hresult : P.take state e x with ⟨state', out', awaiting'⟩
        simp only [queued, hresult] at htake ⊢
        cases awaiting' with
        | none => exact ⟨congrArg (M.outputs ys ++ ·) htake.1, htake.2⟩
        | some w =>
          obtain ⟨owed, howed, hmid⟩ := htake
          exact ⟨owed, by rw [howed, List.append_assoc], hmid⟩
  | resume e =>
    cases awaiting with
    | none => exact ⟨ys, rfl, by simpa [queued] using hrest⟩
    | some w =>
      obtain ⟨owed, hout, hmid⟩ := hrest
      obtain ⟨howed, hR⟩ := hsim.resume state (M.after ys) e w owed hmid
      refine ⟨ys, rfl, ?_⟩
      simp only [queued]
      exact ⟨by rw [howed, hout], hR⟩
  | disturb d =>
    refine ⟨ys, rfl, ?_⟩
    simp only [queued, List.append_nil]
    cases awaiting with
    | none => exact ⟨hrest.1, hsim.disturb _ _ d hrest.2⟩
    | some w =>
      obtain ⟨owed, hout, hmid⟩ := hrest
      exact ⟨owed, hout, hsim.disturb_mid _ _ d w owed hmid⟩

theorem inv_run (hsim : P.Simulates M R Mid) {s₀ : S} (hinit : R s₀ M.start) (as : List (I ⊕ Move E D)) :
    Inv M R Mid (run P.queued.step (fresh s₀) as) (Stage.arrived as) (P.queued.outputs (fresh s₀) as) := by
  induction as using List.reverseRecOn with
  | nil => exact ⟨[], rfl, rfl, hinit⟩
  | append_singleton as a ih =>
    rw [run_concat, Stage.arrived_append, Stage.outputs_append]
    cases a with
    | inl x =>
      rw [show P.queued.outputs _ [.inl x] = [] from rfl, List.append_nil]
      exact ih.arrive x
    | inr a =>
      rw [show Stage.arrived [Sum.inr a] = ([] : List I) from rfl, List.append_nil,
        show P.queued.outputs _ [.inr a] = (P.queued.move _ a).2 ++ [] from rfl, List.append_nil]
      exact ih.move hsim a

/-- A processor handles all that waits for it if it is left to. -/
theorem exists_idle (P : Processor S I O W E D) (e : E) (s : Queued S I W) :
    ∃ bs : List (Move E D), P.queued.idle (run P.queued.step s (bs.map .inr)) := by
  obtain ⟨inbox, state, awaiting⟩ := s
  -- It goes on if it has to, and then takes the items one by one.
  have hall : ∀ (state : S), ∃ bs : List (Move E D),
      P.queued.idle (run P.queued.step ⟨inbox, state, none⟩ (bs.map .inr)) := by
    induction inbox with
    | nil => exact fun state => ⟨[], rfl, rfl⟩
    | cons x inbox ih =>
      intro state
      rcases htake : P.take state e x with ⟨state', out, awaiting'⟩
      have hfirst : (P.queued.move ⟨x :: inbox, state, none⟩ (.take e)).1 = ⟨inbox, state', awaiting'⟩ := by
        simp only [queued, htake]
      cases awaiting' with
      | none =>
        obtain ⟨bs, hbs⟩ := ih state'
        refine ⟨.take e :: bs, ?_⟩
        rw [List.map_cons, run_cons, Stage.step, hfirst]
        exact hbs
      | some w =>
        obtain ⟨bs, hbs⟩ := ih (P.resume state' e w).1
        refine ⟨.take e :: .resume e :: bs, ?_⟩
        rw [List.map_cons, run_cons, Stage.step, hfirst]
        exact hbs
  cases awaiting with
  | none => exact hall state
  | some w =>
    obtain ⟨bs, hbs⟩ := hall (P.resume state e w).1
    exact ⟨.resume e :: bs, hbs⟩

/-- With its queue, a processor realizes the transducer that it simulates. -/
theorem Simulates.realizes (hsim : P.Simulates M R Mid) (e : E) {s₀ : S} (hinit : R s₀ M.start) :
    P.queued.Realizes (fresh s₀) M.outputs where
  pushed as := by
    obtain ⟨ys, hys, hrest⟩ := inv_run hsim hinit as
    have hle : M.outputs ys <+: M.outputs (Stage.arrived as) := M.outputs_mono ⟨_, hys.symm⟩
    cases hw : (run P.queued.step (fresh s₀) as).awaiting with
    | none =>
      rw [hw] at hrest
      rwa [hrest.1]
    | some w =>
      rw [hw] at hrest
      obtain ⟨owed, hout, -⟩ := hrest
      exact List.IsPrefix.trans ⟨owed, hout.symm⟩ hle
  complete as hidle := by
    obtain ⟨ys, hys, hrest⟩ := inv_run hsim hinit as
    rw [hidle.1, List.append_nil] at hys
    rw [hidle.2] at hrest
    rw [hrest.1, hys]
  drains as := by
    obtain ⟨bs, hbs⟩ := exists_idle P e (run P.queued.step (fresh s₀) as)
    exact ⟨bs, by rwa [run_append]⟩

/-- In the end the processor and the transducer are related. -/
theorem Simulates.related (hsim : P.Simulates M R Mid) {s₀ : S} (hinit : R s₀ M.start) {as : List (I ⊕ Move E D)}
    (hidle : P.queued.idle (run P.queued.step (fresh s₀) as)) :
    R (run P.queued.step (fresh s₀) as).state (M.after (Stage.arrived as)) := by
  obtain ⟨ys, hys, hrest⟩ := inv_run hsim hinit as
  rw [hidle.1, List.append_nil] at hys
  rw [hidle.2] at hrest
  rw [hys]
  exact hrest.2

/-- The processor, as if it got at once what it awaits. -/
def atOnce (P : Processor S I O W E D) (e : E) (s₀ : S) : Transducer S I O where
  start := s₀
  step s x :=
    match P.take s e x with
    | (s', out, none) => (s', out)
    | (s', out, some w) => ((P.resume s' e w).1, out ++ (P.resume s' e w).2)

/-- An undisturbed processor simulates itself at once. -/
theorem simulates_atOnce [Subsingleton E] [IsEmpty D] (P : Processor S I O W E D) (e : E) (s₀ : S) :
    P.Simulates (P.atOnce e s₀) Eq (fun w s t owed => P.resume s e w = (t, owed)) where
  take s t e' x h := by
    subst h
    rw [Subsingleton.elim e' e]
    rcases htake : P.take s e x with ⟨s', out, awaiting⟩
    cases awaiting with
    | none => simp [atOnce, htake]
    | some w => simp [atOnce, htake]
  resume s t e' w owed h := by
    rw [Subsingleton.elim e' e, h]
    exact ⟨rfl, rfl⟩
  disturb s t d := isEmptyElim d
  disturb_mid s t d := isEmptyElim d

end Processor

end CallingAgent.Framework
