import Mathlib.Tactic.TypeStar

/-!
# Programs that call out

A `Prog Q R E α` makes calls `q : Q`, each answered by some `r : R q`, and ends
with a value or an exception. Between two calls it runs without interruption, so
a program that is interleaved with others is, at any time, the rest of it: a
call and what follows each answer.

`Prog.serve` runs a program on its own, its calls answered one after another by
a server with a state. `Prog.translate` makes each call of a program by another
program, such as the calls of a component by those of the whole (`serve_translate`).

`Prog.Meets` is the rule of pre- and postconditions for such programs: whatever
the answers are, each call meets `pre` in what has come of the calls so far
(a ghost state, moved by `next`), and the end meets `post`. It composes along
the program: `meets_bind`, `meets_tryCatch`, `meets_tryFinally`, `Meets.translate`,
`Meets.mono`; `Meets.serve` is for a program that runs on its own. `Prog.Safe` is
the case in which nothing is said of the end, and `Prog.Only` that without a ghost
state: every call meets a condition of its own. `Prog.FailsOn` says which answers a
program does not survive.
-/

namespace CallingAgent.Framework

/-- A program with calls `Q`, answers `R` and exceptions `E`. -/
inductive Prog (Q : Type) (R : Q → Type) (E α : Type)
  | pure (a : α)
  | raise (e : E)
  | call (q : Q) (k : R q → Prog Q R E α)

namespace Prog

variable {Q : Type} {R : Q → Type} {E α β : Type}

def bind (f : α → Prog Q R E β) : Prog Q R E α → Prog Q R E β
  | .pure a => f a
  | .raise e => .raise e
  | .call q k => .call q fun r => (k r).bind f

/-- `try` and `except`: an exception goes on with `f`. -/
def tryCatch (f : E → Prog Q R E α) : Prog Q R E α → Prog Q R E α
  | .pure a => .pure a
  | .raise e => f e
  | .call q k => .call q fun r => (k r).tryCatch f

/-- Ends as `x`. -/
def ofExcept : Except E α → Prog Q R E α
  | .ok a => .pure a
  | .error e => .raise e

/-- `try` and `finally`: `f` runs at the end, whatever that is. -/
def tryFinally : Prog Q R E α → Prog Q R E Unit → Prog Q R E α
  | .pure a, f => f.bind fun _ => .pure a
  | .raise e, f => f.bind fun _ => .raise e
  | .call q k, f => .call q fun r => (k r).tryFinally f

instance : Monad (Prog Q R E) where
  pure := .pure
  bind p f := p.bind f

instance : MonadExceptOf E (Prog Q R E) where
  throw := .raise
  tryCatch p f := p.tryCatch f

/-- One call. -/
def ask (q : Q) : Prog Q R E (R q) := .call q .pure

/-- Each call is made by a program. -/
def translate {Q' : Type} {R' : Q' → Type} (f : (q : Q) → Prog Q' R' E (R q)) : Prog Q R E α → Prog Q' R' E α
  | .pure a => .pure a
  | .raise e => .raise e
  | .call q k => (f q).bind fun r => (k r).translate f

/-- The call that a program has come to. -/
def next? : Prog Q R E α → Option Q
  | .call q _ => some q
  | _ => none

theorem next?_eq_some {p : Prog Q R E α} {q : Q} : p.next? = some q ↔ ∃ k, p = .call q k := by
  cases p with
  | pure a => simp [next?]
  | raise e => simp [next?]
  | call q' k =>
    simp only [next?, Option.some.injEq]
    constructor
    · rintro rfl; exact ⟨k, rfl⟩
    · rintro ⟨k', e⟩; cases e; rfl

/-- The rest of a program when its next call is answered by `env`. -/
def reply (p : Prog Q R E α) (env : (q : Q) → R q) : Prog Q R E α :=
  match p with
  | .call q k => k (env q)
  | p => p

section Serve

variable {S : Type} (answer : S → (q : Q) → S × R q)

/-- What comes of a program whose calls are answered by `answer`. -/
def serve : Prog Q R E α → S → S × Except E α
  | .pure a, s => (s, .ok a)
  | .raise e, s => (s, .error e)
  | .call q k, s => (k (answer s q).2).serve (answer s q).1

/-- The same for so many calls at most: nothing comes of a program that has more. -/
def serveFor : Prog Q R E α → Nat → S → S × Option (Except E α)
  | .pure a, _, s => (s, some (.ok a))
  | .raise e, _, s => (s, some (.error e))
  | .call _ _, 0, s => (s, none)
  | .call q k, n + 1, s => (k (answer s q).2).serveFor n (answer s q).1

variable {answer}

@[simp] theorem serve_pure (a : α) (s : S) :
    (Pure.pure a : Prog Q R E α).serve answer s = (s, .ok a) := rfl

@[simp] theorem serve_ask (q : Q) (s : S) :
    (ask q : Prog Q R E (R q)).serve answer s = ((answer s q).1, .ok (answer s q).2) := rfl

@[simp] theorem serve_ask_bind (q : Q) (f : R q → Prog Q R E α) (s : S) :
    (ask q >>= f).serve answer s = (f (answer s q).2).serve answer (answer s q).1 := rfl

theorem serve_bind (p : Prog Q R E β) (f : β → Prog Q R E α) (s : S) :
    (p >>= f).serve answer s =
      match (p.serve answer s).2 with
      | .ok b => (f b).serve answer (p.serve answer s).1
      | .error e => ((p.serve answer s).1, .error e) := by
  induction p generalizing s with
  | pure b => rfl
  | raise e => rfl
  | call q k ih => exact ih _ _

theorem serve_tryCatch (p : Prog Q R E α) (f : E → Prog Q R E α) (s : S) :
    (p.tryCatch f).serve answer s =
      match (p.serve answer s).2 with
      | .ok a => ((p.serve answer s).1, .ok a)
      | .error e => (f e).serve answer (p.serve answer s).1 := by
  induction p generalizing s with
  | pure a => rfl
  | raise e => rfl
  | call q k ih => exact ih _ _

variable (answer) in
/-- With enough calls, a program comes to its end. -/
theorem exists_serveFor (p : Prog Q R E α) (s : S) :
    ∃ n, p.serveFor answer n s = ((p.serve answer s).1, some (p.serve answer s).2) := by
  induction p generalizing s with
  | pure a => exact ⟨0, rfl⟩
  | raise e => exact ⟨0, rfl⟩
  | call q k ih =>
    obtain ⟨n, hn⟩ := ih (answer s q).2 (answer s q).1
    exact ⟨n + 1, hn⟩

/-- What each call keeps, a program keeps, even if it is stopped. -/
theorem serveFor_inv {I : S → Prop} (hstep : ∀ s q, I s → I (answer s q).1) (p : Prog Q R E α) (n : Nat) {s : S}
    (hs : I s) : I (p.serveFor answer n s).1 := by
  induction p generalizing s n with
  | pure a => exact hs
  | raise e => exact hs
  | call q k ih =>
    cases n with
    | zero => exact hs
    | succ n => exact ih _ n (hstep s q hs)

/-- If the programs that make the calls do what the server does, in a part `abs` of
the state of another, then the whole does what the program does. -/
theorem serve_translate {Q' : Type} {R' : Q' → Type} {S' : Type} {answer' : S' → (q : Q') → S' × R' q}
    {f : (q : Q) → Prog Q' R' E (R q)} {abs : S' → S} {I : S' → Prop}
    (h : ∀ s' q, I s' → ((f q).serve answer' s').2 = .ok (answer (abs s') q).2 ∧
      abs ((f q).serve answer' s').1 = (answer (abs s') q).1 ∧ I ((f q).serve answer' s').1)
    (p : Prog Q R E α) {s' : S'} (hs' : I s') :
    ((p.translate f).serve answer' s').2 = (p.serve answer (abs s')).2 ∧
      abs ((p.translate f).serve answer' s').1 = (p.serve answer (abs s')).1 ∧
      I ((p.translate f).serve answer' s').1 := by
  induction p generalizing s' with
  | pure a => exact ⟨rfl, rfl, hs'⟩
  | raise e => exact ⟨rfl, rfl, hs'⟩
  | call q k ih =>
    obtain ⟨hr, habs, hI⟩ := h s' q hs'
    have hbind : ((f q).bind fun r => (k r).translate f).serve answer' s' = _ := serve_bind (f q) _ s'
    rw [hr] at hbind
    have hcall : ((call q k).translate f).serve answer' s' =
        ((k (answer (abs s') q).2).translate f).serve answer' ((f q).serve answer' s').1 := hbind
    rw [hcall, serve, ← habs]
    exact ih _ hI

end Serve

section Meets

variable {G : Type} (pre : G → Q → Prop) (next : G → (q : Q) → R q → G)

/-- Whatever the answers, every call meets `pre` and the end meets `post`. -/
def Meets (post : G → Except E α → Prop) : Prog Q R E α → G → Prop
  | .pure a, g => post g (.ok a)
  | .raise e, g => post g (.error e)
  | .call q k, g => pre g q ∧ ∀ r, (k r).Meets post (next g q r)

variable {pre next} {post post' : G → Except E α → Prop} {g : G}

theorem Meets.mono (h : ∀ g x, post g x → post' g x) {p : Prog Q R E α} (hp : p.Meets pre next post g) :
    p.Meets pre next post' g := by
  induction p generalizing g with
  | pure a => exact h _ _ hp
  | raise e => exact h _ _ hp
  | call q k ih => exact ⟨hp.1, fun r => ih r (hp.2 r)⟩

/-- Nothing is asked. -/
theorem meets_of_forall (hpre : ∀ g q, pre g q) (hpost : ∀ g x, post g x) (p : Prog Q R E α) :
    p.Meets pre next post g := by
  induction p generalizing g with
  | pure a => exact hpost _ _
  | raise e => exact hpost _ _
  | call q k ih => exact ⟨hpre g q, fun r => ih r⟩

theorem meets_ask {q : Q} {post : G → Except E (R q) → Prop} :
    (ask q).Meets pre next post g ↔ pre g q ∧ ∀ r, post (next g q r) (.ok r) := Iff.rfl

theorem meets_ask_bind {q : Q} {f : R q → Prog Q R E α} :
    (ask q >>= f).Meets pre next post g ↔ pre g q ∧ ∀ r, (f r).Meets pre next post (next g q r) := Iff.rfl

theorem meets_bind {p : Prog Q R E β} {f : β → Prog Q R E α} :
    (p >>= f).Meets pre next post g ↔
      p.Meets pre next
        (fun g x => match x with
          | .ok b => (f b).Meets pre next post g
          | .error e => post g (.error e)) g := by
  induction p generalizing g with
  | pure b => exact Iff.rfl
  | raise e => exact Iff.rfl
  | call q k ih => exact and_congr_right fun _ => forall_congr' fun r => ih r

theorem meets_tryCatch {p : Prog Q R E α} {f : E → Prog Q R E α} :
    (p.tryCatch f).Meets pre next post g ↔
      p.Meets pre next
        (fun g x => match x with
          | .ok a => post g (.ok a)
          | .error e => (f e).Meets pre next post g) g := by
  induction p generalizing g with
  | pure a => exact Iff.rfl
  | raise e => exact Iff.rfl
  | call q k ih => exact and_congr_right fun _ => forall_congr' fun r => ih r

theorem meets_tryFinally {p : Prog Q R E α} {f : Prog Q R E Unit} :
    (p.tryFinally f).Meets pre next post g ↔
      p.Meets pre next (fun g x => (f >>= fun _ => ofExcept x).Meets pre next post g) g := by
  induction p generalizing g with
  | pure a => exact Iff.rfl
  | raise e => exact Iff.rfl
  | call q k ih => exact and_congr_right fun _ => forall_congr' fun r => ih r

/-- If the programs that make the calls meet their conditions, so does the whole. -/
theorem Meets.translate {Q' : Type} {R' : Q' → Type} {pre' : G → Q' → Prop} {next' : G → (q : Q') → R' q → G}
    {f : (q : Q) → Prog Q' R' E (R q)} {p : Prog Q R E α} (hp : p.Meets pre next post g)
    (hf : ∀ g q, pre g q → (f q).Meets pre' next' (fun g' x => ∃ r, x = .ok r ∧ g' = next g q r) g) :
    (p.translate f).Meets pre' next' post g := by
  induction p generalizing g with
  | pure a => exact hp
  | raise e => exact hp
  | call q k ih =>
    refine meets_bind.mpr ((hf g q hp.1).mono fun g' x hx => ?_)
    obtain ⟨r, rfl, rfl⟩ := hx
    exact ih r (hp.2 r)

/-- What holds of the ghost state and the server's state before a program that
meets its conditions holds after it, if the server keeps it at every such call. -/
theorem Meets.serve {S : Type} {answer : S → (q : Q) → S × R q} {I : G → S → Prop} {p : Prog Q R E α} {s : S}
    (hp : p.Meets pre next post g) (hI : I g s)
    (hstep : ∀ g s q, I g s → pre g q → I (next g q (answer s q).2) (answer s q).1) :
    ∃ g', I g' (p.serve answer s).1 ∧ post g' (p.serve answer s).2 := by
  induction p generalizing g s with
  | pure a => exact ⟨g, hI, hp⟩
  | raise e => exact ⟨g, hI, hp⟩
  | call q k ih => exact ih _ (hp.2 _) (hstep g s q hI hp.1)

/-- The same for a program that may be stopped. -/
theorem Meets.serveFor {S : Type} {answer : S → (q : Q) → S × R q} {I : G → S → Prop} {p : Prog Q R E α} {s : S}
    (hp : p.Meets pre next post g) (hI : I g s)
    (hstep : ∀ g s q, I g s → pre g q → I (next g q (answer s q).2) (answer s q).1) (n : Nat) :
    ∃ g', I g' (p.serveFor answer n s).1 ∧ ∀ x, (p.serveFor answer n s).2 = some x → post g' x := by
  induction p generalizing g s n with
  | pure a => exact ⟨g, hI, fun x h => by cases h; exact hp⟩
  | raise e => exact ⟨g, hI, fun x h => by cases h; exact hp⟩
  | call q k ih =>
    cases n with
    | zero => exact ⟨g, hI, fun x h => by cases h⟩
    | succ n => exact ih _ (hp.2 _) (hstep g s q hI hp.1) n

end Meets

section Safe

variable {G : Type} {pre : G → Q → Prop} {next : G → (q : Q) → R q → G}

/-- From every ghost state, every call meets `pre`. -/
def Safe (pre : G → Q → Prop) (next : G → (q : Q) → R q → G) (p : Prog Q R E α) : Prop :=
  ∀ g, p.Meets pre next (fun _ _ => True) g

theorem safe_pure (a : α) : Safe pre next (Pure.pure a : Prog Q R E α) := fun _ => trivial

theorem safe_throw (e : E) : Safe pre next (throw e : Prog Q R E α) := fun _ => trivial

theorem safe_ask {q : Q} (h : ∀ g, pre g q) : Safe pre next (ask q : Prog Q R E (R q)) :=
  fun g => ⟨h g, fun _ => trivial⟩

theorem Safe.bind {p : Prog Q R E α} {f : α → Prog Q R E β} (hp : Safe pre next p) (hf : ∀ a, Safe pre next (f a)) :
    Safe pre next (p >>= f) := by
  refine fun g => meets_bind.mpr ((hp g).mono fun g' x _ => ?_)
  cases x with
  | ok a => exact hf a g'
  | error e => trivial

theorem Safe.tryCatch {p : Prog Q R E α} {f : E → Prog Q R E α} (hp : Safe pre next p) (hf : ∀ e, Safe pre next (f e)) :
    Safe pre next (p.tryCatch f) := by
  refine fun g => meets_tryCatch.mpr ((hp g).mono fun g' x _ => ?_)
  cases x with
  | ok a => trivial
  | error e => exact hf e g'

theorem Safe.tryFinally {p : Prog Q R E α} {f : Prog Q R E Unit} (hp : Safe pre next p) (hf : Safe pre next f) :
    Safe pre next (p.tryFinally f) := by
  refine fun g => meets_tryFinally.mpr ((hp g).mono fun g' x _ => hf.bind (fun _ => ?_) g')
  cases x with
  | ok a => exact safe_pure a
  | error e => exact safe_throw e

end Safe

section Only

variable {P : Q → Prop}

/-- Whatever the answers, every call meets `P`. -/
abbrev Only (P : Q → Prop) (p : Prog Q R E α) : Prop := Safe (fun (_ : Unit) q => P q) (fun _ _ _ => ()) p

theorem only_ask {q : Q} (h : P q) : Only P (ask q : Prog Q R E (R q)) := safe_ask fun _ => h

theorem Only.translate {Q' : Type} {R' : Q' → Type} {P' : Q' → Prop} {f : (q : Q) → Prog Q' R' E (R q)}
    {p : Prog Q R E α} (hp : Only P p) (hf : ∀ q, P q → Only P' (f q)) : Only P' (p.translate f) := by
  induction p with
  | pure a => exact safe_pure a
  | raise e => exact safe_throw e
  | call q k ih => exact (hf q (hp ()).1).bind fun r => ih r fun _ => (hp ()).2 r

/-- Calls that leave the ghost state as it is. -/
theorem Only.meets {G : Type} {pre : G → Q → Prop} {next : G → (q : Q) → R q → G} {p : Prog Q R E α} {g : G}
    (hp : Only P p) (hpre : ∀ q, P q → pre g q) (hnext : ∀ q r, P q → next g q r = g) :
    p.Meets pre next (fun g' _ => g' = g) g := by
  induction p with
  | pure a => rfl
  | raise e => rfl
  | call q k ih =>
    refine ⟨hpre q (hp ()).1, fun r => ?_⟩
    rw [hnext q r (hp ()).1]
    exact ih r fun _ => (hp ()).2 r

/-- What a server keeps at each such call, it keeps all along. -/
theorem Only.serve {S : Type} {answer : S → (q : Q) → S × R q} {I : S → Prop} {p : Prog Q R E α} {s : S}
    (hp : Only P p) (hI : I s) (hstep : ∀ s q, I s → P q → I (answer s q).1) : I (p.serve answer s).1 := by
  obtain ⟨-, h, -⟩ := Meets.serve (I := fun _ s => I s) (hp ()) hI fun _ s q => hstep s q
  exact h

end Only

section FailsOn

variable {bad : (q : Q) → R q → Prop} {e : E} {may may' : E → Prop}

/-- The program ends with `e` as soon as an answer is bad, and otherwise raises at most
what `may` allows. -/
def FailsOn (bad : (q : Q) → R q → Prop) (e : E) (may : E → Prop) : Prog Q R E α → Prop
  | .pure _ => True
  | .raise e' => may e'
  | .call q k => ∀ r, (bad q r → k r = .raise e) ∧ (¬bad q r → (k r).FailsOn bad e may)

theorem failsOn_pure (a : α) : FailsOn bad e may (Pure.pure a : Prog Q R E α) := trivial

/-- A call with no bad answers. -/
theorem failsOn_ask {q : Q} (h : ∀ r, ¬bad q r) : FailsOn bad e may (ask q : Prog Q R E (R q)) :=
  fun r => ⟨fun hb => absurd hb (h r), fun _ => trivial⟩

theorem failsOn_ask_bind {q : Q} {f : R q → Prog Q R E α} :
    FailsOn bad e may (ask q >>= f) ↔ ∀ r, (bad q r → f r = .raise e) ∧ (¬bad q r → (f r).FailsOn bad e may) := Iff.rfl

theorem FailsOn.bind {p : Prog Q R E α} {f : α → Prog Q R E β} (hp : FailsOn bad e may p)
    (hf : ∀ a, FailsOn bad e may (f a)) : FailsOn bad e may (p >>= f) := by
  induction p with
  | pure a => exact hf a
  | raise e' => exact hp
  | call q k ih =>
    refine fun r => ⟨fun hb => ?_, fun hb => ih r ((hp r).2 hb)⟩
    show (k r).bind f = .raise e
    rw [(hp r).1 hb]
    rfl

theorem FailsOn.tryCatch {p : Prog Q R E α} {f : E → Prog Q R E α} (hp : FailsOn bad e may p)
    (hf : ∀ e', may e' → FailsOn bad e may' (f e')) (he : f e = .raise e) : FailsOn bad e may' (p.tryCatch f) := by
  induction p with
  | pure a => exact trivial
  | raise e' => exact hf e' hp
  | call q k ih =>
    refine fun r => ⟨fun hb => ?_, fun hb => ih r ((hp r).2 hb)⟩
    show (k r).tryCatch f = .raise e
    rw [(hp r).1 hb]
    exact he

/-- The answer to the next call is not bad. -/
def Survives (bad : (q : Q) → R q → Prop) (p : Prog Q R E α) (env : (q : Q) → R q) : Prop :=
  match p with
  | .call q _ => ¬bad q (env q)
  | _ => True

theorem FailsOn.reply {p : Prog Q R E α} {env : (q : Q) → R q} (hp : FailsOn bad e may p) (h : Survives bad p env) :
    FailsOn bad e may (p.reply env) := by
  cases p with
  | pure a => exact hp
  | raise e' => exact hp
  | call q k => exact (hp _).2 h

theorem FailsOn.reply_bad {p : Prog Q R E α} {env : (q : Q) → R q} (hp : FailsOn bad e may p) (h : ¬Survives bad p env) :
    p.reply env = .raise e := by
  cases p with
  | pure a => exact absurd trivial h
  | raise e' => exact absurd trivial h
  | call q k => exact (hp _).1 (Classical.not_not.mp h)

/-- A program that is never given a bad answer raises at most what `may` allows. -/
theorem FailsOn.serve {S : Type} {answer : S → (q : Q) → S × R q} {p : Prog Q R E α} (hp : FailsOn bad e may p)
    (h : ∀ s q, ¬bad q (answer s q).2) {s : S} {e' : E} (he : (p.serve answer s).2 = .error e') : may e' := by
  induction p generalizing s with
  | pure a => cases he
  | raise e'' => cases he; exact hp
  | call q k ih => exact ih _ ((hp _).2 (h s q)) he

end FailsOn

end Prog

end CallingAgent.Framework
