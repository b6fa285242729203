import CallingAgent.Proof.Customers.PhoneNumber
import CallingAgent.Proof.Customers.Profiles

/-!
# One customer per phone number

The phone number of a customer is what has been submitted, as it is: `submitted_iff`
says of whom there are rows. If every number is submitted in E.164 form, then two
spellings of it are one, and the rows of a tenant are of different numbers.
-/

namespace CallingAgent.Proof.Customers

open CallingAgent.Framework CallingAgent.Impl CallingAgent.Impl.Reads CallingAgent.Impl.ClientRouter
open CallingAgent.Spec.CustomerProfiles CallingAgent.Spec.PhoneNumber
open CallingAgent.Impl.CallerRequest (isSpace)

/-! ## Spellings -/

theorem digit_plain {c : Char} (h : '0' ≤ c ∧ c ≤ '9') : (isSpace c || c ∈ ['-', '(', ')']) = false := by
  have low : 48 ≤ c.toNat := h.1
  have high : c.toNat ≤ 57 := h.2
  have hspace : isSpace c = false := by
    simp only [isSpace, List.contains_eq_mem, List.mem_cons, List.not_mem_nil]
    simp
    omega
  have hne : c ∉ ['-', '(', ')'] := by
    intro hc
    have : c.toNat ∈ ['-', '(', ')'].map Char.toNat := List.mem_map_of_mem hc
    simp at this
    omega
  rw [hspace, Bool.false_or, decide_eq_false hne]

/-- A number in E.164 form is its own spelling. -/
theorem spelled_e164 {text : String} (h : E164 text) : spelled isSpace text = text := by
  obtain ⟨d, ds, e, hd, -, hds⟩ := h
  have hd' : '0' ≤ d ∧ d ≤ '9' := ⟨Char.le_trans (by decide) hd.1, hd.2⟩
  have hall : ∀ c ∈ text.toList, (!(isSpace c || c ∈ ['-', '(', ')'])) = true := by
    intro c hc
    rw [e, List.mem_cons, List.mem_cons] at hc
    rcases hc with rfl | rfl | hc
    · decide
    · rw [digit_plain hd']; rfl
    · rw [digit_plain (hds c hc)]; rfl
  rw [spelled, List.filter_eq_self.2 hall, String.ofList_toList]

/-- Every row is of a number in E.164 form, and no two of a tenant of the same. -/
structure OnePerNumber (s : Database) : Prop where
  e164 : ∀ c ∈ s.customers.rows, E164 c.phone
  one : ∀ c ∈ s.customers.rows, ∀ c' ∈ s.customers.rows, c.clientId = c'.clientId →
    spelled isSpace c.phone = spelled isSpace c'.phone → c = c'

/-- Two upserts of a run by one tenant, with spellings of one number, are answered
with the same row. -/
def SameRow (s : Database) (as : List Request) : Prop :=
  ∀ bs request cs request' ds, as = bs ++ request :: (cs ++ request' :: ds) →
    ∀ clientId phone values phone' values', requested request = some (.upsert clientId phone values) →
      requested request' = some (.upsert clientId phone' values') → spelled isSpace phone = spelled isSpace phone' →
      ∀ c c', (serve (run step s bs) request).2 = .ok c →
        (serve (run step s (bs ++ request :: cs)) request').2 = .ok c' → c.id = c'.id

/-- An upsert whose commit the database carries out is of a number in E.164 form. -/
def SubmitsE164 (request : Request) : Prop :=
  request.io.commits = true → ∀ clientId phone values, requested request = some (.upsert clientId phone values) → E164 phone

variable {s : Database} {request : Request}

/-- The row that an upsert is answered with. -/
theorem upsert_row {clientId : Int} {phone : String} {values : Field → Option String} {c : Customer}
    (hr : requested request = some (.upsert clientId phone values)) (hok : (serve s request).2 = .ok c) :
    c ∈ (step s request).customers.rows ∧ c.clientId = clientId ∧ c.phone = phone := by
  have hin : ∃ c', (serve s request).2 = .ok c' ∧ c' ∈ (step s request).customers.rows ∧ c'.clientId = clientId ∧
      c'.phone = phone := by
    rcases serve_cases s request with h | ⟨-, n, body, customers, ht, hw, -, hinsert, hserve⟩ |
      ⟨d, -, submission, hr', hd, hconcerns, hserve⟩
    · exact absurd hok h.not_ok
    · rw [requested_create ht hw, Option.some.injEq, Submission.upsert.injEq] at hr
      refine ⟨_, hserve.ok hok, ?_, hr.1, hr.2.1⟩
      rw [hserve.step_eq]
      exact (Table.mem_insert hinsert).mpr (.inr rfl)
    · obtain rfl : submission = .upsert clientId phone values := Option.some.inj (hr'.symm.trans hr)
      simp only [Submission.concerns, Bool.and_eq_true, decide_eq_true_eq] at hconcerns
      have hmerges := merges_change hr'
      refine ⟨_, hserve.ok hok, ?_, (hmerges.clientId d).trans hconcerns.1, (hmerges.phone d).trans hconcerns.2⟩
      rw [hserve.step_eq]
      exact mem_update _ hd
  obtain ⟨c', hok', h⟩ := hin
  obtain rfl : c = c' := by rw [hok] at hok'; injection hok'
  exact h

/-- What is submitted is requested, and committed. -/
theorem commits_of_submitted {submission : Submission} (h : submission ∈ submitted s request) :
    request.io.commits = true ∧ requested request = some submission := by
  have hr : requested request = some submission := by
    unfold submitted at h
    split at h
    · exact Option.mem_toList.mp h
    · cases h
  refine ⟨?_, hr⟩
  rcases serve_cases s request with hrej | ⟨hcommits, -⟩ | ⟨d, hcommits, -⟩
  · rw [submitted_rejected hrej] at h
    cases h
  · exact hcommits
  · exact hcommits

theorem requested_of_collect {s₀ : Database} {submission : Submission} {as : List Request}
    (h : submission ∈ collect step submitted s₀ as) :
    ∃ request ∈ as, request.io.commits = true ∧ requested request = some submission := by
  induction as using List.reverseRecOn with
  | nil => cases h
  | append_singleton as a ih =>
    rw [collect_concat, List.mem_append] at h
    cases h with
    | inl h =>
      obtain ⟨request, hmem, h⟩ := ih h
      exact ⟨request, List.mem_append_left _ hmem, h⟩
    | inr h => exact ⟨a, List.mem_append_right _ (List.mem_singleton_self a), commits_of_submitted h⟩

/-- A state reached by upserts in E.164 form. -/
theorem onePerNumber_run {s₀ : Database} (hempty : s₀.customers.rows = []) {as : List Request}
    (h : ∀ request ∈ as, SubmitsE164 request) : OnePerNumber (run step s₀ as) := by
  have hI := inv_run hempty as
  have hall : ∀ c ∈ (run step s₀ as).customers.rows, E164 c.phone := by
    intro c hc
    obtain ⟨values, hmem⟩ := (hI.pairs c.clientId c.phone).mpr ⟨c, hc, rfl, rfl⟩
    obtain ⟨request, hmem, hcommits, hr⟩ := requested_of_collect hmem
    exact h request hmem hcommits _ _ _ hr
  refine ⟨hall, fun c hc c' hc' hclient hspelled => ?_⟩
  rw [spelled_e164 (hall c hc), spelled_e164 (hall c' hc')] at hspelled
  exact hI.unique c hc c' hc' hclient hspelled

theorem sameRow_run {s₀ : Database} {as : List Request} (h : Always step OnePerNumber s₀ as) : SameRow s₀ as := by
  rintro bs request cs request' ds rfl n p values p' values' hr hr' hspelled c c' hok hok'
  obtain ⟨hc, hclient, hphone⟩ := upsert_row hr hok
  obtain ⟨hc', hclient', hphone'⟩ := upsert_row hr' hok'
  -- The first row is still there after the second upsert.
  obtain ⟨c₁, hc₁, hsame⟩ := kept_run hc (cs ++ [request'])
  have hrun : run step (step (run step s₀ bs) request) (cs ++ [request']) =
      step (run step s₀ (bs ++ request :: cs)) request' := by
    rw [run_append, run_append, run_cons, run_cons, run_nil]
  rw [hrun] at hc₁
  have hone : OnePerNumber (step (run step s₀ (bs ++ request :: cs)) request') := by
    have := h (bs ++ request :: cs ++ [request']) ⟨ds, by simp⟩
    rwa [run_concat] at this
  have heq : c₁ = c' := by
    refine hone.one c₁ hc₁ c' hc' ?_ ?_
    · rw [hsame.clientId, hclient, hclient']
    · rw [hsame.phone, hphone, hphone', hspelled]
  rw [← heq, hsame.id]

/-- If the numbers of the upserts that are committed are in E.164 form, then in every
state of a run every customer's is, no two customers of a tenant have spellings of one
number, and upserts with spellings of one number reach the same row. And if no value of
`uuid4` comes twice, this is so in no other run. -/
theorem one_per_number (database : Database) (as : List Request) :
    let s₀ : Database := { database with customers := Table.empty }
    ((∀ request ∈ as, SubmitsE164 request) → Always step OnePerNumber s₀ as ∧ SameRow s₀ as) ∧
    ((as.map fun r => r.io.uuid4).Nodup → Always step OnePerNumber s₀ as → ∀ request ∈ as, SubmitsE164 request) := by
  intro s₀
  have hempty : s₀.customers.rows = [] := rfl
  constructor
  · intro h
    have halways : Always step OnePerNumber s₀ as := fun bs hbs =>
      onePerNumber_run hempty fun request hr => h request (hbs.subset hr)
    exact ⟨halways, sameRow_run halways⟩
  · intro hfresh halways request hmem hcommits n phone values hr
    obtain ⟨bs, cs, rfl⟩ := List.append_of_mem hmem
    have hnew : request.io.uuid4 ∉ bs.map fun r => r.io.uuid4 := by
      rw [List.map_append, List.nodup_append] at hfresh
      exact fun hmem => hfresh.2.2 _ hmem _ (List.mem_cons_self ..) rfl
    obtain ⟨customers, c, hserve, hc, -, rfl⟩ :=
      upsert_commits (inv_run hempty bs).unique (lookup_fresh hempty hnew) hcommits hr
    have hone := halways (bs ++ [request]) ⟨cs, by simp⟩
    rw [run_concat, hserve.step_eq] at hone
    exact hone.e164 c hc

/-! ## Two spellings of one number -/

def spelling (phone uuid4 : String) : Request where
  authorization := some (some { role := some "tenant_admin", type := some "access", clientId := some 1, exp := some 60 })
  write := .createOrUpdateCustomer (.ok { phone := phone })
  io := { now := 0, uuid4 := uuid4, commits := true }
  rls := none
  found := none

/-- The tenant submits a number with blanks, and again without. -/
theorem spellings_two_rows :
    ¬∀ (database : Database) (as : List Request),
      let s₀ : Database := { database with customers := Table.empty }
      Always step OnePerNumber s₀ as ∧ SameRow s₀ as := by
  intro h
  let s₀ : Database := ⟨Table.empty, Table.empty, Table.empty, Table.empty, Table.empty, Table.empty⟩
  have hrow := (h s₀ [spelling "+971 50 123 4567" "a", spelling "+971501234567" "b"]).2
  have hids := hrow [] _ [] _ [] rfl 1 _ _ _ _ rfl rfl (by decide) _ _ rfl rfl
  exact absurd hids (by decide)

end CallingAgent.Proof.Customers
