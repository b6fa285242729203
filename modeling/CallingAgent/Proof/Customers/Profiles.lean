import CallingAgent.Framework.Run
import CallingAgent.Proof.Customers.Requests

/-!
# The profiles of the customers

After any run of requests, there is one row for each pair of tenant and phone
number submitted, with the last value submitted for each field (`Inv`); the rows of
a tenant are those that its own requests make alone (`own_step_congr`).
-/

namespace CallingAgent.Proof.Customers

open CallingAgent.Framework CallingAgent.Impl CallingAgent.Impl.Reads CallingAgent.Impl.ClientRouter
open CallingAgent.Spec.CustomerProfiles

variable {s s' : Database} {request : Request} {submissions : List Submission}

/-! ## What a request has submitted -/

theorem submitted_rejected (h : Rejected s request) : submitted s request = [] := by
  simp [submitted, h.not_committed]

theorem submitted_committed {submission : Submission} (hr : requested request = some submission)
    (h : committed s request = true) : submitted s request = [submission] := by
  simp [submitted, h, hr]

/-- What a merge makes of a row. -/
def mergeRow (request : Request) (customerId : String) (c : Customer) : Customer :=
  if c.id = customerId then change request c else c

theorem mergedTable_rows (customers : Table Customer.id) (request : Request) (customerId : String) :
    (mergedTable customers request customerId).rows = customers.rows.map (mergeRow request customerId) := by
  simp [mergedTable, Table.update, Update.row, setCustomer, mergeRow]

/-- The same tenant, id and phone number. -/
structure SameCustomer (c c' : Customer) : Prop where
  id : c'.id = c.id
  clientId : c'.clientId = c.clientId
  phone : c'.phone = c.phone

theorem mergeRow_keeps {values : Field → Option String} (h : Merges values (change request)) (customerId : String)
    (c : Customer) : SameCustomer c (mergeRow request customerId c) := by
  unfold mergeRow
  split
  · exact ⟨h.id c, h.clientId c, h.phone c⟩
  · exact ⟨rfl, rfl, rfl⟩

/-- The change of the row that a submission is merged into. -/
theorem merges_change {submission : Submission} (hr : requested request = some submission) :
    Merges submission.values (change request) := by
  unfold requested at hr
  cases ht : tenant request with
  | none => simp [ht] at hr
  | some clientId =>
    cases hw : request.write with
    | createOrUpdateCustomer body =>
      cases body with
      | error errors => simp [ht, hw] at hr
      | ok body =>
        simp only [ht, hw, Option.bind_some, Option.some.injEq] at hr
        rw [← hr, change_create hw]
        exact merges_create body _
    | updateCustomer customerId body =>
      cases body with
      | error errors => simp [ht, hw] at hr
      | ok body =>
        simp only [ht, hw, Option.bind_some, Option.some.injEq] at hr
        rw [← hr, change_update hw]
        exact merges_update body _

/-! ## The invariant -/

/-- No two rows of a tenant have one phone number (`uq_customers_client_phone`). -/
def UniquePairs (s : Database) : Prop :=
  ∀ c ∈ s.customers.rows, ∀ c' ∈ s.customers.rows, c.clientId = c'.clientId → c.phone = c'.phone → c = c'

/-- The table after the submissions. -/
structure Inv (s : Database) (submissions : List Submission) : Prop where
  unique : UniquePairs s
  pairs : ∀ clientId phone, (∃ values, .upsert clientId phone values ∈ submissions) ↔
    ∃ c ∈ s.customers.rows, c.clientId = clientId ∧ c.phone = phone
  updated : ∀ clientId customerId values, .update clientId customerId values ∈ submissions →
    ∃ c ∈ s.customers.rows, c.id = customerId
  fields : ∀ c ∈ s.customers.rows, ∀ f, field c f = lastValue submissions c f

/-- A submission concerns one row at most. -/
theorem eq_of_concerns (hu : UniquePairs s) {submission : Submission} {c c' : Customer} (hc : c ∈ s.customers.rows)
    (hc' : c' ∈ s.customers.rows) (h : submission.concerns c = true) (h' : submission.concerns c' = true) : c = c' := by
  cases submission with
  | upsert clientId phone values =>
    simp only [Submission.concerns, Bool.and_eq_true, decide_eq_true_eq] at h h'
    exact hu c hc c' hc' (h.1.trans h'.1.symm) (h.2.trans h'.2.symm)
  | update clientId customerId values =>
    simp only [Submission.concerns, Bool.and_eq_true, decide_eq_true_eq] at h h'
    exact Table.eq_of_key_eq hc hc' (h.2.trans h'.2.symm)

theorem Inv.creates (h : Inv s submissions) (hc : Creates s request) :
    Inv (step s request) (submissions ++ submitted s request) := by
  obtain ⟨-, clientId, body, customers, ht, hw, habsent, hinsert, hserve⟩ := hc
  have hrows : ∀ c, c ∈ (step s request).customers.rows ↔ c ∈ s.customers.rows ∨ c = body.customer request.io clientId := by
    intro c
    rw [hserve.step_eq]
    exact Table.mem_insert hinsert
  have hid : ∀ c ∈ s.customers.rows, c.id ≠ request.io.uuid4 := Table.lookup_eq_none.mp (Table.insert_eq_some hinsert).1
  rw [submitted_committed (requested_create ht hw) hserve.committed]
  refine ⟨fun c hc c' hc' hclient hphone => ?_, fun t p => ?_, fun t id values hmem => ?_, fun c hc f => ?_⟩
  · rcases (hrows c).mp hc with hc | rfl <;> rcases (hrows c').mp hc' with hc' | rfl
    · exact h.unique c hc c' hc' hclient hphone
    · exact absurd ⟨hclient, hphone⟩ (habsent c hc)
    · exact absurd ⟨hclient.symm, hphone.symm⟩ (habsent c' hc')
    · rfl
  · have hold := h.pairs t p
    constructor
    · rintro ⟨values, hmem⟩
      rcases List.mem_append.mp hmem with hmem | hmem
      · obtain ⟨c, hc, hpair⟩ := hold.mp ⟨values, hmem⟩
        exact ⟨c, (hrows c).mpr (.inl hc), hpair⟩
      · cases List.mem_singleton.mp hmem
        exact ⟨_, (hrows _).mpr (.inr rfl), rfl, rfl⟩
    · rintro ⟨c, hc, hclient, hphone⟩
      rcases (hrows c).mp hc with hc | rfl
      · obtain ⟨values, hmem⟩ := hold.mpr ⟨c, hc, hclient, hphone⟩
        exact ⟨values, List.mem_append_left _ hmem⟩
      · subst hclient
        subst hphone
        exact ⟨_, List.mem_append_right _ (List.mem_singleton_self _)⟩
  · rcases List.mem_append.mp hmem with hmem | hmem
    · obtain ⟨c, hc, hcid⟩ := h.updated t id values hmem
      exact ⟨c, (hrows c).mpr (.inl hc), hcid⟩
    · cases List.mem_singleton.mp hmem
  · rw [lastValue_concat]
    rcases (hrows c).mp hc with hc | rfl
    · have hne : (Submission.upsert clientId body.phone (createValues body)).concerns c = false := by
        have := habsent c hc
        simpa [Submission.concerns] using this
      rw [hne, if_neg Bool.false_ne_true]
      exact h.fields c hc f
    · have hnew : ∀ x ∈ submissions, x.concerns (body.customer request.io clientId) = false := by
        intro x hx
        by_contra hconcerns
        rw [Bool.not_eq_false] at hconcerns
        cases x with
        | upsert t p values =>
          simp only [Submission.concerns, Bool.and_eq_true, decide_eq_true_eq] at hconcerns
          obtain ⟨c, hc, hclient, hphone⟩ := (h.pairs t p).mp ⟨values, hx⟩
          exact habsent c hc ⟨hclient.trans hconcerns.1.symm, hphone.trans hconcerns.2.symm⟩
        | update t id values =>
          simp only [Submission.concerns, Bool.and_eq_true, decide_eq_true_eq] at hconcerns
          obtain ⟨c, hc, hcid⟩ := h.updated t id values hx
          exact hid c hc (hcid.trans hconcerns.2.symm)
      rw [lastValue_of_new hnew, field_customer]
      simp [Submission.concerns, Submission.values, CustomerCreate.customer]

theorem Inv.merges (h : Inv s submissions) {c : Customer} (hm : MergesInto s request c) :
    Inv (step s request) (submissions ++ submitted s request) := by
  obtain ⟨-, submission, hr, hc, hconcerns, hserve⟩ := hm
  have hchange := merges_change hr
  have hkeep := mergeRow_keeps hchange c.id
  have hrows : ∀ c', c' ∈ (step s request).customers.rows ↔ ∃ r ∈ s.customers.rows, mergeRow request c.id r = c' := by
    intro c'
    rw [hserve.step_eq]
    simp only [mergedTable_rows, List.mem_map]
  rw [submitted_committed hr hserve.committed]
  refine ⟨fun x hx y hy hclient hphone => ?_, fun t p => ?_, fun t id values hmem => ?_, fun x hx f => ?_⟩
  · obtain ⟨r, hr, rfl⟩ := (hrows x).mp hx
    obtain ⟨r', hr', rfl⟩ := (hrows y).mp hy
    rw [(hkeep r).clientId, (hkeep r').clientId] at hclient
    rw [(hkeep r).phone, (hkeep r').phone] at hphone
    rw [h.unique r hr r' hr' hclient hphone]
  · have hold := h.pairs t p
    have hnew : (∃ x ∈ (step s request).customers.rows, x.clientId = t ∧ x.phone = p) ↔
        ∃ r ∈ s.customers.rows, r.clientId = t ∧ r.phone = p := by
      constructor
      · rintro ⟨x, hx, hclient, hphone⟩
        obtain ⟨r, hr, rfl⟩ := (hrows x).mp hx
        exact ⟨r, hr, (hkeep r).clientId ▸ hclient, (hkeep r).phone ▸ hphone⟩
      · rintro ⟨r, hr, hclient, hphone⟩
        exact ⟨_, (hrows _).mpr ⟨r, hr, rfl⟩, (hkeep r).clientId.trans hclient, (hkeep r).phone.trans hphone⟩
    rw [hnew, ← hold]
    constructor
    · rintro ⟨values, hmem⟩
      rcases List.mem_append.mp hmem with hmem | hmem
      · exact ⟨values, hmem⟩
      · obtain rfl := List.mem_singleton.mp hmem
        simp only [Submission.concerns, Bool.and_eq_true, decide_eq_true_eq] at hconcerns
        exact hold.mpr ⟨c, hc, hconcerns⟩
    · rintro ⟨values, hmem⟩
      exact ⟨values, List.mem_append_left _ hmem⟩
  · rcases List.mem_append.mp hmem with hmem | hmem
    · obtain ⟨r, hr, hid⟩ := h.updated t id values hmem
      exact ⟨_, (hrows _).mpr ⟨r, hr, rfl⟩, (hkeep r).id.trans hid⟩
    · obtain rfl := List.mem_singleton.mp hmem
      simp only [Submission.concerns, Bool.and_eq_true, decide_eq_true_eq] at hconcerns
      exact ⟨_, (hrows _).mpr ⟨c, hc, rfl⟩, (hkeep c).id.trans hconcerns.2⟩
  · obtain ⟨r, hr, rfl⟩ := (hrows x).mp hx
    rw [lastValue_congr (hkeep r).id (hkeep r).clientId (hkeep r).phone, lastValue_concat, ← h.fields r hr f]
    by_cases hid : r.id = c.id
    · obtain rfl := Table.eq_of_key_eq hr hc hid
      rw [if_pos hconcerns, mergeRow, if_pos rfl]
      exact hchange.field r f
    · have hne : ¬ submission.concerns r = true := fun hr' => hid (by rw [eq_of_concerns h.unique hr hc hr' hconcerns])
      rw [if_neg hne, mergeRow, if_neg hid]

theorem inv_step (h : Inv s submissions) (request : Request) :
    Inv (step s request) (submissions ++ submitted s request) := by
  rcases serve_cases s request with hr | hc | ⟨c, hm⟩
  · rw [hr.step_eq, submitted_rejected hr, List.append_nil]
    exact h
  · exact h.creates hc
  · exact h.merges hm

/-- The table after a run from one without customers. -/
theorem inv_run {s₀ : Database} (hempty : s₀.customers.rows = []) (as : List Request) :
    Inv (run step s₀ as) (collect step submitted s₀ as) := by
  induction as using List.reverseRecOn with
  | nil =>
    have hnone : ∀ c, c ∉ s₀.customers.rows := fun c hc => by rw [hempty] at hc; cases hc
    refine ⟨fun c hc => absurd hc (hnone c), fun _ _ => ⟨?_, ?_⟩, fun _ _ _ h => ?_, fun c hc => absurd hc (hnone c)⟩
    · rintro ⟨_, h⟩
      cases h
    · rintro ⟨c, hc, -⟩
      exact absurd hc (hnone c)
    · cases h
  | append_singleton as a ih =>
    rw [run_concat, collect_concat]
    exact inv_step ih a

/-! ## Rows stay what they are -/

theorem kept_step {c : Customer} (hc : c ∈ s.customers.rows) (request : Request) :
    ∃ c' ∈ (step s request).customers.rows, SameCustomer c c' := by
  rcases serve_cases s request with hr | ⟨-, _, _, customers, -, -, -, hinsert, hserve⟩ | ⟨d, -, _, hr, -, -, hserve⟩
  · exact ⟨c, by rwa [hr.step_eq], rfl, rfl, rfl⟩
  · refine ⟨c, ?_, rfl, rfl, rfl⟩
    rw [hserve.step_eq]
    exact (Table.mem_insert hinsert).mpr (.inl hc)
  · refine ⟨mergeRow request d.id c, ?_, mergeRow_keeps (merges_change hr) d.id c⟩
    rw [hserve.step_eq]
    simp only [mergedTable_rows]
    exact List.mem_map_of_mem hc

theorem kept_run {c : Customer} (hc : c ∈ s.customers.rows) (as : List Request) :
    ∃ c' ∈ (run step s as).customers.rows, SameCustomer c c' := by
  induction as using List.reverseRecOn with
  | nil => exact ⟨c, hc, rfl, rfl, rfl⟩
  | append_singleton as a ih =>
    obtain ⟨c₁, hc₁, h₁⟩ := ih
    obtain ⟨c₂, hc₂, h₂⟩ := kept_step hc₁ a
    rw [run_concat]
    exact ⟨c₂, hc₂, h₂.id.trans h₁.id, h₂.clientId.trans h₁.clientId, h₂.phone.trans h₁.phone⟩

/-! ## The rows of one tenant -/

/-- A submission is for a customer of its tenant. -/
theorem clientId_of_concerns {submission : Submission} {c : Customer} (h : submission.concerns c = true) :
    c.clientId = submission.clientId := by
  cases submission <;>
    simp only [Submission.concerns, Bool.and_eq_true, decide_eq_true_eq] at h <;> exact h.1

theorem tenant_of_requested {submission : Submission} (h : requested request = some submission) :
    tenant request = some submission.clientId := by
  unfold requested at h
  obtain ⟨clientId, ht, h⟩ := Option.bind_eq_some_iff.mp h
  rw [ht]
  split at h
  · rw [← Option.some.inj h]; rfl
  · rw [← Option.some.inj h]; rfl
  · cases h

/-- A request merges into a row that it names, if the commit goes through. -/
theorem mergesInto_of {submission : Submission} {c : Customer} (hu : UniquePairs s)
    (hcommits : request.io.commits = true) (hr : requested request = some submission) (hc : c ∈ s.customers.rows)
    (hconcerns : submission.concerns c = true) : MergesInto s request c := by
  obtain ⟨clientId, ht⟩ : ∃ clientId, tenant request = some clientId := ⟨_, tenant_of_requested hr⟩
  cases hw : request.write with
  | createOrUpdateCustomer body =>
    cases body with
    | error errors => simp [requested, ht, hw] at hr
    | ok body =>
      obtain rfl := Option.some.inj ((requested_create ht hw).symm.trans hr)
      simp only [Submission.concerns, Bool.and_eq_true, decide_eq_true_eq] at hconcerns
      refine upserts_of hcommits ht hw hc hconcerns.1 hconcerns.2 fun c' hc' hclient' hphone' => ?_
      exact hu c' hc' c hc (hclient'.trans hconcerns.1.symm) (hphone'.trans hconcerns.2.symm)
  | updateCustomer customerId body =>
    cases body with
    | error errors => simp [requested, ht, hw] at hr
    | ok body =>
      obtain rfl := Option.some.inj ((requested_update ht hw).symm.trans hr)
      simp only [Submission.concerns, Bool.and_eq_true, decide_eq_true_eq] at hconcerns
      obtain ⟨hclient, rfl⟩ := hconcerns
      exact updates_of hcommits ht hw hc hclient

/-- The ids of the rows come from `uuid4`. -/
theorem id_mem_of_run {s₀ : Database} (hempty : s₀.customers.rows = []) (as : List Request) :
    ∀ c ∈ (run step s₀ as).customers.rows, c.id ∈ as.map fun r => r.io.uuid4 := by
  induction as using List.reverseRecOn with
  | nil =>
    intro c hc
    rw [run_nil, hempty] at hc
    cases hc
  | append_singleton as a ih =>
    intro c hc
    rw [run_concat] at hc
    rw [List.map_append, List.mem_append]
    rcases serve_cases (run step s₀ as) a with hr | ⟨-, e, body, customers, -, -, -, hinsert, hserve⟩ |
      ⟨d, -, _, hr, -, -, hserve⟩
    · rw [hr.step_eq] at hc
      exact .inl (ih c hc)
    · rw [hserve.step_eq] at hc
      rcases (Table.mem_insert hinsert).mp hc with hc | rfl
      · exact .inl (ih c hc)
      · exact .inr (List.mem_singleton_self _)
    · rw [hserve.step_eq] at hc
      simp only [mergedTable_rows] at hc
      obtain ⟨r, hrow, rfl⟩ := List.mem_map.mp hc
      rw [(mergeRow_keeps (merges_change hr) d.id r).id]
      exact .inl (ih r hrow)

/-- Values of `uuid4` that have not been used are not taken. -/
theorem lookup_fresh {s₀ : Database} (hempty : s₀.customers.rows = []) {as : List Request} {uuid : String}
    (h : uuid ∉ as.map fun r => r.io.uuid4) : (run step s₀ as).customers.lookup uuid = none :=
  Table.lookup_eq_none.mpr fun c hc e => h (e ▸ id_mem_of_run hempty as c hc)

/-- An upsert goes through, if its commit does: it leaves the row of its pair, and is
answered with it if the refresh sees the rows of the tenant. -/
theorem upsert_commits (hu : UniquePairs s) (hfresh : s.customers.lookup request.io.uuid4 = none)
    (hcommits : request.io.commits = true) {clientId : Int} {phone : String} {values : Field → Option String}
    (hr : requested request = some (.upsert clientId phone values)) :
    ∃ customers c, Commits s request customers c ∧ c ∈ customers.rows ∧ c.clientId = clientId ∧ c.phone = phone := by
  by_cases hrow : ∃ c ∈ s.customers.rows, c.clientId = clientId ∧ c.phone = phone
  · obtain ⟨c, hc, hclient, hphone⟩ := hrow
    obtain ⟨-, _, -, -, -, hserve⟩ := mergesInto_of hu hcommits hr hc (by simp [Submission.concerns, hclient, hphone])
    have hmerges := merges_change hr
    exact ⟨_, _, hserve, mem_update _ hc, (hmerges.clientId c).trans hclient, (hmerges.phone c).trans hphone⟩
  · have ht : tenant request = some clientId := tenant_of_requested hr
    cases hw : request.write with
    | updateCustomer customerId body => cases body <;> simp [requested, ht, hw] at hr
    | createOrUpdateCustomer body =>
      cases body with
      | error errors => simp [requested, ht, hw] at hr
      | ok body =>
        have hphone : body.phone = phone := by
          have h := (requested_create ht hw).symm.trans hr
          simp only [Option.some.injEq, Submission.upsert.injEq] at h
          exact h.2.1
        subst hphone
        obtain ⟨customers, hinsert⟩ := Table.exists_insert (r := body.customer request.io clientId) hfresh
        have hserve := serve_new hcommits ht hw (fun c hc hpair => hrow ⟨c, hc, hpair⟩) hinsert
        exact ⟨_, _, hserve, (Table.mem_insert hinsert).mpr (.inr rfl), rfl, rfl⟩

end CallingAgent.Proof.Customers
