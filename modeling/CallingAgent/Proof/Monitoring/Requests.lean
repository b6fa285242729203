import CallingAgent.Impl.RequestLogging
import CallingAgent.Proof.Monitoring.Window

/-!
# What the window counts of the requests

The middleware calls the registry for the requests that do not raise (`calls`), and a
run of requests is a run of these calls (`run_calls`). So a snapshot counts what the
clients of those were answered; the answer to a request that raises is a 500 that no
sample stands for.
-/

namespace CallingAgent.Proof.Monitoring

open CallingAgent.Framework CallingAgent.Impl CallingAgent.Impl.Monitoring CallingAgent.Impl.RequestLogging

/-! ## The calls of the registry -/

/-- The calls of the registry that come of an action. -/
def calls (w : World) : RequestLogging.Action → List Impl.Monitoring.Action
  | .tick d => [.tick d]
  | .request request =>
    match callNext request.outcome with
    | none => []
    | some response => [.record response.statusCode.code (roundHalfEven ((w.now - request.start) * 1000))]
  | .snapshot => [.snapshot]

/-- The samples recorded for an action. -/
def sampled (w : World) (a : RequestLogging.Action) : List Sample := collect Impl.Monitoring.step recorded w (calls w a)

theorem step_calls (w : World) (a : RequestLogging.Action) :
    RequestLogging.step w a = run Impl.Monitoring.step w (calls w a) := by
  cases a with
  | tick d => rfl
  | snapshot => rfl
  | request request =>
    simp only [RequestLogging.step, serve, requestLogging, calls]
    cases callNext request.outcome with
    | none => rfl
    | some response => rfl

theorem run_calls (w : World) (as : List RequestLogging.Action) :
    run RequestLogging.step w as = run Impl.Monitoring.step w (collect RequestLogging.step calls w as) := by
  induction as using List.reverseRecOn with
  | nil => rfl
  | append_singleton as a ih => rw [run_concat, collect_concat, run_append, ← ih, step_calls]

theorem collect_calls (w : World) (as : List RequestLogging.Action) :
    collect Impl.Monitoring.step recorded w (collect RequestLogging.step calls w as) =
      collect RequestLogging.step sampled w as := by
  induction as using List.reverseRecOn with
  | nil => rfl
  | append_singleton as a ih =>
    rw [collect_concat, collect_concat, collect_append, ih, ← run_calls]
    rfl

/-! ## Samples and answers -/

/-- The handler of the request raises something else than an `HTTPException`. -/
def raises : RequestLogging.Action → Bool
  | .request request => request.outcome = .exception
  | _ => false

theorem callNext_eq_none {outcome : Outcome} : callNext outcome = none ↔ outcome = .exception := by
  cases outcome <;> simp [callNext]

theorem outcome_of_raises {request : Request} (h : raises (.request request) = true) : request.outcome = .exception :=
  of_decide_eq_true h

/-- The sample of a request that does not raise has the status its client gets. -/
theorem sampled_of_not_raises {w : World} {a : RequestLogging.Action} (h : raises a = false) :
    (sampled w a).map (fun s => (s.time, s.statusCode)) =
      (answered w a).map fun x => (x.time, x.response.statusCode.code) := by
  cases a with
  | tick d => rfl
  | snapshot => rfl
  | request request =>
    have hsome : callNext request.outcome ≠ none := fun e => of_decide_eq_false h (callNext_eq_none.mp e)
    simp only [sampled, calls, answered, serve, requestLogging]
    cases hc : callNext request.outcome with
    | none => exact absurd hc hsome
    | some response => rfl

/-- A request that raises has none. -/
theorem sampled_of_raises {w : World} {a : RequestLogging.Action} (h : raises a = true) :
    sampled w a = [] ∧ (answered w a).length = 1 := by
  cases a with
  | tick d => cases h
  | snapshot => cases h
  | request request =>
    simp only [sampled, calls, callNext_eq_none.mpr (outcome_of_raises h)]
    exact ⟨rfl, rfl⟩

theorem samples_eq_answers {w : World} {as : List RequestLogging.Action} (h : ∀ a ∈ as, raises a = false) :
    (collect RequestLogging.step sampled w as).map (fun s => (s.time, s.statusCode)) =
      (collect RequestLogging.step answered w as).map fun x => (x.time, x.response.statusCode.code) := by
  induction as using List.reverseRecOn with
  | nil => rfl
  | append_singleton as a ih =>
    have ha : raises a = false := h a (List.mem_append_right _ (List.mem_singleton_self a))
    simp only [collect_concat, List.map_append]
    rw [ih fun b hb => h b (List.mem_append_left _ hb), sampled_of_not_raises ha]

/-- The requests that raise are those without a sample. -/
theorem length_answered (w : World) (as : List RequestLogging.Action) :
    (collect RequestLogging.step answered w as).length =
      (collect RequestLogging.step sampled w as).length + as.countP raises := by
  induction as using List.reverseRecOn with
  | nil => rfl
  | append_singleton as a ih =>
    simp only [collect_concat, List.length_append, List.countP_append, List.countP_singleton]
    cases h : raises a with
    | false =>
      have hlen := congrArg List.length (sampled_of_not_raises (w := run RequestLogging.step w as) h)
      simp only [List.length_map] at hlen
      simp
      omega
    | true =>
      obtain ⟨hnil, hone⟩ := sampled_of_raises (w := run RequestLogging.step w as) h
      simp [hnil, hone]
      omega

/-! ## Runs -/

theorem isServerError_eq (s : StatusCode) : s.isServerError = decide (500 ≤ s.code) := by
  have h := s.range
  rw [StatusCode.isServerError, decide_eq_decide]
  omega

/-- If the window holds all answers, the snapshot's count is that of all samples. -/
theorem errorCount_eq {windowSeconds now : ℚ} {maxSamples : Nat} {as : List RequestLogging.Action} :
    let w₀ := World.init windowSeconds maxSamples now
    let w := run RequestLogging.step w₀ as
    let samples := collect RequestLogging.step sampled w₀ as
    samples.length ≤ maxSamples → (∀ s ∈ samples, w.now - windowSeconds ≤ s.time) →
      (w.registry.snapshot w.now).2.errorCount = (samples.filter fun s => 500 ≤ s.statusCode).length := by
  intro w₀ w samples hlen hwindow
  have hI := inv_run windowSeconds maxSamples now (collect RequestLogging.step calls w₀ as)
  rw [collect_calls, ← run_calls] at hI
  have hlong := recent_isLongestSuffix hI
  have hall : (w.registry.recent w.now).samples = samples :=
    hlong.suffix.eq_of_length_le (hlong.longest samples (List.suffix_refl _) ⟨hlen, hwindow⟩)
  show errors (w.registry.recent w.now).samples = _
  rw [hall, errors, List.countP_eq_length_filter]

/-- In any run of requests: there is one sample for each request, and one with a status
of 500 or more for each client that gets a 5xx, in order, and a snapshot whose window
holds them all counts these, exactly if no handler raises anything but an
`HTTPException`. -/
theorem counted_iff (windowSeconds : ℚ) (maxSamples : Nat) (now : ℚ) (as : List RequestLogging.Action) :
    let w₀ := World.init windowSeconds maxSamples now
    let w := run RequestLogging.step w₀ as
    let samples := collect RequestLogging.step sampled w₀ as
    let answers := collect RequestLogging.step answered w₀ as
    (samples.map (fun s => decide (500 ≤ s.statusCode)) = answers.map (fun x => x.response.statusCode.isServerError) ∧
      (answers.length ≤ maxSamples → (∀ x ∈ answers, w.now - windowSeconds ≤ x.time) →
        (w.registry.snapshot w.now).2.errorCount =
          (answers.filter fun x => x.response.statusCode.isServerError).length)) ↔
      ∀ a ∈ as, raises a = false := by
  intro w₀ w samples answers
  constructor
  · intro ⟨h, _⟩ a ha
    have hlen := congrArg List.length h
    rw [List.length_map, List.length_map] at hlen
    have hcount : as.countP raises = 0 := by
      have hanswered : answers.length = samples.length + as.countP raises := length_answered w₀ as
      omega
    simpa using List.countP_eq_zero.mp hcount a ha
  · intro h
    have hkeys := samples_eq_answers (w := w₀) h
    have herrors : samples.map (fun s => decide (500 ≤ s.statusCode)) =
        answers.map (fun x => x.response.statusCode.isServerError) := by
      have := congrArg (List.map fun k : ℚ × Nat => decide (500 ≤ k.2)) hkeys
      simpa [isServerError_eq, Function.comp_def] using this
    refine ⟨herrors, fun hlen hwindow => ?_⟩
    have hlength : samples.length = answers.length := by simpa using congrArg List.length hkeys
    have htimes : samples.map (·.time) = answers.map (·.time) := by
      simpa [Function.comp_def] using congrArg (List.map Prod.fst) hkeys
    have hin : ∀ s ∈ samples, w.now - windowSeconds ≤ s.time := by
      intro s hs
      have hmem : s.time ∈ answers.map (·.time) := htimes ▸ List.mem_map_of_mem hs
      obtain ⟨x, hx, e⟩ := List.mem_map.mp hmem
      exact e ▸ hwindow x hx
    rw [errorCount_eq (hlength ▸ hlen) hin]
    have hcount := congrArg (List.countP id) herrors
    rw [List.countP_map, List.countP_map, List.countP_eq_length_filter, List.countP_eq_length_filter] at hcount
    exact hcount

/-- A handler that raises: the client gets a 500, and nothing is recorded. -/
theorem raising_request_not_counted :
    ¬∀ (windowSeconds : ℚ) (maxSamples : Nat) (now : ℚ) (as : List RequestLogging.Action),
      (collect RequestLogging.step sampled (World.init windowSeconds maxSamples now) as).map
          (fun s => decide (500 ≤ s.statusCode)) =
        (collect RequestLogging.step answered (World.init windowSeconds maxSamples now) as).map
          fun x => x.response.statusCode.isServerError := by
  intro h
  exact absurd (h 600 10000 0 [.request ⟨"1b9d6bcd-bbfd-4b2d-9b5d-ab8dfbbd4bed", 0, .exception⟩]) (by decide)

end CallingAgent.Proof.Monitoring
