import CallingAgent.Impl.Dashboard

/-!
# Requests that wait for a token refresh

A refresh that succeeds calls the callbacks it has queued and empties the queue
(`refreshSucceeded_eq`); one that fails leaves them where they are. So the waiting requests
are settled, once and by their own refresh, exactly as long as no refresh fails while a
request waits for it (`waiting_settled_iff`).
-/

namespace CallingAgent.Proof.Auth

open CallingAgent.Framework CallingAgent.Impl.Dashboard

/-- What the refresh `refresh` should have made of a request that waits for it. -/
def outcome (results : List (Option String)) (refresh : Nat) : Outcome :=
  match results[refresh]? with
  | some (some token) => .resent (some token)
  | _ => .rejected

def settlement (results : List (Option String)) (waiting : Waiting) : Settlement :=
  ⟨waiting, waiting.refresh, outcome results waiting.refresh⟩

/-- No callback is called by another refresh than its own, and while no refresh is under
way each has been settled once, with the outcome of its refresh. -/
structure Settled (page : Page) : Prop where
  own : ∀ s ∈ page.settlements, s.refresh = s.waiting.refresh
  empty : page.isRefreshing = false → page.refreshQueue = []
  once : page.isRefreshing = false → page.settlements.Perm (page.waited.map (settlement page.results))

/-- A refresh that fails has no request waiting for it. -/
def Attended (page : Page) : Action → Prop
  | .refreshed i none => page.inPhase i .refreshing ≠ none → page.refreshQueue = []
  | _ => True

variable {app : App} {page : Page} {i : Nat} {request : Request} {access refresh : String}

/-! ## A successful refresh -/

theorem attach_new {config : Config} (h : page.accessToken = some access) :
    (page.attach { config with authorization := some access }).authorization = some access := by
  unfold Page.attach
  rw [h]
  by_cases he : access = ""
  · simp [Option.filter, he]
  · simp [Option.filter, he]

/-- The callbacks are called in order, with the new token. -/
theorem foldl_callback {page : Page} (waiting : List Waiting) (h : page.accessToken = some access) :
    ∃ requests, waiting.foldl (fun page w => page.callback w access) page =
      { page with
        requests := requests
        settlements := page.settlements ++ waiting.map fun w => ⟨w, page.results.length, .resent (some access)⟩ } := by
  induction waiting generalizing page with
  | nil => exact ⟨page.requests, by rw [List.map_nil, List.append_nil]; rfl⟩
  | cons w waiting ih =>
    have hcallback : ∃ requests, page.callback w access =
        { page with
          requests := requests
          settlements := page.settlements ++ [⟨w, page.results.length, .resent (some access)⟩] } := by
      unfold Page.callback Page.resent
      rw [attach_new h]
      exact ⟨_, rfl⟩
    obtain ⟨requests, e⟩ := hcallback
    obtain ⟨requests', e'⟩ := ih (show (page.callback w access).accessToken = some access by rw [e]; exact h)
    refine ⟨requests', ?_⟩
    rw [List.foldl_cons, e', e]
    simp only [List.map_cons, List.append_assoc, List.cons_append, List.nil_append]

theorem refreshSucceeded_eq (page : Page) (i : Nat) (request : Request) (access refresh : String) :
    ∃ requests, page.refreshSucceeded i request access refresh =
      { page with
        isRefreshing := false
        refreshQueue := []
        accessToken := some access
        refreshToken := some refresh
        requests := requests
        results := page.results ++ [some access]
        settlements :=
          page.settlements ++ page.refreshQueue.map fun w => ⟨w, page.results.length, .resent (some access)⟩ } := by
  obtain ⟨requests, e⟩ := foldl_callback page.refreshQueue (rfl : (page.setTokens access refresh).accessToken = some access)
  unfold Page.refreshSucceeded
  simp only [Page.setTokens] at e ⊢
  rw [e]
  exact ⟨_, rfl⟩

/-! ## The invariant -/

/-- The callbacks up to some point have been settled by the refreshes that have ended, and
the others wait for the one that is under way. -/
structure Inv (page : Page) : Prop where
  current : ∀ w ∈ page.refreshQueue, w.refresh = page.results.length
  ended : ∃ done, page.waited = done ++ page.refreshQueue ∧ page.settlements = done.map (settlement page.results) ∧
    ∀ w ∈ done, w.refresh < page.results.length
  empty : page.isRefreshing = false → page.refreshQueue = []

theorem Inv.settled (h : Inv page) : Settled page := by
  obtain ⟨done, hwaited, hsettlements, -⟩ := h.ended
  refine ⟨fun s hs => ?_, h.empty, fun hr => ?_⟩
  · rw [hsettlements] at hs
    obtain ⟨w, -, rfl⟩ := List.mem_map.mp hs
    rfl
  · rw [hsettlements, hwaited, h.empty hr, List.append_nil]

/-- The outcome of a refresh that has ended stays. -/
theorem settlement_append {results : List (Option String)} {w : Waiting} (h : w.refresh < results.length)
    (result : Option String) : settlement (results ++ [result]) w = settlement results w := by
  rw [settlement, settlement, outcome, outcome, List.getElem?_append_left h]

theorem settlement_last {results : List (Option String)} {w : Waiting} (h : w.refresh = results.length) (token : String) :
    settlement (results ++ [some token]) w = ⟨w, results.length, .resent (some token)⟩ := by
  rw [settlement, outcome, h, List.getElem?_concat_length]

theorem Inv.refreshSucceeded (h : Inv page) : Inv (page.refreshSucceeded i request access refresh) := by
  obtain ⟨requests, e⟩ := refreshSucceeded_eq page i request access refresh
  obtain ⟨done, hwaited, hsettlements, hdone⟩ := h.ended
  rw [e]
  refine ⟨fun w hw => absurd hw List.not_mem_nil, ⟨page.waited, (List.append_nil _).symm, ?_, ?_⟩, fun _ => rfl⟩
  · have hold : done.map (settlement (page.results ++ [some access])) = done.map (settlement page.results) :=
      List.map_congr_left fun w hw => settlement_append (hdone w hw) _
    have hnew : page.refreshQueue.map (settlement (page.results ++ [some access])) =
        page.refreshQueue.map fun w => ⟨w, page.results.length, .resent (some access)⟩ :=
      List.map_congr_left fun w hw => settlement_last (h.current w hw) access
    show page.settlements ++ _ = _
    rw [hwaited, List.map_append, hold, hnew, hsettlements]
  · intro w hw
    show w.refresh < (page.results ++ [some access]).length
    rw [List.length_append, List.length_singleton]
    rw [hwaited] at hw
    rcases List.mem_append.mp hw with hw | hw
    · have := hdone w hw
      omega
    · have := h.current w hw
      omega

theorem Inv.refreshFailed (h : Inv page) (hq : page.refreshQueue = []) : Inv (page.refreshFailed app i request) := by
  obtain ⟨done, hwaited, hsettlements, hdone⟩ := h.ended
  have hempty : (page.refreshFailed app i request).refreshQueue = [] := hq
  refine ⟨fun w hw => absurd (hempty ▸ hw) List.not_mem_nil, ⟨done, hwaited, ?_, fun w hw => ?_⟩, fun _ => hq⟩
  · have hold : done.map (settlement (page.results ++ [none])) = done.map (settlement page.results) :=
      List.map_congr_left fun w hw => settlement_append (hdone w hw) _
    exact hsettlements.trans hold.symm
  · show w.refresh < (page.results ++ [none]).length
    rw [List.length_append]
    exact Nat.lt_add_right 1 (hdone w hw)

theorem Inv.unauthorized (h : Inv page) : Inv (page.unauthorized app i request) := by
  obtain ⟨done, hwaited, hsettlements, hdone⟩ := h.ended
  unfold Page.unauthorized
  split
  · exact ⟨h.current, h.ended, h.empty⟩
  · split
    · rename_i hr
      refine ⟨fun w hw => ?_, ⟨done, ?_, hsettlements, hdone⟩, fun hf => absurd (hr.symm.trans hf) (by decide)⟩
      · rcases List.mem_append.mp hw with hw | hw
        · exact h.current w hw
        · rw [List.mem_singleton.mp hw]
          rfl
      · show page.waited ++ _ = done ++ (page.refreshQueue ++ _)
        rw [hwaited, List.append_assoc]
    · rename_i hr
      have hq : page.refreshQueue = [] := h.empty (Bool.eq_false_iff.mpr hr)
      have hstart : Inv { page with isRefreshing := true } := ⟨h.current, h.ended, fun _ => hq⟩
      dsimp only
      split
      · exact hstart.refreshFailed hq
      · exact ⟨h.current, h.ended, fun _ => hq⟩

theorem Inv.respond (h : Inv page) {response : Response} : Inv (step app page (.respond i response)) := by
  unfold step
  dsimp only
  split
  · exact h
  · cases response with
    | ok => exact ⟨h.current, h.ended, h.empty⟩
    | error status =>
      dsimp only
      split
      · exact h.unauthorized
      · exact ⟨h.current, h.ended, h.empty⟩

theorem Inv.refreshed (h : Inv page) {result : Option (String × String)} (hattended : Attended page (.refreshed i result)) :
    Inv (step app page (.refreshed i result)) := by
  unfold step
  dsimp only
  split
  · exact h
  · rename_i hphase
    cases result with
    | some tokens => exact h.refreshSucceeded
    | none => exact h.refreshFailed (hattended (by rw [hphase]; exact Option.some_ne_none _))

theorem Inv.step (h : Inv page) {a : Action} (hattended : Attended page a) : Inv (step app page a) := by
  cases a with
  | send i =>
    unfold Impl.Dashboard.step
    dsimp only
    split
    · exact ⟨h.current, h.ended, h.empty⟩
    · exact h
  | respond i response => exact h.respond
  | refreshed i result => exact h.refreshed hattended
  | setTokens access refresh => exact ⟨h.current, h.ended, h.empty⟩
  | clearTokens => exact ⟨h.current, h.ended, h.empty⟩

theorem inv_init (accessToken refreshToken : Option String) : Inv (.init accessToken refreshToken) :=
  ⟨fun _ hw => absurd hw List.not_mem_nil, ⟨[], rfl, rfl, fun _ hw => absurd hw List.not_mem_nil⟩, fun _ => rfl⟩

/-! ## Runs -/

/-- What waits is still there after a failed refresh. -/
theorem attended_of_settled {a : Action} (h : Settled (step app page a)) : Attended page a := by
  cases a with
  | refreshed i result =>
    cases result with
    | some tokens => trivial
    | none =>
      intro hphase
      obtain ⟨request, e⟩ := Option.ne_none_iff_exists'.mp hphase
      have hstep : step app page (.refreshed i none) = page.refreshFailed app i request := by
        unfold step
        simp only [e]
      rw [hstep] at h
      exact h.empty rfl
  | send i => trivial
  | respond i response => trivial
  | setTokens access refresh => trivial
  | clearTokens => trivial

theorem waiting_settled_iff (app : App) (accessToken refreshToken : Option String) (as : List Action) :
    Always (step app) Settled (.init accessToken refreshToken) as ↔
      AllSteps (step app) Attended (.init accessToken refreshToken) as :=
  always_iff_allSteps (I := Inv) (inv_init ..) (inv_init ..).settled
    (fun _ _ hI _ hattended => ⟨hI.step hattended, (hI.step hattended).settled⟩)
    (fun _ _ _ _ hsettled => attended_of_settled hsettled) as

/-- Two requests of a page get a 401, and the refresh of the first fails: the second is
neither sent again nor rejected. After a login, the next refresh sends it. -/
theorem waiting_left :
    ¬Settled (run (step .clientDashboard) (.init (some "a") (some "r"))
      [.send 0, .send 1, .respond 0 (.error (some 401)), .respond 1 (.error (some 401)), .refreshed 0 none]) ∧
    (run (step .clientDashboard) (.init (some "a") (some "r"))
      [.send 0, .send 1, .respond 0 (.error (some 401)), .respond 1 (.error (some 401)), .refreshed 0 none,
        .setTokens "a'" "r'", .send 2, .respond 2 (.error (some 401)), .refreshed 2 (some ("b", "s"))]).settlements =
      [⟨⟨1, ⟨false, some "a"⟩, 0⟩, 1, .resent (some "b")⟩] := by
  refine ⟨fun h => ?_, by decide⟩
  exact absurd (h.empty (by decide)) (by decide)

end CallingAgent.Proof.Auth
