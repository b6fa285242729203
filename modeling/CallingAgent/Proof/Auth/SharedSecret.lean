import CallingAgent.Impl.SharedSecret

/-!
# Which requests the shared secrets let through

The guards compare with `hmac.compare_digest`, which is for ASCII text only, and let its
exception through. Up to the texts that make it raise, they decide by equality
(`byEquality_iff`).
-/

namespace CallingAgent.Proof.Auth

open CallingAgent.Impl CallingAgent.Impl.SharedSecret

/-- The body is reached exactly with the secret, which is not empty; any other request gets
a 401 and changes nothing. -/
def ByEquality (secret : String) (presented : Option String) (guard : Answer Unit) (detail : String) : Prop :=
  ∀ {W β : Type} (body : W → W × Answer β) (w : W),
    guarded guard body w = if secret ≠ "" ∧ presented = some secret then body w else (w, .httpException 401 detail)

/-- `compare_digest` is not called, or with two texts that it compares. -/
def Comparable (secret : String) (presented : Option String) : Prop :=
  falsy presented ∨ isAscii secret ∧ isAscii (presented.getD "")

variable {secret detail : String} {presented header query : Option String} {guard : Answer Unit}

/-- A body that is told from a 401. -/
theorem byEquality_iff_eq :
    ByEquality secret presented guard detail ↔
      guard = if secret ≠ "" ∧ presented = some secret then .ok () else .httpException 401 detail := by
  constructor
  · intro h
    have hbody := h (W := Bool) (β := Unit) (fun _ => (true, .ok ())) false
    by_cases ha : secret ≠ "" ∧ presented = some secret
    · rw [if_pos ha] at hbody ⊢
      cases guard with
      | ok body => rfl
      | httpException statusCode detail => exact absurd (congrArg Prod.fst hbody) Bool.false_ne_true
      | raised => exact absurd (congrArg Prod.fst hbody) Bool.false_ne_true
    · rw [if_neg ha] at hbody ⊢
      cases guard with
      | ok body => exact absurd (congrArg Prod.fst hbody).symm Bool.false_ne_true
      | httpException statusCode detail =>
        obtain ⟨rfl, rfl⟩ := Answer.httpException.inj (congrArg Prod.snd hbody)
        rfl
      | raised => cases congrArg Prod.snd hbody
  · intro h W β body w
    rw [h]
    split <;> rfl

/-- What is compared is not empty. -/
theorem requireEqual_iff {s : String} (hs : s ≠ "") :
    ByEquality secret (some s) (requireEqual s secret detail) detail ↔ isAscii secret ∧ isAscii s := by
  rw [byEquality_iff_eq, requireEqual, compareDigest]
  have haccept : (secret ≠ "" ∧ some s = some secret) ↔ s = secret := by
    rw [Option.some.injEq]
    exact ⟨And.right, fun e => ⟨e ▸ hs, e⟩⟩
  by_cases ha : isAscii s && isAscii secret
  · have hboth := Bool.and_eq_true_iff.mp ha
    rw [if_pos ha]
    refine iff_of_true ?_ ⟨hboth.2, hboth.1⟩
    show (if (s == secret) = true then _ else _) = _
    simp only [haccept, beq_iff_eq]
  · rw [if_neg ha]
    refine iff_of_false (fun e => ?_) (fun h => ha (Bool.and_eq_true_iff.mpr ⟨h.2, h.1⟩))
    have hraised : (Answer.raised : Answer Bool).bind
        (fun equal => if equal then Answer.ok () else .httpException 401 detail) = .raised := rfl
    rw [hraised] at e
    split at e <;> cases e

/-- Without a token there is nothing to compare. -/
theorem byEquality_of_falsy (h : falsy presented) :
    ByEquality secret presented (.httpException 401 detail) detail := by
  rw [byEquality_iff_eq, if_neg]
  rintro ⟨hs, rfl⟩
  exact hs (beq_iff_eq.mp h)

theorem verifyWebhookToken_iff :
    ByEquality secret (presentedToken header query) (verifyWebhookToken secret header query)
        "invalid Exotel callback authentication" ↔
      Comparable secret (presentedToken header query) := by
  unfold verifyWebhookToken Comparable
  cases h : presentedToken header query with
  | none => exact iff_of_true (byEquality_of_falsy rfl) (.inl rfl)
  | some s =>
    by_cases hs : s = ""
    · subst hs
      exact iff_of_true (byEquality_of_falsy rfl) (.inl rfl)
    · have hf : falsy (some s) = false := beq_eq_false_iff_ne.mpr hs
      rw [hf, if_neg Bool.false_ne_true, Option.getD_some, requireEqual_iff hs]
      exact ⟨.inr, fun hc => hc.resolve_left Bool.false_ne_true⟩

theorem internalGuard_iff :
    ByEquality secret presented (internalGuard secret presented) "invalid or missing internal API token" ↔
      secret = "" ∨ Comparable secret presented := by
  unfold internalGuard Comparable
  by_cases hsecret : secret = ""
  · subst hsecret
    have hempty : ¬((("" : String) ≠ "") ∧ presented = some "") := fun h => h.1 rfl
    refine iff_of_true (byEquality_iff_eq.mpr ?_) (.inl rfl)
    rw [if_neg hempty]
    rfl
  · have hf : (secret == "") = false := beq_eq_false_iff_ne.mpr hsecret
    rw [hf, Bool.false_or, or_iff_right hsecret]
    cases presented with
    | none => exact iff_of_true (byEquality_of_falsy rfl) (.inl rfl)
    | some s =>
      by_cases hs : s = ""
      · subst hs
        exact iff_of_true (byEquality_of_falsy rfl) (.inl rfl)
      · have hf : falsy (some s) = false := beq_eq_false_iff_ne.mpr hs
        rw [hf, if_neg Bool.false_ne_true, Option.getD_some, requireEqual_iff hs]
        exact ⟨.inr, fun hc => hc.resolve_left Bool.false_ne_true⟩

/-- The API's guard, the integration service's and the callback's. -/
theorem byEquality_iff (secret : String) (presented header query : Option String) :
    (ByEquality secret presented (verifyInternalToken secret presented) "invalid or missing internal API token" ↔
      secret = "" ∨ Comparable secret presented) ∧
    (ByEquality secret presented (IntegrationService.verifyInternalToken secret presented)
        "invalid or missing internal API token" ↔
      secret = "" ∨ Comparable secret presented) ∧
    (ByEquality secret (presentedToken header query) (verifyWebhookToken secret header query)
        "invalid Exotel callback authentication" ↔
      Comparable secret (presentedToken header query)) :=
  ⟨internalGuard_iff, internalGuard_iff, verifyWebhookToken_iff⟩

/-- A wrong token with an accent is answered with a 500. -/
theorem accent_raises :
    verifyInternalToken "secret" (some "é") = .raised ∧
      IntegrationService.verifyInternalToken "secret" (some "é") = .raised ∧
      verifyWebhookToken "secret" none (some "é") = .raised ∧
      ¬ByEquality "secret" (some "é") (verifyInternalToken "secret" (some "é")) "invalid or missing internal API token" := by
  refine ⟨by decide, by decide, by decide, fun h => ?_⟩
  exact absurd (byEquality_iff_eq.mp h) (by decide)

end CallingAgent.Proof.Auth
