import CallingAgent.Impl.DatabaseUrl

/-!
# Normalised database URLs

`to_asyncpg_url` searches the whole URL for `+asyncpg` and for the schemes it replaces, so a
password or an option can be taken for a scheme. It normalises a URL exactly if no such text
gets in its way (`normalises_iff`).
-/

namespace CallingAgent.Proof.Config

open CallingAgent.Framework CallingAgent.Impl.DatabaseUrl

/-! ## URLs -/

/-- `scheme://rest`. -/
def url (scheme rest : Text) : Text := scheme ++ (separator ++ rest)

/-- `postgres` or `postgresql`, with a driver or without. -/
def IsPostgres (scheme : Text) : Prop :=
  scheme = "postgres".toList ∨ scheme = "postgresql".toList ∨
    "postgres+".toList <+: scheme ∨ "postgresql+".toList <+: scheme

instance IsPostgres.instDecidable (scheme : Text) : Decidable (IsPostgres scheme) :=
  inferInstanceAs (Decidable (_ ∨ _ ∨ _ ∨ _))

/-- The URL for `asyncpg`; one of another database stays as it is. -/
def normalised (scheme rest : Text) : Text := if IsPostgres scheme then url asyncpgScheme rest else url scheme rest

/-- The URL is normalised, and a second time changes nothing. -/
def Normalises (scheme rest : Text) : Prop :=
  toAsyncpgUrl (url scheme rest) = some (normalised scheme rest) ∧
    (toAsyncpgUrl (url scheme rest)).bind toAsyncpgUrl = toAsyncpgUrl (url scheme rest)

/-- Nothing in the URL is taken for what it is not: `+asyncpg` for the driver, or a part of
it for a scheme that is to be replaced. -/
def Clear (scheme rest : Text) : Prop :=
  if IsPostgres scheme then
    scheme = asyncpgScheme ∨
      ¬asyncpg <:+: url scheme rest ∧ (scheme = "postgresql".toList → ¬"postgres://".toList <:+: rest) ∧
        (scheme = "postgres".toList → ¬"postgresql://".toList <:+: rest)
  else
    asyncpg <:+: url scheme rest ∨
      ¬"postgresql://".toList <:+: url scheme rest ∧ ¬"postgres://".toList <:+: url scheme rest

variable {scheme rest driver u v : Text}

theorem url_ne_nil (scheme rest : Text) : url scheme rest ≠ [] := by simp [url, separator]

/-! ## Branches -/

theorem toAsyncpgUrl_of_contains (h : asyncpg <:+: u) : toAsyncpgUrl u = some u := by
  unfold toAsyncpgUrl contains
  rw [if_pos (by simp [h])]

/-- What is before the driver is replaced, with the driver. -/
theorem afterDriver_append (front rest : Text) (hdriver : ¬separator <:+: driver) :
    afterDriver front.length (url (front ++ driver) rest) = some (separator ++ rest) := by
  have hindex : index separator (driver ++ (separator ++ rest)) = some driver.length := index_append (by decide) hdriver
  have hurl : url (front ++ driver) rest = front ++ (driver ++ (separator ++ rest)) := List.append_assoc ..
  rw [afterDriver, hurl, List.drop_left, hindex, Option.map_some, ← List.append_assoc front, ← List.length_append,
    List.drop_left]

theorem asyncpg_of_scheme (u : Text) : asyncpg <:+: asyncpgScheme ++ u := ⟨"postgresql".toList, u, rfl⟩

/-- The text that comes in place of a scheme. -/
theorem asyncpg_of_replaced : asyncpg <:+: "postgresql+asyncpg://".toList := asyncpg_of_scheme separator

theorem toAsyncpgUrl_driver {front : Text} (hfront : front = "postgresql+".toList ∨ front = "postgres+".toList)
    (hdriver : ¬separator <:+: driver) (h : ¬asyncpg <:+: url (front ++ driver) rest) :
    toAsyncpgUrl (url (front ++ driver) rest) = some (url asyncpgScheme rest) := by
  have hafter := afterDriver_append front rest hdriver
  have hfirst : ¬(url (front ++ driver) rest = [] || contains asyncpg (url (front ++ driver) rest)) = true := by
    simp [contains, h, url_ne_nil]
  have hprefix : front <+: url (front ++ driver) rest := by
    rw [url, List.append_assoc]
    exact List.prefix_append front _
  unfold toAsyncpgUrl
  rw [if_neg hfirst]
  rcases hfront with rfl | rfl
  · rw [if_pos (List.isPrefixOf_iff_prefix.mpr hprefix)]
    exact congrArg (Option.map (asyncpgScheme ++ ·)) hafter
  · have hnot : ¬"postgresql+".toList.isPrefixOf (url ("postgres+".toList ++ driver) rest) = true := by
      simp [url, List.isPrefixOf]
    rw [if_neg hnot, if_pos (List.isPrefixOf_iff_prefix.mpr hprefix)]
    exact congrArg (Option.map (asyncpgScheme ++ ·)) hafter

/-! ## The two replacements -/

/-- The last branch, in its two steps. -/
def replaceSchemes (u : Text) : Text :=
  replaceFirst "postgres://".toList "postgresql+asyncpg://".toList
    (replaceFirst "postgresql://".toList "postgresql+asyncpg://".toList u)

theorem replaceSchemes_eq_self (h₁ : ¬"postgresql://".toList <:+: u) (h₂ : ¬"postgres://".toList <:+: u) :
    replaceSchemes u = u := by
  rw [replaceSchemes, replaceFirst_eq_self h₁, replaceFirst_eq_self h₂]

theorem length_lt_replaceSchemes (h : "postgresql://".toList <:+: u ∨ "postgres://".toList <:+: u) :
    u.length < (replaceSchemes u).length := by
  have hinner : u.length ≤ (replaceFirst "postgresql://".toList "postgresql+asyncpg://".toList u).length :=
    length_le_replaceFirst (by decide) (by decide) u
  by_cases h₁ : "postgresql://".toList <:+: u
  · have hlt : u.length < (replaceFirst "postgresql://".toList "postgresql+asyncpg://".toList u).length :=
      length_lt_replaceFirst (by decide) (by decide) h₁
    exact Nat.lt_of_lt_of_le hlt (length_le_replaceFirst (by decide) (by decide) _)
  · have h₂ : "postgres://".toList <:+: u := h.resolve_left h₁
    rw [replaceSchemes, replaceFirst_eq_self h₁]
    exact length_lt_replaceFirst (by decide) (by decide) h₂

/-- The result of a replacement has `+asyncpg` in it. -/
theorem replaceSchemes_of_not_infix (h : ¬asyncpg <:+: replaceSchemes u) : replaceSchemes u = u := by
  have h₂ : ¬"postgres://".toList <:+: replaceFirst "postgresql://".toList "postgresql+asyncpg://".toList u :=
    fun hin => h (asyncpg_of_replaced.trans (infix_replaceFirst (by decide) hin))
  have hinner : replaceSchemes u = replaceFirst "postgresql://".toList "postgresql+asyncpg://".toList u :=
    replaceFirst_eq_self h₂
  have h₁ : ¬"postgresql://".toList <:+: u :=
    fun hin => h (hinner ▸ asyncpg_of_replaced.trans (infix_replaceFirst (by decide) hin))
  rw [hinner, replaceFirst_eq_self h₁]

theorem toAsyncpgUrl_idem (h : toAsyncpgUrl u = some v) : toAsyncpgUrl v = some v := by
  by_cases hv : asyncpg <:+: v
  · exact toAsyncpgUrl_of_contains hv
  · have huv : v = u := by
      unfold toAsyncpgUrl at h
      split at h
      · exact (Option.some.inj h).symm
      · split at h
        · obtain ⟨rest, -, rfl⟩ := Option.map_eq_some_iff.mp h
          exact absurd (asyncpg_of_scheme rest) hv
        · split at h
          · obtain ⟨rest, -, rfl⟩ := Option.map_eq_some_iff.mp h
            exact absurd (asyncpg_of_scheme rest) hv
          · obtain rfl : replaceSchemes u = v := Option.some.inj h
            exact replaceSchemes_of_not_infix hv
    rw [← huv] at h
    exact h

/-- Neither branch for a driver is taken. -/
theorem toAsyncpgUrl_of_not_driver (h : ¬asyncpg <:+: u) (h₁ : ¬"postgresql+".toList <+: u) (h₂ : ¬"postgres+".toList <+: u)
    (hne : u ≠ []) : toAsyncpgUrl u = some (replaceSchemes u) := by
  unfold toAsyncpgUrl contains
  rw [if_neg (by simp [h, hne]), if_neg (by rwa [List.isPrefixOf_iff_prefix]), if_neg (by rwa [List.isPrefixOf_iff_prefix])]
  rfl

/-- The scheme is replaced, and then the first `postgres://` of the rest. -/
theorem replaceSchemes_postgresql (rest : Text) :
    replaceSchemes (url "postgresql".toList rest) =
      url asyncpgScheme (replaceFirst "postgres://".toList "postgresql+asyncpg://".toList rest) := by
  have hurl : url "postgresql".toList rest = "postgresql://".toList ++ rest := rfl
  have houter : replaceFirst "postgres://".toList "postgresql+asyncpg://".toList ("postgresql+asyncpg://".toList ++ rest) =
      "postgresql+asyncpg://".toList ++ replaceFirst "postgres://".toList "postgresql+asyncpg://".toList rest :=
    replaceFirst_append_right (by decide) rest
  rw [replaceSchemes, hurl, replaceFirst_append (by decide), houter]
  rfl

/-- The first `postgresql://` of the rest is replaced, and then the scheme. -/
theorem replaceSchemes_postgres (rest : Text) :
    replaceSchemes (url "postgres".toList rest) =
      url asyncpgScheme (replaceFirst "postgresql://".toList "postgresql+asyncpg://".toList rest) := by
  have hurl : url "postgres".toList rest = "postgres://".toList ++ rest := rfl
  have hinner : replaceFirst "postgresql://".toList "postgresql+asyncpg://".toList ("postgres://".toList ++ rest) =
      "postgres://".toList ++ replaceFirst "postgresql://".toList "postgresql+asyncpg://".toList rest :=
    replaceFirst_append_right (by decide) rest
  rw [replaceSchemes, hurl, hinner, replaceFirst_append (by decide)]
  rfl

theorem replaceSchemes_eq_self_iff :
    replaceSchemes u = u ↔ ¬"postgresql://".toList <:+: u ∧ ¬"postgres://".toList <:+: u := by
  constructor
  · intro e
    rw [← not_or]
    intro h
    exact Nat.lt_irrefl u.length (by simpa only [e] using length_lt_replaceSchemes h)
  · rintro ⟨h₁, h₂⟩
    exact replaceSchemes_eq_self h₁ h₂

/-! ## Every URL -/

theorem url_inj {scheme' rest' : Text} (e : url scheme rest = url scheme' rest') (h : scheme = scheme' ∨ rest = rest') :
    scheme = scheme' ∧ rest = rest' := by
  rcases h with rfl | rfl
  · exact ⟨rfl, List.append_cancel_left (List.append_cancel_left e)⟩
  · exact ⟨List.append_cancel_right e, rfl⟩

/-- The second half holds of every text. -/
theorem normalises_iff_eq :
    Normalises scheme rest ↔ toAsyncpgUrl (url scheme rest) = some (normalised scheme rest) := by
  constructor
  · exact And.left
  · intro h
    refine ⟨h, ?_⟩
    rw [h]
    exact toAsyncpgUrl_idem h

theorem normalises_of_contains (h : asyncpg <:+: url scheme rest) :
    Normalises scheme rest ↔ (IsPostgres scheme → scheme = asyncpgScheme) := by
  rw [normalises_iff_eq, toAsyncpgUrl_of_contains h, Option.some.injEq, normalised]
  by_cases hp : IsPostgres scheme
  · rw [if_pos hp]
    exact ⟨fun e _ => (url_inj e (.inr rfl)).1, fun e => by rw [← e hp]⟩
  · rw [if_neg hp]
    exact ⟨fun _ hp' => absurd hp' hp, fun _ => rfl⟩

/-- A driver is told by its `+`. -/
theorem not_driver (rest : Text) (h : ¬IsPostgres scheme ∨ scheme = "postgres".toList ∨ scheme = "postgresql".toList) :
    ¬"postgresql+".toList <+: url scheme rest ∧ ¬"postgres+".toList <+: url scheme rest := by
  have hcolon : ∀ p : Text, ':' ∉ p → (p <+: url scheme rest ↔ p <+: scheme) := fun p hp => prefix_append_cons hp
  rw [hcolon _ (by decide), hcolon _ (by decide)]
  rcases h with h | rfl | rfl
  · simp only [IsPostgres, not_or] at h
    exact ⟨h.2.2.2, h.2.2.1⟩
  · decide
  · decide

theorem replaceFirst_url (old rest : Text) (hold : old ≠ []) (hlt : old.length < "postgresql+asyncpg://".toList.length) :
    url asyncpgScheme (replaceFirst old "postgresql+asyncpg://".toList rest) = url asyncpgScheme rest ↔ ¬old <:+: rest := by
  rw [← replaceFirst_eq_self_iff hlt hold]
  exact ⟨fun e => (url_inj e (.inl rfl)).2, fun e => by rw [e]⟩

theorem normalises_of_not_contains (hscheme : ¬separator <:+: scheme) (h : ¬asyncpg <:+: url scheme rest) :
    Normalises scheme rest ↔
      if IsPostgres scheme then
        (scheme = "postgresql".toList → ¬"postgres://".toList <:+: rest) ∧
          (scheme = "postgres".toList → ¬"postgresql://".toList <:+: rest)
      else ¬"postgresql://".toList <:+: url scheme rest ∧ ¬"postgres://".toList <:+: url scheme rest := by
  rw [normalises_iff_eq, normalised]
  by_cases hp : IsPostgres scheme
  · simp only [if_pos hp]
    have hdriver : ∀ front driver : Text,
        front = "postgresql+".toList ∨ front = "postgres+".toList → scheme = front ++ driver →
        toAsyncpgUrl (url scheme rest) = some (url asyncpgScheme rest) := by
      rintro front driver hfront rfl
      exact toAsyncpgUrl_driver hfront (fun hin => hscheme (hin.trans (List.suffix_append front driver).isInfix)) h
    rcases hp with rfl | rfl | ⟨driver, rfl⟩ | ⟨driver, rfl⟩
    · obtain ⟨h₁, h₂⟩ := not_driver rest (.inr (.inl rfl : "postgres".toList = _ ∨ _))
      rw [toAsyncpgUrl_of_not_driver h h₁ h₂ (url_ne_nil _ _), Option.some.injEq, replaceSchemes_postgres,
        replaceFirst_url _ _ (by decide) (by decide)]
      simp
    · obtain ⟨h₁, h₂⟩ := not_driver rest (.inr (.inr rfl : "postgresql".toList = _ ∨ _))
      rw [toAsyncpgUrl_of_not_driver h h₁ h₂ (url_ne_nil _ _), Option.some.injEq, replaceSchemes_postgresql,
        replaceFirst_url _ _ (by decide) (by decide)]
      simp
    · have hne : ∀ s : Text, ¬"postgres+".toList <+: s → "postgres+".toList ++ driver ≠ s :=
        fun s hs e => hs (e ▸ List.prefix_append _ driver)
      exact iff_of_true (hdriver _ driver (.inr rfl) rfl)
        ⟨fun e => absurd e (hne _ (by decide)), fun e => absurd e (hne _ (by decide))⟩
    · have hne : ∀ s : Text, ¬"postgresql+".toList <+: s → "postgresql+".toList ++ driver ≠ s :=
        fun s hs e => hs (e ▸ List.prefix_append _ driver)
      exact iff_of_true (hdriver _ driver (.inl rfl) rfl)
        ⟨fun e => absurd e (hne _ (by decide)), fun e => absurd e (hne _ (by decide))⟩
  · obtain ⟨h₁, h₂⟩ := not_driver rest (.inl hp)
    rw [if_neg hp, if_neg hp, toAsyncpgUrl_of_not_driver h h₁ h₂ (url_ne_nil _ _), Option.some.injEq,
      replaceSchemes_eq_self_iff]

/-- `hscheme`: the scheme ends at the first `://`. -/
theorem normalises_iff (scheme rest : Text) (hscheme : ¬separator <:+: scheme) :
    Normalises scheme rest ↔ Clear scheme rest := by
  by_cases h : asyncpg <:+: url scheme rest
  · rw [normalises_of_contains h, Clear]
    by_cases hp : IsPostgres scheme
    · rw [if_pos hp]
      exact ⟨fun hs => .inl (hs hp), fun hc _ => hc.resolve_right fun hn => hn.1 h⟩
    · rw [if_neg hp]
      exact ⟨fun _ => .inl h, fun _ hp' => absurd hp' hp⟩
  · have hne : scheme ≠ asyncpgScheme := by
      rintro rfl
      exact h (asyncpg_of_scheme (separator ++ rest))
    rw [normalises_of_not_contains hscheme h, Clear]
    by_cases hp : IsPostgres scheme
    · rw [if_pos hp, if_pos hp]
      exact ⟨fun hr => .inr ⟨h, hr⟩, fun hc => (hc.resolve_left hne).2⟩
    · rw [if_neg hp, if_neg hp]
      exact ⟨.inr, fun hc => hc.resolve_left h⟩

theorem normalises_iff_plain :
    Normalises "postgres".toList "app:secret@db/calls".toList ↔ Clear "postgres".toList "app:secret@db/calls".toList :=
  normalises_iff "postgres".toList "app:secret@db/calls".toList (by decide +kernel)

/-- A password that ends in `+asyncpg` keeps the URL as it is. -/
theorem asyncpg_password :
    IsPostgres "postgresql".toList ∧ ¬separator <:+: "postgresql".toList ∧
      toAsyncpgUrl (url "postgresql".toList "app:x+asyncpg@db".toList) =
        some (url "postgresql".toList "app:x+asyncpg@db".toList) ∧
      normalised "postgresql".toList "app:x+asyncpg@db".toList = url asyncpgScheme "app:x+asyncpg@db".toList ∧
      ¬Normalises "postgresql".toList "app:x+asyncpg@db".toList := by
  have hin : asyncpg <:+: url "postgresql".toList "app:x+asyncpg@db".toList :=
    ⟨"postgresql://app:x".toList, "@db".toList, rfl⟩
  refine ⟨by decide, by decide +kernel, toAsyncpgUrl_of_contains hin, rfl, fun h => ?_⟩
  exact absurd ((normalises_of_contains hin).mp h (by decide)) (by decide)

end CallingAgent.Proof.Config
