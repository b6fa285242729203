import CallingAgent.Impl.CallerRequest
import CallingAgent.Spec.PhoneNumber

/-!
# Which phone numbers are valid

`accepts_iff`: what `_E164_RE` accepts of a text without line breaks.
`validatePhone_iff`: which texts are accepted. These are those of the E.164 form and
those in which a digit of another script stands for one of the form's.
-/

namespace CallingAgent.Proof.Customers.PhoneNumber

open CallingAgent.Framework CallingAgent.Impl.CallerRequest CallingAgent.Spec.PhoneNumber

/-- The ten digits that start at a zero. -/
theorem isDecimal_of_zero {c : Char} {first : Nat} (hz : first ∈ zeros) (h : first ≤ c.toNat ∧ c.toNat < first + 10) :
    isDecimal c = true :=
  List.any_eq_true.2 ⟨first, hz, by simp only [Bool.and_eq_true, decide_eq_true_eq]; exact h⟩

/-- An ASCII digit is a decimal digit. -/
theorem isDecimal_ascii {c : Char} (h : '0' ≤ c ∧ c ≤ '9') : isDecimal c = true := by
  have low : 48 ≤ c.toNat := h.1
  have high : c.toNat ≤ 57 := h.2
  have hz : 0x30 ∈ zeros := List.mem_cons_self
  exact isDecimal_of_zero hz (by omega)

/-- `_E164_RE` on a text that has no line break at its end. -/
theorem accepts_iff {text : List Char} (hn : '\n' ∉ text) :
    e164Re.accepts text = true ↔
      ∃ d ds, text = '+' :: d :: ds ∧ ('1' ≤ d ∧ d ≤ '9') ∧ (7 ≤ ds.length ∧ ds.length ≤ 14) ∧
        ∀ c ∈ ds, isDecimal c = true := by
  simp only [e164Re, Pattern.accepts_iff, Pattern.mem_ends_seq, Pattern.mem_ends_start, Pattern.mem_ends_cls,
    Pattern.mem_ends_rep, Pattern.mem_ends_finish]
  constructor
  · rintro ⟨c, c0, ⟨-, rfl⟩, c1, ⟨x, e, hx, -⟩, c2, ⟨d, e1, hd, -⟩, c3, ⟨ds, e2, hm, hn', hall, -⟩, hend, rfl⟩
    have hx : x = '+' := by simpa using hx
    have htext : text = '+' :: d :: (ds ++ c.rest) := by rw [← e2, ← e1, ← hx]; exact e
    have hrest : c.rest = [] := by
      refine hend.resolve_right fun h => hn ?_
      rw [htext, h]
      simp
    refine ⟨d, ds, by rw [htext, hrest, List.append_nil], by simpa using hd, ⟨hm, hn'⟩, ?_⟩
    simpa [List.all_eq_true] using hall
  · intro h
    obtain ⟨d, ds, e, hd, hl, hall⟩ := h
    refine ⟨⟨0 + 1 + 1 + ds.length, []⟩, ⟨0, text⟩, ⟨trivial, rfl⟩, ⟨0 + 1, d :: ds⟩, ⟨'+', e, rfl, rfl⟩, ⟨0 + 1 + 1, ds⟩,
      ⟨d, rfl, by simpa using hd, rfl⟩, ⟨_, []⟩, ⟨ds, by simp, hl.1, hl.2, ?_, rfl⟩, .inl rfl, rfl⟩
    simpa [List.all_eq_true] using hall

theorem isSeparator_eq (c : Char) : isSeparator c = (isSpace c || c ∈ ['-', '(', ')']) := by
  simp [isSeparator, Bool.or_assoc, Bool.beq_eq_decide_eq]

theorem cleaned_eq (v : String) : cleaned v = spelled isSpace v := by
  simp only [cleaned, spelled, isSeparator_eq]

theorem newline_not_mem (v : String) : '\n' ∉ (cleaned v).toList := by
  have h : isSeparator '\n' = true := by decide
  simp [cleaned, h]

/-- To take the separators out again changes nothing. -/
theorem cleaned_cleaned (v : String) : cleaned (cleaned v) = cleaned v := by
  simp [cleaned]

/-- A text of the grammar with decimal digits is in E.164 form or has foreign digits. -/
theorem validatePhone_iff {v w : String} :
    validatePhone v = .ok w ↔ w = cleaned v ∧ (E164 (cleaned v) ∨ ForeignDigits isDecimal (cleaned v)) := by
  have iff : e164Re.accepts (cleaned v).toList = true ↔ E164 (cleaned v) ∨ ForeignDigits isDecimal (cleaned v) := by
    rw [accepts_iff (newline_not_mem v)]
    constructor
    · intro h
      obtain ⟨d, ds, e, hd, hl, hall⟩ := h
      by_cases h : ∀ c ∈ ds, '0' ≤ c ∧ c ≤ '9'
      · exact .inl ⟨d, ds, e, hd, hl, h⟩
      · exact .inr ⟨d, ds, e, hd, hl, hall, by simpa using h⟩
    · intro h
      obtain ⟨d, ds, e, hd, hl, h⟩ | ⟨d, ds, e, hd, hl, h, -⟩ := h
      · exact ⟨d, ds, e, hd, hl, fun c hc => isDecimal_ascii (h c hc)⟩
      · exact ⟨d, ds, e, hd, hl, h⟩
  rw [← iff]
  by_cases h : e164Re.accepts (cleaned v).toList = true
  · simp [validatePhone, h, eq_comm]
  · simp [validatePhone, h]

/-- What is valid is valid as it is returned. -/
theorem validatePhone_idem {v w : String} (h : validatePhone v = .ok w) : validatePhone w = .ok w := by
  rw [validatePhone_iff] at h ⊢
  rw [h.1, cleaned_cleaned]
  exact ⟨rfl, h.2⟩

theorem not_e164 {text : String} (h : ForeignDigits isDecimal text) : ¬E164 text := by
  intro ⟨d, ds, e, _, _, hds⟩
  obtain ⟨d', ds', e', _, _, _, c, hc, hn⟩ := h
  have : ds = ds' := by simpa using (e.symm.trans e' |> List.cons.inj |>.2 |> List.cons.inj |>.2)
  exact hn (hds c (this ▸ hc))

/-- The validator accepts exactly the E.164 grammar of a text, returns the text without
whitespace, hyphens and parentheses, and accepts that as it is, unless digits of another
script stand in the text. -/
theorem validatePhone_exact (v : String) :
    (((∃ w, validatePhone v = .ok w) ↔ E164 (spelled isSpace v)) ∧
        ∀ w, validatePhone v = .ok w → w = spelled isSpace v ∧ validatePhone w = .ok w) ↔
      ¬ForeignDigits isDecimal (spelled isSpace v) := by
  rw [← cleaned_eq]
  constructor
  · intro h hf
    have hok : validatePhone v = .ok (cleaned v) := validatePhone_iff.2 ⟨rfl, .inr hf⟩
    exact not_e164 hf (h.1.1 ⟨_, hok⟩)
  · intro hf
    refine ⟨⟨fun ⟨w, h⟩ => ?_, fun h => ?_⟩, fun w h => ⟨(validatePhone_iff.1 h).1, validatePhone_idem h⟩⟩
    · exact (validatePhone_iff.1 h).2.resolve_right hf
    · exact ⟨_, validatePhone_iff.2 ⟨rfl, .inl h⟩⟩

/-- A number with Arabic-Indic digits. -/
theorem foreign_arabic_indic :
    ForeignDigits isDecimal (cleaned "+9\u0661\u0669\u0668\u0667\u0666\u0665\u0664") := by
  let ds := ['\u0661', '\u0669', '\u0668', '\u0667', '\u0666', '\u0665', '\u0664']
  have hrange : ∀ c ∈ ds, 0x660 ≤ c.toNat ∧ c.toNat < 0x660 + 10 := by simp [ds]
  have hz : 0x660 ∈ zeros := by simp only [zeros, List.mem_cons, true_or, or_true]
  have hdecimal : ∀ c ∈ ds, isDecimal c = true := fun c hc => isDecimal_of_zero hz (hrange c hc)
  exact ⟨'9', ds, by decide, by decide, by decide, hdecimal, '\u0661', by decide, by decide⟩

/-- It is accepted, and is not in E.164 form. -/
theorem arabic_indic_accepted :
    ¬∀ v, ((∃ w, validatePhone v = .ok w) ↔ E164 (spelled isSpace v)) ∧
      ∀ w, validatePhone v = .ok w → w = spelled isSpace v ∧ validatePhone w = .ok w := by
  intro h
  have hok := validatePhone_iff.2 ⟨rfl, .inr foreign_arabic_indic⟩
  have he := (h _).1.1 ⟨_, hok⟩
  rw [← cleaned_eq] at he
  exact not_e164 foreign_arabic_indic he

end CallingAgent.Proof.Customers.PhoneNumber
