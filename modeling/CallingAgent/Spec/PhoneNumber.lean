import Mathlib.Data.List.Basic

/-!
# Phone numbers

A number in E.164 form, and what is left of a spelling of a number without the
characters that only set it out.
-/

namespace CallingAgent.Spec.PhoneNumber

/-- `+`, a digit from one to nine, and 7 to 14 more digits. -/
def E164 (text : String) : Prop :=
  ∃ d ds, text.toList = '+' :: d :: ds ∧ ('1' ≤ d ∧ d ≤ '9') ∧ (7 ≤ ds.length ∧ ds.length ≤ 14) ∧ ∀ c ∈ ds, '0' ≤ c ∧ c ≤ '9'

/-- As `E164`, with digits of any script after the first, and not all of them ASCII. -/
def ForeignDigits (isDecimal : Char → Bool) (text : String) : Prop :=
  ∃ d ds, text.toList = '+' :: d :: ds ∧ ('1' ≤ d ∧ d ≤ '9') ∧ (7 ≤ ds.length ∧ ds.length ≤ 14) ∧
    (∀ c ∈ ds, isDecimal c = true) ∧ ∃ c ∈ ds, ¬('0' ≤ c ∧ c ≤ '9')

/-- A text without whitespace, hyphens and parentheses. -/
def spelled (isSpace : Char → Bool) (text : String) : String :=
  String.ofList (text.toList.filter fun c => !(isSpace c || c ∈ ['-', '(', ')']))

end CallingAgent.Spec.PhoneNumber
