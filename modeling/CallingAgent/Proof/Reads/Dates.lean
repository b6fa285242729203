import CallingAgent.Impl.Reads

/-!
# Dates as texts

Different days have different texts (`isoDate_injective`): a day can be read off its year,
month and day (`civil_injective`), and these off the text (`pad_injective`).
-/

namespace CallingAgent.Proof.Reads

open CallingAgent.Impl.Reads

/-! ## Numbers -/

theorem toList_pushn (s : String) (c : Char) (n : Nat) : (s.pushn c n).toList = s.toList ++ List.replicate n c := by
  rw [String.pushn_eq_repeat_push]
  induction n with
  | zero => simp [Nat.repeat]
  | succ n ih => rw [Nat.repeat, String.toList_push, ih, List.replicate_succ', List.append_assoc]

theorem toList_pad (width : Nat) (n : Int) :
    (pad width n).toList = List.replicate (width - (toString n).length) '0' ++ (toString n).toList := by
  rw [pad, String.toList_append, toList_pushn]
  rfl

theorem ofDigitChars_replicate (k : Nat) (l : List Char) :
    Nat.ofDigitChars 10 (List.replicate k '0' ++ l) 0 = Nat.ofDigitChars 10 l 0 := by
  induction k with
  | zero => rfl
  | succ k ih => exact ih

/-- The number in a text, without its sign. -/
theorem ofDigitChars_toString (n : Int) : Nat.ofDigitChars 10 (toString n).toList 0 = n.natAbs := by
  rw [Int.toString_eq_repr, Int.repr_eq_if]
  split
  · rename_i h
    rw [Nat.toList_repr, Nat.ofDigitChars_ten_toDigits]
    omega
  · rename_i h
    rw [String.toList_append, Nat.toList_repr]
    show Nat.ofDigitChars 10 (Nat.toDigits 10 (-n).toNat) 0 = n.natAbs
    rw [Nat.ofDigitChars_ten_toDigits]
    omega

theorem minus_mem_toString (n : Int) : '-' ∈ (toString n).toList ↔ n < 0 := by
  rw [Int.toString_eq_repr, Int.repr_eq_if]
  split
  · rename_i h
    rw [Nat.toList_repr]
    refine iff_of_false (fun hmem => ?_) (by omega)
    have := Nat.isDigit_of_mem_toDigits (by decide) (by decide) hmem
    revert this
    decide
  · rename_i h
    rw [String.toList_append]
    exact iff_of_true (List.mem_append_left _ (by decide)) (by omega)

theorem pad_injective {width : Nat} {m n : Int} (h : pad width m = pad width n) : m = n := by
  have hlist := congrArg String.toList h
  rw [toList_pad, toList_pad] at hlist
  have habs : m.natAbs = n.natAbs := by
    have := congrArg (Nat.ofDigitChars 10 · 0) hlist
    simpa only [ofDigitChars_replicate, ofDigitChars_toString] using this
  have hminus : ∀ k : Nat, '-' ∉ List.replicate k '0' := fun k hmem => by
    have := List.eq_of_mem_replicate hmem
    revert this
    decide
  have hsign : m < 0 ↔ n < 0 := by
    have hmem : ('-' ∈ (toString m).toList) ↔ '-' ∈ (toString n).toList := by
      have := congrArg ('-' ∈ ·) hlist
      simpa only [List.mem_append, hminus, false_or, eq_iff_iff] using this
    rw [← minus_mem_toString, hmem, minus_mem_toString]
  omega

theorem length_toList_pad {width : Nat} {n : Int} (h : (toString n).length ≤ width) : (pad width n).toList.length = width := by
  rw [toList_pad, List.length_append, List.length_replicate, String.length_toList]
  omega

theorem length_toString_le {n : Int} (h : 0 ≤ n) (hn : n < 100) : (toString n).length ≤ 2 := by
  rw [Int.toString_eq_repr, Int.repr_eq_if, if_pos h, Nat.length_repr_le_iff (by decide)]
  omega

/-! ## Days -/

/-- The day of a year of this calendar: 365 days, and every fourth year one more. -/
theorem dayOfYear_bounds (doe : Int) (h : 0 ≤ doe) (hlt : doe < 146097) (yoe : Int)
    (hyoe : yoe = (doe - doe / 1460 + doe / 36524 - doe / 146096) / 365) :
    0 ≤ doe - (365 * yoe + yoe / 4 - yoe / 100) ∧ doe - (365 * yoe + yoe / 4 - yoe / 100) ≤ 365 := by
  rcases Int.lt_or_eq_of_le (show doe ≤ 146096 by omega) with hdoe | rfl
  · obtain ⟨c, q, t, u, he, hc, hc3, hq, hq24, ht, ht3, hu, hu365, hleap, hcent⟩ :
        ∃ c q t u : Int, doe = 36524 * c + 1461 * q + 365 * t + u ∧ 0 ≤ c ∧ c ≤ 3 ∧ 0 ≤ q ∧ q ≤ 24 ∧ 0 ≤ t ∧ t ≤ 3 ∧
          0 ≤ u ∧ u ≤ 365 ∧ (u = 365 → t = 3) ∧ 1461 * q + 365 * t + u < 36524 := by
      refine ⟨doe / 36524, doe % 36524 / 1461, min (doe % 36524 % 1461 / 365) 3,
        doe % 36524 % 1461 - 365 * min (doe % 36524 % 1461 / 365) 3, ?_⟩
      omega
    have hcentury : doe / 36524 = c := by omega
    have hcycle : doe / 146096 = 0 := by omega
    have hquad : doe / 1460 = 25 * c + q + (24 * c + q + 365 * t + u) / 1460 := by omega
    have hyear : yoe = 100 * c + 4 * q + t := by
      rw [hyoe, hcentury, hcycle, hquad]
      omega
    have hfour : yoe / 4 = 25 * c + q := by omega
    have hhundred : yoe / 100 = c := by omega
    omega
  · have hyear : yoe = 399 := by omega
    subst hyear
    omega

/-- The parts of a day, from which it can be computed again: the era of 400 years, the year in
it, and the month and day in that. -/
theorem civil_parts (day : Int) :
    ∃ era yoe mp d : Int, 0 ≤ yoe ∧ yoe ≤ 399 ∧ 0 ≤ mp ∧ mp ≤ 11 ∧
      civil day = (yoe + era * 400 + (if mp < 10 then 0 else 1), if mp < 10 then mp + 3 else mp - 9, d) ∧
        day = era * 146097 - 719468 + 365 * yoe + yoe / 4 - yoe / 100 + (153 * mp + 2) / 5 + d - 1 := by
  obtain ⟨era, hera⟩ : ∃ era, era = (day + 719468) / 146097 := ⟨_, rfl⟩
  obtain ⟨doe, hdoe⟩ : ∃ doe, doe = day + 719468 - era * 146097 := ⟨_, rfl⟩
  obtain ⟨yoe, hyoe⟩ : ∃ yoe, yoe = (doe - doe / 1460 + doe / 36524 - doe / 146096) / 365 := ⟨_, rfl⟩
  obtain ⟨doy, hdoy⟩ : ∃ doy, doy = doe - (365 * yoe + yoe / 4 - yoe / 100) := ⟨_, rfl⟩
  have hdays := dayOfYear_bounds doe (by omega) (by omega) yoe hyoe
  rw [← hdoy] at hdays
  refine ⟨era, yoe, (5 * doy + 2) / 153, doy - (153 * ((5 * doy + 2) / 153) + 2) / 5 + 1, by omega, by omega, by omega,
    by omega, ?_, by omega⟩
  simp only [civil, ← hera, ← hdoe, ← hyoe, ← hdoy]
  congr 2
  split <;> split <;> omega

theorem civil_injective : Function.Injective civil := by
  intro a b h
  obtain ⟨era, yoe, mp, d, hyoe, hyoe', hmp, hmp', hcivil, rfl⟩ := civil_parts a
  obtain ⟨era', yoe', mp', d', hyoe₂, hyoe₂', hmp₂, hmp₂', hcivil', rfl⟩ := civil_parts b
  rw [hcivil, hcivil', Prod.mk.injEq, Prod.mk.injEq] at h
  obtain ⟨hyear, hmonth, rfl⟩ := h
  obtain rfl : mp = mp' := by split at hmonth <;> split at hmonth <;> omega
  obtain ⟨rfl, rfl⟩ : era = era' ∧ yoe = yoe' := by omega
  rfl

theorem civil_month (day : Int) : 1 ≤ (civil day).2.1 ∧ (civil day).2.1 ≤ 12 := by
  obtain ⟨era, yoe, mp, d, -, -, hmp, hmp', hcivil, -⟩ := civil_parts day
  rw [hcivil]
  dsimp only
  split <;> omega

/-- A month or a day of a month has two digits. -/
theorem length_toList_pad_two {n : Int} (h : 1 ≤ n) (hn : n ≤ 31) : (pad 2 n).toList.length = 2 :=
  length_toList_pad (length_toString_le (by omega) (by omega))

theorem isoDate_injective : Function.Injective isoDate := by
  intro a b h
  have hlist := congrArg String.toList h
  simp only [isoDate, String.toList_append] at hlist
  obtain ⟨hlist, hday⟩ := List.append_inj' hlist
    ((length_toList_pad_two (civil_day a).1 (civil_day a).2).trans
      (length_toList_pad_two (civil_day b).1 (civil_day b).2).symm)
  obtain ⟨hlist, -⟩ := List.append_inj' hlist rfl
  have hmonth : ∀ c, (pad 2 (civil c).2.1).toList.length = 2 := fun c =>
    length_toList_pad_two (civil_month c).1 ((civil_month c).2.trans (by decide))
  obtain ⟨hlist, hmonths⟩ := List.append_inj' hlist ((hmonth a).trans (hmonth b).symm)
  obtain ⟨hyear, -⟩ := List.append_inj' hlist rfl
  refine civil_injective (Prod.ext (pad_injective (String.toList_inj.mp hyear)) (Prod.ext ?_ ?_))
  · exact pad_injective (String.toList_inj.mp hmonths)
  · exact pad_injective (String.toList_inj.mp hday)

end CallingAgent.Proof.Reads
