import Dashboard.Text.Digits

/-! # Decimal digits

* `Text.digitsValue_toDigits`: the digits of a number write this number.
* `Text.eq_nil_of_toDigits`: only zero begins with a zero.
* `Text.natural?_toString`: a number is read from its decimal text.
-/

namespace Dashboard.Text
set_option autoImplicit false

theorem digitsValue_eq_ofDigitChars {ds : List Char} (h : ∀ d ∈ ds, d.isDigit = true) :
    digitsValue 10 ds = Nat.ofDigitChars 10 ds 0 := by
  have hfold (n : Nat) : ds.foldl (fun n d => n * 10 + (hexValue? d).getD 0) n =
      ds.foldl (fun n d => 10 * n + (d.toNat - '0'.toNat)) n := by
    induction ds generalizing n with
    | nil => rfl
    | cons d ds ih =>
      have hd : (hexValue? d).getD 0 = d.toNat - '0'.toNat := by
        rw [hexValue?, if_pos (h d List.mem_cons_self)]
        rfl
      rw [List.foldl_cons, List.foldl_cons, hd, Nat.mul_comm n 10]
      exact ih (fun x hx => h x (List.mem_cons_of_mem _ hx)) _
  rw [digitsValue, Nat.ofDigitChars_eq_foldl]
  exact hfold 0

theorem isDigit_of_mem {n : Nat} {d : Char} (h : d ∈ Nat.toDigits 10 n) : d.isDigit = true :=
  Nat.isDigit_of_mem_toDigits (by omega) (by omega) h

theorem digitsValue_toDigits (n : Nat) : digitsValue 10 (Nat.toDigits 10 n) = n := by
  rw [digitsValue_eq_ofDigitChars fun _ => isDigit_of_mem, Nat.ofDigitChars_ten_toDigits]

/-- Only the number zero is written with a zero at the front. -/
theorem eq_nil_of_toDigits {n : Nat} {ds : List Char} (h : Nat.toDigits 10 n = '0' :: ds) : ds = [] := by
  induction n using Nat.strongRecOn generalizing ds with
  | ind n ih =>
    by_cases hn : n < 10
    · rw [Nat.toDigits_of_lt_base hn] at h
      exact (List.cons.inj h).2.symm
    · rw [Nat.toDigits_of_base_le (by omega) (by omega)] at h
      cases hfront : Nat.toDigits 10 (n / 10) with
      | nil => exact absurd hfront Nat.toDigits_ne_nil
      | cons d front =>
        rw [hfront, List.cons_append] at h
        rw [(List.cons.inj h).1] at hfront
        have hzero : n / 10 = 0 := by
          have hvalue := digitsValue_toDigits (n / 10)
          rw [hfront, ih (n / 10) (by omega) hfront] at hvalue
          exact hvalue.symm
        omega

theorem ne_of_isDigit {c d : Char} (hd : d.isDigit = true) (hc : c.isDigit = false) : d ≠ c := by
  rintro rfl
  rw [hd] at hc
  cases hc

theorem toLower_of_isDigit {d : Char} (hd : d.isDigit = true) : d.toLower = d := by
  refine dif_neg fun h => ?_
  rw [Char.isDigit, Bool.and_eq_true, decide_eq_true_iff, decide_eq_true_iff] at hd
  exact absurd (UInt32.le_trans h.1 hd.2) (by decide)

theorem natural?_of_digits {s : String} {d : Char} {ds : List Char} (hs : s.toList = d :: ds)
    (hdigits : ∀ c ∈ d :: ds, c.isDigit = true) (h : digitsValue 10 (d :: ds) < Word.bound) :
    natural? s = some (UInt64.ofNat (digitsValue 10 (d :: ds))) := by
  have hplus : d ≠ '+' := ne_of_isDigit (hdigits d List.mem_cons_self) (by decide)
  simp only [natural?, hs]
  rw [if_pos]
  · simp [hplus]
  · simpa [hplus, h] using hdigits

/-- The decimal text of a number begins with a digit, like all that follows. -/
theorem exists_digits (n : Nat) : ∃ d ds, (toString n).toList = d :: ds ∧ (∀ c ∈ d :: ds, c.isDigit = true) ∧
    digitsValue 10 (d :: ds) = n := by
  obtain ⟨d, ds, hds⟩ := List.exists_cons_of_ne_nil (Nat.toDigits_ne_nil (n := n) (b := 10))
  refine ⟨d, ds, ?_, ?_, ?_⟩
  · rw [Nat.toString_eq_ofList_toDigits, String.toList_ofList, hds]
  · rw [← hds]
    exact fun _ => isDigit_of_mem
  · rw [← hds, digitsValue_toDigits]

theorem natural?_toString {n : Nat} (h : n < Word.bound) : natural? (toString n) = some (UInt64.ofNat n) := by
  obtain ⟨d, ds, hds, hdigits, hvalue⟩ := exists_digits n
  rw [natural?_of_digits hds hdigits (hvalue.symm ▸ h), hvalue]

end Dashboard.Text
