import Dashboard.Proofs.Text.Digits
import Dashboard.Toml.Printer
import Dashboard.Toml.Reader

/-! # Printed natural numbers are read back

The decimal digits of a natural number at the end of a line are read as this number, and as nothing else: they do not look
like a date, have no base of their own, no fraction and no exponent.

* `looksLikeDay_append`, `looksLikeClock_append`: digits at the end of a line are no date.
* `scalar?_toDigits`, `value?_toDigits`: the value that is read.
-/

namespace Dashboard.Toml
set_option autoImplicit false

/-! ## Digits at the end of a line -/

section
variable {ds : List Char} (r : List Char)

theorem groupedTail_append (h : ∀ d ∈ ds, d.isDigit = true) :
    groupedTail Char.isDigit (ds ++ '\n' :: r) = some (ds, '\n' :: r) := by
  induction ds with
  | nil => simp [groupedTail]
  | cons d ds ih =>
    have hd := h d List.mem_cons_self
    have hrest := ih fun x hx => h x (List.mem_cons_of_mem _ hx)
    have hne : d ≠ '_' := Text.ne_of_isDigit hd (by decide)
    simp [groupedTail, hd, hrest, hne]

theorem grouped?_append (h : ∀ d ∈ ds, d.isDigit = true) (hne : ds ≠ []) :
    grouped? Char.isDigit (ds ++ '\n' :: r) = some (ds, '\n' :: r) := by
  cases ds with
  | nil => exact absurd rfl hne
  | cons d ds =>
    have hrest := groupedTail_append r fun x hx => h x (List.mem_cons_of_mem d hx)
    simp [grouped?, h d List.mem_cons_self, hrest]

/-- After some of the digits comes another digit or the end of the line. -/
theorem past?_of_fixed? (h : ∀ d ∈ ds, d.isDigit = true) {c : Char} (hc : c.isDigit = false) (hl : c ≠ '\n')
    {width n : Nat} {x : List Char} (hx : fixed? width (ds ++ '\n' :: r) = some (n, x)) : past? c x = none := by
  simp only [fixed?] at hx
  split at hx
  · rename_i hwidth
    obtain ⟨hlen, hall⟩ := hwidth
    have hle : width ≤ ds.length := by
      apply Nat.le_of_not_lt
      intro hlt
      -- The newline behind the digits would be one of the characters that were taken.
      have hnewline : '\n' ∈ (ds ++ '\n' :: r).take width := by
        rw [List.take_append, List.mem_append]
        right
        cases hk : width - ds.length with
        | zero => omega
        | succ k => exact List.mem_cons_self
      exact absurd (List.all_eq_true.1 hall _ hnewline) (by decide)
    obtain ⟨-, rfl⟩ := Prod.mk.inj (Option.some.inj hx)
    rw [List.drop_append_of_le_length hle]
    cases hrest : ds.drop width with
    | nil => exact if_neg (Ne.symm hl)
    | cons d rest =>
      have hd := h d (List.mem_of_mem_drop (hrest ▸ List.mem_cons_self))
      exact if_neg (Text.ne_of_isDigit hd hc)
  · exact absurd hx (Option.some_ne_none _).symm

theorem looksLikeDay_append (h : ∀ d ∈ ds, d.isDigit = true) : looksLikeDay (ds ++ '\n' :: r) = false := by
  rw [looksLikeDay]
  cases hx : fixed? 4 (ds ++ '\n' :: r) with
  | none => rfl
  | some x => rw [Option.bind_some, past?_of_fixed? r h (by decide) (by decide) hx]; rfl

theorem looksLikeClock_append (h : ∀ d ∈ ds, d.isDigit = true) : looksLikeClock (ds ++ '\n' :: r) = false := by
  rw [looksLikeClock, two?]
  cases hx : fixed? 2 (ds ++ '\n' :: r) with
  | none => rfl
  | some x =>
    obtain ⟨n, x⟩ := x
    have hpast := past?_of_fixed? r h (c := ':') (by decide) (by decide) hx
    simp [hpast]

end

/-! ## Numbers -/

theorem decimal?_toDigits (n : Nat) (r : List Char) :
    decimal? (Nat.toDigits 10 n ++ '\n' :: r) = some (Nat.toDigits 10 n, '\n' :: r) := by
  cases hds : Nat.toDigits 10 n with
  | nil => exact absurd hds Nat.toDigits_ne_nil
  | cons d ds =>
    by_cases hd : d = '0'
    · subst hd
      rw [Text.eq_nil_of_toDigits hds]
      rfl
    · have hgrouped := grouped?_append r (fun x => Text.isDigit_of_mem (n := n) (d := x)) Nat.toDigits_ne_nil
      rw [hds] at hgrouped
      simpa [decimal?, hd] using hgrouped

theorem int64?_natCast {n : Nat} (hn : n < Word.signedBound) : int64? n = some (.int n) := by
  have hlow : -(Word.signedBound : Int) ≤ n :=
    Int.le_trans (Int.neg_nonpos_of_nonneg (Int.natCast_nonneg _)) (Int.natCast_nonneg n)
  have hhigh : (n : Int) < (Word.signedBound : Int) := Int.ofNat_lt.2 hn
  have hsigned : Word.isSigned n = true := by
    unfold Word.isSigned
    rw [decide_eq_true hlow, decide_eq_true hhigh]
    rfl
  exact if_pos hsigned

/-- Without a point and an exponent, digits are an integer. -/
theorem decimalNumber?_of_decimal? {cs ds r : List Char} {c : Char} (h : decimal? cs = some (ds, c :: r))
    (hpoint : c ≠ '.') (hlower : c ≠ 'e') (hupper : c ≠ 'E') :
    decimalNumber? false cs = (int64? (Text.digitsValue 10 ds)).bind fun v => some (v, c :: r) := by
  rw [decimalNumber?, h]
  simp [hpoint, hlower, hupper]

theorem number?_of_isDigit {d : Char} {ds : List Char} (hd : d.isDigit = true)
    (hbase : ∀ b r, b = 'x' ∨ b = 'o' ∨ b = 'b' → ds ≠ b :: r) :
    number? (d :: ds) = decimalNumber? false (d :: ds) := by
  have hne (c : Char) (hc : c.isDigit = false) : d ≠ c := Text.ne_of_isDigit hd hc
  have hsign : sign (d :: ds) = (false, d :: ds) := by
    simp [sign, hne '-' (by decide), hne '+' (by decide)]
  unfold number?
  split
  · rename_i r heq
    exact absurd (List.cons.inj heq).2 (hbase 'x' r (by decide))
  · rename_i r heq
    exact absurd (List.cons.inj heq).2 (hbase 'o' r (by decide))
  · rename_i r heq
    exact absurd (List.cons.inj heq).2 (hbase 'b' r (by decide))
  · rw [hsign]
    simp [hne 'i' (by decide), hne 'n' (by decide)]

theorem scalar?_toDigits {n : Nat} (hn : n < Word.signedBound) (r : List Char) :
    scalar? (Nat.toDigits 10 n ++ '\n' :: r) = some (.int n, '\n' :: r) := by
  have hday : looksLikeDay (Nat.toDigits 10 n ++ '\n' :: r) = false :=
    looksLikeDay_append r fun _ => Text.isDigit_of_mem
  have hclock : looksLikeClock (Nat.toDigits 10 n ++ '\n' :: r) = false :=
    looksLikeClock_append r fun _ => Text.isDigit_of_mem
  have hnumber := decimalNumber?_of_decimal? (decimal?_toDigits n r) (by decide) (by decide) (by decide)
  rw [Text.digitsValue_toDigits, int64?_natCast hn, Option.bind_some] at hnumber
  rw [scalar?, hday, hclock, Bool.or_self, if_neg Bool.false_ne_true, ← hnumber]
  cases hds : Nat.toDigits 10 n with
  | nil => exact absurd hds Nat.toDigits_ne_nil
  | cons d ds =>
    have hdigits : ∀ x ∈ d :: ds, x.isDigit = true := by
      rw [← hds]
      exact fun _ => Text.isDigit_of_mem
    refine number?_of_isDigit (hdigits d List.mem_cons_self) ?_
    rintro b x hb hx
    have hb' : b.isDigit = false ∧ b ≠ '\n' := by
      rcases hb with rfl | rfl | rfl <;> decide
    cases ds with
    | nil => exact hb'.2 (List.cons.inj hx).1.symm
    | cons y ds =>
      have hy := hdigits y (List.mem_cons_of_mem _ List.mem_cons_self)
      rw [(List.cons.inj hx).1, hb'.1] at hy
      exact absurd hy Bool.false_ne_true

theorem value?_of_isDigit {d : Char} (hd : d.isDigit = true) (ds : List Char) (steps depth : Nat) :
    value? (steps + 1) depth (d :: ds) = scalar? (d :: ds) := by
  have hne (c : Char) (hc : c.isDigit = false) : d ≠ c := Text.ne_of_isDigit hd hc
  simp [value?, hne '"' (by decide), hne '\'' (by decide), hne '[' (by decide), hne '{' (by decide),
    hne 't' (by decide), hne 'f' (by decide)]

/-- A number that fits into 64 bits with a sign is read back from its digits. -/
theorem value?_toDigits {n : Nat} (hn : n < Word.signedBound) (steps depth : Nat) (r : List Char) :
    value? (steps + 1) depth (Nat.toDigits 10 n ++ '\n' :: r) = some (.int n, '\n' :: r) := by
  rw [← scalar?_toDigits hn r]
  cases hds : Nat.toDigits 10 n with
  | nil => exact absurd hds Nat.toDigits_ne_nil
  | cons d ds =>
    have hd : d ∈ Nat.toDigits 10 n := by
      rw [hds]
      exact List.mem_cons_self
    exact value?_of_isDigit (Text.isDigit_of_mem hd) _ steps depth

end Dashboard.Toml
