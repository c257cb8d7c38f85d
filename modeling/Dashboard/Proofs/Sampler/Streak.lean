import Dashboard.Proofs.Producer.Calls

/-! # Failures in a row

A sampler numbers the failures since the last success. The numbers have 32 bits, and there may be more failures in a row
than numbers. The sum that does not fit begins again at 0; or sums are checked, and the sampler breaks off behind an open
gate.

Lists of completed samples have the latest first.

* `Sampler.streak`, `Sampler.Fits`: the failures since the last success; there were never too many of them to number.
* `Sampler.stepWith_eq_ok_iff`, `Sampler.stepWith_eq_error_iff`: an action with either kind of sums.
* `Sampler.Counts`: what the number says of the samples before.
* `Sampler.Counts.next`, `Sampler.Counts.breaks_iff`: one action keeps that up, and when it is the last one.
* `Sampler.Run`: the samples that a sampler completes, in a world that may become any other between its actions.
-/

namespace Dashboard.Sampler
set_option autoImplicit false

/-! ## Rows of failures -/

/-- The number of failures since the last success. -/
def streak (cs : List Completion) : Nat := (cs.takeWhile Completion.isFailure).length

theorem streak_failure {c : Completion} (h : c.isFailure = true) (cs : List Completion) :
    streak (c :: cs) = streak cs + 1 := by
  rw [streak, List.takeWhile_cons_of_pos h]
  rfl

theorem streak_success {c : Completion} (h : c.isFailure = false) (cs : List Completion) :
    streak (c :: cs) = 0 := by
  rw [streak, List.takeWhile_cons_of_neg (by simp [h])]
  rfl

theorem streak_replicate {c : Completion} (h : c.isFailure = true) (n : Nat) :
    streak (List.replicate n c) = n := by
  induction n with
  | zero => rfl
  | succ n ih => rw [List.replicate_succ, streak_failure h, ih]

/-- At no time were there more failures in a row than there are numbers for. -/
def Fits (cs : List Completion) : Prop := ∀ ds, ds <:+ cs → streak ds < UInt32.size

theorem Fits.of_suffix {cs ds : List Completion} (h : Fits cs) (hs : ds <:+ cs) : Fits ds :=
  fun es hes => h es (hes.trans hs)

theorem Fits.of_append {cs ds : List Completion} (h : Fits (ds ++ cs)) : Fits cs :=
  h.of_suffix (List.suffix_append ds cs)

theorem fits_nil : Fits [] := by
  intro ds h
  rw [List.suffix_nil.1 h]
  decide

theorem fits_cons {c : Completion} {cs : List Completion} :
    Fits (c :: cs) ↔ streak (c :: cs) < UInt32.size ∧ Fits cs := by
  constructor
  · intro h
    exact ⟨h _ List.suffix_rfl, h.of_suffix (List.suffix_cons c cs)⟩
  · rintro ⟨hc, hcs⟩ ds hds
    rcases List.suffix_cons_iff.1 hds with rfl | hds
    · exact hc
    · exact hcs ds hds

theorem fits_of_length_lt {cs : List Completion} (h : cs.length < UInt32.size) : Fits cs := by
  intro ds hds
  have hle : streak ds ≤ ds.length := (List.takeWhile_sublist _).length_le
  exact Nat.lt_of_le_of_lt (Nat.le_trans hle hds.length_le) h

theorem fits_replicate {c : Completion} (h : c.isFailure = true) {n : Nat} (hn : n < UInt32.size) :
    Fits (List.replicate n c) := by
  induction n with
  | zero => exact fits_nil
  | succ n ih =>
    rw [List.replicate_succ, fits_cons, ← List.replicate_succ, streak_replicate h]
    exact ⟨hn, ih (Nat.lt_of_succ_lt hn)⟩

theorem Fits.cons_iff {c : Completion} {cs : List Completion} (h : Fits cs) :
    Fits (c :: cs) ↔ ¬ (c.isFailure = true ∧ streak (c :: cs) = UInt32.size) := by
  have hlt : streak cs < UInt32.size := h cs List.suffix_rfl
  rw [fits_cons, and_iff_left h]
  cases hf : c.isFailure with
  | true =>
    rw [streak_failure hf, and_iff_right rfl]
    omega
  | false =>
    rw [streak_success hf]
    exact iff_of_true (by decide) fun hfull => Bool.false_ne_true hfull.1

/-! ## One action -/

section action
variable {arithmetic : Arithmetic} {w : World} {p q : Sampler} {c : Completion} {cs : List Completion}

/-- A sampler that completes a sample rests afterwards. -/
theorem step_of_completion (hc : p.completion? w = some c) : ∃ due, p.step w =
    ((p.record c.outcome (w.finishSample p.source).2).1,
      some { (p.record c.outcome (w.finishSample p.source).2).2 with phase := .resting due }) := by
  unfold completion? at hc
  split at hc
  · rename_i ends due hp
    rw [← Option.some.inj hc]
    exact ⟨due, by simp only [step, hp]⟩
  · exact absurd hc (Option.some_ne_none c).symm

theorem failures_of_completion (hc : p.completion? w = some c) (hq : (p.step w).2 = some q) :
    q.failures = if c.isFailure then p.failures + 1 else 0 := by
  obtain ⟨due, hstep⟩ := step_of_completion hc
  rw [hstep] at hq
  rw [← Option.some.inj hq, Completion.isFailure]
  cases c.outcome <;> rfl

theorem failures_of_no_completion (hc : p.completion? w = none) (hq : (p.step w).2 = some q) :
    q.failures = p.failures := by
  unfold step at hq
  unfold completion? at hc
  cases hp : p.phase with
  | fresh =>
    simp only [hp, Option.some.injEq] at hq
    rw [← hq]
  | resting due =>
    simp only [hp] at hq
    split at hq
    · exact absurd hq (Option.some_ne_none q).symm
    · rw [← Option.some.inj hq]
  | sampling ends due => simp [hp] at hc

theorem stepWith_eq_ok_iff {result : World × Option Sampler} : p.stepWith arithmetic w = .ok result ↔
    p.step w = result ∧ (arithmetic = .checked → p.overflows w = false) := by
  cases arithmetic with
  | wrapping => simp [stepWith]
  | checked => cases h : p.overflows w <;> simp [stepWith, h]

theorem step_of_stepWith {v : World} {next : Option Sampler} (h : p.stepWith arithmetic w = .ok (v, next)) :
    (p.step w).1 = v ∧ (p.step w).2 = next :=
  Prod.ext_iff.1 (stepWith_eq_ok_iff.1 h).1

theorem stepWith_of_no_completion {next : Option Sampler} (hc : p.completion? w = none)
    (h : (p.step w).2 = next) : p.stepWith arithmetic w = .ok ((p.step w).1, next) :=
  stepWith_eq_ok_iff.2 ⟨Prod.ext rfl h, fun _ => by simp [overflows, hc]⟩

theorem stepWith_eq_error_iff {v : World} : p.stepWith arithmetic w = .error v ↔
    arithmetic = .checked ∧ p.overflows w = true ∧ (w.finishSample p.source).2 = v := by
  cases arithmetic with
  | wrapping => simp [stepWith]
  | checked => cases h : p.overflows w <;> simp [stepWith, h]

/-- The number is that of the failures in a row, up to sums that began again at 0. -/
def Counts (p : Sampler) (cs : List Completion) : Prop := p.failures = UInt32.ofNat (streak cs)

namespace Counts

theorem failures_eq (h : p.Counts cs) : p.failures = UInt32.ofNat (streak cs) := h

theorem toNat (h : p.Counts cs) : p.failures.toNat = streak cs % UInt32.size := by
  rw [h.failures_eq]
  exact UInt32.toNat_ofNat'

/-- Only an action that completes a sample changes the number. -/
theorem next (h : p.Counts cs) (hq : (p.step w).2 = some q) :
    q.Counts ((p.completion? w).toList ++ cs) := by
  cases hc : p.completion? w with
  | none => exact (failures_of_no_completion hc hq).trans h
  | some c =>
    rw [Counts, failures_of_completion hc hq, Option.toList_some, List.singleton_append]
    cases hf : c.isFailure with
    | true => rw [if_pos rfl, streak_failure hf, UInt32.ofNat_add, ← h.failures_eq, UInt32.ofNat_one]
    | false =>
      rw [if_neg Bool.false_ne_true, streak_success hf]
      rfl

theorem overflows_iff (h : p.Counts cs) (hc : p.completion? w = some c) : p.overflows w = true ↔
    c.isFailure = true ∧ UInt32.size ∣ streak (c :: cs) := by
  have hsize : UInt32.size = 4294967296 := rfl
  have hsum : p.overflows w = true ↔ c.isFailure = true ∧ UInt32.size ≤ p.failures.toNat + 1 := by
    simp [overflows, hc]
  rw [hsum, h.toNat]
  refine and_congr_right fun hf => ?_
  rw [streak_failure hf, hsize]
  omega

/-- The first sum that does not fit. -/
theorem overflows_iff_of_fits (h : p.Counts cs) (hf : Fits cs) (hc : p.completion? w = some c) :
    p.overflows w = true ↔ c.isFailure = true ∧ streak (c :: cs) = UInt32.size := by
  have hsize : UInt32.size = 4294967296 := rfl
  have hlt : streak cs < UInt32.size := hf cs List.suffix_rfl
  rw [h.overflows_iff hc]
  refine and_congr_right fun hf => ?_
  rw [streak_failure hf]
  rw [hsize] at hlt ⊢
  omega

theorem not_overflows_iff (h : p.Counts cs) (hf : Fits cs) :
    p.overflows w = false ↔ Fits ((p.completion? w).toList ++ cs) := by
  cases hc : p.completion? w with
  | none => exact iff_of_true (by simp [overflows, hc]) hf
  | some c =>
    rw [Option.toList_some, List.singleton_append, hf.cons_iff, ← h.overflows_iff_of_fits hf hc,
      Bool.not_eq_true]

/-- As long as sums fit, it does not matter what becomes of those that do not. -/
theorem stepWith_eq_ok (h : p.Counts cs)
    (hf : arithmetic = .checked → Fits ((p.completion? w).toList ++ cs)) :
    p.stepWith arithmetic w = .ok (p.step w) := by
  refine stepWith_eq_ok_iff.2 ⟨rfl, fun hchecked => ?_⟩
  exact (h.not_overflows_iff (hf hchecked).of_append).2 (hf hchecked)

theorem breaks_iff (h : p.Counts cs) (hf : arithmetic = .checked → Fits cs) :
    (∃ v, p.stepWith arithmetic w = .error v) ↔
      arithmetic = .checked ∧ ¬ Fits ((p.completion? w).toList ++ cs) := by
  simp only [stepWith_eq_error_iff, exists_and_left, exists_eq', and_true]
  refine and_congr_right fun hchecked => ?_
  rw [← h.not_overflows_iff (hf hchecked), Bool.not_eq_false]

end Counts

end action

/-! ## Runs -/

/-- The samples that a sampler completed, the latest first. Between its actions the world may become any other. -/
inductive Run (arithmetic : Arithmetic) (p₀ : Sampler) : List Completion → World → Sampler → Prop
  | start (w : World) : Run arithmetic p₀ [] w p₀
  | act {cs : List Completion} {w v : World} {p q : Sampler} (h : Run arithmetic p₀ cs w p)
      (hr : p.isReady w = true) (hq : p.stepWith arithmetic w = .ok (v, some q)) :
      Run arithmetic p₀ ((p.completion? w).toList ++ cs) v q
  | aside {cs : List Completion} {w : World} {p : Sampler} (h : Run arithmetic p₀ cs w p) (v : World) :
      Run arithmetic p₀ cs v p

namespace Run
variable {arithmetic : Arithmetic} {w : World} {p₀ p : Sampler} {cs : List Completion}

theorem name_eq (h : Run arithmetic p₀ cs w p) : p.name = p₀.name := by
  induction h with
  | start => rfl
  | act h hr hq ih =>
    obtain ⟨failures, phase, rfl⟩ := step_snd (step_of_stepWith hq).2
    exact ih
  | aside h v ih => exact ih

theorem counts (h : Run arithmetic p₀ cs w p) (hp : p₀.failures = 0) : p.Counts cs := by
  induction h with
  | start => exact hp
  | act h hr hq ih => exact ih.next (step_of_stepWith hq).2
  | aside h v ih => exact ih

/-- Where sums are checked, every number is right. -/
theorem fits (h : Run arithmetic p₀ cs w p) (hp : p₀.failures = 0) (hchecked : arithmetic = .checked) :
    Fits cs := by
  induction h with
  | start => exact fits_nil
  | act h hr hq ih => exact ((h.counts hp).not_overflows_iff ih).1 ((stepWith_eq_ok_iff.1 hq).2 hchecked)
  | aside h v ih => exact ih

theorem checked_of_fits (h : Run .wrapping p₀ cs w p) (hp : p₀.failures = 0) (hf : Fits cs) :
    Run .checked p₀ cs w p := by
  induction h with
  | start => exact .start _
  | act h hr hq ih =>
    -- Sums fitted before this action, so the sum of this action fits exactly if the longer list still does.
    have hsum := ((h.counts hp).not_overflows_iff hf.of_append).2 hf
    exact (ih hf.of_append).act hr (stepWith_eq_ok_iff.2 ⟨(stepWith_eq_ok_iff.1 hq).1, fun _ => hsum⟩)
  | aside h v ih => exact (ih hf).aside v

end Run

end Dashboard.Sampler
