import Dashboard.Proofs.Sampler.Outcome

/-! # The count of failures

A sampler reports with each failure how many there were in a row, and with a success how many there were before it. The
reports are right as long as the sums fit.

* `Journal.counts`: the notices that tell how many failures there were in a row.
* `Sampler.Completes`: what an action does that completes a sample after others.
* `Sampler.failure_count`: the number, the reports, and which sample ends a sampler, after every run.
* `Sampler.uncounted_failure`: the first failure that has no number.
-/

namespace Dashboard
set_option autoImplicit false

/-! ## Reports -/

/-- A notice that tells how many failures there were in a row. -/
def Notice.isCount : Notice → Bool
  | .sampleFailed .. | .recovered .. => true
  | _ => false

/-- The notices that tell how many failures there were in a row, the latest first. -/
def Journal.counts (j : Journal) : List Notice := (j.map Prod.snd).filter Notice.isCount

namespace World
variable (w : World)

theorem counts_note (n : Notice) : (w.note n).journal.counts =
    if n.isCount then n :: w.journal.counts else w.journal.counts :=
  List.filter_cons

@[simp] theorem counts_write (x : Writer) (status : Status) :
    (w.write x status).2.journal.counts = w.journal.counts := by
  have hput (slot : Slot) : (w.put slot status).2.journal.counts = w.journal.counts := by
    unfold put
    split
    · exact counts_note _ (.updated slot status)
    · exact counts_note _ (.refused status.kind slot)
  unfold write
  split
  · exact hput x.slot
  · exact w.counts_note (.discarded x.slot)

@[simp] theorem counts_finishSample (i : Nat) :
    (w.finishSample i).2.journal.counts = w.journal.counts := by
  unfold finishSample
  split
  · rfl
  · split
    · exact counts_note _ (.answered _ _)
    · rfl

end World

namespace Sampler

section action
variable {w : World} {p : Sampler} {c : Completion}

theorem counts_of_failure {failure : Failure} (hc : p.completion? w = some c)
    (hf : c.outcome = .error failure) : (p.step w).1.journal.counts =
      .sampleFailed p.name (p.failures + 1) failure :: w.journal.counts := by
  obtain ⟨due, hstep⟩ := step_of_completion hc
  rw [hstep, hf]
  cases h : p.fallback.status? with
  | none => simp [record, h, World.counts_note, Notice.isCount]
  | some s => simp [record, h, World.counts_note, Notice.isCount]

theorem counts_of_success {status : Status} (hc : p.completion? w = some c)
    (hs : c.outcome = .ok status) : (p.step w).1.journal.counts =
      if 0 < p.failures then .recovered p.name p.failures :: w.journal.counts else w.journal.counts := by
  obtain ⟨due, hstep⟩ := step_of_completion hc
  rw [hstep, hs]
  by_cases h : 0 < p.failures
  · simp [record, h, World.counts_note, Notice.isCount]
  · simp [record, h, World.counts_note, Notice.isCount]

end action

/-! ## All runs -/

/-- A sampler may complete samples with any outcomes, and any outcome next. -/
theorem Run.exists_before (arithmetic : Arithmetic) {w₀ : World} {p₀ : Sampler} (hp : p₀.phase = .fresh)
    (hn : p₀.failures = 0) (ho : w₀.latches.isOpen p₀.writer.gate = true)
    (outcomes : List (Except Failure Status)) (outcome : Except Failure Status)
    (hf : arithmetic = .checked → Fits (outcomes.map (⟨·, true⟩))) :
    ∃ w p, Run arithmetic p₀ (outcomes.map (⟨·, true⟩)) w p ∧ p.isReady w = true ∧
      w.latches.isOpen p.writer.gate = true ∧ p.completion? w = some ⟨outcome, true⟩ := by
  obtain ⟨w, p, h, hrest, ho⟩ := Course.exists_outcomes hn hp ho outcomes hf
  obtain ⟨v, q, hbegun, hs, ho⟩ := h.exists_begin hrest ho
  obtain ⟨u, hended, hr, hlatches, hc⟩ := hbegun.exists_answer hs outcome
  rw [ho] at hc
  rw [← hlatches] at ho
  exact ⟨u, q, hended.run, hr, ho, hc⟩

/-- What an action does that completes a sample after others. The sum overflows at a failure that makes the failures in a
row a multiple of the bound. If sums are checked, the sampler breaks off at the first one, before it reports or writes
anything. Otherwise it waits for its next sample; the number reported with a failure is right up to multiples of the
bound, and a success reports how many failures it follows, unless they are such a multiple. -/
structure Completes (arithmetic : Arithmetic) (cs : List Completion) (c : Completion) (w : World)
    (p : Sampler) : Prop where
  overflow : p.overflows w = true ↔ c.isFailure = true ∧ UInt32.size ∣ streak (c :: cs)
  broken : (∃ v, p.stepWith arithmetic w = .error v) ↔
    arithmetic = .checked ∧ c.isFailure = true ∧ streak (c :: cs) = UInt32.size
  silent : ∀ v, p.stepWith arithmetic w = .error v →
    v.board = w.board ∧ v.journal.counts = w.journal.counts
  waits : ∀ v next, p.stepWith arithmetic w = .ok (v, next) → ∃ q due, next = some q ∧ q.phase = .resting due
  failure : ∀ v next, p.stepWith arithmetic w = .ok (v, next) → ∀ failure, c.outcome = .error failure →
    ∃ number : UInt32, v.journal.counts = .sampleFailed p.name number failure :: w.journal.counts ∧
      number.toNat = streak (c :: cs) % UInt32.size
  success : ∀ v next, p.stepWith arithmetic w = .ok (v, next) → ∀ status, c.outcome = .ok status →
    v.journal.counts = if UInt32.size ∣ streak cs then w.journal.counts
      else .recovered p.name (UInt32.ofNat (streak cs)) :: w.journal.counts

theorem Run.completes {arithmetic : Arithmetic} {w : World} {p₀ p : Sampler} {cs : List Completion}
    {c : Completion} (h : Run arithmetic p₀ cs w p) (hp : p₀.failures = 0)
    (hc : p.completion? w = some c) : Completes arithmetic cs c w p where
  overflow := (h.counts hp).overflows_iff hc
  broken := by
    simp only [stepWith_eq_error_iff, exists_and_left, exists_eq', and_true]
    exact and_congr_right fun hchecked => (h.counts hp).overflows_iff_of_fits (h.fits hp hchecked) hc
  silent := by
    intro v hv
    obtain ⟨-, -, rfl⟩ := stepWith_eq_error_iff.1 hv
    exact ⟨w.board_finishSample p.source, w.counts_finishSample p.source⟩
  waits := by
    intro v next hv
    obtain ⟨due, hstep⟩ := step_of_completion hc
    have hnext := congrArg Prod.snd (hstep.symm.trans (stepWith_eq_ok_iff.1 hv).1)
    exact ⟨_, due, hnext.symm, rfl⟩
  failure := by
    intro v next hv failure hf
    have hfailure : c.isFailure = true := by rw [Completion.isFailure, hf]
    have hworld : (p.step w).1 = v := congrArg Prod.fst (stepWith_eq_ok_iff.1 hv).1
    refine ⟨p.failures + 1, hworld ▸ counts_of_failure hc hf, ?_⟩
    rw [(h.counts hp).failures_eq, streak_failure hfailure, ← UInt32.ofNat_one, ← UInt32.ofNat_add]
    exact UInt32.toNat_ofNat'
  success := by
    intro v next hv status hs
    have hworld : (p.step w).1 = v := congrArg Prod.fst (stepWith_eq_ok_iff.1 hv).1
    have hzero : 0 < p.failures ↔ ¬ UInt32.size ∣ streak cs := by
      rw [UInt32.lt_iff_toNat_lt, (h.counts hp).toNat, Nat.dvd_iff_mod_eq_zero]
      exact Nat.pos_iff_ne_zero
    rw [← hworld, counts_of_success hc hs, ← (h.counts hp).failures_eq]
    simp only [hzero, ite_not]

/-- **The count of failures.** A new sampler may complete samples with any outcomes in any order, as long as sums fit if they
are checked. After every run, of any length, it has counted the failures since the last success up to multiples of
`UInt32.size`; the count is right exactly if they are fewer. No sample ends the sampler, unless sums are checked and it is
the failure that makes `UInt32.size` in a row. -/
theorem failure_count (arithmetic : Arithmetic) (p₀ : Sampler) (hp : p₀.phase = .fresh)
    (hn : p₀.failures = 0) :
    (∀ w₀ : World, w₀.latches.isOpen p₀.writer.gate = true →
      ∀ (outcomes : List (Except Failure Status)) (outcome : Except Failure Status),
        (arithmetic = .checked → Fits (outcomes.map (⟨·, true⟩))) →
        ∃ w p, Run arithmetic p₀ (outcomes.map (⟨·, true⟩)) w p ∧ p.isReady w = true ∧
          w.latches.isOpen p.writer.gate = true ∧ p.completion? w = some ⟨outcome, true⟩) ∧
    ∀ cs w p, Run arithmetic p₀ cs w p →
      (arithmetic = .checked → Fits cs) ∧
      p.failures.toNat = streak cs % UInt32.size ∧
      (p.failures.toNat = streak cs ↔ streak cs < UInt32.size) ∧
      ∀ c, p.completion? w = some c → Completes arithmetic cs c w p := by
  constructor
  · intro w₀ ho outcomes outcome hf
    exact Run.exists_before arithmetic hp hn ho outcomes outcome hf
  · intro cs w p h
    have hcount : p.failures.toNat = streak cs % UInt32.size := (h.counts hn).toNat
    refine ⟨h.fits hn, hcount, ?_, fun c hc => h.completes hn hc⟩
    rw [hcount]
    exact Nat.mod_eq_iff_lt (by decide)

/-- `UInt32.size` failures in a row, and then a success: it reports no recovery. -/
theorem failure_count_unreported :
    let p₀ : Sampler :=
      { name := "server", source := 0, period := 1, fallback := .keepLast, writer := ⟨.server, ⟨0, [], 0⟩⟩ }
    let w₀ : World := { latches := { made := 1 } }
    let outcomes : List (Except Failure Status) := List.replicate UInt32.size (.error (.source "server" "down"))
    p₀.phase = .fresh ∧ p₀.failures = 0 ∧ w₀.latches.isOpen p₀.writer.gate = true ∧
      ∃ w p v next, Run .wrapping p₀ (outcomes.map (⟨·, true⟩)) w p ∧
        p.completion? w = some ⟨.ok .up, true⟩ ∧ p.stepWith .wrapping w = .ok (v, next) ∧
        v.journal.counts = w.journal.counts := by
  intro p₀ w₀ outcomes
  obtain ⟨hexists, hcount⟩ := failure_count .wrapping p₀ rfl rfl
  obtain ⟨w, p, h, -, -, hc⟩ := hexists w₀ rfl outcomes (.ok .up) (fun hchecked => nomatch hchecked)
  obtain ⟨-, -, -, hcompletes⟩ := hcount _ w p h
  have hsuccess := (hcompletes _ hc).success _ _ rfl _ rfl
  have hstreak : streak (outcomes.map (⟨·, true⟩)) = UInt32.size := by
    rw [List.map_replicate, streak_replicate rfl]
  rw [hstreak, if_pos (Nat.dvd_refl _)] at hsuccess
  exact ⟨rfl, rfl, rfl, w, p, _, _, h, hc, rfl, hsuccess⟩

/-- After `UInt32.size - 1` failures in a row, the next one is reported as number 0; where sums are checked, it is not
reported, and ends the sampler behind an open gate. -/
theorem uncounted_failure :
    let p₀ : Sampler :=
      { name := "server", source := 0, period := 1, fallback := .keepLast, writer := ⟨.server, ⟨0, [], 0⟩⟩ }
    let failure : Failure := .source "server" "down"
    let cs : List Completion := List.replicate (UInt32.size - 1) ⟨.error failure, true⟩
    ∃ w p, (∀ arithmetic, Run arithmetic p₀ cs w p) ∧ w.latches.isOpen p.writer.gate = true ∧
      p.completion? w = some ⟨.error failure, true⟩ ∧
      streak (⟨.error failure, true⟩ :: cs) = UInt32.size ∧ p.overflows w = true ∧
      (p.step w).1.journal.counts.head? = some (.sampleFailed "server" 0 failure) ∧
      (Notice.sampleFailed "server" 0 failure).text =
        "Poller 'server' sample failed (attempt 0): Source server failed: down" ∧
      p.stepWith .checked w = .error (w.finishSample p.source).2 := by
  intro p₀ failure cs
  let w₀ : World := { latches := { made := 1 } }
  have hfresh : p₀.phase = .fresh := rfl
  have hopen : w₀.latches.isOpen p₀.writer.gate = true := rfl
  obtain ⟨w, p, h, -, ho, hc⟩ := Run.exists_before .wrapping hfresh rfl hopen
    (List.replicate (UInt32.size - 1) (.error failure)) (.error failure) nofun
  rw [List.map_replicate] at h
  have hfits : Fits cs := fits_replicate rfl (by decide)
  have hchecked : Run .checked p₀ cs w p := h.checked_of_fits rfl hfits
  have hstreak : streak (⟨.error failure, true⟩ :: cs) = UInt32.size := by
    rw [streak_failure rfl, streak_replicate rfl]
    rfl
  have hover : p.overflows w = true := ((h.counts rfl).overflows_iff_of_fits hfits hc).2 ⟨rfl, hstreak⟩
  have hzero : p.failures + 1 = 0 := by
    rw [(h.counts rfl).failures_eq, streak_replicate rfl]
    rfl
  refine ⟨w, p, ?_, ho, hc, hstreak, hover, ?_, rfl, stepWith_eq_error_iff.2 ⟨rfl, hover, rfl⟩⟩
  · intro arithmetic
    cases arithmetic with
    | wrapping => exact h
    | checked => exact hchecked
  · rw [counts_of_failure hc rfl, hzero, h.name_eq]
    rfl

end Sampler
end Dashboard
