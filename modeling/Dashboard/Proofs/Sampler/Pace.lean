import Dashboard.Proofs.Producer.Calls

/-! # The pace of a sampler

A sampler that acts as soon as it can begins its samples at the times of its ticker: at the deadline, or when the sample
before it has ended if that is later.

* `Ticker.after`, `Ticker.deadlineOf`, `Ticker.freeOf`, `Ticker.startOf`: where the ticker stands after some tasks.
* `Ticker.startOf_add_le`, `Ticker.le_startOf_add`, `Ticker.startOf_succ_le`, `Ticker.startOf_of_short`: tasks do not
  overlap, are not made up for, are not missed, and do not drift.
* `Sample`, `Sampler.begun?`: a sample that a sampler begins.
* `Sample.OnSchedule.of_starts`: what the ticker makes of samples of any durations.
* `Sampler.Paced`: the invariant between the samples so far and the phase, with `Paced.act` and `Paced.idle`.
-/

namespace Dashboard
set_option autoImplicit false

/-! ## Where a ticker stands -/

namespace Ticker

/-- The deadline and the earliest time of the next task, after tasks of given durations. -/
def after (period : Nat) : (due now : Nat) → List Nat → Nat × Nat
  | due, now, [] => (due, now)
  | due, now, duration :: durations =>
    after period (next period due (max now due)) (max now due + duration) durations

theorem after_append (period due now : Nat) (ds es : List Nat) : after period due now (ds ++ es) =
    after period (after period due now ds).1 (after period due now ds).2 es := by
  induction ds generalizing due now with
  | nil => rfl
  | cons d ds ih => exact ih _ _

theorem starts_append (period due now : Nat) (ds es : List Nat) : starts period due now (ds ++ es) =
    starts period due now ds ++
      starts period (after period due now ds).1 (after period due now ds).2 es := by
  induction ds generalizing due now with
  | nil => rfl
  | cons d ds ih => exact congrArg (max now due :: ·) (ih _ _)

@[simp] theorem length_starts (period due now : Nat) (ds : List Nat) :
    (starts period due now ds).length = ds.length := by
  induction ds generalizing due now with
  | nil => rfl
  | cons d ds ih => exact congrArg (· + 1) (ih _ _)

section tasks
variable (p t₀ : Nat) (ds : List Nat)

/-- The deadline of the task of a number, for tasks of given durations from a moment on. -/
def deadlineOf (k : Nat) : Nat := (after p t₀ t₀ (ds.take k)).1

/-- When the tasks before the one of a number have ended. -/
def freeOf (k : Nat) : Nat := (after p t₀ t₀ (ds.take k)).2

def startOf (k : Nat) : Nat := max (freeOf p t₀ ds k) (deadlineOf p t₀ ds k)

variable {p t₀ ds} {k : Nat}

theorem getElem_starts (hk : k < (starts p t₀ t₀ ds).length) : (starts p t₀ t₀ ds)[k] = startOf p t₀ ds k := by
  rw [length_starts] at hk
  have hsplit : starts p t₀ t₀ ds = starts p t₀ t₀ (ds.take k) ++
      starts p (deadlineOf p t₀ ds k) (freeOf p t₀ ds k) (ds[k] :: ds.drop (k + 1)) := by
    rw [← List.drop_eq_getElem_cons hk, deadlineOf, freeOf, ← starts_append, List.take_append_drop]
  have hlength : (starts p t₀ t₀ (ds.take k)).length = k := by
    rw [length_starts, List.length_take]
    omega
  simp only [hsplit, List.getElem_append_right (Nat.le_of_eq hlength), hlength, Nat.sub_self]
  rfl

theorem after_take_succ (hk : k < ds.length) : after p t₀ t₀ (ds.take (k + 1)) =
    (next p (deadlineOf p t₀ ds k) (startOf p t₀ ds k), startOf p t₀ ds k + ds[k]) := by
  rw [← List.take_append_getElem hk, after_append]
  rfl

theorem deadlineOf_succ (hk : k < ds.length) :
    deadlineOf p t₀ ds (k + 1) = next p (deadlineOf p t₀ ds k) (startOf p t₀ ds k) :=
  congrArg Prod.fst (after_take_succ hk)

theorem freeOf_succ (hk : k < ds.length) : freeOf p t₀ ds (k + 1) = startOf p t₀ ds k + ds[k] :=
  congrArg Prod.snd (after_take_succ hk)

theorem deadlineOf_le (k : Nat) : deadlineOf p t₀ ds k ≤ startOf p t₀ ds k := Nat.le_max_right _ _

theorem startOf_zero : startOf p t₀ ds 0 = t₀ := Nat.max_self _

/-- A task begins after the one before it has ended. -/
theorem startOf_add_le (hk : k < ds.length) : startOf p t₀ ds k + ds[k] ≤ startOf p t₀ ds (k + 1) := by
  rw [← freeOf_succ hk]
  exact Nat.le_max_left _ _

/-- The deadline after a task is a period from its begin, up to the tolerance. -/
theorem deadlineOf_succ_bounds (hk : k < ds.length) :
    deadlineOf p t₀ ds (k + 1) ≤ startOf p t₀ ds k + p ∧
      startOf p t₀ ds k + p ≤ deadlineOf p t₀ ds (k + 1) + tolerance := by
  have hle : deadlineOf p t₀ ds k ≤ startOf p t₀ ds k := deadlineOf_le k
  rw [deadlineOf_succ hk, next]
  split
  · omega
  · omega

/-- No task is missed: it begins at the latest when its period and the task before it are over. -/
theorem startOf_succ_le (hk : k < ds.length) :
    startOf p t₀ ds (k + 1) ≤ startOf p t₀ ds k + max ds[k] p := by
  have hdeadline : deadlineOf p t₀ ds (k + 1) ≤ startOf p t₀ ds k + p := (deadlineOf_succ_bounds hk).1
  rw [startOf, freeOf_succ hk]
  omega

theorem deadlineOf_add_le {m : Nat} (hk : k + m ≤ ds.length) :
    deadlineOf p t₀ ds k + m * p ≤ deadlineOf p t₀ ds (k + m) := by
  induction m with
  | zero => simp
  | succ m ih =>
    have hnext := le_next p (deadlineOf p t₀ ds (k + m)) (startOf p t₀ ds (k + m))
    rw [← deadlineOf_succ (by omega)] at hnext
    have hbefore := ih (by omega)
    rw [Nat.succ_mul]
    exact Nat.le_trans (by omega) hnext

/-- Late tasks are not made up for: tasks are their periods apart, up to one tolerance. -/
theorem le_startOf_add {i j : Nat} (hij : i < j) (hj : j ≤ ds.length) :
    startOf p t₀ ds i + (j - i) * p ≤ startOf p t₀ ds j + tolerance := by
  have hfirst : startOf p t₀ ds i + p ≤ deadlineOf p t₀ ds (i + 1) + tolerance :=
    (deadlineOf_succ_bounds (by omega)).2
  have hrest : deadlineOf p t₀ ds (i + 1) + (j - i - 1) * p ≤ deadlineOf p t₀ ds (i + 1 + (j - i - 1)) :=
    deadlineOf_add_le (by omega)
  have hlast : deadlineOf p t₀ ds j ≤ startOf p t₀ ds j := deadlineOf_le j
  have hperiods : (j - i) * p = (j - i - 1) * p + p := by
    rw [← Nat.succ_mul]
    congr 1
    omega
  have hj : i + 1 + (j - i - 1) = j := by omega
  rw [hj] at hrest
  omega

/-- Tasks that take no longer than a period begin exactly one period after the other. -/
theorem startOf_of_short (hshort : ∀ d ∈ ds, d ≤ p) (hk : k ≤ ds.length) :
    startOf p t₀ ds k = t₀ + k * p := by
  have hboth : deadlineOf p t₀ ds k = t₀ + k * p ∧ freeOf p t₀ ds k ≤ t₀ + k * p := by
    induction k with
    | zero => simp [deadlineOf, freeOf, after]
    | succ k ih =>
      obtain ⟨hdeadline, hfree⟩ := ih (by omega)
      have hstart : startOf p t₀ ds k = t₀ + k * p := by
        rw [startOf]
        omega
      have hd := hshort ds[k] (List.getElem_mem _)
      rw [deadlineOf_succ (by omega), freeOf_succ (by omega), hstart, hdeadline,
        next_of_on_time (Nat.le_add_right _ _), Nat.succ_mul]
      omega
  rw [startOf]
  omega

end tasks
end Ticker

/-! ## Samples -/

/-- A sample that was begun: when, and how long it takes. -/
structure Sample where
  start : Nat
  duration : Nat
  deriving DecidableEq, Repr

/-- Samples on schedule, in their order: the first one begins at a moment, each one begins after the one before it has
ended, and at the latest when that one and the period are over. Any two are their periods apart up to the tolerance of
the ticker, so that none is made up for. If none takes longer than the period, there is no drift. -/
structure Sample.OnSchedule (t₀ period : Nat) (samples : List Sample) : Prop where
  first : ∀ _ : 0 < samples.length, samples[0].start = t₀
  alone : ∀ k (_ : k + 1 < samples.length), samples[k].start + samples[k].duration ≤ samples[k + 1].start
  next : ∀ k (_ : k + 1 < samples.length),
    samples[k + 1].start ≤ samples[k].start + max samples[k].duration period
  apart : ∀ i j (_ : i < j) (_ : j < samples.length),
    samples[i].start + (j - i) * period ≤ samples[j].start + 5
  steady : (∀ a ∈ samples, a.duration ≤ period) →
    ∀ k (_ : k < samples.length), samples[k].start = t₀ + k * period

namespace Sample
variable {t₀ period : Nat} {samples : List Sample} {k : Nat}

theorem start_eq (h : samples.map start = Ticker.starts period t₀ t₀ (samples.map duration))
    (hk : k < samples.length) : samples[k].start = Ticker.startOf period t₀ (samples.map duration) k := by
  have hk' : k < (samples.map start).length := by rwa [List.length_map]
  rw [← Ticker.getElem_starts (by rwa [← h]), ← List.getElem_of_eq h hk', List.getElem_map]

/-- Samples that begin at the times of the ticker are on schedule, however long they take. -/
theorem OnSchedule.of_starts
    (h : samples.map start = Ticker.starts period t₀ t₀ (samples.map duration)) :
    OnSchedule t₀ period samples := by
  have hlength : (samples.map duration).length = samples.length := List.length_map _
  have hduration (k : Nat) (hk : k < samples.length) :
      samples[k].duration = (samples.map duration)[k] := (List.getElem_map _).symm
  refine ⟨?_, ?_, ?_, ?_, ?_⟩
  · intro hk
    exact (start_eq h hk).trans Ticker.startOf_zero
  · intro k hk
    rw [start_eq h hk, start_eq h (Nat.lt_of_succ_lt hk), hduration]
    exact Ticker.startOf_add_le _
  · intro k hk
    rw [start_eq h hk, start_eq h (Nat.lt_of_succ_lt hk), hduration]
    exact Ticker.startOf_succ_le _
  · intro i j hij hj
    rw [start_eq h hj, start_eq h (Nat.lt_trans hij hj)]
    exact Ticker.le_startOf_add hij (by omega)
  · intro hshort k hk
    rw [start_eq h hk]
    exact Ticker.startOf_of_short (List.forall_mem_map.2 hshort) (by omega)

end Sample

namespace Sampler

/-- The sample that the next action begins, if it begins one. -/
def begun? (w : World) (p : Sampler) : Option Sample :=
  match p.phase with
  | .resting _ =>
    if w.latches.isClosed p.writer.gate then none else some ⟨w.now, (w.beginSample p.source).1⟩
  | _ => none

/-- Where the ticker of a sampler stands after some samples, the latest first. -/
def tickerAfter (t₀ : Nat) (samples : List Sample) (p : Sampler) : Nat × Nat :=
  Ticker.after p.period t₀ t₀ (samples.map Sample.duration).reverse

/-- What holds of a sampler that acts as soon as it can, after some samples, of which the latest comes first: they began
at the times of the ticker, and the clock does not pass the time of the next action. -/
structure Paced (t₀ : Nat) (samples : List Sample) (w : World) (p : Sampler) : Prop where
  starts : (samples.map Sample.start).reverse =
    Ticker.starts p.period t₀ t₀ (samples.map Sample.duration).reverse
  phase : match p.phase with
    | .fresh => samples = [] ∧ w.now = t₀
    | .resting due => (p.tickerAfter t₀ samples).1 = due ∧ (p.tickerAfter t₀ samples).2 ≤ w.now ∧
        w.now ≤ max (p.tickerAfter t₀ samples).2 due
    | .sampling ends due => p.tickerAfter t₀ samples = (due, ends) ∧ w.now ≤ ends

variable {t₀ : Nat} {samples : List Sample} {w v : World} {p q : Sampler}

theorem Paced.start (hp : p.phase = .fresh) : Paced w.now [] w p :=
  ⟨rfl, by rw [hp]; exact ⟨rfl, rfl⟩⟩

/-- Time may pass as long as the sampler cannot act. -/
theorem Paced.idle (h : Paced t₀ samples w p) (hle : w.now ≤ v.now)
    (hidle : ∀ now, w.now ≤ now → now < v.now → p.isReady { w with now } = false) :
    Paced t₀ samples v p := by
  -- If the moment at which the sampler can act had passed, it could have acted before.
  have hlate {t : Nat} (hready : ∀ now, t ≤ now → p.isReady { w with now } = true)
      (hw : w.now ≤ t) : v.now ≤ t := by
    apply Nat.le_of_not_lt
    intro hlt
    have hnot := hidle t hw hlt
    rw [hready t (Nat.le_refl t)] at hnot
    exact absurd hnot Bool.false_ne_true.symm
  refine ⟨h.starts, ?_⟩
  have hphase := h.phase
  cases hp : p.phase with
  | fresh =>
    rw [hp] at hphase
    have hv := hlate (t := w.now) (fun now _ => isReady_fresh hp) (Nat.le_refl _)
    exact ⟨hphase.1, by omega⟩
  | resting due =>
    rw [hp] at hphase
    obtain ⟨hdue, hfree, hnow⟩ := hphase
    have hv := hlate (t := max w.now due)
      (fun now hle => by simp [isReady_resting hp, Nat.le_trans (Nat.le_max_right _ _) hle])
      (Nat.le_max_left _ _)
    exact ⟨hdue, by omega, by omega⟩
  | sampling ends due =>
    rw [hp] at hphase
    have hv := hlate (t := ends) (fun now hle => by simp [isReady_sampling hp, hle]) hphase.2
    exact ⟨hphase.1, hv⟩

theorem tickerAfter_cons (x : Sample) (samples : List Sample) (p : Sampler) :
    p.tickerAfter t₀ (x :: samples) =
      Ticker.after p.period (p.tickerAfter t₀ samples).1 (p.tickerAfter t₀ samples).2 [x.duration] := by
  rw [tickerAfter, List.map_cons, List.reverse_cons, Ticker.after_append]
  rfl

theorem tickerAfter_congr (h : q.period = p.period) : q.tickerAfter t₀ samples = p.tickerAfter t₀ samples := by
  rw [tickerAfter, tickerAfter, h]

/-- An action as soon as the sampler can act keeps the pace. -/
theorem Paced.act (h : Paced t₀ samples w p) (hr : p.isReady w = true)
    (hg : w.latches.isClosed p.writer.gate = false) (hq : (p.step w).2 = some q) :
    Paced t₀ ((p.begun? w).toList ++ samples) (p.step w).1 q := by
  have hphase := phase_step hq
  have hperiod : q.period = p.period := by
    obtain ⟨failures, phase, rfl⟩ := step_snd hq
    rfl
  have hnow : (p.step w).1.now = w.now := (p.kept_step w).now
  have hbefore := h.phase
  cases hp : p.phase with
  | fresh =>
    rw [hp] at hbefore hphase
    obtain ⟨rfl, rfl⟩ := hbefore
    have hnone : p.begun? w = none := by simp [begun?, hp]
    rw [hnone]
    refine ⟨rfl, ?_⟩
    rw [hphase, hnow]
    exact ⟨rfl, Nat.le_refl _, Nat.le_max_left _ _⟩
  | resting due =>
    rw [hp] at hbefore hphase
    obtain ⟨hdue, hfree, hlate⟩ := hbefore
    have hready : due ≤ w.now := by simpa [isReady_resting hp, hg] using hr
    have hstart : w.now = max (p.tickerAfter t₀ samples).2 (p.tickerAfter t₀ samples).1 := by
      rw [hdue]
      omega
    let x : Sample := ⟨w.now, (w.beginSample p.source).1⟩
    have hsome : p.begun? w = some x := by simp [begun?, hp, hg, x]
    rw [hsome]
    refine ⟨?_, ?_⟩
    · have hstarts := h.starts
      rw [hperiod, Option.toList_some, List.singleton_append, List.map_cons, List.map_cons, List.reverse_cons,
        List.reverse_cons, Ticker.starts_append, ← hstarts]
      exact congrArg (fun start => (samples.map Sample.start).reverse ++ [start]) hstart
    · rw [hphase, hnow]
      refine ⟨?_, Nat.le_add_right _ _⟩
      rw [Option.toList_some, List.singleton_append, tickerAfter_cons, tickerAfter_congr hperiod, hperiod,
        Ticker.after, Ticker.after, ← hstart, hdue]
  | sampling ends due =>
    rw [hp] at hbefore hphase
    obtain ⟨hafter, hle⟩ := hbefore
    have hready : ends ≤ w.now := by simpa [isReady_sampling hp] using hr
    have hnone : p.begun? w = none := by simp [begun?, hp]
    rw [hnone]
    refine ⟨by rw [hperiod]; exact h.starts, ?_⟩
    have hsame : q.tickerAfter t₀ samples = (due, ends) := (tickerAfter_congr hperiod).trans hafter
    rw [hphase, hnow, Option.toList_none, List.nil_append, hsame]
    exact ⟨rfl, hready, by omega⟩

/-! ## Samples in their order -/

section order
variable {k : Nat}

/-- How long the samples take, in the order in which they began. -/
def durations (samples : List Sample) : List Nat := samples.reverse.map Sample.duration

theorem length_durations (samples : List Sample) : (durations samples).length = samples.reverse.length :=
  List.length_map _

theorem lt_length_durations (hk : k < samples.reverse.length) : k < (durations samples).length := by
  rwa [length_durations]

theorem getElem_durations (hk : k < samples.reverse.length) (hd : k < (durations samples).length) :
    (durations samples)[k] = samples.reverse[k].duration := List.getElem_map _

theorem tickerAfter_eq (samples : List Sample) (p : Sampler) : p.tickerAfter t₀ samples =
    (Ticker.deadlineOf p.period t₀ (durations samples) samples.reverse.length,
      Ticker.freeOf p.period t₀ (durations samples) samples.reverse.length) := by
  rw [Ticker.deadlineOf, Ticker.freeOf, ← length_durations, List.take_length, durations, List.map_reverse]
  rfl

namespace Paced

theorem starts_reverse (h : Paced t₀ samples w p) :
    samples.reverse.map Sample.start = Ticker.starts p.period t₀ t₀ (durations samples) := by
  rw [durations, List.map_reverse, List.map_reverse]
  exact h.starts

theorem start_eq (h : Paced t₀ samples w p) (hk : k < samples.reverse.length) :
    samples.reverse[k].start = Ticker.startOf p.period t₀ (durations samples) k :=
  Sample.start_eq h.starts_reverse hk

theorem onSchedule (h : Paced t₀ samples w p) : Sample.OnSchedule t₀ p.period samples.reverse :=
  .of_starts h.starts_reverse

/-- The clock does not pass the time of the next sample. -/
theorem now_le (h : Paced t₀ samples w p) (hk : k + 1 = samples.reverse.length) :
    w.now ≤ samples.reverse[k].start + max samples.reverse[k].duration p.period := by
  have hnext : w.now ≤ Ticker.startOf p.period t₀ (durations samples) (k + 1) := by
    have hphase := h.phase
    rw [hk, Ticker.startOf]
    cases hp : p.phase with
    | fresh =>
      rw [hp] at hphase
      rw [hphase.1] at hk
      exact absurd hk (Nat.succ_ne_zero k)
    | resting due =>
      rw [hp, tickerAfter_eq] at hphase
      obtain ⟨rfl, -, hnow⟩ := hphase
      exact hnow
    | sampling ends due =>
      rw [hp, tickerAfter_eq] at hphase
      rw [(Prod.mk.inj hphase.1).2]
      exact Nat.le_trans hphase.2 (Nat.le_max_left _ _)
  have hd : k < (durations samples).length := lt_length_durations (by omega)
  rw [h.start_eq (by omega), ← getElem_durations _ hd]
  exact Nat.le_trans hnext (Ticker.startOf_succ_le hd)

/-- A sample is under way until its duration is over. -/
theorem isSampling_spec (h : Paced t₀ samples w p) (hk : k + 1 = samples.reverse.length) :
    (p.isSampling = true → w.now ≤ samples.reverse[k].start + samples.reverse[k].duration) ∧
      (p.isSampling = false → samples.reverse[k].start + samples.reverse[k].duration ≤ w.now) := by
  have hfree : samples.reverse[k].start + samples.reverse[k].duration =
      Ticker.freeOf p.period t₀ (durations samples) (k + 1) := by
    have hd : k < (durations samples).length := lt_length_durations (by omega)
    rw [h.start_eq (by omega), ← getElem_durations _ hd]
    exact (Ticker.freeOf_succ hd).symm
  have hphase := h.phase
  rw [hfree, hk]
  cases hp : p.phase with
  | fresh =>
    rw [hp] at hphase
    rw [hphase.1] at hk
    exact absurd hk (Nat.succ_ne_zero k)
  | resting due =>
    rw [hp, tickerAfter_eq] at hphase
    exact ⟨fun hs => by simp [isSampling, hp] at hs, fun _ => hphase.2.1⟩
  | sampling ends due =>
    rw [hp, tickerAfter_eq] at hphase
    rw [(Prod.mk.inj hphase.1).2]
    exact ⟨fun _ => hphase.2, fun hs => by simp [isSampling, hp] at hs⟩

end Paced
end order

end Sampler
end Dashboard
