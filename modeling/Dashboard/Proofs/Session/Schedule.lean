import Dashboard.Proofs.Sampler.Pace
import Dashboard.Proofs.Session.Ending

/-! # The schedule of samples

Whatever else goes on in a run, a sampler that acts as soon as it can begins its samples at the times of its ticker.

* `System.Awaits`, `Session.State.Prompt`: time passes only while the producer of a number cannot act.
* `Session.State.samples`: the samples that a producer began in a run, in their order.
* `Session.State.paced_run`: the invariant of the sampler along a run.
* `Session.State.exists_prompt_run`: samples may take any time.
* `Session.State.sample_schedule`: when the samples begin, for every run.
-/

namespace Dashboard
set_option autoImplicit false

/-! ## Samplers at work -/

def Producer.begun? (w : World) : Producer → Option Sample
  | .sampler p => p.begun? w
  | _ => none

theorem Task.receiveAll_sampler (rs : List Reconciler) (i : Nat) (p : Sampler) :
    receiveAll rs ⟨i, .sampler p⟩ = ⟨i, .sampler p⟩ := by
  induction rs with
  | nil => rfl
  | cons r rs ih =>
    have hkeeps : receive r ⟨i, .sampler p⟩ = ⟨i, .sampler p⟩ := by
      unfold receive
      split <;> rfl
    rw [receiveAll_cons, hkeeps, ih]

namespace System
variable {s : System} {i j : Nat} {p q : Sampler}

theorem acting_of_mem (hs : s.Numbered) {t : Task} (ht : t ∈ s.tasks) :
    s.acting t.id = if t.producer.isReady s.world then some t else none := by
  have hsome : (s.tasks.find? (·.id == t.id)).isSome = true :=
    List.find?_isSome.2 ⟨t, ht, beq_self_eq_true _⟩
  obtain ⟨u, hu⟩ := Option.isSome_iff_exists.1 hsome
  have hid : u.id = t.id := beq_iff_eq.1 (List.find?_some hu :)
  rw [hs.eq_of_id (List.mem_of_find?_eq_some hu) ht hid] at hu
  rw [acting, hu, Option.filter_some]

/-- Nobody else changes a sampler. -/
theorem mem_act_sampler_of_ne (hm : ⟨i, .sampler p⟩ ∈ s.tasks) (hne : j ≠ i) :
    ⟨i, .sampler p⟩ ∈ (s.act j).tasks := by
  cases hacting : s.acting j with
  | none => rwa [act_of_none hacting]
  | some t =>
    have hid : i ≠ t.id := by
      rw [(mem_of_acting hacting).2.1]
      exact hne.symm
    rw [(acted hacting).tasks.mem_iff, List.mem_map]
    exact ⟨_, mem_afterStep.2 (.inr ⟨hm, hid⟩), Task.receiveAll_sampler _ _ _⟩

theorem mem_act_sampler (ht : s.acting i = some ⟨i, .sampler p⟩) (hq : (p.step s.world).2 = some q) :
    ⟨i, .sampler q⟩ ∈ (s.act i).tasks ∧
      ∃ journal, (s.act i).world = { (p.step s.world).1 with journal } := by
  obtain ⟨htasks, -, hw⟩ := acted ht
  have hnext : (Producer.step s.world (.sampler p)).2.1 = some (.sampler q) :=
    congrArg (Option.map Producer.sampler) hq
  refine ⟨htasks.mem_iff.2 (List.mem_map.2 ?_), hw⟩
  exact ⟨_, mem_afterStep.2 (.inl ⟨_, hnext, rfl⟩), Task.receiveAll_sampler _ _ _⟩

theorem now_startSampler (source period : Nat) (fallback : Fallback) (x : Writer) (s : System) :
    (s.startSampler source period fallback x).2.world.now = s.world.now := by
  unfold startSampler
  dsimp only
  split <;> rfl

/-- Time passes up to a moment before which the producer of a number cannot act. -/
structure Awaits (i t : Nat) (s : System) : Prop where
  le : s.world.now ≤ t
  idle : ∀ u ∈ s.tasks, u.id = i → ∀ now, s.world.now ≤ now → now < t →
    u.producer.isReady { s.world with now } = false

theorem awaits_now (s : System) (i : Nat) : s.Awaits i s.world.now :=
  ⟨Nat.le_refl _, fun _ _ _ _ hle hlt => absurd hlt (Nat.not_lt.2 hle)⟩

end System

/-! ## Runs -/

namespace Session.State
variable {σ : State} {i : Nat} {p₀ : Sampler}

/-- In a run the producer of a number acts as soon as it can: time passes only while it cannot. -/
def Prompt (i : Nat) (σ : State) : List Event → Prop
  | [] => True
  | e :: past => Prompt i σ past ∧ (σ.run past).system.Awaits i ((σ.run past).after e).system.world.now

/-- The samples that a producer began in a run, in their order. -/
def samples (i : Nat) (σ : State) (es : List Event) : List Sample := (history Producer.begun? i σ es).reverse

theorem numbered_after (h : σ.system.Numbered) (e : Event) : (σ.after e).system.Numbered := by
  cases σ.happens_after e with
  | act i hs ha => exact hs ▸ h.act i
  | aside hs hl ha => exact h.of_perm hs.tasks hs.nextId
  | begins a hn ha hs =>
    obtain ⟨ts, -, hb⟩ := hs.producers
    exact h.begun hb
  | ends a he ha hn ns hns hs => exact h.of_perm hs.tasks hs.nextId

/-- Events that are no actions leave all producers there. -/
theorem mem_after_of_mem {t : Task} (ht : t ∈ σ.system.tasks) {e : Event} (he : ∀ j, e ≠ .act j) :
    t ∈ (σ.after e).system.tasks := by
  cases σ.happens_after e with
  | act j hs ha => exact absurd rfl (he j)
  | aside hs hl ha => exact hs.tasks.mem_iff.2 ht
  | begins a hn ha hs =>
    obtain ⟨ts, -, hb⟩ := hs.producers
    exact (hb.mem_iff t).2 (.inl ht)
  | ends a he ha hn ns hns hs => exact hs.tasks.mem_iff.2 ht

/-- Whatever is no action of its own leaves a sampler as it is. -/
theorem mem_after_sampler {p : Sampler} (hm : ⟨i, .sampler p⟩ ∈ σ.system.tasks) {e : Event}
    (hne : e ≠ .act i) :
    ⟨i, .sampler p⟩ ∈ (σ.after e).system.tasks ∧ seen Producer.begun? i σ e = none := by
  by_cases hact : ∃ j, e = .act j
  · obtain ⟨j, rfl⟩ := hact
    have hj : j ≠ i := fun hj => hne (congrArg Event.act hj)
    exact ⟨System.mem_act_sampler_of_ne hm hj, seen_of_ne _ σ hne⟩
  · have he : ∀ j, e ≠ .act j := fun j hj => hact ⟨j, hj⟩
    exact ⟨mem_after_of_mem hm he, seen_of_ne _ σ hne⟩

/-- The sampler of a number is there, writes through its gate at its period, and keeps its pace. -/
structure Keeps (i : Nat) (p₀ : Sampler) (t₀ : Nat) (samples : List Sample) (s : System) (p : Sampler) :
    Prop where
  numbered : s.Numbered
  mem : ⟨i, .sampler p⟩ ∈ s.tasks
  period : p.period = p₀.period
  writer : p.writer = p₀.writer
  paced : p.Paced t₀ samples s.world

namespace Keeps
variable {t₀ : Nat} {samples : List Sample} {p : Sampler}

/-- What others do lets time pass at most, and that only while the sampler cannot act. -/
theorem aside (h : Keeps i p₀ t₀ samples σ.system p) {e : Event} (hne : e ≠ .act i)
    (hawaits : σ.system.Awaits i (σ.after e).system.world.now) :
    Keeps i p₀ t₀ ((seen Producer.begun? i σ e).toList ++ samples) (σ.after e).system p := by
  obtain ⟨hmem, hseen⟩ := mem_after_sampler h.mem hne
  rw [hseen]
  exact ⟨numbered_after h.numbered e, hmem, h.period, h.writer,
    h.paced.idle hawaits.le (hawaits.idle _ h.mem rfl)⟩

theorem act (h : Keeps i p₀ t₀ samples σ.system p)
    (hg : σ.system.world.latches.isClosed p₀.writer.gate = false) :
    ∃ q, Keeps i p₀ t₀ ((seen Producer.begun? i σ (.act i)).toList ++ samples) (σ.after (.act i)).system q := by
  have hacting : σ.system.acting i =
      if p.isReady σ.system.world then some ⟨i, .sampler p⟩ else none := System.acting_of_mem h.numbered h.mem
  cases hready : p.isReady σ.system.world with
  | false =>
    rw [hready, if_neg Bool.false_ne_true] at hacting
    have hsame : (σ.after (.act i)).system = σ.system := System.act_of_none hacting
    rw [hsame, seen, if_pos rfl, hacting]
    exact ⟨p, h⟩
  | true =>
    rw [hready, if_pos rfl] at hacting
    have hopen : σ.system.world.latches.isClosed p.writer.gate = false := by rw [h.writer, hg]
    obtain ⟨q, hq⟩ := Sampler.exists_next hopen
    obtain ⟨hmem, journal, hw⟩ := System.mem_act_sampler hacting hq
    have hseen : seen Producer.begun? i σ (.act i) = p.begun? σ.system.world := by
      simp [seen, hacting, Producer.begun?]
    have hpaced := h.paced.act hready hopen hq
    rw [hseen]
    obtain ⟨failures, phase, rfl⟩ := Sampler.step_snd hq
    refine ⟨_, numbered_after h.numbered _, hmem, h.period, h.writer, ?_⟩
    have hw : (σ.after (.act i)).system.world = { (p.step σ.system.world).1 with journal } := hw
    rw [hw]
    exact ⟨hpaced.starts, hpaced.phase⟩

end Keeps

theorem isClosed_of_run {g : Gate} {es : List Event} {e : Event}
    (h : (σ.run (e :: es)).system.world.latches.isClosed g = false) :
    (σ.run es).system.world.latches.isClosed g = false := by
  rw [← Bool.not_eq_true] at h ⊢
  exact fun hc => h (isClosed_after hc e)

theorem paced_run (hs : σ.system.Numbered) (hm : ⟨i, .sampler p₀⟩ ∈ σ.system.tasks)
    (hp : p₀.phase = .fresh) {es : List Event} (hprompt : Prompt i σ es)
    (hopen : (σ.run es).system.world.latches.isClosed p₀.writer.gate = false) :
    ∃ p, Keeps i p₀ σ.system.world.now (history Producer.begun? i σ es) (σ.run es).system p := by
  induction es with
  | nil => exact ⟨p₀, hs, hm, rfl, rfl, .start hp⟩
  | cons e es ih =>
    obtain ⟨p, h⟩ := ih hprompt.1 (isClosed_of_run hopen)
    by_cases he : e = .act i
    · subst he
      exact h.act (isClosed_of_run hopen)
    · exact ⟨p, h.aside he hprompt.2⟩

/-! ## Which runs there are -/

/-- A run in which the sampler of a number acts as soon as it can, and which leaves it behind an open gate. -/
structure Promptly (i : Nat) (σ : State) (es : List Event) (p : Sampler) : Prop where
  prompt : Prompt i σ es
  numbered : (σ.run es).system.Numbered
  mem : ⟨i, .sampler p⟩ ∈ (σ.run es).system.tasks
  isOpen : (σ.run es).system.world.latches.isClosed p.writer.gate = false

namespace Promptly
variable {es : List Event} {p : Sampler}

theorem clock (h : Promptly i σ es p) {t : Nat} (hle : (σ.run es).system.world.now ≤ t)
    (hidle : ∀ now, (σ.run es).system.world.now ≤ now → now < t →
      p.isReady { (σ.run es).system.world with now } = false) :
    Promptly i σ (.clock t :: es) p := by
  refine ⟨⟨h.prompt, hle, ?_⟩, numbered_after h.numbered _, mem_after_of_mem h.mem nofun, h.isOpen⟩
  intro u hu hid
  rw [h.numbered.eq_of_id hu h.mem hid]
  exact hidle

theorem sources (h : Promptly i σ es p) (sources : List Source) : Promptly i σ (.sources sources :: es) p :=
  ⟨⟨h.prompt, (σ.run es).system.awaits_now i⟩, numbered_after h.numbered _, mem_after_of_mem h.mem nofun,
    h.isOpen⟩

theorem act (h : Promptly i σ es p) (hr : p.isReady (σ.run es).system.world = true) :
    ∃ q, (p.step (σ.run es).system.world).2 = some q ∧ Promptly i σ (.act i :: es) q ∧
      q.writer = p.writer ∧
      history Producer.begun? i σ (.act i :: es) =
        (p.begun? (σ.run es).system.world).toList ++ history Producer.begun? i σ es := by
  have hacting : (σ.run es).system.acting i = some ⟨i, .sampler p⟩ :=
    (System.acting_of_mem h.numbered h.mem).trans (if_pos hr)
  obtain ⟨q, hq⟩ := Sampler.exists_next h.isOpen
  have hkept := System.kept_act (σ.run es).system i
  have hawaits : (σ.run es).system.Awaits i ((σ.run es).after (.act i)).system.world.now := by
    have hnow : ((σ.run es).after (.act i)).system.world.now = (σ.run es).system.world.now := hkept.now
    rw [hnow]
    exact System.awaits_now _ i
  have hmem := (System.mem_act_sampler hacting hq).1
  have hwriter : q.writer = p.writer := by
    obtain ⟨failures, phase, rfl⟩ := Sampler.step_snd hq
    rfl
  refine ⟨q, hq, ⟨⟨h.prompt, hawaits⟩, numbered_after h.numbered _, hmem, ?_⟩, hwriter, ?_⟩
  · have hlatches : (σ.run (.act i :: es)).system.world.latches = (σ.run es).system.world.latches :=
      hkept.latches
    rw [hlatches, hwriter]
    exact h.isOpen
  · simp [history, seen, hacting, Producer.begun?]

/-- A sampler that rests can begin a sample of any duration. -/
theorem exists_begin (h : Promptly i σ es p) (hp : ∃ due, p.phase = .resting due) (latency : Nat) :
    ∃ es' q, Promptly i σ es' q ∧ q.isSampling = true ∧ q.writer = p.writer ∧ ∃ start,
      history Producer.begun? i σ es' = ⟨start, Ticker.pause latency⟩ :: history Producer.begun? i σ es := by
  obtain ⟨due, hp⟩ := hp
  let t := max (σ.run es).system.world.now due
  let slow : List Source :=
    List.replicate (p.source + 1) (.scripted { name := "", steady := .ok .up, latency })
  -- Time passes to the deadline, and the source is to take its time for the next sample.
  have hslow : Promptly i σ (.sources slow :: .clock t :: es) p := by
    refine (h.clock (Nat.le_max_left _ _) fun now hle hlt => ?_).sources slow
    have hbefore : ¬due ≤ now := by omega
    simp [Sampler.isReady_resting hp, h.isOpen, hbefore]
  let w := (σ.run (.sources slow :: .clock t :: es)).system.world
  have hdue : due ≤ w.now := Nat.le_max_right _ _
  obtain ⟨q, hq, hbegun, hwriter, hsamples⟩ :=
    hslow.act (by rw [Sampler.isReady_resting hp, decide_eq_true hdue, Bool.or_true])
  have hsource : w.sources[p.source]? = some (.scripted { name := "", steady := .ok .up, latency }) := by
    have hslow : w.sources = slow := rfl
    simp [hslow, slow]
  have htakes : (w.beginSample p.source).1 = Ticker.pause latency := by
    simp [World.beginSample, hsource, Source.latency]
  have hsample : p.begun? w = some ⟨t, Ticker.pause latency⟩ := by
    have hopen : w.latches.isClosed p.writer.gate = false := hslow.isOpen
    have hnow : w.now = t := rfl
    simp [Sampler.begun?, hp, hopen, htakes, hnow]
  refine ⟨_, q, hbegun, by simp [Sampler.isSampling, Sampler.phase_step hq, hp], hwriter, t, ?_⟩
  exact hsamples.trans (by rw [hsample]; rfl)

/-- When nothing else happens until the end of a sample, the sampler rests again. -/
theorem exists_finish (h : Promptly i σ es p) (hs : p.isSampling = true) :
    ∃ es' q, Promptly i σ es' q ∧ (∃ due, q.phase = .resting due) ∧ q.writer = p.writer ∧
      history Producer.begun? i σ es' = history Producer.begun? i σ es := by
  cases hp : p.phase with
  | fresh => simp [Sampler.isSampling, hp] at hs
  | resting due => simp [Sampler.isSampling, hp] at hs
  | sampling ends due =>
    let t := max (σ.run es).system.world.now ends
    have hended : Promptly i σ (.clock t :: es) p := by
      refine h.clock (Nat.le_max_left _ _) fun now hle hlt => ?_
      have hbefore : ¬ends ≤ now := by omega
      rw [Sampler.isReady_sampling hp, decide_eq_false hbefore]
    have hends : ends ≤ (σ.run (.clock t :: es)).system.world.now := Nat.le_max_right _ _
    obtain ⟨q, hq, hrests, hwriter, hsamples⟩ :=
      hended.act (by rw [Sampler.isReady_sampling hp, decide_eq_true hends])
    have hnone (w : World) : p.begun? w = none := by simp [Sampler.begun?, hp]
    rw [hnone] at hsamples
    exact ⟨_, q, hrests, ⟨due, by rw [Sampler.phase_step hq, hp]⟩, hwriter, hsamples⟩

end Promptly

/-- Samples may take any time that a pause can take. -/
theorem exists_prompt_run (hs : σ.system.Numbered) (hm : ⟨i, .sampler p₀⟩ ∈ σ.system.tasks)
    (hp : p₀.phase = .fresh) (hopen : σ.system.world.latches.isClosed p₀.writer.gate = false)
    (latencies : List Nat) :
    ∃ es p, Promptly i σ es p ∧ (∃ due, p.phase = .resting due) ∧ p.writer = p₀.writer ∧
      (history Producer.begun? i σ es).map Sample.duration = latencies.map Ticker.pause := by
  induction latencies with
  | nil =>
    have hstart : Promptly i σ [] p₀ := ⟨trivial, hs, hm, hopen⟩
    obtain ⟨q, hq, hacted, hwriter, hsamples⟩ := hstart.act (Sampler.isReady_fresh hp)
    have hnone (w : World) : p₀.begun? w = none := by simp [Sampler.begun?, hp]
    have hphase := Sampler.phase_step hq
    rw [hp] at hphase
    refine ⟨_, q, hacted, ⟨_, hphase⟩, hwriter, ?_⟩
    rw [hsamples, hnone]
    rfl
  | cons latency latencies ih =>
    obtain ⟨es, p, h, hrests, hwriter, hsamples⟩ := ih
    obtain ⟨es₁, q, hbegun, hs, hwriter₁, start, hsample⟩ := h.exists_begin hrests latency
    obtain ⟨es₂, r, hended, hrests, hwriter₂, hsame⟩ := hbegun.exists_finish hs
    refine ⟨es₂, r, hended, hrests, hwriter₂.trans (hwriter₁.trans hwriter), ?_⟩
    rw [hsame, hsample, List.map_cons, hsamples, List.map_cons]

/-! ## The schedule -/

theorem isSampling_of_keeps {t₀ : Nat} {samples : List Sample} {s : System} {p : Sampler}
    (h : Keeps i p₀ t₀ samples s p) : s.isSampling i = p.isSampling := by
  rw [Bool.eq_iff_iff, System.isSampling_iff]
  constructor
  · rintro ⟨u, hu, hid, hs⟩
    rw [h.numbered.eq_of_id hu h.mem hid] at hs
    exact hs
  · exact fun hs => ⟨_, h.mem, rfl, hs⟩

/-- **The schedule of samples.** A sampler that was started with any period, and that acts as soon as it can behind an open
gate, may meet with a source that answers as slowly as it likes, sample by sample. In every such run its samples are on
schedule, with the period raised to one if it was nothing: the first begins at once, they do not overlap, none is missed
or made up for, and they do not drift as long as none takes longer than the period. The clock does not pass the time by
which the next sample is to begin, and a sample is under way until its duration is over. -/
theorem sample_schedule (d : Option Session) (s : System) (hs : s.Numbered) (source asked : Nat)
    (fallback : Fallback) (x : Writer) :
    let h := (s.startSampler source asked fallback x).1
    let σ : State := ⟨d, (s.startSampler source asked fallback x).2⟩
    let period := max asked 1
    (σ.system.world.latches.isOpen h.writer.gate = true →
      ∀ latencies : List Nat,
        ∃ es, σ.Prompt h.task es ∧ (σ.run es).system.world.latches.isOpen h.writer.gate = true ∧
          (σ.samples h.task es).map Sample.duration = latencies.map Ticker.pause) ∧
    ∀ es, σ.Prompt h.task es → (σ.run es).system.world.latches.isOpen h.writer.gate = true →
      let samples := σ.samples h.task es
      let now := (σ.run es).system.world.now
      Sample.OnSchedule s.world.now period samples ∧
      ∀ k (_ : k + 1 = samples.length), now ≤ samples[k].start + max samples[k].duration period ∧
        ((σ.run es).system.isSampling h.task = true → now ≤ samples[k].start + samples[k].duration) ∧
        ((σ.run es).system.isSampling h.task = false → samples[k].start + samples[k].duration ≤ now) := by
  intro h σ period
  obtain ⟨name, hstarted, hb, -⟩ := s.startSampler_spec source asked fallback x
  let p₀ : Sampler :=
    { name, source, period := Ticker.period asked, fallback, writer := ⟨x.slot, s.gateBehind x.gate⟩ }
  have htask : h.task = s.nextId := congrArg SamplerHandle.task hstarted
  have hwriter : h.writer = p₀.writer := congrArg SamplerHandle.writer hstarted
  have hnum : σ.system.Numbered := hs.begun hb
  have hmem : ⟨h.task, .sampler p₀⟩ ∈ σ.system.tasks := by
    rw [htask]
    exact (hb.mem_iff _).2 (.inr List.mem_cons_self)
  have hbegin : σ.system.world.now = s.world.now := System.now_startSampler source asked fallback x s
  rw [hwriter]
  constructor
  · intro hopen latencies
    obtain ⟨es, p, hprompt, -, hsame, hdurations⟩ := exists_prompt_run hnum hmem rfl
      ((Latches.isOpen_iff _ _).1 hopen) latencies.reverse
    refine ⟨es, hprompt.prompt, ?_, ?_⟩
    · rw [Latches.isOpen_iff, ← hsame]
      exact hprompt.isOpen
    · rw [samples, List.map_reverse, hdurations, List.map_reverse, List.reverse_reverse]
  · intro es hprompt hopen samples now
    obtain ⟨p, hp⟩ := paced_run hnum hmem rfl hprompt ((Latches.isOpen_iff _ _).1 hopen)
    have hperiod : p.period = period := hp.period
    have hpaced := hp.paced
    rw [hbegin] at hpaced
    have hschedule := hpaced.onSchedule
    rw [hperiod] at hschedule
    refine ⟨hschedule, fun k hk => ⟨?_, ?_⟩⟩
    · rw [← hperiod]
      exact hpaced.now_le hk
    · rw [isSampling_of_keeps hp]
      exact hpaced.isSampling_spec hk

/-- Three samples with a period of 100: the first one takes 250 and makes the second one late, which the third one does not
make up for. -/
theorem sample_schedule_late :
    let s : System := {}
    let x : Writer := ⟨.server, ⟨0, [], 0⟩⟩
    let h := (s.startSampler 0 100 .keepLast x).1
    let σ : State := ⟨none, (s.startSampler 0 100 .keepLast x).2⟩
    s.Numbered ∧ ∃ es, σ.Prompt h.task es ∧ (σ.run es).system.world.latches.isOpen h.writer.gate = true ∧
      (σ.samples h.task es).map Sample.duration = [250, 10, 10] ∧
      Sample.OnSchedule 0 100 (σ.samples h.task es) := by
  intro s x h σ
  have hnum : s.Numbered := ⟨fun t ht => absurd ht List.not_mem_nil, .nil⟩
  obtain ⟨hexists, hschedule⟩ := sample_schedule none s hnum 0 100 .keepLast x
  obtain ⟨es, hprompt, hopen, hdurations⟩ := hexists (by decide) [250, 10, 10]
  exact ⟨hnum, es, hprompt, hopen, hdurations, (hschedule es hprompt hopen).1⟩

end Session.State
end Dashboard
