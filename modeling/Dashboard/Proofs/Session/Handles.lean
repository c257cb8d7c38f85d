import Dashboard.Proofs.Session.Breaking

/-! # Live handles

The number of live handles is six or nothing, and nothing that the producers meet with lowers it, as long as their counts
of failures fit or wrap. Where sums are checked, a sampler whose count does not fit is not live any more.

* `Session.State.Whole.isLive_sampler_iff`, `Session.State.Whole.isLive_relay`: which handles are live.
* `Session.State.Whole.liveHandles_eq`: how many there are.
* `Session.State.Whole.isOpen_of_gone`: samplers that broke off are behind closed gates, if those of the stored activation
  did not.
* `Session.State.handle_count`: calls, states and counts, for every run with either kind of sums.
-/

namespace Dashboard
set_option autoImplicit false

theorem System.isAlive_iff {s : System} {i : Nat} : s.isAlive i = true ↔ ∃ t ∈ s.tasks, t.id = i := by
  simp [isAlive]

namespace Activation.WellFormed
variable {a : Activation}

theorem length_samplers (ha : a.WellFormed) : a.samplers.length = 3 := by
  have h := congrArg List.length ha.slots
  rwa [List.length_map] at h

theorem length_relays (ha : a.WellFormed) : a.relays.length = 3 := by
  have h := congrArg List.length ha.keys
  rwa [List.length_map] at h

end Activation.WellFormed

/-- The counts of failures of the samplers of an activation always fitted, if they are checked. -/
def Activation.Fits (arithmetic : Sampler.Arithmetic) (completed : Nat → List Sampler.Completion)
    (a : Activation) : Prop :=
  ∀ x ∈ a.samplers, arithmetic = .checked → Sampler.Fits (completed x.task)

namespace Session.State
variable {arithmetic : Sampler.Arithmetic} {σ : State} {gs : List Task} {a : Activation} {d : Session}
  {c : Nat → List Sampler.Completion}

theorem activation?_of_session (hd : σ.session = some d) : σ.activation? = d.activation := by
  rw [activation?, hd]
  rfl

/-! ## Handles -/

namespace Whole

/-- The sampler of a handle is there unless it broke off. -/
theorem isLive_sampler_iff (h : Whole arithmetic c σ gs) (ha : σ.activation? = some a) {x : SamplerHandle}
    (hx : x ∈ a.samplers) :
    σ.system.isLive x.writer x.task = true ↔ (arithmetic = .checked → Sampler.Fits (c x.task)) := by
  have ho : σ.system.world.latches.isOpen x.writer.gate = true :=
    h.sound.isOpen_of_post ha (Activation.mem_posts_sampler hx)
  obtain ⟨t, ht, hid, source, period, fallback, hrole⟩ := (h.sound.running a ha).samplers x hx
  rw [System.isLive, Bool.and_eq_true, and_iff_right ho, System.isAlive_iff]
  constructor
  · rintro ⟨u, hu, hidu⟩
    obtain rfl := h.sound.numbered.eq_of_id (mem_restore.2 (.inl hu)) ht (hidu.trans hid.symm)
    obtain ⟨i, producer⟩ := u
    cases producer with
    | sampler p => exact hid ▸ (h.counts i p hu).2
    | relay p => exact absurd hrole nofun
    | inquiry p => exact absurd hrole nofun
  · intro hfits
    rcases mem_restore.1 ht with ht | ht
    · exact ⟨t, ht, hid⟩
    · obtain ⟨-, hchecked, hfull⟩ := h.gone t ht
      exact absurd (hfits hchecked) (hid ▸ hfull)

theorem isLive_relay (h : Whole arithmetic c σ gs) (ha : σ.activation? = some a) {x : RelayHandle}
    (hx : x ∈ a.relays) : σ.system.isLive x.writer x.task = true := by
  have ho : σ.system.world.latches.isOpen x.writer.gate = true :=
    h.sound.isOpen_of_post ha (Activation.mem_posts_relay hx)
  obtain ⟨t, ht, hid, hrole⟩ := (h.sound.running a ha).relays x hx
  rw [System.isLive, Bool.and_eq_true, and_iff_right ho, System.isAlive_iff]
  rcases mem_restore.1 ht with ht | ht
  · exact ⟨t, ht, hid⟩
  · obtain ⟨⟨p, hp⟩, -⟩ := h.gone t ht
    rw [hp] at hrole
    exact absurd hrole nofun

theorem liveHandles_eq (h : Whole arithmetic c σ gs) (hd : σ.session = some d) (ha : d.activation = some a) :
    d.liveHandles σ.system =
      (a.samplers.filter fun x => σ.system.isLive x.writer x.task).length + 3 := by
  have hs : σ.activation? = some a := (activation?_of_session hd).trans ha
  have hrelays : a.relays.filter (fun x => σ.system.isLive x.writer x.task) = a.relays :=
    List.filter_eq_self.2 fun x hx => h.isLive_relay hs hx
  rw [liveHandles, ha]
  dsimp only
  rw [hrelays, (h.sound.wellFormed a hs).length_relays]

theorem isActive_iff (h : Whole arithmetic c σ gs) (hd : σ.session = some d)
    (hfits : ∀ a, d.activation = some a → a.Fits arithmetic c) :
    d.isActive = true ↔ d.liveHandles σ.system = 6 := by
  cases ha : d.activation with
  | none => simp [isActive, liveHandles, ha]
  | some a =>
    have hs : σ.activation? = some a := (activation?_of_session hd).trans ha
    have hall : a.samplers.filter (fun x => σ.system.isLive x.writer x.task) = a.samplers :=
      List.filter_eq_self.2 fun x hx => (h.isLive_sampler_iff hs hx).2 (hfits a ha x hx)
    rw [h.liveHandles_eq hd ha, hall, (h.sound.wellFormed a hs).length_samplers]
    simp [isActive, ha]

theorem isInactive_iff (h : Whole arithmetic c σ gs) (hd : σ.session = some d) :
    d.isActive = false ↔ d.liveHandles σ.system = 0 := by
  cases ha : d.activation with
  | none => simp [isActive, liveHandles, ha]
  | some a =>
    rw [h.liveHandles_eq hd ha]
    simp [isActive, ha]

/-- A handle that is live no more belongs to a sampler whose count fitted before. -/
theorem liveHandles_le {τ : State} {gs' : List Task} {c' : Nat → List Sampler.Completion} {d' : Session}
    (h : Whole arithmetic c σ gs) (h' : Whole arithmetic c' τ gs') (hd : σ.session = some d)
    (hd' : τ.session = some d') (hkeep : d.activation ≠ none → d'.activation = d.activation)
    (hfits : arithmetic = .checked → ∀ i, Sampler.Fits (c i) → Sampler.Fits (c' i)) :
    d.liveHandles σ.system ≤ d'.liveHandles τ.system := by
  cases ha : d.activation with
  | none => simp [liveHandles, ha]
  | some a =>
    have ha' : d'.activation = some a := (hkeep (by simp [ha])).trans ha
    rw [h.liveHandles_eq hd ha, h'.liveHandles_eq hd' ha', ← List.countP_eq_length_filter,
      ← List.countP_eq_length_filter]
    refine Nat.add_le_add_right (List.countP_mono_left fun x hx hlive => ?_) 3
    rw [h.isLive_sampler_iff ((activation?_of_session hd).trans ha) hx] at hlive
    rw [h'.isLive_sampler_iff ((activation?_of_session hd').trans ha') hx]
    exact fun hchecked => hfits hchecked _ (hlive hchecked)

/-- Samplers that broke off are behind closed gates, unless they are of the stored activation. -/
theorem isOpen_of_gone (h : Whole arithmetic c σ gs)
    (hfits : ∀ a, σ.activation? = some a → a.Fits arithmetic c)
    {t : Task} (ht : t ∈ gs) : σ.system.world.latches.isOpen t.producer.role.gate = false := by
  obtain ⟨⟨p, hp⟩, hchecked, hfull⟩ := h.gone t ht
  have hmem : t ∈ (σ.restore gs).system.tasks := mem_restore.2 (.inr ht)
  rw [← Bool.not_eq_true]
  intro ho
  obtain ⟨a, ha, -⟩ := h.sound.held_of_open hmem ho
  rcases h.sound.cases_of_open ha hmem ho with ⟨x, hx, hid, -⟩ | ⟨x, -, -, hrole⟩ | ⟨-, hrole⟩
  · exact hfull (hid ▸ hfits a ha x hx hchecked)
  · rw [hp] at hrole
    exact absurd hrole nofun
  · rw [hp] at hrole
    exact absurd hrole nofun

theorem atWork_restore (h : Whole arithmetic c σ gs)
    (hfits : ∀ a, σ.activation? = some a → a.Fits arithmetic c) (sort : Producer.Role → Bool) :
    (σ.restore gs).system.atWork sort = σ.system.atWork sort := by
  have hnone : gs.countP (fun t => sort t.producer.role &&
      σ.system.world.latches.isOpen t.producer.role.gate) = 0 := by
    rw [List.countP_eq_zero]
    intro t ht
    simp [h.isOpen_of_gone hfits ht]
  rw [System.atWork, restore, System.tasks_restore, List.countP_append]
  exact (congrArg (_ + ·) hnone).trans (Nat.add_zero _)

end Whole

/-! ## All runs -/

/-- Only the end of an activation takes it out of the session, whatever the producers meet with. -/
theorem exists_session_after (σ : State) (hd : σ.session = some d) {e : Event}
    (h1 : e ≠ .deactivate) (h2 : e ≠ .drop) :
    ∃ d', (σ.after e).session = some d' ∧ (d.activation ≠ none → d'.activation = d.activation) := by
  obtain ⟨session, s⟩ := σ
  obtain rfl : session = some d := hd
  cases e with
  | activate =>
    refine ⟨_, rfl, ?_⟩
    intro hne
    obtain ⟨a, ha⟩ := Option.ne_none_iff_exists'.1 hne
    rw [activate_of_some s ha]
  | deactivate => exact absurd rfl h1
  | drop => exact absurd rfl h2
  | act i => exact ⟨d, rfl, fun _ => rfl⟩
  | clock t => exact ⟨d, rfl, fun _ => rfl⟩
  | setting key value => exact ⟨d, rfl, fun _ => rfl⟩
  | sources sources => exact ⟨d, rfl, fun _ => rfl⟩
  | responder responder => exact ⟨d, rfl, fun _ => rfl⟩
  | releaseStore => exact ⟨d, rfl, fun _ => rfl⟩

/-- The samples of a producer become more by its own actions only. -/
theorem eq_act_of_completed_ne {σ₀ : State} {past : List Event} {e : Event} {i : Nat}
    (h : σ₀.completed arithmetic (e :: past) i ≠ σ₀.completed arithmetic past i) : e = .act i := by
  by_contra he
  exact h (by rw [completed, seen_of_ne _ _ he]; rfl)

/-- **Calls and handles.** In every run of a dashboard, `activate` tells whether no activation was stored, and
`deactivate` whether one was. A call with nothing to do leaves the session and all producers as they are. As long as the
counts of failures fit, or wrap, the session is active exactly if six handles are live, with one open producer for each
sampled slot and each setting and no other open sampler. It is inactive exactly if no handle is live, and then the gates
of all producers are shut. While an activation is stored, all its relays are live, and just those of its samplers whose
counts fitted, if they are checked. No event but the end of an activation lowers the number of live handles, except for
the first sample of a sampler whose count is checked and does not fit. -/
theorem handle_count (arithmetic : Sampler.Arithmetic) (σ₀ : State) (hnew : σ₀.IsNew) (past : List Event)
    (d : Session) (hd : (σ₀.runWith arithmetic past).session = some d) :
    let σ := σ₀.runWith arithmetic past
    let s := σ.system
    ((d.activate s).1 = true ↔ d.activation = none) ∧
    ((d.deactivate s).1 = true ↔ d.activation ≠ none) ∧
    ((d.activate s).1 = false → ∃ n, (d.activate s).2 = (d, s.note n)) ∧
    ((d.deactivate s).1 = false → ∃ n, (d.deactivate s).2 = (d, s.note n)) ∧
    ((∀ a, d.activation = some a → a.Fits arithmetic (σ₀.completed arithmetic past)) →
      (d.isActive = true ↔ d.liveHandles s = 6) ∧
      (d.isActive = true →
        (∀ slot, s.atWork (Producer.Role.samples slot) = if slot ∈ Slot.sampled then 1 else 0) ∧
        ∀ key, s.atWork (Producer.Role.follows key) = 1)) ∧
    (d.isActive = false ↔ d.liveHandles s = 0) ∧
    (d.isActive = false → ∀ t ∈ s.tasks, s.world.latches.isOpen t.producer.role.gate = false) ∧
    (∀ a, d.activation = some a →
      (∀ x ∈ a.samplers, s.isLive x.writer x.task = true ↔
        (arithmetic = .checked → Sampler.Fits (σ₀.completed arithmetic past x.task))) ∧
      ∀ x ∈ a.relays, s.isLive x.writer x.task = true) ∧
    ∀ e, e ≠ .deactivate → e ≠ .drop → ∃ d', (σ.afterWith arithmetic e).session = some d' ∧
      (d.liveHandles s ≤ d'.liveHandles (σ.afterWith arithmetic e).system ∨
        arithmetic = .checked ∧ ∃ i, e = .act i ∧ Sampler.Fits (σ₀.completed arithmetic past i) ∧
          ¬ Sampler.Fits (σ₀.completed arithmetic (e :: past) i)) := by
  intro σ s
  obtain ⟨gs, h⟩ := exists_whole hnew arithmetic past
  have hstored : σ.activation? = d.activation := activation?_of_session hd
  refine ⟨d.activate_fst s, d.deactivate_fst s, ?_, ?_, ?_, h.isInactive_iff hd, ?_, ?_, ?_⟩
  · intro hf
    rw [← Bool.not_eq_true, activate_fst] at hf
    obtain ⟨a, ha⟩ := Option.ne_none_iff_exists'.1 hf
    rw [activate_of_some s ha]
    exact ⟨_, rfl⟩
  · intro hf
    rw [← Bool.not_eq_true, deactivate_fst, not_not] at hf
    rw [deactivate_of_none s hf]
    exact ⟨_, rfl⟩
  · intro hfits
    refine ⟨h.isActive_iff hd hfits, fun ha => ?_⟩
    obtain ⟨a, ha⟩ := Option.isSome_iff_exists.1 ha
    rw [← hstored] at hfits ha
    refine ⟨fun slot => ?_, fun key => ?_⟩
    · exact (h.atWork_restore hfits _).symm.trans (h.sound.atWork_samples ha slot)
    · exact (h.atWork_restore hfits _).symm.trans (h.sound.atWork_follows ha key)
  · intro ha t ht
    have hn : d.activation = none := by simpa [isActive] using ha
    exact h.sound.isOpen_of_none (hstored.trans hn) (mem_restore.2 (.inl ht))
  · intro a ha
    rw [← hstored] at ha
    exact ⟨fun x hx => h.isLive_sampler_iff ha hx, fun x hx => h.isLive_relay ha hx⟩
  · intro e h1 h2
    obtain ⟨d', hd', hkeep⟩ := exists_session_after σ hd h1 h2
    rw [← session_afterWith arithmetic] at hd'
    obtain ⟨gs', h'⟩ := exists_whole hnew arithmetic (e :: past)
    refine ⟨d', hd', ?_⟩
    by_cases hlost : arithmetic = .checked ∧ ∃ i, Sampler.Fits (σ₀.completed arithmetic past i) ∧
        ¬ Sampler.Fits (σ₀.completed arithmetic (e :: past) i)
    · -- Whose samples became more is the one who acted.
      obtain ⟨hchecked, i, hfits, hfull⟩ := hlost
      have he : e = .act i := eq_act_of_completed_ne fun hsame => hfull (by rwa [hsame])
      exact .inr ⟨hchecked, i, he, hfits, hfull⟩
    · refine .inl (h.liveHandles_le h' hd hd' hkeep fun hchecked i hfits => ?_)
      by_contra hfull
      exact hlost ⟨hchecked, i, hfits, hfull⟩

/-- An active session whose three sources fail at once and whose settings were let go by everybody else still has six
live handles, and activating it again has nothing to do. -/
theorem handle_count_after_failures :
    let σ₀ : State := ofSettings {}
    let past : List Event := [.act 3, .act 3, .act 1, .act 1, .act 1, .releaseStore, .activate]
    let σ := σ₀.runWith .checked past
    σ₀.IsNew ∧ ∃ d, σ.session = some d ∧ d.isActive = true ∧
      (∀ a, d.activation = some a → a.Fits .checked (σ₀.completed .checked past)) ∧
      d.liveHandles σ.system = 6 ∧ (d.activate σ.system).1 = false ∧
      σ.system.atWork (Producer.Role.follows .scenariosDirectory) = 1 := by
  intro σ₀ past σ
  obtain ⟨h1, -, -, -, h2, -⟩ := handle_count .checked σ₀ (isNew_ofSettings _) past _ rfl
  have hfits (a : Activation) : a.Fits .checked (σ₀.completed .checked past) := fun x _ _ =>
    Sampler.fits_of_length_lt (Nat.lt_of_le_of_lt (σ₀.length_completed_le .checked past x.task) (by decide))
  obtain ⟨h2, h3⟩ := h2 fun a _ => hfits a
  refine ⟨isNew_ofSettings _, _, rfl, rfl, fun a _ => hfits a, h2.1 rfl, ?_, (h3 rfl).2 _⟩
  rw [← Bool.not_eq_true, h1]
  exact Option.some_ne_none _

end Session.State
end Dashboard
