import Dashboard.Proofs.Session.Run

/-! # What holds in all runs

Every producer that can still write belongs to the activation that is stored. All that an activation started and that
writes stays until the activation ends.

* `System.Onward`: what actions do to the producers, whatever they do besides.
* `Activation.WellFormed`, `Activation.Running`: what holds of an activation, and of the system while it is stored.
* `Session.State.Sound`: the invariant, with `Sound.after` for one event and `Sound.run` for all runs.
* `Session.State.later_activation`: a stored activation is the same as before, or all its producers are new.
-/

namespace Dashboard
set_option autoImplicit false

/-! ## Producers go on -/

/-- The producers of the second system were there in the first one, and those of the first one that have an open gate
to write through are still there. -/
structure System.Onward (s s' : System) : Prop where
  nextId : s'.nextId = s.nextId
  numbered : s'.Numbered
  of_mem : ∀ u ∈ s'.tasks, ∃ t ∈ s.tasks, t.badge = u.badge
  mem : ∀ t ∈ s.tasks, ∀ x, t.producer.role.writer? = some x → s.world.latches.isClosed x.gate = false →
    ∃ u ∈ s'.tasks, u.badge = t.badge

namespace System
variable {s s' : System}

theorem Onward.of_perm (hs : s.Numbered) (ht : s'.tasks.Perm s.tasks) (hn : s'.nextId = s.nextId) :
    s.Onward s' where
  nextId := hn
  numbered := hs.of_perm ht hn
  of_mem _ hu := ⟨_, ht.mem_iff.1 hu, rfl⟩
  mem _ hm _ _ _ := ⟨_, ht.mem_iff.2 hm, rfl⟩

theorem onward_act (hs : s.Numbered) (i : Nat) : s.Onward (s.act i) where
  nextId := s.nextId_act i
  numbered := hs.act i
  of_mem _ hu := exists_of_mem_act hu
  mem _ ht _ hx hg := mem_act_of_open hs i ht hx hg

end System

/-! ## Activations -/

/-- What holds of every activation that was started. -/
structure Activation.WellFormed (a : Activation) : Prop where
  slots : a.samplers.map (·.writer.slot) = [.server, .runStatus, .validationStatus]
  keys : a.relays.map RelayHandle.key = Setting.all
  keySlot : ∀ h ∈ a.relays, h.writer.slot = h.key.slot
  behind : ∀ x ∈ a.posts, a.gate.latch ∈ x.2.gate.latches
  nodup : a.tasks.Nodup

/-- What holds of the system while an activation is stored: its gates are open, and its producers are there. Only the
inquiry may have come to its end. -/
structure Activation.Running (a : Activation) (s : System) : Prop where
  made : a.gate.latch < s.world.latches.made
  isOpen : s.world.latches.isClosed a.gate = false
  posts : ∀ x ∈ a.posts, x.2.gate.latch < s.world.latches.made ∧ s.world.latches.isClosed x.2.gate = false
  lt : ∀ i ∈ a.tasks, i < s.nextId
  samplers : ∀ h ∈ a.samplers, ∃ t ∈ s.tasks, t.id = h.task ∧
    ∃ source period fallback, t.producer.role = .sampler source period fallback h.writer
  relays : ∀ h ∈ a.relays, ∃ t ∈ s.tasks, t.id = h.task ∧ t.producer.role = .relay h.key h.writer
  inquiry : ∀ t ∈ s.tasks, t.id = a.inquiry →
    t.producer.role = .inquiry a.gate (a.relays.map RelayHandle.reconciler)

namespace Activation
variable {a : Activation} {s s' : System}

theorem mem_posts_sampler {h : SamplerHandle} (hm : h ∈ a.samplers) : (h.task, h.writer) ∈ a.posts :=
  List.mem_append_left _ (List.mem_map_of_mem hm)

theorem mem_posts_relay {h : RelayHandle} (hm : h ∈ a.relays) : (h.task, h.writer) ∈ a.posts :=
  List.mem_append_right _ (List.mem_map_of_mem hm)

theorem mem_tasks_of_mem_posts {x : Nat × Writer} (hx : x ∈ a.posts) : x.1 ∈ a.tasks :=
  List.mem_append_left _ (List.mem_map_of_mem hx)

theorem inquiry_mem_tasks (a : Activation) : a.inquiry ∈ a.tasks :=
  List.mem_append_right _ List.mem_cons_self

theorem mem_tasks_iff {i : Nat} :
    i ∈ a.tasks ↔ (∃ x ∈ a.samplers, x.task = i) ∨ (∃ x ∈ a.relays, x.task = i) ∨ i = a.inquiry := by
  simp [tasks, posts]

/-- Each slot of the dashboard has one producer that writes it. -/
theorem WellFormed.slots_posts (ha : a.WellFormed) : a.posts.map (fun x => x.2.slot) = Slot.all := by
  have hrelays : a.relays.map (fun x => x.writer.slot) = Setting.all.map Setting.slot := by
    rw [← ha.keys, List.map_map]
    exact List.map_congr_left ha.keySlot
  have hsplit : a.posts.map (fun x => x.2.slot) =
      a.samplers.map (fun x => x.writer.slot) ++ a.relays.map fun x => x.writer.slot := by
    simp [posts, Function.comp_def]
  rw [hsplit, ha.slots, hrelays]
  rfl

theorem WellFormed.eq_of_slot (ha : a.WellFormed) {x y : Nat × Writer} (hx : x ∈ a.posts)
    (hy : y ∈ a.posts) (hslot : x.2.slot = y.2.slot) : x = y :=
  List.inj_on_of_nodup_map (ha.slots_posts ▸ (by decide : Slot.all.Nodup)) hx hy hslot

theorem WellFormed.of_begins (h : a.Begins s s') : a.WellFormed where
  slots := h.slots
  keys := h.keys
  keySlot := h.keySlot
  behind x hx := by
    rw [Gate.latches, (h.behind x hx).above]
    exact List.mem_cons_of_mem _ List.mem_cons_self
  nodup := by
    rw [h.tasks_eq]
    exact List.nodup_range'

theorem Running.of_begins (h : a.Begins s s') (hs : s.Numbered) (hl : s.world.latches.Sound) :
    s'.Numbered ∧ a.Running s' := by
  obtain ⟨ts, hts, hb⟩ := h.producers
  have hn : s'.Numbered := hs.begun hb
  have hopen (above : List Nat) (n m : Nat) (hle : s.world.latches.made ≤ n)
      (ha : ∀ k ∈ above, s.world.latches.made ≤ k) :
      s'.world.latches.isClosed ⟨n, above, m⟩ = false := by
    rw [Latches.isClosed_congr hb.shut, ← Bool.not_eq_true, Latches.isClosed_of_new hl hle]
    rintro ⟨k, hk, hshut⟩
    exact hl.not_isShut (ha k hk) hshut
  refine ⟨hn, ?_, ?_, ?_, ?_, ?_, ?_, ?_⟩
  · rw [h.gate]
    exact h.made
  · rw [h.gate]
    exact hopen [] _ _ (Nat.le_refl _) (by simp)
  · intro x hx
    refine ⟨(h.behind x hx).lt, hopen x.2.gate.above _ _ (h.behind x hx).le ?_⟩
    rw [(h.behind x hx).above, h.gate]
    simp [Gate.latches]
  · intro i hi
    rw [h.tasks_eq, List.mem_range'_1] at hi
    rw [h.nextId_eq]
    exact hi.2
  · intro x hx
    obtain ⟨t, ht, hid, p, hp, hw, -⟩ := SamplerHandle.exists_begins hts hx
    refine ⟨t, (hb.mem_iff t).2 (.inr ?_), hid, p.source, p.period, p.fallback, ?_⟩
    · exact List.mem_append_left _ (List.mem_append_left _ ht)
    · rw [hp, Producer.role, hw]
  · intro x hx
    refine ⟨x.fresh s.world.store, (hb.mem_iff _).2 (.inr ?_), rfl, rfl⟩
    exact List.mem_append_left _ (List.mem_append_right _ (List.mem_map_of_mem hx))
  · intro t ht hid
    have hasks : a.asks ∈ s'.tasks := (hb.mem_iff _).2 (.inr (List.mem_append_right _ List.mem_cons_self))
    rw [hn.eq_of_id ht hasks hid]
    rfl

theorem Running.onward (h : a.Running s) (ho : s.Onward s') (hl : s'.world.latches = s.world.latches) :
    a.Running s' where
  made := hl ▸ h.made
  isOpen := hl ▸ h.isOpen
  posts x hx := hl ▸ h.posts x hx
  lt i hi := ho.nextId ▸ h.lt i hi
  samplers x hx := by
    obtain ⟨t, ht, hid, source, period, fallback, hrole⟩ := h.samplers x hx
    obtain ⟨u, hu, hb⟩ := ho.mem t ht x.writer (by rw [hrole]; rfl) (h.posts _ (mem_posts_sampler hx)).2
    refine ⟨u, hu, (congrArg Prod.fst hb).trans hid, source, period, fallback, ?_⟩
    exact (congrArg Prod.snd hb).trans hrole
  relays x hx := by
    obtain ⟨t, ht, hid, hrole⟩ := h.relays x hx
    obtain ⟨u, hu, hb⟩ := ho.mem t ht x.writer (by rw [hrole]; rfl) (h.posts _ (mem_posts_relay hx)).2
    exact ⟨u, hu, (congrArg Prod.fst hb).trans hid, (congrArg Prod.snd hb).trans hrole⟩
  inquiry u hu hid := by
    obtain ⟨t, ht, hb⟩ := ho.of_mem u hu
    have hrole : t.producer.role = u.producer.role := congrArg Prod.snd hb
    rw [← hrole]
    exact h.inquiry t ht ((congrArg Prod.fst hb).trans hid)

theorem Running.cases (h : a.Running s) (hs : s.Numbered) {t : Task} (ht : t ∈ s.tasks)
    (hi : t.id ∈ a.tasks) :
    (∃ x ∈ a.samplers, t.id = x.task ∧
      ∃ source period fallback, t.producer.role = .sampler source period fallback x.writer) ∨
    (∃ x ∈ a.relays, t.id = x.task ∧ t.producer.role = .relay x.key x.writer) ∨
    t.id = a.inquiry ∧ t.producer.role = .inquiry a.gate (a.relays.map RelayHandle.reconciler) := by
  rcases mem_tasks_iff.1 hi with ⟨x, hx, hid⟩ | ⟨x, hx, hid⟩ | hid
  · obtain ⟨u, hu, hid', hrole⟩ := h.samplers x hx
    obtain rfl := hs.eq_of_id ht hu (hid.symm.trans hid'.symm)
    exact .inl ⟨x, hx, hid', hrole⟩
  · obtain ⟨u, hu, hid', hrole⟩ := h.relays x hx
    obtain rfl := hs.eq_of_id ht hu (hid.symm.trans hid'.symm)
    exact .inr (.inl ⟨x, hx, hid', hrole⟩)
  · exact .inr (.inr ⟨hid, h.inquiry t ht hid⟩)

theorem Running.mem_posts (h : a.Running s) (hs : s.Numbered) {t : Task} (ht : t ∈ s.tasks)
    (hi : t.id ∈ a.tasks) {x : Writer} (hx : t.producer.role.writer? = some x) : (t.id, x) ∈ a.posts := by
  rcases h.cases hs ht hi with
    ⟨y, hy, hid, source, period, fallback, hrole⟩ | ⟨y, hy, hid, hrole⟩ | ⟨-, hrole⟩
  · rw [hrole] at hx
    rw [hid, ← Option.some.inj hx]
    exact mem_posts_sampler hy
  · rw [hrole] at hx
    rw [hid, ← Option.some.inj hx]
    exact mem_posts_relay hy
  · rw [hrole] at hx
    exact absurd hx (Option.some_ne_none x).symm

/-- The gate of each of its producers is the gate of the activation or behind it. -/
theorem Running.latch_mem (h : a.Running s) (ha : a.WellFormed) (hs : s.Numbered) {t : Task}
    (ht : t ∈ s.tasks) (hi : t.id ∈ a.tasks) : a.gate.latch ∈ t.producer.role.gate.latches := by
  rcases h.cases hs ht hi with
    ⟨x, hx, -, source, period, fallback, hrole⟩ | ⟨x, hx, -, hrole⟩ | ⟨-, hrole⟩
  · rw [hrole]
    exact ha.behind _ (mem_posts_sampler hx)
  · rw [hrole]
    exact ha.behind _ (mem_posts_relay hx)
  · rw [hrole]
    exact List.mem_cons_self

end Activation

/-! ## The invariant -/

namespace Session.State

/-- A producer whose gate is not closed is one of the stored activation, and that activation runs. -/
structure Sound (σ : State) : Prop where
  numbered : σ.system.Numbered
  latches : σ.system.world.latches.Sound
  held : ∀ t ∈ σ.system.tasks, σ.system.world.latches.isClosed t.producer.role.gate = true ∨
    ∃ a, σ.activation? = some a ∧ t.id ∈ a.tasks
  wellFormed : ∀ a, σ.activation? = some a → a.WellFormed
  running : ∀ a, σ.activation? = some a → a.Running σ.system

variable {σ τ : State}

theorem Sound.of_isNew (h : σ.IsNew) : σ.Sound := by
  obtain ⟨d, hd, hn⟩ := h.session
  have ha : σ.activation? = none := by
    rw [activation?, hd]
    exact hn
  refine ⟨⟨?_, ?_⟩, h.latches, ?_, ?_, ?_⟩
  · simp [h.tasks]
  · simp [h.tasks]
  · simp [h.tasks]
  · simp [ha]
  · simp [ha]

theorem Sound.onward (h : σ.Sound) (ho : σ.system.Onward τ.system)
    (hl : τ.system.world.latches = σ.system.world.latches) (ha : τ.activation? = σ.activation?) :
    τ.Sound where
  numbered := ho.numbered
  latches := hl ▸ h.latches
  held u hu := by
    obtain ⟨t, ht, hb⟩ := ho.of_mem u hu
    have hid : t.id = u.id := congrArg Prod.fst hb
    have hrole : t.producer.role = u.producer.role := congrArg Prod.snd hb
    rw [hl, ha, ← hid, ← hrole]
    exact h.held t ht
  wellFormed a hs := h.wellFormed a (ha ▸ hs)
  running a hs := (h.running a (ha ▸ hs)).onward ho hl

/-- The start of an activation: whoever was there before is behind a closed gate. -/
theorem Sound.begins (h : σ.Sound) {a : Activation} (hn : σ.activation? = none)
    (ha : τ.activation? = some a) (hs : a.Begins σ.system τ.system) : τ.Sound := by
  obtain ⟨hnum, hrun⟩ := Activation.Running.of_begins hs h.numbered h.latches
  obtain ⟨ts, hts, hb⟩ := hs.producers
  refine ⟨hnum, ?_, ?_, ?_, ?_⟩
  · intro n hm
    rw [hb.shut] at hm
    exact Nat.lt_trans (h.latches n hm) hs.made
  · intro t ht
    rcases (hb.mem_iff t).1 ht with ht | ht
    · rcases h.held t ht with hc | ⟨b, hbn, -⟩
      · exact .inl (by rwa [Latches.isClosed_congr hb.shut])
      · rw [hn] at hbn
        exact absurd hbn (Option.some_ne_none b).symm
    · refine .inr ⟨a, ha, ?_⟩
      have hid := hb.id_of_mem ht
      rw [hs.tasks_eq, List.mem_range'_1, ← hs.nextId_eq]
      exact hid
  · intro b hb'
    rw [ha] at hb'
    exact Option.some.inj hb' ▸ .of_begins hs
  · intro b hb'
    rw [ha] at hb'
    exact Option.some.inj hb' ▸ hrun

/-- The end of an activation: all its producers are behind its gate. -/
theorem Sound.ends (h : σ.Sound) {a : Activation} {ns : List Nat} (ha : σ.activation? = some a)
    (hn : τ.activation? = none)
    (hns : ∀ n ∈ ns, n = a.gate.latch ∨ ∃ x ∈ a.posts, x.2.gate.latch = n)
    (hs : σ.system.Closes (a.gate.latch :: ns) τ.system) : τ.Sound where
  numbered := h.numbered.of_perm hs.tasks hs.nextId
  latches n hm := by
    rw [hs.made]
    rcases (hs.shut n).1 hm with hm | hm
    · rcases List.mem_cons.1 hm with rfl | hm
      · exact (h.running a ha).made
      · rcases hns n hm with rfl | ⟨x, hx, rfl⟩
        · exact (h.running a ha).made
        · exact ((h.running a ha).posts x hx).1
    · exact h.latches n hm
  held t ht := by
    rw [hs.tasks.mem_iff] at ht
    refine .inl ((Latches.isClosed_iff _ _).2 ?_)
    rcases h.held t ht with hc | ⟨b, hb, hi⟩
    · obtain ⟨n, hm, hshut⟩ := (Latches.isClosed_iff _ _).1 hc
      exact ⟨n, hm, (hs.shut n).2 (.inr hshut)⟩
    · obtain rfl : b = a := Option.some.inj (hb.symm.trans ha)
      -- Every gate of an activation is behind the one that was just shut.
      have hlatch := (h.running b ha).latch_mem (h.wellFormed b ha) h.numbered ht hi
      exact ⟨_, hlatch, (hs.shut _).2 (.inl List.mem_cons_self)⟩
  wellFormed b hb := absurd (hb.symm.trans hn) (Option.some_ne_none b)
  running b hb := absurd (hb.symm.trans hn) (Option.some_ne_none b)

theorem Sound.happens (h : σ.Sound) {e : Event} (he : Happens σ τ e) : τ.Sound := by
  cases he with
  | act i hs ha =>
    refine h.onward (hs ▸ System.onward_act h.numbered i) ?_ ha
    rw [hs]
    exact (System.kept_act _ i).latches
  | aside hs hl ha => exact h.onward (.of_perm h.numbered hs.tasks hs.nextId) hl ha
  | begins a hn ha hs => exact h.begins hn ha hs
  | ends a _ ha hn ns hns hs => exact h.ends ha hn hns hs

theorem Sound.after (h : σ.Sound) (e : Event) : (σ.after e).Sound := h.happens (σ.happens_after e)

theorem Sound.run (h : σ.Sound) (es : List Event) : (σ.run es).Sound := by
  induction es with
  | nil => exact h
  | cons e es ih => exact ih.after e

/-! ## Numbers -/

theorem nextId_le_after (σ : State) (e : Event) : σ.system.nextId ≤ (σ.after e).system.nextId := by
  cases σ.happens_after e with
  | act i hs ha =>
    rw [hs]
    exact Nat.le_of_eq (σ.system.nextId_act i).symm
  | aside hs hl ha => exact Nat.le_of_eq hs.nextId.symm
  | begins a hn ha hs =>
    rw [hs.nextId_eq]
    omega
  | ends a _ ha hn ns hns hs => exact Nat.le_of_eq hs.nextId.symm

theorem nextId_le_run (σ : State) (es : List Event) : σ.system.nextId ≤ (σ.run es).system.nextId := by
  induction es with
  | nil => exact Nat.le_refl _
  | cons e es ih => exact Nat.le_trans ih (nextId_le_after _ e)

/-- An activation that is stored later was stored before, or it was started in between. -/
theorem later_activation (σ : State) (es : List Event) {a : Activation}
    (ha : (σ.run es).activation? = some a) :
    σ.activation? = some a ∨ ∀ i ∈ a.tasks, σ.system.nextId ≤ i := by
  induction es with
  | nil => exact .inl ha
  | cons e es ih =>
    have he : Happens (σ.run es) (σ.run (e :: es)) e := happens_after _ e
    cases he with
    | act i hs hsame => exact ih (hsame ▸ ha)
    | aside hs hl hsame => exact ih (hsame ▸ ha)
    | begins b hn hb hs =>
      obtain rfl : b = a := Option.some.inj (hb.symm.trans ha)
      right
      intro i hi
      rw [hs.tasks_eq, List.mem_range'_1] at hi
      exact Nat.le_trans (nextId_le_run σ es) hi.1
    | ends b _ hb hn ns hns hs => exact absurd (ha.symm.trans hn) (Option.some_ne_none a)

end Session.State
end Dashboard
