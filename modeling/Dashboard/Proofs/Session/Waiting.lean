import Dashboard.Proofs.Producer.Load
import Dashboard.Proofs.Session.Schedule

/-! # Waiting

The bounds on the numbers of actions and of moments are never reached: when time is let pass, all producers come to rest
at each moment, and time goes on no further than to the next moment at which one of them can act. So nobody is kept
waiting, and the samples of a sampler are on schedule.

* `System.loadOf_receiveAll_le`, `System.load_act`: each action lowers the load of a system.
* `System.Orderly`, `Session.State.orderly_after`: what makes a system come to rest, and that every event keeps it.
* `System.isSettled_settle`: after a settling all producers rest.
* `Session.State.Passes`, `State.passes_waits`: letting time pass is a run in which every producer acts as soon as it can.
* `Session.State.waits_on_schedule`: the samples that are begun meanwhile.
-/

namespace Dashboard
set_option autoImplicit false

/-! ## The load of a system -/

namespace System
variable {s : System} {i : Nat}

def loadOf (w : World) (ts : List Task) : Nat := (ts.map fun t => t.producer.load w).foldr (· + ·) 0

theorem load_eq (s : System) : s.load = loadOf s.world s.tasks := rfl

theorem loadOf_cons (w : World) (t : Task) (ts : List Task) :
    loadOf w (t :: ts) = t.producer.load w + loadOf w ts := rfl

theorem loadOf_perm {ts us : List Task} (h : ts.Perm us) (w : World) : loadOf w ts = loadOf w us :=
  (h.map _).sum_nat

theorem loadOf_kept {w v : World} (h : World.Kept w v) (ts : List Task) : loadOf v ts = loadOf w ts := by
  rw [loadOf, loadOf]
  congr 1
  exact List.map_congr_left fun t _ => t.producer.load_of_kept h

theorem id_receive (r : Reconciler) (t : Task) : (t.receive r).id = t.id := congrArg Prod.fst (t.badge_receive r)

/-- A report reaches at most one producer. -/
theorem loadOf_receive_le (w : World) (r : Reconciler) {ts : List Task} (h : (ts.map Task.id).Nodup) :
    loadOf w (ts.map (Task.receive r)) ≤ loadOf w ts + 1 := by
  induction ts with
  | nil => exact Nat.zero_le _
  | cons t ts ih =>
    obtain ⟨hne, hnodup⟩ := List.nodup_cons.1 h
    rw [List.map_cons, loadOf_cons, loadOf_cons]
    by_cases hid : t.id = r.relay
    · have hothers : ts.map (Task.receive r) = ts := by
        refine (List.map_congr_left fun u hu => Task.receive_of_ne fun heq => hne ?_).trans (List.map_id _)
        rw [hid, ← heq]
        exact List.mem_map_of_mem hu
      have hself : (t.receive r).producer = t.producer.withReport := by rw [Task.receive, if_pos hid]
      have hle := t.producer.load_withReport_le w
      rw [hothers, hself]
      omega
    · have hle := ih hnodup
      rw [Task.receive_of_ne hid]
      omega

theorem loadOf_receiveAll_le (w : World) (rs : List Reconciler) {ts : List Task} (h : (ts.map Task.id).Nodup) :
    loadOf w (ts.map (Task.receiveAll rs)) ≤ loadOf w ts + rs.length := by
  induction rs generalizing ts with
  | nil =>
    have hid : ts.map (Task.receiveAll []) = ts := List.map_id _
    rw [hid]
    exact Nat.le_refl _
  | cons r rs ih =>
    have hids : (ts.map (Task.receive r)).map Task.id = ts.map Task.id := by
      rw [List.map_map]
      exact List.map_congr_left fun t _ => id_receive r t
    have hone := loadOf_receive_le w r h
    have hrest := ih (hids ▸ h)
    have hsplit : ts.map (Task.receiveAll (r :: rs)) = (ts.map (Task.receive r)).map (Task.receiveAll rs) := by
      rw [List.map_map]
      rfl
    rw [hsplit, List.length_cons]
    omega

theorem nodup_afterStep (hs : s.Numbered) {t : Task} (ht : s.acting i = some t) :
    ((s.afterStep t (t.producer.step s.world).2.1).map Task.id).Nodup := by
  have hnodup := (hs.act i).nodup
  rw [((acted ht).tasks.map Task.id).nodup_iff, List.map_map] at hnodup
  rwa [List.map_congr_left fun u _ => (Task.id_receiveAll _ u).symm]

/-- Each action lowers the load. -/
theorem load_act (hs : s.Numbered) {t : Task} (ht : s.acting i = some t)
    (hp : t.producer.role.isPeriodic = true) : (s.act i).load < s.load := by
  obtain ⟨hm, -, hr⟩ := mem_of_acting ht
  have hstep := Producer.load_step hp hr
  have hreports := loadOf_receiveAll_le s.world (t.producer.step s.world).2.2 (nodup_afterStep hs ht)
  have hself : loadOf s.world (s.afterStep t (t.producer.step s.world).2.1) =
      (t.producer.step s.world).2.1.elim 0 (Producer.load s.world) +
        loadOf s.world (s.tasks.filter (·.id != t.id)) := by
    cases (t.producer.step s.world).2.1 with
    | none => exact (Nat.zero_add _).symm
    | some p => exact loadOf_cons _ _ _
  rw [load_eq, load_eq, loadOf_kept (kept_act s i), loadOf_perm (acted ht).tasks, loadOf_perm (hs.perm_cons hm),
    loadOf_cons]
  omega

/-! ## Coming to rest -/

/-- Every sampler has a period. -/
def Periodic (s : System) : Prop := ∀ t ∈ s.tasks, t.producer.role.isPeriodic = true

/-- Whoever stands among the producers at rest cannot act. -/
def Roused (s : System) : Prop := ∀ t ∈ s.resting, t.producer.isReady s.world = false

theorem roused_rouse (s : System) : s.rouse.Roused := by
  intro t ht
  have ht := (List.mem_filter.1 ht).2
  simpa using ht

theorem Roused.note (h : s.Roused) (n : Notice) : (s.note n).Roused := by
  intro t ht
  have hrest := h t ht
  cases hp : t.producer <;> rw [hp] at hrest <;> exact hrest

theorem Roused.send (h : s.Roused) (r : Reconciler) : (s.send r).Roused := by
  unfold System.send
  split
  · exact roused_rouse _
  · exact h.note _

theorem Roused.sends (h : s.Roused) (rs : List Reconciler) : (rs.foldl System.send s).Roused := by
  induction rs generalizing s with
  | nil => exact h
  | cons r rs ih => exact ih (h.send r)

theorem Roused.act (h : s.Roused) (i : Nat) : (s.act i).Roused := by
  unfold System.act
  split
  · exact h
  · split
    · exact (roused_rouse _).sends _
    · exact h

/-- What makes a system come to rest: its producers are numbered, its samplers have periods, and whoever can act stands in
line. -/
structure Orderly (s : System) : Prop where
  numbered : s.Numbered
  periodic : s.Periodic
  roused : s.Roused

namespace Orderly

theorem act (h : s.Orderly) (i : Nat) : (s.act i).Orderly := by
  refine ⟨h.numbered.act i, ?_, h.roused.act i⟩
  intro u hu
  obtain ⟨t, ht, hb⟩ := exists_of_mem_act hu
  have hrole : t.producer.role = u.producer.role := congrArg Prod.snd hb
  rw [← hrole]
  exact h.periodic t ht

theorem onWorld (h : s.Orderly) (f : World → World) : (s.onWorld f).Orderly where
  numbered := h.numbered.of_perm (s.tasks_onWorld f) rfl
  periodic t ht := h.periodic t ((s.tasks_onWorld f).mem_iff.1 ht)
  roused := roused_rouse _

/-- As long as not all producers rest, the first in line can act, and lowers the load. -/
theorem firstReady?_cases (h : s.Orderly) : s.firstReady? = none ∧ s.IsSettled ∨
    ∃ i, s.firstReady? = some i ∧ (s.act i).load < s.load := by
  cases hf : s.awake.find? fun t => t.producer.isReady s.world with
  | none =>
    refine .inl ⟨by rw [firstReady?, hf]; rfl, ?_⟩
    intro t ht
    rcases List.mem_append.1 ht with ht | ht
    · exact Bool.not_eq_true _ ▸ List.find?_eq_none.1 hf t ht
    · exact h.roused t ht
  | some t =>
    have ht : t ∈ s.tasks := List.mem_append_left _ (List.mem_of_find?_eq_some hf)
    have hr : t.producer.isReady s.world = true := (List.find?_some hf :)
    have hacting : s.acting t.id = some t := (acting_of_mem h.numbered ht).trans (if_pos hr)
    exact .inr ⟨t.id, by rw [firstReady?, hf]; rfl, load_act h.numbered hacting (h.periodic t ht)⟩

theorem settleWithin (h : s.Orderly) {n : Nat} (hn : s.load ≤ n) :
    (s.settleWithin n).Orderly ∧ (s.settleWithin n).IsSettled := by
  induction n generalizing s with
  | zero =>
    rcases h.firstReady?_cases with ⟨-, hrest⟩ | ⟨i, -, hlt⟩
    · exact ⟨h, hrest⟩
    · omega
  | succ n ih =>
    rcases h.firstReady?_cases with ⟨hf, hrest⟩ | ⟨i, hf, hlt⟩
    · have hsame : s.settleWithin (n + 1) = s := by simp [System.settleWithin, hf]
      rw [hsame]
      exact ⟨h, hrest⟩
    · have hnext : s.settleWithin (n + 1) = (s.act i).settleWithin n := by simp [System.settleWithin, hf]
      rw [hnext]
      exact ih (h.act i) (by omega)

end Orderly

/-- After a settling all producers rest. -/
theorem isSettled_settle (h : s.Orderly) : s.settle.Orderly ∧ s.settle.IsSettled :=
  h.settleWithin (Nat.le_refl _)

/-! ## The next moment -/

theorem nextDue?_eq_none (h : s.nextDue? = none) {t : Task} (ht : t ∈ s.tasks) :
    t.producer.dueAt? = none := by
  rw [nextDue?, List.min?_eq_none_iff, List.filterMap_eq_nil_iff] at h
  exact h t ht

theorem nextDue?_eq_some {due : Nat} (h : s.nextDue? = some due) :
    (∃ t ∈ s.tasks, t.producer.dueAt? = some due) ∧
      ∀ t ∈ s.tasks, ∀ d, t.producer.dueAt? = some d → due ≤ d := by
  obtain ⟨hmem, hmin⟩ := List.min?_eq_some_iff.1 h
  exact ⟨List.mem_filterMap.1 hmem, fun t ht d hd => hmin d (List.mem_filterMap.2 ⟨t, ht, hd⟩)⟩

/-- When all producers rest, the next moment at which one can act is still to come. -/
theorem IsSettled.lt_nextDue (h : s.IsSettled) {due : Nat} (hdue : s.nextDue? = some due) :
    s.world.now < due := by
  obtain ⟨⟨t, ht, hd⟩, -⟩ := nextDue?_eq_some hdue
  rw [← Nat.not_le]
  intro hle
  exact absurd ((Producer.isReady_of_due hd hle).symm.trans (h t ht)) Bool.false_ne_true.symm

/-- When all producers rest, time may pass until one of them is due. -/
theorem IsSettled.awaits (h : s.IsSettled) {t : Nat} (hle : s.world.now ≤ t)
    (hdue : ∀ due, s.nextDue? = some due → t ≤ due) (i : Nat) : s.Awaits i t := by
  refine ⟨hle, fun u hu _ now _ hlt => Producer.isReady_later (h u hu) fun d hd => ?_⟩
  cases hn : s.nextDue? with
  | none => exact absurd (hd.symm.trans (nextDue?_eq_none hn hu)) (Option.some_ne_none d)
  | some due =>
    have hfirst := (nextDue?_eq_some hn).2 u hu d hd
    have htarget := hdue due hn
    omega

end System

/-! ## Systems of a dashboard -/

namespace System
variable {s s' : System}

theorem Periodic.begun {ts : List Task} (h : s.Periodic) (hb : s.Begun ts s')
    (hts : ∀ t ∈ ts, t.producer.role.isPeriodic = true) : s'.Periodic := by
  intro t ht
  rcases (hb.mem_iff t).1 ht with ht | ht
  · exact h t ht
  · exact hts t ht

/-- A sampler is started with the shortest period when it is to have none. -/
theorem Periodic.startSamplers (h : s.Periodic) (gate : Gate) (feeds : List (Slot × Feed)) :
    (Session.startSamplers gate feeds s).2.Periodic := by
  induction feeds generalizing s with
  | nil => exact h
  | cons feed feeds ih =>
    obtain ⟨slot, feed⟩ := feed
    obtain ⟨name, -, hb, -⟩ := startSampler_spec feed.source feed.period (.forSlot slot) ⟨slot, gate⟩ s
    refine ih (h.begun hb (List.forall_mem_singleton.2 ?_))
    have hperiod : 0 < Ticker.period feed.period := Nat.le_max_right _ _
    simp [Producer.role, Producer.Role.isPeriodic, hperiod]

theorem Orderly.start (h : s.Orderly) (d : Session) : (d.start s).2.Orderly := by
  have hbegins := d.start_spec s
  obtain ⟨ts, -, hb⟩ := hbegins.producers
  let g : Gate := s.world.rootGate.1
  let s₀ : System := { s with world := s.world.rootGate.2 }.note .activates
  have hactivates : s₀.Periodic := h.periodic
  have hsamplers := hactivates.startSamplers g d.feeds
  rcases hx : Session.startSamplers g d.feeds s₀ with ⟨samplers, s₁⟩
  obtain ⟨hrelays, -, -⟩ := Session.startRelays_spec g Setting.all s₁
  rcases hy : Session.startRelays g Setting.all s₁ with ⟨relays, s₂⟩
  rw [hx] at hsamplers
  rw [hy] at hrelays
  have hfollowed : s₂.Periodic := by
    refine hsamplers.begun hrelays ?_
    intro t ht
    obtain ⟨x, -, rfl⟩ := List.mem_map.1 ht
    rfl
  refine ⟨h.numbered.begun hb, ?_, ?_⟩
  · rw [Session.start_eq hx hy _ rfl]
    have hheld : (s₂.onWorld World.holdStore).Periodic :=
      fun t ht => hfollowed t ((s₂.tasks_onWorld _).mem_iff.1 ht)
    exact hheld.begun (begun_spawn _ _) (List.forall_mem_singleton.2 rfl)
  · rw [Session.start_eq hx hy _ rfl]
    exact roused_rouse { s₂ with world := s₂.world.holdStore }

theorem Orderly.note (h : s.Orderly) (n : Notice) : (s.note n).Orderly :=
  ⟨⟨h.numbered.lt, h.numbered.nodup⟩, h.periodic, h.roused.note n⟩

theorem Orderly.foldl {α : Type} {f : System → α → System} (hf : ∀ (s : System) x, s.Orderly → (f s x).Orderly)
    (xs : List α) (h : s.Orderly) : (xs.foldl f s).Orderly := by
  induction xs generalizing s with
  | nil => exact h
  | cons x xs ih => exact ih (hf s x h)

theorem Orderly.retire (h : s.Orderly) (a : Activation) : (s.retire a).Orderly := by
  have hsamplers := Orderly.foldl (f := fun s x => s.stop x) (fun s x h => (h.note _).onWorld _) a.samplers
    (h.onWorld (World.close a.gate))
  have hrelays := Orderly.foldl (f := fun s x => s.release x) (fun s x h => (h.note _).onWorld _) a.relays hsamplers
  have hpending (t : System) (ht : t.Orderly) :
      (if t.isAlive a.inquiry then t.note .snapshotPending else t).Orderly := by
    split
    · exact ht.note _
    · exact ht
  exact (hpending _ hrelays).note _

end System

namespace Session.State
variable {σ σ₀ : State}

theorem orderly_after (h : σ.system.Orderly) (e : Event) : (σ.after e).system.Orderly := by
  obtain ⟨session, s⟩ := σ
  cases e with
  | activate =>
    cases session with
    | none => exact h
    | some d =>
      rw [after_activate]
      cases ha : d.activation with
      | none =>
        rw [activate_of_none s ha]
        exact h.start d
      | some a =>
        rw [activate_of_some s ha]
        exact h.note _
  | deactivate =>
    cases session with
    | none => exact h
    | some d =>
      rw [after_deactivate]
      cases ha : d.activation with
      | none =>
        rw [deactivate_of_none s ha]
        exact h.note _
      | some a =>
        rw [deactivate_of_some s ha]
        exact h.retire a
  | drop =>
    cases session with
    | none => exact h
    | some d =>
      rw [after_drop]
      cases ha : d.activation with
      | none =>
        rw [drop_of_none s ha]
        exact h.onWorld _
      | some a =>
        rw [drop_of_some s ha]
        exact (h.onWorld _).onWorld _
  | act i => exact h.act i
  | clock t => exact h.onWorld fun w => { w with now := t }
  | setting key value => exact h.onWorld _
  | sources sources => exact h.onWorld fun w => { w with sources }
  | responder responder => exact h.onWorld fun w => { w with responder }
  | releaseStore => exact h.onWorld _

theorem orderly_run (h : σ.system.Orderly) (es : List Event) : (σ.run es).system.Orderly := by
  induction es with
  | nil => exact h
  | cons e es ih => exact orderly_after ih e

theorem orderly_of_isNew (h : σ₀.IsNew) : σ₀.system.Orderly := by
  have hnone (t : Task) : t ∉ σ₀.system.tasks := by
    rw [h.tasks]
    exact List.not_mem_nil
  refine ⟨⟨fun t ht => absurd ht (hnone t), ?_⟩, fun t ht => absurd ht (hnone t), ?_⟩
  · rw [h.tasks]
    exact .nil
  · exact fun t ht => absurd (List.mem_append_right _ ht) (hnone t)

/-! ## Waiting -/

theorem prompt_append {i : Nat} {es past : List Event} (hpast : Prompt i σ past)
    (hes : Prompt i (σ.run past) es) : Prompt i σ (es ++ past) := by
  induction es with
  | nil => exact hpast
  | cons e es ih =>
    have hlast := hes.2
    rw [← run_append] at hlast
    exact ⟨ih hes.1, hlast⟩

/-- An action takes no time. -/
theorem prompt_acts (σ : State) (i : Nat) (js : List Nat) : Prompt i σ (js.map .act) := by
  induction js with
  | nil => trivial
  | cons j js ih =>
    refine ⟨ih, ?_⟩
    have hnow : ((σ.run (js.map .act)).after (.act j)).system.world.now = (σ.run (js.map .act)).system.world.now :=
      (System.kept_act _ j).now
    rw [hnow]
    exact System.awaits_now _ i

theorem kept_acts (σ : State) (js : List Nat) : World.Kept σ.system.world (σ.run (js.map .act)).system.world := by
  induction js with
  | nil => exact .refl _
  | cons j js ih => exact ih.trans (System.kept_act _ j)

theorem now_settle (σ : State) : σ.system.settle.world.now = σ.system.world.now := by
  obtain ⟨js, hrun⟩ := σ.exists_acts_settleWithin σ.system.load
  have hkept := (σ.kept_acts js).now
  rw [hrun] at hkept
  exact hkept

/-- From one state another one is reached on its own, and every producer acts as soon as it can. -/
def Passes (σ τ : State) : Prop :=
  ∃ es, (∀ e ∈ es, Event.isOwn e = true) ∧ (∀ i, Prompt i σ es) ∧ σ.run es = τ

namespace Passes

theorem refl (σ : State) : Passes σ σ := ⟨[], fun _ he => absurd he List.not_mem_nil, fun _ => trivial, rfl⟩

theorem trans {τ υ : State} (h : Passes σ τ) (h' : Passes τ υ) : Passes σ υ := by
  obtain ⟨es, hown, hprompt, rfl⟩ := h
  obtain ⟨es', hown', hprompt', rfl⟩ := h'
  refine ⟨es' ++ es, ?_, fun i => prompt_append (hprompt i) (hprompt' i), run_append σ es' es⟩
  intro e he
  exact (List.mem_append.1 he).elim (hown' e) (hown e)

theorem orderly {τ : State} (h : Passes σ τ) (hs : σ.system.Orderly) : τ.system.Orderly := by
  obtain ⟨es, -, -, rfl⟩ := h
  exact orderly_run hs es

end Passes

/-- The producers act until they rest, and then time goes on to a moment up to which nobody is due. -/
theorem passes_moment (h : σ.system.Orderly) {t : Nat} (hle : σ.system.world.now ≤ t)
    (hdue : ∀ due, σ.system.settle.nextDue? = some due → t ≤ due) :
    Passes σ { σ with system := σ.system.settle.setClock t } := by
  obtain ⟨js, hrun⟩ := σ.exists_acts_settleWithin σ.system.load
  refine ⟨.clock t :: js.map .act, ?_, fun i => ⟨prompt_acts σ i js, ?_⟩, ?_⟩
  · exact List.forall_mem_cons.2 ⟨rfl, List.forall_mem_map.2 fun _ _ => rfl⟩
  · rw [hrun]
    exact (System.isSettled_settle h).2.awaits (by rw [now_settle]; exact hle) hdue i
  · rw [run, hrun]
    rfl

/-- The number of moments is never reached, as each of them is later than the one before. -/
theorem passes_passWith {α : Type} (observe : α → System → α) (target fuel : Nat) (st : α) (σ : State)
    (h : σ.system.Orderly) (hle : σ.system.world.now ≤ target) (hfuel : target ≤ σ.system.world.now + fuel) :
    Passes σ { σ with system := (System.passWith observe target fuel st σ.system).2 } := by
  induction fuel generalizing σ st with
  | zero =>
    have hnow : target = σ.system.world.now := by omega
    refine ⟨[.clock target], by simp [Event.isOwn], fun i => ⟨trivial, ?_⟩, rfl⟩
    have hawaits := σ.system.awaits_now i
    rw [← hnow] at hawaits
    exact hawaits
  | succ fuel ih =>
    have hrest : σ.system.settle.IsSettled := (System.isSettled_settle h).2
    have hnow := σ.now_settle
    cases hd : σ.system.settle.nextDue? with
    | none =>
      have hpass : (System.passWith observe target (fuel + 1) st σ.system).2 =
          σ.system.settle.setClock target := by
        simp [System.passWith, hd]
      rw [hpass]
      exact passes_moment h hle (by simp [hd])
    | some t =>
      have hlt := hrest.lt_nextDue hd
      by_cases ht : t < target
      · let τ : State := { σ with system := σ.system.settle.setClock t }
        have hclocked : τ.system.world.now = t := rfl
        have hpass : System.passWith observe target (fuel + 1) st σ.system =
            System.passWith observe target fuel (observe st σ.system.settle) τ.system := by
          simp [System.passWith, hd, hlt, ht, τ]
        have hmoment : Passes σ τ := passes_moment h (by omega) (by simp [hd])
        rw [hpass]
        exact hmoment.trans (ih _ τ (hmoment.orderly h) (by omega) (by omega))
      · have hpass : (System.passWith observe target (fuel + 1) st σ.system).2 =
            σ.system.settle.setClock target := by
          simp [System.passWith, hd, ht]
        rw [hpass]
        refine passes_moment h hle fun due hdue => ?_
        have heq : t = due := Option.some.inj (hd.symm.trans hdue)
        omega

/-- Time is let pass, again and again. -/
theorem passes_waits (h : σ.system.Orderly) (waits : List Nat) :
    Passes σ { σ with system := waits.foldl (fun s ms => s.wait ms) σ.system } := by
  induction waits generalizing σ with
  | nil => exact .refl σ
  | cons ms waits ih =>
    have hwait : Passes σ { σ with system := σ.system.wait ms } :=
      passes_passWith _ _ _ _ σ h (Nat.le_add_right _ _) (Nat.le_refl _)
    exact hwait.trans (ih (hwait.orderly h))

/-! ## The schedule -/

theorem latches_of_own {es : List Event} (h : ∀ e ∈ es, Event.isOwn e = true) :
    (σ.run es).system.world.latches = σ.system.world.latches := by
  induction es with
  | nil => rfl
  | cons e es ih =>
    obtain ⟨hown, hes⟩ := List.forall_mem_cons.1 h
    have hsame : ((σ.run es).after e).system.world.latches = (σ.run es).system.world.latches := by
      cases e with
      | act i => exact (System.kept_act _ i).latches
      | clock t => rfl
      | _ => exact absurd hown Bool.false_ne_true
    exact hsame.trans (ih hes)

/-- When nobody calls, a fresh sampler behind an open gate begins its samples on schedule. -/
theorem onSchedule_of_own {i : Nat} {p : Sampler} {es : List Event} (h : σ.system.Orderly)
    (hm : ⟨i, .sampler p⟩ ∈ σ.system.tasks) (hp : p.phase = .fresh)
    (hg : σ.system.world.latches.isClosed p.writer.gate = false) (hown : ∀ e ∈ es, Event.isOwn e = true)
    (hprompt : Prompt i σ es) : Sample.OnSchedule σ.system.world.now p.period (σ.samples i es) := by
  rw [← latches_of_own hown] at hg
  obtain ⟨q, hkeeps⟩ := paced_run h.numbered hm hp hprompt hg
  rw [← hkeeps.period]
  exact hkeeps.paced.onSchedule

/-- **Waiting keeps the schedule.** In every run of a dashboard, a sampler that was just started behind an open gate begins
its samples on schedule when time is let pass, in pieces of any length: no producer is ever kept waiting. -/
theorem waits_on_schedule (hnew : σ₀.IsNew) (past : List Event) {i : Nat} {p : Sampler}
    (hm : ⟨i, .sampler p⟩ ∈ (σ₀.run past).system.tasks) (hp : p.phase = .fresh)
    (hg : (σ₀.run past).system.world.latches.isOpen p.writer.gate = true) (waits : List Nat) :
    let σ := σ₀.run past
    ∃ es, (∀ e ∈ es, Event.isOwn e = true) ∧ (∀ j, Prompt j σ es) ∧
      σ.run es = { σ with system := waits.foldl (fun s ms => s.wait ms) σ.system } ∧
      Sample.OnSchedule σ.system.world.now p.period (σ.samples i es) := by
  intro σ
  have h : σ.system.Orderly := orderly_run (orderly_of_isNew hnew) past
  obtain ⟨es, hown, hprompt, hrun⟩ := passes_waits h waits
  have hclosed := (Latches.isOpen_iff _ _).1 hg
  exact ⟨es, hown, hprompt, hrun, onSchedule_of_own h hm hp hclosed hown (hprompt i)⟩

end Session.State
end Dashboard
