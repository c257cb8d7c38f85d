import Dashboard.Proofs.Sampler.Streak
import Dashboard.Proofs.Session.Schedule

/-! # Samplers that break off

Where sums are checked, a sampler breaks off at the failure that gets no number, and its gate stays open. Nothing else is
different in such a run: what holds of the producers in a run without breaks holds of those that are there together with
those that broke off.

* `System.Breaks`, `System.actWith_of_breaks`, `System.actWith_of_not_breaks`: which actions break off, and all others.
* `Session.State.afterWith`, `Session.State.runWith`: events and runs with either kind of sums.
* `Session.State.completed`: the samples that the producer of a number completed in a run.
* `System.restore`: a system to which the producers that broke off come back.
* `Session.State.Whole`, `Session.State.exists_whole`: the invariant, for all runs.
* `Session.State.runWith_eq_run`: as long as all counts fit, a run does not depend on the kind of sums.
-/

namespace Dashboard
set_option autoImplicit false

/-! ## Actions -/

/-- The sample that a producer completes with its next action, if it is a sampler. -/
def Producer.completes? (w : World) : Producer → Option Sampler.Completion
  | .sampler p => p.completion? w
  | _ => none

/-- A report leaves a sampler as it is, and makes none. -/
theorem Task.eq_of_receiveAll_sampler {rs : List Reconciler} {t : Task} {i : Nat} {p : Sampler}
    (h : t.receiveAll rs = ⟨i, .sampler p⟩) : t = ⟨i, .sampler p⟩ := by
  obtain ⟨j, producer⟩ := t
  cases producer with
  | sampler q => rwa [receiveAll_sampler] at h
  | relay q =>
    have hbadge := congrArg badge h
    rw [badge_receiveAll] at hbadge
    exact absurd (congrArg Prod.snd hbadge) nofun
  | inquiry q =>
    have hbadge := congrArg badge h
    rw [badge_receiveAll] at hbadge
    exact absurd (congrArg Prod.snd hbadge) nofun

namespace System
variable {arithmetic : Sampler.Arithmetic} {s t : System} {i j : Nat} {p q : Sampler} {v : World}

/-- The producer of a number is a sampler, and breaks off with its next action. -/
structure Breaks (arithmetic : Sampler.Arithmetic) (i : Nat) (s : System) (p : Sampler) (v : World) : Prop where
  acting : s.acting i = some ⟨i, .sampler p⟩
  error : p.stepWith arithmetic s.world = .error v

theorem actWith_of_breaks (h : s.Breaks arithmetic i p v) :
    s.actWith arithmetic i = ({ s with world := v }.remove i).rouse := by
  obtain ⟨hf, hr⟩ := Option.filter_eq_some_iff.1 h.acting
  have hready : p.isReady s.world = true := hr
  simp only [actWith, hf, hready, h.error]

theorem actWith_of_not_breaks (h : ∀ p v, ¬ s.Breaks arithmetic i p v) : s.actWith arithmetic i = s.act i := by
  unfold actWith
  split
  · rename_i j p hf
    split
    · rename_i v hr he
      obtain rfl : j = i := by simpa using List.find?_some hf
      exact absurd ⟨Option.filter_eq_some_iff.2 ⟨hf, hr⟩, he⟩ (h p v)
    · rfl
  · rfl

theorem Breaks.eq_checked (h : s.Breaks arithmetic i p v) : arithmetic = .checked :=
  (Sampler.stepWith_eq_error_iff.1 h.error).1

theorem actWith_wrapping (s : System) (i : Nat) : s.actWith .wrapping i = s.act i :=
  actWith_of_not_breaks fun _ _ h => absurd h.eq_checked (by decide)

theorem tasks_actWith (h : s.Breaks arithmetic i p v) :
    (s.actWith arithmetic i).tasks.Perm (s.tasks.filter (·.id != i)) := by
  rw [actWith_of_breaks h]
  refine (tasks_rouse _).trans ?_
  simp [remove, tasks]

/-- A sampler after an action of somebody: it is as it was, or the action was its own. -/
theorem cases_of_mem_act_sampler (hm : ⟨j, .sampler q⟩ ∈ (s.act i).tasks) :
    ⟨j, .sampler q⟩ ∈ s.tasks ∧ (i = j → s.acting j = none) ∨
      i = j ∧ ∃ p, s.acting i = some ⟨i, .sampler p⟩ ∧ (p.step s.world).2 = some q := by
  cases hacting : s.acting i with
  | none => exact .inl ⟨act_of_none hacting ▸ hm, fun hij => hij ▸ hacting⟩
  | some t =>
    have hid : t.id = i := (mem_of_acting hacting).2.1
    obtain ⟨u, hu, heq⟩ := List.mem_map.1 ((acted hacting).tasks.mem_iff.1 hm)
    rw [Task.eq_of_receiveAll_sampler heq] at hu
    rcases mem_afterStep.1 hu with ⟨next, hnext, heq⟩ | ⟨hu, hne⟩
    · obtain ⟨rfl, rfl⟩ := Task.mk.inj heq
      refine .inr ⟨hid.symm, ?_⟩
      obtain ⟨k, producer⟩ := t
      obtain rfl : k = i := hid
      cases producer with
      | sampler p =>
        obtain ⟨r, hr, heq⟩ := Option.map_eq_some_iff.1 hnext
        obtain rfl := Producer.sampler.inj heq
        exact ⟨p, rfl, hr⟩
      | relay p =>
        obtain ⟨r, -, heq⟩ := Option.map_eq_some_iff.1 hnext
        exact absurd heq nofun
      | inquiry p =>
        obtain ⟨r, -, heq⟩ := Option.map_eq_some_iff.1 hnext
        exact absurd heq nofun
    · exact .inl ⟨hu, fun hij => absurd (hij.symm.trans hid.symm) hne⟩

/-! ## Systems made whole -/

/-- The system with producers that are not there any more. -/
def restore (gs : List Task) (s : System) : System := { s with resting := s.resting ++ gs }

variable {gs : List Task}

theorem tasks_restore (gs : List Task) (s : System) : (s.restore gs).tasks = s.tasks ++ gs :=
  (List.append_assoc _ _ _).symm

theorem Closes.restore {ns : List Nat} (h : s.Closes ns t) (gs : List Task) :
    (s.restore gs).Closes ns (t.restore gs) where
  tasks := by
    rw [tasks_restore, tasks_restore]
    exact h.tasks.append_right gs
  nextId := h.nextId
  board := h.board
  made := h.made
  shut := h.shut

theorem Begun.restore {ts : List Task} (h : s.Begun ts t) (gs : List Task) :
    (s.restore gs).Begun ts (t.restore gs) where
  tasks := by
    rw [tasks_restore, tasks_restore]
    refine (h.tasks.append_right gs).trans ?_
    rw [List.append_assoc, List.append_assoc]
    exact List.perm_append_comm.append_left _
  ids := h.ids
  nextId := h.nextId
  board := h.board
  shut := h.shut
  made := h.made
  channel := h.channel

theorem Numbered.of_restore (h : (s.restore gs).Numbered) : s.Numbered := by
  obtain ⟨hlt, hnodup⟩ := h
  rw [tasks_restore] at hlt hnodup
  refine ⟨fun t ht => hlt t (List.mem_append_left _ ht), ?_⟩
  exact hnodup.sublist ((List.sublist_append_left _ _).map Task.id)

/-- Who is there no more keeps the number. -/
theorem Numbered.restore (ht : t.Numbered) (h : (s.restore gs).Numbered) (hn : t.nextId = s.nextId)
    (hids : ∀ u ∈ t.tasks, ∃ v ∈ s.tasks, v.id = u.id) : (t.restore gs).Numbered := by
  obtain ⟨hlt, hnodup⟩ := h
  rw [tasks_restore] at hlt hnodup
  rw [List.map_append, List.nodup_append] at hnodup
  obtain ⟨-, hgs, hne⟩ := hnodup
  refine ⟨?_, ?_⟩
  · intro u hu
    rw [tasks_restore] at hu
    rcases List.mem_append.1 hu with hu | hu
    · exact ht.lt u hu
    · exact hn.symm ▸ hlt u (List.mem_append_right _ hu)
  · rw [tasks_restore, List.map_append, List.nodup_append]
    refine ⟨ht.nodup, hgs, ?_⟩
    intro a ha b hb
    obtain ⟨u, hu, rfl⟩ := List.mem_map.1 ha
    obtain ⟨v, hv, hid⟩ := hids u hu
    exact hne _ (hid ▸ List.mem_map_of_mem hv) b hb

/-- An action of those that are there means nothing to the others. -/
theorem onward_act_restore (h : (s.restore gs).Numbered) (i : Nat) :
    (s.restore gs).Onward ((s.act i).restore gs) where
  nextId := s.nextId_act i
  numbered := by
    refine (h.of_restore.act i).restore h (s.nextId_act i) fun u hu => ?_
    obtain ⟨t, ht, hb⟩ := exists_of_mem_act hu
    exact ⟨t, ht, congrArg Prod.fst hb⟩
  of_mem u hu := by
    rw [tasks_restore] at hu ⊢
    rcases List.mem_append.1 hu with hu | hu
    · obtain ⟨t, ht, hb⟩ := exists_of_mem_act hu
      exact ⟨t, List.mem_append_left _ ht, hb⟩
    · exact ⟨u, List.mem_append_right _ hu, rfl⟩
  mem t ht x hx hg := by
    rw [tasks_restore] at ht ⊢
    rcases List.mem_append.1 ht with ht | ht
    · obtain ⟨u, hu, hb⟩ := mem_act_of_open h.of_restore i ht hx hg
      exact ⟨u, List.mem_append_left _ hu, hb⟩
    · exact ⟨t, List.mem_append_right _ ht, rfl⟩

/-- A sampler that breaks off is the only one that is there no more. -/
theorem onward_actWith_restore (h : (s.restore gs).Numbered) (hb : s.Breaks arithmetic i p v) :
    (s.restore gs).Onward ((s.actWith arithmetic i).restore (⟨i, .sampler p⟩ :: gs)) := by
  have hm : ⟨i, .sampler p⟩ ∈ s.tasks := (mem_of_acting hb.acting).1
  refine .of_perm h ?_ ?_
  · rw [tasks_restore, tasks_restore]
    have hsplit : s.tasks.Perm (⟨i, .sampler p⟩ :: s.tasks.filter (·.id != i)) := h.of_restore.perm_cons hm
    refine ((tasks_actWith hb).append_right _).trans ?_
    exact List.perm_middle.trans (hsplit.symm.append_right gs)
  · rw [actWith_of_breaks hb]
    rfl

theorem latches_actWith (hb : s.Breaks arithmetic i p v) :
    (s.actWith arithmetic i).world.latches = s.world.latches := by
  obtain ⟨-, -, rfl⟩ := Sampler.stepWith_eq_error_iff.1 hb.error
  rw [actWith_of_breaks hb]
  exact (s.world.kept_finishSample p.source).latches

end System

theorem Activation.Begins.restore {a : Activation} {s s' : System} (h : a.Begins s s') (gs : List Task) :
    a.Begins (s.restore gs) (s'.restore gs) where
  gate := h.gate
  slots := h.slots
  keys := h.keys
  keySlot := h.keySlot
  behind := h.behind
  made := h.made
  producers := by
    obtain ⟨ts, hts, hb⟩ := h.producers
    exact ⟨ts, hts, hb.restore gs⟩

/-! ## Runs -/

namespace Session.State
variable {arithmetic : Sampler.Arithmetic} {σ τ : State} {i : Nat} {e : Event} {gs : List Task}

/-- The dashboard after an event, with either kind of sums. -/
def afterWith (arithmetic : Sampler.Arithmetic) (σ : State) : Event → State
  | .act i => { σ with system := σ.system.actWith arithmetic i }
  | e => σ.after e

/-- The dashboard after events, of which the latest comes first, with either kind of sums. -/
def runWith (arithmetic : Sampler.Arithmetic) (σ : State) : List Event → State
  | [] => σ
  | e :: past => (σ.runWith arithmetic past).afterWith arithmetic e

theorem session_afterWith (arithmetic : Sampler.Arithmetic) (σ : State) (e : Event) :
    (σ.afterWith arithmetic e).session = (σ.after e).session := by
  unfold afterWith
  split <;> rfl

/-- An event is the break of a sampler, or does what it does with sums that wrap. -/
theorem afterWith_cases (arithmetic : Sampler.Arithmetic) (σ : State) (e : Event) :
    (∃ i p v, e = .act i ∧ σ.system.Breaks arithmetic i p v) ∨
      σ.afterWith arithmetic e = σ.after e ∧ ∀ i p v, e = .act i → ¬ σ.system.Breaks arithmetic i p v := by
  by_cases h : ∃ i p v, e = .act i ∧ σ.system.Breaks arithmetic i p v
  · exact .inl h
  · have hnot : ∀ i p v, e = .act i → ¬ σ.system.Breaks arithmetic i p v := fun i p v he hb => h ⟨i, p, v, he, hb⟩
    refine .inr ⟨?_, hnot⟩
    unfold afterWith
    split
    · rename_i i
      rw [System.actWith_of_not_breaks fun p v => hnot i p v rfl]
      rfl
    · rfl

/-- With sums that wrap, events and runs are those of a dashboard in which nothing breaks off. -/
theorem runWith_wrapping (σ : State) (past : List Event) : σ.runWith .wrapping past = σ.run past := by
  induction past with
  | nil => rfl
  | cons e past ih =>
    rw [runWith, run, ih]
    cases e with
    | act i => exact congrArg (State.mk (σ.run past).session) (System.actWith_wrapping _ i)
    | _ => rfl

/-- The samples that the producer of a number completed in a run, the latest first. One whose count did not fit is among
them. -/
def completed (arithmetic : Sampler.Arithmetic) (σ : State) : List Event → Nat → List Sampler.Completion
  | [], _ => []
  | e :: past, i =>
    (seen Producer.completes? i (σ.runWith arithmetic past) e).toList ++ σ.completed arithmetic past i

theorem length_completed_le (arithmetic : Sampler.Arithmetic) (σ : State) (past : List Event) (i : Nat) :
    (σ.completed arithmetic past i).length ≤ past.length := by
  induction past with
  | nil => exact Nat.le_refl _
  | cons e past ih =>
    have hone := Option.length_toList_le (o := seen Producer.completes? i (σ.runWith arithmetic past) e)
    simp only [completed, List.length_append, List.length_cons]
    omega

/-! ## The invariant -/

def restore (gs : List Task) (σ : State) : State := { σ with system := σ.system.restore gs }

theorem mem_restore {t : Task} : t ∈ (σ.restore gs).system.tasks ↔ t ∈ σ.system.tasks ∨ t ∈ gs := by
  rw [restore, System.tasks_restore, List.mem_append]

theorem Happens.restore (h : Happens σ τ e) (he : ∀ i, e ≠ .act i) (gs : List Task) :
    Happens (σ.restore gs) (τ.restore gs) e := by
  cases h with
  | act i hs ha => exact absurd rfl (he i)
  | aside hs hl ha => exact .aside (hs.restore gs) hl ha
  | begins a hn ha hs => exact .begins a hn ha (hs.restore gs)
  | ends a he ha hn ns hns hs => exact .ends a he ha hn ns hns (hs.restore gs)

/-- A dashboard of which some samplers broke off: with them it would be sound. The samplers that are there count their
failures, and all their sums fitted if they are checked; those that broke off are the others. -/
structure Whole (arithmetic : Sampler.Arithmetic) (completed : Nat → List Sampler.Completion) (σ : State)
    (gs : List Task) : Prop where
  sound : (σ.restore gs).Sound
  counts : ∀ i p, ⟨i, .sampler p⟩ ∈ σ.system.tasks →
    p.Counts (completed i) ∧ (arithmetic = .checked → Sampler.Fits (completed i))
  gone : ∀ t ∈ gs, (∃ p, t.producer = .sampler p) ∧ arithmetic = .checked ∧ ¬ Sampler.Fits (completed t.id)
  new : ∀ i, σ.system.nextId ≤ i → completed i = []

theorem Sound.restored_after (h : (σ.restore gs).Sound) (e : Event) : ((σ.after e).restore gs).Sound := by
  by_cases he : ∃ i, e = .act i
  · obtain ⟨i, rfl⟩ := he
    exact h.onward (System.onward_act_restore h.numbered i) (σ.system.kept_act i).latches rfl
  · exact h.happens ((σ.happens_after e).restore (fun i hi => he ⟨i, hi⟩) gs)

theorem seen_of_nextId_le {α : Type} (f : World → Producer → Option α) (h : σ.system.Numbered)
    (hle : σ.system.nextId ≤ i) (e : Event) : seen f i σ e = none := by
  by_cases he : e = .act i
  · have hnone : σ.system.acting i = none := by
      rw [Option.eq_none_iff_forall_ne_some]
      intro t ht
      obtain ⟨hm, hid, -⟩ := System.mem_of_acting ht
      exact absurd (hid ▸ h.lt t hm) (Nat.not_lt.2 hle)
    rw [he, seen_self, hnone, Option.bind_none]
  · exact seen_of_ne f σ he

/-- A sampler after an event: it is as it was, or the event was its own action, or it is new. -/
theorem cases_of_mem_after_sampler {q : Sampler} (hm : ⟨i, .sampler q⟩ ∈ (σ.after e).system.tasks) :
    ⟨i, .sampler q⟩ ∈ σ.system.tasks ∧ seen Producer.completes? i σ e = none ∨
      (∃ p, e = .act i ∧ σ.system.acting i = some ⟨i, .sampler p⟩ ∧ (p.step σ.system.world).2 = some q) ∨
      σ.system.nextId ≤ i ∧ q.failures = 0 ∧ seen Producer.completes? i σ e = none := by
  by_cases he : ∃ j, e = .act j
  · obtain ⟨j, rfl⟩ := he
    rcases System.cases_of_mem_act_sampler hm with ⟨hm, hother⟩ | ⟨rfl, p, hacting, hq⟩
    · refine .inl ⟨hm, ite_eq_right_iff.2 fun hij => ?_⟩
      rw [hother hij]
      rfl
    · exact .inr (.inl ⟨p, rfl, hacting, hq⟩)
  · have hseen := seen_of_ne Producer.completes? σ fun hi => he ⟨i, hi⟩
    cases σ.happens_after e with
    | act j hs ha => exact absurd ⟨j, rfl⟩ he
    | aside hs hl ha => exact .inl ⟨hs.tasks.mem_iff.1 hm, hseen⟩
    | begins a hn ha hs =>
      obtain ⟨ts, hts, hb⟩ := hs.producers
      rcases (hb.mem_iff _).1 hm with hm | hm
      · exact .inl ⟨hm, hseen⟩
      · refine .inr (.inr ⟨(hb.id_of_mem hm).1, ?_, hseen⟩)
        rcases List.mem_append.1 hm with hm | hm
        · rcases List.mem_append.1 hm with hm | hm
          · obtain ⟨x, -, -, p, hp, -, -, hzero, -⟩ := SamplerHandle.exists_handle hts hm
            rw [Producer.sampler.inj hp]
            exact hzero
          · obtain ⟨x, -, heq⟩ := List.mem_map.1 hm
            exact absurd (congrArg Task.producer heq) nofun
        · exact absurd (congrArg Task.producer (List.mem_singleton.1 hm)) nofun
    | ends a _ ha hn ns hns hs => exact .inl ⟨hs.tasks.mem_iff.1 hm, hseen⟩

theorem seen_completes? {p : Sampler} (h : σ.system.acting i = some ⟨i, .sampler p⟩) :
    seen Producer.completes? i σ (.act i) = p.completion? σ.system.world := by
  rw [seen_self, h]
  rfl

namespace Whole
variable {c : Nat → List Sampler.Completion}

theorem after (h : Whole arithmetic c σ gs)
    (hnot : ∀ i p v, e = .act i → ¬ σ.system.Breaks arithmetic i p v) :
    Whole arithmetic (fun i => (seen Producer.completes? i σ e).toList ++ c i) (σ.after e) gs where
  sound := h.sound.restored_after e
  counts := by
    intro i q hm
    rcases cases_of_mem_after_sampler hm with ⟨hm, hnone⟩ | ⟨p, rfl, hacting, hq⟩ | ⟨hle, hzero, hnone⟩
    · rw [hnone]
      exact h.counts i q hm
    · obtain ⟨hcounts, hfits⟩ := h.counts i p (System.mem_of_acting hacting).1
      rw [seen_completes? hacting]
      refine ⟨hcounts.next hq, fun hchecked => ?_⟩
      -- It would have broken off at a sum that does not fit.
      by_contra hfull
      obtain ⟨v, hv⟩ := (hcounts.breaks_iff hfits).2 ⟨hchecked, hfull⟩
      exact hnot i p v rfl ⟨hacting, hv⟩
    · rw [hnone, h.new i hle]
      exact ⟨hzero, fun _ => Sampler.fits_nil⟩
  gone t ht := by
    obtain ⟨hsampler, hchecked, hfull⟩ := h.gone t ht
    exact ⟨hsampler, hchecked, fun hfits => hfull hfits.of_append⟩
  new i hle := by
    have hbefore := Nat.le_trans (nextId_le_after σ e) hle
    rw [seen_of_nextId_le _ h.sound.numbered.of_restore hbefore, h.new i hbefore]
    rfl

theorem breaks (h : Whole arithmetic c σ gs) {p : Sampler} {v : World}
    (hb : σ.system.Breaks arithmetic i p v) :
    Whole arithmetic (fun j => (seen Producer.completes? j σ (.act i)).toList ++ c j)
      (σ.afterWith arithmetic (.act i)) (⟨i, .sampler p⟩ :: gs) where
  sound := h.sound.onward (System.onward_actWith_restore h.sound.numbered hb) (System.latches_actWith hb) rfl
  counts := by
    intro j q hm
    obtain ⟨hm, hne⟩ := List.mem_filter.1 ((System.tasks_actWith hb).mem_iff.1 hm)
    rw [seen_of_ne _ σ fun he => bne_iff_ne.1 hne (Event.act.inj he).symm]
    exact h.counts j q hm
  gone := by
    intro t ht
    rcases List.mem_cons.1 ht with rfl | ht
    · obtain ⟨hcounts, hfits⟩ := h.counts i p (System.mem_of_acting hb.acting).1
      rw [seen_completes? hb.acting]
      exact ⟨⟨p, rfl⟩, (hcounts.breaks_iff hfits).1 ⟨v, hb.error⟩⟩
    · obtain ⟨hsampler, hchecked, hfull⟩ := h.gone t ht
      exact ⟨hsampler, hchecked, fun hfits => hfull hfits.of_append⟩
  new j hle := by
    have hsame : (σ.afterWith arithmetic (.act i)).system.nextId = σ.system.nextId := by
      rw [afterWith, System.actWith_of_breaks hb]
      rfl
    rw [hsame] at hle
    rw [seen_of_nextId_le _ h.sound.numbered.of_restore hle, h.new j hle]
    rfl

end Whole

theorem exists_whole {σ₀ : State} (hnew : σ₀.IsNew) (arithmetic : Sampler.Arithmetic) (past : List Event) :
    ∃ gs, Whole arithmetic (σ₀.completed arithmetic past) (σ₀.runWith arithmetic past) gs := by
  induction past with
  | nil =>
    refine ⟨[], ?_, ?_, ?_, fun _ _ => rfl⟩
    · have hsame : restore [] σ₀ = σ₀ := by simp [restore, System.restore]
      exact (congrArg Sound hsame).mpr (.of_isNew hnew)
    · intro i p hm
      exact absurd (hnew.tasks ▸ hm) List.not_mem_nil
    · intro t ht
      exact absurd ht List.not_mem_nil
  | cons e past ih =>
    obtain ⟨gs, h⟩ := ih
    rcases afterWith_cases arithmetic (σ₀.runWith arithmetic past) e with ⟨i, p, v, rfl, hb⟩ | ⟨hsame, hnot⟩
    · exact ⟨_, h.breaks hb⟩
    · refine ⟨gs, ?_⟩
      rw [runWith, hsame]
      exact h.after hnot

/-- As long as all counts fit, it does not matter whether they are checked: what holds in all runs with sums that wrap
holds in this one. -/
theorem runWith_eq_run {σ₀ : State} (hnew : σ₀.IsNew) (arithmetic : Sampler.Arithmetic) (past : List Event)
    (hfits : arithmetic = .checked → ∀ i, Sampler.Fits (σ₀.completed arithmetic past i)) :
    σ₀.runWith arithmetic past = σ₀.run past := by
  induction past with
  | nil => rfl
  | cons e past ih =>
    have hbefore := ih fun hchecked i => (hfits hchecked i).of_append
    rcases afterWith_cases arithmetic (σ₀.runWith arithmetic past) e with ⟨i, p, v, rfl, hb⟩ | ⟨hsame, -⟩
    · obtain ⟨gs, h⟩ := exists_whole hnew arithmetic past
      obtain ⟨-, hchecked, hfull⟩ := (h.breaks hb).gone _ List.mem_cons_self
      exact absurd (hfits hchecked i) hfull
    · rw [runWith, hsame, hbefore]
      rfl

end Session.State
end Dashboard
