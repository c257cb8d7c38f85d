import Dashboard.Proofs.Producer.Role
import Mathlib.Data.List.Nodup
import Mathlib.Data.List.Perm.Basic

/-! # Turns of producers

Waking and reporting move producers about and fill their mailboxes; only an action of a producer changes the world, and
only of that producer. All that is said here about the producers of a system holds up to their order.

* `Task.receive`, `Task.receiveAll`: a producer with the reports that were meant for it.
* `System.send_spec`, `System.acted`: what sending a report and what one action do.
* `System.Numbered`: every producer has a number of its own that was given out before.
* `System.exists_of_mem_act`, `System.mem_act_of_open`: an action adds no producer, and takes none away that has an open
  gate to write through.
-/

namespace Dashboard
set_option autoImplicit false

/-! ## Reports -/

namespace Task

/-- The producer after a report, which only the producer of the right number keeps. -/
def receive (r : Reconciler) (t : Task) : Task :=
  if t.id = r.relay then { t with producer := t.producer.withReport } else t

def receiveAll (rs : List Reconciler) (t : Task) : Task := rs.foldl (fun t r => t.receive r) t

theorem receiveAll_cons (r : Reconciler) (rs : List Reconciler) (t : Task) :
    t.receiveAll (r :: rs) = (t.receive r).receiveAll rs := rfl

/-- The number and the role of a producer. -/
def badge (t : Task) : Nat × Producer.Role := (t.id, t.producer.role)

@[simp] theorem badge_receive (r : Reconciler) (t : Task) : (t.receive r).badge = t.badge := by
  unfold receive
  split
  · simp [badge]
  · rfl

@[simp] theorem badge_receiveAll (rs : List Reconciler) (t : Task) : (t.receiveAll rs).badge = t.badge := by
  induction rs generalizing t with
  | nil => rfl
  | cons r rs ih => exact (ih (t.receive r)).trans (t.badge_receive r)

theorem id_receiveAll (rs : List Reconciler) (t : Task) : (t.receiveAll rs).id = t.id :=
  congrArg Prod.fst (t.badge_receiveAll rs)

theorem receive_of_ne {r : Reconciler} {t : Task} (h : t.id ≠ r.relay) : t.receive r = t := if_neg h

theorem receiveAll_relay (rs : List Reconciler) (i : Nat) (p : Relay) :
    receiveAll rs ⟨i, .relay p⟩ =
      ⟨i, .relay { p with reports := p.reports + rs.countP fun r => r.relay = i }⟩ := by
  induction rs generalizing p with
  | nil => rfl
  | cons r rs ih =>
    by_cases h : i = r.relay
    · subst h
      have hr : receive r ⟨r.relay, .relay p⟩ =
          ⟨r.relay, .relay { p with reports := p.reports + 1 }⟩ := if_pos rfl
      have hcount : (r :: rs).countP (fun r' => r'.relay = r.relay) =
          rs.countP (fun r' => r'.relay = r.relay) + 1 := by
        simp
      rw [receiveAll_cons, hr, ih, hcount, Nat.add_assoc, Nat.add_comm 1]
    · rw [receiveAll_cons, receive_of_ne h, ih]
      simp [Ne.symm h]

end Task

/-! ## Waking and sending -/

namespace System
variable (s : System)

theorem tasks_rouse : s.rouse.tasks.Perm s.tasks := by
  unfold rouse tasks
  rw [List.append_assoc]
  exact (List.filter_append_perm _ _).append_left _

theorem tasks_onWorld (f : World → World) : (s.onWorld f).tasks.Perm s.tasks :=
  tasks_rouse { s with world := f s.world }

/-- A report reaches the producer of its number, if it is still there, and leaves at most a notice. -/
theorem send_spec (r : Reconciler) : (s.send r).tasks.Perm (s.tasks.map (Task.receive r)) ∧
    (s.send r).nextId = s.nextId ∧ ∃ j, (s.send r).world = { s.world with journal := j } := by
  cases h : s.isAlive r.relay with
  | true =>
    have hsend : s.send r = rouse { s with
        awake := s.awake.map (Task.receive r)
        resting := s.resting.map (Task.receive r) } := by
      simp only [send, h, if_true]
      rfl
    rw [hsend]
    refine ⟨?_, rfl, s.world.journal, rfl⟩
    refine (tasks_rouse _).trans ?_
    rw [tasks, tasks, List.map_append]
  | false =>
    have hother : ∀ t ∈ s.tasks, t.receive r = t := by
      intro t ht
      rw [isAlive, List.any_eq_false] at h
      exact Task.receive_of_ne (by simpa using h t ht)
    have hmap : s.tasks.map (Task.receive r) = s.tasks := (List.map_congr_left hother).trans (List.map_id _)
    rw [hmap]
    have hsend : s.send r = s.note (.absentUndelivered r.key) := by simp [send, h]
    rw [hsend]
    exact ⟨.refl _, rfl, _, rfl⟩

theorem sends_spec (rs : List Reconciler) :
    (rs.foldl send s).tasks.Perm (s.tasks.map (Task.receiveAll rs)) ∧
    (rs.foldl send s).nextId = s.nextId ∧ ∃ j, (rs.foldl send s).world = { s.world with journal := j } := by
  induction rs generalizing s with
  | nil =>
    have hid : s.tasks.map (Task.receiveAll []) = s.tasks := List.map_id _
    exact ⟨by rw [hid]; exact .refl _, rfl, s.world.journal, rfl⟩
  | cons r rs ih =>
    obtain ⟨ht, hn, j, hw⟩ := s.send_spec r
    obtain ⟨ht', hn', j', hw'⟩ := ih (s.send r)
    refine ⟨?_, hn'.trans hn, j', by rw [List.foldl_cons, hw', hw]⟩
    have hmap : s.tasks.map (Task.receiveAll (r :: rs)) =
        (s.tasks.map (Task.receive r)).map (Task.receiveAll rs) := by
      rw [List.map_map]
      rfl
    rw [hmap]
    exact ht'.trans (ht.map _)

/-! ## Actions -/

/-- What is left of the producers after an action of one of them: that one unless it came to its end, and all others. -/
def afterStep (t : Task) (next : Option Producer) : List Task :=
  (next.toList.map fun p => ⟨t.id, p⟩) ++ s.tasks.filter (·.id != t.id)

theorem tasks_place (t : Task) : (s.place t).tasks.Perm (t :: s.tasks) := by
  unfold place
  split
  · exact .refl _
  · unfold tasks
    rw [← List.append_assoc]
    exact List.perm_append_singleton _ _

theorem world_place (t : Task) : (s.place t).world = s.world := by
  unfold place
  split <;> rfl

theorem nextId_place (t : Task) : (s.place t).nextId = s.nextId := by
  unfold place
  split <;> rfl

/-- The producer of a number, if it is there and can act. -/
def acting (i : Nat) (s : System) : Option Task :=
  (s.tasks.find? (·.id == i)).filter fun t => t.producer.isReady s.world

theorem mem_of_acting {s : System} {i : Nat} {t : Task} (h : s.acting i = some t) :
    t ∈ s.tasks ∧ t.id = i ∧ t.producer.isReady s.world = true := by
  obtain ⟨hf, hr⟩ := Option.filter_eq_some_iff.1 h
  exact ⟨List.mem_of_find?_eq_some hf, by simpa using List.find?_some hf, hr⟩

theorem act_of_none {s : System} {i : Nat} (h : s.acting i = none) : s.act i = s := by
  cases hf : s.tasks.find? (·.id == i) with
  | none => simp [act, hf]
  | some t =>
    have hr : t.producer.isReady s.world = false := by simpa [acting, hf] using h
    simp [act, hf, hr]

/-- The system after the next step of a producer: its reports are delivered, and it is gone if it came to its end. -/
structure Acted (s : System) (t : Task) (s' : System) : Prop where
  tasks : s'.tasks.Perm
    ((s.afterStep t (t.producer.step s.world).2.1).map (Task.receiveAll (t.producer.step s.world).2.2))
  nextId : s'.nextId = s.nextId
  world : ∃ journal, s'.world = { (t.producer.step s.world).1 with journal }

theorem acted {s : System} {i : Nat} {t : Task} (h : s.acting i = some t) : s.Acted t (s.act i) := by
  obtain ⟨hf, hr⟩ := Option.filter_eq_some_iff.1 h
  have hi : t.id = i := (mem_of_acting h).2.1
  rcases hstep : t.producer.step s.world with ⟨world, next, reports⟩
  have hleft : ({ s with world }.remove i).tasks = s.tasks.filter (·.id != t.id) := by
    simp [remove, tasks, hi]
  cases next with
  | none =>
    have hact : s.act i = reports.foldl send ({ s with world }.remove i).rouse := by
      simp [act, hf, hr, hstep]
    obtain ⟨ht, hn, hw⟩ := sends_spec ({ s with world }.remove i).rouse reports
    rw [hact]
    refine ⟨?_, hn, by rw [hstep]; exact hw⟩
    rw [hstep, afterStep, ← hleft]
    exact ht.trans ((tasks_rouse _).map _)
  | some p =>
    have hact : s.act i = reports.foldl send (({ s with world }.remove i).place ⟨i, p⟩).rouse := by
      simp [act, hf, hr, hstep]
    obtain ⟨ht, hn, j, hw⟩ := sends_spec (({ s with world }.remove i).place ⟨i, p⟩).rouse reports
    rw [hact]
    refine ⟨?_, hn.trans (nextId_place _ _), j, ?_⟩
    · rw [hstep, afterStep, ← hleft, hi]
      exact ht.trans (((tasks_rouse _).trans (tasks_place _ _)).map _)
    · rw [hw, hstep, world_rouse, world_place]
      rfl

theorem nextId_act (i : Nat) : (s.act i).nextId = s.nextId := by
  cases h : s.acting i with
  | none => rw [act_of_none h]
  | some t => exact (acted h).nextId

/-! ## Who is there -/

/-- Every producer has a number of its own that was given out before. -/
structure Numbered : Prop where
  lt : ∀ t ∈ s.tasks, t.id < s.nextId
  nodup : (s.tasks.map Task.id).Nodup

variable {s}

theorem Numbered.eq_of_id (h : s.Numbered) {t u : Task} (ht : t ∈ s.tasks) (hu : u ∈ s.tasks)
    (hid : t.id = u.id) : t = u :=
  List.inj_on_of_nodup_map h.nodup ht hu hid

theorem Numbered.of_perm (h : s.Numbered) {s' : System} (ht : s'.tasks.Perm s.tasks)
    (hn : s'.nextId = s.nextId) : s'.Numbered := by
  refine ⟨?_, (ht.map Task.id).nodup_iff.2 h.nodup⟩
  intro t hm
  rw [hn]
  exact h.lt t (ht.mem_iff.1 hm)

theorem mem_afterStep {t u : Task} {next : Option Producer} :
    u ∈ s.afterStep t next ↔ (∃ p, next = some p ∧ u = ⟨t.id, p⟩) ∨ u ∈ s.tasks ∧ u.id ≠ t.id := by
  cases next with
  | none => simp [afterStep]
  | some p => simp [afterStep]

theorem exists_of_mem_act {i : Nat} {u : Task} (h : u ∈ (s.act i).tasks) :
    ∃ t ∈ s.tasks, t.badge = u.badge := by
  cases hacting : s.acting i with
  | none => exact ⟨u, act_of_none hacting ▸ h, rfl⟩
  | some t =>
    have ht := (mem_of_acting hacting).1
    obtain ⟨v, hv, rfl⟩ := List.mem_map.1 ((acted hacting).tasks.mem_iff.1 h)
    rw [Task.badge_receiveAll]
    rcases mem_afterStep.1 hv with ⟨p, hnext, rfl⟩ | ⟨hv, -⟩
    · exact ⟨t, ht, by simp [Task.badge, Producer.role_step hnext]⟩
    · exact ⟨v, hv, rfl⟩

/-- An action takes no producer away that has an open gate to write through. -/
theorem mem_act_of_open (hs : s.Numbered) (i : Nat) {t : Task} (ht : t ∈ s.tasks) {x : Writer}
    (hx : t.producer.role.writer? = some x) (hg : s.world.latches.isClosed x.gate = false) :
    ∃ u ∈ (s.act i).tasks, u.badge = t.badge := by
  cases hacting : s.acting i with
  | none => exact ⟨t, by rwa [act_of_none hacting], rfl⟩
  | some v =>
    have hv := (mem_of_acting hacting).1
    have hleft : ∃ u ∈ s.afterStep v (v.producer.step s.world).2.1, u.badge = t.badge := by
      by_cases hid : t.id = v.id
      · obtain rfl := hs.eq_of_id ht hv hid
        cases hnext : (t.producer.step s.world).2.1 with
        | none =>
          have hclosed := Producer.isClosed_of_last hx hnext
          rw [Producer.Role.gate_of_writer? hx, hg] at hclosed
          exact absurd hclosed Bool.false_ne_true
        | some p =>
          refine ⟨⟨t.id, p⟩, mem_afterStep.2 (.inl ⟨p, rfl, rfl⟩), ?_⟩
          simp [Task.badge, Producer.role_step hnext]
      · exact ⟨t, mem_afterStep.2 (.inr ⟨ht, hid⟩), rfl⟩
    obtain ⟨u, hu, hb⟩ := hleft
    refine ⟨u.receiveAll _, (acted hacting).tasks.mem_iff.2 (List.mem_map_of_mem hu), ?_⟩
    rw [Task.badge_receiveAll, hb]

theorem Numbered.act (h : s.Numbered) (i : Nat) : (s.act i).Numbered := by
  cases hacting : s.acting i with
  | none => rwa [act_of_none hacting]
  | some t =>
    refine ⟨?_, ?_⟩
    · intro u hu
      obtain ⟨v, hv, hb⟩ := exists_of_mem_act hu
      have hid : v.id = u.id := congrArg Prod.fst hb
      rw [nextId_act, ← hid]
      exact h.lt v hv
    · have hids (rs : List Reconciler) (ts : List Task) :
          (ts.map (Task.receiveAll rs)).map Task.id = ts.map Task.id := by
        rw [List.map_map]
        exact List.map_congr_left fun u _ => Task.id_receiveAll rs u
      rw [((acted hacting).tasks.map Task.id).nodup_iff, hids, afterStep, List.map_append]
      have hrest : ((s.tasks.filter (·.id != t.id)).map Task.id).Nodup :=
        h.nodup.sublist (List.filter_sublist.map Task.id)
      cases (t.producer.step s.world).2.1 with
      | none => exact hrest
      | some p =>
        refine List.nodup_cons.2 ⟨?_, hrest⟩
        intro hm
        obtain ⟨u, hu, hid⟩ := List.mem_map.1 hm
        exact absurd hid (by simpa using (List.mem_filter.1 hu).2)

/-! ## What an action changes in the world -/

theorem kept_act (s : System) (i : Nat) : World.Kept s.world (s.act i).world := by
  cases hacting : s.acting i with
  | none =>
    rw [act_of_none hacting]
    exact .refl _
  | some t =>
    obtain ⟨journal, hw⟩ := (acted hacting).world
    have hkept := t.producer.kept_step s.world
    rw [hw]
    exact ⟨hkept.now, hkept.latches, hkept.channel⟩

/-- An action leaves the board alone, or it is one call of `Board.set` by the producer of that number. -/
theorem written_act (s : System) (i : Nat) : (s.act i).world.board = s.world.board ∨
    ∃ t ∈ s.tasks, t.id = i ∧ ∃ x, t.producer.role.writer? = some x ∧
      World.Written x s.world (s.act i).world := by
  cases hacting : s.acting i with
  | none =>
    rw [act_of_none hacting]
    exact .inl rfl
  | some t =>
    obtain ⟨ht, hi, -⟩ := mem_of_acting hacting
    obtain ⟨journal, hw⟩ := (acted hacting).world
    rw [hw]
    rcases t.producer.written_step s.world with hb | ⟨x, hx, h⟩
    · exact .inl hb
    · exact .inr ⟨t, ht, hi, x, hx, h⟩

end System
end Dashboard
