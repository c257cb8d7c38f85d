import Dashboard.Proofs.Session.AtWork
import Mathlib.Data.List.Lattice
import Mathlib.Data.List.Pairwise

/-! # Several activations at once

An activation that was taken out of its session goes on until its gate is closed, and another one may be started in
between. Each of them has latches and producers of its own, so closing the gate of one leaves the others as they are.

* `Activation.latches`, `Activation.Apart`: what belongs to one activation, and two that share nothing.
* `Activation.Running.begun`, `Activation.Running.closes`: the start and the end of another activation.
* `System.Underway`: the activations whose gates are open, with one lemma for each thing that may happen.
* `System.Underway.atWork_writes`: each slot has as many open producers as activations are under way.
-/

namespace Dashboard
set_option autoImplicit false

theorem System.Closes.isClosed_iff {ns : List Nat} {s s' : System} (h : s.Closes ns s') (g : Gate) :
    s'.world.latches.isClosed g = true ↔
      (∃ n ∈ g.latches, n ∈ ns) ∨ s.world.latches.isClosed g = true := by
  simp only [Latches.isClosed_iff, h.shut, and_or_left, exists_or]

/-! ## Activations -/

namespace Activation
variable {a b : Activation} {s s' : System}

/-- The latches that an activation made: the one of its gate, and those of its producers. -/
def latches (a : Activation) : List Nat := a.gate.latch :: a.posts.map fun x => x.2.gate.latch

theorem latch_mem_latches {x : Nat × Writer} (hx : x ∈ a.posts) : x.2.gate.latch ∈ a.latches :=
  List.mem_cons_of_mem _ (List.mem_map_of_mem hx)

/-- Nobody but the activation itself made the latches that its gates look at. -/
structure Rooted (a : Activation) : Prop where
  gate : ∀ n ∈ a.gate.latches, n ∈ a.latches
  posts : ∀ x ∈ a.posts, ∀ n ∈ x.2.gate.latches, n ∈ a.latches

/-- Two activations that share neither a producer nor a latch. -/
structure Apart (a b : Activation) : Prop where
  tasks : a.tasks.Disjoint b.tasks
  latches : a.latches.Disjoint b.latches

instance : Std.Symm Apart := ⟨fun _ _ h => ⟨List.disjoint_symm h.tasks, List.disjoint_symm h.latches⟩⟩

theorem Begins.latches_made (h : a.Begins s s') {n : Nat} (hn : n ∈ a.latches) :
    s.world.latches.made ≤ n := by
  rcases List.mem_cons.1 hn with rfl | hn
  · exact Nat.le_of_eq (congrArg Gate.latch h.gate).symm
  · obtain ⟨x, hx, rfl⟩ := List.mem_map.1 hn
    exact (h.behind x hx).le

theorem Begins.tasks_new (h : a.Begins s s') {i : Nat} (hi : i ∈ a.tasks) : s.nextId ≤ i := by
  rw [h.tasks_eq, List.mem_range'_1] at hi
  exact hi.1

theorem Rooted.of_begins (h : a.Begins s s') : a.Rooted := by
  have hgate : ∀ n ∈ a.gate.latches, n ∈ a.latches := by
    intro n hn
    have habove : a.gate.above = [] := by rw [h.gate]
    rw [Gate.latches, habove, List.mem_singleton] at hn
    rw [hn]
    exact List.mem_cons_self
  refine ⟨hgate, ?_⟩
  intro x hx n hn
  rcases List.mem_cons.1 hn with rfl | hn
  · exact latch_mem_latches hx
  · rw [(h.behind x hx).above] at hn
    exact hgate n hn

namespace Running

theorem lt_made (h : a.Running s) {n : Nat} (hn : n ∈ a.latches) : n < s.world.latches.made := by
  rcases List.mem_cons.1 hn with rfl | hn
  · exact h.made
  · obtain ⟨x, hx, rfl⟩ := List.mem_map.1 hn
    exact (h.posts x hx).1

/-- What begins later has latches and numbers that were not given out before. -/
theorem apart (h : b.Running s) (ha : a.Begins s s') : a.Apart b := by
  refine ⟨?_, ?_⟩
  · intro i hi hib
    have hnew := ha.tasks_new hi
    have hold := h.lt i hib
    omega
  · intro n hn hnb
    have hnew := ha.latches_made hn
    have hold := h.lt_made hnb
    omega

/-- Further producers leave a running activation as it is. -/
theorem begun {ts : List Task} (h : a.Running s) (hb : s.Begun ts s') : a.Running s' where
  made := Nat.lt_of_lt_of_le h.made hb.made
  isOpen := by rw [Latches.isClosed_congr hb.shut, h.isOpen]
  posts x hx := by
    rw [Latches.isClosed_congr hb.shut]
    exact ⟨Nat.lt_of_lt_of_le (h.posts x hx).1 hb.made, (h.posts x hx).2⟩
  lt i hi := by
    have hlt := h.lt i hi
    rw [hb.nextId]
    omega
  samplers x hx := by
    obtain ⟨t, ht, hrest⟩ := h.samplers x hx
    exact ⟨t, (hb.mem_iff t).2 (.inl ht), hrest⟩
  relays x hx := by
    obtain ⟨t, ht, hrest⟩ := h.relays x hx
    exact ⟨t, (hb.mem_iff t).2 (.inl ht), hrest⟩
  inquiry t ht hid := by
    rcases (hb.mem_iff t).1 ht with ht | ht
    · exact h.inquiry t ht hid
    · have hnew := (hb.id_of_mem ht).1
      have hold := h.lt _ a.inquiry_mem_tasks
      omega

/-- Shutting the latches of another activation leaves a running one as it is. -/
theorem closes {ns : List Nat} (h : a.Running s) (ha : a.Rooted) (hs : s.Closes ns s')
    (hother : ∀ n ∈ ns, n ∉ a.latches) : a.Running s' := by
  have hkeeps (g : Gate) (hg : ∀ n ∈ g.latches, n ∈ a.latches)
      (ho : s.world.latches.isClosed g = false) : s'.world.latches.isClosed g = false := by
    rw [← Bool.not_eq_true, hs.isClosed_iff, ho]
    rintro (⟨n, hn, hns⟩ | hc)
    · exact hother n hns (hg n hn)
    · exact Bool.false_ne_true hc
  refine ⟨?_, hkeeps _ ha.gate h.isOpen, ?_, ?_, ?_, ?_, ?_⟩
  · rw [hs.made]
    exact h.made
  · intro x hx
    rw [hs.made]
    exact ⟨(h.posts x hx).1, hkeeps _ (ha.posts x hx) (h.posts x hx).2⟩
  · intro i hi
    rw [hs.nextId]
    exact h.lt i hi
  · intro x hx
    obtain ⟨t, ht, hrest⟩ := h.samplers x hx
    exact ⟨t, hs.tasks.mem_iff.2 ht, hrest⟩
  · intro x hx
    obtain ⟨t, ht, hrest⟩ := h.relays x hx
    exact ⟨t, hs.tasks.mem_iff.2 ht, hrest⟩
  · intro t ht
    exact h.inquiry t (hs.tasks.mem_iff.1 ht)

theorem exists_of_post (h : a.Running s) {x : Nat × Writer} (hx : x ∈ a.posts) :
    ∃ t ∈ s.tasks, t.id = x.1 ∧ t.producer.role.writer? = some x.2 := by
  rcases List.mem_append.1 hx with hx | hx
  · obtain ⟨y, hy, rfl⟩ := List.mem_map.1 hx
    obtain ⟨t, ht, hid, source, period, fallback, hrole⟩ := h.samplers y hy
    exact ⟨t, ht, hid, by rw [hrole]; rfl⟩
  · obtain ⟨y, hy, rfl⟩ := List.mem_map.1 hx
    obtain ⟨t, ht, hid, hrole⟩ := h.relays y hy
    exact ⟨t, ht, hid, by rw [hrole]; rfl⟩

end Running

/-- The number of the producer that writes a slot. -/
def writerOf? (slot : Slot) (a : Activation) : Option Nat :=
  (a.posts.find? fun x => x.2.slot == slot).map Prod.fst

theorem WellFormed.writerOf?_iff (ha : a.WellFormed) {slot : Slot} {i : Nat} :
    a.writerOf? slot = some i ↔ ∃ x, (i, x) ∈ a.posts ∧ x.slot = slot := by
  rw [writerOf?, Option.map_eq_some_iff]
  constructor
  · rintro ⟨⟨j, x⟩, hx, rfl⟩
    exact ⟨x, List.mem_of_find?_eq_some hx, beq_iff_eq.1 (List.find?_some hx :)⟩
  · rintro ⟨x, hx, rfl⟩
    have hsome : (a.posts.find? fun y => y.2.slot == x.slot).isSome = true :=
      List.find?_isSome.2 ⟨_, hx, beq_self_eq_true _⟩
    obtain ⟨y, hy⟩ := Option.isSome_iff_exists.1 hsome
    have hslot : y.2.slot = x.slot := beq_iff_eq.1 (List.find?_some hy :)
    rw [ha.eq_of_slot (List.mem_of_find?_eq_some hy) hx hslot] at hy
    exact ⟨_, hy, rfl⟩

theorem WellFormed.exists_writerOf? (ha : a.WellFormed) (slot : Slot) :
    (a.writerOf? slot).isSome = true := by
  have hslot : slot ∈ a.posts.map fun x => x.2.slot := ha.slots_posts ▸ slot.mem_all
  obtain ⟨⟨i, x⟩, hx, hs⟩ := List.mem_map.1 hslot
  exact Option.isSome_iff_exists.2 ⟨i, ha.writerOf?_iff.2 ⟨x, hx, hs⟩⟩

theorem WellFormed.writerOf?_mem_tasks (ha : a.WellFormed) {slot : Slot} {i : Nat}
    (h : a.writerOf? slot = some i) : i ∈ a.tasks := by
  obtain ⟨x, hx, -⟩ := ha.writerOf?_iff.1 h
  exact mem_tasks_of_mem_posts hx

end Activation

/-! ## Activations under way -/

/-- The role of a producer that writes a slot. -/
def Producer.Role.writes (slot : Slot) (r : Producer.Role) : Bool := r.writer?.any fun x => x.slot == slot

theorem Producer.Role.writes_iff {slot : Slot} {r : Producer.Role} :
    r.writes slot = true ↔ ∃ x, r.writer? = some x ∧ x.slot = slot := by
  cases h : r.writer? <;> simp [writes, h]

/-- The activations of a list run, each with latches and producers of its own, and a producer whose gate is not closed is
one of theirs. -/
structure System.Underway (as : List Activation) (s : System) : Prop where
  numbered : s.Numbered
  latches : s.world.latches.Sound
  held : ∀ t ∈ s.tasks, s.world.latches.isClosed t.producer.role.gate = true ∨ ∃ a ∈ as, t.id ∈ a.tasks
  wellFormed : ∀ a ∈ as, a.WellFormed
  rooted : ∀ a ∈ as, a.Rooted
  running : ∀ a ∈ as, a.Running s
  apart : as.Pairwise Activation.Apart

namespace System.Underway
variable {as bs : List Activation} {a : Activation} {s s' : System}

theorem perm (h : s.Underway as) (hp : as.Perm bs) : s.Underway bs where
  numbered := h.numbered
  latches := h.latches
  held t ht := (h.held t ht).imp_right fun ⟨a, ha, hi⟩ => ⟨a, hp.mem_iff.1 ha, hi⟩
  wellFormed a ha := h.wellFormed a (hp.mem_iff.2 ha)
  rooted a ha := h.rooted a (hp.mem_iff.2 ha)
  running a ha := h.running a (hp.mem_iff.2 ha)
  apart := h.apart.perm hp (Std.Symm.symm _ _)

theorem onward (h : s.Underway as) (ho : s.Onward s') (hl : s'.world.latches = s.world.latches) :
    s'.Underway as where
  numbered := ho.numbered
  latches := hl ▸ h.latches
  held u hu := by
    obtain ⟨t, ht, hb⟩ := ho.of_mem u hu
    have hid : t.id = u.id := congrArg Prod.fst hb
    have hrole : t.producer.role = u.producer.role := congrArg Prod.snd hb
    rw [hl, ← hid, ← hrole]
    exact h.held t ht
  wellFormed := h.wellFormed
  rooted := h.rooted
  running a ha := (h.running a ha).onward ho hl
  apart := h.apart

theorem begins (h : s.Underway as) (ha : a.Begins s s') : s'.Underway (a :: as) := by
  obtain ⟨hnum, hrun⟩ := Activation.Running.of_begins ha h.numbered h.latches
  obtain ⟨ts, hts, hb⟩ := ha.producers
  refine ⟨hnum, ?_, ?_, ?_, ?_, ?_, ?_⟩
  · intro n hm
    rw [hb.shut] at hm
    exact Nat.lt_trans (h.latches n hm) ha.made
  · intro t ht
    rcases (hb.mem_iff t).1 ht with ht | ht
    · rw [Latches.isClosed_congr hb.shut]
      exact (h.held t ht).imp_right fun ⟨b, hm, hi⟩ => ⟨b, List.mem_cons_of_mem _ hm, hi⟩
    · refine .inr ⟨a, List.mem_cons_self, ?_⟩
      have hid := hb.id_of_mem ht
      rw [ha.tasks_eq, List.mem_range'_1, ← ha.nextId_eq]
      exact hid
  · exact List.forall_mem_cons.2 ⟨.of_begins ha, h.wellFormed⟩
  · exact List.forall_mem_cons.2 ⟨.of_begins ha, h.rooted⟩
  · exact List.forall_mem_cons.2 ⟨hrun, fun b hm => (h.running b hm).begun hb⟩
  · exact List.pairwise_cons.2 ⟨fun b hm => (h.running b hm).apart ha, h.apart⟩

/-- The end of one activation, which shuts its gate and perhaps other latches of it. -/
theorem ends {ns : List Nat} (h : s.Underway (a :: as)) (hs : s.Closes ns s') (hg : a.gate.latch ∈ ns)
    (hns : ∀ n ∈ ns, n ∈ a.latches) : s'.Underway as where
  numbered := h.numbered.of_perm hs.tasks hs.nextId
  latches n hm := by
    rw [hs.made]
    rcases (hs.shut n).1 hm with hm | hm
    · exact (h.running a List.mem_cons_self).lt_made (hns n hm)
    · exact h.latches n hm
  held t ht := by
    rw [hs.tasks.mem_iff] at ht
    rw [hs.isClosed_iff]
    rcases h.held t ht with hc | ⟨b, hb, hi⟩
    · exact .inl (.inr hc)
    · rcases List.mem_cons.1 hb with rfl | hb
      · -- Every gate of an activation is behind the one that was just shut.
        have hlatch := (h.running b List.mem_cons_self).latch_mem (h.wellFormed b List.mem_cons_self)
          h.numbered ht hi
        exact .inl (.inl ⟨_, hlatch, hg⟩)
      · exact .inr ⟨b, hb, hi⟩
  wellFormed b hb := h.wellFormed b (List.mem_cons_of_mem _ hb)
  rooted b hb := h.rooted b (List.mem_cons_of_mem _ hb)
  running b hb := by
    refine (h.running b (List.mem_cons_of_mem _ hb)).closes (h.rooted b (List.mem_cons_of_mem _ hb)) hs ?_
    intro n hn hnb
    exact ((List.pairwise_cons.1 h.apart).1 b hb).latches (hns n hn) hnb
  apart := (List.pairwise_cons.1 h.apart).2

theorem eq_of_mem_tasks (h : s.Underway as) {a b : Activation} (ha : a ∈ as) (hb : b ∈ as) {i : Nat}
    (hia : i ∈ a.tasks) (hib : i ∈ b.tasks) : a = b := by
  by_contra hne
  exact (h.apart.forall ha hb hne).tasks hia hib

theorem isOpen (h : s.Underway as) (ha : a ∈ as) : s.world.latches.isOpen a.gate = true :=
  (Latches.isOpen_iff _ _).2 (h.running a ha).isOpen

/-- An action leaves the board alone, or it is one call of `Board.set` by a producer of an activation under way. -/
theorem board_act (h : s.Underway as) (i : Nat) : (s.act i).world.board = s.world.board ∨
    ∃ a ∈ as, ∃ x, (i, x) ∈ a.posts ∧
      ∃ now status, (s.act i).world.board = (s.world.board.set now x.slot status).2 := by
  rcases s.written_act i with hb | ⟨t, ht, rfl, x, hx, hb | ⟨hg, now, status, hb⟩⟩
  · exact .inl hb
  · exact .inl hb
  · rcases h.held t ht with hc | ⟨a, ha, hi⟩
    · rw [Producer.Role.gate_of_writer? hx, hg] at hc
      exact absurd hc Bool.false_ne_true
    · exact .inr ⟨a, ha, x, (h.running a ha).mem_posts h.numbered ht hi hx, now, status, hb⟩

/-- The open producers of a slot are those of the activations under way. -/
theorem exists_writes_iff (h : s.Underway as) {slot : Slot} {i : Nat} :
    (∃ t ∈ s.tasks, t.id = i ∧ t.producer.role.writes slot = true ∧
      s.world.latches.isOpen t.producer.role.gate = true) ↔ ∃ a ∈ as, a.writerOf? slot = some i := by
  constructor
  · rintro ⟨t, ht, rfl, hwrites, ho⟩
    obtain ⟨x, hx, hslot⟩ := Producer.Role.writes_iff.1 hwrites
    rw [Latches.isOpen_iff] at ho
    rcases h.held t ht with hc | ⟨a, ha, hi⟩
    · exact absurd (ho.symm.trans hc) Bool.false_ne_true
    · have hpost := (h.running a ha).mem_posts h.numbered ht hi hx
      exact ⟨a, ha, (h.wellFormed a ha).writerOf?_iff.2 ⟨x, hpost, hslot⟩⟩
  · rintro ⟨a, ha, hi⟩
    obtain ⟨x, hx, hslot⟩ := (h.wellFormed a ha).writerOf?_iff.1 hi
    obtain ⟨t, ht, hid, hw⟩ := (h.running a ha).exists_of_post hx
    refine ⟨t, ht, hid, Producer.Role.writes_iff.2 ⟨x, hw, hslot⟩, ?_⟩
    rw [Latches.isOpen_iff, Producer.Role.gate_of_writer? hw]
    exact ((h.running a ha).posts _ hx).2

theorem nodup_writers (h : s.Underway as) (slot : Slot) :
    (as.filterMap (Activation.writerOf? slot)).Nodup := by
  have hboth : as.Pairwise fun a b => a.WellFormed ∧ b.WellFormed ∧ a.Apart b :=
    h.apart.imp_of_mem fun ha hb hab => ⟨h.wellFormed _ ha, h.wellFormed _ hb, hab⟩
  refine hboth.filterMap _ ?_
  rintro a b ⟨hwa, hwb, hab⟩ i hi j hj rfl
  exact hab.tasks (hwa.writerOf?_mem_tasks hi) (hwb.writerOf?_mem_tasks hj)

/-- Each slot has as many open producers as activations are under way. -/
theorem atWork_writes (h : s.Underway as) (slot : Slot) :
    s.atWork (Producer.Role.writes slot) = as.length := by
  let works (t : Task) : Bool :=
    t.producer.role.writes slot && s.world.latches.isOpen t.producer.role.gate
  have hall : (as.filterMap (Activation.writerOf? slot)).length = as.length := by
    rw [List.length_filterMap_eq_countP, List.countP_eq_length]
    intro a ha
    exact (h.wellFormed a ha).exists_writerOf? slot
  have hids : ((s.tasks.filter works).map Task.id).Nodup :=
    h.numbered.nodup.sublist (List.filter_sublist.map Task.id)
  have hperm : ((s.tasks.filter works).map Task.id).Perm (as.filterMap (Activation.writerOf? slot)) := by
    refine (List.perm_ext_iff_of_nodup hids (h.nodup_writers slot)).2 fun i => ?_
    rw [List.mem_filterMap, ← h.exists_writes_iff, List.mem_map]
    simp only [works, List.mem_filter, Bool.and_eq_true]
    constructor
    · rintro ⟨t, ⟨ht, hworks⟩, hid⟩
      exact ⟨t, ht, hid, hworks⟩
    · rintro ⟨t, ht, hid, hworks⟩
      exact ⟨t, ⟨ht, hworks⟩, hid⟩
  rw [atWork, List.countP_eq_length_filter, ← hall, ← hperm.length_eq, List.length_map]

end System.Underway
end Dashboard
