import Dashboard.Proofs.System.Turn
import Dashboard.Session
import Mathlib.Data.List.Forall2

/-! # What an activation starts

An activation makes a gate, and behind it one gate for each of the producers that write. It adds these producers and the
inquiry to the system, with fresh numbers, and changes no slot.

* `System.Begun`: a system with further producers.
* `System.startSampler_spec`, `System.follow_spec`: one producer more.
* `Session.startSamplers_spec`, `Session.startRelays_spec`, `Session.start_spec`: all that an activation starts.
* `Session.start_feeds`: the samplers against what the session is to sample.
-/

namespace Dashboard
set_option autoImplicit false

/-! ## Further producers -/

/-- The second system is the first one with further producers, which got the next numbers. -/
structure System.Begun (s : System) (ts : List Task) (s' : System) : Prop where
  tasks : s'.tasks.Perm (s.tasks ++ ts)
  ids : ts.map Task.id = List.range' s.nextId ts.length
  nextId : s'.nextId = s.nextId + ts.length
  board : s'.world.board = s.world.board
  shut : s'.world.latches.shut = s.world.latches.shut
  made : s.world.latches.made ≤ s'.world.latches.made
  channel : s'.world.store.channel = s.world.store.channel

namespace System

theorem Begun.refl (s : System) : s.Begun [] s :=
  ⟨by rw [List.append_nil], rfl, rfl, rfl, rfl, Nat.le_refl _, rfl⟩

theorem Begun.trans {s t u : System} {ts us : List Task} (h : s.Begun ts t) (h' : t.Begun us u) :
    s.Begun (ts ++ us) u where
  tasks := by
    rw [← List.append_assoc]
    exact h'.tasks.trans (h.tasks.append_right us)
  ids := by
    rw [List.map_append, h.ids, h'.ids, h.nextId, List.length_append, List.range'_append_1]
  nextId := by
    rw [h'.nextId, h.nextId, List.length_append, Nat.add_assoc]
  board := h'.board.trans h.board
  shut := h'.shut.trans h.shut
  made := Nat.le_trans h.made h'.made
  channel := h'.channel.trans h.channel

theorem Begun.mem_iff {s s' : System} {ts : List Task} (h : s.Begun ts s') (t : Task) :
    t ∈ s'.tasks ↔ t ∈ s.tasks ∨ t ∈ ts := by
  rw [h.tasks.mem_iff, List.mem_append]

theorem Begun.id_of_mem {s s' : System} {ts : List Task} (h : s.Begun ts s') {t : Task} (ht : t ∈ ts) :
    s.nextId ≤ t.id ∧ t.id < s'.nextId := by
  have hm : t.id ∈ ts.map Task.id := List.mem_map_of_mem ht
  rw [h.ids, List.mem_range'_1] at hm
  rw [h.nextId]
  exact hm

theorem Numbered.begun {s s' : System} {ts : List Task} (hs : s.Numbered) (h : s.Begun ts s') :
    s'.Numbered := by
  refine ⟨?_, ?_⟩
  · intro t ht
    rcases (h.mem_iff t).1 ht with ht | ht
    · have hlt := hs.lt t ht
      rw [h.nextId]
      omega
    · exact (h.id_of_mem ht).2
  · rw [(h.tasks.map Task.id).nodup_iff, List.map_append, List.nodup_append, h.ids]
    refine ⟨hs.nodup, List.nodup_range', ?_⟩
    intro a ha b hb hab
    obtain ⟨t, ht, rfl⟩ := List.mem_map.1 ha
    have hlt := hs.lt t ht
    rw [List.mem_range'_1] at hb
    omega

theorem Begun.note {s t : System} {ts : List Task} (h : s.Begun ts t) (n : Notice) :
    s.Begun ts (t.note n) :=
  ⟨h.tasks, h.ids, h.nextId, h.board, h.shut, h.made, h.channel⟩

theorem Begun.narrow {s t : System} {ts : List Task} (h : s.Begun ts t) (x : Writer) :
    s.Begun ts (t.narrow x).2 :=
  ⟨h.tasks, h.ids, h.nextId, h.board, h.shut, Nat.le_succ_of_le h.made, h.channel⟩

/-- The gate of an activation is made before anything is started. -/
theorem begun_rootGate (s : System) : s.Begun [] ({ s with world := s.world.rootGate.2 }.note .activates) := by
  refine ⟨?_, rfl, rfl, rfl, rfl, Nat.le_succ _, rfl⟩
  rw [List.append_nil]
  exact .refl _

theorem begun_spawn (s : System) (p : Producer) : s.Begun [⟨s.nextId, p⟩] (s.spawn p).2 := by
  refine ⟨?_, rfl, rfl, rfl, rfl, Nat.le_refl _, rfl⟩
  unfold spawn tasks
  simp only [List.append_assoc]
  exact List.perm_append_comm.append_left _

/-- The gate of the next producer behind a gate. -/
def gateBehind (g : Gate) (s : System) : Gate := ⟨s.world.latches.made, g.latches, g.activation⟩

theorem startSampler_spec (source period : Nat) (fallback : Fallback) (x : Writer) (s : System) :
    ∃ name,
      (s.startSampler source period fallback x).1 = ⟨name, ⟨x.slot, s.gateBehind x.gate⟩, s.nextId⟩ ∧
      s.Begun [⟨s.nextId, .sampler
        { name, source, period := Ticker.period period, fallback
          writer := ⟨x.slot, s.gateBehind x.gate⟩ }⟩]
        (s.startSampler source period fallback x).2 ∧
      s.world.latches.made < (s.startSampler source period fallback x).2.world.latches.made := by
  let name := (s.world.sources[source]?.map Source.name).getD ""
  let noted := (if period = 0 then s.note (.zeroPeriod name) else s).note
    (.samplerStarts name x.slot (Ticker.period period))
  let p : Producer := .sampler
    { name, source, period := Ticker.period period, fallback, writer := ⟨x.slot, s.gateBehind x.gate⟩ }
  have heq : s.startSampler source period fallback x =
      (⟨name, ⟨x.slot, s.gateBehind x.gate⟩, s.nextId⟩, ((noted.narrow x).2.spawn p).2) := by
    by_cases hp : period = 0
    · simp only [startSampler, noted, p, name, hp, if_true]
      rfl
    · simp only [startSampler, noted, p, name, hp, if_false]
      rfl
  have hnoted : s.Begun [] noted := by
    refine Begun.note ?_ _
    split
    · exact (Begun.refl s).note _
    · exact .refl s
  have hnarrow : s.Begun [] (noted.narrow x).2 := hnoted.narrow x
  rw [heq]
  refine ⟨name, rfl, ?_, ?_⟩
  · have hspawn := hnarrow.trans (begun_spawn _ p)
    rwa [hnarrow.nextId] at hspawn
  · exact Nat.lt_succ_of_le hnoted.made

theorem follow_spec (key : Setting) (x : Writer) (s : System) :
    (s.follow key x).1 = ⟨key, ⟨x.slot, s.gateBehind x.gate⟩, s.nextId⟩ ∧
      s.Begun [⟨s.nextId, .relay
        { key, writer := ⟨x.slot, s.gateBehind x.gate⟩, seen := (s.world.store.channel key).version }⟩]
        (s.follow key x).2 ∧
      s.world.latches.made < (s.follow key x).2.world.latches.made :=
  ⟨rfl, (((Begun.refl s).note (.subscribes key)).narrow x).trans (begun_spawn _ _), Nat.lt_succ_self _⟩

end System

/-! ## All that an activation starts -/

/-- The task is the sampler of the handle, which has done nothing yet and falls back to what its slot is given. -/
def SamplerHandle.Begins (h : SamplerHandle) (t : Task) : Prop :=
  t.id = h.task ∧ ∃ p : Sampler, t.producer = .sampler p ∧ p.writer = h.writer ∧ p.phase = .fresh ∧
    p.failures = 0 ∧ p.fallback = .forSlot p.writer.slot

theorem SamplerHandle.exists_begins {hs : List SamplerHandle} {ts : List Task}
    (h : List.Forall₂ Begins hs ts) {x : SamplerHandle} (hx : x ∈ hs) : ∃ t ∈ ts, x.Begins t := by
  induction h with
  | nil => exact absurd hx List.not_mem_nil
  | cons hb _ ih =>
    rcases List.mem_cons.1 hx with rfl | hx
    · exact ⟨_, List.mem_cons_self, hb⟩
    · obtain ⟨t, ht, hbt⟩ := ih hx
      exact ⟨t, List.mem_cons_of_mem _ ht, hbt⟩

theorem SamplerHandle.exists_handle {hs : List SamplerHandle} {ts : List Task}
    (h : List.Forall₂ Begins hs ts) {t : Task} (ht : t ∈ ts) : ∃ x ∈ hs, x.Begins t := by
  induction h with
  | nil => exact absurd ht List.not_mem_nil
  | cons hb _ ih =>
    rcases List.mem_cons.1 ht with rfl | ht
    · exact ⟨_, List.mem_cons_self, hb⟩
    · obtain ⟨x, hx, hbx⟩ := ih ht
      exact ⟨x, List.mem_cons_of_mem _ hx, hbx⟩

/-- The relay of the handle, which has done nothing yet, and knows what the store holds. -/
def RelayHandle.fresh (store : Setting.Store) (h : RelayHandle) : Task :=
  ⟨h.task, .relay { key := h.key, writer := h.writer, seen := (store.channel h.key).version }⟩

/-- The second gate is right behind the first one, and was made between two moments. -/
structure Gate.MadeBehind (g c : Gate) (l m : Latches) : Prop where
  above : c.above = g.latches
  le : l.made ≤ c.latch
  lt : c.latch < m.made

theorem Gate.MadeBehind.mono {g c : Gate} {l m l' m' : Latches} (h : g.MadeBehind c l m)
    (hl : l'.made ≤ l.made) (hm : m.made ≤ m'.made) : g.MadeBehind c l' m' :=
  ⟨h.above, Nat.le_trans hl h.le, Nat.lt_of_lt_of_le h.lt hm⟩

namespace Session

theorem startSamplers_spec (gate : Gate) (feeds : List (Slot × Feed)) (s : System) :
    ∃ ts, s.Begun ts (startSamplers gate feeds s).2 ∧
      List.Forall₂ SamplerHandle.Begins (startSamplers gate feeds s).1 ts ∧
      (startSamplers gate feeds s).1.map (·.writer.slot) = feeds.map Prod.fst ∧
      ∀ h ∈ (startSamplers gate feeds s).1,
        gate.MadeBehind h.writer.gate s.world.latches (startSamplers gate feeds s).2.world.latches := by
  induction feeds generalizing s with
  | nil => exact ⟨[], .refl s, .nil, rfl, by simp [startSamplers]⟩
  | cons feed feeds ih =>
    obtain ⟨slot, feed⟩ := feed
    obtain ⟨name, hh, hb, hmade⟩ :=
      System.startSampler_spec feed.source feed.period (.forSlot slot) ⟨slot, gate⟩ s
    obtain ⟨ts, hbs, hts, hslots, hgates⟩ :=
      ih (s.startSampler feed.source feed.period (.forSlot slot) ⟨slot, gate⟩).2
    simp only [startSamplers]
    refine ⟨_, hb.trans hbs, .cons ?_ hts, ?_, ?_⟩
    · rw [hh]
      exact ⟨rfl, _, rfl, rfl, rfl, rfl, rfl⟩
    · rw [List.map_cons, List.map_cons, hh, hslots]
    · intro h hm
      rcases List.mem_cons.1 hm with rfl | hm
      · rw [hh]
        exact ⟨rfl, Nat.le_refl _, Nat.lt_of_lt_of_le hmade hbs.made⟩
      · exact (hgates h hm).mono hb.made (Nat.le_refl _)

theorem startRelays_spec (gate : Gate) (keys : List Setting) (s : System) :
    s.Begun ((startRelays gate keys s).1.map (RelayHandle.fresh s.world.store)) (startRelays gate keys s).2 ∧
      (startRelays gate keys s).1.map RelayHandle.key = keys ∧
      ∀ h ∈ (startRelays gate keys s).1, h.writer.slot = h.key.slot ∧
        gate.MadeBehind h.writer.gate s.world.latches (startRelays gate keys s).2.world.latches := by
  induction keys generalizing s with
  | nil => exact ⟨.refl s, rfl, by simp [startRelays]⟩
  | cons key keys ih =>
    obtain ⟨hh, hb, hmade⟩ := System.follow_spec key ⟨key.slot, gate⟩ s
    obtain ⟨hbs, hkeys, hgates⟩ := ih (s.follow key ⟨key.slot, gate⟩).2
    simp only [startRelays]
    refine ⟨?_, by rw [List.map_cons, hh, hkeys], ?_⟩
    · exact hb.trans hbs
    · intro h hm
      rcases List.mem_cons.1 hm with rfl | hm
      · rw [hh]
        exact ⟨rfl, rfl, Nat.le_refl _, Nat.lt_of_lt_of_le hmade hbs.made⟩
      · exact ⟨(hgates h hm).1, (hgates h hm).2.mono hb.made (Nat.le_refl _)⟩

end Session

/-- The producers of an activation that write, by their numbers, with their writers. -/
def Activation.posts (a : Activation) : List (Nat × Writer) :=
  a.samplers.map (fun h => (h.task, h.writer)) ++ a.relays.map fun h => (h.task, h.writer)

def Activation.tasks (a : Activation) : List Nat := a.posts.map Prod.fst ++ [a.inquiry]

def Activation.asks (a : Activation) : Task :=
  ⟨a.inquiry, .inquiry { gate := a.gate, reconcilers := a.relays.map RelayHandle.reconciler }⟩

/-- The second system is the first one with all that the activation starts. -/
structure Activation.Begins (a : Activation) (s s' : System) : Prop where
  gate : a.gate = ⟨s.world.latches.made, [], s.world.latches.made⟩
  slots : a.samplers.map (·.writer.slot) = [.server, .runStatus, .validationStatus]
  keys : a.relays.map RelayHandle.key = Setting.all
  keySlot : ∀ h ∈ a.relays, h.writer.slot = h.key.slot
  behind : ∀ x ∈ a.posts, a.gate.MadeBehind x.2.gate s.world.latches s'.world.latches
  made : s.world.latches.made < s'.world.latches.made
  producers : ∃ ts, List.Forall₂ SamplerHandle.Begins a.samplers ts ∧
    s.Begun (ts ++ a.relays.map (RelayHandle.fresh s.world.store) ++ [a.asks]) s'

theorem System.Begun.holdStore {s t : System} {ts : List Task} (h : s.Begun ts t) :
    s.Begun ts (t.onWorld World.holdStore) := by
  refine ⟨(t.tasks_onWorld _).trans h.tasks, h.ids, h.nextId, h.board, h.shut, h.made, ?_⟩
  rw [← h.channel]
  funext k
  cases k <;> rfl

/-- What an activation starts, once it is known which samplers and relays. -/
theorem Session.start_eq {d : Session} {s s₁ s₂ : System} {samplers : List SamplerHandle}
    {relays : List RelayHandle}
    (hx : startSamplers s.world.rootGate.1 d.feeds
      ({ s with world := s.world.rootGate.2 }.note .activates) = (samplers, s₁))
    (hy : startRelays s.world.rootGate.1 Setting.all s₁ = (relays, s₂)) (a : Activation)
    (ha : a = ⟨s.world.rootGate.1, samplers, relays, s₂.nextId⟩) :
    d.start s = (a, ((s₂.onWorld World.holdStore).spawn a.asks.producer).2) := by
  unfold start
  simp only [hx]
  simp only [hy]
  rw [ha]
  rfl

theorem Session.start_spec (d : Session) (s : System) : (d.start s).1.Begins s (d.start s).2 := by
  let g : Gate := s.world.rootGate.1
  let s₀ : System := { s with world := s.world.rootGate.2 }.note .activates
  have h₀ : s.Begun [] s₀ := s.begun_rootGate
  have hmade : s.world.latches.made < s₀.world.latches.made := Nat.lt_succ_self _
  obtain ⟨ts, hb, hts, hslots, hgates⟩ := startSamplers_spec g d.feeds s₀
  rcases hsamplers : startSamplers g d.feeds s₀ with ⟨samplers, s₁⟩
  rw [hsamplers] at hb hts hslots hgates
  obtain ⟨hb', hkeys, hgates'⟩ := startRelays_spec g Setting.all s₁
  rcases hrelays : startRelays g Setting.all s₁ with ⟨relays, s₂⟩
  rw [hrelays] at hb' hkeys hgates'
  let a : Activation := ⟨g, samplers, relays, s₂.nextId⟩
  let held : System := s₂.onWorld World.holdStore
  have hheld : s.Begun ([] ++ (ts ++ relays.map (RelayHandle.fresh s₁.world.store))) held :=
    (h₀.trans (hb.trans hb')).holdStore
  have hall : s.Begun (ts ++ relays.map (RelayHandle.fresh s₁.world.store) ++ [a.asks])
      (held.spawn a.asks.producer).2 :=
    hheld.trans (held.begun_spawn a.asks.producer)
  -- Starting the samplers changed no setting, so the relays know what the store held before.
  have hfresh : RelayHandle.fresh s₁.world.store = RelayHandle.fresh s.world.store := by
    funext h
    rw [RelayHandle.fresh, RelayHandle.fresh, hb.channel]
    rfl
  rw [hfresh] at hall
  rw [start_eq hsamplers hrelays a rfl]
  refine ⟨rfl, hslots, hkeys, ?_, ?_, ?_, ts, hts, hall⟩
  · intro h hm
    exact (hgates' h hm).1
  · intro x hx
    rcases List.mem_append.1 hx with hx | hx
    · obtain ⟨h, hm, rfl⟩ := List.mem_map.1 hx
      exact (hgates h hm).mono (Nat.le_of_lt hmade) hb'.made
    · obtain ⟨h, hm, rfl⟩ := List.mem_map.1 hx
      exact (hgates' h hm).2.mono (Nat.le_trans (Nat.le_of_lt hmade) hb.made) (Nat.le_refl _)
  · exact Nat.lt_of_lt_of_le hmade (Nat.le_trans hb.made hb'.made)

/-! ## Samplers and what they sample -/

/-- What a task samples if it is a sampler: the source and the period, for its slot. -/
def Task.feed? (t : Task) : Option (Slot × Feed) :=
  match t.producer with
  | .sampler p => some (p.writer.slot, ⟨p.source, p.period⟩)
  | _ => none

/-- The feed at the period that is used for the one asked for. -/
def Feed.used (x : Feed) : Feed := { x with period := Ticker.period x.period }

namespace Session

theorem startSamplers_feeds (gate : Gate) (feeds : List (Slot × Feed)) (s : System) :
    ∃ ts, s.Begun ts (startSamplers gate feeds s).2 ∧
      ts.filterMap Task.feed? = feeds.map fun x => (x.1, x.2.used) := by
  induction feeds generalizing s with
  | nil => exact ⟨[], .refl s, rfl⟩
  | cons x feeds ih =>
    obtain ⟨slot, feed⟩ := x
    obtain ⟨name, -, hb, -⟩ := System.startSampler_spec feed.source feed.period (.forSlot slot) ⟨slot, gate⟩ s
    obtain ⟨ts, hbs, hts⟩ := ih (s.startSampler feed.source feed.period (.forSlot slot) ⟨slot, gate⟩).2
    exact ⟨_, hb.trans hbs, congrArg (_ :: ·) hts⟩

/-- The samplers of an activation are those for the feeds of the session, each at its period. -/
theorem start_feeds (d : Session) (s : System) :
    ∃ ts, s.Begun ts (d.start s).2 ∧ ts.filterMap Task.feed? = d.feeds.map fun x => (x.1, x.2.used) := by
  let g : Gate := s.world.rootGate.1
  let s₀ : System := { s with world := s.world.rootGate.2 }.note .activates
  obtain ⟨ts, hb, hts⟩ := startSamplers_feeds g d.feeds s₀
  rcases hsamplers : startSamplers g d.feeds s₀ with ⟨samplers, s₁⟩
  rw [hsamplers] at hb
  obtain ⟨hb', -, -⟩ := startRelays_spec g Setting.all s₁
  rcases hrelays : startRelays g Setting.all s₁ with ⟨relays, s₂⟩
  rw [hrelays] at hb'
  let a : Activation := ⟨g, samplers, relays, s₂.nextId⟩
  have hheld : s.Begun (ts ++ relays.map (RelayHandle.fresh s₁.world.store)) (s₂.onWorld World.holdStore) :=
    (s.begun_rootGate.trans (hb.trans hb')).holdStore
  have hrelays' : (relays.map (RelayHandle.fresh s₁.world.store)).filterMap Task.feed? = [] := by
    rw [List.filterMap_map]
    exact List.filterMap_eq_nil_iff.2 fun _ _ => rfl
  rw [start_eq hsamplers hrelays a rfl]
  refine ⟨_, hheld.trans ((s₂.onWorld World.holdStore).begun_spawn a.asks.producer), ?_⟩
  rw [List.filterMap_append, List.filterMap_append, hts, hrelays', List.append_nil]
  exact List.append_nil _

end Session

namespace Activation.Begins
variable {a : Activation} {s s' : System}

theorem tasks_eq (h : a.Begins s s') : a.tasks = List.range' s.nextId a.tasks.length := by
  obtain ⟨ts, hts, hb⟩ := h.producers
  have hids : ts.map Task.id = a.samplers.map SamplerHandle.task := by
    rw [eq_comm, ← List.forall₂_eq_eq_eq, List.forall₂_map_left_iff, List.forall₂_map_right_iff]
    exact hts.imp fun _ _ hb => hb.1.symm
  have hall : a.tasks = (ts ++ a.relays.map (RelayHandle.fresh s.world.store) ++ [a.asks]).map Task.id := by
    simp [tasks, posts, hids, asks, RelayHandle.fresh, Function.comp_def]
  rw [hall, hb.ids, List.length_range']

theorem nextId_eq (h : a.Begins s s') : s'.nextId = s.nextId + a.tasks.length := by
  obtain ⟨ts, hts, hb⟩ := h.producers
  rw [hb.nextId]
  simp [tasks, posts, hts.length_eq]

end Activation.Begins
end Dashboard
