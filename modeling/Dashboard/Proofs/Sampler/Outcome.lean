import Dashboard.Proofs.Sampler.Streak
import Dashboard.Proofs.Session.AtWork

/-! # The law of outcomes

What a sampler leaves in its slot is decided by the outcomes of its samples: by the last one that had an effect while the
gate was open. A failure has an effect only if the slot has something to fall back to, and a status of the wrong kind has
none.

Lists of completed samples have the latest first.

* `Slot.effect?`: the status that the outcome of a sample puts into a slot.
* `Sampler.effects`: the statuses that completed samples put on the board.
* `Sampler.board_record`: what one outcome does to the board.
* `Sampler.Course`: the samples that a sampler completes, in a world that may change around it.
* `Sampler.outcome_law`: the slot, its count and the revision after every course, with either kind of sums.
-/

namespace Dashboard
set_option autoImplicit false

/-- The status that the outcome of a sample puts into a slot. The server is down when it cannot be asked; the other slots
keep their rows. -/
def Slot.effect? : Slot → Except Failure Status → Option Status
  | .server, .ok (.label text) => some (.label text)
  | .server, .error _ => some .down
  | .runStatus, .ok (.table rows) => some (.table rows)
  | .validationStatus, .ok (.table rows) => some (.table rows)
  | _, _ => none

theorem Slot.accepts_of_effect? {slot : Slot} {outcome : Except Failure Status} {s : Status}
    (h : slot.effect? outcome = some s) : Board.accepts slot s = true := by
  rw [Board.accepts_iff]
  unfold Slot.effect? at h
  split at h
  all_goals first | exact absurd h (Option.some_ne_none s).symm | (rw [← Option.some.inj h]; rfl)

/-- A board after the effect of a sample, if it has one. -/
def Board.shows (now : Nat) (slot : Slot) (effect : Option Status) (b : Board) : Board :=
  effect.elim b fun s => (b.set now slot s).2

/-- A status of the wrong kind leaves the board as it is, and has no effect. -/
theorem Board.set_eq_shows (b : Board) (now : Nat) {slot : Slot} (hslot : slot ∈ Slot.sampled)
    (status : Status) : (b.set now slot status).2 = b.shows now slot (slot.effect? (.ok status)) := by
  cases slot <;> first | (cases status <;> rfl) | exact absurd hslot (by decide)

namespace Sampler

/-! ## What one outcome does -/

def Completion.effect? (slot : Slot) (c : Completion) : Option Status :=
  if c.inTime then slot.effect? c.outcome else none

/-- The statuses that completed samples put into a slot. -/
def effects (slot : Slot) (cs : List Completion) : List Status := cs.filterMap (Completion.effect? slot)

theorem completion?_eq (w : World) (p : Sampler) : p.completion? w =
    if p.isSampling then some ⟨(w.finishSample p.source).1, w.latches.isOpen p.writer.gate⟩ else none := by
  unfold completion? isSampling
  cases p.phase <;> rfl

theorem exists_phase_of_isSampling {p : Sampler} (h : p.isSampling = true) :
    ∃ ends due, p.phase = .sampling ends due := by
  unfold isSampling at h
  split at h
  · exact ⟨_, _, ‹_›⟩
  · exact absurd h Bool.false_ne_true

/-- A sampler that falls back as its slot is to, which is one of those that are sampled. -/
structure Serves (slot : Slot) (p : Sampler) : Prop where
  writes : p.writer.slot = slot
  sampled : slot ∈ Slot.sampled
  fallback : p.fallback = .forSlot slot

theorem Serves.board_record {slot : Slot} {p : Sampler} (h : p.Serves slot)
    (outcome : Except Failure Status) (w : World) :
    (p.record outcome w).1.board =
      w.board.shows w.now slot (Completion.effect? slot ⟨outcome, w.latches.isOpen p.writer.gate⟩) := by
  obtain ⟨rfl, hsampled, hfallback⟩ := h
  have hwrite (v : World) (hv : v.latches = w.latches) (hb : v.board = w.board) (hn : v.now = w.now)
      (s : Status) (hs : (w.board.set w.now p.writer.slot s).2 =
        w.board.shows w.now p.writer.slot (p.writer.slot.effect? outcome)) :
      (v.write p.writer s).2.board = w.board.shows w.now p.writer.slot
        (Completion.effect? p.writer.slot ⟨outcome, w.latches.isOpen p.writer.gate⟩) := by
    rw [World.board_write, hv, hb, hn, Completion.effect?, Latches.isOpen_eq_not_isClosed]
    cases w.latches.isClosed p.writer.gate with
    | true => rfl
    | false => exact hs
  cases outcome with
  | ok status =>
    refine hwrite _ ?_ ?_ ?_ status (w.board.set_eq_shows w.now hsampled status)
    all_goals split <;> rfl
  | error failure =>
    have heffect (s : Slot) : (Fallback.forSlot s).status? = s.effect? (.error failure) := by
      cases s <;> rfl
    have hstatus : p.fallback.status? = p.writer.slot.effect? (.error failure) := by
      rw [hfallback, heffect]
    cases hs : p.writer.slot.effect? (.error failure) with
    | none => simp [record, hstatus, hs, Completion.effect?, Board.shows]
    | some s =>
      simp only [record, hstatus, hs]
      exact hwrite (w.note _) rfl rfl rfl s (by rw [hs]; rfl)

/-! ## Courses -/

/-- What one action does to a sampler and to its world. -/
theorem board_step {slot : Slot} {w : World} {p : Sampler} (h : p.Serves slot) :
    (p.step w).1.board =
      w.board.shows w.now slot ((p.completion? w).bind (Completion.effect? slot)) := by
  unfold step completion?
  cases hp : p.phase with
  | fresh => rfl
  | resting due =>
    dsimp only
    split
    · rfl
    · exact w.board_beginSample p.source
  | sampling ends due =>
    have hkept := w.kept_finishSample p.source
    have hboard := w.board_finishSample p.source
    exact (h.board_record _ _).trans (by rw [hkept.latches, hkept.now, hboard]; rfl)

/-- From a world and a sampler on, the samples that were completed, and the number of writes of others. In between time
passes, sources answer what they like, other slots are written, and the gate may be closed, but never opened again. -/
inductive Course (arithmetic : Arithmetic) (w₀ : World) (p₀ : Sampler) :
    List Completion → Nat → World → Sampler → Prop
  | start : Course arithmetic w₀ p₀ [] 0 w₀ p₀
  | act {cs : List Completion} {n : Nat} {w v : World} {p q : Sampler} (h : Course arithmetic w₀ p₀ cs n w p)
      (hr : p.isReady w = true) (hq : p.stepWith arithmetic w = .ok (v, some q)) :
      Course arithmetic w₀ p₀ ((p.completion? w).toList ++ cs) n v q
  | aside {cs : List Completion} {n : Nat} {w v : World} {p : Sampler} (k : Nat)
      (h : Course arithmetic w₀ p₀ cs n w p)
      (hs : v.board.tracked p.writer.slot = w.board.tracked p.writer.slot)
      (hk : v.board.revision = w.board.revision + k)
      (hg : w.latches.isClosed p.writer.gate = true → v.latches.isClosed p.writer.gate = true) :
      Course arithmetic w₀ p₀ cs (n + k) v p

/-- What a board says after some effects in a slot and some writes of others. -/
structure Accounted (slot : Slot) (b₀ : Board) (effects : List Status) (others : Nat) (b : Board) : Prop where
  content : b.get slot = effects.head?.or (b₀.get slot)
  updates : (b.tracked slot).updates = (b₀.tracked slot).updates + effects.length
  revision : b.revision = b₀.revision + effects.length + others

theorem Accounted.shows {slot : Slot} {b₀ b : Board} {effects : List Status} {others : Nat}
    (h : Accounted slot b₀ effects others b) (now : Nat) {effect : Option Status}
    (he : ∀ s, effect = some s → Board.accepts slot s = true) :
    Accounted slot b₀ (effect.toList ++ effects) others (b.shows now slot effect) := by
  cases effect with
  | none => exact h
  | some s =>
    have hset : b.shows now slot (some s) = (b.store now slot s).publish :=
      congrArg Prod.snd (Board.set_of_accepts b now (he s rfl))
    rw [hset]
    refine ⟨?_, ?_, ?_⟩
    · simp [Board.get, Tracked.written]
    · have hu := h.updates
      simp only [Board.tracked_publish, Board.tracked_store_self, Tracked.written, Option.toList_some,
        List.length_append, List.length_singleton]
      omega
    · have hr := h.revision
      simp only [Board.publish, Board.store, Option.toList_some, List.length_append, List.length_singleton]
      omega

namespace Course
variable {arithmetic : Arithmetic} {w₀ w : World} {p₀ p : Sampler} {cs : List Completion} {n : Nat}

theorem run (h : Course arithmetic w₀ p₀ cs n w p) : Run arithmetic p₀ cs w p := by
  induction h with
  | start => exact .start w₀
  | act h hr hq ih => exact ih.act hr hq
  | aside k h hs hk hg ih => exact ih.aside _

theorem serves {slot : Slot} (h : Course arithmetic w₀ p₀ cs n w p) (hs : p₀.Serves slot) : p.Serves slot := by
  induction h with
  | start => exact hs
  | act h hr hq ih =>
    obtain ⟨failures, phase, rfl⟩ := step_snd (step_of_stepWith hq).2
    exact ⟨ih.writes, ih.sampled, ih.fallback⟩
  | aside k h hsame hk hg ih => exact ih

theorem accounted {slot : Slot} (h : Course arithmetic w₀ p₀ cs n w p) (hs : p₀.Serves slot) :
    Accounted slot w₀.board (effects slot cs) n w.board := by
  induction h with
  | start => exact ⟨rfl, rfl, rfl⟩
  | @act cs n w v p q h hr hq ih =>
    rw [← (step_of_stepWith hq).1, board_step (h.serves hs)]
    have heffects : effects slot ((p.completion? w).toList ++ cs) =
        ((p.completion? w).bind (Completion.effect? slot)).toList ++ effects slot cs := by
      cases hc : p.completion? w with
      | none => rfl
      | some c => cases he : Completion.effect? slot c <;> simp [effects, he]
    rw [heffects]
    apply ih.shows
    intro s he
    obtain ⟨c, -, hc⟩ := Option.bind_eq_some_iff.1 he
    unfold Completion.effect? at hc
    split at hc
    · exact Slot.accepts_of_effect? hc
    · exact absurd hc (Option.some_ne_none s).symm
  | @aside cs n w v p k h hsame hk hg ih =>
    rw [(h.serves hs).writes] at hsame
    refine ⟨?_, ?_, ?_⟩
    · rw [Board.get, hsame]
      exact ih.content
    · rw [hsame]
      exact ih.updates
    · rw [hk, ih.revision]
      omega

/-- The samples in time come first, and at most one is completed behind the closed gate. -/
theorem exists_late (h : Course arithmetic w₀ p₀ cs n w p) : ∃ late intime, cs = late ++ intime ∧
    (∀ c ∈ intime, c.inTime = true) ∧ (∀ c ∈ late, c.inTime = false) ∧
    late.length + p.isSampling.toNat ≤ 1 ∧
    (w.latches.isOpen p.writer.gate = true → late = []) := by
  induction h with
  | start =>
    exact ⟨[], [], rfl, by simp, by simp, by simpa using Bool.toNat_le _, fun _ => rfl⟩
  | @act cs n w v p q h hr hq ih =>
    obtain ⟨late, intime, rfl, hin, hlate, hone, hopen⟩ := ih
    obtain ⟨rfl, hstep⟩ := step_of_stepWith hq
    have hgate : (p.step w).1.latches.isOpen q.writer.gate = w.latches.isOpen p.writer.gate := by
      obtain ⟨failures, phase, rfl⟩ := step_snd hstep
      rw [(p.kept_step w).latches]
    rw [hgate]
    cases hs : p.isSampling with
    | false =>
      refine ⟨late, intime, by simp [completion?_eq, hs], hin, hlate, ?_, hopen⟩
      cases hqs : q.isSampling with
      | false => simpa [hs] using hone
      | true =>
        have hnone := hopen ((Latches.isOpen_iff _ _).2 (isSampling_of_step hstep hqs).1)
        simp [hnone]
    | true =>
      have hqs : q.isSampling = false := by
        rw [← Bool.not_eq_true]
        intro hqs
        rw [(isSampling_of_step hstep hqs).2] at hs
        exact absurd hs Bool.false_ne_true
      have hnone : late = [] := by simpa [hs] using hone
      subst hnone
      let c : Completion := ⟨(w.finishSample p.source).1, w.latches.isOpen p.writer.gate⟩
      have hc : p.completion? w = some c := by simp [completion?_eq, hs, c]
      cases ho : w.latches.isOpen p.writer.gate with
      | true =>
        refine ⟨[], c :: intime, by rw [hc]; rfl, ?_, by simp, by simp [hqs], fun _ => rfl⟩
        exact List.forall_mem_cons.2 ⟨ho, hin⟩
      | false =>
        refine ⟨[c], intime, by rw [hc]; rfl, hin, ?_, by simp [hqs], fun h => absurd h Bool.false_ne_true⟩
        exact List.forall_mem_cons.2 ⟨ho, by simp⟩
  | @aside cs n w v p k h hsame hk hg ih =>
    obtain ⟨late, intime, hcs, hin, hlate, hone, hopen⟩ := ih
    refine ⟨late, intime, hcs, hin, hlate, hone, fun ho => hopen ?_⟩
    rw [Latches.isOpen_iff, ← Bool.not_eq_true] at ho ⊢
    exact fun hc => ho (hg hc)

/-! ## Which courses there are -/

theorem elapse (h : Course arithmetic w₀ p₀ cs n w p) (now : Nat) (sources : List Source) :
    Course arithmetic w₀ p₀ cs n { w with now, sources } p := h.aside 0 rfl rfl id

/-- A sampler that rests behind an open gate can begin a sample. -/
theorem exists_begin (h : Course arithmetic w₀ p₀ cs n w p) (hp : ∃ due, p.phase = .resting due)
    (ho : w.latches.isOpen p.writer.gate = true) : ∃ v q, Course arithmetic w₀ p₀ cs n v q ∧
      q.isSampling = true ∧ v.latches.isOpen q.writer.gate = true := by
  obtain ⟨due, hp⟩ := hp
  let v : World := { w with now := due }
  have hclosed : v.latches.isClosed p.writer.gate = false := (Latches.isOpen_iff _ _).1 ho
  obtain ⟨q, hq⟩ := exists_next hclosed
  have hnone : p.completion? v = none := by simp [completion?, hp]
  have hact := (h.elapse due w.sources).act (by simp [isReady, hp]) (stepWith_of_no_completion hnone hq)
  rw [hnone] at hact
  refine ⟨_, q, hact, by simp [isSampling, phase_step hq, hp], ?_⟩
  obtain ⟨failures, phase, rfl⟩ := step_snd hq
  rw [(p.kept_step v).latches]
  exact ho

/-- A sample that is under way may come to its end with any outcome. -/
theorem exists_answer (h : Course arithmetic w₀ p₀ cs n w p) (hs : p.isSampling = true)
    (outcome : Except Failure Status) : ∃ v, Course arithmetic w₀ p₀ cs n v p ∧ p.isReady v = true ∧
      v.latches = w.latches ∧ p.completion? v = some ⟨outcome, w.latches.isOpen p.writer.gate⟩ := by
  obtain ⟨ends, due, hp⟩ := exists_phase_of_isSampling hs
  let answering : List Source := List.replicate (p.source + 1) (.cycling "" [outcome] 0)
  let v : World := { w with now := ends, sources := answering }
  have houtcome : (v.finishSample p.source).1 = outcome := by
    simp [World.finishSample, v, answering, Source.outcome]
  refine ⟨v, h.elapse ends answering, by simp [isReady, hp, v], rfl, ?_⟩
  simp [completion?, hp, houtcome, v]

/-- Whatever a sample that is under way may answer, the sampler rests afterwards, unless its count does not fit. -/
theorem exists_finish (h : Course arithmetic w₀ p₀ cs n w p) (hn : p₀.failures = 0) (hs : p.isSampling = true)
    (outcome : Except Failure Status)
    (hfits : arithmetic = .checked → Fits (⟨outcome, w.latches.isOpen p.writer.gate⟩ :: cs)) :
    ∃ v q, Course arithmetic w₀ p₀ (⟨outcome, w.latches.isOpen p.writer.gate⟩ :: cs) n v q ∧
      (∃ due, q.phase = .resting due) ∧
      v.latches.isOpen q.writer.gate = w.latches.isOpen p.writer.gate := by
  obtain ⟨v, hv, hr, hlatches, hc⟩ := h.exists_answer hs outcome
  obtain ⟨due, hstep⟩ := step_of_completion hc
  have hq := congrArg Prod.snd hstep
  have hok := (hv.run.counts hn).stepWith_eq_ok (w := v) (by rwa [hc])
  have hact := hv.act hr (hok.trans (congrArg Except.ok (Prod.ext rfl hq)))
  rw [hc] at hact
  refine ⟨_, _, hact, ⟨due, rfl⟩, ?_⟩
  obtain ⟨failures, phase, hsame⟩ := step_snd hq
  rw [(p.kept_step v).latches, hlatches, hsame]

theorem exists_close (h : Course arithmetic w₀ p₀ cs n w p) :
    ∃ v, Course arithmetic w₀ p₀ cs n v p ∧ v.latches.isOpen p.writer.gate = false := by
  have hclosed : (w.latches.close p.writer.gate).isClosed p.writer.gate = true :=
    (Latches.isClosed_close _ _ _).2 (.inl List.mem_cons_self)
  refine ⟨w.close p.writer.gate, h.aside 0 rfl rfl fun _ => hclosed, ?_⟩
  rw [Latches.isOpen_eq_not_isClosed, World.close, hclosed]
  rfl

/-- Samples may have any outcomes in any order. -/
theorem exists_outcomes (hn : p₀.failures = 0) (hp : p₀.phase = .fresh)
    (ho : w₀.latches.isOpen p₀.writer.gate = true) (outcomes : List (Except Failure Status))
    (hfits : arithmetic = .checked → Fits (outcomes.map (⟨·, true⟩))) :
    ∃ w p, Course arithmetic w₀ p₀ (outcomes.map (⟨·, true⟩)) 0 w p ∧ (∃ due, p.phase = .resting due) ∧
      w.latches.isOpen p.writer.gate = true := by
  induction outcomes with
  | nil =>
    have hstep : p₀.step w₀ = (w₀, some { p₀ with phase := .resting w₀.now }) := by simp [step, hp]
    have hnone : p₀.completion? w₀ = none := by simp [completion?, hp]
    have hstart : Course arithmetic w₀ p₀ [] 0 w₀ p₀ := .start
    have hact := hstart.act (isReady_fresh hp) (stepWith_of_no_completion hnone (congrArg Prod.snd hstep))
    rw [hnone, hstep] at hact
    exact ⟨w₀, _, hact, ⟨_, rfl⟩, ho⟩
  | cons outcome outcomes ih =>
    obtain ⟨w, p, h, hrest, ho⟩ := ih fun hchecked => (hfits hchecked).of_suffix (List.suffix_cons _ _)
    obtain ⟨v, q, hbegun, hs, hov⟩ := h.exists_begin hrest ho
    obtain ⟨u, r, hended, hrest, hou⟩ := hbegun.exists_finish hn hs outcome (by rwa [hov])
    rw [hov] at hended hou
    exact ⟨u, r, hended, hrest, hou⟩

end Course

/-- A sampler comes to its end if it rests behind a closed gate. -/
theorem exists_last_iff {arithmetic : Arithmetic} {w : World} {p : Sampler} :
    (∃ v, p.stepWith arithmetic w = .ok (v, none)) ↔
      (∃ due, p.phase = .resting due) ∧ w.latches.isOpen p.writer.gate = false := by
  rw [Latches.isOpen_eq_not_isClosed, Bool.not_eq_false', ← step_snd_eq_none_iff]
  constructor
  · rintro ⟨v, h⟩
    exact (step_of_stepWith h).2
  · intro h
    obtain ⟨⟨due, hp⟩, -⟩ := (step_snd_eq_none_iff w p).1 h
    exact ⟨_, stepWith_of_no_completion (by simp [completion?, hp]) h⟩

/-- **The law of outcomes.** The samples of a sampler may have any outcomes, its gate may be closed after any of them, and
one more may be under way then; if sums are checked, as long as its counts fit. After every course the slot shows the
latest status that had an effect, or what it showed before; its count and the revision grew by the number of effects,
apart from the writes of others to other slots. At most one sample is completed behind the closed gate, as the last one,
and it has no effect. Only a sampler that rests behind a closed gate comes to its end, whatever the outcomes were. It
breaks off before that exactly if sums are checked and its next sample is a failure too many in a row, and then the board
stays as it is. -/
theorem outcome_law (arithmetic : Arithmetic) (slot : Slot) (hslot : slot ∈ Slot.sampled) (w₀ : World) (p₀ : Sampler)
    (hw : p₀.writer.slot = slot) (hf : p₀.fallback = .forSlot slot) (hp : p₀.phase = .fresh)
    (hn : p₀.failures = 0) :
    (w₀.latches.isOpen p₀.writer.gate = true → ∀ (outcomes : List (Except Failure Status))
      (late : Option (Except Failure Status)),
        (arithmetic = .checked → Fits (late.toList.map (⟨·, false⟩) ++ outcomes.map (⟨·, true⟩))) →
        ∃ w p, Course arithmetic w₀ p₀ (late.toList.map (⟨·, false⟩) ++ outcomes.map (⟨·, true⟩)) 0 w p ∧
          w.latches.isOpen p.writer.gate = false ∧ ∃ v, p.stepWith arithmetic w = .ok (v, none)) ∧
    ∀ cs others w p, Course arithmetic w₀ p₀ cs others w p →
      w.board.get slot = (effects slot cs).head?.or (w₀.board.get slot) ∧
      (w.board.tracked slot).updates = (w₀.board.tracked slot).updates + (effects slot cs).length ∧
      w.board.revision = w₀.board.revision + (effects slot cs).length + others ∧
      (∃ late intime, cs = late ++ intime ∧ late.length ≤ 1 ∧ (∀ c ∈ intime, c.inTime = true) ∧
        (∀ c ∈ late, c.inTime = false) ∧ effects slot cs = effects slot intime) ∧
      ((∃ v, p.stepWith arithmetic w = .ok (v, none)) ↔
        (∃ due, p.phase = .resting due) ∧ w.latches.isOpen p.writer.gate = false) ∧
      ((∃ v, p.stepWith arithmetic w = .error v) ↔
        arithmetic = .checked ∧ ¬ Fits ((p.completion? w).toList ++ cs)) ∧
      ∀ v, p.stepWith arithmetic w = .error v → v.board = w.board := by
  have hserves : p₀.Serves slot := ⟨hw, hslot, hf⟩
  constructor
  · intro ho outcomes late hfits
    obtain ⟨w, p, h, hrest, ho⟩ :=
      Course.exists_outcomes hn hp ho outcomes fun hchecked => (hfits hchecked).of_append
    cases late with
    | none =>
      obtain ⟨v, hclosed, hg⟩ := h.exists_close
      exact ⟨v, p, hclosed, hg, exists_last_iff.2 ⟨hrest, hg⟩⟩
    | some outcome =>
      obtain ⟨v, q, hbegun, hs, -⟩ := h.exists_begin hrest ho
      obtain ⟨u, hclosed, hg⟩ := hbegun.exists_close
      obtain ⟨x, r, hended, hrest, hgx⟩ := hclosed.exists_finish hn hs outcome (by rwa [hg])
      rw [hg] at hended hgx
      exact ⟨x, r, hended, hgx, exists_last_iff.2 ⟨hrest, hgx⟩⟩
  · intro cs others w p h
    obtain ⟨hcontent, hupdates, hrevision⟩ := h.accounted hserves
    refine ⟨hcontent, hupdates, hrevision, ?_, exists_last_iff, (h.run.counts hn).breaks_iff (h.run.fits hn), ?_⟩
    · obtain ⟨late, intime, rfl, hin, hlate, hone, -⟩ := h.exists_late
      refine ⟨late, intime, rfl, by omega, hin, hlate, ?_⟩
      have hnothing : effects slot late = [] := by
        rw [effects, List.filterMap_eq_nil_iff]
        intro c hc
        simp [Completion.effect?, hlate c hc]
      rw [effects, List.filterMap_append]
      exact congrArg (· ++ effects slot intime) hnothing
    · intro v hv
      obtain ⟨-, -, rfl⟩ := stepWith_eq_error_iff.1 hv
      exact w.board_finishSample p.source

/-- A label, a table that does not fit, a failure, and a label behind the closed gate, in this order: two effects, and
the server is down. -/
theorem outcome_law_late :
    let p : Sampler :=
      { name := "server", source := 0, period := 1000, fallback := .forSlot .server
        writer := ⟨.server, ⟨0, [], 0⟩⟩ }
    let outcomes : List (Except Failure Status) :=
      [.error (.source "server" "down"), .ok (.table []), .ok .up]
    let cs : List Completion := ⟨.ok .up, false⟩ :: outcomes.map (⟨·, true⟩)
    Slot.server ∈ Slot.sampled ∧ p.writer.slot = .server ∧ p.fallback = .forSlot .server ∧
      p.phase = .fresh ∧ p.failures = 0 ∧ Fits cs ∧
      ∃ w q, Course .checked { latches := { made := 1 } } p cs 0 w q ∧
        w.board.get .server = some .down ∧ w.board.revision = 2 ∧
        ∃ v, q.stepWith .checked w = .ok (v, none) := by
  intro p outcomes cs
  have hfits : Fits cs := fits_of_length_lt (by decide)
  obtain ⟨hexists, hlaw⟩ := outcome_law .checked .server (by decide) { latches := { made := 1 } } p rfl rfl rfl rfl
  obtain ⟨w, q, h, -, hend⟩ := hexists rfl outcomes (some (.ok .up)) fun _ => hfits
  obtain ⟨hcontent, -, hrevision, -⟩ := hlaw _ _ w q h
  exact ⟨by decide, rfl, rfl, rfl, rfl, hfits, w, q, h, hcontent, hrevision, hend⟩

end Sampler
end Dashboard
