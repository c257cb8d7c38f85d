import Dashboard.Proofs.Producer.Calls
import Dashboard.Proofs.Session.AtWork
import Dashboard.Proofs.Session.History
import Mathlib.Data.List.Count

/-! # What an activation leaves behind

Once its gate is closed, an activation asks for nothing, writes nothing and reports nothing. Of its samples only one that
is already under way comes to its end. When all producers rest, nothing of it is left but such a sample.

* `System.isSampling`, `System.unasked`, `System.IsSettled`: what the producers of a system are about.
* `System.Idle`, `System.idle_act`: all that an action behind a closed gate leaves as it is.
* `Session.State.Sound.isClosed_of_ended`: the producers of an ended activation are behind closed gates for ever.
* `State.samplesBegun`, `State.samplesFinished`, `State.requests`, `State.starts`: what is counted along a run.
* `Session.State.nothing_leaks`: samples, writes, reports, subscriptions and requests, for every run.
-/

namespace Dashboard
set_option autoImplicit false

/-! ## Systems -/

namespace Task

/-- What a report does not change in a producer, no number of reports does. -/
theorem apply_receiveAll {α : Type} {f : Producer → α} (hf : ∀ p, f p.withReport = f p)
    (rs : List Reconciler) (t : Task) : f (t.receiveAll rs).producer = f t.producer := by
  induction rs generalizing t with
  | nil => rfl
  | cons r rs ih =>
    rw [receiveAll_cons, ih]
    unfold receive
    split
    · exact hf _
    · rfl

end Task

namespace System
variable {s s' : System} {i : Nat}

/-- The producer of a number is a sampler with a sample under way. -/
def isSampling (i : Nat) (s : System) : Bool := s.tasks.any fun t => t.id == i && t.producer.isSampling

/-- The number of inquiries that have not asked yet. -/
def unasked (s : System) : Nat := s.tasks.countP fun t => t.producer.isUnasked

/-- All producers rest: none of them can act before something happens. -/
def IsSettled (s : System) : Prop := ∀ t ∈ s.tasks, t.producer.isReady s.world = false

theorem isSampling_iff :
    s.isSampling i = true ↔ ∃ t ∈ s.tasks, t.id = i ∧ t.producer.isSampling = true := by
  simp [isSampling]

theorem isSampling_of_perm (h : s'.tasks.Perm s.tasks) : s'.isSampling i = s.isSampling i := by
  rw [Bool.eq_iff_iff, isSampling_iff, isSampling_iff]
  simp only [h.mem_iff]

theorem unasked_of_perm (h : s'.tasks.Perm s.tasks) : s'.unasked = s.unasked := h.countP_eq _

theorem Numbered.perm_cons (h : s.Numbered) {t : Task} (ht : t ∈ s.tasks) :
    s.tasks.Perm (t :: s.tasks.filter (·.id != t.id)) := by
  have hnodup : s.tasks.Nodup := .of_map Task.id h.nodup
  have hrest : t ∉ s.tasks.filter (·.id != t.id) := by simp
  refine (List.perm_ext_iff_of_nodup hnodup (List.nodup_cons.2 ⟨hrest, hnodup.filter _⟩)).2 ?_
  intro u
  rw [List.mem_cons, List.mem_filter, bne_iff_ne]
  constructor
  · intro hu
    by_cases hid : u.id = t.id
    · exact .inl (h.eq_of_id hu ht hid)
    · exact .inr ⟨hu, hid⟩
  · rintro (rfl | ⟨hu, -⟩)
    · exact ht
    · exact hu

/-- An action asks for at most one snapshot, and then there is an inquiry less that has not asked. -/
theorem calls_act (h : s.Numbered) (i : Nat) :
    s.world.responder.calls ≤ (s.act i).world.responder.calls ∧
      (s.act i).world.responder.calls + (s.act i).unasked ≤ s.world.responder.calls + s.unasked := by
  cases hacting : s.acting i with
  | none =>
    rw [act_of_none hacting]
    exact ⟨Nat.le_refl _, Nat.le_refl _⟩
  | some t =>
    obtain ⟨htasks, -, journal, hw⟩ := acted hacting
    obtain ⟨hle, hcalls⟩ := t.producer.calls_step s.world
    have hbefore : s.unasked = [t.producer].countP Producer.isUnasked +
        (s.tasks.filter (·.id != t.id)).countP fun u => u.producer.isUnasked := by
      rw [unasked, (h.perm_cons (mem_of_acting hacting).1).countP_eq, List.countP_cons, List.countP_singleton,
        Nat.add_comm]
    have hafter : (s.act i).unasked =
        (t.producer.step s.world).2.1.toList.countP Producer.isUnasked +
          (s.tasks.filter (·.id != t.id)).countP fun u => u.producer.isUnasked := by
      have hreceive (rs : List Reconciler) (ts : List Task) :
          (ts.map (Task.receiveAll rs)).countP (fun u => u.producer.isUnasked) =
            ts.countP fun u => u.producer.isUnasked := by
        rw [List.countP_map]
        apply List.countP_congr
        intro u _
        rw [Function.comp_apply, Task.apply_receiveAll Producer.isUnasked_withReport]
      rw [unasked, htasks.countP_eq, hreceive, afterStep, List.countP_append, List.countP_map]
      rfl
    have hresponder : (s.act i).world.responder = (t.producer.step s.world).1.responder := by rw [hw]
    rw [hresponder, hbefore, hafter]
    exact ⟨hle, by omega⟩

/-! ## Behind closed gates -/

/-- All that an action behind a closed gate leaves as it is: the board, what was asked for, and all other producers. -/
structure Idle (i : Nat) (s s' : System) : Prop where
  board : s'.world.board = s.world.board
  sampleCalls : s'.world.sampleCalls = s.world.sampleCalls
  responder : s'.world.responder = s.world.responder
  others : ∀ t, t.id ≠ i → (t ∈ s'.tasks ↔ t ∈ s.tasks)

theorem idle_act (hclosed : ∀ t ∈ s.tasks, t.id = i → s.world.latches.isClosed t.producer.role.gate = true) :
    s.Idle i (s.act i) := by
  cases hacting : s.acting i with
  | none =>
    rw [act_of_none hacting]
    exact ⟨rfl, rfl, rfl, fun t _ => Iff.rfl⟩
  | some t =>
    obtain ⟨ht, hi, -⟩ := mem_of_acting hacting
    have hc := hclosed t ht hi
    obtain ⟨htasks, -, journal, hw⟩ := acted hacting
    refine ⟨?_, ?_, ?_, ?_⟩
    · rw [hw]
      exact Producer.board_step_of_closed hc
    · rw [hw]
      exact Producer.sampleCalls_step_of_closed hc
    · rw [hw]
      exact Producer.responder_step_of_closed hc
    · intro u hu
      have hreports : (t.producer.step s.world).2.2 = [] := by
        rw [Producer.step_reports, Producer.learns?_of_closed hc]
      have hid : (s.afterStep t (t.producer.step s.world).2.1).map (Task.receiveAll []) =
          s.afterStep t (t.producer.step s.world).2.1 := List.map_id _
      rw [htasks.mem_iff, hreports, hid, mem_afterStep]
      constructor
      · rintro (⟨p, -, rfl⟩ | ⟨hm, -⟩)
        · exact absurd hi hu
        · exact hm
      · intro hm
        exact .inr ⟨hm, hi ▸ hu⟩

/-- Whoever acts, no sample begins behind a closed gate. -/
theorem isSampling_of_act
    (hclosed : ∀ t ∈ s.tasks, t.id = i → s.world.latches.isClosed t.producer.role.gate = true) (j : Nat)
    (h : (s.act j).isSampling i = true) : s.isSampling i = true := by
  cases hacting : s.acting j with
  | none => rwa [act_of_none hacting] at h
  | some t =>
    obtain ⟨u, hu, hid, hsampling⟩ := isSampling_iff.1 h
    obtain ⟨v, hv, rfl⟩ := List.mem_map.1 ((acted hacting).tasks.mem_iff.1 hu)
    rw [Task.id_receiveAll] at hid
    rw [Task.apply_receiveAll Producer.isSampling_withReport] at hsampling
    rcases mem_afterStep.1 hv with ⟨p, hnext, rfl⟩ | ⟨hv, -⟩
    · have hopen := (Producer.isSampling_of_step hnext hsampling).1
      rw [hclosed t (mem_of_acting hacting).1 hid] at hopen
      exact absurd hopen Bool.false_ne_true.symm
    · exact isSampling_iff.2 ⟨v, hv, hid, hsampling⟩

end System

namespace Session.State
variable {σ : State}

/-! ## Ended activations -/

theorem isClosed_after {g : Gate} (h : σ.system.world.latches.isClosed g = true) (e : Event) :
    (σ.after e).system.world.latches.isClosed g = true := by
  cases σ.happens_after e with
  | act i hs ha =>
    rw [hs, (System.kept_act _ i).latches]
    exact h
  | aside hs hl ha =>
    rw [hl]
    exact h
  | begins a hn ha hs =>
    obtain ⟨ts, hts, hb⟩ := hs.producers
    rw [Latches.isClosed_congr hb.shut]
    exact h
  | ends a _ ha hn ns hns hs =>
    obtain ⟨n, hn, hshut⟩ := (Latches.isClosed_iff _ _).1 h
    exact (Latches.isClosed_iff _ _).2 ⟨n, hn, (hs.shut n).2 (.inr hshut)⟩

theorem isClosed_run {g : Gate} (h : σ.system.world.latches.isClosed g = true) (es : List Event) :
    (σ.run es).system.world.latches.isClosed g = true := by
  induction es with
  | nil => exact h
  | cons e es ih => exact isClosed_after ih e

/-- The producers of an activation whose gate is closed are all behind closed gates. -/
theorem Sound.isClosed_of_ended (h : σ.Sound) {a : Activation} (ha : σ.activation? = some a)
    {later : List Event} (hclosed : (σ.run later).system.world.latches.isClosed a.gate = true) {t : Task}
    (ht : t ∈ (σ.run later).system.tasks) (hi : t.id ∈ a.tasks) :
    (σ.run later).system.world.latches.isClosed t.producer.role.gate = true := by
  have hlater := h.run later
  rcases hlater.held t ht with hc | ⟨b, hb, hib⟩
  · exact hc
  · rcases later_activation σ later hb with hsame | hnew
    · obtain rfl : b = a := Option.some.inj (hsame.symm.trans ha)
      rw [(hlater.running b hb).isOpen] at hclosed
      exact absurd hclosed Bool.false_ne_true
    · -- The numbers of a later activation were not given out yet when the earlier one was stored.
      have hge := hnew t.id hib
      have hlt := (h.running a ha).lt t.id hi
      omega

/-! ## Samples -/

/-- The samples of a producer that began in a run. -/
def samplesBegun (i : Nat) (σ : State) : List Event → Nat
  | [] => 0
  | e :: past => samplesBegun i σ past +
      if !(σ.run past).system.isSampling i && (σ.run (e :: past)).system.isSampling i then 1 else 0

/-- The samples of a producer that came to their end in a run. -/
def samplesFinished (i : Nat) (σ : State) : List Event → Nat
  | [] => 0
  | e :: past => samplesFinished i σ past +
      if (σ.run past).system.isSampling i && !(σ.run (e :: past)).system.isSampling i then 1 else 0

theorem isSampling_of_after {i : Nat} (hlt : i < σ.system.nextId)
    (hclosed : ∀ t ∈ σ.system.tasks, t.id = i →
      σ.system.world.latches.isClosed t.producer.role.gate = true) (e : Event)
    (h : (σ.after e).system.isSampling i = true) : σ.system.isSampling i = true := by
  cases σ.happens_after e with
  | act j hs ha =>
    rw [hs] at h
    exact System.isSampling_of_act hclosed j h
  | aside hs hl ha => rwa [System.isSampling_of_perm hs.tasks] at h
  | begins a hn ha hs =>
    obtain ⟨ts, hts, hb⟩ := hs.producers
    obtain ⟨t, ht, hid, hsampling⟩ := System.isSampling_iff.1 h
    rcases (hb.mem_iff t).1 ht with ht | ht
    · exact System.isSampling_iff.2 ⟨t, ht, hid, hsampling⟩
    · have hge := (hb.id_of_mem ht).1
      omega
  | ends a _ ha hn ns hns hs => rwa [System.isSampling_of_perm hs.tasks] at h

/-- If the gates of a producer stay closed, its only sample is the one that was under way. -/
theorem samples_of_closed {i : Nat} (hlt : i < σ.system.nextId)
    (hclosed : ∀ es, ∀ t ∈ (σ.run es).system.tasks, t.id = i →
      (σ.run es).system.world.latches.isClosed t.producer.role.gate = true) (es : List Event) :
    samplesBegun i σ es = 0 ∧
      samplesFinished i σ es + ((σ.run es).system.isSampling i).toNat = (σ.system.isSampling i).toNat := by
  induction es with
  | nil => exact ⟨rfl, Nat.zero_add _⟩
  | cons e es ih =>
    obtain ⟨hbegun, hfinished⟩ := ih
    have hmono := isSampling_of_after (Nat.lt_of_lt_of_le hlt (nextId_le_run σ es)) (hclosed es) e
    have hrun : σ.run (e :: es) = (σ.run es).after e := rfl
    simp only [samplesBegun, samplesFinished, hbegun, hrun]
    cases hbefore : (σ.run es).system.isSampling i with
    | false =>
      have hafter : ((σ.run es).after e).system.isSampling i = false := by
        rw [← Bool.not_eq_true]
        intro hafter
        exact absurd (hbefore.symm.trans (hmono hafter)) Bool.false_ne_true
      rw [hbefore] at hfinished
      simp [hafter, ← hfinished]
    | true =>
      rw [hbefore] at hfinished
      cases ((σ.run es).after e).system.isSampling i with
      | false => simp [← hfinished]
      | true => simp [← hfinished]

/-! ## Requests -/

/-- The snapshots that are asked for in an event, if that is an action of a producer. -/
def asked (σ : State) : Event → Nat
  | .act i => (σ.after (.act i)).system.world.responder.calls - σ.system.world.responder.calls
  | _ => 0

/-- The snapshots that producers asked for in a run. -/
def requests (σ : State) : List Event → Nat
  | [] => 0
  | e :: past => requests σ past + asked (σ.run past) e

/-- One for a call of `activate` that starts an activation. -/
def started (σ : State) : Event → Nat
  | .activate => (σ.session.elim false fun d => (d.activate σ.system).1).toNat
  | _ => 0

/-- The activations that were started in a run. -/
def starts (σ : State) : List Event → Nat
  | [] => 0
  | e :: past => starts σ past + started (σ.run past) e

theorem asked_of_ne_act {e : Event} (he : ∀ i, e ≠ .act i) : asked σ e = 0 := by
  cases e with
  | act i => exact absurd rfl (he i)
  | activate => rfl
  | deactivate => rfl
  | drop => rfl
  | clock t => rfl
  | setting key value => rfl
  | sources sources => rfl
  | responder responder => rfl
  | releaseStore => rfl

theorem Sound.unasked_after (h : σ.Sound) (e : Event) :
    asked σ e + (σ.after e).system.unasked ≤ started σ e + σ.system.unasked := by
  by_cases he : ∃ i, e = .act i
  · obtain ⟨i, rfl⟩ := he
    obtain ⟨hle, hcalls⟩ := System.calls_act h.numbered i
    have hafter : (σ.after (.act i)).system = σ.system.act i := rfl
    simp only [asked, started, hafter]
    omega
  · rw [asked_of_ne_act (not_exists.1 he), Nat.zero_add]
    cases σ.happens_after e with
    | act i hs ha => exact absurd ⟨i, rfl⟩ he
    | aside hs hl ha =>
      rw [System.unasked_of_perm hs.tasks]
      exact Nat.le_add_left _ _
    | begins a hn ha hs =>
      obtain ⟨ts, hts, hb⟩ := hs.producers
      have hone : started σ .activate = 1 := by
        obtain ⟨session, s⟩ := σ
        cases session with
        | none => exact absurd (ha.symm.trans rfl) (Option.some_ne_none a)
        | some d =>
          have hd : (d.activate s).1 = true := (d.activate_fst s).2 hn
          simp [started, hd]
      have hsamplers : ts.countP (fun t => t.producer.isUnasked) = 0 := by
        rw [List.countP_eq_zero]
        intro t ht
        obtain ⟨x, hx, -, p, hp, -⟩ := SamplerHandle.exists_handle hts ht
        rw [hp]
        exact Bool.false_ne_true
      have hrelays : (a.relays.map (RelayHandle.fresh σ.system.world.store)).countP
          (fun t => t.producer.isUnasked) = 0 := by
        rw [List.countP_map, List.countP_eq_zero]
        intro x _
        exact Bool.false_ne_true
      have hasks : [a.asks].countP (fun t => t.producer.isUnasked) = 1 := rfl
      have hbefore : σ.system.tasks.countP (fun t => t.producer.isUnasked) = σ.system.unasked := rfl
      rw [hone, System.unasked, hb.tasks.countP_eq, List.countP_append, List.countP_append, List.countP_append,
        hsamplers, hrelays, hasks, hbefore]
      omega
    | ends a _ ha hn ns hns hs =>
      rw [System.unasked_of_perm hs.tasks]
      exact Nat.le_add_left _ _

/-- Every activation has one inquiry, which asks at most once. -/
theorem Sound.requests_le (h : σ.Sound) (es : List Event) :
    requests σ es + (σ.run es).system.unasked ≤ starts σ es + σ.system.unasked := by
  induction es with
  | nil => exact Nat.le_refl _
  | cons e es ih =>
    have hstep := (h.run es).unasked_after e
    have hrun : σ.run (e :: es) = (σ.run es).after e := rfl
    simp only [requests, starts, hrun]
    omega

/-! ## At rest -/

/-- At rest only open relays are left to follow a setting. -/
theorem followers_of_settled {s : System} (h : s.IsSettled) (key : Setting) :
    s.followers key = s.atWork (Producer.Role.follows key) := by
  rw [System.followers, ← List.countP_eq_length_filter, System.atWork]
  apply List.countP_congr
  intro t ht
  have hrest := h t ht
  cases hp : t.producer with
  | sampler p => simp [Producer.follows, Producer.role, Producer.Role.follows]
  | inquiry p => simp [Producer.follows, Producer.role, Producer.Role.follows]
  | relay p =>
    rw [hp] at hrest
    have hopen : s.world.latches.isOpen p.writer.gate = true := by
      rw [Latches.isOpen_iff, ← Bool.not_eq_true]
      intro hc
      rw [Producer.isReady_of_closed (p := .relay p) hc rfl] at hrest
      exact absurd hrest Bool.false_ne_true.symm
    simp [Producer.follows, Producer.role, Producer.Role.follows, Producer.Role.gate, hopen]

theorem Sound.followers (h : σ.Sound) (hrest : σ.system.IsSettled) (key : Setting) :
    σ.system.followers key = σ.activation?.isSome.toNat := by
  rw [followers_of_settled hrest]
  cases ha : σ.activation? with
  | none => exact System.atWork_eq_zero fun t ht _ => h.isOpen_of_none ha ht
  | some a => exact h.atWork_follows ha key

/-- **Nothing leaks.** In every run of a dashboard, once the gate of an activation is closed, none of its producers begins
a sample, and at most the sample that is under way comes to its end. An action of any of them changes no slot, asks for no
sample and no snapshot, and leaves all other producers as they are, so that nothing is reported. When all producers rest,
each setting is followed once if the session is active and never otherwise; and if no sample of an ended activation is
under way, all producers are those of the stored activation. The producers never asked for more snapshots than
activations were started. -/
theorem nothing_leaks (σ₀ : State) (hnew : σ₀.IsNew) (past : List Event) :
    let σ := σ₀.run past
    (∀ a, σ.activation? = some a → ∀ later,
      (σ.run later).system.world.latches.isOpen a.gate = false → ∀ i ∈ a.tasks,
        (∀ es, samplesBegun i (σ.run later) es = 0 ∧
          samplesFinished i (σ.run later) es ≤ ((σ.run later).system.isSampling i).toNat) ∧
        (σ.run later).system.Idle i ((σ.run later).after (.act i)).system) ∧
    (σ.system.IsSettled → ∀ key, σ.system.followers key = σ.activation?.isSome.toNat) ∧
    (σ.system.IsSettled →
      (∀ t ∈ σ.system.tasks, t.producer.isSampling = true → ∃ a, σ.activation? = some a ∧ t.id ∈ a.tasks) →
      ∀ t ∈ σ.system.tasks, ∃ a, σ.activation? = some a ∧ t.id ∈ a.tasks) ∧
    requests σ₀ past ≤ starts σ₀ past := by
  intro σ
  have h : σ.Sound := (Sound.of_isNew hnew).run past
  refine ⟨?_, ?_, ?_, ?_⟩
  · intro a ha later hshut i hi
    have hclosed : (σ.run later).system.world.latches.isClosed a.gate = true := by
      rwa [Latches.isOpen_eq_not_isClosed, Bool.not_eq_false'] at hshut
    have hstays (es : List Event) : ∀ t ∈ ((σ.run later).run es).system.tasks, t.id = i →
        ((σ.run later).run es).system.world.latches.isClosed t.producer.role.gate = true := by
      intro t ht hid
      rw [← run_append] at ht ⊢
      refine h.isClosed_of_ended ha ?_ ht (hid ▸ hi)
      rw [run_append]
      exact isClosed_run hclosed es
    refine ⟨?_, System.idle_act (hstays [])⟩
    intro es
    have hlt : i < (σ.run later).system.nextId :=
      Nat.lt_of_lt_of_le ((h.running a ha).lt i hi) (nextId_le_run σ later)
    obtain ⟨hbegun, hfinished⟩ := samples_of_closed hlt hstays es
    exact ⟨hbegun, by omega⟩
  · exact h.followers
  · intro hrest hsamples t ht
    rcases h.held t ht with hc | ha
    · cases hs : t.producer.isSampling with
      | true => exact hsamples t ht hs
      | false =>
        have hready := hrest t ht
        rw [Producer.isReady_of_closed hc hs] at hready
        exact absurd hready Bool.false_ne_true.symm
    · exact ha
  · have hrequests := (Sound.of_isNew hnew).requests_le past
    have hnone : σ₀.system.unasked = 0 := by simp [System.unasked, hnew.tasks]
    omega

/-- A session is ended while a sample of its first sampler is under way, and activated again. The sample is finished, and
no other one begins. Once all producers of an activation rest, each setting is followed once, for one request. -/
theorem nothing_leaks_restarted :
    let σ₀ : State := ofSettings {}
    let σ := (σ₀.run [.act 0, .act 0, .activate]).run [.activate, .deactivate]
    let once : List Event := [.act 0, .act 1, .act 2]
    let settling : List Event :=
      [.act 3, .act 4, .act 5, .act 6, .act 6, .act 3, .act 4, .act 5] ++ once ++ once ++ once
    let rest := σ₀.run (settling ++ [.activate])
    σ₀.IsNew ∧ σ.system.isSampling 0 = true ∧ samplesFinished 0 σ [.act 0, .act 0] = 1 ∧
      samplesBegun 0 σ [.act 0, .act 0] = 0 ∧ σ.system.Idle 0 (σ.after (.act 0)).system ∧
      rest.system.IsSettled ∧ rest.activation?.isSome = true ∧
      rest.system.followers .gridpathDatabase = rest.activation?.isSome.toNat ∧
      requests σ₀ (settling ++ [.activate]) = 1 ∧ starts σ₀ (settling ++ [.activate]) = 1 := by
  intro σ₀ σ once settling rest
  have ended := (nothing_leaks σ₀ (isNew_ofSettings _) [.act 0, .act 0, .activate]).1 _ rfl
    [.activate, .deactivate] (by decide +kernel) 0 (by decide +kernel)
  have hfollowed := (nothing_leaks σ₀ (isNew_ofSettings _) (settling ++ [.activate])).2.1
  have hsettled : rest.system.IsSettled := by
    unfold System.IsSettled
    decide +kernel
  refine ⟨isNew_ofSettings _, ?_, ?_, (ended.1 _).1, ended.2, hsettled, ?_, hfollowed hsettled _, ?_, ?_⟩
  · decide +kernel
  · decide +kernel
  · decide +kernel
  · decide +kernel
  · decide +kernel

end Session.State
end Dashboard
