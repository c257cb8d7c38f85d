import Dashboard.Source
import Mathlib.Data.List.Nodup

/-! # What a scripted source counts and serves

A scripted source may have many samples under way at once. Each of them begins, waits for as long as it may take, and then it
finishes or is abandoned. The script may change between any two of these. What the source counts, and whom it serves with
which reply, is all decided by the history of these events.

Histories have the latest event first.

* `Scripted.Shared`: a scripted source with all samples of it, and the answers that it gave.
* `Scripted.Shared.run`: the source after a history of events.
* `Scripted.Event.enqueued`, `Scripted.Event.steady`: what a history says of the script.
* `Scripted.Shared.served_after`: what one event does to the queue and to what was served from it.
* `Scripted.Shared.Counted`, `Scripted.Shared.Answered`: the counters and the answers against the samples.
* `Scripted.Shared.run_induction`: what every sample keeps holds after every history.
* `Scripted.Shared.conservation`: the whole law.
-/

namespace Dashboard.Scripted
set_option autoImplicit false

/-! ## Samples and their answers -/

inductive Stage where
  | waiting
  | answered
  | dropped
  deriving DecidableEq, Repr

/-- What a sample was told when it finished: the reply, which came from the queue or was the steady one, and what this reply
meant to the one who sampled. -/
structure Answer where
  sample : Nat
  isQueued : Bool
  reply : Reply
  outcome : Except Failure Status

/-- A sample begins, or the sample of a number finishes or is abandoned, or the script changes. -/
inductive Event where
  | begin
  | finish (i : Nat)
  | abandon (i : Nat)
  | respond (r : Reply)
  | enqueue (r : Reply)
  | delay (ms : Nat)

namespace Event

def queues? : Event → Option Reply
  | .enqueue r => some r
  | _ => none

def responds? : Event → Option Reply
  | .respond r => some r
  | _ => none

/-- The replies that were queued, in the order in which this was done. -/
def enqueued (es : List Event) : List Reply := es.reverse.filterMap queues?

/-- The steady reply that was set last, or that which was there from the start. -/
def steady (first : Reply) (es : List Event) : Reply := (es.findSome? responds?).getD first

theorem enqueued_cons (e : Event) (past : List Event) : enqueued (e :: past) = enqueued past ++ e.queues?.toList := by
  rw [enqueued, List.reverse_cons, List.filterMap_append]
  cases e <;> rfl

end Event

/-- A scripted source with the samples of it by their numbers, and its answers, of which the latest comes first. -/
structure Shared where
  source : Scripted
  samples : List Stage := []
  answers : List Answer := []

namespace Shared

def answer (c : Shared) (i : Nat) : Answer :=
  ⟨i, !c.source.queued.isEmpty, c.source.reply, c.source.outcome c.source.reply⟩

/-- Only a sample that still waits can finish or be abandoned. -/
def after (c : Shared) : Event → Shared
  | .begin => { c with source := c.source.begin, samples := c.samples ++ [.waiting] }
  | .finish i =>
    if c.samples[i]? = some .waiting then ⟨c.source.finish, c.samples.set i .answered, c.answer i :: c.answers⟩ else c
  | .abandon i =>
    if c.samples[i]? = some .waiting then { c with source := c.source.abandon, samples := c.samples.set i .dropped } else c
  | .respond r => { c with source := c.source.respond r }
  | .enqueue r => { c with source := c.source.enqueue r }
  | .delay ms => { c with source := c.source.delay ms }

/-- A new source after events, of which the latest comes first. -/
def run (name : String) (first : Reply) : List Event → Shared
  | [] => { source := { name, steady := first } }
  | e :: past => (run name first past).after e

/-- The replies that came from the queue, in the order in which samples took them. -/
def served (c : Shared) : List Reply := (c.answers.filter Answer.isQueued).reverse.map Answer.reply

/-! ## Single events -/

section
variable {c : Shared} {i : Nat}

theorem after_finish (h : c.samples[i]? = some .waiting) :
    c.after (.finish i) = ⟨c.source.finish, c.samples.set i .answered, c.answer i :: c.answers⟩ := if_pos h

theorem after_abandon (h : c.samples[i]? = some .waiting) :
    c.after (.abandon i) = { c with source := c.source.abandon, samples := c.samples.set i .dropped } := if_pos h

theorem after_finish_of_not (h : c.samples[i]? ≠ some .waiting) : c.after (.finish i) = c := if_neg h

theorem after_abandon_of_not (h : c.samples[i]? ≠ some .waiting) : c.after (.abandon i) = c := if_neg h

end

section
variable (c : Shared) (e : Event)

theorem name_after : (c.after e).source.name = c.source.name := by
  cases e with
  | finish i | abandon i =>
    rw [after]
    split <;> rfl
  | _ => rfl

theorem steady_after : (c.after e).source.steady = e.responds?.getD c.source.steady := by
  cases e with
  | finish i | abandon i =>
    rw [after]
    split <;> rfl
  | _ => rfl

/-- What was served and what is queued are together what was queued before, in one order. -/
theorem served_after : (c.after e).served ++ (c.after e).source.queued =
    c.served ++ c.source.queued ++ e.queues?.toList := by
  cases e with
  | finish i =>
    by_cases hwaiting : c.samples[i]? = some .waiting
    · rw [after_finish hwaiting]
      cases hqueued : c.source.queued with
      | nil => simp [served, answer, finish, hqueued, Event.queues?]
      | cons r rest => simp [served, answer, reply, finish, hqueued, Event.queues?]
    · rw [after_finish_of_not hwaiting]
      exact (List.append_nil _).symm
  | abandon i =>
    rw [after]
    split <;> exact (List.append_nil _).symm
  | enqueue r => exact (List.append_assoc ..).symm
  | begin | respond r | delay ms => exact (List.append_nil _).symm

end

/-! ## Counters -/

/-- Each counter of the source is a number of its samples. -/
structure Counted (c : Shared) : Prop where
  calls : c.source.calls = c.samples.length
  completed : c.source.completed = c.samples.count .answered
  inFlight : c.source.inFlight = c.samples.count .waiting

theorem length_eq_count (l : List Stage) : l.length = l.count .answered + l.count .waiting + l.count .dropped := by
  induction l with
  | nil => rfl
  | cons s l ih =>
    rw [List.length_cons, ih]
    cases s <;> simp <;> omega

section
variable {c : Shared} {i : Nat}

/-- A sample that stops to wait changes two of the numbers by one. -/
theorem count_set (h : c.samples[i]? = some .waiting) (next stage : Stage) :
    (c.samples.set i next).count stage + (if .waiting = stage then 1 else 0) =
      c.samples.count stage + if next = stage then 1 else 0 := by
  obtain ⟨hi, hwaiting⟩ := List.getElem?_eq_some_iff.1 h
  rw [List.count_set hi, hwaiting]
  simp only [beq_iff_eq]
  by_cases hstage : Stage.waiting = stage
  · have hpos : 0 < c.samples.count stage := hstage ▸ List.count_pos_iff.2 (List.mem_of_getElem? h)
    rw [if_pos hstage]
    omega
  · rw [if_neg hstage]
    omega

/-- The sample that finishes or is abandoned was one of those that wait. -/
theorem count_waiting_set (h : c.samples[i]? = some .waiting) (next : Stage) (hnext : next ≠ .waiting) :
    (c.samples.set i next).count .waiting + 1 = c.samples.count .waiting := by
  have h₁ := count_set h next .waiting
  rwa [if_pos rfl, if_neg hnext, Nat.add_zero] at h₁

/-- A sample that is abandoned gets no answer, and one that finishes does. -/
theorem count_answered_set (h : c.samples[i]? = some .waiting) (next : Stage) :
    (c.samples.set i next).count .answered = c.samples.count .answered + if next = .answered then 1 else 0 := by
  have h₁ := count_set h next .answered
  rwa [if_neg (by decide), Nat.add_zero] at h₁

namespace Counted

theorem begin (h : Counted c) : Counted (c.after .begin) where
  calls := by
    rw [after, List.length_append, ← h.calls]
    rfl
  completed := by
    rw [after, List.count_append]
    exact h.completed
  inFlight := by
    rw [after, List.count_append, ← h.inFlight]
    rfl

theorem finish (h : Counted c) (hwaiting : c.samples[i]? = some .waiting) : Counted (c.after (.finish i)) := by
  have hleft := count_waiting_set hwaiting .answered (by decide)
  rw [after_finish hwaiting]
  exact {
    calls := by rw [List.length_set, ← h.calls, Scripted.finish]
    completed := by rw [count_answered_set hwaiting, ← h.completed, Scripted.finish, if_pos rfl]
    inFlight := by rw [Scripted.finish, h.inFlight, ← hleft, Nat.add_sub_cancel] }

theorem abandon (h : Counted c) (hwaiting : c.samples[i]? = some .waiting) : Counted (c.after (.abandon i)) := by
  have hleft := count_waiting_set hwaiting .dropped (by decide)
  rw [after_abandon hwaiting]
  exact {
    calls := by rw [List.length_set, ← h.calls, Scripted.abandon]
    completed := by rw [count_answered_set hwaiting, ← h.completed, Scripted.abandon, if_neg (by decide), Nat.add_zero]
    inFlight := by rw [Scripted.abandon, h.inFlight, ← hleft, Nat.add_sub_cancel] }

/-- Every sample is finished, under way or dropped. -/
theorem total (h : Counted c) : c.source.calls = c.source.completed + c.source.inFlight + c.samples.count .dropped := by
  rw [h.calls, h.completed, h.inFlight]
  exact length_eq_count c.samples

/-- The number of samples under way is not lowered below zero. -/
theorem inFlight_after_finish (h : Counted c) (hwaiting : c.samples[i]? = some .waiting) :
    (c.after (.finish i)).source.inFlight + 1 = c.source.inFlight := by
  rw [(h.finish hwaiting).inFlight, after_finish hwaiting, h.inFlight]
  exact count_waiting_set hwaiting _ (by decide)

theorem inFlight_after_abandon (h : Counted c) (hwaiting : c.samples[i]? = some .waiting) :
    (c.after (.abandon i)).source.inFlight + 1 = c.source.inFlight := by
  rw [(h.abandon hwaiting).inFlight, after_abandon hwaiting, h.inFlight]
  exact count_waiting_set hwaiting _ (by decide)

end Counted
end

/-! ## Answers -/

/-- The samples that have an answer are those that finished, and each of these has one. -/
structure Answered (c : Shared) : Prop where
  nodup : (c.answers.map Answer.sample).Nodup
  mem_iff : ∀ i, i ∈ c.answers.map Answer.sample ↔ c.samples[i]? = some .answered

namespace Answered
variable {c : Shared} {i : Nat}

theorem begin (h : Answered c) : Answered (c.after .begin) where
  nodup := h.nodup
  mem_iff i := by
    refine (h.mem_iff i).trans ?_
    rw [after, List.getElem?_append]
    split
    · rfl
    · rename_i hi
      rw [List.getElem?_eq_none (Nat.not_lt.1 hi), List.getElem?_singleton]
      split <;> simp

theorem finish (h : Answered c) (hwaiting : c.samples[i]? = some .waiting) : Answered (c.after (.finish i)) := by
  have hi := (List.getElem?_eq_some_iff.1 hwaiting).1
  have hnew : i ∉ c.answers.map Answer.sample := by
    rw [h.mem_iff, hwaiting]
    decide
  rw [after_finish hwaiting]
  refine ⟨List.nodup_cons.2 ⟨hnew, h.nodup⟩, fun j => ?_⟩
  rw [List.map_cons, List.mem_cons, h.mem_iff, List.getElem?_set]
  by_cases hj : i = j
  · subst hj
    simp [answer, hi]
  · simp [answer, hj, Ne.symm hj]

theorem abandon (h : Answered c) (hwaiting : c.samples[i]? = some .waiting) : Answered (c.after (.abandon i)) := by
  have hi := (List.getElem?_eq_some_iff.1 hwaiting).1
  rw [after_abandon hwaiting]
  refine ⟨h.nodup, fun j => (h.mem_iff j).trans ?_⟩
  rw [List.getElem?_set]
  by_cases hj : i = j
  · subst hj
    rw [if_pos rfl, if_pos hi, hwaiting]
    decide
  · rw [if_neg hj]

end Answered

/-- An answer is what its reply means of a source with that name. -/
theorem outcome_of_mem_after (c : Shared) (e : Event) {a : Answer} (ha : a ∈ (c.after e).answers) :
    a ∈ c.answers ∨ a.outcome = c.source.outcome a.reply := by
  cases e with
  | finish i =>
    rw [after] at ha
    split at ha
    · obtain rfl | hmem := List.mem_cons.1 ha
      · exact .inr rfl
      · exact .inl hmem
    · exact .inl ha
  | abandon i =>
    rw [after] at ha
    split at ha <;> exact .inl ha
  | begin | respond r | enqueue r | delay ms => exact .inl ha

/-! ## The peak -/

theorem maxInFlight_after (c : Shared) (e : Event) (h : c.source.inFlight ≤ c.source.maxInFlight) :
    (c.after e).source.maxInFlight = max c.source.maxInFlight (c.after e).source.inFlight := by
  cases e with
  | begin => rfl
  | finish i | abandon i =>
    rw [after]
    split
    · exact (Nat.max_eq_left (Nat.le_trans (Nat.sub_le ..) h)).symm
    · exact (Nat.max_eq_left h).symm
  | respond r | enqueue r | delay ms => exact (Nat.max_eq_left h).symm

/-! ## Histories -/

section
variable (name : String) (first : Reply) (es : List Event)

theorem name_run : (run name first es).source.name = name := by
  induction es with
  | nil => rfl
  | cons e past ih => exact (name_after _ e).trans ih

theorem steady_run : (run name first es).source.steady = Event.steady first es := by
  induction es with
  | nil => rfl
  | cons e past ih =>
    rw [run, steady_after, ih, Event.steady, Event.steady, List.findSome?_cons]
    cases e.responds? <;> rfl

theorem served_run : (run name first es).served ++ (run name first es).source.queued = Event.enqueued es := by
  induction es with
  | nil => rfl
  | cons e past ih => rw [run, served_after, ih, Event.enqueued_cons]

/-- What holds of a new source holds after every history, if it is kept by each sample that begins or that stops to wait, and
does not depend on the script. -/
theorem run_induction {P : Shared → Prop} (hnew : P { source := { name, steady := first } })
    (hbegin : ∀ c, P c → P (c.after .begin))
    (hfinish : ∀ c i, c.samples[i]? = some .waiting → P c → P (c.after (.finish i)))
    (habandon : ∀ c i, c.samples[i]? = some .waiting → P c → P (c.after (.abandon i)))
    (hscript : ∀ (c : Shared) (s : Scripted), s.calls = c.source.calls → s.completed = c.source.completed →
      s.inFlight = c.source.inFlight → P c → P { c with source := s }) : P (run name first es) := by
  induction es with
  | nil => exact hnew
  | cons e past ih =>
    rw [run]
    cases e with
    | begin => exact hbegin _ ih
    | finish i =>
      by_cases hwaiting : (run name first past).samples[i]? = some .waiting
      · exact hfinish _ i hwaiting ih
      · rwa [after_finish_of_not hwaiting]
    | abandon i =>
      by_cases hwaiting : (run name first past).samples[i]? = some .waiting
      · exact habandon _ i hwaiting ih
      · rwa [after_abandon_of_not hwaiting]
    | respond r | enqueue r | delay ms => exact hscript _ _ rfl rfl rfl ih

theorem counted_run : Counted (run name first es) := by
  refine run_induction name first es ⟨rfl, rfl, rfl⟩ ?_ ?_ ?_ ?_
  · exact fun c h => h.begin
  · exact fun c i hwaiting h => h.finish hwaiting
  · exact fun c i hwaiting h => h.abandon hwaiting
  · exact fun c s hcalls hcompleted hinFlight h =>
      ⟨hcalls.trans h.calls, hcompleted.trans h.completed, hinFlight.trans h.inFlight⟩

theorem answered_run : Answered (run name first es) := by
  refine run_induction name first es ⟨List.nodup_nil, fun _ => by simp⟩ ?_ ?_ ?_ ?_
  · exact fun c h => h.begin
  · exact fun c i hwaiting h => h.finish hwaiting
  · exact fun c i hwaiting h => h.abandon hwaiting
  · exact fun c s _ _ _ h => ⟨h.nodup, h.mem_iff⟩

theorem outcome_run {a : Answer} (ha : a ∈ (run name first es).answers) :
    a.outcome = a.reply.mapError (.source name) := by
  induction es with
  | nil => exact nomatch ha
  | cons e past ih =>
    obtain hmem | hnew := outcome_of_mem_after _ e ha
    · exact ih hmem
    · rw [hnew]
      cases a.reply with
      | ok s => rfl
      | error m => rw [Scripted.outcome, name_run]; rfl

theorem inFlight_le_maxInFlight : (run name first es).source.inFlight ≤ (run name first es).source.maxInFlight := by
  induction es with
  | nil => exact Nat.le_refl _
  | cons e past ih =>
    rw [run, maxInFlight_after _ e ih]
    exact Nat.le_max_right ..

theorem inFlight_le_of_suffix {past : List Event} (h : past <:+ es) :
    (run name first past).source.inFlight ≤ (run name first es).source.maxInFlight := by
  induction es with
  | nil =>
    rw [List.suffix_nil.1 h]
    exact Nat.le_refl _
  | cons e older ih =>
    obtain rfl | hsuffix := List.suffix_cons_iff.1 h
    · exact inFlight_le_maxInFlight ..
    · rw [run, maxInFlight_after _ e (inFlight_le_maxInFlight ..)]
      exact Nat.le_trans (ih hsuffix) (Nat.le_max_left ..)

theorem exists_suffix_inFlight :
    ∃ past, past <:+ es ∧ (run name first past).source.inFlight = (run name first es).source.maxInFlight := by
  induction es with
  | nil => exact ⟨[], List.suffix_rfl, rfl⟩
  | cons e older ih =>
    rw [run, maxInFlight_after _ e (inFlight_le_maxInFlight ..)]
    rcases Nat.le_total ((run name first older).after e).source.inFlight
      (run name first older).source.maxInFlight with hle | hge
    · obtain ⟨past, hsuffix, hpeak⟩ := ih
      exact ⟨past, hsuffix.trans (List.suffix_cons ..), hpeak.trans (Nat.max_eq_left hle).symm⟩
    · exact ⟨e :: older, List.suffix_rfl, (Nat.max_eq_right hge).symm⟩

end

/-- **What a scripted source counts and serves.** After every history of events the calls are the completed ones, those in
flight and the dropped ones, and each counter is the number of those samples. A sample in flight that ends lowers that
counter by exactly one. The peak is the largest number in flight that there was at any time of the history. What was queued
is what was served from the queue, in the order in which the samples finished, and then what is still queued; each sample
that finished has one answer, and no other one has. A sample that is abandoned takes nothing. One that finishes is told the
head of the queue, which is gone then, or the steady reply as it was last set exactly if the queue is empty. A failure is one
of the source of that name, with its message. -/
theorem conservation (name : String) (first : Reply) (es : List Event) :
    let c := run name first es
    (c.source.calls = c.source.completed + c.source.inFlight + c.samples.count .dropped ∧
      c.source.calls = c.samples.length ∧ c.source.completed = c.samples.count .answered ∧
      c.source.inFlight = c.samples.count .waiting) ∧
    (∀ i, c.samples[i]? = some .waiting → (c.after (.finish i)).source.inFlight + 1 = c.source.inFlight ∧
      (c.after (.abandon i)).source.inFlight + 1 = c.source.inFlight) ∧
    ((∀ past, past <:+ es → (run name first past).source.inFlight ≤ c.source.maxInFlight) ∧
      ∃ past, past <:+ es ∧ (run name first past).source.inFlight = c.source.maxInFlight) ∧
    (Event.enqueued es = c.served ++ c.source.queued ∧ (c.answers.map Answer.sample).Nodup ∧
      ∀ i, i ∈ c.answers.map Answer.sample ↔ c.samples[i]? = some .answered) ∧
    (∀ i, c.samples[i]? = some .waiting →
      (c.after (.abandon i)).answers = c.answers ∧ (c.after (.abandon i)).source.queued = c.source.queued ∧
      ∃ a, (c.after (.finish i)).answers = a :: c.answers ∧ a.sample = i ∧
        (a.isQueued = false ↔ c.source.queued = []) ∧
        (c.source.queued = [] → a.reply = Event.steady first es ∧ (c.after (.finish i)).source.queued = []) ∧
        ∀ r rest, c.source.queued = r :: rest → a.reply = r ∧ (c.after (.finish i)).source.queued = rest) ∧
    ∀ a ∈ c.answers, a.outcome = a.reply.mapError (.source name) := by
  intro c
  have hcounted : Counted c := counted_run name first es
  have hanswered : Answered c := answered_run name first es
  refine ⟨⟨hcounted.total, hcounted.calls, hcounted.completed, hcounted.inFlight⟩,
    fun i hwaiting => ⟨hcounted.inFlight_after_finish hwaiting, hcounted.inFlight_after_abandon hwaiting⟩,
    ⟨fun past hsuffix => inFlight_le_of_suffix name first es hsuffix, exists_suffix_inFlight name first es⟩,
    ⟨(served_run name first es).symm, hanswered.nodup, hanswered.mem_iff⟩, fun i hwaiting => ?_,
    fun a ha => outcome_run name first es ha⟩
  rw [after_abandon hwaiting, after_finish hwaiting]
  refine ⟨rfl, rfl, c.answer i, rfl, rfl, by simp [answer], fun hempty => ⟨?_, ?_⟩, fun r rest hqueued => ⟨?_, ?_⟩⟩
  · rw [← steady_run name first es, answer, reply, hempty]
    rfl
  · rw [finish, hempty]
    rfl
  · rw [answer, reply, hqueued]
    rfl
  · rw [finish, hqueued]
    rfl

/-- The sample that finishes first takes the reply that was queued, although it began last. -/
example : (run "db" (.ok (.label "up")) [.finish 0, .finish 1, .enqueue (.error "down"), .begin, .begin]).answers =
    [⟨0, false, .ok (.label "up"), .ok (.label "up")⟩, ⟨1, true, .error "down", .error (.source "db" "down")⟩] := rfl

end Shared
end Dashboard.Scripted
