import Dashboard.Config.Basic
import Dashboard.Proofs.Shape.ReadBack

/-! # Written values of the dashboard are read back

Statuses, snapshots of the settings and configurations are found in their compact JSON texts. A setting without a value is
written as null in a snapshot, and left out of a configuration; both are read as no value.

* `Status.readsBack_shape`, `Setting.Snapshot.readsBack_shape`, `Config.readsBack_shape`: the three shapes.
* `json_round_trip`: the three texts.
-/

namespace Dashboard
set_option autoImplicit false
open Shape

theorem Status.readsBack_shape : Status.shape.ReadsBack := by
  refine .choice (List.forall_mem_cons.2 ⟨readsBack_text, List.forall_mem_singleton.2 ?_⟩) (by decide +kernel)
  exact .list (.list readsBack_text)

/-- An optional text: a text is never null. -/
theorem readsBack_optional_text : ReadsBack (.optional .text) := readsBack_text.optional fun _ h => by cases h

theorem Setting.Snapshot.readsBack_shape : Setting.Snapshot.shape.ReadsBack := by
  refine .record _ _ ?_ (by decide +kernel)
  simp only [List.forall_mem_cons, List.not_mem_nil, false_implies, implies_true, and_true]
  exact ⟨readsBack_optional_text, readsBack_optional_text, readsBack_optional_text⟩

namespace Config

theorem readsBack_server : Server.shape.ReadsBack := by
  refine .record _ _ ?_ (by decide +kernel)
  simp only [List.forall_mem_cons, List.not_mem_nil, false_implies, implies_true, and_true]
  exact ⟨readsBack_text, readsBack_text, readsBack_text, readsBack_text, readsBack_natural⟩

theorem readsBack_polling : Polling.shape.ReadsBack := by
  refine .record _ _ ?_ (by decide +kernel)
  simp only [List.forall_mem_cons, List.not_mem_nil, false_implies, implies_true, and_true]
  exact ⟨readsBack_natural, readsBack_natural, readsBack_natural⟩

theorem readsBack_settings : settingsShape.ReadsBack := by
  refine .record _ _ ?_ (by decide +kernel)
  simp only [List.forall_mem_cons, List.not_mem_nil, false_implies, implies_true, and_true]
  exact ⟨readsBack_optional_text, readsBack_optional_text, readsBack_optional_text⟩

theorem readsBack_shape : shape.ReadsBack := by
  refine .record _ _ ?_ (by decide +kernel)
  simp only [List.forall_mem_cons, List.not_mem_nil, false_implies, implies_true, and_true]
  exact ⟨readsBack_server, readsBack_polling, readsBack_settings⟩

end Config

theorem Status.ofText_render (s : Status) : Status.ofText (Json.render s.toJson) = .ok s := by
  rw [ofText, toJson, readsBack_shape.ofText_render]
  exact congrArg Except.ok (ofValue_toValue s)

theorem Setting.Snapshot.ofText_render (s : Setting.Snapshot) :
    Setting.Snapshot.ofText (Json.render s.toJson) = .ok s := by
  rw [ofText, toJson, readsBack_shape.ofText_render]
  exact congrArg Except.ok (ofValue_toValue s)

theorem Config.ofText_render (c : Config) : Config.ofText (Json.render c.toJson) = .ok c := by
  rw [ofText, toJson, readsBack_shape.ofText_render]
  exact congrArg Except.ok (ofValue_toValue c)

/-- What a reader finds in the text of every value, no two values share. -/
theorem injective_of_reads {α : Type} {write : α → String} {read : String → Except Json.Fault α}
    (h : ∀ a, read (write a) = .ok a) : Function.Injective write := by
  intro a b hab
  have hb := h b
  rw [← hab, h a] at hb
  exact Except.ok.inj hb

/-- **Statuses, snapshots and configurations are read back from their JSON texts.** So no two of a kind share a text. -/
theorem json_round_trip :
    ((∀ s : Status, Status.ofText (Json.render s.toJson) = .ok s) ∧
      Function.Injective fun s : Status => Json.render s.toJson) ∧
    ((∀ s : Setting.Snapshot, Setting.Snapshot.ofText (Json.render s.toJson) = .ok s) ∧
      Function.Injective fun s : Setting.Snapshot => Json.render s.toJson) ∧
    ((∀ c : Config, Config.ofText (Json.render c.toJson) = .ok c) ∧
      Function.Injective fun c : Config => Json.render c.toJson) :=
  ⟨⟨Status.ofText_render, injective_of_reads Status.ofText_render⟩,
    ⟨Setting.Snapshot.ofText_render, injective_of_reads Setting.Snapshot.ofText_render⟩,
    ⟨Config.ofText_render, injective_of_reads Config.ofText_render⟩⟩

example : Json.render (Setting.Snapshot.toJson { gridpathDatabase := some "C:\\\"io\"\t\x01" }) =
    "\x7b\"scenarios_directory\":null,\"gridpath_database\":\"C:\\\\\\\"io\\\"\\t\\u0001\",\"python_environment\":null\x7d" := by
  decide +kernel

end Dashboard
