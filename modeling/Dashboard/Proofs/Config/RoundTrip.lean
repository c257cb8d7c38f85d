import Dashboard.Config.Directory
import Dashboard.Proofs.Config.Agreement

/-! # Printed configurations are read back

A configuration is printed as three sections, each of which writes one field of the layout. Its text is read back by the
strict reader, and as a configuration file over the defaults.

* `sections_eq`, `plain_sections`: the sections and their names.
* `exists_toToml_iff`, `all_fits_iff`: which configurations are printed.
* `ofToml?_sections`: each field stands at its place.
* `ofToml?_toToml`, `load_toToml`: the two readers.
* `toToml_round_trip`: all of it together.
-/

namespace Dashboard.Config
set_option autoImplicit false
open Shape Toml

/-! ## The sections -/

def serverEntries (s : Server) : List (String × Leaf) :=
  [("base_url", .text s.baseUrl), ("health_path", .text s.healthPath), ("run_status_path", .text s.runStatusPath),
    ("validation_status_path", .text s.validationStatusPath),
    ("request_timeout_ms", .natural s.requestTimeout.toNat)]

def pollingEntries (p : Polling) : List (String × Leaf) :=
  [("server_interval_ms", .natural p.server.toNat), ("run_status_interval_ms", .natural p.runStatus.toNat),
    ("validation_status_interval_ms", .natural p.validationStatus.toNat)]

theorem sections_eq (c : Config) : c.sections =
    [⟨"server", serverEntries c.server⟩, ⟨"polling", pollingEntries c.polling⟩,
      ⟨"settings", settingEntries c.settings⟩] := rfl

theorem settingEntries_sublist (s : Setting.Snapshot) :
    ((settingEntries s).map Prod.fst).Sublist ((fieldsOf settingsShape).map Prod.fst) := by
  rcases s with ⟨_ | _, _ | _, _ | _⟩ <;> exact List.isSublist_iff_sublist.1 rfl

/-! ## Names -/

/-- The name can be a key as it stands, and a layer takes it as it stands. -/
structure IsPlainName (name : String) : Prop where
  bare : isBare name = true
  lower : Layer.lowerName name = name
  steps : Layer.stepsOf name = [.child name]

instance (name : String) : Decidable (IsPlainName name) :=
  decidable_of_iff
    (isBare name = true ∧ Layer.lowerName name = name ∧ Layer.stepsOf name = [.child name])
    ⟨fun ⟨bare, lower, steps⟩ => ⟨bare, lower, steps⟩, fun h => ⟨h.bare, h.lower, h.steps⟩⟩

theorem plain_fields : ∀ f ∈ fieldsOf shape, IsPlainName f.1 ∧
    ((fieldsOf f.2).map Prod.fst).Nodup ∧ ∀ key ∈ (fieldsOf f.2).map Prod.fst, IsPlainName key := by
  decide +kernel

section
variable (c : Config)

theorem exists_field {s : Section} (hs : s ∈ c.sections) :
    ∃ f ∈ fieldsOf shape, s.name = f.1 ∧ (s.entries.map Prod.fst).Sublist ((fieldsOf f.2).map Prod.fst) := by
  rw [sections_eq] at hs
  simp only [List.mem_cons, List.not_mem_nil, or_false] at hs
  rcases hs with rfl | rfl | rfl
  · exact ⟨("server", Server.shape), by simp [fieldsOf, shape], rfl, List.Sublist.refl _⟩
  · exact ⟨("polling", Polling.shape), by simp [fieldsOf, shape], rfl, List.Sublist.refl _⟩
  · exact ⟨("settings", settingsShape), by simp [fieldsOf, shape], rfl, settingEntries_sublist c.settings⟩

theorem plain_sections {s : Section} (hs : s ∈ c.sections) :
    IsPlainName s.name ∧ (s.entries.map Prod.fst).Nodup ∧ ∀ e ∈ s.entries, IsPlainName e.1 := by
  obtain ⟨f, hf, hname, hsub⟩ := exists_field c hs
  obtain ⟨hplain, hnodup, hkeys⟩ := plain_fields f hf
  refine ⟨hname ▸ hplain, hnodup.sublist hsub, fun e he => hkeys e.1 (hsub.mem ?_)⟩
  exact List.mem_map_of_mem he

theorem isBare_sections {s : Section} (hs : s ∈ c.sections) : s.isBare = true := by
  obtain ⟨hname, -, hkeys⟩ := plain_sections c hs
  rw [Section.isBare, Bool.and_eq_true, List.all_eq_true]
  exact ⟨hname.bare, fun e he => (hkeys e he).bare⟩

theorem distinct_sections : Distinct c.sections where
  names := by
    show ["server", "polling", "settings"].Nodup
    decide +kernel
  keys _ hs := (plain_sections c hs).2.1

/-! ## The text -/

theorem exists_toToml_iff : (∃ t, c.toToml = .ok t) ↔ c.sections.all Section.fits = true := by
  rw [toToml, render_eq]
  cases c.sections.all Section.fits <;> simp

theorem all_fits_iff : c.sections.all Section.fits = true ↔
    c.server.requestTimeout.toNat ≤ 9223372036854775807 ∧ c.polling.server.toNat ≤ 9223372036854775807 ∧
      c.polling.runStatus.toNat ≤ 9223372036854775807 ∧ c.polling.validationStatus.toNat ≤ 9223372036854775807 := by
  have hnatural (n : UInt64) : (Leaf.natural n.toNat).fits = true ↔ n.toNat ≤ 9223372036854775807 := by
    rw [Leaf.fits, decide_eq_true_iff, Word.signedBound]
    omega
  have htext (t : String) : (Leaf.text t).fits = true := rfl
  -- Only numbers can be too large, and settings are texts.
  have hsettings : (⟨"settings", settingEntries c.settings⟩ : Section).fits = true := by
    obtain ⟨_, _, ⟨_ | _, _ | _, _ | _⟩⟩ := c <;> rfl
  rw [sections_eq]
  simp only [List.all_cons, List.all_nil, Bool.and_true, Bool.and_eq_true, hsettings]
  simp only [Section.fits, serverEntries, pollingEntries, List.all_cons, List.all_nil, Bool.and_true, Bool.and_eq_true,
    htext, true_and, hnatural]

end

theorem parse?_toToml {c : Config} {t : String} (ht : c.toToml = .ok t) :
    parse? t = some (c.sections.map Section.value) :=
  parse?_render (fun _ hs => isBare_sections c hs) (distinct_sections c) ht

/-! ## The readers -/

theorem isPlain_of_isBare {name : String} (h : isBare name = true) : Layer.IsPlain name := by
  obtain ⟨-, hall⟩ : name.toList ≠ [] ∧ ∀ c ∈ name.toList, isBareKey c = true := by
    simpa [isBare] using h
  intro c hc
  have hbare := hall c hc
  simp only [isBareKey, Bool.or_eq_true] at hbare
  simp only [Layer.isNameChar, Bool.or_eq_true]
  exact .inl hbare

section
variable (c : Config)

theorem plain_document : IsPlainDocument (c.sections.map Section.value) := by
  refine .of_sections (fun s hs => ?_) (fun s hs e he => ?_)
  · have hname := (plain_sections c hs).1
    exact ⟨isPlain_of_isBare hname.bare, hname.lower⟩
  · exact ((plain_sections c hs).2.2 e he).lower

theorem ofToml?_natural (n : UInt64) : Shape.natural.ofToml? (.int n.toNat) = some n := by
  show (if (n.toNat : Int) < 0 then none else some (UInt64.ofNat (n.toNat : Int).toNat)) = some n
  rw [if_neg (Int.not_lt.2 (Int.natCast_nonneg _)), Int.toNat_natCast, UInt64.ofNat_toNat]

/-- Each field is read from its place in the sections. -/
theorem ofToml?_sections (f : Field) :
    f.ofToml? (tomlAt f.table f.key (c.sections.map Section.value)) = some (f.get c) := by
  obtain ⟨server, polling, ⟨s, g, p⟩⟩ := c
  cases f
  case baseUrl | healthPath | runStatusPath | validationStatusPath => rfl
  case requestTimeout | serverInterval | runStatusInterval | validationStatusInterval => exact ofToml?_natural _
  case scenariosDirectory | gridpathDatabase | pythonEnvironment => cases s <;> cases g <;> cases p <;> rfl

end

section
variable {c : Config} {t : String} (ht : c.toToml = .ok t)
include ht

theorem ofValue_toToml :
    (shape.ofToml? (.table (c.sections.map Section.value))).map Config.ofValue = some c :=
  (ofToml?_eq_some_iff ((plain_document c).isTabular (parse?_tidy (parse?_toToml ht))) c).2 (ofToml?_sections c)

theorem ofToml?_toToml : ofToml? t = some c := by
  rw [ofToml?, parse?_toToml ht, Option.bind_some, ofValue_toToml ht]

theorem load_toToml {read : String → Option String} {environment : Entries String} {path place : String}
    (hfile : File.find? read path = some ⟨place, .toml, t⟩) (henvironment : ∀ v ∈ environment, fieldOf? v.1 = none) :
    load read environment path = .ok c := by
  rw [load_eq_ofLayers (parse?_toToml ht) hfile henvironment]
  exact layers_of_ofToml? place (plain_document c) (parse?_tidy (parse?_toToml ht)) (ofValue_toToml ht)

end

/-! ## The round trip -/

/-- **A printed configuration is read back.** It is printed exactly if its four numbers are at most `2 ^ 63 - 1`. The strict
reader finds the configuration in its text, and so does whoever loads a TOML file with this text while no variable of the
environment is meant for the dashboard. -/
theorem toToml_round_trip (c : Config) :
    ((∃ t, c.toToml = .ok t) ↔
      c.server.requestTimeout.toNat ≤ 9223372036854775807 ∧ c.polling.server.toNat ≤ 9223372036854775807 ∧
        c.polling.runStatus.toNat ≤ 9223372036854775807 ∧ c.polling.validationStatus.toNat ≤ 9223372036854775807) ∧
    ∀ t, c.toToml = .ok t →
      ofToml? t = some c ∧
      ∀ read environment path place, File.find? read path = some ⟨place, .toml, t⟩ →
        (∀ v ∈ environment, fieldOf? v.1 = none) → load read environment path = .ok c := by
  refine ⟨(exists_toToml_iff c).trans (all_fits_iff c), ?_⟩
  intro t ht
  refine ⟨ofToml?_toToml ht, ?_⟩
  intro read environment path place hfile henvironment
  exact load_toToml ht hfile henvironment

/-- A configuration with texts for each form of string. -/
def quoted : Config where
  server :=
    { healthPath := "/say \"up\""
      runStatusPath := "'run' or \"status\""
      validationStatusPath := "\"\"\"it's valid\"\"\""
      requestTimeout := 9223372036854775807 }
  settings :=
    { scenariosDirectory := some "\n\"\"\"\"C:\\scenarios\r\n\""
      pythonEnvironment := some "\x01\t'\\\"" }

def quotedText : String :=
  "[server]\nbase_url = \"http://127.0.0.1:8080\"\nhealth_path = '/say \"up\"'\n" ++
  "run_status_path = \"\"\"'run' or \"status\"\"\"\"\nvalidation_status_path = '''\"\"\"it's valid\"\"\"'''\n" ++
  "request_timeout_ms = 9223372036854775807\n\n" ++
  "[polling]\nserver_interval_ms = 5000\nrun_status_interval_ms = 5000\nvalidation_status_interval_ms = 5000\n\n" ++
  "[settings]\nscenarios_directory = \"\"\"\n\n\"\"\\\"\"C:\\\\scenarios\\r\n\"\"\"\"\n" ++
  "python_environment = \"\\u0001\\t'\\\\\\\"\"\n"

theorem toToml_round_trip_quoted :
    quoted.toToml = .ok quotedText ∧ ofToml? quotedText = some quoted ∧
      load (Directory.read? [("conf/statusboard.toml", quotedText)]) [("PATH", "/bin"), ("STATUS", "up")]
        "conf/./statusboard.toml" = .ok quoted := by
  have hprinted : quoted.toToml = .ok quotedText := by decide +kernel
  have hround := (toToml_round_trip quoted).2 quotedText hprinted
  refine ⟨hprinted, hround.1, hround.2 _ _ _ _ (File.find?_of_ending ?_ ?_ ?_) ?_⟩
  · decide +kernel
  · decide +kernel
  · decide +kernel
  · decide +kernel

end Dashboard.Config
