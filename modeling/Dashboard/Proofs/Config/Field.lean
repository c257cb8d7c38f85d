import Dashboard.Config.Load
import Dashboard.Config.Printer
import Dashboard.Proofs.Layer.Overlay
import Dashboard.Proofs.Result
import Dashboard.Proofs.Shape.Record

/-! # The fields of a configuration

A configuration has eleven fields, in three tables. Each is read on its own: from its entry, or from its standard value if
there is no entry.

* `Config.Field`: the fields, with their places, their shapes and their standard values.
* `Field.ofLayers`, `Field.ofToml?`: the value of a field, from its entry.
* `exists_tables_iff`, `exists_records_iff`: a configuration is made of three tables, and these of the fields.
* `ofLayers_eq_ok_iff`: merged layers make a configuration exactly if their entries make its fields.
* `ofToml?_eq_some_iff`: the same for a document.
-/

namespace Dashboard.Config
set_option autoImplicit false
open Layer (Tree HasTable asTable entryAt)
open Shape (FieldValues FieldsHold emptyFields fieldsOfLayers fieldsOfLayers_eq_ok_iff fieldsOfLayers_nil optionOfLayers
  optionOfToml? takeEntries takeEntries_eq_some_iff)

inductive Field where
  | baseUrl
  | healthPath
  | runStatusPath
  | validationStatusPath
  | requestTimeout
  | serverInterval
  | runStatusInterval
  | validationStatusInterval
  | scenariosDirectory
  | gridpathDatabase
  | pythonEnvironment
  deriving DecidableEq, Repr

namespace Field

def all : List Field :=
  [baseUrl, healthPath, runStatusPath, validationStatusPath, requestTimeout, serverInterval, runStatusInterval,
    validationStatusInterval, scenariosDirectory, gridpathDatabase, pythonEnvironment]

def table : Field → String
  | .baseUrl | .healthPath | .runStatusPath | .validationStatusPath | .requestTimeout => "server"
  | .serverInterval | .runStatusInterval | .validationStatusInterval => "polling"
  | .scenariosDirectory | .gridpathDatabase | .pythonEnvironment => "settings"

def key : Field → String
  | .baseUrl => "base_url"
  | .healthPath => "health_path"
  | .runStatusPath => "run_status_path"
  | .validationStatusPath => "validation_status_path"
  | .requestTimeout => "request_timeout_ms"
  | .serverInterval => "server_interval_ms"
  | .runStatusInterval => "run_status_interval_ms"
  | .validationStatusInterval => "validation_status_interval_ms"
  | .scenariosDirectory => "scenarios_directory"
  | .gridpathDatabase => "gridpath_database"
  | .pythonEnvironment => "python_environment"

/-- The name under which variables and defaults know the field. -/
def name (f : Field) : String := f.table ++ "." ++ f.key

def shape : Field → Shape
  | .baseUrl | .healthPath | .runStatusPath | .validationStatusPath => .text
  | .requestTimeout | .serverInterval | .runStatusInterval | .validationStatusInterval => .natural
  | .scenariosDirectory | .gridpathDatabase | .pythonEnvironment => .optional .text

def get : (f : Field) → Config → f.shape.Value
  | .baseUrl, c => c.server.baseUrl
  | .healthPath, c => c.server.healthPath
  | .runStatusPath, c => c.server.runStatusPath
  | .validationStatusPath, c => c.server.validationStatusPath
  | .requestTimeout, c => c.server.requestTimeout
  | .serverInterval, c => c.polling.server
  | .runStatusInterval, c => c.polling.runStatus
  | .validationStatusInterval, c => c.polling.validationStatus
  | .scenariosDirectory, c => c.settings.scenariosDirectory
  | .gridpathDatabase, c => c.settings.gridpathDatabase
  | .pythonEnvironment, c => c.settings.pythonEnvironment

/-- The value of the field where nothing is said about it. -/
def standard (f : Field) : f.shape.Value := f.get {}

theorem mem_all (f : Field) : f ∈ all := by cases f <;> decide

theorem map_name_all : all.map name = fields := by decide +kernel

theorem stepsOf_name (f : Field) : Layer.stepsOf f.name = [.child f.table, .child f.key] := by
  have hall : ∀ f ∈ all, Layer.stepsOf f.name = [.child f.table, .child f.key] := by decide +kernel
  exact hall f f.mem_all

theorem eq_of_stepsOf {f g : Field} (h : Layer.stepsOf f.name = Layer.stepsOf g.name) : f = g := by
  have hnodup : (all.map key).Nodup := by decide +kernel
  rw [f.stepsOf_name, g.stepsOf_name] at h
  simp only [List.cons.injEq, Layer.Step.child.injEq, and_true] at h
  exact List.inj_on_of_nodup_map hnodup f.mem_all g.mem_all h.2

/-- The value of the field, from its entry if there is one. -/
def ofLayers (f : Field) (entry : Option Tree) : Except Layer.Fault f.shape.Value :=
  entry.elim (.ok f.standard) f.shape.ofLayers

/-- The same in a document. -/
def ofToml? (f : Field) (entry : Option Toml) : Option f.shape.Value :=
  entry.elim (some f.standard) f.shape.ofToml?

end Field

/-! ## Records of fields -/

/-- The fields of a record. -/
def fieldsOf : Shape → List (String × Shape)
  | .record _ _ fields => fields
  | _ => []

/-- A setting that is absent and one that is missing come to the same. -/
theorem settingsOfValue_eq (x y z : Option (Option String)) :
    settingsOfValue (x, y, z, ()) = ⟨x.getD none, y.getD none, z.getD none⟩ := by
  cases x <;> cases y <;> cases z <;> rfl

/-- Three records make a configuration exactly if their values, or the standard ones in their place, are those of its
fields. -/
theorem exists_records_iff (R : String → String → (s : Shape) → Option s.Value → Prop) (c : Config) :
    ((∃ v, FieldsHold (R "server") (fieldsOf Server.shape) v ∧ Server.ofValue v = c.server) ∧
      (∃ v, FieldsHold (R "polling") (fieldsOf Polling.shape) v ∧ Polling.ofValue v = c.polling) ∧
      ∃ v, FieldsHold (R "settings") (fieldsOf settingsShape) v ∧ settingsOfValue v = c.settings) ↔
      ∀ f : Field, ∃ x, R f.table f.key f.shape x ∧ x.getD f.standard = f.get c := by
  constructor
  · obtain ⟨server, polling, settings⟩ := c
    rintro ⟨⟨⟨x₁, x₂, x₃, x₄, x₅, ⟨⟩⟩, ⟨h₁, h₂, h₃, h₄, h₅, -⟩, ⟨⟩⟩,
      ⟨⟨x₆, x₇, x₈, ⟨⟩⟩, ⟨h₆, h₇, h₈, -⟩, ⟨⟩⟩, ⟨⟨x₉, x₁₀, x₁₁, ⟨⟩⟩, ⟨h₉, h₁₀, h₁₁, -⟩, hsettings⟩⟩
    cases (settingsOfValue_eq x₉ x₁₀ x₁₁).symm.trans hsettings
    intro f
    cases f
    · exact ⟨x₁, h₁, rfl⟩
    · exact ⟨x₂, h₂, rfl⟩
    · exact ⟨x₃, h₃, rfl⟩
    · exact ⟨x₄, h₄, rfl⟩
    · exact ⟨x₅, h₅, rfl⟩
    · exact ⟨x₆, h₆, rfl⟩
    · exact ⟨x₇, h₇, rfl⟩
    · exact ⟨x₈, h₈, rfl⟩
    · exact ⟨x₉, h₉, rfl⟩
    · exact ⟨x₁₀, h₁₀, rfl⟩
    · exact ⟨x₁₁, h₁₁, rfl⟩
  · intro h
    choose x hx hget using h
    refine ⟨⟨(x .baseUrl, x .healthPath, x .runStatusPath, x .validationStatusPath, x .requestTimeout, ()),
        ⟨hx .baseUrl, hx .healthPath, hx .runStatusPath, hx .validationStatusPath, hx .requestTimeout, trivial⟩, ?_⟩,
      ⟨(x .serverInterval, x .runStatusInterval, x .validationStatusInterval, ()),
        ⟨hx .serverInterval, hx .runStatusInterval, hx .validationStatusInterval, trivial⟩, ?_⟩,
      ⟨(x .scenariosDirectory, x .gridpathDatabase, x .pythonEnvironment, ()),
        ⟨hx .scenariosDirectory, hx .gridpathDatabase, hx .pythonEnvironment, trivial⟩, ?_⟩⟩
    · exact (Server.mk.injEq ..).mpr
        ⟨hget .baseUrl, hget .healthPath, hget .runStatusPath, hget .validationStatusPath, hget .requestTimeout⟩
    · exact (Polling.mk.injEq ..).mpr ⟨hget .serverInterval, hget .runStatusInterval, hget .validationStatusInterval⟩
    · refine (settingsOfValue_eq _ _ _).trans ?_
      exact (Setting.Snapshot.mk.injEq ..).mpr
        ⟨hget .scenariosDirectory, hget .gridpathDatabase, hget .pythonEnvironment⟩

/-- Tables make a configuration exactly if each of them, or the standard one in its place, makes its part. -/
theorem exists_tables_iff (R : String → (s : Shape) → Option s.Value → Prop) (c : Config) :
    (∃ v, FieldsHold R (fieldsOf shape) v ∧ ofValue v = c) ↔
      (∃ x, R "server" Server.shape x ∧ (x.map Server.ofValue).getD {} = c.server) ∧
      (∃ x, R "polling" Polling.shape x ∧ (x.map Polling.ofValue).getD {} = c.polling) ∧
      ∃ x, R "settings" settingsShape x ∧ (x.map settingsOfValue).getD {} = c.settings := by
  constructor
  · rintro ⟨⟨x₁, x₂, x₃, ⟨⟩⟩, ⟨h₁, h₂, h₃, -⟩, rfl⟩
    exact ⟨⟨x₁, h₁, rfl⟩, ⟨x₂, h₂, rfl⟩, ⟨x₃, h₃, rfl⟩⟩
  · rintro ⟨⟨x₁, h₁, e₁⟩, ⟨x₂, h₂, e₂⟩, ⟨x₃, h₃, e₃⟩⟩
    exact ⟨(x₁, x₂, x₃, ()), ⟨h₁, h₂, h₃, trivial⟩, (Config.mk.injEq ..).mpr ⟨e₁, e₂, e₃⟩⟩

section
variable {V α : Type} {ofValue : V → α} {standard : α} {read : Option V → Prop} {held : V → Prop} {y : α}

/-- A table that is missing, if it counts as an empty one. -/
theorem exists_missing_iff {empty : V} (hempty : ofValue empty = standard) (hread : ∀ x, read x ↔ none = x)
    (hheld : ∀ v, held v ↔ empty = v) :
    (∃ x, read x ∧ (x.map ofValue).getD standard = y) ↔ ∃ v, held v ∧ ofValue v = y := by
  simp only [hread, hheld, exists_eq_left', Option.map_none, Option.getD_none, hempty]

/-- A table that is present. -/
theorem exists_present_iff (hread : ∀ x, read x ↔ ∃ v, held v ∧ some v = x) :
    (∃ x, read x ∧ (x.map ofValue).getD standard = y) ↔ ∃ v, held v ∧ ofValue v = y := by
  constructor
  · rintro ⟨x, hx, rfl⟩
    obtain ⟨v, hv, rfl⟩ := (hread x).1 hx
    exact ⟨v, hv, rfl⟩
  · rintro ⟨v, hv, rfl⟩
    exact ⟨some v, (hread _).2 ⟨v, hv, rfl⟩, rfl⟩

end

/-- Any values of the fields are those of a configuration. -/
theorem exists_get_eq (value : (f : Field) → f.shape.Value) : ∃ c : Config, ∀ f, f.get c = value f := by
  refine ⟨⟨⟨value .baseUrl, value .healthPath, value .runStatusPath, value .validationStatusPath,
    value .requestTimeout⟩, ⟨value .serverInterval, value .runStatusInterval, value .validationStatusInterval⟩,
    ⟨value .scenariosDirectory, value .gridpathDatabase, value .pythonEnvironment⟩⟩, ?_⟩
  intro f
  cases f <;> rfl

/-! ## Merged layers -/

/-- A missing value gives way to the standard one. -/
theorem Field.ofLayers_eq_ok_iff {f : Field} {entry : Option Tree} {y : f.shape.Value} :
    f.ofLayers entry = .ok y ↔ ∃ x, optionOfLayers f.shape entry = .ok x ∧ x.getD f.standard = y := by
  cases entry with
  | none => simp [ofLayers, optionOfLayers]
  | some t => simp [ofLayers, optionOfLayers, map_eq_ok_iff]

section
variable {label : String} {fillsIn : Bool} {fields : List (String × Shape)} {α : Type} (ofValue : FieldValues fields → α)
  {standard : α} (hempty : ofValue (emptyFields fields) = standard) {name : String}
include hempty

/-- A missing table is read like an empty one. -/
theorem table_eq_ok_iff {es : Entries Tree} (htable : HasTable name es) {y : α} :
    (∃ x, optionOfLayers (.record label fillsIn fields) (es.lookup name) = .ok x ∧
      (x.map ofValue).getD standard = y) ↔
      ∃ v, FieldsHold (fun key s x => optionOfLayers s (entryAt name key es) = .ok x) fields v ∧ ofValue v = y := by
  have hfields (v : FieldValues fields) :
      FieldsHold (fun key s x => optionOfLayers s (entryAt name key es) = .ok x) fields v ↔
        fieldsOfLayers fields (asTable (es.lookup name)).2 = .ok v := fieldsOfLayers_eq_ok_iff.symm
  simp only [hfields]
  cases hlookup : es.lookup name with
  | none =>
    have hread : fieldsOfLayers fields (asTable none).2 = .ok (emptyFields fields) := fieldsOfLayers_nil fields
    rw [hread]
    exact exists_missing_iff hempty (fun _ => ⟨Except.ok.inj, congrArg Except.ok⟩) fun _ =>
      ⟨Except.ok.inj, congrArg Except.ok⟩
  | some t =>
    obtain ⟨o, inner, rfl⟩ := htable t hlookup
    exact exists_present_iff fun _ => map_eq_ok_iff

end

section
variable {es : Entries Tree} (htables : ∀ f : Field, HasTable f.table es) (o : Option String) (c : Config)
include htables

/-- Merged layers make a configuration exactly if their entries make its fields. -/
theorem ofLayers_eq_ok_iff : (shape.ofLayers (.table o es)).map ofValue = .ok c ↔
    ∀ f : Field, f.ofLayers (entryAt f.table f.key es) = .ok (f.get c) := by
  have hread (v : shape.Value) : shape.ofLayers (.table o es) = .ok v ↔
      FieldsHold (fun name s x => optionOfLayers s (es.lookup name) = .ok x) (fieldsOf shape) v :=
    fieldsOfLayers_eq_ok_iff
  simp only [map_eq_ok_iff, hread, Field.ofLayers_eq_ok_iff]
  rw [← exists_records_iff (fun name key s x => optionOfLayers s (entryAt name key es) = .ok x) c]
  refine (exists_tables_iff _ c).trans (Iff.and ?_ (Iff.and ?_ ?_))
  · exact table_eq_ok_iff Server.ofValue rfl (htables .baseUrl)
  · exact table_eq_ok_iff Polling.ofValue rfl (htables .serverInterval)
  · exact table_eq_ok_iff settingsOfValue rfl (htables .scenariosDirectory)

end

/-! ## Documents -/

/-- The entries of a table in a document; anything but a table has none. -/
def tableOf : Option Toml → Entries Toml
  | some (.table es) => es
  | _ => []

/-- What stands at a name, in the table at another name. -/
def tomlAt (a b : String) (es : Entries Toml) : Option Toml := (tableOf (es.lookup a)).lookup b

/-- Every name stands once, in a document and in its tables of fields, and these are tables. -/
structure IsTabular (es : Entries Toml) : Prop where
  names : (es.map Prod.fst).Nodup
  tables : ∀ f : Field, ∀ v, es.lookup f.table = some v → ∃ inner, v = .table inner
  keys : ∀ f : Field, ((tableOf (es.lookup f.table)).map Prod.fst).Nodup

theorem Field.ofToml?_eq_some_iff {f : Field} {entry : Option Toml} {y : f.shape.Value} :
    f.ofToml? entry = some y ↔ ∃ x, optionOfToml? f.shape entry = some x ∧ x.getD f.standard = y := by
  cases entry with
  | none => simp [ofToml?, optionOfToml?]
  | some v => simp [ofToml?, optionOfToml?]

section
variable {label : String} {fillsIn : Bool} {fields : List (String × Shape)} (hfields : (fields.map Prod.fst).Nodup)
  {α : Type} (ofValue : FieldValues fields → α) {standard : α} (hempty : ofValue (emptyFields fields) = standard)
  {name : String} {es : Entries Toml} (htable : ∀ v, es.lookup name = some v → ∃ inner, v = .table inner)
  (hkeys : ((tableOf (es.lookup name)).map Prod.fst).Nodup)
include hfields hempty htable hkeys

/-- A missing table is read like an empty one. -/
theorem table_eq_some_iff {y : α} :
    (∃ x, optionOfToml? (.record label fillsIn fields) (es.lookup name) = some x ∧
      (x.map ofValue).getD standard = y) ↔
      ∃ v, FieldsHold (fun key s x => optionOfToml? s (tomlAt name key es) = some x) fields v ∧ ofValue v = y := by
  have hread (v : FieldValues fields) :
      FieldsHold (fun key s x => optionOfToml? s (tomlAt name key es) = some x) fields v ↔
        takeEntries fields (emptyFields fields) (tableOf (es.lookup name)) = some v :=
    (takeEntries_eq_some_iff hkeys hfields).symm
  simp only [hread]
  cases hlookup : es.lookup name with
  | none =>
    exact exists_missing_iff hempty (fun _ => ⟨Option.some.inj, congrArg some⟩) fun _ =>
      ⟨Option.some.inj, congrArg some⟩
  | some v =>
    obtain ⟨inner, rfl⟩ := htable v hlookup
    exact exists_present_iff fun _ => Option.map_eq_some_iff

end

theorem nodup_fields : ((fieldsOf shape).map Prod.fst).Nodup ∧ ((fieldsOf Server.shape).map Prod.fst).Nodup ∧
    ((fieldsOf Polling.shape).map Prod.fst).Nodup ∧ ((fieldsOf settingsShape).map Prod.fst).Nodup := by
  decide +kernel

/-- A document makes a configuration exactly if its entries make its fields. -/
theorem ofToml?_eq_some_iff {es : Entries Toml} (hes : IsTabular es) (c : Config) :
    (shape.ofToml? (.table es)).map ofValue = some c ↔
      ∀ f : Field, f.ofToml? (tomlAt f.table f.key es) = some (f.get c) := by
  obtain ⟨hshape, hserver, hpolling, hsettings⟩ := nodup_fields
  have hread (v : shape.Value) : shape.ofToml? (.table es) = some v ↔
      FieldsHold (fun name s x => optionOfToml? s (es.lookup name) = some x) (fieldsOf shape) v :=
    takeEntries_eq_some_iff hes.names hshape
  simp only [Option.map_eq_some_iff, hread, Field.ofToml?_eq_some_iff]
  rw [← exists_records_iff (fun name key s x => optionOfToml? s (tomlAt name key es) = some x) c]
  refine (exists_tables_iff _ c).trans (Iff.and ?_ (Iff.and ?_ ?_))
  · exact table_eq_some_iff hserver Server.ofValue rfl (hes.tables .baseUrl) (hes.keys .baseUrl)
  · exact table_eq_some_iff hpolling Polling.ofValue rfl (hes.tables .serverInterval) (hes.keys .serverInterval)
  · exact table_eq_some_iff hsettings settingsOfValue rfl (hes.tables .scenariosDirectory) (hes.keys .scenariosDirectory)

end Dashboard.Config
