import Dashboard.Proofs.Config.Layering
import Dashboard.Proofs.Toml.Keys

/-! # The two readers agree

What the strict reader of documents accepts, the loose reader of layers reads as the same configuration: a strict value keeps
its meaning in a layer, and the defaults are the values that the strict reader fills in.

* `IsSingle.ofLayers`: a strict value in a layer.
* `IsPlainDocument`: a document whose names can be taken for names of layers as they stand.
* `namedAt_entriesOfToml`, `sectioned_entriesOfToml`: such a document as a layer.
* `layers_of_ofToml?`: the configuration that the layers make.
* `readers_agree`: the file that is loaded.
-/

namespace Dashboard.Config
set_option autoImplicit false
open Layer (Tree HasTable asTable namedAt lowered lowerName entriesOfToml)

/-! ## Values -/

/-- The shape of a single value. -/
inductive IsSingle : Shape → Prop
  | text : IsSingle .text
  | natural : IsSingle .natural
  | optional {item : Shape} (h : IsSingle item) : IsSingle (.optional item)

theorem Field.isSingle (f : Field) : IsSingle f.shape := by
  cases f
  case baseUrl | healthPath | runStatusPath | validationStatusPath => exact .text
  case requestTimeout | serverInterval | runStatusInterval | validationStatusInterval => exact .natural
  case scenariosDirectory | gridpathDatabase | pythonEnvironment => exact .optional .text

/-- A single value that the strict reader accepts is one in a layer, and is read there as the same. -/
theorem IsSingle.ofLayers {s : Shape} (hs : IsSingle s) {v : Toml} {x : s.Value} (h : s.ofToml? v = some x)
    (place : String) :
    s.ofLayers (Layer.ofToml place v) = .ok x ∧
      ∃ p scalar, Layer.ofToml place v = .leaf p scalar ∧ scalar ≠ .null := by
  induction hs generalizing v with
  | text =>
    cases v with
    | text t =>
      cases h
      exact ⟨rfl, _, _, rfl, by simp⟩
    | _ => cases h
  | natural =>
    cases v with
    | int z =>
      have hread : (if z < 0 then none else some (UInt64.ofNat z.toNat)) = some x := h
      by_cases hz : z < 0
      · rw [if_pos hz] at hread
        cases hread
      · rw [if_neg hz] at hread
        cases hread
        exact ⟨if_neg hz, _, _, rfl, by simp⟩
    | _ => cases h
  | @optional item _ ih =>
    obtain ⟨y, hy, rfl⟩ := Option.map_eq_some_iff.1 h
    obtain ⟨hread, p, scalar, hleaf, hnull⟩ := ih hy
    refine ⟨?_, p, scalar, hleaf, hnull⟩
    -- Null is the one single value for which an optional value is absent.
    have hsome : Shape.ofLayers (.optional item) (.leaf p scalar) = (item.ofLayers (.leaf p scalar)).map some := by
      cases scalar with
      | null => exact absurd rfl hnull
      | _ => rfl
    rw [hleaf] at hread ⊢
    rw [hsome, hread]
    rfl

/-! ## Documents -/

/-- All names of the document and of its sections are in lower case, those of the top level are plain, and sections are
tables. -/
structure IsPlainDocument (es : Entries Toml) : Prop where
  names : ∀ e ∈ es, Layer.IsPlain e.1 ∧ lowerName e.1 = e.1
  tables : ∀ f : Field, ∀ v, es.lookup f.table = some v → ∃ inner, v = .table inner
  keys : ∀ f : Field, ∀ e ∈ tableOf (es.lookup f.table), lowerName e.1 = e.1

theorem IsPlainDocument.of_sections {ss : List Toml.Section}
    (hnames : ∀ s ∈ ss, Layer.IsPlain s.name ∧ lowerName s.name = s.name)
    (hkeys : ∀ s ∈ ss, ∀ e ∈ s.entries, lowerName e.1 = e.1) : IsPlainDocument (ss.map Toml.Section.value) := by
  have hfound {name : String} {v : Toml} (h : (ss.map Toml.Section.value).lookup name = some v) :
      ∃ s ∈ ss, v = .table (s.entries.map fun e => (e.1, e.2.value)) := by
    obtain ⟨s, hs, hvalue⟩ := List.mem_map.1 (Entries.mem_of_lookup h)
    exact ⟨s, hs, (congrArg Prod.snd hvalue).symm⟩
  refine ⟨fun e he => ?_, fun f v hv => ?_, fun f e he => ?_⟩
  · obtain ⟨s, hs, rfl⟩ := List.mem_map.1 he
    exact hnames s hs
  · obtain ⟨s, -, hs⟩ := hfound hv
    exact ⟨_, hs⟩
  · cases hv : (ss.map Toml.Section.value).lookup f.table with
    | none =>
      rw [hv] at he
      cases he
    | some v =>
      obtain ⟨s, hs, rfl⟩ := hfound hv
      rw [hv] at he
      obtain ⟨x, hx, rfl⟩ := List.mem_map.1 he
      exact hkeys s hs x hx

theorem lowered_eq_self {α : Type} {es : Entries α} (h : ∀ e ∈ es, lowerName e.1 = e.1) : lowered es = es := by
  conv_rhs => rw [← List.map_id es]
  exact List.map_congr_left fun e he => Prod.ext (h e he) rfl

section
variable {es : Entries Toml} (place : String)

theorem lookup_entriesOfToml (name : String) :
    (entriesOfToml place es).lookup name = (es.lookup name).map (Layer.ofToml place) := by
  rw [Layer.entriesOfToml_eq_map, Entries.lookup_map]

theorem lowered_entriesOfToml (h : ∀ e ∈ es, lowerName e.1 = e.1) :
    lowered (entriesOfToml place es) = entriesOfToml place es := by
  refine lowered_eq_self fun e he => ?_
  rw [Layer.entriesOfToml_eq_map] at he
  obtain ⟨x, hx, rfl⟩ := List.mem_map.1 he
  exact h x hx

theorem map_fst_entriesOfToml : (entriesOfToml place es).map Prod.fst = es.map Prod.fst := by
  rw [Layer.entriesOfToml_eq_map, List.map_map]
  rfl

theorem asTable_ofToml (v : Option Toml) :
    (asTable (v.map (Layer.ofToml place))).2 = entriesOfToml place (tableOf v) := by
  rcases v with _ | (_ | _ | _ | _ | _ | _ | _) <;> rfl

variable (hes : IsPlainDocument es)
include hes

theorem IsPlainDocument.lookup_lowered (f : Field) :
    (lowered (entriesOfToml place es)).lookup f.table = (es.lookup f.table).map (Layer.ofToml place) := by
  rw [lowered_entriesOfToml place fun e he => (hes.names e he).2, lookup_entriesOfToml]

theorem IsPlainDocument.namedAt (f : Field) : namedAt f.table f.key (entriesOfToml place es) =
    (tomlAt f.table f.key es).map (Layer.ofToml place) := by
  rw [Layer.namedAt, hes.lookup_lowered, asTable_ofToml, lowered_entriesOfToml place (hes.keys f), lookup_entriesOfToml,
    tomlAt]

variable (htidy : Toml.KeysOnce Toml.Tidy es)
include htidy

theorem IsPlainDocument.nodup_keys (f : Field) : ((tableOf (es.lookup f.table)).map Prod.fst).Nodup := by
  cases htable : es.lookup f.table with
  | none => exact List.nodup_nil
  | some v =>
    obtain ⟨inner, rfl⟩ := hes.tables f v htable
    exact (htidy.of_lookup htable).keysOnce.nodup

theorem IsPlainDocument.isTabular : IsTabular es where
  names := htidy.nodup
  tables := hes.tables
  keys := hes.nodup_keys htidy

/-- A document with readable fields is one of sections. -/
theorem IsPlainDocument.isSectioned {c : Config}
    (hread : ∀ f : Field, f.ofToml? (tomlAt f.table f.key es) = some (f.get c)) :
    IsSectioned (entriesOfToml place es) where
  plain e he := by
    rw [Layer.entriesOfToml_eq_map] at he
    obtain ⟨x, hx, rfl⟩ := List.mem_map.1 he
    exact (hes.names x hx).1
  names := by
    rw [lowered_entriesOfToml place fun e he => (hes.names e he).2, map_fst_entriesOfToml]
    exact htidy.nodup
  tables f t ht := by
    rw [hes.lookup_lowered] at ht
    obtain ⟨v, hv, rfl⟩ := Option.map_eq_some_iff.1 ht
    obtain ⟨inner, rfl⟩ := hes.tables f v hv
    exact ⟨some place, entriesOfToml place inner, rfl⟩
  keys f := by
    rw [hes.lookup_lowered, asTable_ofToml, lowered_entriesOfToml place (hes.keys f), map_fst_entriesOfToml]
    exact hes.nodup_keys htidy f
  leaves f t ht := by
    rw [hes.namedAt] at ht
    obtain ⟨v, hv, rfl⟩ := Option.map_eq_some_iff.1 ht
    have hf := hread f
    rw [hv] at hf
    obtain ⟨-, p, scalar, hleaf, -⟩ := f.isSingle.ofLayers hf place
    exact ⟨p, scalar, hleaf⟩

/-- A document that the strict reader accepts makes the same configuration as a layer over the defaults. -/
theorem layers_of_ofToml? {c : Config} (h : (shape.ofToml? (.table es)).map ofValue = some c) :
    ofLayers [defaults, entriesOfToml place es, []] = .ok c := by
  have hread := (ofToml?_eq_some_iff (hes.isTabular htidy) c).1 h
  refine (layers_eq_ok_iff (hes.isSectioned place htidy hread) .nil c).2 fun f => ?_
  have hf := hread f
  rw [List.lookup_nil, Option.none_or, hes.namedAt]
  cases hv : tomlAt f.table f.key es with
  | none =>
    rw [hv] at hf
    exact congrArg Except.ok (Option.some.inj hf)
  | some v =>
    rw [hv] at hf
    exact (f.isSingle.ofLayers hf place).1

end

/-! ## Loading -/

/-- Variables that are not meant for the dashboard make up no layer. -/
theorem variableLayer_eq_nil {environment : Entries String} (h : ∀ v ∈ environment, fieldOf? v.1 = none) :
    variableLayer environment = [] := by
  rw [variableLayer, List.filterMap_eq_nil_iff]
  intro v hv
  rw [h v hv, Option.map_none]

/-- A file at the path itself is found, if its ending is that of a format. -/
theorem File.find?_of_ending {read : String → Option String} {path text : String} {format : Layer.Format}
    (hname : endsInName path = true) (hending : (pathParts path).getLast?.bind ending? = some format.ending)
    (hread : read (shownPath path) = some text) :
    File.find? read path = some ⟨shownPath path, format, text⟩ := by
  have hformat : Layer.Format.ofEnding? format.ending = some format := by
    cases format <;> decide +kernel
  rw [find?, if_pos hname, hread]
  simp only [hending, Option.bind_some, hformat, Option.map_some]

/-- A TOML file over the defaults, and nothing over it. -/
theorem load_eq_ofLayers {t : String} {es : Entries Toml} (hparse : Toml.parse? t = some es)
    {read : String → Option String} {environment : Entries String} {path place : String}
    (hfile : File.find? read path = some ⟨place, .toml, t⟩) (henvironment : ∀ v ∈ environment, fieldOf? v.1 = none) :
    load read environment path = ofLayers [defaults, entriesOfToml place es, []] := by
  have hlayer : fileLayer (some ⟨place, .toml, t⟩) = .ok (entriesOfToml place es) := by
    simp only [fileLayer, Layer.ofDocument?, hparse, Option.map_some]
  rw [load, hfile, hlayer, variableLayer_eq_nil henvironment]
  rfl

/-- **The two readers agree.** Let the strict reader accept a text in which all names are plain and in lower case and the
sections are tables where they are present. Whoever loads a TOML file with this text, while no variable of the environment
is meant for the dashboard, gets the same configuration. -/
theorem readers_agree {t : String} {es : Entries Toml} (hparse : Toml.parse? t = some es) (hes : IsPlainDocument es)
    {c : Config} (hstrict : ofToml? t = some c) {read : String → Option String} {environment : Entries String}
    {path place : String} (hfile : File.find? read path = some ⟨place, .toml, t⟩)
    (henvironment : ∀ v ∈ environment, fieldOf? v.1 = none) : load read environment path = .ok c := by
  have hvalue : (shape.ofToml? (.table es)).map ofValue = some c := by
    rwa [ofToml?, hparse, Option.bind_some] at hstrict
  rw [load_eq_ofLayers hparse hfile henvironment]
  exact layers_of_ofToml? place hes (Toml.parse?_tidy hparse) hvalue

/-- A document with a section and a key that no configuration has, and without one of its sections. -/
def partialSections : List Toml.Section :=
  [{ name := "plugins", entries := [("server", .text "none")] },
    { name := "server", entries := [("retries", .natural 3), ("request_timeout_ms", .natural 250)] },
    { name := "settings", entries := [("python_environment", .text "")] }]

def partialText : String :=
  "[plugins]\nserver = \"none\"\n\n[server]\nretries = 3\nrequest_timeout_ms = 250\n\n" ++
  "[settings]\npython_environment = \"\"\n"

theorem parse?_partialText : Toml.parse? partialText = some (partialSections.map Toml.Section.value) :=
  Toml.parse?_render (by decide +kernel) ⟨by decide +kernel, by decide +kernel⟩ (by decide +kernel)

theorem plain_partialSections : IsPlainDocument (partialSections.map Toml.Section.value) :=
  .of_sections (by decide +kernel) (by decide +kernel)

theorem readers_agree_partial :
    load (Directory.read? [("conf/statusboard.toml", partialText)]) [("PATH", "/bin"), ("STATUS", "up")]
      "conf/statusboard.toml" =
      .ok { server := { requestTimeout := 250 }, settings := { pythonEnvironment := some "" } } := by
  refine readers_agree parse?_partialText plain_partialSections ?_ (File.find?_of_ending ?_ ?_ ?_) ?_
  · decide +kernel
  · decide +kernel
  · decide +kernel
  · decide +kernel
  · decide +kernel

end Dashboard.Config
