import Dashboard.Config.Directory
import Dashboard.Proofs.Config.Field
import Dashboard.Proofs.Text.Digits
import Dashboard.Proofs.Toml.Document

/-! # Layers decide field by field

A field is what its variable says, else what the file says, else what the defaults say. What the other fields are does not
matter for it, and what a later layer hides is not read.

* `IsSectioned`, `IsFieldLayer`: the document, and the layers of defaults and variables.
* `IsSectioned.overlay`, `IsFieldLayer.overlay`: the layers, each by what it says about the fields.
* `layers_eq_ok_iff`: the configuration that they make.
* `assigned?`, `SetsFields`: what the environment says about a field.
* `asNatural_toString`: numbers in decimal digits.
* `Field.conversion`, `load_field_by_field`: the configuration that is loaded.
-/

namespace Dashboard.Config
set_option autoImplicit false
open Layer (Tree HasTable asTable entryAt namedAt lowered lowerName)

/-! ## Documents -/

/-- A document with tables for the sections and single values for the fields, in which names stand once in any case. Names of
the top level are plain, so that they name no place inside a section. -/
structure IsSectioned (doc : Entries Tree) : Prop where
  plain : ∀ e ∈ doc, Layer.IsPlain e.1
  names : ((lowered doc).map Prod.fst).Nodup
  tables : ∀ f : Field, HasTable f.table (lowered doc)
  keys : ∀ f : Field, ((lowered (asTable ((lowered doc).lookup f.table)).2).map Prod.fst).Nodup
  leaves : ∀ f : Field, ∀ t, namedAt f.table f.key doc = some t → ∃ p v, t = .leaf p v

theorem exists_of_lookup_lowered {α : Type} {es : Entries α} {name : String} {v : α}
    (h : (lowered es).lookup name = some v) : ∃ e ∈ es, lowerName e.1 = name ∧ e.2 = v := by
  obtain ⟨e, he, heq⟩ := List.mem_map.1 (Entries.mem_of_lookup h)
  obtain ⟨rfl, rfl⟩ := Prod.mk.inj heq
  exact ⟨e, he, rfl, rfl⟩

/-- A document of tables of single values, in which names stand once in any case. -/
theorem IsSectioned.of_tables {doc : Entries Tree} (hplain : ∀ e ∈ doc, Layer.IsPlain e.1)
    (hnames : ((lowered doc).map Prod.fst).Nodup)
    (htables : ∀ e ∈ doc, ∃ o inner, e.2 = .table o inner ∧ ((lowered inner).map Prod.fst).Nodup ∧
      ∀ x ∈ inner, ∃ p v, x.2 = .leaf p v) : IsSectioned doc := by
  have hfound {name : String} {t : Tree} (h : (lowered doc).lookup name = some t) :
      ∃ o inner, t = .table o inner ∧ ((lowered inner).map Prod.fst).Nodup ∧
        ∀ x ∈ inner, ∃ p v, x.2 = .leaf p v := by
    obtain ⟨e, he, -, rfl⟩ := exists_of_lookup_lowered h
    exact htables e he
  refine ⟨hplain, hnames, fun f t h => ?_, fun f => ?_, fun f t h => ?_⟩
  · obtain ⟨o, inner, ht, -⟩ := hfound h
    exact ⟨o, inner, ht⟩
  · cases hsection : (lowered doc).lookup f.table with
    | none => exact List.nodup_nil
    | some t =>
      obtain ⟨o, inner, rfl, hkeys, -⟩ := hfound hsection
      exact hkeys
  · rw [namedAt] at h
    cases hsection : (lowered doc).lookup f.table with
    | none =>
      rw [hsection] at h
      cases h
    | some t =>
      obtain ⟨o, inner, rfl, -, hleaves⟩ := hfound hsection
      rw [hsection] at h
      obtain ⟨x, hx, -, rfl⟩ := exists_of_lookup_lowered h
      exact hleaves x hx

/-! ## The three layers -/

/-- Single values under the names of fields, each name once. -/
structure IsFieldLayer (layer : Entries Tree) : Prop where
  fields : ∀ e ∈ layer, ∃ (f : Field) (p : Option String) (v : Layer.Scalar), e = (f.name, .leaf p v)
  nodup : (layer.map Prod.fst).Nodup

theorem IsFieldLayer.nil : IsFieldLayer [] := ⟨by simp, List.nodup_nil⟩

section
variable {es : Entries Tree} (htables : ∀ f : Field, HasTable f.table es) (o : Option String)
include htables

theorem IsFieldLayer.overlay {layer : Entries Tree} (h : IsFieldLayer layer) :
    ∃ es', Layer.overlay (.table o es) layer = .table o es' ∧ (∀ f : Field, HasTable f.table es') ∧
      ∀ f : Field, entryAt f.table f.key es' = (layer.lookup f.name).or (entryAt f.table f.key es) := by
  have hpairs : ∀ e ∈ layer, (∃ a b, Layer.stepsOf e.1 = [.child a, .child b]) ∧ ∃ p v, e.2 = .leaf p v := by
    intro e he
    obtain ⟨f, p, v, rfl⟩ := h.fields e he
    exact ⟨⟨_, _, f.stepsOf_name⟩, p, v, rfl⟩
  obtain ⟨es', hlayer, hkeep, hentries⟩ := Layer.overlay_pairs hpairs h.nodup o es
  refine ⟨es', hlayer, fun f => hkeep f.table (htables f), fun f => hentries f.name _ _ f.stepsOf_name ?_⟩
  intro e he hsteps
  obtain ⟨g, p, v, rfl⟩ := h.fields e he
  rw [Field.eq_of_stepsOf hsteps]

theorem IsSectioned.overlay {doc : Entries Tree} (h : IsSectioned doc) :
    ∃ es', Layer.overlay (.table o es) doc = .table o es' ∧ (∀ f : Field, HasTable f.table es') ∧
      ∀ f : Field, entryAt f.table f.key es' = (namedAt f.table f.key doc).or (entryAt f.table f.key es) := by
  refine ⟨Layer.mergeEntries es doc, Layer.overlay_tables h.plain o es, fun f => ?_, fun f => ?_⟩
  · exact Layer.hasTable_mergeEntries h.names (htables f) (h.tables f)
  · exact Layer.entryAt_mergeEntries h.names (htables f) (h.tables f) (h.keys f) (h.leaves f)

end

/-- The standard value of a field as a single value. -/
def Field.scalar (f : Field) : Layer.Scalar :=
  match f.shape, f.standard with
  | .text, t => .text t
  | .natural, n => .int n.toNat
  | _, _ => .null

theorem Field.ofLayers_scalar (f : Field) : f.shape.ofLayers (.leaf none f.scalar) = .ok f.standard := by
  cases f <;> rfl

theorem defaults_eq : defaults = (Field.all.take 8).map fun f => (f.name, .leaf none f.scalar) := by
  rfl

theorem isFieldLayer_defaults : IsFieldLayer defaults where
  fields e he := by
    rw [defaults_eq] at he
    obtain ⟨f, -, rfl⟩ := List.mem_map.1 he
    exact ⟨f, none, f.scalar, rfl⟩
  nodup := by
    decide +kernel

/-- A default is read as the standard value of its field. -/
theorem ofLayers_or_defaults (f : Field) (entry : Option Tree) :
    f.ofLayers (entry.or (defaults.lookup f.name)) = f.ofLayers entry := by
  cases entry with
  | some t => rfl
  | none =>
    rw [Option.none_or]
    cases hdefault : defaults.lookup f.name with
    | none => rfl
    | some t =>
      obtain ⟨g, -, hg⟩ := List.mem_map.1 (defaults_eq ▸ Entries.mem_of_lookup hdefault)
      obtain ⟨hname, rfl⟩ := Prod.mk.inj hg
      rw [← Field.eq_of_stepsOf (congrArg Layer.stepsOf hname)]
      exact g.ofLayers_scalar

/-- Three layers make a configuration exactly if the later two, or the standard values in their place, make its fields. -/
theorem layers_eq_ok_iff {doc layer : Entries Tree} (hdoc : IsSectioned doc) (hlayer : IsFieldLayer layer) (c : Config) :
    ofLayers [defaults, doc, layer] = .ok c ↔
      ∀ f : Field, f.ofLayers ((layer.lookup f.name).or (namedAt f.table f.key doc)) = .ok (f.get c) := by
  have hnone (f : Field) : HasTable f.table [] := fun t h => by cases h
  obtain ⟨es₁, h₁, htables₁, hentries₁⟩ := isFieldLayer_defaults.overlay hnone none
  obtain ⟨es₂, h₂, htables₂, hentries₂⟩ := hdoc.overlay htables₁ none
  obtain ⟨es₃, h₃, htables₃, hentries₃⟩ := hlayer.overlay htables₂ none
  have hlayers : [defaults, doc, layer].foldl Layer.overlay (.table none []) = .table none es₃ := by
    simp only [List.foldl_cons, List.foldl_nil, h₁, h₂, h₃]
  have hentries (f : Field) : entryAt f.table f.key es₃ =
      ((layer.lookup f.name).or (namedAt f.table f.key doc)).or (defaults.lookup f.name) := by
    rw [hentries₃, hentries₂, hentries₁, Option.or_assoc]
    simp [entryAt, asTable]
  rw [ofLayers, hlayers]
  have hmap {e : Except Layer.Fault Config} : e.mapError LoadError.badValue = .ok c ↔ e = .ok c := by
    cases e with
    | error e => constructor <;> rintro ⟨⟩
    | ok d =>
      constructor <;>
        · rintro ⟨⟩
          rfl
  rw [hmap, ofLayers_eq_ok_iff htables₃ none c]
  simp only [hentries, ofLayers_or_defaults]

/-! ## Variables -/

/-- What the environment says about a field. Case does not count in the names of variables. -/
def assigned? (environment : Entries String) (f : Field) : Option String :=
  (lowered environment).lookup (lowerName (variableOf f.name))

/-- All variables that are meant for the dashboard are those of fields, and each is set once, in any case. -/
structure SetsFields (environment : Entries String) : Prop where
  known : ∀ v ∈ environment, (fieldOf? v.1).isSome → ∃ f : Field, lowerName v.1 = lowerName (variableOf f.name)
  once : ((lowered (environment.filter fun v => (fieldOf? v.1).isSome)).map Prod.fst).Nodup

theorem fieldOf?_of_lowerName {a b : String} (h : lowerName a = lowerName b) : fieldOf? a = fieldOf? b := by
  have hchars := congrArg String.toList h
  rw [lowerName, lowerName, String.toList_ofList, String.toList_ofList] at hchars
  rw [fieldOf?, fieldOf?, hchars]

theorem fieldOf?_of_variable {name : String} {f : Field} (h : lowerName name = lowerName (variableOf f.name)) :
    fieldOf? name = some f.name := by
  rw [fieldOf?_of_lowerName h]
  exact fieldOf?_variableOf (Field.map_name_all ▸ List.mem_map_of_mem f.mem_all)

theorem SetsFields.tail {v : String × String} {environment : Entries String} (h : SetsFields (v :: environment)) :
    SetsFields environment where
  known w hw := h.known w (List.mem_cons_of_mem v hw)
  once := by
    have honce := h.once
    rw [List.filter_cons] at honce
    split at honce
    · exact (List.nodup_cons.1 honce).2
    · exact honce

theorem variableLayer_cons (v : String × String) (environment : Entries String) :
    variableLayer (v :: environment) = ((fieldOf? v.1).map fun name =>
      (name, Tree.leaf (some "the environment") (.text v.2))).toList ++ variableLayer environment := by
  rw [variableLayer, List.filterMap_cons]
  cases fieldOf? v.1 <;> rfl

section
variable {environment : Entries String} (h : SetsFields environment)
include h

theorem SetsFields.lowerName_eq {v : String × String} (hv : v ∈ environment) {name : String}
    (hname : fieldOf? v.1 = some name) :
    ∃ f : Field, f.name = name ∧ lowerName v.1 = lowerName (variableOf f.name) := by
  obtain ⟨f, hf⟩ := h.known v hv (hname ▸ rfl)
  refine ⟨f, ?_, hf⟩
  rwa [fieldOf?_of_variable hf, Option.some.injEq] at hname

theorem SetsFields.nodup : ((variableLayer environment).map Prod.fst).Nodup := by
  induction environment with
  | nil => exact List.nodup_nil
  | cons v environment ih =>
    rw [variableLayer_cons]
    cases hname : fieldOf? v.1 with
    | none => exact ih h.tail
    | some name =>
      refine List.nodup_cons.2 ⟨fun hmem => ?_, ih h.tail⟩
      -- A second variable of the same field would have the name of the first, but for case.
      obtain ⟨e, he, heq⟩ := List.mem_map.1 hmem
      obtain ⟨w, hw, hlayer⟩ := List.mem_filterMap.1 he
      obtain ⟨other, hother, rfl⟩ := Option.map_eq_some_iff.1 hlayer
      obtain ⟨f, hf, hv⟩ := h.lowerName_eq List.mem_cons_self hname
      obtain ⟨g, hg, hw'⟩ := h.lowerName_eq (List.mem_cons_of_mem v hw) hother
      have hlower : lowerName v.1 = lowerName w.1 := by
        rw [hv, hw', hf, hg]
        exact congrArg (fun n => lowerName (variableOf n)) heq.symm
      have honce := h.once
      rw [List.filter_cons_of_pos (hname ▸ rfl), lowered, List.map_cons, List.map_cons, List.nodup_cons] at honce
      refine honce.1 (List.mem_map.2 ⟨(lowerName w.1, w.2), List.mem_map.2 ⟨w, ?_, rfl⟩, hlower.symm⟩)
      exact List.mem_filter.2 ⟨hw, hother ▸ rfl⟩

theorem SetsFields.isFieldLayer : IsFieldLayer (variableLayer environment) where
  fields e he := by
    obtain ⟨v, hv, hlayer⟩ := List.mem_filterMap.1 he
    obtain ⟨name, hname, rfl⟩ := Option.map_eq_some_iff.1 hlayer
    obtain ⟨f, rfl, -⟩ := h.lowerName_eq hv hname
    exact ⟨f, _, _, rfl⟩
  nodup := h.nodup

theorem SetsFields.lookup_variableLayer (f : Field) : (variableLayer environment).lookup f.name =
    (assigned? environment f).map fun t => .leaf (some "the environment") (.text t) := by
  induction environment with
  | nil => rfl
  | cons v environment ih =>
    rw [variableLayer_cons, assigned?, lowered, List.map_cons, List.lookup_cons]
    by_cases hv : lowerName v.1 = lowerName (variableOf f.name)
    · rw [fieldOf?_of_variable hv, hv, beq_self_eq_true]
      exact List.lookup_cons_self
    · rw [beq_eq_false_iff_ne.2 (Ne.symm hv)]
      cases hname : fieldOf? v.1 with
      | none => exact ih h.tail
      | some name =>
        have hother : f.name ≠ name := by
          obtain ⟨g, rfl, hg⟩ := h.lowerName_eq List.mem_cons_self hname
          exact fun heq => hv (heq ▸ hg)
        simp only [Option.map_some, Option.toList_some, List.singleton_append, List.lookup_cons,
          beq_eq_false_iff_ne.2 hother]
        exact ih h.tail

end

/-! ## Decimal texts -/

theorem truthOfText?_of_isDigit {t : String} {d : Char} {ds : List Char} (ht : t.toList = d :: ds)
    (hd : d.isDigit = true) : Layer.truthOfText? t = none := by
  have hlower : d.toLower = d := Text.toLower_of_isDigit hd
  have hne (w : String) (hw : w.toList.all fun c => !c.isDigit) : lowerName t ≠ w := by
    rintro rfl
    rw [lowerName, String.toList_ofList, ht, List.map_cons, hlower, List.all_cons, hd] at hw
    cases hw
  rw [Layer.truthOfText?, if_neg, if_neg]
  · simp [hne]
  · simp [hne]

theorem asNatural_toString {n : Nat} (h : n < Word.bound) (p : Option String) :
    (Tree.leaf p (.text (toString n))).asNatural = .ok (UInt64.ofNat n) := by
  obtain ⟨d, ds, hds, hdigits, -⟩ := Text.exists_digits n
  simp only [Tree.asNatural, truthOfText?_of_isDigit hds (hdigits d List.mem_cons_self), Text.natural?_toString h,
    Option.elim_some]

/-! ## Loading -/

/-- The value of a field by its variable, else by the file, else by default. -/
def Field.conversion (f : Field) (environment : Entries String) (doc : Entries Tree) :
    Except Layer.Fault f.shape.Value :=
  match assigned? environment f with
  | some t => f.shape.ofLayers (.leaf (some "the environment") (.text t))
  | none =>
    match namedAt f.table f.key doc with
    | some t => f.shape.ofLayers t
    | none => .ok f.standard

/-- The number that a value is, if it is one. -/
def number? : (s : Shape) → s.Value → Option UInt64
  | .natural, n => some n
  | _, _ => none

theorem load_eq_ok_iff {read : String → Option String} {environment : Entries String} {path : String}
    {doc : Entries Tree} (hfile : fileLayer (File.find? read path) = .ok doc) (hdoc : IsSectioned doc)
    (henvironment : SetsFields environment) (c : Config) :
    load read environment path = .ok c ↔ ∀ f : Field, f.conversion environment doc = .ok (f.get c) := by
  have hload : load read environment path = ofLayers [defaults, doc, variableLayer environment] := by
    rw [load, hfile]
    rfl
  have hconversion (f : Field) : f.conversion environment doc =
      f.ofLayers (((variableLayer environment).lookup f.name).or (namedAt f.table f.key doc)) := by
    rw [Field.conversion, henvironment.lookup_variableLayer]
    cases assigned? environment f with
    | some t => rfl
    | none => cases namedAt f.table f.key doc <;> rfl
  rw [hload, layers_eq_ok_iff hdoc henvironment.isFieldLayer]
  simp only [hconversion]

/-- The decimal text of a number of 64 bits is read as that number. -/
theorem exists_number {s : Shape} (hs : s = .natural) {n : Nat} (hn : n < Word.bound) (p : Option String) :
    ∃ x, s.ofLayers (.leaf p (.text (toString n))) = .ok x ∧ (number? s x).map UInt64.toNat = some n := by
  subst hs
  refine ⟨UInt64.ofNat n, asNatural_toString hn p, ?_⟩
  show some (UInt64.ofNat n).toNat = some n
  rw [UInt64.toNat_ofNat_of_lt' hn]

/-- **Layers decide field by field.** Each field of a loaded configuration is what its variable says, else what the file
says, else the standard value, and nothing is loaded exactly if one of these values cannot be read. A number of 64 bits in a
variable is read exactly. -/
theorem load_field_by_field {read : String → Option String} {environment : Entries String} {path : String}
    {doc : Entries Tree} (hfile : fileLayer (File.find? read path) = .ok doc) (hdoc : IsSectioned doc)
    (henvironment : SetsFields environment) :
    (∀ c, load read environment path = .ok c ↔ ∀ f : Field, f.conversion environment doc = .ok (f.get c)) ∧
    ((∃ e, load read environment path = .error e) ↔ ∃ (f : Field) (e : _), f.conversion environment doc = .error e) ∧
    ∀ f : Field, f.shape = .natural → ∀ n < Word.bound, assigned? environment f = some (toString n) →
      ∃ x, f.conversion environment doc = .ok x ∧ (number? f.shape x).map UInt64.toNat = some n := by
  have hload (c : Config) := load_eq_ok_iff hfile hdoc henvironment c
  refine ⟨hload, ⟨?_, ?_⟩, ?_⟩
  · rintro ⟨e, he⟩
    by_contra hnone
    have hvalues (f : Field) : ∃ x, f.conversion environment doc = .ok x := by
      cases hf : f.conversion environment doc with
      | error e => exact absurd ⟨f, e, hf⟩ hnone
      | ok x => exact ⟨x, rfl⟩
    choose value hvalue using hvalues
    obtain ⟨c, hc⟩ := exists_get_eq value
    have hok := (hload c).2 fun f => (hc f).symm ▸ hvalue f
    rw [he] at hok
    cases hok
  · rintro ⟨f, e, hf⟩
    cases hresult : load read environment path with
    | error e => exact ⟨e, rfl⟩
    | ok c =>
      have hok := (hload c).1 hresult f
      rw [hf] at hok
      cases hok
  · intro f hf n hn hassigned
    rw [Field.conversion, hassigned]
    exact exists_number hf hn _

/-- Sections in mixed case, with a time that cannot be read. -/
def mixedSections : List Toml.Section :=
  [{ name := "Server", entries := [("BASE_URL", .text "http://10.0.0.2"), ("Request_Timeout_ms", .text "soon")] },
    { name := "POLLING", entries := [("server_interval_ms", .text "on")] }]

def mixedText : String :=
  "[Server]\nBASE_URL = \"http://10.0.0.2\"\nRequest_Timeout_ms = \"soon\"\n\n[POLLING]\nserver_interval_ms = \"on\"\n"

def mixedLayer : Entries Tree := Layer.entriesOfToml "statusboard.toml" (mixedSections.map Toml.Section.value)

def mixed : Config where
  server := { baseUrl := "http://10.0.0.2", requestTimeout := 1500 }
  polling := { server := 1 }

theorem fileLayer_mixed :
    fileLayer (File.find? (Directory.read? [("statusboard.toml", mixedText)]) "statusboard") = .ok mixedLayer := by
  have hfound : File.find? (Directory.read? [("statusboard.toml", mixedText)]) "statusboard" =
      some ⟨"statusboard.toml", .toml, mixedText⟩ := by decide +kernel
  have hparsed : Toml.parse? mixedText = some (mixedSections.map Toml.Section.value) :=
    Toml.parse?_render (by decide +kernel) ⟨by decide +kernel, by decide +kernel⟩ (by decide +kernel)
  simp only [hfound, fileLayer, Layer.ofDocument?, hparsed, Option.map_some]
  rfl

theorem sectioned_mixed : IsSectioned mixedLayer := by
  refine .of_tables (by decide +kernel) (by decide +kernel) fun e he => ?_
  simp only [mixedLayer, mixedSections, List.map_cons, List.map_nil, Layer.entriesOfToml, List.mem_cons,
    List.not_mem_nil, or_false] at he
  rcases he with rfl | rfl
  · exact ⟨_, _, rfl, by decide +kernel, by simp [Layer.entriesOfToml, Layer.ofToml, Toml.Leaf.value]⟩
  · exact ⟨_, _, rfl, by decide +kernel, by simp [Layer.entriesOfToml, Layer.ofToml, Toml.Leaf.value]⟩

theorem conversion_mixed (f : Field) :
    f.conversion [("Statusboard_Server__REQUEST_TIMEOUT_MS", "1500"), ("PATH", "/bin")] mixedLayer =
      .ok (f.get mixed) := by
  cases f <;> rfl

/-- A variable hides what cannot be read, and without it nothing is loaded. -/
theorem load_field_by_field_mixed :
    load (Directory.read? [("statusboard.toml", mixedText)])
      [("Statusboard_Server__REQUEST_TIMEOUT_MS", "1500"), ("PATH", "/bin")] "statusboard" = .ok mixed ∧
    ∃ e, load (Directory.read? [("statusboard.toml", mixedText)]) [("PATH", "/bin")] "statusboard" = .error e := by
  have hset : SetsFields [("Statusboard_Server__REQUEST_TIMEOUT_MS", "1500"), ("PATH", "/bin")] := by
    refine ⟨fun v hv hmeant => ?_, by decide +kernel⟩
    simp only [List.mem_cons, List.not_mem_nil, or_false] at hv
    rcases hv with rfl | rfl
    · exact ⟨.requestTimeout, by decide +kernel⟩
    · exact absurd hmeant (by decide +kernel)
  constructor
  · exact ((load_field_by_field fileLayer_mixed sectioned_mixed hset).1 mixed).2 conversion_mixed
  · refine (load_field_by_field fileLayer_mixed sectioned_mixed hset.tail).2.1.2 ?_
    exact ⟨.requestTimeout, .noConversion (.text "soon") "an integer" [] (some "statusboard.toml"), rfl⟩

end Dashboard.Config
