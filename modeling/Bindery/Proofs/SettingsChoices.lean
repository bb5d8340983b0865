import Bindery.Proofs.NamedFields
import Bindery.Proofs.Results
import Bindery.Settings.Load

/-! Where each setting comes from. A field takes its value from the first place that has one: what is asked for in a run,
its variable in the environment, the file, and last the standard. What is found there is checked, whatever stands in the
other places, and no field has to do with another: settings are refused with the faults of all fields, in order. -/

namespace Bindery

namespace Checked
variable {α β : Type}

/-- What is wrong with a value, if anything. -/
def faults : Checked α → List FieldError
  | .ok _ => []
  | .error errors => errors

theorem both_eq_ok {first : Checked α} {second : Checked β} {values : α × β} :
    both first second = .ok values ↔ first = .ok values.1 ∧ second = .ok values.2 := by
  cases first <;> cases second <;> simp [both, Prod.ext_iff]

theorem faults_both (first : Checked α) (second : Checked β) :
    (both first second).faults = first.faults ++ second.faults := by
  cases first <;> cases second <;> simp [both, faults]

theorem named_eq_ok {record : Text} {result : Checked α} {value : α} : named record result = .ok value ↔ result = .ok value :=
  mapError_eq_ok

theorem map_eq_ok {f : α → β} {result : Checked α} {value : β} :
    result.map f = .ok value ↔ ∃ found, result = .ok found ∧ f found = value := by
  cases result <;> simp [Except.map]

/-- A record that is not accepted is refused with all that is wrong with it. -/
theorem named_map_eq_error {record : Text} {f : α → β} {result : Checked α} {invalid : Invalid}
    (refused : named record (result.map f) = .error invalid) : invalid = ⟨record, result.faults⟩ := by
  cases result with
  | ok value => cases refused
  | error errors =>
    cases refused
    rfl

end Checked

namespace Settings
open Check Checked
open Data (fieldOf? fieldOf?_nil fieldOf?_cons_self fieldOf?_cons_of_ne fieldOf?_append fieldOf?_insertField
  fieldOf?_eq_of_mem_iff)

/-! ### Fields -/

/-- A field of the settings. -/
inductive Field where
  | appName
  | databaseUrl
  | outputDirectory
  | outputFormat
  | bodyMarkup
  | titleMap
  | numericCollection
  | numericTitleMax
  | indexKind
  | leafKind
  | maxHeadingDepth
  | previewLength
  | defaultVersion
  | maxWorkers
  | logLevel
  deriving DecidableEq, Repr

namespace Field

def all : List Field :=
  [.appName, .databaseUrl, .outputDirectory, .outputFormat, .bodyMarkup, .titleMap, .numericCollection, .numericTitleMax,
   .indexKind, .leafKind, .maxHeadingDepth, .previewLength, .defaultVersion, .maxWorkers, .logLevel]

def name : Field → Text
  | .appName => "app_name"
  | .databaseUrl => "db_url"
  | .outputDirectory => "output_dir"
  | .outputFormat => "output_format"
  | .bodyMarkup => "body_markup"
  | .titleMap => "title_map"
  | .numericCollection => "numeric_collection"
  | .numericTitleMax => "numeric_title_max"
  | .indexKind => "index_kind"
  | .leafKind => "leaf_kind"
  | .maxHeadingDepth => "max_heading_depth"
  | .previewLength => "preview_length"
  | .defaultVersion => "default_version"
  | .maxWorkers => "max_workers"
  | .logLevel => "log_level"

/-- What a field holds. -/
abbrev Value : Field → Type
  | .appName | .databaseUrl | .outputDirectory | .numericCollection | .defaultVersion => Text
  | .titleMap => Option Text
  | .numericTitleMax | .indexKind | .leafKind | .maxHeadingDepth | .previewLength | .maxWorkers => Int
  | .outputFormat => Format
  | .bodyMarkup => Heading.Markup
  | .logLevel => Graph.Severity

/-- What is asked of a value for a field. -/
def check : (field : Field) → Check field.Value
  | .appName | .databaseUrl | .outputDirectory | .numericCollection | .defaultVersion => text
  | .titleMap => optional text
  | .indexKind | .leafKind => integer
  | .numericTitleMax | .maxWorkers => atLeast 1 integer
  | .maxHeadingDepth => atLeast 3 (atMost 6 integer)
  | .previewLength => atLeast 8 integer
  | .outputFormat => formatCheck
  | .bodyMarkup => markupCheck
  | .logLevel => severityCheck

theorem mem_all (field : Field) : field ∈ all := by
  cases field <;> decide

theorem map_name_all : all.map name = fieldNames :=
  rfl

theorem name_mem_fieldNames (field : Field) : field.name ∈ fieldNames := by
  rw [← map_name_all]
  exact List.mem_map_of_mem field.mem_all

end Field

def get (settings : Settings) : (field : Field) → field.Value
  | .appName => settings.appName
  | .databaseUrl => settings.databaseUrl
  | .outputDirectory => settings.outputDirectory
  | .outputFormat => settings.outputFormat
  | .bodyMarkup => settings.bodyMarkup
  | .titleMap => settings.titleMap
  | .numericCollection => settings.numericCollection
  | .numericTitleMax => settings.numericTitleMax
  | .indexKind => settings.indexKind
  | .leafKind => settings.leafKind
  | .maxHeadingDepth => settings.maxHeadingDepth
  | .previewLength => settings.previewLength
  | .defaultVersion => settings.defaultVersion
  | .maxWorkers => settings.maxWorkers
  | .logLevel => settings.logLevel

/-- What comes of the choice for a field: the standard if nothing is chosen, else what is chosen if it passes the check. -/
def Field.verdict (field : Field) (choice : Option Data) : Checked field.Value :=
  match choice with
  | none => .ok (({} : Settings).get field)
  | some value => within field.name (field.check value)

theorem ofFields_eq_ok_iff {fields : Fields} {settings : Settings} :
    ofFields fields = .ok settings ↔
      ∀ field : Field, field.verdict (fieldOf? fields field.name) = .ok (settings.get field) := by
  unfold ofFields
  rw [named_eq_ok, map_eq_ok]
  constructor
  · intro found field
    obtain ⟨values, found, rfl⟩ := found
    simp only [both_eq_ok] at found
    obtain ⟨appName, databaseUrl, outputDirectory, outputFormat, bodyMarkup, titleMap, numericCollection, numericTitleMax,
      indexKind, leafKind, maxHeadingDepth, previewLength, defaultVersion, maxWorkers, logLevel⟩ := found
    cases field
    exacts [appName, databaseUrl, outputDirectory, outputFormat, bodyMarkup, titleMap, numericCollection, numericTitleMax,
      indexKind, leafKind, maxHeadingDepth, previewLength, defaultVersion, maxWorkers, logLevel]
  · intro accepted
    refine ⟨⟨_, _, _, _, _, _, _, _, _, _, _, _, _, _, _⟩, ?_, rfl⟩
    simp only [both_eq_ok]
    exact ⟨accepted .appName, accepted .databaseUrl, accepted .outputDirectory, accepted .outputFormat, accepted .bodyMarkup,
      accepted .titleMap, accepted .numericCollection, accepted .numericTitleMax, accepted .indexKind, accepted .leafKind,
      accepted .maxHeadingDepth, accepted .previewLength, accepted .defaultVersion, accepted .maxWorkers, accepted .logLevel⟩

/-- Settings that are refused are refused with the faults of all fields, in order. -/
theorem ofFields_eq_error {fields : Fields} {invalid : Invalid} (refused : ofFields fields = .error invalid) :
    invalid = ⟨"Settings", Field.all.flatMap fun field => (field.verdict (fieldOf? fields field.name)).faults⟩ := by
  rw [named_map_eq_error refused]
  simp only [faults_both, Field.all, List.flatMap_cons, List.flatMap_nil, List.append_nil]
  rfl

/-! ### Fields on top of others -/

theorem isTextKey_iff {field : Data × Data} : isTextKey field = true ↔ ∃ name : Text, field.1 = .text name := by
  obtain ⟨key, value⟩ := field
  cases key <;> simp [isTextKey]

theorem all_isTextKey_insertField (fields : Fields) (name : Text) (value : Data) :
    (Data.insertField fields (.text name) value).all isTextKey = fields.all isTextKey := by
  unfold Data.insertField
  split
  · rw [List.all_map]
    congr 1
    funext field
    rw [Function.comp_apply]
    split <;> rfl
  · rw [List.all_append]
    exact Bool.and_true _

/-- Fields with texts for keys, put on top of others, hide none of the others' keys. -/
theorem all_isTextKey_overlay {fields more : Fields} (named : more.all isTextKey = true) :
    (overlay fields more).all isTextKey = fields.all isTextKey := by
  induction more generalizing fields with
  | nil => rfl
  | cons field more ih =>
    obtain ⟨key, value⟩ := field
    obtain ⟨here, later⟩ := Bool.and_eq_true_iff.mp named
    obtain ⟨name, rfl⟩ := isTextKey_iff.mp here
    exact (ih later).trans (all_isTextKey_insertField fields name value)

/-- Of fields on top of others the last one of a name counts, and where there is none the field below. -/
theorem fieldOf?_overlay {fields more : Fields} {name : Text} (named : more.all isTextKey = true) :
    fieldOf? (overlay fields more) name = (fieldOf? more.reverse name).or (fieldOf? fields name) := by
  induction more generalizing fields with
  | nil => rfl
  | cons field more ih =>
    obtain ⟨key, value⟩ := field
    obtain ⟨here, later⟩ := Bool.and_eq_true_iff.mp named
    obtain ⟨set, rfl⟩ := isTextKey_iff.mp here
    have below : fieldOf? (Data.insertField fields (.text set) value) name =
        (fieldOf? [(.text set, value)] name).or (fieldOf? fields name) := by
      rw [fieldOf?_insertField]
      split
      next same =>
        obtain rfl := same
        rw [fieldOf?_cons_self, Option.some_or]
      next differs =>
        rw [fieldOf?_cons_of_ne fun same => differs (Data.text.inj same), fieldOf?_nil, Option.none_or]
    rw [List.reverse_cons, fieldOf?_append, Option.or_assoc, ← below]
    exact ih later

/-! ### Choices -/

/-- Fields of a file with those of the environment and of a request on top of them. -/
def chosen (fields : Fields) (environment : Text → Option Text) (requested : List (Text × Data)) : Fields :=
  overlay (overlay fields (variableFields environment)) (requestedFields requested)

/-- What settings are loaded from: a file that holds a mapping with texts for keys, or nothing at all, the environment, and
what is asked for in this run, no field twice. -/
structure Configuration where
  source : Option Source
  environment : Text → Option Text
  requested : List (Text × Data)
  fields : Fields
  read : fileFields source = .ok fields
  named : fields.all isTextKey = true
  distinct : (requested.map Prod.fst).Nodup

/-- What is asked for with a value. Null asks for nothing. -/
def asked? : Data → Option Data
  | .null => none
  | value => some value

theorem mem_requestedFields {requested : List (Text × Data)} {name : Text} {value : Data} :
    (.text name, value) ∈ requestedFields requested ↔
      ∃ given, (name, given) ∈ requested ∧ asked? given = some value := by
  simp only [requestedFields, List.mem_filterMap]
  constructor
  · rintro ⟨⟨other, given⟩, member, same⟩
    refine ⟨given, ?_⟩
    cases given <;> cases same <;> exact ⟨member, rfl⟩
  · rintro ⟨given, member, asked⟩
    refine ⟨(name, given), member, ?_⟩
    cases given <;> cases asked <;> rfl

theorem mem_variableFields {environment : Text → Option Text} {name : Text} {value : Data} :
    (.text name, value) ∈ variableFields environment ↔ name ∈ fieldNames ∧
      ((environment (variableName name)).filter (!·.isEmpty)).map Data.text = some value := by
  simp only [variableFields, List.mem_filterMap, Option.map_eq_some_iff, Prod.mk.injEq, Data.text.injEq]
  constructor
  · rintro ⟨_, known, given, set, rfl, same⟩
    exact ⟨known, given, set, same⟩
  · rintro ⟨known, given, set, same⟩
    exact ⟨name, known, given, set, rfl, same⟩

theorem all_isTextKey_requestedFields (requested : List (Text × Data)) : (requestedFields requested).all isTextKey = true := by
  rw [List.all_eq_true]
  intro field member
  obtain ⟨⟨name, value⟩, _, same⟩ := List.mem_filterMap.mp member
  cases value <;> cases same <;> rfl

theorem all_isTextKey_variableFields (environment : Text → Option Text) :
    (variableFields environment).all isTextKey = true := by
  rw [List.all_eq_true]
  intro field member
  obtain ⟨name, _, same⟩ := List.mem_filterMap.mp member
  obtain ⟨value, _, rfl⟩ := Option.map_eq_some_iff.mp same
  rfl

/-- Settings are made of what is chosen, unless a key of the file is no text. -/
theorem load_of_fields {source : Option Source} {environment : Text → Option Text} {requested : List (Text × Data)}
    {fields : Fields} (read : fileFields source = .ok fields) :
    load source environment requested =
      if fields.all isTextKey then (ofFields (chosen fields environment requested)).mapError .refused
      else .error .keyNotText := by
  have named : (chosen fields environment requested).all isTextKey = fields.all isTextKey := by
    rw [chosen, all_isTextKey_overlay (all_isTextKey_requestedFields _),
      all_isTextKey_overlay (all_isTextKey_variableFields _)]
  rw [load, read, ← named]
  rfl

namespace Configuration
variable (configuration : Configuration) (field : Field)

def load : Except SettingsError Settings :=
  Settings.load configuration.source configuration.environment configuration.requested

def ofRequest : Option Data :=
  (configuration.requested.lookup field.name).bind asked?

/-- What the variable of a field says. An empty one says nothing. -/
def ofEnvironment : Option Data :=
  ((configuration.environment (variableName field.name)).filter (!·.isEmpty)).map Data.text

def ofFile : Option Data :=
  fieldOf? configuration.fields field.name

/-- What is chosen for a field, if it is not left at the standard. -/
def choice : Option Data :=
  (configuration.ofRequest field).or ((configuration.ofEnvironment field).or (configuration.ofFile field))

/-- All that is wrong with what is chosen. -/
def faults : List FieldError :=
  Field.all.flatMap fun field => (field.verdict (configuration.choice field)).faults

/-- The fields that are checked: those of the file, with others on top of them. -/
def chosenFields : Fields :=
  chosen configuration.fields configuration.environment configuration.requested

theorem fieldOf?_requestedFields :
    fieldOf? (requestedFields configuration.requested).reverse field.name = configuration.ofRequest field := by
  apply fieldOf?_eq_of_mem_iff
  intro value
  rw [List.mem_reverse, mem_requestedFields, ofRequest, Option.bind_eq_some_iff]
  exact exists_congr fun given => and_congr_left fun _ => (lookup_eq_some_iff_mem configuration.distinct).symm

theorem fieldOf?_variableFields :
    fieldOf? (variableFields configuration.environment).reverse field.name = configuration.ofEnvironment field := by
  apply fieldOf?_eq_of_mem_iff
  intro value
  rw [List.mem_reverse, mem_variableFields, ofEnvironment]
  exact and_iff_right field.name_mem_fieldNames

theorem fieldOf?_chosenFields : fieldOf? configuration.chosenFields field.name = configuration.choice field := by
  rw [chosenFields, chosen, fieldOf?_overlay (all_isTextKey_requestedFields _), fieldOf?_overlay (all_isTextKey_variableFields _),
    fieldOf?_requestedFields, fieldOf?_variableFields]
  rfl

theorem load_eq : configuration.load = (ofFields configuration.chosenFields).mapError .refused :=
  (load_of_fields configuration.read).trans (if_pos configuration.named)

theorem load_eq_ok_iff {settings : Settings} :
    configuration.load = .ok settings ↔
      ∀ field : Field, field.verdict (configuration.choice field) = .ok (settings.get field) := by
  rw [load_eq, mapError_eq_ok, ofFields_eq_ok_iff]
  exact forall_congr' fun field => by rw [fieldOf?_chosenFields]

theorem load_eq_error {error : SettingsError} (failed : configuration.load = .error error) :
    error = .refused ⟨"Settings", configuration.faults⟩ := by
  rw [load_eq] at failed
  obtain ⟨invalid, refused, rfl⟩ := mapError_eq_error.mp failed
  rw [ofFields_eq_error refused]
  simp only [fieldOf?_chosenFields, faults]

theorem eq_ok_of_verdicts (accepted : ∀ field : Field, ∃ value, field.verdict (configuration.choice field) = .ok value) :
    ∃ settings, configuration.load = .ok settings := by
  choose value sound using accepted
  let settings : Settings :=
    ⟨value .appName, value .databaseUrl, value .outputDirectory, value .outputFormat, value .bodyMarkup, value .titleMap,
     value .numericCollection, value .numericTitleMax, value .indexKind, value .leafKind, value .maxHeadingDepth,
     value .previewLength, value .defaultVersion, value .maxWorkers, value .logLevel⟩
  refine ⟨settings, (configuration.load_eq_ok_iff).mpr fun field => ?_⟩
  cases field <;> exact sound _

/-- Settings are refused exactly if what is chosen for some field is, and then with all that is wrong with any field. -/
theorem load_eq_error_iff {error : SettingsError} :
    configuration.load = .error error ↔
      (∃ (field : Field) (errors : List FieldError), field.verdict (configuration.choice field) = .error errors) ∧
        error = .refused ⟨"Settings", configuration.faults⟩ := by
  constructor
  · intro failed
    refine ⟨?_, configuration.load_eq_error failed⟩
    by_contra unrefused
    have accepted : ∀ field : Field, ∃ value, field.verdict (configuration.choice field) = .ok value := by
      intro field
      cases found : field.verdict (configuration.choice field) with
      | ok value => exact ⟨value, rfl⟩
      | error errors => exact absurd ⟨field, errors, found⟩ unrefused
    obtain ⟨settings, loaded⟩ := configuration.eq_ok_of_verdicts accepted
    rw [failed] at loaded
    cases loaded
  · rintro ⟨⟨field, errors, refused⟩, rfl⟩
    cases loaded : configuration.load with
    | ok settings =>
      have accepted := configuration.load_eq_ok_iff.mp loaded field
      rw [refused] at accepted
      cases accepted
    | error error => exact congrArg Except.error (configuration.load_eq_error loaded)

variable {configuration field} {other : Configuration}

theorem get_eq_of_choice_eq {settings others : Settings} (same : configuration.choice field = other.choice field)
    (loaded : configuration.load = .ok settings) (also : other.load = .ok others) :
    settings.get field = others.get field := by
  have first := configuration.load_eq_ok_iff.mp loaded field
  have second := other.load_eq_ok_iff.mp also field
  rw [same, second] at first
  exact (Except.ok.inj first).symm

theorem load_eq_of_choice_eq (same : ∀ field, configuration.choice field = other.choice field) :
    configuration.load = other.load := by
  cases loaded : other.load with
  | ok settings =>
    rw [load_eq_ok_iff] at loaded ⊢
    intro field
    rw [same]
    exact loaded field
  | error error =>
    rw [load_eq_error_iff] at loaded ⊢
    simpa only [faults, same] using loaded

end Configuration

/-! ### The settings of a run -/

/-- Each field is judged by what is chosen for it and by nothing else. So settings that are accepted agree on every field
for which the same is chosen, and nothing but what is chosen for the fields matters. -/
theorem settings_follow_choices (configuration : Configuration) :
    (∀ settings, configuration.load = .ok settings ↔
      ∀ field : Field, field.verdict (configuration.choice field) = .ok (settings.get field)) ∧
    (∀ error, configuration.load = .error error ↔
      (∃ (field : Field) (errors : List FieldError), field.verdict (configuration.choice field) = .error errors) ∧
        error = .refused ⟨"Settings", configuration.faults⟩) ∧
    ∀ other : Configuration,
      (∀ field settings others, configuration.choice field = other.choice field →
        configuration.load = .ok settings → other.load = .ok others → settings.get field = others.get field) ∧
      ((∀ field, configuration.choice field = other.choice field) → configuration.load = other.load) := by
  refine ⟨fun _ => configuration.load_eq_ok_iff, fun _ => configuration.load_eq_error_iff, fun other => ⟨?_, ?_⟩⟩
  · intro field settings others same loaded also
    exact Configuration.get_eq_of_choice_eq same loaded also
  · exact Configuration.load_eq_of_choice_eq

/-! A file and the environment of another run name the same database. -/

def databaseFile : Source :=
  .ok (Utf8.encode "db_url: file.db\nmax_workers: 3\nmotto: none\n")

def databaseVariable (name : Text) : Option Text :=
  if name = "BOOKPUB_DB_URL" then some "file.db" else none

def namesDatabase (fields : Fields) : Bool :=
  match fieldOf? fields "db_url" with
  | some (.text url) => url = "file.db"
  | _ => false

theorem databaseFile_read : ∃ fields, fileFields (some databaseFile) = .ok fields ∧ fields.all isTextKey = true ∧
    fieldOf? fields "db_url" = some (.text "file.db") := by
  have kept : (fileFields (some databaseFile)).toOption.any
      (fun fields => fields.all isTextKey && namesDatabase fields) = true := by decide +kernel
  obtain ⟨fields, read, kept⟩ := exists_ok_of_any kept
  obtain ⟨named, database⟩ := Bool.and_eq_true_iff.mp kept
  refine ⟨fields, read, named, ?_⟩
  unfold namesDatabase at database
  split at database
  next url found => rw [found, of_decide_eq_true database]
  next => cases database

theorem same_database :
    ∃ (filed called : Configuration) (settings others : Settings),
      filed.source = some databaseFile ∧ called.source = none ∧
        filed.load = .ok settings ∧ called.load = .ok others ∧ settings.maxWorkers = 3 ∧ others.maxWorkers = 7 ∧
          settings.get .databaseUrl = others.get .databaseUrl := by
  have loads : (Settings.load (some databaseFile) (fun _ => none) []).toOption =
      some { databaseUrl := "file.db", maxWorkers := 3 } := by decide +kernel
  obtain ⟨fields, read, named, database⟩ := databaseFile_read
  let filed : Configuration := ⟨some databaseFile, fun _ => none, [], fields, read, named, List.nodup_nil⟩
  let called : Configuration :=
    ⟨none, databaseVariable, [("max_workers", .int 7), ("db_url", .null)], [], rfl, rfl, by decide⟩
  have same : filed.choice .databaseUrl = called.choice .databaseUrl := database
  have loaded : filed.load = .ok { databaseUrl := "file.db", maxWorkers := 3 } := eq_ok_of_toOption loads
  have also : called.load = .ok { databaseUrl := "file.db", maxWorkers := 7 } := eq_ok_of_toOption (by decide +kernel)
  exact ⟨filed, called, _, _, rfl, rfl, loaded, also, rfl, rfl,
    ((settings_follow_choices filed).2.2 called).1 .databaseUrl _ _ same loaded also⟩

end Settings
end Bindery
