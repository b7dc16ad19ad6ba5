import Mathlib
import SpecLint.Config.Schema
import SpecLint.Proofs.Toml.DistinctKeys

/-!
# Which documents are accepted

In a document whose tables are written as tables, the schema is a matter of single keys: which keys
there are, and what stands under each.  `Fits` says this key by key, `Configured` says what a
configuration takes from the document, and both speak of what stands under a path of keys only, not
of the order in which the document lists it.

* `Toml.Value.at?` — what stands under a path of keys.
* `exists_readKeys_iff`, `Sets.fromKey` — one table of fixed keys: when it is accepted, and what
  is read from it.
* `exists_readDocument_iff_fits` — a document is accepted iff it fits.
* `configured_of_ofDraft` — what is read from it.
* `ofToml_outcome` — **a document is accepted exactly when it fits the schema**.
-/

namespace SpecLint

/-! ## What stands under a path of keys -/

namespace Toml.Value

/-- The entries of a table; other values have none. -/
def entries : Value → Entries
  | .table entries => entries
  | _ => []

/-- What stands under a path of keys. -/
def at? (value : Value) : List String → Option Value
  | [] => some value
  | key :: path => (value.entries.lookup key).bind (·.at? path)

/-- The table under a key; a missing one is empty. -/
def sub (value : Value) (key : String) : Value := (value.at? [key]).getD (.table [])

/-- The value is a table. -/
def IsTable (value : Value) : Prop := ∃ entries, value = .table entries

/-- A list of strings as a value. -/
def strings (names : List String) : Value := .array (names.map .string)

theorem strings_injective : Function.Injective strings := fun _ _ heq =>
  List.map_injective_iff.2 (fun _ _ => string.inj) (array.inj heq)

variable {value inner : Value} {key : String}

theorem at?_singleton : value.at? [key] = value.entries.lookup key := by
  rw [at?]
  exact Option.bind_fun_some _

theorem sub_of_at? (h : value.at? [key] = some inner) : value.sub key = inner := by
  rw [sub, h, Option.getD_some]

theorem sub_of_absent (h : value.at? [key] = none) : value.sub key = .table [] := by
  rw [sub, h, Option.getD_none]

/-- What stands deeper than a key stands in the table under that key. -/
theorem at?_cons_cons (next : String) (path : List String) :
    value.at? (key :: next :: path) = (value.sub key).at? (next :: path) := by
  cases h : value.at? [key] with
  | none =>
      rw [sub_of_absent h, at?, ← at?_singleton, h]
      rfl
  | some inner =>
      rw [sub_of_at? h, at?, ← at?_singleton, h]
      rfl

/-- What holds of a table under a key, if there is one, and of the empty table. -/
theorem forall_at?_iff {P : Value → Prop} (hempty : P (.table [])) :
    (∀ inner, value.at? [key] = some inner → P inner) ↔ P (value.sub key) := by
  cases h : value.at? [key] with
  | none =>
      rw [sub_of_absent h]
      exact ⟨fun _ => hempty, fun _ _ heq => nomatch heq⟩
  | some inner =>
      rw [sub_of_at? h]
      exact ⟨fun hall => hall inner rfl, fun hinner _ heq => Option.some.inj heq ▸ hinner⟩

theorem Distinct.nodup (h : value.Distinct) : (value.entries.map Prod.fst).Nodup := by
  cases h with
  | table distinct => exact distinct
  | _ => exact List.nodup_nil

theorem Distinct.sub (h : value.Distinct) (key : String) : (value.sub key).Distinct := by
  refine (forall_at?_iff (.table List.nodup_nil fun _ hmem => nomatch hmem)).1 ?_
  intro inner hinner
  rw [at?_singleton] at hinner
  cases h with
  | table _ below => exact below _ (Keyed.mem_of_lookup hinner)
  | _ => exact nomatch hinner

/-- Where the value under a key has to be a table, it is one even if the key is missing. -/
theorem isTable_sub (h : ∀ inner, value.at? [key] = some inner → inner.IsTable) :
    (value.sub key).IsTable :=
  (forall_at?_iff ⟨[], rfl⟩).1 h

end Toml.Value

open Toml (Value)

theorem Severity.ofName?_eq_some_iff {text : String} {severity : Severity} :
    ofName? text = some severity ↔ text = severity.name := by
  constructor
  · intro h
    have hname := List.find?_some h
    exact (eq_of_beq hname).symm
  · rintro rfl
    exact ofName?_name severity

namespace Config

/-! ## The schema, key by key -/

/-- Everything that the schema wants to be a table is one, and severities are strings. -/
structure Tabular (doc : Value) : Prop where
  /-- The language settings are a table. -/
  language : ∀ value, doc.at? ["language"] = some value → value.IsTable
  /-- The file settings are a table. -/
  files : ∀ value, doc.at? ["files"] = some value → value.IsTable
  /-- The rules are a table. -/
  rules : ∀ value, doc.at? ["rules"] = some value → value.IsTable
  /-- What is set of one rule is a table. -/
  rule : ∀ name value, doc.at? ["rules", name] = some value → value.IsTable
  /-- A severity is a string. -/
  severity : ∀ name value, doc.at? ["rules", name, "severity"] = some value →
    ∃ text, value = .string text

/-- The document fits the schema: it has no other keys, and each value is of the right kind.  The
keys of a table come first, then the values key by key. -/
structure Fits (doc : Value) : Prop where
  topKeys : ∀ key value, doc.at? [key] = some value → key ∈ ["language", "files", "rules"]
  languageKeys : ∀ key value, doc.at? ["language", key] = some value → key = "runners"
  filesKeys : ∀ key value, doc.at? ["files", key] = some value → key ∈ ["include", "exclude"]
  ruleKeys : ∀ name key value, doc.at? ["rules", name, key] = some value →
    key ∈ ["enabled", "severity"]
  runners : ∀ value, doc.at? ["language", "runners"] = some value →
    ∃ names, value = .strings names
  suffixes : ∀ value, doc.at? ["files", "include"] = some value → ∃ names, value = .strings names
  excludedDirs : ∀ value, doc.at? ["files", "exclude"] = some value →
    ∃ names, value = .strings names
  enabled : ∀ name value, doc.at? ["rules", name, "enabled"] = some value →
    ∃ enabled, value = .boolean enabled
  severity : ∀ name value, doc.at? ["rules", name, "severity"] = some value →
    ∃ severity : Severity, value = .string severity.name

/-- A setting is what is given for it, and its default where nothing is given. -/
def FromKey {α β : Type} (given : Option Value) (write : β → Value) (take : β → α)
    (default setting : α) : Prop :=
  given = none ∧ setting = default ∨ ∃ b, given = some (write b) ∧ setting = take b

/-- A setting is what is given for it, where the way in which it is written determines it. -/
theorem FromKey.of_given {α β : Type} {write : β → Value} {take : β → α} {default setting : α}
    {b : β} (hwrite : Function.Injective write)
    (h : FromKey (some (write b)) write take default setting) : setting = take b := by
  rcases h with ⟨habsent, -⟩ | ⟨b', hgiven, hset⟩
  · cases habsent
  · rw [hset, hwrite (Option.some.inj hgiven)]

/-- The configuration takes each setting from its key in the document. -/
structure Configured (doc : Value) (config : Config) : Prop where
  runners : FromKey (doc.at? ["language", "runners"]) .strings RunnerSet.ofList .standard
    config.runners
  suffixes : FromKey (doc.at? ["files", "include"]) .strings id ["_spec.rb"] config.files.suffixes
  excludedDirs : FromKey (doc.at? ["files", "exclude"]) .strings id
    ["vendor", ".git", "node_modules", "tmp"] config.files.excludedDirs
  enabled : ∀ name, FromKey (doc.at? ["rules", name, "enabled"]) .boolean id true
    (config.settings name).enabled
  severity : ∀ name, FromKey (doc.at? ["rules", name, "severity"])
    (fun severity : Severity => .string severity.name) some none (config.settings name).severity
  /-- A rule that is not named keeps its defaults. -/
  unset : ∀ name, doc.at? ["rules", name] = none →
    config.settings name = { enabled := true, severity := none }

/-! ## Reading values -/

theorem readString_eq_ok_iff {value : Value} {text : String} :
    readString value = .ok text ↔ value = .string text := by
  cases value <;> simp [readString]

theorem readBool_eq_ok_iff {value : Value} {b : Bool} :
    readBool value = .ok b ↔ value = .boolean b := by
  cases value <;> simp [readBool]

theorem mapM_readString_eq_ok_iff {items : List Value} {names : List String} :
    items.mapM readString = .ok names ↔ items = names.map .string := by
  induction items generalizing names with
  | nil => cases names <;> simp [pure, Except.pure]
  | cons item items ih =>
      rw [Keyed.mapM_cons_eq_ok_iff]
      simp only [readString_eq_ok_iff, ih]
      constructor
      · rintro ⟨first, rest, rfl, rfl, rfl⟩
        rfl
      · intro h
        cases names with
        | nil => exact nomatch h
        | cons first rest =>
            obtain ⟨rfl, rfl⟩ := List.cons.inj h
            exact ⟨first, rest, rfl, rfl, rfl⟩

theorem readStrings_eq_ok_iff {value : Value} {names : List String} :
    readStrings value = .ok names ↔ value = .strings names := by
  cases value <;> simp [readStrings, Value.strings, mapM_readString_eq_ok_iff]

theorem readSeverity_string_eq_ok_iff {text : String} {severity : Severity} :
    readSeverity (.string text) = .ok severity ↔ text = severity.name := by
  rw [readSeverity, readSeverityName, ← Severity.ofName?_eq_some_iff]
  cases Severity.ofName? text <;> simp

/-! ## One table of fixed keys -/

section Keys

variable {σ : Type} {keys : List (Key σ)} {value doc : Value} {state next : σ}

/-- The keys have different names, and whether one takes a value is independent of what was read
before. -/
structure Orderly (keys : List (Key σ)) : Prop where
  /-- No name comes twice. -/
  distinct : (keys.map Key.name).Nodup
  /-- A value that is taken once is always taken. -/
  steady : ∀ key ∈ keys, ∀ value state state', (∃ next, key.read state value = .ok next) →
    ∃ next, key.read state' value = .ok next

theorem readEntry_eq_ok_iff (h : (keys.map Key.name).Nodup) {name : String} :
    readEntry keys state (name, value) = .ok next ↔
      ∃ key ∈ keys, key.name = name ∧ key.read state value = .ok next := by
  rw [readEntry]
  cases hfind : keys.find? (·.name == name) with
  | none =>
      refine ⟨(nomatch ·), ?_⟩
      rintro ⟨key, hkey, hname, -⟩
      exact absurd (beq_iff_eq.2 hname) (List.find?_eq_none.1 hfind key hkey)
  | some key =>
      have hkey := List.mem_of_find?_eq_some hfind
      have hname : key.name = name := beq_iff_eq.1 (List.find?_some hfind :)
      constructor
      · intro hread
        exact ⟨key, hkey, hname, hread⟩
      · rintro ⟨key', hkey', hname', hread⟩
        obtain rfl := List.inj_on_of_nodup_map h hkey hkey' (hname.trans hname'.symm)
        exact hread

/-- **A table is accepted iff its keys are known and the value of each is taken.** -/
theorem exists_readKeys_iff (h : Orderly keys) (htable : doc.IsTable) (hdoc : doc.Distinct)
    (expected : Expected) (defaults : σ) :
    (∃ final, readKeys expected keys defaults doc = .ok final) ↔
      (∀ name value, doc.at? [name] = some value → name ∈ keys.map Key.name) ∧
      ∀ key ∈ keys, ∀ value, doc.at? [key.name] = some value →
        ∃ next, key.read defaults value = .ok next := by
  obtain ⟨entries, rfl⟩ := htable
  have hstep : ∀ state (entry : String × Value),
      (∃ next, readEntry keys state entry = .ok next) ↔
        ∃ key ∈ keys, key.name = entry.1 ∧ ∃ next, key.read defaults entry.2 = .ok next := by
    intro state entry
    constructor
    · rintro ⟨next, hnext⟩
      obtain ⟨key, hkey, hname, hread⟩ := (readEntry_eq_ok_iff h.distinct).1 hnext
      exact ⟨key, hkey, hname, h.steady key hkey _ _ _ ⟨next, hread⟩⟩
    · rintro ⟨key, hkey, hname, hread⟩
      obtain ⟨next, hread⟩ := h.steady key hkey _ _ state hread
      exact ⟨next, (readEntry_eq_ok_iff h.distinct).2 ⟨key, hkey, hname, hread⟩⟩
  simp only [Value.at?_singleton]
  refine (Keyed.exists_foldlM_iff hstep entries defaults).trans ⟨fun hall => ⟨?_, ?_⟩, ?_⟩
  · intro name value hvalue
    obtain ⟨key, hkey, hname, -⟩ := hall _ (Keyed.mem_of_lookup hvalue)
    exact List.mem_map.2 ⟨key, hkey, hname⟩
  · intro key hkey value hvalue
    obtain ⟨key', hkey', hname, hread⟩ := hall _ (Keyed.mem_of_lookup hvalue)
    obtain rfl := List.inj_on_of_nodup_map h.distinct hkey' hkey hname
    exact hread
  · rintro ⟨hnames, hvalues⟩ ⟨name, value⟩ hentry
    have hvalue := (Keyed.lookup_eq_some_iff hdoc.nodup).2 hentry
    obtain ⟨key, hkey, hname⟩ := List.mem_map.1 (hnames name value hvalue)
    exact ⟨key, hkey, hname, hvalues key hkey value (hname ▸ hvalue)⟩

variable {α β : Type} {name : String} {field : σ → α} {Puts : Value → α → Prop}

/-- One of the keys puts its value into a field, and the others leave the field alone. -/
structure Sets (keys : List (Key σ)) (name : String) (field : σ → α) (Puts : Value → α → Prop) :
    Prop where
  /-- What the key puts into the field. -/
  set : ∀ key ∈ keys, key.name = name → ∀ state value next, key.read state value = .ok next →
    Puts value (field next)
  /-- The other keys leave the field as it is. -/
  keep : ∀ key ∈ keys, key.name ≠ name → ∀ state value next, key.read state value = .ok next →
    field next = field state

namespace Sets

variable {expected : Expected} {defaults final : σ}

/-- **What is read into a field is decided by its key**, whatever else the table holds. -/
theorem at?_or_default (hsets : Sets keys name field Puts) (h : Orderly keys)
    (htable : doc.IsTable) (hdoc : doc.Distinct)
    (hread : readKeys expected keys defaults doc = .ok final) :
    doc.at? [name] = none ∧ field final = field defaults ∨
      ∃ value, doc.at? [name] = some value ∧ Puts value (field final) := by
  obtain ⟨entries, rfl⟩ := htable
  rw [Value.at?_singleton]
  refine Keyed.field_foldlM ?_ ?_ hdoc.nodup hread
  · intro state value next hnext
    obtain ⟨key, hkey, hname, hnext⟩ := (readEntry_eq_ok_iff h.distinct).1 hnext
    exact hsets.set key hkey hname state value next hnext
  · intro state other value next hother hnext
    obtain ⟨key, hkey, hname, hnext⟩ := (readEntry_eq_ok_iff h.distinct).1 hnext
    exact hsets.keep key hkey (hname ▸ hother) state value next hnext

/-- What is read into a field is read from the table under its key, a missing table being empty. -/
theorem from_sub (hsets : Sets keys name field Puts) (h : Orderly keys)
    (htable : doc.IsTable) (hdoc : doc.Distinct)
    (hread : readKeys expected keys defaults doc = .ok final)
    (hvoid : Puts (.table []) (field defaults)) : Puts (doc.sub name) (field final) := by
  rcases hsets.at?_or_default h htable hdoc hread with ⟨habsent, hfield⟩ | ⟨value, hvalue, hputs⟩
  · rw [Value.sub_of_absent habsent, hfield]
    exact hvoid
  · rw [Value.sub_of_at? hvalue]
    exact hputs

/-- A field is taken from its key, if each value that the key takes is the writing of something. -/
theorem fromKey {write : β → Value} {take : β → α}
    (hsets : Sets keys name field fun value a => ∃ b, value = write b ∧ a = take b)
    (h : Orderly keys) (htable : doc.IsTable) (hdoc : doc.Distinct)
    (hread : readKeys expected keys defaults doc = .ok final) :
    FromKey (doc.at? [name]) write take (field defaults) (field final) := by
  rcases hsets.at?_or_default h htable hdoc hread with habsent | ⟨value, hvalue, b, rfl, htake⟩
  · exact Or.inl habsent
  · exact Or.inr ⟨b, hvalue, htake⟩

end Sets

end Keys

/-! ## The tables of the schema -/

theorem orderly_languageKeys : Orderly languageKeys where
  distinct := by decide
  steady := by simp [languageKeys, Keyed.exists_map_iff, -forall_exists_index]

theorem orderly_filesKeys : Orderly filesKeys where
  distinct := by decide
  steady := by simp [filesKeys, Keyed.exists_map_iff, -forall_exists_index]

theorem orderly_ruleKeys : Orderly ruleKeys where
  distinct := by decide
  steady := by simp [ruleKeys, Keyed.exists_map_iff, -forall_exists_index]

theorem orderly_documentKeys : Orderly documentKeys where
  distinct := by decide
  steady := by simp [documentKeys, Keyed.exists_map_iff, -forall_exists_index]

variable {doc : Value}

theorem exists_language_iff (htable : doc.IsTable) (hdoc : doc.Distinct) :
    (∃ runners, readKeys .language languageKeys none doc = .ok runners) ↔
      (∀ key value, doc.at? [key] = some value → key = "runners") ∧
      ∀ value, doc.at? ["runners"] = some value → ∃ names, value = .strings names := by
  rw [exists_readKeys_iff orderly_languageKeys htable hdoc]
  simp [languageKeys, Keyed.exists_map_iff, readStrings_eq_ok_iff]

theorem exists_files_iff (htable : doc.IsTable) (hdoc : doc.Distinct) :
    (∃ files, readKeys .files filesKeys {} doc = .ok files) ↔
      (∀ key value, doc.at? [key] = some value → key ∈ ["include", "exclude"]) ∧
      (∀ value, doc.at? ["include"] = some value → ∃ names, value = .strings names) ∧
      ∀ value, doc.at? ["exclude"] = some value → ∃ names, value = .strings names := by
  rw [exists_readKeys_iff orderly_filesKeys htable hdoc]
  simp [filesKeys, Keyed.exists_map_iff, readStrings_eq_ok_iff]

theorem exists_rule_iff (htable : doc.IsTable) (hdoc : doc.Distinct) :
    (∃ rule, readRule doc = .ok rule) ↔
      (∀ key value, doc.at? [key] = some value → key ∈ ["enabled", "severity"]) ∧
      (∀ value, doc.at? ["enabled"] = some value → ∃ enabled, value = .boolean enabled) ∧
      ∀ value, doc.at? ["severity"] = some value →
        ∃ severity, readSeverity value = .ok severity := by
  unfold readRule
  rw [exists_readKeys_iff orderly_ruleKeys htable hdoc]
  simp [ruleKeys, Keyed.exists_map_iff, readBool_eq_ok_iff]

/-- All rules are accepted iff each of them is. -/
theorem exists_readRules_iff (htable : doc.IsTable) (hdoc : doc.Distinct) :
    (∃ rules, readRules doc = .ok rules) ↔ ∀ name, ∃ rule, readRule (doc.sub name) = .ok rule := by
  obtain ⟨entries, rfl⟩ := htable
  have hvoid : ∃ rule, readRule (.table []) = .ok rule := ⟨{}, rfl⟩
  simp only [← Value.forall_at?_iff (P := fun value => ∃ rule, readRule value = .ok rule) hvoid,
    Value.at?_singleton]
  refine Keyed.exists_mapM_iff.trans ⟨?_, ?_⟩
  · intro hall name value hvalue
    exact Keyed.exists_map_iff.1 (hall _ (Keyed.mem_of_lookup hvalue))
  · rintro hall ⟨name, value⟩ hentry
    exact Keyed.exists_map_iff.2 (hall name value ((Keyed.lookup_eq_some_iff hdoc.nodup).2 hentry))

/-- A document is accepted iff its keys are known and its tables are accepted. -/
theorem exists_readDocument_iff {entries : Toml.Entries} (hdoc : (Value.table entries).Distinct) :
    (∃ draft, readDocument entries = .ok draft) ↔
      (∀ key value, (Value.table entries).at? [key] = some value →
        key ∈ ["language", "files", "rules"]) ∧
      (∃ runners, readKeys .language languageKeys none ((Value.table entries).sub "language") =
        .ok runners) ∧
      (∃ files, readKeys .files filesKeys {} ((Value.table entries).sub "files") = .ok files) ∧
      ∃ rules, readRules ((Value.table entries).sub "rules") = .ok rules := by
  refine (exists_readKeys_iff orderly_documentKeys ⟨entries, rfl⟩ hdoc .map {}).trans ?_
  rw [← Value.forall_at?_iff
      (P := fun value => ∃ runners, readKeys .language languageKeys none value = .ok runners) ⟨_, rfl⟩,
    ← Value.forall_at?_iff
      (P := fun value => ∃ files, readKeys .files filesKeys {} value = .ok files) ⟨_, rfl⟩,
    ← Value.forall_at?_iff (P := fun value => ∃ rules, readRules value = .ok rules) ⟨_, rfl⟩]
  simp [documentKeys, Keyed.exists_map_iff]

/-! ## When a document is accepted -/

section Document

variable {entries : Toml.Entries}

theorem Tabular.isTable_rule (h : Tabular doc) (name : String) :
    ((doc.sub "rules").sub name).IsTable := by
  refine Value.isTable_sub fun value hvalue => h.rule name value ?_
  rwa [Value.at?_cons_cons]

/-- Severities that are strings are accepted iff they are names of severities. -/
theorem Tabular.exists_severity_iff (h : Tabular doc) {name : String} {value : Value}
    (hvalue : ((doc.sub "rules").sub name).at? ["severity"] = some value) :
    (∃ severity, readSeverity value = .ok severity) ↔
      ∃ severity : Severity, value = .string severity.name := by
  obtain ⟨text, rfl⟩ := h.severity name value (by
    rwa [Value.at?_cons_cons, Value.at?_cons_cons])
  simp only [readSeverity_string_eq_ok_iff, Value.string.injEq]

/-- **A document is accepted iff it fits the schema.** -/
theorem exists_readDocument_iff_fits (htables : Tabular (.table entries))
    (hdoc : (Value.table entries).Distinct) :
    (∃ draft, readDocument entries = .ok draft) ↔ Fits (.table entries) := by
  rw [exists_readDocument_iff hdoc,
    exists_language_iff (Value.isTable_sub htables.language) (hdoc.sub "language"),
    exists_files_iff (Value.isTable_sub htables.files) (hdoc.sub "files"),
    exists_readRules_iff (Value.isTable_sub htables.rules) (hdoc.sub "rules")]
  simp only [exists_rule_iff (htables.isTable_rule _) ((hdoc.sub "rules").sub _)]
  constructor
  · rintro ⟨htop, ⟨hlanguage, hrunners⟩, ⟨hfiles, hinclude, hexclude⟩, hrules⟩
    refine ⟨htop, ?_, ?_, ?_, ?_, ?_, ?_, ?_, ?_⟩
    all_goals simp only [Value.at?_cons_cons]
    · exact hlanguage
    · exact hfiles
    · exact fun name => (hrules name).1
    · exact hrunners
    · exact hinclude
    · exact hexclude
    · exact fun name => (hrules name).2.1
    · intro name value hvalue
      exact (htables.exists_severity_iff hvalue).1 ((hrules name).2.2 value hvalue)
  · rintro ⟨htop, hlanguage, hfiles, hrule, hrunners, hinclude, hexclude, henabled, hseverity⟩
    simp only [Value.at?_cons_cons] at hlanguage hfiles hrule
    simp only [Value.at?_cons_cons] at hrunners hinclude hexclude henabled hseverity
    refine ⟨htop, ⟨hlanguage, hrunners⟩, ⟨hfiles, hinclude, hexclude⟩, fun name => ?_⟩
    refine ⟨hrule name, henabled name, fun value hvalue => ?_⟩
    exact (htables.exists_severity_iff hvalue).2 (hseverity name value hvalue)

/-! ## What is read from it -/

theorem sets_runners : Sets languageKeys "runners" id
    fun value runners => ∃ names, value = .strings names ∧ runners = some names where
  set := by simp [languageKeys, Keyed.map_eq_ok_iff, readStrings_eq_ok_iff]
  keep := by simp [languageKeys]

theorem sets_suffixes : Sets filesKeys "include" FileSelection.suffixes
    fun value suffixes => ∃ names, value = .strings names ∧ suffixes = id names where
  set := by simp [filesKeys, Keyed.map_eq_ok_iff, readStrings_eq_ok_iff]
  keep := by simp [filesKeys, Keyed.map_eq_ok_iff]

theorem sets_excludedDirs : Sets filesKeys "exclude" FileSelection.excludedDirs
    fun value dirs => ∃ names, value = .strings names ∧ dirs = id names where
  set := by simp [filesKeys, Keyed.map_eq_ok_iff, readStrings_eq_ok_iff]
  keep := by simp [filesKeys, Keyed.map_eq_ok_iff]

theorem sets_enabled : Sets ruleKeys "enabled" RuleSettings.enabled
    fun value enabled => ∃ b, value = .boolean b ∧ enabled = id b where
  set := by simp [ruleKeys, Keyed.map_eq_ok_iff, readBool_eq_ok_iff, -Bool.exists_bool, -Bool.forall_bool]
  keep := by simp [ruleKeys, Keyed.map_eq_ok_iff]

theorem sets_severity : Sets ruleKeys "severity" RuleSettings.severity
    fun value severity => ∃ s, readSeverity value = .ok s ∧ severity = some s where
  set := by simp [ruleKeys, Keyed.map_eq_ok_iff]
  keep := by simp [ruleKeys, Keyed.map_eq_ok_iff, -Bool.exists_bool, -Bool.forall_bool]

theorem sets_language : Sets documentKeys "language" Draft.runners
    fun value runners => readKeys .language languageKeys none value = .ok runners where
  set := by simp [documentKeys, Keyed.map_eq_ok_iff]
  keep := by simp [documentKeys, Keyed.map_eq_ok_iff]

theorem sets_files : Sets documentKeys "files" Draft.files
    fun value files => readKeys .files filesKeys {} value = .ok files where
  set := by simp [documentKeys, Keyed.map_eq_ok_iff]
  keep := by simp [documentKeys, Keyed.map_eq_ok_iff]

theorem sets_rules : Sets documentKeys "rules" Draft.rules
    fun value rules => readRules value = .ok rules where
  set := by simp [documentKeys, Keyed.map_eq_ok_iff]
  keep := by simp [documentKeys, Keyed.map_eq_ok_iff]

/-- How a rule is set is read from the table under its name. -/
theorem readRule_sub {rules : List (String × RuleSettings)} (htable : doc.IsTable)
    (hread : readRules doc = .ok rules) (name : String) :
    readRule (doc.sub name) = .ok ((rules.lookup name).getD {}) := by
  obtain ⟨entries, rfl⟩ := htable
  rcases Keyed.lookup_mapM hread name with ⟨habsent, hrule⟩ | ⟨value, rule, hvalue, hrule, hok⟩
  · rw [Value.sub_of_absent (Value.at?_singleton.trans habsent), hrule]
    rfl
  · rw [Value.sub_of_at? (Value.at?_singleton.trans hvalue), hrule]
    exact hok

variable {draft : Draft} {config : Config}

theorem ofDraft_eq_ok_iff : ofDraft draft = .ok config ↔ draft.runners ≠ some [] ∧ config =
    { runners := (draft.runners.map RunnerSet.ofList).getD .standard, files := draft.files,
      rules := draft.rules } := by
  unfold ofDraft
  split
  · rename_i hnil
    simp [hnil]
  · rename_i names hne hnames
    have hne : names ≠ [] := hne
    simp [hnames, hne, eq_comm]
  · rename_i hnone
    simp [hnone, eq_comm]

theorem ofDraft_eq_error_iff {problem : Problem} :
    ofDraft draft = .error problem ↔ draft.runners = some [] ∧ problem = .emptyRunners := by
  unfold ofDraft
  split
  · rename_i hnil
    simp [hnil, eq_comm]
  · rename_i names hne hnames
    have hne : names ≠ [] := hne
    simp [hnames, hne]
  · rename_i hnone
    simp [hnone]

/-- The runners that a document gives. -/
theorem fromKey_runners (htables : Tabular (.table entries)) (hdoc : (Value.table entries).Distinct)
    (hread : readKeys .map documentKeys {} (.table entries) = .ok draft) :
    FromKey ((Value.table entries).at? ["language", "runners"]) .strings some none draft.runners := by
  have hlanguage := sets_language.from_sub orderly_documentKeys ⟨entries, rfl⟩ hdoc hread rfl
  rw [Value.at?_cons_cons]
  exact sets_runners.fromKey orderly_languageKeys (Value.isTable_sub htables.language)
    (hdoc.sub "language") hlanguage

/-- **Each setting is read from its own key**, or has its own default. -/
theorem configured_of_ofDraft (htables : Tabular (.table entries))
    (hdoc : (Value.table entries).Distinct)
    (hread : readKeys .map documentKeys {} (.table entries) = .ok draft)
    (hconfig : ofDraft draft = .ok config) : Configured (.table entries) config := by
  obtain ⟨-, rfl⟩ := ofDraft_eq_ok_iff.1 hconfig
  have htable : (Value.table entries).IsTable := ⟨entries, rfl⟩
  have hfiles := sets_files.from_sub orderly_documentKeys htable hdoc hread rfl
  have hrules := sets_rules.from_sub orderly_documentKeys htable hdoc hread rfl
  have hrule := readRule_sub (Value.isTable_sub htables.rules) hrules
  have hdrule := (hdoc.sub "rules").sub
  constructor
  · rcases fromKey_runners htables hdoc hread with ⟨habsent, hnone⟩ | ⟨names, hgiven, hsome⟩
    · refine Or.inl ⟨habsent, ?_⟩
      rw [hnone]
      rfl
    · refine Or.inr ⟨names, hgiven, ?_⟩
      rw [hsome]
      rfl
  · rw [Value.at?_cons_cons]
    exact sets_suffixes.fromKey orderly_filesKeys (Value.isTable_sub htables.files)
      (hdoc.sub "files") hfiles
  · rw [Value.at?_cons_cons]
    exact sets_excludedDirs.fromKey orderly_filesKeys (Value.isTable_sub htables.files)
      (hdoc.sub "files") hfiles
  · intro name
    rw [Value.at?_cons_cons, Value.at?_cons_cons]
    exact sets_enabled.fromKey orderly_ruleKeys (htables.isTable_rule name) (hdrule name)
      (hrule name)
  · intro name
    rw [Value.at?_cons_cons, Value.at?_cons_cons]
    rcases sets_severity.at?_or_default orderly_ruleKeys (htables.isTable_rule name) (hdrule name)
      (hrule name) with habsent | ⟨value, hvalue, severity, hseverity, hsome⟩
    · exact Or.inl habsent
    · obtain ⟨text, rfl⟩ := htables.severity name value (by
        rwa [Value.at?_cons_cons, Value.at?_cons_cons])
      obtain rfl := readSeverity_string_eq_ok_iff.1 hseverity
      exact Or.inr ⟨severity, hvalue, hsome⟩
  · intro name habsent
    rw [Value.at?_cons_cons] at habsent
    have hsettings := hrule name
    rw [Value.sub_of_absent habsent] at hsettings
    exact (Except.ok.inj hsettings).symm

end Document

/-! ## The outcome -/

theorem ofToml_of_parse {text : String} {entries : Toml.Entries}
    (hparse : Toml.parse text = some entries) : ofToml text =
      match readKeys .map documentKeys {} (.table entries) with
      | .ok draft => ofDraft draft
      | .error misfit => .error (.misfit misfit) := by
  rw [ofToml, hparse]
  rfl

/-- **A document is accepted exactly when it fits the schema** and does not give an empty list of
runners; the empty list is reported where everything else fits, and a misfit otherwise.  In what is
accepted each setting comes from its own key or has its own default. -/
theorem ofToml_outcome {text : String} {entries : Toml.Entries}
    (hparse : Toml.parse text = some entries) (htables : Tabular (.table entries)) :
    ((∃ config, ofToml text = .ok config) ↔ Fits (.table entries) ∧
      (Value.table entries).at? ["language", "runners"] ≠ some (.array [])) ∧
    (ofToml text = .error .emptyRunners ↔ Fits (.table entries) ∧
      (Value.table entries).at? ["language", "runners"] = some (.array [])) ∧
    ((∃ misfit, ofToml text = .error (.misfit misfit)) ↔ ¬ Fits (.table entries)) ∧
    ∀ config, ofToml text = .ok config → Configured (.table entries) config := by
  have hdoc := Toml.distinct_of_parse hparse
  have hfits := exists_readDocument_iff_fits htables hdoc
  rw [ofToml_of_parse hparse]
  cases hread : readKeys .map documentKeys {} (.table entries) with
  | error misfit =>
      have hnot : ¬ Fits (.table entries) := by
        intro h
        obtain ⟨draft, hdraft⟩ := hfits.2 h
        exact nomatch hread.symm.trans hdraft
      simp [hnot]
  | ok draft =>
      have hfit : Fits (.table entries) := hfits.1 ⟨draft, hread⟩
      have hempty : draft.runners = some [] ↔
          (Value.table entries).at? ["language", "runners"] = some (.array []) := by
        rcases fromKey_runners htables hdoc hread with ⟨habsent, hnone⟩ | ⟨names, hgiven, hsome⟩
        · rw [habsent, hnone]
          simp
        · rw [hgiven, hsome]
          simp [Value.strings]
      refine ⟨?_, ?_, ?_, fun config hconfig => configured_of_ofDraft htables hdoc hread hconfig⟩
      · simp only [ofDraft_eq_ok_iff, hfit, true_and, ne_eq, ← hempty, exists_and_left, exists_eq,
          and_true]
      · simp only [ofDraft_eq_error_iff, hfit, true_and, ← hempty, and_true]
      · simp [ofDraft_eq_error_iff, hfit]

/-- The text of a document that gives two runners, enters all directories and switches one rule
off. -/
def switchedOffText : String :=
  "language.runners = [\"should\", \"to\"]\nfiles.exclude = []\nrules.A.enabled = false\n"

/-- That document. -/
def switchedOff : Value :=
  .table [("language", .table [("runners", .array [.string "should", .string "to"])]),
    ("files", .table [("exclude", .array [])]),
    ("rules", .table [("A", .table [("enabled", .boolean false)])])]

theorem tabular_switchedOff : Tabular switchedOff := by
  have hother : ∀ name path, name ≠ "A" → switchedOff.at? ("rules" :: name :: path) = none := by
    intro name path hname
    simp [switchedOff, Value.at?, Value.entries, List.lookup_cons, beq_eq_false_iff_ne.2 hname]
  refine ⟨?_, ?_, ?_, ?_, ?_⟩
  · rintro value ⟨⟩
    exact ⟨_, rfl⟩
  · rintro value ⟨⟩
    exact ⟨_, rfl⟩
  · rintro value ⟨⟩
    exact ⟨_, rfl⟩
  · intro name value hvalue
    by_cases hname : name = "A"
    · subst hname
      obtain rfl := Option.some.inj hvalue
      exact ⟨_, rfl⟩
    · exact nomatch (hother name [] hname).symm.trans hvalue
  · intro name value hvalue
    by_cases hname : name = "A"
    · subst hname
      exact nomatch hvalue
    · exact nomatch (hother name ["severity"] hname).symm.trans hvalue

/-- The document fits the schema; what it gives is set, and what it does not give has its
default. -/
theorem ofToml_outcome_switchedOff :
    Toml.parse switchedOffText = some switchedOff.entries ∧
    Tabular switchedOff ∧ Fits switchedOff ∧
    ∃ config, ofToml switchedOffText = .ok config ∧
      config.runners = .ofList ["should", "to"] ∧ config.files.suffixes = ["_spec.rb"] ∧
      config.files.excludedDirs = [] ∧ (config.settings "A").enabled = false ∧
      config.settings "B" = { enabled := true, severity := none } := by
  have hparse : Toml.parse switchedOffText = some switchedOff.entries := by cbv
  have haccepted : ∃ config, ofToml switchedOffText = .ok config :=
    ⟨{ runners := .ofList ["should", "to"], files := { excludedDirs := [] },
       rules := [("A", { enabled := false })] }, by cbv⟩
  obtain ⟨houtcome, -, -, hconfigured⟩ := ofToml_outcome hparse tabular_switchedOff
  obtain ⟨config, hconfig⟩ := haccepted
  have hsettings := hconfigured config hconfig
  refine ⟨hparse, tabular_switchedOff, (houtcome.1 ⟨config, hconfig⟩).1, config, hconfig, ?_, ?_,
    ?_, ?_, hsettings.unset "B" rfl⟩
  · exact FromKey.of_given Value.strings_injective hsettings.runners
  · rcases hsettings.suffixes with ⟨-, hdefault⟩ | ⟨_, hgiven, -⟩
    · exact hdefault
    · cases hgiven
  · exact @FromKey.of_given _ _ _ _ _ _ [] Value.strings_injective hsettings.excludedDirs
  · exact FromKey.of_given (fun _ _ => Value.boolean.inj) (hsettings.enabled "A")

end Config

end SpecLint
