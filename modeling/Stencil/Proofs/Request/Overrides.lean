import Stencil.Proofs.Request.Valid

/-!
# Stencil — requests with overrides

A request is made of a name, of defaults and of overrides. A field that the
overrides give counts as they give it, and every other one as the defaults do.

Main results:

* `ApiType.read_data` — a valid api type is read back from its record;
* `Request.ofName_of_saidBy` — the request that comes of a valid name.
-/

namespace Stencil

open Stencil.Check

/-! ## Entries of a record -/

namespace Data

theorem lookup?_cons (name : String) (e : Data × Data) (entries : List (Data × Data)) :
    lookup? name (e :: entries) =
      (lookup? name entries).or (if e.1.isText name then some e.2 else none) := by
  rw [lookup?, lookup?, List.reverse_cons, List.find?_append]
  cases entries.reverse.find? fun e => isText name e.1 with
  | some found => rfl
  | none =>
    rw [List.find?_singleton]
    by_cases hname : e.1.isText name = true <;> simp [hname]

/-- The entries that say something. -/
def present (entries : List (Data × Data)) : List (Data × Data) :=
  entries.filter (!·.2.isNull)

/-- An entry that may say nothing: it counts if it says something and nothing later
does. -/
theorem lookup?_present_cons {α : Type} {encode : α → Data}
    (hencode : ∀ a, (encode a).isNull = false) (name key : String) (value? : Option α)
    (entries : List (Data × Data)) :
    lookup? name (present ((.text key, value?.elim .null encode) :: entries)) =
      (lookup? name (present entries)).or (if key = name then value?.map encode else none) := by
  cases value? with
  | none =>
    have hdropped : present ((.text key, .null) :: entries) = present entries := rfl
    simp [hdropped]
  | some a =>
    have hkept : present ((.text key, encode a) :: entries) =
        (.text key, encode a) :: present entries := by
      simp [present, hencode]
    rw [Option.elim_some, hkept, lookup?_cons]
    simp [isText]

end Data

/-- A field that the record has is read from it. -/
theorem Check.field_of_lookup_some {α : Type} {entries : List (Data × Data)} {name : String}
    {default? : Option α} {read : Data → Checked α} {d : Data}
    (h : Data.lookup? name entries = some d) :
    field entries name default? read = under (.field name) (read d) := by
  unfold field
  rw [h]

/-- A field that an override may give: the override counts more than the default. -/
theorem Check.field_override {α : Type} {entries : List (Data × Data)} {name : String} {a : α}
    {value? : Option α} (encode : α → Data) {read : Data → Checked α}
    (hlookup : Data.lookup? name entries = value?.map encode)
    (hread : ∀ value ∈ value?, read (encode value) = .ok value) :
    field entries name (some a) read = .ok (value?.getD a) := by
  cases value? with
  | none => exact field_of_lookup_none hlookup
  | some value =>
    rw [field_of_lookup_some hlookup, hread value rfl]
    rfl

/-! ## Api types -/

namespace ApiType

/-- An api type as the entries of a record. -/
def entries (t : ApiType) : List (Data × Data) :=
  [(.text "type", .text t.kind.name), (.text "custom_names", .list (t.customNames.map .text))]

/-- An api type as a record. -/
def data (t : ApiType) : Data :=
  .record t.entries

theorem itemsFrom_texts (index : Nat) (names : List String) :
    itemsFrom readText index (names.map .text) = .ok names := by
  induction names generalizing index with
  | nil => rfl
  | cons name rest ih =>
    rw [List.map_cons, itemsFrom, ih]
    rfl

/-- **A valid api type is read back** from its record. -/
theorem read_data {t : ApiType} (h : t.Valid) : read t.data = .ok t := by
  obtain ⟨kind, names⟩ := t
  have hkind : readChoice ApiKind.choices (.text kind.name) = .ok kind := by
    cases kind <;> rfl
  have hnames : readOperations (.list (names.map .text)) = .ok names := by
    have hread : readItems .notSequence readText (.list (names.map .text)) = .ok names :=
      itemsFrom_texts 0 names
    rw [readOperations, hread]
    simp only [h.names]
  have htype : field (entries ⟨kind, names⟩) "type" (some .crud) (readChoice ApiKind.choices) =
      .ok kind := by
    have htext : Data.lookup? "type" (entries ⟨kind, names⟩) = some (.text kind.name) := rfl
    rw [field_of_lookup_some htext, hkind]
    rfl
  have hcustom : field (entries ⟨kind, names⟩) "custom_names" (some []) readOperations =
      .ok names := by
    have hlist : Data.lookup? "custom_names" (entries ⟨kind, names⟩) =
        some (.list (names.map .text)) := rfl
    rw [field_of_lookup_some hlist, hnames]
    rfl
  rw [data, read, ofEntries, htype, hcustom]
  exact if_neg fun hcustom => h.some hcustom.1 hcustom.2

end ApiType

/-! ## Requests -/

namespace Request

/-- What is said about a request besides its name and its directory. -/
structure Overrides where
  apiType? : Option ApiType
  isAppend? : Option Bool
  framework? : Option Framework
  isDryRun? : Option Bool
  deriving DecidableEq, Repr

namespace Overrides

variable (o : Overrides)

/-- What is said, as the entries of a record. -/
def entries : List (Data × Data) :=
  [(.text "framework", o.framework?.elim .null fun f => .text f.name),
    (.text "append_mode", o.isAppend?.elim .null .bool),
    (.text "dry_run", o.isDryRun?.elim .null .bool),
    (.text "api_type", o.apiType?.elim .null ApiType.data)]

/-- Entries that say this: in whatever order, null where nothing is said, and nothing of
the name and the directory. -/
structure SaidBy (entries : List (Data × Data)) : Prop where
  moduleName : Data.lookup? "module_name" (Data.present entries) = none
  modulePath : Data.lookup? "module_path" (Data.present entries) = none
  apiType : Data.lookup? "api_type" (Data.present entries) = o.apiType?.map ApiType.data
  isAppend : Data.lookup? "append_mode" (Data.present entries) = o.isAppend?.map Data.bool
  framework : Data.lookup? "framework" (Data.present entries) =
    o.framework?.map fun f => Data.text f.name
  isDryRun : Data.lookup? "dry_run" (Data.present entries) = o.isDryRun?.map Data.bool

theorem lookup?_entries (key : String) :
    Data.lookup? key (Data.present o.entries) =
      (((if "api_type" = key then o.apiType?.map ApiType.data else none).or
        (if "dry_run" = key then o.isDryRun?.map Data.bool else none)).or
        (if "append_mode" = key then o.isAppend?.map Data.bool else none)).or
        (if "framework" = key then o.framework?.map fun f => Data.text f.name else none) := by
  rw [entries, Data.lookup?_present_cons (fun _ => rfl), Data.lookup?_present_cons (fun _ => rfl),
    Data.lookup?_present_cons (fun _ => rfl), Data.lookup?_present_cons (fun _ => rfl)]
  have hnothing : Data.lookup? key (Data.present []) = none := rfl
  rw [hnothing, Option.none_or]

theorem saidBy_entries : o.SaidBy o.entries := by
  constructor <;> rw [lookup?_entries] <;> simp

end Overrides

variable {defaults : Defaults} {o : Overrides} {given name : String} {path : Disk.Path}
  {entries : List (Data × Data)}

/-- The record from which a request of that name is read. -/
def record (given : String) (entries : List (Data × Data)) : List (Data × Data) :=
  (.text "module_name", .text given) :: Data.present entries

theorem lookup?_record (key : String) :
    Data.lookup? key (record given entries) =
      (Data.lookup? key (Data.present entries)).or
        (if "module_name" = key then some (.text given) else none) := by
  rw [record, Data.lookup?_cons]
  simp [Data.isText]

/-- **The request that comes of a valid name**: every field is as the overrides give it,
and else as the defaults do. -/
theorem ofName_of_saidBy (hname : Naming.checkModuleName given = .ok name)
    (hpath : defaults.modulePath? = some path) (hapiType : ∀ t ∈ o.apiType?, t.Valid)
    (hsaid : o.SaidBy entries) :
    ofName given defaults entries =
      .ok ⟨name, path, o.apiType?.getD defaults.apiType, o.isAppend?.getD defaults.isAppend,
        o.framework?.getD defaults.framework, o.isDryRun?.getD defaults.isDryRun⟩ := by
  have hnamed : field (record given entries) "module_name" none readModuleName = .ok name := by
    have htext : Data.lookup? "module_name" (record given entries) = some (.text given) := by
      rw [lookup?_record, hsaid.moduleName]
      simp
    rw [field_of_lookup_some htext, readModuleName, readText]
    simp only [hname]
    rfl
  have hplaced : field (record given entries) "module_path" defaults.modulePath? readPath =
      .ok path := by
    rw [hpath]
    exact field_of_lookup_none (by rw [lookup?_record, hsaid.modulePath]; simp)
  have hserved : field (record given entries) "api_type" (some defaults.apiType) ApiType.read =
      .ok (o.apiType?.getD defaults.apiType) :=
    field_override ApiType.data (by rw [lookup?_record, hsaid.apiType]; simp) fun t ht =>
      ApiType.read_data (hapiType t ht)
  have hkept : field (record given entries) "append_mode" (some defaults.isAppend) readFlag =
      .ok (o.isAppend?.getD defaults.isAppend) :=
    field_override Data.bool (by rw [lookup?_record, hsaid.isAppend]; simp) fun _ _ => rfl
  have hwritten : field (record given entries) "framework" (some defaults.framework)
      (readChoice Framework.choices) = .ok (o.framework?.getD defaults.framework) :=
    field_override (fun f => Data.text f.name)
      (by rw [lookup?_record, hsaid.framework]; simp) fun f _ => by cases f <;> rfl
  have hdry : field (record given entries) "dry_run" (some defaults.isDryRun) readFlag =
      .ok (o.isDryRun?.getD defaults.isDryRun) :=
    field_override Data.bool (by rw [lookup?_record, hsaid.isDryRun]; simp) fun _ _ => rfl
  show ofData defaults (record given entries) = _
  rw [ofData]
  simp only [hnamed, hplaced, hserved, hkept, hwritten, hdry]
  rfl

theorem ofName_eq_ok (hname : Naming.checkModuleName given = .ok name)
    (hpath : defaults.modulePath? = some path) (hapiType : ∀ t ∈ o.apiType?, t.Valid) :
    ofName given defaults o.entries =
      .ok ⟨name, path, o.apiType?.getD defaults.apiType, o.isAppend?.getD defaults.isAppend,
        o.framework?.getD defaults.framework, o.isDryRun?.getD defaults.isDryRun⟩ :=
  ofName_of_saidBy hname hpath hapiType o.saidBy_entries

/-- Without overrides every field is as the defaults say. -/
theorem ofName_nil_eq_ok (hname : Naming.checkModuleName given = .ok name)
    (hpath : defaults.modulePath? = some path) :
    ofName given defaults [] =
      .ok ⟨name, path, defaults.apiType, defaults.isAppend, defaults.framework,
        defaults.isDryRun⟩ := by
  have hnothing := ofName_eq_ok (o := ⟨none, none, none, none⟩) hname hpath (by simp)
  exact hnothing

end Request

end Stencil
