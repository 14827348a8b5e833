import Stencil.Payload.Given
import Stencil.Proofs.Module.Plan
import Stencil.Proofs.Request.Valid

/-!
# Stencil — accepted names and what they are made into

Fields and operations that are given as data go through one check of their
names. It takes the words that can name something in a program, and besides
them every such word with one line feed behind it. The line feed stays in the
name, so it goes on into every text that is made from an operation's name: the
names of its files, its functions, and the places that imports take from. These
are texts of one line for the words, and for no other name that is taken.

Main results:

* `isDeclarable_iff_isTaken` — the names that go through the check;
* `Payload.Field.ofData_isOk_iff`, `ApiType.ofData_eq_ok_iff` — the records that
  are read;
* `oneLine_iff_of_mem_derivedTexts` — the texts made from an operation;
* `accepted_names` — the three together.
-/

namespace Stencil

open Stencil.Check Stencil.Naming Stencil.Source Stencil.Text

/-! ## Words -/

/-- A word that can name something in a program: letters and digits of ASCII, `_`
and `$`, at least one of them, and no digit in front. -/
structure IsWord (cs : List Char) : Prop where
  nonempty : cs ≠ []
  chars : ∀ c ∈ cs, c.isAlpha = true ∨ c.isDigit = true ∨ c = '_' ∨ c = '$'
  start : ∀ c, cs.head? = some c → c.isDigit = false

/-- A text that is taken for a name: a word, or a word and one line feed. -/
def IsTaken (name : String) : Prop :=
  ∃ word, IsWord word ∧ (name.toList = word ∨ name.toList = word ++ ['\n'])

theorem isIdentifierPart_iff {c : Char} :
    isIdentifierPart c = true ↔ c.isAlpha = true ∨ c.isDigit = true ∨ c = '_' ∨ c = '$' := by
  simp [isIdentifierPart, Char.isAlphanum, or_assoc]

theorem isIdentifierStart_iff {c : Char} :
    isIdentifierStart c = true ↔ isIdentifierPart c = true ∧ c.isDigit = false := by
  constructor
  · intro hc
    have hpart := isIdentifierPart_of_start hc
    have hascii : c.toNat < 0x80 := toNat_lt_of_isIdentifierPart hpart
    exact ⟨hpart, of_ascii (P := fun c => isIdentifierStart c = true → c.isDigit = false)
      (by decide) hascii hc⟩
  · rintro ⟨hpart, hdigit⟩
    simpa [isIdentifierStart, isIdentifierPart, Char.isAlphanum, hdigit] using hpart

theorem isIdentifier_iff_isWord {cs : List Char} : isIdentifier cs = true ↔ IsWord cs := by
  cases cs with
  | nil => exact ⟨fun h => absurd h (by decide), fun h => absurd rfl h.nonempty⟩
  | cons c rest =>
    rw [isIdentifier, Bool.and_eq_true, List.all_eq_true, isIdentifierStart_iff]
    constructor
    · rintro ⟨⟨hc, hdigit⟩, hrest⟩
      refine ⟨by simp, fun d hd => ?_, fun d hd => ?_⟩
      · rcases List.mem_cons.mp hd with rfl | hd
        · exact isIdentifierPart_iff.mp hc
        · exact isIdentifierPart_iff.mp (hrest d hd)
      · obtain rfl : c = d := by simpa using hd
        exact hdigit
    · intro h
      exact ⟨⟨isIdentifierPart_iff.mpr (h.chars c (by simp)), h.start c rfl⟩,
        fun d hd => isIdentifierPart_iff.mpr (h.chars d (by simp [hd]))⟩

/-- No word ends in a line feed. -/
theorem IsWord.getLast?_ne {cs : List Char} (h : IsWord cs) : cs.getLast? ≠ some '\n' :=
  fun hlast => absurd (isIdentifierPart_iff.mpr (h.chars _ (List.mem_of_getLast? hlast)))
    (by decide)

/-- **The names that go through the check** are the words, with one line feed behind
them if any. -/
theorem isDeclarable_iff_isTaken {name : String} : isDeclarable name = true ↔ IsTaken name := by
  rw [isDeclarable, dropFinalLineFeed]
  split
  · rename_i hlast
    obtain ⟨word, hword⟩ := List.getLast?_eq_some_iff.mp hlast
    rw [hword, List.dropLast_concat, isIdentifier_iff_isWord]
    constructor
    · exact fun h => ⟨word, h, .inr hword⟩
    · rintro ⟨word', hword', hname | hname⟩
      · exact absurd (hname ▸ hlast) hword'.getLast?_ne
      · obtain ⟨rfl, -⟩ := List.append_inj' (hword.symm.trans hname) rfl
        exact hword'
  · rename_i hlast
    rw [isIdentifier_iff_isWord]
    constructor
    · exact fun h => ⟨_, h, .inl rfl⟩
    · rintro ⟨word, hword, hname | hname⟩
      · exact hname ▸ hword
      · exact absurd (by simp [hname]) hlast

/-! ## Records that are read -/

namespace Check

variable {α : Type} {entries : List (Data × Data)} {name : String}

theorem under_eq_ok_iff {step : Step} {result : Checked α} {a : α} :
    under step result = .ok a ↔ result = .ok a := by
  cases result <;> simp [under]

theorem both_eq_ok_iff {β : Type} {first : Checked α} {second : Checked β} {p : α × β} :
    both first second = .ok p ↔ first = .ok p.1 ∧ second = .ok p.2 := by
  constructor
  · exact both_eq_ok
  · rintro ⟨rfl, rfl⟩
    rfl

/-- A field that the record has is read from it. -/
theorem field_eq_ok_iff {default? : Option α} {read : Data → Checked α} {d : Data} {a : α}
    (h : Data.lookup? name entries = some d) :
    field entries name default? read = .ok a ↔ read d = .ok a := by
  unfold field
  rw [under_eq_ok_iff, h]

/-- Another entry is not looked at. -/
theorem field_concat {default? : Option α} {read : Data → Checked α} {other : String} {d : Data}
    (h : other ≠ name) :
    field (entries ++ [(.text other, d)]) name default? read =
      field entries name default? read := by
  have hlookup : Data.lookup? name (entries ++ [(.text other, d)]) =
      Data.lookup? name entries := by
    simp [Data.lookup?, Data.isText, h]
  unfold field
  rw [hlookup]

theorem repeated_eq_nil_iff {names : List String} : repeated names = [] ↔ names.Nodup := by
  refine ⟨nodup_of_repeated, fun h => List.eq_nil_iff_forall_not_mem.mpr fun name hname => ?_⟩
  rw [repeated, List.mem_mergeSort, List.mem_eraseDups, List.mem_filter, decide_eq_true_eq] at hname
  have honce := List.nodup_iff_count.mp h name
  omega

theorem readItems_texts {names : List String} :
    readItems .notSequence readText (.list (names.map .text)) = .ok names := by
  show items readText (names.map .text) = .ok names
  unfold items
  -- the items are numbered on the way
  generalize 0 = index
  induction names generalizing index with
  | nil => rfl
  | cons name names ih =>
    rw [List.map_cons, itemsFrom, ih]
    rfl

end Check

theorem Payload.readFieldName_eq_ok_iff {given name : String} :
    readFieldName (.text given) = .ok name ↔ IsTaken given ∧ given = name := by
  rw [← isDeclarable_iff_isTaken]
  simp only [readFieldName, readText]
  split
  · simp [*]
  · simp [*, refuse]

/-- A field is put together from four readings. -/
theorem Payload.Field.ofData_eq_ok_iff {entries : List (Data × Data)} {f : Field} :
    Field.ofData entries = .ok f ↔
      field entries "name" none readFieldName = .ok f.name ∧
      field entries "optional" (some false) readFlag = .ok f.isOptional ∧
      field entries "type_expression" none readTypeText = .ok f.typeText ∧
      field entries "line" (some none) (nullable readWhole) = .ok f.line := by
  unfold Field.ofData
  constructor
  · intro h
    dsimp only at h
    split at h
    · rename_i hboth
      obtain rfl := Except.ok.inj h
      simpa only [both_eq_ok_iff] using hboth
    · simp at h
  · rintro ⟨hname, hoptional, htype, hline⟩
    rw [hname, hoptional, htype, hline]
    rfl

/-- **A record is read as a field** exactly if its name is taken and the record is
read under another name, which is a word. -/
theorem Payload.Field.ofData_isOk_iff {entries : List (Data × Data)} {name : String}
    (hname : Data.lookup? "name" entries = some (.text name)) :
    (∃ f, Field.ofData entries = .ok f ∧ f.name = name) ↔
      IsTaken name ∧ ∃ f, Field.ofData (entries ++ [(.text "name", .text "id")]) = .ok f := by
  have hid : Data.lookup? "name" (entries ++ [(.text "name", .text "id")]) =
      some (.text "id") := by
    simp [Data.lookup?, Data.isText]
  have htaken : IsTaken "id" := isDeclarable_iff_isTaken.mp (by decide)
  -- the name is the one part in which the two records differ
  simp only [ofData_eq_ok_iff, field_eq_ok_iff hname, field_eq_ok_iff hid,
    readFieldName_eq_ok_iff, field_concat (show "name" ≠ "optional" by decide),
    field_concat (show "name" ≠ "type_expression" by decide),
    field_concat (show "name" ≠ "line" by decide)]
  constructor
  · rintro ⟨f, ⟨⟨hname, -⟩, hrest⟩, -⟩
    exact ⟨hname, { f with name := "id" }, ⟨htaken, rfl⟩, hrest⟩
  · rintro ⟨hname, f, -, hrest⟩
    exact ⟨{ f with name := name }, ⟨⟨hname, rfl⟩, hrest⟩, rfl⟩

theorem operationsRefusal?_eq_none_iff {names : List String} :
    operationsRefusal? names = none ↔ (∀ name ∈ names, IsTaken name) ∧ names.Nodup := by
  simp only [← isDeclarable_iff_isTaken]
  refine ⟨of_operationsRefusal, fun ⟨htaken, hnodup⟩ => ?_⟩
  have hfind : names.find? (fun n => !isDeclarable n) = none :=
    List.find?_eq_none.mpr fun name hname => by simp [htaken name hname]
  rw [operationsRefusal?, hfind, repeated_eq_nil_iff.mpr hnodup]

theorem readOperations_eq_ok_iff {names names' : List String} :
    readOperations (.list (names.map .text)) = .ok names' ↔
      ((∀ name ∈ names, IsTaken name) ∧ names.Nodup) ∧ names = names' := by
  rw [readOperations, readItems_texts, ← operationsRefusal?_eq_none_iff]
  dsimp only
  split
  · rename_i hnone
    simp [hnone]
  · rename_i hsome
    simp [hsome, refuse]

/-- An api type is put together from two readings. -/
theorem ApiType.ofData_eq_ok_iff_fields {entries : List (Data × Data)} {t : ApiType} :
    ApiType.ofData entries = .ok t ↔
      field entries "type" (some .crud) (readChoice ApiKind.choices) = .ok t.kind ∧
      field entries "custom_names" (some []) readOperations = .ok t.customNames ∧
      (t.kind = .custom → t.customNames ≠ []) := by
  have hentries : ofData entries = .ok t ↔ ofEntries entries = .ok t := by
    rw [ofData]
    split <;> simp [*]
  have hparts : ∀ kind names, ofParts kind names = .ok t ↔
      kind = t.kind ∧ names = t.customNames ∧ (t.kind = .custom → t.customNames ≠ []) := by
    intro kind names
    rw [ofParts]
    split
    · rename_i hnone
      simp only [refuse, reduceCtorEq, false_iff]
      rintro ⟨rfl, rfl, hsome⟩
      exact hsome hnone.1 hnone.2
    · rename_i hsome
      rw [Except.ok.injEq]
      constructor
      · rintro rfl
        exact ⟨rfl, rfl, fun hkind hnil => hsome ⟨hkind, hnil⟩⟩
      · rintro ⟨rfl, rfl, -⟩
        rfl
  rw [hentries, ofEntries]
  constructor
  · intro h
    split at h
    · rename_i hboth
      obtain ⟨hkind, hnames⟩ := both_eq_ok hboth
      obtain ⟨rfl, rfl, hsome⟩ := (hparts _ _).mp h
      exact ⟨hkind, hnames, hsome⟩
    · simp at h
  · rintro ⟨hkind, hnames, hsome⟩
    rw [hkind, hnames]
    exact (hparts _ _).mpr ⟨rfl, rfl, hsome⟩

/-- **A record is read as an api type** exactly if the names of its operations are
taken and different, and there are some if they are all it has. -/
theorem ApiType.ofData_eq_ok_iff {entries : List (Data × Data)} {kind : ApiKind}
    {names : List String} (hkind : Data.lookup? "type" entries = some (.text kind.name))
    (hnames : Data.lookup? "custom_names" entries = some (.list (names.map .text)))
    {t : ApiType} :
    ApiType.ofData entries = .ok t ↔
      ((∀ name ∈ names, IsTaken name) ∧ names.Nodup ∧ (kind = .custom → names ≠ [])) ∧
        t = ⟨kind, names⟩ := by
  have hchoice : readChoice ApiKind.choices (.text kind.name) = .ok kind := by
    cases kind <;> rfl
  rw [ofData_eq_ok_iff_fields, field_eq_ok_iff hkind, field_eq_ok_iff hnames, hchoice,
    readOperations_eq_ok_iff, Except.ok.injEq]
  constructor
  · rintro ⟨rfl, ⟨⟨htaken, hnodup⟩, rfl⟩, hsome⟩
    exact ⟨⟨htaken, hnodup, hsome⟩, rfl⟩
  · rintro ⟨⟨htaken, hnodup, hsome⟩, rfl⟩
    exact ⟨rfl, ⟨⟨htaken, hnodup⟩, rfl⟩, hsome⟩

/-! ## What an operation's name is made into -/

/-- A text without a line end. -/
def IsOneLine (text : String) : Prop :=
  ∀ c ∈ text.toList, isLineEnd c = false

instance (text : String) : Decidable (IsOneLine text) :=
  List.decidableBAll _ _

theorem isOneLine_append {a b : String} : IsOneLine (a ++ b) ↔ IsOneLine a ∧ IsOneLine b := by
  simp only [IsOneLine, String.toList_append, List.mem_append]
  exact ⟨fun h => ⟨fun c hc => h c (.inl hc), fun c hc => h c (.inr hc)⟩,
    fun ⟨ha, hb⟩ c hc => hc.elim (ha c) (hb c)⟩

theorem isOneLine_of_alphanum {text : String} (h : ∀ c ∈ text.toList, c.isAlphanum = true) :
    IsOneLine text := fun c hc =>
  of_ascii (P := fun c => c.isAlphanum = true → isLineEnd c = false) (by decide)
    (toNat_lt_of_isAlphanum (h c hc)) (h c hc)

theorem IsWord.isOneLine {cs : List Char} (h : IsWord cs) : ∀ c ∈ cs, isLineEnd c = false :=
  fun c hc =>
    have hpart := isIdentifierPart_iff.mpr (h.chars c hc)
    of_ascii (P := fun c => isIdentifierPart c = true → isLineEnd c = false) (by decide)
      (toNat_lt_of_isIdentifierPart hpart) hpart

/-- A name that is taken is on one line unless a line feed is at its end. -/
theorem IsTaken.isOneLine_iff {name : String} (h : IsTaken name) :
    IsOneLine name ↔ IsWord name.toList := by
  obtain ⟨word, hword, hname | hname⟩ := h
  · rw [IsOneLine, hname]
    exact ⟨fun _ => hword, fun h => h.isOneLine⟩
  · rw [IsOneLine, hname]
    constructor
    · intro h
      exact absurd (h '\n' (by simp)) (by decide)
    · intro h
      exact absurd (by simp) h.getLast?_ne

namespace Source

variable {operation : String} {names : ModuleNames} {payload : Payload} {framework : Framework}

/-- The imports in the files of an operation, and the one of its controller in the
routes. -/
def operationImports (operation : String) (names : ModuleNames) (payload : Payload)
    (framework : Framework) : List Import :=
  (service operation names payload).imports ++
    (controller operation names payload.fields framework).imports ++
    (validator operation names payload.fields).imports ++
    (routes [operation] names framework).imports

/-- Whether an import takes from a generated file. -/
def Origin.isGenerated : Origin → Bool
  | .package _ => false
  | _ => true

/-- The texts that are made from an operation's name: the paths of its files, the
names of its functions, and where imports take from its files. -/
def derivedTexts (operation : String) (names : ModuleNames) (payload : Payload)
    (framework : Framework) : List String :=
  ([Role.types, .service, .controller, .validator].map fun role =>
      (role.path operation names).text) ++
    [serviceName operation names, controllerName operation names] ++
    (((operationImports operation names payload framework).map (·.origin)).filter
      Origin.isGenerated).map Origin.render

theorem isOneLine_names {given name : String} (hname : checkModuleName given = .ok name) :
    IsOneLine (moduleNames name).file ∧ IsOneLine (moduleNames name).className :=
  have hchars := (checkModuleName_eq_ok hname).2
  ⟨isOneLine_of_alphanum (alphanum_file hchars), isOneLine_of_alphanum (alphanum_className hchars)⟩

/-- The paths of an operation's files. -/
theorem isOneLine_path {role : Role} (hrole : role ≠ .routes) (hoperation : SlashFree operation)
    (hfile : SlashFree names.file) (hline : IsOneLine names.file) :
    IsOneLine (role.path operation names).text ↔ IsOneLine operation := by
  obtain ⟨directory, hdirectory, hstock⟩ :
      ∃ directory, role.directory? = some directory ∧ IsOneLine (directory ++ "/") := by
    cases role with
    | routes => exact absurd rfl hrole
    | _ => exact ⟨_, rfl, by decide⟩
  have hpath : (role.path operation names).text =
      directory ++ "/" ++ operationFile operation names := by
    rw [role.path_eq hoperation hfile, Role.names, hdirectory, Disk.Path.text_eq _ (by simp)]
    simp [Disk.Anchor.text, String.intercalate_cons_cons]
  have hdot : IsOneLine "." := by decide
  have hending : IsOneLine ".ts" := by decide
  rw [hpath, operationFile, fileStem, isOneLine_append]
  simp [isOneLine_append, hstock, hdot, hending, hline]

/-- What the files of an operation have in common with the places that imports take
from. -/
theorem isOneLine_fileStem (hline : IsOneLine names.file) :
    IsOneLine (fileStem operation names) ↔ IsOneLine operation := by
  have hdot : IsOneLine "." := by decide
  simp [fileStem, isOneLine_append, hdot, hline]

theorem isOneLine_functionName {what : String} (hclass : IsOneLine names.className)
    (hwhat : IsOneLine what) :
    IsOneLine (functionName operation names what) ↔ IsOneLine operation := by
  simp [functionName, isOneLine_append, hclass, hwhat]

/-- The imports that take from files of an operation. -/
theorem exists_directory_of_isGenerated {i : Import}
    (hi : i ∈ operationImports operation names payload framework)
    (hgenerated : i.origin.isGenerated = true) :
    ∃ directory ∈ [typesDirectory, servicesDirectory, controllersDirectory, validatorsDirectory],
      i.origin = .beside directory (fileStem operation names) ∨
        i.origin = .below directory (fileStem operation names) := by
  simp only [operationImports, service, controller, validator, routes, List.mem_append,
    List.mem_cons, List.not_mem_nil, or_false, List.map_cons, List.map_nil] at hi
  rcases hi with ((rfl | rfl | rfl | rfl) | rfl | rfl) | rfl | rfl
  · exact ⟨typesDirectory, by simp, .inl rfl⟩
  · cases framework <;> simp [frameworkImport, Origin.isGenerated] at hgenerated
  · exact ⟨validatorsDirectory, by simp, .inl rfl⟩
  · exact ⟨servicesDirectory, by simp, .inl rfl⟩
  · simp [Origin.isGenerated] at hgenerated
  · exact ⟨typesDirectory, by simp, .inl rfl⟩
  · cases framework <;> simp [routerImport, Origin.isGenerated] at hgenerated
  · exact ⟨controllersDirectory, by simp, .inr rfl⟩

/-- **Each text that is made from an operation's name is on one line** exactly if the
name is. -/
theorem oneLine_iff_of_mem_derivedTexts {given name : String}
    (hname : checkModuleName given = .ok name) (hoperation : SlashFree operation) {text : String}
    (htext : text ∈ derivedTexts operation (moduleNames name) payload framework) :
    IsOneLine text ↔ IsOneLine operation := by
  obtain ⟨hfile, hclass⟩ := isOneLine_names hname
  have hslash := slashFree_file (checkModuleName_eq_ok hname).2
  simp only [derivedTexts, List.mem_append] at htext
  rcases htext with (hpath | hfunction) | hspecifier
  · obtain ⟨role, hrole, rfl⟩ := List.mem_map.mp hpath
    refine isOneLine_path ?_ hoperation hslash hfile
    rintro rfl
    exact absurd hrole (by decide)
  · simp only [List.mem_cons, List.not_mem_nil, or_false] at hfunction
    rcases hfunction with rfl | rfl
    · exact isOneLine_functionName hclass (by decide)
    · exact isOneLine_functionName hclass (by decide)
  · obtain ⟨origin, horigin, rfl⟩ := List.mem_map.mp hspecifier
    obtain ⟨himport, hgenerated⟩ := List.mem_filter.mp horigin
    obtain ⟨i, hi, rfl⟩ := List.mem_map.mp himport
    obtain ⟨directory, hdirectory, hbeside⟩ := exists_directory_of_isGenerated hi hgenerated
    have hstock : ∀ d ∈ [typesDirectory, servicesDirectory, controllersDirectory,
        validatorsDirectory], IsOneLine ("../" ++ d ++ "/") ∧ IsOneLine ("./" ++ d ++ "/") := by
      decide
    obtain ⟨hbelow, hhere⟩ := hstock directory hdirectory
    rcases hbeside with horigin | horigin
    · rw [horigin, Origin.render, isOneLine_append, isOneLine_fileStem hfile]
      simp [hbelow]
    · rw [horigin, Origin.render, isOneLine_append, isOneLine_fileStem hfile]
      simp [hhere]

end Source

/-! ## Accepted names -/

theorem ApiType.ofData_valid {entries : List (Data × Data)} {t : ApiType}
    (h : ApiType.ofData entries = .ok t) : t.Valid := by
  refine ApiType.read_valid (d := .record entries) ?_
  rw [ApiType.ofData] at h
  split at h
  · rename_i hentries
    rwa [← Except.ok.inj h]
  · simp at h

/-- **The names of fields and of operations that are accepted** are the words, and the
words with one line feed behind them. The texts that are made from an accepted
operation's name are each on one line exactly if the name is a word. -/
theorem accepted_names (entries : List (Data × Data)) :
    (∀ name : String,
      Data.lookup? "name" entries = some (.text name) →
        ((∃ f, Payload.Field.ofData entries = .ok f ∧ f.name = name) ↔
          IsTaken name ∧
            ∃ f, Payload.Field.ofData (entries ++ [(.text "name", .text "id")]) = .ok f)) ∧
    (∀ (kind : ApiKind) (names : List String),
      Data.lookup? "type" entries = some (.text kind.name) →
      Data.lookup? "custom_names" entries = some (.list (names.map .text)) →
        ∀ t, ApiType.ofData entries = .ok t ↔
          ((∀ name ∈ names, IsTaken name) ∧ names.Nodup ∧ (kind = .custom → names ≠ [])) ∧
            t = ⟨kind, names⟩) ∧
    ∀ (t : ApiType) (given name : String),
      ApiType.ofData entries = .ok t → checkModuleName given = .ok name →
        ∀ operation ∈ t.operations, ∀ (payload : Payload) (framework : Framework),
          ∀ text ∈ derivedTexts operation (moduleNames name) payload framework,
            (IsOneLine text ↔ IsWord operation.toList) := by
  refine ⟨fun name => Payload.Field.ofData_isOk_iff,
    fun kind names hkind hnames t => ApiType.ofData_eq_ok_iff hkind hnames,
    fun t given name ht hname operation hoperation payload framework text htext => ?_⟩
  have hdeclarable := (ApiType.ofData_valid ht).declarable operation hoperation
  have htaken := isDeclarable_iff_isTaken.mp hdeclarable
  exact (oneLine_iff_of_mem_derivedTexts hname (slashFree_of_declarable hdeclarable) htext).trans
    htaken.isOneLine_iff

/-- A field and an operation with a line feed at the end of their names. The name of
the operation's service has a line feed in it. -/
theorem accepted_line_feed :
    (∃ f, Payload.Field.ofData
        [(.text "name", .text "id\n"), (.text "type_expression", .text "string")] = .ok f ∧
      f.name = "id\n") ∧
    ApiType.ofData [(.text "type", .text "custom"), (.text "custom_names", .list [.text "get\n"])] =
      .ok ⟨.custom, ["get\n"]⟩ ∧
    ¬ IsOneLine (serviceName "get\n" (moduleNames "todo")) := by
  obtain ⟨hfield, -, -⟩ := accepted_names
    [(.text "name", .text "id\n"), (.text "type_expression", .text "string")]
  obtain ⟨-, hapi, htexts⟩ := accepted_names
    [(.text "type", .text "custom"), (.text "custom_names", .list [.text "get\n"])]
  have hid : IsTaken "id\n" := isDeclarable_iff_isTaken.mp (by decide)
  have hget : IsTaken "get\n" := isDeclarable_iff_isTaken.mp (by decide)
  have hnotWord : ¬ IsWord "get\n".toList := fun h => absurd rfl h.getLast?_ne
  have haccepted := (hapi .custom ["get\n"] rfl rfl ⟨.custom, ["get\n"]⟩).mpr
    ⟨by simpa using hget, rfl⟩
  refine ⟨(hfield "id\n" rfl).mpr ⟨hid, ⟨"id", false, "string", none⟩, rfl⟩, haccepted, ?_⟩
  have hservice := htexts _ "todo" "todo" haccepted rfl "get\n" (by simp [ApiType.operations])
    ⟨[], ""⟩ .express (serviceName "get\n" (moduleNames "todo")) (by simp [derivedTexts])
  exact fun h => hnotWord (hservice.mp h)

end Stencil
