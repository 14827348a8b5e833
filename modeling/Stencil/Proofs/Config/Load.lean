import Stencil.Proofs.Config.Audit
import Stencil.Proofs.Log

/-!
# Stencil — how loading ends

A file is loaded in stages: its bytes are decoded, the text is read as YAML, the data
are checked. A text that is no YAML and data that are no settings are faults of the
configuration, and a check of the configuration reports them as such. Bytes that are no
text are not, and neither is a YAML scalar without a value; these end a check as they
end the loading.

Main results:

* `loadFrom_runIn` — loading a file depends on its bytes alone;
* `loadFrom_eq_ok` — what is known of a file that was loaded;
* `auditSettings_ok_iff` — when a check of loaded settings has a result;
* `load_ends` — how loading and checking a file end, whatever it holds.
-/

namespace Stencil.Config

open Stencil.Disk Work

variable {w w' : World} {path root : Path} {path? : Option Path} {s : Settings}
  {bytes : List UInt8}

/-! ## Loading a file -/

/-- The text of a configuration file with these characters. -/
def sourceOf (cs : List Char) : String :=
  String.ofList (Text.unifyLineEnds cs)

/-- The settings that the bytes of a file hold. -/
def settingsFrom (path : Path) (bytes : List UInt8) : Except Failure Settings :=
  match Text.Utf8.decode bytes with
  | .error fault => .error (.undecodable fault)
  | .ok cs =>
    match parse path (sourceOf cs) with
    | .error failure => .error failure
    | .ok d => settingsOf path d

/-- What is logged before a file is read. -/
def openingRecord (path : Path) : Log.Record :=
  ⟨.debug, .configuration, "Loading crudgen config from " ++ path.text⟩

/-- A file that is there can still be read after a log record. -/
theorem exists_read_log (hfile : w.disk.isFile? path = .ok true) (r : Log.Record) :
    ∃ bytes, (w.log r).disk.read path = .ok bytes := by
  rw [← isFile_eq_true_iff, (World.Logged.log w r).sameShape.isFile_eq]
  exact hfile

theorem readSource_runIn (hread : w.disk.read path = .ok bytes) :
    (readSource path).runIn w =
      (((Text.Utf8.decode bytes).mapError .undecodable).map sourceOf, w) := by
  have htext : (readText path).runIn w =
      (((Text.Utf8.decode bytes).mapError .undecodable).map sourceOf, w) := by
    rw [readText, runIn_bind, runIn_read, hread]
    dsimp only [answered_ok]
    rw [runIn_bind, runIn_ofExcept]
    cases Text.Utf8.decode bytes <;> rfl
  rw [readSource, runIn_bind, runIn_outcome, htext]
  cases Text.Utf8.decode bytes <;> rfl

/-- **Loading a file** that is there depends on its bytes alone. -/
theorem loadFrom_runIn (hfile : w.disk.isFile? path = .ok true)
    (hread : (w.log (openingRecord path)).disk.read path = .ok bytes) :
    ((loadFrom path).runIn w).1 = settingsFrom path bytes := by
  have hlog : (Work.log .debug .configuration ("Loading crudgen config from " ++ path.text)).runIn
      w = (.ok (), w.log (openingRecord path)) :=
    rfl
  rw [loadFrom, runIn_bind, runIn_isFile?, hfile]
  dsimp only [answered_ok]
  rw [if_pos rfl, runIn_bind_of_ok hlog, runIn_bind, readSource_runIn hread, settingsFrom]
  cases Text.Utf8.decode bytes with
  | error fault => rfl
  | ok cs =>
    dsimp only [Except.mapError, Except.map]
    rw [runIn_bind, runIn_ofExcept]
    cases parse path (sourceOf cs) with
    | error failure => rfl
    | ok d =>
      dsimp only [Except.mapError]
      rw [runIn_bind, runIn_ofExcept]
      cases settingsOf path d <;> rfl

/-- What is logged once a file is loaded. -/
def closingRecord (s : Settings) : Log.Record :=
  ⟨.info, .configuration,
    "Loaded crudgen config with " ++ toString s.modules.length ++ " module(s)"⟩

/-- **A file that was loaded** is there and holds the settings, and nothing but log records
is left of the loading. -/
theorem loadFrom_eq_ok (h : (loadFrom path).runIn w = (.ok s, w')) :
    w.disk.isFile? path = .ok true ∧
      ∃ bytes, (w.log (openingRecord path)).disk.read path = .ok bytes ∧
        settingsFrom path bytes = .ok s ∧
        w' = (w.log (openingRecord path)).log (closingRecord s) := by
  have hloaded := h
  rw [loadFrom] at h
  obtain ⟨isThere, w₁, hfile, h⟩ := runIn_bind_ok h
  rw [runIn_isFile?] at hfile
  obtain ⟨hanswer, rfl⟩ := Prod.mk.inj hfile
  cases isThere with
  | false => simp at h
  | true =>
    have hthere : w.disk.isFile? path = .ok true := mapError_eq_ok.mp hanswer
    obtain ⟨bytes, hread⟩ := exists_read_log hthere (openingRecord path)
    have hsettings : settingsFrom path bytes = .ok s :=
      (loadFrom_runIn hthere hread).symm.trans (congrArg Prod.fst hloaded)
    refine ⟨hthere, bytes, hread, hsettings, ?_⟩
    obtain ⟨_, w₂, hopening, h⟩ := runIn_bind_ok h
    obtain ⟨-, rfl⟩ := Prod.mk.inj hopening
    obtain ⟨text, w₃, hsource, h⟩ := runIn_bind_ok h
    obtain ⟨-, rfl⟩ := Prod.mk.inj ((readSource_runIn hread).symm.trans hsource)
    obtain ⟨d, w₄, hparse, h⟩ := runIn_bind_ok h
    obtain ⟨-, rfl⟩ := runIn_ofExcept_eq_ok hparse
    obtain ⟨settings, w₅, hchecked, h⟩ := runIn_bind_ok h
    obtain ⟨-, rfl⟩ := runIn_ofExcept_eq_ok hchecked
    obtain ⟨_, w₆, hclosing, h⟩ := runIn_bind_ok h
    obtain ⟨-, rfl⟩ := Prod.mk.inj hclosing
    obtain ⟨hresult, rfl⟩ := Prod.mk.inj h
    obtain rfl := Except.ok.inj hresult
    rfl

/-- Settings that are refused are a fault of the configuration. -/
theorem settingsOf_eq_error {d : Data} {failure : Failure}
    (h : settingsOf path d = .error failure) : ∃ cause, failure = .config cause := by
  have hchecked : ∀ {d' : Data}, ((Settings.ofData d').mapError fun report =>
      Failure.config (.invalid report)) = .error failure → ∃ cause, failure = .config cause := by
    intro d' h'
    cases hd : Settings.ofData d' with
    | ok s => simp [hd, Except.mapError] at h'
    | error report =>
      rw [hd] at h'
      exact ⟨_, (Except.error.inj h').symm⟩
  cases d with
  | null =>
    rw [settingsOf] at h
    exact hchecked h
  | record entries =>
    rw [settingsOf] at h
    exact hchecked h
  | _ => exact ⟨_, (Except.error.inj h).symm⟩

/-! ## Checking loaded settings -/

/-- The directory of a module leads somewhere, and it can be told whether that is a
directory. -/
def IsReachable (d : Disk) (s : Settings) (root : Path) (e : ModuleEntry) : Prop :=
  ∃ directory isThere, d.resolve (s.directory root e) = .ok directory ∧
    d.isDirectory? directory = .ok isThere

section Reachable

variable {seen : List (Path × String)} {entries : List ModuleEntry}

theorem auditModules_of_reachable (h : ∀ e ∈ entries, IsReachable w.disk s root e) :
    ∃ result, (auditModules s root seen entries).runIn w = (.ok result, w) := by
  induction entries generalizing seen with
  | nil => exact ⟨_, rfl⟩
  | cons e rest ih =>
    obtain ⟨directory, isThere, hdirectory, hthere⟩ := h e List.mem_cons_self
    obtain ⟨result, hrest⟩ :
        ∃ result, (auditModules s root ((directory, e.name) :: seen) rest).runIn w =
          (.ok result, w) :=
      ih fun e' he' => h e' (List.mem_cons_of_mem _ he')
    rw [auditModules, runIn_bind, Settings.resolvedDirectory, runIn_resolve, hdirectory]
    dsimp only [answered_ok]
    rw [runIn_bind, runIn_isDirectory?, hthere]
    dsimp only [answered_ok]
    rw [runIn_bind, hrest]
    exact ⟨_, rfl⟩

theorem reachable_of_auditModules {result : List Problem × List Warning}
    (h : (auditModules s root seen entries).runIn w = (.ok result, w')) :
    w' = w ∧ ∀ e ∈ entries, IsReachable w.disk s root e := by
  induction entries generalizing seen result w' with
  | nil =>
    obtain ⟨-, hworld⟩ := Prod.mk.inj h
    exact ⟨hworld.symm, by simp⟩
  | cons e rest ih =>
    rw [auditModules] at h
    obtain ⟨directory, w₁, hresolve, hlook⟩ := runIn_bind_ok h
    obtain ⟨hdirectory, rfl⟩ := runIn_resolve_eq_ok hresolve
    obtain ⟨isThere, w₂, hthere, hmore⟩ := runIn_bind_ok hlook
    rw [runIn_isDirectory?] at hthere
    obtain ⟨hanswer, rfl⟩ := Prod.mk.inj hthere
    obtain ⟨⟨problems, warnings⟩, w₃, hrest, hlast⟩ := runIn_bind_ok hmore
    obtain ⟨rfl, hothers⟩ := ih hrest
    obtain ⟨-, hworld⟩ := Prod.mk.inj hlast
    refine ⟨hworld.symm, fun e' he' => ?_⟩
    rcases List.mem_cons.mp he' with rfl | he'
    · exact ⟨directory, isThere, hdirectory, mapError_eq_ok.mp hanswer⟩
    · exact hothers e' he'

end Reachable

/-- **A check of loaded settings has a result** if the root and every module can be
reached. -/
theorem auditSettings_ok_iff :
    (∃ a, ((auditSettings path s).runIn w).1 = .ok a) ↔
      ∃ root, w.disk.resolve path.parent = .ok root ∧
        ∀ e ∈ s.modules, IsReachable w.disk s root e := by
  constructor
  · rintro ⟨a, ha⟩
    have hrun : (auditSettings path s).runIn w = (.ok a, ((auditSettings path s).runIn w).2) :=
      Prod.ext ha rfl
    rw [auditSettings] at hrun
    obtain ⟨root, w₁, hroot, hthen⟩ := runIn_bind_ok hrun
    obtain ⟨hroot, rfl⟩ := runIn_resolve_eq_ok hroot
    obtain ⟨_, w₂, hmodules, -⟩ := runIn_bind_ok hthen
    exact ⟨root, hroot, (reachable_of_auditModules hmodules).2⟩
  · rintro ⟨root, hroot, hreachable⟩
    obtain ⟨result, hmodules⟩ :
        ∃ result, (auditModules s root [] s.modules).runIn w = (.ok result, w) :=
      auditModules_of_reachable hreachable
    rw [auditSettings, projectRoot, runIn_bind, runIn_resolve, hroot]
    dsimp only [answered_ok]
    rw [runIn_bind, hmodules]
    exact ⟨_, rfl⟩

/-! ## Loading and checking -/

theorem auditFile_of_settings (h : (loadFrom path).runIn w = (.ok s, w')) :
    (auditFile path).runIn w = (auditSettings path s).runIn w' := by
  rw [auditFile, runIn_bind, runIn_outcome, h]

/-- A fault of the configuration is what a check reports. -/
theorem auditFile_of_config {cause : ConfigFault}
    (h : ((loadFrom path).runIn w).1 = .error (.config cause)) :
    ((auditFile path).runIn w).1 = .ok ⟨some path, none, [.unloadable cause], []⟩ := by
  rw [auditFile, runIn_bind, runIn_outcome, h]
  rfl

/-- Every other failure ends a check too. -/
theorem auditFile_of_failure {failure : Failure} (hconfig : ∀ cause, failure ≠ .config cause)
    (h : ((loadFrom path).runIn w).1 = .error failure) :
    ((auditFile path).runIn w).1 = .error failure := by
  rw [auditFile, runIn_bind, runIn_outcome, h]
  cases failure with
  | config cause => exact absurd rfl (hconfig cause)
  | _ => rfl

/-- A path at which the configuration is looked for: a given one, or the nearest. -/
def IsSource (w : World) (path? : Option Path) (path : Path) : Prop :=
  path? = some path ∨ path? = none ∧ (find? none).runIn w = (.ok (some path), w)

namespace IsSource

theorem load_runIn (h : IsSource w path? path) :
    (load path?).runIn w = (loadFrom path).runIn w := by
  rcases h with rfl | ⟨rfl, hfind⟩
  · rfl
  · rw [load]
    exact runIn_bind_of_ok hfind

theorem audit_runIn (h : IsSource w path? path) :
    (audit path?).runIn w = (auditFile path).runIn w := by
  rcases h with rfl | ⟨rfl, hfind⟩
  · rfl
  · rw [audit]
    exact runIn_bind_of_ok hfind

end IsSource

/-- How loading and checking end when nothing but faults of the configuration can go
wrong: with such a fault, which the check reports, or with settings, of which the check
has a result if their modules can be reached. -/
def EndsAsConfig (w : World) (path? : Option Path) (path : Path) : Prop :=
  (∃ cause, ((load path?).runIn w).1 = .error (.config cause) ∧
    ∃ a, ((audit path?).runIn w).1 = .ok a ∧ a.isValid = false ∧
      a.problems = [.unloadable cause]) ∨
  ∃ s w', (load path?).runIn w = (.ok s, w') ∧
    ((∃ a, ((audit path?).runIn w).1 = .ok a) ↔
      ∃ root, w'.disk.resolve path.parent = .ok root ∧
        ∀ e ∈ s.modules, IsReachable w'.disk s root e)

theorem IsSource.endsAsConfig (h : IsSource w path? path) {result : Except Failure Settings}
    (hload : ((loadFrom path).runIn w).1 = result)
    (hconfig : ∀ failure, result = .error failure → ∃ cause, failure = .config cause) :
    EndsAsConfig w path? path := by
  rw [EndsAsConfig, h.load_runIn, h.audit_runIn]
  cases result with
  | error failure =>
    obtain ⟨cause, rfl⟩ := hconfig failure rfl
    exact .inl ⟨cause, hload, _, auditFile_of_config hload, rfl, rfl⟩
  | ok s =>
    have hrun : (loadFrom path).runIn w = (.ok s, ((loadFrom path).runIn w).2) :=
      Prod.ext hload rfl
    refine .inr ⟨s, _, hrun, ?_⟩
    rw [auditFile_of_settings hrun]
    exact auditSettings_ok_iff

/-- **How loading a file ends**, whatever it holds. Bytes that are no text and a scalar
without a value end the loading and the check alike; everything else is settings or a
fault of the configuration. -/
theorem load_ends (hsource : IsSource w path? path) (hfile : w.disk.isFile? path = .ok true) :
    ∃ bytes, (w.log (openingRecord path)).disk.read path = .ok bytes ∧
      ((∀ q, w.disk.locate .beyond path = .ok q → ¬ w.IsLog q) →
        w.disk.read path = .ok bytes) ∧
      match Text.Utf8.decode bytes with
      | .error fault =>
        ((load path?).runIn w).1 = .error (.undecodable fault) ∧
          ((audit path?).runIn w).1 = .error (.undecodable fault)
      | .ok cs =>
        match Yaml.load dataDepth (sourceOf cs) with
        | .error (.value fault) =>
          ((load path?).runIn w).1 = .error (.yamlValue fault) ∧
            ((audit path?).runIn w).1 = .error (.yamlValue fault)
        | _ => EndsAsConfig w path? path := by
  obtain ⟨bytes, hread⟩ := exists_read_log hfile (openingRecord path)
  refine ⟨bytes, hread, fun hother => ?_, ?_⟩
  · rw [← hread, (World.Logged.log w (openingRecord path)).read_eq hother]
  have hload := loadFrom_runIn hfile hread
  rw [settingsFrom] at hload
  cases hdecode : Text.Utf8.decode bytes with
  | error fault =>
    simp only [hdecode] at hload
    rw [hsource.load_runIn, hsource.audit_runIn]
    exact ⟨hload, auditFile_of_failure (by simp) hload⟩
  | ok cs =>
    simp only [hdecode, parse] at hload
    dsimp only
    cases hyaml : Yaml.load dataDepth (sourceOf cs) with
    | ok d =>
      simp only [hyaml] at hload
      exact hsource.endsAsConfig hload fun failure => settingsOf_eq_error
    | error fault =>
      cases fault with
      | malformed =>
        simp only [hyaml] at hload
        refine hsource.endsAsConfig hload fun failure hfailure => ?_
        exact ⟨_, (Except.error.inj hfailure).symm⟩
      | value fault =>
        simp only [hyaml] at hload
        rw [hsource.load_runIn, hsource.audit_runIn]
        exact ⟨hload, auditFile_of_failure (by simp) hload⟩

private def brokenWorld : World :=
  World.ofDisk <| Disk.empty ["w"] |>.put [configFileName, "w"] (.file [0xff] newFileMode)

/-- A single byte that no text starts with ends a check. -/
theorem broken_ends :
    ((load none).runIn brokenWorld).1 = .error (.undecodable ⟨.start, 0, [0xff]⟩) ∧
      ((audit none).runIn brokenWorld).1 = .error (.undecodable ⟨.start, 0, [0xff]⟩) := by
  have hfile : brokenWorld.disk.isFile? ⟨.root, ["w", configFileName]⟩ = .ok true := by
    decide +kernel
  have hsource : IsSource brokenWorld none ⟨.root, ["w", configFileName]⟩ :=
    .inr ⟨rfl, by decide +kernel⟩
  obtain ⟨bytes, hread, -, hends⟩ := load_ends hsource hfile
  have hbytes : (brokenWorld.log (openingRecord ⟨.root, ["w", configFileName]⟩)).disk.read
      ⟨.root, ["w", configFileName]⟩ = .ok [0xff] := by
    decide +kernel
  obtain rfl := Except.ok.inj (hbytes.symm.trans hread)
  have hdecode : Text.Utf8.decode [0xff] = .error ⟨.start, 0, [0xff]⟩ := by
    decide +kernel
  rw [hdecode] at hends
  exact hends

end Stencil.Config
