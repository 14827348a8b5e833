import Stencil.Proofs.Cli.Session
import Stencil.Proofs.Text.Json

/-!
# Stencil — commands that answer in JSON

A command that is asked for JSON prints one document and ends with a status that agrees
with it, as far as it gets to answer. A configuration that cannot be loaded is not
reported in JSON by the commands for modules, and neither is a request that cannot be
made for generating them; both are reported as they are to people. A failure that
a command does not handle ends it without a word.

Main results:

* `Json.reportsSuccess` — what a document says of the outcome;
* `checkConfig_ends`, `scaffoldTypes_ends`, `generateModules_ends`, `inspectFile_ends` —
  how each command ends;
* `run_json` — how a command line with the option for JSON ends.
-/

namespace Stencil

open Stencil.Disk

/-! ## Documents -/

/-- Whether a document reports success: by its member `ok` or `valid`, and if it has
neither, by having no member `error`. -/
def Json.reportsSuccess : Json → Bool
  | .object members =>
    match members.lookup "ok", members.lookup "valid" with
    | some (.bool isOk), _ => isOk
    | none, some (.bool isValid) => isValid
    | _, _ => (members.lookup "error").isNone
  | _ => false

theorem Config.Audit.reportsSuccess_json (a : Config.Audit) :
    a.json.reportsSuccess = a.isValid :=
  rfl

theorem Module.BatchResult.reportsSuccess_json (b : Module.BatchResult) :
    b.json.reportsSuccess = b.isOk :=
  rfl

theorem Module.Inspection.reportsSuccess_json (i : Module.Inspection) :
    i.json.reportsSuccess = i.result.isOk := by
  rw [Module.Inspection.json]
  cases i.result <;> rfl

namespace Cli

open Session

theorem reportsSuccess_stubsJson (r : Request) (files : List Module.WrittenFile) :
    (stubsJson r files).reportsSuccess = true :=
  rfl

theorem reportsSuccess_failureJson (message : String) :
    (failureJson message).reportsSuccess = false :=
  rfl

/-! ## How commands end -/

/-- The line that tells people why a command is refused. -/
def refusalLine (message : String) : String :=
  Text.printed ("❌ " ++ message ++ "\n")

/-- The ways in which a command ends that is asked for JSON: as one that is used wrongly,
with a line for people, without a word, or, if there is no reason for these, with a
document. -/
inductive Ends (refuses : String → Prop) (fails : Failure → Prop) (w : World) :
    Ending × World → Prop
  | misuse {w'} : Ends refuses fails w (.exit 2, w')
  | refusal {message w'} (reason : refuses message)
      (output : w'.output = w.output ++ refusalLine message) :
      Ends refuses fails w (.exit 1, w')
  | crash {failure w'} (reason : fails failure) (output : w'.output = w.output) :
      Ends refuses fails w (.crash failure, w')
  | document {j : Json} {w'} (unrefused : ∀ message, ¬ refuses message)
      (unfailed : ∀ failure, ¬ fails failure)
      (output : w'.output = w.output ++ (j.render ++ "\n")) :
      Ends refuses fails w (.exit (if j.reportsSuccess then 0 else 1), w')

theorem Ends.congr {refuses refuses' : String → Prop} {fails fails' : Failure → Prop} {w : World}
    {result : Ending × World} (h : Ends refuses fails w result)
    (hrefuses : ∀ message, refuses message ↔ refuses' message)
    (hfails : ∀ failure, fails failure ↔ fails' failure) : Ends refuses' fails' w result := by
  cases h with
  | misuse => exact .misuse
  | refusal reason output => exact .refusal ((hrefuses _).mp reason) output
  | crash reason output => exact .crash ((hfails _).mp reason) output
  | document unrefused unfailed output =>
    exact .document (fun message h => unrefused message ((hrefuses message).mpr h))
      (fun failure h => unfailed failure ((hfails failure).mpr h)) output

section Printing

variable {w w₁ : World} {refuses : String → Prop} {fails : Failure → Prop}

theorem runIn_printJson (j : Json) (w : World) :
    (printJson j).runIn w = (.ok (), { w with output := w.output ++ (j.render ++ "\n") }) := by
  rw [printJson, printLine, runIn_print, Text.printed_render]

theorem runIn_refuse {α : Type} (message : String) (w : World) :
    (refuse message : Session α).runIn w =
      (.error (.exit 1), { w with output := w.output ++ refusalLine message }) :=
  rfl

theorem ends_misuse (c : Command) (m : Misuse) : Ends refuses fails w (ended (misuse c m) w₁) :=
  .misuse

theorem ends_refuse {message : String} (hreason : refuses message)
    (hsame : w₁.output = w.output) : Ends refuses fails w (ended (refuse message) w₁) :=
  .refusal hreason (by rw [runIn_refuse, hsame])

theorem ends_crash {failure : Failure} (hreason : fails failure)
    (hsame : w₁.output = w.output) :
    Ends refuses fails w (ended (throw (.crash failure)) w₁) :=
  .crash hreason hsame

section Documents

variable (hrefuses : ∀ message, ¬ refuses message) (hfails : ∀ failure, ¬ fails failure)
  {j : Json} {isOk : Bool}
include hrefuses hfails

/-- A document, and a status that agrees with it. -/
theorem ends_document (hj : j.reportsSuccess = isOk) (hsame : w₁.output = w.output) :
    Ends refuses fails w (ended (printJson j >>= fun _ => exitIf isOk) w₁) := by
  have hrun : (printJson j >>= fun _ => (exitIf isOk : Session Unit)).runIn w₁ =
      (.error (.exit (if isOk then 0 else 1)),
        { w₁ with output := w₁.output ++ (j.render ++ "\n") }) := by
    rw [runIn_bind_of_ok (runIn_printJson j w₁)]
    rfl
  rw [ended, hrun, ← hj]
  exact .document hrefuses hfails (by rw [hsame])

/-- A document that reports success at the end of the run. -/
theorem ends_success (hj : j.reportsSuccess = true) (hsame : w₁.output = w.output) :
    Ends refuses fails w (ended (printJson j) w₁) := by
  have hend : ended (printJson j) w₁ = (.exit (if j.reportsSuccess then 0 else 1),
      { w₁ with output := w₁.output ++ (j.render ++ "\n") }) := by
    rw [ended, runIn_printJson, hj]
    rfl
  rw [hend]
  exact .document hrefuses hfails (by rw [hsame])

end Documents

end Printing

/-! ## The commands -/

section Commands

variable {w : World} {path? : Option Path} {choices : Choices}

/-- Checking a configuration. -/
theorem checkConfig_ends (path? : Option Path) (w : World) :
    Ends (fun _ => False) (fun failure => ∃ w₁, (Config.audit path?).runIn w = (.error failure, w₁))
      w (ended (checkConfig path? true) w) := by
  rcases haudit : (Config.audit path?).runIn w with ⟨result, w₁⟩
  have hsame : w₁.output = w.output := (Config.audit_silent path?).output_eq haudit
  cases result with
  | error failure =>
    rw [ended, checkConfig, runIn_bind_of_error (runIn_attempt_of_error haudit)]
    exact .crash ⟨w₁, rfl⟩ hsame
  | ok a =>
    rw [ended, checkConfig, runIn_bind_of_ok (runIn_attempt_of_ok haudit)]
    exact ends_document (by simp) (by simp) a.reportsSuccess_json hsame

/-- Inspecting a type file. -/
theorem inspectFile_ends (path : Path) (w : World) :
    Ends (fun _ => False)
      (fun failure => ∃ w₁, (Module.inspect path).runIn w = (.error failure, w₁))
      w (ended (inspectFile path true) w) := by
  rcases hrun : (Module.inspect path).runIn w with ⟨result, w₁⟩
  have hsame : w₁.output = w.output := (Module.inspect_silent path).output_eq hrun
  cases result with
  | error failure =>
    rw [ended, inspectFile, runIn_bind_of_error (runIn_attempt_of_error hrun)]
    exact .crash ⟨w₁, rfl⟩ hsame
  | ok i =>
    rw [ended, inspectFile, runIn_bind_of_ok (runIn_attempt_of_ok hrun)]
    have hj := i.reportsSuccess_json
    cases hresult : i.result with
    | error failure =>
      rw [hresult] at hj
      have hfailed : i.json.reportsSuccess = false := hj
      exact ends_document (by simp) (by simp) hfailed hsame
    | ok payload =>
      rw [hresult] at hj
      dsimp only
      exact ends_success (by simp) (by simp) hj hsame

/-- The configuration of a project cannot be loaded. -/
def IsUnloadable (path? : Option Path) (w : World) (cause : ConfigFault) : Prop :=
  ∃ w₁, (findContext path?).runIn w = (.ok (.error cause), w₁)

/-- Scaffolding comes to a fault of the configuration exactly if there is one. -/
theorem scaffoldOne_unloadable {name : String} {isForced : Bool} {cause : ConfigFault} :
    (∃ w₁, (scaffoldOne path? name choices isForced).runIn w = (.ok (.error cause), w₁)) ↔
      IsUnloadable path? w cause := by
  constructor
  · rintro ⟨w₁, h⟩
    rw [scaffoldOne] at h
    obtain ⟨found, w₂, hfound, h⟩ := Work.runIn_bind_ok h
    cases found with
    | error cause' =>
      obtain ⟨hcause, -⟩ := Prod.mk.inj h
      obtain rfl := Except.error.inj (Except.ok.inj hcause)
      exact ⟨w₂, hfound⟩
    | ok context =>
      obtain ⟨r, w₃, -, h⟩ := Work.runIn_bind_ok h
      obtain ⟨files, w₄, -, h⟩ := Work.runIn_bind_ok h
      simp at h
  · rintro ⟨w₁, hfound⟩
    exact ⟨w₁, by rw [scaffoldOne, Work.runIn_bind_of_ok hfound]; rfl⟩

/-- Requests come to a fault of the configuration exactly if there is one. -/
theorem requestsFor_unloadable {selection : Selection} {cause : ConfigFault} :
    (∃ w₁, (requestsFor path? choices selection).runIn w = (.ok (.error (.config cause)), w₁)) ↔
      IsUnloadable path? w cause := by
  constructor
  · rintro ⟨w₁, h⟩
    rw [requestsFor] at h
    obtain ⟨found, w₂, hfound, h⟩ := Work.runIn_bind_ok h
    cases found with
    | error cause' =>
      obtain ⟨hcause, -⟩ := Prod.mk.inj h
      obtain rfl := NoRequests.config.inj (Except.error.inj (Except.ok.inj hcause))
      exact ⟨w₂, hfound⟩
    | ok context =>
      obtain ⟨settings?, root⟩ := context
      cases selection with
      | one name =>
        obtain ⟨r, w₃, -, h⟩ := Work.runIn_bind_ok h
        simp at h
      | all =>
        cases settings? with
        | none => simp at h
        | some s =>
          obtain ⟨rs, w₃, -, h⟩ := Work.runIn_bind_ok h
          simp at h
  · rintro ⟨w₁, hfound⟩
    exact ⟨w₁, by rw [requestsFor, Work.runIn_bind_of_ok hfound]; rfl⟩

/-- Scaffolding the type files of a module. -/
theorem scaffoldTypes_ends (path? : Option Path) (name : String) (choices : Choices)
    (isForced : Bool) (w : World) :
    Ends (fun message => ∃ cause, IsUnloadable path? w cause ∧ message = cause.message)
      (fun failure => isReported failure = false ∧
        ∃ w₁, (scaffoldOne path? name choices isForced).runIn w = (.error failure, w₁))
      w (ended (scaffoldTypes path? name choices isForced true) w) := by
  rcases hrun : (scaffoldOne path? name choices isForced).runIn w with ⟨result, w₁⟩
  have hsame : w₁.output = w.output :=
    (scaffoldOne_silent path? name choices isForced).output_eq hrun
  have houtcome : (outcome (scaffoldOne path? name choices isForced)).runIn w =
      (.ok result, w₁) := by
    rw [runIn_outcome, hrun]
  -- a configuration that cannot be loaded would have been the result
  have hloadable : ∀ cause, IsUnloadable path? w cause → result = .ok (.error cause) := by
    intro cause hcause
    obtain ⟨w₂, hrun'⟩ := scaffoldOne_unloadable.mpr hcause
    exact (Prod.mk.inj (hrun.symm.trans hrun')).1
  rw [ended, scaffoldTypes, runIn_bind_of_ok houtcome]
  cases result with
  | error failure =>
    cases hreported : isReported failure with
    | true =>
      simp only [hreported, if_true]
      refine ends_document ?_ ?_ (reportsSuccess_failureJson _) hsame
      · rintro message ⟨cause, hcause, -⟩
        exact absurd (hloadable cause hcause) (by simp)
      · rintro failure' ⟨hunreported, w₂, heq⟩
        obtain rfl := Except.error.inj (Prod.mk.inj heq).1
        simp [hreported] at hunreported
    | false =>
      simp only [hreported, Bool.false_eq_true, if_false]
      exact ends_crash ⟨hreported, w₁, rfl⟩ hsame
  | ok answer =>
    cases answer with
    | error cause =>
      exact ends_refuse ⟨cause, scaffoldOne_unloadable.mp ⟨w₁, hrun⟩, rfl⟩ hsame
    | ok found =>
      refine ends_success ?_ ?_ (reportsSuccess_stubsJson _ _) hsame
      · rintro message ⟨cause, hcause, -⟩
        exact absurd (hloadable cause hcause) (by simp)
      · rintro failure' ⟨-, w₂, heq⟩
        simp at heq

/-- What the requests for generating modules come to, if the selection of the modules is
right. -/
def RequestsEnd (path? : Option Path) (name? : Option String) (isAll : Bool) (choices : Choices)
    (w : World) (result : Except Failure (Except NoRequests (List Request))) (w₁ : World) : Prop :=
  ∃ selection, selectModules name? isAll choices = .ok selection ∧
    (requestsFor path? choices selection).runIn w = (result, w₁)

theorem RequestsEnd.unique {name? : Option String} {isAll : Bool} {w₁ w₂ : World}
    {result result' : Except Failure (Except NoRequests (List Request))}
    (h : RequestsEnd path? name? isAll choices w result w₁)
    (h' : RequestsEnd path? name? isAll choices w result' w₂) : result' = result ∧ w₂ = w₁ := by
  obtain ⟨selection, hselect, hrun⟩ := h
  obtain ⟨selection', hselect', hrun'⟩ := h'
  obtain rfl := Except.ok.inj (hselect.symm.trans hselect')
  exact Prod.mk.inj (hrun'.symm.trans hrun)

/-- Generating modules is refused: the configuration cannot be loaded, or no requests can
be made of what is given. -/
def RefusesGeneration (path? : Option Path) (name? : Option String) (isAll : Bool)
    (choices : Choices) (w : World) (message : String) : Prop :=
  (∃ selection cause, selectModules name? isAll choices = .ok selection ∧
      IsUnloadable path? w cause ∧ message = cause.message) ∨
    ∃ failure w₁, RequestsEnd path? name? isAll choices w (.error failure) w₁ ∧
      failure.isValueFault = true ∧ message = failure.message

/-- Generating modules fails: when requests are made, or when these are carried out. -/
def FailsGeneration (path? : Option Path) (name? : Option String) (isAll : Bool)
    (choices : Choices) (jobs : Int) (w : World) (failure : Failure) : Prop :=
  (failure.isValueFault = false ∧
      ∃ w₁, RequestsEnd path? name? isAll choices w (.error failure) w₁) ∨
    ∃ requests w₁ w₂, RequestsEnd path? name? isAll choices w (.ok (.ok requests)) w₁ ∧
      (Module.generateAll requests jobs).runIn w₁ = (.error failure, w₂)

/-- Requests that are made are carried out, and the document is about what came of
them. -/
theorem generateBatch_ends {name? : Option String} {isAll : Bool} {jobs : Int}
    {requests : List Request} {w₁ : World}
    (hrequests : RequestsEnd path? name? isAll choices w (.ok (.ok requests)) w₁)
    (hsame : w₁.output = w.output) :
    Ends (RefusesGeneration path? name? isAll choices w)
      (FailsGeneration path? name? isAll choices jobs w) w
      (ended (attempt (Module.generateAll requests jobs) >>= fun b =>
        printJson b.json >>= fun _ => exitIf b.isOk) w₁) := by
  rcases hbatch : (Module.generateAll requests jobs).runIn w₁ with ⟨result, w₂⟩
  have hstill : w₂.output = w.output :=
    ((Module.generateAll_silent requests jobs).output_eq hbatch).trans hsame
  cases result with
  | error failure =>
    rw [ended, runIn_bind_of_error (runIn_attempt_of_error hbatch)]
    exact .crash (.inr ⟨requests, w₁, w₂, hrequests, hbatch⟩) hstill
  | ok b =>
    rw [ended, runIn_bind_of_ok (runIn_attempt_of_ok hbatch)]
    refine ends_document ?_ ?_ b.reportsSuccess_json hstill
    · rintro message (⟨selection, cause, hselect, hcause, -⟩ | ⟨failure, w₃, hfailed, -⟩)
      · obtain ⟨w₃, hunloadable⟩ := requestsFor_unloadable.mpr hcause
        simpa using (hrequests.unique ⟨selection, hselect, hunloadable⟩).1
      · simpa using (hrequests.unique hfailed).1
    · rintro failure (⟨-, w₃, hfailed⟩ | ⟨requests', w₁', w₃, hrequests', hbatch'⟩)
      · simpa using (hrequests.unique hfailed).1
      · obtain ⟨hrequested, rfl⟩ := hrequests.unique hrequests'
        obtain rfl := Except.ok.inj (Except.ok.inj hrequested)
        simp [hbatch] at hbatch'

/-- Generating modules. -/
theorem generateModules_ends (path? : Option Path) (name? : Option String) (isAll : Bool)
    (choices : Choices) (jobs : Int) (w : World) :
    Ends (RefusesGeneration path? name? isAll choices w)
      (FailsGeneration path? name? isAll choices jobs w)
      w (ended (generateModules path? name? isAll choices jobs true) w) := by
  rw [generateModules]
  cases hselect : selectModules name? isAll choices with
  | error m => exact ends_misuse .generate m
  | ok selection =>
    rcases hrun : (requestsFor path? choices selection).runIn w with ⟨result, w₁⟩
    have hsame : w₁.output = w.output :=
      (requestsFor_silent path? choices selection).output_eq hrun
    have houtcome : (outcome (requestsFor path? choices selection)).runIn w =
        (.ok result, w₁) := by
      rw [runIn_outcome, hrun]
    have hrequests : RequestsEnd path? name? isAll choices w result w₁ :=
      ⟨selection, hselect, hrun⟩
    rw [ended, runIn_bind_of_ok houtcome]
    cases result with
    | error failure =>
      cases hvalue : failure.isValueFault with
      | true =>
        simp only [hvalue, if_true]
        exact ends_refuse (.inr ⟨failure, w₁, hrequests, hvalue, rfl⟩) hsame
      | false =>
        simp only [hvalue, Bool.false_eq_true, if_false]
        exact ends_crash (.inl ⟨hvalue, w₁, hrequests⟩) hsame
    | ok answer =>
      cases answer with
      | error reason =>
        cases reason with
        | config cause =>
          have hcause := requestsFor_unloadable.mp ⟨w₁, hrun⟩
          exact ends_refuse (.inl ⟨selection, cause, hselect, hcause, rfl⟩) hsame
        | misuse m => exact ends_misuse .generate m
      | ok requests => exact generateBatch_ends hrequests hsame

end Commands

/-! ## Command lines -/

section CommandLines

variable {env : Environment} {words : List String} {program p : Parsed} {c : Command}
  {w w' : World} {e : Ending}

/-- How many modules may be generated at a time. -/
def jobsOf (p : Parsed) : Int :=
  ((p.text? "jobs").bind numberOf?).getD 1

/-- What is told to people although JSON is asked for: that the configuration cannot be
loaded, and that requests for generating modules cannot be made of what is given. -/
def Refuses (path? : Option Path) (p : Parsed) (w : World) : Command → String → Prop
  | .types, message => ∃ cause, IsUnloadable path? w cause ∧ message = cause.message
  | .generate, message =>
    RefusesGeneration path? p.arguments.head? (p.isSet "all") (choicesOf p) w message
  | _, _ => False

/-- What a command does not handle: a failure of its work that it does not report. -/
def Fails (path? : Option Path) (p : Parsed) (w : World) : Command → Failure → Prop
  | .configCheck, failure => ∃ w₁, (Config.audit path?).runIn w = (.error failure, w₁)
  | .types, failure =>
    ∃ name, p.arguments.head? = some name ∧ isReported failure = false ∧
      ∃ w₁, (scaffoldOne path? name (choicesOf p) (p.isSet "force")).runIn w = (.error failure, w₁)
  | .generate, failure =>
    FailsGeneration path? p.arguments.head? (p.isSet "all") (choicesOf p) (jobsOf p) w failure
  | .inspect, failure =>
    ∃ file, p.arguments.head? = some file ∧
      if (Path.ofText file).hasNul then failure = .disk .nul
      else ∃ w₁, (Module.inspect (.ofText file)).runIn w = (.error failure, w₁)
  | _, _ => False

/-- Arguments beyond those that a command takes are a usage error. -/
theorem ends_noMore {refuses : String → Prop} {fails : Failure → Prop} {s : Session Unit}
    (c : Command) (words : List String) (h : Ends refuses fails w (ended s w)) :
    Ends refuses fails w (ended (noMore c words >>= fun _ => s) w) := by
  rw [noMore]
  split
  · rw [pure_bind]
    exact h
  · exact .misuse

/-- The one argument of a command: without it, or with others, it is a usage error. -/
theorem ends_onlyArgument {α : Type} {refuses : String → Prop} {fails : Failure → Prop}
    {take : String → Session α} {next : α → Session Unit} (c : Command) (name : String)
    (h : ∀ word, p.arguments.head? = some word →
      Ends refuses fails w (ended (take word >>= next) w)) :
    Ends refuses fails w (ended (onlyArgument c name p take >>= next) w) := by
  rw [onlyArgument]
  cases harguments : p.arguments with
  | nil => exact .misuse
  | cons word others =>
    have hword := h word (by rw [harguments]; rfl)
    dsimp only
    rcases htake : (take word).runIn w with ⟨_ | value, w₁⟩
    · rw [ended, runIn_bind_of_error htake] at hword
      rw [ended, bind_assoc, runIn_bind_of_error htake]
      exact hword
    · rw [ended, runIn_bind_of_ok htake] at hword
      rw [ended, bind_assoc, runIn_bind_of_ok htake]
      cases others with
      | nil => exact hword
      | cons second others => exact .misuse

/-- **How a command ends** that is asked for JSON. -/
theorem runCommand_ends (h : TakenApart c words p) (hc : c ≠ .root)
    (hjson : p.isSet "json" = true) (path? : Option Path) (w : World) :
    Ends (Refuses path? p w c) (Fails path? p w c) w (ended (runCommand path? c words) w) := by
  have htaken := h.runIn_of_ne hc w
  cases c with
  | root => exact absurd rfl hc
  | config =>
    rw [ended, runCommand, runIn_bind_of_ok htaken]
    exact .misuse
  | module =>
    rw [ended, runCommand, runIn_bind_of_ok htaken]
    exact .misuse
  | configCheck =>
    rw [ended, runCommand, runIn_bind_of_ok htaken, hjson]
    exact ends_noMore .configCheck p.arguments (checkConfig_ends path? w)
  | types =>
    rw [ended, runCommand, runIn_bind_of_ok htaken, hjson]
    refine ends_onlyArgument .types "NAME" fun name hname => ?_
    rw [pure_bind]
    refine (scaffoldTypes_ends path? name (choicesOf p) (p.isSet "force") w).congr
      (fun _ => .rfl) fun failure => ?_
    simp [Fails, hname]
  | generate =>
    rw [ended, runCommand, runIn_bind_of_ok htaken, hjson]
    dsimp only
    split
    · exact .misuse
    · exact ends_noMore .generate p.arguments.tail (generateModules_ends path? _ _ _ (jobsOf p) w)
  | inspect =>
    rw [ended, runCommand, runIn_bind_of_ok htaken, hjson]
    refine ends_onlyArgument .inspect "FILE" fun file hfile => ?_
    rw [pathOf]
    cases hnul : (Path.ofText file).hasNul with
    | true => exact .crash ⟨file, hfile, by rw [if_pos hnul]⟩ rfl
    | false =>
      refine (inspectFile_ends (.ofText file) w).congr (fun _ => .rfl) fun failure => ?_
      simp [Fails, hfile, hnul]

/-- The answer of a command that is asked for JSON: a JSON text and nothing else, and
a status that is 0 exactly if the text reports success. -/
def Answers (w : World) (e : Ending) (w' : World) : Prop :=
  ∃ j text, Json.IsText j text.toList ∧ w'.output = w.output ++ text ∧
    e = .exit (if j.reportsSuccess then 0 else 1)

/-- A line for people begins with a mark that no JSON text begins with. -/
theorem refusalLine_first (message : String) :
    ∃ rest, (refusalLine message).toList = '❌' :: rest := by
  have hall : ("❌ " ++ message ++ "\n").toList = '❌' :: ' ' :: (message.toList ++ ['\n']) := by
    simp [String.toList_append]
  refine ⟨Text.withoutControls (' ' :: (message.toList ++ ['\n'])), ?_⟩
  rw [refusalLine, Text.printed, String.toList_ofList, hall]
  exact Text.withoutControls.eq_2 _ _ (by simp)

/-- What is told to people is no JSON text. -/
theorem not_answers_of_refusal {message : String}
    (houtput : w'.output = w.output ++ refusalLine message) : ¬ Answers w e w' := by
  rintro ⟨j, text, htext, htext', -⟩
  have hline : refusalLine message = text :=
    String.append_right_inj _ |>.mp (houtput.symm.trans htext')
  obtain ⟨rest, hrest⟩ := refusalLine_first message
  rw [← hline, hrest] at htext
  rcases htext.first with h | h
  · exact absurd h (by decide)
  · exact absurd h (by decide)

/-- **What is printed for a command line** that calls a command and asks for JSON, unless
the command is used wrongly. A JSON text and nothing else, with a status that agrees with
it, is there in every case but these: a refusal is told to people, with status 1, and
a failure that is not handled ends the run without a word. -/
theorem run_json (hcalls : Calls words program c p) (hjson : p.isSet "json" = true)
    (hrun : (run env words).run w = (e, w')) (hused : e ≠ .exit 2) :
    (∃ path? w₁, Starts env program w path? w₁ ∧
      ((∀ message, ¬ Refuses path? p w₁ c message) ∧ (∀ failure, ¬ Fails path? p w₁ c failure) ∧
          Answers w e w' ∨
        (∃ message, Refuses path? p w₁ c message ∧ e = .exit 1 ∧
          w'.output = w.output ++ refusalLine message ∧ ¬ Answers w e w') ∨
        ∃ failure, Fails path? p w₁ c failure ∧ e = .crash failure ∧ w'.output = w.output)) ∨
    (∀ path? w₁, ¬ Starts env program w path? w₁) ∧
      ∃ failure, e = .crash failure ∧ w'.output = w.output := by
  have hend : ended (runProgram env words) w = (e, w') := by
    rw [← hrun, run, run_ending]
  rcases runProgram_of_calls hcalls env w with
    ⟨path?, w₁, rest, hstarts, htaken, hc, hcommand⟩ | ⟨hnone, failure, w₁, hcrash, hsame⟩
  · -- the command is carried out, and its end is that of the run
    refine .inl ⟨path?, w₁, hstarts, ?_⟩
    have hsame : w₁.output = w.output := startLog_output hstarts.2
    have hends := runCommand_ends htaken hc hjson path? w₁
    rw [ended, ← hcommand, ← ended, hend] at hends
    cases hends with
    | misuse => exact absurd rfl hused
    | @refusal message _ hreason houtput =>
      rw [hsame] at houtput
      exact .inr (.inl ⟨message, hreason, rfl, houtput, not_answers_of_refusal houtput⟩)
    | @crash failure _ hreason houtput =>
      exact .inr (.inr ⟨failure, hreason, rfl, houtput.trans hsame⟩)
    | @document j _ hunrefused hunfailed houtput =>
      rw [hsame] at houtput
      exact .inl ⟨hunrefused, hunfailed, j, _, j.isText_render, houtput, rfl⟩
  · -- logging is not set up, or the path is none
    rw [ended, hcrash] at hend
    obtain ⟨rfl, rfl⟩ := Prod.mk.inj hend
    exact .inr ⟨hnone, failure, rfl, hsame⟩

end CommandLines

/-! ## A configuration that is a list -/

private def listedWorld : World :=
  World.ofDisk <| Disk.empty ["w"]
    |>.put [configFileName, "w"] (.file (Module.bytesOf "- 1\n") newFileMode)

private def listedWords : List String :=
  ["module", "types", "todo", "--json"]

private def listedOptions : Parsed :=
  ⟨[⟨"json", .flag true⟩], ["todo"]⟩

private theorem calls_listed : Calls listedWords ⟨[], listedWords⟩ .types listedOptions := by
  have hprogram : TakenApart .root listedWords ⟨[], listedWords⟩ := ⟨by decide +kernel, rfl⟩
  have hgroup : TakenApart .module ["types", "todo", "--json"] ⟨[], ["types", "todo", "--json"]⟩ :=
    ⟨by decide +kernel, rfl⟩
  have hcommand : TakenApart .types ["todo", "--json"] listedOptions := ⟨by decide +kernel, rfl⟩
  exact .call hprogram rfl rfl hgroup rfl rfl hcommand

/-- A configuration that is a list is refused in words, whatever is asked for. -/
theorem run_json_listed :
    Calls listedWords ⟨[], listedWords⟩ .types listedOptions ∧ listedOptions.isSet "json" = true ∧
      ∃ w', (run [] listedWords).run listedWorld = (.exit 1, w') ∧
        w'.output = "❌ Expected a YAML mapping in /w/crudgen.yml, got list\n" ∧
        ¬ Answers listedWorld (.exit 1) w' := by
  have hjson : listedOptions.isSet "json" = true := rfl
  have hloads : ((findContext none).runIn
      ((startLog [] ⟨[], listedWords⟩).runIn listedWorld).2).1 =
        .ok (.error (.notARecord "/w/crudgen.yml" "list")) := by
    decide +kernel
  have hend : ((run [] listedWords).run listedWorld).1 = .exit 1 := by
    decide +kernel
  have houtput : ((run [] listedWords).run listedWorld).2.output =
      "❌ Expected a YAML mapping in /w/crudgen.yml, got list\n" := by
    decide +kernel
  rcases hrun : (run [] listedWords).run listedWorld with ⟨e, w'⟩
  rw [hrun] at hend houtput
  obtain rfl : e = .exit 1 := hend
  refine ⟨calls_listed, hjson, w', rfl, houtput, ?_⟩
  rcases run_json calls_listed hjson hrun (by decide) with
    ⟨path?, w₁, ⟨hpath, hlog⟩, ⟨hunrefused, -⟩ | ⟨_, -, -, -, hno⟩ | ⟨_, -, hcrash, -⟩⟩ |
      ⟨-, _, hcrash, -⟩
  · -- the configuration is a reason to refuse the command
    obtain rfl : none = path? := Except.ok.inj (Prod.mk.inj hpath).1
    rw [hlog] at hloads
    exact absurd ⟨_, ⟨_, Prod.ext hloads rfl⟩, rfl⟩ (hunrefused _)
  · exact hno
  · exact absurd hcrash (by simp)
  · exact absurd hcrash (by simp)

end Cli

end Stencil
