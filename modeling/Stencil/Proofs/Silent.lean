import Stencil.Module.Inspect
import Stencil.Module.Scaffold
import Stencil.Module.Batch
import Stencil.Config.Audit
import Stencil.Cli.Commands
import Stencil.Proofs.Run

/-!
# Stencil — work that prints nothing

Only a command prints, and only between the pieces of work that it carries out: no
work writes to the standard output, whether it succeeds or fails.

Main results:

* `perform_output` — every step but printing leaves the output as it is;
* `Module.generateAll_silent`, `Module.scaffold_silent`, `Module.inspect_silent`,
  `Config.audit_silent`, `Cli.findContext_silent` — the work of the commands.
-/

namespace Stencil

open Stencil.Disk

/-! ## Steps -/

namespace World

/-- Nothing has been printed. -/
def SameOutput (w w' : World) : Prop :=
  w'.output = w.output

theorem forget_output (w : World) (path : Path) : (w.forget path).output = w.output := by
  rw [forget]
  split
  · split <;> rfl
  · rfl

theorem log_output (w : World) (r : Log.Record) : (w.log r).output = w.output := by
  rw [log]
  split <;> rfl

/-- **Every step but printing** leaves the output as it is. -/
theorem perform_output (w : World) (call : Call) (h : ∀ text, call ≠ .print text) :
    (w.perform call).2.output = w.output := by
  have hchange : ∀ result, (w.change result).2.output = w.output := fun result => by
    cases result <;> rfl
  have hreplace : ∀ path result, (w.replace path result).2.output = w.output :=
    fun path result => by
      cases result with
      | ok disk => exact w.forget_output path
      | error fault => rfl
  cases call with
  | print text => exact absurd rfl (h text)
  | makeDirectory path => exact hchange _
  | fill path bytes => exact hchange _
  | setMode path mode => exact hchange _
  | rename source target => exact hreplace _ _
  | remove path => exact hreplace _ _
  | log record => exact w.log_output record
  | makeTemporary path =>
    rw [perform]
    split <;> rfl
  | setLog setup =>
    rw [perform, setLog]
    split
    · rfl
    · split <;> rfl
  | _ => rfl

end World

/-! ## Work -/

namespace Work

/-- Work that prints nothing, whether it succeeds or fails. -/
def Silent {α : Type} (work : Work α) : Prop :=
  Keeps World.SameOutput work

namespace Silent

variable {α β : Type}

theorem output_eq {work : Work α} (h : Silent work) {w w' : World} {result : Except Failure α}
    (hrun : work.runIn w = (result, w')) : w'.output = w.output :=
  h.of_runIn hrun

theorem pure (a : α) : Silent (Pure.pure a : Work α) :=
  Keeps.pure (R := World.SameOutput) (fun _ => rfl) a

theorem throw (failure : Failure) : Silent (MonadExcept.throw failure : Work α) :=
  Keeps.throw (R := World.SameOutput) (fun _ => rfl) failure

theorem ofExcept {ε : Type} (toFailure : ε → Failure) (result : Except ε α) :
    Silent (Work.ofExcept toFailure result) := by
  cases result with
  | ok a => exact .pure a
  | error e => exact .throw _

theorem bind {work : Work α} {next : α → Work β} (h : Silent work) (hnext : ∀ a, Silent (next a)) :
    Silent (work >>= next) :=
  Keeps.bind (fun _ _ _ h₁ h₂ => h₂.trans h₁) h hnext

theorem outcome {work : Work α} (h : Silent work) : Silent (Work.outcome work) :=
  Keeps.outcome h

theorem mapM {f : α → Work β} {as : List α} (h : ∀ a, Silent (f a)) : Silent (as.mapM f) := by
  induction as with
  | nil => exact .pure []
  | cons a as ih =>
    rw [List.mapM_cons]
    exact .bind (h a) fun b => .bind ih fun bs => .pure (b :: bs)

/-- A request that is not one to print. -/
theorem granted {s : Script (Except Fault α)} (h : ∀ w, (s.run w).2.output = w.output) :
    Silent (Work.granted s) :=
  Keeps.granted h

theorem log (severity : Log.Severity) (topic : Log.Topic) (message : String) :
    Silent (Work.log severity topic message) :=
  fun w => w.log_output _

theorem exists? (path : Path) : Silent (Work.exists? path) :=
  .granted fun _ => rfl

theorem isFile? (path : Path) : Silent (Work.isFile? path) :=
  .granted fun _ => rfl

theorem isDirectory? (path : Path) : Silent (Work.isDirectory? path) :=
  .granted fun _ => rfl

theorem read (path : Path) : Silent (Work.read path) :=
  .granted fun _ => rfl

theorem resolve (path : Path) : Silent (Work.resolve path) :=
  .granted fun _ => rfl

theorem mode (path : Path) : Silent (Work.mode path) :=
  .granted fun _ => rfl

theorem makeDirectory (path : Path) : Silent (Work.makeDirectory path) :=
  .granted fun w => w.perform_output (.makeDirectory path) (by simp)

theorem makeTemporary (path : Path) : Silent (Work.makeTemporary path) :=
  .granted fun w => w.perform_output (.makeTemporary path) (by simp)

theorem fill (path : Path) (bytes : List UInt8) : Silent (Work.fill path bytes) :=
  .granted fun w => w.perform_output (.fill path bytes) (by simp)

theorem setMode (path : Path) (mode : Nat) : Silent (Work.setMode path mode) :=
  .granted fun w => w.perform_output (.setMode path mode) (by simp)

theorem rename (source target : Path) : Silent (Work.rename source target) :=
  .granted fun w => w.perform_output (.rename source target) (by simp)

theorem readText (path : Path) : Silent (Work.readText path) :=
  .bind (.read path) fun _ => .bind (.ofExcept _ _) fun _ => .pure _

theorem remove (path : Path) : Silent (Work.remove path) := by
  intro w
  have hstep := w.perform_output (.remove path) (by simp)
  show ((Script.bind (Script.step (.remove path)) _).run w).2.output = _
  rw [Script.run_bind]
  simp only [Script.step, Script.run]
  split <;> exact hstep

end Silent

end Work

open Work

/-! ## Modules -/

namespace Module

theorem ensureDirectory_silent (path : Path) : Silent (ensureDirectory path) := by
  refine .bind (Silent.makeDirectory path).outcome fun result => ?_
  cases result with
  | ok _ => exact .pure ()
  | error failure =>
    show Silent (if _ then _ else _)
    split
    · refine .bind (.isDirectory? path) fun isThere => ?_
      cases isThere with
      | true => exact .pure ()
      | false => exact .throw failure
    · exact .throw failure

theorem ensureDirectories_silent (path : Path) : Silent (ensureDirectories path) := by
  rw [ensureDirectories]
  induction path.parts.reverse with
  | nil => exact ensureDirectory_silent _
  | cons name outer ih =>
    refine .bind (ensureDirectory_silent _).outcome fun result => ?_
    cases result with
    | ok _ => exact .pure ()
    | error failure =>
      show Silent (if _ then _ else _)
      split
      · exact .bind ih fun _ => ensureDirectory_silent _
      · exact .throw failure

theorem modeToKeep_silent (path : Path) : Silent (modeToKeep path) := by
  refine .bind (.exists? path) fun isThere => ?_
  cases isThere with
  | true => exact .mode path
  | false => exact .pure newFileMode

theorem fillAndMove_silent (temporary path : Path) (content : List UInt8) (mode : Nat) :
    Silent (fillAndMove temporary path content mode) :=
  .bind (.fill temporary content) fun _ => .bind (.setMode temporary mode) fun _ =>
    .rename temporary path

theorem atomicWrite_silent (path : Path) (content : String) :
    Silent (atomicWrite path content) := by
  refine .bind (ensureDirectories_silent _) fun _ => .bind (modeToKeep_silent path) fun mode =>
    .bind (.makeTemporary path) fun temporary => .bind (fillAndMove_silent _ _ _ _).outcome fun result => ?_
  cases result with
  | ok _ => exact .pure ()
  | error failure => exact .bind (.remove temporary) fun _ => .throw failure

theorem compose_silent (path : Path) (new : String) (isAppend : Bool) :
    Silent (compose path new isAppend) := by
  refine .bind (.exists? path) fun isThere => ?_
  cases isThere with
  | false => exact .pure _
  | true =>
    refine .bind (.read path) fun bytes => ?_
    cases isAppend with
    | false => exact .pure _
    | true => exact .ofExcept _ _

theorem writeGenerated_silent (path : Path) (new : String) (isAppend isDryRun : Bool) :
    Silent (writeGenerated path new isAppend isDryRun) := by
  refine .bind (compose_silent path new isAppend).outcome fun result => ?_
  cases result with
  | error failure =>
    refine .bind ?_ fun _ => .throw failure
    rw [reportConflict.eq_def]
    split
    · exact .log _ _ _
    · exact .pure ()
  | ok composed =>
    dsimp only
    split
    · exact .bind (.log _ _ _) fun _ => .pure composed
    · split
      · exact .bind (.log _ _ _) fun _ => .pure composed
      · exact .bind (atomicWrite_silent _ _) fun _ =>
          .bind (.log _ _ _) fun _ => .pure composed

theorem readPayload_silent (path : Path) : Silent (readPayload path) :=
  .bind (.readText path) fun _ => .bind (.ofExcept _ _) fun payload =>
    .bind (.log _ _ _) fun _ => .pure payload

theorem collectOperation_silent (r : Request) (operation : String) :
    Silent (collectOperation r operation) := by
  refine .bind (.isFile? _) fun isThere => ?_
  cases isThere with
  | false => exact .bind (.log _ _ _) fun _ => .pure none
  | true =>
    refine .bind (readPayload_silent _).outcome fun result => ?_
    -- a failure is logged at most, and thrown again
    cases result with
    | ok payload => exact .pure (some payload)
    | error failure =>
      cases failure with
      | parse cause => exact .bind (.log _ _ _) fun _ => .throw _
      | _ => exact .throw _

theorem collect_silent (r : Request) : Silent (collect r) := by
  refine .bind (.isDirectory? _) fun isThere => ?_
  cases isThere with
  | false => exact .throw _
  | true =>
    exact .mapM fun operation => .bind (collectOperation_silent r operation) fun payload? =>
      .pure (operation, payload?)

theorem generate_silent (r : Request) : Silent (generate r) :=
  .bind (.log _ _ _) fun _ => .bind (collect_silent r) fun _ =>
    .bind (.mapM fun _ => .bind (writeGenerated_silent _ _ _ _) fun _ => .pure _) fun written =>
      .bind (.log _ _ _) fun _ => .pure written

theorem generateModule_silent (r : Request) : Silent (generateModule r) := by
  refine .bind (generate_silent r).outcome fun result => ?_
  cases result with
  | ok files => exact .pure _
  | error failure =>
    show Silent (if _ then _ else _)
    split
    · exact .bind (.log _ _ _) fun _ => .pure _
    · exact .throw failure

/-- **Generating modules** prints nothing. -/
theorem generateAll_silent (requests : List Request) (jobs : Int) :
    Silent (generateAll requests jobs) := by
  rw [generateAll]
  split
  · exact .bind (.mapM generateModule_silent) fun _ => .pure _
  · exact .bind (.bind (.mapM fun r => (generateModule_silent r).outcome) fun _ =>
      .ofExcept _ _) fun _ => .pure _

theorem scaffoldOperation_silent (r : Request) (isForced : Bool) (operation : String) :
    Silent (scaffoldOperation r isForced operation) := by
  refine .bind (.exists? _) fun isThere => ?_
  show Silent (if _ then _ else _)
  split
  · exact .bind (.bind (.log _ _ _) fun _ => .readText _) fun _ => .pure _
  · refine .bind ?_ fun _ => .pure _
    rw [writeStub]
    dsimp only
    split
    · exact .bind (.log _ _ _) fun _ => .pure _
    · exact .bind (atomicWrite_silent _ _) fun _ => .bind (.log _ _ _) fun _ => .pure _

/-- **Scaffolding** prints nothing. -/
theorem scaffold_silent (r : Request) (isForced : Bool) : Silent (scaffold r isForced) :=
  .mapM (scaffoldOperation_silent r isForced)

/-- **Inspecting** prints nothing. -/
theorem inspect_silent (path : Path) : Silent (inspect path) := by
  refine .bind (readPayload_silent path).outcome fun result => ?_
  cases result with
  | ok payload => exact .pure _
  | error failure =>
    cases failure with
    | parse cause => exact .pure _
    | _ =>
      show Silent (if _ then _ else _)
      split
      · exact .pure _
      · exact .throw _

end Module

/-! ## Settings -/

namespace Config

theorem searchUp_silent (depth : Nat) (directory : Path) : Silent (searchUp depth directory) := by
  induction depth generalizing directory with
  | zero => exact .pure none
  | succ depth ih =>
    refine .bind (.isFile? _) fun isThere => ?_
    show Silent (if _ then _ else _)
    split
    · exact .pure _
    · split
      · exact .pure none
      · exact ih _

theorem find?_silent (start? : Option Path) : Silent (find? start?) := by
  have hhere : Silent Work.workingDirectory := fun _ => rfl
  cases start? with
  | none => exact .bind hhere fun start => .bind (.resolve start) fun _ => searchUp_silent _ _
  | some start =>
    exact .bind (.pure start) fun _ => .bind (.resolve _) fun _ => searchUp_silent _ _

theorem readSource_silent (path : Path) : Silent (readSource path) := by
  refine .bind (Silent.readText path).outcome fun result => ?_
  cases result with
  | ok text => exact .pure text
  | error failure =>
    cases failure with
    | disk fault =>
      show Silent (if _ then _ else _)
      split
      · exact .throw _
      · exact .throw _
    | _ => exact .throw _

theorem loadFrom_silent (path : Path) : Silent (loadFrom path) := by
  refine .bind (.isFile? path) fun isThere => ?_
  cases isThere with
  | false => exact .throw _
  | true =>
    exact .bind (.log _ _ _) fun _ => .bind (readSource_silent path) fun _ =>
      .bind (.ofExcept _ _) fun _ => .bind (.ofExcept _ _) fun settings =>
        .bind (.log _ _ _) fun _ => .pure settings

theorem auditModules_silent (s : Settings) (root : Path) (seen : List (Path × String))
    (entries : List ModuleEntry) : Silent (auditModules s root seen entries) := by
  induction entries generalizing seen with
  | nil => exact .pure _
  | cons e rest ih =>
    exact .bind (.resolve _) fun _ => .bind (.isDirectory? _) fun _ =>
      .bind (ih _) fun (_, _) => .pure _

theorem auditFile_silent (path : Path) : Silent (auditFile path) := by
  refine .bind (loadFrom_silent path).outcome fun result => ?_
  cases result with
  | ok s =>
    exact .bind (.resolve _) fun _ => .bind (auditModules_silent _ _ _ _) fun (_, _) => .pure _
  | error failure =>
    cases failure with
    | config cause => exact .pure _
    | _ => exact .throw _

/-- **Checking settings** prints nothing. -/
theorem audit_silent (path? : Option Path) : Silent (audit path?) := by
  cases path? with
  | some path => exact auditFile_silent path
  | none =>
    refine .bind (find?_silent none) fun found? => ?_
    cases found? with
    | none => exact .pure _
    | some path => exact auditFile_silent path

end Config

theorem Settings.request_silent (s : Settings) (root : Path) (overrides : List (Data × Data))
    (e : ModuleEntry) : Silent (s.request root overrides e) :=
  .bind (.resolve _) fun _ => .ofExcept _ _

/-! ## Requests from the command line -/

namespace Cli

/-- **Finding the project** of a command prints nothing. -/
theorem findContext_silent (configPath? : Option Path) : Silent (findContext configPath?) := by
  have hload : ∀ path, Silent (findContext (some path)) := by
    intro path
    simp only [findContext, pure_bind]
    refine .bind (Config.loadFrom_silent path).outcome fun result => ?_
    cases result with
    | ok s => exact .bind (.resolve _) fun _ => .pure _
    | error failure =>
      cases failure with
      | config cause => exact .pure _
      | _ => exact .throw _
  cases configPath? with
  | some path => exact hload path
  | none =>
    refine .bind (Config.find?_silent none) fun found? => ?_
    cases found? with
    | some path => exact hload path
    | none =>
      have hhere : Silent Work.workingDirectory := fun _ => rfl
      exact .bind hhere fun _ => .pure _

theorem singleRequest_silent (context : Context) (name : String) (choices : Choices) :
    Silent (singleRequest context name choices) := by
  refine .bind (.ofExcept _ _) fun custom? => ?_
  dsimp only
  split
  · exact .bind (.resolve _) fun _ => .ofExcept _ _
  · exact .bind (.resolve _) fun _ => .ofExcept _ _

theorem scaffoldOne_silent (configPath? : Option Path) (name : String) (choices : Choices)
    (isForced : Bool) : Silent (scaffoldOne configPath? name choices isForced) := by
  refine .bind (findContext_silent configPath?) fun found => ?_
  cases found with
  | error cause => exact .pure _
  | ok context =>
    exact .bind (singleRequest_silent context name choices) fun r =>
      .bind (Module.scaffold_silent r isForced) fun _ => .pure _

theorem requestsFor_silent (configPath? : Option Path) (choices : Choices)
    (selection : Selection) : Silent (requestsFor configPath? choices selection) := by
  refine .bind (findContext_silent configPath?) fun found => ?_
  cases found with
  | error cause => exact .pure _
  | ok context =>
    cases selection with
    | one name => exact .bind (singleRequest_silent context name choices) fun _ => .pure _
    | all =>
      obtain ⟨settings?, root⟩ := context
      cases settings? with
      | none => exact .pure _
      | some s =>
        exact .bind (.bind (.ofExcept _ _) fun _ => .mapM (s.request_silent root _)) fun _ =>
          .pure _

end Cli

end Stencil
