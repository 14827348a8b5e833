import Stencil.Module.Batch
import Stencil.Proofs.Confined
import Stencil.Proofs.Module.Plan

/-!
# Stencil — a module stays in its directory

Everything that the generation of a module asks for is about paths that go down
from the module's directory: the type files, the planned files, the directories
they lie in, and temporary files beside them. So the generation runs alike in
all worlds with the same in that directory, and changes nothing outside of it,
whether it succeeds or fails.

Main results:

* `collect_local`, `writeGenerated_local` — the two phases;
* `generateModule_stays` — the whole generation.
-/

namespace Stencil.Module

open Stencil.Disk Stencil.Naming Stencil.Source Stencil.Work

variable {base : Path} {top : Place} {names : List String} {p : Path} {w : World}

/-! ## Reading -/

theorem readPayload_local (h : Down base top names p) : Local base top (readPayload p) := by
  refine .bind (.bind (.read h) fun bytes => ?_) fun text => ?_
  · exact .bind (.ofExcept _ _) fun cs => .pure _
  · exact .bind (.ofExcept _ _) fun payload => .bind (.log _ _ _) fun _ => .pure payload

theorem collectOperation_local {r : Request} {operation : String}
    (h : Down base top names (typeFile r operation)) :
    Local base top (collectOperation r operation) := by
  refine .bind (.isFile? h) fun isThere => ?_
  cases isThere with
  | false => exact .bind (.log _ _ _) fun _ => .pure none
  | true =>
    refine .bind (readPayload_local h).outcome fun result => ?_
    -- a failure is logged at most, and thrown again
    cases result with
    | ok payload => exact .pure (some payload)
    | error failure =>
      cases failure with
      | parse cause => exact .bind (.log _ _ _) fun _ => .throw _
      | _ => exact .throw _

/-- **Reading the type files** stays in the module's directory. -/
theorem collect_local {r : Request} (hr : r.Valid) : Local r.modulePath top (collect r) := by
  refine .bind (.isDirectory? Down.self) fun isThere => ?_
  cases isThere with
  | false => exact .throw _
  | true =>
    refine Local.mapM fun operation hoperation => ?_
    have hslash := slashFree_of_declarable (hr.declarable operation hoperation)
    have hdown : Down r.modulePath top (Role.types.names operation (moduleNames r.moduleName))
        (typeFile r operation) := by
      rw [typeFile, join_path hr .types hslash]
      exact .below (Role.isName_of_mem _ hslash (slashFree_file hr.nameChars))
        (Role.names_ne_nil _ _ _)
    exact .bind (collectOperation_local hdown) fun payload? => .pure _

/-! ## Writing -/

theorem compose_local (h : Down base top names p) (new : String) (isAppend : Bool) :
    Local base top (compose p new isAppend) := by
  refine .bind (.exists? h) fun isThere => ?_
  cases isThere with
  | false => exact .pure _
  | true =>
    refine .bind (.read h) fun bytes => ?_
    cases isAppend with
    | false => exact .pure _
    | true => exact .ofExcept _ _

theorem ensureDirectory_local (h : Down base top names p) :
    Local base top (ensureDirectory p) := by
  refine .bind (Local.makeDirectory h).outcome fun result => ?_
  cases result with
  | ok _ => exact .pure ()
  | error failure =>
    show Local base top (if _ then _ else _)
    split
    · refine .bind (.isDirectory? h) fun isThere => ?_
      cases isThere with
      | false => exact .throw failure
      | true => exact .pure ()
    · exact .throw failure

/-- The site is there, so making it goes no further out. -/
private theorem ensureNames_self : Local base top (ensureNames base.anchor base.parts.reverse) := by
  intro w hw
  obtain ⟨mode, hentry⟩ := hw.site.entryAt
  have hone := ensureDirectory_runIn hw.site.noNul hentry
  have hlocal : (ensureDirectory base).StaysIn base top w := ensureDirectory_local .self w hw
  cases hparts : base.parts.reverse with
  | nil =>
    have hbase : (⟨base.anchor, []⟩ : Path) = base := by
      rw [List.reverse_eq_nil_iff] at hparts
      rw [← hparts]
    rw [ensureNames, hbase]
    exact hlocal
  | cons name outer =>
    have hbase : (⟨base.anchor, (name :: outer).reverse⟩ : Path) = base := by
      rw [← hparts, List.reverse_reverse]
    rw [ensureNames, hbase]
    refine .bind hlocal.outcome fun result w' hrun => ?_
    -- the request for the site itself goes through
    rw [runIn_outcome, hone] at hrun
    obtain rfl := Except.ok.inj (Prod.mk.inj hrun).1
    exact .pure ()

/-- **Making a directory below the site**, and those around it, does not go
further than to the site. -/
theorem ensureDirectories_local (hplain : ∀ x ∈ names, IsName x) :
    Local base top (ensureDirectories (pathBelow base names)) := by
  have hreverse : (pathBelow base names).parts.reverse = names.reverse ++ base.parts.reverse := by
    rw [pathBelow, List.reverse_append]
  rw [ensureDirectories, hreverse]
  show Local base top (ensureNames base.anchor _)
  clear hreverse
  -- on the names, the last one first
  generalize hlast : names.reverse = last
  induction last generalizing names with
  | nil => exact ensureNames_self
  | cons name outer ih =>
    have hnames : names = outer.reverse ++ [name] := List.reverse_eq_cons_iff.mp hlast
    have hpath : (⟨base.anchor, (name :: (outer ++ base.parts.reverse)).reverse⟩ : Path) =
        pathBelow base names := by
      rw [hnames, pathBelow]
      simp
    have hdown : Down base top names (pathBelow base names) := .below hplain (by simp [hnames])
    have houter : Local base top (ensureNames base.anchor (outer ++ base.parts.reverse)) :=
      ih (fun x hx => hplain x (by simp [hnames, hx])) (List.reverse_reverse outer)
    rw [List.cons_append, ensureNames, hpath]
    refine .bind (ensureDirectory_local hdown).outcome fun result => ?_
    cases result with
    | ok _ => exact .pure ()
    | error failure =>
      show Local base top (if _ then _ else _)
      split
      · exact .bind houter fun _ => ensureDirectory_local hdown
      · exact .throw failure

theorem modeToKeep_local (h : Down base top names p) : Local base top (modeToKeep p) := by
  refine .bind (.exists? h) fun isThere => ?_
  cases isThere with
  | false => exact .pure newFileMode
  | true => exact .mode h

theorem remove_local (h : Down base top names p) : Local base top (Work.remove p) := fun w _ => by
  show Script.Stays base top (Script.bind (Script.step (.remove p)) _) w
  refine Script.Stays.bind (stays_step (Call.isLocal_remove h)) ?_
  split <;> exact trivial

/-- Filling a temporary file that is there, and moving it. -/
theorem fillAndMove_stays {names' : List String} {t : Path} {place : Place} {bytes : List UInt8}
    {mode : Nat} (ht : Down base top names' t) (h : Down base top names p)
    (hnul : t.hasNul = false) (hplace : w.disk.locate .atLink t = .ok place)
    (hfile : w.disk.look place = some (.file bytes mode)) (content : List UInt8) (mode' : Nat) :
    (fillAndMove t p content mode').StaysIn base top w := by
  have hne : place ≠ [] := by
    rintro rfl
    simp at hfile
  have hleaf : IsLeaf (w.disk.look place) := by
    rw [hfile]
    trivial
  have hfilled : Replaced place content mode w.disk (w.disk.put place (.file content mode)) :=
    .put w.disk hne content mode
  have hset := hfilled.trans (.put _ hne content mode')
  have hplaceFilled := locate_kept (hfilled.grown hleaf).kept hplace
  have hplaceSet := locate_kept (hset.grown hleaf).kept hplace
  refine .bind (.granted (stays_step (Call.isLocal_fill ht content))) fun _ w₁ hrun => ?_
  rw [runIn_fill_of_ok (fill_eq hplace hfile content)] at hrun
  obtain rfl := (Prod.mk.inj hrun).2
  refine .bind (.granted (stays_step (Call.isLocal_setMode ht hplaceFilled hfilled.self mode')))
    fun _ w₂ hrun => ?_
  rw [runIn_setMode_of_ok (setMode_eq hnul hplaceFilled hfilled.self mode')] at hrun
  obtain rfl := (Prod.mk.inj hrun).2
  exact .granted (stays_step (Call.isLocal_rename ht hplaceSet hset.self h))

/-- The path of a file below the site. -/
theorem down_concat (hplain : ∀ x ∈ names, IsName x) {last : String} (hlast : IsName last) :
    Down base top (names ++ [last]) (pathBelow base (names ++ [last])) := by
  refine .below (fun x hx => ?_) (by simp)
  rcases List.mem_append.mp hx with hx | hx
  · exact hplain x hx
  · rw [List.mem_singleton.mp hx]
    exact hlast

/-- **Replacing a file below the site.** -/
theorem atomicWrite_local (hplain : ∀ x ∈ names, IsName x) {last : String} (hlast : IsName last)
    (content : String) :
    Local base top (atomicWrite (pathBelow base (names ++ [last])) content) := by
  have hdown : Down base top (names ++ [last]) _ := down_concat hplain hlast
  rw [atomicWrite, parent_pathBelow]
  refine .bind (ensureDirectories_local hplain) fun _ =>
    .bind (modeToKeep_local hdown) fun mode => ?_
  intro w hw
  refine .bind (.granted (stays_step (Call.isLocal_makeTemporary hplain last))) fun t w₁ hrun => ?_
  obtain ⟨d, hmade, rfl⟩ := runIn_makeTemporary_eq_ok hrun
  -- the temporary file lies below the site, in place of nothing
  obtain ⟨rfl, hnul, place, hplace, hnone, rfl⟩ := makeTemporary_eq_ok_iff.mp hmade
  obtain ⟨-, n, htdown⟩ :=
    hw.site.temporaryPath_eq hw.site ⟨rfl, fun _ _ => rfl⟩ hplain last
  have hne : place ≠ [] := by
    rintro rfl
    simp at hnone
  have hmadeFile := Replaced.put w.disk hne [] temporaryMode
  have hkept := (hmadeFile.grown (by rw [hnone]; trivial)).kept
  have hw₁ : World.Has { w with disk := w.disk.put place (.file [] temporaryMode) } base top :=
    ⟨hw.site.kept hkept, hw.unlogged⟩
  have hmove : (fillAndMove (w.disk.temporaryPath (pathBelow base (names ++ [last])))
      (pathBelow base (names ++ [last])) (bytesOf content) mode).StaysIn base top
        { w with disk := w.disk.put place (.file [] temporaryMode) } :=
    fillAndMove_stays htdown hdown hnul (locate_kept hkept hplace) hmadeFile.self _ mode
  refine .bind hmove.outcome fun result w₂ hrun => ?_
  have hw₂ := hmove.outcome.has hw₁ hrun
  cases result with
  | ok _ => exact .pure ()
  | error failure =>
    exact Local.bind (remove_local htdown) (fun _ => .throw failure) w₂ hw₂

/-- **Writing a file below the site**, or only saying what would be written. -/
theorem writeGenerated_local (hplain : ∀ x ∈ names, IsName x) {last : String} (hlast : IsName last)
    (new : String) (isAppend isDryRun : Bool) :
    Local base top
      (writeGenerated (pathBelow base (names ++ [last])) new isAppend isDryRun) := by
  have hdown : Down base top (names ++ [last]) _ := down_concat hplain hlast
  refine .bind (compose_local hdown new isAppend).outcome fun result => ?_
  cases result with
  | error failure =>
    refine .bind ?_ fun _ => .throw failure
    rw [reportConflict.eq_def]
    split
    · exact .log _ _ _
    · exact .pure ()
  | ok composed =>
    show Local base top (if _ then _ else _)
    split
    · exact .bind (.log _ _ _) fun _ => .pure composed
    · show Local base top (if _ then _ else _)
      split
      · exact .bind (.log _ _ _) fun _ => .pure composed
      · exact .bind (atomicWrite_local hplain hlast _) fun _ =>
          .bind (.log _ _ _) fun _ => .pure composed

/-! ## The whole generation -/

section Runs

variable {r : Request}

theorem enclosed_of_has (h : w.Has r.modulePath top) : Enclosed r top w :=
  ⟨h.site.leads .beyond (by simp), h.site.directory, h.site.noLinks,
    fun q hq hlog => h.unlogged q hq hlog.1⟩

theorem writePlanned_local (hr : r.Valid) {collected : Collected}
    (hcollected : collected.map (·.1) = r.operations) {f : PlannedFile}
    (hf : f ∈ plannedFiles r collected) : Local r.modulePath top (writePlanned r f) := by
  obtain ⟨names, last, hpath, hplain, -⟩ := exists_names_of_mem_plannedFiles hr hcollected hf
  rw [writePlanned, hpath]
  refine .bind (writeGenerated_local (fun x hx => hplain x (by simp [hx])) (hplain last (by simp))
    f.content r.isAppend r.isDryRun) fun composed => .pure _

/-- **The generation of a module stays in its directory.** -/
theorem generate_stays (hr : r.Valid) (hw : w.Has r.modulePath top) :
    (generate r).StaysIn r.modulePath top w := by
  refine .bind (Local.log _ _ _ w hw) fun _ w₁ hrun => ?_
  have hw₁ := (Local.log _ _ _ w hw).has hw hrun
  refine .bind (collect_local hr w₁ hw₁) fun collected w₂ hrun => ?_
  have hw₂ := (collect_local hr w₁ hw₁).has hw₁ hrun
  -- what is collected belongs to the operations of the request
  obtain ⟨w₃, hcollect, -⟩ := collect_runIn (fun _ => (enclosed_of_has hw₁).logApart hr) (.refl w₁)
  have hgather : gatherOn w₁.disk r = .ok collected :=
    (Prod.mk.inj (hcollect.symm.trans hrun)).1
  have hcollected := map_fst_collectAllOn (gatherOn_eq_ok hgather).2
  have hrest : Local r.modulePath top (do
      let written ← (plannedFiles r collected).mapM (writePlanned r)
      Work.log .info .generation
        ("Module '" ++ r.moduleName ++ "': " ++ toString written.length ++ " file(s) generated")
      return written) :=
    .bind (.mapM fun f hf => writePlanned_local hr hcollected hf) fun written =>
      .bind (.log _ _ _) fun _ => .pure written
  exact hrest w₂ hw₂

/-- So does the record of what became of it. -/
theorem generateModule_stays (hr : r.Valid) (hw : w.Has r.modulePath top) :
    (generateModule r).StaysIn r.modulePath top w := by
  have hstays := generate_stays hr hw
  refine .bind hstays.outcome fun result w₁ hrun => ?_
  have hw₁ := hstays.outcome.has hw hrun
  cases result with
  | ok files => exact .pure _
  | error failure =>
    show StaysIn r.modulePath top (if _ then _ else _) w₁
    split
    · exact Local.bind (.log _ _ _) (fun _ => .pure _) w₁ hw₁
    · exact .throw failure

end Runs

end Stencil.Module
