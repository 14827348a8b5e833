import Stencil.Proofs.Module.Body
import Stencil.Proofs.Module.Success

/-!
# Stencil — generating again

A second generation reads the same type files, plans the same files, and finds
every one of them to hold what it is to hold. In place of a file comes the file
itself; and the region that goes into a file is the one it has, because a later
splice undoes an earlier one. Both need that the planned texts are wrapped
bodies, and that no planned file is a type file.

Main results:

* `composeOn_again` — a file that was written is to hold what it holds;
* `Completed.gatherOn_eq` — the type files say what they said;
* `generate_idempotent` — generating again changes nothing.
-/

namespace Stencil.Module

open Stencil.Disk Stencil.Naming Stencil.Payload Stencil.Region Stencil.Source Stencil.Text

/-! ## Composing again -/

section Compose

variable {d d' : Disk} {path : Path} {body : String} {composed : Composed}

/-- A wrapped body has the region that it is. -/
theorem splice_self {body : List Char} (h : IsBody body) :
    splice (wrap body) (wrap body) = .ok (wrap body) := by
  have hcut := cutAt_wrap h
  rw [(splice_wrap hcut h).1]
  -- the line in front of the region ends in a line feed alone
  have hfitted : fitted (beginMarker ++ ['\n']) (bodyRegion body) = bodyRegion body := by
    rw [fitted, if_neg (by decide)]
  rw [hfitted]
  exact congrArg Except.ok hcut.text_eq.symm

/-- What was made of a file takes the same region again. -/
theorem splice_composed (hbody : IsBody body.toList)
    (h : composeOn d path (wrapped body) true = .ok composed) :
    splice composed.content.toList (wrap body.toList) = .ok composed.content.toList := by
  rw [composeOn] at h
  split at h
  · simp at h
  · -- a new file is the wrapped body
    obtain rfl := Except.ok.inj h
    rw [wrapped, String.toList_ofList]
    exact splice_self hbody
  · split at h
    · simp at h
    · rw [if_pos rfl, mergeInto] at h
      split at h
      · simp at h
      · split at h
        · simp at h
        · simp at h
        · -- a later splice undoes the earlier one
          rename_i merged hmerged
          obtain rfl := Except.ok.inj h
          rw [wrapped, String.toList_ofList] at hmerged
          rw [String.toList_ofList, splice_forgets hbody hbody hmerged, hmerged]

/-- In place of a file comes the new text. -/
theorem content_of_replaced {new : String} (h : composeOn d path new false = .ok composed) :
    composed.content = new := by
  rw [composeOn] at h
  split at h
  · simp at h
  · rw [← Except.ok.inj h]
  · split at h
    · simp at h
    · rw [← Except.ok.inj h]
      rfl

/-- **A file that was written is to hold what it holds.** -/
theorem composeOn_again {isAppend : Bool} (hbody : IsBody body.toList)
    (h : composeOn d path (wrapped body) isAppend = .ok composed)
    (hread : d'.read path = .ok (bytesOf composed.content)) :
    composeOn d' path (wrapped body) isAppend = .ok ⟨composed.content, .unchanged⟩ := by
  rw [composeOn_of_read hread]
  cases isAppend with
  | false =>
    rw [content_of_replaced h, if_neg (by simp), replaceIn, if_pos rfl]
  | true =>
    have hsplice := splice_composed hbody h
    rw [if_pos rfl, mergeInto, bytesOf, Utf8.decode_encode]
    simp only [wrapped, String.toList_ofList, hsplice, if_true, String.ofList_toList]

end Compose

/-! ## Reading again -/

theorem collectAllOn_congr {d d' : Disk} {r : Request} {operations : List String}
    (h : ∀ o ∈ operations, collectOn d' r o = collectOn d r o) :
    collectAllOn d' r operations = collectAllOn d r operations := by
  induction operations with
  | nil => rfl
  | cons o rest ih =>
    rw [collectAllOn, collectAllOn, h o (by simp), ih fun o' ho' => h o' (by simp [ho'])]

section Again

variable {r : Request} {w w' : World} {top : Place} {collected : Collected}
  {written : List WrittenFile}

/-- Log records do not change what the type files say. -/
theorem gatherOn_logged (hapart : LogApart r w) (hlog : World.Logged w w') :
    gatherOn w'.disk r = gatherOn w.disk r := by
  have hdirectory := hlog.sameShape.isDirectory_eq r.modulePath
  have hall : collectAllOn w'.disk r r.operations = collectAllOn w.disk r r.operations :=
    collectAllOn_congr fun _ ho => collectOn_logged hapart hlog ho
  rw [gatherOn, gatherOn, hdirectory, hall]

namespace Completed

/-- The module's directory is as good as before. -/
theorem enclosed_after (h : Completed r top w w' collected written) : Enclosed r top w' := by
  obtain ⟨mode, hdirectory⟩ := h.enclosed.directory
  exact ⟨locate_kept h.reached.grown.kept h.enclosed.base,
    ⟨mode, h.reached.grown.directory hdirectory⟩,
    fun q target hq hlink => h.enclosed.noLinks q target hq (h.reached.grown.link_iff.mp hlink),
    fun q hq hlog => h.enclosed.unlogged q hq (h.reached.isLog q hlog)⟩

/-- A type file that is there lies in a directory. -/
theorem exists_typesDirectory (h : Completed r top w w' collected written) (hr : r.Valid)
    (htree : IsTree w.disk) {operation : String} (hoperation : operation ∈ r.operations)
    (hthere : hasTypeFile w.disk r operation = true) :
    ∃ mode, w.disk.look (typesDirectory :: top) = some (.directory mode) := by
  have hslash := slashFree_of_declarable (hr.declarable operation hoperation)
  have hplan := h.enclosed.plannable hr .types hslash
  rw [hasTypeFile] at hthere
  split at hthere
  · rename_i hfile
    obtain ⟨bytes, hread⟩ := isFile_eq_true_iff.mp (hthere ▸ hfile)
    obtain ⟨-, mode, hentry⟩ := read_eq_ok_iff.mp hread
    have hlook := hplan.look_of_entryAt hentry
    rw [placeBelow_join hr .types hslash] at hlook
    have hlook' : w.disk.look (operationFile operation (moduleNames r.moduleName) ::
        typesDirectory :: top) = some (.file bytes mode) := hlook
    exact htree _ _ (by rw [hlook']; rfl)
  · simp at hthere

/-- A type file says what it said, if there is a directory for it. -/
theorem collectOn_eq (h : Completed r top w w' collected written) (hr : r.Valid)
    (htree : IsTree w.disk) {operation : String} (hoperation : operation ∈ r.operations)
    {mode : Nat} (hdirectory : w.disk.look (typesDirectory :: top) = some (.directory mode)) :
    collectOn w'.disk r operation = collectOn w.disk r operation := by
  have hslash := slashFree_of_declarable (hr.declarable operation hoperation)
  have hbelow := (h.enclosed.plannable hr .types hslash).below
  have hplace := h.not_written_typeFile hr hslash
  rw [join_path hr .types hslash, namesBeyond_pathBelow] at hbelow
  rw [typeFile, placeBelow_join hr .types hslash] at hplace
  have hpath : typeFile r operation = pathBelow r.modulePath
      [typesDirectory, operationFile operation (moduleNames r.moduleName)] :=
    join_path hr .types hslash
  have hfile : w'.disk.isFile? (typeFile r operation) =
      w.disk.isFile? (typeFile r operation) := by
    rw [hpath]
    exact hbelow.isFile_grown hdirectory h.reached.grown hplace
  rw [collectOn, collectOn, hfile]
  cases hthere : w.disk.isFile? (typeFile r operation) with
  | error fault => rfl
  | ok isThere =>
    cases isThere with
    | false => rfl
    | true =>
      obtain ⟨bytes, hread⟩ := isFile_eq_true_iff.mp hthere
      have hread' := (h.typeFile_eq hr htree hoperation bytes).mpr hread
      rw [payloadOn, payloadOn, hread, hread']

/-- Without a type file nothing is planned. -/
theorem plannedFiles_eq_nil (h : Completed r top w w' collected written)
    (hnone : ∀ o ∈ r.operations, hasTypeFile w.disk r o = false) :
    plannedFiles r collected = [] := by
  have hfst := map_fst_present_eq (gatherOn_eq_ok h.gathered).2
  rw [List.filter_eq_nil_iff.mpr fun o ho => by simp [hnone o ho], List.map_eq_nil_iff] at hfst
  rw [plannedFiles, hfst]

/-- **The type files say what they said.** -/
theorem gatherOn_eq (h : Completed r top w w' collected written) (hr : r.Valid)
    (hw : Undisturbed r w) (hrun : (generate r).runIn w = (.ok written, w')) :
    gatherOn w'.disk r = .ok collected := by
  obtain ⟨hthere, hall⟩ := gatherOn_eq_ok h.gathered
  by_cases hany : ∃ o ∈ r.operations, hasTypeFile w.disk r o = true
  · -- a directory of type files stays one, and so new directories make no difference
    obtain ⟨o, ho, hfile⟩ := hany
    obtain ⟨mode, hdirectory⟩ := h.exists_typesDirectory hr hw.tree ho hfile
    rw [gatherOn, isDirectory_kept h.reached.grown.kept hthere]
    exact (collectAllOn_congr fun _ ho' => h.collectOn_eq hr hw.tree ho' hdirectory).trans hall
  · -- without a type file nothing has been written, and no directory made
    have hnone : ∀ o ∈ r.operations, hasTypeFile w.disk r o = false := by
      intro o ho
      by_contra hfile
      exact hany ⟨o, ho, by simpa using hfile⟩
    obtain ⟨w₁, hrun₁, hlog⟩ := generate_quiet hr hw.enclosed fun collected' hgather f hf => by
      obtain rfl := Except.ok.inj (h.gathered.symm.trans hgather)
      rw [h.plannedFiles_eq_nil hnone] at hf
      simp at hf
    obtain rfl : w₁ = w' := (Prod.mk.inj (hrun₁.symm.trans hrun)).2
    rw [gatherOn_logged (h.enclosed.logApart hr) hlog, h.gathered]

/-- Every planned file is to hold what it holds. -/
theorem composeOn_eq (h : Completed r top w w' collected written) (hr : r.Valid) {f : PlannedFile}
    (hf : f ∈ plannedFiles r collected) :
    ∃ composed, composeOn w.disk f.path f.content r.isAppend = .ok composed ∧
      composeOn w'.disk f.path f.content r.isAppend = .ok ⟨composed.content, .unchanged⟩ := by
  obtain ⟨composed, hcomposed, hread⟩ := h.held f hf
  obtain ⟨body, hcontent, hbody⟩ := exists_body hr (map_fst_collectAllOn (gatherOn_eq_ok h.gathered).2)
    (allRead_of_collectAllOn (gatherOn_eq_ok h.gathered).2) hf
  rw [hcontent] at hcomposed ⊢
  exact ⟨composed, hcomposed, composeOn_again hbody hcomposed hread⟩

/-- The second generation reports the same files, and none as changed. -/
theorem written_again (h : Completed r top w w' collected written) (hr : r.Valid) :
    (plannedFiles r collected).mapM (writtenOn w'.disk r) =
      .ok (written.map fun x => { x with action := .unchanged }) := by
  have hpairs := mapM_eq_ok_iff.mp h.written
  rw [mapM_eq_ok_iff, List.forall₂_map_right_iff]
  refine ((List.forall₂_and_left _ _).mpr ⟨fun f hf => hf, hpairs⟩).imp ?_
  rintro f x ⟨hf, hfx⟩
  obtain ⟨composed, hcomposed, hagain⟩ := h.composeOn_eq hr hf
  rw [writtenOn, hcomposed] at hfx
  rw [writtenOn, hagain, ← Except.ok.inj hfx]
  rfl

end Completed

/-- **Generating again changes nothing.** After a generation that has succeeded,
the same request succeeds again. It reports the same files with the same
contents, none of them as changed, and leaves the disk as it is. -/
theorem generate_idempotent (hr : r.Valid) (hw : Undisturbed r w) (hdry : r.isDryRun = false)
    (hrun : (generate r).runIn w = (.ok written, w')) :
    ∃ w'', (generate r).runIn w' =
        (.ok (written.map fun x => { x with action := .unchanged }), w'') ∧
      ∀ q, ¬ w'.IsLog q → w''.disk.look q = w'.disk.look q := by
  obtain ⟨top, collected, h⟩ := generate_eq_ok hr hw hdry hrun
  have hgather := h.gatherOn_eq hr hw hrun
  obtain ⟨w'', hagain, hlog⟩ := generate_quiet hr (fun _ => ⟨top, h.enclosed_after⟩)
    fun collected' hgather' f hf => by
      obtain rfl := Except.ok.inj (hgather.symm.trans hgather')
      obtain ⟨composed, -, hunchanged⟩ := h.composeOn_eq hr hf
      refine .inr fun composed' hcomposed' => ?_
      obtain rfl := Except.ok.inj (hunchanged.symm.trans hcomposed')
      rfl
  refine ⟨w'', ?_, hlog.other⟩
  rw [hagain, generateOn, hgather]
  exact congrArg (·, w'') (h.written_again hr)

end Again

/-- The new module, generated twice. -/
theorem idempotent_freshWorld :
    ∃ written w' w'', (generate freshRequest).runIn freshWorld = (.ok written, w') ∧
      (generate freshRequest).runIn w' =
        (.ok (written.map fun x => { x with action := .unchanged }), w'') ∧
      ∀ q, ¬ w'.IsLog q → w''.disk.look q = w'.disk.look q := by
  obtain ⟨written, w', hrun⟩ := generate_freshWorld
  obtain ⟨w'', hagain, hsame⟩ :=
    generate_idempotent valid_freshRequest undisturbed_freshWorld rfl hrun
  exact ⟨written, w', w'', hrun, hagain, hsame⟩

end Stencil.Module
