import Stencil.Proofs.Module.Failures
import Stencil.Proofs.Module.Success

/-!
# Stencil — generated files carry their markers

Whatever stands in the type files of a module, every file that is planned for it
has one pair of marker lines around its rendered body: a string literal of a
payload type may hold the text of a marker, and any line separator, but no line
of a body is a marker line. So a merge never fails for want of a region in the
generated text, in whatever world the module is generated.

Main results:

* `collect_gives` — the payloads that are collected were read from texts;
* `generate_marked` — every planned file, and every generation.
-/

namespace Stencil.Module

open Stencil.Disk Stencil.Payload Stencil.Region Stencil.Text

variable {r : Request}

/-! ## Texts around a body -/

/-- A text is well marked, and between its marker lines there is the body without
the line feeds around it, and one line feed. -/
structure HoldsBody (content body : List Char) : Prop where
  marked : WellMarked content
  located : locate content =
    .ok ⟨beginMarker ++ ['\n'], trimWhere (· == '\n') body ++ ['\n'], endMarker ++ ['\n']⟩

theorem holdsBody_wrap {body : List Char} (h : IsBody body) : HoldsBody (wrap body) body :=
  ⟨(cutAt_wrap h).wellMarked, locate_eq_ok_iff.mpr (cutAt_wrap h)⟩

/-- The planned files hold the rendered bodies, in order. -/
theorem plannedFiles_hold (hr : r.Valid) {collected : Collected}
    (hcollected : collected.map (·.1) = r.operations) (hread : AllRead collected) :
    List.Forall₂ (fun f body => HoldsBody f.content.toList body.toList)
      (plannedFiles r collected) (renderedBodies r collected) := by
  have hbodies : List.Forall₂ (fun content body => HoldsBody content.toList body.toList)
      ((renderedBodies r collected).map wrapped) (renderedBodies r collected) := by
    rw [List.forall₂_map_left_iff, List.forall₂_same]
    intro body hbody
    rw [wrapped, String.toList_ofList]
    exact holdsBody_wrap (isBody_of_mem_renderedBodies hr hcollected hread hbody)
  rwa [← map_content_plannedFiles, List.forall₂_map_left_iff] at hbodies

/-! ## Generation in any world -/

theorem collectOperation_gives (r : Request) (operation : String) :
    Work.Gives (fun payload? => ∀ payload, payload? = some payload → IsRead payload)
      (collectOperation r operation) := by
  intro w payload? w' hrun payload hpayload
  obtain ⟨w₁, hcollect, -⟩ := collectOperation_runIn r operation w
  -- what it comes to is what the disk holds at that time
  have hon : collectOn w.disk r operation = .ok payload? :=
    (Prod.mk.inj (hcollect.symm.trans hrun)).1
  rw [hpayload] at hon
  exact isRead_of_collectOn hon

/-- **What is collected** belongs to the operations of the request, and was read
from texts. -/
theorem collect_gives (r : Request) :
    Work.Gives (fun collected => collected.map (·.1) = r.operations ∧ AllRead collected)
      (collect r) := by
  have hentries : Work.Gives
      (List.Forall₂ (fun operation (entry : String × Option Payload) =>
        entry.1 = operation ∧ ∀ payload, entry.2 = some payload → IsRead payload) r.operations)
      (r.operations.mapM fun operation => do
        let payload? ← collectOperation r operation
        return (operation, payload?)) :=
    .mapM fun operation _ => .bind (collectOperation_gives r operation) fun payload? h =>
      .pure ⟨rfl, h⟩
  refine .bind (.any _) fun isThere _ => ?_
  cases isThere with
  | false => exact .throw _
  | true =>
    intro w collected w' hrun
    have hall := hentries w collected w' hrun
    refine ⟨?_, fun found hfound => ?_⟩
    · have hnames := hall.flip.imp (fun _ _ h => h.1)
      exact List.forall₂_eq_eq_eq ▸ (List.forall₂_map_left_iff.mpr hnames)
    · obtain ⟨entry, hentry, hsome⟩ := List.mem_filterMap.mp hfound
      obtain ⟨payload, hpayload, rfl⟩ := Option.map_eq_some_iff.mp hsome
      obtain ⟨operation, -, -, hread⟩ := exists_of_mem_right hall hentry
      exact hread payload hpayload

/-- No file was without a region of its own. -/
def IsNotUnmarked (failure : Failure) : Prop :=
  ∀ path flaw, failure ≠ .unmarked path flaw

theorem collect_fails (r : Request) : Work.FailsOnly IsNotUnmarked (collect r) := by
  have hdirectory : Work.FailsOnly IsNotUnmarked (Work.isDirectory? r.modulePath) :=
    .granted fun w fault _ path flaw => by simp
  have hoperation : ∀ operation, Work.FailsOnly IsNotUnmarked (collectOperation r operation) := by
    intro operation w failure w' hrun path flaw hfailure
    obtain ⟨w₁, hcollect, -⟩ := collectOperation_runIn r operation w
    have hon : collectOn w.disk r operation = .error failure :=
      (Prod.mk.inj (hcollect.symm.trans hrun)).1
    rcases collectOn_failure hon with hmodule | ⟨fault, hfault⟩
    · rw [hfailure] at hmodule
      exact absurd hmodule (by simp [isModuleFailure, Failure.isDiskRefusal])
    · simp [hfault] at hfailure
  refine .bind hdirectory fun isThere => ?_
  cases isThere with
  | false => exact .throw fun path flaw => by simp
  | true => exact .mapM fun operation _ => .bind (hoperation operation) fun _ => .pure _

/-- A wrapped body is written, merged or refused, but it is never at fault. -/
theorem writePlanned_wrapped {f : PlannedFile} {body : String} (hcontent : f.content = wrapped body)
    (hbody : IsBody body.toList) : Work.FailsOnly IsNotUnmarked (writePlanned r f) := by
  refine .bind ?_ fun composed => .pure _
  intro w failure w' hrun path flaw hfailure
  rw [hcontent] at hrun
  rcases writeGenerated_eq_error hrun with ⟨hcompose, -⟩ | ⟨content, hwrite⟩
  · have hmodule := composeOn_failure hbody hcompose
    rw [hfailure] at hmodule
    exact absurd hmodule (by simp [isModuleFailure, Failure.isDiskRefusal])
  · obtain ⟨fault, hfault⟩ := atomicWrite_fails f.path content w failure w' hwrite
    simp [hfault] at hfailure

/-- **Generated files carry their markers.** Whatever texts the type files of a
valid request hold, as long as they parse: every planned file has one line of each
marker, the opening one first, and between them there is its rendered body without
the line feeds around it, and one line feed. So in no world does a generation fail
for want of a region in a generated text. -/
theorem generate_marked (hr : r.Valid) :
    (∀ collected : Collected, collected.map (·.1) = r.operations → AllRead collected →
      List.Forall₂ (fun f body => HoldsBody f.content.toList body.toList)
        (plannedFiles r collected) (renderedBodies r collected)) ∧
      ∀ w path flaw, ((generate r).runIn w).1 ≠ .error (.unmarked path flaw) := by
  refine ⟨fun collected hcollected hread => plannedFiles_hold hr hcollected hread, ?_⟩
  have hlog : ∀ severity topic message,
      Work.FailsOnly IsNotUnmarked (Work.log severity topic message) := by
    intro severity topic message w failure w' hrun
    simp at hrun
  -- the second phase is about payloads that the first one has read
  have hgenerate : Work.FailsOnly IsNotUnmarked (generate r) := by
    refine .bind (hlog _ _ _) fun _ => ?_
    refine .bind_gives (collect_fails r) (collect_gives r) fun collected hcollected => ?_
    refine .bind (.mapM fun f hf => ?_) fun written => .bind (hlog _ _ _) fun _ => .pure written
    obtain ⟨body, hcontent, hbody⟩ := exists_body hr hcollected.1 hcollected.2 hf
    exact writePlanned_wrapped hcontent hbody
  intro w path flaw hrun
  exact hgenerate w _ _ (Prod.ext hrun rfl) path flaw rfl

/-- A field whose type is a literal with a marker between line separators, or another. -/
private def markerType : String :=
  "'\u2028// ---- crudgen:begin generated ----\u2028' | 'b'"

private def markerPayload : Payload :=
  ⟨[⟨"a", false, markerType, some 1⟩], "go.todo.ts"⟩

/-- The declaration of such a field, as the characters of a type file. -/
private def markerSource : List Char :=
  ("export type typePayload = \x7ba: " ++ markerType ++ "\x7d").toList

private theorem isRead_markerPayload : IsRead markerPayload := by
  refine ⟨markerSource, "go.todo.ts", ?_⟩
  have hparse : (Payload.parse (String.ofList (unifyLineEnds markerSource)) "go.todo.ts").toOption =
      some markerPayload := by decide +kernel
  cases hresult : Payload.parse (String.ofList (unifyLineEnds markerSource)) "go.todo.ts" with
  | error cause =>
    rw [hresult] at hparse
    cases hparse
  | ok payload =>
    rw [hresult] at hparse
    exact congrArg Except.ok (Option.some.inj hparse)

private def markerCollected : Collected :=
  [("go", some markerPayload), ("stop", none)]

/-- The text of a marker in a type file does no harm. -/
theorem marked_markerPayload :
    contains beginMarker markerType.toList = true ∧
      List.Forall₂ (fun f body => HoldsBody f.content.toList body.toList)
        (plannedFiles freshRequest markerCollected)
        (renderedBodies freshRequest markerCollected) ∧
      ∀ w path flaw, ((generate freshRequest).runIn w).1 ≠ .error (.unmarked path flaw) := by
  have hread : AllRead markerCollected := by
    intro found hfound
    obtain rfl : found = ("go", markerPayload) := by
      simpa [present, markerCollected] using hfound
    exact isRead_markerPayload
  have hnames : markerCollected.map (·.1) = freshRequest.operations := rfl
  obtain ⟨hplanned, hgenerate⟩ := generate_marked valid_freshRequest
  exact ⟨by decide +kernel, hplanned markerCollected hnames hread, hgenerate⟩

end Stencil.Module
