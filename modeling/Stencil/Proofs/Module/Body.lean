import Stencil.Proofs.Module.Plan
import Stencil.Proofs.Source.Body

/-!
# Stencil — what the planned files hold

A planned file is a wrapped body. The payload it is made from was read from a
type file, so no carriage return is in the fields, and the names are such that
no line of the body can be taken for a marker.

Main results:

* `IsRead.isPlainField` — the fields of a payload that is read from a text;
* `map_content_plannedFiles` — the planned files are the wrapped bodies, in order;
* `isBody_of_mem_renderedBodies` — each of them is a body to wrap.
-/

namespace Stencil.Module

open Stencil.Disk Stencil.Naming Stencil.Payload Stencil.Region Stencil.Source Stencil.Text

variable {d : Disk} {r : Request} {collected : Collected}

/-! ## Payloads that were read -/

/-- The payload of a text that was read with its line ends unified. -/
def IsRead (payload : Payload) : Prop :=
  ∃ cs source, Payload.parse (String.ofList (unifyLineEnds cs)) source = .ok payload

/-- The fields of a payload that is read from a text. -/
theorem IsRead.isPlainField {payload : Payload} (h : IsRead payload) :
    ∀ f ∈ payload.fields, IsPlainField f := by
  obtain ⟨cs, source, hparse⟩ := h
  intro f hf
  obtain ⟨hname, htype⟩ := parse_characters hparse f hf
  refine ⟨hname, fun c hc => ⟨?_, (htype c hc).2⟩⟩
  rintro rfl
  -- a text that is read has no carriage return, and a space is none
  rcases (htype _ hc).1 with hin | hspace
  · rw [String.toList_ofList] at hin
    exact notMem_unifyLineEnds cs hin
  · exact absurd hspace (by decide)

theorem isRead_of_payloadOn {path : Path} {payload : Payload}
    (h : payloadOn d path = .ok payload) : IsRead payload := by
  rw [payloadOn] at h
  split at h
  · simp at h
  · split at h
    · simp at h
    · rename_i cs _
      cases hparse : Payload.parse (String.ofList (unifyLineEnds cs)) path.text with
      | error cause => simp [hparse, Except.mapError] at h
      | ok parsed =>
        rw [hparse] at h
        obtain rfl := Except.ok.inj h
        exact ⟨cs, path.text, hparse⟩

theorem isRead_of_collectOn {operation : String} {payload : Payload}
    (h : collectOn d r operation = .ok (some payload)) : IsRead payload := by
  rw [collectOn] at h
  split at h
  · simp at h
  · simp at h
  · split at h
    · rename_i hread
      obtain rfl := Option.some.inj (Except.ok.inj h)
      exact isRead_of_payloadOn hread
    · simp at h
    · simp at h

/-- Every payload was read from a text. -/
def AllRead (collected : Collected) : Prop :=
  ∀ found ∈ present collected, IsRead found.2

theorem allRead_of_collectAllOn {operations : List String}
    (h : collectAllOn d r operations = .ok collected) : AllRead collected := by
  intro found hfound
  obtain ⟨entry, hentry, hsome⟩ := List.mem_filterMap.mp hfound
  obtain ⟨operation, -, -, hcollect⟩ := exists_of_mem_right (collectAllOn_eq_ok h) hentry
  obtain ⟨payload, hpayload, rfl⟩ := Option.map_eq_some_iff.mp hsome
  rw [hpayload] at hcollect
  exact isRead_of_collectOn hcollect

/-! ## Bodies -/

/-- What is rendered for the planned files, in their order. -/
def renderedBodies (r : Request) (collected : Collected) : List String :=
  let names := moduleNames r.moduleName
  match present collected with
  | [] => []
  | found =>
    found.flatMap (fun (operation, payload) =>
        operationRoles.map fun role => operationBody role operation names payload r.framework) ++
      [(routes (found.map (·.1)) names r.framework).render]

/-- **The planned files are the wrapped bodies.** -/
theorem map_content_plannedFiles (r : Request) (collected : Collected) :
    (plannedFiles r collected).map (·.content) = (renderedBodies r collected).map wrapped := by
  rw [plannedFiles, renderedBodies]
  cases present collected with
  | nil => rfl
  | cons found rest =>
    -- operation by operation, and the routes last
    dsimp only
    rw [List.map_append, List.map_append, List.map_flatMap, List.map_flatMap]
    simp only [operationFiles, routesFile, List.map_map]
    rfl

/-- **The rendered bodies** can be wrapped, whatever stands in the type files. -/
theorem isBody_of_mem_renderedBodies (hr : r.Valid)
    (hcollected : collected.map (·.1) = r.operations) (hread : AllRead collected) {body : String}
    (hbody : body ∈ renderedBodies r collected) : IsBody body.toList := by
  have hoperation : ∀ found ∈ present collected, Undashed found.1 := by
    intro found hfound
    have hmem := (map_fst_present collected).subset (List.mem_map_of_mem hfound)
    rw [hcollected] at hmem
    exact undashed_of_chars (char_of_isDeclarable (hr.declarable _ hmem))
  have hnames := undashedNames hr.nameChars
  rw [renderedBodies] at hbody
  split at hbody
  · simp at hbody
  · rcases List.mem_append.mp hbody with hbody | hbody
    · obtain ⟨found, hfound, hbody⟩ := List.mem_flatMap.mp hbody
      obtain ⟨role, hrole, rfl⟩ := List.mem_map.mp hbody
      exact isBody_operationBody r.framework hrole (hoperation found hfound) hnames
        (hread found hfound).isPlainField
    · obtain rfl := List.mem_singleton.mp hbody
      refine isBody_routes r.framework (fun o ho => ?_) hnames
      obtain ⟨found, hfound, rfl⟩ := List.mem_map.mp ho
      exact hoperation found hfound

/-- A planned file is a wrapped body. -/
theorem exists_body (hr : r.Valid) (hcollected : collected.map (·.1) = r.operations)
    (hread : AllRead collected) {f : PlannedFile} (hf : f ∈ plannedFiles r collected) :
    ∃ body, f.content = wrapped body ∧ IsBody body.toList := by
  have hcontent : f.content ∈ (renderedBodies r collected).map wrapped := by
    rw [← map_content_plannedFiles]
    exact List.mem_map_of_mem hf
  obtain ⟨body, hbody, hwrapped⟩ := List.mem_map.mp hcontent
  exact ⟨body, hwrapped.symm, isBody_of_mem_renderedBodies hr hcollected hread hbody⟩

end Stencil.Module
