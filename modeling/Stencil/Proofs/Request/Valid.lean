import Stencil.Proofs.Identifier
import Stencil.Proofs.Text.Blank
import Stencil.Request.Given

/-!
# Stencil — valid requests

What reading a request from data makes sure of. The module's name has gone
through its check, and the names of the operations are different from each
other and can be declared.

Main results:

* `ApiType.Valid.declarable`, `ApiType.Valid.nodup` — the operations of an api
  type that was read;
* `Request.ofData_valid` — a request that was read is valid.
-/

namespace Stencil

open Stencil.Check

/-! ## Readers that go through -/

namespace Check

theorem both_eq_ok {α β : Type} {first : Checked α} {second : Checked β} {a : α} {b : β}
    (h : both first second = .ok (a, b)) : first = .ok a ∧ second = .ok b := by
  -- both readers are asked, and both have to go through
  cases first with
  | error faults => cases second <;> simp [both] at h
  | ok a' =>
    cases second with
    | error faults => simp [both] at h
    | ok b' =>
      obtain ⟨rfl, rfl⟩ := Prod.mk.inj (Except.ok.inj h)
      exact ⟨rfl, rfl⟩

/-- A field that is read comes from the record, or from the default if the record does not
have it. -/
theorem field_cases {α : Type} {entries : List (Data × Data)} {name : String}
    {default? : Option α} {read : Data → Checked α} {a : α}
    (h : field entries name default? read = .ok a) :
    (∃ d, Data.lookup? name entries = some d ∧ read d = .ok a) ∨
      Data.lookup? name entries = none ∧ default? = some a := by
  have hunder : ∀ {step : Step} {result : Checked α}, under step result = .ok a →
      result = .ok a := by
    intro step result hresult
    cases result with
    | ok a' => exact hresult
    | error faults => simp [under] at hresult
  have hinner := hunder h
  split at hinner
  · rename_i d hd
    exact .inl ⟨d, hd, hinner⟩
  · rename_i hnone
    exact .inr ⟨hnone, congrArg some (Except.ok.inj hinner)⟩
  · simp [refuse] at hinner

theorem field_eq_ok {α : Type} {entries : List (Data × Data)} {name : String}
    {default? : Option α} {read : Data → Checked α} {a : α}
    (h : field entries name default? read = .ok a) :
    (∃ d, read d = .ok a) ∨ default? = some a := by
  rcases field_cases h with ⟨d, -, hd⟩ | ⟨-, hdefault⟩
  · exact .inl ⟨d, hd⟩
  · exact .inr hdefault

/-- A field that the record does not have is read as its default. -/
theorem field_of_lookup_none {α : Type} {entries : List (Data × Data)} {name : String} {a : α}
    {read : Data → Checked α} (h : Data.lookup? name entries = none) :
    field entries name (some a) read = .ok a := by
  unfold field
  rw [h]
  rfl

theorem nodup_of_repeated {names : List String} (h : repeated names = []) : names.Nodup := by
  rw [List.nodup_iff_count]
  intro name
  apply Nat.not_lt.mp
  intro htwice
  -- a name that comes twice would be listed
  have hmem : name ∈ repeated names := by
    rw [repeated, List.mem_mergeSort, List.mem_eraseDups, List.mem_filter]
    exact ⟨List.count_pos_iff.mp (by omega), by simpa using htwice⟩
  rw [h] at hmem
  simp at hmem

end Check

/-! ## Module names -/

open Naming Text

/-- A valid name is a text of name characters without blanks around it. -/
theorem Naming.checkModuleName_eq_ok {given name : String} (h : checkModuleName given = .ok name) :
    checkModuleName name = .ok name ∧ ∀ c ∈ name.toList, isNameChar c = true := by
  rw [checkModuleName] at h
  split at h
  · simp at h
  · rename_i c rest htrim
    split at h
    · simp at h
    · rename_i hall
      split at h
      · simp at h
      · rename_i hstart
        obtain rfl := Except.ok.inj h
        have hchars : ∀ d ∈ c :: rest, isNameChar d = true := by
          simpa using hall
        -- the name that is kept is trimmed, so it comes out of the check as it goes in
        have htrim' : trim (c :: rest) = c :: rest := by
          rw [← htrim]
          exact trimWhere_trimWhere isBlank given.toList
        refine ⟨?_, by rwa [String.toList_ofList]⟩
        rw [checkModuleName, String.toList_ofList, htrim']
        simp only [hall, hstart]
        rfl

/-! ## Operations -/

/-- A known operation is told by its name. -/
theorem Crud.ofName?_eq_some_iff {operation : String} {crud : Crud} :
    Crud.ofName? operation = some crud ↔ operation = crud.name := by
  constructor
  · intro h
    rw [Crud.ofName?] at h
    have hname := List.find?_some h
    exact (beq_iff_eq.mp hname).symm
  · rintro rfl
    cases crud <;> rfl

/-- Names that break no rule are different and can be declared. -/
theorem of_operationsRefusal {names : List String} (h : operationsRefusal? names = none) :
    (∀ name ∈ names, isDeclarable name = true) ∧ names.Nodup := by
  rw [operationsRefusal?] at h
  split at h
  · simp at h
  · rename_i hfind
    split at h
    · rename_i hrepeated
      refine ⟨fun name hname => ?_, nodup_of_repeated hrepeated⟩
      simpa using List.find?_eq_none.mp hfind name hname
    · simp at h

theorem operationsRefusal?_nil : operationsRefusal? [] = none := by
  simp [operationsRefusal?, repeated]

/-- An api type whose own names break no rule, and that has some if it needs
them. -/
structure ApiType.Valid (t : ApiType) : Prop where
  some : t.kind = .custom → t.customNames ≠ []
  names : operationsRefusal? t.customNames = none

theorem ApiType.crud_valid : ApiType.crud.Valid :=
  ⟨by simp [ApiType.crud], operationsRefusal?_nil⟩

theorem readOperations_eq_ok {d : Data} {names : List String}
    (h : readOperations d = .ok names) : operationsRefusal? names = none := by
  rw [readOperations] at h
  split at h
  · simp at h
  · split at h
    · rename_i hnone
      rwa [← Except.ok.inj h]
    · simp [refuse] at h

theorem ApiType.read_valid {d : Data} {t : ApiType} (h : ApiType.read d = .ok t) : t.Valid := by
  cases d with
  | record entries =>
    rw [ApiType.read, ApiType.ofEntries] at h
    split at h
    · rename_i kind names hboth
      obtain ⟨-, hnames⟩ := both_eq_ok hboth
      rw [ApiType.ofParts] at h
      split at h
      · simp [refuse] at h
      · rename_i hsome
        obtain rfl := Except.ok.inj h
        refine ⟨fun hkind hnil => hsome ⟨hkind, hnil⟩, ?_⟩
        -- no names are given, or they were checked when they were read
        rcases field_eq_ok hnames with ⟨d, hd⟩ | hdefault
        · exact readOperations_eq_ok hd
        · obtain rfl := Option.some.inj hdefault
          exact operationsRefusal?_nil
    · simp at h
  | _ => simp [ApiType.read, refuse] at h

namespace ApiType.Valid

variable {t : ApiType}

/-- The operations can be declared. -/
theorem declarable (h : t.Valid) : ∀ operation ∈ t.operations, isDeclarable operation = true := by
  rw [ApiType.operations]
  split
  · decide
  · exact (of_operationsRefusal h.names).1

/-- No two operations are the same. -/
theorem nodup (h : t.Valid) : t.operations.Nodup := by
  rw [ApiType.operations]
  split
  · decide
  · exact (of_operationsRefusal h.names).2

end ApiType.Valid

/-! ## Requests -/

/-- A request as it comes out of its checks. -/
structure Request.Valid (r : Request) : Prop where
  name : checkModuleName r.moduleName = .ok r.moduleName
  apiType : r.apiType.Valid

theorem readModuleName_eq_ok {d : Data} {name : String} (h : readModuleName d = .ok name) :
    checkModuleName name = .ok name := by
  rw [readModuleName] at h
  split at h
  · simp at h
  · split at h
    · rename_i given _ checked hchecked
      obtain rfl := Except.ok.inj h
      exact (Naming.checkModuleName_eq_ok hchecked).1
    · simp [refuse] at h

/-- **A request that was read is valid.** -/
theorem Request.ofData_valid {defaults : Request.Defaults} {entries : List (Data × Data)}
    {r : Request} (hdefaults : defaults.apiType.Valid) (h : ofData defaults entries = .ok r) :
    r.Valid := by
  rw [ofData] at h
  split at h
  · rename_i name path apiType isAppend framework isDryRun hboth
    obtain rfl := Except.ok.inj h
    obtain ⟨hname, hboth⟩ := both_eq_ok hboth
    obtain ⟨-, hboth⟩ := both_eq_ok hboth
    obtain ⟨hapiType, -⟩ := both_eq_ok hboth
    constructor
    · rcases field_eq_ok hname with ⟨d, hd⟩ | hdefault
      · exact readModuleName_eq_ok hd
      · simp at hdefault
    · rcases field_eq_ok hapiType with ⟨d, hd⟩ | hdefault
      · exact ApiType.read_valid hd
      · rwa [← Option.some.inj hdefault]
  · simp at h

namespace Request.Valid

variable {r : Request}

theorem nameChars (h : r.Valid) : ∀ c ∈ r.moduleName.toList, isNameChar c = true :=
  (Naming.checkModuleName_eq_ok h.name).2

theorem declarable (h : r.Valid) : ∀ operation ∈ r.operations, isDeclarable operation = true :=
  h.apiType.declarable

theorem nodup (h : r.Valid) : r.operations.Nodup :=
  h.apiType.nodup

end Request.Valid

end Stencil
