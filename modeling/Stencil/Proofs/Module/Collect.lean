import Stencil.Module.Generate
import Stencil.Proofs.Log

/-!
# Stencil — what reading the type files does

The first phase of generation only looks at the disk. What it comes to can
therefore be said without its steps: `gatherOn` is what a disk holds for a
request. Log records are made on the way; they change nothing that is still to
be read as long as the log file is no type file.

Main results:

* `collect_runIn` — the first phase comes to `gatherOn` and changes nothing but
  the log file;
* `gatherOn_generation` — the failure names the first operation whose type file
  does not parse.
-/

namespace Stencil.Module

open Stencil.Disk Stencil.Text

/-! ## What a disk holds for a request -/

/-- The payload in a type file, by the disk alone. -/
def payloadOn (d : Disk) (path : Path) : Except Failure Payload :=
  match d.read path with
  | .error fault => .error (.disk fault)
  | .ok bytes =>
    match Utf8.decode bytes with
    | .error fault => .error (.undecodable fault)
    | .ok cs => (Payload.parse (String.ofList (unifyLineEnds cs)) path.text).mapError .parse

/-- The payload of an operation, if it has a type file. -/
def collectOn (d : Disk) (r : Request) (operation : String) : Except Failure (Option Payload) :=
  match d.isFile? (typeFile r operation) with
  | .error fault => .error (.disk fault)
  | .ok false => .ok none
  | .ok true =>
    match payloadOn d (typeFile r operation) with
    | .ok payload => .ok (some payload)
    | .error (.parse cause) => .error (.generation r.moduleName operation cause)
    | .error failure => .error failure

/-- The payloads of some operations, in order. -/
def collectAllOn (d : Disk) (r : Request) : List String → Except Failure Collected
  | [] => .ok []
  | operation :: rest =>
    match collectOn d r operation with
    | .error failure => .error failure
    | .ok payload? => (collectAllOn d r rest).map ((operation, payload?) :: ·)

/-- What the first phase comes to. -/
def gatherOn (d : Disk) (r : Request) : Except Failure Collected :=
  match d.isDirectory? r.modulePath with
  | .error fault => .error (.disk fault)
  | .ok false => .error (.noModule r.modulePath.text)
  | .ok true => collectAllOn d r r.operations

/-- The type file of an operation is there, and can be read, but not parsed. -/
def Malformed (d : Disk) (r : Request) (operation : String) (cause : Payload.ParseError) : Prop :=
  d.isFile? (typeFile r operation) = .ok true ∧
    ∃ bytes cs, d.read (typeFile r operation) = .ok bytes ∧ Utf8.decode bytes = .ok cs ∧
      Payload.parse (String.ofList (unifyLineEnds cs)) (typeFile r operation).text = .error cause

/-! ## The steps of the first phase -/

theorem readPayload_runIn (path : Path) (w : World) :
    ∃ w', (readPayload path).runIn w = (payloadOn w.disk path, w') ∧ World.Logged w w' := by
  rw [readPayload, Work.readText, payloadOn, bind_assoc, Work.runIn_bind, Work.runIn_read]
  -- the steps and `payloadOn` branch at the same places
  cases w.disk.read path with
  | error fault => exact ⟨w, rfl, .refl w⟩
  | ok bytes =>
    simp only [Work.answered_ok]
    rw [bind_assoc, Work.runIn_bind, Work.runIn_ofExcept]
    cases Utf8.decode bytes with
    | error fault => exact ⟨w, rfl, .refl w⟩
    | ok cs =>
      show ∃ w', Work.runIn (_ >>= _) w = _ ∧ _
      rw [pure_bind, Work.runIn_bind, Work.runIn_ofExcept]
      dsimp only
      cases Payload.parse (String.ofList (unifyLineEnds cs)) path.text with
      | error cause => exact ⟨w, rfl, .refl w⟩
      | ok payload => exact ⟨_, rfl, .log w _⟩

theorem collectOperation_runIn (r : Request) (operation : String) (w : World) :
    ∃ w', (collectOperation r operation).runIn w = (collectOn w.disk r operation, w') ∧
      World.Logged w w' := by
  rw [collectOperation, collectOn, Work.runIn_bind, Work.runIn_isFile?]
  cases w.disk.isFile? (typeFile r operation) with
  | error fault => exact ⟨w, rfl, .refl w⟩
  | ok isThere =>
    cases isThere with
    | false => exact ⟨_, rfl, .log w _⟩
    | true =>
      obtain ⟨w₁, hrun, hlog⟩ := readPayload_runIn (typeFile r operation) w
      simp only [Work.answered_ok, if_true]
      rw [Work.runIn_bind, Work.runIn_outcome, hrun]
      cases payloadOn w.disk (typeFile r operation) with
      | ok payload => exact ⟨w₁, rfl, hlog⟩
      | error failure =>
        -- only a type file that does not parse is logged, and renamed
        cases failure with
        | parse cause => exact ⟨_, rfl, hlog.trans (.log w₁ _)⟩
        | _ => exact ⟨w₁, rfl, hlog⟩

/-! ## The whole first phase -/

/-- The log file is none of the type files. -/
def LogApart (r : Request) (w : World) : Prop :=
  ∀ operation ∈ r.operations, ∀ q,
    w.disk.locate .beyond (typeFile r operation) = .ok q → ¬ w.IsLog q

/-- Log records do not change what an operation's type file says. -/
theorem collectOn_logged {r : Request} {w w' : World} (hapart : LogApart r w)
    (hlog : World.Logged w w') {operation : String} (hmem : operation ∈ r.operations) :
    collectOn w'.disk r operation = collectOn w.disk r operation := by
  have hfile := hlog.sameShape.isFile_eq (typeFile r operation)
  have hread := hlog.read_eq (hapart operation hmem)
  rw [collectOn, collectOn, payloadOn, payloadOn, hfile, hread]

theorem collectAll_runIn {r : Request} {w₀ : World} (hapart : LogApart r w₀)
    {operations : List String} (hmem : ∀ o ∈ operations, o ∈ r.operations) {w : World}
    (hlog : World.Logged w₀ w) :
    ∃ w', (operations.mapM fun operation => do
          let payload? ← collectOperation r operation
          return (operation, payload?)).runIn w = (collectAllOn w₀.disk r operations, w') ∧
      World.Logged w₀ w' := by
  -- on the operations; the world changes by log records only
  induction operations generalizing w with
  | nil => exact ⟨w, rfl, hlog⟩
  | cons operation rest ih =>
    obtain ⟨w₁, hrun, hlog₁⟩ := collectOperation_runIn r operation w
    -- what is read now is what the first disk held
    rw [collectOn_logged hapart hlog (hmem operation (by simp))] at hrun
    rw [List.mapM_cons, bind_assoc, Work.runIn_bind, hrun, collectAllOn]
    cases collectOn w₀.disk r operation with
    | error failure => exact ⟨w₁, rfl, hlog.trans hlog₁⟩
    | ok payload? =>
      dsimp only
      obtain ⟨w₂, hrest, hlog₂⟩ := ih (fun o ho => hmem o (by simp [ho])) (hlog.trans hlog₁)
      rw [pure_bind, Work.runIn_bind, hrest]
      cases collectAllOn w₀.disk r rest with
      | error failure => exact ⟨w₂, rfl, hlog₂⟩
      | ok collected => exact ⟨w₂, rfl, hlog₂⟩

/-- **The first phase** comes to what the disk holds, and changes nothing but the
log file. -/
theorem collect_runIn {r : Request} {w₀ w : World}
    (hapart : w₀.disk.isDirectory? r.modulePath = .ok true → LogApart r w₀)
    (hlog : World.Logged w₀ w) :
    ∃ w', (collect r).runIn w = (gatherOn w₀.disk r, w') ∧ World.Logged w₀ w' := by
  have hdirectory : w.disk.isDirectory? r.modulePath = w₀.disk.isDirectory? r.modulePath :=
    hlog.sameShape.isDirectory_eq r.modulePath
  rw [collect, gatherOn, Work.runIn_bind, Work.runIn_isDirectory?, hdirectory]
  cases hthere : w₀.disk.isDirectory? r.modulePath with
  | error fault => exact ⟨w, rfl, hlog⟩
  | ok isThere =>
    cases isThere with
    | false => exact ⟨w, rfl, hlog⟩
    | true => exact collectAll_runIn (hapart hthere) (fun _ ho => ho) hlog

/-! ## The failures of the first phase -/

/-- How a type file fails to give a payload. -/
theorem payloadOn_eq_error {d : Disk} {path : Path} {failure : Failure}
    (h : payloadOn d path = .error failure) :
    (∃ fault, failure = .disk fault ∧ d.read path = .error fault) ∨
      (∃ fault, failure = .undecodable fault) ∨
      ∃ cause bytes cs, failure = .parse cause ∧ d.read path = .ok bytes ∧
        Utf8.decode bytes = .ok cs ∧
        Payload.parse (String.ofList (unifyLineEnds cs)) path.text = .error cause := by
  rw [payloadOn] at h
  split at h
  · rename_i fault hread
    exact .inl ⟨fault, (Except.error.inj h).symm, hread⟩
  · rename_i bytes hread
    split at h
    · exact .inr (.inl ⟨_, (Except.error.inj h).symm⟩)
    · rename_i cs hdecode
      cases hparse : Payload.parse (String.ofList (unifyLineEnds cs)) path.text with
      | ok payload =>
        rw [hparse] at h
        cases h
      | error cause =>
        rw [hparse] at h
        exact .inr (.inr ⟨cause, bytes, cs, (Except.error.inj h).symm, hread, hdecode, hparse⟩)

/-- Only a type file that does not parse is a failure of generation. -/
theorem collectOn_generation {d : Disk} {r : Request} {operation m op : String}
    {cause : Payload.ParseError}
    (h : collectOn d r operation = .error (.generation m op cause)) :
    m = r.moduleName ∧ op = operation ∧ Malformed d r operation cause := by
  rw [collectOn] at h
  split at h
  · simp at h
  · simp at h
  · rename_i hfile
    cases hpayload : payloadOn d (typeFile r operation) with
    | ok payload => simp [hpayload] at h
    | error failure =>
      rcases payloadOn_eq_error hpayload with
        ⟨fault, rfl, -⟩ | ⟨fault, rfl⟩ | ⟨cause', bytes, cs, rfl, hread, hdecode, hparse⟩
      · simp [hpayload] at h
      · simp [hpayload] at h
      · rw [hpayload] at h
        obtain ⟨rfl, rfl, rfl⟩ := Failure.generation.inj (Except.error.inj h)
        exact ⟨rfl, rfl, hfile, bytes, cs, hread, hdecode, hparse⟩

/-- An operation that went through has no malformed type file. -/
theorem not_malformed_of_collectOn {d : Disk} {r : Request} {operation : String}
    {payload? : Option Payload} (h : collectOn d r operation = .ok payload?)
    (cause : Payload.ParseError) : ¬ Malformed d r operation cause := by
  rintro ⟨hfile, bytes, cs, hread, hdecode, hparse⟩
  have hpayload : payloadOn d (typeFile r operation) = .error (.parse cause) := by
    rw [payloadOn, hread]
    simp only [hdecode, hparse]
    rfl
  rw [collectOn, hfile] at h
  simp [hpayload] at h

theorem collectAllOn_eq_error {d : Disk} {r : Request} {operations : List String}
    {failure : Failure} (h : collectAllOn d r operations = .error failure) :
    ∃ before operation after, operations = before ++ operation :: after ∧
      collectOn d r operation = .error failure ∧
      ∀ o ∈ before, ∃ payload?, collectOn d r o = .ok payload? := by
  -- the first failure ends the list; those before it went through
  induction operations with
  | nil => simp [collectAllOn] at h
  | cons operation rest ih =>
    rw [collectAllOn] at h
    split at h
    · rename_i failure' hfirst
      obtain rfl := Except.error.inj h
      exact ⟨[], operation, rest, rfl, hfirst, by simp⟩
    · rename_i payload? hfirst
      cases hrest : collectAllOn d r rest with
      | ok collected => simp [hrest, Except.map] at h
      | error failure' =>
        obtain rfl : failure' = failure := by simpa [hrest, Except.map] using h
        obtain ⟨before, o, after, rfl, ho, hbefore⟩ := ih hrest
        refine ⟨operation :: before, o, after, rfl, ho, fun b hb => ?_⟩
        rcases List.mem_cons.mp hb with rfl | hb
        · exact ⟨payload?, hfirst⟩
        · exact hbefore b hb

/-- A failure comes up after operations that went through. -/
theorem collectAllOn_of_failed {d : Disk} {r : Request} {before after : List String}
    {operation : String} {failure : Failure}
    (hbefore : ∀ o ∈ before, ∃ payload?, collectOn d r o = .ok payload?)
    (hfailed : collectOn d r operation = .error failure) :
    collectAllOn d r (before ++ operation :: after) = .error failure := by
  -- on the operations before it
  induction before with
  | nil => rw [List.nil_append, collectAllOn, hfailed]
  | cons o before ih =>
    obtain ⟨payload?, ho⟩ := hbefore o (by simp)
    rw [List.cons_append, collectAllOn, ho, ih fun o' ho' => hbefore o' (by simp [ho'])]
    rfl

theorem gatherOn_eq_ok {d : Disk} {r : Request} {collected : Collected}
    (h : gatherOn d r = .ok collected) :
    d.isDirectory? r.modulePath = .ok true ∧ collectAllOn d r r.operations = .ok collected := by
  rw [gatherOn] at h
  split at h
  · simp at h
  · simp at h
  · rename_i hthere
    exact ⟨hthere, h⟩

/-- Reading type files is never a conflict. -/
theorem gatherOn_ne_conflict {d : Disk} {r : Request} (path : String) (reason : ConflictReason) :
    gatherOn d r ≠ .error (.conflict path reason) := by
  intro h
  rw [gatherOn] at h
  split at h
  · simp at h
  · simp at h
  · obtain ⟨-, operation, -, -, hfailed, -⟩ := collectAllOn_eq_error h
    rw [collectOn] at hfailed
    split at hfailed
    · simp at hfailed
    · simp at hfailed
    · cases hpayload : payloadOn d (typeFile r operation) with
      | ok payload => simp [hpayload] at hfailed
      | error failure =>
        -- a type file fails in three ways, and none is a conflict
        rcases payloadOn_eq_error hpayload with
          ⟨fault, rfl, -⟩ | ⟨fault, rfl⟩ | ⟨cause, bytes, cs, rfl, -⟩ <;>
          simp [hpayload] at hfailed

/-- **The failure names the first operation whose type file does not parse.** -/
theorem gatherOn_generation {d : Disk} {r : Request} {m op : String} {cause : Payload.ParseError}
    (h : gatherOn d r = .error (.generation m op cause)) :
    m = r.moduleName ∧ ∃ before after, r.operations = before ++ op :: after ∧
      Malformed d r op cause ∧ ∀ o ∈ before, ∀ cause', ¬ Malformed d r o cause' := by
  rw [gatherOn] at h
  split at h
  · simp at h
  · simp at h
  · obtain ⟨before, operation, after, hsplit, hfailed, hbefore⟩ := collectAllOn_eq_error h
    obtain ⟨rfl, rfl, hmalformed⟩ := collectOn_generation hfailed
    refine ⟨rfl, before, after, hsplit, hmalformed, fun o ho cause' => ?_⟩
    obtain ⟨payload?, hpayload⟩ := hbefore o ho
    exact not_malformed_of_collectOn hpayload cause'

end Stencil.Module
