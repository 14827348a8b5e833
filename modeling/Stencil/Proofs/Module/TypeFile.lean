import Stencil.Proofs.Module.Beside
import Stencil.Proofs.Module.Scaffold

/-!
# Stencil — scaffolding one type file

An author edits type files by hand, and so scaffolding keeps one that is there and
creates one that is not; only with force it replaces what is there. What is due for an
operation can be told by the disk before anything is written. The type files lie in one
directory under different names, so that a file that is written makes no difference to
what is due for the other operations.

Main results:

* `scaffoldOperation_ends` — how scaffolding an operation may end;
* `ScaffoldEnds.spares` — however it ends, what there was is spared;
* `ScaffoldEnds.settled` — what it has come to for the operation, and for the others;
* `scaffoldOperation_dry`, `scaffoldOperation_due` — a dry run changes nothing and says
  what is due.
-/

namespace Stencil.Module

open Stencil.Disk Stencil.Naming Stencil.Source Stencil.Text Stencil.Work

variable {r : Request} {operation : String} {isForced : Bool} {f : WrittenFile} {path : Path}
  {text : String} {d : Disk} {w w' w'' : World}

/-! ## Texts that are read -/

/-- A path leads to a file with this text. -/
def Reads (d : Disk) (path : Path) (text : String) : Prop :=
  ∃ bytes cs, d.read path = .ok bytes ∧ Utf8.decode bytes = .ok cs ∧
    text = String.ofList (unifyLineEnds cs)

theorem Reads.exists? (h : Reads d path text) : d.exists? path = .ok true := by
  obtain ⟨bytes, cs, hread, -⟩ := h
  obtain ⟨hnul, mode, hentry⟩ := read_eq_ok_iff.mp hread
  exact exists_of_entryAt hnul hentry

theorem Reads.beside (h : Reads w.disk path text) (hbeside : Beside path w w') :
    Reads w'.disk path text := by
  obtain ⟨bytes, cs, hread, hdecode⟩ := h
  exact ⟨bytes, cs, (hbeside.read_iff bytes).mpr hread, hdecode⟩

theorem Reads.back (h : Reads w'.disk path text) (hbeside : Beside path w w') :
    Reads w.disk path text := by
  obtain ⟨bytes, cs, hread, hdecode⟩ := h
  exact ⟨bytes, cs, (hbeside.read_iff bytes).mp hread, hdecode⟩

theorem readText_mayEnd {result : Except Failure String}
    (h : (Work.readText path).MayEnd w result w') :
    w' = w ∧ ∀ text, result = .ok text → Reads w.disk path text := by
  rw [Work.readText] at h
  rcases mayEnd_bind.mp h with ⟨bytes, w₁, hread, hrest⟩ | ⟨failure, hread, rfl⟩
  · have hrun := (Refusable.read path).of_ok hread
    rw [runIn_read] at hrun
    obtain ⟨hanswer, rfl⟩ := Prod.mk.inj hrun
    rcases mayEnd_bind.mp hrest with ⟨cs, w₂, hdecode, hdone⟩ | ⟨failure, hdecode, rfl⟩
    · obtain ⟨hcs, rfl⟩ := mayEnd_ofExcept.mp hdecode
      obtain ⟨rfl, rfl⟩ := mayEnd_pure.mp hdone
      refine ⟨rfl, fun text htext => ⟨bytes, cs, mapError_eq_ok.mp hanswer,
        mapError_eq_ok.mp hcs.symm, (Except.ok.inj htext).symm⟩⟩
    · exact ⟨(mayEnd_ofExcept.mp hdecode).2, by simp⟩
  · exact ⟨(Refusable.read path).of_error hread, by simp⟩

theorem readText_runIn (h : Reads w.disk path text) :
    (Work.readText path).runIn w = (.ok text, w) := by
  obtain ⟨bytes, cs, hread, hdecode, rfl⟩ := h
  rw [Work.readText, runIn_bind, runIn_read, hread, answered_ok]
  simp only
  rw [runIn_bind, runIn_ofExcept, hdecode]
  rfl

/-- A stub is read as it was written. -/
theorem reads_stub (hr : r.Valid) (hoperation : operation ∈ r.operations)
    (h : d.read path = .ok (bytesOf (stubFile r operation).content)) :
    Reads d path (stubFile r operation).content := by
  -- reading makes line feeds of carriage returns, so a stub must not have any
  have hreturn : '\r' ∉ operation.toList := by
    intro hmem
    rcases char_of_isDeclarable (hr.declarable operation hoperation) '\r' hmem with h | h
    · exact absurd h (by decide)
    · exact absurd h (by decide)
  obtain ⟨hgiven, hclass⟩ := notMem_moduleNames (.inr rfl) hr.nameChars
  have hstub : '\r' ∉ (stubFile r operation).content.toList :=
    notMem_typeStub hreturn hgiven hclass
  refine ⟨_, _, h, Utf8.decode_encode _, ?_⟩
  have hunified := unifyLineEnds_append hstub []
  rw [show unifyLineEnds [] = [] from rfl, List.append_nil] at hunified
  rw [hunified, String.ofList_toList]

/-! ## One operation -/

/-- What is due for an operation, by the disk: a stub if there is no type file, and
otherwise the file as it is, or a stub in place of it. -/
inductive Due (d : Disk) (r : Request) (isForced : Bool) (operation : String) :
    WrittenFile → Prop
  | created (hmissing : d.exists? (typeFile r operation) = .ok false) :
      Due d r isForced operation (stubFile r operation)
  | kept {text : String} (hforce : isForced = false)
      (hreads : Reads d (typeFile r operation) text) :
      Due d r isForced operation ⟨typeFile r operation, text, operation, .types, .skipped⟩
  | replaced {bytes : List UInt8} (hforce : isForced = true)
      (hread : d.read (typeFile r operation) = .ok bytes) :
      Due d r isForced operation { stubFile r operation with action := .replaced }

/-- The ways in which scaffolding an operation may end. -/
inductive ScaffoldEnds (r : Request) (isForced : Bool) (operation : String) (w : World) :
    Except Failure WrittenFile → World → Prop
  | failed {failure : Failure} {w' : World}
      (h : World.Logged w w' ∨ Paved (typeFile r operation).parent w.disk w'.disk) :
      ScaffoldEnds r isForced operation w (.error failure) w'
  | kept {text : String} {w' : World} (hforce : isForced = false) (hlogged : World.Logged w w')
      (hreads : Reads w'.disk (typeFile r operation) text) :
      ScaffoldEnds r isForced operation w
        (.ok ⟨typeFile r operation, text, operation, .types, .skipped⟩) w'
  | written {isThere : Bool} {mode : Nat} {p : Place} {between w₁ w' : World}
      (hthere : w.disk.exists? (typeFile r operation) = .ok isThere)
      (hforce : isThere = true → isForced = true)
      (hstored : Stored (typeFile r operation) (bytesOf (stubFile r operation).content) mode p w
        between w₁)
      (hlogged : World.Logged w₁ w') :
      ScaffoldEnds r isForced operation w
        (.ok { stubFile r operation with action := if isThere then .replaced else .created }) w'

/-- A type file that is kept is read. -/
theorem keepTypeFile_mayEnd {result : Except Failure String}
    (h : (keepTypeFile path).MayEnd w result w') :
    World.Logged w w' ∧ ∀ text, result = .ok text → Reads w'.disk path text := by
  rw [keepTypeFile] at h
  rcases mayEnd_bind.mp h with ⟨_, w₁, hlog, hread⟩ | ⟨failure, hlog, rfl⟩
  · obtain ⟨-, rfl⟩ := mayEnd_log.mp hlog
    obtain ⟨rfl, hreads⟩ := readText_mayEnd hread
    exact ⟨.log w _, hreads⟩
  · exact absurd (mayEnd_log.mp hlog).1 (by simp)

/-- A stub that is not only reported is written. -/
theorem writeStub_mayEnd {action : Action} {result : Except Failure String}
    (hr : r.Valid) (hoperation : operation ∈ r.operations) (hreal : r.isDryRun = false)
    (h : (writeStub r operation action).MayEnd w result w') :
    (∃ mode p between w₁, Stored (typeFile r operation) (bytesOf (stubFile r operation).content)
        mode p w between w₁ ∧ World.Logged w₁ w' ∧
        result = .ok (stubFile r operation).content) ∨
      (∃ failure, result = .error failure) ∧
        Paved (typeFile r operation).parent w.disk w'.disk := by
  have hslash := slashFree_of_mem_operations hr hoperation
  have hname : EndsInName (typeFile r operation) := by
    rw [typeFile_eq_child hr hslash]
    exact endsInName_child (isName_operationFile hr hslash)
  rw [writeStub, hreal] at h
  rcases mayEnd_bind.mp h with ⟨_, w₁, hwrite, hrest⟩ | ⟨failure, hwrite, rfl⟩
  · rcases atomicWrite_ends (fun _ => hname) hwrite with
      ⟨mode, p, between, hstored, -⟩ | ⟨⟨failure, hfailure⟩, -⟩
    · rcases mayEnd_bind.mp hrest with ⟨_, w₂, hlog, hdone⟩ | ⟨failure, hlog, -⟩
      · obtain ⟨-, rfl⟩ := mayEnd_log.mp hlog
        obtain ⟨rfl, rfl⟩ := mayEnd_pure.mp hdone
        exact .inl ⟨mode, p, between, w₁, hstored, .log w₁ _, rfl⟩
      · exact absurd (mayEnd_log.mp hlog).1 (by simp)
    · simp at hfailure
  · rcases atomicWrite_ends (fun _ => hname) hwrite with
      ⟨mode, p, between, -, hok⟩ | ⟨-, hpaved⟩
    · simp at hok
    · exact .inr ⟨⟨failure, rfl⟩, hpaved⟩

/-- **Scaffolding an operation**: its type file is kept or written, or the disk refuses
something. -/
theorem scaffoldOperation_ends {result : Except Failure WrittenFile} (hr : r.Valid)
    (hoperation : operation ∈ r.operations) (hreal : r.isDryRun = false)
    (h : (scaffoldOperation r isForced operation).MayEnd w result w') :
    ScaffoldEnds r isForced operation w result w' := by
  rw [scaffoldOperation] at h
  rcases mayEnd_bind.mp h with ⟨isThere, w₁, hlook, hrest⟩ | ⟨failure, hlook, rfl⟩
  · obtain ⟨rfl, hanswer⟩ := mayEnd_exists? hlook
    have hthere := hanswer isThere rfl
    simp only at hrest
    split at hrest
    · -- there is a file, and it is not forced
      rename_i hkept
      have hforce : isForced = false := by simpa using (Bool.and_eq_true_iff.mp hkept).2
      rcases mayEnd_bind.mp hrest with ⟨text, w₂, hkeep, hdone⟩ | ⟨failure, hkeep, rfl⟩
      · obtain ⟨rfl, rfl⟩ := mayEnd_pure.mp hdone
        obtain ⟨hlogged, hreads⟩ := keepTypeFile_mayEnd hkeep
        exact .kept hforce hlogged (hreads text rfl)
      · exact .failed (.inl (keepTypeFile_mayEnd hkeep).1)
    · rename_i hwritten
      have hforce : isThere = true → isForced = true := by
        rintro rfl
        simpa using hwritten
      rcases mayEnd_bind.mp hrest with ⟨text, w₂, hwrite, hdone⟩ | ⟨failure, hwrite, rfl⟩
      · obtain ⟨rfl, rfl⟩ := mayEnd_pure.mp hdone
        rcases writeStub_mayEnd hr hoperation hreal hwrite with
          ⟨mode, p, between, w₂, hstored, hlogged, htext⟩ | ⟨⟨failure, hfailure⟩, -⟩
        · obtain rfl := Except.ok.inj htext
          exact .written hthere hforce hstored hlogged
        · simp at hfailure
      · rcases writeStub_mayEnd hr hoperation hreal hwrite with
          ⟨mode, p, between, w₂, -, -, htext⟩ | ⟨-, hpaved⟩
        · simp at htext
        · exact .failed (.inr hpaved)
  · obtain rfl := (mayEnd_exists? hlook).1
    exact .failed (.inl (.refl w'))

/-! ## What it has come to -/

/-- What there was is as it was, apart from the log file. -/
def Spares (w w' : World) : Prop :=
  ∀ q, (w.disk.look q).isSome → ¬ w.IsLog q → w'.disk.look q = w.disk.look q

theorem Spares.of_logged (h : World.Logged w w') : Spares w w' :=
  fun q _ hlog => h.other q hlog

theorem Spares.of_paved (h : Paved path w.disk w'.disk) : Spares w w' := by
  intro q hq _
  rcases h.look q with heq | ⟨hnone, -⟩
  · exact heq
  · simp [hnone] at hq

/-- Files that take the place of nothing spare what there was. -/
theorem Spares.of_reached {S : Place → Prop} (h : Reached S w w')
    (hfree : ∀ q, S q → w.disk.look q = none) : Spares w w' := by
  intro q hq _
  have hplace : ¬ S q := by
    intro hS
    simp [hfree q hS] at hq
  rcases h.grown.outside q hplace with heq | ⟨hnone, -⟩
  · exact heq
  · simp [hnone] at hq

theorem Spares.trans (h : Spares w w') (hlog : ∀ q, w'.IsLog q → w.IsLog q)
    (h' : Spares w' w'') : Spares w w'' := by
  intro q hq hplace
  have hsame := h q hq hplace
  rw [h' q (by rwa [hsame]) (fun hq' => hplace (hlog q hq')), hsame]

/-- What is said of a type file is so. -/
structure Held (w : World) (f : WrittenFile) : Prop where
  unlogged : Unlogged w f.path
  reads : Reads w.disk f.path f.content
  written : f.action ≠ .skipped → w.disk.read f.path = .ok (bytesOf f.content)

theorem Held.beside (h : Held w f) (hbeside : Beside f.path w w') : Held w' f :=
  ⟨hbeside.unlogged, h.reads.beside hbeside,
    fun haction => (hbeside.read_iff _).mpr (h.written haction)⟩

theorem Due.path_eq (h : Due d r isForced operation f) : f.path = typeFile r operation := by
  cases h <;> rfl

/-- What is due once other files have been written was due before. -/
theorem Due.back (h : Due w'.disk r isForced operation f)
    (hbeside : Beside (typeFile r operation) w w') : Due w.disk r isForced operation f := by
  cases h with
  | created hmissing => exact .created (hbeside.missing hmissing)
  | kept hforce hreads => exact .kept hforce (hreads.back hbeside)
  | replaced hforce hread => exact .replaced hforce ((hbeside.read_iff _).mp hread)

/-- What scaffolding an operation has come to, if it succeeded. -/
structure Settled (r : Request) (isForced : Bool) (operation : String) (f : WrittenFile)
    (w w' : World) : Prop where
  due : Due w.disk r isForced operation f
  held : Held w' f
  ready : Ready (typesPath r) w'
  isLog : ∀ q, w'.IsLog q → w.IsLog q
  beside : ∀ operation' ∈ r.operations, operation' ≠ operation →
    Unlogged w (typeFile r operation') → Beside (typeFile r operation') w w'

/-- **A file that was kept or written** makes no difference to the other type files. -/
theorem ScaffoldEnds.settled (hr : r.Valid) (hoperation : operation ∈ r.operations)
    (hready : Ready (typesPath r) w) (hunlogged : Unlogged w (typeFile r operation))
    (h : ScaffoldEnds r isForced operation w (.ok f) w') :
    Settled r isForced operation f w w' := by
  have hslash := slashFree_of_mem_operations hr hoperation
  cases h with
  | kept hforce hlogged hreads =>
    have hback : Beside (typeFile r operation) w w' := .of_logged hunlogged hlogged
    exact ⟨.kept hforce (hreads.back hback), ⟨hback.unlogged, hreads, by simp⟩,
      hready.logged hlogged, fun q hq => hlogged.isLog_iff.mp hq,
      fun operation' _ _ hunlogged' => .of_logged hunlogged' hlogged⟩
  | @written isThere mode p between w₁ w' hthere hforce hstored hlogged =>
    have hpath := typeFile_eq_child hr hslash
    rw [hpath] at hstored
    obtain ⟨place, rfl, hin⟩ := StoredIn.of_stored hready (isName_operationFile hr hslash) hstored
    have hplaced := hin.placed
    rw [← hpath] at hplaced
    have hkeep : Beside (typeFile r operation) w₁ w' :=
      .of_logged hplaced.unlogged_path hlogged
    refine ⟨?_, ⟨hkeep.unlogged, (reads_stub hr hoperation hplaced.holds).beside hkeep,
      fun _ => (hkeep.read_iff _).mpr hplaced.holds⟩, hin.ready.logged hlogged,
      fun q hq => hplaced.reached.isLog q (hlogged.isLog_iff.mp hq), ?_⟩
    · -- what was there without links is a file, so it could have been read
      cases isThere with
      | false => exact .created hthere
      | true =>
        obtain ⟨old, hread⟩ := hin.there (hpath ▸ hthere)
        rw [← hpath] at hread
        exact .replaced (hforce rfl) hread
    · intro operation' hoperation' hne hunlogged'
      have hslash' := slashFree_of_mem_operations hr hoperation'
      rw [typeFile_eq_child hr hslash'] at hunlogged' ⊢
      have hbeside := hin.beside (isName_operationFile hr hslash')
        (fun hsame => hne (operationFile_inj hsame)) hunlogged'
      exact hbeside.trans (.of_logged hbeside.unlogged hlogged)

/-- **However scaffolding an operation ends**, what there was is spared. -/
theorem ScaffoldEnds.spares {result : Except Failure WrittenFile} (hr : r.Valid)
    (hoperation : operation ∈ r.operations) (hready : Ready (typesPath r) w)
    (h : ScaffoldEnds r false operation w result w') : Spares w w' := by
  have hslash := slashFree_of_mem_operations hr hoperation
  cases h with
  | failed h => exact h.elim .of_logged .of_paved
  | kept _ hlogged _ => exact .of_logged hlogged
  | @written isThere mode p between w₁ w' hthere hforce hstored hlogged =>
    rw [typeFile_eq_child hr hslash] at hstored hthere
    obtain ⟨place, rfl, hin⟩ := StoredIn.of_stored hready (isName_operationFile hr hslash) hstored
    -- without force only a missing file is written
    have hmissing : isThere = false := by
      by_contra hsome
      simpa using hforce (by simpa using hsome)
    rw [hmissing] at hthere
    have hfree := hin.fresh hthere
    refine Spares.trans (.of_reached hin.placed.reached ?_) hin.placed.reached.isLog
      (.of_logged hlogged)
    rintro q rfl
    exact hfree

/-! ## What is told beforehand -/

/-- In a dry run a stub is only reported. -/
theorem writeStub_dry {action : Action} {result : Except Failure String}
    (hdry : r.isDryRun = true) (h : (writeStub r operation action).MayEnd w result w') :
    result = .ok (stubFile r operation).content ∧ World.Logged w w' := by
  rw [writeStub, hdry] at h
  rcases mayEnd_bind.mp h with ⟨_, w₁, hlog, hdone⟩ | ⟨failure, hlog, -⟩
  · obtain ⟨-, rfl⟩ := mayEnd_log.mp hlog
    obtain ⟨rfl, rfl⟩ := mayEnd_pure.mp hdone
    exact ⟨rfl, .log w _⟩
  · exact absurd (mayEnd_log.mp hlog).1 (by simp)

/-- **A dry run changes nothing**, whatever is refused. -/
theorem scaffoldOperation_dry {result : Except Failure WrittenFile} (hdry : r.isDryRun = true)
    (h : (scaffoldOperation r isForced operation).MayEnd w result w') : World.Logged w w' := by
  rw [scaffoldOperation] at h
  rcases mayEnd_bind.mp h with ⟨isThere, w₁, hlook, hrest⟩ | ⟨failure, hlook, rfl⟩
  · obtain ⟨rfl, -⟩ := mayEnd_exists? hlook
    simp only at hrest
    split at hrest
    · rcases mayEnd_bind.mp hrest with ⟨text, w₂, hkeep, hdone⟩ | ⟨failure, hkeep, rfl⟩
      · obtain ⟨-, rfl⟩ := mayEnd_pure.mp hdone
        exact (keepTypeFile_mayEnd hkeep).1
      · exact (keepTypeFile_mayEnd hkeep).1
    · rcases mayEnd_bind.mp hrest with ⟨text, w₂, hreport, hdone⟩ | ⟨failure, hreport, rfl⟩
      · obtain ⟨-, rfl⟩ := mayEnd_pure.mp hdone
        exact (writeStub_dry hdry hreport).2
      · exact (writeStub_dry hdry hreport).2
  · obtain rfl := (mayEnd_exists? hlook).1
    exact .refl w'

/-- **What is due for an operation** is what is reported of it, if nothing is written. -/
theorem scaffoldOperation_due (h : Due w.disk r isForced operation f)
    (hunlogged : Unlogged w (typeFile r operation))
    (hquiet : r.isDryRun = true ∨ f.action = .skipped) (hlogged : World.Logged w w') :
    ∃ w'', (scaffoldOperation r isForced operation).runIn w' = (.ok f, w'') ∧
      World.Logged w w'' := by
  have hexists := hlogged.sameShape.exists_eq (typeFile r operation)
  rw [scaffoldOperation, runIn_bind, runIn_exists?]
  cases h with
  | created hmissing =>
    obtain ⟨hreport, hlogged₁⟩ := writeStub_dry (hquiet.resolve_right (by simp [stubFile]))
      (mayEnd_runIn (writeStub r operation .created) w')
    rw [hexists, hmissing, answered_ok]
    simp only [Bool.false_and, Bool.false_eq_true, if_false]
    rw [runIn_bind_of_ok (Prod.ext hreport rfl)]
    exact ⟨_, rfl, hlogged.trans hlogged₁⟩
  | @kept text hforce hreads =>
    -- the record comes before the file is read
    have hreads' : Reads (w'.log ⟨.info, .scaffolding,
        "Keeping existing type file " ++ (typeFile r operation).text⟩).disk
          (typeFile r operation) text :=
      hreads.beside (.of_logged hunlogged (hlogged.trans (.log w' _)))
    rw [hexists, hreads.exists?, answered_ok, hforce]
    simp only [Bool.not_false, Bool.and_self, if_true]
    rw [keepTypeFile, bind_assoc, runIn_bind_of_ok (runIn_log ..),
      runIn_bind_of_ok (readText_runIn hreads')]
    exact ⟨_, rfl, hlogged.trans (.log w' _)⟩
  | @replaced bytes hforce hread =>
    obtain ⟨hreport, hlogged₁⟩ := writeStub_dry (hquiet.resolve_right (by simp))
      (mayEnd_runIn (writeStub r operation .replaced) w')
    obtain ⟨hnul, mode, hentry⟩ := read_eq_ok_iff.mp hread
    rw [hexists, exists_of_entryAt hnul hentry, answered_ok, hforce]
    simp only [Bool.not_true, Bool.and_false, Bool.false_eq_true, if_false, if_true]
    rw [runIn_bind_of_ok (Prod.ext hreport rfl)]
    exact ⟨_, rfl, hlogged.trans hlogged₁⟩

/-- The same is due for a dry run. -/
theorem Due.dryRun (h : Due d r isForced operation f) (isDryRun : Bool) :
    Due d { r with isDryRun } isForced operation f := by
  cases h with
  | created hmissing => exact .created hmissing
  | kept hforce hreads => exact .kept hforce hreads
  | replaced hforce hread => exact .replaced hforce hread

/-- A file that was kept or written is to be kept the next time. -/
theorem Due.again (h : Due d r isForced operation f) (hheld : Held w f) :
    Due w.disk r false operation { f with action := .skipped } := by
  -- whatever was done, the file has the text that was said of it
  cases h <;> exact .kept rfl hheld.reads

end Stencil.Module
