import Stencil.Proofs.Disk.Path
import Stencil.Proofs.Disk.Replace
import Stencil.Proofs.Disk.Site

/-!
# Stencil — what the disk refuses

A request about a path without the null character fails only because the disk
refuses it. What is asked whether it is there may have any path; and a
temporary file beside a file below a site is given no such path.

Main results:

* `isRefusal_of_probe`, `isRefusal_of_makeDirectory` and their like — how a request
  fails;
* `tooLong_of_entryAt` — what is refused for its length where there are no links;
* `Site.isRefusal_of_makeTemporary` — how making a temporary file fails.
-/

namespace Stencil.Disk

variable {d : Disk} {p source target : Path} {fault : Fault}

private theorem isRefusal_of_refused {α : Type} {code : Errno} {path : String}
    (h : (.error (.refused code path) : Except Fault α) = .error fault) :
    fault.isRefusal = true := by
  rw [← Except.error.inj h]
  rfl

private theorem isRefusal_of_refusedPair {α : Type} {code : Errno} {first second : String}
    (h : (.error (.refusedPair code first second) : Except Fault α) = .error fault) :
    fault.isRefusal = true := by
  rw [← Except.error.inj h]
  rfl

/-! ## Questions -/

theorem isRefusal_of_probe (h : d.probe p = .error fault) : fault.isRefusal = true := by
  rw [probe] at h
  split at h
  · simp at h
  · split at h
    · simp at h
    · exact isRefusal_of_refused h
    · simp at h

/-- What is told by looking fails only where the look does. -/
private theorem isRefusal_of_map {f : Option Entry → Bool} (h : (d.probe p).map f = .error fault) :
    fault.isRefusal = true := by
  cases hprobe : d.probe p with
  | error fault' =>
    rw [hprobe] at h
    exact Except.error.inj h ▸ isRefusal_of_probe hprobe
  | ok e =>
    rw [hprobe] at h
    simp [Except.map] at h

theorem isRefusal_of_exists (h : d.exists? p = .error fault) : fault.isRefusal = true :=
  isRefusal_of_map h

theorem isRefusal_of_isFile (h : d.isFile? p = .error fault) : fault.isRefusal = true :=
  isRefusal_of_map h

theorem isRefusal_of_isDirectory (h : d.isDirectory? p = .error fault) : fault.isRefusal = true :=
  isRefusal_of_map h

/-- Nothing is found by a path with the null character. -/
private theorem hasNul_of_map {f : Option Entry → Bool} (hf : f none = false)
    (h : (d.probe p).map f = .ok true) : p.hasNul = false := by
  rw [probe] at h
  cases hnul : p.hasNul with
  | false => rfl
  | true => simp [hnul, Except.map, hf] at h

theorem hasNul_of_exists (h : d.exists? p = .ok true) : p.hasNul = false :=
  hasNul_of_map rfl h

theorem hasNul_of_isFile (h : d.isFile? p = .ok true) : p.hasNul = false :=
  hasNul_of_map rfl h

/-! ## Length -/

/-- Neither a path nor a name in it is too long. -/
def IsShort (p : Path) : Prop :=
  p.text.utf8ByteSize < pathLimit ∧ ∀ x ∈ p.parts, x.utf8ByteSize ≤ nameLimit

/-- Without links, a walk meets a name that is too long only among its own. -/
private theorem tooLong_of_walk {arrival : Arrival} {links : Nat} {q : Place}
    {names : List String} (hlinks : NoLinksBelow d [])
    (h : walk d arrival links q names = .error .nameTooLong) :
    ∃ name ∈ names, nameLimit < name.utf8ByteSize := by
  obtain ⟨follow, hfollow⟩ : ∃ follow, walk d arrival links = walkNames d arrival follow := by
    cases links <;> exact ⟨_, rfl⟩
  rw [hfollow] at h
  induction names generalizing q with
  | nil => simp [walkNames] at h
  | cons name rest ih =>
    have hlater : ∀ {q'}, walkNames d arrival follow q' rest = .error .nameTooLong →
        ∃ other ∈ name :: rest, nameLimit < other.utf8ByteSize := by
      intro q' hrest
      obtain ⟨other, hother, hlong⟩ := ih hrest
      exact ⟨other, List.mem_cons_of_mem name hother, hlong⟩
    rw [walkNames] at h
    split at h
    · simp at h
    · split at h
      · exact hlater h
      split at h
      · exact hlater h
      split at h
      · simp at h
      split at h
      · rename_i hlong
        exact ⟨name, List.mem_cons_self, hlong⟩
      split at h
      · split at h <;> simp at h
      · rename_i target hlink
        exact absurd hlink (hlinks _ target List.nil_suffix)
      · exact hlater h
    · simp at h

/-- **Without links**, a path is refused for its length only if it is too long or a name
in it is. -/
theorem tooLong_of_entryAt (hlinks : NoLinksBelow d [])
    (h : d.entryAt p = .error .nameTooLong) : ¬ IsShort p := by
  rintro ⟨hpath, hnames⟩
  rw [entryAt, locate, if_neg (Nat.not_le.mpr hpath)] at h
  split at h
  · rename_i code hcode
    obtain rfl := Except.error.inj h
    obtain ⟨name, hname, hlong⟩ := tooLong_of_walk hlinks hcode
    exact absurd (hnames name hname) (Nat.not_le.mpr hlong)
  · split at h <;> simp at h

/-- A path is refused for its length if its walk is. -/
theorem locate_tooLong {arrival : Arrival}
    (h : walk d arrival linkLimit (d.start p) p.parts = .error .nameTooLong) :
    d.locate arrival p = .error .nameTooLong := by
  rw [locate]
  split
  · rfl
  · exact h

/-- A name of so many letters. -/
def longName (n : Nat) : String :=
  String.ofList (List.replicate n 'x')

section LongName

variable {n links : Nat} {q : Place} {rest : List String} {mode : Nat}

theorem utf8ByteSize_longName (n : Nat) : (longName n).utf8ByteSize = n := by
  induction n with
  | zero => rfl
  | succ n ih =>
    have hletter : 'x'.utf8Size = 1 := by decide
    rw [longName, List.replicate_succ, String.ofList_cons, String.utf8ByteSize_append,
      String.utf8ByteSize_singleton, ← longName, ih, hletter]
    omega

theorem notMem_longName {c : Char} (h : c ≠ 'x') : c ∉ (longName n).toList := by
  rw [longName, String.toList_ofList]
  exact fun hmem => h (List.eq_of_mem_replicate hmem)

theorem pieces_longName : Text.pieces '/' (longName n).toList = [(longName n).toList] :=
  Text.pieces_of_notMem (notMem_longName (by decide))

variable (hlong : nameLimit < n)
include hlong

theorem longName_ne {text : String} (h : text.utf8ByteSize ≤ nameLimit) : longName n ≠ text := by
  rintro rfl
  rw [utf8ByteSize_longName] at h
  exact absurd hlong (Nat.not_lt.mpr h)

theorem ofText_longName : Path.ofText (longName n) = ⟨.here, [longName n]⟩ :=
  Path.ofText_name (notMem_longName (by decide)) (longName_ne hlong (by decide))
    (longName_ne hlong (by decide))

theorem stepsOf_longName : stepsOf (longName n) = [longName n] := by
  simp [stepsOf, ofText_longName hlong, pieces_longName, Path.isAbsolute]

/-- A walk does not get past a name that is too long. -/
theorem walk_longName (hdir : d.look q = some (.directory mode)) :
    walk d .beyond links q (longName n :: rest) = .error .nameTooLong :=
  walk_tooLong hdir (longName_ne hlong (by decide))
    (not_or.mpr ⟨longName_ne hlong (by decide), longName_ne hlong (by decide)⟩) (by decide)
    (by rw [utf8ByteSize_longName]; exact hlong)

/-- Nor past a link to it. -/
theorem walk_link_longName {name : String} (hdir : d.look q = some (.directory mode))
    (hname : Passable .beyond name rest)
    (hlink : d.look (name :: q) = some (.link (longName n))) :
    walk d .beyond (links + 1) q (name :: rest) = .error .nameTooLong := by
  have hnames : linkNames (longName n) = [longName n] := by
    have hdot : (longName n).toList ≠ ['.'] := by
      intro h
      have hmem : '.' ∉ (longName n).toList := notMem_longName (by decide)
      simp [h] at hmem
    have hempty : (longName n).toList ≠ [] := by
      simpa using longName_ne hlong (by decide : "".utf8ByteSize ≤ nameLimit)
    simp [linkNames, pieces_longName, ofText_longName hlong, hdot, hempty]
  rw [walk_follow hdir hname hlink (by simp), ofText_longName hlong, hnames]
  exact walk_longName hlong hdir

end LongName

/-! ## Requests that need a path -/

section Named

variable (hnul : p.hasNul = false)
include hnul

theorem isRefusal_of_read (h : d.read p = .error fault) : fault.isRefusal = true := by
  rw [read, hnul] at h
  simp only [Bool.false_eq_true, if_false] at h
  split at h
  · simp at h
  all_goals exact isRefusal_of_refused h

theorem isRefusal_of_modeAt (h : d.modeAt p = .error fault) : fault.isRefusal = true := by
  rw [modeAt, hnul] at h
  simp only [Bool.false_eq_true, if_false] at h
  split at h
  · simp at h
  · exact isRefusal_of_refused h

theorem isRefusal_of_makeDirectory (h : d.makeDirectory p = .error fault) :
    fault.isRefusal = true := by
  rw [makeDirectory, hnul] at h
  simp only [Bool.false_eq_true, if_false] at h
  split at h
  · exact isRefusal_of_refused h
  · split at h
    · exact isRefusal_of_refused h
    · simp at h

theorem isRefusal_of_setMode {mode : Nat} (h : d.setMode p mode = .error fault) :
    fault.isRefusal = true := by
  rw [setMode, hnul] at h
  simp only [Bool.false_eq_true, if_false] at h
  split at h
  · exact isRefusal_of_refused h
  · split at h
    · simp at h
    · simp at h
    all_goals exact isRefusal_of_refused h

theorem isRefusal_of_remove (h : d.remove p = .error fault) : fault.isRefusal = true := by
  rw [remove, hnul] at h
  simp only [Bool.false_eq_true, if_false] at h
  split at h
  · exact isRefusal_of_refused h
  · split at h
    · exact isRefusal_of_refused h
    · exact isRefusal_of_refused h
    · simp at h

end Named

theorem isRefusal_of_fill {content : List UInt8} (h : d.fill p content = .error fault) :
    fault.isRefusal = true := by
  rw [fill, changeFile] at h
  split at h
  · exact isRefusal_of_refused h
  · split at h
    · simp at h
    all_goals exact isRefusal_of_refused h

theorem isRefusal_of_rename (hsource : source.hasNul = false) (htarget : target.hasNul = false)
    (h : d.rename source target = .error fault) : fault.isRefusal = true := by
  rw [rename, hsource, htarget] at h
  simp only [Bool.or_false, Bool.false_eq_true, if_false] at h
  -- every guard but the one for the null character is a refusal of both paths
  split at h
  · exact isRefusal_of_refusedPair h
  · exact isRefusal_of_refusedPair h
  · split at h
    · exact isRefusal_of_refusedPair h
    · split at h
      · exact isRefusal_of_refusedPair h
      · exact isRefusal_of_refusedPair h
      · simp at h

/-! ## Temporary files -/

private theorem noNul_freshPart (n : Nat) : '\x00' ∉ (freshPart n).toList := by
  rw [freshPart, String.toList_ofList, List.mem_append]
  rintro (hstar | hdigit)
  · exact absurd (List.eq_of_mem_replicate hstar) (by decide)
  · split at hdigit
    · simp at hdigit
    · exact absurd (Nat.isDigit_of_mem_toDigits (by decide) (by decide) hdigit) (by decide)

theorem noNul_temporaryName {name : String} (h : '\x00' ∉ name.toList) (n : Nat) :
    '\x00' ∉ (temporaryName name n).toList := by
  simp only [temporaryName, String.toList_append, List.mem_append]
  rintro ((((h' | h') | h') | h') | h')
  · exact absurd h' (by decide)
  · exact h h'
  · exact absurd h' (by decide)
  · exact noNul_freshPart n h'
  · exact absurd h' (by decide)

/-- **Making a temporary file** below a site fails only because the disk refuses. -/
theorem Site.isRefusal_of_makeTemporary {base : Path} {top : Place} {names : List String}
    {last : String} (h : Site d base top) (hplain : ∀ x ∈ names, IsName x)
    (hnames : ∀ x ∈ names, '\x00' ∉ x.toList) (hlast : '\x00' ∉ last.toList)
    (hfault : d.makeTemporary (pathBelow base (names ++ [last])) = .error fault) :
    fault.isRefusal = true := by
  obtain ⟨n, hn, -, -⟩ := temporaryPath_spec d (pathBelow base (names ++ [last]))
  have hnul : (d.temporaryPath (pathBelow base (names ++ [last]))).hasNul = false := by
    obtain ⟨anchor, -, hcandidate⟩ := h.candidate_eq hplain last n
    rw [hn, hcandidate, Path.hasNul_eq_false_iff]
    intro part hpart
    simp only [List.mem_append, List.mem_reverse, List.mem_singleton] at hpart
    rcases hpart with hpart | hpart | rfl
    · exact (h.named part hpart).noNul
    · exact hnames part hpart
    · exact noNul_temporaryName hlast n
  rw [makeTemporary, hnul] at hfault
  simp only [Bool.false_eq_true, if_false] at hfault
  split at hfault
  · exact isRefusal_of_refused hfault
  · simp at hfault

end Stencil.Disk
