import Stencil.Proofs.Disk.Walk

/-!
# Stencil — temporary files

A temporary file is made at the first candidate that is not taken. All
candidates lie in one directory under names of their own, and there are more
of them than entries on the disk: one is always free. Which one it is depends
on what is taken only.

Main results:

* `temporaryPath_spec`, `temporaryPath_eq` — the temporary path is the first free
  candidate;
* `makeTemporary_eq_ok_iff` — a temporary file takes the place of nothing;
* `exists_makeTemporary` — where there was room for one there still is.
-/

namespace Stencil.Disk

/-! ## Names -/

private theorem digits_inj {m n : Nat} (h : Nat.toDigits 10 m = Nat.toDigits 10 n) : m = n := by
  have hvalue := congrArg (Nat.ofDigitChars 10 · 0) h
  simpa [Nat.ofDigitChars_ten_toDigits] using hvalue

/-- The digits that fill up a number without stars. -/
private def freshDigits (n : Nat) : List Char :=
  if n = 0 then [] else Nat.toDigits 10 n

private theorem freshDigits_inj {m n : Nat} (h : freshDigits m = freshDigits n) : m = n := by
  rw [freshDigits, freshDigits] at h
  -- zero has no digits, every other number has some
  split at h <;> split at h
  · omega
  · exact (Nat.toDigits_ne_nil h.symm).elim
  · exact (Nat.toDigits_ne_nil h).elim
  · exact digits_inj h

/-- No digit is a star. -/
private theorem dropWhile_star (n k : Nat) :
    (List.replicate k '*' ++ freshDigits n).dropWhile (· = '*') = freshDigits n := by
  induction k with
  | zero =>
    rw [List.replicate_zero, List.nil_append]
    -- the digits end the run of stars
    have hstar : ∀ c ∈ freshDigits n, c ≠ '*' := by
      intro c hc hstar
      rw [freshDigits] at hc
      split at hc
      · simp at hc
      · have := Nat.isDigit_of_mem_toDigits (by decide) (by decide) hc
        rw [hstar] at this
        exact absurd this (by decide)
    cases hdigits : freshDigits n with
    | nil => rfl
    | cons c rest =>
      rw [hdigits] at hstar
      simp [hstar c]
  | succ k ih =>
    rw [List.replicate_succ, List.cons_append, List.dropWhile_cons_of_pos (by simp), ih]

theorem freshPart_inj {m n : Nat} (h : freshPart m = freshPart n) : m = n := by
  -- the stars in front only fill up the width
  have hchars : (freshPart m).toList.dropWhile (· = '*') =
      (freshPart n).toList.dropWhile (· = '*') := by rw [h]
  simp only [freshPart, String.toList_ofList] at hchars
  exact freshDigits_inj ((dropWhile_star m _).symm.trans (hchars.trans (dropWhile_star n _)))

theorem temporaryName_inj {name : String} {m n : Nat}
    (h : temporaryName name m = temporaryName name n) : m = n := by
  apply freshPart_inj
  rw [temporaryName, temporaryName] at h
  exact String.toList_inj.mp (by simpa using congrArg String.toList h)

theorem length_temporaryName (name : String) (n : Nat) :
    name.length + 6 ≤ (temporaryName name n).length := by
  -- the dots and the suffix count, the fresh part need not
  simp only [temporaryName, String.length_append]
  show name.length + 6 ≤ 1 + name.length + 1 + (freshPart n).length + 4
  omega

theorem isName_temporaryName (name : String) (n : Nat) : IsName (temporaryName name n) := by
  have hlength := length_temporaryName name n
  -- the three other kinds of name are shorter
  refine ⟨?_, ?_, ?_⟩ <;> intro h <;> rw [h] at hlength
  · exact absurd hlength (by show ¬ name.length + 6 ≤ 2; omega)
  · exact absurd hlength (by show ¬ name.length + 6 ≤ 1; omega)
  · exact absurd hlength (by show ¬ name.length + 6 ≤ 1; omega)

theorem temporaryName_ne (name : String) (n : Nat) : temporaryName name n ≠ name := by
  intro h
  have hlength := length_temporaryName name n
  rw [h] at hlength
  omega

/-! ## Candidates -/

/-- The path of a temporary file with this number. -/
def candidate (d : Disk) (p : Path) (n : Nat) : Path :=
  (d.absolute p.parent).child (temporaryName p.name n)

/-- Something lies at the path. -/
def Taken (d : Disk) (p : Path) : Prop :=
  ∃ place, d.locate .atLink p = .ok place ∧ (d.look place).isSome

/-- All candidates lie in one directory, under their own names. -/
theorem locate_candidate {d : Disk} {p : Path} {n : Nat} {place : Place}
    (h : d.locate .atLink (d.candidate p n) = .ok place) :
    ∃ r, place = temporaryName p.name n :: r ∧
      walk d .beyond linkLimit (d.start (d.absolute p.parent)) (d.absolute p.parent).parts =
        .ok r := by
  obtain ⟨-, hwalk⟩ := locate_eq_ok_iff.mp h
  -- the walk to the directory does not depend on the number
  obtain ⟨r, mode, hplace, hr, -⟩ := Walks.concat hwalk (isName_temporaryName p.name n)
  exact ⟨r, hplace, hr.walk_eq⟩

theorem look_isSome_mem {d : Disk} {place : Place} (hplace : place ≠ [])
    (h : (d.look place).isSome) : place ∈ d.entries.map (·.1) := by
  obtain ⟨e, he⟩ := Option.isSome_iff_exists.mp h
  exact List.mem_map.mpr ⟨(place, e), mem_entries_of_look hplace he, rfl⟩

/-- **One of the candidates is free**: there are more of them than entries. -/
theorem exists_not_taken (d : Disk) (p : Path) :
    ∃ n, n ≤ d.entries.length ∧ ¬ Taken d (d.candidate p n) := by
  -- by pigeonhole, over the entries of the disk
  apply Classical.byContradiction
  intro hall
  have htaken : ∀ n ≤ d.entries.length, Taken d (d.candidate p n) := fun n hn =>
    Classical.byContradiction fun hfree => hall ⟨n, hn, hfree⟩
  obtain ⟨place, hplace, -⟩ := htaken 0 (Nat.zero_le _)
  obtain ⟨r, -, hr⟩ := locate_candidate hplace
  -- the places of the candidates are distinct and all of them hold something
  have hsubset : (List.range (d.entries.length + 1)).map (temporaryName p.name · :: r) ⊆
      d.entries.map (·.1) := by
    intro q hq
    obtain ⟨n, hn, rfl⟩ := List.mem_map.mp hq
    obtain ⟨place, hplace, hsome⟩ := htaken n (by have := List.mem_range.mp hn; omega)
    obtain ⟨r', rfl, hr'⟩ := locate_candidate hplace
    rw [hr] at hr'
    obtain rfl := Except.ok.inj hr'
    exact look_isSome_mem (by simp) hsome
  -- two candidates of one directory differ in their names
  have hnodup : ((List.range (d.entries.length + 1)).map (temporaryName p.name · :: r)).Nodup := by
    rw [List.nodup_iff_pairwise_ne, List.pairwise_map]
    apply List.nodup_range.imp
    intro m n hne h
    exact hne (temporaryName_inj (List.cons.inj h).1)
  have hlength := hnodup.length_le_of_subset hsubset
  simp only [List.length_map, List.length_range] at hlength
  omega

/-! ## The temporary path -/

/-- Whether nothing is found at the path. -/
private def isFree (d : Disk) (p : Path) : Bool :=
  !match d.locate .atLink p with
    | .ok place => (d.look place).isSome
    | .error _ => false

private theorem isFree_iff (d : Disk) (p : Path) : d.isFree p = true ↔ ¬ Taken d p := by
  rw [isFree, Taken]
  cases d.locate .atLink p with
  | ok place => simp
  | error code => simp

private theorem temporaryPath_eq_find (d : Disk) (p : Path) :
    d.temporaryPath p = d.candidate p
      (((List.range (d.entries.length + 1)).find? fun n => d.isFree (d.candidate p n)).getD 0) :=
  rfl

/-- **The temporary path** is the first candidate that is not taken. -/
theorem temporaryPath_spec (d : Disk) (p : Path) :
    ∃ n, d.temporaryPath p = d.candidate p n ∧ ¬ Taken d (d.candidate p n) ∧
      ∀ m < n, Taken d (d.candidate p m) := by
  rw [temporaryPath_eq_find]
  -- the search cannot fail: one candidate within its range is free
  cases hfind : (List.range (d.entries.length + 1)).find? fun n => d.isFree (d.candidate p n) with
  | none =>
    obtain ⟨k, hk, hfree⟩ := exists_not_taken d p
    have hnone := List.find?_eq_none.mp hfind k (List.mem_range.mpr (by omega))
    exact (hnone ((isFree_iff d _).mpr hfree)).elim
  | some n =>
    obtain ⟨hn, -, hbefore⟩ := List.find?_range_eq_some.mp hfind
    refine ⟨n, rfl, (isFree_iff d _).mp hn, fun m hm => Classical.byContradiction fun hfree => ?_⟩
    have htaken := hbefore m hm
    rw [(isFree_iff d _).mpr hfree] at htaken
    simp at htaken

/-- A candidate that is free while all before it are taken is the temporary path. -/
theorem temporaryPath_eq {d : Disk} {p : Path} {n : Nat} (hfree : ¬ Taken d (d.candidate p n))
    (hbefore : ∀ m < n, Taken d (d.candidate p m)) : d.temporaryPath p = d.candidate p n := by
  obtain ⟨k, hk, hfree', hbefore'⟩ := temporaryPath_spec d p
  -- two first free candidates cannot lie apart
  rcases Nat.lt_trichotomy k n with hlt | rfl | hlt
  · exact (hfree' (hbefore k hlt)).elim
  · exact hk
  · exact (hfree (hbefore' n hlt)).elim

/-- **A temporary file takes the place of nothing.** -/
theorem makeTemporary_eq_ok_iff {d d' : Disk} {p t : Path} :
    d.makeTemporary p = .ok (t, d') ↔
      t = d.temporaryPath p ∧ t.hasNul = false ∧ ∃ place, d.locate .atLink t = .ok place ∧
        d.look place = none ∧ d' = d.put place (.file [] temporaryMode) := by
  obtain ⟨n, hn, hfree, -⟩ := temporaryPath_spec d p
  rw [makeTemporary]
  constructor
  · intro h
    split at h
    · simp at h
    · rename_i hnul
      split at h
      · simp at h
      · rename_i place hplace
        obtain ⟨rfl, rfl⟩ := Prod.mk.inj (Except.ok.inj h)
        refine ⟨rfl, by simpa using hnul, place, hplace, ?_, rfl⟩
        -- the path was chosen as one at which nothing is found
        rw [hn] at hplace
        cases hlook : d.look place with
        | none => rfl
        | some e => exact (hfree ⟨place, hplace, by rw [hlook]; rfl⟩).elim
  · rintro ⟨rfl, hnul, place, hplace, -, rfl⟩
    simp [hnul, hplace]

/-- The place of a temporary file is a name of its own in a directory. -/
theorem locate_temporaryPath {d : Disk} {p : Path} {place : Place}
    (h : d.locate .atLink (d.temporaryPath p) = .ok place) :
    ∃ n r, place = temporaryName p.name n :: r := by
  obtain ⟨n, hn, -⟩ := temporaryPath_spec d p
  rw [hn] at h
  obtain ⟨r, hplace, -⟩ := locate_candidate h
  exact ⟨n, r, hplace⟩

/-- **There is still room for a temporary file** on a disk on which every path
leads on as before and nothing comes or goes. -/
theorem exists_makeTemporary {d d' : Disk} (hhere : d'.here = d.here)
    (hlocate : ∀ path t, d.locate .atLink path = .ok t → d'.locate .atLink path = .ok t)
    (hsome : ∀ q, (d'.look q).isSome = (d.look q).isSome) {path : Path}
    (hroom : ∃ made, d.makeTemporary path = .ok made) :
    ∃ made, d'.makeTemporary path = .ok made := by
  obtain ⟨⟨temporary, d₁⟩, hmade⟩ := hroom
  obtain ⟨rfl, hnul, t, ht, hnone, -⟩ := makeTemporary_eq_ok_iff.mp hmade
  obtain ⟨n, hn, -, hbefore⟩ := temporaryPath_spec d path
  have hcandidate : ∀ k, d'.candidate path k = d.candidate path k := by
    intro k
    rw [candidate, candidate, absolute, absolute, hhere]
  -- nothing has come to the place of the file
  have hnone' : d'.look t = none := by
    have ht := hsome t
    rw [hnone] at ht
    simpa using ht
  have ht' : d'.locate .atLink (d.temporaryPath path) = .ok t := hlocate _ t ht
  -- the candidates that were taken are taken, and the free one is free
  have hpath : d'.temporaryPath path = d.temporaryPath path := by
    rw [hn, ← hcandidate]
    apply temporaryPath_eq
    · rintro ⟨t', hlocate', hsome'⟩
      rw [hcandidate, ← hn, ht'] at hlocate'
      obtain rfl := Except.ok.inj hlocate'
      rw [hnone'] at hsome'
      simp at hsome'
    · intro m hm
      obtain ⟨t', hlocate', hsome'⟩ := hbefore m hm
      exact ⟨t', hcandidate m ▸ hlocate _ t' hlocate', (hsome t').trans hsome'⟩
  exact ⟨_, makeTemporary_eq_ok_iff.mpr ⟨hpath.symm, hnul, t, ht', hnone', rfl⟩⟩

end Stencil.Disk
