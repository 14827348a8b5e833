import Stencil.Disk.Calls

/-!
# Stencil — what lies on a changed disk

Every change to a disk puts an entry at one place or takes it away, and leaves
all other places alone. `Grown S` says what a number of changes may add up to:
new directories anywhere, and any change between a file and nothing at the
places of `S`. Such a disk is `Kept`: no walk that went through before is
stopped, because no directory and no link goes or comes in its way.

Main results:

* `look_put`, `look_erase` — the places that a change leaves alone;
* `Grown.trans` — such changes add up;
* `Grown.bytesAt_eq` — outside of `S` no file comes or goes.
-/

namespace Stencil.Disk

/-! ## Single changes -/

private theorem lookup_cons_ite (r : Place) (e : Entry) (entries : List (Place × Entry))
    (q : Place) :
    ((r, e) :: entries).lookup q = if q = r then some e else entries.lookup q := by
  rw [List.lookup_cons]
  by_cases h : q = r
  · simp [h]
  · rw [beq_eq_false_iff_ne.mpr h, if_neg h]

private theorem lookup_filter_ne (entries : List (Place × Entry)) (place q : Place) :
    (entries.filter (·.1 ≠ place)).lookup q =
      if q = place then none else entries.lookup q := by
  -- the entries of the place itself are passed over, however many there are
  induction entries with
  | nil => simp
  | cons pair entries ih =>
    obtain ⟨r, e⟩ := pair
    rw [lookup_cons_ite]
    by_cases hr : r = place
    · subst hr
      rw [List.filter_cons_of_neg (by simp), ih]
      split <;> rfl
    · rw [List.filter_cons_of_pos (by simpa using hr), lookup_cons_ite, ih]
      -- an entry of another place stays, and decides for that place
      by_cases hq : q = r
      · subst hq
        simp [hr]
      · simp [hq]

@[simp]
theorem look_nil (d : Disk) : d.look [] = some (.directory newDirectoryMode) :=
  rfl

theorem look_eq_lookup (d : Disk) {q : Place} (h : q ≠ []) : d.look q = d.entries.lookup q := by
  cases q with
  | nil => exact absurd rfl h
  | cons name rest => rfl

/-- **Putting an entry somewhere** changes what lies there and nothing else. -/
theorem look_put (d : Disk) (place : Place) (e : Entry) {q : Place} (hq : q ≠ []) :
    (d.put place e).look q = if q = place then some e else d.look q := by
  rw [look_eq_lookup _ hq, look_eq_lookup _ hq, put, lookup_cons_ite, lookup_filter_ne]
  split <;> rfl

theorem look_put_self (d : Disk) {place : Place} (e : Entry) (h : place ≠ []) :
    (d.put place e).look place = some e := by
  simp [look_put d place e h]

theorem look_put_of_ne (d : Disk) {place q : Place} (e : Entry) (h : q ≠ place) :
    (d.put place e).look q = d.look q := by
  cases q with
  | nil => rfl
  | cons name rest => rw [look_put d place e (by simp), if_neg h]

/-- **Taking an entry away** leaves nothing there and everything else. -/
theorem look_erase (d : Disk) (place : Place) {q : Place} (hq : q ≠ []) :
    (d.erase place).look q = if q = place then none else d.look q := by
  rw [look_eq_lookup _ hq, look_eq_lookup _ hq, erase, lookup_filter_ne]

theorem look_erase_of_ne (d : Disk) {place q : Place} (h : q ≠ place) :
    (d.erase place).look q = d.look q := by
  cases q with
  | nil => rfl
  | cons name rest => rw [look_erase d place (by simp), if_neg h]

/-! ## Kinds of entries -/

/-- A file or nothing: a walk can end there but not go on. -/
def IsLeaf : Option Entry → Prop
  | none => True
  | some (.file _ _) => True
  | some _ => False

/-- The bytes of the file at a place. -/
def bytesAt (d : Disk) (q : Place) : Option (List UInt8) :=
  match d.look q with
  | some (.file bytes _) => some bytes
  | _ => none

/-- Everything lies in a directory. -/
def IsTree (d : Disk) : Prop :=
  ∀ name q, (d.look (name :: q)).isSome → ∃ mode, d.look q = some (.directory mode)

/-- What lies somewhere other than the root is among the entries. -/
theorem mem_entries_of_look {d : Disk} {q : Place} {e : Entry} (hq : q ≠ [])
    (h : d.look q = some e) : (q, e) ∈ d.entries := by
  rw [look_eq_lookup d hq, List.lookup_eq_some_iff] at h
  obtain ⟨before, after, hentries, -⟩ := h
  simp [hentries]

/-- A tree is told by its entries. -/
theorem isTree_of_entries {d : Disk}
    (h : ∀ p ∈ d.entries, (d.look p.1.tail).any Entry.isDirectory = true) : IsTree d := by
  intro name q hq
  obtain ⟨e, he⟩ := Option.isSome_iff_exists.mp hq
  -- what lies in the place is an entry, so the condition speaks of the place above it
  have hdir : (d.look q).any Entry.isDirectory = true :=
    h _ (mem_entries_of_look (List.cons_ne_nil name q) he)
  cases hlook : d.look q with
  | none => simp [hlook] at hdir
  | some e' =>
    cases e' with
    | directory mode => exact ⟨mode, rfl⟩
    | _ => simp [hlook, Entry.isDirectory] at hdir

/-! ## Disks that keep their directories -/

/-- Every directory and every link stays, and no link comes. -/
structure Kept (d d' : Disk) : Prop where
  here : d'.here = d.here
  directory : ∀ q mode, d.look q = some (.directory mode) → d'.look q = some (.directory mode)
  link_iff : ∀ q target, d'.look q = some (.link target) ↔ d.look q = some (.link target)

namespace Kept

variable {d d' d'' : Disk}

theorem refl (d : Disk) : Kept d d :=
  ⟨rfl, fun _ _ hq => hq, fun _ _ => .rfl⟩

theorem trans (h : Kept d d') (h' : Kept d' d'') : Kept d d'' :=
  ⟨h'.here.trans h.here, fun q mode hq => h'.directory q mode (h.directory q mode hq),
    fun q target => (h'.link_iff q target).trans (h.link_iff q target)⟩

/-- A leaf stays a leaf, or is a directory now. -/
theorem leaf (h : Kept d d') {q : Place} (hq : IsLeaf (d.look q)) :
    IsLeaf (d'.look q) ∨ ∃ mode, d'.look q = some (.directory mode) := by
  cases hlook : d'.look q with
  | none => exact .inl trivial
  | some e =>
    cases e with
    | file bytes mode => exact .inl trivial
    | directory mode => exact .inr ⟨mode, rfl⟩
    | link target =>
      -- a link would have been there before
      rw [(h.link_iff q target).mp hlook] at hq
      exact hq.elim

end Kept

/-! ## Disks that grow -/

/-- New directories anywhere, and between a file and nothing at the places of
`S`. -/
structure Grown (S : Place → Prop) (d d' : Disk) : Prop where
  here : d'.here = d.here
  outside : ∀ q, ¬ S q →
    d'.look q = d.look q ∨ d.look q = none ∧ ∃ mode, d'.look q = some (.directory mode)
  inside : ∀ q, S q → d'.look q = d.look q ∨ IsLeaf (d.look q) ∧ IsLeaf (d'.look q)

namespace Grown

variable {S T : Place → Prop} {d d' d'' : Disk}

theorem refl (S : Place → Prop) (d : Disk) : Grown S d d :=
  ⟨rfl, fun _ _ => .inl rfl, fun _ _ => .inl rfl⟩

theorem trans (h : Grown S d d') (h' : Grown S d' d'') : Grown S d d'' := by
  refine ⟨h'.here.trans h.here, ?_, ?_⟩
  · intro q hq
    -- a directory that the second part makes was nothing before the first
    rcases h'.outside q hq with h'' | ⟨hnone, hdir⟩
    · rw [h'']
      exact h.outside q hq
    · rcases h.outside q hq with heq | ⟨-, mode, hmode⟩
      · exact .inr ⟨heq ▸ hnone, hdir⟩
      · rw [hmode] at hnone
        simp at hnone
  · intro q hq
    rcases h.inside q hq with heq | ⟨hleaf, hleaf'⟩
    · rw [← heq]
      exact h'.inside q hq
    · rcases h'.inside q hq with heq' | ⟨-, hleaf''⟩
      · exact .inr ⟨hleaf, heq' ▸ hleaf'⟩
      · exact .inr ⟨hleaf, hleaf''⟩

/-- The changes of some places are changes of more places, where they are
leaves. -/
theorem mono (h : Grown S d d') (hST : ∀ q, S q → T q)
    (hleaf : ∀ q, T q → ¬ S q → d'.look q = d.look q) : Grown T d d' := by
  -- a place outside of the larger set is outside of the smaller one
  refine ⟨h.here, fun q hq => h.outside q fun hS => hq (hST q hS), fun q hq => ?_⟩
  by_cases hS : S q
  · exact h.inside q hS
  · exact .inl (hleaf q hq hS)

/-- Outside of the changed places everything stays. -/
theorem look_eq_some (h : Grown S d d') {q : Place} (hq : ¬ S q) {e : Entry}
    (hlook : d.look q = some e) : d'.look q = some e := by
  rcases h.outside q hq with heq | ⟨hnone, -⟩
  · rw [heq, hlook]
  · rw [hnone] at hlook
    simp at hlook

/-- A file outside of the changed places was there before. -/
theorem file_back (h : Grown S d d') {q : Place} (hq : ¬ S q) {bytes : List UInt8} {mode : Nat}
    (hlook : d'.look q = some (.file bytes mode)) : d.look q = some (.file bytes mode) := by
  rcases h.outside q hq with heq | ⟨-, m, hm⟩
  · rw [← heq, hlook]
  · rw [hlook] at hm
    simp at hm

/-- A directory stays. -/
theorem directory (h : Grown S d d') {q : Place} {mode : Nat}
    (hq : d.look q = some (.directory mode)) : d'.look q = some (.directory mode) := by
  -- at the changed places only leaves change
  by_cases hS : S q
  · rcases h.inside q hS with heq | ⟨hleaf, -⟩
    · rw [heq, hq]
    · rw [hq] at hleaf
      exact hleaf.elim
  · exact h.look_eq_some hS hq

/-- A link stays, and none comes. -/
theorem link_iff (h : Grown S d d') {q : Place} {target : String} :
    d'.look q = some (.link target) ↔ d.look q = some (.link target) := by
  by_cases hS : S q
  · -- a leaf is no link, neither before nor after
    rcases h.inside q hS with heq | ⟨hleaf, hleaf'⟩
    · rw [heq]
    · constructor
      · intro hq
        rw [hq] at hleaf'
        exact hleaf'.elim
      · intro hq
        rw [hq] at hleaf
        exact hleaf.elim
  · rcases h.outside q hS with heq | ⟨hnone, mode, hmode⟩
    · rw [heq]
    · simp [hnone, hmode]

theorem kept (h : Grown S d d') : Kept d d' :=
  ⟨h.here, fun _ _ => h.directory, fun _ _ => h.link_iff⟩

/-- **Changes at some places and then at others** are changes at all of them, if
no directory has come there. -/
theorem union (h : Grown S d d') (h' : Grown T d' d'')
    (hleaf : ∀ q, S q ∨ T q → IsLeaf (d''.look q)) : Grown (fun q => S q ∨ T q) d d'' := by
  refine ⟨h'.here.trans h.here, ?_, ?_⟩
  · intro q hq
    obtain ⟨hS, hT⟩ := not_or.mp hq
    -- outside of both sets each part leaves the place or makes a directory
    rcases h'.outside q hT with heq' | ⟨hnone', hdir'⟩
    · rw [heq']
      exact h.outside q hS
    · rcases h.outside q hS with heq | ⟨-, m, hm⟩
      · exact .inr ⟨heq ▸ hnone', hdir'⟩
      · rw [hm] at hnone'
        simp at hnone'
  · intro q hq
    refine .inr ⟨?_, hleaf q hq⟩
    -- a directory or a link would still be there
    cases hlook : d.look q with
    | none => trivial
    | some e =>
      cases e with
      | file bytes mode => trivial
      | directory mode =>
        have hq' := hleaf q hq
        rw [h'.directory (h.directory hlook)] at hq'
        exact hq'.elim
      | link target =>
        have hq' := hleaf q hq
        rw [h'.link_iff.mpr (h.link_iff.mpr hlook)] at hq'
        exact hq'.elim

/-- Outside of the changed places no file comes or goes. -/
theorem bytesAt_eq (h : Grown S d d') {q : Place} (hq : ¬ S q) : d'.bytesAt q = d.bytesAt q := by
  rcases h.outside q hq with heq | ⟨hnone, mode, hmode⟩
  · rw [bytesAt, bytesAt, heq]
  · rw [bytesAt, bytesAt, hnone, hmode]

end Grown

end Stencil.Disk
