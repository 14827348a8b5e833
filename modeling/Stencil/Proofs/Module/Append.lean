import Stencil.Module.Plan
import Stencil.Proofs.Module.Write
import Stencil.Proofs.Region.Wrap
import Stencil.Proofs.Text.Utf8

/-!
# Stencil — writing a file again and again

In append mode a file is read, its region replaced, and the result written
back. `Writable` is what such a run needs to go through: a file with the text,
and room beside it. Every run leaves its file writable again, cut at the same
two places, so that any number of runs goes through and only the last one can
be seen in the end.

Main results:

* `Writable.writeGenerated` — one run, and what it leaves;
* `append_keeps_edits` — any number of runs.
-/

namespace Stencil.Module

open Stencil.Disk Stencil.Region Stencil.Text

/-- The path leads to a file with this text, which no log record changes, and
there is room for a temporary file beside it. -/
structure Writable (path : Path) (text : List Char) (w : World) : Prop where
  noNul : path.hasNul = false
  named : path.endsInName = true
  file : ∃ mode, w.disk.entryAt path = .ok (.file (Utf8.encode text) mode)
  unlogged : ∀ q, w.disk.locate .beyond path = .ok q → w.logPlace? ≠ some q
  room : ∃ made, w.disk.makeTemporary path = .ok made

namespace Writable

variable {path : Path} {text : List Char} {w w' : World}

theorem read (h : Writable path text w) : w.disk.read path = .ok (Utf8.encode text) := by
  obtain ⟨mode, hfile⟩ := h.file
  exact read_eq_ok_iff.mpr ⟨h.noNul, mode, hfile⟩

theorem composeOn_eq (h : Writable path text w) (new : String) :
    composeOn w.disk path new true = mergeInto path (Utf8.encode text) new := by
  rw [composeOn_of_read h.read, if_pos rfl]

/-- Log records leave the file alone. -/
theorem logged (h : Writable path text w) (hlog : World.Logged w w') : Writable path text w' := by
  have hlocate : w'.disk.locate .beyond path = w.disk.locate .beyond path :=
    hlog.sameShape.locate_eq _ _
  obtain ⟨mode, hfile⟩ := h.file
  -- the log file is another one
  refine ⟨h.noNul, h.named, ⟨mode, ?_⟩, ?_, hlog.sameShape.makeTemporary h.room⟩
  · rw [hlog.entryAt_eq fun q hq hq' => h.unlogged q hq hq'.1, hfile]
  · rw [hlocate, hlog.logPlace]
    exact h.unlogged

/-- Where the file lies, or a link to it. -/
theorem exists_place (h : Writable path text w) :
    ∃ p, w.disk.locate .atLink path = .ok p ∧ EndsAtFile w.disk p := by
  obtain ⟨mode, hfile⟩ := h.file
  obtain ⟨f, hf, hlook⟩ := entryAt_eq_ok_iff.mp hfile
  obtain ⟨hsize, hwalk⟩ := Disk.locate_eq_ok_iff.mp hf
  obtain ⟨p, hp, hleads⟩ := hwalk.exists_atLink
  exact ⟨p, Disk.locate_eq_ok_iff.mpr ⟨hsize, hp⟩, f, _, mode, hleads, hlook⟩

/-- **The file can be written**, and written again after that. -/
theorem atomicWrite (h : Writable path text w) (content : String) :
    ∃ w', (Module.atomicWrite path content).runIn w = (.ok (), w') ∧
      Writable path content.toList w' := by
  obtain ⟨mode, hfile⟩ := h.file
  obtain ⟨p, hp, hends⟩ := h.exists_place
  obtain ⟨w', hrun, ⟨mode', hreplaced⟩, hlog⟩ := atomicWrite_ready (.of_file h.named hfile)
    h.named h.noNul hp hends.isEnd.not_directory hfile h.room content
  refine ⟨w', hrun, h.noNul, h.named, ⟨mode', hreplaced.entryAt_eq hends.isEnd hp⟩, ?_,
    hreplaced.makeTemporary hends h.room⟩
  -- a log that went to this file is closed, and another one lies elsewhere
  intro q hq
  rw [hreplaced.locate_beyond hends.isEnd hp] at hq
  obtain rfl := Except.ok.inj hq
  rw [hlog]
  split
  · simp
  · assumption

/-- **One run**: the region of the file is replaced, and the file can be
written again. -/
theorem writeGenerated (h : Writable path text w) {l : Located} (hl : CutAt text l)
    {body : String} (hbody : IsBody body.toList) :
    ∃ composed w', (Module.writeGenerated path (wrapped body) true false).runIn w =
        (.ok composed, w') ∧
      Writable path (l.before ++ fitted l.before (bodyRegion body.toList) ++ l.after) w' := by
  have hsplice := (splice_wrap hl hbody).1
  generalize hmerged : l.before ++ fitted l.before (bodyRegion body.toList) ++ l.after = merged
    at hsplice ⊢
  have hcompose : composeOn w.disk path (wrapped body) true =
      .ok ⟨String.ofList merged, if merged = text then .unchanged else .merged⟩ := by
    rw [h.composeOn_eq, mergeInto, Utf8.decode_encode, wrapped, String.toList_ofList]
    simp only [hsplice]
  by_cases heq : merged = text
  · -- nothing is written: the file holds the text already
    obtain ⟨w', hrun, hlog⟩ := writeGenerated_of_unchanged hcompose (if_pos heq)
    exact ⟨_, w', hrun, heq ▸ h.logged hlog⟩
  · rw [if_neg heq] at hcompose
    obtain ⟨w₁, hrun, hw₁⟩ := h.atomicWrite (String.ofList merged)
    rw [String.toList_ofList] at hw₁
    obtain ⟨w', hrun', hlog⟩ := writeGenerated_of_written hcompose (by simp) hrun
    exact ⟨_, w', hrun', hw₁.logged hlog⟩

end Writable

/-! ## Any number of runs -/

/-- The runs for some bodies, one after the other. -/
def appendAll (path : Path) (bodies : List String) : Work (List Composed) :=
  bodies.mapM fun body => writeGenerated path (wrapped body) true false

/-- **Any number of runs goes through** and leaves the text cut at the same two
places, with the region of the last body between them. -/
theorem appendAll_runIn {path : Path} {text : List Char} {l : Located} (hl : CutAt text l)
    (bodies : List String) (last : String)
    (hbodies : ∀ body ∈ bodies ++ [last], IsBody body.toList) {w : World}
    (h : Writable path text w) :
    ∃ composed w', (appendAll path (bodies ++ [last])).runIn w = (.ok composed, w') ∧
      Writable path (l.before ++ fitted l.before (bodyRegion last.toList) ++ l.after) w' := by
  -- on the bodies before the last; the text and its cut change with each of them
  induction bodies generalizing text l w with
  | nil =>
    obtain ⟨composed, w', hrun, hw'⟩ := h.writeGenerated hl (hbodies last (by simp))
    refine ⟨[composed], w', ?_, hw'⟩
    rw [List.nil_append, appendAll, List.mapM_cons, Work.runIn_bind_of_ok hrun]
    rfl
  | cons body bodies ih =>
    have hbody := hbodies body (by simp)
    obtain ⟨composed, w₁, hrun, hw₁⟩ := h.writeGenerated hl hbody
    -- the new text is cut where the old one was, and the rest of the runs sees only that
    obtain ⟨rest, w', hrest, hw'⟩ := ih (splice_wrap hl hbody).2
      (fun b hb => hbodies b (by simp only [List.cons_append, List.mem_cons]; exact .inr hb)) hw₁
    refine ⟨composed :: rest, w', ?_, hw'⟩
    rw [List.cons_append, appendAll, List.mapM_cons, Work.runIn_bind_of_ok hrun]
    rw [appendAll] at hrest
    rw [Work.runIn_bind_of_ok hrest]
    rfl

/-- **Append mode forgets what was generated before and keeps what was written by
hand.** A text with one region is cut in three. However many bodies are written
into it, all runs go through; the outer two parts stay what they are, and the
file holds the text with the last body spliced in. -/
theorem append_keeps_edits (path : Path) (text : List Char) (hmarked : WellMarked text) :
    ∃ before region after, CutAt text ⟨before, region, after⟩ ∧
      (∀ (bodies : List String) (last : String) (w : World),
        (∀ body ∈ bodies ++ [last], IsBody body.toList) → Writable path text w →
        ∃ composed w' region',
          (appendAll path (bodies ++ [last])).runIn w = (.ok composed, w') ∧
            w'.disk.read path = .ok (Utf8.encode (before ++ region' ++ after)) ∧
            CutAt (before ++ region' ++ after) ⟨before, region', after⟩ ∧
            splice text (wrap last.toList) = .ok (before ++ region' ++ after)) ∧
      ∀ body body', IsBody body → IsBody body' →
        ∃ out, splice text (wrap body) = .ok out ∧ splice out (wrap body) = .ok out ∧
          splice out (wrap body') = splice text (wrap body') := by
  obtain ⟨l, hl⟩ := exists_locate_iff.mpr hmarked
  rw [Region.locate_eq_ok_iff] at hl
  -- the runs follow from those of one body, and the splices from the cut alone
  refine ⟨l.before, l.region, l.after, hl, ?_, ?_⟩
  · intro bodies last w hbodies h
    obtain ⟨composed, w', hrun, hw'⟩ := appendAll_runIn hl bodies last hbodies h
    obtain ⟨hsplice, hcut⟩ := splice_wrap hl (hbodies last (by simp))
    exact ⟨composed, w', _, hrun, hw'.read, hcut, hsplice⟩
  · intro body body' hbody hbody'
    obtain ⟨hsplice, -⟩ := splice_wrap hl hbody
    exact ⟨_, hsplice, (splice_forgets hbody hbody hsplice).trans hsplice,
      splice_forgets hbody hbody' hsplice⟩

/-- A text with a note by hand above its region. -/
private def notedText : List Char :=
  "// mine\n".toList ++ wrap "old".toList

/-- A file with that text in an otherwise empty working directory. -/
private def notedWorld : World :=
  .ofDisk ((Disk.empty ["w"]).put ["a.ts", "w"] (.file (Utf8.encode notedText) newFileMode))

private theorem writable_notedWorld : Writable (.ofText "a.ts") notedText notedWorld where
  noNul := by decide
  named := by decide
  file := ⟨newFileMode, by rfl⟩
  unlogged := by
    intro q _ hlog
    simp [notedWorld, World.ofDisk] at hlog
  room := ⟨_, by rfl⟩

/-- The note is still there after two runs, above the second body. -/
theorem append_keeps_note :
    ∃ composed w', (appendAll (.ofText "a.ts") ["one", "two"]).runIn notedWorld =
        (.ok composed, w') ∧
      w'.disk.read (.ofText "a.ts") =
        .ok (Utf8.encode ("// mine\n".toList ++ wrap "two".toList)) := by
  have hbodies : ∀ body ∈ ["one", "two"], IsBody body.toList := by
    intro body hbody
    simp only [List.mem_cons, List.not_mem_nil, or_false] at hbody
    rcases hbody with rfl | rfl <;> exact ⟨by decide, 'o', by decide, by decide⟩
  obtain ⟨before, region, after, -, hruns, -⟩ :=
    append_keeps_edits (.ofText "a.ts") notedText (by decide)
  obtain ⟨composed, w', region', hrun, hread, -, hsplice⟩ :=
    hruns ["one"] "two" notedWorld hbodies writable_notedWorld
  refine ⟨composed, w', hrun, ?_⟩
  have hfinal : splice notedText (wrap "two".toList) =
      .ok ("// mine\n".toList ++ wrap "two".toList) := by decide
  rw [hread, ← Except.ok.inj (hsplice.symm.trans hfinal)]

end Stencil.Module
