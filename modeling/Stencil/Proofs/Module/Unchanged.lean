import Stencil.Proofs.Module.Write
import Stencil.Proofs.Region.Around
import Stencil.Proofs.Region.Converted
import Stencil.Proofs.Text.Utf8

/-!
# Stencil — files that are written as they are

In append mode a file is left alone if its region is spliced in as it is. That is a
matter of the texts alone. It happens to a generated file whose line ends were
converted, because a new region takes the line ends of the text before it; and for
the same reason it does not happen to a region with line feeds below a hand-written
line that ends in CRLF.

Main results:

* `leftAlone_iff` — when a file is left alone;
* `conversion_commutes` — converting a file before or after a region goes in;
* `regenerated_iff` — when a wrapped body that is written again changes nothing.
-/

namespace Stencil.Module

open Stencil.Disk Stencil.Region Stencil.Text

/-- Written in append mode, the new text is reported to change nothing, and nothing
but log records comes of it. -/
def LeftAlone (path : Path) (text new : List Char) (w : World) : Prop :=
  ∃ w', (writeGenerated path (String.ofList new) true false).runIn w =
      (.ok ⟨String.ofList text, .unchanged⟩, w') ∧
    World.Logged w w'

section LeftAlone

variable {path : Path} {text new : List Char} {w : World}

theorem mergeInto_of_splice {merged : List Char} (h : splice text new = .ok merged) :
    mergeInto path (Utf8.encode text) (String.ofList new) =
      .ok ⟨String.ofList merged, if merged = text then .unchanged else .merged⟩ := by
  rw [mergeInto, Utf8.decode_encode, String.toList_ofList]
  simp only [h]

/-- **A file is left alone** exactly if splicing leaves its text alone. -/
theorem leftAlone_iff (hread : w.disk.read path = .ok (Utf8.encode text)) :
    LeftAlone path text new w ↔ splice text new = .ok text := by
  have hcompose := composeOn_of_read hread (String.ofList new) true
  rw [if_pos rfl] at hcompose
  constructor
  · rintro ⟨w', hrun, -⟩
    have hmerge := hcompose.symm.trans (writeGenerated_eq_ok hrun)
    cases hsplice : splice text new with
    | ok merged =>
      rw [mergeInto_of_splice hsplice] at hmerge
      have hcontent := congrArg Composed.content (Except.ok.inj hmerge)
      rw [String.ofList_injective hcontent]
    | error e =>
      rw [mergeInto, Utf8.decode_encode, String.toList_ofList] at hmerge
      cases e <;> simp [hsplice] at hmerge
  · intro h
    rw [mergeInto_of_splice h, if_pos rfl] at hcompose
    exact writeGenerated_of_unchanged hcompose rfl

end LeftAlone

/-- A file with a text in an otherwise empty working directory. -/
private def fileWorld (text : List Char) : World :=
  .ofDisk ((Disk.empty ["w"]).put ["a.ts", "w"] (.file (Utf8.encode text) newFileMode))

/-! ## Converted files -/

/-- **Splicing and converting line ends commute.** For texts without carriage
returns, splicing into the converted text gives the converted result, or the same
error with the same reason. So a generated file that was converted, be it the new
text itself or an existing one with its region, is left alone when the same text is
generated again. -/
theorem conversion_commutes (e g : List Char) (he : '\r' ∉ e) (hg : '\r' ∉ g) :
    splice (withCrlf e) g = (splice e g).map withCrlf ∧
      ∀ text, (text = g ∧ WellMarked g) ∨ splice e g = .ok text →
        ∀ path w, w.disk.read path = .ok (Utf8.encode (withCrlf text)) →
          LeftAlone path (withCrlf text) g w := by
  refine ⟨splice_withCrlf he hg, fun text htext path w hread => (leftAlone_iff hread).mpr ?_⟩
  -- the text has the region already, with either kind of line ends
  have hagain : splice text g = .ok text ∧ '\r' ∉ text := by
    rcases htext with ⟨rfl, hmarked⟩ | hsplice
    · exact ⟨splice_own hg hmarked, hg⟩
    · exact ⟨splice_again_of_unreturned he hsplice, notMem_splice he hg hsplice⟩
  rw [splice_withCrlf hagain.2 hg, hagain.1]
  rfl

/-- Hand-written lines around a region, and other separators in it. -/
theorem conversion_commutes_noted :
    splice (withCrlf ("// a\u2028b\n".toList ++ wrap "old".toList)) (wrap "x\u000cy\n".toList) =
        .ok (withCrlf ("// a\u2028b\n".toList ++ wrap "x\u000cy".toList)) ∧
      LeftAlone (.ofText "a.ts") (withCrlf ("// a\u2028b\n".toList ++ wrap "x\u000cy".toList))
        (wrap "x\u000cy\n".toList)
        (fileWorld (withCrlf ("// a\u2028b\n".toList ++ wrap "x\u000cy".toList))) := by
  obtain ⟨hsplice, hagain⟩ := conversion_commutes ("// a\u2028b\n".toList ++ wrap "old".toList)
    (wrap "x\u000cy\n".toList) (by decide) (by decide)
  have hout : splice ("// a\u2028b\n".toList ++ wrap "old".toList) (wrap "x\u000cy\n".toList) =
      .ok ("// a\u2028b\n".toList ++ wrap "x\u000cy".toList) := by decide
  refine ⟨by rw [hsplice, hout]; rfl, hagain _ (.inr hout) _ _ ?_⟩
  rfl

/-! ## Files as they were generated -/

/-- **When a wrapped body that is written again changes nothing.** A well-marked text
with the body in it is left alone exactly if the text before the body is empty or
ends its last line, and has no CRLF in it unless all line ends of the region are
CRLFs already. -/
theorem regenerated_iff (before body after : List Char)
    (hmarked : WellMarked (before ++ wrap body ++ after)) :
    (splice (before ++ wrap body ++ after) (wrap body) = .ok (before ++ wrap body ++ after) ↔
        isWhole before = true ∧
          (['\r', '\n'] <:+: before → toCrlf (bodyRegion body) = bodyRegion body)) ∧
      ∀ path w, w.disk.read path = .ok (Utf8.encode (before ++ wrap body ++ after)) →
        (LeftAlone path (before ++ wrap body ++ after) (wrap body) w ↔
          isWhole before = true ∧
            (['\r', '\n'] <:+: before → toCrlf (bodyRegion body) = bodyRegion body)) := by
  have hiff := splice_around_iff hmarked
  rw [hasCrlf_iff] at hiff
  exact ⟨hiff, fun path w hread => (leftAlone_iff hread).trans hiff⟩

/-- Below a line that ends in CRLF the region is written with CRLFs, and below one
that ends in a line feed it stays what it is. -/
theorem regenerated_below_crlf :
    ¬ LeftAlone (.ofText "a.ts") ("// a\r\n".toList ++ wrap "x".toList) (wrap "x".toList)
        (fileWorld ("// a\r\n".toList ++ wrap "x".toList)) ∧
      LeftAlone (.ofText "a.ts") ("// a\n".toList ++ wrap "x".toList) (wrap "x".toList)
        (fileWorld ("// a\n".toList ++ wrap "x".toList)) := by
  obtain ⟨-, hcrlf⟩ := regenerated_iff "// a\r\n".toList "x".toList [] (by decide)
  obtain ⟨-, hlf⟩ := regenerated_iff "// a\n".toList "x".toList [] (by decide)
  rw [List.append_nil] at hcrlf hlf
  exact ⟨fun h => absurd ((hcrlf _ _ rfl).mp h) (by decide), (hlf _ _ rfl).mpr (by decide)⟩

end Stencil.Module
