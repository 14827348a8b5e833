/-!
# Stencil — letters and digits of ASCII

The letters and digits that `Char.isAlphanum` knows are those of ASCII, so that
a fact about them can be checked character by character.
-/

namespace Stencil.Text

theorem toNat_lt_of_isAlphanum {c : Char} (h : c.isAlphanum = true) : c.toNat < 0x80 := by
  have hranges : ((decide (c.val ≥ 'A'.val ∧ c.val ≤ 'Z'.val) ||
      (c.val ≥ 'a'.val && c.val ≤ 'z'.val)) || (c.val ≥ '0'.val && c.val ≤ '9'.val)) = true := h
  simp only [Bool.or_eq_true, Bool.and_eq_true, decide_eq_true_eq, ge_iff_le,
    UInt32.le_iff_toNat_le] at hranges
  show c.val.toNat < 0x80
  have hZ : ('Z'.val).toNat = 90 := rfl
  have hz : ('z'.val).toNat = 122 := rfl
  have h9 : ('9'.val).toNat = 57 := rfl
  omega

/-- A fact about all ASCII characters holds of each of them. -/
theorem of_ascii {P : Char → Prop} (h : ∀ n < 0x80, P (Char.ofNat n)) {c : Char}
    (hc : c.toNat < 0x80) : P c := by
  have hP := h c.toNat hc
  rwa [Char.ofNat_toNat] at hP

end Stencil.Text
