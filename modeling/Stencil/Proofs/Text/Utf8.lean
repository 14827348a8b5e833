import Stencil.Text.Utf8

/-!
# Stencil — UTF-8 read back

Every text can be read back from its bytes. A character is written in one to
four bytes, and each length has its own range of first bytes; the bytes after
the first one hold six bits each.

Main results:

* `readChar_encode` — the first character of a text is read back;
* `decode_encode` — and so is the text;
* `encode_of_decode` — bytes that are read are the bytes that would be written.
-/

namespace Stencil.Text.Utf8

/-! ## Bytes by their numbers -/

private theorem ofNat_lt {n : Nat} (hn : n < 256) (b : UInt8) :
    UInt8.ofNat n < b ↔ n < b.toNat := by
  rw [UInt8.lt_iff_toNat_lt, UInt8.toNat_ofNat', Nat.mod_eq_of_lt hn]

private theorem toNat_ofNat {n : Nat} (hn : n < 256) : (UInt8.ofNat n).toNat = n := by
  rw [UInt8.toNat_ofNat', Nat.mod_eq_of_lt hn]

theorem isTail_iff (b : UInt8) : isTail b = true ↔ 0x80 ≤ b.toNat ∧ b.toNat ≤ 0xBF := by
  rw [isTail, Bool.and_eq_true, decide_eq_true_eq, decide_eq_true_eq, UInt8.le_iff_toNat_le,
    UInt8.le_iff_toNat_le]
  rfl

/-- Which second bytes fit, by the numbers of the two bytes. -/
theorem isSecond_iff (a b : UInt8) :
    isSecond a b = true ↔
      (0x80 ≤ b.toNat ∧ b.toNat ≤ 0xBF) ∧ (a.toNat = 0xE0 → 0xA0 ≤ b.toNat) ∧
        (a.toNat = 0xED → b.toNat ≤ 0x9F) ∧ (a.toNat = 0xF0 → 0x90 ≤ b.toNat) ∧
        (a.toNat = 0xF4 → b.toNat ≤ 0x8F) := by
  have hrange : ∀ lo hi : UInt8, (lo ≤ b && b ≤ hi) = true ↔
      lo.toNat ≤ b.toNat ∧ b.toNat ≤ hi.toNat := by
    intro lo hi
    rw [Bool.and_eq_true, decide_eq_true_eq, decide_eq_true_eq, UInt8.le_iff_toNat_le,
      UInt8.le_iff_toNat_le]
  -- four first bytes have a range of their own
  simp only [isSecond, ← UInt8.toNat_inj, UInt8.reduceToNat]
  split
  · rw [hrange]
    simp only [UInt8.reduceToNat]
    omega
  · split
    · rw [hrange]
      simp only [UInt8.reduceToNat]
      omega
    · split
      · rw [hrange]
        simp only [UInt8.reduceToNat]
        omega
      · split
        · rw [hrange]
          simp only [UInt8.reduceToNat]
          omega
        · rw [isTail_iff]
          omega

/-- The byte that holds six bits. -/
theorem isTail_ofNat (n : Nat) : isTail (UInt8.ofNat (n % 0x40 + 0x80)) = true := by
  rw [isTail_iff, toNat_ofNat (by omega)]
  omega

theorem payload_ofNat (n : Nat) : payload (UInt8.ofNat (n % 0x40 + 0x80)) = n % 0x40 := by
  rw [payload, toNat_ofNat (by omega)]
  omega

/-- A second byte of six bits fits if no shorter character and no surrogate is
written this way. -/
theorem isSecond_ofNat {a n : Nat} (ha : a < 256)
    (h₀ : a = 0xE0 → 0x20 ≤ n % 0x40) (h₁ : a = 0xED → n % 0x40 < 0x20)
    (h₂ : a = 0xF0 → 0x10 ≤ n % 0x40) (h₃ : a = 0xF4 → n % 0x40 < 0x10) :
    isSecond (UInt8.ofNat a) (UInt8.ofNat (n % 0x40 + 0x80)) = true := by
  rw [isSecond_iff, toNat_ofNat ha, toNat_ofNat (by omega)]
  omega

/-! ## Characters -/

/-- The numbers that characters have: none of a surrogate. -/
private theorem char_range (c : Char) :
    c.toNat < 0xD800 ∨ 0xDFFF < c.toNat ∧ c.toNat < 0x110000 :=
  c.valid

private theorem ofNat_toNat_of_eq {c : Char} {n : Nat} (h : n = c.toNat) : Char.ofNat n = c := by
  rw [h, Char.ofNat_toNat]

/-- **The first character is read back**, with the number of bytes behind its
first one. -/
theorem readChar_encode (c : Char) (rest : List UInt8) :
    ∃ a tail, String.utf8EncodeChar c = a :: tail ∧
      readChar a (tail ++ rest) = .ok (c, tail.length) := by
  -- one case for each length, and in each the same steps: the first byte tells the length,
  -- and the bytes after it hold six bits each
  have hrange := char_range c
  have hval : c.val.toNat = c.toNat := rfl
  simp only [String.utf8EncodeChar, hval]
  by_cases h₁ : c.toNat ≤ 0x7f
  · rw [if_pos h₁]
    refine ⟨_, _, rfl, ?_⟩
    have ha : c.toNat < 256 := by omega
    simp only [readChar.eq_def, ofNat_lt ha, UInt8.reduceToNat, toNat_ofNat ha]
    rw [if_pos (by omega), Char.ofNat_toNat]
    rfl
  rw [if_neg h₁]
  by_cases h₂ : c.toNat ≤ 0x7ff
  · rw [if_pos h₂]
    refine ⟨_, _, rfl, ?_⟩
    have ha : c.toNat / 64 % 0x20 + 0xc0 < 256 := by omega
    simp only [readChar, ofNat_lt ha, UInt8.reduceToNat, List.cons_append, List.nil_append,
      isTail_ofNat, payload_ofNat, toNat_ofNat ha]
    rw [if_neg (by omega), if_neg (by omega), if_pos (by omega), if_pos trivial,
      ofNat_toNat_of_eq (c := c) (by omega)]
    rfl
  rw [if_neg h₂]
  by_cases h₃ : c.toNat ≤ 0xffff
  · rw [if_pos h₃]
    refine ⟨_, _, rfl, ?_⟩
    have ha : c.toNat / 4096 % 0x10 + 0xe0 < 256 := by omega
    have hsecond := isSecond_ofNat (a := c.toNat / 4096 % 0x10 + 0xe0) (n := c.toNat / 64) ha
      (by omega) (by omega) (by omega) (by omega)
    simp only [readChar, ofNat_lt ha, UInt8.reduceToNat, List.cons_append, List.nil_append,
      hsecond, isTail_ofNat, payload_ofNat, toNat_ofNat ha]
    rw [if_neg (by omega), if_neg (by omega), if_neg (by omega), if_pos (by omega)]
    simp only [Bool.not_true, Bool.false_eq_true, if_false]
    rw [ofNat_toNat_of_eq (c := c) (by omega)]
    rfl
  · rw [if_neg h₃]
    refine ⟨_, _, rfl, ?_⟩
    have ha : c.toNat / 262144 % 0x08 + 0xf0 < 256 := by omega
    have hsecond := isSecond_ofNat (a := c.toNat / 262144 % 0x08 + 0xf0) (n := c.toNat / 4096) ha
      (by omega) (by omega) (by omega) (by omega)
    simp only [readChar, ofNat_lt ha, UInt8.reduceToNat, List.cons_append, List.nil_append,
      hsecond, isTail_ofNat, payload_ofNat, toNat_ofNat ha]
    rw [if_neg (by omega), if_neg (by omega), if_neg (by omega), if_neg (by omega),
      if_pos (by omega)]
    simp only [Bool.not_true, Bool.false_eq_true, if_false]
    rw [ofNat_toNat_of_eq (c := c) (by omega)]
    rfl

/-! ## Texts -/

theorem decodeFrom_encode (position : Nat) (cs : List Char) :
    decodeFrom position (encode cs) = .ok cs := by
  induction cs generalizing position with
  | nil => rw [encode, List.flatMap_nil, decodeFrom]
  | cons c cs ih =>
    obtain ⟨a, tail, hbytes, hread⟩ := readChar_encode c (encode cs)
    have hencode : encode (c :: cs) = a :: (tail ++ encode cs) := by
      rw [encode, List.flatMap_cons, hbytes]
      rfl
    rw [hencode, decodeFrom]
    simp only [hread, List.drop_left, ih]
    rfl

/-- **Every text is read back from its bytes.** -/
@[simp]
theorem decode_encode (cs : List Char) : decode (encode cs) = .ok cs :=
  decodeFrom_encode 0 cs

/-! ## Bytes read and written back -/

private theorem val_charOfNat {n : Nat} (h : n < 0xD800 ∨ 0xDFFF < n ∧ n < 0x110000) :
    (Char.ofNat n).val.toNat = n := by
  rw [Char.ofNat, dif_pos h]
  rfl

private theorem byte_of_toNat_eq {n : Nat} {b : UInt8} (h : n = b.toNat) : UInt8.ofNat n = b := by
  rw [h, UInt8.ofNat_toNat]

private theorem encodeChar_two {n : Nat} (h : 0x7f < n) (h' : n ≤ 0x7ff) :
    String.utf8EncodeChar (Char.ofNat n) =
      [UInt8.ofNat (n / 64 % 0x20 + 0xc0), UInt8.ofNat (n % 64 + 0x80)] := by
  rw [String.utf8EncodeChar, val_charOfNat (by omega), if_neg (by omega), if_pos h']

private theorem encodeChar_three {n : Nat} (h : 0x7ff < n) (h' : n ≤ 0xffff)
    (hscalar : n < 0xD800 ∨ 0xDFFF < n) :
    String.utf8EncodeChar (Char.ofNat n) =
      [UInt8.ofNat (n / 4096 % 0x10 + 0xe0), UInt8.ofNat (n / 64 % 64 + 0x80),
        UInt8.ofNat (n % 64 + 0x80)] := by
  rw [String.utf8EncodeChar, val_charOfNat (by omega), if_neg (by omega), if_neg (by omega),
    if_pos h']

private theorem encodeChar_four {n : Nat} (h : 0xffff < n) (h' : n < 0x110000) :
    String.utf8EncodeChar (Char.ofNat n) =
      [UInt8.ofNat (n / 262144 % 0x08 + 0xf0), UInt8.ofNat (n / 4096 % 64 + 0x80),
        UInt8.ofNat (n / 64 % 64 + 0x80), UInt8.ofNat (n % 64 + 0x80)] := by
  rw [String.utf8EncodeChar, val_charOfNat (by omega), if_neg (by omega), if_neg (by omega),
    if_neg (by omega)]

/-- **A character that is read is written as the bytes it was read from.** -/
theorem encode_of_readChar {a : UInt8} {rest : List UInt8} {c : Char} {more : Nat}
    (h : readChar a rest = .ok (c, more)) : String.utf8EncodeChar c = a :: rest.take more := by
  have ha := a.toNat_lt
  rw [readChar.eq_def] at h
  simp only [UInt8.lt_iff_toNat_lt, UInt8.reduceToNat] at h
  -- the first byte says how many bytes the character has
  split at h
  · obtain ⟨rfl, rfl⟩ := Prod.mk.inj (Except.ok.inj h)
    rw [String.utf8EncodeChar, val_charOfNat (by omega), if_pos (by omega)]
    simp
  split at h
  · simp at h
  split at h
  · rcases rest with _ | ⟨b, tail⟩
    · simp at h
    simp only at h
    split at h
    · rename_i htail
      obtain ⟨rfl, rfl⟩ := Prod.mk.inj (Except.ok.inj h)
      have hb := (isTail_iff b).mp htail
      rw [payload, encodeChar_two (by omega) (by omega)]
      simp only [List.take_succ_cons, List.take_zero, List.cons.injEq, and_true]
      exact ⟨byte_of_toNat_eq (by omega), byte_of_toNat_eq (by omega)⟩
    · simp at h
  split at h
  · rcases rest with _ | ⟨b, _ | ⟨b₂, tail⟩⟩
    · simp at h
    · simp only at h
      split at h <;> simp at h
    simp only at h
    split at h
    · simp at h
    split at h
    · simp at h
    rename_i hsecond htail
    obtain ⟨rfl, rfl⟩ := Prod.mk.inj (Except.ok.inj h)
    -- the bounds of the second byte keep the surrogates out
    have hb := (isSecond_iff a b).mp (by simpa using hsecond)
    have hb₂ := (isTail_iff b₂).mp (by simpa using htail)
    simp only [payload]
    rw [encodeChar_three (by omega) (by omega) (by omega)]
    simp only [List.take_succ_cons, List.take_zero, List.cons.injEq, and_true]
    exact ⟨byte_of_toNat_eq (by omega), byte_of_toNat_eq (by omega), byte_of_toNat_eq (by omega)⟩
  split at h
  · rcases rest with _ | ⟨b, _ | ⟨b₂, _ | ⟨b₃, tail⟩⟩⟩
    · simp at h
    · simp only at h
      split at h <;> simp at h
    · simp only at h
      split at h
      · simp at h
      · split at h <;> simp at h
    simp only at h
    split at h
    · simp at h
    split at h
    · simp at h
    split at h
    · simp at h
    rename_i hsecond htail htail'
    obtain ⟨rfl, rfl⟩ := Prod.mk.inj (Except.ok.inj h)
    have hb := (isSecond_iff a b).mp (by simpa using hsecond)
    have hb₂ := (isTail_iff b₂).mp (by simpa using htail)
    have hb₃ := (isTail_iff b₃).mp (by simpa using htail')
    simp only [payload]
    rw [encodeChar_four (by omega) (by omega)]
    simp only [List.take_succ_cons, List.take_zero, List.cons.injEq, and_true]
    exact ⟨byte_of_toNat_eq (by omega), byte_of_toNat_eq (by omega),
      byte_of_toNat_eq (by omega), byte_of_toNat_eq (by omega)⟩
  · simp at h

theorem encode_of_decodeFrom {position : Nat} {bytes : List UInt8} {cs : List Char}
    (h : decodeFrom position bytes = .ok cs) : encode cs = bytes := by
  induction position, bytes using decodeFrom.induct generalizing cs with
  | case1 position =>
    rw [decodeFrom] at h
    rw [← Except.ok.inj h]
    rfl
  | case2 position a rest flaw good hread =>
    rw [decodeFrom] at h
    simp [hread] at h
  | case3 position a rest c more hread ih =>
    rw [decodeFrom] at h
    simp only [hread] at h
    cases hrest : decodeFrom (position + 1 + more) (rest.drop more) with
    | error fault => simp [hrest, Except.map] at h
    | ok tail =>
      obtain rfl : c :: tail = cs := by simpa [hrest, Except.map] using h
      have htail : encode tail = rest.drop more := ih hrest
      calc encode (c :: tail) = String.utf8EncodeChar c ++ encode tail := List.flatMap_cons
        _ = a :: rest.take more ++ rest.drop more := by rw [encode_of_readChar hread, htail]
        _ = a :: rest := by rw [List.cons_append, List.take_append_drop]

/-- **Bytes that are a text are the bytes of that text.** -/
theorem encode_of_decode {bytes : List UInt8} {cs : List Char} (h : decode bytes = .ok cs) :
    encode cs = bytes :=
  encode_of_decodeFrom h

end Stencil.Text.Utf8
