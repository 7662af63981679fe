import Enclosure.Proofs.Text.Runes

/-!
# Runes and their encodings

A rune is read from exactly the bytes that encode it, and the encoding of a character is read as
that character, whatever follows. So reading a text as runes loses nothing, and characters that are
written one after the other are read one after the other.

## Main results

* `Rune.bytes_first`: the bytes of the first rune of a text are the bytes it takes.
* `Rune.first_encoded`: the encoding of a character is read as that character.
* `Text.runes_append_encoded`: a character behind a text adds itself to its runes.
-/

namespace Enclosure

namespace Rune

/-- The code point of the character with a valid number. -/
theorem toNat_val_ofNat {n : Nat} (hn : n.isValidChar) : (Char.ofNat n).val.toNat = n := by
  rw [Char.ofNat, dif_pos hn]
  rfl

/-- The byte with the number of a byte is that byte. -/
theorem ofNat_eq_of_eq_toNat {n : Nat} {b : UInt8} (h : n = b.toNat) : UInt8.ofNat n = b := by
  rw [h, UInt8.ofNat_toNat]

/-- What it means for a byte to continue a sequence. -/
theorem isContinuation_iff (b : UInt8) :
    isContinuation b = true ↔ 128 ≤ b.toNat ∧ b.toNat ≤ 191 := by
  simp only [isContinuation, Bool.and_eq_true, decide_eq_true_eq, UInt8.le_iff_toNat_le,
    UInt8.reduceToNat]

/-- What it means for a byte to follow a leading byte. -/
theorem isSecond_iff (b₀ b₁ : UInt8) : isSecond b₀ b₁ = true ↔
    128 ≤ b₁.toNat ∧ b₁.toNat ≤ 191 ∧ (b₀.toNat = 224 → 160 ≤ b₁.toNat) ∧
      (b₀.toNat = 237 → b₁.toNat ≤ 159) ∧ (b₀.toNat = 240 → 144 ≤ b₁.toNat) ∧
      (b₀.toNat = 244 → b₁.toNat ≤ 143) := by
  simp only [isSecond, isContinuation, beq_iff_eq, ← UInt8.toNat_inj, UInt8.reduceToNat]
  repeat' split
  all_goals
    simp only [Bool.and_eq_true, decide_eq_true_eq, UInt8.le_iff_toNat_le, UInt8.reduceToNat]
    omega

variable {b₀ b₁ b₂ b₃ : UInt8}

/-- A sequence of two bytes encodes the character that is read from it. -/
theorem encode_two (h₀ : 194 ≤ b₀.toNat ∧ b₀.toNat ≤ 223) (h₁ : isSecond b₀ b₁ = true) :
    String.utf8EncodeChar (Char.ofNat (b₀.toNat % 32 * 64 + payload b₁)) = [b₀, b₁] := by
  have hp₁ : payload b₁ = b₁.toNat % 64 := rfl
  rw [isSecond_iff] at h₁
  have hvalid : (b₀.toNat % 32 * 64 + payload b₁).isValidChar := by
    rw [Nat.isValidChar]
    omega
  rw [String.utf8EncodeChar.eq_1, toNat_val_ofNat hvalid, if_neg (by omega), if_pos (by omega),
    ofNat_eq_of_eq_toNat (b := b₀) (by omega), ofNat_eq_of_eq_toNat (b := b₁) (by omega)]

/-- A sequence of three bytes encodes the character that is read from it. -/
theorem encode_three (h₀ : 224 ≤ b₀.toNat ∧ b₀.toNat ≤ 239) (h₁ : isSecond b₀ b₁ = true)
    (h₂ : isContinuation b₂ = true) :
    String.utf8EncodeChar (Char.ofNat (b₀.toNat % 16 * 4096 + payload b₁ * 64 + payload b₂)) =
      [b₀, b₁, b₂] := by
  have hp₁ : payload b₁ = b₁.toNat % 64 := rfl
  have hp₂ : payload b₂ = b₂.toNat % 64 := rfl
  rw [isSecond_iff] at h₁
  rw [isContinuation_iff] at h₂
  have hvalid : (b₀.toNat % 16 * 4096 + payload b₁ * 64 + payload b₂).isValidChar := by
    rw [Nat.isValidChar]
    omega
  rw [String.utf8EncodeChar.eq_1, toNat_val_ofNat hvalid, if_neg (by omega), if_neg (by omega),
    if_pos (by omega), ofNat_eq_of_eq_toNat (b := b₀) (by omega),
    ofNat_eq_of_eq_toNat (b := b₁) (by omega), ofNat_eq_of_eq_toNat (b := b₂) (by omega)]

/-- A sequence of four bytes encodes the character that is read from it. -/
theorem encode_four (h₀ : 240 ≤ b₀.toNat ∧ b₀.toNat ≤ 244) (h₁ : isSecond b₀ b₁ = true)
    (h₂ : isContinuation b₂ = true) (h₃ : isContinuation b₃ = true) :
    String.utf8EncodeChar (Char.ofNat (b₀.toNat % 8 * 262144 + payload b₁ * 4096 + payload b₂ * 64
      + payload b₃)) = [b₀, b₁, b₂, b₃] := by
  have hp₁ : payload b₁ = b₁.toNat % 64 := rfl
  have hp₂ : payload b₂ = b₂.toNat % 64 := rfl
  have hp₃ : payload b₃ = b₃.toNat % 64 := rfl
  rw [isSecond_iff] at h₁
  rw [isContinuation_iff] at h₂ h₃
  have hvalid : (b₀.toNat % 8 * 262144 + payload b₁ * 4096 + payload b₂ * 64
      + payload b₃).isValidChar := by
    rw [Nat.isValidChar]
    omega
  rw [String.utf8EncodeChar.eq_1, toNat_val_ofNat hvalid, if_neg (by omega), if_neg (by omega),
    if_neg (by omega), ofNat_eq_of_eq_toNat (b := b₀) (by omega),
    ofNat_eq_of_eq_toNat (b := b₁) (by omega), ofNat_eq_of_eq_toNat (b := b₂) (by omega),
    ofNat_eq_of_eq_toNat (b := b₃) (by omega)]

/-- **The bytes of the first rune of a text are the bytes it takes.** -/
theorem bytes_first (b : UInt8) (t : Text) :
    (first b t).1.bytes = b :: t.take (first b t).2 := by
  unfold first
  split
  · rename_i h₀
    have hlt : b.toNat < 128 := h₀
    have hvalid : b.toNat.isValidChar := by
      rw [Nat.isValidChar]
      omega
    rw [bytes, String.utf8EncodeChar.eq_1, toNat_val_ofNat hvalid, if_pos (by omega),
      UInt8.ofNat_toNat]
    rfl
  split
  · rename_i h₀
    simp only [Bool.and_eq_true, decide_eq_true_eq] at h₀
    split
    · split
      · rename_i h₁
        exact encode_two h₀ h₁
      · rfl
    · rfl
  split
  · rename_i h₀
    simp only [Bool.and_eq_true, decide_eq_true_eq] at h₀
    split
    · split
      · rename_i h₁
        simp only [Bool.and_eq_true] at h₁
        exact encode_three h₀ h₁.1 h₁.2
      · rfl
    · rfl
  split
  · rename_i h₀
    simp only [Bool.and_eq_true, decide_eq_true_eq] at h₀
    split
    · split
      · rename_i h₁
        simp only [Bool.and_eq_true] at h₁
        exact encode_four h₀ h₁.1.1 h₁.1.2 h₁.2
      · rfl
    · rfl
  · rfl

/-- The character with the code point of a character is that character. -/
theorem ofNat_eq_of_eq_val {n : Nat} {c : Char} (h : n = c.val.toNat) : Char.ofNat n = c := by
  rw [h]
  exact Char.ofNat_toNat c

/-- The number of the byte with a small number. -/
theorem toNat_ofNat_of_lt {n : Nat} (hn : n < 256) : (UInt8.ofNat n).toNat = n := by
  rw [UInt8.toNat_ofNat']
  exact Nat.mod_eq_of_lt hn

/-- What it means for a byte to lie in a range. -/
theorem inRange_iff (lo hi b : UInt8) :
    (decide (lo ≤ b) && decide (b ≤ hi)) = true ↔ lo.toNat ≤ b.toNat ∧ b.toNat ≤ hi.toNat := by
  simp only [Bool.and_eq_true, decide_eq_true_eq, UInt8.le_iff_toNat_le]

/-- How a sequence of two bytes is read. -/
theorem first_two (h₀ : 194 ≤ b₀.toNat ∧ b₀.toNat ≤ 223) (h₁ : isSecond b₀ b₁ = true)
    (rest : Text) : first b₀ (b₁ :: rest) =
      (scalar (Char.ofNat (b₀.toNat % 32 * 64 + payload b₁)), 1) := by
  have hascii : ¬ b₀ < 0x80 := Nat.not_lt.mpr (show 128 ≤ b₀.toNat by omega)
  simp only [first, if_neg hascii, if_pos ((inRange_iff 0xC2 0xDF b₀).mpr h₀), if_pos h₁]

/-- How a sequence of three bytes is read. -/
theorem first_three (h₀ : 224 ≤ b₀.toNat ∧ b₀.toNat ≤ 239) (h₁ : isSecond b₀ b₁ = true)
    (h₂ : isContinuation b₂ = true) (rest : Text) : first b₀ (b₁ :: b₂ :: rest) =
      (scalar (Char.ofNat (b₀.toNat % 16 * 4096 + payload b₁ * 64 + payload b₂)), 2) := by
  have hascii : ¬ b₀ < 0x80 := Nat.not_lt.mpr (show 128 ≤ b₀.toNat by omega)
  have htwo : ¬ (194 ≤ b₀.toNat ∧ b₀.toNat ≤ 223) := by omega
  simp only [first, if_neg hascii, if_neg (mt (inRange_iff 0xC2 0xDF b₀).mp htwo),
    if_pos ((inRange_iff 0xE0 0xEF b₀).mpr h₀), h₁, h₂, Bool.and_self, if_true]

/-- How a sequence of four bytes is read. -/
theorem first_four (h₀ : 240 ≤ b₀.toNat ∧ b₀.toNat ≤ 244) (h₁ : isSecond b₀ b₁ = true)
    (h₂ : isContinuation b₂ = true) (h₃ : isContinuation b₃ = true) (rest : Text) :
    first b₀ (b₁ :: b₂ :: b₃ :: rest) = (scalar (Char.ofNat (b₀.toNat % 8 * 262144
      + payload b₁ * 4096 + payload b₂ * 64 + payload b₃)), 3) := by
  have hascii : ¬ b₀ < 0x80 := Nat.not_lt.mpr (show 128 ≤ b₀.toNat by omega)
  have htwo : ¬ (194 ≤ b₀.toNat ∧ b₀.toNat ≤ 223) := by omega
  have hthree : ¬ (224 ≤ b₀.toNat ∧ b₀.toNat ≤ 239) := by omega
  simp only [first, if_neg hascii, if_neg (mt (inRange_iff 0xC2 0xDF b₀).mp htwo),
    if_neg (mt (inRange_iff 0xE0 0xEF b₀).mp hthree),
    if_pos ((inRange_iff 0xF0 0xF4 b₀).mpr h₀), h₁, h₂, h₃, Bool.and_self, if_true]

/-- **The encoding of a character is read as that character**, whatever follows. -/
theorem first_encoded (c : Char) : ∃ b t, String.utf8EncodeChar c = b :: t ∧
    ∀ rest, first b (t ++ rest) = (scalar c, t.length) := by
  have hc : c.val.toNat.isValidChar := c.valid
  rw [Nat.isValidChar] at hc
  rw [String.utf8EncodeChar.eq_1]
  split
  · rename_i hv
    refine ⟨_, [], rfl, fun rest => ?_⟩
    have h₀ := toNat_ofNat_of_lt (n := c.val.toNat) (by omega)
    have hascii : UInt8.ofNat c.val.toNat < 0x80 :=
      show (UInt8.ofNat c.val.toNat).toNat < 128 by omega
    rw [List.nil_append, first_of_ascii hascii, h₀, ofNat_eq_of_eq_val rfl]
    rfl
  split
  · refine ⟨_, [_], rfl, fun rest => ?_⟩
    have h₀ := toNat_ofNat_of_lt (n := c.val.toNat / 64 % 32 + 192) (by omega)
    have h₁ := toNat_ofNat_of_lt (n := c.val.toNat % 64 + 128) (by omega)
    rw [List.singleton_append, first_two (by omega) (by rw [isSecond_iff]; omega),
      ofNat_eq_of_eq_val (c := c) (by rw [payload]; omega)]
    rfl
  split
  · refine ⟨_, [_, _], rfl, fun rest => ?_⟩
    have h₀ := toNat_ofNat_of_lt (n := c.val.toNat / 4096 % 16 + 224) (by omega)
    have h₁ := toNat_ofNat_of_lt (n := c.val.toNat / 64 % 64 + 128) (by omega)
    have h₂ := toNat_ofNat_of_lt (n := c.val.toNat % 64 + 128) (by omega)
    rw [List.cons_append, List.singleton_append, first_three (by omega)
      (by rw [isSecond_iff]; omega) (by rw [isContinuation_iff]; omega),
      ofNat_eq_of_eq_val (c := c) (by simp only [payload, h₀, h₁, h₂]; omega)]
    rfl
  · refine ⟨_, [_, _, _], rfl, fun rest => ?_⟩
    have h₀ := toNat_ofNat_of_lt (n := c.val.toNat / 262144 % 8 + 240) (by omega)
    have h₁ := toNat_ofNat_of_lt (n := c.val.toNat / 4096 % 64 + 128) (by omega)
    have h₂ := toNat_ofNat_of_lt (n := c.val.toNat / 64 % 64 + 128) (by omega)
    have h₃ := toNat_ofNat_of_lt (n := c.val.toNat % 64 + 128) (by omega)
    rw [List.cons_append, List.cons_append, List.singleton_append, first_four (by omega)
      (by rw [isSecond_iff]; omega) (by rw [isContinuation_iff]; omega)
      (by rw [isContinuation_iff]; omega),
      ofNat_eq_of_eq_val (c := c) (by simp only [payload, h₀, h₁, h₂, h₃]; omega)]
    rfl

/-- A byte that continues a sequence is a stray one where a rune should start. -/
theorem first_of_isContinuation {b : UInt8} (hb : isContinuation b = true) (t : Text) :
    first b t = (stray b, 0) := by
  rw [isContinuation_iff] at hb
  have hascii : ¬ b < 0x80 := Nat.not_lt.mpr hb.1
  have hleading (lo hi : UInt8) (hlo : 191 < lo.toNat) :
      ¬ (decide (lo ≤ b) && decide (b ≤ hi)) = true := by
    rw [inRange_iff]
    omega
  simp only [first, if_neg hascii, if_neg (hleading 0xC2 0xDF (by decide)),
    if_neg (hleading 0xE0 0xEF (by decide)), if_neg (hleading 0xF0 0xF4 (by decide))]

end Rune

namespace Text

/-- Nothing is read behind a rune that takes the whole text. -/
theorem runesFrom_length (t : Text) : runesFrom [] t.length t = [] := by
  induction t with
  | nil => rfl
  | cons b t ih => exact ih

/-- **A character behind a text adds itself.** -/
theorem runes_append_encoded (t : Text) (c : Char) :
    runes (t ++ String.utf8EncodeChar c) = t.runes ++ [.scalar c] := by
  obtain ⟨b, bs, hencoded, hfirst⟩ := Rune.first_encoded c
  have hfirst : Rune.first b bs = (.scalar c, bs.length) := by simpa using hfirst []
  have hb : Rune.isContinuation b = false := by
    rw [Bool.eq_false_iff]
    intro hb
    rw [Rune.first_of_isContinuation hb] at hfirst
    cases hfirst
  rw [hencoded, runes_append t hb, runes_cons, hfirst, runesFrom_length]

/-- There is nothing to repair in a text that is all ASCII. -/
theorem repaired_of_ascii {t : Text} (ht : ∀ b ∈ t, b < 0x80) : t.repaired = t := by
  induction t with
  | nil => rfl
  | cons b t ih =>
      obtain ⟨hb, ht⟩ := List.forall_mem_cons.mp ht
      have hbytes := Rune.bytes_first b t
      rw [Rune.first_of_ascii hb] at hbytes
      calc repaired (b :: t)
        _ = String.utf8EncodeChar (Char.ofNat b.toNat) ++ repaired t := by
            rw [repaired, runes_cons_ascii hb, List.flatMap_cons, ← repaired]
            rfl
        _ = b :: t := by rw [← Rune.bytes, hbytes, ih ht]; rfl

end Text

end Enclosure
