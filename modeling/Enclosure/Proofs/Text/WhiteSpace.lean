import Enclosure.Proofs.Text.Encoding
import Enclosure.Proofs.Text.Pieces
import Mathlib.Data.List.DropRight

/-!
# White space on runes and on bytes

White space is told apart in two ways: on runes, by their code points, and on bytes, by the
encodings that trimming looks for. Both find the same characters at the front of a text and at its
end, although runes are read from the front only: a byte that starts a character can be recognised
from either side. So trimming takes away the first runes of a text that are white space, which make
up its indentation, and then the last ones, whatever stray bytes stand next to them.

ASCII white space may be put at either end of a text. It is trimmed again, and it is part of the
indentation exactly if it stands in front.

## Main results

* `Text.blankWidth_of_isBlank`, `Text.blankWidth_of_not_isBlank`: white space that is read as a rune
  is trimmed as a whole, and nothing else is.
* `Text.ofRunes_runes`: a text is read as runes without loss.
* `Text.runes_trimStart`, `Text.runes_trimEnd`: **trimming drops the runes at that end that are
  white space**.
* `Text.trim_eq_nil_iff`: a text is trimmed to nothing exactly if it is all white space.
* `Text.trim_blank_append`, `Text.indent_blank_append`, `Text.trim_append_blank`,
  `Text.indent_append_blank`: white space at the ends of a text.
* `Text.count_trim`: trimming takes away white space only.
-/

namespace Enclosure

namespace Text

/-- A white-space character at the front of a text is found whatever follows. -/
theorem blankWidth_append {t : Text} (ht : blankWidth t ≠ 0) (rest : Text) :
    blankWidth (t ++ rest) = blankWidth t := by
  rcases t with _ | ⟨b₀, _ | ⟨b₁, _ | ⟨b₂, t⟩⟩⟩
  · simp [blankWidth] at ht
  · have hb : isBlankByte b₀ = true := by simpa [blankWidth] using ht
    rcases rest with _ | ⟨b₁, _ | ⟨b₂, rest⟩⟩
    · rfl
    · simp [blankWidth, hb]
    · simp [blankWidth, hb]
  · rcases rest with _ | ⟨b₂, rest⟩
    · rfl
    · by_cases hb : isBlankByte b₀ = true
      · simp [blankWidth, hb]
      · have hpair : isBlankPair b₀ b₁ = true := by simpa [blankWidth, hb] using ht
        simp [blankWidth, hb, hpair]
  · rfl

/-- The encodings that trimming looks for are those of the white-space characters. -/
theorem blankWidth_encoded : ∀ n ∈ blankCodes,
    blankWidth (String.utf8EncodeChar (Char.ofNat n)) =
      (String.utf8EncodeChar (Char.ofNat n)).length := by
  decide +kernel

/-- White space that is read as a rune is trimmed as a whole. -/
theorem blankWidth_of_isBlank {b : UInt8} {t : Text} (h : (Rune.first b t).1.isBlank = true) :
    blankWidth (b :: t) = (Rune.first b t).2 + 1 := by
  have hbytes := Rune.bytes_first b t
  have hwidth := Rune.first_width_le b t
  cases hr : (Rune.first b t).1 with
  | stray b' => simp [hr, Rune.isBlank] at h
  | scalar c =>
      have hc : c.toNat ∈ blankCodes := by simpa [hr, Rune.isBlank] using h
      have hencoded := blankWidth_encoded c.toNat hc
      rw [Char.ofNat_toNat] at hencoded
      rw [hr, Rune.bytes] at hbytes
      rw [hbytes, List.length_cons, List.length_take, Nat.min_eq_left hwidth] at hencoded
      have happend := blankWidth_append (by rw [hencoded]; omega) (t.drop (Rune.first b t).2)
      rwa [List.cons_append, List.take_append_drop, hencoded] at happend

/-! ### Trimming at the front -/

/-- What trimming looks for at the front of a text is the encoding of a white-space character. -/
theorem exists_blankCode_of_blankWidth {t : Text} (ht : blankWidth t ≠ 0) :
    ∃ n ∈ blankCodes, ∃ rest, t = String.utf8EncodeChar (Char.ofNat n) ++ rest := by
  have hbyte : ∀ i : Fin 256, isBlankByte (UInt8.ofFin i) = true →
      ∃ n ∈ blankCodes, String.utf8EncodeChar (Char.ofNat n) = [UInt8.ofFin i] := by
    decide +kernel
  have hpair {b₀ b₁ : UInt8} (h : isBlankPair b₀ b₁ = true) :
      ∃ n ∈ blankCodes, String.utf8EncodeChar (Char.ofNat n) = [b₀, b₁] := by
    simp only [isBlankPair, Bool.and_eq_true, Bool.or_eq_true, beq_iff_eq] at h
    obtain ⟨rfl, rfl | rfl⟩ := h
    · exact ⟨0x85, by decide, by decide⟩
    · exact ⟨0xA0, by decide, by decide⟩
  have hspaces : ∀ i : Fin 256, isBlankTriple 0xE2 0x80 (UInt8.ofFin i) = true →
      ∃ n ∈ blankCodes, String.utf8EncodeChar (Char.ofNat n) = [0xE2, 0x80, UInt8.ofFin i] := by
    decide +kernel
  have htriple {b₀ b₁ b₂ : UInt8} (h : isBlankTriple b₀ b₁ b₂ = true) :
      ∃ n ∈ blankCodes, String.utf8EncodeChar (Char.ofNat n) = [b₀, b₁, b₂] := by
    have h' := h
    simp only [isBlankTriple, Bool.or_eq_true, Bool.and_eq_true, beq_iff_eq] at h
    obtain ((⟨⟨rfl, rfl⟩, rfl⟩ | ⟨⟨rfl, rfl⟩, -⟩) | ⟨⟨rfl, rfl⟩, rfl⟩) | ⟨⟨rfl, rfl⟩, rfl⟩ := h
    · exact ⟨0x1680, by decide, by decide⟩
    · exact hspaces b₂.toFin h'
    · exact ⟨0x205F, by decide, by decide⟩
    · exact ⟨0x3000, by decide, by decide⟩
  -- A longer encoding is looked for only where no shorter one is found.
  have hfirst {b₀ : UInt8} {rest : Text} (h : isBlankByte b₀ = true) :
      ∃ n ∈ blankCodes, ∃ rest', b₀ :: rest = String.utf8EncodeChar (Char.ofNat n) ++ rest' := by
    obtain ⟨n, hn, hencoded⟩ := hbyte b₀.toFin h
    exact ⟨n, hn, rest, by rw [hencoded]; rfl⟩
  rcases t with _ | ⟨b₀, _ | ⟨b₁, _ | ⟨b₂, rest⟩⟩⟩
  · simp [blankWidth] at ht
  · exact hfirst (by simpa [blankWidth] using ht)
  · by_cases h₀ : isBlankByte b₀ = true
    · exact hfirst h₀
    · obtain ⟨n, hn, hencoded⟩ := hpair (by simpa [blankWidth, h₀] using ht)
      exact ⟨n, hn, [], by rw [hencoded]; rfl⟩
  · by_cases h₀ : isBlankByte b₀ = true
    · exact hfirst h₀
    · by_cases h₁ : isBlankPair b₀ b₁ = true
      · obtain ⟨n, hn, hencoded⟩ := hpair h₁
        exact ⟨n, hn, b₂ :: rest, by rw [hencoded]; rfl⟩
      · obtain ⟨n, hn, hencoded⟩ := htriple (by simpa [blankWidth, h₀, h₁] using ht)
        exact ⟨n, hn, rest, by rw [hencoded]; rfl⟩

/-- The code points of white space are those of characters. -/
theorem toNat_blankCode : ∀ n ∈ blankCodes, (Char.ofNat n).toNat = n := by
  decide +kernel

/-- Nothing is trimmed where the first rune is no white space. -/
theorem blankWidth_of_not_isBlank {b : UInt8} {t : Text} (h : (Rune.first b t).1.isBlank = false) :
    blankWidth (b :: t) = 0 := by
  by_contra hne
  obtain ⟨n, hn, rest, heq⟩ := exists_blankCode_of_blankWidth hne
  obtain ⟨b', t', hencoded, hfirst⟩ := Rune.first_encoded (Char.ofNat n)
  rw [hencoded, List.cons_append] at heq
  obtain ⟨rfl, rfl⟩ := List.cons.inj heq
  rw [hfirst, Rune.isBlank, toNat_blankCode n hn] at h
  rw [List.contains_iff_mem.mpr hn] at h
  cases h

/-- Runes that are read from the middle of a text are read from what is left there. -/
theorem ofRunes_runesFrom (skip : Nat) (t : Text) : ofRunes (runesFrom [] skip t) = t.drop skip := by
  induction t generalizing skip with
  | nil => simp [runesFrom, ofRunes]
  | cons b t ih =>
      cases skip with
      | succ skip => exact ih skip
      | zero =>
          rw [← runes, runes_cons, ofRunes, List.flatMap_cons, ← ofRunes, ih, Rune.bytes_first,
            List.cons_append, List.take_append_drop, List.drop_zero]

/-- **A text is read as runes without loss.** -/
theorem ofRunes_runes (t : Text) : ofRunes t.runes = t :=
  ofRunes_runesFrom 0 t

/-- Texts with the same runes are the same. -/
theorem runes_injective {s t : Text} (h : s.runes = t.runes) : s = t := by
  rw [← ofRunes_runes s, ← ofRunes_runes t, h]

/-- Only the empty text has no runes. -/
theorem runes_eq_nil_iff {t : Text} : t.runes = [] ↔ t = [] :=
  ⟨fun h => runes_injective (h.trans rfl), fun h => by rw [h]; rfl⟩

/-- Dropping white space from the middle of a text on. -/
theorem runes_dropUnits (skip : Nat) (t : Text) :
    (dropUnits blankWidth skip t).runes = (runesFrom [] skip t).dropWhile Rune.isBlank := by
  induction t generalizing skip with
  | nil => simp [dropUnits, runes, runesFrom]
  | cons b t ih =>
      cases skip with
      | succ skip => exact ih skip
      | zero =>
          rw [← runes, runes_cons, dropUnits, List.dropWhile_cons]
          by_cases hb : (Rune.first b t).1.isBlank = true
          · rw [blankWidth_of_isBlank hb, if_pos hb]
            exact ih _
          · rw [blankWidth_of_not_isBlank (Bool.eq_false_iff.mpr hb), if_neg hb]
            exact runes_cons b t

/-- **Trimming at the front drops the runes that are white space.** -/
theorem runes_trimStart (t : Text) : t.trimStart.runes = t.runes.dropWhile Rune.isBlank :=
  runes_dropUnits 0 t

/-- What is left at the front decides how a text is trimmed. -/
theorem trim_eq_of_runes {s t : Text}
    (h : s.runes.dropWhile Rune.isBlank = t.runes.dropWhile Rune.isBlank) : s.trim = t.trim := by
  have hstart : s.trimStart = t.trimStart :=
    runes_injective (by rw [runes_trimStart, runes_trimStart, h])
  rw [trim, trim, hstart]

/-! ### Trimming at the end -/

/-- White space of two bytes has no ASCII in it. -/
theorem not_ascii_of_isBlankPair {b₀ b₁ : UInt8} (h : isBlankPair b₀ b₁ = true) :
    0x80 ≤ b₀ ∧ 0x80 ≤ b₁ := by
  simp only [isBlankPair, Bool.and_eq_true, Bool.or_eq_true, beq_iff_eq] at h
  obtain ⟨rfl, rfl | rfl⟩ := h
  · decide
  · decide

/-- White space of three bytes has no ASCII in it. -/
theorem not_ascii_of_isBlankTriple {b₀ b₁ b₂ : UInt8} (h : isBlankTriple b₀ b₁ b₂ = true) :
    0x80 ≤ b₀ ∧ 0x80 ≤ b₁ ∧ 0x80 ≤ b₂ := by
  have hspaces : ∀ i : Fin 256, isBlankTriple 0xE2 0x80 (UInt8.ofFin i) = true →
      0x80 ≤ UInt8.ofFin i := by
    decide +kernel
  have h' := h
  simp only [isBlankTriple, Bool.or_eq_true, Bool.and_eq_true, beq_iff_eq] at h
  obtain ((⟨⟨rfl, rfl⟩, rfl⟩ | ⟨⟨rfl, rfl⟩, -⟩) | ⟨⟨rfl, rfl⟩, rfl⟩) | ⟨⟨rfl, rfl⟩, rfl⟩ := h
  · decide
  · exact ⟨by decide, by decide, hspaces b₂.toFin h'⟩
  · decide
  · decide

/-- Units that are still to be skipped are dropped first. -/
theorem dropUnits_eq_dropUnits_drop (width : Text → Nat) (skip : Nat) (t : Text) :
    dropUnits width skip t = dropUnits width 0 (t.drop skip) := by
  induction t generalizing skip with
  | nil => rw [List.drop_nil, dropUnits, dropUnits]
  | cons b t ih =>
      cases skip with
      | zero => rfl
      | succ skip => exact ih skip

/-- A unit in front of a text is dropped. -/
theorem dropUnits_append {width : Text → Nat} {u : Text} (hu : u ≠ []) {rest : Text}
    (hwidth : width (u ++ rest) = u.length) :
    dropUnits width 0 (u ++ rest) = dropUnits width 0 rest := by
  obtain ⟨b, u, rfl⟩ := List.exists_cons_of_ne_nil hu
  rw [List.cons_append, List.length_cons] at hwidth
  rw [List.cons_append, dropUnits, hwidth]
  simp only
  rw [dropUnits_eq_dropUnits_drop, List.drop_left]

/-- White space of one byte is ASCII. -/
theorem isBlankByte_eq_false {b : UInt8} (hb : 0x80 ≤ b) : isBlankByte b = false := by
  rw [Bool.eq_false_iff]
  exact fun h => UInt8.not_lt.mpr hb (isBlank_of_isBlankByte h).1

/-- White space of three bytes has none of two bytes in it. -/
theorem isBlankPair_eq_false_of_isBlankTriple {b₀ b₁ b₂ : UInt8}
    (h : isBlankTriple b₀ b₁ b₂ = true) :
    isBlankPair b₀ b₁ = false ∧ isBlankPair b₁ b₂ = false := by
  have hlead {b c : UInt8} (hb : b ≠ 0xC2) : isBlankPair b c = false := by
    rw [isBlankPair, beq_eq_false_iff_ne.mpr hb, Bool.false_and]
  constructor
  · apply hlead
    rintro rfl
    simp [isBlankTriple] at h
  · apply hlead
    rintro rfl
    simp [isBlankTriple] at h

/-- White space at the end of a text is found from there as a whole. -/
theorem blankWidthBack_reverse_append {u : Text} (hne : u ≠ []) (hu : blankWidth u = u.length)
    (rest : Text) : blankWidthBack (u.reverse ++ rest) = u.length := by
  rcases u with _ | ⟨b₀, _ | ⟨b₁, _ | ⟨b₂, _ | ⟨b₃, u⟩⟩⟩⟩
  · exact absurd rfl hne
  · have hb : isBlankByte b₀ = true := by simpa [blankWidth] using hu
    rcases rest with _ | ⟨c₀, _ | ⟨c₁, rest⟩⟩ <;> simp [blankWidthBack, hb]
  · have hb : isBlankPair b₀ b₁ = true := by grind [blankWidth]
    have hlast := isBlankByte_eq_false (not_ascii_of_isBlankPair hb).2
    rcases rest with _ | ⟨c₀, rest⟩ <;> simp [blankWidthBack, hb, hlast]
  · have hb : isBlankTriple b₀ b₁ b₂ = true := by grind [blankWidth]
    have hlast := isBlankByte_eq_false (not_ascii_of_isBlankTriple hb).2.2
    simp [blankWidthBack, hb, hlast, (isBlankPair_eq_false_of_isBlankTriple hb).2]
  · grind [blankWidth]

/-- What is found from the end is white space, read from the front. -/
theorem exists_of_blankWidthBack {t : Text} (ht : blankWidthBack t ≠ 0) :
    ∃ u rest, t = u.reverse ++ rest ∧ u ≠ [] ∧ blankWidth u = u.length := by
  have hbyte {b : UInt8} {rest : Text} (hb : isBlankByte b = true) :
      ∃ u rest', b :: rest = u.reverse ++ rest' ∧ u ≠ [] ∧ blankWidth u = u.length :=
    ⟨[b], rest, rfl, by simp, by simp [blankWidth, hb]⟩
  have hpair {b₀ b₁ : UInt8} {rest : Text} (hb : isBlankPair b₀ b₁ = true) :
      ∃ u rest', b₁ :: b₀ :: rest = u.reverse ++ rest' ∧ u ≠ [] ∧ blankWidth u = u.length := by
    have hfirst := isBlankByte_eq_false (not_ascii_of_isBlankPair hb).1
    exact ⟨[b₀, b₁], rest, rfl, by simp, by simp [blankWidth, hfirst, hb]⟩
  have htriple {b₀ b₁ b₂ : UInt8} {rest : Text} (hb : isBlankTriple b₀ b₁ b₂ = true) :
      ∃ u rest', b₂ :: b₁ :: b₀ :: rest = u.reverse ++ rest' ∧ u ≠ [] ∧
        blankWidth u = u.length := by
    have hfirst := isBlankByte_eq_false (not_ascii_of_isBlankTriple hb).1
    have hpair := (isBlankPair_eq_false_of_isBlankTriple hb).1
    exact ⟨[b₀, b₁, b₂], rest, rfl, by simp, by simp [blankWidth, hfirst, hpair, hb]⟩
  rcases t with _ | ⟨b₂, _ | ⟨b₁, _ | ⟨b₀, rest⟩⟩⟩
  · exact absurd rfl ht
  · exact hbyte (by simpa [blankWidthBack] using ht)
  · by_cases h : isBlankByte b₂ = true
    · exact hbyte h
    · exact hpair (by simpa [blankWidthBack, h] using ht)
  · by_cases h : isBlankByte b₂ = true
    · exact hbyte h
    · by_cases h' : isBlankPair b₁ b₂ = true
      · exact hpair h'
      · exact htriple (by simpa [blankWidthBack, h, h'] using ht)

/-- A white-space character at the end of a text is found from there. -/
theorem blankWidthBack_append_encoded (t : Text) {n : Nat} (hn : n ∈ blankCodes) :
    blankWidthBack (t ++ String.utf8EncodeChar (Char.ofNat n)).reverse =
      (String.utf8EncodeChar (Char.ofNat n)).length := by
  rw [List.reverse_append]
  exact blankWidthBack_reverse_append String.utf8EncodeChar_ne_nil (blankWidth_encoded n hn)
    t.reverse

/-- What trimming looks for at the end of a text is the encoding of a white-space character. -/
theorem exists_blankCode_of_blankWidthBack {t : Text} (ht : blankWidthBack t.reverse ≠ 0) :
    ∃ n ∈ blankCodes, ∃ s, t = s ++ String.utf8EncodeChar (Char.ofNat n) := by
  obtain ⟨u, rest, hreverse, hne, hu⟩ := exists_of_blankWidthBack ht
  have hwidth : blankWidth u ≠ 0 := by
    rw [hu]
    exact mt List.length_eq_zero_iff.mp hne
  obtain ⟨n, hn, rest', rfl⟩ := exists_blankCode_of_blankWidth hwidth
  have hencoded := blankWidth_encoded n hn
  have hwhole : rest' = [] := by
    have hlength : (String.utf8EncodeChar (Char.ofNat n)).length ≠ 0 :=
      mt List.length_eq_zero_iff.mp String.utf8EncodeChar_ne_nil
    rw [blankWidth_append (by rwa [hencoded]), hencoded, List.length_append] at hu
    exact List.length_eq_zero_iff.mp (by omega)
  refine ⟨n, hn, rest.reverse, ?_⟩
  rw [← List.reverse_reverse t, hreverse, hwhole, List.append_nil, List.reverse_append,
    List.reverse_reverse]

/-- A white-space character at the end of a text is trimmed. -/
theorem trimEnd_append_encoded (t : Text) {n : Nat} (hn : n ∈ blankCodes) :
    (t ++ String.utf8EncodeChar (Char.ofNat n)).trimEnd = t.trimEnd := by
  have hwidth := blankWidthBack_append_encoded t hn
  rw [List.reverse_append, ← List.length_reverse] at hwidth
  rw [trimEnd, List.reverse_append,
    dropUnits_append (by simp) hwidth, trimEnd]

/-- White space that is read as the last rune of a text is its end. -/
theorem exists_eq_append_encoded {t : Text} {r : Rune} (hr : t.runes.getLast? = some r)
    (hblank : r.isBlank = true) :
    ∃ n ∈ blankCodes, ∃ s, t = s ++ String.utf8EncodeChar (Char.ofNat n) := by
  obtain ⟨rs, hrs⟩ := List.getLast?_eq_some_iff.mp hr
  cases r with
  | stray b => simp [Rune.isBlank] at hblank
  | scalar c =>
      refine ⟨c.toNat, by simpa [Rune.isBlank] using hblank, ofRunes rs, ?_⟩
      rw [← ofRunes_runes t, hrs, ofRunes, List.flatMap_append, Char.ofNat_toNat]
      simp [ofRunes, Rune.bytes]

/-- **Trimming at the end drops the last runes that are white space.** -/
theorem runes_trimEnd (t : Text) : t.trimEnd.runes = t.runes.rdropWhile Rune.isBlank := by
  induction hlength : t.length using Nat.strongRecOn generalizing t with
  | ind k ih =>
      by_cases hwidth : blankWidthBack t.reverse = 0
      · have hkeep : t.runes.rdropWhile Rune.isBlank = t.runes := by
          rw [List.rdropWhile_eq_self_iff]
          intro hne hblank
          obtain ⟨n, hn, s, rfl⟩ :=
            exists_eq_append_encoded (List.getLast?_eq_some_getLast hne) hblank
          rw [blankWidthBack_append_encoded s hn] at hwidth
          exact String.utf8EncodeChar_ne_nil (List.length_eq_zero_iff.mp hwidth)
        rw [hkeep, trimEnd, dropUnits_of_width hwidth, List.reverse_reverse]
      · obtain ⟨n, hn, s, rfl⟩ := exists_blankCode_of_blankWidthBack hwidth
        have hblank : Rune.isBlank (.scalar (Char.ofNat n)) = true := by
          rw [Rune.isBlank, toNat_blankCode n hn, List.contains_iff_mem]
          exact hn
        have hshorter : s.length < k := by
          have hpos : 0 < (String.utf8EncodeChar (Char.ofNat n)).length :=
            List.length_pos_of_ne_nil String.utf8EncodeChar_ne_nil
          rw [List.length_append] at hlength
          omega
        rw [trimEnd_append_encoded s hn, ih s.length hshorter s rfl, runes_append_encoded,
          List.rdropWhile_concat_pos _ _ _ hblank]

/-- **Trimming drops the first and the last runes that are white space.** -/
theorem runes_trim (t : Text) :
    t.trim.runes = (t.runes.dropWhile Rune.isBlank).rdropWhile Rune.isBlank := by
  rw [trim, runes_trimEnd, runes_trimStart]

/-- **A text is trimmed to nothing exactly if all of its runes are white space.** -/
theorem trim_eq_nil_iff {t : Text} : t.trim = [] ↔ ∀ r ∈ t.runes, r.isBlank = true := by
  rw [← runes_eq_nil_iff, runes_trim, List.rdropWhile_eq_nil_iff]
  constructor
  · intro hall
    have hdrop : t.runes.dropWhile Rune.isBlank = [] := by
      by_contra hne
      have hhead := hall _ (List.head_mem hne)
      rw [List.head_dropWhile_not Rune.isBlank] at hhead
      cases hhead
    exact List.dropWhile_eq_nil_iff.mp hdrop
  · intro hall r hr
    exact hall r ((List.dropWhile_suffix _).mem hr)

/-- A text that is not blank has a rune that is no white space. -/
theorem isBlank_eq_false_iff {t : Text} :
    t.isBlank = false ↔ ∃ r ∈ t.runes, r.isBlank = false := by
  rw [isBlank, List.isEmpty_eq_false_iff, ne_eq, trim_eq_nil_iff]
  simp

/-- There is nothing to trim from a solid text. -/
theorem trim_of_isSolid {t : Text} (ht : t.isSolid = true) : t.trim = t := by
  have hsolid : ∀ r ∈ t.runes, ¬ r.isBlank = true := by
    intro r hr
    simpa using List.all_eq_true.mp ht r hr
  apply runes_injective
  rw [runes_trim, List.dropWhile_eq_self_iff.mpr fun hpos => hsolid _ (List.getElem_mem hpos),
    List.rdropWhile_eq_self_iff]
  exact fun hne => hsolid _ (List.getLast_mem hne)

/-! ### White space at the ends -/

section Blank

variable {blank : Text} (hblank : ∀ b ∈ blank, isBlankByte b = true)

include hblank

/-- ASCII white space in front of a text has a rune for each byte. -/
theorem runes_blank_append (t : Text) :
    (blank ++ t).runes = blank.map (fun b => .scalar (Char.ofNat b.toNat)) ++ t.runes := by
  induction blank with
  | nil => rfl
  | cons b blank ih =>
      obtain ⟨hb, hblank⟩ := List.forall_mem_cons.mp hblank
      rw [List.cons_append, runes_cons_ascii (isBlank_of_isBlankByte hb).1, ih hblank]
      rfl

/-- Each of these runes is white space. -/
theorem isBlank_of_mem_map :
    ∀ r ∈ blank.map (fun b => Rune.scalar (Char.ofNat b.toNat)), r.isBlank = true := by
  intro r hr
  obtain ⟨b, hb, rfl⟩ := List.mem_map.mp hr
  exact (isBlank_of_isBlankByte (hblank b hb)).2

/-- **White space in front of a text is trimmed.** -/
theorem trim_blank_append (t : Text) : (blank ++ t).trim = t.trim := by
  apply trim_eq_of_runes
  rw [runes_blank_append hblank, List.dropWhile_append_of_pos (isBlank_of_mem_map hblank)]

/-- **White space in front of a text adds to its indentation.** -/
theorem indent_blank_append (t : Text) : (blank ++ t).indent = blank.length + t.indent := by
  rw [indent, runes_blank_append hblank, List.takeWhile_append_of_pos (isBlank_of_mem_map hblank),
    List.length_append, List.length_map, indent]

/-- ASCII white space is white space as a sequence of runes. -/
theorem isBlank_of_mem_runes : ∀ r ∈ blank.runes, r.isBlank = true := by
  have hnil : runes [] = [] := rfl
  have hrunes := runes_blank_append hblank []
  rw [List.append_nil, hnil, List.append_nil] at hrunes
  rw [hrunes]
  exact isBlank_of_mem_map hblank

/-- White space at the end of a text adds its own runes. -/
theorem runes_append_blank (t : Text) : (t ++ blank).runes = t.runes ++ blank.runes := by
  cases blank with
  | nil => simp [runes, runesFrom]
  | cons b blank =>
      obtain ⟨hascii, -⟩ := isBlank_of_isBlankByte (hblank b List.mem_cons_self)
      exact runes_append t (Rune.isContinuation_of_ascii hascii) blank

/-- **White space at the end of a text is trimmed.** -/
theorem trim_append_blank (t : Text) : (t ++ blank).trim = t.trim := by
  have hblanks := isBlank_of_mem_runes hblank
  have hend (rs : List Rune) :
      (rs ++ blank.runes).rdropWhile Rune.isBlank = rs.rdropWhile Rune.isBlank := by
    rw [List.rdropWhile, List.reverse_append,
      List.dropWhile_append_of_pos fun r hr => hblanks r (List.mem_reverse.mp hr), List.rdropWhile]
  apply runes_injective
  rw [runes_trim, runes_append_blank hblank, List.dropWhile_append, runes_trim]
  split
  · rename_i hempty
    rw [List.isEmpty_iff.mp hempty, List.dropWhile_eq_nil_iff.mpr hblanks]
  · exact hend _

/-- White space at the end of a text that is not blank is no part of its indentation. -/
theorem indent_append_blank {t : Text} (ht : t.isBlank = false) : (t ++ blank).indent = t.indent := by
  obtain ⟨r, hr, hne⟩ := isBlank_eq_false_iff.mp ht
  have hstop : (t.runes.takeWhile Rune.isBlank).length ≠ t.runes.length := by
    intro heq
    have hself := (List.takeWhile_prefix Rune.isBlank).eq_of_length heq
    rw [List.takeWhile_eq_self_iff.mp hself r hr] at hne
    cases hne
  rw [indent, runes_append_blank hblank, List.takeWhile_append, if_neg hstop, indent]

end Blank

/-- The text after its indentation, as a sequence of runes. -/
theorem trimStart_eq_ofRunes (t : Text) :
    t.trimStart = ofRunes (t.runes.dropWhile Rune.isBlank) := by
  rw [← runes_trimStart, ofRunes_runes]

/-- Without its indentation a text is trimmed as before. -/
theorem trim_trimStart (t : Text) : t.trimStart.trim = t.trim := by
  apply trim_eq_of_runes
  rw [runes_trimStart, List.dropWhile_idempotent]

/-- Without its indentation a text has none. -/
theorem indent_trimStart (t : Text) : t.trimStart.indent = 0 := by
  rw [indent, runes_trimStart, List.length_eq_zero_iff, List.takeWhile_eq_nil_iff]
  exact fun hpos => List.dropWhile_get_zero_not Rune.isBlank t.runes hpos

/-! ### What is trimmed -/

/-- What is dropped from either end is ASCII white space or no ASCII at all. -/
theorem isBlankByte_or_not_ascii {t : Text} {b : UInt8}
    (hb : b ∈ t.take (blankWidth t) ∨ b ∈ t.take (blankWidthBack t)) :
    isBlankByte b = true ∨ 0x80 ≤ b := by
  have hpair := @not_ascii_of_isBlankPair
  have htriple := @not_ascii_of_isBlankTriple
  rcases t with _ | ⟨b₀, _ | ⟨b₁, _ | ⟨b₂, t⟩⟩⟩
  all_goals
    simp only [blankWidth, blankWidthBack] at hb
    grind

/-- Dropping characters takes away no byte that none of them has. -/
theorem count_dropUnits {width : Text → Nat} {b : UInt8}
    (hwidth : ∀ t : Text, b ∉ t.take (width t)) (skip : Nat) (t : Text) :
    (dropUnits width skip t).count b = (t.drop skip).count b := by
  induction t generalizing skip with
  | nil => rw [dropUnits, List.drop_nil]
  | cons c t ih =>
      cases skip with
      | succ skip => exact ih skip
      | zero =>
          have hfirst := hwidth (c :: t)
          rw [dropUnits, List.drop_zero]
          split
          · rfl
          · rename_i skip hskip
            rw [hskip, List.take_succ_cons, List.mem_cons, not_or] at hfirst
            obtain ⟨hc, htake⟩ := hfirst
            calc (dropUnits width skip t).count b
              _ = (t.drop skip).count b := ih skip
              _ = (t.take skip ++ t.drop skip).count b := by
                  rw [List.count_append, List.count_eq_zero.mpr htake, Nat.zero_add]
              _ = (c :: t).count b := by
                  rw [List.take_append_drop, List.count_cons_of_ne (Ne.symm hc)]

/-- **Trimming takes away white space only**: all other ASCII bytes occur as often as before. -/
theorem count_trim {b : UInt8} (hascii : b < 0x80) (hblank : isBlankByte b = false) (t : Text) :
    t.trim.count b = t.count b := by
  have hkept (t : Text) : ¬ (b ∈ t.take (blankWidth t) ∨ b ∈ t.take (blankWidthBack t)) := by
    intro hb
    obtain h | h := isBlankByte_or_not_ascii hb
    · rw [hblank] at h
      cases h
    · exact UInt8.not_lt.mpr h hascii
  calc t.trim.count b
    _ = t.trimStart.count b := by
        rw [trim, trimEnd, List.count_reverse, count_dropUnits fun t => (not_or.mp (hkept t)).2,
          List.drop_zero, List.count_reverse]
    _ = t.count b := by
        rw [trimStart, count_dropUnits fun t => (not_or.mp (hkept t)).1, List.drop_zero]

end Text

end Enclosure
