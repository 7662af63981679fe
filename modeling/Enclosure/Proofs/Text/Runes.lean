import Enclosure.Text.Rune

/-!
# Where runes start

A byte that continues no sequence starts a rune wherever it stands. So a text can be cut in front of
such a byte without changing how either part is read, whatever the bytes around it are. An ASCII
byte is even a rune of its own.

## Main results

* `Rune.first_append`: what follows from a starting byte on does not matter for the rune before it.
* `Text.runes_append`: a text is read in two parts around the start of a rune.
* `Text.runes_append_ascii`: and in three around an ASCII byte.
* `Text.exists_byte_of_mem_runes`: an ASCII character among the runes of a text is one of its bytes.
-/

namespace Enclosure

namespace Rune

/-- An ASCII byte continues no sequence. -/
theorem isContinuation_of_ascii {b : UInt8} (hb : b < 0x80) : isContinuation b = false := by
  have hlt : b.toNat < 128 := hb
  simp only [isContinuation, Bool.and_eq_false_iff, decide_eq_false_iff_not]
  left
  intro hle
  have hle : 128 ≤ b.toNat := hle
  omega

/-- What may follow a leading byte continues a sequence. -/
theorem isContinuation_of_isSecond {b₀ b : UInt8} (h : isSecond b₀ b = true) :
    isContinuation b = true := by
  have hmono {lo hi : UInt8} (hlo : 0x80 ≤ lo) (hhi : hi ≤ 0xBF)
      (h : (decide (lo ≤ b) && decide (b ≤ hi)) = true) : isContinuation b = true := by
    simp only [isContinuation, Bool.and_eq_true, decide_eq_true_eq] at h ⊢
    exact ⟨UInt8.le_trans hlo h.1, UInt8.le_trans h.2 hhi⟩
  unfold isSecond at h
  split at h
  · exact hmono (by decide) (by decide) h
  split at h
  · exact hmono (by decide) (by decide) h
  split at h
  · exact hmono (by decide) (by decide) h
  split at h
  · exact hmono (by decide) (by decide) h
  · exact h

/-- A rune takes no more bytes than there are. -/
theorem first_width_le (b : UInt8) (t : Text) : (first b t).2 ≤ t.length := by
  unfold first
  split
  · simp
  split
  · split
    · split <;> simp
    · simp
  split
  · split
    · split <;> simp
    · simp
  split
  · split
    · split <;> simp
    · simp
  · simp

/-- What follows from a byte on that continues no sequence does not matter for the rune before. -/
theorem first_append (b₀ : UInt8) (t : Text) {b : UInt8} (hb : isContinuation b = false)
    (rest : Text) : first b₀ (t ++ b :: rest) = first b₀ t := by
  have hsecond : isSecond b₀ b = false := by
    rw [Bool.eq_false_iff]
    intro h
    rw [isContinuation_of_isSecond h] at hb
    cases hb
  match t with
  | [] => simp only [first, List.nil_append]; cases rest with
    | nil => simp [hsecond]
    | cons c rest => cases rest <;> simp [hsecond]
  | [b₁] => cases rest with
    | nil => simp [first, hb]
    | cons c rest => simp [first, hb]
  | [b₁, b₂] => simp [first, hb]
  | b₁ :: b₂ :: b₃ :: t => simp [first]

/-- An ASCII byte is a rune of its own. -/
theorem first_of_ascii {b : UInt8} (hb : b < 0x80) (t : Text) :
    first b t = (scalar (Char.ofNat b.toNat), 0) := by
  unfold first
  rw [if_pos hb]

/-- The code point of a character is the number it is made from, or zero. -/
theorem toNat_ofNat_eq_or (n : Nat) : (Char.ofNat n).toNat = n ∨ (Char.ofNat n).toNat = 0 := by
  by_cases hn : n.isValidChar
  · left
    rw [Char.ofNat, dif_pos hn]
    rfl
  · right
    rw [Char.ofNat, dif_neg hn]
    rfl

/-- A character of two bytes is beyond ASCII. -/
theorem le_value_two {b₀ b₁ : UInt8} (h₀ : 0xC2 ≤ b₀ ∧ b₀ ≤ 0xDF) :
    128 ≤ b₀.toNat % 32 * 64 + payload b₁ := by
  have hlo : 194 ≤ b₀.toNat := h₀.1
  have hhi : b₀.toNat ≤ 223 := h₀.2
  omega

/-- A character of three bytes is beyond ASCII, since overlong forms are ruled out. -/
theorem le_value_three {b₀ b₁ b₂ : UInt8} (h₀ : 0xE0 ≤ b₀ ∧ b₀ ≤ 0xEF)
    (h₁ : isSecond b₀ b₁ = true) :
    128 ≤ b₀.toNat % 16 * 4096 + payload b₁ * 64 + payload b₂ := by
  have hlo : 224 ≤ b₀.toNat := h₀.1
  have hhi : b₀.toNat ≤ 239 := h₀.2
  by_cases hE0 : b₀ = 0xE0
  · subst hE0
    simp only [isSecond, beq_self_eq_true, if_true, Bool.and_eq_true, decide_eq_true_eq] at h₁
    have hlo : 160 ≤ b₁.toNat := h₁.1
    have hhi : b₁.toNat ≤ 191 := h₁.2
    simp only [payload]
    omega
  · have hne : b₀.toNat ≠ 224 := fun heq => hE0 (UInt8.toNat_inj.mp heq)
    omega

/-- A character of four bytes is beyond ASCII, since overlong forms are ruled out. -/
theorem le_value_four {b₀ b₁ b₂ b₃ : UInt8} (h₀ : 0xF0 ≤ b₀ ∧ b₀ ≤ 0xF4)
    (h₁ : isSecond b₀ b₁ = true) :
    128 ≤ b₀.toNat % 8 * 262144 + payload b₁ * 4096 + payload b₂ * 64 + payload b₃ := by
  have hlo : 240 ≤ b₀.toNat := h₀.1
  have hhi : b₀.toNat ≤ 244 := h₀.2
  by_cases hF0 : b₀ = 0xF0
  · subst hF0
    have hne : ¬ (0xF0 : UInt8) = 0xE0 ∧ ¬ (0xF0 : UInt8) = 0xED := by decide
    simp only [isSecond, beq_iff_eq, if_neg hne.1, if_neg hne.2, if_true, Bool.and_eq_true,
      decide_eq_true_eq] at h₁
    have hlo : 144 ≤ b₁.toNat := h₁.1
    have hhi : b₁.toNat ≤ 191 := h₁.2
    simp only [payload]
    omega
  · have hne : b₀.toNat ≠ 240 := fun heq => hF0 (UInt8.toNat_inj.mp heq)
    omega

/-- **What the first rune of a text can be**: its first byte as an ASCII character, a stray byte, or
a character beyond ASCII. -/
theorem first_cases (b : UInt8) (t : Text) :
    (first b t).1 = scalar (Char.ofNat b.toNat) ∨ (first b t).1 = stray b ∨
      ∃ n, 128 ≤ n ∧ (first b t).1 = scalar (Char.ofNat n) := by
  unfold first
  split
  · exact .inl rfl
  right
  split
  · rename_i h₀
    simp only [Bool.and_eq_true, decide_eq_true_eq] at h₀
    split
    · split
      · exact .inr ⟨_, le_value_two h₀, rfl⟩
      · exact .inl rfl
    · exact .inl rfl
  split
  · rename_i h₀
    simp only [Bool.and_eq_true, decide_eq_true_eq] at h₀
    split
    · split
      · rename_i h₁
        exact .inr ⟨_, le_value_three h₀ (Bool.and_eq_true_iff.mp h₁).1, rfl⟩
      · exact .inl rfl
    · exact .inl rfl
  split
  · rename_i h₀
    simp only [Bool.and_eq_true, decide_eq_true_eq] at h₀
    split
    · split
      · rename_i h₁
        simp only [Bool.and_eq_true] at h₁
        exact .inr ⟨_, le_value_four h₀ h₁.1.1, rfl⟩
      · exact .inl rfl
    · exact .inl rfl
  · exact .inl rfl

/-- An ASCII character other than zero is read from the byte that it is. -/
theorem toNat_eq_of_first {b : UInt8} {t : Text} (hpos : 0 < (first b t).1.toChar.toNat)
    (hlt : (first b t).1.toChar.toNat < 128) : b.toNat = (first b t).1.toChar.toNat := by
  obtain hfirst | hfirst | ⟨n, hn, hfirst⟩ := first_cases b t
  · rw [hfirst, toChar] at hpos ⊢
    obtain heq | heq := toNat_ofNat_eq_or b.toNat <;> omega
  · simp [hfirst, toChar] at hlt
  · rw [hfirst, toChar] at hpos hlt
    obtain heq | heq := toNat_ofNat_eq_or n <;> omega

end Rune

namespace Text

/-- The runes read so far come first. -/
theorem runesFrom_eq (acc : List Rune) (skip : Nat) (t : Text) :
    runesFrom acc skip t = acc.reverse ++ runesFrom [] skip t := by
  induction t generalizing acc skip with
  | nil => simp [runesFrom]
  | cons b t ih =>
      cases skip with
      | succ skip => simp only [runesFrom, ih acc skip]
      | zero =>
          simp only [runesFrom]
          rw [ih, ih [_]]
          simp

/-- The runes of a text are the first one and those of what it leaves. -/
theorem runes_cons (b : UInt8) (t : Text) :
    runes (b :: t) = (Rune.first b t).1 :: runesFrom [] (Rune.first b t).2 t := by
  change runesFrom [(Rune.first b t).1] (Rune.first b t).2 t = _
  rw [runesFrom_eq]
  rfl

/-- A text is read in two parts around the start of a rune, unless the first part ends in the middle
of a rune that is skipped. -/
theorem runesFrom_append {b : UInt8} (hb : Rune.isContinuation b = false) (rest : Text) (t : Text)
    (skip : Nat) (hskip : skip ≤ t.length) :
    runesFrom [] skip (t ++ b :: rest) = runesFrom [] skip t ++ runes (b :: rest) := by
  induction t generalizing skip with
  | nil =>
      obtain rfl : skip = 0 := by simpa using hskip
      rfl
  | cons b₀ t ih =>
      cases skip with
      | succ skip => exact ih skip (by simpa using hskip)
      | zero =>
          rw [List.cons_append, ← runes, runes_cons, ← runes, runes_cons,
            Rune.first_append b₀ t hb, ih _ (Rune.first_width_le b₀ t)]
          rfl

/-- **A text is read in two parts around the start of a rune.** -/
theorem runes_append (t : Text) {b : UInt8} (hb : Rune.isContinuation b = false) (rest : Text) :
    runes (t ++ b :: rest) = runes t ++ runes (b :: rest) :=
  runesFrom_append hb rest t 0 (Nat.zero_le _)

/-- An ASCII byte in front of a text is a rune of its own. -/
theorem runes_cons_ascii {b : UInt8} (hb : b < 0x80) (t : Text) :
    runes (b :: t) = .scalar (Char.ofNat b.toNat) :: runes t := by
  rw [runes_cons, Rune.first_of_ascii hb]
  rfl

/-- **A text is read in three parts around an ASCII byte.** -/
theorem runes_append_ascii (t : Text) {b : UInt8} (hb : b < 0x80) (rest : Text) :
    runes (t ++ b :: rest) = runes t ++ .scalar (Char.ofNat b.toNat) :: runes rest := by
  rw [runes_append t (Rune.isContinuation_of_ascii hb), runes_cons_ascii hb]

/-- An ASCII byte of a text is one of its runes. -/
theorem scalar_mem_runes {b : UInt8} {t : Text} (hb : b < 0x80) (hmem : b ∈ t) :
    .scalar (Char.ofNat b.toNat) ∈ runes t := by
  obtain ⟨front, rest, rfl⟩ := List.append_of_mem hmem
  rw [runes_append_ascii front hb rest]
  exact List.mem_append_right _ List.mem_cons_self

/-- Each rune is read from some byte of the text on. -/
theorem exists_first_of_mem_runesFrom {r : Rune} {t : Text} {skip : Nat}
    (hr : r ∈ runesFrom [] skip t) : ∃ b ∈ t, ∃ rest, r = (Rune.first b rest).1 := by
  induction t generalizing skip with
  | nil => simp [runesFrom] at hr
  | cons b t ih =>
      cases skip with
      | succ skip =>
          obtain ⟨b', hb', rest, rfl⟩ := @ih skip hr
          exact ⟨b', List.mem_cons_of_mem b hb', rest, rfl⟩
      | zero =>
          rw [← runes, runes_cons, List.mem_cons] at hr
          obtain rfl | hr := hr
          · exact ⟨b, List.mem_cons_self, t, rfl⟩
          · obtain ⟨b', hb', rest, rfl⟩ := ih hr
            exact ⟨b', List.mem_cons_of_mem b hb', rest, rfl⟩

/-- **An ASCII character among the runes of a text is one of its bytes.** -/
theorem exists_byte_of_mem_runes {r : Rune} {t : Text} (hr : r ∈ runes t)
    (hpos : 0 < r.toChar.toNat) (hlt : r.toChar.toNat < 128) :
    ∃ b ∈ t, b.toNat = r.toChar.toNat := by
  obtain ⟨b, hb, rest, rfl⟩ := exists_first_of_mem_runesFrom hr
  exact ⟨b, hb, Rune.toNat_eq_of_first hpos hlt⟩

end Text

end Enclosure
