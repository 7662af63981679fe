import Enclosure.Json.Parser
import Enclosure.Proofs.Text.Encoding

/-!
# Strings in JSON

Between the quotes of a string each rune is written on its own: as a short escape, as a numbered
one, or as it is. No control character is among the bytes of any of them, and each is read as the
character it was written for, whatever comes after it. Only a stray byte is not read as it was: the
escape that is written for it stands for U+FFFD.

## Main results

* `Json.quoteRune_cases`: how a rune is written between quotes.
* `Json.readString_quote`: **a quoted string is read as the repaired text**.
* `Json.le_of_mem_quote`: there is no control character in a quoted string.
-/

namespace Enclosure

namespace Json

/-- The bytes that are still to go are passed over. -/
theorem readString_skip (acc t rest : Text) :
    readString acc t.length (t ++ rest) = readString acc 0 rest := by
  induction t with
  | nil => rfl
  | cons b t ih => exact ih

/-- One unit of a string is read at a time. -/
theorem readString_unit {b : UInt8} {t bytes : Text} (hb : b ≠ 34) (acc rest : Text)
    (hunit : stringUnit b (t ++ rest) = .ok (bytes, t.length)) :
    readString acc 0 (b :: (t ++ rest)) = readString (bytes.reverse ++ acc) 0 rest := by
  have hquote : (b == 34) = false := beq_eq_false_iff_ne.mpr hb
  rw [readString, hquote, hunit]
  exact readString_skip _ t rest

/-- The value of a hexadecimal digit is the number it was made from. -/
theorem hexValue?_hexDigit : ∀ n < 16, Text.hexValue? (Text.hexDigit n) = some n := by
  decide

/-- Four hexadecimal digits stand for the number they were made from. -/
theorem readCode_hex {n : Nat} (hn : n < 65536) (rest : Text) :
    readCode (Text.hex 4 n ++ rest) = .ok n := by
  have hdigit (m : Nat) : Text.hexValue? (Text.hexDigit (m % 16)) = some (m % 16) :=
    hexValue?_hexDigit _ (Nat.mod_lt m (by decide))
  have hhex : Text.hex 4 n = [Text.hexDigit (n / 16 / 16 / 16 % 16),
      Text.hexDigit (n / 16 / 16 % 16), Text.hexDigit (n / 16 % 16), Text.hexDigit (n % 16)] := rfl
  have hnumber : Text.hexNumber? (Text.hex 4 n) = some n := by
    rw [hhex]
    simp only [Text.hexNumber?, List.foldl_cons, List.foldl_nil, hdigit, Option.pure_def,
      Option.bind_eq_bind, Option.bind_some, Option.some.injEq]
    omega
  have htake : (Text.hex 4 n ++ rest).take 4 = Text.hex 4 n := rfl
  have hdrop : (Text.hex 4 n).dropWhile (fun b => (Text.hexValue? b).isSome) = [] := by
    simp only [hhex, List.dropWhile_cons, hdigit, Option.isSome_some, if_true, List.dropWhile_nil]
  have hlength : ¬ (Text.hex 4 n).length < 4 := Nat.lt_irrefl 4
  simp only [readCode, htake, hdrop, if_neg hlength, hnumber, Option.getD_some]

/-- A numbered escape stands for the character with its number. -/
theorem stringUnit_code {c : Char} (hc : c.toNat < 65536) (rest : Text) :
    stringUnit 92 (117 :: Text.hex 4 c.toNat ++ rest) = .ok (String.utf8EncodeChar c, 5) := by
  have hvalid : c.toNat.isValidChar := c.valid
  rw [Nat.isValidChar] at hvalid
  have hhigh : isHighSurrogate c.toNat = false := by
    simp only [isHighSurrogate, Bool.and_eq_false_iff, decide_eq_false_iff_not]
    omega
  have hlow : isLowSurrogate c.toNat = false := by
    simp only [isLowSurrogate, Bool.and_eq_false_iff, decide_eq_false_iff_not]
    omega
  have hunit (after : Text) : codeUnit c.toNat after = (c, 4) := by
    rw [codeUnit, hhigh, hlow, Char.ofNat_toNat]
    rfl
  have hescape : escapeUnit (117 :: (Text.hex 4 c.toNat ++ rest)) =
      (readCode (Text.hex 4 c.toNat ++ rest)).bind fun code =>
        let unit := codeUnit code ((Text.hex 4 c.toNat ++ rest).drop 4)
        .ok (String.utf8EncodeChar unit.1, unit.2 + 1) := rfl
  change escapeUnit (117 :: (Text.hex 4 c.toNat ++ rest)) = _
  rw [hescape, readCode_hex hc, Except.bind, hunit]

/-- A short escape stands for its character. -/
theorem stringUnit_short {letter value : UInt8} (h : (letter, value) ∈ shortEscapes)
    (rest : Text) : stringUnit 92 (letter :: rest) = .ok ([value], 1) := by
  have hfind : ∀ e ∈ shortEscapes,
      ((47, 47) :: shortEscapes).find? (fun e' => e'.1 == e.1) = some e := by
    simp [shortEscapes]
  change escapeUnit (letter :: rest) = _
  rw [escapeUnit, hfind _ h]

/-- A character that needs no escape stands for itself. -/
theorem stringUnit_plain {c : Char} {b : UInt8} {t rest : Text} (hlo : 32 ≤ b.toNat)
    (hb : b ≠ 92) (hfirst : Rune.first b (t ++ rest) = (.scalar c, t.length)) :
    stringUnit b (t ++ rest) = .ok (String.utf8EncodeChar c, t.length) := by
  have hescape : (b == 92) = false := beq_eq_false_iff_ne.mpr hb
  have hcontrol : ¬ b < 32 := Nat.not_lt.mpr hlo
  rw [stringUnit, hescape, if_neg (by decide), if_neg hcontrol, hfirst]
  rfl

/-- The bytes of a character beyond ASCII are beyond ASCII, and an ASCII character is its byte. -/
theorem mem_encoded {c : Char} {b : UInt8} (hb : b ∈ String.utf8EncodeChar c) :
    b.toNat = c.toNat ∨ 128 ≤ b.toNat := by
  have hc : c.val.toNat = c.toNat := rfl
  have hmod (n : Nat) : (UInt8.ofNat n).toNat = n % 256 := UInt8.toNat_ofNat'
  rw [String.utf8EncodeChar.eq_1] at hb
  split at hb
  · rw [List.mem_singleton.mp hb, hmod]
    omega
  right
  split at hb
  · simp only [List.mem_cons, List.not_mem_nil, or_false] at hb
    obtain rfl | rfl := hb <;> rw [hmod] <;> omega
  split at hb
  · simp only [List.mem_cons, List.not_mem_nil, or_false] at hb
    obtain rfl | rfl | rfl := hb <;> rw [hmod] <;> omega
  · simp only [List.mem_cons, List.not_mem_nil, or_false] at hb
    obtain rfl | rfl | rfl | rfl := hb <;> rw [hmod] <;> omega

/-- **How a rune is written between quotes**: as a short escape, as a numbered escape, or as it
is. -/
theorem quoteRune_cases (escapeMarkup : Bool) (r : Rune) :
    (∃ letter value, (letter, value) ∈ shortEscapes ∧ r.repaired = [value] ∧
      quoteRune escapeMarkup r = [92, letter]) ∨
    (∃ c : Char, c.toNat < 65536 ∧ r.repaired = String.utf8EncodeChar c ∧
      quoteRune escapeMarkup r = 92 :: 117 :: Text.hex 4 c.toNat) ∨
    (∃ c : Char, 32 ≤ c.toNat ∧ c.toNat ≠ 34 ∧ c.toNat ≠ 92 ∧
      r.repaired = String.utf8EncodeChar c ∧
      quoteRune escapeMarkup r = String.utf8EncodeChar c) := by
  cases r with
  | stray b => exact .inr (.inl ⟨'\uFFFD', by decide, rfl, rfl⟩)
  | scalar c =>
      cases hfind : shortEscapes.find? (fun e => e.2.toNat == c.toNat) with
      | some e =>
          have hencode : ∀ e ∈ shortEscapes,
              String.utf8EncodeChar (Char.ofNat e.2.toNat) = [e.2] := by
            simp [shortEscapes, String.utf8EncodeChar]
          have hmem := List.mem_of_find?_eq_some hfind
          have hc : e.2.toNat = c.toNat := by simpa using List.find?_some hfind
          refine .inl ⟨e.1, e.2, hmem, ?_, ?_⟩
          · have he := hencode e hmem
            rwa [hc, Char.ofNat_toNat] at he
          · rw [quoteRune, hfind]
      | none =>
          have hshort (e : UInt8 × UInt8) (he : e ∈ shortEscapes) : c.toNat ≠ e.2.toNat := by
            have hne := List.find?_eq_none.mp hfind e he
            exact fun heq => hne (beq_iff_eq.mpr heq.symm)
          rw [quoteRune, hfind]
          simp only
          split
          · rename_i hescaped
            refine .inr (.inl ⟨c, ?_, rfl, rfl⟩)
            simp only [isLineSeparator, isMarkup, Bool.or_eq_true, Bool.and_eq_true, beq_iff_eq,
              decide_eq_true_eq] at hescaped
            obtain (hcontrol | rfl | rfl) | ⟨-, (rfl | rfl) | rfl⟩ := hescaped
            · omega
            all_goals decide
          · rename_i hplain
            simp only [Bool.or_eq_true, decide_eq_true_eq, not_or] at hplain
            exact .inr (.inr ⟨c, by omega, hshort (34, 34) (by decide),
              hshort (92, 92) (by decide), rfl, rfl⟩)

/-- A rune that is written between quotes is read as it is repaired. -/
theorem readString_quoteRune (escapeMarkup : Bool) (r : Rune) (acc rest : Text) :
    readString acc 0 (quoteRune escapeMarkup r ++ rest) =
      readString (r.repaired.reverse ++ acc) 0 rest := by
  obtain ⟨letter, value, hmem, hrepaired, hquote⟩ | ⟨c, hc, hrepaired, hquote⟩ |
    ⟨c, hlo, hquoteMark, hescape, hrepaired, hquote⟩ := quoteRune_cases escapeMarkup r
  · rw [hquote, hrepaired]
    exact readString_unit (t := [letter]) (by decide) acc rest (stringUnit_short hmem rest)
  · rw [hquote, hrepaired]
    exact readString_unit (t := 117 :: Text.hex 4 c.toNat) (by decide) acc rest
      (stringUnit_code hc rest)
  · obtain ⟨b, t, hencode, hfirst⟩ := Rune.first_encoded c
    have hb : b.toNat = c.toNat ∨ 128 ≤ b.toNat :=
      mem_encoded (hencode ▸ List.mem_cons_self)
    have hne {n : UInt8} (hn : n.toNat < 128) (hcn : c.toNat ≠ n.toNat) : b ≠ n := by
      rintro rfl
      omega
    rw [hquote, hrepaired, hencode, List.cons_append, ← hencode]
    exact readString_unit (hne (by decide) hquoteMark) acc rest
      (stringUnit_plain (by omega) (hne (by decide) hescape) (hfirst rest))

/-- **A quoted string is read as the repaired text.** -/
theorem readString_quote (escapeMarkup : Bool) (t rest : Text) :
    readString [] 0 (t.runes.flatMap (quoteRune escapeMarkup) ++ 34 :: rest) =
      .ok (t.repaired, rest) := by
  have hrunes (rs : List Rune) (acc : Text) :
      readString acc 0 (rs.flatMap (quoteRune escapeMarkup) ++ 34 :: rest) =
        .ok (acc.reverse ++ rs.flatMap Rune.repaired, rest) := by
    induction rs generalizing acc with
    | nil =>
        rw [List.flatMap_nil, List.nil_append, List.flatMap_nil, List.append_nil]
        rfl
    | cons r rs ih =>
        rw [List.flatMap_cons, List.append_assoc, readString_quoteRune, ih, List.flatMap_cons,
          List.reverse_append, List.reverse_reverse, List.append_assoc]
  exact hrunes t.runes []

/-- No control character is written between quotes. -/
theorem le_of_mem_quoteRune {escapeMarkup : Bool} {r : Rune} {b : UInt8}
    (hb : b ∈ quoteRune escapeMarkup r) : 32 ≤ b.toNat := by
  have hhex : ∀ n < 16, 32 ≤ (Text.hexDigit n).toNat := by decide
  obtain ⟨letter, value, hmem, -, hquote⟩ | ⟨c, -, -, hquote⟩ | ⟨c, hlo, -, -, -, hquote⟩ :=
    quoteRune_cases escapeMarkup r
  · have hletter : ∀ e ∈ shortEscapes, 32 ≤ e.1.toNat := by simp [shortEscapes]
    rw [hquote, List.mem_cons, List.mem_singleton] at hb
    obtain rfl | rfl := hb
    · decide
    · exact hletter _ hmem
  · simp only [hquote, Text.hex, List.nil_append, List.cons_append, List.mem_cons,
      List.not_mem_nil, or_false] at hb
    obtain rfl | rfl | rfl | rfl | rfl | rfl := hb
    · decide
    · decide
    all_goals exact hhex _ (Nat.mod_lt _ (by decide))
  · rw [hquote] at hb
    obtain heq | hbeyond := mem_encoded hb <;> omega

/-- Nor in a whole quoted string. -/
theorem le_of_mem_quote {escapeMarkup : Bool} {t : Text} {b : UInt8}
    (hb : b ∈ quote escapeMarkup t) : 32 ≤ b.toNat := by
  rw [quote, List.mem_cons, List.mem_append, List.mem_flatMap, List.mem_singleton] at hb
  obtain rfl | ⟨r, -, hb⟩ | rfl := hb
  · decide
  · exact le_of_mem_quoteRune hb
  · decide

end Json

end Enclosure
