import Enclosure.Proofs.Source.Joined
import Enclosure.Proofs.Text.WhiteSpace
import Enclosure.Source.DryRun
import Mathlib.Order.Bounds.Basic

/-!
# The dry run, line by line

A dry run looks at the lines of a text one after the other and stops at the first fault. So the
outcome for a text behind another is that of the first one if it is at fault, and else that of the
second one with its line number raised. A text is valid if and only if each of its lines is valid on
its own, and otherwise the message names the least line that is not.

Of the two faults a line can have, unbalanced brackets come first. They are counted in the trimmed
line, but that is no different from the line itself.

## Main definitions

* `Fault.lower`: a fault some lines further down.

## Main results

* `lineFault?_eq_unbalanced_iff`: when the brackets of a line are to blame.
* `firstFault?_joined`: the first fault of two texts.
* `exists_line_of_firstFault?`: the first fault of a text is on the first line at fault.
* `Fault.message_injective`: a message tells what is wrong, and where.
* `dryRun_judges_line_by_line`: **a dry run judges every line on its own**.
-/

namespace Enclosure

/-- The fault some lines further down. -/
def Fault.lower (n : Nat) (f : Fault) : Fault :=
  { f with line := f.line + n }

/-! ### One line -/

/-- The brackets are as balanced as in the trimmed line. -/
theorem bracketsBalanced_trim (raw : Text) : bracketsBalanced raw.trim = bracketsBalanced raw := by
  have hsolid : ∀ p ∈ bracketPairs, (p.1 < 0x80 ∧ Text.isBlankByte p.1 = false) ∧
      (p.2 < 0x80 ∧ Text.isBlankByte p.2 = false) := by
    simp [bracketPairs, Text.isBlankByte]
  rw [Bool.eq_iff_iff, bracketsBalanced, bracketsBalanced, List.all_eq_true, List.all_eq_true]
  refine forall₂_congr fun p hp => ?_
  obtain ⟨⟨hascii, hblank⟩, hascii', hblank'⟩ := hsolid p hp
  simp only [Text.count_trim hascii hblank, Text.count_trim hascii' hblank']

/-- When the brackets of a line are not balanced: the parentheses, the square brackets or the braces
open more or less often in it than they close. -/
theorem bracketsBalanced_eq_false_iff (raw : Text) :
    bracketsBalanced raw = false ↔
      raw.count '('.toUInt8 ≠ raw.count ')'.toUInt8 ∨
      raw.count '['.toUInt8 ≠ raw.count ']'.toUInt8 ∨
      raw.count '{'.toUInt8 ≠ raw.count '}'.toUInt8 := by
  have hpairs : bracketPairs = [('('.toUInt8, ')'.toUInt8), ('['.toUInt8, ']'.toUInt8),
      ('{'.toUInt8, '}'.toUInt8)] := rfl
  rw [bracketsBalanced, hpairs, List.all_eq_false]
  simp only [List.mem_cons, List.not_mem_nil, or_false, exists_eq_or_imp, exists_eq_left,
    beq_iff_eq, ne_eq]

/-- **When the brackets of a line are to blame**: if and only if they are not balanced. -/
theorem lineFault?_eq_unbalanced_iff (raw : Text) :
    lineFault? raw = some .unbalanced ↔ bracketsBalanced raw = false := by
  rw [lineFault?, bracketsBalanced_trim]
  cases bracketsBalanced raw with
  | false => simp
  | true =>
      simp only [Bool.not_true, Bool.false_eq_true, if_false]
      split <;> simp

/-- The first fault of a text of one line. -/
theorem firstFault?_of_not_mem {raw : Text} (hraw : Text.newline ∉ raw) :
    firstFault? raw = (lineFault? raw).map (⟨·, 1⟩) := by
  have hlines : raw.lines = [raw] := Text.splitAt_of_not_mem hraw
  rw [firstFault?, hlines]
  simp

/-! ### All lines -/

/-- **The first fault of two texts** is that of the first one, or else that of the second one. -/
theorem firstFault?_joined (a b : Text) :
    firstFault? (a.joined b) =
      (firstFault? a).or ((firstFault? b).map (Fault.lower a.lines.length)) := by
  rw [firstFault?, numbered_joined, List.findSome?_append, List.findSome?_map, firstFault?,
    firstFault?, List.map_findSome?]
  congr 2
  funext line
  simp only [Function.comp_apply, Prod.map, id, Option.map_map]
  rfl

/-- **The first fault of a text is on the first line at fault.** -/
theorem exists_line_of_firstFault? {t : Text} {f : Fault} (hf : firstFault? t = some f) :
    ∃ raw, t.line? f.line = some raw ∧ lineFault? raw = some f.cause ∧
      ∀ m raw', m < f.line → t.line? m = some raw' → lineFault? raw' = none := by
  obtain ⟨front, ⟨raw, n⟩, back, hsplit, hfault, hfront⟩ := List.findSome?_eq_some_iff.mp hf
  obtain ⟨cause, hcause, rfl⟩ := Option.map_eq_some_iff.mp hfault
  have hget (i : Nat) : (t.lines.zipIdx 1)[i]? = t.lines[i]?.map (·, 1 + i) := List.getElem?_zipIdx
  have hline : (t.lines.zipIdx 1)[front.length]? = some (raw, n) := by simp [hsplit]
  rw [hget, Option.map_eq_some_iff] at hline
  obtain ⟨raw', hraw, heq⟩ := hline
  obtain ⟨rfl, rfl⟩ := Prod.mk.inj heq
  refine ⟨raw', Text.line?_eq_some_iff.mpr ⟨Nat.le_add_right 1 _, by simpa using hraw⟩, hcause, ?_⟩
  intro m raw'' hm hline
  obtain ⟨hone, hraw'⟩ := Text.line?_eq_some_iff.mp hline
  have hearly : (t.lines.zipIdx 1)[m - 1]? = some (raw'', m) := by
    rw [hget, hraw', Option.map_some]
    congr
    omega
  have hlt : m - 1 < front.length := by dsimp only at hm; omega
  rw [hsplit, List.getElem?_append_left hlt] at hearly
  have hnone := hfront (raw'', m) (List.mem_of_getElem? hearly)
  exact Option.map_eq_none_iff.mp hnone

/-- A text is valid if it has no fault. -/
theorem valid_dryRun_iff (t : Text) : (dryRun t).valid = true ↔ firstFault? t = none := by
  rw [dryRun]
  cases firstFault? t with
  | none => simp
  | some f => simp

/-- A text with a fault is reported with its message. -/
theorem dryRun_of_fault {t : Text} {f : Fault} (hf : firstFault? t = some f) :
    dryRun t = ⟨false, f.message⟩ := by
  rw [dryRun, hf]

/-- A line is valid on its own if nothing is wrong with it. -/
theorem valid_dryRun_line_iff {t raw : Text} (hraw : raw ∈ t.lines) :
    (dryRun raw).valid = true ↔ lineFault? raw = none := by
  rw [valid_dryRun_iff, firstFault?_of_not_mem (Text.not_mem_of_mem_splitAt hraw),
    Option.map_eq_none_iff]

/-- A text has no fault if and only if nothing is wrong with any of its lines. -/
theorem firstFault?_eq_none_iff (t : Text) :
    firstFault? t = none ↔ ∀ raw ∈ t.lines, lineFault? raw = none := by
  rw [firstFault?, List.findSome?_eq_none_iff]
  constructor
  · intro hnone raw hraw
    obtain ⟨i, hi⟩ := List.mem_iff_getElem?.mp hraw
    have hmem : (raw, 1 + i) ∈ t.lines.zipIdx 1 := by
      rw [List.mk_mem_zipIdx_iff_le_and_getElem?_sub, Nat.add_sub_cancel_left]
      exact ⟨Nat.le_add_right 1 i, hi⟩
    have hfault := hnone (raw, 1 + i) hmem
    exact Option.map_eq_none_iff.mp hfault
  · rintro hnone ⟨raw, n⟩ hmem
    exact Option.map_eq_none_iff.mpr (hnone raw (List.fst_mem_of_mem_zipIdx hmem))

/-! ### Messages -/

/-- **A message tells what is wrong, and where.** -/
theorem Fault.message_injective {f g : Fault} (h : f.message = g.message) : f = g := by
  obtain ⟨cause, m⟩ := f
  obtain ⟨cause', n⟩ := g
  -- The wordings differ from their fifteenth byte on.
  have hbyte (wording : Text) (hlong : 14 < wording.length) (number : Nat) :
      (wording ++ Text.ofNat number)[14]? = wording[14]? :=
    List.getElem?_append_left hlong
  have hdiffer (m n : Nat) : message ⟨.unbalanced, m⟩ ≠ message ⟨.dangling, n⟩ := by
    intro heq
    have heq := congrArg (·[14]?) heq
    rw [message, message, hbyte _ (by decide), hbyte _ (by decide)] at heq
    revert heq
    decide +kernel
  cases cause with
  | unbalanced =>
      cases cause' with
      | unbalanced => exact congrArg _ (Text.ofNat_injective (List.append_cancel_left h))
      | dangling => exact absurd h (hdiffer m n)
  | dangling =>
      cases cause' with
      | unbalanced => exact absurd h.symm (hdiffer n m)
      | dangling => exact congrArg _ (Text.ofNat_injective (List.append_cancel_left h))

/-- A message is not empty. -/
theorem Fault.message_ne_nil (f : Fault) : f.message ≠ [] := by
  have hnumber (wording : Text) : wording ++ Text.ofNat f.line ≠ [] :=
    List.append_ne_nil_of_right_ne_nil wording (Text.ofNat_ne_nil f.line)
  rw [message]
  split
  · exact hnumber _
  · exact hnumber _

/-! ### Texts -/

/-- The outcome for two texts, if the first one is at fault. -/
theorem dryRun_joined_of_invalid {a : Text} (ha : (dryRun a).valid = false) (b : Text) :
    dryRun (a.joined b) = dryRun a := by
  cases hf : firstFault? a with
  | none => simp [(valid_dryRun_iff a).mpr hf] at ha
  | some f => rw [dryRun_of_fault hf, dryRun_of_fault (by rw [firstFault?_joined, hf, Option.some_or])]

/-- The outcome for two texts, if the first one is valid. -/
theorem dryRun_joined_of_valid {a : Text} (ha : (dryRun a).valid = true) (b : Text) :
    ((dryRun b).valid = true → dryRun (a.joined b) = dryRun b) ∧
    ∀ cause n, dryRun b = ⟨false, Fault.message ⟨cause, n⟩⟩ →
      dryRun (a.joined b) = ⟨false, Fault.message ⟨cause, n + a.lines.length⟩⟩ := by
  have hjoined : firstFault? (a.joined b) = (firstFault? b).map (Fault.lower a.lines.length) := by
    rw [firstFault?_joined, (valid_dryRun_iff a).mp ha, Option.none_or]
  constructor
  · intro hb
    have hnone := (valid_dryRun_iff b).mp hb
    rw [dryRun, dryRun, hjoined, hnone]
    rfl
  · intro cause n hb
    cases hf : firstFault? b with
    | none => simp [dryRun, hf] at hb
    | some f =>
        rw [dryRun_of_fault hf] at hb
        obtain rfl := Fault.message_injective (congrArg Verdict.error hb)
        rw [hf, Option.map_some] at hjoined
        exact dryRun_of_fault hjoined

/-- The line that is named is the least one that is not valid on its own. -/
theorem isLeast_of_firstFault? {t : Text} {f : Fault} (hf : firstFault? t = some f) :
    IsLeast {n | ∃ raw, t.line? n = some raw ∧ (dryRun raw).valid = false} f.line := by
  have hmem {n : Nat} {raw : Text} (hline : t.line? n = some raw) : raw ∈ t.lines :=
    List.mem_of_getElem? (Text.line?_eq_some_iff.mp hline).2
  obtain ⟨raw, hline, hcause, hearlier⟩ := exists_line_of_firstFault? hf
  constructor
  · refine ⟨raw, hline, ?_⟩
    rw [Bool.eq_false_iff, ne_eq, valid_dryRun_line_iff (hmem hline), hcause]
    simp
  · rintro m ⟨raw', hline', hinvalid⟩
    by_contra hlt
    have hnone := hearlier m raw' (Nat.lt_of_not_le hlt) hline'
    rw [(valid_dryRun_line_iff (hmem hline')).mpr hnone] at hinvalid
    cases hinvalid

/-- **A dry run judges every line on its own.** Behind a text at fault another text does not matter,
and behind a valid text it is judged as alone, with the number of its line raised by the number of
lines in front. A text is valid if and only if there is no message, and if and only if each of its
lines is valid as a text. Otherwise the message names the least line that is not, and blames the
brackets if and only if the parentheses, the square brackets or the braces of that line open more or
less often than they close. -/
theorem dryRun_judges_line_by_line :
    (∀ a b : Text,
      ((dryRun a).valid = false → dryRun (a.joined b) = dryRun a) ∧
      ((dryRun a).valid = true →
        ((dryRun b).valid = true → dryRun (a.joined b) = dryRun b) ∧
        ∀ cause n, dryRun b = ⟨false, Fault.message ⟨cause, n⟩⟩ →
          dryRun (a.joined b) = ⟨false, Fault.message ⟨cause, n + a.lines.length⟩⟩)) ∧
    ∀ t : Text,
      ((dryRun t).valid = true ↔ (dryRun t).error = []) ∧
      ((dryRun t).valid = true ↔ ∀ raw ∈ t.lines, (dryRun raw).valid = true) ∧
      ((dryRun t).valid = false → ∃ cause n raw,
        dryRun t = ⟨false, Fault.message ⟨cause, n⟩⟩ ∧ t.line? n = some raw ∧
        IsLeast {m | ∃ raw, t.line? m = some raw ∧ (dryRun raw).valid = false} n ∧
        (cause = .unbalanced ↔
          raw.count '('.toUInt8 ≠ raw.count ')'.toUInt8 ∨
          raw.count '['.toUInt8 ≠ raw.count ']'.toUInt8 ∨
          raw.count '{'.toUInt8 ≠ raw.count '}'.toUInt8)) := by
  refine ⟨fun a b => ⟨fun ha => dryRun_joined_of_invalid ha b, fun ha => dryRun_joined_of_valid ha b⟩,
    fun t => ⟨?_, ?_, ?_⟩⟩
  · cases hf : firstFault? t with
    | none => simp [dryRun, hf]
    | some f => simp [dryRun_of_fault hf, f.message_ne_nil]
  · rw [valid_dryRun_iff, firstFault?_eq_none_iff]
    exact forall₂_congr fun raw hraw => (valid_dryRun_line_iff hraw).symm
  · intro hinvalid
    cases hf : firstFault? t with
    | none => simp [(valid_dryRun_iff t).mpr hf] at hinvalid
    | some f =>
        obtain ⟨raw, hline, hcause, -⟩ := exists_line_of_firstFault? hf
        refine ⟨f.cause, f.line, raw, dryRun_of_fault hf, hline, isLeast_of_firstFault? hf, ?_⟩
        rw [← bracketsBalanced_eq_false_iff, ← lineFault?_eq_unbalanced_iff, hcause,
          Option.some.injEq]

/-- A line that ends in a backslash, and behind it one with a bracket that is not closed. -/
def twoFaults : Text := "x = 1 + \\\nf(y"

/-- The first of the two faults is reported, three lines further down behind three valid lines, and
whatever comes behind it. -/
theorem dryRun_judges_line_by_line_twoFaults :
    let front : Text := "a = [\x7b\x7d]\n\n"
    (dryRun front).valid = true ∧ (dryRun twoFaults).valid = false ∧
    dryRun (front.joined twoFaults) = ⟨false, "Syntax error: Incomplete line at line 4"⟩ ∧
    dryRun (twoFaults.joined "g)") = dryRun twoFaults := by
  intro front
  obtain ⟨hjoined, -⟩ := dryRun_judges_line_by_line
  obtain ⟨-, hvalid⟩ := hjoined front twoFaults
  obtain ⟨hinvalid, -⟩ := hjoined twoFaults "g)"
  have hfront : (dryRun front).valid = true := by decide
  have hfaults : dryRun twoFaults = ⟨false, Fault.message ⟨.dangling, 1⟩⟩ := by decide
  refine ⟨hfront, by rw [hfaults], ?_, hinvalid (by rw [hfaults])⟩
  exact ((hvalid hfront).2 .dangling 1 hfaults).trans (by decide)

end Enclosure
