import Enclosure.Proofs.Text.Runes
import Enclosure.Text.Blank
import Enclosure.Text.Decimal
import Mathlib.Data.List.Basic

/-!
# Reading back what was put together

A text that is put together from pieces without the separator falls into the same pieces again, a
number in decimal is read as that number, and a text without white space is not changed by trimming.

## Main definitions

* `Text.isSolid`: a text without white space.

## Main results

* `Text.splitAt_append`: a piece is what stands in front of a separator.
* `Text.splitAt_join`: pieces that are put together fall into the same pieces again.
* `Text.join_splitAt`: a text is put together from its pieces.
* `Text.hasInfix_iff`: whether a text occurs in another one.
* `Text.digitsValue_ofNat`: decimal notation stands for the number it was made from.
* `Text.append_sep_inj`, `Text.ofInt_append_inj`, `Text.flatMap_append_inj`: pieces, integers and
  sequences of items can be told from what follows them.
* `Text.not_mem_of_isSolid`: none of the bytes of a solid text is white space.
-/

namespace Enclosure

namespace Text

/-! ### Pieces -/

/-- **A piece is what stands in front of a separator.** -/
theorem splitAt_append {sep : UInt8} {t : Text} (ht : sep ∉ t) (rest : Text) :
    splitAt sep (t ++ sep :: rest) = t :: splitAt sep rest := by
  induction t with
  | nil => exact if_pos rfl
  | cons b t ih =>
      obtain ⟨hb, ht⟩ := not_or.mp (mt List.mem_cons.mpr ht)
      have hrest : splitAt sep (b :: (t ++ sep :: rest)) =
          consFirst b (splitAt sep (t ++ sep :: rest)) := if_neg (Ne.symm hb)
      rw [List.cons_append, hrest, ih ht]
      rfl

/-- There is always a first piece. -/
theorem splitAt_ne_nil (sep : UInt8) (t : Text) : splitAt sep t ≠ [] := by
  cases t with
  | nil => simp [splitAt]
  | cons b t =>
      change (if b = sep then [] :: splitAt sep t else consFirst b (splitAt sep t)) ≠ []
      split
      · simp
      · cases splitAt sep t <;> simp [consFirst]

/-- Pieces are put together with the separator between the first two. -/
theorem join_cons_cons (sep p q : Text) (ps : List Text) :
    join sep (p :: q :: ps) = p ++ (sep ++ join sep (q :: ps)) := by
  simp [join, List.intersperse]

/-- What is put together starts with its first piece. -/
theorem exists_join_cons (sep p : Text) (ps : List Text) :
    ∃ rest, join sep (p :: ps) = p ++ rest := by
  cases ps with
  | nil => exact ⟨[], by simp [join]⟩
  | cons q ps => exact ⟨_, join_cons_cons sep p q ps⟩

/-- A text without the separator is one piece. -/
theorem splitAt_of_not_mem {sep : UInt8} {t : Text} (ht : sep ∉ t) : splitAt sep t = [t] := by
  induction t with
  | nil => rfl
  | cons b t ih =>
      obtain ⟨hb, ht⟩ := not_or.mp (mt List.mem_cons.mpr ht)
      have hrest : splitAt sep (b :: t) = consFirst b (splitAt sep t) := if_neg (Ne.symm hb)
      rw [hrest, ih ht]
      rfl

/-- The separator is in none of the pieces. -/
theorem not_mem_of_mem_splitAt {sep : UInt8} {t p : Text} (hp : p ∈ splitAt sep t) : sep ∉ p := by
  induction t generalizing p with
  | nil =>
      obtain rfl : p = [] := List.mem_singleton.mp hp
      simp
  | cons b t ih =>
      by_cases hb : b = sep
      · have hrest : splitAt sep (b :: t) = [] :: splitAt sep t := if_pos hb
        rw [hrest, List.mem_cons] at hp
        obtain rfl | hp := hp
        · simp
        · exact ih hp
      · have hrest : splitAt sep (b :: t) = consFirst b (splitAt sep t) := if_neg hb
        obtain ⟨q, qs, hq⟩ := List.exists_cons_of_ne_nil (splitAt_ne_nil sep t)
        rw [hrest, hq, consFirst, List.mem_cons] at hp
        rw [hq] at ih
        obtain rfl | hp := hp
        · rw [List.mem_cons, not_or]
          exact ⟨Ne.symm hb, ih List.mem_cons_self⟩
        · exact ih (List.mem_cons_of_mem q hp)

/-- **Pieces that are put together fall into the same pieces again.** -/
theorem splitAt_join {sep : UInt8} {ps : List Text} (hne : ps ≠ []) (hps : ∀ p ∈ ps, sep ∉ p) :
    splitAt sep (join [sep] ps) = ps := by
  induction ps with
  | nil => exact absurd rfl hne
  | cons p ps ih =>
      obtain ⟨hp, hps⟩ := List.forall_mem_cons.mp hps
      cases ps with
      | nil =>
          have hjoin : join [sep] [p] = p := by simp [join]
          rw [hjoin, splitAt_of_not_mem hp]
      | cons q ps =>
          rw [join_cons_cons, List.singleton_append, splitAt_append hp, ih (by simp) hps]

/-- The pieces of a text, byte by byte. -/
theorem splitAt_cons (sep b : UInt8) (t : Text) : splitAt sep (b :: t) =
    if b = sep then [] :: splitAt sep t else consFirst b (splitAt sep t) := rfl

/-- The pieces of two texts with a separator between them are those of both. -/
theorem splitAt_append_sep (sep : UInt8) (s t : Text) :
    splitAt sep (s ++ sep :: t) = splitAt sep s ++ splitAt sep t := by
  induction s with
  | nil => exact splitAt_append (by simp) t
  | cons b s ih =>
      rw [List.cons_append, splitAt_cons, splitAt_cons, ih]
      split
      · rfl
      · obtain ⟨p, ps, hps⟩ := List.exists_cons_of_ne_nil (splitAt_ne_nil sep s)
        rw [hps]
        rfl

/-- One more byte in front of the first piece is one more byte in front. -/
theorem join_consFirst (sep : Text) (b : UInt8) (ps : List Text) :
    join sep (consFirst b ps) = b :: join sep ps := by
  match ps with
  | [] => rfl
  | [p] => rfl
  | p :: q :: ps => rw [consFirst, join_cons_cons, join_cons_cons, List.cons_append]

/-- **A text is put together from its pieces.** -/
theorem join_splitAt (sep : UInt8) (t : Text) : join [sep] (splitAt sep t) = t := by
  induction t with
  | nil => rfl
  | cons b t ih =>
      rw [splitAt_cons]
      split
      · rename_i hb
        obtain ⟨p, ps, hps⟩ := List.exists_cons_of_ne_nil (splitAt_ne_nil sep t)
        rw [hps, join_cons_cons, ← hps, ih, hb]
        rfl
      · rw [join_consFirst, ih]

/-- What is put together from two lists of pieces: each of the first ones has a separator behind
it. -/
theorem join_append (sep : Text) (ps : List Text) {qs : List Text} (hqs : qs ≠ []) :
    join sep (ps ++ qs) = ps.flatMap (· ++ sep) ++ join sep qs := by
  induction ps with
  | nil => rfl
  | cons p ps ih =>
      obtain ⟨r, rs, hrs⟩ := List.exists_cons_of_ne_nil (List.append_ne_nil_of_right_ne_nil ps hqs)
      rw [List.cons_append, hrs, join_cons_cons, ← hrs, ih, List.flatMap_cons]
      simp only [List.append_assoc]

/-- A text with a separator at its end: each of its pieces with a separator behind it. -/
theorem append_sep_eq_flatMap (sep : UInt8) (t : Text) :
    t ++ [sep] = (splitAt sep t).flatMap (· ++ [sep]) := by
  have hjoin := join_append [sep] (splitAt sep t) (List.cons_ne_nil [] [])
  have hpieces : splitAt sep t ++ [[]] = splitAt sep (t ++ [sep]) :=
    (splitAt_append_sep sep t []).symm
  rw [hpieces, join_splitAt] at hjoin
  rw [hjoin]
  exact List.append_nil _

/-! ### The ends of a text -/

/-- What a text starts with. -/
theorem startsWith_iff {t pat : Text} : t.startsWith pat = true ↔ pat <+: t :=
  List.isPrefixOf_iff_prefix

/-- A text less what it starts with. -/
theorem dropFirst_append_self (pat rest : Text) : (pat ++ rest).dropFirst pat = rest := by
  rw [dropFirst, List.isPrefixOf?_eq_some_iff_append_eq.mpr rfl, Option.getD_some]

/-- Nothing is taken from a text that does not start with it. -/
theorem dropFirst_of_not_prefix {pat t : Text} (h : ¬ pat <+: t) : t.dropFirst pat = t := by
  rw [dropFirst]
  cases hrest : pat.isPrefixOf? t with
  | none => rfl
  | some rest => exact absurd ⟨rest, List.append_eq_of_isPrefixOf?_eq_some hrest⟩ h

/-- A text less what it ends in. -/
theorem dropFinal_append_self (rest pat : Text) : (rest ++ pat).dropFinal pat = rest := by
  rw [dropFinal, List.isSuffixOf?_eq_some_iff_append_eq.mpr rfl, Option.getD_some]

/-- Nothing is taken from a text that does not end in it. -/
theorem dropFinal_of_not_suffix {pat t : Text} (h : ¬ pat <:+ t) : t.dropFinal pat = t := by
  rw [dropFinal]
  cases hrest : pat.isSuffixOf? t with
  | none => rfl
  | some rest => exact absurd ⟨rest, List.append_eq_of_isSuffixOf?_eq_some hrest⟩ h

/-- A text ends in what is taken from its end, or nothing is. -/
theorem dropFinal_cases (pat t : Text) : t = t.dropFinal pat ++ pat ∨ t = t.dropFinal pat := by
  by_cases h : pat <:+ t
  · obtain ⟨rest, rfl⟩ := h
    rw [dropFinal_append_self]
    exact .inl rfl
  · exact .inr (dropFinal_of_not_suffix h).symm

/-! ### Occurrences -/

/-- Looking for the first occurrence finds one if there is any. -/
theorem isSome_cutFrom_iff (pat acc t : Text) : (cutFrom pat acc t).isSome = true ↔ pat <:+: t := by
  induction t generalizing acc with
  | nil =>
      rw [cutFrom, List.infix_nil]
      cases pat <;> simp
  | cons b t ih =>
      rw [cutFrom, List.infix_cons_iff]
      split
      · rename_i rest hrest
        have hstarts : pat <+: b :: t := ⟨rest, List.append_eq_of_isPrefixOf?_eq_some hrest⟩
        simp [hstarts]
      · rename_i hnone
        have hstarts : ¬ pat <+: b :: t := by
          rintro ⟨rest, hrest⟩
          rw [List.isPrefixOf?_eq_some_iff_append_eq.mpr hrest] at hnone
          cases hnone
        simp [hstarts, ih]

/-- **Whether a text occurs in another one.** -/
theorem hasInfix_iff {pat t : Text} : hasInfix pat t = true ↔ pat <:+: t :=
  isSome_cutFrom_iff pat [] t

/-- Items of one kind, such as bytes or runes, end where one of another kind follows. -/
theorem span_append {α : Type} {p : α → Bool} {s rest : List α} (hs : ∀ b ∈ s, p b = true)
    (hrest : ∀ b ∈ rest.head?, p b = false) :
    (s ++ rest).takeWhile p = s ∧ (s ++ rest).dropWhile p = rest := by
  rw [List.takeWhile_append_of_pos hs, List.dropWhile_append_of_pos hs]
  cases rest with
  | nil => simp
  | cons b rest => simp [hrest b rfl]

/-! ### Numbers -/

/-- The byte of a decimal digit is its character. -/
theorem toNat_toUInt8_of_isDigit {c : Char} (hc : c.isDigit = true) :
    48 ≤ c.toNat ∧ c.toNat ≤ 57 ∧ c.toUInt8.toNat = c.toNat := by
  simp only [Char.isDigit, Bool.and_eq_true, decide_eq_true_eq] at hc
  have hlo : 48 ≤ c.toNat := hc.1
  have hhi : c.toNat ≤ 57 := hc.2
  refine ⟨hlo, hhi, ?_⟩
  have hmod : c.toUInt8.toNat = c.toNat % 256 := UInt32.toNat_toUInt8 c.val
  omega

/-- Decimal notation consists of digits. -/
theorem isDigit_of_mem_ofNat {n : Nat} {b : UInt8} (hb : b ∈ ofNat n) : isDigit b = true := by
  obtain ⟨c, hc, rfl⟩ := List.mem_map.mp hb
  obtain ⟨hlo, hhi, hbyte⟩ := toNat_toUInt8_of_isDigit
    (Nat.isDigit_of_mem_toDigits (by decide) (by decide) hc)
  simp only [isDigit, Bool.and_eq_true, decide_eq_true_eq, UInt8.le_iff_toNat_le, hbyte]
  exact ⟨hlo, hhi⟩

/-- Decimal notation has at least one digit. -/
theorem ofNat_ne_nil (n : Nat) : ofNat n ≠ [] := by
  simp [ofNat]

/-- **Decimal notation stands for the number it was made from.** -/
theorem digitsValue_ofNat (n : Nat) : digitsValue (ofNat n) = n := by
  have hchars (cs : List Char) (hcs : ∀ c ∈ cs, c.isDigit = true) (init : Nat) :
      (cs.map Char.toUInt8).foldl (fun n b => n * 10 + (b.toNat - 48)) init =
        Nat.ofDigitChars 10 cs init := by
    induction cs generalizing init with
    | nil => simp
    | cons c cs ih =>
        obtain ⟨hc, hcs⟩ := List.forall_mem_cons.mp hcs
        obtain ⟨-, -, hbyte⟩ := toNat_toUInt8_of_isDigit hc
        rw [List.map_cons, List.foldl_cons, ih hcs, Nat.ofDigitChars_cons, hbyte, Nat.mul_comm]
        rfl
  have hdigits : ∀ c ∈ Nat.toDigits 10 n, c.isDigit = true := fun c =>
    Nat.isDigit_of_mem_toDigits (by decide) (by decide)
  rw [digitsValue, ofNat, hchars _ hdigits]
  exact Nat.ofDigitChars_ten_toDigits

/-- Different numbers are written differently. -/
theorem ofNat_injective {m n : Nat} (h : ofNat m = ofNat n) : m = n := by
  rw [← digitsValue_ofNat m, h, digitsValue_ofNat]

/-! ### What ends by itself -/

/-- A piece ends at the first separator. -/
theorem append_sep_inj {sep : UInt8} {s t r u : Text} (hs : sep ∉ s) (ht : sep ∉ t)
    (h : s ++ sep :: r = t ++ sep :: u) : s = t ∧ r = u := by
  have hpieces := congrArg (splitAt sep) h
  rw [splitAt_append hs, splitAt_append ht] at hpieces
  obtain rfl : s = t := (List.cons.inj hpieces).1
  exact ⟨rfl, (List.cons.inj (List.append_cancel_left h)).2⟩

/-- The digits of a number end where something else than a digit follows. -/
theorem takeWhile_digits_append (n : Nat) {rest : Text}
    (hrest : ∀ b ∈ rest.head?, isDigit b = false) :
    (ofNat n ++ rest).takeWhile isDigit = ofNat n ∧
      (ofNat n ++ rest).dropWhile isDigit = rest :=
  span_append (fun _ => isDigit_of_mem_ofNat) hrest

/-- A natural number ends where something else than a digit follows. -/
theorem ofNat_append_inj {m n : Nat} {r s : Text} (hr : ∀ b ∈ r.head?, isDigit b = false)
    (hs : ∀ b ∈ s.head?, isDigit b = false) (h : ofNat m ++ r = ofNat n ++ s) :
    m = n ∧ r = s := by
  obtain ⟨htake, hdrop⟩ := takeWhile_digits_append m hr
  obtain ⟨htake', hdrop'⟩ := takeWhile_digits_append n hs
  rw [h] at htake hdrop
  exact ⟨ofNat_injective (htake.symm.trans htake'), hdrop.symm.trans hdrop'⟩

/-- The notation of a natural number does not start with a minus sign. -/
theorem ofNat_append_ne_minus (n : Nat) (r s : Text) : ofNat n ++ r ≠ 45 :: s := by
  obtain ⟨b, ds, hds⟩ := List.exists_cons_of_ne_nil (ofNat_ne_nil n)
  have hb : isDigit b = true := isDigit_of_mem_ofNat (n := n) (hds ▸ List.mem_cons_self)
  rw [hds, List.cons_append]
  intro h
  obtain rfl : b = 45 := (List.cons.inj h).1
  cases hb

/-- **An integer ends where something else than a digit follows.** -/
theorem ofInt_append_inj {m n : Int} {r s : Text} (hr : ∀ b ∈ r.head?, isDigit b = false)
    (hs : ∀ b ∈ s.head?, isDigit b = false) (h : ofInt m ++ r = ofInt n ++ s) :
    m = n ∧ r = s := by
  match m, n with
  | .ofNat m, .ofNat n =>
      obtain ⟨rfl, hrest⟩ := ofNat_append_inj hr hs h
      exact ⟨rfl, hrest⟩
  | .ofNat m, .negSucc n => exact absurd h (ofNat_append_ne_minus m r _)
  | .negSucc m, .ofNat n => exact absurd h.symm (ofNat_append_ne_minus n s _)
  | .negSucc m, .negSucc n =>
      obtain ⟨hmn, hrest⟩ := ofNat_append_inj hr hs (List.cons.inj h).2
      exact ⟨congrArg Int.negSucc (Nat.succ.inj hmn), hrest⟩

/-- **A sequence of items ends where something else than an item follows**, if all items start with
the same byte and each of them ends by itself. -/
theorem flatMap_append_inj {α : Type} {f : α → Text} {mark : UInt8} {p : α → Prop}
    (hmark : ∀ a, (f a).head? = some mark)
    (hinj : ∀ {a b : α} {r s : Text}, p a → p b → f a ++ r = f b ++ s → a = b ∧ r = s)
    {as bs : List α} (has : ∀ a ∈ as, p a) (hbs : ∀ b ∈ bs, p b) {r s : Text}
    (hr : r.head? ≠ some mark) (hs : s.head? ≠ some mark)
    (h : as.flatMap f ++ r = bs.flatMap f ++ s) : as = bs ∧ r = s := by
  have hone (a : α) (t : Text) : (f a ++ t).head? = some mark := by
    rw [List.head?_append, hmark, Option.some_or]
  induction as generalizing bs with
  | nil =>
      cases bs with
      | nil => exact ⟨rfl, h⟩
      | cons b bs =>
          have hr' : r = f b ++ (bs.flatMap f ++ s) := by simpa using h
          exact absurd (hr' ▸ hone b _) hr
  | cons a as ih =>
      rw [List.forall_mem_cons] at has
      cases bs with
      | nil =>
          have hs' : f a ++ (as.flatMap f ++ r) = s := by simpa using h
          exact absurd (hs' ▸ hone a _) hs
      | cons b bs =>
          rw [List.forall_mem_cons] at hbs
          simp only [List.flatMap_cons, List.append_assoc] at h
          obtain ⟨rfl, htail⟩ := hinj has.1 hbs.1 h
          obtain ⟨rfl, hrest⟩ := ih has.2 hbs.2 htail
          exact ⟨rfl, hrest⟩

/-! ### White space -/

/-- Whether a text has no white space in it. -/
def isSolid (t : Text) : Bool :=
  t.runes.all fun r => !r.isBlank

/-- Whether a text is solid does not depend on an ASCII byte in front that is no white space. -/
theorem isSolid_cons_ascii {b : UInt8} (hb : b < 0x80)
    (hblank : Rune.isBlank (.scalar (Char.ofNat b.toNat)) = false) (t : Text) :
    isSolid (b :: t) = isSolid t := by
  simp [isSolid, runes_cons_ascii hb, hblank]

/-- A white-space character of one byte is a rune. -/
theorem isBlank_of_isBlankByte {b : UInt8} (hb : isBlankByte b = true) :
    b < 0x80 ∧ Rune.isBlank (.scalar (Char.ofNat b.toNat)) = true := by
  have hall : ∀ i : Fin 256, isBlankByte (UInt8.ofFin i) = true → UInt8.ofFin i < 0x80 ∧
      Rune.isBlank (.scalar (Char.ofNat (UInt8.ofFin i).toNat)) = true := by
    decide +kernel
  exact hall b.toFin hb

/-- None of the bytes of a solid text is white space. -/
theorem not_mem_of_isSolid {t : Text} (ht : t.isSolid = true) {b : UInt8}
    (hb : isBlankByte b = true) : b ∉ t := by
  intro hmem
  obtain ⟨hascii, hblank⟩ := isBlank_of_isBlankByte hb
  have hsolid := List.all_eq_true.mp ht _ (scalar_mem_runes hascii hmem)
  simp [hblank] at hsolid

/-- Where there is nothing to drop, nothing is dropped. -/
theorem dropUnits_of_width {width : Text → Nat} {t : Text} (ht : width t = 0) :
    dropUnits width 0 t = t := by
  cases t with
  | nil => rfl
  | cons b t => simp [dropUnits, ht]

/-- An ASCII byte that is no white space is not trimmed. -/
theorem blankWidth_of_ascii {b : UInt8} (hb : b < 0x80) (hblank : isBlankByte b = false)
    (t : Text) : blankWidth (b :: t) = 0 := by
  have hne {c : UInt8} (hc : 0x80 ≤ c) : (b == c) = false := by
    rw [beq_eq_false_iff_ne]
    rintro rfl
    exact absurd hb (UInt8.not_lt.mpr hc)
  have hpair (b₁ : UInt8) : isBlankPair b b₁ = false := by
    simp [isBlankPair, hne]
  have htriple (b₁ b₂ : UInt8) : isBlankTriple b b₁ b₂ = false := by
    simp [isBlankTriple, hne]
  match t with
  | [] => simp [blankWidth, hblank]
  | [b₁] => simp [blankWidth, hblank, hpair]
  | b₁ :: b₂ :: t => simp [blankWidth, hblank, hpair, htriple]

/-- An ASCII byte that is no white space ends the white space in front. -/
theorem trimStart_of_ascii {b : UInt8} (hb : b < 0x80) (hblank : isBlankByte b = false)
    (t : Text) : trimStart (b :: t) = b :: t :=
  dropUnits_of_width (blankWidth_of_ascii hb hblank t)

end Text

end Enclosure
