import Enclosure.Proofs.Json.Strings
import Enclosure.Proofs.Text.Pieces

/-!
# Reading JSON back

A value whose numbers are integers is written on one line and read back from it, whatever its
strings hold. The only thing lost are stray bytes, which are read as U+FFFD.

The reader is bounded twice, by a number of steps and by how deep values nest. The steps always
suffice, since each two of them take a byte; the nesting has to be bounded by the value.

## Main definitions

* `Json.repaired`: a value with U+FFFD in place of each stray byte.
* `Json.Nests`: a value whose numbers are integers and that does not nest deeper than a bound.
* `Json.ReadsBack`: what is said of a written value.

## Main results

* `Json.readNumber_ofInt`: an integer is read as it was written.
* `Json.readValue_render`: **a written value is read as the repaired value**, whatever follows.
* `Json.parse_render`: and so is a text that holds nothing else.
* `Json.newline_not_mem_render`: a written value is on one line.
-/

namespace Enclosure

/-- Decimal notation of a number other than zero does not start with a zero. -/
theorem Text.head?_ofNat_ne_zero {n : Nat} (hn : 0 < n) : (Text.ofNat n).head? ≠ some 48 := by
  induction n using Nat.strongRecOn with
  | ind n ih =>
      by_cases hlt : n < 10
      · have hdigit : ∀ m < 10, 0 < m → (m.digitChar).toUInt8 ≠ 48 := by decide
        rw [Text.ofNat, Nat.toDigits_of_lt_base hlt]
        simpa using hdigit n hlt hn
      · have happend : Text.ofNat n = Text.ofNat (n / 10) ++ [(n % 10).digitChar.toUInt8] := by
          rw [Text.ofNat, Nat.toDigits_of_base_le (by decide) (by omega), List.map_append]
          rfl
        obtain ⟨b, ds, hds⟩ := List.exists_cons_of_ne_nil (Text.ofNat_ne_nil (n / 10))
        have hhead := ih (n / 10) (by omega) (by omega)
        rw [hds] at hhead
        rw [happend, hds]
        exact hhead

namespace Json

/-! ### Numbers -/

/-- What may follow a number: nothing that could be part of it. -/
def EndsNumber (rest : Text) : Prop :=
  ∀ b ∈ rest.head?, Text.isDigit b = false ∧ b ≠ 46 ∧ b ≠ 101 ∧ b ≠ 69

/-- Decimal notation is read digit by digit. -/
theorem readDigits_ofNat (place : Text) (n : Nat) {rest : Text} (hrest : EndsNumber rest) :
    readDigits place (Text.ofNat n ++ rest) = .ok (Text.ofNat n, rest) := by
  obtain ⟨htake, hdrop⟩ := Text.takeWhile_digits_append n fun b hb => (hrest b hb).1
  have hne : (Text.ofNat n).isEmpty = false := List.isEmpty_eq_false_iff.mpr (Text.ofNat_ne_nil n)
  simp only [readDigits, htake, hdrop, hne, Bool.false_eq_true, if_false]

/-- Decimal notation is what may stand before a point: there is no zero in front of it. -/
theorem readWhole_ofNat (n : Nat) {rest : Text} (hrest : EndsNumber rest) :
    readWhole (Text.ofNat n ++ rest) = .ok (Text.ofNat n, rest) := by
  obtain rfl | hn := Nat.eq_zero_or_pos n
  · rfl
  · obtain ⟨b, ds, hds⟩ := List.exists_cons_of_ne_nil (Text.ofNat_ne_nil n)
    have hb : b ≠ 48 := by
      have hhead := Text.head?_ofNat_ne_zero hn
      rw [hds, List.head?_cons] at hhead
      exact fun heq => hhead (congrArg some heq)
    rw [← readDigits_ofNat "in numeric literal" n hrest, hds, List.cons_append]
    rw [readWhole]
    rintro t ⟨rfl, -⟩
    exact hb rfl

/-- **An integer is read as it was written.** -/
theorem readNumber_ofInt (n : Int) {rest : Text} (hrest : EndsNumber rest) :
    readNumber (Text.ofInt n ++ rest) = .ok (.int n, rest) := by
  have hfraction : readFraction rest = .ok ([], rest) := by
    cases rest with
    | nil => rfl
    | cons b rest =>
        obtain ⟨-, hpoint, -⟩ := hrest b rfl
        rw [readFraction]
        rintro t ⟨rfl, -⟩
        exact hpoint rfl
  have hexponent : readExponent rest = .ok ([], rest) := by
    cases rest with
    | nil => rfl
    | cons b rest =>
        obtain ⟨-, -, hlower, hupper⟩ := hrest b rfl
        simp [readExponent, hlower, hupper]
  have hsigned (sign : Text) (m : Nat) (hn : Text.ofInt n = sign ++ Text.ofNat m)
      (hsign : ((Text.ofInt n ++ rest).take 1).takeWhile (· == 45) = sign) :
      readNumber (Text.ofInt n ++ rest) = .ok (.int n, rest) := by
    have hdrop : (Text.ofInt n ++ rest).drop sign.length = Text.ofNat m ++ rest := by
      rw [hn, List.append_assoc, List.drop_left]
    simp only [readNumber, hsign, hdrop, readWhole_ofNat m hrest, bind, Except.bind, hfraction,
      hexponent, List.append_nil, ← hn, int]
    rfl
  cases n with
  | ofNat m =>
      refine hsigned [] m rfl ?_
      obtain ⟨b, ds, hds⟩ := List.exists_cons_of_ne_nil (Text.ofNat_ne_nil m)
      have hdigit : Text.isDigit b = true :=
        Text.isDigit_of_mem_ofNat (n := m) (hds ▸ List.mem_cons_self)
      have hb : (b == 45) = false := by
        rw [beq_eq_false_iff_ne]
        rintro rfl
        cases hdigit
      have hhead : (Text.ofInt (.ofNat m) ++ rest).take 1 = [b] := by
        rw [Text.ofInt, hds]
        rfl
      rw [hhead, List.takeWhile_cons, hb]
      rfl
  | negSucc m => exact hsigned [45] (m + 1) rfl rfl

/-! ### Values -/

mutual

/-- The value with U+FFFD in place of each stray byte. -/
def repaired : Json → Json
  | null => null
  | bool b => bool b
  | number token => number token
  | string t => string t.repaired
  | array items => array (repairedItems items)
  | object members => object (repairedMembers members)

/-- The items with U+FFFD in place of each stray byte. -/
def repairedItems : List Json → List Json
  | [] => []
  | v :: vs => repaired v :: repairedItems vs

/-- The members with U+FFFD in place of each stray byte. -/
def repairedMembers : List (Text × Json) → List (Text × Json)
  | [] => []
  | (name, v) :: rest => (name.repaired, repaired v) :: repairedMembers rest

end

/-- A value whose numbers are integers and whose arrays and objects **nest** at most so deep. -/
inductive Nests : Nat → Json → Prop
  | null (depth : Nat) : Nests depth .null
  | bool (depth : Nat) (b : Bool) : Nests depth (.bool b)
  | int (depth : Nat) (n : Int) : Nests depth (.int n)
  | string (depth : Nat) (t : Text) : Nests depth (.string t)
  | array (depth : Nat) (items : List Json) :
      (∀ v ∈ items, Nests depth v) → Nests (depth + 1) (.array items)
  | object (depth : Nat) (members : List (Text × Json)) :
      (∀ m ∈ members, Nests depth m.2) → Nests (depth + 1) (.object members)

/-- A byte that a value can start with: no blank, and neither the end of an array nor that of an
object. -/
def StartsValue (b : UInt8) : Prop :=
  isBlank b = false ∧ b ≠ 93 ∧ b ≠ 125

/-- There are no blanks to skip in front of a byte that is none. -/
theorem skipBlank_cons {b : UInt8} (hb : isBlank b = false) (t : Text) :
    skipBlank (b :: t) = b :: t := by
  rw [skipBlank, List.dropWhile_cons, hb]
  rfl

/-- A digit is neither a blank nor a bracket, a quote or a letter. -/
theorem startsValue_of_isDigit {b : UInt8} (hb : Text.isDigit b = true) :
    StartsValue b ∧ b ≠ 34 ∧ b ≠ 91 ∧ b ≠ 123 := by
  have hall : ∀ i : Fin 256, Text.isDigit (UInt8.ofFin i) = true →
      (isBlank (UInt8.ofFin i) = false ∧ UInt8.ofFin i ≠ 93 ∧ UInt8.ofFin i ≠ 125) ∧
        UInt8.ofFin i ≠ 34 ∧ UInt8.ofFin i ≠ 91 ∧ UInt8.ofFin i ≠ 123 := by
    decide +kernel
  exact hall b.toFin hb

/-- A written integer starts with a digit or with a minus sign. -/
theorem exists_ofInt_eq_cons (n : Int) : ∃ b t, Text.ofInt n = b :: t ∧
    (b = 45 ∨ Text.isDigit b = true) := by
  cases n with
  | ofNat m =>
      obtain ⟨b, ds, hds⟩ := List.exists_cons_of_ne_nil (Text.ofNat_ne_nil m)
      exact ⟨b, ds, hds, .inr (Text.isDigit_of_mem_ofNat (n := m) (hds ▸ List.mem_cons_self))⟩
  | negSucc m => exact ⟨45, Text.ofNat (m + 1), rfl, .inl rfl⟩

/-- A written value is not empty, and starts in a way that shows it. -/
theorem Nests.exists_render_eq_cons (escapeMarkup : Bool) {depth : Nat} {v : Json}
    (hv : v.Nests depth) : ∃ b t, v.renderWith escapeMarkup = b :: t ∧ StartsValue b := by
  cases hv with
  | null => exact ⟨110, "ull", rfl, by decide, by decide, by decide⟩
  | bool _ b =>
      cases b with
      | true => exact ⟨116, "rue", rfl, by decide, by decide, by decide⟩
      | false => exact ⟨102, "alse", rfl, by decide, by decide, by decide⟩
  | int _ n =>
      obtain ⟨b, t, hn, rfl | hb⟩ := exists_ofInt_eq_cons n
      · exact ⟨45, t, hn, by decide, by decide, by decide⟩
      · exact ⟨b, t, hn, (startsValue_of_isDigit hb).1⟩
  | string _ t => exact ⟨34, _, by rw [renderWith, quote], by decide, by decide, by decide⟩
  | array _ items => exact ⟨91, _, by rw [renderWith]; rfl, by decide, by decide, by decide⟩
  | object _ members => exact ⟨123, _, by rw [renderWith]; rfl, by decide, by decide, by decide⟩

/-- A value that is neither an array nor an object is read in one step. -/
theorem readValue_simple {b : UInt8} (hblank : isBlank b = false) (harray : b ≠ 91)
    (hobject : b ≠ 123) (fuel depth : Nat) (t : Text) :
    readValue (fuel + 1) depth (b :: t) = readSimple (b :: t) := by
  rw [readValue, skipBlank_cons hblank]
  split
  · rename_i heq
    cases heq
    exact absurd rfl harray
  · rename_i heq
    cases heq
    exact absurd rfl hobject
  · rfl

/-- An integer is a value. -/
theorem readSimple_ofInt (n : Int) {rest : Text} (hrest : EndsNumber rest) :
    readSimple (Text.ofInt n ++ rest) = .ok (.int n, rest) := by
  rw [← readNumber_ofInt n hrest]
  obtain ⟨b, t, hn, rfl | hb⟩ := exists_ofInt_eq_cons n
  · rw [hn]
    rfl
  · have hquote : (b == 34) = false := beq_eq_false_iff_ne.mpr (startsValue_of_isDigit hb).2.1
    rw [hn, List.cons_append, readSimple, hquote, hb, Bool.or_true]
    rfl

/-- Items are written with a comma behind each but the last. -/
theorem renderItems_cons_cons (escapeMarkup : Bool) (v w : Json) (vs : List Json) :
    renderItems escapeMarkup (v :: w :: vs) =
      v.renderWith escapeMarkup ++ 44 :: renderItems escapeMarkup (w :: vs) := by
  rw [renderItems]
  · exact List.append_assoc ..
  · simp

/-- A member is written as its name and its value. -/
theorem renderMembers_singleton (escapeMarkup : Bool) (name : Text) (v : Json) :
    renderMembers escapeMarkup [(name, v)] =
      quote escapeMarkup name ++ 58 :: v.renderWith escapeMarkup := by
  rw [renderMembers]
  exact List.append_assoc ..

/-- Members are written with a comma behind each but the last. -/
theorem renderMembers_cons_cons (escapeMarkup : Bool) (name : Text) (v : Json)
    (m : Text × Json) (ms : List (Text × Json)) :
    renderMembers escapeMarkup ((name, v) :: m :: ms) = quote escapeMarkup name ++
      58 :: (v.renderWith escapeMarkup ++ 44 :: renderMembers escapeMarkup (m :: ms)) := by
  rw [renderMembers]
  · simp only [List.append_assoc]
    rfl
  · simp

/-- A name is read as the repaired text. -/
theorem readName_quote (escapeMarkup : Bool) (name rest : Text) :
    readName (quote escapeMarkup name ++ 58 :: rest) = .ok (name.repaired, rest) := by
  have hquote : quote escapeMarkup name ++ 58 :: rest =
      34 :: (name.runes.flatMap (quoteRune escapeMarkup) ++ 34 :: 58 :: rest) := by
    simp [quote]
  rw [hquote, readName, readString_quote]
  rfl

/-- What is said of a written value: it is read as the repaired value at any depth that leaves room
for it, with any number of steps that suffices, and whatever follows that does not go on with a
number. -/
def ReadsBack (escapeMarkup : Bool) (nesting : Nat) (v : Json) : Prop :=
  ∀ fuel depth rest, 2 * (v.renderWith escapeMarkup).length ≤ fuel → depth + nesting ≤ maxDepth →
    EndsNumber rest → readValue fuel depth (v.renderWith escapeMarkup ++ rest) =
      .ok (v.repaired, rest)

section Values

variable {escapeMarkup : Bool} {nesting : Nat}

/-- Nothing that follows an item or a member goes on with a number. -/
theorem endsNumber_cons {b : UInt8} (hb : b = 44 ∨ b = 93 ∨ b = 125) (rest : Text) :
    EndsNumber (b :: rest) := by
  rintro _ ⟨rfl⟩
  obtain rfl | rfl | rfl := hb <;> decide

/-- Items are read one by one, up to the end of the array. -/
theorem readItems_render {items : List Json} (hne : items ≠ [])
    (hitems : ∀ v ∈ items, ReadsBack escapeMarkup nesting v) {fuel depth : Nat}
    (hfuel : 2 * (renderItems escapeMarkup items).length + 1 ≤ fuel)
    (hdepth : depth + nesting ≤ maxDepth) (rest : Text) :
    readItems fuel depth (renderItems escapeMarkup items ++ 93 :: rest) =
      .ok (repairedItems items, rest) := by
  induction items generalizing fuel with
  | nil => exact absurd rfl hne
  | cons v vs ih =>
      obtain ⟨hv, hvs⟩ := List.forall_mem_cons.mp hitems
      obtain ⟨fuel, rfl⟩ : ∃ n, fuel = n + 1 := ⟨fuel - 1, by omega⟩
      cases vs with
      | nil =>
          rw [renderItems] at hfuel ⊢
          rw [readItems, hv fuel depth _ (by omega) hdepth (endsNumber_cons (by simp) rest)]
          rfl
      | cons w vs =>
          rw [renderItems_cons_cons, List.length_append, List.length_cons] at hfuel
          rw [renderItems_cons_cons, List.append_assoc, List.cons_append, readItems,
            hv fuel depth _ (by omega) hdepth (endsNumber_cons (by simp) _)]
          have hfuel' : 2 * (renderItems escapeMarkup (w :: vs)).length + 1 ≤ fuel := by omega
          have hrest := ih (by simp) hvs hfuel'
          simp only [bind, Except.bind, skipBlank_cons (b := 44) (by decide), hrest]
          rfl

/-- Members are read one by one, up to the end of the object. -/
theorem readMembers_render {members : List (Text × Json)} (hne : members ≠ [])
    (hmembers : ∀ m ∈ members, ReadsBack escapeMarkup nesting m.2) {fuel depth : Nat}
    (hfuel : 2 * (renderMembers escapeMarkup members).length + 1 ≤ fuel)
    (hdepth : depth + nesting ≤ maxDepth) (rest : Text) :
    readMembers fuel depth (renderMembers escapeMarkup members ++ 125 :: rest) =
      .ok (repairedMembers members, rest) := by
  induction members generalizing fuel with
  | nil => exact absurd rfl hne
  | cons m ms ih =>
      obtain ⟨hm, hms⟩ := List.forall_mem_cons.mp hmembers
      obtain ⟨name, v⟩ := m
      have hm : ReadsBack escapeMarkup nesting v := hm
      obtain ⟨fuel, rfl⟩ : ∃ n, fuel = n + 1 := ⟨fuel - 1, by omega⟩
      have hskip (t : Text) : skipBlank (quote escapeMarkup name ++ t) =
          quote escapeMarkup name ++ t := skipBlank_cons (by decide) _
      cases ms with
      | nil =>
          rw [renderMembers_singleton, List.length_append, List.length_cons] at hfuel
          rw [renderMembers_singleton, List.append_assoc, List.cons_append, readMembers, hskip,
            readName_quote]
          have hvalue := hm fuel depth _ (by omega) hdepth
            (endsNumber_cons (b := 125) (by simp) rest)
          simp only [bind, Except.bind, hvalue]
          rfl
      | cons m ms =>
          rw [renderMembers_cons_cons, List.length_append, List.length_cons, List.length_append,
            List.length_cons] at hfuel
          rw [renderMembers_cons_cons, List.append_assoc, List.cons_append, List.append_assoc,
            List.cons_append, readMembers, hskip, readName_quote]
          have hvalue := hm fuel depth _ (by omega) hdepth
            (endsNumber_cons (b := 44) (by simp)
              (renderMembers escapeMarkup (m :: ms) ++ 125 :: rest))
          have hfuel' : 2 * (renderMembers escapeMarkup (m :: ms)).length + 1 ≤ fuel := by omega
          have hrest := ih (by simp) hms hfuel'
          simp only [bind, Except.bind, hvalue, skipBlank_cons (b := 44) (by decide), hrest]
          rfl

/-- The items of an array start like a value. -/
theorem exists_renderItems_eq_cons (escapeMarkup : Bool) {items : List Json} (hne : items ≠ [])
    (hitems : ∀ v ∈ items, v.Nests nesting) :
    ∃ b t, renderItems escapeMarkup items = b :: t ∧ StartsValue b := by
  obtain ⟨v, vs, rfl⟩ := List.exists_cons_of_ne_nil hne
  obtain ⟨b, t, hv, hb⟩ := (hitems v List.mem_cons_self).exists_render_eq_cons escapeMarkup
  cases vs with
  | nil => exact ⟨b, t, by rw [renderItems, hv], hb⟩
  | cons w vs => exact ⟨b, _, by rw [renderItems_cons_cons, hv, List.cons_append], hb⟩

/-- The members of an object start with a quote. -/
theorem exists_renderMembers_eq_cons (escapeMarkup : Bool) {members : List (Text × Json)}
    (hne : members ≠ []) :
    ∃ t, renderMembers escapeMarkup members = 34 :: t := by
  obtain ⟨⟨name, v⟩, ms, rfl⟩ := List.exists_cons_of_ne_nil hne
  cases ms with
  | nil => exact ⟨_, by rw [renderMembers_singleton, quote, List.cons_append]⟩
  | cons m ms => exact ⟨_, by rw [renderMembers_cons_cons, quote, List.cons_append]⟩

/-- An array is read back if its items are. -/
theorem readsBack_array {items : List Json} (hnests : ∀ v ∈ items, v.Nests nesting)
    (hitems : ∀ v ∈ items, ReadsBack escapeMarkup nesting v) :
    ReadsBack escapeMarkup (nesting + 1) (.array items) := by
  intro fuel depth rest hfuel hdepth _
  have hrender : (Json.array items).renderWith escapeMarkup =
      91 :: (renderItems escapeMarkup items ++ [93]) := by
    rw [renderWith]
    rfl
  rw [hrender, List.length_cons, List.length_append, List.length_singleton] at hfuel
  obtain ⟨fuel, rfl⟩ : ∃ n, fuel = n + 1 := ⟨fuel - 1, by omega⟩
  have hroom : ¬ maxDepth ≤ depth := by omega
  rw [hrender, List.cons_append, List.append_assoc, List.singleton_append, readValue,
    skipBlank_cons (by decide)]
  simp only [if_neg hroom]
  cases items with
  | nil =>
      simp only [renderItems, List.nil_append, skipBlank_cons (b := 93) (by decide)]
      rfl
  | cons v vs =>
      obtain ⟨b, t, hitem, hblank, hend, -⟩ :=
        exists_renderItems_eq_cons escapeMarkup (List.cons_ne_nil v vs) hnests
      have hfuel' : 2 * (renderItems escapeMarkup (v :: vs)).length + 1 ≤ fuel := by omega
      have hdepth' : depth + 1 + nesting ≤ maxDepth := by omega
      have hread := readItems_render (List.cons_ne_nil v vs) hitems hfuel' hdepth' rest
      rw [hitem, List.cons_append] at hread
      rw [hitem, List.cons_append, skipBlank_cons hblank]
      split
      · rename_i heq
        cases heq
        exact absurd rfl hend
      · rw [hread]
        rfl

/-- An object is read back if the values of its members are. -/
theorem readsBack_object {members : List (Text × Json)}
    (hmembers : ∀ m ∈ members, ReadsBack escapeMarkup nesting m.2) :
    ReadsBack escapeMarkup (nesting + 1) (.object members) := by
  intro fuel depth rest hfuel hdepth _
  have hrender : (Json.object members).renderWith escapeMarkup =
      123 :: (renderMembers escapeMarkup members ++ [125]) := by
    rw [renderWith]
    rfl
  rw [hrender, List.length_cons, List.length_append, List.length_singleton] at hfuel
  obtain ⟨fuel, rfl⟩ : ∃ n, fuel = n + 1 := ⟨fuel - 1, by omega⟩
  have hroom : ¬ maxDepth ≤ depth := by omega
  rw [hrender, List.cons_append, List.append_assoc, List.singleton_append, readValue,
    skipBlank_cons (by decide)]
  simp only [if_neg hroom]
  cases members with
  | nil =>
      simp only [renderMembers, List.nil_append, skipBlank_cons (b := 125) (by decide)]
      rfl
  | cons m ms =>
      obtain ⟨t, hmember⟩ := exists_renderMembers_eq_cons escapeMarkup (List.cons_ne_nil m ms)
      have hfuel' : 2 * (renderMembers escapeMarkup (m :: ms)).length + 1 ≤ fuel := by omega
      have hdepth' : depth + 1 + nesting ≤ maxDepth := by omega
      have hread := readMembers_render (List.cons_ne_nil m ms) hmembers hfuel' hdepth' rest
      rw [hmember, List.cons_append] at hread
      rw [hmember, List.cons_append, skipBlank_cons (b := 34) (by decide)]
      split
      · rename_i heq
        cases heq
      · rw [hread]
        rfl

/-- **A written value is read as the repaired value**, whatever follows. -/
theorem readValue_render {v : Json} (hv : v.Nests nesting) : ReadsBack escapeMarkup nesting v := by
  have hsteps {fuel nesting : Nat} {v : Json} (hv : v.Nests nesting)
      (hfuel : 2 * (v.renderWith escapeMarkup).length ≤ fuel) : ∃ n, fuel = n + 1 := by
    obtain ⟨b, t, hrender, -⟩ := hv.exists_render_eq_cons escapeMarkup
    rw [hrender, List.length_cons] at hfuel
    exact ⟨fuel - 1, by omega⟩
  induction hv with
  | null nesting =>
      intro fuel depth rest hfuel _ _
      obtain ⟨fuel, rfl⟩ := hsteps (.null nesting) hfuel
      rw [renderWith]
      exact readValue_simple (b := 110) (by decide) (by decide) (by decide) fuel depth _
  | bool nesting b =>
      intro fuel depth rest hfuel _ _
      obtain ⟨fuel, rfl⟩ := hsteps (.bool nesting b) hfuel
      rw [renderWith]
      cases b with
      | true => exact readValue_simple (b := 116) (by decide) (by decide) (by decide) fuel depth _
      | false => exact readValue_simple (b := 102) (by decide) (by decide) (by decide) fuel depth _
  | int nesting n =>
      intro fuel depth rest hfuel _ hrest
      have hrender : (Json.int n).renderWith escapeMarkup = Text.ofInt n := by
        rw [int, renderWith]
      have hrepaired : (Json.int n).repaired = .int n := by
        rw [int, repaired]
      obtain ⟨fuel, rfl⟩ := hsteps (.int nesting n) hfuel
      obtain ⟨b, t, hn, hb⟩ := exists_ofInt_eq_cons n
      rw [hrender, hrepaired, ← readSimple_ofInt n hrest, hn, List.cons_append]
      obtain rfl | hb := hb
      · exact readValue_simple (by decide) (by decide) (by decide) fuel depth _
      · obtain ⟨hstarts, -, harray, hobject⟩ := startsValue_of_isDigit hb
        exact readValue_simple hstarts.1 harray hobject fuel depth _
  | string nesting t =>
      intro fuel depth rest hfuel _ _
      obtain ⟨fuel, rfl⟩ := hsteps (.string nesting t) hfuel
      rw [renderWith, quote, List.cons_append, List.append_assoc, List.singleton_append,
        readValue_simple (by decide) (by decide) (by decide), readSimple, readString_quote,
        repaired]
      rfl
  | array nesting items hnests ih => exact readsBack_array hnests ih
  | object nesting members hnests ih => exact readsBack_object ih

/-- **A text that holds a written value and nothing else stands for the repaired value.** -/
theorem parse_render {v : Json} (hv : v.Nests nesting) (hnesting : nesting ≤ maxDepth) :
    parse (v.renderWith escapeMarkup) = .ok v.repaired := by
  have hback : ReadsBack escapeMarkup nesting v := readValue_render hv
  have hread := hback (2 * (v.renderWith escapeMarkup).length + 2) 0 [] (by omega) (by omega)
    (by simp [EndsNumber])
  rw [List.append_nil] at hread
  simp only [parse, read, hread]
  rfl

/-- What is written for items is written for one of them, or is a comma. -/
theorem mem_renderItems {items : List Json} {b : UInt8} (hb : b ∈ renderItems escapeMarkup items) :
    b = 44 ∨ ∃ v ∈ items, b ∈ v.renderWith escapeMarkup := by
  induction items with
  | nil => simp [renderItems] at hb
  | cons v vs ih =>
      cases vs with
      | nil =>
          rw [renderItems] at hb
          exact .inr ⟨v, List.mem_cons_self, hb⟩
      | cons w vs =>
          rw [renderItems_cons_cons, List.mem_append, List.mem_cons] at hb
          obtain hb | hb | hb := hb
          · exact .inr ⟨v, List.mem_cons_self, hb⟩
          · exact .inl hb
          · obtain hb | ⟨u, hu, hb⟩ := ih hb
            · exact .inl hb
            · exact .inr ⟨u, List.mem_cons_of_mem v hu, hb⟩

/-- What is written for members is written for the name or the value of one of them, or is a colon
or a comma. -/
theorem mem_renderMembers {members : List (Text × Json)} {b : UInt8}
    (hb : b ∈ renderMembers escapeMarkup members) :
    b = 44 ∨ b = 58 ∨ ∃ m ∈ members, b ∈ quote escapeMarkup m.1 ∨
      b ∈ m.2.renderWith escapeMarkup := by
  induction members with
  | nil => simp [renderMembers] at hb
  | cons m ms ih =>
      obtain ⟨name, v⟩ := m
      have hmember (hb : b ∈ quote escapeMarkup name ∨ b ∈ v.renderWith escapeMarkup) :
          b = 44 ∨ b = 58 ∨ ∃ m ∈ (name, v) :: ms, b ∈ quote escapeMarkup m.1 ∨
            b ∈ m.2.renderWith escapeMarkup :=
        .inr (.inr ⟨(name, v), List.mem_cons_self, hb⟩)
      cases ms with
      | nil =>
          rw [renderMembers_singleton, List.mem_append, List.mem_cons] at hb
          obtain hb | hb | hb := hb
          · exact hmember (.inl hb)
          · exact .inr (.inl hb)
          · exact hmember (.inr hb)
      | cons m ms =>
          rw [renderMembers_cons_cons, List.mem_append, List.mem_cons, List.mem_append,
            List.mem_cons] at hb
          obtain hb | hb | hb | hb | hb := hb
          · exact hmember (.inl hb)
          · exact .inr (.inl hb)
          · exact hmember (.inr hb)
          · exact .inl hb
          · obtain hb | hb | ⟨m', hm', hb⟩ := ih hb
            · exact .inl hb
            · exact .inr (.inl hb)
            · exact .inr (.inr ⟨m', List.mem_cons_of_mem _ hm', hb⟩)

/-- No control character is in a written value. -/
theorem le_of_mem_render {v : Json} (hv : v.Nests nesting) {b : UInt8}
    (hb : b ∈ v.renderWith escapeMarkup) : 32 ≤ b.toNat := by
  have hword (t : Text) (ht : t.all (fun b => decide (32 ≤ b.toNat)) = true) (hb : b ∈ t) :
      32 ≤ b.toNat := of_decide_eq_true (List.all_eq_true.mp ht b hb)
  induction hv with
  | null nesting =>
      rw [renderWith] at hb
      exact hword _ (by decide) hb
  | bool nesting b' =>
      rw [renderWith] at hb
      exact hword _ (by cases b' <;> decide) hb
  | int nesting n =>
      have hdigit {m : Nat} (hb : b ∈ Text.ofNat m) : 32 ≤ b.toNat := by
        have hdigit := Text.isDigit_of_mem_ofNat hb
        simp only [Text.isDigit, Bool.and_eq_true, decide_eq_true_eq] at hdigit
        have hlo : 48 ≤ b.toNat := hdigit.1
        omega
      rw [int, renderWith] at hb
      cases n with
      | ofNat m => exact hdigit hb
      | negSucc m =>
          obtain rfl | hb := List.mem_cons.mp hb
          · decide
          · exact hdigit hb
  | string nesting t =>
      rw [renderWith] at hb
      exact le_of_mem_quote hb
  | array nesting items _ ih =>
      rw [renderWith, List.mem_append, List.mem_append] at hb
      obtain (hb | hb) | hb := hb
      · exact hword _ (by decide) hb
      · obtain rfl | ⟨v, hv, hb⟩ := mem_renderItems hb
        · decide
        · exact ih v hv hb
      · exact hword _ (by decide) hb
  | object nesting members _ ih =>
      rw [renderWith, List.mem_append, List.mem_append] at hb
      obtain (hb | hb) | hb := hb
      · exact hword _ (by decide) hb
      · obtain rfl | rfl | ⟨m, hm, hb | hb⟩ := mem_renderMembers hb
        · decide
        · decide
        · exact le_of_mem_quote hb
        · exact ih m hm hb
      · exact hword _ (by decide) hb

/-- **A written value is on one line.** -/
theorem newline_not_mem_render {v : Json} (hv : v.Nests nesting) :
    Text.newline ∉ v.renderWith escapeMarkup :=
  fun hmem => absurd (le_of_mem_render hv hmem) (by decide)

end Values

end Json

end Enclosure
