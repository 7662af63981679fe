import Enclosure.Proofs.Source.Origin
import Enclosure.Proofs.Text.Pieces

/-!
# The grammar of headers

A header is read from the front of a line in a single pass: the white space behind the keyword as
far as it goes, then the name as far as it goes. What headers there are can be said without any such
order, as a **grammar** whose productions put a line together from its parts. Some of the parts
overlap in what they may hold, and what follows a header may hold anything, also another colon or
parenthesis. Still a line is put together as a header in one way only as far as kind and name go:
white space ends where the name starts, and the name ends at a byte that no name contains.

## Main definitions

* `Header.gapBytes`: the white space that may stand inside a header.
* `Header.Spells`: the grammar.

## Main results

* `Header.parse?_of_spells`: what the grammar puts together is read.
* `Header.spells_of_parse?`: what is read was put together by the grammar.
* `Header.parse?_exactly_spells`: **headers are read exactly by their grammar**, which gives a line
  at most one of them.
-/

namespace Enclosure

namespace Header

/-- The white space that may stand inside a header: tab, newline, form feed, carriage return and
space. -/
def gapBytes : Text := "\t\n\x0c\r "

/-- The **grammar** of headers: how a line is put together that starts with the header `h`. -/
inductive Spells : Header → Text → Prop
  /-- A function: its name and an opening parenthesis. -/
  | function {gap name space rest : Text} :
      gap ≠ [] → gap ⊆ gapBytes → IsBlockName name → space ⊆ gapBytes →
      Spells ⟨.function, name⟩ ("def" ++ gap ++ name ++ space ++ "(" ++ rest)
  /-- A class without a list of bases: its name and a colon. -/
  | plainClass {gap name rest : Text} :
      gap ≠ [] → gap ⊆ gapBytes → IsBlockName name →
      Spells ⟨.classBody, name⟩ ("class" ++ gap ++ name ++ ":" ++ rest)
  /-- A class with a list in parentheses, which closes with a colon on the same line. Inside the
  list there may be anything, also what looks like its end. -/
  | derivedClass {gap name list rest : Text} :
      gap ≠ [] → gap ⊆ gapBytes → IsBlockName name → Text.newline ∉ list →
      Spells ⟨.classBody, name⟩ ("class" ++ gap ++ name ++ "(" ++ list ++ "):" ++ rest)

/-! ### Words and gaps -/

/-- The white space inside a header, byte by byte. -/
theorem isGap_iff (b : UInt8) : isGap b = true ↔ b ∈ gapBytes := by
  have hbytes : gapBytes = [9, 10, 12, 13, 32] := by decide
  simp only [isGap, hbytes, Bool.or_eq_true, beq_iff_eq, List.mem_cons, List.not_mem_nil, or_false,
    or_assoc]

/-- No name contains white space. -/
theorem isGap_eq_false_of_isWord {b : UInt8} (hb : Text.isWord b = true) : isGap b = false := by
  have hall : ∀ i : Fin 256,
      Text.isWord (UInt8.ofFin i) = true → isGap (UInt8.ofFin i) = false := by
    decide +kernel
  exact hall b.toFin hb

/-- No name contains white space inside a header. -/
theorem isWord_eq_false_of_mem_gapBytes {b : UInt8} (hb : b ∈ gapBytes) :
    Text.isWord b = false := by
  rw [Bool.eq_false_iff]
  intro hword
  have hgap := isGap_eq_false_of_isWord hword
  rw [(isGap_iff b).mpr hb] at hgap
  cases hgap

/-- **A name behind a keyword is read as a whole**, if what follows it does not go on with it. -/
theorem readNamed_append {keyword gap name rest : Text} (hgap : gap ≠ []) (hgaps : gap ⊆ gapBytes)
    (hname : IsBlockName name) (hrest : ∀ b ∈ rest.head?, Text.isWord b = false) :
    readNamed keyword (keyword ++ gap ++ name ++ rest) = some (name, rest) := by
  have hstart : ∀ b ∈ (name ++ rest).head?, isGap b = false := by
    obtain ⟨b, name', rfl⟩ := List.exists_cons_of_ne_nil hname.1
    rintro _ ⟨rfl⟩
    exact isGap_eq_false_of_isWord (hname.2 b List.mem_cons_self)
  obtain ⟨hgap', hafter⟩ := Text.span_append (fun b hb => (isGap_iff b).mpr (hgaps hb)) hstart
  obtain ⟨hname', hrest'⟩ := Text.span_append hname.2 hrest
  have hkeyword : keyword.isPrefixOf? (keyword ++ gap ++ name ++ rest) =
      some (gap ++ (name ++ rest)) :=
    List.isPrefixOf?_eq_some_iff_append_eq.mpr (by simp only [List.append_assoc])
  have hgapEmpty : gap.isEmpty = false := List.isEmpty_eq_false_iff.mpr hgap
  have hnameEmpty : name.isEmpty = false := List.isEmpty_eq_false_iff.mpr hname.1
  simp only [readNamed, hkeyword, Option.bind_eq_bind, Option.bind_some, hgap', hafter, hname',
    hrest', hgapEmpty, hnameEmpty]
  rfl

/-! ### What follows the name -/

/-- When an opening parenthesis follows the name of a function. -/
theorem opensParameters_iff (t : Text) :
    opensParameters t = true ↔ ∃ space rest, space ⊆ gapBytes ∧ t = space ++ "(" ++ rest := by
  rw [opensParameters, beq_iff_eq]
  constructor
  · intro hhead
    obtain ⟨rest, hrest⟩ := List.head?_eq_some_iff.mp hhead
    refine ⟨t.takeWhile isGap, rest, fun b hb => (isGap_iff b).mp (List.mem_takeWhile_imp hb), ?_⟩
    rw [List.append_assoc]
    exact (List.takeWhile_append_dropWhile.symm.trans (congrArg _ hrest))
  · rintro ⟨space, rest, hspace, rfl⟩
    have hparenthesis : ∀ b ∈ ("(" ++ rest : Text).head?, isGap b = false := by
      rintro _ ⟨rfl⟩
      decide
    obtain ⟨-, hafter⟩ :=
      Text.span_append (fun b hb => (isGap_iff b).mpr (hspace hb)) hparenthesis
    rw [List.append_assoc, hafter]
    rfl

/-- When the body of a class is opened behind its name. -/
theorem opensBody_iff (t : Text) :
    opensBody t = true ↔ (∃ rest, t = ":" ++ rest) ∨
      ∃ list rest, Text.newline ∉ list ∧ t = "(" ++ list ++ "):" ++ rest := by
  have hlist (after : Text) : Text.hasInfix "):" (after.takeWhile (· != Text.newline)) = true ↔
      ∃ list rest, Text.newline ∉ list ∧ after = list ++ "):" ++ rest := by
    rw [Text.hasInfix_iff]
    constructor
    · rintro ⟨list, rest, hline⟩
      refine ⟨list, rest ++ after.dropWhile (· != Text.newline), ?_, ?_⟩
      · intro hmem
        have hmem : Text.newline ∈ after.takeWhile (· != Text.newline) := by
          rw [← hline, List.append_assoc]
          exact List.mem_append_left _ hmem
        simpa using List.mem_takeWhile_imp hmem
      · rw [← List.append_assoc, hline, List.takeWhile_append_dropWhile]
    · rintro ⟨list, rest, hmem, rfl⟩
      have hkept : ∀ b ∈ list ++ Text.ofString "):", (b != Text.newline) = true := by
        intro b hb
        rw [bne_iff_ne]
        rintro rfl
        exact (List.mem_append.mp hb).elim hmem (by decide)
      rw [List.takeWhile_append_of_pos hkept]
      exact ⟨list, _, rfl⟩
  unfold opensBody
  split
  · rename_i rest
    exact iff_of_true rfl (.inl ⟨rest, rfl⟩)
  · rename_i after
    rw [hlist]
    constructor
    · rintro ⟨list, rest, hmem, rfl⟩
      exact .inr ⟨list, rest, hmem, rfl⟩
    · rintro (⟨rest, heq⟩ | ⟨list, rest, hmem, heq⟩)
      · cases heq
      · exact ⟨list, rest, hmem, (List.cons.inj heq).2⟩
  · rename_i hcolon hopening
    refine iff_of_false Bool.false_ne_true ?_
    rintro (⟨rest, rfl⟩ | ⟨list, rest, -, rfl⟩)
    · exact hcolon rest rfl
    · exact hopening _ rfl

/-! ### The grammar -/

/-- Nothing that may follow a name goes on with it. -/
theorem not_word_of_opens {t : Text} (ht : opensParameters t = true ∨ opensBody t = true) :
    ∀ b ∈ t.head?, Text.isWord b = false := by
  rw [opensParameters_iff, opensBody_iff] at ht
  obtain ⟨space, rest, hspace, rfl⟩ | ⟨rest, rfl⟩ | ⟨list, rest, -, rfl⟩ := ht
  · cases space with
    | nil =>
        rintro _ ⟨rfl⟩
        decide
    | cons b space =>
        rintro _ ⟨rfl⟩
        exact isWord_eq_false_of_mem_gapBytes (hspace List.mem_cons_self)
  · rintro _ ⟨rfl⟩
    decide
  · rintro _ ⟨rfl⟩
    decide

/-- **A name behind a keyword**, with something after it that opens the header. -/
theorem exists_readNamed_iff {keyword t name : Text} {opens : Text → Bool}
    (hopens : ∀ rest, opens rest = true → ∀ b ∈ rest.head?, Text.isWord b = false) :
    (∃ rest, readNamed keyword t = some (name, rest) ∧ opens rest = true) ↔
      ∃ gap rest, gap ≠ [] ∧ gap ⊆ gapBytes ∧ IsBlockName name ∧ opens rest = true ∧
        t = keyword ++ gap ++ name ++ rest := by
  constructor
  · rintro ⟨rest, hread, hrest⟩
    obtain ⟨gap, hgap, hgaps, hname, rfl⟩ := spelled_of_readNamed hread
    exact ⟨gap, rest, hgap, fun b hb => (isGap_iff b).mp (hgaps b hb), hname, hrest, rfl⟩
  · rintro ⟨gap, rest, hgap, hgaps, hname, hrest, rfl⟩
    exact ⟨rest, readNamed_append hgap hgaps hname (hopens rest hrest), hrest⟩

/-- **Which texts start with the header of a function.** -/
theorem functionName?_eq_some_iff {t name : Text} :
    functionName? t = some name ↔ Spells ⟨.function, name⟩ t := by
  have hread : functionName? t = some name ↔
      ∃ rest, readNamed "def" t = some (name, rest) ∧ opensParameters rest = true := by
    simp [functionName?, Option.bind_eq_some_iff]
  rw [hread, exists_readNamed_iff fun rest hrest => not_word_of_opens (.inl hrest)]
  constructor
  · rintro ⟨gap, rest, hgap, hgaps, hname, hrest, rfl⟩
    obtain ⟨space, rest, hspace, rfl⟩ := (opensParameters_iff rest).mp hrest
    have hspells := @Spells.function gap name space rest hgap hgaps hname hspace
    simpa only [List.append_assoc] using hspells
  · intro h
    cases h with
    | @function gap _ space rest hgap hgaps hname hspace =>
        refine ⟨gap, space ++ "(" ++ rest, hgap, hgaps, hname, ?_, by simp only [List.append_assoc]⟩
        exact (opensParameters_iff _).mpr ⟨space, rest, hspace, rfl⟩

/-- **Which texts start with the header of a class.** -/
theorem className?_eq_some_iff {t name : Text} :
    className? t = some name ↔ Spells ⟨.classBody, name⟩ t := by
  have hread : className? t = some name ↔
      ∃ rest, readNamed "class" t = some (name, rest) ∧ opensBody rest = true := by
    simp [className?, Option.bind_eq_some_iff]
  rw [hread, exists_readNamed_iff fun rest hrest => not_word_of_opens (.inr hrest)]
  constructor
  · rintro ⟨gap, rest, hgap, hgaps, hname, hrest, rfl⟩
    obtain ⟨rest, rfl⟩ | ⟨list, rest, hlist, rfl⟩ := (opensBody_iff rest).mp hrest
    · have hspells := @Spells.plainClass gap name rest hgap hgaps hname
      simpa only [List.append_assoc] using hspells
    · have hspells := @Spells.derivedClass gap name list rest hgap hgaps hname hlist
      simpa only [List.append_assoc] using hspells
  · intro h
    cases h with
    | @plainClass gap _ rest hgap hgaps hname =>
        refine ⟨gap, ":" ++ rest, hgap, hgaps, hname, ?_, by simp only [List.append_assoc]⟩
        exact (opensBody_iff _).mpr (.inl ⟨rest, rfl⟩)
    | @derivedClass gap _ list rest hgap hgaps hname hlist =>
        refine ⟨gap, "(" ++ list ++ "):" ++ rest, hgap, hgaps, hname, ?_,
          by simp only [List.append_assoc]⟩
        exact (opensBody_iff _).mpr (.inr ⟨list, rest, hlist, rfl⟩)

/-- Headers of functions and of classes differ in their first letter. -/
theorem Spells.head? {h : Header} {t : Text} (hs : Spells h t) :
    h.kind = .function ∧ t.head? = some 100 ∨ h.kind = .classBody ∧ t.head? = some 99 := by
  cases hs with
  | function => exact .inl ⟨rfl, rfl⟩
  | plainClass => exact .inr ⟨rfl, rfl⟩
  | derivedClass => exact .inr ⟨rfl, rfl⟩

/-- What is read was put together by the grammar. -/
theorem spells_of_parse? {t : Text} {h : Header} (hparse : parse? t = some h) : Spells h t := by
  rw [parse?] at hparse
  split at hparse
  · rename_i name hname
    obtain rfl := Option.some.inj hparse
    exact functionName?_eq_some_iff.mp hname
  · split at hparse
    · rename_i name hname
      obtain rfl := Option.some.inj hparse
      exact className?_eq_some_iff.mp hname
    · cases hparse

/-- What the grammar puts together is read. -/
theorem parse?_of_spells {t : Text} {h : Header} (hs : Spells h t) : parse? t = some h := by
  obtain ⟨kind, name⟩ := h
  obtain ⟨rfl, -⟩ | ⟨rfl, hfirst⟩ := hs.head?
  · rw [parse?, functionName?_eq_some_iff.mpr hs]
  · have hfunction : functionName? t = none := by
      rw [Option.eq_none_iff_forall_ne_some]
      intro name' hname'
      obtain ⟨-, hfirst'⟩ | ⟨hkind, -⟩ := (functionName?_eq_some_iff.mp hname').head?
      · rw [hfirst] at hfirst'
        cases hfirst'
      · cases hkind
    rw [parse?, hfunction, className?_eq_some_iff.mpr hs]

/-- **Headers are read exactly by their grammar**: what is read from a text is the header with which
the grammar puts it together, and nothing is read if and only if there is none. There is never more
than one. -/
theorem parse?_exactly_spells (t : Text) :
    (∀ h, parse? t = some h ↔ Spells h t) ∧
    (parse? t = none ↔ ∀ h, ¬ Spells h t) ∧
    ∀ h h', Spells h t → Spells h' t → h = h' := by
  have hiff (h : Header) : parse? t = some h ↔ Spells h t := ⟨spells_of_parse?, parse?_of_spells⟩
  refine ⟨hiff, ?_, ?_⟩
  · simp only [Option.eq_none_iff_forall_ne_some, ne_eq, hiff]
  · intro h h' hs hs'
    rw [← hiff] at hs hs'
    exact Option.some.inj (hs.symm.trans hs')

/-- A list that holds what looks like its end may close at either place. It is the same header. -/
theorem parse?_exactly_spells_nestedList :
    Spells ⟨.classBody, "A"⟩ "class\tA(f(x):1):" ∧
    parse? "class\tA(f(x):1):" = some ⟨.classBody, "A"⟩ ∧
    ∀ h, Spells h "class\tA(f(x):1):" → h = ⟨.classBody, "A"⟩ := by
  obtain ⟨hiff, -, hunique⟩ := parse?_exactly_spells "class\tA(f(x):1):"
  have hspells : Spells ⟨.classBody, "A"⟩ "class\tA(f(x):1):" :=
    @Spells.derivedClass "\t" "A" "f(x):1" [] (by decide) (by decide)
      ⟨by decide, List.all_eq_true.mp (by decide)⟩ (by decide)
  exact ⟨hspells, (hiff _).mpr hspells, fun h hs => hunique h _ hs hspells⟩

end Header

end Enclosure
