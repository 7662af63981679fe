import Enclosure.Files.Tree
import Enclosure.Proofs.Text.Pieces
import Mathlib.Data.List.Basic

/-!
# Clean paths

The clean spelling of a path is computed with a stack of elements. What is on the stack is
**settled**: elements `..` stand only in front, and not at all if the path is absolute, so that
nothing on the stack can take back anything else on it. Settled elements are pushed as they are,
which is why cleaning a path that has been put below a directory keeps the directory's own clean
elements and adds those of the path.

A path is spelled below a root by what stands **in front** of it, each clean element of the root with
a slash behind it. Taking the root away again compares this with the root as it is spelled. They
agree for roots that are **spelled plainly**, and for other roots the comparison never succeeds,
since no clean path starts with elements that are not settled.

## Main definitions

* `Path.IsInner`: a clean path to something below the place where it starts.
* `Path.Settled`: elements as they stand in clean paths.
* `Path.front`: what stands in front of the paths below a root.
* `Path.spelledPlainly`: whether a root is spelled as its clean spelling is, up to a slash at the end,
  or leads to where it starts.

## Main results

* `Path.settled_cleanElements`: the clean elements of a path are settled.
* `Path.cleanElements_clean`: the clean spelling is clean.
* `Path.join_eq_front_append`, `Path.join_eq_of_clean_eq`: a path below a root.
* `Path.front_eq_of_starts`: no clean path starts with a root that is not clean.
* `Path.relative_join`: **what is left of a path below a root when the root is taken away**: the path
  itself if the root is spelled plainly, and else the path with the root.
* `FileTree.eq_destination_of_place`: **where a path leads is told by its spelling**, if it leads
  anywhere.
-/

namespace Enclosure

namespace Path

/-- An element that names something, or leads to the directory above. -/
def IsElement (e : Text) : Prop :=
  e ≠ [] ∧ e ≠ here ∧ Text.slash ∉ e

/-- An element that names something. -/
def IsName (e : Text) : Prop :=
  IsElement e ∧ e ≠ parent

/-- A path that leads to something below the place where it starts, spelled cleanly: each of its
elements is a name. -/
def IsInner (p : Text) : Prop :=
  ∀ e ∈ Text.splitAt Text.slash p, IsName e

instance (e : Text) : Decidable (IsElement e) :=
  inferInstanceAs (Decidable (_ ∧ _ ∧ _))

instance (e : Text) : Decidable (IsName e) :=
  inferInstanceAs (Decidable (_ ∧ _))

instance (p : Text) : Decidable (IsInner p) :=
  inferInstanceAs (Decidable (∀ e ∈ _, IsName e))

/-- A **settled** stack of elements, of which the last comes first: below an element that leads to the
directory above there are only such elements, and in an absolute path there are none. -/
def Settled (absolute : Bool) : List Text → Prop
  | [] => True
  | e :: below => IsElement e ∧ (e = parent → absolute = false ∧ ∀ e' ∈ below, e' = parent) ∧
      Settled absolute below

/-! ### The stack -/

/-- What lies below settled elements is settled. -/
theorem Settled.of_append {absolute : Bool} {above stack : List Text}
    (h : Settled absolute (above ++ stack)) : Settled absolute stack := by
  induction above with
  | nil => exact h
  | cons e above ih => exact ih h.2.2

/-- More names may be put on a settled stack. -/
theorem Settled.append {absolute : Bool} {names stack : List Text} (h : Settled absolute stack)
    (hnames : ∀ e ∈ names, IsName e) : Settled absolute (names ++ stack) := by
  induction names with
  | nil => exact h
  | cons e names ih =>
      obtain ⟨he, hnames⟩ := List.forall_mem_cons.mp hnames
      exact ⟨he.1, fun hup => absurd hup he.2, ih hnames⟩

/-- A settled stack is made of elements. -/
theorem Settled.isElement {absolute : Bool} {stack : List Text} (h : Settled absolute stack)
    {e : Text} (he : e ∈ stack) : IsElement e := by
  induction stack with
  | nil => cases he
  | cons e' below ih =>
      rcases List.mem_cons.mp he with rfl | he
      · exact h.1
      · exact ih h.2.2 he

/-- **One more element leaves a settled stack settled.** -/
theorem Settled.push {absolute : Bool} {stack : List Text} (h : Settled absolute stack) {e : Text}
    (he : IsElement e) : Settled absolute (push absolute stack e) := by
  simp only [Path.push, beq_iff_eq]
  split
  · rename_i hup
    subst hup
    cases stack with
    | nil =>
        cases absolute with
        | true => trivial
        | false => exact ⟨he, by simp, trivial⟩
    | cons top below =>
        by_cases htop : top = parent
        · -- One more step up.
          simp only [htop, if_true]
          rw [htop] at h
          obtain ⟨habsolute, hbelow⟩ := h.2.1 rfl
          refine ⟨he, fun _ => ⟨habsolute, ?_⟩, h⟩
          exact List.forall_mem_cons.mpr ⟨rfl, hbelow⟩
        · simp only [htop, if_false]
          exact h.2.2
  · rename_i hname
    exact ⟨he, fun hup => absurd hup hname, h⟩

/-- An element that settles is pushed as it is. -/
theorem push_of_settled {absolute : Bool} {stack : List Text} {e : Text}
    (h : Settled absolute (e :: stack)) : push absolute stack e = e :: stack := by
  simp only [push, beq_iff_eq]
  split
  · rename_i hup
    obtain ⟨rfl, hbelow⟩ := h.2.1 hup
    cases stack with
    | nil => rw [hup]; rfl
    | cons top below => simp only [hbelow top List.mem_cons_self, hup, if_true]
  · rfl

/-- So are elements that settle one after the other. -/
theorem foldl_push_of_settled {absolute : Bool} {es stack : List Text}
    (h : Settled absolute (es.reverse ++ stack)) :
    es.foldl (push absolute) stack = es.reverse ++ stack := by
  induction es generalizing stack with
  | nil => rfl
  | cons e es ih =>
      rw [List.reverse_cons, List.append_assoc, List.singleton_append] at h ⊢
      rw [List.foldl_cons, push_of_settled h.of_append]
      exact ih h

/-- The elements of a path are elements. -/
theorem isElement_of_mem_elements {p e : Text} (he : e ∈ elements p) : IsElement e := by
  obtain ⟨hpiece, hkept⟩ := List.mem_filter.mp he
  rw [Bool.and_eq_true, Bool.not_eq_true', List.isEmpty_eq_false_iff, bne_iff_ne] at hkept
  exact ⟨hkept.1, hkept.2, Text.not_mem_of_mem_splitAt hpiece⟩

/-- **The clean elements of a path are settled.** -/
theorem settled_cleanElements (p : Text) : Settled (isAbsolute p) (cleanElements p).reverse := by
  rw [cleanElements, List.reverse_reverse]
  have hfold : ∀ es : List Text, (∀ e ∈ es, IsElement e) → ∀ stack, Settled (isAbsolute p) stack →
      Settled (isAbsolute p) (es.foldl (push (isAbsolute p)) stack) := by
    intro es hes
    induction es with
    | nil => exact fun _ h => h
    | cons e es ih =>
        obtain ⟨he, hes⟩ := List.forall_mem_cons.mp hes
        exact fun stack h => ih hes _ (h.push he)
  exact hfold _ (fun e he => isElement_of_mem_elements he) [] trivial

/-- Clean elements are elements. -/
theorem isElement_of_mem_cleanElements {p e : Text} (he : e ∈ cleanElements p) : IsElement e :=
  (settled_cleanElements p).isElement (List.mem_reverse.mpr he)

/-! ### Clean spellings -/

/-- A slash as a text. -/
theorem slash_text : (("/" : String) : Text) = [Text.slash] := rfl

/-- Elements are all kept. -/
theorem filter_elements {es : List Text} (hes : ∀ e ∈ es, IsElement e) :
    (es.filter fun e => !e.isEmpty && e != here) = es := by
  rw [List.filter_eq_self]
  intro e he
  obtain ⟨hne, hhere, -⟩ := hes e he
  rw [Bool.and_eq_true, Bool.not_eq_true', List.isEmpty_eq_false_iff, bne_iff_ne]
  exact ⟨hne, hhere⟩

/-- The pieces of what stands in front of the paths below a root: its clean elements, and for an
absolute root nothing before its first slash. -/
def frontPieces (root : Text) : List Text :=
  if isAbsolute root then [] :: cleanElements root else cleanElements root

/-- What stands **in front** of the paths below a root: each of the pieces with a slash behind it. -/
def front (root : Text) : Text :=
  (frontPieces root).flatMap (· ++ [Text.slash])

/-- There is no slash in the pieces of what stands in front. -/
theorem slash_not_mem_of_mem_frontPieces {root e : Text} (he : e ∈ frontPieces root) :
    Text.slash ∉ e := by
  rw [frontPieces] at he
  split at he
  · rcases List.mem_cons.mp he with rfl | hclean
    · simp
    · exact (isElement_of_mem_cleanElements hclean).2.2
  · exact (isElement_of_mem_cleanElements he).2.2

/-- The pieces of a clean spelling that has elements. -/
theorem splitAt_clean {p : Text} (hp : cleanElements p ≠ []) :
    Text.splitAt Text.slash (clean p) = frontPieces p := by
  have hbody : Text.join [Text.slash] (cleanElements p) ≠ [] := by
    intro hnil
    have hpieces := Text.splitAt_join hp fun e he => (isElement_of_mem_cleanElements he).2.2
    rw [hnil] at hpieces
    have hmem : [] ∈ cleanElements p := hpieces ▸ List.mem_cons_self
    exact (isElement_of_mem_cleanElements hmem).1 rfl
  have hjoin : clean p = Text.join [Text.slash] (frontPieces p) := by
    obtain ⟨e, es, hes⟩ := List.exists_cons_of_ne_nil hp
    rw [hes] at hbody
    rw [clean, frontPieces, hes]
    cases isAbsolute p with
    | true => rw [if_pos rfl, if_pos rfl, Text.join_cons_cons]; rfl
    | false => simp [hbody, slash_text]
  have hne : frontPieces p ≠ [] := by
    rw [frontPieces]
    split
    · exact List.cons_ne_nil _ _
    · exact hp
  rw [hjoin, Text.splitAt_join hne fun e he => slash_not_mem_of_mem_frontPieces he]

/-- A clean spelling without elements. -/
theorem clean_of_cleanElements_eq_nil {p : Text} (hp : cleanElements p = []) :
    clean p = if isAbsolute p then [Text.slash] else here := by
  rw [clean, hp]
  rfl

/-- The clean spelling starts where the path starts. -/
theorem isAbsolute_clean (p : Text) : isAbsolute (clean p) = isAbsolute p := by
  cases habsolute : isAbsolute p with
  | true =>
      rw [clean, habsolute]
      rfl
  | false =>
      by_cases hnil : cleanElements p = []
      · rw [clean_of_cleanElements_eq_nil hnil, habsolute]
        rfl
      · have hpieces := splitAt_clean hnil
        rw [frontPieces, habsolute, if_neg Bool.false_ne_true] at hpieces
        rw [Bool.eq_false_iff]
        intro hslash
        obtain ⟨rest, hrest⟩ : ∃ rest, clean p = Text.slash :: rest := by
          simpa [isAbsolute, List.head?_eq_some_iff] using hslash
        rw [hrest, Text.splitAt_cons, if_pos rfl] at hpieces
        have hmem : [] ∈ cleanElements p := hpieces ▸ List.mem_cons_self
        exact (isElement_of_mem_cleanElements hmem).1 rfl

/-- The elements of the clean spelling are the clean elements. -/
theorem elements_clean (p : Text) : elements (clean p) = cleanElements p := by
  have hkept := filter_elements fun e (he : e ∈ cleanElements p) => isElement_of_mem_cleanElements he
  by_cases hnil : cleanElements p = []
  · rw [clean_of_cleanElements_eq_nil hnil, hnil]
    cases isAbsolute p <;> rfl
  · rw [elements, splitAt_clean hnil, frontPieces]
    split
    · exact hkept
    · exact hkept

/-- The clean spelling is clean. -/
theorem cleanElements_clean (p : Text) : cleanElements (clean p) = cleanElements p := by
  have hsettled := settled_cleanElements p
  rw [← List.append_nil (cleanElements p).reverse] at hsettled
  rw [cleanElements, isAbsolute_clean, elements_clean, foldl_push_of_settled hsettled,
    List.append_nil, List.reverse_reverse]

/-- **Two paths with one clean spelling** have the same clean elements and start at one place. -/
theorem cleanElements_eq_of_clean_eq {p q : Text} (h : clean p = clean q) :
    isAbsolute p = isAbsolute q ∧ cleanElements p = cleanElements q := by
  rw [← isAbsolute_clean p, ← cleanElements_clean p, h]
  exact ⟨isAbsolute_clean q, cleanElements_clean q⟩

/-- The same stands in front of the paths below two roots with one clean spelling. -/
theorem front_eq_of_clean_eq {p q : Text} (h : clean p = clean q) : front p = front q := by
  obtain ⟨habsolute, helements⟩ := cleanElements_eq_of_clean_eq h
  rw [front, front, frontPieces, frontPieces, habsolute, helements]

/-! ### Paths below a root -/

/-- The elements of a path below another one. -/
theorem elements_append_slash (p q : Text) :
    elements (p ++ Text.slash :: q) = elements p ++ elements q := by
  rw [elements, Text.splitAt_append_sep, List.filter_append, elements, elements]

/-- A path below another one starts where that one starts. -/
theorem isAbsolute_append {p : Text} (hp : p ≠ []) (q : Text) :
    isAbsolute (p ++ q) = isAbsolute p := by
  obtain ⟨b, p, rfl⟩ := List.exists_cons_of_ne_nil hp
  rfl

/-- The clean elements of a path below a root: its elements are pushed on those of the root. -/
theorem cleanElements_append {root : Text} (hroot : root ≠ []) (p : Text) :
    cleanElements (root ++ Text.slash :: p) =
      ((elements p).foldl (push (isAbsolute root)) (cleanElements root).reverse).reverse := by
  rw [cleanElements, isAbsolute_append hroot, elements_append_slash, List.foldl_append, cleanElements,
    List.reverse_reverse]

/-- An inner path is not empty. -/
theorem IsInner.ne_nil {r : Text} (hr : IsInner r) : r ≠ [] := by
  rintro rfl
  exact (hr [] List.mem_cons_self).1.1 rfl

/-- An inner path does not start with a slash. -/
theorem IsInner.not_slash_first {r : Text} (hr : IsInner r) : ¬ [Text.slash] <+: r := by
  rintro ⟨rest, rfl⟩
  have hmem : [] ∈ Text.splitAt Text.slash ([Text.slash] ++ rest) := by
    rw [List.singleton_append, Text.splitAt_cons, if_pos rfl]
    exact List.mem_cons_self
  exact (hr [] hmem).1.1 rfl

/-- The clean elements of an inner path below a root are added to those of the root. -/
theorem cleanElements_append_of_isInner {root r : Text} (hroot : root ≠ []) (hr : IsInner r) :
    cleanElements (root ++ Text.slash :: r) =
      cleanElements root ++ Text.splitAt Text.slash r := by
  have helements : elements r = Text.splitAt Text.slash r :=
    filter_elements fun e he => (hr e he).1
  have hnames : ∀ e ∈ (Text.splitAt Text.slash r).reverse, IsName e :=
    fun e he => hr e (List.mem_reverse.mp he)
  rw [cleanElements_append hroot, helements,
    foldl_push_of_settled ((settled_cleanElements root).append hnames), List.reverse_append,
    List.reverse_reverse, List.reverse_reverse]

/-- A path below a root, before it is cleaned. -/
theorem join_eq_clean {root p : Text} (hroot : root ≠ []) (hp : p ≠ []) :
    join root p = clean (root ++ Text.slash :: p) := by
  obtain ⟨b, root, rfl⟩ := List.exists_cons_of_ne_nil hroot
  obtain ⟨c, p, rfl⟩ := List.exists_cons_of_ne_nil hp
  have hjoin : Text.join "/" [b :: root, c :: p] = b :: root ++ Text.slash :: c :: p := by
    rw [Text.join_cons_cons]
    simp [Text.join, slash_text]
  simp [join, hjoin]

/-- With nothing below it a root is cleaned. -/
theorem join_nil {root : Text} (hroot : root ≠ []) : join root [] = clean root := by
  obtain ⟨b, root, rfl⟩ := List.exists_cons_of_ne_nil hroot
  simp [join, Text.join]

/-- A path below a root is clean. -/
theorem exists_join_eq_clean {root : Text} (hroot : root ≠ []) (p : Text) :
    ∃ q, join root p = clean q := by
  by_cases hp : p = []
  · rw [hp]
    exact ⟨root, join_nil hroot⟩
  · exact ⟨_, join_eq_clean hroot hp⟩

/-- **Paths below a root do not depend on how the root is spelled.** -/
theorem join_eq_of_clean_eq {root root' : Text} (hroot : root ≠ []) (hroot' : root' ≠ [])
    (hclean : clean root = clean root') (p : Text) : join root p = join root' p := by
  by_cases hp : p = []
  · rw [hp, join_nil hroot, join_nil hroot', hclean]
  · obtain ⟨habsolute, helements⟩ := cleanElements_eq_of_clean_eq hclean
    rw [join_eq_clean hroot hp, join_eq_clean hroot' hp, clean, clean, isAbsolute_append hroot,
      isAbsolute_append hroot', cleanElements_append hroot, cleanElements_append hroot', habsolute,
      helements]

/-- **A path below a root** is the path with what stands in front of it. -/
theorem join_eq_front_append {root r : Text} (hroot : root ≠ []) (hr : IsInner r) :
    join root r = front root ++ r := by
  have hbody : Text.join "/" (cleanElements (root ++ Text.slash :: r)) =
      (cleanElements root).flatMap (· ++ [Text.slash]) ++ r := by
    rw [cleanElements_append_of_isInner hroot hr, slash_text,
      Text.join_append _ _ (Text.splitAt_ne_nil Text.slash r), Text.join_splitAt]
  simp only [join_eq_clean hroot hr.ne_nil, clean, hbody, isAbsolute_append hroot, front,
    frontPieces]
  cases isAbsolute root with
  | true => rfl
  | false => simp [hr.ne_nil]

/-! ### Taking the root away -/

/-- Whether a root is **spelled plainly**: it leads to where it starts, or it is spelled as its clean
spelling is, up to a slash at the end. -/
def spelledPlainly (root : Text) : Bool :=
  clean root == here || root.dropFinal [Text.slash] == (clean root).dropFinal [Text.slash]

/-- Nothing stands in front of the paths below a root that leads to where it starts. -/
theorem front_of_clean_eq_here {root : Text} (hroot : clean root = here) : front root = [] :=
  front_eq_of_clean_eq (q := here) hroot

/-- What stands in front of the paths below any other root is its clean spelling with a slash at the
end. -/
theorem front_of_clean_ne_here {root : Text} (hroot : clean root ≠ here) :
    front root = (clean root).dropFinal [Text.slash] ++ [Text.slash] := by
  by_cases hnil : cleanElements root = []
  · rw [clean_of_cleanElements_eq_nil hnil] at hroot ⊢
    rw [front, frontPieces, hnil]
    cases habsolute : isAbsolute root with
    | true => rfl
    | false =>
        rw [habsolute] at hroot
        exact absurd rfl hroot
  · have hpieces := splitAt_clean hnil
    -- A slash at the end would leave an empty piece there.
    have hfinal : ¬ [Text.slash] <:+ clean root := by
      rintro ⟨rest, hrest⟩
      rw [← hrest, Text.splitAt_append_sep] at hpieces
      have hlast : (frontPieces root).getLast? = some [] := by
        rw [← hpieces, List.getLast?_append]
        rfl
      obtain ⟨init, e, hconcat⟩ := (List.eq_nil_or_concat (cleanElements root)).resolve_left hnil
      have he : IsElement e := isElement_of_mem_cleanElements (by rw [hconcat]; simp)
      have hfront : (frontPieces root).getLast? = some e := by
        rw [frontPieces, hconcat, List.concat_eq_append]
        split
        · exact List.getLast?_append_of_ne_nil ([] :: init) (List.cons_ne_nil e [])
        · exact List.getLast?_append_of_ne_nil init (List.cons_ne_nil e [])
      rw [hfront] at hlast
      exact he.1 (Option.some.inj hlast)
    rw [Text.dropFinal_of_not_suffix hfinal, Text.append_sep_eq_flatMap, hpieces, front]

/-- When the root as it is spelled is what stands in front of the paths below it. -/
theorem dropFinal_append_eq_front_iff (root : Text) :
    root.dropFinal [Text.slash] ++ [Text.slash] = front root ↔
      spelledPlainly root = true ∧ clean root ≠ here := by
  rw [spelledPlainly, Bool.or_eq_true, beq_iff_eq, beq_iff_eq]
  by_cases hhere : clean root = here
  · rw [front_of_clean_eq_here hhere]
    simp [hhere]
  · rw [front_of_clean_ne_here hhere, List.append_cancel_right_eq]
    simp [hhere]

/-- A slash at the end of a path does not add an element. -/
theorem elements_dropFinal (p : Text) : elements (p.dropFinal [Text.slash]) = elements p := by
  rcases Text.dropFinal_cases [Text.slash] p with hslash | hsame
  · have happend : elements (p.dropFinal [Text.slash] ++ [Text.slash]) =
        elements (p.dropFinal [Text.slash]) ++ [] := elements_append_slash _ []
    rw [← hslash, List.append_nil] at happend
    exact happend.symm
  · rw [← hsame]

/-- With a slash at its end a path starts where it started. -/
theorem isAbsolute_dropFinal_append {p : Text} (hp : p ≠ []) :
    isAbsolute (p.dropFinal [Text.slash] ++ [Text.slash]) = isAbsolute p := by
  rcases Text.dropFinal_cases [Text.slash] p with hslash | hsame
  · rw [← hslash]
  · rw [← hsame, isAbsolute_append hp]

/-- Elements that are the first ones of a clean path are clean. -/
theorem eq_cleanElements_of_append_eq {root q : Text} (habsolute : isAbsolute root = isAbsolute q)
    {es rest : List Text} (heq : es ++ rest = cleanElements q)
    (hes : elements root = es.filter fun e => !e.isEmpty && e != here) :
    es = cleanElements root := by
  have hsettled := settled_cleanElements q
  rw [← heq, List.reverse_append, ← habsolute] at hsettled
  have hsettled : Settled (isAbsolute root) es.reverse := hsettled.of_append
  rw [filter_elements fun e he => hsettled.isElement (List.mem_reverse.mpr he)] at hes
  rw [← List.append_nil es.reverse] at hsettled
  rw [cleanElements, hes, foldl_push_of_settled hsettled, List.append_nil, List.reverse_reverse]

/-- **No clean path starts with a root that is not clean.** If a clean path starts with a root as it
is spelled, then that is what stands in front of the paths below the root. -/
theorem front_eq_of_starts {root q : Text} (hroot : root ≠ [])
    (hstarts : root.dropFinal [Text.slash] ++ [Text.slash] <+: clean q) :
    root.dropFinal [Text.slash] ++ [Text.slash] = front root := by
  obtain ⟨rest, hrest⟩ := hstarts
  have habsolute : isAbsolute root = isAbsolute q := by
    rw [← isAbsolute_clean q, ← hrest, isAbsolute_append (by simp), isAbsolute_dropFinal_append hroot]
  have helements : elements root = (Text.splitAt Text.slash (root.dropFinal [Text.slash])).filter
      fun e => !e.isEmpty && e != here := (elements_dropFinal root).symm
  have hpieces : Text.splitAt Text.slash (root.dropFinal [Text.slash]) ++
      Text.splitAt Text.slash rest = Text.splitAt Text.slash (clean q) := by
    rw [← hrest, List.append_assoc, List.singleton_append, Text.splitAt_append_sep]
  rw [Text.append_sep_eq_flatMap, front, frontPieces, habsolute]
  congr 1
  obtain ⟨e, es, hes⟩ :=
    List.exists_cons_of_ne_nil (Text.splitAt_ne_nil Text.slash (root.dropFinal [Text.slash]))
  by_cases hnil : cleanElements q = []
  · rw [clean_of_cleanElements_eq_nil hnil] at hrest
    cases hq : isAbsolute q with
    | true =>
        rw [hq, if_pos rfl] at hrest
        have hempty : root.dropFinal [Text.slash] = [] := by
          have hlength := congrArg List.length hrest
          simp only [List.length_append, List.length_singleton] at hlength
          exact List.eq_nil_of_length_eq_zero (by omega)
        rw [hempty] at helements ⊢
        rw [cleanElements, helements]
        rfl
    | false =>
        rw [hq, if_neg Bool.false_ne_true] at hrest
        have hmem : Text.slash ∈ here := hrest ▸ by simp
        exact absurd hmem (by decide)
  · rw [splitAt_clean hnil, frontPieces] at hpieces
    cases hq : isAbsolute q with
    | true =>
        rw [hq, if_pos rfl, hes, List.cons_append] at hpieces
        obtain ⟨rfl, htail⟩ := List.cons.inj hpieces
        rw [hes] at helements ⊢
        rw [if_pos rfl, eq_cleanElements_of_append_eq habsolute htail helements]
    | false =>
        rw [hq, if_neg Bool.false_ne_true] at hpieces
        rw [if_neg Bool.false_ne_true]
        exact eq_cleanElements_of_append_eq habsolute hpieces helements

/-- What is left of a clean path when a root is taken away. -/
theorem relative_clean {root : Text} (hroot : root ≠ []) (q : Text) :
    relative root (clean q) =
      if spelledPlainly root = true ∧ clean root ≠ here then (clean q).dropFirst (front root)
      else clean q := by
  rw [relative, slash_text]
  split
  · rename_i hhere
    rw [beq_iff_eq.mp hhere, if_neg fun h => h.2 rfl]
  · split
    · rename_i hplain
      rw [(dropFinal_append_eq_front_iff root).mpr hplain]
    · rename_i hplain
      apply Text.dropFirst_of_not_prefix
      intro hstarts
      exact hplain ((dropFinal_append_eq_front_iff root).mp (front_eq_of_starts hroot hstarts))

/-- **What is left of a path below a root when the root is taken away**: the path itself if the root
is spelled plainly, and else the path with the root. -/
theorem relative_join {root r : Text} (hroot : root ≠ []) (hr : IsInner r) :
    relative root (join root r) = if spelledPlainly root then r else join root r := by
  have hjoin := join_eq_front_append hroot hr
  have hclean := join_eq_clean hroot hr.ne_nil
  rw [hclean, relative_clean hroot, ← hclean, hjoin, Text.dropFirst_append_self]
  by_cases hplain : spelledPlainly root = true
  · by_cases hhere : clean root = here
    · simp [hplain, hhere, front_of_clean_eq_here hhere]
    · simp [hplain, hhere]
  · simp [hplain]

/-- The path itself is left if and only if the root is spelled plainly. -/
theorem relative_join_eq_iff {root r : Text} (hroot : root ≠ []) (hr : IsInner r) :
    relative root (join root r) = r ↔ spelledPlainly root = true := by
  rw [relative_join hroot hr]
  split
  · simp_all
  · rename_i hplain
    have hfront : front root ≠ [] := by
      rw [front_of_clean_ne_here]
      · simp
      · intro hhere
        exact hplain (by simp [spelledPlainly, hhere])
    rw [join_eq_front_append hroot hr]
    simp [hplain, hfront]

/-- **Different paths below a root stay different** when the root is taken away. -/
theorem eq_of_relative_join_eq {root r r' : Text} (hroot : root ≠ []) (hr : IsInner r)
    (hr' : IsInner r') (h : relative root (join root r) = relative root (join root r')) :
    r = r' := by
  rw [relative_join hroot hr, relative_join hroot hr'] at h
  split at h
  · exact h
  · rw [join_eq_front_append hroot hr, join_eq_front_append hroot hr'] at h
    exact List.append_cancel_left h

/-- Two roots with one clean spelling, both of them plain or neither, are taken away alike. -/
theorem relative_eq_of_clean_eq {root root' : Text} (hroot : root ≠ []) (hroot' : root' ≠ [])
    (hclean : clean root = clean root') (hplain : spelledPlainly root = spelledPlainly root')
    (q : Text) : relative root (clean q) = relative root' (clean q) := by
  rw [relative_clean hroot, relative_clean hroot', hplain, hclean, front_eq_of_clean_eq hclean]

end Path

namespace FileTree

/-! ### Where paths lead -/

open Enclosure.Path

/-- Where a stack of elements leads from a place, of which the last comes first. -/
def standing (place : List Text) (stack : List Text) : List Text :=
  stack.foldr (fun e place => step place e) place

/-- The clean elements of a path lead where the path leads by its spelling. -/
theorem standing_cleanElements (home : List Text) (path : Text) :
    standing (start home path) (cleanElements path).reverse = destination home path := by
  rw [standing, List.foldr_reverse, destination]

/-- **One more element is one more step**, also where it takes another one away. -/
theorem step_standing (home : List Text) (path : Text) (stack : List Text) (e : Text) :
    step (standing (start home path) stack) e =
      standing (start home path) (push (isAbsolute path) stack e) := by
  by_cases hup : e = parent
  · subst hup
    cases stack with
    | nil => cases hpath : isAbsolute path <;> simp [push, standing, start, step, hpath]
    | cons top below =>
        by_cases htop : top = parent
        · simp [push, standing, htop]
        · simp [push, standing, step, htop]
  · have hpush : push (isAbsolute path) stack e = e :: stack := by simp [push, hup]
    rw [hpush]
    rfl

/-- **Where an element of a path leads**: nowhere, or one step on. -/
theorem follow_cases {t : FileTree} {place next : List Text} {e : Text}
    (h : t.follow place e = .ok next) :
    ((e = [] ∨ e = here) ∧ next = place) ∨ (e ≠ [] ∧ e ≠ here ∧ next = step place e) := by
  rw [follow] at h
  split at h
  · cases h
  · split at h
    · rename_i hstay
      rw [Bool.or_eq_true, List.isEmpty_iff, beq_iff_eq] at hstay
      exact .inl ⟨hstay, (Except.ok.inj h).symm⟩
    · rename_i hmove
      rw [Bool.or_eq_true, List.isEmpty_iff, beq_iff_eq, not_or] at hmove
      have hstep : next = step place e := by
        split at h
        · exact (Except.ok.inj h).symm
        · split at h
          · cases h
          · split at h
            · exact (Except.ok.inj h).symm
            · cases h
      exact .inr ⟨hmove.1, hmove.2, hstep⟩

/-- **An element of a path is followed as it is pushed on the stack.** -/
theorem eq_standing_of_follow {t : FileTree} {path : Text} {stack : List Text} {e : Text}
    {place : List Text} (h : t.follow (standing (start t.home path) stack) e = .ok place) :
    place = standing (start t.home path)
      (if !e.isEmpty && e != here then push (isAbsolute path) stack e else stack) := by
  obtain ⟨rfl | rfl, rfl⟩ | ⟨hne, hhere, rfl⟩ := follow_cases h
  · rfl
  · rfl
  · have hmoves : (!e.isEmpty && e != here) = true := by simp [hne, hhere]
    rw [if_pos hmoves, step_standing]

/-- **Where a path leads is told by its spelling**, if it leads anywhere. -/
theorem eq_destination_of_place {t : FileTree} {path : Text} {place : List Text}
    (h : t.place path = .ok place) : place = destination t.home path := by
  have hrun : ∀ (pieces stack : List Text),
      pieces.foldlM t.follow (standing (start t.home path) stack) = .ok place →
      place = standing (start t.home path)
        ((pieces.filter fun e => !e.isEmpty && e != here).foldl (push (isAbsolute path)) stack) := by
    intro pieces
    induction pieces with
    | nil =>
        intro stack h
        cases h
        rfl
    | cons e pieces ih =>
        intro stack h
        rw [List.foldlM_cons] at h
        cases hstep : t.follow (standing (start t.home path) stack) e with
        | error fault =>
            rw [hstep] at h
            cases h
        | ok next =>
            rw [hstep] at h
            obtain rfl := eq_standing_of_follow hstep
            rw [ih _ h, List.filter_cons]
            split <;> rfl
  rw [FileTree.place] at h
  split at h
  · cases h
  · split at h
    · cases h
    · split at h
      · cases h
      · rw [hrun _ [] h, ← standing_cleanElements, cleanElements, List.reverse_reverse, elements]

/-- A path to a directory is not empty and leads somewhere. -/
theorem place_of_isDirectory {t : FileTree} {root : Text} (h : t.isDirectory root = true) :
    root ≠ [] ∧ t.place root = .ok (destination t.home root) := by
  have hlookup : t.lookup root = .ok .directory := by
    rw [isDirectory] at h
    split at h
    · assumption
    · cases h
  rw [lookup] at hlookup
  cases hplace : t.place root with
  | error fault =>
      rw [hplace] at hlookup
      cases hlookup
  | ok place =>
      constructor
      · rintro rfl
        cases hplace
      · rw [eq_destination_of_place hplace]

/-- **Two spellings of a directory lead to one place.** -/
theorem place_eq_of_clean_eq {t : FileTree} {root root' : Text} (hroot : t.isDirectory root = true)
    (hroot' : t.isDirectory root' = true) (hclean : clean root = clean root') :
    t.place root = t.place root' := by
  obtain ⟨habsolute, helements⟩ := cleanElements_eq_of_clean_eq hclean
  rw [(place_of_isDirectory hroot).2, (place_of_isDirectory hroot').2, destination, destination,
    start, start, habsolute, helements]

end FileTree

end Enclosure
