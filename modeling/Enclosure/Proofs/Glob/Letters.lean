import Enclosure.Glob.Match
import Mathlib.Data.List.Basic

/-!
# Patterns that spell out a directory

A pattern in which every character stands for itself, as it is or behind a backslash, spells out one
text. Followed by `**` and with a slash at its end it is the pattern of a directory: it matches what
starts with that text, and otherwise at most the directory itself. The matcher needs no star to go
back to there, so that each of its steps passes one character of the path or ends the match.

## Main definitions

* `Glob.Letter`: a character of a pattern that stands for itself.
* `Glob.spelled`, `Glob.letters`: how letters are written, and the text they stand for.
* `Glob.toLetters`: a pattern taken apart.

## Main results

* `Glob.step_letter`, `Glob.step_letter_ne`: one step of the matcher over a letter.
* `Glob.run_directory`: the pattern of a directory matches all that starts with it.
* `Glob.prefix_of_run_directory`: and it matches nothing else but the directory itself.
* `Glob.run_directory_iff`: what the pattern of a directory matches, to the last character.
-/

namespace Enclosure

namespace Glob

/-- A character of a pattern that stands for itself. -/
inductive Letter where
  /-- The character as it is. -/
  | plain (c : Char)
  /-- The character behind a backslash. -/
  | escaped (c : Char)
deriving DecidableEq, Repr

namespace Letter

/-- The character that a letter stands for. -/
def char : Letter → Char
  | plain c => c
  | escaped c => c

/-- How a letter is written. -/
def spelling : Letter → Glob
  | plain c => [c]
  | escaped c => ['\\', c]

/-- Whether a letter does stand for itself: without a backslash it must be none of the characters
that start a wildcard, nor a backslash. -/
def isProper : Letter → Bool
  | plain c => !(['*', '?', '[', '\x7b', '\\'].contains c)
  | escaped _ => true

end Letter

/-- How letters are written. -/
def spelled (ls : List Letter) : Glob :=
  ls.flatMap Letter.spelling

/-- The text that letters stand for. -/
def letters (ls : List Letter) : List Char :=
  ls.map Letter.char

/-- The pattern that stands for all that is below a directory. -/
def belowAll : Glob := ['*', '*']

/-! ### Steps over letters -/

variable {l : Letter} {ls : List Letter}

/-- A letter that fits is passed, with the character of the path. -/
theorem step_letter (hl : l.isProper = true) (passed rest : Glob) (path : List Char)
    (atStart : Bool) (star deep : Option Mark) :
    step ⟨passed, l.spelling ++ rest, l.char :: path, atStart, star, deep⟩ l.char =
      .next ⟨l.spelling.reverse ++ passed, rest, path, l.char == separator, star, deep⟩ := by
  cases l with
  | plain c =>
      simp only [Letter.isProper, List.contains_cons, List.contains_nil, Bool.or_false,
        Bool.not_eq_true', Bool.or_eq_false_iff] at hl
      simp [step, Letter.spelling, Letter.char, hl, stepLiteral, State.advance]
  | escaped c =>
      simp [step, Letter.spelling, Letter.char, stepLiteral, State.advance]

/-- Where there is nothing to go back to, a misfit ends the match. -/
theorem retreat_of_no_marks {s : State} (hstar : s.star = none) (hdeep : s.deep = none) :
    ∃ r, r ≠ .accepted ∧ retreat s = .done r := by
  refine ⟨if wellFormed s.rest then .rejected else .malformed, ?_, ?_⟩
  · split <;> simp
  · simp only [retreat, retreat.retreatDeep, retreat.fail, hstar, hdeep]

/-- Where there is nothing to go back to, a character that does not fit ends the match. -/
theorem stepLiteral_ne {s : State} (hstar : s.star = none) (hdeep : s.deep = none) {p c : Char}
    (hc : p ≠ c) (width : Nat) : ∃ r, r ≠ .accepted ∧ stepLiteral s p c width = .done r := by
  simp only [stepLiteral, beq_eq_false_iff_ne.mpr hc, Bool.false_eq_true, if_false]
  split
  · exact retreat_of_no_marks hstar hdeep
  · exact retreat_of_no_marks hstar hdeep

/-- A letter that does not fit ends the match, where there is nothing to go back to. -/
theorem step_letter_ne (hl : l.isProper = true) {c : Char} (hc : l.char ≠ c) (passed rest : Glob)
    (path : List Char) (atStart : Bool) :
    ∃ r, r ≠ .accepted ∧
      step ⟨passed, l.spelling ++ rest, c :: path, atStart, none, none⟩ c = .done r := by
  cases l with
  | plain d =>
      simp only [Letter.isProper, List.contains_cons, List.contains_nil, Bool.or_false,
        Bool.not_eq_true', Bool.or_eq_false_iff] at hl
      simp only [step, Letter.spelling, List.cons_append, List.nil_append, hl, Bool.false_eq_true,
        if_false]
      exact stepLiteral_ne rfl rfl hc 1
  | escaped d => exact stepLiteral_ne rfl rfl hc 2

/-! ### Runs over letters -/

/-- Whether a path element starts behind some letters, given whether one starts before them. -/
def startsBehind (atStart : Bool) (ls : List Letter) : Bool :=
  ls.foldl (fun _ l => l.char == separator) atStart

/-- Letters that fit are passed one by one. -/
theorem runFrom_letters (hls : ∀ l ∈ ls, l.isProper = true) (passed rest : Glob)
    (path : List Char) (atStart : Bool) (fuel : Nat) :
    ∃ passed', runFrom (ls.length + fuel)
        ⟨passed, spelled ls ++ rest, letters ls ++ path, atStart, none, none⟩ =
      runFrom fuel ⟨passed', rest, path, startsBehind atStart ls, none, none⟩ := by
  induction ls generalizing passed atStart with
  | nil => exact ⟨passed, by simp [spelled, letters, startsBehind]⟩
  | cons l ls ih =>
      obtain ⟨hl, hls⟩ := List.forall_mem_cons.mp hls
      obtain ⟨passed', hrun⟩ := ih hls (l.spelling.reverse ++ passed) (l.char == separator)
      have hstep := step_letter hl passed (spelled ls ++ rest) (letters ls ++ path) atStart none
        none
      refine ⟨passed', ?_⟩
      rw [List.length_cons, Nat.add_right_comm]
      simp only [spelled, letters, List.flatMap_cons, List.map_cons, List.cons_append,
        List.append_assoc, runFrom] at hstep hrun ⊢
      rw [hstep]
      exact hrun

/-- At the start of a path element, `**` at the end of the pattern takes all that is left. -/
theorem runFrom_belowAll (fuel : Nat) (passed : Glob) (path : List Char) :
    runFrom (fuel + 1) ⟨passed, belowAll, path, true, none, none⟩ = .accepted := by
  cases path with
  | nil => rfl
  | cons c path => rfl

/-- There are more than enough steps to read a pattern once. -/
theorem length_lt_enoughSteps (p : Glob) (path : List Char) : p.length < enoughSteps p path := by
  have hpattern : p.length + 2 ≤ Nat.pow (p.length + 2) 3 := Nat.le_self_pow (by omega) _
  have hpath : 1 ≤ Nat.pow (path.length + 2) 2 := Nat.one_le_pow _ _ (by omega)
  have hsteps := Nat.mul_le_mul hpattern hpath
  rw [enoughSteps]
  omega

/-- Every letter takes at least one character. -/
theorem length_le_length_spelled (ls : List Letter) : ls.length ≤ (spelled ls).length := by
  induction ls with
  | nil => simp
  | cons l ls ih =>
      have hl : 1 ≤ l.spelling.length := by cases l <;> simp [Letter.spelling]
      simp only [spelled, List.flatMap_cons, List.length_append, List.length_cons] at ih ⊢
      omega

/-- **A match of letters that fit** comes to what follows them, with steps to spare. -/
theorem exists_run_letters (hls : ∀ l ∈ ls, l.isProper = true) (rest : Glob) (path : List Char) :
    ∃ fuel passed, run (spelled ls ++ rest) (letters ls ++ path) =
      runFrom (fuel + 1) ⟨passed, rest, path, startsBehind true ls, none, none⟩ := by
  have hlength := length_le_length_spelled ls
  have hsteps := length_lt_enoughSteps (spelled ls ++ rest) (letters ls ++ path)
  rw [List.length_append] at hsteps
  obtain ⟨fuel, hfuel⟩ := Nat.exists_eq_add_of_lt
    (show ls.length < enoughSteps (spelled ls ++ rest) (letters ls ++ path) by omega)
  obtain ⟨passed, hrun⟩ := runFrom_letters hls [] rest path true (fuel + 1)
  exact ⟨fuel, passed, by rw [run, hfuel, Nat.add_assoc, hrun]⟩

/-- **The pattern of a directory matches all that starts with the directory.** -/
theorem run_directory (hls : ∀ l ∈ ls, l.isProper = true)
    (hslash : (letters ls).getLast? = some separator) (path : List Char) :
    run (spelled ls ++ belowAll) (letters ls ++ path) = .accepted := by
  obtain ⟨init, l, rfl⟩ : ∃ init l, ls = init ++ [l] := by
    obtain rfl | ⟨init, l, rfl⟩ := ls.eq_nil_or_concat'
    · simp [letters] at hslash
    · exact ⟨init, l, rfl⟩
  have hl : l.char = separator := by simpa [letters] using hslash
  obtain ⟨fuel, passed, hrun⟩ := exists_run_letters hls belowAll path
  rw [hrun]
  simp only [startsBehind, List.foldl_append, List.foldl_cons, List.foldl_nil, hl, beq_self_eq_true]
  exact runFrom_belowAll fuel passed path

/-- **The pattern of a directory matches the directory itself**, if its slash has no backslash in
front. -/
theorem run_directory_self (hls : ∀ l ∈ ls, l.isProper = true) :
    run (spelled (ls ++ [.plain separator]) ++ belowAll) (letters ls) = .accepted := by
  obtain ⟨fuel, passed, hrun⟩ := exists_run_letters hls (separator :: belowAll) []
  have hspelled : spelled (ls ++ [.plain separator]) ++ belowAll =
      spelled ls ++ separator :: belowAll := by
    simp [spelled, Letter.spelling]
  rw [List.append_nil] at hrun
  rw [hspelled, hrun]
  rfl

/-- Apart from its empty forms, a pattern that does not start with a brace matches no empty path. -/
theorem mem_emptyForms_of_acceptsEmpty {p : Glob} (hbrace : p.head? ≠ some '\x7b') {fuel : Nat}
    (h : acceptsEmpty fuel p = .accepted) : p ∈ emptyForms := by
  cases fuel with
  | zero => simp [acceptsEmpty] at h
  | succ fuel =>
      by_contra hp
      simp only [acceptsEmpty, List.contains_eq_mem, hp, decide_false, Bool.false_eq_true,
        if_false] at h
      split at h
      · simp at hbrace
      · split at h <;> simp at h

/-- The empty path is matched by letters and `**` only if the letters are one slash. -/
theorem eq_slash_of_acceptsEmpty (hls : ∀ l ∈ ls, l.isProper = true) (hne : ls ≠ []) {fuel : Nat}
    (h : acceptsEmpty fuel (spelled ls ++ belowAll) = .accepted) : ls = [.plain separator] := by
  cases ls with
  | nil => exact absurd rfl hne
  | cons l ls =>
      obtain ⟨hl, -⟩ := List.forall_mem_cons.mp hls
      cases l with
      | escaped c =>
          have hmem := mem_emptyForms_of_acceptsEmpty (by simp [spelled, Letter.spelling]) h
          simp [emptyForms, spelled, Letter.spelling] at hmem
      | plain c =>
          simp only [Letter.isProper, List.contains_eq_mem, List.mem_cons, List.not_mem_nil,
            or_false, Bool.not_eq_true', decide_eq_false_iff_not, not_or] at hl
          have hmem := mem_emptyForms_of_acceptsEmpty (by simp [spelled, Letter.spelling, hl]) h
          simp [emptyForms, spelled, Letter.spelling, hl] at hmem
          obtain ⟨rfl, hslash⟩ | ⟨-, hslash⟩ := hmem
          · have hnil : spelled ls = [] :=
              List.append_cancel_right (hslash.trans (List.nil_append belowAll).symm)
            have hlength := length_le_length_spelled ls
            rw [hnil, List.length_nil, Nat.le_zero, List.length_eq_zero_iff] at hlength
            rw [hlength]
            rfl
          · have hlast := congrArg List.getLast? hslash
            simp [belowAll] at hlast

/-- **A match of letters** passes them all, or ends with the path, and then what is left of the
pattern matches the empty path. -/
theorem prefix_of_runFrom_letters (hls : ∀ l ∈ ls, l.isProper = true) (passed rest : Glob)
    (path : List Char) (atStart : Bool) {fuel : Nat}
    (h : runFrom fuel ⟨passed, spelled ls ++ rest, path, atStart, none, none⟩ = .accepted) :
    letters ls <+: path ∨ ∃ ls₁ ls₂ fuel', ls = ls₁ ++ ls₂ ∧ ls₂ ≠ [] ∧ path = letters ls₁ ∧
      acceptsEmpty fuel' (spelled ls₂ ++ rest) = .accepted := by
  induction ls generalizing passed path atStart fuel with
  | nil => exact .inl List.nil_prefix
  | cons l ls ih =>
      obtain ⟨hl, hls⟩ := List.forall_mem_cons.mp hls
      cases fuel with
      | zero => simp [runFrom] at h
      | succ fuel =>
          cases path with
          | nil => exact .inr ⟨[], l :: ls, _, rfl, by simp, rfl, h⟩
          | cons c path =>
              rw [show spelled (l :: ls) ++ rest = l.spelling ++ (spelled ls ++ rest) by
                simp [spelled]] at h
              by_cases hc : l.char = c
              · subst hc
                simp only [runFrom, step_letter hl] at h
                obtain hprefix | ⟨ls₁, ls₂, fuel', rfl, hne, rfl, hempty⟩ := ih hls _ _ _ h
                · exact .inl (List.cons_prefix_cons.mpr ⟨rfl, hprefix⟩)
                · exact .inr ⟨l :: ls₁, ls₂, fuel', rfl, hne, rfl, hempty⟩
              · obtain ⟨r, hr, hstep⟩ := step_letter_ne hl hc passed (spelled ls ++ rest) path
                  atStart
                simp only [runFrom, hstep] at h
                exact absurd h hr

/-- **The pattern of a directory matches nothing else** but the directory itself. -/
theorem prefix_of_run_directory (hls : ∀ l ∈ ls, l.isProper = true) {path : List Char}
    (h : run (spelled ls ++ belowAll) path = .accepted) :
    letters ls <+: path ∨ path ++ [separator] = letters ls := by
  obtain hprefix | ⟨ls₁, ls₂, fuel, rfl, hne, rfl, hempty⟩ :=
    prefix_of_runFrom_letters hls [] belowAll path true h
  · exact .inl hprefix
  · rw [eq_slash_of_acceptsEmpty (fun l hl => hls l (List.mem_append_right ls₁ hl)) hne hempty]
    simp [letters, Letter.char]

/-- **What the pattern of a directory matches**, if its slash has no backslash in front: all that
starts with the directory, and the directory itself. -/
theorem run_directory_iff (hls : ∀ l ∈ ls, l.isProper = true) (path : List Char) :
    run (spelled (ls ++ [.plain separator]) ++ belowAll) path = .accepted ↔
      letters ls ++ [separator] <+: path ∨ path = letters ls := by
  have hletters : letters (ls ++ [.plain separator]) = letters ls ++ [separator] := by
    simp [letters, Letter.char]
  have hproper : ∀ l ∈ ls ++ [.plain separator], l.isProper = true := by
    intro l hl
    obtain hl | hl := List.mem_append.mp hl
    · exact hls l hl
    · rw [List.mem_singleton.mp hl]
      rfl
  constructor
  · intro haccepted
    have hmatch := prefix_of_run_directory hproper haccepted
    rw [hletters] at hmatch
    exact hmatch.imp_right List.append_cancel_right
  · rintro (⟨rest, rfl⟩ | rfl)
    · rw [← hletters]
      exact run_directory hproper (by simp [hletters]) rest
    · exact run_directory_self hls

/-! ### Directories with escapes -/

/-- Whatever stands behind, letters that spell the start of their own spelling, which has been
shifted by backslashes, are backslashes. -/
theorem eq_backslash_of_prefix (hls : ∀ l ∈ ls, l.isProper = true) (k : Nat) (behind : List Char)
    (h : letters ls <+: List.replicate (k + 1) '\\' ++ (spelled ls ++ behind)) :
    ∀ l ∈ ls, l.char = '\\' := by
  induction ls generalizing k with
  | nil => simp
  | cons l ls ih =>
      obtain ⟨hl, htail⟩ := List.forall_mem_cons.mp hls
      rw [List.replicate_succ, List.cons_append] at h
      obtain ⟨hchar, h⟩ := List.cons_prefix_cons.mp h
      refine List.forall_mem_cons.mpr ⟨hchar, ih htail (k + 1) ?_⟩
      cases l with
      | plain c => simp [Letter.isProper, show c = '\\' from hchar] at hl
      | escaped c =>
          obtain rfl : c = '\\' := hchar
          simpa [spelled, Letter.spelling, List.replicate_succ', letters] using h

/-- **A directory with a backslash does not start with what it stands for.** -/
theorem eq_plain_of_prefix (hls : ∀ l ∈ ls, l.isProper = true)
    (hslash : ∀ l ∈ ls.getLast?, l.char = separator) (behind : List Char)
    (h : letters ls <+: spelled ls ++ behind) : ∀ l ∈ ls, ∃ c, l = .plain c := by
  induction ls with
  | nil => simp
  | cons l ls ih =>
      obtain ⟨hl, htail⟩ := List.forall_mem_cons.mp hls
      cases l with
      | plain c =>
          obtain ⟨-, hrest⟩ := List.cons_prefix_cons.mp h
          refine List.forall_mem_cons.mpr ⟨⟨c, rfl⟩, ih htail (fun l hl => hslash l ?_) hrest⟩
          rw [Option.mem_def] at hl ⊢
          rw [List.getLast?_cons, hl, Option.getD_some]
      | escaped c =>
          obtain ⟨hc, hrest⟩ := List.cons_prefix_cons.mp h
          obtain rfl : c = '\\' := hc
          have hall := eq_backslash_of_prefix htail 0 behind hrest
          have hlast := hslash _ (List.getLast?_cons ..)
          cases hls' : ls.getLast? with
          | none => simp [hls', Letter.char, separator] at hlast
          | some l' =>
              have hchar := hall l' (List.mem_of_getLast? hls')
              simp [hls', hchar, separator] at hlast

/-- **A directory with a slash in front is not what follows that slash**, with something else than a
slash behind it. -/
theorem not_prefix_of_slash (hls : ∀ l ∈ ls, l.isProper = true) {behind : List Char}
    (hbehind : behind.head? ≠ some separator) :
    ¬ separator :: letters ls <+: spelled ls ++ behind := by
  induction ls with
  | nil =>
      intro h
      cases behind with
      | nil => simp [spelled] at h
      | cons c behind =>
          obtain ⟨rfl, -⟩ := List.cons_prefix_cons.mp h
          simp at hbehind
  | cons l ls ih =>
      obtain ⟨hl, htail⟩ := List.forall_mem_cons.mp hls
      intro h
      cases l with
      | plain c =>
          obtain ⟨rfl, hrest⟩ := List.cons_prefix_cons.mp h
          exact ih htail hrest
      | escaped c =>
          obtain ⟨hc, -⟩ := List.cons_prefix_cons.mp h
          simp [separator] at hc

/-! ### Patterns taken apart -/

/-- A pattern taken apart into letters. -/
def toLetters : Glob → List Letter
  | '\\' :: c :: p => .escaped c :: toLetters p
  | c :: p => .plain c :: toLetters p
  | [] => []

/-- Taken apart and written again, a pattern is what it was. -/
theorem spelled_toLetters (p : Glob) : spelled (toLetters p) = p := by
  fun_induction toLetters p with
  | case1 c p ih => simp only [spelled, List.flatMap_cons, Letter.spelling] at ih ⊢; rw [ih]; rfl
  | case2 c p hc ih => simp only [spelled, List.flatMap_cons, Letter.spelling] at ih ⊢; rw [ih]; rfl
  | case3 => rfl

/-- The letters of a pattern without wildcards are proper, unless a backslash ends it. -/
theorem isProper_toLetters {p : Glob} (hp : ∀ c ∈ p, c ∉ ['*', '?', '[', '\x7b'])
    (hlast : p.getLast? ≠ some '\\') : ∀ l ∈ toLetters p, l.isProper = true := by
  have hrest {c : Char} {p : Glob} (h : (c :: p).getLast? ≠ some '\\') :
      p.getLast? ≠ some '\\' := by
    intro heq
    simp [List.getLast?_cons, heq] at h
  fun_induction toLetters p with
  | case1 c p ih =>
      have hp' : ∀ c ∈ p, c ∉ ['*', '?', '[', '\x7b'] := fun c hc =>
        hp c (List.mem_cons_of_mem _ (List.mem_cons_of_mem _ hc))
      exact List.forall_mem_cons.mpr ⟨rfl, ih hp' (hrest (hrest hlast))⟩
  | case2 c p hc ih =>
      obtain ⟨hc', hp'⟩ := List.forall_mem_cons.mp hp
      refine List.forall_mem_cons.mpr ⟨?_, ih hp' (hrest hlast)⟩
      have hbackslash : c ≠ '\\' := by
        rintro rfl
        cases p with
        | nil => simp at hlast
        | cons d p => exact hc d p rfl rfl
      simp [Letter.isProper] at hc' ⊢
      simp [hc', hbackslash]
  | case3 => simp

/-- A pattern without backslashes is made of its characters as they are. -/
theorem toLetters_of_no_backslash {p : Glob} (hp : '\\' ∉ p) : toLetters p = p.map .plain := by
  fun_induction toLetters p with
  | case1 c p ih => simp at hp
  | case2 c p hc ih => rw [ih (fun h => hp (List.mem_cons_of_mem c h))]; rfl
  | case3 => rfl

/-- What a pattern stands for ends as the pattern does. -/
theorem getLast?_letters_toLetters (p : Glob) : (letters (toLetters p)).getLast? = p.getLast? := by
  fun_induction toLetters p with
  | case1 c p ih =>
      simp only [letters, List.map_cons, List.getLast?_cons] at ih ⊢
      rw [ih]
      rfl
  | case2 c p hc ih =>
      simp only [letters, List.map_cons, List.getLast?_cons] at ih ⊢
      rw [ih]
      rfl
  | case3 => rfl

end Glob

end Enclosure
