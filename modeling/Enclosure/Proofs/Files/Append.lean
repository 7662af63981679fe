import Enclosure.Files.Tree
import Mathlib.Data.Option.Basic
import Mathlib.Logic.Basic

/-!
# Appending to a file

A file that can be read can be appended to. Its new content is the old one followed by what was
appended, under the same path: a path is followed by asking where there are directories, and that
does not change when a file gets longer.

## Main results

* `FileTree.node?_appendAt_self`, `FileTree.node?_appendAt_of_ne`: what stands at a place after a
  file got longer.
* `FileTree.place_appendAt`: paths lead where they led before.
* `FileTree.exists_append_eq`: **a file that can be read can be appended to**, and is read as the
  old content with more behind it.
-/

namespace Enclosure

namespace FileTree

variable {t : FileTree} {place : List Text} {old : Text}

/-- The working directory stays where it is. -/
theorem home_appendAt (t : FileTree) (place : List Text) (more : Text) :
    (t.appendAt place more).home = t.home := by
  rw [appendAt]
  split <;> rfl

/-- A file that gets longer is one entry with another content. -/
theorem entries_appendAt (hold : t.content? place = some old) (more : Text) :
    (t.appendAt place more).entries = t.entries.map fun (path, content) =>
      (path, if path == place then content.map (· ++ more) else content) := by
  rw [appendAt, hold]

/-- The content of a file after it got longer. -/
theorem content?_appendAt_self (hold : t.content? place = some old) (more : Text) :
    (t.appendAt place more).content? place = some (old ++ more) := by
  rw [content?, entries_appendAt hold, List.findSome?_map]
  rw [content?] at hold
  generalize t.entries = entries at hold ⊢
  induction entries with
  | nil => cases hold
  | cons entry entries ih =>
      obtain ⟨path, content⟩ := entry
      rw [List.findSome?_cons] at hold ⊢
      by_cases hpath : path = place
      · cases content with
        | none =>
            simp only [hpath, BEq.rfl, if_true, Function.comp_apply, Option.map_none] at hold ⊢
            exact ih hold
        | some content =>
            simp only [hpath, BEq.rfl, if_true, Option.some.injEq] at hold
            simp only [hpath, BEq.rfl, if_true, Function.comp_apply, Option.map_some, hold]
      · have hpath : (path == place) = false := beq_eq_false_iff_ne.mpr hpath
        simp only [hpath, Bool.false_eq_true, if_false, Function.comp_apply] at hold ⊢
        exact ih hold

/-- The content of any other file stays as it is. -/
theorem content?_appendAt_of_ne (hold : t.content? place = some old) (more : Text)
    {other : List Text} (hother : other ≠ place) :
    (t.appendAt place more).content? other = t.content? other := by
  rw [content?, content?, entries_appendAt hold, List.findSome?_map]
  congr 1
  funext ⟨path, content⟩
  by_cases hpath : path = other
  · have hne : (path == place) = false := beq_eq_false_iff_ne.mpr (hpath ▸ hother)
    simp only [Function.comp_apply, hne, Bool.false_eq_true, if_false]
  · have hne : (path == other) = false := beq_eq_false_iff_ne.mpr hpath
    simp only [Function.comp_apply, hne, Bool.false_eq_true, if_false]

/-- There are directories where there were before. -/
theorem hasDirectory_appendAt (hold : t.content? place = some old) (more : Text)
    (other : List Text) : (t.appendAt place more).hasDirectory other = t.hasDirectory other := by
  rw [hasDirectory, hasDirectory, home_appendAt, entries_appendAt hold, List.any_map]
  congr 2
  funext ⟨path, content⟩
  cases content <;> by_cases hpath : path = place <;> simp [hpath]

/-- The file that got longer. -/
theorem node?_appendAt_self (hold : t.content? place = some old) (more : Text) :
    (t.appendAt place more).node? place = some (.file (old ++ more)) := by
  rw [node?, content?_appendAt_self hold]

/-- Everything else stays as it is. -/
theorem node?_appendAt_of_ne (hold : t.content? place = some old) (more : Text)
    {other : List Text} (hother : other ≠ place) :
    (t.appendAt place more).node? other = t.node? other := by
  rw [node?, node?, content?_appendAt_of_ne hold more hother, hasDirectory_appendAt hold]

/-- Whether there is something at a place, and whether it is a directory, stays as it is. -/
theorem node?_appendAt_alike (hold : t.content? place = some old) (more : Text)
    (other : List Text) :
    ((t.appendAt place more).node? other).isSome = (t.node? other).isSome ∧
      ((t.appendAt place more).node? other != some .directory) =
        (t.node? other != some .directory) := by
  by_cases hother : other = place
  · rw [hother, node?_appendAt_self hold, node?, hold]
    exact ⟨rfl, rfl⟩
  · rw [node?_appendAt_of_ne hold more hother]
    exact ⟨rfl, rfl⟩

/-- Paths are followed as before. -/
theorem follow_appendAt (hold : t.content? place = some old) (more : Text) :
    (t.appendAt place more).follow = t.follow := by
  -- A step asks whether it leaves a directory and whether there is something where it leads.
  funext other e
  simp only [follow, node?_appendAt_alike hold more]

/-- Paths lead where they led before. -/
theorem place_appendAt (hold : t.content? place = some old) (more path : Text) :
    (t.appendAt place more).place path = t.place path := by
  simp only [FileTree.place, follow_appendAt hold, home_appendAt]

/-- A path under which a file can be read leads to a place with that file. -/
theorem exists_place_of_read {path : Text} (h : t.read path = .ok old) :
    ∃ place, t.place path = .ok place ∧ t.content? place = some old := by
  rw [read, lookup] at h
  cases hplace : t.place path with
  | error fault => simp [hplace] at h
  | ok place =>
      cases hcontent : t.content? place with
      | some content =>
          simp only [hplace, node?, hcontent, Except.ok.injEq] at h
          exact ⟨place, rfl, hcontent.trans (congrArg some h)⟩
      | none =>
          cases hdir : t.hasDirectory place <;> simp [hplace, node?, hcontent, hdir] at h

/-- **A file that can be read can be appended to**, and is read as the old content with more behind
it. -/
theorem exists_append_eq {path : Text} (h : t.read path = .ok old) (more : Text) :
    ∃ t', t.append path more = .ok t' ∧ t'.read path = .ok (old ++ more) := by
  obtain ⟨place, hplace, hold⟩ := exists_place_of_read h
  refine ⟨t.appendAt place more, ?_, ?_⟩
  · have hlookup : t.lookup path = .ok (.file old) := by
      simp only [lookup, hplace, node?, hold]
    simp only [append, hlookup, hplace]
    rfl
  · simp only [read, lookup, place_appendAt hold, hplace, node?_appendAt_self hold]

end FileTree

end Enclosure
