import Enclosure.Analysis.Run
import Enclosure.Proofs.Settings.Reading
import Mathlib.Data.List.Nodup

/-!
# Schedules of an analysis

The files of an analysis are worked on side by side. A loop goes through the files in order: it
notes and passes the files that are not analysed, and hands each of the others to a worker as a
**job** as soon as there is room. Any job at work may be the next to finish; it then fills the
**slot** of its file and writes its warning. When the loop is over and no job is at work, the
slots are put together in order.

This module states that machine and shows that its freedom does not matter: whatever the order in
which jobs finish and however many may be at work at a time, a schedule comes to its end, and only
when all is done; the result is what going through the files one by one gives, and the warnings are
the same up to their order.

## Main definitions

* `Progress`, `Move`, `Progress.step?`: the states of the machine, and what can happen next.
* `Progress.run?`: a **schedule**, that is a sequence of moves, from a given state.
* `Analysis.inOrder`: the files one by one.

## Main results

* `Progress.step?_cases`: all that one move can do.
* `Progress.Sound.step`, `Progress.Sound.run`: what every schedule preserves.
* `Progress.length_le_of_run?`: no schedule has more than two moves for each file.
* `Progress.done_of_stuck`: a schedule that cannot go on has left nothing undone.
* `every_schedule_in_order`: **every complete schedule ends in the analysis of the files one by
  one**.
-/

namespace Enclosure

/-- A file and the number of its slot. -/
abbrev Job := ChangedFile × Nat

/-- How far an analysis has come. -/
structure Progress where
  /-- The files that the loop has not come to. -/
  waiting : List Job
  /-- The jobs at work. -/
  running : List Job
  /-- What is known of each file; nothing, as long as its slot is not filled. -/
  slots : List (Option FileOutcome)
  notes : List Text
  warnings : List Text
  /-- Whether a job has found that the analysis was called off. -/
  failed : Bool
deriving DecidableEq, Repr

/-- What can happen next. -/
inductive Move where
  /-- The loop goes on to the next file. -/
  | advance
  /-- The job for a slot finishes. -/
  | finish (slot : Nat)
deriving DecidableEq, Repr

/-- Whether one more job may be at work. A negative number of workers is no limit. -/
def Settings.hasRoom (s : Settings) (running : List Job) : Bool :=
  s.maxWorkers < 0 || running.length < s.maxWorkers

/-- What becomes of a file: nothing, unless it is analysed. -/
def Settings.outcome? (s : Settings) (reader : FileReader) (f : ChangedFile) : Option FileOutcome :=
  if s.eligibility f.name = .eligible then some (analyseFile s reader f) else none

namespace Progress

/-- Before the first file. -/
def start (files : List ChangedFile) : Progress :=
  ⟨files.zipIdx, [], List.replicate files.length none, [], [], false⟩

/-- The files that are not done with. -/
def pending (p : Progress) : List Job :=
  p.running ++ p.waiting

/-- A file that is not analysed is noted and passed. -/
def pass (s : Settings) (x : Job) (rest : List Job) (p : Progress) : Progress :=
  { p with
    waiting := rest
    notes := p.notes ++ ((s.eligibility x.1.name).note? x.1.name).toList }

/-- A file that is analysed is handed to a worker. -/
def launch (x : Job) (rest : List Job) (p : Progress) : Progress :=
  { p with waiting := rest, running := p.running ++ [x] }

/-- A job finishes. It fills its slot and writes its warning, unless the analysis was called off. -/
def settle (s : Settings) (reader : FileReader) (calledOff : Bool) (x : Job) (p : Progress) :
    Progress :=
  if calledOff || p.failed then { p with running := p.running.erase x, failed := true }
  else
    { p with
      running := p.running.erase x
      slots := p.slots.set x.2 (some (analyseFile s reader x.1))
      warnings := p.warnings ++ (analyseFile s reader x.1).warning?.toList }

/-- The state after a move, unless the move is not possible: the loop waits while there is no room,
and only a job at work can finish. -/
def step? (s : Settings) (reader : FileReader) (calledOff : Bool) (p : Progress) :
    Move → Option Progress
  | .advance =>
    match p.waiting with
    | [] => none
    | x :: rest =>
      if s.eligibility x.1.name ≠ .eligible then some (p.pass s x rest)
      else if s.hasRoom p.running then some (p.launch x rest)
      else none
  | .finish slot => (p.running.find? fun x => x.2 = slot).map fun x => p.settle s reader calledOff x

/-- The state after a schedule, if all its moves are possible. -/
def run? (s : Settings) (reader : FileReader) (calledOff : Bool) (p : Progress)
    (moves : List Move) : Option Progress :=
  moves.foldlM (step? s reader calledOff) p

/-- A state in which nothing can happen any more. A schedule that ends in one is **complete**. -/
def Stuck (s : Settings) (reader : FileReader) (calledOff : Bool) (p : Progress) : Prop :=
  ∀ move, p.step? s reader calledOff move = none

/-- The analysis that the slots make up, unless it was called off. -/
def result (p : Progress) : Option Analysis :=
  if p.failed then none else some (.ofOutcomes (p.slots.filterMap id))

end Progress

/-- The reports and the skipped files of an analysis that takes the files one by one. A file that
is ignored or not supported adds nothing. One that cannot be read, or fails the dry run where such
files are skipped, adds one skipped file; any other adds one report with its hunks that do not
only remove lines, in order, each with the block that encloses it. -/
def Analysis.inOrder (s : Settings) (reader : FileReader) :
    List ChangedFile → List FileReport × List SkippedFile
  | [] => ([], [])
  | f :: rest =>
    let (reports, skipped) := inOrder s reader rest
    if s.isIgnored f.name || !isSupported s.extensions f.name then (reports, skipped)
    else match reader.read f.name with
      | .error reason => (reports, ⟨f.name, reason⟩ :: skipped)
      | .ok content =>
        if !(dryRun content).valid && s.skipInvalid then
          (reports, ⟨f.name, (dryRun content).error⟩ :: skipped)
        else
          let hunks := f.ranges.filterMap fun r =>
            if r.isDeletion then none else some ⟨r, enclosing? content r.first r.last⟩
          (⟨f.name, some hunks⟩ :: reports, skipped)

namespace Progress

variable {s : Settings} {reader : FileReader} {calledOff : Bool} {p q : Progress}
  {files : List ChangedFile} {moves : List Move}

/-! ### What a move can do -/

/-- All that one move can do: the loop passes a file that is not analysed, or hands one that is
analysed to a worker, for whom there is room, or a job at work finishes. -/
theorem step?_cases {m : Move} (h : p.step? s reader calledOff m = some q) :
    (∃ x rest, p.waiting = x :: rest ∧ s.eligibility x.1.name ≠ .eligible ∧ q = p.pass s x rest) ∨
    (∃ x rest, p.waiting = x :: rest ∧ s.eligibility x.1.name = .eligible ∧
      s.hasRoom p.running ∧ q = p.launch x rest) ∨
    (∃ x ∈ p.running, q = p.settle s reader calledOff x) := by
  cases m with
  | advance =>
      rw [step?] at h
      split at h
      · simp at h
      · rename_i x rest hwaiting
        split at h
        · rename_i hx
          exact .inl ⟨x, rest, hwaiting, hx, (Option.some.inj h).symm⟩
        · rename_i hx
          split at h
          · rename_i hroom
            exact .inr (.inl ⟨x, rest, hwaiting, not_not.mp hx, hroom, (Option.some.inj h).symm⟩)
          · simp at h
  | finish slot =>
      obtain ⟨x, hx, rfl⟩ := Option.map_eq_some_iff.mp h
      exact .inr (.inr ⟨x, List.mem_of_find?_eq_some hx, rfl⟩)

/-- What holds of a state and is preserved by moves holds after every schedule. -/
theorem run?_induction {P : Progress → Prop} (hp : P p)
    (hstep : ∀ p q m, P p → p.step? s reader calledOff m = some q → P q)
    (h : p.run? s reader calledOff moves = some q) : P q := by
  induction moves generalizing p with
  | nil =>
      obtain rfl : p = q := by simpa [run?] using h
      exact hp
  | cons m moves ih =>
      rw [run?, List.foldlM_cons] at h
      obtain ⟨r, hr, h⟩ := Option.bind_eq_some_iff.mp h
      exact ih (hstep p r m hp hr) h

/-! ### Every schedule comes to an end -/

/-- The number of moves that are left at most: two for a file that the loop has not come to, and one
for a job at work. -/
def weight (p : Progress) : Nat :=
  2 * p.waiting.length + p.running.length

/-- A job that finishes is no longer at work, whether or not the analysis was called off. -/
@[simp] theorem settle_running (x : Job) :
    (p.settle s reader calledOff x).running = p.running.erase x := by
  rw [settle]
  split <;> rfl

/-- A job that finishes does not change what the loop has to do. -/
@[simp] theorem settle_waiting (x : Job) :
    (p.settle s reader calledOff x).waiting = p.waiting := by
  rw [settle]
  split <;> rfl

/-- A job that finishes while the analysis is not called off fills its slot and writes its
warning. -/
theorem settle_eq (hp : p.failed = false) (x : Job) :
    p.settle s reader false x =
      { p with
        running := p.running.erase x
        slots := p.slots.set x.2 (some (analyseFile s reader x.1))
        warnings := p.warnings ++ (analyseFile s reader x.1).warning?.toList } := by
  rw [settle, hp]
  rfl

/-- Every move uses up some weight. -/
theorem weight_lt_of_step? {m : Move} (h : p.step? s reader calledOff m = some q) :
    q.weight < p.weight := by
  obtain ⟨x, rest, hwaiting, -, rfl⟩ | ⟨x, rest, hwaiting, -, -, rfl⟩ | ⟨x, hx, rfl⟩ :=
    step?_cases h
  · simp only [weight, pass, hwaiting, List.length_cons]
    omega
  · simp only [weight, launch, hwaiting, List.length_cons, List.length_append, List.length_nil]
    omega
  · have hpos : 0 < p.running.length := List.length_pos_of_mem hx
    simp only [weight, settle_running, settle_waiting, List.length_erase_of_mem hx]
    omega

/-- The moves of a schedule and the weight that is left are no more than the weight at its start. -/
theorem length_add_weight_le_of_run? (h : p.run? s reader calledOff moves = some q) :
    moves.length + q.weight ≤ p.weight := by
  induction moves generalizing p with
  | nil =>
      obtain rfl : p = q := by simpa [run?] using h
      simp
  | cons m moves ih =>
      rw [run?, List.foldlM_cons] at h
      obtain ⟨r, hr, h⟩ := Option.bind_eq_some_iff.mp h
      have hlt := weight_lt_of_step? hr
      have hle := ih h
      rw [List.length_cons]
      omega

/-- **No schedule goes on forever**: it has at most two moves for each file. -/
theorem length_le_of_run? (h : (start files).run? s reader calledOff moves = some q) :
    moves.length ≤ 2 * files.length := by
  have hle := length_add_weight_le_of_run? h
  simp only [weight, start, List.length_zipIdx, List.length_nil] at hle
  omega

/-- **No schedule gets stuck** before all files are done with, as long as there is room for one job
at least. -/
theorem done_of_stuck (hworkers : 1 ≤ s.maxWorkers) (h : p.Stuck s reader calledOff) :
    p.pending = [] := by
  have hrunning : p.running = [] := by
    cases hr : p.running with
    | nil => rfl
    | cons x rest =>
        have hfinish := h (.finish x.2)
        rw [step?, hr, List.find?_cons_of_pos (by simp)] at hfinish
        simp at hfinish
  have hwaiting : p.waiting = [] := by
    cases hw : p.waiting with
    | nil => rfl
    | cons x rest =>
        have hadvance := h .advance
        have hroom : s.hasRoom p.running = true := by
          simp only [Settings.hasRoom, hrunning, List.length_nil, Bool.or_eq_true,
            decide_eq_true_eq]
          omega
        simp only [step?, hw, hroom, if_true] at hadvance
        split at hadvance <;> simp at hadvance
  rw [pending, hrunning, hwaiting, List.append_nil]

/-! ### What every schedule preserves -/

/-- The slots when exactly the given jobs are not done with: theirs are empty, and those of all
other files tell what became of the file. -/
def slotsBut (s : Settings) (reader : FileReader) (files : List ChangedFile) (pending : List Job) :
    List (Option FileOutcome) :=
  files.zipIdx.map fun y => if y ∈ pending then none else s.outcome? reader y.1

/-- The warning about a file, if it is analysed and there is one. -/
def warningFor (s : Settings) (reader : FileReader) (f : ChangedFile) : Option Text :=
  (s.outcome? reader f).bind FileOutcome.warning?

/-- What is noted about a file that is not analysed. -/
def noteFor (s : Settings) (f : ChangedFile) : Option Text :=
  (s.eligibility f.name).note? f.name

/-- A **sound** state of an analysis that is not called off. The jobs that are not done with are
jobs of the analysis, each at one place only; exactly the other slots are filled, each with the
outcome for its own file; and what is still to be noted and warned of completes the notes and the
warnings. -/
structure Sound (s : Settings) (reader : FileReader) (files : List ChangedFile) (p : Progress) :
    Prop where
  nodup : p.pending.Nodup
  mem : ∀ x ∈ p.pending, x ∈ files.zipIdx
  eligible : ∀ x ∈ p.running, s.eligibility x.1.name = .eligible
  slots : p.slots = slotsBut s reader files p.pending
  notes : p.notes ++ p.waiting.filterMap (noteFor s ·.1) = files.filterMap (noteFor s)
  warnings : (p.warnings ++ p.pending.filterMap (warningFor s reader ·.1)).Perm
    (files.filterMap (warningFor s reader))
  unfailed : p.failed = false

/-- Going through numbered files and looking at the files only is going through the files. -/
theorem filterMap_zipIdx {α : Type} (g : ChangedFile → Option α) (k : Nat) :
    (files.zipIdx k).filterMap (g ·.1) = files.filterMap g := by
  induction files generalizing k with
  | nil => rfl
  | cons f files ih => rw [List.zipIdx_cons, List.filterMap_cons, List.filterMap_cons, ih]

/-- An analysis starts in a sound state. -/
theorem Sound.start (s : Settings) (reader : FileReader) (files : List ChangedFile) :
    Sound s reader files (.start files) where
  nodup := by
    rw [pending, Progress.start, List.nil_append]
    refine List.Nodup.of_map Prod.snd ?_
    rw [List.zipIdx_map_snd]
    exact List.nodup_range' ..
  mem := by simp [pending, Progress.start]
  eligible := by simp [Progress.start]
  slots := by
    have hnone : ∀ y ∈ files.zipIdx,
        (if y ∈ files.zipIdx then none else s.outcome? reader y.1) = none := by
      intro y hy
      rw [if_pos hy]
    rw [slotsBut, pending, Progress.start, List.nil_append, List.map_congr_left hnone,
      List.map_const', List.length_zipIdx]
  notes := filterMap_zipIdx (noteFor s) 0
  warnings := by
    rw [pending, Progress.start, List.nil_append, List.nil_append, filterMap_zipIdx]
  unfailed := rfl

/-- A file that is not analysed leaves its slot empty. -/
theorem slotsBut_erase_of_ineligible {pending : List Job} {x : Job}
    (hx : s.eligibility x.1.name ≠ .eligible) :
    slotsBut s reader files (pending.erase x) = slotsBut s reader files pending := by
  refine List.map_congr_left ?_
  intro y _
  by_cases hy : y = x
  · subst hy
    simp [Settings.outcome?, hx]
  · simp only [List.mem_erase_of_ne hy]

/-- Filling the slot of a job gives the slots without that job. -/
theorem slotsBut_erase {pending : List Job} (hnodup : pending.Nodup) {x : Job}
    (hx : x ∈ files.zipIdx) :
    slotsBut s reader files (pending.erase x) =
      (slotsBut s reader files pending).set x.2 (s.outcome? reader x.1) := by
  have hfile : files[x.2]? = some x.1 := List.mem_zipIdx_iff_getElem?.mp hx
  refine List.ext_getElem? ?_
  intro j
  simp only [slotsBut, List.getElem?_map, List.getElem?_zipIdx, List.getElem?_set, List.length_map,
    List.length_zipIdx, Nat.zero_add]
  by_cases hj : x.2 = j
  · subst hj
    have hlt : x.2 < files.length := (List.getElem?_eq_some_iff.mp hfile).1
    have hgone : x ∉ pending.erase x := hnodup.not_mem_erase
    rw [hfile, if_pos rfl, if_pos hlt, Option.map_some, Option.map_some, if_neg hgone]
  · rw [if_neg hj]
    cases hf : files[j]? with
    | none => rfl
    | some f =>
        have hne : (f, j) ≠ x := fun h => hj (congrArg Prod.snd h).symm
        simp [List.mem_erase_of_ne hne]

/-- Passing a file keeps a state sound. -/
theorem Sound.pass (hp : Sound s reader files p) {x : Job} {rest : List Job}
    (hwaiting : p.waiting = x :: rest) (hx : s.eligibility x.1.name ≠ .eligible) :
    Sound s reader files (p.pass s x rest) := by
  have hrunning : x ∉ p.running := fun hmem => hx (hp.eligible x hmem)
  have hpending : (p.pass s x rest).pending = p.pending.erase x := by
    rw [pending, pending, hwaiting, List.erase_append_right _ hrunning, List.erase_cons_head]
    rfl
  have hwarning : warningFor s reader x.1 = none := by simp [warningFor, Settings.outcome?, hx]
  refine ⟨?_, ?_, hp.eligible, ?_, ?_, ?_, hp.unfailed⟩
  · rw [hpending]
    exact hp.nodup.erase x
  · rw [hpending]
    exact fun y hy => hp.mem y (List.mem_of_mem_erase hy)
  · rw [hpending, slotsBut_erase_of_ineligible hx]
    exact hp.slots
  · rw [← hp.notes, hwaiting, List.filterMap_cons]
    show p.notes ++ (noteFor s x.1).toList ++ rest.filterMap (noteFor s ·.1) = _
    cases noteFor s x.1 <;> simp
  · have hperm := hp.warnings
    rw [pending, hwaiting, List.filterMap_append, List.filterMap_cons, hwarning] at hperm
    rw [pending, List.filterMap_append]
    exact hperm

/-- Handing a file to a worker keeps a state sound: the same files are not done with. -/
theorem Sound.launch (hp : Sound s reader files p) {x : Job} {rest : List Job}
    (hwaiting : p.waiting = x :: rest) (hx : s.eligibility x.1.name = .eligible) :
    Sound s reader files (p.launch x rest) := by
  have hpending : (p.launch x rest).pending = p.pending := by
    simp [pending, Progress.launch, hwaiting]
  have hnote : noteFor s x.1 = none := by rw [noteFor, hx]; rfl
  refine ⟨?_, ?_, ?_, ?_, ?_, ?_, hp.unfailed⟩
  · rw [hpending]
    exact hp.nodup
  · rw [hpending]
    exact hp.mem
  · intro y hy
    obtain hy | hy := List.mem_append.mp hy
    · exact hp.eligible y hy
    · rw [List.mem_singleton.mp hy]
      exact hx
  · rw [hpending]
    exact hp.slots
  · rw [← hp.notes, hwaiting, List.filterMap_cons, hnote]
    rfl
  · rw [hpending]
    exact hp.warnings

/-- A job that finishes keeps a state sound: it fills its own slot and writes its own warning. -/
theorem Sound.settle (hp : Sound s reader files p) {x : Job} (hx : x ∈ p.running) :
    Sound s reader files (p.settle s reader false x) := by
  have houtcome : s.outcome? reader x.1 = some (analyseFile s reader x.1) := by
    rw [Settings.outcome?, if_pos (hp.eligible x hx)]
  have hwarning : (analyseFile s reader x.1).warning? = warningFor s reader x.1 := by
    rw [warningFor, houtcome]
    rfl
  have hmem : x ∈ p.pending := List.mem_append_left p.waiting hx
  have hpending : p.running.erase x ++ p.waiting = p.pending.erase x :=
    (List.erase_append_left p.waiting hx).symm
  rw [settle_eq hp.unfailed, hwarning, ← houtcome]
  refine ⟨?_, ?_, ?_, ?_, hp.notes, ?_, hp.unfailed⟩
  · rw [pending, hpending]
    exact hp.nodup.erase x
  · rw [pending, hpending]
    exact fun y hy => hp.mem y (List.mem_of_mem_erase hy)
  · exact fun y hy => hp.eligible y (List.mem_of_mem_erase hy)
  · rw [pending, hpending, slotsBut_erase hp.nodup (hp.mem x hmem), ← hp.slots]
  · have hsplit : (p.pending.filterMap (warningFor s reader ·.1)).Perm
        ((x :: p.pending.erase x).filterMap (warningFor s reader ·.1)) :=
      (List.perm_cons_erase hmem).filterMap _
    refine List.Perm.trans ?_ hp.warnings
    rw [pending, hpending, List.append_assoc]
    refine (List.Perm.append_left p.warnings ?_).trans (hsplit.symm.append_left p.warnings)
    rw [List.filterMap_cons]
    cases warningFor s reader x.1 <;> simp

/-- **Every move keeps a state sound.** -/
theorem Sound.step {m : Move} (hp : Sound s reader files p)
    (h : p.step? s reader false m = some q) : Sound s reader files q := by
  obtain ⟨x, rest, hwaiting, hx, rfl⟩ | ⟨x, rest, hwaiting, hx, -, rfl⟩ | ⟨x, hx, rfl⟩ :=
    step?_cases h
  · exact hp.pass hwaiting hx
  · exact hp.launch hwaiting hx
  · exact hp.settle hx

/-- **Every schedule leads to a sound state.** -/
theorem Sound.run (h : (Progress.start files).run? s reader false moves = some q) :
    Sound s reader files q :=
  run?_induction (Sound.start s reader files) (fun _ _ _ hp hstep => hp.step hstep) h

/-- No more jobs are at work than there are workers. -/
theorem running_length_le (hworkers : 1 ≤ s.maxWorkers)
    (h : (start files).run? s reader calledOff moves = some q) :
    (q.running.length : Int) ≤ s.maxWorkers := by
  refine run?_induction (P := fun p => (p.running.length : Int) ≤ s.maxWorkers) ?_ ?_ h
  · simp only [start, List.length_nil]
    omega
  · intro p q m hp hstep
    obtain ⟨x, rest, -, -, rfl⟩ | ⟨x, rest, -, -, hroom, rfl⟩ | ⟨x, hx, rfl⟩ := step?_cases hstep
    · exact hp
    · simp only [Settings.hasRoom, Bool.or_eq_true, decide_eq_true_eq] at hroom
      simp only [launch, List.length_append, List.length_cons, List.length_nil]
      omega
    · rw [settle_running, List.length_erase_of_mem hx]
      omega

/-- A schedule that has left nothing undone cannot go on. -/
theorem stuck_of_done (h : p.pending = []) : p.Stuck s reader calledOff := by
  obtain ⟨hrunning, hwaiting⟩ := List.append_eq_nil_iff.mp h
  intro m
  cases m with
  | advance => rw [step?, hwaiting]
  | finish slot => rw [step?, hrunning]; rfl

/-- The result when nothing is left undone: the outcomes for the files in their order. -/
theorem Sound.result_of_done (hp : Sound s reader files p) (hdone : p.pending = []) :
    p.result = some (.ofOutcomes (files.filterMap (s.outcome? reader))) := by
  have hslots : p.slots.filterMap id = files.filterMap (s.outcome? reader) := by
    rw [hp.slots, hdone, slotsBut, List.filterMap_map]
    simp only [List.not_mem_nil, if_false]
    exact filterMap_zipIdx (s.outcome? reader) 0
  rw [result, hp.unfailed, hslots]
  rfl

/-- The notes when nothing is left undone. -/
theorem Sound.notes_of_done (hp : Sound s reader files p) (hdone : p.pending = []) :
    p.notes = files.filterMap (noteFor s) := by
  have hnotes := hp.notes
  rw [(List.append_eq_nil_iff.mp hdone).2, List.filterMap_nil, List.append_nil] at hnotes
  exact hnotes

/-- The warnings when nothing is left undone. -/
theorem Sound.warnings_of_done (hp : Sound s reader files p) (hdone : p.pending = []) :
    p.warnings.Perm (files.filterMap (warningFor s reader)) := by
  have hperm := hp.warnings
  rw [hdone, List.filterMap_nil, List.append_nil] at hperm
  exact hperm

end Progress

/-! ### The files one by one -/

section InOrder

variable {s : Settings} {reader : FileReader}

/-- The outcomes for the files that are analysed, as a single pass over all files. -/
theorem map_analyseFile_filter (files : List ChangedFile) :
    (files.filter fun f => s.eligibility f.name = .eligible).map (analyseFile s reader) =
      files.filterMap (s.outcome? reader) := by
  induction files with
  | nil => rfl
  | cons f files ih =>
      by_cases hf : s.eligibility f.name = .eligible
      · simp [Settings.outcome?, hf, ih]
      · simp [Settings.outcome?, hf, ih]

/-- The result of an analysis that is not called off. -/
theorem analyse_result (files : List ChangedFile) :
    (analyse s reader false files).result =
      some (.ofOutcomes (files.filterMap (s.outcome? reader))) := by
  rw [← map_analyseFile_filter]
  rfl

/-- The warnings of an analysis that is not called off, up to their order. -/
theorem analyse_warnings_perm (files : List ChangedFile) :
    (analyse s reader false files).warnings.Perm
      (files.filterMap (Progress.warningFor s reader)) := by
  have hwarnings : (analyse s reader false files).warnings =
      Text.sort ((files.filterMap (s.outcome? reader)).filterMap FileOutcome.warning?) := by
    rw [← map_analyseFile_filter]
    rfl
  rw [hwarnings, List.filterMap_filterMap]
  exact List.mergeSort_perm _ _

/-- A file that is neither ignored nor of an unsupported kind is analysed. -/
theorem Settings.eligibility_eq_eligible_iff (file : Text) :
    s.eligibility file = .eligible ↔ s.isIgnored file = false ∧ isSupported s.extensions file := by
  rw [Settings.eligibility]
  cases s.isIgnored file <;> cases isSupported s.extensions file <;> simp

/-- The hunks of a file that do not only remove lines, in a single pass. -/
theorem hunkReports_eq_filterMap (content : Text) (ranges : List LineRange) :
    hunkReports content ranges = ranges.filterMap fun r =>
      if r.isDeletion then none else some ⟨r, enclosing? content r.first r.last⟩ := by
  induction ranges with
  | nil => rfl
  | cons r ranges ih =>
      rw [List.filterMap_cons, ← ih]
      cases h : r.isDeletion <;> simp [hunkReports, h]

/-- The files one by one are given by the outcomes for them. -/
theorem Analysis.inOrder_eq (files : List ChangedFile) :
    Analysis.inOrder s reader files =
      ((files.filterMap (s.outcome? reader)).filterMap FileOutcome.report?,
        (files.filterMap (s.outcome? reader)).filterMap FileOutcome.skipped?) := by
  induction files with
  | nil => rfl
  | cons f files ih =>
      rw [Analysis.inOrder, ih, List.filterMap_cons]
      by_cases hf : s.eligibility f.name = .eligible
      · obtain ⟨hignored, hsupported⟩ := (Settings.eligibility_eq_eligible_iff f.name).mp hf
        have hcond : (s.isIgnored f.name || !isSupported s.extensions f.name) = false := by
          simp [hignored, hsupported]
        simp only [hcond, Bool.false_eq_true, if_false, Settings.outcome?, hf, if_true]
        rw [analyseFile]
        cases reader.read f.name with
        | error reason => rfl
        | ok content =>
            simp only [hunkReports_eq_filterMap]
            cases (dryRun content).valid <;> cases s.skipInvalid <;> rfl
      · have hcond : (s.isIgnored f.name || !isSupported s.extensions f.name) = true := by
          rw [Settings.eligibility_eq_eligible_iff] at hf
          cases hignored : s.isIgnored f.name <;> simp_all
        simp only [hcond, if_true, Settings.outcome?, hf, if_false]

end InOrder

/-! ### Complete schedules -/

/-- Settings that reading can give, whatever the file with the settings holds. -/
def Settings.IsRead (s : Settings) : Prop :=
  ∃ dir source, s = (Settings.read dir source).settings

/-- Settings that were read leave room for one job at least. -/
theorem Settings.IsRead.one_le_maxWorkers {s : Settings} (hs : s.IsRead) : 1 ≤ s.maxWorkers := by
  obtain ⟨dir, source, rfl⟩ := hs
  exact (Settings.usable_readWith _ dir source).workers

/-- **Every complete schedule ends in the analysis of the files one by one.** Under settings that
were read, and with any number of workers in their place, no schedule goes on forever and no more
jobs are at work than there are workers. Where a schedule cannot go on, the analysis has its
result: the files one by one, which is also what `analyse` gives. The notes are those of
`analyse`, and so are the warnings up to their order, so that they are the same for all schedules
and all numbers of workers. -/
theorem every_schedule_in_order (s : Settings) (hs : s.IsRead) (reader : FileReader)
    (files : List ChangedFile) :
    1 ≤ s.maxWorkers ∧ ∀ (workers : Int) (moves : List Move) (p : Progress), 1 ≤ workers →
      (Progress.start files).run? { s with maxWorkers := workers } reader false moves = some p →
      moves.length ≤ 2 * files.length ∧ (p.running.length : Int) ≤ workers ∧
      (p.Stuck { s with maxWorkers := workers } reader false →
        p.result = some ⟨some (Analysis.inOrder s reader files).1,
          some (Analysis.inOrder s reader files).2⟩ ∧
        p.result = (analyse s reader false files).result ∧
        p.notes = (analyse s reader false files).notes ∧
        p.warnings.Perm (analyse s reader false files).warnings) := by
  refine ⟨hs.one_le_maxWorkers, ?_⟩
  intro workers moves p hworkers hrun
  refine ⟨Progress.length_le_of_run? hrun, Progress.running_length_le hworkers hrun, ?_⟩
  intro hstuck
  have hdone : p.pending = [] := Progress.done_of_stuck hworkers hstuck
  have hsound := Progress.Sound.run hrun
  have hresult : p.result = some (.ofOutcomes (files.filterMap (s.outcome? reader))) :=
    hsound.result_of_done hdone
  have hwarnings : p.warnings.Perm (files.filterMap (Progress.warningFor s reader)) :=
    hsound.warnings_of_done hdone
  refine ⟨?_, ?_, hsound.notes_of_done hdone, ?_⟩
  · rw [hresult, Analysis.inOrder_eq]
    rfl
  · rw [hresult, analyse_result]
  · exact hwarnings.trans (analyse_warnings_perm files).symm

/-- A reader of one file, which has a function in it. -/
def oneFileReader : FileReader where
  has path := path == Text.ofString "a.py"
  read path := if path = "a.py" then .ok "def f(x):\n  x\n" else .error "gone"

/-- A file with a hunk inside the function and one that only removes lines, a file that is not
supported, and a file that cannot be read. -/
def mixedFiles : List ChangedFile :=
  [⟨"a.py", [⟨2, 2⟩, ⟨2, 1⟩]⟩, ⟨"README", []⟩, ⟨"b.py", [⟨1, 1⟩]⟩]

/-- Two jobs at work at a time, of which the later one finishes first. -/
theorem every_schedule_in_order_mixedFiles :
    ∃ p, (Progress.start mixedFiles).run? { Settings.standard with maxWorkers := 2 } oneFileReader
        false [.advance, .advance, .advance, .finish 2, .finish 0] = some p ∧
      p.Stuck { Settings.standard with maxWorkers := 2 } oneFileReader false ∧
      p.result = some ⟨some [⟨"a.py", some [⟨⟨2, 2⟩, some ⟨.function, "f", 1, 2⟩⟩]⟩],
        some [⟨"b.py", "gone"⟩]⟩ := by
  obtain ⟨p, hrun, hdone⟩ : ∃ p, (Progress.start mixedFiles).run?
      { Settings.standard with maxWorkers := 2 } oneFileReader false
      [.advance, .advance, .advance, .finish 2, .finish 0] = some p ∧ p.pending = [] :=
    ⟨_, rfl, rfl⟩
  have hread : Settings.standard.IsRead := ⟨[], oneFileReader, by decide⟩
  obtain ⟨-, hall⟩ := every_schedule_in_order Settings.standard hread oneFileReader mixedFiles
  obtain ⟨-, -, hend⟩ := hall 2 _ p (by decide) hrun
  obtain ⟨hresult, -⟩ := hend (Progress.stuck_of_done hdone)
  refine ⟨p, hrun, Progress.stuck_of_done hdone, hresult.trans ?_⟩
  decide

end Enclosure
