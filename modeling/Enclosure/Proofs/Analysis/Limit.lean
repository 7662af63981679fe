import Enclosure.Proofs.Analysis.Schedule

/-!
# The limit on workers

How many files are analysed at a time is a setting, and an analysis takes it as it is. Not every
number will do. With **no worker**, the loop waits for room that nobody makes, and files are left
undone forever; a **negative** number is no limit, and all files may be at work at once. The numbers
from one on are exactly the limits under which neither happens, and settings that are read have no
other, whatever the file with the settings holds.

## Main results

* `Progress.waiting_of_no_workers`: without workers, files wait forever.
* `Progress.exists_all_at_work`: without a limit, all files may be at work at once.
* `Progress.bounded_and_finishing_iff`: the limits under which neither happens.
* `settings_read_always_usable`: **settings that are read are usable**, and the analysis under them
  is bounded and finishes.
-/

namespace Enclosure

namespace Progress

variable {s : Settings} {reader : FileReader} {calledOff : Bool} {p q : Progress}
  {files : List ChangedFile} {moves : List Move}

/-! ### No worker -/

/-- Without workers there is no room. -/
theorem hasRoom_of_no_workers (hworkers : s.maxWorkers = 0) (running : List Job) :
    s.hasRoom running = false := by
  simp only [Settings.hasRoom, hworkers, Bool.or_eq_false_iff, decide_eq_false_iff_not]
  omega

/-- Without workers, no move takes a file that is to be analysed from those that wait. -/
theorem waiting_step {m : Move} (hworkers : s.maxWorkers = 0) {x : Job}
    (hx : s.eligibility x.1.name = .eligible) (hmem : x ∈ p.waiting)
    (h : p.step? s reader calledOff m = some q) : x ∈ q.waiting := by
  obtain ⟨y, rest, hwaiting, hy, rfl⟩ | ⟨y, rest, -, -, hroom, -⟩ | ⟨y, -, rfl⟩ := step?_cases h
  · rw [hwaiting] at hmem
    obtain rfl | hrest := List.mem_cons.mp hmem
    · exact absurd hx hy
    · exact hrest
  · rw [hasRoom_of_no_workers hworkers] at hroom
    cases hroom
  · rw [settle_waiting]
    exact hmem

/-- **Without workers, files wait forever**: no schedule comes to any file that is to be
analysed. -/
theorem waiting_of_no_workers (hworkers : s.maxWorkers = 0) {x : Job} (hmem : x ∈ files.zipIdx)
    (hx : s.eligibility x.1.name = .eligible)
    (h : (start files).run? s reader calledOff moves = some q) : x ∈ q.waiting :=
  run?_induction (P := fun p => x ∈ p.waiting) hmem
    (fun _ _ _ hp hstep => waiting_step hworkers hx hp hstep) h

/-! ### No limit -/

/-- Without a limit the loop always goes on, and hands over each file that is to be analysed. -/
theorem exists_step_advance (hworkers : s.maxWorkers < 0) {x : Job} {rest : List Job}
    (hwaiting : p.waiting = x :: rest) :
    ∃ q, p.step? s reader calledOff .advance = some q ∧ q.waiting = rest ∧
      q.running = p.running ++ [x].filter (fun y => s.eligibility y.1.name = .eligible) := by
  have hroom : s.hasRoom p.running = true := by simp [Settings.hasRoom, hworkers]
  by_cases hx : s.eligibility x.1.name = .eligible
  · exact ⟨p.launch x rest, by simp [step?, hwaiting, hx, hroom], rfl, by simp [launch, hx]⟩
  · exact ⟨p.pass s x rest, by simp [step?, hwaiting, hx], rfl, by simp [pass, hx]⟩

/-- **Without a limit, all files may be at work at once.** -/
theorem exists_all_at_work (hworkers : s.maxWorkers < 0) (reader : FileReader)
    (calledOff : Bool) (p : Progress) :
    ∃ moves q, p.run? s reader calledOff moves = some q ∧
      q.running =
        p.running ++ p.waiting.filter (fun y => s.eligibility y.1.name = .eligible) := by
  induction hwaiting : p.waiting generalizing p with
  | nil => exact ⟨[], p, rfl, (List.append_nil _).symm⟩
  | cons x rest ih =>
      obtain ⟨next, hstep, hrest, hrunning⟩ := exists_step_advance hworkers hwaiting
      obtain ⟨moves, q, hrun, hall⟩ := ih next hrest
      refine ⟨.advance :: moves, q, ?_, ?_⟩
      · rw [run?, List.foldlM_cons, hstep]
        exact hrun
      · rw [hall, hrunning, List.append_assoc, ← List.filter_append, List.singleton_append]

/-! ### Limits that will do -/

/-- Under these settings the number of jobs at work is **bounded** for all analyses at once. -/
def Bounded (s : Settings) (reader : FileReader) : Prop :=
  ∃ n : Nat, ∀ files calledOff moves p,
    (start files).run? s reader calledOff moves = some p → p.running.length ≤ n

/-- Under these settings every analysis that cannot go on has **finished**. -/
def Finishing (s : Settings) (reader : FileReader) : Prop :=
  ∀ files calledOff moves p, (start files).run? s reader calledOff moves = some p →
    p.Stuck s reader calledOff → p.pending = []

/-- With one worker at least, there are never more jobs at work than workers. -/
theorem bounded_of_one_le (hworkers : 1 ≤ s.maxWorkers) (reader : FileReader) :
    Bounded s reader := by
  refine ⟨s.maxWorkers.toNat, fun files calledOff moves p hrun => ?_⟩
  have hle := running_length_le hworkers hrun
  omega

/-- With one worker at least, every analysis finishes. -/
theorem finishing_of_one_le (hworkers : 1 ≤ s.maxWorkers) (reader : FileReader) :
    Finishing s reader :=
  fun _ _ _ _ _ hstuck => done_of_stuck hworkers hstuck

/-- **The limits from one on** are those under which analyses are bounded and finish, as long as
there are files to analyse. -/
theorem bounded_and_finishing_iff {name : Text} (hname : s.eligibility name = .eligible)
    (reader : FileReader) :
    Bounded s reader ∧ Finishing s reader ↔ 1 ≤ s.maxWorkers := by
  constructor
  · rintro ⟨⟨n, hbounded⟩, hfinishing⟩
    obtain hnegative | hzero | hpos : s.maxWorkers < 0 ∨ s.maxWorkers = 0 ∨ 1 ≤ s.maxWorkers := by
      omega
    · -- more files than the bound allows, all at work at once
      obtain ⟨moves, p, hrun, hrunning⟩ := exists_all_at_work hnegative reader
        false (start (List.replicate (n + 1) ⟨name, []⟩))
      have hle := hbounded _ _ _ _ hrun
      have hall : ∀ x ∈ (List.replicate (n + 1) (⟨name, []⟩ : ChangedFile)).zipIdx,
          decide (s.eligibility x.1.name = .eligible) = true := by
        intro x hx
        have hfile : x.1 ∈ List.replicate (n + 1) ⟨name, []⟩ := List.fst_mem_of_mem_zipIdx hx
        rw [List.eq_of_mem_replicate hfile]
        exact decide_eq_true hname
      rw [hrunning, start, List.nil_append, List.filter_eq_self.mpr hall, List.length_zipIdx,
        List.length_replicate] at hle
      omega
    · -- one file, for which there never is room
      have hstuck : (start [⟨name, []⟩]).Stuck s reader false := by
        intro m
        cases m with
        | advance => simp [step?, start, hname, hasRoom_of_no_workers hzero]
        | finish slot => rfl
      have hdone := hfinishing _ _ [] _ rfl hstuck
      cases hdone
    · exact hpos
  · intro hpos
    exact ⟨bounded_of_one_le hpos reader, finishing_of_one_le hpos reader⟩

end Progress

/-! ### Settings that are read -/

/-- **Settings that are read are usable.** Whatever is decoded, the settings leave room for one job
at least and have a header that is not blank, and normalising them again changes nothing. If the
file cannot be read or decoded, they are the standard settings, even if a statement that is not
understood comes after others that are. If nothing is reported, all patterns are well formed, and if
a pattern is reported, it is the first bad one of the settings that were decoded and normalised. So
an analysis under these settings is bounded and finishes. -/
theorem settings_read_always_usable (decode : Text → Option GivenSettings) (dir : Text)
    (reader : FileReader) :
    let path := Path.join dir Settings.fileName
    let r := Settings.readWith decode dir reader
    (r.settings.Usable ∧ r.settings.given.settings = r.settings) ∧
    (∀ reason, r.error = some (.unreadable reason) ↔
      reader.has path = true ∧ reader.read path = .error reason) ∧
    (∀ file, r.error = some (.malformed file) ↔ file = path ∧ reader.has path = true ∧
      ∃ content, reader.read path = .ok content ∧ decode content = none) ∧
    (∀ e, r.error = some e → (∀ pattern, e ≠ .badPattern pattern) → r.settings = .standard) ∧
    (∀ content before bad after d, reader.has path = true → reader.read path = .ok content →
      Toml.parse? content = some (before ++ bad :: after) →
      before.foldlM Decoding.step .start = some d → d.step bad = none →
      Settings.read dir reader = ⟨.standard, some (.malformed path)⟩) ∧
    (r.error = none → ∀ p ∈ r.settings.ignore, (Glob.ofText p).wellFormed = true) ∧
    (∀ pattern, r.error = some (.badPattern pattern) → r.settings.FirstBad pattern ∧
      ∃ content g, reader.read path = .ok content ∧ decode content = some g ∧
        r.settings = g.settings) ∧
    ∀ source : FileReader, Progress.Finishing r.settings source ∧
      ∀ files calledOff moves p,
        (Progress.start files).run? r.settings source calledOff moves = some p →
        (p.running.length : Int) ≤ r.settings.maxWorkers := by
  intro path r
  have husable : r.settings.Usable := Settings.usable_readWith decode dir reader
  refine ⟨⟨husable, (Settings.usable_iff _).mp husable⟩,
    fun reason => Settings.readWith_error_unreadable_iff,
    fun file => Settings.readWith_error_malformed_iff,
    fun e he hpattern => Settings.readWith_settings_of_error he hpattern,
    fun content before bad after d hhas hread hparse hbefore hbad =>
      Settings.read_eq_of_step hhas hread hparse hbefore hbad,
    fun he => Settings.wellFormed_of_readWith he,
    fun pattern he => Settings.firstBad_of_readWith he, ?_⟩
  intro source
  refine ⟨Progress.finishing_of_one_le husable.workers source, ?_⟩
  intro files calledOff moves p hrun
  exact Progress.running_length_le husable.workers hrun

/-- A reader that has every file, with the same content in all of them. -/
def sameEverywhere (content : Text) : FileReader where
  has _ := true
  read _ := .ok content

/-- A configuration of values that make no sense: two bad patterns, a negative number of workers and
a blank header. The first bad pattern is reported, and all else takes its standard value. -/
theorem settings_read_always_usable_nonsense :
    let nonsense : GivenSettings :=
      ⟨some ["a", "b[", "\x7bc"], none, -3, none, some ⟨false, " \t"⟩⟩
    let r := Settings.readWith (fun _ => some nonsense) [] (sameEverywhere [])
    r.error = some (.badPattern "b[") ∧
    r.settings = ⟨["a", "b[", "\x7bc"], [], 4, true, ⟨false, standardHeader⟩⟩ ∧
    r.settings.Usable ∧ r.settings.FirstBad "b[" ∧
    Progress.Finishing r.settings (sameEverywhere []) := by
  intro nonsense r
  obtain ⟨⟨husable, -⟩, -, -, -, -, -, hbad, hlimit⟩ :=
    settings_read_always_usable (fun _ => some nonsense) [] (sameEverywhere [])
  have herror : r.error = some (.badPattern "b[") := by decide
  exact ⟨herror, by decide, husable, (hbad _ herror).1, (hlimit _).1⟩

end Enclosure
