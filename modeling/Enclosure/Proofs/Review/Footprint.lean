import Enclosure.Proofs.Review.Calls

/-!
# What a review asks of git

A review asks git for little: whether there are settings at the commit that the pull request starts
from, what they say, the differences between the two commits, and the contents of the files it
analyses at the commit that the pull request proposes. These commands are its **footprint**. Two
gits that answer them alike cannot be told apart by a review, whatever they answer to all other
commands; in particular, what a pull request does to the file with the settings has no effect on its
own review.

## Main definitions

* `Git.analysed`: the changed files that a review analyses.
* `Git.footprint`: the commands that a review depends on.

## Main results

* `Settings.read_congr`, `Git.changes_congr`, `analyse_congr`: what each part of a review depends
  on.
* `review_congr`: gits that agree on the footprint lead to the same review.
* `review_reads_footprint_only`: **a pull request cannot change its own settings**.
-/

namespace Enclosure

/-! ### What each part depends on -/

/-- Settings depend on one file only, and of that on whether it is there and what is in it. -/
theorem Settings.read_congr {dir : Text} {reader reader' : FileReader}
    (hhas : reader.has (Path.join dir fileName) = reader'.has (Path.join dir fileName))
    (hread : reader.read (Path.join dir fileName) = reader'.read (Path.join dir fileName)) :
    Settings.read dir reader = Settings.read dir reader' := by
  simp only [Settings.read, readWith, hhas, hread]

/-- An analysis depends on the contents of the files that are analysed. -/
theorem analyse_congr {s : Settings} {reader reader' : FileReader} (calledOff : Bool)
    {files : List ChangedFile}
    (hread : ∀ f ∈ files, s.eligibility f.name = .eligible →
      reader.read f.name = reader'.read f.name) :
    analyse s reader calledOff files = analyse s reader' calledOff files := by
  have houtcomes : (files.filter fun f => s.eligibility f.name = .eligible).map
        (analyseFile s reader) =
      (files.filter fun f => s.eligibility f.name = .eligible).map (analyseFile s reader') := by
    refine List.map_congr_left fun f hf => ?_
    obtain ⟨hmem, heligible⟩ := List.mem_filter.mp hf
    simp only [analyseFile, hread f hmem (of_decide_eq_true heligible)]
  simp only [analyse, houtcomes]

namespace Git

variable {git git' : Git}

/-- The changes between two commits depend on the differences between them. -/
theorem changes_congr {base head : Text} (leaveOut : List Text)
    (hdiff : git (.diff base head) = git' (.diff base head)) :
    git.changes base head leaveOut = git'.changes base head leaveOut := by
  simp only [changes, hdiff]

/-- What is read of a file at a commit is what git answers to one command. -/
theorem reader_read_congr {ref path : Text}
    (h : git (contentOf ref path) = git' (contentOf ref path)) :
    (git.reader ref).read path = (git'.reader ref).read path := by
  simp only [reader, h]

/-- Whether there is a file at a commit is what git answers to one command. -/
theorem reader_has_congr {ref path : Text}
    (h : git (presenceOf ref path) = git' (presenceOf ref path)) :
    (git.reader ref).has path = (git'.reader ref).has path := by
  simp only [reader, h]

/-! ### The footprint -/

/-- The settings under which a pull request is reviewed. -/
def settingsAt (git : Git) (base : Text) : SettingsReport :=
  Settings.read [] (git.reader base)

/-- The changed files that a review of a pull request analyses: those of the differences that are
neither below a directory to leave out, nor ignored, nor of an unsupported kind, under the settings
at the commit that the pull request starts from. -/
def analysed (git : Git) (pull : PullRequest) : List ChangedFile :=
  let settings := (git.settingsAt pull.base).settings
  match git.changes pull.base pull.head settings.ignoredDirectories with
  | .error _ => []
  | .ok files => files.filter fun f => settings.eligibility f.name = .eligible

/-- **The commands that a review of a pull request depends on.** -/
def footprint (git : Git) (pull : PullRequest) : List GitCommand :=
  [.presence pull.base Settings.fileName, .content pull.base Settings.fileName,
    .diff pull.base pull.head]
      ++ (git.analysed pull).map fun f => .content pull.head (f.name.dropFirst "/")

/-- The file with the settings of a repository is at its root. -/
theorem settings_path : Path.join [] Settings.fileName = Settings.fileName := by
  decide

/-- The settings depend on two commands of the footprint. -/
theorem settingsAt_congr {base : Text}
    (hhas : git (.presence base Settings.fileName) = git' (.presence base Settings.fileName))
    (hread : git (.content base Settings.fileName) = git' (.content base Settings.fileName)) :
    git.settingsAt base = git'.settingsAt base := by
  refine Settings.read_congr (reader_has_congr ?_) (reader_read_congr ?_)
  · rw [settings_path]
    exact hhas
  · rw [settings_path]
    exact hread

end Git

/-! ### Two reviews -/

variable {σ : Type} {git git' : Git}

/-- Under the same settings, the review of the changes depends on the differences and on the
contents of the files that are analysed. -/
theorem reviewChanges_congr (server : Server σ) (calledOff : Bool) (r : ReviewRequest)
    (pull : PullRequest) (s : Session σ)
    (hdiff : git (.diff pull.base pull.head) = git' (.diff pull.base pull.head))
    (hcontent : ∀ f ∈ git.analysed pull,
      git (Git.contentOf pull.head f.name) = git' (Git.contentOf pull.head f.name)) :
    reviewChanges server git calledOff r (git.settingsAt pull.base).settings pull s =
      reviewChanges server git' calledOff r (git.settingsAt pull.base).settings pull s := by
  simp only [reviewChanges]
  rw [← Git.changes_congr _ hdiff]
  cases hfiles : git.changes pull.base pull.head
      (git.settingsAt pull.base).settings.ignoredDirectories with
  | error e => rfl
  | ok files =>
      have hanalyse : analyse (git.settingsAt pull.base).settings (git.reader pull.head) calledOff
          files = analyse (git.settingsAt pull.base).settings (git'.reader pull.head) calledOff
          files := by
        refine analyse_congr calledOff fun f hf heligible => Git.reader_read_congr (hcontent f ?_)
        simp only [Git.analysed, hfiles]
        exact List.mem_filter.mpr ⟨hf, decide_eq_true heligible⟩
      simp only [hanalyse]

/-- **Gits that agree on the footprint lead to the same review**: the same result and error, the
same calls and the same reports. -/
theorem review_congr (server : Server σ) (calledOff : Bool) (r : ReviewRequest) (s : Session σ)
    (hagree : ∀ pull, (server.answer (.pull r.pull) s.server).1 = .ok pull →
      ∀ c ∈ git.footprint pull, git c = git' c) :
    review server git calledOff r s = review server git' calledOff r s := by
  rcases hanswer : server.answer (.pull r.pull) s.server with ⟨reply, state⟩
  cases reply with
  | error e => simp only [review, Session.loadPull, Session.call, hanswer]
  | ok pull =>
      have hfootprint := hagree pull (by rw [hanswer])
      have hsettings : git.settingsAt pull.base = git'.settingsAt pull.base :=
        Git.settingsAt_congr (hfootprint _ (by simp [Git.footprint]))
          (hfootprint _ (by simp [Git.footprint]))
      have hread : Settings.read [] (git'.reader pull.base) = git.settingsAt pull.base :=
        hsettings.symm
      simp only [review, Session.loadPull, Session.call, hanswer, Option.getD_some, hread]
      refine reviewChanges_congr server calledOff r pull _
        (hfootprint _ (by simp [Git.footprint])) ?_
      intro f hf
      exact hfootprint _ (List.mem_append_right _ (List.mem_map.mpr ⟨f, hf, rfl⟩))

/-- Two gits that differ in the settings at the proposed commit only agree on the footprint of a
pull request, unless the file with the settings is analysed itself. -/
theorem Git.footprint_agrees {pull : PullRequest} (hcommits : pull.base ≠ pull.head)
    (hanalysed : ∀ f ∈ git.analysed pull, f.name.dropFirst "/" ≠ Settings.fileName)
    (hother : ∀ c, c ≠ .presence pull.head Settings.fileName →
      c ≠ .content pull.head Settings.fileName → git c = git' c) :
    ∀ c ∈ git.footprint pull, git c = git' c := by
  intro c hc
  simp only [footprint, List.cons_append, List.nil_append, List.mem_cons, List.mem_map] at hc
  obtain rfl | rfl | rfl | ⟨f, hf, rfl⟩ := hc
  · exact hother _ (by simp [hcommits]) (by simp)
  · exact hother _ (by simp) (by simp [hcommits])
  · exact hother _ (by simp) (by simp)
  · exact hother _ (by simp) (by simp [hanalysed f hf])

/-- **A pull request cannot change its own settings.** Two gits that answer the commands of the
footprint alike lead to the same review: the same result and error, the same calls and requests, and
the same reports. So do two gits that differ only in the file with the settings at the commit that
the pull request proposes, as long as this is another commit than the one it starts from and the
file is not analysed itself. -/
theorem review_reads_footprint_only (repository : Repository) (token : Text) (calledOff : Bool)
    (r : ReviewRequest) (responses : List Response) (git git' : Git) :
    let server := repository.server token
    let outcome (git : Git) := review server git calledOff r (.start ⟨responses, []⟩)
    let reply := (server.answer (.pull r.pull) ⟨responses, []⟩).1
    ((∀ pull, reply = .ok pull → ∀ c ∈ git.footprint pull, git c = git' c) →
      outcome git = outcome git') ∧
    ((∀ pull, reply = .ok pull → pull.base ≠ pull.head ∧
        (∀ f ∈ git.analysed pull, f.name.dropFirst "/" ≠ Settings.fileName) ∧
        ∀ c, c ≠ .presence pull.head Settings.fileName →
          c ≠ .content pull.head Settings.fileName → git c = git' c) →
      outcome git = outcome git') := by
  intro server outcome reply
  refine ⟨review_congr server calledOff r (.start ⟨responses, []⟩), fun hdiffer => ?_⟩
  refine review_congr server calledOff r (.start ⟨responses, []⟩) fun pull hpull => ?_
  obtain ⟨hcommits, hanalysed, hother⟩ := hdiffer pull hpull
  exact Git.footprint_agrees hcommits hanalysed hother

/-- As `oneHunkGit`, but the proposed commit has settings by which every file is ignored. -/
def selfServingGit : Git
  | .presence ref path =>
    if ref = "h" ∧ path = Settings.fileName then .ok [] else oneHunkGit (.presence ref path)
  | .content ref path =>
    if ref = "h" ∧ path = Settings.fileName then .ok "ignore = ['**']\n"
    else oneHunkGit (.content ref path)
  | .diff base head => oneHunkGit (.diff base head)

/-- The two differ in the settings at the proposed commit only. -/
theorem selfServingGit_eq {c : GitCommand} (hpresence : c ≠ .presence "h" Settings.fileName)
    (hcontent : c ≠ .content "h" Settings.fileName) : oneHunkGit c = selfServingGit c := by
  cases c with
  | diff base head => rfl
  | content ref path =>
      have hother : ¬ (ref = "h" ∧ path = Settings.fileName) := by
        rintro ⟨rfl, rfl⟩
        exact hcontent rfl
      simp only [selfServingGit, if_neg hother]
  | presence ref path =>
      have hother : ¬ (ref = "h" ∧ path = Settings.fileName) := by
        rintro ⟨rfl, rfl⟩
        exact hpresence rfl
      simp only [selfServingGit, if_neg hother]

/-- The settings in the proposed commit, by which its changes would be ignored, do not count. -/
theorem review_reads_footprint_only_selfServing :
    let outcome (git : Git) := review (Repository.server ⟨"o", "r"⟩ "t") git false
      ⟨7, false, false⟩ (.start ⟨interruptedScript, []⟩)
    (selfServingGit.settingsAt "h").settings.isIgnored "m.py" = true ∧
      outcome oneHunkGit = outcome selfServingGit ∧
      (outcome selfServingGit).result.analysis = oneHunkAnalysis := by
  intro outcome
  have hreply : ((Repository.server ⟨"o", "r"⟩ "t").answer
      (.pull (ReviewRequest.pull ⟨7, false, false⟩)) ⟨interruptedScript, []⟩).1 =
        (.ok ⟨7, "b", "h"⟩ : Except ApiError PullRequest) := by
    decide +kernel
  obtain ⟨-, hsame⟩ := review_reads_footprint_only ⟨"o", "r"⟩ "t" false ⟨7, false, false⟩
    interruptedScript oneHunkGit selfServingGit
  have houtcome : outcome oneHunkGit = outcome selfServingGit := by
    refine hsame fun pull hpull => ?_
    obtain rfl := Except.ok.inj (hpull.symm.trans hreply)
    exact ⟨by decide, by decide +kernel, fun c => selfServingGit_eq⟩
  refine ⟨by decide +kernel, houtcome, ?_⟩
  rw [← houtcome]
  decide +kernel

end Enclosure
