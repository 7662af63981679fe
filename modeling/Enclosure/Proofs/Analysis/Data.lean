import Enclosure.Proofs.Json.RoundTrip
import Enclosure.Review.Result

/-!
# Analyses as data and back

An analysis whose blocks are functions and classes can be written as JSON, and a reader that looks
members up by name gets the analysis back. The same holds of the result of a review. The only thing
lost are stray bytes in texts, which are read as U+FFFD.

Everything is said in one form: a thing *is data* if it can be written, the value does not nest too
deep, and the reader gets the thing back from the repaired value. Each record is data because its
parts are.

## Main definitions

* `Json.member?`, `Json.text?`, `Json.truth?`, `Json.int?`, `Json.listing?`: a reader's steps.
* `Analysis.ofJson?`, `ReviewResult.ofJson?`: the analysis and the result that a value stands for.
* `Analysis.repaired`, `ReviewResult.repaired`: the same with U+FFFD in place of each stray byte.
* `Analysis.Named`: every block has a kind with a name.
* `IsData`: written and read back.

## Main results

* `Listing.isData`: a list is data if its items are.
* `Analysis.isData`: **an analysis whose kinds have names is data**.
* `ReviewResult.isData`: and so is a result with such an analysis.
* `ReviewResult.exists_payload`: **the text of a result is on one line and stands for the result**.
-/

namespace Enclosure

/-! ### Reading -/

namespace Json

/-- The member of an object with a given name. -/
def member? (name : Text) : Json → Option Json
  | object members => members.lookup name
  | _ => none

/-- A text. -/
def text? : Json → Option Text
  | string t => some t
  | _ => none

/-- A truth value. -/
def truth? : Json → Option Bool
  | bool b => some b
  | _ => none

/-- An integer of any size. -/
def int? : Json → Option Int
  | number (45 :: digits) =>
    if digits.all Text.isDigit then some (-(Text.digitsValue digits : Int)) else none
  | number digits =>
    if digits.all Text.isDigit then some (Text.digitsValue digits : Int) else none
  | _ => none

/-- Null, or what is read of a value. -/
def optional? {α : Type} (read : Json → Option α) : Json → Option (Option α)
  | null => some none
  | v => (read v).map some

/-- The items of an array. -/
def items? {α : Type} (read : Json → Option α) : Json → Option (List α)
  | array items => items.mapM read
  | _ => none

/-- A list that may be absent. -/
def listing? {α : Type} (read : Json → Option α) : Json → Option (Listing α) :=
  optional? (items? read)

end Json

open Json

/-- The range that a value stands for. -/
def LineRange.ofJson? (v : Json) : Option LineRange := do
  return ⟨← (← v.member? "start").int?, ← (← v.member? "end").int?⟩

/-- The block that a value stands for. -/
def Block.ofJson? (v : Json) : Option Block := do
  let kind ← BlockKind.ofName? (← (← v.member? "type").text?)
  return ⟨kind, ← (← v.member? "name").text?, ← (← v.member? "start").int?,
    ← (← v.member? "end").int?⟩

/-- The hunk that a value stands for. -/
def HunkReport.ofJson? (v : Json) : Option HunkReport := do
  return ⟨← LineRange.ofJson? (← v.member? "hunk"),
    ← optional? Block.ofJson? (← v.member? "context")⟩

/-- The file that a value stands for. -/
def FileReport.ofJson? (v : Json) : Option FileReport := do
  return ⟨← (← v.member? "file").text?, ← listing? HunkReport.ofJson? (← v.member? "hunks")⟩

/-- The skipped file that a value stands for. -/
def SkippedFile.ofJson? (v : Json) : Option SkippedFile := do
  return ⟨← (← v.member? "file").text?, ← (← v.member? "reason").text?⟩

/-- The analysis that a value stands for. -/
def Analysis.ofJson? (v : Json) : Option Analysis := do
  return ⟨← listing? FileReport.ofJson? (← v.member? "files"),
    ← listing? SkippedFile.ofJson? (← v.member? "skipped")⟩

/-- The result of a review that a value stands for. -/
def ReviewResult.ofJson? (v : Json) : Option ReviewResult := do
  return ⟨← Analysis.ofJson? v, ← (← v.member? "success").truth?, ← (← v.member? "message").text?⟩

/-! ### Repaired records -/

/-- The block with U+FFFD in place of each stray byte. -/
def Block.repaired (b : Block) : Block :=
  { b with name := b.name.repaired }

/-- The hunk with U+FFFD in place of each stray byte. -/
def HunkReport.repaired (h : HunkReport) : HunkReport :=
  { h with block := h.block.map Block.repaired }

/-- The file with U+FFFD in place of each stray byte. -/
def FileReport.repaired (f : FileReport) : FileReport :=
  ⟨f.name.repaired, f.hunks.map (·.map HunkReport.repaired)⟩

/-- The skipped file with U+FFFD in place of each stray byte. -/
def SkippedFile.repaired (s : SkippedFile) : SkippedFile :=
  ⟨s.name.repaired, s.reason.repaired⟩

/-- The analysis with U+FFFD in place of each stray byte. -/
def Analysis.repaired (a : Analysis) : Analysis :=
  ⟨a.files.map (·.map FileReport.repaired), a.skipped.map (·.map SkippedFile.repaired)⟩

/-- The result with U+FFFD in place of each stray byte. -/
def ReviewResult.repaired (r : ReviewResult) : ReviewResult :=
  ⟨r.analysis.repaired, r.success, r.message.repaired⟩

/-! ### Data -/

/-- Every block of the analysis has a kind with a **name**. -/
def Analysis.Named (a : Analysis) : Prop :=
  ∀ f ∈ a.files.items, ∀ h ∈ f.hunks.items, ∀ b ∈ h.block, b.kind.name? ≠ none

/-- Something **is data** if it can be written, its value nests at most so deep, and the reader gets
`back` from the repaired value. -/
def IsData {α : Type} (nesting : Nat) (written : Except BlockKind Json)
    (read : Json → Option α) (back : α) : Prop :=
  ∃ v, written = .ok v ∧ v.Nests nesting ∧ read v.repaired = some back

/-- An integer is read as it was written. -/
theorem Json.int?_int (n : Int) : (Json.int n).repaired.int? = some n := by
  have hall (m : Nat) : (Text.ofNat m).all Text.isDigit = true :=
    List.all_eq_true.mpr fun _ => Text.isDigit_of_mem_ofNat
  rw [int, repaired]
  cases n with
  | negSucc m =>
      rw [Text.ofInt, int?, hall, Text.digitsValue_ofNat]
      rfl
  | ofNat m =>
      have hminus : ∀ ds, Text.ofNat m ≠ 45 :: ds := by
        intro ds hds
        have hdigit : Text.isDigit 45 = true :=
          Text.isDigit_of_mem_ofNat (n := m) (hds ▸ List.mem_cons_self)
        cases hdigit
      rw [Text.ofInt, int?, hall, Text.digitsValue_ofNat]
      · rfl
      · exact hminus

section Data

variable {α β : Type} {nesting : Nat}

/-- Items that are data are written one by one, and read back one by one. -/
theorem exists_mapM_of_isData {write : α → Except BlockKind Json} {read : Json → Option β}
    {back : α → β} {xs : List α}
    (hxs : ∀ x ∈ xs, IsData nesting (write x) read (back x)) :
    ∃ vs, xs.mapM write = .ok vs ∧ (∀ v ∈ vs, v.Nests nesting) ∧
      (repairedItems vs).mapM read = some (xs.map back) := by
  induction xs with
  | nil => exact ⟨[], rfl, by simp, rfl⟩
  | cons x xs ih =>
      obtain ⟨hx, hxs⟩ := List.forall_mem_cons.mp hxs
      obtain ⟨v, hv, hnests, hread⟩ := hx
      obtain ⟨vs, hvs, hnests', hread'⟩ := ih hxs
      refine ⟨v :: vs, ?_, List.forall_mem_cons.mpr ⟨hnests, hnests'⟩, ?_⟩
      · rw [List.mapM_cons, hv, hvs]
        rfl
      · rw [repairedItems, List.mapM_cons, hread, hread']
        rfl

/-- **A list is data if its items are**, also one that is absent. -/
theorem Listing.isData {write : α → Except BlockKind Json} {read : Json → Option β}
    {back : α → β} {l : Listing α}
    (hl : ∀ x ∈ l.items, IsData nesting (write x) read (back x)) :
    IsData (nesting + 1) (l.json write) (listing? read) (l.map (·.map back)) := by
  cases l with
  | none => exact ⟨.null, rfl, .null _, rfl⟩
  | some xs =>
      have hl : ∀ x ∈ xs, IsData nesting (write x) read (back x) := hl
      obtain ⟨vs, hvs, hnests, hread⟩ := exists_mapM_of_isData hl
      refine ⟨.array vs, ?_, .array _ vs hnests, ?_⟩
      · rw [Listing.json, hvs]
        rfl
      · rw [repaired, listing?, optional?, items?, hread]
        · rfl
        · simp

/-- A range is data. -/
theorem LineRange.isData (nesting : Nat) (r : LineRange) :
    IsData (nesting + 1) (.ok r.json) LineRange.ofJson? r := by
  refine ⟨r.json, rfl, .object nesting _ ?_, ?_⟩
  · simp [Nests.int]
  · have hfirst : r.json.repaired.member? "start" = some (Json.int r.first).repaired := rfl
    have hlast : r.json.repaired.member? "end" = some (Json.int r.last).repaired := rfl
    simp [LineRange.ofJson?, hfirst, hlast, int?_int]

/-- A block whose kind has a name is data. -/
theorem Block.isData (nesting : Nat) {b : Block} (hb : b.kind.name? ≠ none) :
    IsData (nesting + 1) b.json Block.ofJson? b.repaired := by
  obtain ⟨name, hname⟩ := Option.ne_none_iff_exists'.mp hb
  have hback : BlockKind.ofName? name.repaired = some b.kind := by
    cases hkind : b.kind with
    | function =>
        rw [hkind] at hname
        cases hname
        rfl
    | classBody =>
        rw [hkind] at hname
        cases hname
        rfl
    | unknown code =>
        rw [hkind] at hname
        cases hname
  refine ⟨_, by rw [Block.json, hname], .object nesting _ ?_, ?_⟩
  · simp [Nests.string, Nests.int]
  · generalize hv : (object [("type", .string name), ("name", .string b.name),
      ("start", .int b.first), ("end", .int b.last)]).repaired = v
    have htype : v.member? "type" = some (.string name.repaired) := hv ▸ rfl
    have hname : v.member? "name" = some (.string b.name.repaired) := hv ▸ rfl
    have hfirst : v.member? "start" = some (Json.int b.first).repaired := hv ▸ rfl
    have hlast : v.member? "end" = some (Json.int b.last).repaired := hv ▸ rfl
    simp [Block.ofJson?, htype, hname, hfirst, hlast, text?, int?_int, hback, Block.repaired]

/-- A hunk is data if the kind of its block has a name. -/
theorem HunkReport.isData (nesting : Nat) {h : HunkReport}
    (hh : ∀ b ∈ h.block, b.kind.name? ≠ none) :
    IsData (nesting + 2) h.json HunkReport.ofJson? h.repaired := by
  obtain ⟨_, ⟨rfl⟩, hrangeNests, hrangeRead⟩ := h.range.isData nesting
  have hassemble (context : Json)
      (hjson : h.json = .ok (.object [("hunk", h.range.json), ("context", context)]))
      (hnests : context.Nests (nesting + 1))
      (hread : optional? Block.ofJson? context.repaired = some (h.block.map Block.repaired)) :
      IsData (nesting + 2) h.json HunkReport.ofJson? h.repaired := by
    refine ⟨_, hjson, .object _ _ (by simp [hrangeNests, hnests]), ?_⟩
    generalize hv : (object [("hunk", h.range.json), ("context", context)]).repaired = v
    have hhunk : v.member? "hunk" = some h.range.json.repaired := hv ▸ rfl
    have hcontext : v.member? "context" = some context.repaired := hv ▸ rfl
    simp [HunkReport.ofJson?, hhunk, hcontext, hrangeRead, hread, HunkReport.repaired]
  cases hb : h.block with
  | none => exact hassemble .null (by rw [HunkReport.json, hb]; rfl) (.null _) (by rw [hb]; rfl)
  | some b =>
      obtain ⟨context, hjson, hnests, hread⟩ := Block.isData nesting (hh b hb)
      have hjson : h.json = .ok (.object [("hunk", h.range.json), ("context", context)]) := by
        simp only [HunkReport.json, hb, hjson]
        rfl
      refine hassemble context hjson hnests ?_
      rw [hb, optional?, hread]
      · rfl
      · intro hnull
        rw [hnull] at hread
        cases hread

/-- A file is data if the kinds of its blocks have names. -/
theorem FileReport.isData (nesting : Nat) {f : FileReport}
    (hf : ∀ h ∈ f.hunks.items, ∀ b ∈ h.block, b.kind.name? ≠ none) :
    IsData (nesting + 4) f.json FileReport.ofJson? f.repaired := by
  obtain ⟨hunks, hjson, hnests, hread⟩ : IsData (nesting + 3)
      (f.hunks.json HunkReport.json) (listing? HunkReport.ofJson?)
      (f.hunks.map (·.map HunkReport.repaired)) :=
    Listing.isData fun h hh => HunkReport.isData nesting (hf h hh)
  refine ⟨object [("file", .string f.name), ("hunks", hunks)], ?_, .object _ _ ?_, ?_⟩
  · rw [FileReport.json, hjson]
    rfl
  · simp [Nests.string, hnests]
  · generalize hv : (object [("file", .string f.name), ("hunks", hunks)]).repaired = v
    have hfile : v.member? "file" = some (.string f.name.repaired) := hv ▸ rfl
    have hhunks : v.member? "hunks" = some hunks.repaired := hv ▸ rfl
    simp [FileReport.ofJson?, hfile, hhunks, text?, hread, FileReport.repaired]

/-- A skipped file is data. -/
theorem SkippedFile.isData (nesting : Nat) (s : SkippedFile) :
    IsData (nesting + 1) (.ok s.json) SkippedFile.ofJson? s.repaired := by
  refine ⟨s.json, rfl, .object nesting _ ?_, ?_⟩
  · simp [Nests.string]
  · have hfile : s.json.repaired.member? "file" = some (.string s.name.repaired) := rfl
    have hreason : s.json.repaired.member? "reason" = some (.string s.reason.repaired) := rfl
    simp [SkippedFile.ofJson?, hfile, hreason, text?, SkippedFile.repaired]

/-- An analysis whose kinds have names has members, and each of them is data. -/
theorem Analysis.exists_members {a : Analysis} (ha : a.Named) :
    ∃ files skipped, a.members = .ok [("files", files), ("skipped", skipped)] ∧
      (files.Nests 5 ∧ skipped.Nests 5) ∧
      listing? FileReport.ofJson? files.repaired = some (a.files.map (·.map FileReport.repaired)) ∧
      listing? SkippedFile.ofJson? skipped.repaired =
        some (a.skipped.map (·.map SkippedFile.repaired)) := by
  obtain ⟨files, hfiles, hnests, hread⟩ : IsData 5 (a.files.json FileReport.json)
      (listing? FileReport.ofJson?) (a.files.map (·.map FileReport.repaired)) :=
    Listing.isData fun f hf => FileReport.isData 0 (ha f hf)
  obtain ⟨skipped, hskipped, hnests', hread'⟩ : IsData 5 (a.skipped.json fun s => pure s.json)
      (listing? SkippedFile.ofJson?) (a.skipped.map (·.map SkippedFile.repaired)) :=
    Listing.isData fun s _ => SkippedFile.isData 3 s
  refine ⟨files, skipped, ?_, ⟨hnests, hnests'⟩, hread, hread'⟩
  rw [Analysis.members, hfiles, hskipped]
  rfl

/-- **An analysis whose kinds have names is data.** -/
theorem Analysis.isData {a : Analysis} (ha : a.Named) :
    IsData 6 a.json Analysis.ofJson? a.repaired := by
  obtain ⟨files, skipped, hmembers, ⟨hnests, hnests'⟩, hread, hread'⟩ := exists_members ha
  refine ⟨object [("files", files), ("skipped", skipped)], ?_, .object _ _ ?_, ?_⟩
  · rw [Analysis.json, hmembers]
    rfl
  · simp [hnests, hnests']
  · generalize hv : (object [("files", files), ("skipped", skipped)]).repaired = v
    have hfiles : v.member? "files" = some files.repaired := hv ▸ rfl
    have hskipped : v.member? "skipped" = some skipped.repaired := hv ▸ rfl
    simp [Analysis.ofJson?, hfiles, hskipped, hread, hread', Analysis.repaired]

/-- **A result with such an analysis is data.** -/
theorem ReviewResult.isData {r : ReviewResult} (hr : r.analysis.Named) :
    IsData 6 r.json ReviewResult.ofJson? r.repaired := by
  obtain ⟨files, skipped, hmembers, ⟨hnests, hnests'⟩, hread, hread'⟩ :=
    Analysis.exists_members hr
  refine ⟨object [("files", files), ("skipped", skipped), ("success", .bool r.success),
    ("message", .string r.message)], ?_, .object _ _ ?_, ?_⟩
  · rw [ReviewResult.json, hmembers]
    rfl
  · simp [hnests, hnests', Nests.bool, Nests.string]
  · generalize hv : (object [("files", files), ("skipped", skipped), ("success", .bool r.success),
      ("message", .string r.message)]).repaired = v
    have hfiles : v.member? "files" = some files.repaired := hv ▸ rfl
    have hskipped : v.member? "skipped" = some skipped.repaired := hv ▸ rfl
    have hsuccess : v.member? "success" = some (.bool r.success) := hv ▸ rfl
    have hmessage : v.member? "message" = some (.string r.message.repaired) := hv ▸ rfl
    simp [ReviewResult.ofJson?, Analysis.ofJson?, hfiles, hskipped, hsuccess, hmessage, hread,
      hread', truth?, text?, ReviewResult.repaired, Analysis.repaired]

end Data

/-- **The text of a result is on one line and stands for the result**, if the kinds of its analysis
have names. -/
theorem ReviewResult.exists_payload {r : ReviewResult} (hr : r.analysis.Named) :
    ∃ payload, r.block = .ok (opening ++ payload ++ closing) ∧ Text.newline ∉ payload ∧
      ∃ v, Json.parse payload = .ok v ∧ ReviewResult.ofJson? v = some r.repaired := by
  obtain ⟨v, hjson, hnests, hread⟩ := ReviewResult.isData hr
  refine ⟨v.render, ?_, newline_not_mem_render hnests, v.repaired,
    parse_render hnests (by decide), hread⟩
  rw [ReviewResult.block, hjson]
  rfl

end Enclosure
