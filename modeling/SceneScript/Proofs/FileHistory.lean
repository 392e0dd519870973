/-
  SceneScript.Proofs.FileHistory — a script over the life of its file.

  A file begins with a first run of the generator. From then on runs and edits follow in
  any order (`FileEvent`); between two runs the scene, its kind and the configuration may
  all change. An edit puts a new text in the place of one region, wherever that region
  stands in the file now. What an edit may contain is `Permitted`: not the end of its own
  region, and in the pre-init region no marker that begins the other one.

  `Holds` is the invariant: the file is some clear text around findable regions. One
  event changes the regions as it says and nothing else (`Holds.regenerate`,
  `Holds.edit`), and over a whole history the regions are the latest edits, or the first
  placeholders (`holds_fileAfter`).

  Proved: no edit is ever lost (`no_edit_is_lost`).
-/
import SceneScript.Proofs.Regeneration
import SceneScript.Script.OutputFile

namespace SceneScript

open Text (Occurs OnlyAtEnd)

/-! ## Edits -/

/-- Another text between the first `start` and the first `stop` after it. -/
def replaceEnclosed? (start stop new text : String) : Option String := do
  let (before, rest) ← Text.cut? start text
  let (_, after) ← Text.cut? stop rest
  return before ++ start ++ new ++ stop ++ after

/-- Another text after the last marker, which is looked for after the post-init region. -/
def replaceTrailing? (new text : String) : Option String := do
  let (before, rest) ← Text.cut? Marker.postInitBegin text
  let (postInit, after) ← Text.cut? Marker.postInitEnd rest
  let (tail, _) ← Text.cut? Marker.endGenerated after
  return before ++ Marker.postInitBegin ++ postInit ++ Marker.postInitEnd ++ tail ++ Marker.endGenerated ++ new

theorem replaceEnclosed?_eq {start stop text before rest old after : String}
    (h₁ : Text.cut? start text = some (before, rest)) (h₂ : Text.cut? stop rest = some (old, after)) (new : String) :
    replaceEnclosed? start stop new text = some (before ++ start ++ new ++ stop ++ after) := by
  simp [replaceEnclosed?, h₁, h₂]

theorem replaceTrailing?_eq {text before rest postInit after tail old : String}
    (h₁ : Text.cut? Marker.postInitBegin text = some (before, rest))
    (h₂ : Text.cut? Marker.postInitEnd rest = some (postInit, after))
    (h₃ : Text.cut? Marker.endGenerated after = some (tail, old)) (new : String) :
    replaceTrailing? new text = some
      (before ++ Marker.postInitBegin ++ postInit ++ Marker.postInitEnd ++ tail ++ Marker.endGenerated ++ new) := by
  simp [replaceTrailing?, h₁, h₂, h₃]

/-- A script with another text in one region, if it has that region. -/
def Region.replace? (region : Region) (new text : String) : Option String :=
  match region with
  | .preInit => replaceEnclosed? Marker.preInitBegin Marker.preInitEnd new text
  | .postInit => replaceEnclosed? Marker.postInitBegin Marker.postInitEnd new text
  | .trailing => replaceTrailing? new text

def Regions.set (r : Regions) (region : Region) (new : String) : Regions :=
  match region with
  | .preInit => { r with preInit := new }
  | .postInit => { r with postInit := new }
  | .trailing => { r with trailing := new }

/-! ## Histories -/

inductive FileEvent where
  /-- The generator runs on a scene. -/
  | regenerate (config : Config) (m : Model)
  /-- Someone puts a new text in the place of a region. -/
  | edit (region : Region) (new : String)

namespace FileEvent

/-- The file after an event; an edit needs a region to change. -/
def apply (e : FileEvent) (f : OutputFile) : Option OutputFile :=
  match e with
  | .regenerate config m => (f.regenerate config m).toOption.map (·.file)
  | .edit region new => (f.text?.bind (region.replace? new)).map .text

/-- The new text of a region, if the event gives it one. -/
def newText? (e : FileEvent) (region : Region) : Option String :=
  match e with
  | .regenerate _ _ => none
  | .edit edited new => if edited = region then some new else none

/-- A run whose own text and placeholders hold no marker, or an edit that leaves its region findable. -/
def Permitted : FileEvent → Prop
  | .regenerate config m =>
    Text.isBlank config.indent = true ∧ (ownText config m).Clear ∧ Unmarked config.placeholderMessage
  | .edit .preInit new =>
    OnlyAtEnd Marker.preInitEnd new
      ∧ ¬ Occurs Marker.postInitBegin (Marker.preInitBegin ++ new ++ Marker.preInitEnd)
  | .edit .postInit new => OnlyAtEnd Marker.postInitEnd new
  | .edit .trailing _ => True

end FileEvent

/-- The file after a history that begins without a file, if every event can happen. -/
def fileAfter (events : List FileEvent) : Option OutputFile :=
  events.foldlM (fun f e => e.apply f) .absent

/-- The latest edit of a region. -/
def latestEdit (region : Region) (events : List FileEvent) : Option String :=
  events.reverse.findSome? fun e => e.newText? region

/-- What the regions should hold after a history whose first run was with `first`. -/
def regionsAfter (first : Config) (events : List FileEvent) : Regions where
  preInit := (latestEdit .preInit events).getD first.bodyPlaceholder
  postInit := (latestEdit .postInit events).getD first.bodyPlaceholder
  trailing := (latestEdit .trailing events).getD first.trailingPlaceholder

theorem fileAfter_concat (events : List FileEvent) (e : FileEvent) :
    fileAfter (events ++ [e]) = (fileAfter events).bind e.apply := by
  simp [fileAfter]

theorem latestEdit_concat (region : Region) (events : List FileEvent) (e : FileEvent) :
    latestEdit region (events ++ [e]) = (e.newText? region).or (latestEdit region events) := by
  simp only [latestEdit, List.reverse_append, List.reverse_singleton, List.singleton_append, List.findSome?_cons]
  cases e.newText? region <;> rfl

/-- A run changes no region. -/
theorem regionsAfter_regenerate (first : Config) (events : List FileEvent) (config : Config) (m : Model) :
    regionsAfter first (events ++ [.regenerate config m]) = regionsAfter first events := by
  simp [regionsAfter, latestEdit_concat, FileEvent.newText?]

theorem regionsAfter_edit (first : Config) (events : List FileEvent) (region : Region) (new : String) :
    regionsAfter first (events ++ [.edit region new]) = (regionsAfter first events).set region new := by
  cases region <;> simp [regionsAfter, latestEdit_concat, FileEvent.newText?, Regions.set]

/-! ## Placeholders -/

/-- A quiet text around a text without markers makes none. -/
theorem Unmarked.within {x s y : String} (h : Unmarked s) (hx : Text.StarFree x) (hy : Text.StarFree y)
    (hl : x.toList.getLast? ≠ some '/') (hh : y.toList.head? ≠ some '/') : Unmarked (x ++ s ++ y) := by
  intro mark hm ho
  have hc := Marker.isComment_of_mem hm
  rcases Text.occurs_append_iff.mp ho with ho | ho | ho
  · rcases Text.occurs_append_iff.mp ho with ho | ho | ho
    · exact hc.not_occurs_of_starFree hx ho
    · exact h mark hm ho
    · exact hc.not_straddles_starFree_left hx hl s ho
  · exact hc.not_occurs_of_starFree hy ho
  · exact hc.not_straddles_starFree_right hy hh _ ho

section Placeholder

variable {indent message : String} (hi : Text.StarFree indent) (hm : Unmarked message)
include hi hm

theorem unmarked_placeholder : Unmarked (placeholder indent message) := by
  have hline : Unmarked (indent ++ "// -- " ++ message ++ " --") :=
    Unmarked.within hm (Text.starFree_append.mpr ⟨hi, by decide⟩) (by decide)
      (by simp [List.getLast?_append]) (by decide)
  have : placeholder indent message = "" ++ "\n" ++ (indent ++ "// -- " ++ message ++ " --" ++ "\n" ++ indent) := by
    rw [placeholder, String.empty_append, show " --\n" = " --" ++ "\n" from rfl]
    simp only [String.append_assoc]
  rw [this]
  exact unmarked_empty.line_append (hline.line_append (unmarked_of_starFree hi))

omit hm in
theorem placeholder_last : (placeholder indent message).toList.getLast? ≠ some '*' := by
  rw [placeholder, show " --\n" = " --" ++ "\n" from rfl, ← String.append_assoc]
  exact (endsLine_append _).append_indent (last_not_star hi)

theorem onlyAtEnd_placeholder {mark : String} (h : mark ∈ Marker.all) : OnlyAtEnd mark (placeholder indent message) :=
  (Marker.isComment_of_mem h).onlyAtEnd_of_not_occurs (unmarked_placeholder hi hm mark h) (placeholder_last hi)

/-- The first placeholders are found again. -/
theorem findable_placeholders (trailing : String) :
    Regions.Findable ⟨placeholder indent message, placeholder indent message, trailing⟩ where
  preInit_ends := onlyAtEnd_placeholder hi hm (by simp [Marker.all])
  no_postInit := by
    intro ho
    have hc := Marker.isComment_postInitBegin
    have hstart : (placeholder indent message).toList.head? = some '\n' := by simp [placeholder]
    rcases Text.occurs_append_iff.mp ho with ho | ho | ho
    · rcases Text.occurs_append_iff.mp ho with ho | ho | ho
      · exact absurd ho (by decide +kernel)
      · exact unmarked_placeholder hi hm _ (by simp [Marker.all]) ho
      · exact hc.not_straddles_newline hstart _ ho
    · exact absurd ho (by decide +kernel)
    · have hlast : (placeholder indent message).toList.getLast? ≠ some '*' := placeholder_last hi
      refine hc.not_straddles_slash ?_ Marker.isComment_preInitEnd.head_slash ho
      rw [String.toList_append, List.getLast?_append]
      cases hl : (placeholder indent message).toList.getLast? with
      | none => simp [List.getLast?_eq_none_iff.mp hl] at hstart
      | some c => simpa [hl] using hlast
  postInit_ends := onlyAtEnd_placeholder hi hm (by simp [Marker.all])

end Placeholder

/-! ## Outcomes -/

theorem OutputFile.text?_eq_some_iff {f : OutputFile} {s : String} : f.text? = some s ↔ f = .text s := by
  cases f <;> simp [text?]

theorem OutputFile.text?_eq_none_iff {f : OutputFile} (h : f ≠ .binary) : f.text? = none ↔ f = .absent := by
  cases f with
  | absent => simp [text?]
  | text s => simp [text?]
  | binary => exact absurd rfl h

theorem Outcome.compare_eq_created_iff {previous : Option String} {text : String} :
    compare previous text = .created ↔ previous = none := by
  cases previous with
  | none => simp [compare]
  | some old => by_cases h : old = text <;> simp [compare, h]

theorem Outcome.compare_eq_unchanged_iff {previous : Option String} {text : String} :
    compare previous text = .unchanged ↔ previous = some text := by
  cases previous with
  | none => simp [compare]
  | some old => by_cases h : old = text <;> simp [compare, h]

theorem Outcome.compare_eq_updated_iff {previous : Option String} {text : String} :
    compare previous text = .updated ↔ previous ≠ none ∧ previous ≠ some text := by
  cases previous with
  | none => simp [compare]
  | some old => by_cases h : old = text <;> simp [compare, h]

/-! ## One event -/

/-- A region of a script is replaced where it stands. -/
theorem replace?_around {t : OwnText} {r : Regions} (hc : t.Clear) (hs : t.Seamed) (hr : r.Findable) (region : Region)
    (new : String) : region.replace? new (t.around r) = some (t.around (r.set region new)) := by
  have hpre := OwnText.cut?_preInitBegin hc hs r
  have hpost := OwnText.cut?_postInitBegin hc hs hr.no_postInit
  cases region with
  | preInit =>
    have : t.around (r.set .preInit new)
        = t.head ++ Marker.preInitBegin ++ new ++ Marker.preInitEnd ++ t.fromMiddle r := by
      simp only [OwnText.around_eq, OwnText.fromMiddle, OwnText.fromTail, Regions.set, String.append_assoc]
    rw [this]
    exact replaceEnclosed?_eq hpre (hr.preInit_ends.cut _) new
  | postInit =>
    have : t.around (r.set .postInit new) = t.head ++ (r.preInitBlock ++ t.middle) ++ Marker.postInitBegin ++ new
        ++ Marker.postInitEnd ++ t.fromTail r := by
      simp only [OwnText.around, Regions.preInitBlock, OwnText.fromTail, Regions.set, String.append_assoc]
    rw [this]
    exact replaceEnclosed?_eq hpost (hr.postInit_ends.cut _) new
  | trailing =>
    have : t.around (r.set .trailing new) = t.head ++ (r.preInitBlock ++ t.middle) ++ Marker.postInitBegin
        ++ r.postInit ++ Marker.postInitEnd ++ t.tail ++ Marker.endGenerated ++ new := by
      simp only [OwnText.around, Regions.preInitBlock, Regions.set, String.append_assoc]
    rw [this]
    exact replaceTrailing?_eq hpost (hr.postInit_ends.cut _) (OwnText.cut?_endGenerated hc hs r) new

/-- The file is some clear text around these regions, and they can be found in it. -/
def Holds (f : OutputFile) (r : Regions) : Prop :=
  ∃ t : OwnText, t.Clear ∧ t.Seamed ∧ r.Findable ∧ f = .text (t.around r)

namespace Holds

variable {f : OutputFile} {r : Regions}

theorem findable (h : Holds f r) : r.Findable := by
  obtain ⟨_, _, _, hr, _⟩ := h
  exact hr

/-- A script that has just been written holds its regions. -/
theorem scriptText {config : Config} {m : Model} (hp : (FileEvent.regenerate config m).Permitted) (hr : r.Findable) :
    Holds (.text (scriptText config m r)) r := by
  obtain ⟨hi, hc, -⟩ := hp
  exact ⟨ownText config m, hc, ownText_seamed_of_isBlank hi m, hr, by rw [scriptText_eq_around]⟩

/-- A run on a file writes its regions down again and misses none. -/
theorem regenerate (h : Holds f r) (config : Config) (m : Model) :
    f.regenerate config m = .ok
      ⟨Outcome.compare f.text? (SceneScript.scriptText config m r), [], .text (SceneScript.scriptText config m r)⟩ := by
  obtain ⟨t, hc, hs, hr, rfl⟩ := h
  simp [OutputFile.regenerate, OutputFile.text?, generate, OwnText.recover_around hc hs hr,
    OwnText.lost_around hc hs hr]

/-- An edit changes its region and nothing else. -/
theorem edit (h : Holds f r) {region : Region} {new : String} (hp : (FileEvent.edit region new).Permitted) :
    ∃ f', (FileEvent.edit region new).apply f = some f' ∧ Holds f' (r.set region new) := by
  obtain ⟨t, hc, hs, hr, rfl⟩ := h
  refine ⟨.text (t.around (r.set region new)), ?_, t, hc, hs, ?_, rfl⟩
  · simp [FileEvent.apply, OutputFile.text?, replace?_around hc hs hr]
  · cases region with
    | preInit => exact ⟨hp.1, hp.2, hr.postInit_ends⟩
    | postInit => exact ⟨hr.preInit_ends, hr.no_postInit, hp⟩
    | trailing => exact ⟨hr.preInit_ends, hr.no_postInit, hr.postInit_ends⟩

/-- Text put at the end of the file edits the trailing region. -/
theorem append (h : Holds f r) (s : String) :
    (FileEvent.edit .trailing (r.trailing ++ s)).apply f = some (f.append s) := by
  obtain ⟨t, hc, hs, hr, rfl⟩ := h
  have : t.around (r.set .trailing (r.trailing ++ s)) = t.around r ++ s := by
    simp only [OwnText.around, Regions.set, String.append_assoc]
  simp [FileEvent.apply, OutputFile.append, OutputFile.editable, OutputFile.text?, replace?_around hc hs hr, this]

end Holds

/-! ## Whole histories -/

/-- The first run writes placeholders. -/
theorem fileAfter_first {config : Config} {m : Model} (hp : (FileEvent.regenerate config m).Permitted) :
    ∃ f, fileAfter [.regenerate config m] = some f ∧ Holds f (regionsAfter config [.regenerate config m]) := by
  refine ⟨_, rfl, Holds.scriptText hp ?_⟩
  exact findable_placeholders (not_star_of_isBlank hp.1) hp.2.2 _

/-- Over a history every event can happen, and the file holds the latest edits. -/
theorem holds_fileAfter {first : Config} {m : Model} {events : List FileEvent}
    (hfirst : events.head? = some (.regenerate first m)) (hp : ∀ e ∈ events, e.Permitted) :
    ∃ f, fileAfter events = some f ∧ Holds f (regionsAfter first events) := by
  -- the last event is taken off: what came before it fixes what the file holds
  induction events using List.reverseRecOn with
  | nil => cases hfirst
  | append_singleton events e ih =>
    cases events with
    | nil =>
      obtain rfl : e = .regenerate first m := by simpa using hfirst
      exact fileAfter_first (hp _ (by simp))
    | cons e₀ rest =>
      obtain ⟨f, hf, hh⟩ := ih (by simpa using hfirst) fun e' h => hp e' (List.mem_append_left _ h)
      have hpe := hp e (by simp)
      rw [fileAfter_concat, hf, Option.bind_some]
      cases e with
      | regenerate config m' =>
        rw [regionsAfter_regenerate]
        exact ⟨_, by simp [FileEvent.apply, hh.regenerate, Except.toOption], Holds.scriptText hpe hh.findable⟩
      | edit region new =>
        rw [regionsAfter_edit]
        exact hh.edit hpe

/-- A run that misses no region has nothing to warn about. -/
theorem generationLog_quiet {m : Model} {previous : Option String} (h : Regions.lost previous = []) :
    ∀ record ∈ generationLog m previous, record.level ≠ .warn := by
  intro record hr
  simp only [generationLog, h, List.map_nil, List.nil_append, List.mem_append, List.mem_map, List.mem_singleton] at hr
  rcases hr with ⟨o, -, rfl⟩ | rfl
  · exact nofun
  · exact nofun

/-- A run that follows a history: what it finds, what it says and what it does to the file. -/
theorem regenerate_after {first : Config} {m₀ : Model} {before : List FileEvent} {config : Config} {m : Model}
    (hfirst : (before ++ [FileEvent.regenerate config m]).head? = some (.regenerate first m₀))
    (hp : ∀ e ∈ before ++ [FileEvent.regenerate config m], e.Permitted) :
    ∃ f, fileAfter before = some f ∧
      f.regenerate config m = .ok ⟨Outcome.compare f.text? (scriptText config m (regionsAfter first before)), [],
        .text (scriptText config m (regionsAfter first before))⟩ ∧
      Regions.lost f.text? = [] ∧ (f = .absent ↔ before = []) ∧ f ≠ .binary := by
  cases before with
  | nil =>
    obtain ⟨rfl, rfl⟩ : config = first ∧ m = m₀ := by simpa using hfirst
    exact ⟨.absent, rfl, rfl, rfl, by simp, nofun⟩
  | cons e rest =>
    obtain ⟨f, hf, hh⟩ := holds_fileAfter (by simpa using hfirst) fun e' h => hp e' (List.mem_append_left _ h)
    refine ⟨f, hf, hh.regenerate config m, ?_⟩
    obtain ⟨t, hc, hs, hr, rfl⟩ := hh
    exact ⟨OwnText.lost_around hc hs hr, by simp, nofun⟩

/-- The regions stand in the text that the run writes. -/
theorem find_scriptText {first : Config} {m₀ : Model} {before : List FileEvent} {config : Config} {m : Model}
    (hfirst : (before ++ [FileEvent.regenerate config m]).head? = some (.regenerate first m₀))
    (hp : ∀ e ∈ before ++ [FileEvent.regenerate config m], e.Permitted) :
    RegionTexts.find (scriptText config m (regionsAfter first before))
      = ⟨some (regionsAfter first before).preInit, some (regionsAfter first before).postInit,
        some (regionsAfter first before).trailing⟩ := by
  obtain ⟨_, _, hh⟩ := holds_fileAfter hfirst hp
  have hr := hh.findable
  rw [regionsAfter_regenerate] at hr
  obtain ⟨hi, hc, -⟩ := hp (.regenerate config m) (by simp)
  rw [scriptText_eq_around]
  exact OwnText.find_around hc (ownText_seamed_of_isBlank hi m) hr

/-- Whatever happens to the file, in any order: every event can happen, and after every run each region holds its
    latest edit, or the first placeholder if it has none. No run misses a region; the first creates the file, and any
    later one leaves it alone just if its text stays the same. -/
theorem no_edit_is_lost {first : Config} {m₀ : Model} {events : List FileEvent}
    (hfirst : events.head? = some (.regenerate first m₀)) (hp : ∀ e ∈ events, e.Permitted) :
    (∃ f, fileAfter events = some f ∧
      ∀ s, (FileEvent.edit .trailing ((regionsAfter first events).trailing ++ s)).apply f = some (f.append s)) ∧
    ∀ before config m after, events = before ++ .regenerate config m :: after →
      ∃ f run, fileAfter before = some f ∧ f.regenerate config m = .ok run ∧
        run.file = .text (scriptText config m (regionsAfter first before)) ∧
        RegionTexts.find (scriptText config m (regionsAfter first before))
          = ⟨(latestEdit .preInit before).getD first.bodyPlaceholder,
            (latestEdit .postInit before).getD first.bodyPlaceholder,
            (latestEdit .trailing before).getD first.trailingPlaceholder⟩ ∧
        run.lost = [] ∧ (∀ record ∈ generationLog m f.text?, record.level ≠ .warn) ∧
        (run.outcome = .created ↔ before = []) ∧
        (before ≠ [] → (run.outcome = .unchanged ↔ run.file = f) ∧ (run.outcome = .updated ↔ run.file ≠ f)) := by
  constructor
  · obtain ⟨f, hf, hh⟩ := holds_fileAfter hfirst hp
    exact ⟨f, hf, hh.append⟩
  · rintro before config m after rfl
    rw [List.append_cons] at hfirst hp
    have hfirst : (before ++ [FileEvent.regenerate config m]).head? = some (.regenerate first m₀) := by
      cases before <;> simpa using hfirst
    have hp : ∀ e ∈ before ++ [FileEvent.regenerate config m], e.Permitted := fun e h => hp e (List.mem_append_left _ h)
    obtain ⟨f, hf, hrun, hlost, habsent, hbinary⟩ := regenerate_after hfirst hp
    have hfind : RegionTexts.find (scriptText config m (regionsAfter first before)) = _ :=
      find_scriptText hfirst hp
    refine ⟨f, _, hf, hrun, rfl, hfind, rfl, generationLog_quiet hlost, ?_, fun hne => ?_⟩
    · rw [Outcome.compare_eq_created_iff, OutputFile.text?_eq_none_iff hbinary, habsent]
    · have hsome : f.text? ≠ none := by rwa [ne_eq, OutputFile.text?_eq_none_iff hbinary, habsent]
      rw [Outcome.compare_eq_unchanged_iff, Outcome.compare_eq_updated_iff, ne_eq, ne_eq, ne_eq,
        OutputFile.text?_eq_some_iff, eq_comm]
      exact ⟨.rfl, and_iff_right hsome⟩

/-- A state becomes a group, edits are made in every region, and it becomes a state again. -/
def skyHistory : List FileEvent := [
  .regenerate {} skyScene,
  .edit .preInit "\n\tvar wind = 3;\n\t",
  .regenerate { indent := "  " } caveScene,
  .edit .postInit " /* --- pre-init-end --- */ ",
  .edit .trailing "/* --- pre-init-begin --- */",
  .edit .preInit "/* --- end generated code --- */",
  .regenerate {} skyScene]

theorem skyHistory_keeps_edits :
    skyHistory.head? = some (.regenerate {} skyScene) ∧ (∀ e ∈ skyHistory, e.Permitted) ∧
      ∃ f run text, fileAfter skyHistory.dropLast = some f ∧ f.regenerate {} skyScene = .ok run ∧
        run.file = .text text ∧
        RegionTexts.find text = ⟨some "/* --- end generated code --- */", some " /* --- pre-init-end --- */ ",
          some "/* --- pre-init-begin --- */"⟩ ∧
        run.lost = [] ∧ run.outcome ≠ .created := by
  have hfirst : skyHistory.head? = some (.regenerate {} skyScene) := rfl
  have hp : ∀ e ∈ skyHistory, e.Permitted := by
    simp only [skyHistory, List.forall_mem_cons, List.not_mem_nil, false_imp_iff, implies_true, and_true]
    have hmessage : Unmarked ({} : Config).placeholderMessage := unmarked_literal (by decide)
    have hsky : (ownText {} skyScene).Clear := ownText_clear (by decide) skyScene_starFree
    refine ⟨⟨by decide, hsky, hmessage⟩, ?_, ⟨by decide, ownText_clear (by decide) caveScene_starFree, hmessage⟩, ?_,
      trivial, ?_, by decide, hsky, hmessage⟩
    · dsimp only [FileEvent.Permitted]
      decide +kernel
    · dsimp only [FileEvent.Permitted]
      decide +kernel
    · dsimp only [FileEvent.Permitted]
      decide +kernel
  obtain ⟨f, run, hf, hrun, hfile, hfind, hlost, -, hcreated, -⟩ :=
    (no_edit_is_lost hfirst hp).2 skyHistory.dropLast {} skyScene [] rfl
  exact ⟨hfirst, hp, f, run, _, hf, hrun, hfile, hfind, hlost, hcreated.not.mpr (by decide)⟩

end SceneScript
