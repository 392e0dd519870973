/-
  SceneScript.Proofs.Stability — whether a second run changes a file.

  The earlier text may be anything: markers missing, repeated, or pasted into another
  region. What a run takes from it is `Regions.recover`; in what it writes, neither
  region inside the code ends early (`recover_ends`), so the regions can be told from the
  text (`OwnText.around_inj`). A second run changes nothing just if it recovers the same
  regions again.

  It need not. The post-init region is looked for from the start of the file, across the
  pre-init region that was put back, and a marker there hides the real one. `Settled`
  says exactly when this does no harm. If no marker ends the region that begins there
  before the real end, all before the real region is drawn into it (`Hidden`); it is then
  hidden from the next run too, which draws in the same text once more.

  Proved: a second run leaves the file alone if and only if its regions are `Settled`
  (`second_run_unchanged_iff`); while the post-init region is `Hidden` every run makes the
  file longer (`generate_iterate_strictMono`), and one post-init marker pasted into the
  pre-init region is enough for that (`a_pasted_marker_grows_the_file`).
-/
import Mathlib.Logic.Function.Iterate
import Mathlib.Order.Monotone.Basic
import SceneScript.Proofs.FileHistory

namespace SceneScript

open Text (Occurs OnlyAtEnd)

/-! ## What is recovered -/

/-- Between two marks a text ends at the first of them. -/
theorem enclosed?_ends {start stop text region rest : String} (h : enclosed? start stop text = some (region, rest)) :
    OnlyAtEnd stop region := by
  unfold enclosed? at h
  split at h
  · cases h
  · exact (Text.cut?_eq_some_iff.mp h).2

/-- A recovered region does not end early, whatever the text was. -/
theorem recover_ends (previous : Option String) {body : String} (trailing : String)
    (h₁ : OnlyAtEnd Marker.preInitEnd body) (h₂ : OnlyAtEnd Marker.postInitEnd body) :
    OnlyAtEnd Marker.preInitEnd (Regions.recover previous body trailing).preInit ∧
      OnlyAtEnd Marker.postInitEnd (Regions.recover previous body trailing).postInit := by
  cases previous with
  | none => exact ⟨h₁, h₂⟩
  | some text =>
    simp only [Regions.recover, RegionTexts.restore, RegionTexts.find]
    constructor
    · cases h : enclosed? Marker.preInitBegin Marker.preInitEnd text with
      | none => exact h₁
      | some found => exact enclosed?_ends h
    · cases h : enclosed? Marker.postInitBegin Marker.postInitEnd text with
      | none => exact h₂
      | some found => exact enclosed?_ends h

/-! ## Settled regions -/

/-- What begins with `c` and runs to the end of the post-init region begins with that region once more, and no last
    marker stands in the rest. -/
def Repeats (t : OwnText) (r : Regions) (c : String) : Prop :=
  ∃ b, c ++ t.middle ++ Marker.postInitBegin ++ r.postInit ++ Marker.postInitEnd = r.postInit ++ Marker.postInitEnd ++ b
    ∧ ¬ Occurs Marker.endGenerated b

/-- A post-init marker within the pre-init region does no harm: the region that begins there is the post-init region
    once more. -/
def Settled (t : OwnText) (r : Regions) : Prop :=
  ∀ a c, Text.cut? Marker.postInitBegin r.preInitBlock = some (a, c) → Repeats t r c

theorem Settled.of_not_occurs {t : OwnText} {r : Regions} (h : ¬ Occurs Marker.postInitBegin r.preInitBlock) :
    Settled t r := fun a c hcut => by
  rw [Text.cut?_eq_none_iff.mpr h] at hcut
  cases hcut

namespace OwnText

variable {t : OwnText} {r : Regions}

/-- A text that ends where the real post-init region does. -/
theorem append_fromMiddle (c : String) (t : OwnText) (r : Regions) :
    c ++ t.fromMiddle r
      = c ++ t.middle ++ Marker.postInitBegin ++ r.postInit ++ Marker.postInitEnd ++ t.fromTail r := by
  simp only [fromMiddle, String.append_assoc]

theorem enclosed?_postInit_within (hc : t.Clear) (hs : t.Seamed) {a c : String}
    (h : Text.cut? Marker.postInitBegin r.preInitBlock = some (a, c)) :
    enclosed? Marker.postInitBegin Marker.postInitEnd (t.around r)
      = Text.cut? Marker.postInitEnd (c ++ t.fromMiddle r) := by
  simp only [enclosed?, cut?_postInitBegin_within hc hs h]

/-- The regions can be told from the script. -/
theorem around_inj {r' : Regions} (hu : OnlyAtEnd Marker.preInitEnd r.preInit)
    (hu' : OnlyAtEnd Marker.preInitEnd r'.preInit) (hv : OnlyAtEnd Marker.postInitEnd r.postInit)
    (hv' : OnlyAtEnd Marker.postInitEnd r'.postInit) : t.around r = t.around r' ↔ r = r' := by
  refine ⟨fun h => ?_, fun h => h ▸ rfl⟩
  simp only [around_eq, String.append_right_inj] at h
  obtain ⟨hpre, hmiddle⟩ := hu.append_inj hu' h
  simp only [fromMiddle, String.append_right_inj] at hmiddle
  obtain ⟨hpost, htail⟩ := hv.append_inj hv' hmiddle
  simp only [fromTail, String.append_right_inj] at htail
  cases r
  cases r'
  simp_all

/-- What stands before the own tail does not hide the last marker, unless it holds one. -/
theorem cut?_endGenerated_after (hc : t.Clear) (hs : t.Seamed) {b : String} (hb : ¬ Occurs Marker.endGenerated b) :
    Text.cut? Marker.endGenerated (b ++ t.fromTail r) = some (b ++ t.tail, r.trailing) := by
  have hstart : (t.fromTail r).toList.head? = some '\n' := by
    simp [fromTail, List.head?_append, hs.tail_start]
  exact Text.cut?_append_left hb (Marker.isComment_endGenerated.not_straddles_newline hstart b)
    (cut?_endGenerated hc hs r)

/-- Regions recovered from across the pre-init region are the old ones only if the post-init region is repeated. -/
theorem repeats_of_recover_eq {c body trailing : String}
    (hpost : enclosed? Marker.postInitBegin Marker.postInitEnd (t.around r)
      = Text.cut? Marker.postInitEnd (c ++ t.fromMiddle r))
    (h : Regions.recover (some (t.around r)) body trailing = r) : Repeats t r c := by
  have hoccurs : Occurs Marker.postInitEnd (c ++ t.fromMiddle r) := by
    rw [append_fromMiddle]
    exact ((Text.occurs_self _).append_left _).append_right _
  obtain ⟨⟨v, rest⟩, hcut⟩ := Option.isSome_iff_exists.mp (Text.cut?_isSome_iff.mpr hoccurs)
  simp only [Regions.recover, RegionTexts.restore, RegionTexts.find, hpost, hcut] at h
  have hv : v = r.postInit := congrArg Regions.postInit h
  have htrailing := congrArg Regions.trailing h
  subst hv
  have hsplit := (Text.cut?_eq_some_iff.mp hcut).1
  rw [append_fromMiddle] at hsplit
  obtain ⟨b, hb, rfl⟩ := Text.exists_of_append_eq_append hsplit (by simp only [String.length_append]; omega)
  refine ⟨b, hb, fun ho => ?_⟩
  -- an earlier last marker would make the trailing region longer than it is
  obtain ⟨⟨x, y⟩, hxy⟩ := Option.isSome_iff_exists.mp (Text.cut?_isSome_iff.mpr ho)
  simp only [Text.cut?_append_right hxy, Option.map_some, Option.getD_some] at htrailing
  have hlength := congrArg String.length htrailing
  simp only [fromTail, String.length_append] at hlength
  have : Marker.endGenerated.length = 32 := by decide
  omega

/-- The regions are recovered again just if they are settled. -/
theorem recover_around_iff (hc : t.Clear) (hs : t.Seamed) (hu : OnlyAtEnd Marker.preInitEnd r.preInit)
    (hv : OnlyAtEnd Marker.postInitEnd r.postInit) (body trailing : String) :
    Regions.recover (some (t.around r)) body trailing = r ↔ Settled t r := by
  cases hcut : Text.cut? Marker.postInitBegin r.preInitBlock with
  | none =>
    have hno := Text.cut?_eq_none_iff.mp hcut
    exact iff_of_true (recover_around hc hs ⟨hu, hno, hv⟩ body trailing) (.of_not_occurs hno)
  | some found =>
    obtain ⟨a, c⟩ := found
    have hpost := enclosed?_postInit_within hc hs hcut
    constructor
    · intro h a' c' hcut'
      obtain ⟨rfl, rfl⟩ : a = a' ∧ c = c' := by simpa [hcut] using hcut'
      exact repeats_of_recover_eq hpost h
    · intro h
      obtain ⟨b, hb, hno⟩ := h a c hcut
      have hcut' : Text.cut? Marker.postInitEnd (c ++ t.fromMiddle r) = some (r.postInit, b ++ t.fromTail r) := by
        rw [append_fromMiddle, hb, String.append_assoc]
        exact hv.cut _
      simp [Regions.recover, RegionTexts.restore, RegionTexts.find, enclosed?_preInit hc hs hu, hpost, hcut',
        cut?_endGenerated_after hc hs hno]

end OwnText

/-! ## Hidden regions -/

/-- What stands between a marker within the pre-init region, with `c` after it there, and the post-init region. -/
def OwnText.before (t : OwnText) (c : String) : String := c ++ t.middle ++ Marker.postInitBegin

/-- A marker within the pre-init region hides the real post-init region, and none ends before that region what begins
    there. -/
structure Hidden (t : OwnText) (c : String) (r : Regions) : Prop where
  preInit_ends : OnlyAtEnd Marker.preInitEnd r.preInit
  begins : ∃ a, Text.cut? Marker.postInitBegin r.preInitBlock = some (a, c)
  /-- The marker makes no other one with what follows. -/
  no_star : c.toList.head? ≠ some '*'
  postInit_ends : OnlyAtEnd Marker.postInitEnd (t.before c ++ r.postInit)

/-- The regions with all before the post-init region drawn into it. -/
def Regions.drawnIn (t : OwnText) (c : String) (r : Regions) : Regions := { r with postInit := t.before c ++ r.postInit }

namespace Hidden

variable {t : OwnText} {c : String} {r : Regions} (h : Hidden t c r)
include h

theorem recover (hc : t.Clear) (hs : t.Seamed) (body trailing : String) :
    Regions.recover (some (t.around r)) body trailing = r.drawnIn t c := by
  obtain ⟨a, hcut⟩ := h.begins
  have hpost := OwnText.enclosed?_postInit_within hc hs hcut
  have hreal : c ++ t.fromMiddle r = t.before c ++ r.postInit ++ Marker.postInitEnd ++ t.fromTail r :=
    OwnText.append_fromMiddle c t r
  rw [hreal, h.postInit_ends.cut] at hpost
  simp [Regions.recover, RegionTexts.restore, RegionTexts.find, OwnText.enclosed?_preInit hc hs h.preInit_ends, hpost,
    OwnText.cut?_endGenerated hc hs, Regions.drawnIn]

/-- The drawn text ends in a slash, and a marker that begins with it would have to go on with a star. -/
theorem step (hs : t.Seamed) : Hidden t c (r.drawnIn t c) where
  preInit_ends := h.preInit_ends
  begins := h.begins
  no_star := h.no_star
  postInit_ends := by
    have hlast : (t.before c).toList.getLast? = some '/' := by
      have hmark : Marker.postInitBegin.toList.getLast? = some '/' := by decide
      rw [OwnText.before, String.toList_append, List.getLast?_append, hmark, Option.some_or]
    have hhead : (t.before c ++ r.postInit ++ Marker.postInitEnd).toList.head? ≠ some '*' := by
      cases hfirst : c.toList.head? with
      | none => simp [OwnText.before, List.head?_append, hfirst, hs.middle_start]
      | some d => simpa [OwnText.before, List.head?_append, hfirst] using h.no_star
    exact .append_left (h.postInit_ends.not_occurs_left (by decide))
      (Marker.isComment_postInitEnd.not_straddles_after_slash hlast hhead) h.postInit_ends

theorem iterate (hs : t.Seamed) (n : ℕ) : Hidden t c ((Regions.drawnIn t c)^[n] r) := by
  induction n with
  | zero => exact h
  | succ n ih =>
    rw [Function.iterate_succ_apply']
    exact ih.step hs

end Hidden

theorem OwnText.length_around_drawnIn (t : OwnText) (c : String) (r : Regions) :
    (t.around r).length < (t.around (r.drawnIn t c)).length := by
  have hmark : 0 < Marker.postInitBegin.length := by decide
  simp only [around, Regions.drawnIn, before, String.length_append]
  omega

/-! ## A second run -/

section SecondRun

variable {config : Config} {m : Model} (hc : config.StarFree) (hm : m.StarFree) (p : Option String)
include hc

/-- The regions that a run on this text keeps. -/
abbrev keptRegions (config : Config) (p : Option String) : Regions :=
  Regions.recover p config.bodyPlaceholder config.trailingPlaceholder

omit hc in
theorem generate_eq_keptRegions (m : Model) : generate config m p = (ownText config m).around (keptRegions config p) :=
  generate_eq_around config m p

theorem keptRegions_ends :
    OnlyAtEnd Marker.preInitEnd (keptRegions config p).preInit ∧
      OnlyAtEnd Marker.postInitEnd (keptRegions config p).postInit := by
  have hbody : Text.StarFree config.bodyPlaceholder := by
    simp only [Config.bodyPlaceholder, placeholder, Text.starFree_append]
    have hi : Text.StarFree config.indent := hc _ (by simp [Config.texts])
    exact ⟨⟨⟨⟨⟨by decide, hi⟩, by decide⟩, hc _ (by simp [Config.texts])⟩, by decide⟩, hi⟩
  exact recover_ends p _ (Marker.isComment_preInitEnd.onlyAtEnd_of_starFree hbody)
    (Marker.isComment_postInitEnd.onlyAtEnd_of_starFree hbody)

include hm

theorem generate_again_eq_iff :
    generate config m (some (generate config m p)) = generate config m p
      ↔ Settled (ownText config m) (keptRegions config p) := by
  obtain ⟨hu, hv⟩ := keptRegions_ends hc p
  obtain ⟨hu', hv'⟩ := keptRegions_ends hc (some (generate config m p))
  calc
    generate config m (some (generate config m p)) = generate config m p
      ↔ (ownText config m).around (keptRegions config (some (generate config m p)))
          = (ownText config m).around (keptRegions config p) := by
          rw [← generate_eq_keptRegions, ← generate_eq_keptRegions]
    _ ↔ keptRegions config (some (generate config m p)) = keptRegions config p := OwnText.around_inj hu' hu hv' hv
    _ ↔ Settled (ownText config m) (keptRegions config p) := by
      rw [generate_eq_keptRegions]
      exact OwnText.recover_around_iff (ownText_clear hc hm) (ownText_seamed_of_starFree hc m) hu hv _ _

/-- Run by run all before the hidden region is drawn into it. -/
theorem generate_iterate_hidden {c : String} {r : Regions} (h : Hidden (ownText config m) c r) (n : ℕ) :
    (fun text => generate config m (some text))^[n] ((ownText config m).around r)
      = (ownText config m).around ((Regions.drawnIn (ownText config m) c)^[n] r) := by
  have hs := ownText_seamed_of_starFree hc m
  induction n with
  | zero => rfl
  | succ n ih =>
    rw [Function.iterate_succ_apply', Function.iterate_succ_apply', ih, generate_eq_keptRegions, keptRegions,
      (h.iterate hs n).recover (ownText_clear hc hm) hs]

/-- While the post-init region is hidden every run makes the file longer. -/
theorem generate_iterate_strictMono {c : String} (h : Hidden (ownText config m) c (keptRegions config p)) :
    StrictMono fun n => ((fun text => generate config m (some text))^[n] (generate config m p)).length := by
  refine strictMono_nat_of_lt_succ fun n => ?_
  simp only [generate_eq_keptRegions p, generate_iterate_hidden hc hm h, Function.iterate_succ_apply']
  exact OwnText.length_around_drawnIn _ _ _

/-- A second run leaves a file alone, and so does every later one, if and only if the regions of the first are
    settled. -/
theorem second_run_unchanged_iff :
    (generate config m (some (generate config m p)) = generate config m p
      ↔ Settled (ownText config m) (keptRegions config p)) ∧
    ((∃ run, OutputFile.regenerate config m (.text (generate config m p)) = .ok run ∧ run.outcome = .unchanged)
      ↔ Settled (ownText config m) (keptRegions config p)) ∧
    (Settled (ownText config m) (keptRegions config p) →
      ∀ n, (fun text => generate config m (some text))^[n] (generate config m p) = generate config m p) := by
  have h := generate_again_eq_iff hc hm p
  refine ⟨h, ?_, fun hs => Function.iterate_fixed (h.mpr hs)⟩
  rw [← h]
  constructor
  · rintro ⟨run, hrun, hunchanged⟩
    obtain rfl := Except.ok.inj hrun
    exact (Option.some.inj (Outcome.compare_eq_unchanged_iff.mp hunchanged)).symm
  · intro he
    exact ⟨_, rfl, Outcome.compare_eq_unchanged_iff.mpr (congrArg some he.symm)⟩

end SecondRun

/-- The regions the wrong way round, and no end of the second. -/
def swappedText : String :=
  "/* --- post-init-begin --- */ b /* --- post-init-end --- *//* --- pre-init-begin --- */ a "

theorem swapped_second_run_unchanged :
    ({} : Config).StarFree ∧ caveScene.StarFree ∧
      Settled (ownText {} caveScene) (keptRegions {} (some swappedText)) ∧
      generate {} caveScene (some (generate {} caveScene (some swappedText)))
        = generate {} caveScene (some swappedText) := by
  have hc : ({} : Config).StarFree := by decide
  have hs : Settled (ownText {} caveScene) (keptRegions {} (some swappedText)) :=
    Settled.of_not_occurs (by decide +kernel)
  exact ⟨hc, caveScene_starFree, hs, (second_run_unchanged_iff hc caveScene_starFree _).1.mpr hs⟩

def emptyCave : Model := { settings := { className := "Cave" } }

/-- A begin marker of the post-init region within the pre-init region. -/
def pastedText : String :=
  "/* --- pre-init-begin --- *//* --- post-init-begin --- *//* --- pre-init-end --- */ /* --- post-init-end --- */"

/-- The second run grows the file, and so does each later one. -/
theorem a_pasted_marker_grows_the_file :
    ({} : Config).StarFree ∧ emptyCave.StarFree ∧
      generate {} emptyCave (some (generate {} emptyCave (some pastedText)))
        ≠ generate {} emptyCave (some pastedText) ∧
      (generate {} emptyCave (some pastedText)).length
        < (generate {} emptyCave (some (generate {} emptyCave (some pastedText)))).length ∧
      StrictMono fun n =>
        ((fun text => generate {} emptyCave (some text))^[n] (generate {} emptyCave (some pastedText))).length := by
  have hc : ({} : Config).StarFree := by decide
  have hm : emptyCave.StarFree := by decide
  have hkept : keptRegions {} (some pastedText)
      = ⟨Marker.postInitBegin, Marker.preInitEnd ++ " ", ({} : Config).trailingPlaceholder⟩ := by decide +kernel
  have hmiddle : (ownText {} emptyCave).middle = "\n\n\n\t" := by decide +kernel
  have hhidden : Hidden (ownText {} emptyCave) Marker.preInitEnd (keptRegions {} (some pastedText)) := by
    rw [hkept]
    refine ⟨by decide +kernel, ⟨Marker.preInitBegin, ?_⟩, by decide, ?_⟩
    · exact OnlyAtEnd.cut (by decide +kernel) _
    · rw [OwnText.before, hmiddle]
      decide +kernel
  have hgrows := generate_iterate_strictMono hc hm (some pastedText) hhidden
  have hlength := hgrows Nat.zero_lt_one
  exact ⟨hc, hm, fun he => absurd hlength (by simp [he]), hlength, hgrows⟩

end SceneScript
