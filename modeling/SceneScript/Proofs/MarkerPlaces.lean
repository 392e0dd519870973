/-
  SceneScript.Proofs.MarkerPlaces — every place of a script where a marker stands.

  A script is its own text around three blocks: each region inside the code with its two
  markers, and the last marker with the trailing region. What people write into a region
  may hold any marker, or make one with the marker beside it (each begins and ends with a
  slash); such a marker still lies within the block.

  Proved: with a configuration and a scene without stars there is no other marker. None
  stands in the own text or is made by it and a marker beside it, so the places of a
  marker in the script are its places in the blocks (`no_marker_by_accident`). A slash is
  allowed everywhere, in the indent too: it makes no marker without the star beside it.
-/
import SceneScript.Proofs.Regeneration

namespace SceneScript

open Text (Occurs Straddles)

namespace Text

/-! ## Places -/

/-- In `s` there is a `mark` just after `a`. -/
def StandsAfter (a mark s : String) : Prop := ∃ b, s = a ++ mark ++ b

variable {a mark x y : String}

theorem occurs_of_standsAfter (h : StandsAfter a mark x) : Occurs mark x := by
  obtain ⟨b, rfl⟩ := h
  exact ((occurs_self mark).append_left a).append_right b

/-- Where no mark crosses the seam of two texts, a mark stands in one of them. -/
theorem standsAfter_append_iff (hs : ¬ Straddles mark x y) :
    StandsAfter a mark (x ++ y) ↔ StandsAfter a mark x ∨ ∃ a', a = x ++ a' ∧ StandsAfter a' mark y := by
  constructor
  · rintro ⟨b, h⟩
    rcases Nat.le_total (a ++ mark).length x.length with hend | hend
    · obtain ⟨t, rfl, -⟩ := exists_of_append_eq_append h hend
      exact .inl ⟨t, rfl⟩
    · rcases Nat.le_total x.length a.length with hstart | hstart
      · rw [String.append_assoc] at h
        obtain ⟨a', rfl, rfl⟩ := exists_of_append_eq_append h.symm hstart
        exact .inr ⟨a', rfl, b, by rw [String.append_assoc]⟩
      · -- the mark begins in `x` or just after it, and does not end before `x` does
        obtain ⟨q, hq, rfl⟩ := exists_of_append_eq_append h.symm hend
        rw [String.append_assoc] at h
        obtain ⟨p, rfl, -⟩ := exists_of_append_eq_append h hstart
        obtain rfl : mark = p ++ q := by
          rwa [String.append_assoc, String.append_right_inj] at hq
        by_cases hp : p = ""
        · subst hp
          exact .inr ⟨"", by simp, b, by simp⟩
        · by_cases hq : q = ""
          · subst hq
            exact .inl ⟨"", by simp⟩
          · exact absurd ⟨p.toList, q.toList, by simpa using hp, by simpa using hq, String.toList_append,
              by simp, by simp⟩ hs
  · rintro (⟨t, rfl⟩ | ⟨a', rfl, b, rfl⟩)
    · exact ⟨t ++ y, by simp only [String.append_assoc]⟩
    · exact ⟨b, by simp only [String.append_assoc]⟩

/-- A text without the mark moves the places of the mark, unless it makes one with what follows. -/
theorem standsAfter_append_iff_of_not_occurs (hx : ¬ Occurs mark x) (hs : ¬ Straddles mark x y) :
    StandsAfter a mark (x ++ y) ↔ ∃ a', a = x ++ a' ∧ StandsAfter a' mark y := by
  rw [standsAfter_append_iff hs]
  exact or_iff_right fun h => hx (occurs_of_standsAfter h)

end Text

/-! ## The blocks of a script -/

/-- The post-init region between its markers. -/
def Regions.postInitBlock (r : Regions) : String := Marker.postInitBegin ++ r.postInit ++ Marker.postInitEnd

/-- The trailing region after the last marker. -/
def Regions.trailingBlock (r : Regions) : String := Marker.endGenerated ++ r.trailing

namespace OwnText

open Text (StandsAfter standsAfter_append_iff standsAfter_append_iff_of_not_occurs)

/-- No piece of the own text makes a marker with the marker beside it. -/
structure Apart (t : OwnText) (mark : String) : Prop where
  head_preInitBegin : ¬ Straddles mark t.head Marker.preInitBegin
  preInitEnd_middle : ¬ Straddles mark Marker.preInitEnd t.middle
  middle_postInitBegin : ¬ Straddles mark t.middle Marker.postInitBegin
  postInitEnd_tail : ¬ Straddles mark Marker.postInitEnd t.tail
  tail_endGenerated : ¬ Straddles mark t.tail Marker.endGenerated

/-- The places of a mark in the blocks, said by what stands before them in the script. -/
inductive InBlock (t : OwnText) (r : Regions) (mark : String) : String → Prop
  | preInit {x : String} : StandsAfter x mark r.preInitBlock → InBlock t r mark (t.head ++ x)
  | postInit {x : String} : StandsAfter x mark r.postInitBlock →
      InBlock t r mark (t.head ++ r.preInitBlock ++ t.middle ++ x)
  | trailing {x : String} : StandsAfter x mark r.trailingBlock →
      InBlock t r mark (t.head ++ r.preInitBlock ++ t.middle ++ r.postInitBlock ++ t.tail ++ x)

variable {t : OwnText} {mark : String}

theorem around_eq_blocks (t : OwnText) (r : Regions) :
    t.around r = t.head ++ (r.preInitBlock ++ (t.middle ++ (r.postInitBlock ++ (t.tail ++ r.trailingBlock)))) := by
  simp only [around, Regions.preInitBlock, Regions.postInitBlock, Regions.trailingBlock, String.append_assoc]

theorem Seamed.apart (hs : t.Seamed) (hm : mark ∈ Marker.all) : t.Apart mark := by
  have hc := Marker.isComment_of_mem hm
  exact {
    head_preInitBegin := hc.not_straddles_slash hs.head_end Marker.isComment_preInitBegin.head_slash
    preInitEnd_middle := hc.not_straddles_newline hs.middle_start _
    middle_postInitBegin := hc.not_straddles_slash hs.middle_end Marker.isComment_postInitBegin.head_slash
    postInitEnd_tail := hc.not_straddles_newline hs.tail_start _
    tail_endGenerated := hc.not_straddles_slash hs.tail_end Marker.isComment_endGenerated.head_slash }

theorem postInitBlock_head (r : Regions) (s : String) : (r.postInitBlock ++ s).toList.head? = some '/' := by
  simp [Regions.postInitBlock, List.head?_append, Marker.isComment_postInitBegin.head_slash]

theorem trailingBlock_head (r : Regions) : r.trailingBlock.toList.head? = some '/' := by
  simp [Regions.trailingBlock, List.head?_append, Marker.isComment_endGenerated.head_slash]

/-- A marker stands in the blocks of a script and nowhere else. -/
theorem standsAfter_around_iff (hc : t.Clear) (hs : t.Seamed) (hm : mark ∈ Marker.all) (r : Regions) (a : String) :
    StandsAfter a mark (t.around r) ↔ t.InBlock r mark a := by
  obtain ⟨hhead, hmiddle, htail⟩ := hc mark hm
  have hcomment := Marker.isComment_of_mem hm
  -- from the end of the script to its start, one seam after another
  have h₅ (a : String) := standsAfter_append_iff_of_not_occurs (a := a) htail
    (hcomment.not_straddles_slash hs.tail_end (trailingBlock_head r))
  have h₄ (a : String) := standsAfter_append_iff (a := a)
    (hcomment.not_straddles_newline (StartsLine.append hs.tail_start r.trailingBlock) r.postInitBlock)
  have h₃ (a : String) := standsAfter_append_iff_of_not_occurs (a := a) hmiddle
    (hcomment.not_straddles_slash hs.middle_end (postInitBlock_head r (t.tail ++ r.trailingBlock)))
  have h₂ (a : String) := standsAfter_append_iff (a := a)
    (hcomment.not_straddles_newline
      (StartsLine.append hs.middle_start (r.postInitBlock ++ (t.tail ++ r.trailingBlock))) r.preInitBlock)
  have h₁ (a : String) := standsAfter_append_iff_of_not_occurs (a := a) hhead
    (hcomment.not_straddles_slash hs.head_end
      (preInitBlock_head r (t.middle ++ (r.postInitBlock ++ (t.tail ++ r.trailingBlock)))))
  simp only [around_eq_blocks, h₁, h₂, h₃, h₄, h₅]
  constructor
  · rintro ⟨_, rfl, hpre | ⟨_, rfl, _, rfl, hpost | ⟨_, rfl, _, rfl, hlast⟩⟩⟩
    · exact .preInit hpre
    · simpa only [String.append_assoc] using InBlock.postInit (t := t) hpost
    · simpa only [String.append_assoc] using InBlock.trailing (t := t) hlast
  · rintro (hpre | @⟨x, hpost⟩ | @⟨x, hlast⟩)
    · exact ⟨_, rfl, .inl hpre⟩
    · exact ⟨_, by simp only [String.append_assoc], .inr ⟨_, rfl, x, rfl, .inl hpost⟩⟩
    · exact ⟨_, by simp only [String.append_assoc], .inr ⟨_, rfl, _, rfl, .inr ⟨_, rfl, x, rfl, hlast⟩⟩⟩

end OwnText

/-! ## No marker by accident -/

/-- Whatever the regions hold, a script of a configuration and a scene without stars has no marker in its own text and
    none across a piece of it and a marker beside it: a marker stands in the three blocks and nowhere else. -/
theorem no_marker_by_accident {config : Config} {m : Model} (hc : config.StarFree) (hm : m.StarFree) :
    (ownText config m).Clear ∧ (∀ mark ∈ Marker.all, (ownText config m).Apart mark) ∧
      (∀ r, scriptText config m r = (ownText config m).around r ∧
        ∀ mark ∈ Marker.all, ∀ a,
          Text.StandsAfter a mark (scriptText config m r) ↔ (ownText config m).InBlock r mark a) ∧
      ∀ p, generate config m p = scriptText config m (Regions.recover p config.bodyPlaceholder
        config.trailingPlaceholder) := by
  have hclear := ownText_clear hc hm
  have hseamed := ownText_seamed_of_starFree hc m
  refine ⟨hclear, fun mark hmark => hseamed.apart hmark, fun r => ⟨scriptText_eq_around config m r, ?_⟩, fun _ => rfl⟩
  intro mark hmark a
  rw [scriptText_eq_around]
  exact OwnText.standsAfter_around_iff hclear hseamed hmark r a

def slashedConfig : Config where
  productName := "/ --- pre-init-begin --- /"
  indent := " /"
  placeholderMessage := "/"

/-- A state whose texts are markers without their stars. -/
def slashedHall : Model where
  settings := {
    className := "/ --- pre-init-end --- /"
    kind := .state
    stageBackgroundColor := some "/"
    preloadSections := ["/ --- post-init-begin --- /"] }
  world := [.sprite .image {
    info := { name := "/ --- post-init-end --- /", isPublic := true }
    texture := .image "/"
    sprite := { data := some "/\n --- end generated code --- /" } }]

theorem slashedHall_has_no_accidental_marker :
    slashedConfig.StarFree ∧ slashedHall.StarFree ∧ (ownText slashedConfig slashedHall).Clear ∧
      (∀ mark ∈ Marker.all, (ownText slashedConfig slashedHall).Apart mark) ∧
      ∀ mark ∈ Marker.all, ∀ a, Text.StandsAfter a mark (scriptText slashedConfig slashedHall nestedRegions)
        ↔ (ownText slashedConfig slashedHall).InBlock nestedRegions mark a := by
  have hc : slashedConfig.StarFree := by decide
  have hm : slashedHall.StarFree := by decide
  obtain ⟨hclear, hapart, hplaces, -⟩ := no_marker_by_accident hc hm
  exact ⟨hc, hm, hclear, hapart, (hplaces nestedRegions).2⟩

end SceneScript
