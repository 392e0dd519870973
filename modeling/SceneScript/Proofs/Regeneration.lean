/-
  SceneScript.Proofs.Regeneration — what a script keeps when it is made again.

  Proved: a run writes its own text around the regions that it recovers, and nothing
  else; a script whose own text is clear gives its regions back as they are, loses none,
  and so forgets the scene that it was made from: making it from a second scene gives
  what the second scene alone would have given (`regeneration_keeps_regions`).
-/
import SceneScript.Proofs.OwnText

namespace SceneScript

open Text (Occurs OnlyAtEnd Straddles)

/-! ## Making a script again -/

/-- What a run writes is its own text around the regions it recovers. A script gives its regions back as they are, and
    none counts as lost. Made again from another scene, it is the script that this scene would have given at once. -/
theorem regeneration_keeps_regions (config : Config) (hi : Text.isBlank config.indent = true) :
    (∀ (m : Model) (p : Option String), generate config m p
      = (ownText config m).around (Regions.recover p config.bodyPlaceholder config.trailingPlaceholder)) ∧
    (∀ (m : Model) (r : Regions), (ownText config m).Clear → r.Findable →
      scriptText config m r = (ownText config m).around r ∧
        RegionTexts.find (scriptText config m r) = ⟨some r.preInit, some r.postInit, some r.trailing⟩ ∧
        (∀ body trailing, Regions.recover (some (scriptText config m r)) body trailing = r) ∧
        Regions.lost (some (scriptText config m r)) = []) ∧
      ∀ (m₁ m₂ : Model) (p : Option String), (ownText config m₁).Clear → (ownText config m₂).Clear →
        (Regions.recover p config.bodyPlaceholder config.trailingPlaceholder).Findable →
        generate config m₂ (some (generate config m₁ p)) = generate config m₂ p := by
  refine ⟨generate_eq_around config, ?_, ?_⟩
  · intro m r hc hr
    have hs := ownText_seamed_of_isBlank hi m
    rw [scriptText_eq_around]
    exact ⟨rfl, OwnText.find_around hc hs hr, OwnText.recover_around hc hs hr, OwnText.lost_around hc hs hr⟩
  · intro m₁ m₂ p h₁ _ hr
    have hs := ownText_seamed_of_isBlank hi m₁
    rw [generate, generate_eq_around config m₁, OwnText.recover_around h₁ hs hr]
    rfl

/-- A state with a picture that the game refers to. -/
def skyScene : Model where
  settings := { className := "Sky", kind := .state }
  world := [.sprite .image { info := { name := "sun", isPublic := true }, texture := .image "sun" }]

theorem skyScene_starFree : skyScene.StarFree := by decide

/-- A group of bats. -/
def caveScene : Model where
  settings := { className := "Cave" }
  world := [.group { name := "bats" }
    [.sprite .atlas { info := { name := "bat" }, texture := .atlasFrame "bats" "fly" }] {}]

theorem caveScene_starFree : caveScene.StarFree := by decide

/-- Regions that hold markers of each other. -/
def nestedRegions : Regions where
  preInit := "\n/* --- pre-init-begin --- */\n"
  postInit := " /* --- pre-init-end --- */ /* --- end generated code --- */ "
  trailing := "/* --- post-init-begin --- */"

theorem regeneration_keeps_nestedRegions :
    Text.isBlank ({} : Config).indent = true ∧ (ownText {} skyScene).Clear ∧ (ownText {} caveScene).Clear ∧
      nestedRegions.Findable ∧
      generate {} caveScene (some (scriptText {} skyScene nestedRegions)) = (ownText {} caveScene).around nestedRegions ∧
      RegionTexts.find (scriptText {} skyScene nestedRegions)
        = ⟨some nestedRegions.preInit, some nestedRegions.postInit, some nestedRegions.trailing⟩ ∧
      generate {} caveScene (some (generate {} skyScene (some (scriptText {} skyScene nestedRegions))))
        = generate {} caveScene (some (scriptText {} skyScene nestedRegions)) := by
  have hi : Text.isBlank ({} : Config).indent = true := by decide
  have hsky : (ownText {} skyScene).Clear := ownText_clear (by decide) skyScene_starFree
  have hcave : (ownText {} caveScene).Clear := ownText_clear (by decide) caveScene_starFree
  have hr : nestedRegions.Findable := by decide +kernel
  obtain ⟨haround, hkept, hforgets⟩ := regeneration_keeps_regions {} hi
  obtain ⟨-, hfind, hrecover, -⟩ := hkept skyScene nestedRegions hsky hr
  refine ⟨hi, hsky, hcave, hr, ?_, hfind, hforgets skyScene caveScene _ hsky hcave (by rwa [hrecover])⟩
  rw [haround, hrecover]

end SceneScript
