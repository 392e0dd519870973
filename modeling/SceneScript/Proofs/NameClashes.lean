/-
  SceneScript.Proofs.NameClashes — when two variables or fields have one name.

  An object is named by its name and each of its animations by that name, an underscore
  and the animation's name; a field is such a name with its first character in upper
  case. Nothing keeps these apart: distinct objects with distinct animations can still
  meet, as the walk of `hero` and an object `hero_walk` do (`a_walk_meets_an_object`).

  Proved: that is all that can happen. The names of an object and of its animations are
  a `NameFamily`, and two families meet exactly if they `Clash`: one name goes on from
  the other by an underscore, and the rest of it is an animation of the other
  (`disjoint_names_iff`). So the variables of a scene are distinct exactly if no two live
  objects clash in this way, and so are the fields, with the names in upper case
  (`distinct_unless_names_clash`).
-/
import SceneScript.Proofs.PublicVariables

namespace SceneScript

/-! ## Families of names -/

/-- A name, taken itself or not, and the parts that are named after it. -/
structure NameFamily where
  root : String
  taken : Bool
  parts : List String

namespace NameFamily

variable {f g : NameFamily}

def names (f : NameFamily) : List String :=
  (if f.taken then [f.root] else []) ++ f.parts.map (Naming.animationVariable f.root)

/-- One name, taken twice, or with one part twice. -/
def Shares (f g : NameFamily) : Prop :=
  f.root = g.root ∧ ((f.taken = true ∧ g.taken = true) ∨ ∃ part ∈ f.parts, part ∈ g.parts)

/-- The name of `g` goes on from that of `f`, and the rest is a part of `f`, alone or with a part of `g`. -/
def Extends (f g : NameFamily) : Prop :=
  ∃ rest, g.root = f.root ++ "_" ++ rest ∧
    ((g.taken = true ∧ rest ∈ f.parts) ∨ ∃ part ∈ g.parts, rest ++ "_" ++ part ∈ f.parts)

def Clash (f g : NameFamily) : Prop := Shares f g ∨ Extends f g ∨ Extends g f

theorem mem_names {name : String} :
    name ∈ f.names ↔ (f.taken = true ∧ name = f.root) ∨ ∃ part ∈ f.parts, name = f.root ++ "_" ++ part := by
  unfold names Naming.animationVariable
  by_cases ht : f.taken = true <;> simp [ht, eq_comm]

theorem root_ne_part {root part : String} : root ≠ root ++ "_" ++ part := fun h => by
  have := congrArg String.length h
  have hunderscore : "_".length = 1 := rfl
  simp only [String.length_append, hunderscore] at this
  omega

/-- Two names with parts are equal only if one name goes on from the other. -/
theorem append_part_eq {root root' part part' : String} (h : root ++ "_" ++ part = root' ++ "_" ++ part') :
    (root = root' ∧ part = part') ∨ (∃ rest, root' = root ++ "_" ++ rest ∧ part = rest ++ "_" ++ part') ∨
      ∃ rest, root = root' ++ "_" ++ rest ∧ part' = rest ++ "_" ++ part := by
  have hchars : root.toList ++ '_' :: part.toList = root'.toList ++ '_' :: part'.toList := by
    simpa using congrArg String.toList h
  rcases List.append_eq_append_iff.mp hchars with ⟨t, hroot, hpart⟩ | ⟨t, hroot, hpart⟩
  · cases t with
    | nil => exact .inl ⟨String.toList_injective (by simpa using hroot.symm), String.toList_injective (by simpa using hpart)⟩
    | cons c t =>
      obtain ⟨rfl, hpart⟩ := List.cons.inj hpart
      exact .inr (.inl ⟨String.ofList t, String.toList_injective (by simpa using hroot),
        String.toList_injective (by simpa using hpart)⟩)
  · cases t with
    | nil =>
      exact .inl ⟨String.toList_injective (by simpa using hroot), String.toList_injective (by simpa using hpart.symm)⟩
    | cons c t =>
      obtain ⟨rfl, hpart⟩ := List.cons.inj hpart
      exact .inr (.inr ⟨String.ofList t, String.toList_injective (by simpa using hroot),
        String.toList_injective (by simpa using hpart)⟩)

/-- A family that another extends has a name of it. -/
theorem Extends.common (h : Extends f g) : ∃ name ∈ f.names, name ∈ g.names := by
  obtain ⟨rest, hroot, ⟨hg, hrest⟩ | ⟨part, hpart, hrest⟩⟩ := h
  · exact ⟨g.root, mem_names.mpr (.inr ⟨rest, hrest, hroot⟩), mem_names.mpr (.inl ⟨hg, rfl⟩)⟩
  · refine ⟨g.root ++ "_" ++ part, mem_names.mpr (.inr ⟨_, hrest, ?_⟩), mem_names.mpr (.inr ⟨part, hpart, rfl⟩)⟩
    simp only [hroot, String.append_assoc]

/-- Families have a name in common exactly if they clash. -/
theorem disjoint_names_iff : f.names.Disjoint g.names ↔ ¬ Clash f g := by
  constructor
  · rintro hd (⟨hroot, ⟨hf, hg⟩ | ⟨part, hf, hg⟩⟩ | h | h)
    · exact hd (mem_names.mpr (.inl ⟨hf, rfl⟩)) (mem_names.mpr (.inl ⟨hg, hroot⟩))
    · exact hd (mem_names.mpr (.inr ⟨part, hf, rfl⟩)) (mem_names.mpr (.inr ⟨part, hg, by rw [hroot]⟩))
    · obtain ⟨name, hf, hg⟩ := h.common
      exact hd hf hg
    · obtain ⟨name, hg, hf⟩ := h.common
      exact hd hf hg
  · intro hc name hnf hng
    apply hc
    rcases mem_names.mp hnf with ⟨hf, rfl⟩ | ⟨part, hf, rfl⟩
    · rcases mem_names.mp hng with ⟨hg, hroot⟩ | ⟨part, hg, hroot⟩
      · exact .inl ⟨hroot, .inl ⟨hf, hg⟩⟩
      · exact .inr (.inr ⟨part, hroot, .inl ⟨hf, hg⟩⟩)
    · rcases mem_names.mp hng with ⟨hg, hroot⟩ | ⟨part', hg, hname⟩
      · exact .inr (.inl ⟨part, hroot.symm, .inl ⟨hg, hf⟩⟩)
      · rcases append_part_eq hname with ⟨hroot, rfl⟩ | ⟨rest, hroot, rfl⟩ | ⟨rest, hroot, rfl⟩
        · exact .inl ⟨hroot, .inr ⟨part, hf, hg⟩⟩
        · exact .inr (.inl ⟨rest, hroot, .inr ⟨part', hg, hf⟩⟩)
        · exact .inr (.inr ⟨rest, hroot, .inr ⟨part, hf, hg⟩⟩)

theorem nodup_names (h : f.parts.Nodup) : f.names.Nodup := by
  refine List.Nodup.append (by split <;> simp) (h.map fun a b hab => ?_) fun name hroot hpart => ?_
  · exact String.append_right_inj _ |>.mp hab
  · obtain ⟨part, -, rfl⟩ := List.mem_map.mp hpart
    split at hroot
    · exact root_ne_part (List.mem_singleton.mp hroot).symm
    · simp at hroot

/-- Distinct parts make distinct names, unless families clash. -/
theorem nodup_flatMap_names {α : Type} {family : α → NameFamily} {xs : List α}
    (h : ∀ x ∈ xs, (family x).parts.Nodup) :
    (xs.flatMap fun x => (family x).names).Nodup ↔ xs.Pairwise fun x y => ¬ Clash (family x) (family y) := by
  rw [List.nodup_flatMap, and_iff_right fun x hx => nodup_names (h x hx)]
  exact List.Pairwise.iff fun _ _ => disjoint_names_iff

end NameFamily

/-! ## Fields -/

/-- A name with its first character in upper case. -/
def Naming.capitalized (name : String) : String :=
  match name.toList with
  | [] => ""
  | c :: rest => String.ofList (Text.upperCase c ++ rest)

theorem Naming.fieldName_eq (name : String) : Naming.fieldName name = "f" ++ Naming.capitalized name := by
  unfold fieldName capitalized
  cases name.toList with
  | nil => rfl
  | cons c rest => exact String.toList_injective (by simp)

/-- An underscore has no upper case, so a name without characters is no exception. -/
theorem Naming.capitalized_part (name part : String) :
    Naming.capitalized (name ++ "_" ++ part) = Naming.capitalized name ++ "_" ++ part := by
  have hunderscore : Text.upperCase '_' = ['_'] := by decide +kernel
  apply String.toList_injective
  unfold capitalized
  cases hname : name.toList with
  | nil => simp [hname, hunderscore]
  | cons c rest => simp [hname]

/-! ## The names of a scene -/

/-- The variables that the statements of a scene declare. -/
def Model.declaredNames (m : Model) : List String := m.objectStatements.filterMap Statement.declared?

namespace Nested

/-- The variables of an object. -/
def variableFamily (kind : SceneKind) (n : Nested) : NameFamily where
  root := n.object.info.name
  taken := n.object.declares (n.place kind).cx
  parts := (n.object.animations.filter (·.hasVariable)).map (·.name)

/-- The fields of an object, without the letter that they begin with. -/
def fieldFamily (n : Nested) : NameFamily where
  root := Naming.capitalized n.object.info.name
  taken := n.object.info.isPublic
  parts := (n.object.animations.filter (·.isPublic)).map (·.name)

end Nested

theorem declaredNames_eq (m : Model) :
    m.declaredNames = m.live.flatMap fun n => (n.variableFamily m.settings.kind).names := by
  rw [Model.declaredNames, filterMap_declared_objectStatements, placed_eq_live, List.flatMap_map]
  refine List.flatMap_congr fun n _ => ?_
  simp only [SceneObject.declaredNames, NameFamily.names, Nested.variableFamily, List.map_map]
  rfl

theorem map_fieldName_publicFields (m : Model) :
    (m.publicFields.map fun f => Naming.fieldName f.variableName)
      = (m.live.flatMap fun n => n.fieldFamily.names).map ("f" ++ ·) := by
  have hone : ∀ o : SceneObject, o.publicNames.map Naming.fieldName
      = ((if o.info.isPublic then [Naming.capitalized o.info.name] else [])
          ++ ((o.animations.filter (·.isPublic)).map (·.name)).map
            (Naming.animationVariable (Naming.capitalized o.info.name))).map ("f" ++ ·) := by
    intro o
    have hpart : ∀ a : Animation, Naming.fieldName (o.info.name ++ "_" ++ a.name)
        = "f" ++ (Naming.capitalized o.info.name ++ "_" ++ a.name) := fun a => by
      rw [Naming.fieldName_eq, Naming.capitalized_part]
    unfold SceneObject.publicNames
    by_cases hp : o.info.isPublic = true <;>
      simp [hp, hpart, Naming.fieldName_eq, Naming.animationVariable, Function.comp_def]
  calc m.publicFields.map (fun f => Naming.fieldName f.variableName)
      = (m.publicFields.map (·.variableName)).map Naming.fieldName := by rw [List.map_map]; rfl
    _ = m.live.flatMap fun n => n.object.publicNames.map Naming.fieldName := by
      rw [map_publicFields, Model.publicNames, List.map_flatMap]
      rfl
    _ = _ := by
      rw [List.map_flatMap]
      exact List.flatMap_congr fun n _ => hone n.object

section Distinct

variable {m : Model} (ha : ∀ n ∈ m.live, (n.object.animations.map (·.name)).Nodup)
include ha

theorem nodup_animation_parts (keep : Animation → Bool) :
    ∀ n ∈ m.live, ((n.object.animations.filter keep).map (·.name)).Nodup := fun n hn =>
  (ha n hn).sublist (List.Sublist.map _ List.filter_sublist)

theorem nodup_declaredNames :
    m.declaredNames.Nodup
      ↔ m.live.Pairwise fun a b => ¬ (a.variableFamily m.settings.kind).Clash (b.variableFamily m.settings.kind) := by
  rw [declaredNames_eq]
  exact NameFamily.nodup_flatMap_names (nodup_animation_parts ha _)

theorem nodup_fieldNames :
    (m.publicFields.map fun f => Naming.fieldName f.variableName).Nodup
      ↔ m.live.Pairwise fun a b => ¬ a.fieldFamily.Clash b.fieldFamily := by
  have hinj : Function.Injective ("f" ++ ·) := fun _ _ h => String.append_right_inj _ |>.mp h
  rw [map_fieldName_publicFields, List.nodup_map_iff hinj]
  exact NameFamily.nodup_flatMap_names (nodup_animation_parts ha _)

end Distinct

/-! ## Names that go on from others -/

/-- In a scene whose objects have distinct names, each with distinct animations, the variables that are declared are
    distinct exactly if no name goes on from another to one of its animations; a field has the same name as another
    only for the same reason, after the first characters are put in upper case, or because that makes names equal. -/
theorem distinct_unless_names_clash (m : Model) (hn : (m.live.map (·.object.info.name)).Nodup)
    (ha : ∀ n ∈ m.live, (n.object.animations.map (·.name)).Nodup) :
    (∃ lines, lines.Sublist m.objectLines ∧ List.Forall₂ Declares m.declaredNames lines) ∧
      (m.declaredNames.Nodup ↔ m.live.Pairwise fun a b =>
        ¬ (a.variableFamily m.settings.kind).Extends (b.variableFamily m.settings.kind) ∧
          ¬ (b.variableFamily m.settings.kind).Extends (a.variableFamily m.settings.kind)) ∧
      ((m.publicFields.map fun f => Naming.fieldName f.variableName).Nodup ↔
        m.live.Pairwise fun a b => ¬ a.fieldFamily.Clash b.fieldFamily) := by
  refine ⟨lines_of_declared_sublist (List.Sublist.refl _), ?_, nodup_fieldNames ha⟩
  rw [nodup_declaredNames ha]
  have hroot : m.live.Pairwise fun a b => a.object.info.name ≠ b.object.info.name := List.pairwise_map.mp hn
  refine ⟨fun h => h.imp fun hc => ⟨fun he => hc (.inr (.inl he)), fun he => hc (.inr (.inr he))⟩, fun h => ?_⟩
  refine (h.and hroot).imp ?_
  rintro a b ⟨⟨hab, hba⟩, hne⟩ (⟨heq, -⟩ | he | he)
  · exact hne heq
  · exact hab he
  · exact hba he

/-- Two that walk, in a scene with nothing to confuse them. -/
def heroAndHeroine : Model where
  settings := { className := "Cave" }
  world := ["hero", "heroine"].map fun name => .sprite .image {
    info := { name, isPublic := true }
    texture := .image "hero"
    sprite := { animations := [{ name := "walk", frames := [], isPublic := true }] } }

theorem heroAndHeroine_names_distinct :
    (heroAndHeroine.live.map (·.object.info.name)).Nodup ∧
      (∀ n ∈ heroAndHeroine.live, (n.object.animations.map (·.name)).Nodup) ∧
      (heroAndHeroine.live.Pairwise fun a b => ¬ a.fieldFamily.Clash b.fieldFamily) ∧
      heroAndHeroine.declaredNames.Nodup := by
  have hn : (heroAndHeroine.live.map (·.object.info.name)).Nodup := by decide +kernel
  have ha : ∀ n ∈ heroAndHeroine.live, (n.object.animations.map (·.name)).Nodup := by decide +kernel
  have hd : heroAndHeroine.declaredNames.Nodup := by decide +kernel
  exact ⟨hn, ha, (distinct_unless_names_clash heroAndHeroine hn ha).2.2.mp (by decide +kernel), hd⟩

/-- A hero that walks, an object called like the walk, and one called like the hero in upper case. -/
def heroAndNamesakes : Model where
  settings := { className := "Cave" }
  world := ["hero", "hero_walk", "Hero"].map fun name => .sprite .image {
    info := { name, isPublic := true }
    texture := .image "hero"
    sprite := { animations := if name = "hero" then [{ name := "walk", frames := [], isPublic := true }] else [] } }

/-- Objects and animations with distinct names still meet, as variables and as fields. -/
theorem a_walk_meets_an_object :
    (heroAndNamesakes.live.map (·.object.info.name)).Nodup ∧
      (∀ n ∈ heroAndNamesakes.live, (n.object.animations.map (·.name)).Nodup) ∧
      ¬ heroAndNamesakes.declaredNames.Nodup ∧
      ¬ (heroAndNamesakes.publicFields.map fun f => Naming.fieldName f.variableName).Nodup := by
  have hdeclared : heroAndNamesakes.declaredNames = ["hero", "hero_walk", "hero_walk", "Hero"] := by decide +kernel
  have hfields : (heroAndNamesakes.publicFields.map fun f => Naming.fieldName f.variableName)
      = ["fHero", "fHero_walk", "fHero_walk", "fHero"] := by decide +kernel
  rw [hdeclared, hfields]
  decide +kernel

end SceneScript
