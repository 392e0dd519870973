/-
  SceneScript.Proofs.EngineDefaults — what a script leaves unsaid.

  A script sets only the properties that differ from the engine's defaults. What it leaves
  out must not be missed: here an object is a map from the paths of its properties to what
  stands there, one component or two, and a statement that assigns or sets a property
  writes into it. A `Slot` is an entry of the tables for one object: its path, what the
  engine puts there, what the scene wants there, and whether these differ in value.

  Proved, for every object in every context (`suppressed_defaults_are_kept`):
  - no two slots of an object have one path, and the writes are those of the slots that
    differ, in the order of the tables, so none comes twice;
  - each write is one line, and from that line its path and values are read back
    (`WriteLines`);
  - run on an object as the engine makes it, the writes leave in each slot what the scene
    wants, and nothing else changes.

  Both rest on one fact, that values that do not differ are written alike
  (`Slot.settled`); the two zeros are the only case where they are not the same value.
  That an entry reads the value that its path names, has as its default what a scene holds
  that says nothing, and is in whole pixels only if it is a position, is checked against
  the fields by which scenes are read (`TablesNameFields`).
-/
import Mathlib.Logic.Function.Basic
import SceneScript.Proofs.DoubleGrid
import SceneScript.Proofs.ObjectBlock
import SceneScript.Proofs.WriteLines

namespace SceneScript

/-! ## Values that do not differ -/

namespace Double

theorem toRat_eq_zero_iff {d : Double} : d.toRat = 0 ↔ d.isZero = true := by
  have hsign : d.toRat = 0 ↔ d.magnitude = 0 := by
    unfold toRat
    split <;> simp
  rw [hsign, isZero, beq_iff_eq]
  refine ⟨fun h => ?_, fun h => by simp [magnitude, h]⟩
  by_contra hm
  exact (magnitude_pos hm).ne' h

/-- Two doubles denote one rational only if they are one or both are zeros. -/
theorem same_iff {a b : Double} : a.same b = true ↔ a.toRat = b.toRat := by
  rw [same, Bool.or_eq_true, Bool.and_eq_true, decide_eq_true_eq]
  constructor
  · rintro (rfl | ⟨ha, hb⟩)
    · rfl
    · rw [toRat_eq_zero_iff.mpr ha, toRat_eq_zero_iff.mpr hb]
  · intro h
    by_cases ha : a.isZero = true
    · exact .inr ⟨ha, toRat_eq_zero_iff.mp (h ▸ toRat_eq_zero_iff.mpr ha)⟩
    · left
      have hb : ¬ b.isZero = true := fun hb => ha (toRat_eq_zero_iff.mp (h ▸ toRat_eq_zero_iff.mpr hb))
      have hapos := magnitude_pos (d := a) (by simpa [isZero] using ha)
      have hbpos := magnitude_pos (d := b) (by simpa [isZero] using hb)
      -- one rational has one sign and one magnitude, and these give the double
      have hparts : a.negative = b.negative ∧ a.magnitude = b.magnitude := by
        unfold toRat at h
        cases ha : a.negative <;> cases hb : b.negative <;> simp only [ha, hb, if_true, Bool.false_eq_true, if_false] at h
        · exact ⟨rfl, h⟩
        · linarith
        · linarith
        · exact ⟨rfl, neg_inj.mp h⟩
      have := nearest_magnitude a
      rw [hparts.1, hparts.2, nearest_magnitude b] at this
      exact (Option.some.inj this).symm

theorem eq_zero_of_isZero {d : Double} (h : d.isZero = true) : d = zero d.negative := eq_zero (by simpa [isZero] using h)

/-- Numbers of one value are written alike. -/
theorem number_congr {a b : Double} (h : a.toRat = b.toRat) : Literal.number a = Literal.number b := by
  rcases Bool.or_eq_true _ _ |>.mp (same_iff.mpr h) with h | h
  · rw [of_decide_eq_true h]
  · obtain ⟨ha, hb⟩ := Bool.and_eq_true _ _ |>.mp h
    simp [Literal.number, ha, hb]

theorem pixels_congr {a b : Double} (h : a.toRat = b.toRat) : Literal.pixels a = Literal.pixels b := by
  have hzeros : ∀ negative, Literal.pixels (zero negative) = "0" := by decide +kernel
  rcases Bool.or_eq_true _ _ |>.mp (same_iff.mpr h) with h | h
  · rw [of_decide_eq_true h]
  · obtain ⟨ha, hb⟩ := Bool.and_eq_true _ _ |>.mp h
    rw [eq_zero_of_isZero ha, eq_zero_of_isZero hb, hzeros, hzeros]

end Double

namespace Expr

/-- Equality in value: of numbers as rationals, of all else as it stands. -/
def denotesSame : Expr → Expr → Bool
  | .number a, .number b => decide (a.toRat = b.toRat)
  | a, b => decide (a = b)

theorem same_eq_denotesSame (a b : Expr) : a.same b = a.denotesSame b := by
  cases a with
  | number a =>
    cases b with
    | number b =>
      show a.same b = decide (a.toRat = b.toRat)
      rw [Bool.eq_iff_iff, Double.same_iff, decide_eq_true_eq]
    | _ => rfl
  | _ => rfl

theorem render_congr {a b : Expr} (h : a.denotesSame b = true) : a.render = b.render := by
  unfold denotesSame at h
  split at h
  · exact Double.number_congr (of_decide_eq_true h)
  · rw [of_decide_eq_true h]

end Expr

/-! ## Slots -/

/-- A property of an object, as the engine makes it and as the scene wants it. -/
structure Slot where
  path : String
  initial : List String
  wanted : List String
  differs : Bool
  /-- Where the values do not differ, what is written is the same. -/
  settled : differs = false → wanted = initial

def Slot.write (s : Slot) : String × List String := (s.path, s.wanted)

section Tables

variable {τ : Type}

def Property.slot (scope : String) (target : τ) (p : Property τ) : Slot where
  path := scope ++ p.path
  initial := [p.default.render]
  wanted := [(p.get target).render]
  differs := !(p.get target).denotesSame p.default
  settled h := by rw [Expr.render_congr (by simpa using h)]

theorem PairProperty.component_congr (p : PairProperty τ) {a b : Double} (h : a.toRat = b.toRat) :
    (p.component a).render = (p.component b).render := by
  unfold component
  split
  · exact Double.pixels_congr h
  · exact Double.number_congr h

def PairProperty.slot (target : τ) (p : PairProperty τ) : Slot where
  path := p.path
  initial := [(p.component p.default.1).render, (p.component p.default.2).render]
  wanted := [(p.component (p.get target).1).render, (p.component (p.get target).2).render]
  differs := !(decide ((p.get target).1.toRat = p.default.1.toRat) && decide ((p.get target).2.toRat = p.default.2.toRat))
  settled h := by
    obtain ⟨h₁, h₂⟩ : (p.get target).1.toRat = p.default.1.toRat ∧ (p.get target).2.toRat = p.default.2.toRat := by
      simpa using h
    rw [p.component_congr h₁, p.component_congr h₂]

end Tables

def Transform.slots (t : Transform) (withPosition : Bool) : List Slot :=
  (if withPosition then [groupPosition.slot t] else [])
    ++ [angleProperty.slot "" t]
    ++ transformPairs.map (·.slot t)

def SpriteInfo.displaySlots (s : SpriteInfo) : List Slot := [anchorProperty.slot s] ++ [tintProperty.slot "" s]

def Body.slots (body : Body) : List Slot :=
  match body.arcade? with
  | none => []
  | some arcade => bodyProperties.map (·.slot "body." arcade)

namespace SceneObject

/-- The slots of the object's own kind. -/
def ownSlots : SceneObject → List Slot
  | .group _ _ physics => groupProperties.map (·.slot "" physics)
  | .sprite _ _ => []
  | .button _ => []
  | .tileSprite o => tilePairs.map (·.slot o)
  | .bitmapText o => bitmapTextProperties.map (·.slot "" o)

/-- The entries of the tables for an object, in the order of writing. -/
def slots (o : SceneObject) : List Slot :=
  match o.spriteInfo? with
  | none => o.info.transform.slots true ++ o.ownSlots
  | some s => o.info.transform.slots false ++ s.displaySlots ++ o.ownSlots ++ s.body.slots

/-- Paths are apart, in the tables of one kind of object and across them. -/
theorem nodup_slots (o : SceneObject) : (o.slots.map (·.path)).Nodup := by
  have hleaf : ∀ own ∈ [[], tilePairs.map (·.path), bitmapTextProperties.map (·.path)],
      ∀ tunables ∈ [[], bodyProperties.map ("body." ++ ·.path)],
      (["angle", "scale", "pivot", "anchor", "tint"] ++ own ++ tunables).Nodup := by decide +kernel
  have hbody : ∀ body : Body, body.slots.map (·.path) ∈ [[], bodyProperties.map ("body." ++ ·.path)] := by
    intro body
    unfold Body.slots
    split <;> simp [Property.slot, Function.comp_def]
  have hsprite : ∀ (t : Transform) (s : SpriteInfo) (own : List Slot),
      own.map (·.path) ∈ [[], tilePairs.map (·.path), bitmapTextProperties.map (·.path)] →
      ((t.slots false ++ s.displaySlots ++ own ++ s.body.slots).map (·.path)).Nodup := by
    intro t s own hown
    simp only [List.map_append]
    exact hleaf _ hown _ (hbody s.body)
  cases o with
  | group info children physics =>
    show ["position", "angle", "scale", "pivot", "physicsSortDirection"].Nodup
    decide +kernel
  | sprite kind o => exact hsprite _ _ [] (by simp)
  | button o => exact hsprite _ _ [] (by simp)
  | tileSprite o => exact hsprite _ _ (tilePairs.map (·.slot o)) (by simp [PairProperty.slot, Function.comp_def])
  | bitmapText o =>
    exact hsprite _ _ (bitmapTextProperties.map (·.slot "" o)) (by simp [Property.slot, Function.comp_def])

end SceneObject

/-! ## Writes -/

/-- The properties of `var` after some statements. -/
def runWrites (var : String) (statements : List Statement) (state : String → List String) : String → List String :=
  statements.foldl
    (fun state s =>
      match s.write? var with
      | none => state
      | some (path, value) => Function.update state path value)
    state

theorem runWrites_eq (var : String) (statements : List Statement) (state : String → List String) :
    runWrites var statements state
      = (statements.filterMap (Statement.write? var)).foldl (fun state w => Function.update state w.1 w.2) state := by
  unfold runWrites
  rw [List.foldl_filterMap]
  congr 1
  funext state s
  cases s.write? var <;> rfl

section Tables

variable {τ : Type} (var : String) (target : τ)

/-- The statements of a table write the slots that differ. -/
theorem writes_assignments (scope : String) (table : List (Property τ)) :
    (Property.assignments var scope target table).filterMap (Statement.write? var)
      = ((table.map (·.slot scope target)).filter (·.differs)).map Slot.write := by
  have hdiffers : ∀ p : Property τ, (!p.isDefault target) = (p.slot scope target).differs := fun p => by
    rw [Property.isDefault, Expr.same_eq_denotesSame]
    rfl
  simp only [Property.assignments, hdiffers, List.filter_map, List.filterMap_map, List.map_map]
  rw [← List.filterMap_eq_map]
  congr 1
  funext p
  simp [Statement.write?, Slot.write, Property.slot]

theorem writes_settings (table : List (PairProperty τ)) :
    (PairProperty.settings var target table).filterMap (Statement.write? var)
      = ((table.map (·.slot target)).filter (·.differs)).map Slot.write := by
  have hdiffers : ∀ p : PairProperty τ, (!p.isDefault target) = (p.slot target).differs := fun p => by
    have hsame : ∀ a b : Double, a.same b = decide (a.toRat = b.toRat) := fun a b => by
      rw [Bool.eq_iff_iff, Double.same_iff, decide_eq_true_eq]
    simp only [PairProperty.isDefault, hsame]
    rfl
  simp only [PairProperty.settings, hdiffers, List.filter_map, List.filterMap_map, List.map_map]
  rw [← List.filterMap_eq_map]
  congr 1
  funext p
  simp [Statement.write?, Slot.write, PairProperty.slot]

end Tables

theorem writes_transform (var : String) (t : Transform) (withPosition : Bool) :
    (t.statements var withPosition).filterMap (Statement.write? var)
      = ((t.slots withPosition).filter (·.differs)).map Slot.write := by
  unfold Transform.statements Transform.slots
  cases withPosition <;>
    simp only [if_true, if_false, Bool.false_eq_true, List.filterMap_append, List.filter_append, List.map_append,
      writes_assignments, writes_settings] <;>
    rfl

theorem writes_display (var : String) (s : SpriteInfo) :
    (s.displayStatements var).filterMap (Statement.write? var)
      = (s.displaySlots.filter (·.differs)).map Slot.write := by
  unfold SpriteInfo.displayStatements SpriteInfo.displaySlots
  simp only [List.filterMap_append, List.filter_append, List.map_append, writes_assignments, writes_settings]
  rfl

theorem writes_own (o : SceneObject) :
    o.ownProperties.filterMap (Statement.write? o.info.name) = (o.ownSlots.filter (·.differs)).map Slot.write := by
  cases o with
  | group info children physics => exact writes_assignments _ _ _ _
  | sprite kind o => rfl
  | button o => rfl
  | tileSprite o => exact writes_settings _ _ _
  | bitmapText o => exact writes_assignments _ _ _ _

/-- Only the tunables of a body are properties; its shape is made by calls. -/
theorem writes_body (var : String) (body : Body) (inArcadeGroup : Bool) :
    (body.statements var inArcadeGroup).filterMap (Statement.write? var)
      = (body.slots.filter (·.differs)).map Slot.write := by
  unfold Body.statements Body.slots
  cases body.arcade? with
  | none => rfl
  | some arcade =>
    have henable : (if inArcadeGroup then [] else [Statement.enableBody var]).filterMap (Statement.write? var) = [] := by
      split <;> rfl
    have hshape : (body.shapeStatements var).filterMap (Statement.write? var) = [] := by
      unfold Body.shapeStatements
      split
      · rfl
      · rfl
      · split <;> rfl
    rw [List.filterMap_append, List.filterMap_append, henable, hshape, writes_assignments]
    rfl

theorem writes_animations (var : String) (as : List Animation) :
    (as.flatMap (Animation.statements var)).filterMap (Statement.write? var) = [] := by
  rw [List.filterMap_eq_nil_iff]
  intro s hs
  obtain ⟨a, -, hs⟩ := List.mem_flatMap.mp hs
  rcases List.mem_cons.mp hs with rfl | hs
  · rfl
  · split at hs
    · rw [List.mem_singleton.mp hs]
      rfl
    · cases hs

theorem writes_data (var : String) (data : Option String) :
    (dataStatements var data).filterMap (Statement.write? var) = [] := by
  unfold dataStatements
  split
  · rfl
  · split <;> rfl

/-- The block of an object writes the slots that differ, in the order of the tables. -/
theorem writes_alone {o : SceneObject} (h : o.info.enabled = true) (cx : Context) :
    (o.alone.statements cx).filterMap (Statement.write? o.info.name)
      = (o.slots.filter (·.differs)).map Slot.write := by
  have hmake : Statement.write? o.info.name (.create o.info.name (o.declares cx) (o.call cx)) = none := rfl
  rw [SceneObject.alone_statements h, List.filterMap_cons_none hmake, SceneObject.slots]
  cases hs : o.spriteInfo? with
  | none =>
    rw [SceneObject.setup_group hs]
    simp only [List.filterMap_append, List.filter_append, List.map_append, writes_transform, writes_own]
  | some sprite =>
    rw [SceneObject.setup_leaf hs, leafProperties]
    simp only [List.filterMap_append, List.filter_append, List.map_append, writes_transform, writes_display, writes_own,
      writes_animations, writes_body, writes_data, List.append_nil]

/-! ## Lines -/

section Tables

variable {τ : Type}

theorem PairProperty.numberChar_component (p : PairProperty τ) (d : Double) :
    ∀ c ∈ (p.component d).render.toList, Statement.NumberChar c := by
  unfold component
  split <;> exact fun _ => Literal.mem_number

theorem Property.legible_slots {scope : String} {table : List (Property τ)}
    (h : ∀ p ∈ table, ' ' ∉ (scope ++ p.path).toList) (target : τ) :
    ∀ s ∈ table.map (·.slot scope target), Statement.Legible s.write :=
  List.forall_mem_map.mpr fun p hp => .one (h p hp)

theorem PairProperty.legible_slots {table : List (PairProperty τ)}
    (h : ∀ p ∈ table, p.path.toList.all Char.isAlpha = true) (target : τ) :
    ∀ s ∈ table.map (·.slot target), Statement.Legible s.write :=
  List.forall_mem_map.mpr fun p hp => .two (h p hp) (p.numberChar_component _) (p.numberChar_component _)

end Tables

theorem Transform.legible_slots (t : Transform) (withPosition : Bool) :
    ∀ s ∈ t.slots withPosition, Statement.Legible s.write := by
  have hposition : ∀ s ∈ [groupPosition].map (·.slot t), Statement.Legible s.write :=
    PairProperty.legible_slots (by decide) t
  have hangle : ∀ s ∈ [angleProperty].map (·.slot "" t), Statement.Legible s.write :=
    Property.legible_slots (by decide) t
  have hpairs : ∀ s ∈ transformPairs.map (·.slot t), Statement.Legible s.write :=
    PairProperty.legible_slots (by decide) t
  refine List.forall_mem_append.mpr ⟨List.forall_mem_append.mpr ⟨?_, hangle⟩, hpairs⟩
  cases withPosition with
  | true => exact hposition
  | false => exact fun _ => nofun

theorem SpriteInfo.legible_displaySlots (s : SpriteInfo) : ∀ slot ∈ s.displaySlots, Statement.Legible slot.write := by
  have hanchor : ∀ slot ∈ [anchorProperty].map (·.slot s), Statement.Legible slot.write :=
    PairProperty.legible_slots (by decide) s
  have htint : ∀ slot ∈ [tintProperty].map (·.slot "" s), Statement.Legible slot.write :=
    Property.legible_slots (by decide) s
  exact List.forall_mem_append.mpr ⟨hanchor, htint⟩

theorem blank_not_mem_bodyPaths : ∀ p ∈ bodyProperties, ' ' ∉ ("body." ++ p.path).toList := by decide +kernel

theorem Body.legible_slots (body : Body) : ∀ s ∈ body.slots, Statement.Legible s.write := by
  unfold slots
  split
  · exact fun _ => nofun
  · exact Property.legible_slots blank_not_mem_bodyPaths _

namespace SceneObject

theorem legible_ownSlots (o : SceneObject) : ∀ s ∈ o.ownSlots, Statement.Legible s.write := by
  cases o with
  | group info children physics => exact Property.legible_slots (by decide) physics
  | sprite kind o => exact fun _ => nofun
  | button o => exact fun _ => nofun
  | tileSprite o => exact PairProperty.legible_slots (by decide) o
  | bitmapText o => exact Property.legible_slots (by decide) o

/-- What is written to an object can be read from its lines. -/
theorem legible_slots (o : SceneObject) : ∀ s ∈ o.slots, Statement.Legible s.write := by
  unfold slots
  split
  · exact List.forall_mem_append.mpr ⟨Transform.legible_slots _ _, o.legible_ownSlots⟩
  · simp only [List.forall_mem_append]
    exact ⟨⟨⟨Transform.legible_slots _ _, SpriteInfo.legible_displaySlots _⟩, o.legible_ownSlots⟩,
      Body.legible_slots _⟩

end SceneObject

/-! ## After the writes -/

/-- Writing only the slots that differ leaves in every slot what is wanted, and all else as it was. -/
theorem foldl_writes {slots : List Slot} (hn : (slots.map (·.path)).Nodup) {state : String → List String}
    (h : ∀ s ∈ slots, state s.path = s.initial) :
    let final := ((slots.filter (·.differs)).map Slot.write).foldl (fun state w => Function.update state w.1 w.2) state
    (∀ s ∈ slots, final s.path = s.wanted) ∧ ∀ path ∉ slots.map (·.path), final path = state path := by
  induction slots generalizing state with
  | nil => simp
  | cons s rest ih =>
    obtain ⟨hs, hrest⟩ := List.forall_mem_cons.mp h
    obtain ⟨hnot, hn⟩ := List.nodup_cons.mp hn
    by_cases hd : s.differs = true
    · -- the slots after it have other paths
      have hothers : ∀ s' ∈ rest, Function.update state s.path s.wanted s'.path = s'.initial := fun s' hs' => by
        have hne : s'.path ≠ s.path := fun heq => hnot (List.mem_map.mpr ⟨s', hs', heq⟩)
        rw [Function.update_of_ne hne, hrest s' hs']
      obtain ⟨hwanted, hrestkept⟩ := ih hn hothers
      rw [List.filter_cons_of_pos hd]
      refine ⟨List.forall_mem_cons.mpr ⟨(hrestkept s.path hnot).trans ?_, hwanted⟩, fun path hpath => ?_⟩
      · exact Function.update_self _ _ _
      · obtain ⟨hne, hpath⟩ := not_or.mp (List.mem_cons.not.mp hpath)
        exact (hrestkept path hpath).trans (Function.update_of_ne hne _ _)
    · obtain ⟨hwanted, hrestkept⟩ := ih hn hrest
      rw [List.filter_cons_of_neg hd]
      refine ⟨List.forall_mem_cons.mpr ⟨?_, hwanted⟩, fun path hpath => ?_⟩
      · rw [hrestkept s.path hnot, hs, s.settled (by simpa using hd)]
      · exact hrestkept path (not_or.mp (List.mem_cons.not.mp hpath)).2

/-! ## Entries and fields -/

/-- The name of the field for a path: `maxVelocity.x` becomes `max_velocity_x`. -/
def fieldOfPath (path : String) : String :=
  String.ofList (path.toList.flatMap fun c => if c = '.' then ['_'] else if c.isUpper then ['_', c.toLower] else [c])

/-- The value in a text of a scene; other expressions are not what a scene holds. -/
def Expr.json? : Expr → Option Json
  | .number d => some (Codec.double.encode d)
  | .flag b => some (Codec.flag.encode b)
  | .text s => some (Codec.text.encode s)
  | .pixels _ => none
  | .word _ => none
  | .raw _ => none

section Fields

variable {τ : Type}

/-- The property takes its value from the field, and its default is what the field holds if a scene says nothing. -/
def Property.Reads (record : Record τ) (p : Property τ) (f : Field τ) : Prop :=
  f.name = fieldOfPath p.path ∧ p.get record.blank = p.default ∧ ∀ t, f.encode t = (p.get t).json?

/-- So do the two components. -/
def PairProperty.Reads (record : Record τ) (p : PairProperty τ) (first second : String) : Prop :=
  p.get record.blank = p.default ∧ ∃ f ∈ record.fields, ∃ g ∈ record.fields, f.name = first ∧ g.name = second ∧
    ∀ t, f.encode t = some (Codec.double.encode (p.get t).1) ∧ g.encode t = some (Codec.double.encode (p.get t).2)

/-- Positions are written in whole pixels, and no other pair is. -/
def PairProperty.PixelsIfPosition (p : PairProperty τ) : Prop :=
  p.inPixels = true ↔ p.path ∈ ["position", "tilePosition"]

instance (p : PairProperty τ) : Decidable p.PixelsIfPosition := inferInstanceAs (Decidable (_ ↔ _))

end Fields

/-- Every entry of the tables reads the fields that its path names. -/
structure TablesNameFields : Prop where
  /-- In whole pixels are the position of a group and that of a tiled texture. -/
  pixels : groupPosition.PixelsIfPosition ∧ (∀ p ∈ transformPairs, p.PixelsIfPosition) ∧
    anchorProperty.PixelsIfPosition ∧ ∀ p ∈ tilePairs, p.PixelsIfPosition
  /-- The tunables are all the fields of a body but the two of its offset. -/
  body : List.Forall₂ (Property.Reads ArcadeBody.record) bodyProperties (ArcadeBody.record.fields.drop 2)
  angle : ∃ f ∈ Transform.record.fields, angleProperty.Reads Transform.record f
  text : ∀ p ∈ bitmapTextProperties, ∃ f ∈ BitmapText.record.fields, p.Reads BitmapText.record f
  position : groupPosition.Reads Transform.record "x" "y"
  transform : ∀ p ∈ transformPairs,
    p.Reads Transform.record (fieldOfPath p.path ++ "_x") (fieldOfPath p.path ++ "_y")
  anchor : anchorProperty.Reads SpriteInfo.record "anchor_x" "anchor_y"
  tile : ∀ p ∈ tilePairs, p.Reads TileSprite.record (fieldOfPath p.path ++ "_x") (fieldOfPath p.path ++ "_y")
  tint : tintProperty.get SpriteInfo.record.blank = tintProperty.default ∧
    ∀ s source, s.tint = some source → tintProperty.get s = .raw (Text.trim source)
  sort : ∀ p ∈ groupProperties, p.get GroupPhysics.record.blank = p.default ∧
    ∀ g, p.get g = .raw g.sortDirection.constant

/-- The field of a record at an index. -/
theorem mem_fields {τ : Type} {record : Record τ} {f : Field τ} (i : ℕ) (h : record.fields[i]? = some f) :
    f ∈ record.fields := List.mem_of_getElem? h

theorem tables_name_fields : TablesNameFields where
  pixels := by decide
  body := by
    unfold bodyProperties
    repeat' first
      | exact List.Forall₂.nil
      | refine List.Forall₂.cons ⟨by decide +kernel, rfl, fun _ => rfl⟩ ?_
  angle := ⟨_, mem_fields 2 rfl, by decide +kernel, rfl, fun _ => rfl⟩
  text := by
    simp only [bitmapTextProperties, List.forall_mem_cons, List.not_mem_nil, false_imp_iff, implies_true, and_true]
    exact ⟨⟨_, mem_fields 4 rfl, by decide +kernel, rfl, fun _ => rfl⟩,
      ⟨_, mem_fields 5 rfl, by decide +kernel, rfl, fun _ => rfl⟩⟩
  position := ⟨rfl, _, mem_fields 0 rfl, _, mem_fields 1 rfl, rfl, rfl, fun _ => ⟨rfl, rfl⟩⟩
  transform := by
    simp only [transformPairs, List.forall_mem_cons, List.not_mem_nil, false_imp_iff, implies_true, and_true]
    exact ⟨⟨rfl, _, mem_fields 3 rfl, _, mem_fields 4 rfl, by decide +kernel, by decide +kernel, fun _ => ⟨rfl, rfl⟩⟩,
      ⟨rfl, _, mem_fields 5 rfl, _, mem_fields 6 rfl, by decide +kernel, by decide +kernel, fun _ => ⟨rfl, rfl⟩⟩⟩
  anchor := ⟨rfl, _, mem_fields 0 rfl, _, mem_fields 1 rfl, rfl, rfl, fun _ => ⟨rfl, rfl⟩⟩
  tile := by
    simp only [tilePairs, List.forall_mem_cons, List.not_mem_nil, false_imp_iff, implies_true, and_true]
    exact ⟨⟨rfl, _, mem_fields 4 rfl, _, mem_fields 5 rfl, by decide +kernel, by decide +kernel, fun _ => ⟨rfl, rfl⟩⟩,
      ⟨rfl, _, mem_fields 6 rfl, _, mem_fields 7 rfl, by decide +kernel, by decide +kernel, fun _ => ⟨rfl, rfl⟩⟩⟩
  tint := ⟨rfl, fun s source h => by simp [tintProperty, h]⟩
  sort p hp := by
    rw [List.mem_singleton.mp hp]
    exact ⟨by decide, fun _ => rfl⟩

/-! ## Nothing is lost -/

/-- The block of an enabled object writes each property at most once, only if its value differs from the engine's, and in
    the order of the tables. Each write is one line, from which path and values can be read. On an object as the engine
    makes it this leaves in every property what the scene wants, as it would be written, and touches nothing else. -/
theorem suppressed_defaults_are_kept (cx : Context) (o : SceneObject) (h : o.info.enabled = true) :
    TablesNameFields ∧
      (o.slots.map (·.path)).Nodup ∧
      (o.alone.statements cx).filterMap (Statement.write? o.info.name)
        = (o.slots.filter (·.differs)).map Slot.write ∧
      (∀ s ∈ o.alone.statements cx, ∀ w, s.write? o.info.name = some w → s.lines = [Statement.writeLine o.info.name w]) ∧
      (∀ s ∈ o.slots, Statement.readWrite? o.info.name (Statement.writeLine o.info.name s.write) = some s.write) ∧
      ∀ state : String → List String, (∀ s ∈ o.slots, state s.path = s.initial) →
        (∀ s ∈ o.slots, runWrites o.info.name (o.alone.statements cx) state s.path = s.wanted) ∧
          ∀ path ∉ o.slots.map (·.path), runWrites o.info.name (o.alone.statements cx) state path = state path := by
  refine ⟨tables_name_fields, o.nodup_slots, writes_alone h cx, fun s _ w => Statement.lines_of_write?,
    fun s hs => Statement.readWrite?_writeLine (o.legible_slots s hs) _, fun state hstate => ?_⟩
  rw [runWrites_eq, writes_alone h cx]
  exact foldl_writes o.nodup_slots hstate

/-- A door turned by a negative zero, with the default tint between blanks, and with a body. -/
def heavyDoor : SceneObject := .tileSprite {
  info := { name := "door", transform := { angle := -0, pivotX := 3 } }
  texture := .image "door"
  width := 8
  height := 8
  tilePositionX := 2
  sprite := { tint := some " 0xffffff ", body := .rect 8 8 { mass := 5, bounceY := 2, moves := false } } }

theorem heavyDoor_defaults_are_kept :
    heavyDoor.info.enabled = true ∧
      (heavyDoor.alone.statements { kind := .group }).filterMap (Statement.write? "door")
        = [("pivot", ["3", "0"]), ("tilePosition", ["2", "0"]), ("body.mass", ["5"]), ("body.moves", ["false"]),
          ("body.bounce.y", ["2"])] := by
  have h : heavyDoor.info.enabled = true := by decide
  obtain ⟨-, -, hwrites, -⟩ := suppressed_defaults_are_kept { kind := .group } heavyDoor h
  refine ⟨h, hwrites.trans ?_⟩
  decide +kernel

end SceneScript
