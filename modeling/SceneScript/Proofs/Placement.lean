/-
  SceneScript.Proofs.Placement — which statements belong to which object.

  `placedAmong` walks the objects that are switched on, from the outside in, and notes
  for each the context it is made in. The statements of a scene are those of its placed
  objects, one after another, each object's own statements in one block and a blank line
  between two blocks (`statementsOfAll_eq_blocks`). So what stands before an object in a
  script is what the walk visits before it.

  A placed object keeps the kind of scene (`kind_of_placed`), and stands after the group
  that it is put into (`parents_first`).
-/
import SceneScript.Script.Generation

namespace SceneScript

/-! ## The walk -/

/-- An object of a scene and the context it is made in. -/
structure Placed where
  cx : Context
  object : SceneObject

/-- An object without what is inside it. -/
def SceneObject.alone : SceneObject → SceneObject
  | .group info _ physics => .group info [] physics
  | .sprite kind o => .sprite kind o
  | .button o => .button o
  | .tileSprite o => .tileSprite o
  | .bitmapText o => .bitmapText o

/-- The statements that make an object and set it up, without those of its children. -/
def Placed.statements (p : Placed) : List Statement := p.object.alone.statements p.cx

mutual

/-- The places of an object and of all inside it, unless switched off. -/
def SceneObject.placedIn (cx : Context) : SceneObject → List Placed
  | .group info children physics =>
    if info.enabled then ⟨cx, .group info children physics⟩ :: placedAmong (cx.within info physics) children else []
  | .sprite kind o => if o.info.enabled then [⟨cx, .sprite kind o⟩] else []
  | .button o => if o.info.enabled then [⟨cx, .button o⟩] else []
  | .tileSprite o => if o.info.enabled then [⟨cx, .tileSprite o⟩] else []
  | .bitmapText o => if o.info.enabled then [⟨cx, .bitmapText o⟩] else []
termination_by structural o => o

def SceneObject.placedAmong (cx : Context) : List SceneObject → List Placed
  | [] => []
  | o :: rest => placedIn cx o ++ placedAmong cx rest
termination_by structural os => os

end

/-- The places of all objects of a scene. -/
def Model.placed (m : Model) : List Placed := SceneObject.placedAmong { kind := m.settings.kind } m.world

mutual

theorem SceneObject.map_object_placedIn (cx : Context) :
    ∀ o : SceneObject, (o.placedIn cx).map (·.object) = o.enabledObjects
  | .group info children physics => by
    have hchildren := map_object_placedAmong (cx.within info physics) children
    simp only [placedIn, enabledObjects]
    split
    · rw [List.map_cons, hchildren]
    · rfl
  | .sprite _ _ => by simp only [placedIn, enabledObjects]; split <;> rfl
  | .button _ => by simp only [placedIn, enabledObjects]; split <;> rfl
  | .tileSprite _ => by simp only [placedIn, enabledObjects]; split <;> rfl
  | .bitmapText _ => by simp only [placedIn, enabledObjects]; split <;> rfl
termination_by structural o => o

theorem SceneObject.map_object_placedAmong (cx : Context) :
    ∀ os : List SceneObject, (placedAmong cx os).map (·.object) = enabledAmong os
  | [] => rfl
  | o :: rest => by
    rw [placedAmong, List.map_append, map_object_placedIn cx o, map_object_placedAmong cx rest, enabledAmong]
termination_by structural os => os

end

/-- The walk visits the objects that are switched on together with all around them. -/
theorem map_object_placed (m : Model) : m.placed.map (·.object) = SceneObject.enabledAmong m.world :=
  SceneObject.map_object_placedAmong _ _

/-! ## Blocks of statements -/

namespace Placed

/-- The statements of several objects, with a blank line between two of them. -/
def blocks : List Placed → List Statement
  | [] => []
  | p :: rest => p.statements ++ rest.flatMap fun q => .blank :: q.statements

/-- The statements of several objects that others follow. -/
def blocksBefore (ps : List Placed) : List Statement := ps.flatMap fun p => p.statements ++ [.blank]

/-- The statements of several objects that follow others. -/
def blocksAfter (ps : List Placed) : List Statement := ps.flatMap fun p => .blank :: p.statements

theorem blocks_append {ps : List Placed} (h : ps ≠ []) (qs : List Placed) :
    blocks (ps ++ qs) = blocks ps ++ blocksAfter qs := by
  cases ps with
  | nil => exact absurd rfl h
  | cons p rest => simp [blocks, blocksAfter]

/-- A statement between blocks is a blank line. -/
theorem mem_blocks {ps : List Placed} {s : Statement} (h : s ∈ blocks ps) :
    s = .blank ∨ ∃ p ∈ ps, s ∈ p.statements := by
  cases ps with
  | nil => cases h
  | cons p rest =>
    rcases List.mem_append.mp h with h | h
    · exact .inr ⟨p, List.mem_cons_self, h⟩
    · obtain ⟨q, hq, h⟩ := List.mem_flatMap.mp h
      exact (List.mem_cons.mp h).imp_right fun h => ⟨q, List.mem_cons_of_mem p hq, h⟩

/-- What is gathered from statements, blank lines giving nothing, is gathered block by block. -/
theorem flatMap_blocks {β : Type} {f : Statement → List β} (hblank : f .blank = []) (ps : List Placed) :
    (blocks ps).flatMap f = ps.flatMap fun p => p.statements.flatMap f := by
  cases ps with
  | nil => rfl
  | cons p rest =>
    simp only [blocks, List.flatMap_append, List.flatMap_assoc, List.flatMap_cons, hblank, List.nil_append]

/-- What stands before an object and what stands after it. -/
theorem blocks_split (earlier : List Placed) (p : Placed) (later : List Placed) :
    blocks (earlier ++ p :: later) = blocksBefore earlier ++ p.statements ++ blocksAfter later := by
  induction earlier with
  | nil => rfl
  | cons q earlier ih =>
    cases earlier with
    | nil => simp [blocks, blocksBefore, blocksAfter]
    | cons q' earlier => simp_all [blocks, blocksBefore]

theorem blocks_eq_nil {ps : List Placed} (h : ∀ p ∈ ps, p.statements ≠ []) (hb : blocks ps = []) : ps = [] := by
  cases ps with
  | nil => rfl
  | cons p rest => exact absurd (List.append_eq_nil_iff.mp hb).1 (h p (by simp))

/-- A blank line goes before objects, if there are any that have statements. -/
theorem afterBlank_blocks {ps : List Placed} (h : ∀ p ∈ ps, p.statements ≠ []) :
    afterBlank (blocks ps) = blocksAfter ps := by
  cases ps with
  | nil => rfl
  | cons p rest =>
    obtain ⟨s, more, hs⟩ := List.exists_cons_of_ne_nil (h p (by simp))
    simp [blocks, blocksAfter, hs, afterBlank]

end Placed

/-! ## Statements of one object -/

namespace SceneObject

/-- The call that makes an object. -/
def call (cx : Context) : SceneObject → Call
  | .group _ _ physics => groupCall cx physics
  | .sprite _ o => o.call cx
  | .button o => o.call cx
  | .tileSprite o => o.call cx
  | .bitmapText o => o.call cx

/-- The statements for what only this kind of object has. -/
def ownProperties : SceneObject → List Statement
  | .group info _ physics => Property.assignments info.name "" physics groupProperties
  | .sprite _ _ => []
  | .button _ => []
  | .tileSprite o => PairProperty.settings o.info.name o tilePairs
  | .bitmapText o => Property.assignments o.info.name "" o bitmapTextProperties

variable {cx : Context}

theorem statements_group {info : ObjectInfo} (h : info.enabled = true) (children : List SceneObject)
    (physics : GroupPhysics) :
    (group info children physics).statements cx
      = (group info children physics).alone.statements cx
        ++ afterBlank (statementsOfAll (cx.within info physics) children) := by
  simp [statements, alone, h, statementsOfAll, afterBlank]

theorem statements_alone_group {info : ObjectInfo} (h : info.enabled = true) (children : List SceneObject)
    (physics : GroupPhysics) : (group info children physics).alone.statements cx = groupStatements cx info physics := by
  simp [statements, alone, h, statementsOfAll, afterBlank]

theorem alone_of_leaf {o : SceneObject} {sprite : SpriteInfo} (h : o.spriteInfo? = some sprite) : o.alone = o := by
  cases o with
  | group => cases h
  | sprite => rfl
  | button => rfl
  | tileSprite => rfl
  | bitmapText => rfl

/-- All leaves are made and set up in one way. -/
theorem statements_leaf {o : SceneObject} {sprite : SpriteInfo} (hs : o.spriteInfo? = some sprite)
    (h : o.info.enabled = true) :
    o.statements cx = leafStatements cx o.info sprite o.ownProperties (o.call cx) := by
  cases o with
  | group => cases hs
  | sprite => cases hs; exact if_pos h
  | button => cases hs; exact if_pos h
  | tileSprite => cases hs; exact if_pos h
  | bitmapText => cases hs; exact if_pos h

theorem placedIn_leaf {o : SceneObject} {sprite : SpriteInfo} (hs : o.spriteInfo? = some sprite)
    (h : o.info.enabled = true) : o.placedIn cx = [⟨cx, o⟩] := by
  cases o with
  | group => cases hs
  | sprite => exact if_pos h
  | button => exact if_pos h
  | tileSprite => exact if_pos h
  | bitmapText => exact if_pos h

/-- An object that is switched off has no place and no statement. -/
theorem placedIn_of_disabled {o : SceneObject} (h : o.info.enabled = false) : o.placedIn cx = [] := by
  cases o <;> exact if_neg (by simpa [info] using h)

theorem statements_of_disabled {o : SceneObject} (h : o.info.enabled = false) : o.statements cx = [] := by
  cases o <;> exact if_neg (by simpa [info] using h)

/-- The first statement of an object makes it. -/
theorem statements_head (cx : Context) {o : SceneObject} (h : o.info.enabled = true) :
    ∃ declares rest, o.alone.statements cx = .create o.info.name declares (o.call cx) :: rest := by
  cases hs : o.spriteInfo? with
  | none =>
    cases o with
    | group info children physics => exact ⟨true, _, statements_alone_group h children physics⟩
    | _ => cases hs
  | some sprite =>
    rw [alone_of_leaf hs, statements_leaf hs h]
    exact ⟨_, _, rfl⟩

end SceneObject

/-! ## Parents -/

/-- Each object is switched on, and stands in this context or after the group that it is put into. -/
def WellPlaced (cx : Context) (ps : List Placed) : Prop :=
  ∀ earlier p later, ps = earlier ++ p :: later →
    p.object.info.enabled = true ∧ p.cx.kind = cx.kind ∧
      (p.cx = cx ∨ ∃ g ∈ earlier, ∃ info children physics,
        g.object = .group info children physics ∧ p.cx = g.cx.within info physics)

namespace WellPlaced

variable {cx : Context}

theorem nil : WellPlaced cx [] := fun earlier p later h => by simp at h

theorem append {ps qs : List Placed} (hp : WellPlaced cx ps) (hq : WellPlaced cx qs) : WellPlaced cx (ps ++ qs) := by
  intro earlier p later h
  rcases List.append_eq_append_iff.mp h with ⟨l, rfl, hl⟩ | ⟨l, hl, hr⟩
  · -- the object is among the second
    obtain ⟨he, hk, hcx⟩ := hq l p later hl
    refine ⟨he, hk, hcx.imp_right ?_⟩
    rintro ⟨g, hg, hrest⟩
    exact ⟨g, List.mem_append_right _ hg, hrest⟩
  · cases l with
    | nil =>
      obtain ⟨he, hk, hcx⟩ := hq [] p later (by simpa using hr.symm)
      exact ⟨he, hk, .inl (hcx.resolve_right (by simp))⟩
    | cons q l =>
      obtain ⟨rfl, -⟩ := List.cons.inj hr
      exact hp earlier p l hl

/-- A group goes before all that is placed inside it. -/
theorem group {info : ObjectInfo} (h : info.enabled = true) (children : List SceneObject) {physics : GroupPhysics}
    {ps : List Placed} (hp : WellPlaced (cx.within info physics) ps) :
    WellPlaced cx (⟨cx, .group info children physics⟩ :: ps) := by
  intro earlier p later hsplit
  cases earlier with
  | nil =>
    obtain ⟨rfl, -⟩ := List.cons.inj hsplit
    exact ⟨h, rfl, .inl rfl⟩
  | cons g earlier =>
    obtain ⟨rfl, hrest⟩ := List.cons.inj hsplit
    obtain ⟨he, hk, hcx⟩ := hp earlier p later hrest
    refine ⟨he, hk, .inr ?_⟩
    rcases hcx with hcx | ⟨g, hg, hrest⟩
    · exact ⟨_, List.mem_cons_self, info, children, physics, rfl, hcx⟩
    · exact ⟨g, List.mem_cons_of_mem _ hg, hrest⟩

theorem leaf {o : SceneObject} {sprite : SpriteInfo} (hs : o.spriteInfo? = some sprite) :
    WellPlaced cx (o.placedIn cx) := by
  by_cases he : o.info.enabled = true
  · rw [SceneObject.placedIn_leaf hs he]
    intro earlier p later h
    obtain ⟨rfl, rfl, rfl⟩ : earlier = [] ∧ ⟨cx, o⟩ = p ∧ later = [] := by
      cases earlier <;> simp_all
    exact ⟨he, rfl, .inl rfl⟩
  · rw [SceneObject.placedIn_of_disabled (by simpa using he)]
    exact nil

theorem enabled {ps : List Placed} (h : WellPlaced cx ps) {p : Placed} (hp : p ∈ ps) :
    p.object.info.enabled = true := by
  obtain ⟨earlier, later, rfl⟩ := List.append_of_mem hp
  exact (h earlier p later rfl).1

theorem statements_ne_nil {ps : List Placed} (h : WellPlaced cx ps) : ∀ p ∈ ps, p.statements ≠ [] := by
  intro p hp hnil
  obtain ⟨declares, rest, hs⟩ := SceneObject.statements_head p.cx (h.enabled hp)
  rw [Placed.statements, hs] at hnil
  cases hnil

end WellPlaced

mutual

theorem SceneObject.wellPlaced_placedIn (cx : Context) : ∀ o : SceneObject, WellPlaced cx (o.placedIn cx)
  | .group info children physics => by
    by_cases h : info.enabled = true
    · rw [placedIn, if_pos h]
      exact .group h children (wellPlaced_placedAmong _ children)
    · rw [placedIn, if_neg h]
      exact .nil
  | .sprite _ _ => .leaf rfl
  | .button _ => .leaf rfl
  | .tileSprite _ => .leaf rfl
  | .bitmapText _ => .leaf rfl
termination_by structural o => o

theorem SceneObject.wellPlaced_placedAmong (cx : Context) :
    ∀ os : List SceneObject, WellPlaced cx (placedAmong cx os)
  | [] => .nil
  | o :: rest => (wellPlaced_placedIn cx o).append (wellPlaced_placedAmong cx rest)
termination_by structural os => os

end

/-- An object of a scene stands in its world, or after the group that it is put into. -/
theorem parents_first {m : Model} {earlier later : List Placed} {p : Placed} (h : m.placed = earlier ++ p :: later) :
    p.object.info.enabled = true ∧ p.cx.kind = m.settings.kind ∧
      (p.cx.parent = .world ∨ ∃ g ∈ earlier, ∃ info children physics,
        g.object = .group info children physics ∧ p.cx = g.cx.within info physics) := by
  obtain ⟨he, hk, hcx⟩ := SceneObject.wellPlaced_placedAmong _ _ earlier p later h
  exact ⟨he, hk, hcx.imp_left fun hcx => by rw [hcx]⟩

/-! ## All statements of a scene -/

namespace SceneObject

theorem statements_leaf_eq_blocks {cx : Context} {o : SceneObject} {sprite : SpriteInfo}
    (hs : o.spriteInfo? = some sprite) : o.statements cx = Placed.blocks (o.placedIn cx) := by
  by_cases he : o.info.enabled = true
  · simp [placedIn_leaf hs he, Placed.blocks, Placed.statements, alone_of_leaf hs]
  · rw [placedIn_of_disabled (by simpa using he), statements_of_disabled (by simpa using he)]
    rfl

mutual

theorem statements_eq_blocks (cx : Context) : ∀ o : SceneObject, o.statements cx = Placed.blocks (o.placedIn cx)
  | .group info children physics => by
    by_cases h : info.enabled = true
    · have hchildren := statementsOfAll_eq_blocks (cx.within info physics) children
      have hne := (wellPlaced_placedAmong (cx.within info physics) children).statements_ne_nil
      rw [statements_group h, hchildren, Placed.afterBlank_blocks hne, placedIn, if_pos h]
      rfl
    · rw [placedIn, if_neg h, statements, if_neg h]
      rfl
  | .sprite _ _ => statements_leaf_eq_blocks rfl
  | .button _ => statements_leaf_eq_blocks rfl
  | .tileSprite _ => statements_leaf_eq_blocks rfl
  | .bitmapText _ => statements_leaf_eq_blocks rfl
termination_by structural o => o

/-- The statements of several objects are the blocks of all placed among them. -/
theorem statementsOfAll_eq_blocks (cx : Context) :
    ∀ os : List SceneObject, statementsOfAll cx os = Placed.blocks (placedAmong cx os)
  | [] => rfl
  | o :: rest => by
    have ho := statements_eq_blocks cx o
    have hrest := statementsOfAll_eq_blocks cx rest
    have hne := (wellPlaced_placedAmong cx rest).statements_ne_nil
    simp only [statementsOfAll, placedAmong]
    split
    · rename_i hnil
      have hplaced : placedIn cx o = [] := by
        rw [ho] at hnil
        exact Placed.blocks_eq_nil (wellPlaced_placedIn cx o).statements_ne_nil hnil
      rw [hrest, hplaced, List.nil_append]
    · rename_i hsome
      have hplaced : placedIn cx o ≠ [] := fun hnil => hsome (by rw [ho, hnil]; rfl)
      rw [ho, hrest, Placed.afterBlank_blocks hne, Placed.blocks_append hplaced]
termination_by structural os => os

end

end SceneObject

/-- The lines before an object of a scene, its own, and those after it. -/
theorem objectLines_split {m : Model} {earlier later : List Placed} {p : Placed}
    (h : m.placed = earlier ++ p :: later) :
    m.objectLines = Statement.linesOfAll (Placed.blocksBefore earlier) ++ Statement.linesOfAll p.statements
      ++ Statement.linesOfAll (Placed.blocksAfter later) := by
  rw [Model.objectLines, SceneObject.statementsOfAll_eq_blocks, ← Model.placed, h, Placed.blocks_split]
  simp only [Statement.linesOfAll, List.flatMap_append]

end SceneScript
