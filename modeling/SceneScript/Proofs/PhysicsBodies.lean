/-
  SceneScript.Proofs.PhysicsBodies — a body is there before it is used.

  Two decisions about a member of a physics group are made in different places: whether
  the call that enables its body is left out (`Body.statements`), and whether its factory
  call hands it to the group (`Context.parentArgument?`). `BodiesBeforeUse` says that
  they agree: before an object's body is first touched, the object has been enabled, or
  was made with an arcade physics group, made earlier, as its parent argument.

  In the constructors of groups and sprites they agree at every depth. The factories of a
  state take no parent, so there a member of an arcade group gets no body at all.

  Proved: a scene has every body before it is used if and only if it is not a state in
  which a member of an arcade group touches its body (`bodies_before_use_iff`). A bat in
  a group of enemies is such a member (`a_state_member_has_no_body`).
-/
import SceneScript.Proofs.Placement

namespace SceneScript

/-! ## Bodies in statements -/

/-- Where a factory takes the parent of a leaf, counted from zero. -/
def parentPlace? (factory : String) : Option Nat :=
  if factory = "sprite" then some 4
  else if factory = "tileSprite" then some 6
  else if factory = "button" then some 9
  else if factory = "bitmapText" then some 5
  else none

/-- The parent that a call hands a new leaf to. -/
def Call.leafParent? (c : Call) : Option Expr := (parentPlace? c.factory).bind fun i => c.args[i]?

namespace Statement

/-- Reaches into the body of an object, `v.body.…`. -/
def UsesBody (v : String) : Statement → Prop
  | .shapeBody target _ _ => target = v
  | .assign target path _ => target = v ∧ "body.".toList <+: path.toList
  | .create _ _ _ => False
  | .setTo _ _ _ _ => False
  | .addAnimation _ _ => False
  | .killOnComplete _ _ => False
  | .enableBody _ => False
  | .attachData _ _ => False
  | .blank => False

/-- Makes a group that gives its members bodies of the arcade system. -/
def MakesArcadeGroup (g : String) : Statement → Prop
  | .create name _ call =>
    name = g ∧ call.factory = "physicsGroup" ∧ call.args.head? = some (.raw PhysicsSystem.arcade.constant)
  | _ => False

/-- Gives an object its body, once the statements before it have run: enables it, or makes it a member of an arcade
    group. -/
def GivesBody (before : List Statement) (v : String) : Statement → Prop
  | .enableBody target => target = v
  | .create name _ call => name = v ∧ ∃ g, call.leafParent? = some (.raw g) ∧ ∃ s ∈ before, s.MakesArcadeGroup g
  | _ => False

/-- Neither gives a body nor uses one. -/
def Bodiless : Statement → Prop
  | .create _ _ _ => False
  | .enableBody _ => False
  | .shapeBody _ _ _ => False
  | .assign _ path _ => ¬ "body.".toList <+: path.toList
  | .setTo _ _ _ _ => True
  | .addAnimation _ _ => True
  | .killOnComplete _ _ => True
  | .attachData _ _ => True
  | .blank => True

theorem Bodiless.not_usesBody {s : Statement} (h : s.Bodiless) (v : String) : ¬ s.UsesBody v := by
  cases s with
  | assign target path value => exact fun hu => h hu.2
  | shapeBody => exact h.elim
  | _ => exact id

theorem Bodiless.not_givesBody {s : Statement} (h : s.Bodiless) (before : List Statement) (v : String) :
    ¬ s.GivesBody before v := by
  cases s with
  | create => exact h.elim
  | enableBody => exact h.elim
  | _ => exact id

end Statement

/-- Before an object's body is used the object has got it, by one of its own statements. -/
def Model.BodiesBeforeUse (m : Model) : Prop :=
  ∀ earlier p later, m.placed = earlier ++ p :: later →
    ∀ front use rest, p.statements = front ++ use :: rest → use.UsesBody p.object.info.name →
      ∃ s ∈ front, s.GivesBody (Placed.blocksBefore earlier) p.object.info.name

/-! ## Statements without bodies -/

section Tables

variable {τ : Type} {var : String} {target : τ}

theorem bodiless_settings {table : List (PairProperty τ)} :
    ∀ s ∈ PairProperty.settings var target table, s.Bodiless := by
  intro s hs
  obtain ⟨p, -, rfl⟩ := List.mem_map.mp hs
  trivial

theorem bodiless_assignments {table : List (Property τ)} (h : ∀ p ∈ table, ¬ "body.".toList <+: p.path.toList) :
    ∀ s ∈ Property.assignments var "" target table, s.Bodiless := by
  intro s hs
  obtain ⟨p, hp, rfl⟩ := List.mem_map.mp hs
  simpa [Statement.Bodiless] using h p (List.mem_filter.mp hp).1

end Tables

variable {var : String}

theorem bodiless_transform (t : Transform) (withPosition : Bool) :
    ∀ s ∈ t.statements var withPosition, s.Bodiless := by
  refine List.forall_mem_append.mpr ⟨List.forall_mem_append.mpr ⟨?_, bodiless_assignments ?_⟩, bodiless_settings⟩
  · split
    · exact bodiless_settings
    · simp
  · simp [angleProperty]

theorem bodiless_display (s : SpriteInfo) : ∀ st ∈ s.displayStatements var, st.Bodiless :=
  List.forall_mem_append.mpr ⟨bodiless_settings, bodiless_assignments (by simp [tintProperty])⟩

theorem bodiless_animation (a : Animation) : ∀ s ∈ a.statements var, s.Bodiless := by
  refine List.forall_mem_cons.mpr ⟨trivial, ?_⟩
  split
  · exact List.forall_mem_singleton.mpr trivial
  · simp

theorem bodiless_data (data : Option String) : ∀ s ∈ dataStatements var data, s.Bodiless := by
  unfold dataStatements
  split
  · simp
  · split
    · simp
    · exact List.forall_mem_singleton.mpr trivial

theorem bodiless_ownProperties (o : SceneObject) : ∀ s ∈ o.ownProperties, s.Bodiless := by
  cases o with
  | group => exact bodiless_assignments (by simp [groupProperties])
  | sprite => simp [SceneObject.ownProperties]
  | button => simp [SceneObject.ownProperties]
  | tileSprite => exact bodiless_settings
  | bitmapText => exact bodiless_assignments (by simp [bitmapTextProperties])

/-! ## The statements of a body -/

/-- In an arcade group the statements of a body only use it. -/
theorem body_uses (body : Body) : ∀ s ∈ body.statements var true, s.UsesBody var := by
  unfold Body.statements
  split
  · simp
  · simp only [if_true, List.nil_append]
    refine List.forall_mem_append.mpr ⟨?_, ?_⟩
    · unfold Body.shapeStatements
      split
      · simp
      · exact List.forall_mem_singleton.mpr rfl
      · split
        · simp
        · exact List.forall_mem_singleton.mpr rfl
    · intro s hs
      obtain ⟨p, -, rfl⟩ := List.mem_map.mp hs
      exact ⟨rfl, p.path.toList, by simp⟩

/-- Anywhere else they enable it first. -/
theorem body_statements_eq {body : Body} {arcade : ArcadeBody} (h : body.arcade? = some arcade) :
    body.statements var false = .enableBody var :: body.statements var true := by
  simp [Body.statements, h]

/-! ## Leaves -/

/-- The parent comes after the frame of a picture. -/
theorem getElem?_frameArguments (front : List Expr) (cx : Context) (t : Texture) :
    (front ++ frameArguments cx t)[front.length + 1]? = cx.parentArgument?.map .raw := by
  rw [List.getElem?_append_right (by omega), Nat.add_sub_cancel_left]
  unfold frameArguments
  cases cx.parentArgument? with
  | none => cases t.isImage <;> rfl
  | some parent => rfl

theorem getElem?_parentArguments (front : List Expr) (cx : Context) :
    (front ++ parentArguments cx)[front.length]? = cx.parentArgument?.map .raw := by
  rw [List.getElem?_append_right (Nat.le_refl _), Nat.sub_self]
  unfold parentArguments
  cases cx.parentArgument? <;> rfl

/-- A leaf is handed to its parent where the kind of scene takes one, and nowhere else. -/
theorem leafParent?_call {o : SceneObject} {sprite : SpriteInfo} (hs : o.spriteInfo? = some sprite) (cx : Context) :
    (o.call cx).leafParent? = cx.parentArgument?.map .raw := by
  cases o with
  | group => cases hs
  | sprite kind o => exact getElem?_frameArguments (placeArguments o.info ++ [_]) cx o.texture
  | button o => exact getElem?_parentArguments (placeArguments o.info ++ [_, _, _, _, _, _, _]) cx
  | tileSprite o => exact getElem?_frameArguments (placeArguments o.info ++ [_, _, _]) cx o.texture
  | bitmapText o => exact getElem?_parentArguments (placeArguments o.info ++ [_, _, _]) cx

/-- What follows the making of a leaf: the statements of its body between statements without bodies. -/
theorem leafStatements_split (cx : Context) (info : ObjectInfo) (sprite : SpriteInfo) {own : List Statement}
    (call : Call) (hown : ∀ s ∈ own, s.Bodiless) :
    ∃ declares before after, leafStatements cx info sprite own call
        = .create info.name declares call :: (before ++ sprite.body.statements info.name cx.inArcadeGroup ++ after) ∧
      (∀ s ∈ before, s.Bodiless) ∧ ∀ s ∈ after, s.Bodiless := by
  refine ⟨_, info.transform.statements info.name false ++ sprite.displayStatements info.name ++ own
    ++ sprite.animations.flatMap (Animation.statements info.name), dataStatements info.name sprite.data, rfl, ?_,
    bodiless_data _⟩
  refine List.forall_mem_append.mpr ⟨List.forall_mem_append.mpr ⟨List.forall_mem_append.mpr
    ⟨bodiless_transform _ _, bodiless_display _⟩, hown⟩, ?_⟩
  intro s hs
  obtain ⟨a, -, hs⟩ := List.mem_flatMap.mp hs
  exact bodiless_animation a s hs

theorem Placed.statements_leaf {p : Placed} {sprite : SpriteInfo} (hs : p.object.spriteInfo? = some sprite)
    (he : p.object.info.enabled = true) :
    ∃ declares before after, p.statements
        = .create p.object.info.name declares (p.object.call p.cx)
          :: (before ++ sprite.body.statements p.object.info.name p.cx.inArcadeGroup ++ after) ∧
      (∀ s ∈ before, s.Bodiless) ∧ ∀ s ∈ after, s.Bodiless := by
  rw [Placed.statements, SceneObject.alone_of_leaf hs, SceneObject.statements_leaf hs he]
  exact leafStatements_split _ _ _ _ (bodiless_ownProperties _)

/-- A group uses no body. -/
theorem Placed.group_uses_no_body {p : Placed} (hs : p.object.spriteInfo? = none)
    (he : p.object.info.enabled = true) (v : String) : ∀ s ∈ p.statements, ¬ s.UsesBody v := by
  obtain ⟨cx, o⟩ := p
  cases o with
  | group info children physics =>
    have hst : Placed.statements ⟨cx, .group info children physics⟩ = groupStatements cx info physics :=
      SceneObject.statements_alone_group he children physics
    rw [hst]
    refine List.forall_mem_cons.mpr ⟨id, List.forall_mem_append.mpr ⟨?_, ?_⟩⟩
    · exact fun s h => (bodiless_transform _ _ s h).not_usesBody v
    · exact fun s h => (bodiless_ownProperties (.group info children physics) s h).not_usesBody v
  | sprite => cases hs
  | button => cases hs
  | tileSprite => cases hs
  | bitmapText => cases hs

/-! ## Members of arcade groups -/

variable {m : Model} {earlier later : List Placed} {p : Placed}

/-- A group that gives bodies is made as a physics group of the arcade system. -/
theorem groupCall_makesArcadeGroup {physics : GroupPhysics} (h : physics.givesArcadeBodies = true) (cx : Context)
    (name : String) (declares : Bool) :
    (Statement.create name declares (groupCall cx physics)).MakesArcadeGroup name := by
  simp only [GroupPhysics.givesArcadeBodies, Bool.and_eq_true, decide_eq_true_eq] at h
  simp [Statement.MakesArcadeGroup, groupCall, h.1, h.2, Context.call]

/-- The group that a member is put into has been made before it. -/
theorem arcade_group_made (h : m.placed = earlier ++ p :: later) (ha : p.cx.inArcadeGroup = true) :
    ∃ s ∈ Placed.blocksBefore earlier, s.MakesArcadeGroup p.cx.parentName := by
  rcases (parents_first h).2.2 with hworld | ⟨g, hg, info, children, physics, hobject, hcx⟩
  · simp [Context.inArcadeGroup, hworld] at ha
  · obtain ⟨before, after, rfl⟩ := List.append_of_mem hg
    have hsplit : m.placed = before ++ g :: (after ++ p :: later) := by simpa using h
    have he : g.object.info.enabled = true := (parents_first hsplit).1
    obtain ⟨declares, rest, hs⟩ := SceneObject.statements_head g.cx he
    have hmade : Statement.create info.name declares (groupCall g.cx physics) ∈ g.statements := by
      rw [Placed.statements, hs, hobject]
      exact List.mem_cons_self
    refine ⟨_, List.mem_flatMap.mpr ⟨g, hg, List.mem_append_left _ hmade⟩, ?_⟩
    rw [hcx] at ha ⊢
    exact groupCall_makesArcadeGroup ha _ _ _

/-- A constructor hands a leaf to the group that gives it a body. -/
theorem create_givesBody (h : m.placed = earlier ++ p :: later) (ha : p.cx.inArcadeGroup = true)
    (hkind : m.settings.kind ≠ .state) {sprite : SpriteInfo} (hs : p.object.spriteInfo? = some sprite)
    (declares : Bool) :
    (Statement.create p.object.info.name declares (p.object.call p.cx)).GivesBody (Placed.blocksBefore earlier)
      p.object.info.name := by
  have hparent : p.cx.parentArgument? = some p.cx.parentName := by
    have hk := (parents_first h).2.1
    unfold Context.parentArgument?
    cases hc : p.cx.kind with
    | state => exact absurd (hk.symm.trans hc) hkind
    | group => rfl
    | sprite => rfl
  refine ⟨rfl, p.cx.parentName, ?_, arcade_group_made h ha⟩
  rw [leafParent?_call hs, hparent]
  rfl

/-- A state hands a leaf to nobody. -/
theorem create_gives_no_body {cx : Context} (hkind : cx.kind = .state) {o : SceneObject} {sprite : SpriteInfo}
    (hs : o.spriteInfo? = some sprite) (before : List Statement) (name v : String) (declares : Bool) :
    ¬ (Statement.create name declares (o.call cx)).GivesBody before v := by
  rintro ⟨-, g, hg, -⟩
  rw [leafParent?_call hs, Context.parentArgument?, hkind] at hg
  cases hg

/-! ## Bodies before use -/

/-- What stands before a use stands before all that precedes the use. -/
theorem mem_front_of_split {α : Type} {before after front rest : List α} {e use : α}
    (h : before ++ e :: after = front ++ use :: rest) (hb : use ∉ before) (he : use ≠ e) : e ∈ front := by
  rcases List.append_eq_append_iff.mp h with ⟨l, rfl, hl⟩ | ⟨l, rfl, hl⟩
  · cases l with
    | nil => exact absurd (List.cons.inj hl).1.symm he
    | cons x l => exact List.mem_append_right _ ((List.cons.inj hl).1 ▸ List.mem_cons_self)
  · cases l with
    | nil => exact absurd (List.cons.inj hl).1 he
    | cons x l => exact absurd (List.mem_append_right _ ((List.cons.inj hl).1 ▸ List.mem_cons_self)) hb

section Uses

variable {sprite : SpriteInfo} {front rest : List Statement} {use : Statement}

/-- Only the statements of its body touch the body of a leaf. -/
theorem use_mem_body (hs : p.object.spriteInfo? = some sprite) (he : p.object.info.enabled = true)
    (hmem : use ∈ p.statements) (huse : use.UsesBody p.object.info.name) :
    use ∈ sprite.body.statements p.object.info.name p.cx.inArcadeGroup := by
  obtain ⟨declares, before, after, hst, hbefore, hafter⟩ := Placed.statements_leaf hs he
  rw [hst] at hmem
  rcases List.mem_cons.mp hmem with rfl | hmem
  · exact huse.elim
  · rcases List.mem_append.mp hmem with hmem | hmem
    · rcases List.mem_append.mp hmem with hmem | hmem
      · exact absurd huse ((hbefore use hmem).not_usesBody _)
      · exact hmem
    · exact absurd huse ((hafter use hmem).not_usesBody _)

/-- An object is made before its body is touched. -/
theorem made_before_use (he : p.object.info.enabled = true) (hfront : p.statements = front ++ use :: rest)
    (huse : use.UsesBody p.object.info.name) :
    ∃ declares, .create p.object.info.name declares (p.object.call p.cx) ∈ front := by
  obtain ⟨declares, more, hst⟩ := SceneObject.statements_head p.cx he
  rw [Placed.statements, hst] at hfront
  cases front with
  | nil =>
    obtain ⟨rfl, -⟩ := List.cons.inj hfront
    exact huse.elim
  | cons s front => exact ⟨declares, by rw [(List.cons.inj hfront).1]; exact List.mem_cons_self⟩

/-- Outside of arcade groups a body is enabled before it is touched. -/
theorem enabled_before_use (hs : p.object.spriteInfo? = some sprite) (he : p.object.info.enabled = true)
    (ha : p.cx.inArcadeGroup = false) (hfront : p.statements = front ++ use :: rest)
    (huse : use.UsesBody p.object.info.name) (made : List Statement) :
    ∃ s ∈ front, s.GivesBody made p.object.info.name := by
  have hmem := use_mem_body hs he (show use ∈ p.statements by rw [hfront]; simp) huse
  obtain ⟨declares, before, after, hst, hbefore, -⟩ := Placed.statements_leaf hs he
  rw [ha] at hmem hst
  cases hbody : sprite.body.arcade? with
  | none => simp [Body.statements, hbody] at hmem
  | some arcade =>
    rw [body_statements_eq hbody] at hst
    have hsplit : (.create p.object.info.name declares (p.object.call p.cx) :: before)
        ++ .enableBody p.object.info.name :: (sprite.body.statements p.object.info.name true ++ after)
          = front ++ use :: rest := by
      rw [← hfront, hst]
      simp
    refine ⟨.enableBody p.object.info.name, mem_front_of_split hsplit ?_ ?_, rfl⟩
    · intro hmem
      rcases List.mem_cons.mp hmem with rfl | hmem
      · exact huse
      · exact (hbefore use hmem).not_usesBody _ huse
    · rintro rfl
      exact huse

end Uses

/-- A member of an arcade group in a state that touches its body has none. -/
theorem state_member_uses_no_body (h : m.BodiesBeforeUse) (hkind : m.settings.kind = .state) (hp : p ∈ m.placed)
    (ha : p.cx.inArcadeGroup = true) {sprite : SpriteInfo} (hs : p.object.spriteInfo? = some sprite) :
    sprite.body.statements p.object.info.name true = [] := by
  obtain ⟨earlier, later, hsplit⟩ := List.append_of_mem hp
  obtain ⟨he, hk, -⟩ := parents_first hsplit
  obtain ⟨declares, before, after, hst, hbefore, -⟩ := Placed.statements_leaf hs he
  rw [ha] at hst
  cases hbody : sprite.body.statements p.object.info.name true with
  | nil => rfl
  | cons use more =>
    exfalso
    have huse : use.UsesBody p.object.info.name := body_uses sprite.body use (by rw [hbody]; exact List.mem_cons_self)
    -- nothing before the first use gives a body
    obtain ⟨s, hs', hgives⟩ := h earlier p later hsplit
      (.create p.object.info.name declares (p.object.call p.cx) :: before) use (more ++ after)
      (by rw [hst, hbody]; simp) huse
    rcases List.mem_cons.mp hs' with rfl | hs'
    · exact create_gives_no_body (hk.trans hkind) hs _ _ _ _ hgives
    · exact (hbefore s hs').not_givesBody _ _ hgives

/-- A scene has every body before it is used, unless it is a state in which a member of an arcade group touches its
    body. -/
theorem bodies_before_use_iff (m : Model) :
    m.placed.map (·.object) = SceneObject.enabledAmong m.world ∧
    (∀ earlier p later, m.placed = earlier ++ p :: later →
      m.objectLines = Statement.linesOfAll (Placed.blocksBefore earlier) ++ Statement.linesOfAll p.statements
        ++ Statement.linesOfAll (Placed.blocksAfter later)) ∧
    (m.BodiesBeforeUse ↔
      (m.settings.kind = .state → ∀ p ∈ m.placed, p.cx.inArcadeGroup = true →
        ∀ sprite, p.object.spriteInfo? = some sprite → sprite.body.statements p.object.info.name true = [])) := by
  refine ⟨map_object_placed m, fun _ _ _ => objectLines_split, fun h hkind p hp ha sprite hs => ?_, fun hstate => ?_⟩
  · exact state_member_uses_no_body h hkind hp ha hs
  · intro earlier p later hsplit front use rest hfront huse
    have he := (parents_first hsplit).1
    cases hs : p.object.spriteInfo? with
    | none => exact absurd huse (Placed.group_uses_no_body hs he _ use (by rw [hfront]; simp))
    | some sprite =>
      cases ha : p.cx.inArcadeGroup with
      | false => exact enabled_before_use hs he ha hfront huse _
      | true =>
        have hkind : m.settings.kind ≠ .state := fun hkind => by
          have hmem := use_mem_body hs he (show use ∈ p.statements by rw [hfront]; simp) huse
          rw [ha, hstate hkind p (by rw [hsplit]; simp) ha sprite hs] at hmem
          cases hmem
        obtain ⟨declares, hmade⟩ := made_before_use he hfront huse
        exact ⟨_, hmade, create_givesBody hsplit ha hkind hs declares⟩

/-- A bat among enemies, in a state. -/
def batScene : Model where
  settings := { className := "Cave", kind := .state }
  world := [.group { name := "enemies" }
    [.sprite .image { info := { name := "bat" }, texture := .image "bat", sprite := { body := .circle 8 {} } }]
    { physicsGroup := true }]

theorem a_state_member_has_no_body : ¬ batScene.BodiesBeforeUse := by
  intro h
  have hbat := state_member_uses_no_body h rfl (List.mem_cons_of_mem _ List.mem_cons_self) rfl rfl
  exact absurd hbat nofun

end SceneScript
