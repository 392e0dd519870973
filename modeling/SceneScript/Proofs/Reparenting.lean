/-
  SceneScript.Proofs.Reparenting — what an object shows of its parent.

  The same object is emitted in two places of scenes of one kind. Its statements are the
  same, but for what depends on the parent:
  - a group names its parent in the last argument of the call that makes it, in every kind
    of scene; all that follows, its children with all their lines, stays as it is;
  - a leaf names its parent in the last argument too, except in a state, and a leaf with a
    body is enabled by a line of its own unless the parent is an arcade group. If that line
    is all that follows, its presence decides whether the leaf gets a variable.

  So a leaf of a state looks the same in any two places that agree on being in an arcade
  group (`only_the_parent_shows`). A group does not: it names its parent there as well
  (`a_group_in_a_state_names_its_parent`).
-/
import SceneScript.Proofs.PhysicsBodies

namespace SceneScript

/-! ## Arguments -/

/-- The frame of a picture as an argument; a state leaves out the frame of an image. -/
def Texture.frameArgument (kind : SceneKind) (t : Texture) : List Expr :=
  if kind = .state ∧ t.isImage then [] else [t.frameExpr]

/-- The arguments before the parent. -/
def SceneObject.argumentsBeforeParent (kind : SceneKind) : SceneObject → List Expr
  | .group _ _ physics => if physics.physicsGroup then [.raw physics.bodyType.constant] else []
  | .sprite _ o => placeArguments o.info ++ [.text o.texture.assetKey] ++ o.texture.frameArgument kind
  | .button o =>
    placeArguments o.info
      ++ [.text o.texture.assetKey, .raw (Literal.orNull o.callback), .raw (Literal.orNull o.callbackContext),
        frameOrNull o.overFrame, o.texture.frameExpr, frameOrNull o.downFrame, frameOrNull o.upFrame]
  | .tileSprite o =>
    placeArguments o.info ++ [.pixels o.width, .pixels o.height, .text o.texture.assetKey]
      ++ o.texture.frameArgument kind
  | .bitmapText o => placeArguments o.info ++ [.text o.font, .text o.text, .number o.size]

/-- The factory that makes an object. -/
def SceneObject.factory : SceneObject → String
  | .group _ _ physics => if physics.physicsGroup then "physicsGroup" else "group"
  | .sprite _ _ => "sprite"
  | .button _ => "button"
  | .tileSprite _ => "tileSprite"
  | .bitmapText _ => "bitmapText"

theorem frameArguments_eq (cx : Context) (t : Texture) :
    frameArguments cx t = t.frameArgument cx.kind ++ parentArguments cx := by
  unfold frameArguments parentArguments Texture.frameArgument Context.parentArgument?
  cases cx.kind with
  | state => cases t.isImage <;> rfl
  | group => rfl
  | sprite => rfl

/-- A leaf is made with arguments of its own, and then its parent. -/
theorem SceneObject.call_leaf {o : SceneObject} {sprite : SpriteInfo} (hs : o.spriteInfo? = some sprite) (cx : Context) :
    o.call cx = ⟨cx.kind.receiver, o.factory, o.argumentsBeforeParent cx.kind ++ parentArguments cx⟩ := by
  cases o with
  | group => cases hs
  | sprite kind o => simp [call, Sprite.call, Context.call, factory, argumentsBeforeParent, frameArguments_eq]
  | button o => rfl
  | tileSprite o => simp [call, TileSprite.call, Context.call, factory, argumentsBeforeParent, frameArguments_eq]
  | bitmapText o => rfl

/-- A group names its parent in every kind of scene. -/
theorem SceneObject.call_group {o : SceneObject} (hs : o.spriteInfo? = none) (cx : Context) :
    o.call cx = ⟨cx.kind.receiver, o.factory, o.argumentsBeforeParent cx.kind ++ [.raw cx.parentName]⟩ := by
  cases o with
  | group info children physics =>
    cases hp : physics.physicsGroup <;> simp [call, groupCall, Context.call, factory, argumentsBeforeParent, hp]
  | _ => cases hs

/-! ## Statements -/

namespace SceneObject

/-- What follows the making of a group: it is set up, and then its children are made. -/
def groupRest (kind : SceneKind) : SceneObject → List Statement
  | .group info children physics =>
    info.transform.statements info.name true ++ Property.assignments info.name "" physics groupProperties
      ++ afterBlank (statementsOfAll ⟨kind, .group info physics⟩ children)
  | .sprite _ _ => []
  | .button _ => []
  | .tileSprite _ => []
  | .bitmapText _ => []

/-- Children know no more of the world around their group than the kind of scene. -/
theorem statements_group_eq {o : SceneObject} (hs : o.spriteInfo? = none) (he : o.info.enabled = true) (cx : Context) :
    o.statements cx = .create o.info.name true (o.call cx) :: o.groupRest cx.kind := by
  cases o with
  | group info children physics =>
    replace he : info.enabled = true := he
    rw [statements_group he, statements_alone_group he]
    simp only [groupStatements, groupRest, call, SceneObject.info, Context.within, List.cons_append]
  | _ => cases hs

/-- What sets up a leaf before its body. -/
def beforeBody (o : SceneObject) (sprite : SpriteInfo) : List Statement :=
  o.info.transform.statements o.info.name false ++ sprite.displayStatements o.info.name ++ o.ownProperties
    ++ sprite.animations.flatMap (Animation.statements o.info.name)

/-- The body itself, and what follows it. -/
def fromBody (o : SceneObject) (sprite : SpriteInfo) : List Statement :=
  sprite.body.statements o.info.name true ++ dataStatements o.info.name sprite.data

/-- The statement that enables the body of a leaf, where there is one. -/
def enabling (o : SceneObject) (sprite : SpriteInfo) (cx : Context) : List Statement :=
  if sprite.body.arcade?.isSome && !cx.inArcadeGroup then [.enableBody o.info.name] else []

variable {o : SceneObject} {sprite : SpriteInfo}

theorem leafProperties_eq (o : SceneObject) (sprite : SpriteInfo) (cx : Context) :
    leafProperties cx o.info sprite o.ownProperties
      = o.beforeBody sprite ++ o.enabling sprite cx ++ o.fromBody sprite := by
  have hbody : sprite.body.statements o.info.name cx.inArcadeGroup
      = o.enabling sprite cx ++ sprite.body.statements o.info.name true := by
    unfold enabling
    cases hb : sprite.body.arcade? with
    | none => simp [Body.statements, hb]
    | some arcade =>
      cases cx.inArcadeGroup with
      | true => rfl
      | false => exact body_statements_eq hb
  simp only [leafProperties, beforeBody, fromBody, hbody, List.append_assoc]

/-- Nothing else enables a body. -/
theorem enableBody_not_mem (o : SceneObject) (sprite : SpriteInfo) (name : String) :
    .enableBody name ∉ o.beforeBody sprite ++ o.fromBody sprite := by
  have hbodiless : ¬ (Statement.enableBody name).Bodiless := id
  have huses : ¬ (Statement.enableBody name).UsesBody o.info.name := id
  intro h
  simp only [beforeBody, fromBody, List.mem_append, List.mem_flatMap] at h
  rcases h with (((h | h) | h) | ⟨a, -, h⟩) | h | h
  · exact hbodiless (bodiless_transform _ _ _ h)
  · exact hbodiless (bodiless_display _ _ h)
  · exact hbodiless (bodiless_ownProperties _ _ h)
  · exact hbodiless (bodiless_animation _ _ h)
  · exact huses (body_uses _ _ h)
  · exact hbodiless (bodiless_data _ _ h)

theorem statements_leaf_eq (hs : o.spriteInfo? = some sprite) (he : o.info.enabled = true) (cx : Context) :
    o.statements cx
      = .create o.info.name (!(o.beforeBody sprite ++ o.enabling sprite cx ++ o.fromBody sprite).isEmpty
          || o.info.isPublic) (o.call cx)
        :: (o.beforeBody sprite ++ o.enabling sprite cx ++ o.fromBody sprite) := by
  rw [statements_leaf hs he, leafStatements, leafProperties_eq]

/-- The line that makes an object with these arguments. -/
def madeWith (o : SceneObject) (kind : SceneKind) (declares : Bool) (args : List Expr) : String :=
  Statement.declaration o.info.name declares ++ Call.render ⟨kind.receiver, o.factory, args⟩ ++ ";"

/-- The lines of an object in a context. -/
def linesIn (cx : Context) (o : SceneObject) : List String := Statement.linesOfAll (o.statements cx)

theorem linesIn_of_disabled (he : o.info.enabled = false) (cx : Context) : o.linesIn cx = [] := by
  rw [linesIn, statements_of_disabled he]
  rfl

theorem linesIn_group (hs : o.spriteInfo? = none) (he : o.info.enabled = true) (cx : Context) :
    o.linesIn cx = o.madeWith cx.kind true (o.argumentsBeforeParent cx.kind ++ [.raw cx.parentName])
      :: Statement.linesOfAll (o.groupRest cx.kind) := by
  rw [linesIn, statements_group_eq hs he, call_group hs]
  rfl

theorem linesIn_leaf (hs : o.spriteInfo? = some sprite) (he : o.info.enabled = true) (cx : Context) :
    o.linesIn cx
      = o.madeWith cx.kind
          (!(o.beforeBody sprite ++ o.enabling sprite cx ++ o.fromBody sprite).isEmpty || o.info.isPublic)
          (o.argumentsBeforeParent cx.kind ++ parentArguments cx)
        :: Statement.linesOfAll (o.beforeBody sprite ++ o.enabling sprite cx ++ o.fromBody sprite) := by
  rw [linesIn, statements_leaf_eq hs he, call_leaf hs]
  rfl

/-- A leaf of a state shows of its parent only whether it is an arcade group. -/
theorem linesIn_state (hs : o.spriteInfo? = some sprite) {cx₁ cx₂ : Context} (h₁ : cx₁.kind = .state)
    (h₂ : cx₂.kind = .state) (ha : cx₁.inArcadeGroup = cx₂.inArcadeGroup) : o.linesIn cx₁ = o.linesIn cx₂ := by
  have hparent : ∀ {cx : Context}, cx.kind = .state → parentArguments cx = [] := fun h => by
    simp [parentArguments, Context.parentArgument?, h]
  cases he : o.info.enabled with
  | false => rw [linesIn_of_disabled he, linesIn_of_disabled he]
  | true => rw [linesIn_leaf hs he, linesIn_leaf hs he, hparent h₁, hparent h₂, h₁, h₂, enabling, enabling, ha]

end SceneObject

/-! ## Two places -/

/-- In scenes of one kind an object shows its parent nowhere but in the argument that names it, in the line that
    enables its body, and in the variable that this line may need. -/
theorem only_the_parent_shows (kind : SceneKind) (o : SceneObject) :
    (o.info.enabled = false → ∀ cx, o.linesIn cx = []) ∧
    (o.info.enabled = true → o.spriteInfo? = none →
      ∃ args rest, ∀ cx : Context, cx.kind = kind →
        o.linesIn cx = o.madeWith kind true (args ++ [.raw cx.parentName]) :: rest) ∧
    (o.info.enabled = true → ∀ sprite, o.spriteInfo? = some sprite →
      ∃ args before after, (∀ name, .enableBody name ∉ before ++ after) ∧ ∀ cx : Context, cx.kind = kind →
        o.linesIn cx
          = o.madeWith kind (!(before ++ o.enabling sprite cx ++ after).isEmpty || o.info.isPublic)
              (args ++ parentArguments cx)
            :: Statement.linesOfAll (before ++ o.enabling sprite cx ++ after)) ∧
    (∀ sprite, o.spriteInfo? = some sprite → ∀ cx₁ cx₂ : Context, cx₁.kind = .state → cx₂.kind = .state →
      cx₁.inArcadeGroup = cx₂.inArcadeGroup → o.linesIn cx₁ = o.linesIn cx₂) := by
  refine ⟨SceneObject.linesIn_of_disabled, fun he hs => ?_, fun he sprite hs => ?_, fun sprite hs cx₁ cx₂ h₁ h₂ ha => ?_⟩
  · refine ⟨o.argumentsBeforeParent kind, Statement.linesOfAll (o.groupRest kind), ?_⟩
    rintro cx rfl
    exact SceneObject.linesIn_group hs he cx
  · refine ⟨o.argumentsBeforeParent kind, o.beforeBody sprite, o.fromBody sprite, o.enableBody_not_mem sprite, ?_⟩
    rintro cx rfl
    exact SceneObject.linesIn_leaf hs he cx
  · exact SceneObject.linesIn_state hs h₁ h₂ ha

/-- A bat with a body. -/
def caveBat : SceneObject :=
  .sprite .image { info := .named "bat", texture := .image "bat", sprite := { body := .circle 8 {} } }

/-- A group of bats. -/
def caveBats : SceneObject := .group (.named "bats") [caveBat] {}

/-- The bat in a group scene, its group in a state, and the bat in two places of a state. -/
theorem only_the_parent_shows_of_bat :
    (∃ args before after, (∀ name, .enableBody name ∉ before ++ after) ∧ ∀ cx : Context, cx.kind = .group →
      caveBat.linesIn cx
        = caveBat.madeWith .group (!(before ++ caveBat.enabling { body := .circle 8 {} } cx ++ after).isEmpty || false)
            (args ++ parentArguments cx)
          :: Statement.linesOfAll (before ++ caveBat.enabling { body := .circle 8 {} } cx ++ after)) ∧
    (∃ args rest, ∀ cx : Context, cx.kind = .state →
      caveBats.linesIn cx = caveBats.madeWith .state true (args ++ [.raw cx.parentName]) :: rest) ∧
    caveBat.linesIn ⟨.state, .world⟩ = caveBat.linesIn ⟨.state, .group (.named "cave") {}⟩ :=
  ⟨(only_the_parent_shows .group caveBat).2.2.1 rfl _ rfl, (only_the_parent_shows .state caveBats).2.1 rfl rfl,
    (only_the_parent_shows .state caveBat).2.2.2 _ rfl _ _ rfl rfl rfl⟩

/-- Two places in a state, neither in an arcade group, are told apart by a group. -/
theorem a_group_in_a_state_names_its_parent :
    ¬ ∀ (o : SceneObject) (cx₁ cx₂ : Context), cx₁.kind = .state → cx₂.kind = .state →
      cx₁.inArcadeGroup = cx₂.inArcadeGroup → o.linesIn cx₁ = o.linesIn cx₂ := by
  intro h
  have hsame := h caveBats ⟨.state, .world⟩ ⟨.state, .group (.named "cave") {}⟩ rfl rfl rfl
  exact absurd hsame (by decide +kernel)

end SceneScript
