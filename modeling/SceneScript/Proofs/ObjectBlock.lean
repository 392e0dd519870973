/-
  SceneScript.Proofs.ObjectBlock — what the block of one object can hold.

  The block of an object is the statement that makes it and then those that set it up
  (`SceneObject.alone_statements`). The setting-up is the animations of the object, with
  statements of a few kinds before and after them (`SceneObject.setup_split`);
  `SceneObject.Sets` lists these kinds. Their target is the object, and a path or data
  that they hold is one of the tables' or the object's own. So what is true of all lines
  of a scene is checked kind by kind, without the tables.

  `Statement.declared?` is the variable that a statement declares. In a block these are
  the object's own, if it has one, and then those of its animations
  (`filterMap_declared_alone`).
-/
import SceneScript.Proofs.Placement

namespace SceneScript

/-! ## Tables -/

section Tables

variable {τ : Type} {a b : τ}

/-- Only the values of a table count. -/
theorem Property.assignments_congr {table : List (Property τ)} (h : ∀ p ∈ table, p.get a = p.get b)
    (var scope : String) : assignments var scope a table = assignments var scope b table := by
  unfold assignments
  have hfilter : table.filter (fun p => !p.isDefault a) = table.filter (fun p => !p.isDefault b) :=
    List.filter_congr fun p hp => by rw [isDefault, isDefault, h p hp]
  rw [hfilter]
  exact List.map_congr_left fun p hp => by rw [h p (List.mem_filter.mp hp).1]

theorem PairProperty.settings_congr {table : List (PairProperty τ)} (h : ∀ p ∈ table, p.get a = p.get b)
    (var : String) : settings var a table = settings var b table := by
  unfold settings
  have hfilter : table.filter (fun p => !p.isDefault a) = table.filter (fun p => !p.isDefault b) :=
    List.filter_congr fun p hp => by rw [isDefault, isDefault, h p hp]
  rw [hfilter]
  exact List.map_congr_left fun p hp => by rw [h p (List.mem_filter.mp hp).1]

end Tables

/-! ## Setting an object up -/

/-- The paths that are assigned to, after the variable of an object. -/
def assignedPaths : List String :=
  angleProperty.path :: tintProperty.path
    :: (bitmapTextProperties.map (·.path) ++ groupProperties.map (·.path)
      ++ bodyProperties.map fun p => "body." ++ p.path)

namespace SceneObject

/-- A group has none. -/
def animations (o : SceneObject) : List Animation :=
  match o.spriteInfo? with
  | some s => s.animations
  | none => []

/-- The extra data of a leaf. -/
def data? (o : SceneObject) : Option String := o.spriteInfo?.bind (·.data)

/-- What follows the making of an object. -/
def setup (cx : Context) (o : SceneObject) : List Statement :=
  match o.spriteInfo? with
  | some s => leafProperties cx o.info s o.ownProperties
  | none => o.info.transform.statements o.info.name true ++ o.ownProperties

/-- Does the object get a variable? A leaf without properties that is not public gets none. -/
def declares (cx : Context) (o : SceneObject) : Bool :=
  match o.spriteInfo? with
  | some _ => !(o.setup cx).isEmpty || o.info.isPublic
  | none => true

/-- The statements, other than those of animations, that can set an object up. Only the tint and the sort direction are
    assigned as they stand, and a sort direction is one of the engine's constants. -/
inductive Sets (o : SceneObject) : Statement → Prop
  | assign {path : String} {value : Expr} : path ∈ assignedPaths →
      (∀ source, value = .raw source → path = tintProperty.path ∨ ∃ d : SortDirection, source = d.constant) →
      Sets o (.assign o.info.name path value)
  | setTo (path : String) (a b : Expr) : Sets o (.setTo o.info.name path a b)
  | enableBody : Sets o (.enableBody o.info.name)
  | shapeBody (method : String) (args : List Expr) : Sets o (.shapeBody o.info.name method args)
  | attachData {data : String} : o.data? = some data → Sets o (.attachData o.info.name data)

section Leaf

variable {o : SceneObject} {sprite : SpriteInfo}

theorem animations_leaf (hs : o.spriteInfo? = some sprite) : o.animations = sprite.animations := by
  simp [animations, hs]

theorem data?_leaf (hs : o.spriteInfo? = some sprite) : o.data? = sprite.data := by
  simp [data?, hs]

theorem setup_leaf (hs : o.spriteInfo? = some sprite) (cx : Context) :
    o.setup cx = leafProperties cx o.info sprite o.ownProperties := by
  simp [setup, hs]

theorem declares_leaf (hs : o.spriteInfo? = some sprite) (cx : Context) :
    o.declares cx = (!(o.setup cx).isEmpty || o.info.isPublic) := by
  simp [declares, hs]

end Leaf

section Group

variable {o : SceneObject}

theorem animations_group (hs : o.spriteInfo? = none) : o.animations = [] := by
  simp [animations, hs]

theorem setup_group (hs : o.spriteInfo? = none) (cx : Context) :
    o.setup cx = o.info.transform.statements o.info.name true ++ o.ownProperties := by
  simp [setup, hs]

theorem declares_group (hs : o.spriteInfo? = none) (cx : Context) : o.declares cx = true := by
  simp [declares, hs]

end Group

/-- A public object gets a variable. -/
theorem declares_of_public {o : SceneObject} (hp : o.info.isPublic = true) (cx : Context) : o.declares cx = true := by
  cases hs : o.spriteInfo? with
  | none => exact declares_group hs cx
  | some sprite => rw [declares_leaf hs, hp, Bool.or_true]

/-- The block of an object makes it and then sets it up. -/
theorem alone_statements {o : SceneObject} (h : o.info.enabled = true) (cx : Context) :
    o.alone.statements cx = .create o.info.name (o.declares cx) (o.call cx) :: o.setup cx := by
  cases hs : o.spriteInfo? with
  | none =>
    cases o with
    | group info children physics => exact statements_alone_group h children physics
    | _ => cases hs
  | some sprite =>
    rw [alone_of_leaf hs, statements_leaf hs h, declares_leaf hs, setup_leaf hs]
    rfl

/-! ## What sets an object up -/

section Sets

variable {o : SceneObject} {τ : Type} {target : τ}

theorem sets_settings (table : List (PairProperty τ)) :
    ∀ s ∈ PairProperty.settings o.info.name target table, o.Sets s := by
  intro s hs
  obtain ⟨p, -, rfl⟩ := List.mem_map.mp hs
  exact .setTo _ _ _

theorem sets_assignments {scope : String} {table : List (Property τ)}
    (hpath : ∀ p ∈ table, scope ++ p.path ∈ assignedPaths)
    (hraw : ∀ p ∈ table, ∀ source, p.get target = .raw source →
      scope ++ p.path = tintProperty.path ∨ ∃ d : SortDirection, source = d.constant) :
    ∀ s ∈ Property.assignments o.info.name scope target table, o.Sets s := by
  intro s hs
  obtain ⟨p, hp, rfl⟩ := List.mem_map.mp hs
  have hp := (List.mem_filter.mp hp).1
  exact .assign (hpath p hp) (hraw p hp)

/-- The tunables of a body are numbers and flags. -/
theorem get_bodyProperty {p : Property ArcadeBody} (h : p ∈ bodyProperties) (b : ArcadeBody) :
    (∃ d, p.get b = .number d) ∨ ∃ f, p.get b = .flag f := by
  revert p
  simp [bodyProperties]

theorem sets_transform (withPosition : Bool) :
    ∀ s ∈ o.info.transform.statements o.info.name withPosition, o.Sets s := by
  refine List.forall_mem_append.mpr ⟨List.forall_mem_append.mpr ⟨?_, sets_assignments ?_ ?_⟩, sets_settings _⟩
  · split
    · exact sets_settings _
    · simp
  · simp [assignedPaths]
  · simp [angleProperty]

theorem sets_ownProperties (o : SceneObject) : ∀ s ∈ o.ownProperties, o.Sets s := by
  cases o with
  | group info children physics =>
    refine sets_assignments (o := .group info children physics) (fun p hp => ?_) ?_
    · simp only [assignedPaths, List.mem_cons, List.mem_append]
      exact .inr (.inr (.inl (.inr (by simpa using ⟨p, hp, rfl⟩))))
    · simp only [groupProperties, List.mem_singleton, forall_eq, Expr.raw.injEq]
      exact fun source hsource => .inr ⟨physics.sortDirection, hsource.symm⟩
  | sprite => simp [ownProperties]
  | button => simp [ownProperties]
  | tileSprite t => exact sets_settings (o := .tileSprite t) _
  | bitmapText t =>
    refine sets_assignments (o := .bitmapText t) (fun p hp => ?_) (by simp [bitmapTextProperties])
    simp only [assignedPaths, List.mem_cons, List.mem_append]
    exact .inr (.inr (.inl (.inl (by simpa using ⟨p, hp, rfl⟩))))

theorem sets_display (s : SpriteInfo) : ∀ st ∈ s.displayStatements o.info.name, o.Sets st :=
  List.forall_mem_append.mpr ⟨sets_settings _, sets_assignments (by simp [assignedPaths]) (by simp [tintProperty])⟩

theorem sets_body (body : Body) (inArcadeGroup : Bool) : ∀ s ∈ body.statements o.info.name inArcadeGroup, o.Sets s := by
  unfold Body.statements
  split
  · simp
  · refine List.forall_mem_append.mpr
      ⟨List.forall_mem_append.mpr ⟨?_, ?_⟩, sets_assignments (fun p hp => ?_) fun p hp source hsource => ?_⟩
    · split
      · simp
      · exact List.forall_mem_singleton.mpr .enableBody
    · unfold Body.shapeStatements
      split
      · simp
      · exact List.forall_mem_singleton.mpr (.shapeBody _ _)
      · split
        · simp
        · exact List.forall_mem_singleton.mpr (.shapeBody _ _)
    · simp only [assignedPaths, List.mem_cons, List.mem_append]
      exact .inr (.inr (.inr (List.mem_map_of_mem hp)))
    · rcases get_bodyProperty hp _ with ⟨d, hd⟩ | ⟨f, hf⟩
      · rw [hd] at hsource
        cases hsource
      · rw [hf] at hsource
        cases hsource

theorem sets_data {data : Option String} (h : o.data? = data) : ∀ s ∈ dataStatements o.info.name data, o.Sets s := by
  unfold dataStatements
  split
  · simp
  · split
    · simp
    · exact List.forall_mem_singleton.mpr (.attachData h)

end Sets

/-- The animations of an object are added amid statements of the listed kinds. -/
theorem setup_split (cx : Context) (o : SceneObject) :
    ∃ before after, o.setup cx = before ++ o.animations.flatMap (Animation.statements o.info.name) ++ after ∧
      (∀ s ∈ before, o.Sets s) ∧ ∀ s ∈ after, o.Sets s := by
  cases hs : o.spriteInfo? with
  | none =>
    refine ⟨o.setup cx, [], by simp [animations_group hs], ?_, by simp⟩
    rw [setup_group hs]
    exact List.forall_mem_append.mpr ⟨sets_transform true, sets_ownProperties o⟩
  | some sprite =>
    refine ⟨o.info.transform.statements o.info.name false ++ sprite.displayStatements o.info.name ++ o.ownProperties,
      sprite.body.statements o.info.name cx.inArcadeGroup ++ dataStatements o.info.name sprite.data, ?_, ?_, ?_⟩
    · rw [setup_leaf hs, animations_leaf hs, leafProperties]
      simp only [List.append_assoc]
    · exact List.forall_mem_append.mpr
        ⟨List.forall_mem_append.mpr ⟨sets_transform false, sets_display sprite⟩, sets_ownProperties o⟩
    · exact List.forall_mem_append.mpr ⟨sets_body _ _, sets_data (data?_leaf hs)⟩

/-- What a statement of the setting-up is. -/
theorem mem_setup {cx : Context} {o : SceneObject} {s : Statement} (h : s ∈ o.setup cx) :
    o.Sets s ∨ (∃ a ∈ o.animations, s = .addAnimation o.info.name a) ∨
      ∃ a ∈ o.animations, a.killOnComplete = true ∧ s = .killOnComplete o.info.name a.name := by
  obtain ⟨before, after, hsplit, hbefore, hafter⟩ := setup_split cx o
  rw [hsplit] at h
  rcases List.mem_append.mp h with h | h
  · rcases List.mem_append.mp h with h | h
    · exact .inl (hbefore s h)
    · obtain ⟨a, ha, h⟩ := List.mem_flatMap.mp h
      rcases List.mem_cons.mp h with rfl | h
      · exact .inr (.inl ⟨a, ha, rfl⟩)
      · obtain ⟨hk, rfl⟩ : a.killOnComplete = true ∧ s = .killOnComplete o.info.name a.name := by simpa using h
        exact .inr (.inr ⟨a, ha, hk, rfl⟩)
  · exact .inl (hafter s h)

end SceneObject

/-- All statements of a scene. -/
def Model.objectStatements (m : Model) : List Statement :=
  SceneObject.statementsOfAll { kind := m.settings.kind } m.world

theorem objectStatements_eq_blocks (m : Model) : m.objectStatements = Placed.blocks m.placed :=
  SceneObject.statementsOfAll_eq_blocks _ _

theorem Placed.statements_eq {m : Model} {p : Placed} (hp : p ∈ m.placed) :
    p.statements = .create p.object.info.name (p.object.declares p.cx) (p.object.call p.cx)
      :: p.object.setup p.cx := by
  obtain ⟨earlier, later, h⟩ := List.append_of_mem hp
  exact SceneObject.alone_statements (parents_first h).1 p.cx

/-- A statement of a scene is a blank line, makes an object or sets one up. -/
theorem mem_objectStatements {m : Model} {s : Statement} (h : s ∈ m.objectStatements) :
    s = .blank ∨ ∃ p ∈ m.placed,
      s = .create p.object.info.name (p.object.declares p.cx) (p.object.call p.cx) ∨ s ∈ p.object.setup p.cx := by
  rw [objectStatements_eq_blocks] at h
  rcases Placed.mem_blocks h with hblank | ⟨p, hp, hs⟩
  · exact .inl hblank
  · rw [Placed.statements_eq hp] at hs
    exact .inr ⟨p, hp, List.mem_cons.mp hs⟩

/-! ## Variables -/

/-- `line` declares the variable `v`: it begins with `var v = `. -/
def Declares (v line : String) : Prop := ("var " ++ v ++ " = ").toList <+: line.toList

instance (v line : String) : Decidable (Declares v line) := inferInstanceAs (Decidable (_ <+: _))

theorem declares_append (v rest : String) : Declares v ("var " ++ v ++ " = " ++ rest) := by
  unfold Declares
  rw [String.toList_append (s := "var " ++ v ++ " = ")]
  exact List.prefix_append _ _

namespace Statement

/-- The variable that a statement declares. -/
def declared? : Statement → Option String
  | .create name declares _ => if declares then some name else none
  | .addAnimation target a => if a.hasVariable then some (Naming.animationVariable target a.name) else none
  | .assign _ _ _ => none
  | .setTo _ _ _ _ => none
  | .killOnComplete _ _ => none
  | .enableBody _ => none
  | .shapeBody _ _ _ => none
  | .attachData _ _ => none
  | .blank => none

/-- A statement that declares a variable is one line, which begins with the declaration. -/
theorem lines_of_declared {s : Statement} {v : String} (h : s.declared? = some v) :
    ∃ line, s.lines = [line] ∧ Declares v line := by
  cases s with
  | create name declares call =>
    obtain ⟨rfl, rfl⟩ : declares = true ∧ name = v := by simpa [declared?] using h
    refine ⟨_, rfl, ?_⟩
    simpa [declaration, String.append_assoc] using declares_append name (call.render ++ ";")
  | addAnimation target a =>
    obtain ⟨hv, rfl⟩ : a.hasVariable = true ∧ Naming.animationVariable target a.name = v := by
      simpa [declared?] using h
    refine ⟨_, rfl, ?_⟩
    rw [hv, declaration, if_pos rfl]
    simp only [String.append_assoc]
    simpa only [String.append_assoc] using declares_append (Naming.animationVariable target a.name) _
  | _ => cases h

end Statement

namespace SceneObject

/-- The variables that the block of an object declares. -/
def declaredNames (cx : Context) (o : SceneObject) : List String :=
  (if o.declares cx then [o.info.name] else [])
    ++ (o.animations.filter (·.hasVariable)).map fun a => Naming.animationVariable o.info.name a.name

theorem Sets.declared? {o : SceneObject} {s : Statement} (h : o.Sets s) : s.declared? = none := by
  cases h <;> rfl

theorem filterMap_declared_animations (var : String) (as : List Animation) :
    (as.flatMap (Animation.statements var)).filterMap Statement.declared?
      = (as.filter (·.hasVariable)).map fun a => Naming.animationVariable var a.name := by
  induction as with
  | nil => rfl
  | cons a as ih =>
    have hkill : (if a.killOnComplete then [Statement.killOnComplete var a.name] else []).filterMap
        Statement.declared? = [] := by
      split <;> rfl
    rw [List.flatMap_cons, List.filterMap_append, ih, Animation.statements, List.filterMap_cons, hkill]
    by_cases hv : a.hasVariable = true
    · simp [Statement.declared?, hv]
    · simp [Statement.declared?, hv]

/-- The block of an object declares its own variable and then those of its animations. -/
theorem filterMap_declared_alone {o : SceneObject} (h : o.info.enabled = true) (cx : Context) :
    (o.alone.statements cx).filterMap Statement.declared? = o.declaredNames cx := by
  obtain ⟨before, after, hsplit, hbefore, hafter⟩ := setup_split cx o
  have hsetup : (o.setup cx).filterMap Statement.declared?
      = (o.animations.filter (·.hasVariable)).map fun a => Naming.animationVariable o.info.name a.name := by
    rw [hsplit, List.filterMap_append, List.filterMap_append, filterMap_declared_animations,
      List.filterMap_eq_nil_iff.mpr fun s hs => (hbefore s hs).declared?,
      List.filterMap_eq_nil_iff.mpr fun s hs => (hafter s hs).declared?, List.nil_append, List.append_nil]
  rw [alone_statements h, List.filterMap_cons, hsetup, declaredNames, Statement.declared?]
  by_cases hd : o.declares cx = true
  · simp [hd]
  · simp [hd]

end SceneObject

end SceneScript
