/-
  SceneScript.Proofs.BodyLines — which bodies a script can tell apart.

  The lines that give an object its body are a call that enables it, a call for its shape
  and an assignment for each tunable that differs from the engine's default. What they do
  not show is the sign of a zero, and all that a rectangle holds besides its tunables if a
  side of it is unset: it has no shape call then, and so no size and no offset.

  Proved, for every variable and every two bodies (`body_lines_eq_iff`): they have the same
  lines exactly if they are equal up to the signs of zeros, or both are such rectangles
  with equal tunables, or nothing is written for either.

  Every step is the reading of one text: the first blank ends the path of an assignment,
  the first comma ends an argument, and a number names one double (`Literal.number_eq_iff`).
-/
import SceneScript.Proofs.EngineDefaults
import SceneScript.Proofs.PrintedNumbers

namespace SceneScript

/-! ## Texts cut at a character -/

namespace Text

theorem append_cons_inj {c : Char} {a b r s : List Char} (ha : c ∉ a) (hb : c ∉ b)
    (h : a ++ c :: r = b ++ c :: s) : a = b ∧ r = s := by
  induction a generalizing b with
  | nil =>
    cases b with
    | nil => exact ⟨rfl, (List.cons.inj h).2⟩
    | cons d b =>
      obtain ⟨rfl, -⟩ := List.cons.inj h
      exact absurd List.mem_cons_self hb
  | cons d a ih =>
    cases b with
    | nil =>
      obtain ⟨rfl, -⟩ := List.cons.inj h
      exact absurd List.mem_cons_self ha
    | cons e b =>
      obtain ⟨rfl, htail⟩ := List.cons.inj h
      obtain ⟨rfl, hrest⟩ :=
        ih (fun hc => ha (List.mem_cons_of_mem _ hc)) (fun hc => hb (List.mem_cons_of_mem _ hc)) htail
      exact ⟨rfl, hrest⟩

/-- Texts without commas can be told from the text in which commas part them. -/
theorem intercalate_inj {xs ys : List String} (hx : ∀ s ∈ xs, ',' ∉ s.toList) (hy : ∀ s ∈ ys, ',' ∉ s.toList)
    (hxs : xs ≠ []) (hys : ys ≠ []) (h : ", ".intercalate xs = ", ".intercalate ys) : xs = ys := by
  have hcomma : ∀ (t u : String) (more : List String), ", ".intercalate (t :: u :: more)
      = t ++ (", " ++ ", ".intercalate (u :: more)) := fun t u more => by
    rw [String.intercalate_cons_cons, String.append_assoc]
  induction xs generalizing ys with
  | nil => exact absurd rfl hxs
  | cons x xs ih =>
    obtain ⟨y, ys, rfl⟩ := List.exists_cons_of_ne_nil hys
    have hfirst := hx x List.mem_cons_self
    have hfirst' := hy y List.mem_cons_self
    cases xs with
    | nil =>
      cases ys with
      | nil => simpa using h
      | cons z ys =>
        rw [hcomma, String.intercalate_singleton] at h
        exact absurd (by simp [h]) hfirst
    | cons w xs =>
      cases ys with
      | nil =>
        rw [hcomma, String.intercalate_singleton] at h
        exact absurd (by simp [← h]) hfirst'
      | cons z ys =>
        rw [hcomma, hcomma] at h
        have hchars := congrArg String.toList h
        simp only [String.toList_append] at hchars
        obtain ⟨hhead, hrest⟩ := append_cons_inj hfirst hfirst' hchars
        obtain rfl := String.toList_injective hhead
        have htail : ", ".intercalate (w :: xs) = ", ".intercalate (z :: ys) :=
          String.toList_injective (List.cons.inj hrest).2
        rw [ih (fun s hs => hx s (List.mem_cons_of_mem _ hs)) (fun s hs => hy s (List.mem_cons_of_mem _ hs))
          (List.cons_ne_nil _ _) (List.cons_ne_nil _ _) htail]

end Text

/-! ## Assignments of a table -/

namespace Property

variable {τ : Type} {table : List (Property τ)} {a b : τ}

/-- An assignment after the variable and the scope. -/
def text (target : τ) (p : Property τ) : String := p.path ++ " = " ++ (p.get target).render ++ ";"

/-- The assignments that are written. -/
def texts (table : List (Property τ)) (target : τ) : List String :=
  (table.filter fun p => !p.isDefault target).map (text target)

theorem lines_assignments (var scope : String) (target : τ) (table : List (Property τ)) :
    Statement.linesOfAll (assignments var scope target table)
      = (texts table target).map (var ++ "." ++ scope ++ ·) := by
  simp only [Statement.linesOfAll, assignments, texts, text, List.flatMap_map, List.map_map, Statement.lines,
    Function.comp_def, String.append_assoc]
  exact List.map_eq_flatMap.symm

/-- The first blank ends the path. -/
theorem text_inj {p q : Property τ} (hp : ' ' ∉ p.path.toList) (hq : ' ' ∉ q.path.toList)
    (h : p.text a = q.text b) : p.path = q.path ∧ (p.get a).render = (q.get b).render := by
  have hchars := congrArg String.toList h
  simp only [text, String.toList_append, List.append_assoc] at hchars
  obtain ⟨hpath, hrest⟩ := Text.append_cons_inj hp hq hchars
  refine ⟨String.toList_injective hpath, String.toList_injective ?_⟩
  simpa using hrest

theorem texts_cons (target : τ) (p : Property τ) (rest : List (Property τ)) :
    texts (p :: rest) target
      = if p.isDefault target then texts rest target else p.text target :: texts rest target := by
  cases h : p.isDefault target <;> simp [texts, h]

theorem text_not_mem {p : Property τ} (hpath : p.path ∉ table.map (·.path)) (hp : ' ' ∉ p.path.toList)
    (hblank : ∀ q ∈ table, ' ' ∉ q.path.toList) : p.text a ∉ texts table b := by
  intro h
  obtain ⟨q, hq, htext⟩ := List.mem_map.mp h
  have hmem := List.mem_of_mem_filter hq
  exact hpath (List.mem_map.mpr ⟨q, hmem, (text_inj (hblank q hmem) hp htext).1⟩)

/-- The entries of a table have paths of their own without blanks, and a value written as the default is the default. -/
structure Readable (table : List (Property τ)) : Prop where
  nodup : (table.map (·.path)).Nodup
  no_blank : ∀ p ∈ table, ' ' ∉ p.path.toList
  isDefault_iff : ∀ p ∈ table, ∀ target, p.isDefault target = true ↔ (p.get target).render = p.default.render

theorem Readable.tail {p : Property τ} {rest : List (Property τ)} (h : Readable (p :: rest)) : Readable rest where
  nodup := (List.nodup_cons.mp h.nodup).2
  no_blank q hq := h.no_blank q (List.mem_cons_of_mem _ hq)
  isDefault_iff q hq := h.isDefault_iff q (List.mem_cons_of_mem _ hq)

/-- An entry that is written for one target only is told by its text and by its value. -/
theorem Readable.differs {p : Property τ} {rest : List (Property τ)} (h : Readable (p :: rest))
    (ha : p.isDefault a = false) (hb : p.isDefault b = true) :
    texts (p :: rest) a ≠ texts (p :: rest) b ∧ (p.get a).render ≠ (p.get b).render := by
  have hdefault := h.isDefault_iff p List.mem_cons_self
  constructor
  · intro heq
    have hmem : p.text a ∈ texts rest b := by
      rw [texts_cons, texts_cons, ha, hb] at heq
      simp only [if_true, Bool.false_eq_true, if_false] at heq
      rw [← heq]
      exact List.mem_cons_self
    exact text_not_mem (List.nodup_cons.mp h.nodup).1 (h.no_blank p List.mem_cons_self) h.tail.no_blank hmem
  · intro heq
    rw [(hdefault a).mpr (heq.trans ((hdefault b).mp hb))] at ha
    cases ha

/-- What a table writes tells each of its values. -/
theorem texts_eq_iff (h : Readable table) :
    texts table a = texts table b ↔ ∀ p ∈ table, (p.get a).render = (p.get b).render := by
  induction table with
  | nil => simp [texts]
  | cons p rest ih =>
    have hblank := h.no_blank p List.mem_cons_self
    have hdefault := h.isDefault_iff p List.mem_cons_self
    rw [List.forall_mem_cons]
    cases ha : p.isDefault a with
    | true =>
      cases hb : p.isDefault b with
      | true =>
        rw [← ih h.tail, texts_cons, texts_cons, ha, hb]
        simp [(hdefault a).mp ha, (hdefault b).mp hb]
      | false =>
        obtain ⟨htexts, hvalue⟩ := h.differs hb ha
        exact iff_of_false htexts.symm fun heq => hvalue heq.1.symm
    | false =>
      cases hb : p.isDefault b with
      | true =>
        obtain ⟨htexts, hvalue⟩ := h.differs ha hb
        exact iff_of_false htexts fun heq => hvalue heq.1
      | false =>
        rw [← ih h.tail, texts_cons, texts_cons, ha, hb]
        simp only [Bool.false_eq_true, if_false, List.cons.injEq]
        refine and_congr_left' ⟨fun heq => (text_inj hblank hblank heq).2, fun heq => ?_⟩
        rw [text, text, heq]

end Property

/-! ## Tunables -/

namespace ArcadeBody

variable {a b : ArcadeBody}

/-- The body with no sign on any zero. -/
def unsigned (b : ArcadeBody) : ArcadeBody :=
  { b with
    offsetX := b.offsetX.unsigned
    offsetY := b.offsetY.unsigned
    mass := b.mass.unsigned
    bounceX := b.bounceX.unsigned
    bounceY := b.bounceY.unsigned
    velocityX := b.velocityX.unsigned
    velocityY := b.velocityY.unsigned
    maxVelocityX := b.maxVelocityX.unsigned
    maxVelocityY := b.maxVelocityY.unsigned
    accelerationX := b.accelerationX.unsigned
    accelerationY := b.accelerationY.unsigned
    dragX := b.dragX.unsigned
    dragY := b.dragY.unsigned
    gravityX := b.gravityX.unsigned
    gravityY := b.gravityY.unsigned
    frictionX := b.frictionX.unsigned
    frictionY := b.frictionY.unsigned
    angularVelocity := b.angularVelocity.unsigned
    maxAngular := b.maxAngular.unsigned
    angularAcceleration := b.angularAcceleration.unsigned
    angularDrag := b.angularDrag.unsigned }

/-- The tunables alone, without the offset of the shape. -/
def tunables (b : ArcadeBody) : ArcadeBody := { b.unsigned with offsetX := 0, offsetY := 0 }

theorem unsigned_eq_iff :
    a.unsigned = b.unsigned ↔ a.offsetX.unsigned = b.offsetX.unsigned ∧ a.offsetY.unsigned = b.offsetY.unsigned ∧
      a.tunables = b.tunables := by
  simp [unsigned, tunables]

theorem tunables_default : ({} : ArcadeBody).tunables = {} := by decide +kernel

end ArcadeBody

namespace Literal

theorem flag_inj {a b : Bool} : flag a = flag b ↔ a = b := by
  cases a <;> cases b <;> decide

end Literal

theorem Expr.number_same_iff {a b : Double} :
    (Expr.number a).same (.number b) = true ↔ (Expr.number a).render = (Expr.number b).render := by
  rw [render, render, Literal.number_eq_iff, Double.unsigned_eq_iff, same]

theorem Expr.map_number_eq_iff {ds es : List Double} :
    (ds.map number).map render = (es.map number).map render ↔ ds.map Double.unsigned = es.map Double.unsigned := by
  induction ds generalizing es with
  | nil => cases es <;> simp
  | cons d ds ih =>
    cases es with
    | nil => simp
    | cons e es => simp only [List.map_cons, List.cons.injEq, render, Literal.number_eq_iff, ih]

theorem Expr.flag_same_iff {a b : Bool} :
    (Expr.flag a).same (.flag b) = true ↔ (Expr.flag a).render = (Expr.flag b).render := by
  rw [render, render, Literal.flag_inj]
  simp [same]

theorem readable_bodyProperties : Property.Readable bodyProperties where
  nodup := by decide +kernel
  no_blank := by decide +kernel
  isDefault_iff := by
    simp only [bodyProperties, List.forall_mem_cons, List.not_mem_nil, false_imp_iff, implies_true, and_true]
    repeat' apply And.intro
    all_goals first
      | exact fun _ => Expr.number_same_iff
      | exact fun _ => Expr.flag_same_iff

theorem ArcadeBody.tunables_eq_iff {a b : ArcadeBody} :
    Property.texts bodyProperties a = Property.texts bodyProperties b ↔ a.tunables = b.tunables := by
  rw [Property.texts_eq_iff readable_bodyProperties]
  simp only [bodyProperties, List.forall_mem_cons, List.not_mem_nil, false_imp_iff, implies_true, and_true,
    Expr.render, Literal.number_eq_iff, Literal.flag_inj, tunables, unsigned, ArcadeBody.mk.injEq, true_and]

/-! ## Shapes -/

theorem Double.isZero_unsigned (d : Double) : d.unsigned.isZero = d.isZero := by
  unfold unsigned
  split
  · rename_i h
    rw [h]
    rfl
  · rfl

namespace ArcadeBody

variable {a b : ArcadeBody}

/-- The offset is written unless it is zero. -/
theorem offset_render_iff :
    a.offsetArguments.map Expr.render = b.offsetArguments.map Expr.render
      ↔ a.offsetX.unsigned = b.offsetX.unsigned ∧ a.offsetY.unsigned = b.offsetY.unsigned := by
  have hzeros : a.offsetX.unsigned = b.offsetX.unsigned ∧ a.offsetY.unsigned = b.offsetY.unsigned →
      (a.offsetX.isZero && a.offsetY.isZero) = (b.offsetX.isZero && b.offsetY.isZero) := fun ⟨hx, hy⟩ => by
    rw [← Double.isZero_unsigned a.offsetX, ← Double.isZero_unsigned a.offsetY, hx, hy, Double.isZero_unsigned,
      Double.isZero_unsigned]
  unfold offsetArguments
  cases ha : a.offsetX.isZero && a.offsetY.isZero with
  | true =>
    cases hb : b.offsetX.isZero && b.offsetY.isZero with
    | true =>
      obtain ⟨hax, hay⟩ := Bool.and_eq_true_iff.mp ha
      obtain ⟨hbx, hby⟩ := Bool.and_eq_true_iff.mp hb
      simp [Double.unsigned, hax, hay, hbx, hby]
    | false => exact iff_of_false (by simp) fun h => by simp [hzeros h, hb] at ha
  | false =>
    cases hb : b.offsetX.isZero && b.offsetY.isZero with
    | true => exact iff_of_false (by simp) fun h => by simp [hzeros h, hb] at ha
    | false => simp [Expr.render, Literal.number_eq_iff]

/-- The arguments of a shape: its sizes, and its offset if there is one. -/
def shapeArguments (sizes : List Double) (b : ArcadeBody) : List Expr := sizes.map .number ++ b.offsetArguments

theorem comma_not_mem_shapeArguments {sizes : List Double} :
    ∀ s ∈ (shapeArguments sizes a).map Expr.render, ',' ∉ s.toList := by
  have hnumber : ∀ e ∈ shapeArguments sizes a, ∃ d, e = .number d := by
    intro e he
    rcases List.mem_append.mp he with he | he
    · obtain ⟨d, -, rfl⟩ := List.mem_map.mp he
      exact ⟨d, rfl⟩
    · unfold offsetArguments at he
      split at he
      · cases he
      · simp only [List.mem_cons, List.not_mem_nil, or_false] at he
        rcases he with rfl | rfl <;> exact ⟨_, rfl⟩
  intro s hs hcomma
  obtain ⟨e, he, rfl⟩ := List.mem_map.mp hs
  obtain ⟨d, rfl⟩ := hnumber e he
  rcases Literal.mem_number hcomma with h | h | h
  · exact absurd h (by decide)
  · exact absurd h (by decide)
  · exact absurd h (by decide)

theorem renderAll_shapeArguments_iff {sizes sizes₂ : List Double} (hlength : sizes.length = sizes₂.length)
    (hne : sizes ≠ []) :
    Expr.renderAll (shapeArguments sizes a) = Expr.renderAll (shapeArguments sizes₂ b)
      ↔ sizes.map Double.unsigned = sizes₂.map Double.unsigned ∧ a.offsetX.unsigned = b.offsetX.unsigned ∧
        a.offsetY.unsigned = b.offsetY.unsigned := by
  have hne₂ : sizes₂ ≠ [] := fun h => hne (List.eq_nil_of_length_eq_zero (by rw [hlength, h]; rfl))
  have htexts : Expr.renderAll (shapeArguments sizes a) = Expr.renderAll (shapeArguments sizes₂ b)
      ↔ (shapeArguments sizes a).map Expr.render = (shapeArguments sizes₂ b).map Expr.render :=
    ⟨Text.intercalate_inj comma_not_mem_shapeArguments comma_not_mem_shapeArguments (by simp [shapeArguments, hne])
      (by simp [shapeArguments, hne₂]), fun h => by rw [Expr.renderAll, h, Expr.renderAll]⟩
  rw [htexts, shapeArguments, shapeArguments, List.map_append, List.map_append, ← offset_render_iff,
    ← Expr.map_number_eq_iff]
  exact ⟨fun h => List.append_inj h (by simp [hlength]), fun ⟨hsizes, hoffset⟩ => by rw [hsizes, hoffset]⟩

end ArcadeBody

/-! ## Bodies -/

namespace Body

/-- The body with no sign on any zero. -/
def unsigned : Body → Body
  | .absent => .absent
  | .circle radius arcade => .circle radius.unsigned arcade.unsigned
  | .rect width height arcade => .rect width.unsigned height.unsigned arcade.unsigned

/-- The tunables of a rectangle that takes a side from the texture. -/
def unsized? : Body → Option ArcadeBody
  | .absent => none
  | .circle _ _ => none
  | .rect width height arcade => if width = unsetSize ∨ height = unsetSize then some arcade.tunables else none

/-- No body, or a rectangle with an unset side and the engine's tunables. -/
def Bare (b : Body) : Prop := b = .absent ∨ b.unsized? = some {}

/-- A shape call after the variable and `body`. -/
def callText (method : String) (args : List Expr) : String := method ++ "(" ++ Expr.renderAll args ++ ");"

def shapeTexts : Body → List String
  | .absent => []
  | .circle radius arcade => [callText "setCircle" (arcade.shapeArguments [radius])]
  | .rect width height arcade =>
    if width = unsetSize ∨ height = unsetSize then []
    else [callText "setSize" (arcade.shapeArguments [width, height])]

theorem same_unsetSize {d : Double} : d.same unsetSize = true ↔ d = unsetSize := by
  have hzero : unsetSize.isZero = false := by decide +kernel
  simp [Double.same, hzero]

theorem lines_shapeBody (var method : String) (args : List Expr) :
    (Statement.shapeBody var method args).lines = [var ++ ".body." ++ callText method args] := by
  simp only [Statement.lines, callText, String.append_assoc]

theorem lines_shapeStatements (var : String) (b : Body) :
    Statement.linesOfAll (b.shapeStatements var) = b.shapeTexts.map (var ++ ".body." ++ ·) := by
  cases b with
  | absent => rfl
  | circle radius arcade => exact lines_shapeBody var "setCircle" _
  | rect width height arcade =>
    simp only [shapeStatements, shapeTexts, Bool.or_eq_true, same_unsetSize]
    split
    · rfl
    · exact lines_shapeBody var "setSize" _

/-- All that is written for a body besides the call that enables it. -/
def texts (b : Body) (arcade : ArcadeBody) : List String := b.shapeTexts ++ Property.texts bodyProperties arcade

theorem lines_statements {b : Body} {arcade : ArcadeBody} (h : b.arcade? = some arcade) (var : String)
    (inArcadeGroup : Bool) :
    Statement.linesOfAll (b.statements var inArcadeGroup)
      = (if inArcadeGroup then [] else ["this.game.physics.arcade.enable(" ++ var ++ ");"])
        ++ (b.texts arcade).map (var ++ ".body." ++ ·) := by
  have happend : ∀ s t, Statement.linesOfAll (s ++ t) = Statement.linesOfAll s ++ Statement.linesOfAll t :=
    fun s t => List.flatMap_append
  have hscope : var ++ "." ++ "body." = var ++ ".body." := by rw [String.append_assoc]; rfl
  have htunables := Property.lines_assignments var "body." arcade bodyProperties
  rw [hscope] at htunables
  simp only [statements, h, happend, lines_shapeStatements, htunables, texts, List.map_append, List.append_assoc]
  cases inArcadeGroup <;> rfl

theorem callText_inj {method : String} {args args₂ : List Expr} :
    callText method args = callText method args₂ ↔ Expr.renderAll args = Expr.renderAll args₂ := by
  simp only [callText, String.append_left_inj, String.append_right_inj]

theorem callText_circle_ne_size (args args₂ : List Expr) : callText "setCircle" args ≠ callText "setSize" args₂ := by
  intro h
  have hchars := congrArg String.toList h
  simp [callText] at hchars

/-- No path of a tunable begins as the methods do. -/
theorem callText_not_mem {method : String} (hmethod : method.toList.take 3 = ['s', 'e', 't']) (args : List Expr)
    (arcade : ArcadeBody) : callText method args ∉ Property.texts bodyProperties arcade := by
  have hpaths : ∀ p ∈ bodyProperties, p.path.toList.take 3 ≠ ['s', 'e', 't'] ∧ 3 ≤ p.path.toList.length := by
    decide +kernel
  have hlength : 3 ≤ method.toList.length := by
    have := congrArg List.length hmethod
    rw [List.length_take] at this
    simp only [List.length_cons, List.length_nil] at this
    omega
  intro h
  obtain ⟨p, hp, htext⟩ := List.mem_map.mp h
  obtain ⟨hne, hlong⟩ := hpaths p (List.mem_of_mem_filter hp)
  have hfront := congrArg (fun s : String => s.toList.take 3) htext
  simp only [Property.text, callText, String.toList_append, List.append_assoc,
    List.take_append_of_le_length hlong, List.take_append_of_le_length hlength] at hfront
  exact hne (hfront.trans hmethod)

/-- A shape has one call or none. -/
theorem shapeTexts_cases (b : Body) :
    b.shapeTexts = [] ∨ ∃ s, b.shapeTexts = [s] ∧ ∀ arcade, s ∉ Property.texts bodyProperties arcade := by
  cases b with
  | absent => exact .inl rfl
  | circle radius arcade => exact .inr ⟨_, rfl, callText_not_mem (by decide) _⟩
  | rect width height arcade =>
    rw [shapeTexts]
    split
    · exact .inl rfl
    · exact .inr ⟨_, rfl, callText_not_mem (by decide) _⟩

/-- What is written for two bodies is the same only call by call. -/
theorem texts_eq_iff {b c : Body} {arcade arcade₂ : ArcadeBody} :
    b.texts arcade = c.texts arcade₂ ↔ b.shapeTexts = c.shapeTexts ∧ arcade.tunables = arcade₂.tunables := by
  rw [← ArcadeBody.tunables_eq_iff, texts, texts]
  refine ⟨fun h => ?_, fun ⟨hshape, htunables⟩ => by rw [hshape, htunables]⟩
  rcases shapeTexts_cases b with hb | ⟨s, hb, hs⟩
  · rcases shapeTexts_cases c with hc | ⟨t, hc, ht⟩
    · rw [hb, hc] at h
      exact ⟨by rw [hb, hc], h⟩
    · rw [hb, hc, List.nil_append, List.singleton_append] at h
      exact absurd (h ▸ List.mem_cons_self) (ht arcade)
  · rcases shapeTexts_cases c with hc | ⟨t, hc, ht⟩
    · rw [hb, hc, List.nil_append, List.singleton_append] at h
      exact absurd (h ▸ List.mem_cons_self) (hs arcade₂)
    · rw [hb, hc] at h
      obtain ⟨rfl, htunables⟩ := List.cons.inj h
      exact ⟨by rw [hb, hc], htunables⟩

section Shapes

variable {r r₂ w w₂ l l₂ : Double} {a a₂ : ArcadeBody}

theorem circle_texts_iff :
    (circle r a).texts a = (circle r₂ a₂).texts a₂ ↔ (circle r a).unsigned = (circle r₂ a₂).unsigned := by
  have hargs : Expr.renderAll (a.shapeArguments [r]) = Expr.renderAll (a₂.shapeArguments [r₂]) ↔ _ :=
    ArcadeBody.renderAll_shapeArguments_iff rfl (List.cons_ne_nil _ _)
  rw [texts_eq_iff, shapeTexts, shapeTexts, List.cons.injEq, callText_inj, hargs, unsigned, unsigned, circle.injEq,
    ArcadeBody.unsigned_eq_iff]
  simp [and_assoc]

theorem circle_texts_ne_rect : (circle r a).texts a ≠ (rect w l a₂).texts a₂ := by
  intro h
  have hshape := (texts_eq_iff.mp h).1
  rw [shapeTexts, shapeTexts] at hshape
  split at hshape
  · cases hshape
  · exact callText_circle_ne_size _ _ (List.cons.inj hshape).1

/-- A side keeps its being unset. -/
theorem unsigned_eq_unsetSize {d : Double} : d.unsigned = unsetSize ↔ d = unsetSize := by
  have hunset : unsetSize.unsigned = unsetSize := by decide +kernel
  have hsame := Double.unsigned_eq_iff (a := d) (b := unsetSize)
  rw [hunset] at hsame
  exact hsame.trans same_unsetSize

/-- An unset side hides the size and the offset of a rectangle, and nothing else. -/
theorem rect_texts_iff :
    (rect w l a).texts a = (rect w₂ l₂ a₂).texts a₂
      ↔ (rect w l a).unsigned = (rect w₂ l₂ a₂).unsigned ∨
        ∃ t, (rect w l a).unsized? = some t ∧ (rect w₂ l₂ a₂).unsized? = some t := by
  have hargs : Expr.renderAll (a.shapeArguments [w, l]) = Expr.renderAll (a₂.shapeArguments [w₂, l₂]) ↔ _ :=
    ArcadeBody.renderAll_shapeArguments_iff rfl (List.cons_ne_nil _ _)
  have hsides : (rect w l a).unsigned = (rect w₂ l₂ a₂).unsigned →
      ((w = unsetSize ∨ l = unsetSize) ↔ (w₂ = unsetSize ∨ l₂ = unsetSize)) := fun h => by
    obtain ⟨hw, hl, -⟩ := rect.inj h
    rw [← unsigned_eq_unsetSize, ← unsigned_eq_unsetSize (d := l), hw, hl, unsigned_eq_unsetSize, unsigned_eq_unsetSize]
  rw [texts_eq_iff]
  by_cases h : w = unsetSize ∨ l = unsetSize
  · by_cases h₂ : w₂ = unsetSize ∨ l₂ = unsetSize
    · have htunables : (rect w l a).unsigned = (rect w₂ l₂ a₂).unsigned → a.tunables = a₂.tunables := fun h =>
        (ArcadeBody.unsigned_eq_iff.mp (rect.inj h).2.2).2.2
      simp only [shapeTexts, unsized?, if_pos h, if_pos h₂, true_and, Option.some.injEq]
      exact ⟨fun heq => .inr ⟨_, rfl, heq.symm⟩,
        fun heq => heq.elim htunables fun ⟨_, ht, ht₂⟩ => ht.trans ht₂.symm⟩
    · refine iff_of_false (fun heq => ?_) (not_or.mpr ⟨fun heq => h₂ ((hsides heq).mp h), ?_⟩)
      · simp [shapeTexts, if_pos h, if_neg h₂] at heq
      · rintro ⟨t, -, ht₂⟩
        simp [unsized?, if_neg h₂] at ht₂
  · by_cases h₂ : w₂ = unsetSize ∨ l₂ = unsetSize
    · refine iff_of_false (fun heq => ?_) (not_or.mpr ⟨fun heq => h ((hsides heq).mpr h₂), ?_⟩)
      · simp [shapeTexts, if_neg h, if_pos h₂] at heq
      · rintro ⟨t, ht, -⟩
        simp [unsized?, if_neg h] at ht
    · simp only [shapeTexts, unsized?, if_neg h, if_neg h₂, List.cons.injEq, callText_inj, hargs, unsigned, rect.injEq,
        ArcadeBody.unsigned_eq_iff, List.map_cons, List.map_nil, and_true, reduceCtorEq, false_and, exists_false,
        or_false, and_assoc]

/-- Two bodies that are there are written alike exactly if they are equal up to the signs of zeros, or both hide their shape
    and have equal tunables. -/
theorem texts_eq_iff_unsigned {b c : Body} (hb : b.arcade? = some a) (hc : c.arcade? = some a₂) :
    b.texts a = c.texts a₂ ↔ b.unsigned = c.unsigned ∨ ∃ t, b.unsized? = some t ∧ c.unsized? = some t := by
  cases b with
  | absent => cases hb
  | circle r arcade =>
    cases hb
    cases c with
    | absent => cases hc
    | circle r₂ arcade₂ =>
      cases hc
      simp [circle_texts_iff, unsized?]
    | rect w₂ l₂ arcade₂ =>
      cases hc
      simp [circle_texts_ne_rect, unsized?, unsigned]
  | rect w l arcade =>
    cases hb
    cases c with
    | absent => cases hc
    | circle r₂ arcade₂ =>
      cases hc
      simp [circle_texts_ne_rect.symm, unsized?, unsigned]
    | rect w₂ l₂ arcade₂ =>
      cases hc
      exact rect_texts_iff

end Shapes

theorem texts_eq_nil_iff {b : Body} {arcade : ArcadeBody} (h : b.arcade? = some arcade) :
    b.texts arcade = [] ↔ b.Bare := by
  have hdefault : Property.texts bodyProperties {} = [] := by decide +kernel
  have htunables : Property.texts bodyProperties arcade = [] ↔ arcade.tunables = {} := by
    rw [← hdefault, ArcadeBody.tunables_eq_iff, ArcadeBody.tunables_default]
  rw [texts, List.append_eq_nil_iff, htunables, Bare]
  cases b with
  | absent => cases h
  | circle r a => simp [shapeTexts, unsized?]
  | rect w l a =>
    cases h
    by_cases hunset : w = unsetSize ∨ l = unsetSize <;> simp [shapeTexts, unsized?, hunset]

theorem unsigned_ne_absent {b : Body} {arcade : ArcadeBody} (h : b.arcade? = some arcade) : b.unsigned ≠ .absent := by
  cases b with
  | absent => cases h
  | circle r a => exact Body.noConfusion
  | rect w l a => exact Body.noConfusion

theorem Bare.unsized? {b : Body} {arcade : ArcadeBody} (h : b.Bare) (hb : b.arcade? = some arcade) :
    b.unsized? = some {} := by
  rcases h with rfl | h
  · cases hb
  · exact h

/-- A body that is there has no lines only in a group that gives bodies. -/
theorem lines_eq_nil_iff {b : Body} {arcade : ArcadeBody} (h : b.arcade? = some arcade) (var : String)
    (inArcadeGroup : Bool) :
    Statement.linesOfAll (b.statements var inArcadeGroup) = [] ↔ inArcadeGroup = true ∧ b.Bare := by
  rw [lines_statements h, List.append_eq_nil_iff, List.map_eq_nil_iff, texts_eq_nil_iff h]
  cases inArcadeGroup <;> simp

end Body

/-- Two bodies have the same lines exactly if they are equal up to the signs of zeros, or both are rectangles with an unset
    side and equal tunables, or both need no lines at all in a group that gives bodies. -/
theorem body_lines_eq_iff (var : String) (inArcadeGroup : Bool) (b c : Body) :
    Statement.linesOfAll (b.statements var inArcadeGroup) = Statement.linesOfAll (c.statements var inArcadeGroup)
      ↔ b.unsigned = c.unsigned ∨ (∃ t, b.unsized? = some t ∧ c.unsized? = some t) ∨
        (inArcadeGroup = true ∧ b.Bare ∧ c.Bare) := by
  have hgone : Statement.linesOfAll (Body.absent.statements var inArcadeGroup) = [] := rfl
  have hbare : Body.absent.Bare := .inl rfl
  have hpresent : ∀ d : Body, d = .absent ∨ ∃ arcade, d.arcade? = some arcade := fun d => by
    cases d <;> simp [Body.arcade?]
  rcases hpresent b with rfl | ⟨arcade, hb⟩
  · rcases hpresent c with rfl | ⟨arcade, hc⟩
    · exact iff_of_true rfl (.inl rfl)
    · have hne : Body.absent.unsigned ≠ c.unsigned := (Body.unsigned_ne_absent hc).symm
      rw [hgone, eq_comm, Body.lines_eq_nil_iff hc]
      simp [hne, hbare, Body.unsized?]
  · rcases hpresent c with rfl | ⟨arcade₂, hc⟩
    · have hne : b.unsigned ≠ Body.absent.unsigned := Body.unsigned_ne_absent hb
      rw [hgone, Body.lines_eq_nil_iff hb]
      simp [hne, hbare, Body.unsized?]
    · have hinjective : Function.Injective (var ++ ".body." ++ ·) := fun s t => (String.append_right_inj _).mp
      rw [Body.lines_statements hb, Body.lines_statements hc, List.append_cancel_left_eq,
        (List.map_injective_iff.mpr hinjective).eq_iff, Body.texts_eq_iff_unsigned hb hc, ← or_assoc]
      refine (or_iff_left_of_imp ?_).symm
      rintro ⟨-, hbareb, hbarec⟩
      exact .inr ⟨{}, hbareb.unsized? hb, hbarec.unsized? hc⟩

/-- The height of a rectangle and its offset, if its width is unset, count for nothing. -/
example :
    Statement.linesOfAll ((Body.rect unsetSize 8 { offsetX := 3, mass := 2 }).statements "door" false)
      = Statement.linesOfAll ((Body.rect 5 unsetSize { mass := 2 }).statements "door" false) := by
  decide +kernel

end SceneScript
