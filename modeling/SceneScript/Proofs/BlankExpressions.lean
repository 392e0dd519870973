/-
  SceneScript.Proofs.BlankExpressions — an expression of white space counts as none.

  A leaf may hold expressions of the script: a tint, extra data, and if it is a button a
  callback and its context. One that is blank should do what an absent one does. Blank
  callbacks are written as `null` and blank data is not attached. A tint loses the white
  space around it, but whether anything is left is not asked: a blank tint is assigned,
  and the line is no statement of the language (`a_blank_tint_is_assigned`).

  Proved, for every leaf in every context (`blank_expressions_are_absent_iff`):
  - leaving out blank expressions changes no line, unless an enabled object loses a tint;
  - a statement that assigns is the text of its assignment, and this has a blank right side
    exactly for a blank tint, and for data that is blank once a blank name stands for `$$`;
  - the callback arguments of a button are never blank.
-/
import Mathlib.Data.List.TakeWhile
import SceneScript.Proofs.Digits
import SceneScript.Proofs.ObjectBlock
import SceneScript.Proofs.TextPieces

namespace SceneScript

/-! ## Blank texts -/

namespace Text

theorem isBlank_eq_false {s : String} {c : Char} (hc : c ∈ s.toList) (h : isBlankChar c = false) :
    isBlank s = false :=
  List.all_eq_false.mpr ⟨c, hc, by simp [h]⟩

theorem mem_dropWhile_of_not_blank {cs : List Char} {c : Char} (hc : c ∈ cs) (h : isBlankChar c = false) :
    c ∈ cs.dropWhile isBlankChar := by
  rw [← List.takeWhile_append_dropWhile (p := isBlankChar) (l := cs)] at hc
  rcases List.mem_append.mp hc with hc | hc
  · rw [List.mem_takeWhile_imp hc] at h
    cases h
  · exact hc

/-- What is blank is trimmed to nothing. -/
theorem trim_of_isBlank {s : String} (h : isBlank s = true) : trim s = "" := by
  have hall : s.toList.dropWhile isBlankChar = [] := List.dropWhile_eq_nil_iff.mpr (List.all_eq_true.mp h)
  simp [trim, hall, trimEnd]

@[simp] theorem isBlank_trim (s : String) : isBlank (trim s) = isBlank s := by
  cases h : isBlank s with
  | true => rw [trim_of_isBlank h]; rfl
  | false =>
    obtain ⟨c, hc, hblank⟩ := List.all_eq_false.mp h
    have hblank : isBlankChar c = false := by simpa using hblank
    refine isBlank_eq_false ?_ hblank
    have hfront := mem_dropWhile_of_not_blank hc hblank
    have hback := mem_dropWhile_of_not_blank (List.mem_reverse.mpr hfront) hblank
    simpa [trim, trimEnd] using hback

/-- A blank result comes from a blank text, unless what is put in is blank. -/
theorem blank_of_replaceFrom {mark new cs : List Char} (hnew : new.all isBlankChar = false) {skip : Nat}
    (hskip : skip = 0) (h : (replaceFrom mark new skip cs).all isBlankChar = true) : cs.all isBlankChar = true := by
  fun_induction replaceFrom mark new skip cs with
  | case1 => rfl
  | case2 skip c cs ih => cases hskip
  | case3 c cs rest hmark ih =>
    rw [List.all_append, hnew, Bool.false_and] at h
    cases h
  | case4 c cs hmark ih =>
    rw [List.all_cons, Bool.and_eq_true] at h ⊢
    exact ⟨h.1, ih rfl h.2⟩

theorem blank_of_replaceAll {mark new s : String} (hm : mark ≠ "") (hnew : isBlank new = false)
    (h : isBlank (replaceAll mark new s) = true) : isBlank s = true := by
  rw [replaceAll_eq_replaceFrom hm, isBlank, String.toList_ofList] at h
  exact blank_of_replaceFrom hnew rfl h

end Text

/-! ## Literals are not blank -/

namespace Literal

theorem isBlank_orNull (e : Option String) : Text.isBlank (orNull e) = false := by
  unfold orNull
  split
  · decide
  · split
    · decide
    · rename_i h
      simpa using h

/-- Blank or absent, an argument is `null`. -/
theorem orNull_of_blank {e : Option String} (h : ∀ s ∈ e, Text.isBlank s = true) : orNull e = "null" := by
  cases e with
  | none => rfl
  | some s => simp [orNull, h s rfl]

theorem isBlank_flag (b : Bool) : Text.isBlank (flag b) = false := by
  cases b <;> decide

theorem isBlank_text (s : String) : Text.isBlank (text s) = false :=
  Text.isBlank_eq_false (c := '\'') (by simp [text, textChars]) (by decide)

theorem not_blank_of_isDigit {c : Char} (h : c.isDigit = true) : Text.isBlankChar c = false := by
  have hrange : 48 ≤ c.toNat ∧ c.toNat ≤ 57 := by
    simpa [Char.isDigit, UInt32.le_iff_toNat_le] using h
  simp only [Text.isBlankChar, Bool.or_eq_false_iff, Bool.and_eq_false_iff, decide_eq_false_iff_not, beq_eq_false_iff_ne]
  omega

theorem isBlank_number (d : Double) : Text.isBlank (number d) = false := by
  obtain ⟨c, hc⟩ : ∃ c, c ∈ (number d).toList := by
    refine List.exists_mem_of_ne_nil _ fun h => number_ne_empty d ?_
    exact String.toList_injective h
  refine Text.isBlank_eq_false hc ?_
  rcases mem_number hc with h | rfl | rfl
  · exact not_blank_of_isDigit h
  · decide
  · decide

end Literal

/-! ## Leaving expressions out -/

/-- The fields of a leaf that hold an expression of the script or nothing. -/
inductive OptionalField where
  | tint
  | data
  | callback
  | callbackContext
  deriving DecidableEq

def SpriteInfo.leaveOut (drop : OptionalField → Bool) (s : SpriteInfo) : SpriteInfo :=
  { s with
    tint := if drop .tint then none else s.tint
    data := if drop .data then none else s.data }

def Button.leaveOut (drop : OptionalField → Bool) (b : Button) : Button :=
  { b with
    callback := if drop .callback then none else b.callback
    callbackContext := if drop .callbackContext then none else b.callbackContext
    sprite := b.sprite.leaveOut drop }

namespace SceneObject

/-- The object without the expressions of some fields. -/
def leaveOut (drop : OptionalField → Bool) : SceneObject → SceneObject
  | .group info children physics => .group info children physics
  | .sprite kind o => .sprite kind { o with sprite := o.sprite.leaveOut drop }
  | .button o => .button (o.leaveOut drop)
  | .tileSprite o => .tileSprite { o with sprite := o.sprite.leaveOut drop }
  | .bitmapText o => .bitmapText { o with sprite := o.sprite.leaveOut drop }

/-- Only a button has callbacks. -/
def button? : SceneObject → Option Button
  | .button b => some b
  | .group _ _ _ => none
  | .sprite _ _ => none
  | .tileSprite _ => none
  | .bitmapText _ => none

/-- The expression of a field, if there is one. -/
def expression? (o : SceneObject) : OptionalField → Option String
  | .tint => o.spriteInfo?.bind (·.tint)
  | .data => o.data?
  | .callback => o.button?.bind (·.callback)
  | .callbackContext => o.button?.bind (·.callbackContext)

/-- What the fields hold is blank, as far as they hold anything. -/
def BlankIn (o : SceneObject) (drop : OptionalField → Bool) : Prop :=
  ∀ f, drop f = true → ∀ e ∈ o.expression? f, Text.isBlank e = true

section LeaveOut

variable {o : SceneObject} {sprite : SpriteInfo} {drop : OptionalField → Bool}

@[simp] theorem info_leaveOut (o : SceneObject) : (o.leaveOut drop).info = o.info := by
  cases o <;> rfl

theorem spriteInfo?_leaveOut (hs : o.spriteInfo? = some sprite) :
    (o.leaveOut drop).spriteInfo? = some (sprite.leaveOut drop) := by
  cases o with
  | group info children physics => cases hs
  | sprite kind o => cases hs; rfl
  | button o => cases hs; rfl
  | tileSprite o => cases hs; rfl
  | bitmapText o => cases hs; rfl

theorem ownProperties_leaveOut (o : SceneObject) : (o.leaveOut drop).ownProperties = o.ownProperties := by
  cases o with
  | group info children physics => rfl
  | sprite kind o => rfl
  | button o => rfl
  | tileSprite o => exact PairProperty.settings_congr (by simp [tilePairs]) _
  | bitmapText o => exact Property.assignments_congr (by simp [bitmapTextProperties]) _ _

theorem orNull_leaveOut {e : Option String} {gone : Bool} (h : gone = true → ∀ s ∈ e, Text.isBlank s = true) :
    Literal.orNull (if gone then none else e) = Literal.orNull e := by
  cases gone with
  | true => exact (Literal.orNull_of_blank (h rfl)).symm
  | false => rfl

/-- A blank callback is written as an absent one. -/
theorem call_leaveOut (h : o.BlankIn drop) (cx : Context) : (o.leaveOut drop).call cx = o.call cx := by
  cases o with
  | group info children physics => rfl
  | sprite kind o => rfl
  | button o =>
    have hcallback := orNull_leaveOut (h .callback)
    have hcontext := orNull_leaveOut (h .callbackContext)
    simp only [expression?, button?, Option.bind_some] at hcallback hcontext
    simp only [leaveOut, call, Button.call, Button.leaveOut, hcallback, hcontext]
  | tileSprite o => rfl
  | bitmapText o => rfl

theorem statements_leaveOut (hs : o.spriteInfo? = some sprite) (he : o.info.enabled = true) (h : o.BlankIn drop)
    (cx : Context) :
    (o.leaveOut drop).statements cx
      = leafStatements cx o.info (sprite.leaveOut drop) o.ownProperties (o.call cx) := by
  have he' : (o.leaveOut drop).info.enabled = true := by rw [info_leaveOut, he]
  rw [statements_leaf (spriteInfo?_leaveOut hs) he', info_leaveOut, ownProperties_leaveOut, call_leaveOut h]

end LeaveOut

end SceneObject

/-! ## Tint and data -/

section Parts

variable {s : SpriteInfo} {drop : OptionalField → Bool} (var : String)

theorem tint_absent (h : s.tint = none) : Property.assignments var "" s [tintProperty] = [] := by
  simp [Property.assignments, Property.isDefault, tintProperty, h, Expr.same]

/-- A blank tint is not the default, so it is assigned. -/
theorem tint_blank {e : String} (h : s.tint = some e) (hblank : Text.isBlank e = true) :
    Property.assignments var "" s [tintProperty] = [.assign var "tint" (.raw "")] := by
  simp [Property.assignments, Property.isDefault, tintProperty, h, Expr.same, Text.trim_of_isBlank hblank, noTint]

theorem dataStatements_leaveOut (h : drop .data = true → ∀ d ∈ s.data, Text.isBlank d = true) :
    dataStatements var (s.leaveOut drop).data = dataStatements var s.data := by
  unfold SpriteInfo.leaveOut
  cases hdrop : drop .data with
  | false => rfl
  | true =>
    cases hdata : s.data with
    | none => rfl
    | some d => simp [dataStatements, h hdrop d hdata]

theorem leafProperties_leaveOut (cx : Context) (info : ObjectInfo) (own : List Statement)
    (h : drop .data = true → ∀ d ∈ s.data, Text.isBlank d = true) :
    leafProperties cx info (s.leaveOut drop) own
      = info.transform.statements info.name false
        ++ (PairProperty.settings info.name s [anchorProperty]
          ++ Property.assignments info.name "" (s.leaveOut drop) [tintProperty])
        ++ own
        ++ s.animations.flatMap (Animation.statements info.name)
        ++ s.body.statements info.name cx.inArcadeGroup
        ++ dataStatements info.name s.data := by
  have hanchor : PairProperty.settings info.name (s.leaveOut drop) [anchorProperty]
      = PairProperty.settings info.name s [anchorProperty] :=
    PairProperty.settings_congr (by simp [anchorProperty, SpriteInfo.leaveOut]) _
  rw [leafProperties, SpriteInfo.displayStatements, dataStatements_leaveOut info.name h, hanchor]
  rfl

end Parts

/-! ## Assignments -/

/-- `target.path = value;` -/
structure Assignment where
  target : String
  path : String
  value : String

def Assignment.text (a : Assignment) : String := a.target ++ "." ++ a.path ++ " = " ++ a.value ++ ";"

namespace Text

theorem lineChars_ne_nil (cs : List Char) : lineChars cs ≠ [] := by
  cases cs with
  | nil => simp [lineChars]
  | cons c cs =>
    rw [lineChars]
    split
    · simp
    · split <;> simp

/-- The pieces between line feeds give the text again. -/
theorem intercalate_lineChars (cs : List Char) : List.intercalate ['\n'] (lineChars cs) = cs := by
  induction cs with
  | nil => rfl
  | cons c cs ih =>
    rw [lineChars]
    split
    · rename_i hc
      rw [List.intercalate_cons_of_ne_nil (lineChars_ne_nil cs), ih, hc]
      rfl
    · split
      · rename_i hnil
        exact absurd hnil (lineChars_ne_nil cs)
      · rename_i line more hlines
        rw [hlines] at ih
        cases more with
        | nil => simpa using ih
        | cons next rest =>
          rw [List.intercalate_cons_of_ne_nil (List.cons_ne_nil _ _)] at ih ⊢
          rw [← ih]
          rfl

theorem intercalate_lines (s : String) : "\n".intercalate (lines s) = s := by
  have hchars := intercalate_lineChars s.toList
  apply String.toList_injective
  rw [String.toList_intercalate, lines, List.map_map]
  simpa [Function.comp_def] using hchars

end Text

namespace Statement

/-- What a statement assigns. -/
def assignment? : Statement → Option Assignment
  | .assign target path value => some ⟨target, path, value.render⟩
  | .attachData target data => some ⟨target, "data", Text.replaceAll "$$" target data⟩
  | .killOnComplete target animation => some ⟨Naming.animationVariable target animation, "killOnComplete", "true"⟩
  | .create _ _ _ => none
  | .setTo _ _ _ _ => none
  | .addAnimation _ _ => none
  | .enableBody _ => none
  | .shapeBody _ _ _ => none
  | .blank => none

/-- The lines of a statement that assigns are the text of the assignment. -/
theorem text_assignment? {s : Statement} {a : Assignment} (h : s.assignment? = some a) :
    "\n".intercalate s.lines = a.text := by
  cases s with
  | assign target path value => cases h; rfl
  | attachData target data =>
    cases h
    rw [lines, Text.intercalate_lines, dataText, Assignment.text]
    simp only [String.append_assoc]
    rfl
  | killOnComplete target animation =>
    cases h
    simp only [lines, Assignment.text, String.intercalate_singleton, String.append_assoc]
    rfl
  | create name declares call => cases h
  | setTo target path a b => cases h
  | addAnimation target animation => cases h
  | enableBody target => cases h
  | shapeBody target method args => cases h
  | blank => cases h

/-- Assigns nothing but white space. -/
def assignsBlank (s : Statement) : Bool := s.assignment?.any fun a => Text.isBlank a.value

end Statement

section Parts

variable {τ : Type} (var : String)

theorem assignsBlank_assignments (scope : String) (target : τ) (table : List (Property τ)) :
    (Property.assignments var scope target table).any Statement.assignsBlank
      = table.any fun p => !p.isDefault target && Text.isBlank (p.get target).render := by
  simp [Property.assignments, List.any_map, List.any_filter, Function.comp_def, Statement.assignsBlank,
    Statement.assignment?]

theorem assignsBlank_settings (target : τ) (table : List (PairProperty τ)) :
    (PairProperty.settings var target table).any Statement.assignsBlank = false := by
  simp [PairProperty.settings, Statement.assignsBlank, Statement.assignment?]

theorem assignsBlank_transform (t : Transform) (withPosition : Bool) :
    (t.statements var withPosition).any Statement.assignsBlank = false := by
  cases withPosition <;>
    simp [Transform.statements, assignsBlank_assignments, assignsBlank_settings, angleProperty, Expr.render,
      Literal.isBlank_number]

theorem assignsBlank_own {o : SceneObject} {sprite : SpriteInfo} (hs : o.spriteInfo? = some sprite) :
    o.ownProperties.any Statement.assignsBlank = false := by
  cases o with
  | group info children physics => cases hs
  | sprite kind o => rfl
  | button o => rfl
  | tileSprite o => exact assignsBlank_settings _ _ _
  | bitmapText o =>
    simp [SceneObject.ownProperties, assignsBlank_assignments, bitmapTextProperties, Expr.render, Literal.isBlank_number,
      Literal.isBlank_text]

theorem assignsBlank_animations (as : List Animation) :
    (as.flatMap (Animation.statements var)).any Statement.assignsBlank = false := by
  rw [List.any_flatMap, List.any_eq_false]
  intro a _
  have htrue : Text.isBlank "true" = false := by decide
  cases h : a.killOnComplete <;> simp [Animation.statements, h, Statement.assignsBlank, Statement.assignment?, htrue]

theorem assignsBlank_body (body : Body) (inArcadeGroup : Bool) :
    (body.statements var inArcadeGroup).any Statement.assignsBlank = false := by
  have hshape : (body.shapeStatements var).any Statement.assignsBlank = false := by
    unfold Body.shapeStatements
    split
    · rfl
    · rfl
    · split <;> rfl
  have henable : (if inArcadeGroup then [] else [Statement.enableBody var]).any Statement.assignsBlank = false := by
    cases inArcadeGroup <;> rfl
  unfold Body.statements
  cases body.arcade? with
  | none => rfl
  | some arcade =>
    simp [hshape, henable, assignsBlank_assignments, bodyProperties, Expr.render, Literal.isBlank_number,
      Literal.isBlank_flag]

theorem assignsBlank_tint (s : SpriteInfo) :
    (Property.assignments var "" s [tintProperty]).any Statement.assignsBlank = true
      ↔ ∃ e ∈ s.tint, Text.isBlank e = true := by
  cases h : s.tint with
  | none => simp [tint_absent var h]
  | some e =>
    by_cases hblank : Text.isBlank e = true
    · rw [tint_blank var h hblank]
      exact iff_of_true rfl ⟨e, rfl, hblank⟩
    · rw [assignsBlank_assignments]
      simp [tintProperty, h, Expr.render, hblank]

theorem assignsBlank_data (data : Option String) :
    (dataStatements var data).any Statement.assignsBlank = true
      ↔ Text.isBlank var = true ∧
        ∃ d ∈ data, Text.isBlank d = false ∧ Text.isBlank (Text.replaceAll "$$" var d) = true := by
  cases data with
  | none => simp [dataStatements]
  | some d =>
    cases hd : Text.isBlank d with
    | true => simp [dataStatements, hd]
    | false =>
      have hvar : Text.isBlank (Text.replaceAll "$$" var d) = true → Text.isBlank var = true := fun h => by
        by_contra hvar
        rw [Text.blank_of_replaceAll (by decide) (by simpa using hvar) h] at hd
        cases hd
      simpa [dataStatements, hd, Statement.assignsBlank, Statement.assignment?] using hvar

end Parts

/-! ## Blank and absent -/

section Leaf

variable {o : SceneObject} {sprite : SpriteInfo} (hs : o.spriteInfo? = some sprite) (he : o.info.enabled = true)
include hs he

theorem assignsBlank_leaf (cx : Context) :
    (o.statements cx).any Statement.assignsBlank = true
      ↔ (∃ e ∈ sprite.tint, Text.isBlank e = true) ∨ Text.isBlank o.info.name = true ∧
        ∃ d ∈ sprite.data, Text.isBlank d = false ∧ Text.isBlank (Text.replaceAll "$$" o.info.name d) = true := by
  have hcreate : ∀ declares, (Statement.create o.info.name declares (o.call cx)).assignsBlank = false := fun _ => rfl
  rw [SceneObject.statements_leaf hs he, leafStatements, List.any_cons, hcreate, Bool.false_or, leafProperties,
    SpriteInfo.displayStatements]
  simp only [List.any_append, Bool.or_eq_true, assignsBlank_transform, assignsBlank_settings, assignsBlank_own hs,
    assignsBlank_animations, assignsBlank_body, assignsBlank_tint, assignsBlank_data, Bool.false_eq_true, false_or,
    or_false]

/-- The assignment of a blank tint is a line of its own; otherwise the statements stay. -/
theorem lines_leaveOut_iff {drop : OptionalField → Bool} (h : o.BlankIn drop) (cx : Context) :
    Statement.linesOfAll ((o.leaveOut drop).statements cx) = Statement.linesOfAll (o.statements cx)
      ↔ ¬ (drop .tint = true ∧ sprite.tint.isSome = true) := by
  have hdata : drop .data = true → ∀ d ∈ sprite.data, Text.isBlank d = true := fun hdrop d hd =>
    h .data hdrop d (by simp [SceneObject.expression?, SceneObject.data?_leaf hs, hd])
  rw [SceneObject.statements_leaveOut hs he h, SceneObject.statements_leaf hs he]
  constructor
  · rintro hlines ⟨hdrop, htint⟩
    obtain ⟨e, htint⟩ := Option.isSome_iff_exists.mp htint
    have hblank : Text.isBlank e = true := h .tint hdrop e (by simp [SceneObject.expression?, hs, htint])
    have hnone : (sprite.leaveOut drop).tint = none := by simp [SpriteInfo.leaveOut, hdrop]
    have hcount := congrArg List.length hlines
    simp only [leafStatements, leafProperties_leaveOut cx o.info o.ownProperties hdata,
      tint_absent o.info.name hnone] at hcount
    simp only [leafProperties, SpriteInfo.displayStatements, tint_blank o.info.name htint hblank,
      Statement.linesOfAll, List.flatMap_cons, List.flatMap_append, List.length_append, Statement.lines,
      List.length_cons, List.length_nil, List.flatMap_nil] at hcount
    omega
  · intro hkept
    have htint : (sprite.leaveOut drop).tint = sprite.tint := by
      unfold SpriteInfo.leaveOut
      cases hdrop : drop .tint with
      | false => rfl
      | true =>
        have hnone : sprite.tint = none := by simpa [hdrop] using hkept
        exact hnone.symm
    have hassign : Property.assignments o.info.name "" (sprite.leaveOut drop) [tintProperty]
        = Property.assignments o.info.name "" sprite [tintProperty] :=
      Property.assignments_congr (by simp [tintProperty, htint]) _ _
    have hproperties : leafProperties cx o.info (sprite.leaveOut drop) o.ownProperties
        = leafProperties cx o.info sprite o.ownProperties := by
      rw [leafProperties_leaveOut cx o.info o.ownProperties hdata, hassign]
      rfl
    rw [leafStatements, leafStatements, hproperties]

end Leaf

/-- A leaf without its blank expressions has the same lines, unless it is enabled and the tint is one of them. The lines of
    an assignment are its text, and it has a blank right side exactly for a blank tint, and for data that is blank once a
    blank name stands for `$$`. The callback and the context of a button are never blank. -/
theorem blank_expressions_are_absent_iff (cx : Context) {o : SceneObject} {sprite : SpriteInfo}
    (hs : o.spriteInfo? = some sprite) :
    (∀ drop, o.BlankIn drop →
      (Statement.linesOfAll ((o.leaveOut drop).statements cx) = Statement.linesOfAll (o.statements cx)
        ↔ ¬ (o.info.enabled = true ∧ drop .tint = true ∧ sprite.tint.isSome = true))) ∧
      (∀ s ∈ o.statements cx, ∀ a, s.assignment? = some a → "\n".intercalate s.lines = a.text) ∧
      ((∃ s ∈ o.statements cx, ∃ a, s.assignment? = some a ∧ Text.isBlank a.value = true)
        ↔ o.info.enabled = true ∧ ((∃ e ∈ sprite.tint, Text.isBlank e = true) ∨
          Text.isBlank o.info.name = true ∧ ∃ d ∈ sprite.data, Text.isBlank d = false ∧
            Text.isBlank (Text.replaceAll "$$" o.info.name d) = true)) ∧
      ∀ b, o.button? = some b → ∃ callback context,
        (b.call cx).args[3]? = some callback ∧ (b.call cx).args[4]? = some context ∧
          Text.isBlank callback.render = false ∧ Text.isBlank context.render = false := by
  have hany : (∃ s ∈ o.statements cx, ∃ a, s.assignment? = some a ∧ Text.isBlank a.value = true)
      ↔ (o.statements cx).any Statement.assignsBlank = true := by
    simp [List.any_eq_true, Statement.assignsBlank, Option.any_eq_true]
  rw [hany]
  refine ⟨fun drop h => ?_, fun s _ a => Statement.text_assignment?, ?_,
    fun b _ => ⟨_, _, rfl, rfl, Literal.isBlank_orNull _, Literal.isBlank_orNull _⟩⟩
  · by_cases he : o.info.enabled = true
    · rw [lines_leaveOut_iff hs he h]
      simp [he]
    · have hgone : (o.leaveOut drop).statements cx = [] :=
        SceneObject.statements_of_disabled (by simpa using he)
      rw [hgone, SceneObject.statements_of_disabled (by simpa using he)]
      simp [he]
  · by_cases he : o.info.enabled = true
    · rw [assignsBlank_leaf hs he]
      simp [he]
    · rw [SceneObject.statements_of_disabled (by simpa using he)]
      simp [he]

/-- A button whose context and data are blank. -/
def startButton : Button where
  info := .named "start"
  texture := .image "start"
  callback := some " begin "
  callbackContext := some "\t"
  sprite := { tint := some "0xff0000", data := some " \n" }

theorem startButton_lines_stay :
    let drop : OptionalField → Bool := fun f => f = .callbackContext ∨ f = .data
    (SceneObject.button startButton).BlankIn drop ∧
      Statement.linesOfAll (((SceneObject.button startButton).leaveOut drop).statements { kind := .state })
        = Statement.linesOfAll ((SceneObject.button startButton).statements { kind := .state }) := by
  intro drop
  have hblank : (SceneObject.button startButton).BlankIn drop := by
    intro f hf e he
    cases f with
    | tint => cases hf
    | data => cases he; decide
    | callback => cases hf
    | callbackContext => cases he; decide
  have h := (blank_expressions_are_absent_iff { kind := .state } (o := .button startButton) rfl).1 drop hblank
  exact ⟨hblank, h.mpr (by decide)⟩

/-- A hero with a blank tint. -/
def blankHero : SceneObject :=
  .sprite .image { info := .named "hero", texture := .image "hero", sprite := { tint := some "  " } }

theorem a_blank_tint_is_assigned :
    blankHero.BlankIn (· = .tint) ∧
      Statement.linesOfAll (blankHero.statements { kind := .group })
        = ["var hero = this.game.add.sprite(0, 0, 'hero', null, this);", "hero.tint = ;"] ∧
      Statement.linesOfAll ((blankHero.leaveOut (· = .tint)).statements { kind := .group })
        = ["this.game.add.sprite(0, 0, 'hero', null, this);"] := by
  refine ⟨fun f hf e he => ?_, by decide +kernel, by decide +kernel⟩
  obtain rfl : f = .tint := by simpa using hf
  cases he
  decide

end SceneScript
