/-
  SceneScript.Proofs.StarFree — a scene without stars is written without stars.

  Every marker of a script is a comment and needs two stars. The writer has none of its
  own in a statement: a literal is digits or a quoted text, a path and a factory are
  names. So the lines of the objects and of the public fields hold a star only where a
  text of the scene does (`objectLines_starFree`, `fieldLines_starFree`). `Model.texts`
  lists the texts of a scene, those of switched-off objects included.
-/
import SceneScript.Proofs.Digits
import SceneScript.Script.Generation

namespace SceneScript

namespace Text

/-- Has no star. -/
def StarFree (s : String) : Prop := '*' ∉ s.toList

instance (s : String) : Decidable (StarFree s) := inferInstanceAs (Decidable (¬ _))

@[simp] theorem starFree_append {x y : String} : StarFree (x ++ y) ↔ StarFree x ∧ StarFree y := by
  simp [StarFree]

@[simp] theorem starFree_ofList {cs : List Char} : StarFree (String.ofList cs) ↔ '*' ∉ cs := by
  simp [StarFree]

/-- Of a literal only its characters are looked at. -/
theorem StarFree.literal {cs : List Char} (h : '*' ∉ cs) : StarFree (String.ofList cs) := starFree_ofList.mpr h

@[simp] theorem starFree_empty : StarFree "" := by decide

theorem starFree_intercalate {separator : String} (hs : StarFree separator) :
    ∀ {parts : List String}, (∀ s ∈ parts, StarFree s) → StarFree (separator.intercalate parts)
  | [], _ => by simp [String.intercalate]
  | [s], h => by simpa using h s (by simp)
  | s :: t :: rest, h => by
    rw [String.intercalate_cons_cons, starFree_append, starFree_append]
    exact ⟨⟨h s (by simp), hs⟩, starFree_intercalate hs fun x hx => h x (by simp [hx])⟩

/-! ## Replacing and splitting -/

theorem mem_replaceFrom {mark new cs : List Char} {c : Char} (hn : c ∉ new) (hc : c ∉ cs) (skip : Nat) :
    c ∉ replaceFrom mark new skip cs := by
  fun_induction replaceFrom mark new skip cs with
  | case1 => simp
  | case2 skip d cs ih => exact ih fun h => hc (by simp [h])
  | case3 d cs rest h ih => simp [hn, ih fun h => hc (by simp [h])]
  | case4 d cs h ih =>
    simp only [List.mem_cons, not_or] at hc ⊢
    exact ⟨hc.1, ih hc.2⟩

/-- Replacing brings in no other characters than those of the new text. -/
theorem not_mem_replaceAll {mark new s : String} {c : Char} (hn : c ∉ new.toList) (hs : c ∉ s.toList) :
    c ∉ (replaceAll mark new s).toList := by
  simp only [replaceAll, String.toList_ofList, replaceChars]
  split
  · simp only [List.mem_append, List.mem_flatMap, List.mem_cons, not_or, not_exists, not_and]
    exact ⟨hn, fun d hd => ⟨fun h => hs (h ▸ hd), hn⟩⟩
  · exact mem_replaceFrom hn hs 0

theorem starFree_replaceAll {mark new s : String} (hn : StarFree new) (hs : StarFree s) :
    StarFree (replaceAll mark new s) :=
  not_mem_replaceAll hn hs

/-- Every character of a piece stands in the text. -/
theorem mem_of_mem_lineChars {cs line : List Char} {c : Char} (hl : line ∈ lineChars cs) (hc : c ∈ line) : c ∈ cs := by
  induction cs generalizing line with
  | nil =>
    simp only [lineChars, List.mem_singleton] at hl
    simp [hl] at hc
  | cons d cs ih =>
    simp only [lineChars] at hl
    split at hl
    · rcases List.mem_cons.mp hl with rfl | hl
      · cases hc
      · exact List.mem_cons_of_mem _ (ih hl hc)
    · split at hl
      · obtain rfl := List.mem_singleton.mp hl
        rw [List.mem_singleton.mp hc]
        exact List.mem_cons_self
      · rename_i first more heq
        rcases List.mem_cons.mp hl with rfl | hl
        · rcases List.mem_cons.mp hc with rfl | hc
          · exact List.mem_cons_self
          · exact List.mem_cons_of_mem _ (ih (by rw [heq]; simp) hc)
        · exact List.mem_cons_of_mem _ (ih (by rw [heq]; simp [hl]) hc)

theorem starFree_lines {s line : String} (h : StarFree s) (hl : line ∈ lines s) : StarFree line := by
  obtain ⟨cs, hcs, rfl⟩ := List.mem_map.mp hl
  rw [starFree_ofList]
  exact fun hc => h (mem_of_mem_lineChars hcs hc)

theorem mem_of_mem_trim {s : String} {c : Char} (h : c ∈ (trim s).toList) : c ∈ s.toList := by
  simp only [trim, trimEnd, String.toList_ofList, List.mem_reverse] at h
  exact (List.dropWhile_sublist _).mem (List.mem_reverse.mp ((List.dropWhile_sublist _).mem h))

theorem starFree_trim {s : String} (h : StarFree s) : StarFree (trim s) := fun hc => h (mem_of_mem_trim hc)

/-! ## Capitals -/

theorem ofNat_ne_star {n : Nat} (h : '*'.toNat < n) : Char.ofNat n ≠ '*' := by
  intro he
  by_cases hv : n.isValidChar
  · have hn : (Char.ofNat n).toNat = n := by
      rw [Char.ofNat, dif_pos hv]
      rfl
    rw [he] at hn
    omega
  · -- what is no character is written as the character zero
    rw [Char.ofNat, dif_neg hv] at he
    exact absurd (congrArg Char.toNat he) (by decide)

/-- No run of letters has a star for a capital. -/
theorem star_lt_shifted {r : CaseRun} (h : r ∈ caseRuns) : ('*'.toNat : Int) < r.first + r.shift := by
  have : ∀ r ∈ caseRuns, ('*'.toNat : Int) < r.first + r.shift := by decide +kernel
  exact this r h

theorem star_lt_several {entry : Nat × List Nat} (h : entry ∈ several) : ∀ n ∈ entry.2, '*'.toNat < n := by
  have : ∀ entry ∈ several, ∀ n ∈ entry.2, '*'.toNat < n := by decide +kernel
  exact this entry h

theorem star_not_mem_upperCase {c : Char} (h : c ≠ '*') : '*' ∉ upperCase c := by
  unfold upperCase
  split
  · rename_i capitals hf
    simp only [List.mem_map, not_exists, not_and]
    exact fun n hn => ofNat_ne_star (star_lt_several (List.mem_of_find?_eq_some hf) n hn)
  · split
    · rename_i r hf
      have hr := star_lt_shifted (List.mem_of_find?_eq_some hf)
      have hh := List.find?_some hf
      simp only [CaseRun.holds, Bool.and_eq_true, decide_eq_true_eq] at hh
      have hn : '*'.toNat < ((c.toNat : Int) + r.shift).toNat := by omega
      simpa using (ofNat_ne_star hn).symm
    · simpa using h.symm

end Text

open Text (StarFree starFree_append starFree_ofList starFree_intercalate)

/-! ## Literals -/

namespace Literal

theorem starFree_natText (n : Nat) : StarFree (Decimal.natText n) := by
  have hdigits : '*' ∉ Decimal.digitChars n := by
    intro h
    exact absurd (Decimal.isDigit_of_mem_digitChars h) (by decide)
  simpa [Decimal.natText] using hdigits

theorem starFree_number (d : Double) : StarFree (number d) := by
  intro h
  rcases mem_number h with h | h | h
  · exact absurd h (by decide)
  · exact absurd h (by decide)
  · exact absurd h (by decide)

theorem starFree_flag (b : Bool) : StarFree (flag b) := by
  cases b <;> decide

theorem star_not_mem_escapeChar {c : Char} (h : c ≠ '*') : '*' ∉ escapeChar c := by
  unfold escapeChar
  repeat' split
  all_goals first | decide | simpa using h.symm

theorem starFree_text {s : String} (h : StarFree s) : StarFree (text s) := by
  simp only [text, textChars, starFree_ofList, List.mem_cons, List.mem_append, List.mem_flatMap, not_or, not_exists,
    not_and]
  exact ⟨by decide, fun c hc => star_not_mem_escapeChar fun he => h (he ▸ hc), by decide, by simp⟩

theorem starFree_orNull {e : Option String} (h : ∀ s ∈ e, StarFree s) : StarFree (orNull e) := by
  unfold orNull
  split
  · decide
  · split
    · decide
    · exact Text.starFree_trim (h _ rfl)

end Literal

namespace Expr

/-- Has no star where it holds a text; numbers and flags have none. -/
protected def StarFree : Expr → Prop
  | .text s => Text.StarFree s
  | .raw source => Text.StarFree source
  | .number _ => True
  | .pixels _ => True
  | .word _ => True
  | .flag _ => True

@[simp] theorem starFree_number (d : Double) : (number d).StarFree := trivial

@[simp] theorem starFree_pixels (d : Double) : (pixels d).StarFree := trivial

@[simp] theorem starFree_flag (b : Bool) : (flag b).StarFree := trivial

@[simp] theorem starFree_text {s : String} : (text s).StarFree ↔ Text.StarFree s := .rfl

@[simp] theorem starFree_raw {source : String} : (raw source).StarFree ↔ Text.StarFree source := .rfl

@[simp] theorem starFree_null : null.StarFree := show Text.StarFree "null" by decide

theorem starFree_render {e : Expr} (h : e.StarFree) : StarFree e.render := by
  cases e with
  | number d => exact Literal.starFree_number d
  | pixels d => exact Literal.starFree_number _
  | word n => exact Literal.starFree_natText _
  | flag b => exact Literal.starFree_flag b
  | text s => exact Literal.starFree_text h
  | raw source => exact h

theorem starFree_renderAll {args : List Expr} (h : ∀ e ∈ args, e.StarFree) : StarFree (renderAll args) := by
  refine starFree_intercalate (by decide) fun s hs => ?_
  obtain ⟨e, he, rfl⟩ := List.mem_map.mp hs
  exact starFree_render (h e he)

end Expr

/-! ## Statements -/

namespace Statement

/-- No line of the statements has a star. -/
def AllStarFree (statements : List Statement) : Prop := ∀ line ∈ linesOfAll statements, StarFree line

@[simp] theorem allStarFree_nil : AllStarFree [] := by simp [AllStarFree, linesOfAll]

@[simp] theorem allStarFree_cons {s : Statement} {rest : List Statement} :
    AllStarFree (s :: rest) ↔ (∀ line ∈ s.lines, StarFree line) ∧ AllStarFree rest := by
  simp only [AllStarFree, linesOfAll, List.flatMap_cons, List.mem_append, or_imp, forall_and]

@[simp] theorem allStarFree_append {a b : List Statement} : AllStarFree (a ++ b) ↔ AllStarFree a ∧ AllStarFree b := by
  simp only [AllStarFree, linesOfAll, List.flatMap_append, List.mem_append, or_imp, forall_and]

theorem allStarFree_flatMap {α : Type} {f : α → List Statement} {l : List α} (h : ∀ a ∈ l, AllStarFree (f a)) :
    AllStarFree (l.flatMap f) := by
  induction l with
  | nil => simp
  | cons a l ih => simp [h a, ih fun b hb => h b (by simp [hb])]

theorem allStarFree_map {α : Type} {f : α → Statement} {l : List α} (h : ∀ a ∈ l, ∀ line ∈ (f a).lines, StarFree line) :
    AllStarFree (l.map f) := by
  induction l with
  | nil => simp
  | cons a l ih => simpa [h a] using ⟨h a (by simp), ih fun b hb => h b (by simp [hb])⟩

theorem starFree_declaration {name : String} (h : StarFree name) (declares : Bool) :
    StarFree (declaration name declares) := by
  unfold declaration
  split
  · simp only [starFree_append, and_assoc]
    exact ⟨by decide, h, by decide⟩
  · decide

theorem starFree_create {name : String} {declares : Bool} {call : Call} (hn : StarFree name)
    (hr : StarFree call.receiver) (hf : StarFree call.factory) (ha : ∀ e ∈ call.args, e.StarFree) :
    ∀ line ∈ (create name declares call).lines, StarFree line := by
  simp only [lines, List.mem_singleton, forall_eq, Call.render, starFree_append, and_assoc]
  exact ⟨starFree_declaration hn _, hr, by decide, hf, by decide, Expr.starFree_renderAll ha, by decide, by decide⟩

theorem starFree_assign {target path : String} {value : Expr} (ht : StarFree target) (hp : StarFree path)
    (hv : value.StarFree) : ∀ line ∈ (assign target path value).lines, StarFree line := by
  simp only [lines, List.mem_singleton, forall_eq, starFree_append, and_assoc]
  exact ⟨ht, by decide, hp, by decide, Expr.starFree_render hv, by decide⟩

theorem starFree_setTo {target path : String} {a b : Expr} (ht : StarFree target) (hp : StarFree path)
    (ha : a.StarFree) (hb : b.StarFree) :
    ∀ line ∈ (setTo target path a b).lines, StarFree line := by
  simp only [lines, List.mem_singleton, forall_eq, starFree_append, and_assoc]
  exact ⟨ht, by decide, hp, by decide, Expr.starFree_render ha, by decide, Expr.starFree_render hb, by decide⟩

theorem starFree_enableBody {target : String} (ht : StarFree target) :
    ∀ line ∈ (enableBody target).lines, StarFree line := by
  simp only [lines, List.mem_singleton, forall_eq, starFree_append, and_assoc]
  exact ⟨by decide, ht, by decide⟩

theorem starFree_shapeBody {target method : String} {args : List Expr} (ht : StarFree target) (hm : StarFree method)
    (ha : ∀ e ∈ args, e.StarFree) : ∀ line ∈ (shapeBody target method args).lines, StarFree line := by
  simp only [lines, List.mem_singleton, forall_eq, starFree_append, and_assoc]
  exact ⟨ht, by decide, hm, by decide, Expr.starFree_renderAll ha, by decide⟩

theorem starFree_attachData {target data : String} (ht : StarFree target) (hd : StarFree data) :
    ∀ line ∈ (attachData target data).lines, StarFree line := by
  intro line hl
  refine Text.starFree_lines ?_ hl
  simp only [dataText, starFree_append, and_assoc]
  exact ⟨ht, by decide, Text.starFree_replaceAll ht hd, by decide⟩

end Statement

/-! ## The texts of a scene -/

def Texture.texts : Texture → List String
  | .image key => [key]
  | .spritesheetFrame key _ => [key]
  | .atlasFrame key frame => [key, frame]

def Frame.texts : Frame → List String
  | .index _ => []
  | .name s => [s]

def Animation.texts (a : Animation) : List String := a.name :: a.frames.flatMap Frame.texts

def SpriteInfo.texts (s : SpriteInfo) : List String :=
  s.tint.toList ++ s.animations.flatMap Animation.texts ++ s.data.toList

def Sprite.texts (o : Sprite) : List String := o.info.name :: (o.texture.texts ++ o.sprite.texts)

def TileSprite.texts (o : TileSprite) : List String := o.info.name :: (o.texture.texts ++ o.sprite.texts)

def Button.texts (o : Button) : List String :=
  o.info.name :: (o.texture.texts ++ o.sprite.texts ++ o.callback.toList ++ o.callbackContext.toList
    ++ o.overFrame.toList.flatMap Frame.texts ++ o.downFrame.toList.flatMap Frame.texts
    ++ o.upFrame.toList.flatMap Frame.texts)

def BitmapText.texts (o : BitmapText) : List String := o.info.name :: o.font :: o.text :: o.align :: o.sprite.texts

mutual

/-- The texts of an object and of all inside it, switched off or not. -/
def SceneObject.texts : SceneObject → List String
  | .group info children _ => info.name :: textsOfAll children
  | .sprite _ o => o.texts
  | .button o => o.texts
  | .tileSprite o => o.texts
  | .bitmapText o => o.texts
termination_by structural o => o

def SceneObject.textsOfAll : List SceneObject → List String
  | [] => []
  | o :: rest => o.texts ++ textsOfAll rest
termination_by structural os => os

end

def Settings.texts (s : Settings) : List String :=
  s.className :: s.packUrl
    :: (s.spriteTexture.toList.flatMap Texture.texts ++ s.stageBackgroundColor.toList ++ s.preloadSections)

/-- Every text of a scene. -/
def Model.texts (m : Model) : List String := m.settings.texts ++ SceneObject.textsOfAll m.world

def Model.StarFree (m : Model) : Prop := ∀ s ∈ m.texts, Text.StarFree s

/-- Every text of a configuration. -/
def Config.texts (c : Config) : List String := [c.productName, c.indent, c.placeholderMessage]

def Config.StarFree (c : Config) : Prop := ∀ s ∈ c.texts, Text.StarFree s

instance (m : Model) : Decidable m.StarFree := inferInstanceAs (Decidable (∀ s ∈ m.texts, Text.StarFree s))

instance (c : Config) : Decidable c.StarFree := inferInstanceAs (Decidable (∀ s ∈ c.texts, Text.StarFree s))

/-! ## Properties -/

open Statement (AllStarFree allStarFree_nil allStarFree_cons allStarFree_append)

section Tables

variable {τ : Type} {var scope : String} {target : τ}

theorem starFree_settings {table : List (PairProperty τ)} (hv : StarFree var) (hp : ∀ p ∈ table, StarFree p.path) :
    AllStarFree (PairProperty.settings var target table) := by
  have hc : ∀ (p : PairProperty τ) (d : Double), (p.component d).StarFree := fun p d => by
    unfold PairProperty.component
    split <;> trivial
  refine Statement.allStarFree_map fun p hm => ?_
  exact Statement.starFree_setTo hv (hp p (List.mem_filter.mp hm).1) (hc _ _) (hc _ _)

theorem starFree_assignments {table : List (Property τ)} (hv : StarFree var) (hs : StarFree scope)
    (hp : ∀ p ∈ table, StarFree p.path) (hg : ∀ p ∈ table, (p.get target).StarFree) :
    AllStarFree (Property.assignments var scope target table) := by
  refine Statement.allStarFree_map fun p hm => ?_
  have hm := (List.mem_filter.mp hm).1
  exact Statement.starFree_assign hv (starFree_append.mpr ⟨hs, hp p hm⟩) (hg p hm)

end Tables

theorem starFree_bodyPath {p : Property ArcadeBody} (h : p ∈ bodyProperties) : StarFree p.path := by
  have : ∀ path ∈ bodyProperties.map (·.path), StarFree path := by decide +kernel
  exact this _ (List.mem_map_of_mem h)

/-- The tunables of a body are numbers and flags. -/
theorem starFree_bodyProperty {p : Property ArcadeBody} (h : p ∈ bodyProperties) (b : ArcadeBody) :
    (p.get b).StarFree := by
  revert p
  simp [bodyProperties]

variable {var : String}

theorem starFree_transform (hv : StarFree var) (t : Transform) (withPosition : Bool) :
    AllStarFree (t.statements var withPosition) := by
  simp only [Transform.statements, allStarFree_append]
  refine ⟨⟨?_, starFree_assignments hv (by decide) ?_ ?_⟩, starFree_settings hv ?_⟩
  · split
    · exact starFree_settings hv (by simp [groupPosition, StarFree])
    · simp
  · simp [angleProperty, StarFree]
  · simp [angleProperty]
  · simp [transformPairs, StarFree]

theorem starFree_display (hv : StarFree var) {s : SpriteInfo} (hs : ∀ x ∈ s.texts, StarFree x) :
    AllStarFree (s.displayStatements var) := by
  simp only [SpriteInfo.displayStatements, allStarFree_append]
  refine ⟨starFree_settings hv ?_, starFree_assignments hv (by decide) ?_ ?_⟩
  · simp [anchorProperty, StarFree]
  · simp [tintProperty, StarFree]
  · simp only [tintProperty, List.mem_singleton, forall_eq, Expr.starFree_raw]
    cases ht : s.tint with
    | none => decide
    | some tint => exact Text.starFree_trim (hs tint (by simp [SpriteInfo.texts, ht]))

theorem starFree_frame {f : Frame} (h : ∀ s ∈ f.texts, StarFree s) : f.expr.StarFree := by
  cases f with
  | index n => trivial
  | name s => exact h s (by simp [Frame.texts])

theorem starFree_animation (hv : StarFree var) {a : Animation} (ha : ∀ x ∈ a.texts, StarFree x) :
    AllStarFree (a.statements var) := by
  have hname : StarFree a.name := ha _ (by simp [Animation.texts])
  have hvar : StarFree (Naming.animationVariable var a.name) := by
    simp only [Naming.animationVariable, starFree_append, and_assoc]
    exact ⟨hv, by decide, hname⟩
  have hframes : StarFree (Expr.renderAll (a.frames.map Frame.expr)) := by
    refine Expr.starFree_renderAll fun e he => ?_
    obtain ⟨f, hf, rfl⟩ := List.mem_map.mp he
    exact starFree_frame fun s hs => ha s (List.mem_cons_of_mem _ (List.mem_flatMap.mpr ⟨f, hf, hs⟩))
  simp only [Animation.statements, allStarFree_cons, Statement.lines, List.mem_singleton, forall_eq, starFree_append,
    and_assoc]
  refine ⟨Statement.starFree_declaration hvar _, hv, by decide, Literal.starFree_text hname, by decide, hframes,
    by decide, Literal.starFree_natText _, by decide, Literal.starFree_flag _, by decide, ?_⟩
  split
  · simp only [allStarFree_cons, Statement.lines, List.mem_singleton, forall_eq, starFree_append, and_assoc]
    exact ⟨hvar, by decide, allStarFree_nil⟩
  · exact allStarFree_nil

theorem starFree_offset (b : ArcadeBody) : ∀ e ∈ b.offsetArguments, e.StarFree := by
  unfold ArcadeBody.offsetArguments
  split <;> simp

theorem starFree_body (hv : StarFree var) (body : Body) (inArcadeGroup : Bool) :
    AllStarFree (body.statements var inArcadeGroup) := by
  unfold Body.statements
  split
  · exact allStarFree_nil
  · rename_i arcade _
    simp only [allStarFree_append]
    refine ⟨⟨?_, ?_⟩, starFree_assignments hv (by decide) (fun _ => starFree_bodyPath) fun p hp =>
      starFree_bodyProperty hp arcade⟩
    · split
      · exact allStarFree_nil
      · exact allStarFree_cons.mpr ⟨Statement.starFree_enableBody hv, allStarFree_nil⟩
    · unfold Body.shapeStatements
      split
      · exact allStarFree_nil
      · refine allStarFree_cons.mpr ⟨Statement.starFree_shapeBody hv (by decide) ?_, allStarFree_nil⟩
        simpa using starFree_offset _
      · split
        · exact allStarFree_nil
        · refine allStarFree_cons.mpr ⟨Statement.starFree_shapeBody hv (by decide) ?_, allStarFree_nil⟩
          simpa using starFree_offset _

theorem starFree_data (hv : StarFree var) {data : Option String} (hd : ∀ s ∈ data, StarFree s) :
    AllStarFree (dataStatements var data) := by
  unfold dataStatements
  split
  · exact allStarFree_nil
  · split
    · exact allStarFree_nil
    · exact allStarFree_cons.mpr ⟨Statement.starFree_attachData hv (hd _ rfl), allStarFree_nil⟩

/-! ## Calls -/

theorem Texture.starFree_assetKey {t : Texture} (h : ∀ s ∈ t.texts, StarFree s) : StarFree t.assetKey := by
  cases t <;> exact h _ (by simp [texts, assetKey])

theorem Texture.starFree_frameExpr {t : Texture} (h : ∀ s ∈ t.texts, StarFree s) : t.frameExpr.StarFree := by
  cases t with
  | image key => exact Expr.starFree_null
  | spritesheetFrame key index => trivial
  | atlasFrame key frame => exact h frame (by simp [texts])

theorem starFree_frameOrNull {f : Option Frame} (h : ∀ s ∈ f.toList.flatMap Frame.texts, StarFree s) :
    (frameOrNull f).StarFree := by
  cases f with
  | none => exact Expr.starFree_null
  | some frame => exact starFree_frame (by simpa using h)

theorem SceneKind.starFree_receiver (k : SceneKind) : StarFree k.receiver := by
  cases k <;> decide

theorem PhysicsSystem.starFree_constant (p : PhysicsSystem) : StarFree p.constant := by
  cases p <;> decide

theorem SortDirection.starFree_constant (d : SortDirection) : StarFree d.constant := by
  cases d <;> decide

section Calls

variable {cx : Context} (hp : StarFree cx.parentName)
include hp

theorem starFree_parentArgument : ∀ parent ∈ cx.parentArgument?, StarFree parent := by
  unfold Context.parentArgument?
  cases cx.kind <;> simp [hp]

theorem starFree_parentArguments : ∀ e ∈ parentArguments cx, e.StarFree := by
  unfold parentArguments
  split
  · rename_i parent h
    simpa using starFree_parentArgument hp parent h
  · simp

theorem starFree_frameArguments {t : Texture} (ht : ∀ s ∈ t.texts, StarFree s) :
    ∀ e ∈ frameArguments cx t, e.StarFree := by
  have hf := Texture.starFree_frameExpr ht
  unfold frameArguments
  split
  · rename_i parent h
    simpa using ⟨hf, starFree_parentArgument hp parent h⟩
  · split
    · simp
    · simpa using hf

theorem starFree_groupCall (physics : GroupPhysics) : ∀ e ∈ (groupCall cx physics).args, e.StarFree := by
  unfold groupCall
  split <;> simp [Context.call, hp, physics.bodyType.starFree_constant]

theorem Sprite.starFree_call {o : Sprite} (ht : ∀ s ∈ o.texture.texts, StarFree s) :
    ∀ e ∈ (o.call cx).args, e.StarFree := by
  have hf := starFree_frameArguments hp ht
  simp only [Sprite.call, Context.call, placeArguments, List.forall_mem_append, List.forall_mem_cons,
    List.not_mem_nil, false_imp_iff, implies_true, Expr.starFree_pixels, Expr.starFree_text, true_and, and_true]
  exact ⟨Texture.starFree_assetKey ht, hf⟩

theorem TileSprite.starFree_call {o : TileSprite} (ht : ∀ s ∈ o.texture.texts, StarFree s) :
    ∀ e ∈ (o.call cx).args, e.StarFree := by
  have hf := starFree_frameArguments hp ht
  simp only [TileSprite.call, Context.call, placeArguments, List.forall_mem_append, List.forall_mem_cons,
    List.not_mem_nil, false_imp_iff, implies_true, Expr.starFree_pixels, Expr.starFree_text, true_and, and_true]
  exact ⟨Texture.starFree_assetKey ht, hf⟩

theorem Button.starFree_call {o : Button} (h : ∀ s ∈ o.texts, StarFree s) : ∀ e ∈ (o.call cx).args, e.StarFree := by
  simp only [texts, List.forall_mem_cons, List.forall_mem_append] at h
  obtain ⟨-, ⟨⟨⟨⟨⟨ht, -⟩, hcallback⟩, hcontext⟩, hover⟩, hdown⟩, hup⟩ := h
  simp only [Button.call, Context.call, placeArguments, List.forall_mem_append, List.forall_mem_cons,
    List.not_mem_nil, false_imp_iff, implies_true, Expr.starFree_pixels, Expr.starFree_text, Expr.starFree_raw,
    true_and, and_true]
  exact ⟨⟨Texture.starFree_assetKey ht, Literal.starFree_orNull (by simpa using hcallback),
    Literal.starFree_orNull (by simpa using hcontext), starFree_frameOrNull hover, Texture.starFree_frameExpr ht,
    starFree_frameOrNull hdown, starFree_frameOrNull hup⟩, starFree_parentArguments hp⟩

theorem BitmapText.starFree_call {o : BitmapText} (hf : StarFree o.font) (ht : StarFree o.text) :
    ∀ e ∈ (o.call cx).args, e.StarFree := by
  simp only [BitmapText.call, Context.call, placeArguments, List.forall_mem_append, List.forall_mem_cons,
    List.not_mem_nil, false_imp_iff, implies_true, Expr.starFree_pixels, Expr.starFree_number, Expr.starFree_text,
    true_and, and_true]
  exact ⟨⟨hf, ht⟩, starFree_parentArguments hp⟩

end Calls

/-! ## Objects -/

section Leaves

variable {cx : Context} {info : ObjectInfo} {sprite : SpriteInfo} {own : List Statement} {call : Call}

theorem starFree_leafProperties (hn : StarFree info.name) (hs : ∀ x ∈ sprite.texts, StarFree x)
    (ho : AllStarFree own) : AllStarFree (leafProperties cx info sprite own) := by
  simp only [leafProperties, allStarFree_append]
  refine ⟨⟨⟨⟨⟨starFree_transform hn _ _, starFree_display hn hs⟩, ho⟩, ?_⟩, starFree_body hn _ _⟩, ?_⟩
  · refine Statement.allStarFree_flatMap fun a ha => starFree_animation hn fun x hx => hs x ?_
    simp only [SpriteInfo.texts, List.mem_append, List.mem_flatMap]
    exact .inl (.inr ⟨a, ha, hx⟩)
  · exact starFree_data hn fun x hx => hs x (by simp [SpriteInfo.texts, Option.mem_def.mp hx])

theorem starFree_leaf (hn : StarFree info.name) (hs : ∀ x ∈ sprite.texts, StarFree x) (ho : AllStarFree own)
    (hr : StarFree call.receiver) (hf : StarFree call.factory) (ha : ∀ e ∈ call.args, e.StarFree) :
    AllStarFree (leafStatements cx info sprite own call) :=
  allStarFree_cons.mpr ⟨Statement.starFree_create hn hr hf ha, starFree_leafProperties hn hs ho⟩

end Leaves

theorem starFree_group {cx : Context} {info : ObjectInfo} (hn : StarFree info.name) (hp : StarFree cx.parentName)
    (physics : GroupPhysics) : AllStarFree (groupStatements cx info physics) := by
  refine allStarFree_cons.mpr ⟨Statement.starFree_create hn ?_ ?_ (starFree_groupCall hp physics), ?_⟩
  · unfold groupCall
    split <;> exact cx.kind.starFree_receiver
  · unfold groupCall
    split
    · exact (by decide : StarFree "physicsGroup")
    · exact (by decide : StarFree "group")
  · refine allStarFree_append.mpr ⟨starFree_transform hn _ _, starFree_assignments hn (by decide) ?_ ?_⟩
    · simp [groupProperties, StarFree]
    · simp [groupProperties, physics.sortDirection.starFree_constant]

theorem starFree_afterBlank {statements : List Statement} (h : AllStarFree statements) :
    AllStarFree (afterBlank statements) := by
  cases statements with
  | nil => exact allStarFree_nil
  | cons s rest => exact allStarFree_cons.mpr ⟨by simp [Statement.lines], h⟩

theorem starFree_unless {enabled : Bool} {statements : List Statement} (h : AllStarFree statements) :
    AllStarFree (if enabled then statements else []) := by
  split
  · exact h
  · exact allStarFree_nil

mutual

theorem SceneObject.starFree_statements {cx : Context} (hp : StarFree cx.parentName) :
    ∀ {o : SceneObject}, (∀ s ∈ o.texts, StarFree s) → AllStarFree (o.statements cx)
  | .group info children physics, h => by
    obtain ⟨hn, hc⟩ := List.forall_mem_cons.mp h
    have hchildren := starFree_statementsOfAll (show StarFree (cx.within info physics).parentName from hn) hc
    exact starFree_unless (allStarFree_append.mpr ⟨starFree_group hn hp physics, starFree_afterBlank hchildren⟩)
  | .sprite kind o, h => by
    obtain ⟨hn, h⟩ := List.forall_mem_cons.mp h
    obtain ⟨ht, hs⟩ := List.forall_mem_append.mp h
    exact starFree_unless (starFree_leaf hn hs allStarFree_nil cx.kind.starFree_receiver
      (show StarFree "sprite" by decide) (o.starFree_call hp ht))
  | .button o, h => by
    have hcall := o.starFree_call hp h
    obtain ⟨hn, h⟩ := List.forall_mem_cons.mp h
    have hs : ∀ s ∈ o.sprite.texts, StarFree s := fun s hs => h s (by simp [hs])
    exact starFree_unless (starFree_leaf hn hs allStarFree_nil cx.kind.starFree_receiver
      (show StarFree "button" by decide) hcall)
  | .tileSprite o, h => by
    obtain ⟨hn, h⟩ := List.forall_mem_cons.mp h
    obtain ⟨ht, hs⟩ := List.forall_mem_append.mp h
    exact starFree_unless (starFree_leaf hn hs (starFree_settings hn (by simp [tilePairs, StarFree]))
      cx.kind.starFree_receiver (show StarFree "tileSprite" by decide) (o.starFree_call hp ht))
  | .bitmapText o, h => by
    simp only [texts, BitmapText.texts, List.forall_mem_cons] at h
    obtain ⟨hn, hf, ht, ha, hs⟩ := h
    have hown : AllStarFree (Property.assignments o.info.name "" o bitmapTextProperties) :=
      starFree_assignments hn (by decide) (by simp [bitmapTextProperties, StarFree])
        (by simpa [bitmapTextProperties] using ha)
    exact starFree_unless (starFree_leaf hn hs hown cx.kind.starFree_receiver
      (show StarFree "bitmapText" by decide) (o.starFree_call hp hf ht))
termination_by structural o => o

theorem SceneObject.starFree_statementsOfAll {cx : Context} (hp : StarFree cx.parentName) :
    ∀ {os : List SceneObject}, (∀ s ∈ textsOfAll os, StarFree s) → AllStarFree (statementsOfAll cx os)
  | [], _ => allStarFree_nil
  | o :: rest, h => by
    obtain ⟨ho, hrest⟩ := List.forall_mem_append.mp h
    have ho := starFree_statements hp ho
    have hrest := starFree_statementsOfAll hp hrest
    simp only [statementsOfAll]
    split
    · exact hrest
    · exact allStarFree_append.mpr ⟨ho, starFree_afterBlank hrest⟩
termination_by structural os => os

end

/-- The lines that make the objects hold no star that their scene does not. -/
theorem objectLines_starFree {m : Model} (h : m.StarFree) : ∀ line ∈ m.objectLines, StarFree line := by
  have hp : StarFree (Context.parentName { kind := m.settings.kind }) := show StarFree "this" by decide
  exact SceneObject.starFree_statementsOfAll hp (List.forall_mem_append.mp h).2

/-! ## Public fields -/

theorem Naming.starFree_fieldName {name : String} (h : StarFree name) : StarFree (fieldName name) := by
  unfold fieldName
  split
  · decide
  · rename_i c rest hc
    simp only [StarFree, hc, List.mem_cons, not_or] at h
    simp only [starFree_ofList, List.mem_cons, List.mem_append, not_or]
    exact ⟨by decide, Text.star_not_mem_upperCase (Ne.symm h.1), h.2⟩

theorem PublicField.starFree_line {f : PublicField} (h : StarFree f.variableName) : StarFree f.line := by
  simp only [PublicField.line, starFree_append, and_assoc]
  exact ⟨by decide, Naming.starFree_fieldName h, by decide, h, by decide⟩

theorem SceneObject.name_mem_texts (o : SceneObject) : o.info.name ∈ o.texts := by
  cases o <;> exact List.mem_cons_self

theorem SceneObject.spriteTexts_subset {o : SceneObject} {sprite : SpriteInfo} (h : o.spriteInfo? = some sprite) :
    sprite.texts ⊆ o.texts := by
  intro x hx
  cases o with
  | group => cases h
  | sprite => cases h; simp [texts, Sprite.texts, hx]
  | button => cases h; simp [texts, Button.texts, hx]
  | tileSprite => cases h; simp [texts, TileSprite.texts, hx]
  | bitmapText => cases h; simp [texts, BitmapText.texts, hx]

theorem SceneObject.starFree_publicFields {o : SceneObject} (h : ∀ s ∈ o.texts, StarFree s) :
    ∀ f ∈ o.publicFields, StarFree f.variableName := by
  have hn := h _ o.name_mem_texts
  unfold publicFields
  refine List.forall_mem_append.mpr ⟨by split <;> simp [hn], ?_⟩
  split
  · simp
  · rename_i sprite hsprite
    intro f hf
    obtain ⟨a, ha, rfl⟩ := List.mem_map.mp hf
    have hname : a.name ∈ sprite.texts := by
      simp only [SpriteInfo.texts, List.mem_append, List.mem_flatMap]
      exact .inl (.inr ⟨a, (List.mem_filter.mp ha).1, List.mem_cons_self⟩)
    simp only [Naming.animationVariable, starFree_append, and_assoc]
    exact ⟨hn, by decide, h _ (spriteTexts_subset hsprite hname)⟩

mutual

theorem SceneObject.texts_of_enabled {o : SceneObject} :
    ∀ {within : SceneObject}, o ∈ within.enabledObjects → o.texts ⊆ within.texts
  | .group info children physics, h => by
    simp only [enabledObjects] at h
    split at h
    · rcases List.mem_cons.mp h with rfl | h
      · exact List.Subset.refl _
      · exact List.subset_cons_of_subset _ (textsOfAll_of_enabled h)
    · cases h
  | .sprite kind s, h => by
    obtain rfl : o = _ := by simpa [enabledObjects] using (List.mem_ite_nil_right.mp h).2
    exact List.Subset.refl _
  | .button s, h => by
    obtain rfl : o = _ := by simpa [enabledObjects] using (List.mem_ite_nil_right.mp h).2
    exact List.Subset.refl _
  | .tileSprite s, h => by
    obtain rfl : o = _ := by simpa [enabledObjects] using (List.mem_ite_nil_right.mp h).2
    exact List.Subset.refl _
  | .bitmapText s, h => by
    obtain rfl : o = _ := by simpa [enabledObjects] using (List.mem_ite_nil_right.mp h).2
    exact List.Subset.refl _
termination_by structural within => within

theorem SceneObject.textsOfAll_of_enabled {o : SceneObject} :
    ∀ {os : List SceneObject}, o ∈ enabledAmong os → o.texts ⊆ textsOfAll os
  | [], h => by cases h
  | p :: rest, h => by
    rcases List.mem_append.mp h with h | h
    · exact List.subset_append_of_subset_left _ (texts_of_enabled h)
    · exact List.subset_append_of_subset_right _ (textsOfAll_of_enabled h)
termination_by structural os => os

end

/-- The lines that set the public fields hold no star that their scene does not. -/
theorem fieldLines_starFree {m : Model} (h : m.StarFree) : ∀ line ∈ m.fieldLines, StarFree line := by
  intro line hl
  obtain ⟨f, hf, rfl⟩ := List.mem_map.mp hl
  obtain ⟨o, ho, hf⟩ := List.mem_flatMap.mp hf
  have hworld := (List.forall_mem_append.mp h).2
  exact PublicField.starFree_line
    (SceneObject.starFree_publicFields (fun s hs => hworld s (SceneObject.textsOfAll_of_enabled ho hs)) f hf)

end SceneScript
