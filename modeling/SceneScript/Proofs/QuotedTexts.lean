/-
  SceneScript.Proofs.QuotedTexts — the literals among the statements of a scene.

  A statement quotes the texts of a scene: asset keys, frames, what a bitmap text says and
  in which font, the names of animations. `SceneObject.quotedTexts` says which, in which
  order, for each kind of object. Proved: if names are names and nothing is an expression
  that people wrote (`SceneObject.Tidy`), every statement is a line of code that closes the
  brackets it opens, and the literals of these lines are the quoted texts of the live
  objects and nothing else (`quotes_objectStatements`).

  `Quotes statements texts` is proved table by table and call by call, as the statements are
  made. Most of them have no literal at all.
-/
import SceneScript.Proofs.Nesting
import SceneScript.Proofs.ObjectBlock
import SceneScript.Proofs.ScriptScanner

namespace SceneScript

open Scan (Reads ReadsLines Runs IsName reads_ordinary reads_each reads_text)

/-! ## Expressions -/

namespace Expr

/-- The literal that an expression is, if it is one. -/
def quoted : Expr → List String
  | .text s => [s]
  | .number _ => []
  | .pixels _ => []
  | .word _ => []
  | .flag _ => []
  | .raw _ => []

@[simp] theorem quoted_text (s : String) : (text s).quoted = [s] := rfl

@[simp] theorem quoted_number (d : Double) : (number d).quoted = [] := rfl

@[simp] theorem quoted_pixels (d : Double) : (pixels d).quoted = [] := rfl

@[simp] theorem quoted_raw (source : String) : (raw source).quoted = [] := rfl

/-- What is written as it stands is code without literals. -/
def Legible : Expr → Prop
  | .raw source => Reads source []
  | .text _ => True
  | .number _ => True
  | .pixels _ => True
  | .word _ => True
  | .flag _ => True

theorem legible_null : null.Legible := reads_ordinary (by decide)

theorem reads_digits {x : String} (h : ∀ c ∈ x.toList, c.isDigit = true ∨ c = '.' ∨ c = '-') : Reads x [] := by
  have hspecial : Scan.special.all (fun c => ¬(c.isDigit = true ∨ c = '.' ∨ c = '-')) = true := by decide
  exact reads_ordinary fun c hc hs => of_decide_eq_true (List.all_eq_true.mp hspecial c hs) (h c hc)

theorem reads_natText (n : Nat) : Reads (Decimal.natText n) [] :=
  reads_digits fun c hc => .inl (Decimal.isDigit_of_mem_digitChars (n := n) (by simpa [Decimal.natText] using hc))

theorem reads_flag (b : Bool) : Reads (Literal.flag b) [] := by
  cases b <;> exact reads_ordinary (by decide)

theorem reads {e : Expr} (h : e.Legible) : Reads e.render e.quoted := by
  cases e with
  | number d => exact reads_digits fun _ => Literal.mem_number
  | pixels d => exact reads_digits fun _ => Literal.mem_number
  | word n => exact reads_natText _
  | flag b => exact reads_flag b
  | text s => exact reads_text s
  | raw source => exact h

theorem reads_renderAll : ∀ {args : List Expr}, (∀ e ∈ args, e.Legible) → Reads (renderAll args) (args.flatMap quoted)
  | [], _ => fun _ => rfl
  | [e], h => by simpa [renderAll] using reads (h e List.mem_cons_self)
  | e :: f :: rest, h => by
    obtain ⟨he, hrest⟩ := List.forall_mem_cons.mp h
    have hjoin : renderAll (e :: f :: rest) = e.render ++ ", " ++ renderAll (f :: rest) := by
      simp [renderAll, String.intercalate_cons_cons]
    have hcomma : Reads ", " [] := reads_ordinary (by decide)
    rw [hjoin, List.flatMap_cons]
    exact ((reads he).silent hcomma).append (reads_renderAll hrest)

end Expr

/-! ## Statements -/

/-- The lines of the statements are code, and these are their literals. -/
def Quotes (statements : List Statement) (texts : List String) : Prop :=
  ReadsLines (Statement.linesOfAll statements) texts

namespace Quotes

variable {xs ys : List Statement} {as bs : List String}

theorem nil : Quotes [] [] := ReadsLines.nil

theorem append (hx : Quotes xs as) (hy : Quotes ys bs) : Quotes (xs ++ ys) (as ++ bs) := by
  rw [Quotes, Statement.linesOfAll, List.flatMap_append]
  exact ReadsLines.append hx hy

/-- Statements without literals add none. -/
theorem silent (hx : Quotes xs as) (hy : Quotes ys []) : Quotes (xs ++ ys) as := by
  simpa using hx.append hy

theorem single {s : Statement} {line : String} (hl : s.lines = [line]) (hr : Reads line as) : Quotes [s] as := by
  rw [Quotes, Statement.linesOfAll, List.flatMap_singleton, hl]
  exact .single hr

theorem flatMap {α : Type} {f : α → List Statement} {g : α → List String} {l : List α}
    (h : ∀ a ∈ l, Quotes (f a) (g a)) : Quotes (l.flatMap f) (l.flatMap g) := by
  induction l with
  | nil => exact .nil
  | cons a l ih =>
    obtain ⟨ha, hl⟩ := List.forall_mem_cons.mp h
    exact ha.append (ih hl)

theorem map {α : Type} {f : α → Statement} {g : α → List String} {l : List α} (h : ∀ a ∈ l, Quotes [f a] (g a)) :
    Quotes (l.map f) (l.flatMap g) := by
  rw [List.map_eq_flatMap]
  exact flatMap h

end Quotes

section Lines

variable {target path : String} {a b : Expr} {texts : List String}

theorem reads_declaration {name : String} (h : Reads name []) (declares : Bool) :
    Reads (Statement.declaration name declares) [] := by
  unfold Statement.declaration
  split
  · have hvar : Reads "var " [] := reads_ordinary (by decide)
    exact (hvar.silent h).silent (reads_ordinary (by decide))
  · exact fun _ => rfl

theorem reads_call {c : Call} (hr : Reads c.receiver []) (hf : Reads c.factory []) (ha : ∀ e ∈ c.args, e.Legible) :
    Reads c.render (c.args.flatMap Expr.quoted) := fun o => by
  have hopen : Runs ⟨.code, o⟩ (c.receiver ++ ".add." ++ c.factory ++ "(") ⟨.code, .round :: o⟩ [] :=
    (((hr o).silent (.lit (by decide))).silent (hf o)).silent (.opening (by decide))
  exact (hopen.append (Expr.reads_renderAll ha _)).silent (.closing (by decide))

theorem quotes_create {name : String} {declares : Bool} {c : Call} (hn : Reads name [])
    (hc : Reads c.render texts) : Quotes [.create name declares c] texts :=
  .single rfl (((reads_declaration hn declares).append hc).silent (reads_ordinary (by decide)))

theorem quotes_assign (ht : Reads target []) (hp : Reads path []) (ha : a.Legible) :
    Quotes [.assign target path a] a.quoted := by
  have hpoint : Reads "." [] := reads_ordinary (by decide)
  have hequals : Reads " = " [] := reads_ordinary (by decide)
  exact .single rfl
    (((((ht.silent hpoint).silent hp).silent hequals).append (Expr.reads ha)).silent (reads_ordinary (by decide)))

theorem quotes_setTo (ht : Reads target []) (hp : Reads path []) (ha : a.Legible) (hb : b.Legible) :
    Quotes [.setTo target path a b] (a.quoted ++ b.quoted) := by
  refine .single rfl fun o => ?_
  have hopen : Runs ⟨.code, o⟩ (target ++ "." ++ path ++ ".setTo(") ⟨.code, .round :: o⟩ [] :=
    (((ht o).silent (.lit (by decide))).silent (hp o)).silent (.opening (by decide))
  exact (((hopen.append (Expr.reads ha _)).silent (.lit (by decide))).append (Expr.reads hb _)).silent (.closing (by decide))

theorem quotes_enableBody (ht : Reads target []) : Quotes [.enableBody target] [] := by
  refine .single rfl fun o => ?_
  have hopen : Runs ⟨.code, o⟩ "this.game.physics.arcade.enable(" ⟨.code, .round :: o⟩ [] := .opening (by decide)
  exact (hopen.silent (ht _)).silent (.closing (by decide))

theorem quotes_shapeBody {method : String} {args : List Expr} (ht : Reads target []) (hm : Reads method [])
    (ha : ∀ e ∈ args, e.Legible) : Quotes [.shapeBody target method args] (args.flatMap Expr.quoted) := by
  refine .single rfl fun o => ?_
  have hopen : Runs ⟨.code, o⟩ (target ++ ".body." ++ method ++ "(") ⟨.code, .round :: o⟩ [] :=
    (((ht o).silent (.lit (by decide))).silent (hm o)).silent (.opening (by decide))
  exact (hopen.append (Expr.reads_renderAll ha _)).silent (.closing (by decide))

end Lines

/-! ## Tables -/

section Tables

variable {τ : Type} {var scope : String} {target : τ}

theorem quotes_settings {table : List (PairProperty τ)} (hv : Reads var []) (hp : ∀ p ∈ table, Reads p.path []) :
    Quotes (PairProperty.settings var target table) [] := by
  have hcomponent : ∀ (p : PairProperty τ) (d : Double), (p.component d).Legible ∧ (p.component d).quoted = [] := by
    intro p d
    unfold PairProperty.component
    split <;> exact ⟨trivial, rfl⟩
  have h : ∀ p ∈ table.filter fun p => !p.isDefault target,
      Quotes [.setTo var p.path (p.component (p.get target).1) (p.component (p.get target).2)] [] := by
    intro p hm
    have := quotes_setTo hv (hp p (List.mem_filter.mp hm).1) (hcomponent p (p.get target).1).1
      (hcomponent p (p.get target).2).1
    rwa [(hcomponent p _).2, (hcomponent p _).2] at this
  have := Quotes.map h
  rwa [List.flatMap_eq_nil_iff.mpr fun _ _ => rfl] at this

theorem quotes_assignments {table : List (Property τ)} (hv : Reads var []) (hs : Reads scope [])
    (hp : ∀ p ∈ table, Reads p.path []) (hg : ∀ p ∈ table, (p.get target).Legible) :
    Quotes (Property.assignments var scope target table)
      ((table.filter fun p => !p.isDefault target).flatMap fun p => (p.get target).quoted) := by
  refine Quotes.map fun p hm => ?_
  have hm := (List.mem_filter.mp hm).1
  exact quotes_assign hv (hs.silent (hp p hm)) (hg p hm)

/-- A table without texts adds no literals. -/
theorem quotes_assignments_silent {table : List (Property τ)} (hv : Reads var []) (hs : Reads scope [])
    (hp : ∀ p ∈ table, Reads p.path []) (hg : ∀ p ∈ table, (p.get target).Legible ∧ (p.get target).quoted = []) :
    Quotes (Property.assignments var scope target table) [] := by
  have := quotes_assignments hv hs hp fun p hm => (hg p hm).1
  rwa [List.flatMap_eq_nil_iff.mpr fun p hm => (hg p (List.mem_filter.mp hm).1).2] at this

end Tables

/-! ## Properties -/

section Properties

variable {var : String} (hv : Reads var [])
include hv

theorem quotes_transform (t : Transform) (withPosition : Bool) : Quotes (t.statements var withPosition) [] := by
  have hposition : Quotes (if withPosition then PairProperty.settings var t [groupPosition] else []) [] := by
    split
    · exact quotes_settings hv (reads_each (by decide))
    · exact .nil
  have hangle : Quotes (Property.assignments var "" t [angleProperty]) [] :=
    quotes_assignments_silent hv Scan.Reads.empty (reads_each (by decide))
      (List.forall_mem_singleton.mpr ⟨trivial, rfl⟩)
  exact (hposition.silent hangle).silent (quotes_settings hv (reads_each (by decide)))

theorem quotes_display {s : SpriteInfo} (ht : s.tint = none) : Quotes (s.displayStatements var) [] := by
  have hdefault : (Expr.raw noTint).Legible := reads_ordinary (by decide)
  have htint : (tintProperty.get s).Legible := by simpa [tintProperty, ht] using hdefault
  exact (quotes_settings hv (reads_each (by decide))).silent
    (quotes_assignments_silent hv Scan.Reads.empty (reads_each (by decide))
      (List.forall_mem_singleton.mpr ⟨htint, rfl⟩))

/-- The sizes of a shape are numbers. -/
theorem quotes_shape (body : Body) : Quotes (body.shapeStatements var) [] := by
  have hoffset : ∀ b : ArcadeBody, ∀ e ∈ b.offsetArguments, e.Legible ∧ e.quoted = [] := by
    intro b
    unfold ArcadeBody.offsetArguments
    split <;> simp [Expr.Legible]
  have hcall : ∀ {method : String} {args : List Expr}, Reads method [] → (∀ e ∈ args, e.Legible ∧ e.quoted = []) →
      Quotes [.shapeBody var method args] [] := by
    intro method args hm ha
    have := quotes_shapeBody hv hm fun e he => (ha e he).1
    rwa [List.flatMap_eq_nil_iff.mpr fun e he => (ha e he).2] at this
  have hnumber : ∀ d : Double, (Expr.number d).Legible ∧ (Expr.number d).quoted = [] := fun _ => ⟨trivial, rfl⟩
  cases body with
  | absent => exact .nil
  | circle radius b =>
    exact hcall (reads_ordinary (by decide)) (List.forall_mem_cons.mpr ⟨hnumber radius, hoffset b⟩)
  | rect width height b =>
    simp only [Body.shapeStatements]
    split
    · exact .nil
    · exact hcall (reads_ordinary (by decide))
        (List.forall_mem_cons.mpr ⟨hnumber width, List.forall_mem_cons.mpr ⟨hnumber height, hoffset b⟩⟩)

theorem quotes_body (body : Body) (inArcadeGroup : Bool) : Quotes (body.statements var inArcadeGroup) [] := by
  unfold Body.statements
  split
  · exact .nil
  · rename_i arcade _
    have henable : Quotes (if inArcadeGroup then [] else [.enableBody var]) [] := by
      split
      · exact .nil
      · exact quotes_enableBody hv
    refine (henable.silent (quotes_shape hv body)).silent
      (quotes_assignments_silent hv (reads_ordinary (by decide)) (reads_each (by decide +kernel)) fun p hp => ?_)
    rcases SceneObject.get_bodyProperty hp arcade with ⟨d, hd⟩ | ⟨f, hf⟩
    · rw [hd]
      exact ⟨trivial, rfl⟩
    · rw [hf]
      exact ⟨trivial, rfl⟩

theorem quotes_animation {a : Animation} (ha : Reads a.name []) : Quotes (a.statements var) a.texts := by
  have hvariable : Reads (Naming.animationVariable var a.name) [] :=
    (hv.silent (reads_ordinary (by decide))).silent ha
  have hframe : ∀ f : Frame, f.expr.Legible ∧ f.expr.quoted = f.texts := by
    intro f
    cases f <;> exact ⟨trivial, rfl⟩
  have hframes : Reads (Expr.renderAll (a.frames.map Frame.expr)) (a.frames.flatMap Frame.texts) := by
    have := Expr.reads_renderAll (List.forall_mem_map.mpr fun f (_ : f ∈ a.frames) => (hframe f).1)
    rwa [List.flatMap_map, List.flatMap_congr fun f _ => (hframe f).2] at this
  have hadd : Quotes [.addAnimation var a] a.texts := by
    refine .single rfl fun o => ?_
    have hopen : Runs ⟨.code, o⟩ (Statement.declaration (Naming.animationVariable var a.name) a.hasVariable ++ var
        ++ ".animations.add(") ⟨.code, .round :: o⟩ [] :=
      (((reads_declaration hvariable _) o).silent (hv o)).silent (.opening (by decide))
    have hlist : Runs ⟨.code, .round :: o⟩ ", [" ⟨.code, .square :: .round :: o⟩ [] := .opening (by decide)
    exact ((((((hopen.append (reads_text a.name _)).silent hlist).append (hframes _)).silent
      (.closing (by decide))).silent (Expr.reads_natText _ _)).silent (.lit (by decide))).silent
        (Expr.reads_flag _ _) |>.silent (.closing (by decide))
  have hkill : Quotes (if a.killOnComplete then [.killOnComplete var a.name] else []) [] := by
    split
    · exact .single rfl (hvariable.silent (reads_ordinary (by decide)))
    · exact .nil
  exact hadd.silent hkill

end Properties

/-! ## Calls -/

/-- The text of the frame that a texture picks. -/
def Texture.frameTexts : Texture → List String
  | .image _ => []
  | .spritesheetFrame _ _ => []
  | .atlasFrame _ frame => [frame]

namespace SceneObject

/-- The texts that the call making an object quotes. -/
def callTexts : SceneObject → List String
  | .group _ _ _ => []
  | .sprite _ o => o.texture.assetKey :: o.texture.frameTexts
  | .button o =>
    o.texture.assetKey :: (o.overFrame.toList.flatMap Frame.texts ++ o.texture.frameTexts
      ++ o.downFrame.toList.flatMap Frame.texts ++ o.upFrame.toList.flatMap Frame.texts)
  | .tileSprite o => o.texture.assetKey :: o.texture.frameTexts
  | .bitmapText o => [o.font, o.text]

/-- The texts among the properties of its own kind: only an alignment, and only if it is not the engine's. -/
def ownTexts : SceneObject → List String
  | .bitmapText o => if o.align = "left" then [] else [o.align]
  | .group _ _ _ => []
  | .sprite _ _ => []
  | .button _ => []
  | .tileSprite _ => []

/-- The texts that the statements of an object quote, in order. -/
def quotedTexts (o : SceneObject) : List String :=
  o.callTexts ++ (o.ownTexts ++ o.animations.flatMap Animation.texts)

/-- The expressions that people wrote: callbacks, the tint and the extra data. -/
def expressions (o : SceneObject) : List String :=
  (match o with
    | .button b => b.callback.toList ++ b.callbackContext.toList
    | _ => [])
    ++ match o.spriteInfo? with
      | some s => s.tint.toList ++ s.data.toList
      | none => []

/-- Its names are names, and it has no expressions. -/
structure Tidy (o : SceneObject) : Prop where
  name : IsName o.info.name
  animations : ∀ a ∈ o.animations, IsName a.name
  expressions : o.expressions = []

end SceneObject

/-- The arguments are legible and quote these texts. -/
def QuoteArguments (args : List Expr) (texts : List String) : Prop :=
  (∀ e ∈ args, e.Legible) ∧ args.flatMap Expr.quoted = texts

namespace QuoteArguments

variable {args more : List Expr} {as bs : List String}

theorem nil : QuoteArguments [] [] := ⟨by simp, rfl⟩

theorem append (h : QuoteArguments args as) (h' : QuoteArguments more bs) : QuoteArguments (args ++ more) (as ++ bs) :=
  ⟨List.forall_mem_append.mpr ⟨h.1, h'.1⟩, by rw [List.flatMap_append, h.2, h'.2]⟩

theorem cons {e : Expr} (he : e.Legible) (h : QuoteArguments args as) : QuoteArguments (e :: args) (e.quoted ++ as) :=
  ⟨List.forall_mem_cons.mpr ⟨he, h.1⟩, by rw [List.flatMap_cons, h.2]⟩

end QuoteArguments

section Calls

open QuoteArguments (nil cons)

theorem Texture.quoted_frameExpr (t : Texture) : t.frameExpr.Legible ∧ t.frameExpr.quoted = t.frameTexts := by
  cases t with
  | image key => exact ⟨Expr.legible_null, rfl⟩
  | spritesheetFrame key index => exact ⟨trivial, rfl⟩
  | atlasFrame key frame => exact ⟨trivial, rfl⟩

theorem quoted_frameOrNull (f : Option Frame) :
    (frameOrNull f).Legible ∧ (frameOrNull f).quoted = f.toList.flatMap Frame.texts := by
  match f with
  | none => exact ⟨Expr.legible_null, rfl⟩
  | some (.index n) => exact ⟨trivial, rfl⟩
  | some (.name s) => exact ⟨trivial, rfl⟩

theorem quote_placeArguments (info : ObjectInfo) : QuoteArguments (placeArguments info) [] :=
  cons trivial (cons trivial nil)

variable {cx : Context} (hp : Reads cx.parentName [])
include hp

theorem quote_parentArguments : QuoteArguments (parentArguments cx) [] := by
  unfold parentArguments Context.parentArgument?
  cases cx.kind with
  | state => exact nil
  | group => exact cons hp nil
  | sprite => exact cons hp nil

theorem quote_frameArguments (t : Texture) : QuoteArguments (frameArguments cx t) t.frameTexts := by
  obtain ⟨hf, hq⟩ := t.quoted_frameExpr
  have hone : QuoteArguments [t.frameExpr] t.frameTexts := by simpa [hq] using cons hf nil
  have hparent : QuoteArguments [t.frameExpr, .raw cx.parentName] t.frameTexts := by
    simpa [hq] using cons hf (cons (e := .raw cx.parentName) hp nil)
  have himage : t.isImage = true → t.frameTexts = [] := by
    cases t <;> simp [Texture.isImage, Texture.frameTexts]
  unfold frameArguments Context.parentArgument?
  cases cx.kind with
  | state =>
    -- without a parent the frame of an image is left out
    by_cases hi : t.isImage = true
    · simpa [hi, himage hi] using nil
    · simpa [hi] using hone
  | group => exact hparent
  | sprite => exact hparent

theorem SceneObject.quote_call (o : SceneObject) (he : o.expressions = []) :
    QuoteArguments (o.call cx).args o.callTexts := by
  have hframe : ∀ {args : List Expr} {texts : List String} (f : Option Frame), QuoteArguments args texts →
      QuoteArguments (frameOrNull f :: args) (f.toList.flatMap Frame.texts ++ texts) := fun f h => by
    obtain ⟨hl, hq⟩ := quoted_frameOrNull f
    simpa only [hq] using cons hl h
  cases o with
  | group info children physics =>
    simp only [call, groupCall]
    split
    · have hsystem : (Expr.raw physics.bodyType.constant).Legible := by
        cases physics.bodyType <;> exact reads_ordinary (by decide)
      exact cons hsystem (cons hp nil)
    · exact cons hp nil
  | sprite kind o =>
    exact ((quote_placeArguments o.info).append (cons (e := .text o.texture.assetKey) trivial nil)).append
      (quote_frameArguments hp o.texture)
  | tileSprite o =>
    have hsizes : QuoteArguments [.pixels o.width, .pixels o.height, .text o.texture.assetKey] [o.texture.assetKey] :=
      cons trivial (cons trivial (cons trivial nil))
    exact ((quote_placeArguments o.info).append hsizes).append (quote_frameArguments hp o.texture)
  | button o =>
    obtain ⟨hcallback, hcontext⟩ : o.callback = none ∧ o.callbackContext = none := by
      simp only [expressions, List.append_eq_nil_iff, Option.toList_eq_nil_iff] at he
      exact he.1
    obtain ⟨hout, hq⟩ := o.texture.quoted_frameExpr
    have hnull : (Expr.raw (Literal.orNull none)).Legible := Expr.legible_null
    have hframes := hframe o.overFrame (cons hout (hframe o.downFrame (hframe o.upFrame nil)))
    have hargs := ((quote_placeArguments o.info).append
      (cons (e := .text o.texture.assetKey) trivial (cons hnull (cons hnull hframes)))).append (quote_parentArguments hp)
    simpa [call, Button.call, Context.call, callTexts, hcallback, hcontext, hq] using hargs
  | bitmapText o =>
    have htexts : QuoteArguments [.text o.font, .text o.text, .number o.size] [o.font, o.text] :=
      cons trivial (cons trivial (cons trivial nil))
    exact ((quote_placeArguments o.info).append htexts).append (quote_parentArguments hp)

theorem SceneObject.reads_call (o : SceneObject) (he : o.expressions = []) : Reads (o.call cx).render o.callTexts := by
  have hreceiver : Reads cx.kind.receiver [] := by
    cases cx.kind <;> exact reads_ordinary (by decide)
  have hparts : Reads (o.call cx).receiver [] ∧ Reads (o.call cx).factory [] := by
    cases o with
    | group info children physics =>
      simp only [call, groupCall]
      split
      · exact ⟨hreceiver, reads_ordinary (show Scan.Ordinary "physicsGroup" by decide)⟩
      · exact ⟨hreceiver, reads_ordinary (show Scan.Ordinary "group" by decide)⟩
    | sprite kind o => exact ⟨hreceiver, reads_ordinary (show Scan.Ordinary "sprite" by decide)⟩
    | button o => exact ⟨hreceiver, reads_ordinary (show Scan.Ordinary "button" by decide)⟩
    | tileSprite o => exact ⟨hreceiver, reads_ordinary (show Scan.Ordinary "tileSprite" by decide)⟩
    | bitmapText o => exact ⟨hreceiver, reads_ordinary (show Scan.Ordinary "bitmapText" by decide)⟩
  obtain ⟨hl, hq⟩ := o.quote_call hp he
  rw [← hq]
  exact SceneScript.reads_call hparts.1 hparts.2 hl

end Calls

/-! ## Objects -/

namespace SceneObject

variable {o : SceneObject}

theorem quotes_ownProperties (hn : Reads o.info.name []) : Quotes o.ownProperties o.ownTexts := by
  cases o with
  | group info children physics =>
    have hsort : (Expr.raw physics.sortDirection.constant).Legible := by
      cases physics.sortDirection <;> exact reads_ordinary (by decide)
    exact quotes_assignments_silent hn Scan.Reads.empty (reads_each (by decide))
      (List.forall_mem_singleton.mpr ⟨hsort, rfl⟩)
  | sprite kind o => exact .nil
  | button o => exact .nil
  | tileSprite o => exact quotes_settings hn (reads_each (by decide))
  | bitmapText o =>
    have hlegible : ∀ p ∈ bitmapTextProperties, (p.get o).Legible := by simp [bitmapTextProperties, Expr.Legible]
    have h := quotes_assignments hn Scan.Reads.empty (reads_each (by decide)) hlegible
    have htexts : ((bitmapTextProperties.filter fun p => !p.isDefault o).flatMap fun p => (p.get o).quoted)
        = if o.align = "left" then [] else [o.align] := by
      by_cases ha : o.align = "left" <;>
        simp [bitmapTextProperties, List.filter_cons, Property.isDefault, Expr.same, ha]
    rwa [htexts] at h

/-- Setting an object up quotes its own texts and those of its animations. -/
theorem quotes_setup (h : o.Tidy) (cx : Context) :
    Quotes (o.setup cx) (o.ownTexts ++ o.animations.flatMap Animation.texts) := by
  have hn := h.name.reads
  cases hs : o.spriteInfo? with
  | none =>
    rw [setup_group hs, animations_group hs]
    simpa using (quotes_transform hn o.info.transform true).append (quotes_ownProperties hn)
  | some s =>
    obtain ⟨ht, hd⟩ : s.tint = none ∧ s.data = none := by
      have := h.expressions
      simp only [expressions, hs, List.append_eq_nil_iff, Option.toList_eq_nil_iff] at this
      exact this.2
    have hanimations : ∀ a ∈ s.animations, Quotes (a.statements o.info.name) a.texts := fun a ha =>
      quotes_animation hn (h.animations a (by rwa [animations_leaf hs])).reads
    rw [setup_leaf hs, animations_leaf hs, leafProperties]
    have hdata : Quotes (dataStatements o.info.name s.data) [] := by
      rw [hd]
      exact .nil
    exact (((((quotes_transform hn _ false).silent (quotes_display hn ht)).append
      (quotes_ownProperties hn)).append (Quotes.flatMap hanimations)).silent (quotes_body hn s.body _)).silent hdata

/-- The block of an object quotes its texts. -/
theorem quotes_alone (h : o.Tidy) (he : o.info.enabled = true) {cx : Context} (hp : Reads cx.parentName []) :
    Quotes (o.alone.statements cx) o.quotedTexts := by
  rw [alone_statements he]
  exact (quotes_create h.name.reads (o.reads_call hp h.expressions)).append (quotes_setup h cx)

end SceneObject

/-! ## Scenes -/

/-- Names are names, and no live object has expressions. -/
structure Model.Tidy (m : Model) : Prop where
  className : IsName m.settings.className
  objects : ∀ n ∈ m.live, n.object.Tidy

theorem Model.Tidy.placed {m : Model} (h : m.Tidy) {p : Placed} (hp : p ∈ m.placed) : p.object.Tidy := by
  rw [placed_eq_live] at hp
  obtain ⟨n, hn, rfl⟩ := List.mem_map.mp hp
  exact h.objects n hn

/-- An object is put into the world or into a group that is live as well. -/
theorem Model.Tidy.reads_parentName {m : Model} (h : m.Tidy) {p : Placed} (hp : p ∈ m.placed) :
    Reads p.cx.parentName [] := by
  obtain ⟨earlier, later, hsplit⟩ := List.append_of_mem hp
  obtain ⟨-, -, hparent⟩ := parents_first hsplit
  rcases hparent with hworld | ⟨g, hg, info, children, physics, hgroup, hcx⟩
  · rw [Context.parentName, hworld]
    exact reads_ordinary (by decide)
  · have hname := (h.placed (hsplit ▸ List.mem_append_left _ hg : g ∈ m.placed)).name.reads
    rw [hgroup] at hname
    rwa [hcx]

theorem Placed.quotes_statements {m : Model} (h : m.Tidy) {p : Placed} (hp : p ∈ m.placed) :
    Quotes p.statements p.object.quotedTexts := by
  obtain ⟨earlier, later, hsplit⟩ := List.append_of_mem hp
  exact SceneObject.quotes_alone (h.placed hp) (parents_first hsplit).1 (h.reads_parentName hp)

/-- The statements of a scene quote the texts of its live objects, from the outside in. -/
theorem quotes_objectStatements {m : Model} (h : m.Tidy) :
    Quotes m.objectStatements (m.live.flatMap fun n => n.object.quotedTexts) := by
  have hlive : (m.live.flatMap fun n => n.object.quotedTexts) = m.placed.flatMap fun p => p.object.quotedTexts := by
    rw [placed_eq_live, List.flatMap_map]
    rfl
  have hblank : Quotes [.blank] [] := .single rfl Scan.Reads.empty
  have hblock := fun p => Placed.quotes_statements h (p := p)
  rw [objectStatements_eq_blocks, hlive]
  cases hps : m.placed with
  | nil => exact .nil
  | cons p rest =>
    rw [hps] at hblock
    obtain ⟨hp, hrest⟩ := List.forall_mem_cons.mp hblock
    exact hp.append (Quotes.flatMap fun q hq => hblank.append (hrest q hq))

end SceneScript
