/-
  SceneScript.Proofs.ArgumentPositions — every argument of a factory call is in its place.

  The engine tells the arguments of a factory call by their positions. `CallReader.read?`
  reads a line that ends with a call: it splits what is in the parentheses at the commas
  outside of quoted texts, and each argument is then a literal, decoded, or code.

  Proved, for each leaf in each context (`arguments_keep_positions`): if names and callbacks
  have no comma, quote or parenthesis, the line that makes the leaf is read as its list of
  positions (`SceneObject.positions`), whatever its other texts are, and then its parent.
  What is not given is `null` and keeps its place. A state has no parent argument, and a
  picture there no `null` for its frame; nothing follows these, so nothing moves.
-/
import SceneScript.Proofs.Digits
import SceneScript.Proofs.LiteralReader
import SceneScript.Proofs.Reparenting
import SceneScript.Proofs.StarFree

namespace SceneScript

/-- An argument of a call as it is read. -/
inductive Argument where
  /-- A literal of this value. -/
  | quoted (value : List UInt16)
  | code (source : String)
  deriving DecidableEq

/-! ## Reading a call -/

namespace CallReader

/-- What a split is in the middle of. A quoted text ends at a quote of the kind that opened it. -/
inductive Mode where
  | code
  | literal (quote : Char)
  | escape (quote : Char)
  deriving DecidableEq

def Mode.next : Mode → Char → Mode
  | .code, c => if c = '\'' || c = '\"' then .literal c else .code
  | .literal quote, c => if c = quote then .code else if c = '\\' then .escape quote else .literal quote
  | .escape quote, _ => .literal quote

/-- Puts a character before the first argument. -/
def push (c : Char) (read : List (List Char) × List Char) : List (List Char) × List Char :=
  match read.1 with
  | [] => ([[c]], read.2)
  | arg :: args => ((c :: arg) :: args, read.2)

/-- Splits at the commas outside of quoted texts, up to the parenthesis that ends the call: the arguments, and what
    follows the call. -/
def split? (m : Mode) : List Char → Option (List (List Char) × List Char)
  | [] => none
  | c :: cs =>
    if m = .code ∧ c = ')' then some ([[]], cs)
    else if m = .code ∧ c = ',' then (split? .code cs).map fun (args, rest) => ([] :: args, rest)
    else (split? (m.next c) cs).map (push c)

/-- An argument without the blank after the comma before it. -/
def trimmed : List Char → List Char
  | ' ' :: cs => cs
  | cs => cs

/-- What an argument is. -/
def argument (cs : List Char) : Argument :=
  match LiteralReader.read? (trimmed cs) with
  | some (value, []) => .quoted value
  | _ => .code (String.ofList (trimmed cs))

/-- Reads a line that ends with a call: what stands before its parenthesis, and its arguments. -/
def read? (line : String) : Option (String × List Argument) :=
  let callee := line.toList.takeWhile (· ≠ '(')
  match split? .code (line.toList.drop (callee.length + 1)) with
  | some (args, [';']) => some (String.ofList callee, args.map argument)
  | _ => none

/-! ## One argument -/

/-- Puts characters before the first argument. -/
def pushAll (cs : List Char) (read : List (List Char) × List Char) : List (List Char) × List Char := cs.foldr push read

theorem pushAll_cons (cs arg : List Char) (args : List (List Char)) (rest : List Char) :
    pushAll cs (arg :: args, rest) = ((cs ++ arg) :: args, rest) := by
  induction cs with
  | nil => rfl
  | cons c cs ih =>
    rw [pushAll, List.foldr_cons, ← pushAll, ih]
    rfl

/-- Is read as one argument, or as a part of one. -/
def Whole (cs : List Char) : Prop := ∀ rest, split? .code (cs ++ rest) = (split? .code rest).map (pushAll cs)

theorem split?_pass {m : Mode} {c : Char} (hm : m = .code → c ≠ ')' ∧ c ≠ ',') (cs : List Char) :
    split? m (c :: cs) = (split? (m.next c) cs).map (push c) := by
  rw [split?, if_neg fun h => (hm h.1).1 h.2, if_neg fun h => (hm h.1).2 h.2]

theorem split?_comma (cs : List Char) :
    split? .code (',' :: cs) = (split? .code cs).map fun (args, rest) => ([] :: args, rest) := by
  rw [split?, if_neg fun h => absurd h.2 (by decide), if_pos ⟨rfl, rfl⟩]

/-- Within a quoted text no character ends an argument. -/
theorem split?_quoted {m m' : Mode} {c : Char} (hm : m ≠ .code) (hnext : m.next c = m') (cs : List Char) :
    split? m (c :: cs) = (split? m' cs).map (push c) := by
  rw [split?_pass fun h => absurd h hm, hnext]

/-- The characters at which a split does something. -/
def special : List Char := [',', '\'', '\"', '(', ')']

theorem Whole.plain {cs : List Char} (h : ∀ c ∈ cs, c ∉ special) : Whole cs := by
  intro rest
  induction cs with
  | nil => exact Option.map_id'.symm
  | cons c cs ih =>
    obtain ⟨hc, hcs⟩ := List.forall_mem_cons.mp h
    simp only [special, List.mem_cons, List.not_mem_nil, or_false, not_or] at hc
    obtain ⟨hcomma, hquote, hdouble, -, hclose⟩ := hc
    have hnext : Mode.code.next c = .code := by simp [Mode.next, hquote, hdouble]
    rw [List.cons_append, split?_pass fun _ => ⟨hclose, hcomma⟩, hnext, ih hcs, Option.map_map]
    rfl

/-- A character of a quoted text does not end it. -/
theorem split?_escapeChar (c : Char) (rest : List Char) :
    split? (.literal '\'') (Literal.escapeChar c ++ rest)
      = (split? (.literal '\'') rest).map (pushAll (Literal.escapeChar c)) := by
  have hescape : ∀ d : Char, split? (.literal '\'') ('\\' :: d :: rest)
      = (split? (.literal '\'') rest).map (pushAll ['\\', d]) := by
    intro d
    have hbackslash : (Mode.literal '\'').next '\\' = .escape '\'' := by decide
    have hd : (Mode.escape '\'').next d = .literal '\'' := rfl
    rw [split?_quoted (by decide) hbackslash, split?_quoted (by decide) hd, Option.map_map]
    rfl
  unfold Literal.escapeChar
  split
  · exact hescape _
  split
  · exact hescape _
  split
  · exact hescape _
  split
  · exact hescape _
  split
  · exact hescape _
  · rename_i hquote hbackslash _ _ _
    have hnext : (Mode.literal '\'').next c = .literal '\'' := by simp [Mode.next, hquote, hbackslash]
    rw [List.singleton_append, split?_quoted (by decide) hnext]
    rfl

theorem split?_content (cs rest : List Char) :
    split? (.literal '\'') (cs.flatMap Literal.escapeChar ++ '\'' :: rest)
      = (split? .code rest).map (pushAll (cs.flatMap Literal.escapeChar ++ ['\''])) := by
  induction cs with
  | nil =>
    have hnext : (Mode.literal '\'').next '\'' = .code := by decide
    rw [List.flatMap_nil, List.nil_append, split?_quoted (by decide) hnext]
    rfl
  | cons c cs ih =>
    have hpush : pushAll (Literal.escapeChar c) ∘ pushAll (cs.flatMap Literal.escapeChar ++ ['\''])
        = pushAll ((c :: cs).flatMap Literal.escapeChar ++ ['\'']) := by
      funext read
      rw [List.flatMap_cons, List.append_assoc]
      exact List.foldr_append.symm
    rw [List.flatMap_cons, List.append_assoc, split?_escapeChar, ih, Option.map_map, hpush, List.flatMap_cons]

/-- A quoted text is one argument, whatever its characters are. -/
theorem Whole.text (s : String) : Whole (Literal.text s).toList := by
  intro rest
  have hchars : (Literal.text s).toList = '\'' :: (s.toList.flatMap Literal.escapeChar ++ ['\'']) := by
    simp [Literal.text, Literal.textChars]
  have hnext : Mode.code.next '\'' = .literal '\'' := by decide
  rw [hchars, List.cons_append, List.append_assoc, List.singleton_append, split?_pass fun _ => by decide, hnext,
    split?_content, Option.map_map]
  rfl

/-- Code is no literal. -/
theorem argument_code {cs : List Char} (h : '\'' ∉ cs) : argument (' ' :: cs) = .code (String.ofList cs) := by
  have hread : LiteralReader.read? cs = none := by
    unfold LiteralReader.read?
    split
    · exact absurd List.mem_cons_self h
    · rfl
  simp [argument, trimmed, hread]

/-- The first argument has no blank before it. -/
theorem argument_first {cs : List Char} (h : ' ' ∉ cs) : argument cs = argument (' ' :: cs) := by
  have htrimmed : trimmed cs = cs := by
    unfold trimmed
    split
    · exact absurd List.mem_cons_self h
    · rfl
  rw [argument, argument, htrimmed]
  rfl

theorem argument_text (s : String) : argument (' ' :: (Literal.text s).toList) = .quoted (Text.units s) := by
  have hread := LiteralReader.read?_text s []
  rw [List.append_nil] at hread
  simp [argument, trimmed, hread]

end CallReader

/-- Has neither a comma nor a quote nor a parenthesis, as is the case with every identifier. -/
def IsAtom (s : String) : Prop := ∀ c ∈ s.toList, c ∉ CallReader.special

instance : DecidablePred IsAtom := fun s => List.decidableBAll (· ∉ CallReader.special) s.toList

namespace Expr

/-- An argument as it is meant: a literal stands for its text, anything else for itself. -/
def argument : Expr → Argument
  | .text s => .quoted (Text.units s)
  | .number d => .code (Literal.number d)
  | .pixels d => .code (Literal.pixels d)
  | .word n => .code (Literal.word n)
  | .flag b => .code (Literal.flag b)
  | .raw source => .code source

/-- Code in it has neither a comma nor a quote nor a parenthesis. -/
def Atomic : Expr → Prop
  | .raw source => IsAtom source
  | .text _ => True
  | .number _ => True
  | .pixels _ => True
  | .word _ => True
  | .flag _ => True

theorem digit_not_special {c : Char} (h : c.isDigit = true ∨ c = '.' ∨ c = '-') : c ∉ CallReader.special := by
  intro hs
  have hall : CallReader.special.all (fun c => ¬(c.isDigit = true ∨ c = '.' ∨ c = '-')) = true := by decide
  exact of_decide_eq_true (List.all_eq_true.mp hall c hs) h

/-- An argument is a quoted text, or code without special characters. -/
theorem Atomic.cases {e : Expr} (h : e.Atomic) :
    (∃ s, e = .text s) ∨ (IsAtom e.render ∧ e.argument = .code e.render) := by
  cases e with
  | number d => exact .inr ⟨fun c hc => digit_not_special (Literal.mem_number hc), rfl⟩
  | pixels d => exact .inr ⟨fun c hc => digit_not_special (Literal.mem_number hc), rfl⟩
  | word n =>
    refine .inr ⟨fun c hc => digit_not_special (.inl (Decimal.isDigit_of_mem_digitChars (n := n.toNat) ?_)), rfl⟩
    simpa [render, Literal.word, Decimal.natText] using hc
  | flag b => cases b <;> exact .inr ⟨(by decide : IsAtom _), rfl⟩
  | text s => exact .inl ⟨s, rfl⟩
  | raw source => exact .inr ⟨h, rfl⟩

theorem Atomic.whole {e : Expr} (h : e.Atomic) : CallReader.Whole e.render.toList := by
  rcases h.cases with ⟨s, rfl⟩ | ⟨hplain, -⟩
  · exact .text s
  · exact .plain hplain

theorem Atomic.argument_eq {e : Expr} (h : e.Atomic) : CallReader.argument (' ' :: e.render.toList) = e.argument := by
  rcases h.cases with ⟨s, rfl⟩ | ⟨hplain, hcode⟩
  · exact CallReader.argument_text s
  · rw [CallReader.argument_code fun hc => hplain _ hc (by decide), hcode, String.ofList_toList]

/-- The arguments of a call as they are split. -/
def pieces : List Expr → List (List Char)
  | [] => [[]]
  | e :: rest => e.render.toList :: rest.map fun e => ' ' :: e.render.toList

theorem split?_renderAll : ∀ {args : List Expr}, (∀ e ∈ args, e.Atomic) → ∀ rest,
    CallReader.split? .code ((renderAll args).toList ++ ')' :: rest) = some (pieces args, rest)
  | [], _, rest => rfl
  | [e], h, rest => by
    have he := (h e List.mem_cons_self).whole (')' :: rest)
    have hend : CallReader.split? .code (')' :: rest) = some ([[]], rest) := rfl
    rw [hend, Option.map_some, CallReader.pushAll_cons, List.append_nil] at he
    simpa [renderAll, pieces] using he
  | e :: f :: more, h, rest => by
    obtain ⟨he, hmore⟩ := List.forall_mem_cons.mp h
    have hjoin : (renderAll (e :: f :: more)).toList ++ ')' :: rest
        = e.render.toList ++ ',' :: ' ' :: ((renderAll (f :: more)).toList ++ ')' :: rest) := by
      simp [renderAll, String.intercalate_cons_cons]
    have hblank : ∀ cs, CallReader.split? .code (' ' :: cs) = (CallReader.split? .code cs).map (CallReader.push ' ') :=
      CallReader.split?_pass fun _ => by decide
    rw [hjoin, he.whole, CallReader.split?_comma, hblank, split?_renderAll hmore]
    simp [CallReader.push, CallReader.pushAll_cons, pieces]

end Expr

/-- A call that begins with a place is read as it is meant. -/
theorem CallReader.read?_call {callee : String} (hcallee : '(' ∉ callee.toList) {x : Double} {more : List Expr}
    (hmore : ∀ e ∈ more, e.Atomic) :
    read? (callee ++ "(" ++ Expr.renderAll (.pixels x :: more) ++ ")" ++ ";")
      = some (callee, (Expr.pixels x :: more).map Expr.argument) := by
  have hplace : (Expr.pixels x).Atomic := trivial
  have hpiece : argument (Expr.pixels x).render.toList = (Expr.pixels x).argument := by
    rw [← hplace.argument_eq]
    refine argument_first fun hc => ?_
    rcases Literal.mem_number hc with h | h | h
    · exact absurd h (by decide)
    · exact absurd h (by decide)
    · exact absurd h (by decide)
  have hpieces : (Expr.pieces (.pixels x :: more)).map argument = (Expr.pixels x :: more).map Expr.argument := by
    rw [Expr.pieces, List.map_cons, List.map_cons, hpiece, List.map_map]
    congr 1
    exact List.map_congr_left fun e he => (hmore e he).argument_eq
  have hsplit := Expr.split?_renderAll (List.forall_mem_cons.mpr ⟨hplace, hmore⟩) [';']
  have hline : (callee ++ "(" ++ Expr.renderAll (.pixels x :: more) ++ ")" ++ ";").toList
      = callee.toList ++ '(' :: ((Expr.renderAll (.pixels x :: more)).toList ++ ')' :: [';']) := by
    simp
  have hcallee : ∀ tail, (callee.toList ++ '(' :: tail).takeWhile (· ≠ '(') = callee.toList := by
    intro tail
    have hpass : ∀ c ∈ callee.toList, decide (c ≠ '(') = true := fun c hc => by
      simp only [decide_eq_true_eq]
      rintro rfl
      exact hcallee hc
    rw [List.takeWhile_append_of_pos hpass]
    simp
  have hrest : ∀ tail, (callee.toList ++ '(' :: tail).drop (callee.toList.length + 1) = tail := by
    intro tail
    simp [List.drop_append]
  unfold read?
  simp only [hline, hcallee, hrest, hsplit, hpieces, String.ofList_toList]

/-! ## Positions -/

def Argument.null : Argument := .code "null"

def Argument.text (s : String) : Argument := .quoted (Text.units s)

def Argument.pixels (d : Double) : Argument := .code (Literal.pixels d)

/-- The frame that a texture picks; an image has none. -/
def Texture.frame : Texture → Argument
  | .image _ => .null
  | .spritesheetFrame _ index => .code (Literal.word index)
  | .atlasFrame _ frame => .text frame

/-- The frame of a button state, if it has one. -/
def Frame.position : Option Frame → Argument
  | none => .null
  | some (.index n) => .code (Literal.word n)
  | some (.name s) => .text s

/-- An expression that people wrote, unless it is missing or blank. -/
def Argument.expression : Option String → Argument
  | none => .null
  | some e => if Text.isBlank e then .null else .code (Text.trim e)

namespace SceneObject

/-- The arguments of a leaf in order, before its parent: for each factory the positions that the engine gives them. -/
def positions : SceneObject → List Argument
  | .group _ _ _ => []
  | .sprite _ o => [.pixels o.info.transform.x, .pixels o.info.transform.y, .text o.texture.assetKey, o.texture.frame]
  | .tileSprite o =>
    [.pixels o.info.transform.x, .pixels o.info.transform.y, .pixels o.width, .pixels o.height,
      .text o.texture.assetKey, o.texture.frame]
  | .button o =>
    [.pixels o.info.transform.x, .pixels o.info.transform.y, .text o.texture.assetKey, .expression o.callback,
      .expression o.callbackContext, Frame.position o.overFrame, o.texture.frame, Frame.position o.downFrame,
      Frame.position o.upFrame]
  | .bitmapText o =>
    [.pixels o.info.transform.x, .pixels o.info.transform.y, .text o.font, .text o.text, .code (Literal.number o.size)]

/-- A picture that shows a whole image. -/
def showsImage : SceneObject → Bool
  | .sprite _ o => o.texture.isImage
  | .tileSprite o => o.texture.isImage
  | .group _ _ _ => false
  | .button _ => false
  | .bitmapText _ => false

/-- The arguments of a leaf in a context. -/
def arguments (cx : Context) (o : SceneObject) : List Argument :=
  match cx.kind with
  | .state => if o.showsImage then o.positions.dropLast else o.positions
  | .group => o.positions ++ [.code cx.parentName]
  | .sprite => o.positions ++ [.code cx.parentName]

/-- The expressions that people wrote for the call of a button. -/
def callbacks : SceneObject → List String
  | .button o => o.callback.toList ++ o.callbackContext.toList
  | .group _ _ _ => []
  | .sprite _ _ => []
  | .tileSprite _ => []
  | .bitmapText _ => []

end SceneObject

theorem isAtom_orNull {e : Option String} (h : ∀ s ∈ e, IsAtom s) : IsAtom (Literal.orNull e) := by
  cases e with
  | none => exact (by decide : IsAtom "null")
  | some s =>
    simp only [Literal.orNull]
    split
    · exact (by decide : IsAtom "null")
    · exact fun c hc => h s rfl c (Text.mem_of_mem_trim hc)

theorem argument_orNull (e : Option String) : (Expr.raw (Literal.orNull e)).argument = .expression e := by
  cases e with
  | none => rfl
  | some s =>
    simp only [Literal.orNull, Argument.expression, Expr.argument, Argument.null]
    split <;> rfl

theorem Texture.argument_frameExpr (t : Texture) : t.frameExpr.argument = t.frame := by
  cases t <;> rfl

theorem Frame.argument_frameOrNull (f : Option Frame) : (frameOrNull f).argument = Frame.position f := by
  rcases f with _ | f
  · rfl
  · cases f <;> rfl

theorem Texture.atomic_frameExpr (t : Texture) : t.frameExpr.Atomic := by
  cases t with
  | image key => exact (by decide : IsAtom "null")
  | _ => trivial

theorem Frame.atomic_frameOrNull (f : Option Frame) : (frameOrNull f).Atomic := by
  rcases f with _ | f
  · exact (by decide : IsAtom "null")
  · cases f <;> trivial

namespace SceneObject

variable {o : SceneObject} {sprite : SpriteInfo} {cx : Context}

theorem atomic_parentArguments (h : IsAtom cx.parentName) : ∀ e ∈ parentArguments cx, e.Atomic := by
  unfold parentArguments Context.parentArgument?
  cases cx.kind with
  | state => simp
  | group => exact List.forall_mem_singleton.mpr h
  | sprite => exact List.forall_mem_singleton.mpr h

theorem atomic_frameArgument (kind : SceneKind) (t : Texture) : ∀ e ∈ t.frameArgument kind, e.Atomic := by
  unfold Texture.frameArgument
  split
  · simp
  · exact List.forall_mem_singleton.mpr t.atomic_frameExpr

/-- A leaf is made at its place first, and all else in the call is atomic. -/
theorem argumentsBeforeParent_eq (hs : o.spriteInfo? = some sprite) (kind : SceneKind)
    (hcallbacks : ∀ e ∈ o.callbacks, IsAtom e) :
    ∃ more, o.argumentsBeforeParent kind = .pixels o.info.transform.x :: more ∧ ∀ e ∈ more, e.Atomic := by
  cases o with
  | group => cases hs
  | sprite _ o =>
    exact ⟨_, rfl, List.forall_mem_cons.mpr ⟨trivial, List.forall_mem_cons.mpr
      ⟨trivial, atomic_frameArgument kind o.texture⟩⟩⟩
  | button o =>
    have hcallback : IsAtom (Literal.orNull o.callback) :=
      isAtom_orNull fun s hs => hcallbacks s (List.mem_append_left _ (Option.mem_toList.mpr hs))
    have hcontext : IsAtom (Literal.orNull o.callbackContext) :=
      isAtom_orNull fun s hs => hcallbacks s (List.mem_append_right _ (Option.mem_toList.mpr hs))
    refine ⟨[.pixels o.info.transform.y, .text o.texture.assetKey, .raw (Literal.orNull o.callback),
      .raw (Literal.orNull o.callbackContext), frameOrNull o.overFrame, o.texture.frameExpr, frameOrNull o.downFrame,
      frameOrNull o.upFrame], rfl, ?_⟩
    simp only [List.forall_mem_cons, List.not_mem_nil, false_imp_iff, implies_true, and_true]
    exact ⟨trivial, trivial, hcallback, hcontext, Frame.atomic_frameOrNull _, o.texture.atomic_frameExpr,
      Frame.atomic_frameOrNull _, Frame.atomic_frameOrNull _⟩
  | tileSprite o =>
    exact ⟨_, rfl, List.forall_mem_cons.mpr ⟨trivial, List.forall_mem_cons.mpr ⟨trivial, List.forall_mem_cons.mpr
      ⟨trivial, List.forall_mem_cons.mpr ⟨trivial, atomic_frameArgument kind o.texture⟩⟩⟩⟩⟩
  | bitmapText o =>
    refine ⟨[.pixels o.info.transform.y, .text o.font, .text o.text, .number o.size], rfl, ?_⟩
    simp only [List.forall_mem_cons, List.not_mem_nil, false_imp_iff, implies_true, and_true]
    exact ⟨trivial, trivial, trivial, trivial⟩

/-- In a state the frame of an image is left out. -/
theorem map_argument_frameArgument (kind : SceneKind) (t : Texture) :
    (t.frameArgument kind).map Expr.argument = if kind = .state ∧ t.isImage then [] else [t.frame] := by
  unfold Texture.frameArgument
  split
  · rfl
  · rw [List.map_singleton, t.argument_frameExpr]

/-- The arguments of a call are the positions of the object, and its parent. -/
theorem map_argument_args (hs : o.spriteInfo? = some sprite) (cx : Context) :
    (o.argumentsBeforeParent cx.kind ++ parentArguments cx).map Expr.argument = o.arguments cx := by
  have hparent : (parentArguments cx).map Expr.argument = if cx.kind = .state then [] else [.code cx.parentName] := by
    unfold parentArguments Context.parentArgument?
    cases cx.kind <;> rfl
  have hbutton : ∀ b : Button, ((SceneObject.button b).argumentsBeforeParent cx.kind).map Expr.argument
      = (SceneObject.button b).positions := fun b => by
    simp only [argumentsBeforeParent, placeArguments, List.map_append, List.map_cons, List.map_nil, argument_orNull,
      Frame.argument_frameOrNull, Texture.argument_frameExpr]
    rfl
  rw [List.map_append, hparent]
  cases o with
  | group => cases hs
  | sprite _ o =>
    cases hkind : cx.kind <;> cases himage : o.texture.isImage <;>
      simp [argumentsBeforeParent, placeArguments, map_argument_frameArgument, arguments, positions, showsImage,
        Expr.argument, Argument.pixels, Argument.text, hkind, himage]
  | button o =>
    rw [hbutton]
    cases hkind : cx.kind <;> simp [arguments, showsImage, hkind]
  | tileSprite o =>
    cases hkind : cx.kind <;> cases himage : o.texture.isImage <;>
      simp [argumentsBeforeParent, placeArguments, map_argument_frameArgument, arguments, positions, showsImage,
        Expr.argument, Argument.pixels, Argument.text, hkind, himage]
  | bitmapText o =>
    cases hkind : cx.kind <;>
      simp [argumentsBeforeParent, placeArguments, arguments, positions, showsImage, Expr.argument, Argument.pixels,
        Argument.text, hkind]

/-- What stands before the parenthesis of a call has none of its own. -/
theorem parenthesis_not_mem_callee (hname : IsAtom o.info.name) (kind : SceneKind) (declares : Bool) :
    '(' ∉ (Statement.declaration o.info.name declares ++ kind.receiver ++ ".add." ++ o.factory).toList := by
  have hdeclaration : '(' ∉ (Statement.declaration o.info.name declares).toList := by
    cases declares with
    | false => simp [Statement.declaration]
    | true =>
      have hown : '(' ∉ o.info.name.toList := fun hc => hname _ hc (by decide)
      simp [Statement.declaration, hown]
  have hreceiver : '(' ∉ kind.receiver.toList := by cases kind <;> decide
  have hfactory : '(' ∉ o.factory.toList := by
    cases o with
    | group info children physics => cases hp : physics.physicsGroup <;> simp [factory, hp]
    | _ => simp [factory]
  simp [hdeclaration, hreceiver, hfactory]

/-- Whether the object is declared or not, the line that makes it is read as its arguments. -/
theorem read?_madeWith (hs : o.spriteInfo? = some sprite) (hname : IsAtom o.info.name) (hparent : IsAtom cx.parentName)
    (hcallbacks : ∀ e ∈ o.callbacks, IsAtom e) (declares : Bool) :
    CallReader.read? (o.madeWith cx.kind declares (o.argumentsBeforeParent cx.kind ++ parentArguments cx))
      = some (Statement.declaration o.info.name declares ++ cx.kind.receiver ++ ".add." ++ o.factory,
          o.arguments cx) := by
  obtain ⟨more, hargs, hmore⟩ := argumentsBeforeParent_eq hs cx.kind hcallbacks
  have hall : ∀ e ∈ more ++ parentArguments cx, e.Atomic :=
    List.forall_mem_append.mpr ⟨hmore, atomic_parentArguments hparent⟩
  have hread := CallReader.read?_call (parenthesis_not_mem_callee hname cx.kind declares) (x := o.info.transform.x) hall
  rw [← List.cons_append, ← hargs, map_argument_args hs] at hread
  rw [← hread]
  simp only [madeWith, Call.render, String.append_assoc]

end SceneObject

/-- The line that makes a leaf hands each argument over in its place. -/
theorem arguments_keep_positions {o : SceneObject} {sprite : SpriteInfo} (hs : o.spriteInfo? = some sprite)
    (he : o.info.enabled = true) (cx : Context) (hname : IsAtom o.info.name) (hparent : IsAtom cx.parentName)
    (hcallbacks : ∀ e ∈ o.callbacks, IsAtom e) :
    ∃ line rest declares, o.linesIn cx = line :: rest ∧
      CallReader.read? line
        = some (Statement.declaration o.info.name declares ++ cx.kind.receiver ++ ".add." ++ o.factory,
            o.arguments cx) :=
  ⟨_, _, _, SceneObject.linesIn_leaf hs he cx, SceneObject.read?_madeWith hs hname hparent hcallbacks _⟩

/-- A button whose texts try to end their literals, without a context for its callback. -/
def trickyButton : SceneObject := .button {
  info := .named "play"
  texture := .image "ui', \"x"
  callback := some " this.start "
  callbackContext := some "  "
  overFrame := some (.name "over\\', ")
  downFrame := some (.index 2) }

/-- Its positions. -/
def trickyPositions : List Argument :=
  [.code "0", .code "0", .text "ui', \"x", .code "this.start", .null, .text "over\\', ", .null, .code "2", .null]

/-- In a group all of its positions are taken, and its parent is the last; in a state only the parent is gone. -/
theorem arguments_keep_positions_of_button :
    (∃ line rest declares, trickyButton.linesIn ⟨.group, .group (.named "menu") {}⟩ = line :: rest ∧
      CallReader.read? line = some (Statement.declaration "play" declares ++ "this.game" ++ ".add." ++ "button",
        trickyPositions ++ [.code "menu"])) ∧
    (∃ line rest declares, trickyButton.linesIn ⟨.state, .world⟩ = line :: rest ∧
      CallReader.read? line = some (Statement.declaration "play" declares ++ "this" ++ ".add." ++ "button",
        trickyPositions)) := by
  have hgroup := @arguments_keep_positions trickyButton {} rfl rfl ⟨.group, .group (.named "menu") {}⟩ (by decide)
    (by decide) (by decide)
  have hstate := @arguments_keep_positions trickyButton {} rfl rfl ⟨.state, .world⟩ (by decide) (by decide) (by decide)
  have hpositions : trickyButton.positions = trickyPositions := by decide +kernel
  rw [← hpositions]
  exact ⟨hgroup, hstate⟩

end SceneScript
