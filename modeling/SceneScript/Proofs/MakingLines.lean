/-
  SceneScript.Proofs.MakingLines — the lines of a script that make objects.

  In a group or a sprite scene a line makes an object when it calls a factory of the
  game, perhaps after `var name = ` (`makesObject`). Its last argument then is the
  variable of the parent (`lastArgument_makingLine`).

  Names in a scene are arbitrary texts. Where those of the live objects are words and
  distinct, extra data is one line and no variable of an animation reads like a factory
  call (`Model.Plain`), there is one such line for each live object, in order
  (`makingLines_eq`). It stands after the one that makes the group around the object
  (`parent_declared_before`).
-/
import Mathlib.Data.List.Infix
import Mathlib.Data.List.TakeWhile
import SceneScript.Proofs.Nesting
import SceneScript.Proofs.PublicVariables
import SceneScript.Proofs.StarFree

namespace SceneScript

/-! ## Reading a line -/

/-- How a line goes on that calls a factory. -/
def factoryCall : String := "this.game.add."

/-- How it goes on after the name of a variable. -/
def declaredCall : List Char := " = ".toList ++ factoryCall.toList

/-- What follows a declaration, if a line begins with one. -/
def afterDeclaration (line : List Char) : List Char :=
  match Text.afterMark? "var ".toList line with
  | none => line
  | some rest => (Text.afterMark? " = ".toList (rest.dropWhile (· ≠ ' '))).getD line

/-- Does the line call a factory, perhaps after a declaration? -/
def makesObject (line : String) : Bool := factoryCall.toList.isPrefixOf (afterDeclaration line.toList)

/-- The last argument of a call that ends the line, if it has no blank and no parenthesis. -/
def lastArgument (line : String) : String :=
  String.ofList (((line.toList.reverse.drop 2).takeWhile fun c => c ≠ ' ' && c ≠ '(').reverse)

/-- A declaration ends at the first blank after its name. -/
theorem declaration_prefix_iff {line rest : List Char} (h : line = "var ".toList ++ rest) :
    (∃ name : String, ' ' ∉ name.toList ∧ ("var " ++ name ++ " = " ++ factoryCall).toList <+: line) ↔
      declaredCall <+: rest.dropWhile (· ≠ ' ') := by
  subst h
  constructor
  · rintro ⟨name, hname, more, h⟩
    obtain rfl : name.toList ++ (declaredCall ++ more) = rest := by
      simpa [declaredCall, factoryCall] using h
    have hword : ∀ c ∈ name.toList, decide (c ≠ ' ') = true := fun c hc => by
      simp only [decide_eq_true_eq]
      rintro rfl
      exact hname hc
    rw [List.dropWhile_append_of_pos hword]
    exact ⟨more, rfl⟩
  · rintro ⟨more, h⟩
    refine ⟨String.ofList (rest.takeWhile (· ≠ ' ')), ?_, more, ?_⟩
    · rw [String.toList_ofList]
      exact fun hc => by simpa using List.mem_takeWhile_imp hc
    · have hrest : rest.takeWhile (· ≠ ' ') ++ (declaredCall ++ more) = rest := by
        rw [h, List.takeWhile_append_dropWhile]
      simpa [declaredCall, factoryCall] using hrest

/-- What `makesObject` looks for. -/
theorem makesObject_iff {line : String} :
    makesObject line = true ↔ factoryCall.toList <+: line.toList ∨
      ∃ name : String, ' ' ∉ name.toList ∧ ("var " ++ name ++ " = " ++ factoryCall).toList <+: line.toList := by
  unfold makesObject afterDeclaration
  rw [List.isPrefixOf_iff_prefix]
  cases hvar : Text.afterMark? "var ".toList line.toList with
  | none =>
    refine ⟨.inl, fun h => h.resolve_right ?_⟩
    rintro ⟨name, -, more, h⟩
    have hline : line.toList = "var ".toList ++ (name.toList ++ (" = ".toList ++ factoryCall.toList ++ more)) := by
      simpa [factoryCall] using h.symm
    rw [Text.afterMark?_eq_some_iff.mpr hline] at hvar
    cases hvar
  | some rest =>
    have hline := Text.afterMark?_eq_some_iff.mp hvar
    have hcall : ¬factoryCall.toList <+: line.toList := by
      rintro ⟨more, h⟩
      rw [hline] at h
      cases h
    rw [declaration_prefix_iff hline]
    simp only [hcall, false_or]
    cases heq : Text.afterMark? " = ".toList (rest.dropWhile (· ≠ ' ')) with
    | none =>
      refine iff_of_false hcall ?_
      rintro ⟨more, h⟩
      rw [Text.afterMark?_eq_some_iff.mpr (h.symm.trans (List.append_assoc _ _ _))] at heq
      cases heq
    | some tail =>
      rw [Text.afterMark?_eq_some_iff.mp heq, declaredCall, List.prefix_append_right_inj]
      rfl

/-! ## Words -/

/-- Up to the first that fails. -/
theorem takeWhile_stop {α : Type} {p : α → Bool} {front rest : List α} {x : α} (h : ∀ a ∈ front, p a = true)
    (hx : p x = false) : (front ++ x :: rest).takeWhile p = front := by
  rw [List.takeWhile_append_of_pos h, List.takeWhile_cons_of_neg (by simp [hx]), List.append_nil]

/-- A name that reads as one word. All identifiers of the script's language are words. -/
def IsWord (name : String) : Prop := ∀ c ∈ name.toList, c ∉ [' ', '\n', '.', '(']

theorem isWord_this : IsWord "this" := by simp [IsWord]

/-- A word is the part before the first of the characters that words do not have. -/
theorem IsWord.takeWhile {name : String} (h : IsWord name) {c : Char} (hc : c ∈ [' ', '\n', '.', '(']) (rest : List Char) :
    (name.toList ++ c :: rest).takeWhile (· ≠ c) = name.toList := by
  refine takeWhile_stop (fun d hd => ?_) (by simp)
  simp only [decide_eq_true_eq]
  rintro rfl
  exact h d hd hc

/-- A word does not hold such a character, nor with one other character after it. -/
theorem IsWord.append_ne {name : String} (h : IsWord name) {c d : Char} (hd : d ∈ [' ', '\n', '.', '(']) (hne : c ≠ d) :
    ∀ x ∈ name.toList ++ [c], decide (x ≠ d) = true := by
  intro x hx
  simp only [decide_eq_true_eq]
  rintro rfl
  rcases List.mem_append.mp hx with hx | hx
  · exact h x hx hd
  · exact hne (List.mem_singleton.mp hx).symm

/-- A factory call that follows a declaration does not begin anew within itself. -/
theorem declaredCall_tails :
    ∀ l ∈ declaredCall.tails, l = declaredCall ∨ l = [] ∨ (l ≠ [] ∧ l ≠ [' '] ∧ l.take 2 ≠ [' ', '=']) := by
  decide

/-- Where it stands before an assignment, it is a part of what is assigned to, or that is nothing. -/
theorem declaredCall_prefix_append {front rest : List Char} (h : declaredCall <+: front ++ ' ' :: '=' :: rest) :
    declaredCall <+: front ∨ declaredCall <+: ' ' :: '=' :: rest := by
  obtain ⟨more, h⟩ := h
  rcases List.append_eq_append_iff.mp h with ⟨l, hl, -⟩ | ⟨l, hl, hr⟩
  · exact .inl ⟨l, hl.symm⟩
  · have hsuffix : l ∈ declaredCall.tails := (List.mem_tails _ _).mpr ⟨front, hl.symm⟩
    rcases declaredCall_tails l hsuffix with rfl | rfl | ⟨hne, hblank, htake⟩
    · exact .inr ⟨more, hr.symm⟩
    · exact .inl ⟨[], by simpa using hl⟩
    · exfalso
      match l, hr with
      | [], _ => exact hne rfl
      | [c], hr => exact hblank (by rw [(List.cons.inj hr).1])
      | c :: d :: l, hr =>
        obtain ⟨rfl, hmore⟩ := List.cons.inj hr
        obtain ⟨rfl, -⟩ := List.cons.inj hmore
        exact htake rfl

theorem dropWhile_append_blank (front rest : List Char) :
    (front ++ ' ' :: rest).dropWhile (· ≠ ' ') = front.dropWhile (· ≠ ' ') ++ ' ' :: rest := by
  rw [List.dropWhile_append]
  split
  · rename_i h
    rw [List.isEmpty_iff.mp h]
    rfl
  · rfl

section Word

variable {name line : String} (hname : IsWord name) (hthis : name ≠ "this")
include hname hthis

/-- No factory call begins with a property or a variable named after a word other than `this`. -/
theorem not_factoryCall_of_word {c : Char} (hc : c = '.' ∨ c = '_') (more : List Char) :
    ¬factoryCall.toList <+: name.toList ++ c :: more := by
  rintro ⟨rest, h⟩
  have hleft : (factoryCall.toList ++ rest).takeWhile (· ≠ '.') = "this".toList := rfl
  rw [h] at hleft
  rcases hc with rfl | rfl
  · rw [hname.takeWhile (by simp)] at hleft
    exact hthis (String.toList_injective hleft)
  · have hword := hname.append_ne (c := '_') (d := '.') (by simp) (by decide)
    rw [List.append_cons, List.takeWhile_append_of_pos hword] at hleft
    have : '_' ∈ "this".toList := by
      rw [← hleft]
      simp
    simp at this

/-- A line that goes on with a point or an underline after such a word makes no object. -/
theorem not_makesObject_of_word {c : Char} (hc : c = '.' ∨ c = '_') (h : name.toList ++ [c] <+: line.toList) :
    makesObject line = false := by
  obtain ⟨more, h⟩ := h
  rw [List.append_assoc, List.singleton_append] at h
  rw [Bool.eq_false_iff, Ne, makesObject_iff, ← h, not_or]
  refine ⟨not_factoryCall_of_word hname hthis hc more, ?_⟩
  rintro ⟨v, -, rest, hv⟩
  have hleft : (name.toList ++ c :: more).takeWhile (· ≠ ' ') = "var".toList := by
    rw [← hv]
    simp
  have hword := hname.append_ne (c := c) (d := ' ') (by simp) (by rcases hc with rfl | rfl <;> decide)
  rw [List.append_cons, List.takeWhile_append_of_pos hword] at hleft
  have : c ∈ "var".toList := by
    rw [← hleft]
    simp
  rcases hc with rfl | rfl <;> simp at this

/-- The line that declares the variable of an animation makes no object, unless the name of the animation reads like
    a factory call. -/
theorem not_makesObject_of_animation {a : String} (ha : ¬declaredCall <:+: a.toList)
    (h : ("var " ++ Naming.animationVariable name a ++ " = " ++ name ++ ".").toList <+: line.toList) :
    makesObject line = false := by
  obtain ⟨more, h⟩ := h
  have hline : line.toList = "var ".toList ++ ((name.toList ++ ['_']) ++ (a.toList ++ " = ".toList ++ name.toList
      ++ '.' :: more)) := by
    simpa [Naming.animationVariable] using h.symm
  rw [Bool.eq_false_iff, Ne, makesObject_iff, declaration_prefix_iff hline, not_or]
  constructor
  · rintro ⟨rest, hcall⟩
    rw [hline] at hcall
    cases hcall
  · intro hp
    have hword := hname.append_ne (c := '_') (d := ' ') (by simp) (by decide)
    rw [List.dropWhile_append_of_pos hword] at hp
    have hp : declaredCall <+: a.toList.dropWhile (· ≠ ' ') ++ ' ' :: '=' :: (' ' :: name.toList ++ '.' :: more) := by
      rw [← dropWhile_append_blank]
      simpa using hp
    rcases declaredCall_prefix_append hp with hp | ⟨rest, hp⟩
    · exact ha (hp.isInfix.trans (List.dropWhile_suffix _).isInfix)
    · refine not_factoryCall_of_word hname hthis (.inl rfl) more ⟨rest, ?_⟩
      simpa [declaredCall] using hp

end Word

/-- Enabling a body is a call of another kind. -/
theorem not_makesObject_enable (v : String) : makesObject ("this.game.physics.arcade.enable(" ++ v ++ ");") = false := by
  rw [Bool.eq_false_iff, Ne, makesObject_iff, not_or]
  constructor
  · simp [factoryCall]
  · simp [factoryCall]

/-! ## The lines of an object -/

/-- The line that makes an object. -/
def Placed.makingLine (p : Placed) : String :=
  Statement.declaration p.object.info.name (p.object.declares p.cx) ++ (p.object.call p.cx).render ++ ";"

theorem lineChars_of_no_line_feed {cs : List Char} (h : '\n' ∉ cs) : Text.lineChars cs = [cs] := by
  induction cs with
  | nil => rfl
  | cons c cs ih =>
    obtain ⟨hc, hcs⟩ := not_or.mp (mt List.mem_cons.mpr h)
    rw [Text.lineChars, if_neg (Ne.symm hc), ih hcs]

/-- Names and texts of an object by which its lines cannot be mistaken for those of others. -/
structure SceneObject.Plain (o : SceneObject) : Prop where
  word : IsWord o.info.name
  not_this : o.info.name ≠ "this"
  /-- Extra data is one line. -/
  data_line : ∀ data, o.data? = some data → '\n' ∉ data.toList
  /-- No variable of an animation reads like a factory call. -/
  animation : ∀ a ∈ o.animations, a.hasVariable = true → ¬declaredCall <:+: a.name.toList

namespace SceneObject.Plain

variable {o : SceneObject} (h : o.Plain)
include h

/-- Lines that go on with a property of the object. -/
theorem property_line {line : String} (hline : (o.info.name ++ ".").toList <+: line.toList) :
    makesObject line = false :=
  not_makesObject_of_word h.word h.not_this (.inl rfl) (by simpa using hline)

/-- Extra data is attached by one line. -/
theorem lines_data {data : String} (hd : o.data? = some data) :
    (Statement.attachData o.info.name data).lines = [Statement.dataText o.info.name data] := by
  have hname : '\n' ∉ o.info.name.toList := fun hc => h.word _ hc (by simp)
  have hdata : '\n' ∉ (Text.replaceAll "$$" o.info.name data).toList :=
    Text.not_mem_replaceAll hname (h.data_line data hd)
  have htext : '\n' ∉ (Statement.dataText o.info.name data).toList := by
    simp [Statement.dataText, hname, hdata]
  rw [Statement.lines, Text.lines, lineChars_of_no_line_feed htext]
  simp

theorem sets_makes_nothing {s : Statement} (hs : o.Sets s) : ∀ line ∈ s.lines, makesObject line = false := by
  cases hs with
  | assign => exact List.forall_mem_singleton.mpr (h.property_line ⟨_, by simp; rfl⟩)
  | setTo => exact List.forall_mem_singleton.mpr (h.property_line ⟨_, by simp; rfl⟩)
  | enableBody => exact List.forall_mem_singleton.mpr (not_makesObject_enable _)
  | shapeBody => exact List.forall_mem_singleton.mpr (h.property_line ⟨_, by simp; rfl⟩)
  | attachData hd =>
    rw [h.lines_data hd, Statement.dataText]
    exact List.forall_mem_singleton.mpr (h.property_line ⟨_, by simp; rfl⟩)

/-- What sets an object up makes no other. -/
theorem setup_makes_nothing {cx : Context} {s : Statement} (hs : s ∈ o.setup cx) :
    ∀ line ∈ s.lines, makesObject line = false := by
  rcases SceneObject.mem_setup hs with hs | ⟨a, ha, rfl⟩ | ⟨a, -, -, rfl⟩
  · exact h.sets_makes_nothing hs
  · refine List.forall_mem_singleton.mpr ?_
    by_cases hv : a.hasVariable = true
    · rw [Statement.declaration, if_pos hv]
      exact not_makesObject_of_animation h.word h.not_this (h.animation a ha hv) ⟨_, by simp; rfl⟩
    · rw [Statement.declaration, if_neg hv]
      exact h.property_line ⟨_, by simp; rfl⟩
  · rw [Statement.lines, Naming.animationVariable]
    exact List.forall_mem_singleton.mpr (not_makesObject_of_word h.word h.not_this (.inr rfl) ⟨_, by simp; rfl⟩)

end SceneObject.Plain

/-! ## Factory calls -/

section Call

variable {cx : Context} (hkind : cx.kind ≠ .state)
include hkind

theorem receiver_of_kind : cx.kind.receiver = "this.game" := by
  cases hk : cx.kind with
  | state => exact absurd hk hkind
  | group => rfl
  | sprite => rfl

theorem parentArgument_of_kind : cx.parentArgument? = some cx.parentName := by
  unfold Context.parentArgument?
  cases hk : cx.kind with
  | state => exact absurd hk hkind
  | group => rfl
  | sprite => rfl

/-- Every object is handed to its parent by the last argument. -/
theorem args_call (o : SceneObject) : ∃ front, (o.call cx).args = front ++ [.raw cx.parentName] := by
  have hframe : ∀ (front : List Expr) (t : Texture),
      ∃ init, front ++ frameArguments cx t = init ++ [.raw cx.parentName] := fun front t =>
    ⟨front ++ [t.frameExpr], by rw [frameArguments, parentArgument_of_kind hkind]; simp⟩
  have hparent : ∀ front : List Expr, ∃ init, front ++ parentArguments cx = init ++ [.raw cx.parentName] := fun front =>
    ⟨front, by rw [parentArguments, parentArgument_of_kind hkind]⟩
  cases o with
  | group info children physics =>
    simp only [SceneObject.call, groupCall]
    split
    · exact ⟨[_], rfl⟩
    · exact ⟨[], rfl⟩
  | sprite kind o => exact hframe _ _
  | button o => exact hparent _
  | tileSprite o => exact hframe _ _
  | bitmapText o => exact hparent _

/-- The line that makes an object makes one. -/
theorem makesObject_makingLine (o : SceneObject) (hname : ' ' ∉ o.info.name.toList) :
    makesObject (Placed.makingLine ⟨cx, o⟩) = true := by
  rw [makesObject_iff, Placed.makingLine, Call.render, SceneObject.receiver_call, receiver_of_kind hkind]
  cases o.declares cx with
  | true => exact .inr ⟨o.info.name, hname, _, by simp [Statement.declaration, factoryCall]; rfl⟩
  | false => exact .inl ⟨_, by simp [Statement.declaration, factoryCall]; rfl⟩

end Call

/-! ## Last arguments -/

/-- The last argument is the only one, or stands after a comma and a blank. -/
theorem renderAll_concat (front : List Expr) (last : Expr) :
    ∃ before, Expr.renderAll (front ++ [last]) = before ++ last.render ∧ (before = "" ∨ ∃ b, before = b ++ ", ") := by
  induction front with
  | nil => exact ⟨"", by simp [Expr.renderAll], .inl rfl⟩
  | cons e front ih =>
    obtain ⟨before, h, hbefore⟩ := ih
    have hne : (front ++ [last]).map Expr.render ≠ [] := by simp
    have hcons : Expr.renderAll (e :: front ++ [last]) = e.render ++ ", " ++ Expr.renderAll (front ++ [last]) :=
      String.intercalate_cons_of_ne_nil hne
    refine ⟨e.render ++ ", " ++ before, by simp only [hcons, h, String.append_assoc], .inr ?_⟩
    rcases hbefore with rfl | ⟨b, rfl⟩
    · exact ⟨e.render, by simp⟩
    · exact ⟨e.render ++ ", " ++ b, by simp [String.append_assoc]⟩

/-- A word at the end of a call is read back. -/
theorem lastArgument_of_word {line word : String} (hword : IsWord word) (before : String) {separator : Char}
    (hs : separator = ' ' ∨ separator = '(') (h : line = before.push separator ++ word ++ ");") :
    lastArgument line = word := by
  have hreverse : line.toList.reverse.drop 2 = word.toList.reverse ++ separator :: before.toList.reverse := by simp [h]
  rw [lastArgument, hreverse, takeWhile_stop, List.reverse_reverse, String.ofList_toList]
  · intro c hc
    have hc := hword c (List.mem_reverse.mp hc)
    simp only [List.mem_cons, not_or] at hc
    simp only [Bool.and_eq_true, decide_eq_true_eq]
    exact ⟨hc.1, hc.2.2.2.1⟩
  · rcases hs with rfl | rfl <;> rfl

/-- The last argument of the line that makes an object is its parent. -/
theorem lastArgument_makingLine {cx : Context} (hkind : cx.kind ≠ .state) (o : SceneObject)
    (hparent : IsWord cx.parentName) : lastArgument (Placed.makingLine ⟨cx, o⟩) = cx.parentName := by
  obtain ⟨front, hargs⟩ := args_call hkind o
  obtain ⟨before, hrender, hbefore⟩ := renderAll_concat front (.raw cx.parentName)
  let opening := Statement.declaration o.info.name (o.declares cx) ++ (o.call cx).receiver ++ ".add."
    ++ (o.call cx).factory
  have hline : Placed.makingLine ⟨cx, o⟩ = opening ++ "(" ++ before ++ cx.parentName ++ ");" := by
    rw [Placed.makingLine, Call.render, hargs, hrender]
    apply String.toList_injective
    simp [opening, Expr.render]
  rcases hbefore with rfl | ⟨b, rfl⟩
  · refine lastArgument_of_word hparent opening (.inr rfl) (hline.trans (String.toList_injective ?_))
    simp
  · refine lastArgument_of_word hparent (opening ++ "(" ++ b ++ ",") (.inl rfl)
      (hline.trans (String.toList_injective ?_))
    simp

/-! ## The lines of a scene -/

/-- A group or sprite scene whose live objects have names of their own, by which their lines can be told apart. -/
structure Model.Plain (m : Model) : Prop where
  not_state : m.settings.kind ≠ .state
  object : ∀ o ∈ SceneObject.enabledAmong m.world, o.Plain
  distinct : ((SceneObject.enabledAmong m.world).map (·.info.name)).Nodup

section Scene

variable {m : Model} (h : m.Plain)
include h

theorem plain_of_placed {p : Placed} (hp : p ∈ m.placed) : p.object.Plain :=
  h.object p.object (map_object_placed m ▸ List.mem_map_of_mem hp)

theorem kind_of_plain {p : Placed} (hp : p ∈ m.placed) : p.cx.kind ≠ .state := by
  obtain ⟨earlier, later, hsplit⟩ := List.append_of_mem hp
  rw [(parents_first hsplit).2.1]
  exact h.not_state

/-- A parent is the world or a live group. -/
theorem word_parentName {p : Placed} (hp : p ∈ m.placed) : IsWord p.cx.parentName := by
  obtain ⟨earlier, later, hsplit⟩ := List.append_of_mem hp
  rcases (parents_first hsplit).2.2 with hworld | ⟨g, hg, info, children, physics, hgroup, hcx⟩
  · rw [Context.parentName, hworld]
    exact isWord_this
  · have hplain := plain_of_placed h (hsplit ▸ List.mem_append_left _ hg)
    rw [hgroup] at hplain
    rw [hcx]
    exact hplain.word

/-- Of the lines of an object only the first makes one. -/
theorem filter_makesObject_block {p : Placed} (hp : p ∈ m.placed) :
    (Statement.linesOfAll p.statements).filter makesObject = [p.makingLine] := by
  have hplain := plain_of_placed h hp
  have hmakes : makesObject p.makingLine = true :=
    makesObject_makingLine (kind_of_plain h hp) p.object fun hc => hplain.word _ hc (by simp)
  have hsetup : (Statement.linesOfAll (p.object.setup p.cx)).filter makesObject = [] := by
    refine List.filter_eq_nil_iff.mpr fun line hline => ?_
    obtain ⟨s, hs, hline⟩ := List.mem_flatMap.mp hline
    simp [hplain.setup_makes_nothing hs line hline]
  rw [Placed.statements_eq hp, Statement.linesOfAll, List.flatMap_cons, List.filter_append]
  rw [Statement.linesOfAll] at hsetup
  rw [hsetup, List.append_nil]
  exact List.filter_cons_of_pos hmakes

/-- One line makes each live object, from the outside in. -/
theorem makingLines_eq : m.objectLines.filter makesObject = m.placed.map Placed.makingLine := by
  have hlines : m.objectLines = (Placed.blocks m.placed).flatMap Statement.lines := by
    rw [← objectStatements_eq_blocks]
    rfl
  have hblank : Statement.blank.lines.filter makesObject = [] := by decide
  rw [hlines, List.filter_flatMap, Placed.flatMap_blocks hblank, List.map_eq_flatMap]
  refine List.flatMap_congr fun p hp => ?_
  rw [← List.filter_flatMap]
  exact filter_makesObject_block h hp

/-- The group around an object is made by an earlier line, which declares its variable. -/
theorem parent_declared_before {before after : List String} {line : String}
    (hsplit : m.objectLines = before ++ line :: after) (hline : makesObject line = true) :
    lastArgument line = "this" ∨
      ∃ earlier ∈ before, makesObject earlier = true ∧ Declares (lastArgument line) earlier := by
  have hmaking := makingLines_eq h
  rw [hsplit, List.filter_append, List.filter_cons_of_pos hline] at hmaking
  obtain ⟨earlier, rest, hplaced, hearlier, hrest⟩ := List.map_eq_append_iff.mp hmaking.symm
  obtain ⟨p, later, rfl, hp, -⟩ := List.map_eq_cons_iff.mp hrest
  have hmem : p ∈ m.placed := by
    rw [hplaced]
    simp
  rw [← hp, show p = ⟨p.cx, p.object⟩ from rfl,
    lastArgument_makingLine (kind_of_plain h hmem) p.object (word_parentName h hmem)]
  rcases (parents_first hplaced).2.2 with hworld | ⟨g, hg, info, children, physics, hgroup, hcx⟩
  · left
    rw [Context.parentName, hworld]
  · right
    have hg' : g.makingLine ∈ before.filter makesObject := hearlier ▸ List.mem_map_of_mem hg
    refine ⟨g.makingLine, List.mem_of_mem_filter hg', (List.mem_filter.mp hg').2, ?_⟩
    rw [hcx, Placed.makingLine, hgroup, SceneObject.declares_group rfl, Statement.declaration, if_pos rfl,
      String.append_assoc]
    exact declares_append info.name _

end Scene

end SceneScript
