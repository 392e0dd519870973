/-
  SceneScript.Proofs.WriteLines — the line of a write, and what can be read from it.

  Two kinds of statements write to a property of an object: one assigns a value, the
  other sets a pair. Either is one line (`Statement.lines_of_write?`). Read from the left,
  the line gives back what was written and where (`readWrite?_writeLine`): the first blank
  ends the path of an assignment, and the line of a pair has no equals sign, since its
  path is a word and its values are numbers (`Legible`).
-/
import SceneScript.Proofs.Digits
import SceneScript.Proofs.Occurrence
import SceneScript.Script.Statement

namespace SceneScript

/-- A mark is not in a text that its first character is not in. -/
theorem Text.OnlyAtEnd.of_head {mark s : String} {c : Char} (hm : mark.toList.head? = some c) (hs : c ∉ s.toList) :
    OnlyAtEnd mark s := by
  refine .of_not_occurs (fun ho => hs (ho.subset (List.mem_of_head? hm))) ?_
  rintro ⟨l₁, l₂, h₁, -, hsplit, hsuffix, -⟩
  obtain ⟨d, l, rfl⟩ := List.exists_cons_of_ne_nil h₁
  obtain rfl : d = c := by simpa [hsplit] using hm
  exact hs (hsuffix.subset List.mem_cons_self)

namespace Statement

/-- What a statement writes to a property of `var`. -/
def write? (var : String) : Statement → Option (String × List String)
  | .assign target path value => if target = var then some (path, [value.render]) else none
  | .setTo target path a b => if target = var then some (path, [a.render, b.render]) else none
  | .create _ _ _ => none
  | .addAnimation _ _ => none
  | .killOnComplete _ _ => none
  | .enableBody _ => none
  | .shapeBody _ _ _ => none
  | .attachData _ _ => none
  | .blank => none

/-- The line of a write: one value is assigned, two are set. -/
def writeLine (var : String) : String × List String → String
  | (path, [value]) => var ++ "." ++ path ++ " = " ++ value ++ ";"
  | (path, values) => var ++ "." ++ path ++ ".setTo(" ++ ", ".intercalate values ++ ");"

theorem lines_of_write? {var : String} {s : Statement} {w : String × List String} (h : s.write? var = some w) :
    s.lines = [writeLine var w] := by
  cases s with
  | assign target path value =>
    obtain ⟨rfl, rfl⟩ : target = var ∧ (path, [value.render]) = w := by simpa [write?] using h
    rfl
  | setTo target path a b =>
    obtain ⟨rfl, rfl⟩ : target = var ∧ (path, [a.render, b.render]) = w := by simpa [write?] using h
    simp [lines, writeLine, String.append_assoc]
  | create name declares call => cases h
  | addAnimation target animation => cases h
  | killOnComplete target animation => cases h
  | enableBody target => cases h
  | shapeBody target method args => cases h
  | attachData target data => cases h
  | blank => cases h

/-! ## Reading a line -/

/-- Reads a path and the one value or the two that are written there. -/
def readPath? (text : String) : Option (String × List String) :=
  match Text.cut? " = " text with
  | some (path, value) => some (path, [String.ofList value.toList.dropLast])
  | none => do
    let (path, args) ← Text.cut? ".setTo(" text
    let (first, args) ← Text.cut? ", " args
    let (second, _) ← Text.cut? ");" args
    some (path, [first, second])

/-- Reads the line of a write to a property of `var`. -/
def readWrite? (var line : String) : Option (String × List String) :=
  (Text.afterMark? (var ++ ".").toList line.toList).bind fun cs => readPath? (String.ofList cs)

theorem readWrite?_append (var text : String) : readWrite? var (var ++ "." ++ text) = readPath? text := by
  have hafter : Text.afterMark? (var ++ ".").toList (var ++ "." ++ text).toList = some text.toList :=
    Text.afterMark?_eq_some_iff.mpr String.toList_append
  rw [readWrite?, hafter, Option.bind_some, String.ofList_toList]

theorem readPath?_one {path : String} (h : ' ' ∉ path.toList) (value : String) :
    readPath? (path ++ " = " ++ (value ++ ";")) = some (path, [value]) := by
  have hcut : Text.cut? " = " (path ++ " = " ++ (value ++ ";")) = some (path, value ++ ";") :=
    (Text.OnlyAtEnd.of_head rfl h).cut _
  simp [readPath?, hcut]

/-- The characters of a number. -/
def NumberChar (c : Char) : Prop := c.isDigit = true ∨ c = '.' ∨ c = '-'

instance : DecidablePred NumberChar := fun _ => inferInstanceAs (Decidable (_ ∨ _ ∨ _))

theorem readPath?_two {path a b : String} (hpath : path.toList.all Char.isAlpha = true)
    (ha : ∀ c ∈ a.toList, NumberChar c) (hb : ∀ c ∈ b.toList, NumberChar c) :
    readPath? (path ++ ".setTo(" ++ (a ++ ", " ++ (b ++ ");"))) = some (path, [a, b]) := by
  have hword : ∀ c : Char, c.isAlpha = false → c ∉ path.toList := fun c hc hmem => by
    rw [List.all_eq_true.mp hpath c hmem] at hc
    cases hc
  have hfirst : ∀ c : Char, ¬ NumberChar c → c ∉ a.toList := fun c hc hmem => hc (ha c hmem)
  have hsecond : ∀ c : Char, ¬ NumberChar c → c ∉ b.toList := fun c hc hmem => hc (hb c hmem)
  have hnone : Text.cut? " = " (path ++ ".setTo(" ++ (a ++ ", " ++ (b ++ ");"))) = none := by
    refine Text.cut?_eq_none_iff.mpr fun ho => ?_
    have hequals : '=' ∈ (path ++ ".setTo(" ++ (a ++ ", " ++ (b ++ ");"))).toList := ho.subset (by decide)
    simp [hword '=' (by decide), hfirst '=' (by decide), hsecond '=' (by decide)] at hequals
  have hcut : Text.cut? ".setTo(" (path ++ ".setTo(" ++ (a ++ ", " ++ (b ++ ");"))) = some (path, a ++ ", " ++ (b ++ ");")) :=
    (Text.OnlyAtEnd.of_head rfl (hword '.' (by decide))).cut _
  have hcomma : Text.cut? ", " (a ++ ", " ++ (b ++ ");")) = some (a, b ++ ");") :=
    (Text.OnlyAtEnd.of_head rfl (hfirst ',' (by decide))).cut _
  have hclose : Text.cut? ");" (b ++ ");" ++ "") = some (b, "") :=
    (Text.OnlyAtEnd.of_head rfl (hsecond ')' (by decide))).cut _
  rw [String.append_empty] at hclose
  simp [readPath?, hnone, hcut, hcomma, hclose]

/-- The path of one value ends at a blank; that of a pair is a word, and the pair itself are numbers. -/
inductive Legible : String × List String → Prop
  | one {path value : String} : ' ' ∉ path.toList → Legible (path, [value])
  | two {path a b : String} : path.toList.all Char.isAlpha = true → (∀ c ∈ a.toList, NumberChar c) →
      (∀ c ∈ b.toList, NumberChar c) → Legible (path, [a, b])

theorem readWrite?_writeLine {w : String × List String} (h : Legible w) (var : String) :
    readWrite? var (writeLine var w) = some w := by
  cases h with
  | @one path value hpath =>
    have hline : writeLine var (path, [value]) = var ++ "." ++ (path ++ " = " ++ (value ++ ";")) := by
      simp only [writeLine, String.append_assoc]
    rw [hline, readWrite?_append, readPath?_one hpath]
  | @two path a b hpath ha hb =>
    have hline : writeLine var (path, [a, b]) = var ++ "." ++ (path ++ ".setTo(" ++ (a ++ ", " ++ (b ++ ");"))) := by
      simp [writeLine, String.append_assoc]
    rw [hline, readWrite?_append, readPath?_two hpath ha hb]

end Statement

end SceneScript
