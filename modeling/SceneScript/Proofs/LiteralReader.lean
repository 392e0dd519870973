/-
  SceneScript.Proofs.LiteralReader — a quoted text read as the script's language reads it.

  `LiteralReader.read?` reads one literal between single quotes (ECMAScript 2019, strict
  code): every escape of the language, a line that is continued after a backslash, and the
  two line separators, which may stand in a literal. A raw line feed or carriage return is
  refused, and so is a literal without its closing quote. What is read is a value of that
  language, a list of UTF-16 code units, and the text after the closing quote.

  Proved, for every text and whatever follows it (`text_delimits_itself`): what
  `Literal.text` writes is read as the text and no further. So texts are written apart, and
  so are lists of texts with commas between them; and no literal has a line break, so a line
  that holds one is still one line.
-/
import Mathlib.Data.List.Basic
import SceneScript.Json.Reader
import SceneScript.Script.Statement

namespace SceneScript

/-! ## Code units -/

namespace Text

/-- The code units of a code point. -/
def unitsOf (n : Nat) : List UInt16 :=
  if n < 0x10000 then [.ofNat n]
  else [.ofNat (0xD800 + (n - 0x10000) / 0x400), .ofNat (0xDC00 + (n - 0x10000) % 0x400)]

/-- A text in UTF-16. -/
def units (s : String) : List UInt16 := s.toList.flatMap fun c => unitsOf c.toNat

theorem ofNat_unit_inj {a b : Nat} (ha : a < 0x10000) (hb : b < 0x10000) (h : UInt16.ofNat a = UInt16.ofNat b) :
    a = b := by
  have := congrArg UInt16.toNat h
  simp only [UInt16.toNat_ofNat'] at this
  omega

theorem toNat_scalar (c : Char) : c.toNat < 0xD800 ∨ (0xDFFF < c.toNat ∧ c.toNat < 0x110000) := c.valid

/-- The code units of a character tell it, and end where the next character begins: the first half of a pair is no
    character of its own. -/
theorem unitsOf_append_inj {c d : Char} {r s : List UInt16} (h : unitsOf c.toNat ++ r = unitsOf d.toNat ++ s) :
    c = d ∧ r = s := by
  have hc := toNat_scalar c
  have hd := toNat_scalar d
  unfold unitsOf at h
  split at h
  · split at h
    · obtain ⟨hhead, hrest⟩ := List.cons.inj h
      exact ⟨Char.toNat_inj.mp (ofNat_unit_inj (by omega) (by omega) hhead), hrest⟩
    · have := ofNat_unit_inj (by omega) (by omega) (List.cons.inj h).1
      omega
  · split at h
    · have := ofNat_unit_inj (by omega) (by omega) (List.cons.inj h).1
      omega
    · obtain ⟨hlead, hrest⟩ := List.cons.inj h
      obtain ⟨htrail, hrest⟩ := List.cons.inj hrest
      have := ofNat_unit_inj (by omega) (by omega) hlead
      have := ofNat_unit_inj (by omega) (by omega) htrail
      exact ⟨Char.toNat_inj.mp (by omega), hrest⟩

theorem unitsOf_ne_nil (n : Nat) : unitsOf n ≠ [] := by
  unfold unitsOf
  split <;> simp

/-- A text is told by its code units. -/
theorem units_inj {s t : String} (h : units s = units t) : s = t := by
  have hchars : ∀ as bs : List Char,
      as.flatMap (fun c => unitsOf c.toNat) = bs.flatMap (fun c => unitsOf c.toNat) → as = bs := by
    intro as
    induction as with
    | nil =>
      intro bs h
      cases bs with
      | nil => rfl
      | cons d bs => exact absurd (List.append_eq_nil_iff.mp h.symm).1 (unitsOf_ne_nil _)
    | cons c as ih =>
      intro bs h
      cases bs with
      | nil => exact absurd (List.append_eq_nil_iff.mp h).1 (unitsOf_ne_nil _)
      | cons d bs =>
        obtain ⟨rfl, hrest⟩ := unitsOf_append_inj h
        rw [ih bs hrest]
  exact String.toList_injective (hchars _ _ h)

end Text

/-! ## The reader -/

namespace LiteralReader

/-- What a literal is in the middle of. -/
inductive Mode where
  | text
  /-- After a backslash. -/
  | escape
  /-- After the escape of the character zero, which no digit may follow. -/
  | zero
  /-- After a backslash and a carriage return, which a line feed may follow. -/
  | continued
  /-- Before this many hexadecimal digits of a code unit, and one more. -/
  | hex (left value : Nat)
  | codePoint
  /-- In braces, after hexadecimal digits of this value, if there are any yet. -/
  | braced (value : Option Nat)
  deriving DecidableEq

/-- What a character does. -/
inductive Step where
  | fail
  | close
  | next (units : List UInt16) (mode : Mode)
  deriving DecidableEq

/-- The code unit that a letter stands for after a backslash. -/
def letterEscape? (c : Char) : Option UInt16 :=
  if c = 'b' then some 8
  else if c = 't' then some 9
  else if c = 'n' then some 10
  else if c = 'v' then some 11
  else if c = 'f' then some 12
  else if c = 'r' then some 13
  else none

def stepText (c : Char) : Step :=
  if c = '\'' then .close
  else if c = '\\' then .next [] .escape
  else if c = '\n' || c = '\r' then .fail
  else .next (Text.unitsOf c.toNat) .text

/-- After a backslash. What has no meaning of its own there, such as a quote, stands for itself. -/
def stepEscape (c : Char) : Step :=
  match letterEscape? c with
  | some unit => .next [unit] .text
  | none =>
    if c = '0' then .next [0] .zero
    else if c.isDigit then .fail
    else if c = 'x' then .next [] (.hex 1 0)
    else if c = 'u' then .next [] .codePoint
    else if c = '\r' then .next [] .continued
    else if c = '\n' || c = '\u2028' || c = '\u2029' then .next [] .text
    else .next (Text.unitsOf c.toNat) .text

def stepHex (left value : Nat) (c : Char) : Step :=
  match Json.hexDigit? c, left with
  | none, _ => .fail
  | some d, 0 => .next [.ofNat (16 * value + d)] .text
  | some d, left + 1 => .next [] (.hex left (16 * value + d))

def step : Mode → Char → Step
  | .text, c => stepText c
  | .escape, c => stepEscape c
  | .zero, c => if c.isDigit then .fail else stepText c
  | .continued, c => if c = '\n' then .next [] .text else stepText c
  | .hex left value, c => stepHex left value c
  | .codePoint, c => if c = '{' then .next [] (.braced none) else stepHex 3 0 c
  | .braced value, c =>
    match Json.hexDigit? c with
    | some d => .next [] (.braced (some (16 * value.getD 0 + d)))
    | none =>
      match value with
      | none => .fail
      | some n => if c = '}' && n ≤ 0x10FFFF then .next (Text.unitsOf n) .text else .fail

/-- Puts code units before what is read. -/
def after (units : List UInt16) (read : List UInt16 × List Char) : List UInt16 × List Char := (units ++ read.1, read.2)

/-- Reads on to the closing quote: the code units, and what follows it. -/
def readFrom (m : Mode) : List Char → Option (List UInt16 × List Char)
  | [] => none
  | c :: cs =>
    match step m c with
    | .fail => none
    | .close => some ([], cs)
    | .next units m => (readFrom m cs).map (after units)

/-- Reads the literal with which a text begins. -/
def read? : List Char → Option (List UInt16 × List Char)
  | '\'' :: cs => readFrom .text cs
  | _ => none

/-- Escapes of every kind and a line that is continued; a line that is not, and a literal without an end. -/
example :
    read? "'a\\x41\\u{1F600}\\0\\\r\n\\'\\q' + b".toList
        = some ([0x61, 0x41, 0xD83D, 0xDE00, 0, 0x27, 0x71], " + b".toList)
      ∧ read? "'a\n'".toList = none ∧ read? "'a\\'".toList = none := by
  decide +kernel

/-! ## Quoted texts -/

theorem readFrom_next {m m' : Mode} {c : Char} {units : List UInt16} (h : step m c = .next units m')
    (rest : List Char) : readFrom m (c :: rest) = (readFrom m' rest).map (after units) := by
  rw [readFrom, h]

/-- An escape of one letter. -/
theorem readFrom_escape {c : Char} {units : List UInt16} (h : stepEscape c = .next units .text) (rest : List Char) :
    readFrom .text ('\\' :: c :: rest) = (readFrom .text rest).map (after units) := by
  have hbackslash : step .text '\\' = .next [] .escape := by decide
  have hescape : step .escape c = .next units .text := h
  rw [readFrom_next hbackslash, readFrom_next hescape, Option.map_map]
  rfl

/-- A character is written so that it is read as itself. -/
theorem readFrom_escapeChar (c : Char) (rest : List Char) :
    readFrom .text (Literal.escapeChar c ++ rest) = (readFrom .text rest).map (after (Text.unitsOf c.toNat)) := by
  unfold Literal.escapeChar
  split
  · rename_i h
    subst h
    exact readFrom_escape (by decide) rest
  split
  · rename_i h
    subst h
    exact readFrom_escape (by decide) rest
  split
  · rename_i h
    subst h
    exact readFrom_escape (by decide) rest
  split
  · rename_i h
    subst h
    exact readFrom_escape (by decide) rest
  split
  · rename_i h
    subst h
    exact readFrom_escape (by decide) rest
  · exact readFrom_next (by simp_all [step, stepText]) rest

theorem readFrom_content (cs rest : List Char) :
    readFrom .text (cs.flatMap Literal.escapeChar ++ '\'' :: rest)
      = some (cs.flatMap fun c => Text.unitsOf c.toNat, rest) := by
  induction cs with
  | nil => rfl
  | cons c cs ih =>
    rw [List.flatMap_cons, List.append_assoc, readFrom_escapeChar, ih]
    rfl

/-- What a text is written as is read as the text, whatever follows it. -/
theorem read?_text (s : String) (rest : List Char) :
    read? ((Literal.text s).toList ++ rest) = some (Text.units s, rest) := by
  have hchars : (Literal.text s).toList ++ rest
      = '\'' :: (s.toList.flatMap Literal.escapeChar ++ '\'' :: rest) := by
    simp [Literal.text, Literal.textChars]
  rw [hchars]
  exact readFrom_content s.toList rest

end LiteralReader

namespace Literal

/-- Texts are told apart by what is written for them, also if something follows. -/
theorem text_append_inj {s t : String} {r u : List Char} (h : (text s).toList ++ r = (text t).toList ++ u) :
    s = t ∧ r = u := by
  have hread := LiteralReader.read?_text s r
  rw [h, LiteralReader.read?_text] at hread
  obtain ⟨hunits, rfl⟩ := Prod.mk.inj (Option.some.inj hread)
  exact ⟨(Text.units_inj hunits).symm, rfl⟩

theorem text_injective : Function.Injective text := by
  intro s t h
  have happend : (text s).toList ++ [] = (text t).toList ++ [] := by rw [h]
  exact (text_append_inj happend).1

theorem line_end_not_mem_escapeChar {c d : Char} (hd : d ∈ ['\n', '\r']) : d ∉ escapeChar c := by
  have hescape : ∀ e ∉ ['\n', '\r'], d ∉ ['\\', e] := by
    intro e he
    simp only [List.mem_cons, List.not_mem_nil, or_false]
    rintro (rfl | rfl)
    · exact absurd hd (by decide)
    · exact he hd
  unfold escapeChar
  split
  · exact hescape _ (by decide)
  split
  · exact hescape _ (by decide)
  split
  · exact hescape _ (by decide)
  split
  · exact hescape _ (by decide)
  split
  · exact hescape _ (by decide)
  · rename_i hfeed hreturn _
    rw [List.mem_singleton]
    rintro rfl
    simp [hfeed, hreturn] at hd

/-- A quoted text does not end a line. -/
theorem line_end_not_mem_text {d : Char} (hd : d ∈ ['\n', '\r']) (s : String) : d ∉ (text s).toList := by
  have hquote : d ≠ '\'' := by
    rintro rfl
    exact absurd hd (by decide)
  simp only [text, textChars, String.toList_ofList, List.mem_cons, List.mem_append, List.mem_flatMap,
    List.not_mem_nil, or_false]
  rintro (h | ⟨c, -, h⟩ | h)
  · exact hquote h
  · exact line_end_not_mem_escapeChar hd h
  · exact hquote h

end Literal

theorem Text.length_lines (s : String) : (Text.lines s).length = s.toList.count '\n' + 1 := by
  have hchars : ∀ cs : List Char, (lineChars cs).length = cs.count '\n' + 1 := by
    intro cs
    induction cs with
    | nil => rfl
    | cons c cs ih =>
      rw [lineChars]
      split
      · rename_i h
        rw [List.length_cons, ih, h, List.count_cons_self]
      · rename_i h
        rw [List.count_cons_of_ne h, ← ih]
        split <;> simp_all
  rw [lines, List.length_map, hchars]

/-! ## Lists of texts -/

namespace Expr

/-- What stands after the first of several quoted texts. -/
def afterFirst : List String → List Char
  | [] => []
  | t :: more => ", ".toList ++ (renderAll ((t :: more).map text)).toList

theorem toList_renderAll_text_cons (s : String) (more : List String) :
    (renderAll ((s :: more).map text)).toList = (Literal.text s).toList ++ afterFirst more := by
  cases more with
  | nil => simp [renderAll, render, afterFirst]
  | cons t more => simp [renderAll, render, afterFirst, String.intercalate_cons_cons]

/-- Quoted texts with commas between them can be told apart again. -/
theorem renderAll_text_injective : Function.Injective fun ss : List String => renderAll (ss.map text) := by
  intro ss ts h
  replace h : (renderAll (ss.map text)).toList = (renderAll (ts.map text)).toList := congrArg String.toList h
  have hempty : ∀ (s : String) (more : List String), (renderAll ((s :: more).map text)).toList ≠ [] := by
    intro s more
    rw [toList_renderAll_text_cons]
    simp [Literal.text, Literal.textChars]
  induction ss generalizing ts with
  | nil =>
    cases ts with
    | nil => rfl
    | cons t ts => exact absurd h.symm (hempty t ts)
  | cons s ss ih =>
    cases ts with
    | nil => exact absurd h (hempty s ss)
    | cons t ts =>
      rw [toList_renderAll_text_cons, toList_renderAll_text_cons] at h
      obtain ⟨rfl, hrest⟩ := Literal.text_append_inj h
      cases ss with
      | nil =>
        cases ts with
        | nil => rfl
        | cons t ts => cases hrest
      | cons s' ss =>
        cases ts with
        | nil => cases hrest
        | cons t ts => rw [ih (List.append_cancel_left hrest)]

end Expr

/-- A quoted text is read as the text and no further, whatever follows it, and stands in one line. -/
theorem text_delimits_itself :
    (∀ s rest, LiteralReader.read? ((Literal.text s).toList ++ rest) = some (Text.units s, rest)) ∧
    (∀ s t, Text.units s = Text.units t ↔ s = t) ∧
    (∀ s, '\n' ∉ (Literal.text s).toList ∧ '\r' ∉ (Literal.text s).toList) ∧
    (∀ front s back, (Text.lines (front ++ Literal.text s ++ back)).length = (Text.lines (front ++ back)).length) ∧
    Function.Injective Literal.text ∧
    Function.Injective fun ss : List String => Expr.renderAll (ss.map .text) := by
  have hline : ∀ s, '\n' ∉ (Literal.text s).toList := fun s => Literal.line_end_not_mem_text (by decide) s
  refine ⟨LiteralReader.read?_text, fun s t => ⟨Text.units_inj, congrArg Text.units⟩,
    fun s => ⟨hline s, Literal.line_end_not_mem_text (by decide) s⟩, fun front s back => ?_, Literal.text_injective,
    Expr.renderAll_text_injective⟩
  rw [Text.length_lines, Text.length_lines]
  simp [List.count_eq_zero_of_not_mem (hline s)]

end SceneScript
