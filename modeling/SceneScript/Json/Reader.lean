/-
  SceneScript.Json.Reader — from a text to the value it holds.

  `Json.read` goes through the text once, left to right, and stops where it breaks. It
  is total: nesting and length are bounded by a count of steps that the length of the
  text fixes. The two ways of reaching a value are worked out side by side: a
  quoted text and a number carry what reading finds, while the place where the value
  ends is the one that skipping finds.
-/
import SceneScript.Json.Basic
import SceneScript.Number.Decimal

namespace SceneScript.Json

/-- A value and the characters after it, unless the text broke inside the value. -/
abbrev Reading := Json × Option (List Char)

def isSpace (c : Char) : Bool := c == ' ' || c == '\n' || c == '\t' || c == '\r'

def skipSpace (cs : List Char) : List Char := cs.dropWhile isSpace

/-! ## Words -/

/-- Reads the rest of a word that stands for `value`. -/
def word (opening : Opening) (value : Json) : List Char → List Char → Reading
  | [], cs => (value, some cs)
  | _ :: _, [] => (stop opening .unfinished, none)
  | w :: ws, c :: cs => if c = w then word opening value ws cs else (stop opening .malformed, none)

/-! ## Numbers -/

/-- A number that is not well formed. Skipping does not tell an end of text from a wrong character there. -/
def badNumber (rest : List Char) : Reading :=
  (.broken ⟨.number, if rest.isEmpty then .unfinished else .malformed, some .malformed⟩, none)

/-- A number with a fraction or an exponent, or an integer past 64 bits. The decimal is rounded exactly. A JSON package
    built for speed may round 16 or 17 digits to a neighbour of the nearest double, as best it can: that printed doubles
    are read back exactly is an assumption about the package that reads the scenes. -/
def realNumber (negative : Bool) (c : Decimal) (rest : List Char) : Reading :=
  match Double.ofDecimal? negative c with
  | some d => (.number (.real d), some rest)
  | none => (.broken ⟨.number, .malformed, none⟩, some rest)

/-- A number without fraction and exponent. A negative zero is no integer. -/
def wholeNumber (negative : Bool) (n : Nat) (rest : List Char) : Reading :=
  if negative then
    if 0 < n ∧ n ≤ 0x8000000000000000 then (.number (.integer (-(n : Int))), some rest)
    else realNumber true ⟨n, 0⟩ rest
  else if n < 0x10000000000000000 then (.number (.integer (n : Int)), some rest)
  else realNumber false ⟨n, 0⟩ rest

/-- The sign of an exponent, if one is written, and what follows. -/
def exponentSign : List Char → Bool × List Char
  | '-' :: cs => (true, cs)
  | '+' :: cs => (false, cs)
  | cs => (false, cs)

/-- The exponent of a number, after its `e`. -/
def exponentPart (negative : Bool) (digits : List Char) (places : Nat) (cs : List Char) : Reading :=
  let (down, cs) := exponentSign cs
  let ds := cs.takeWhile Char.isDigit
  let rest := cs.dropWhile Char.isDigit
  if ds.isEmpty then badNumber rest
  else
    let exponent : Int := if down then -(Decimal.ofDigitChars ds : Int) else (Decimal.ofDigitChars ds : Int)
    realNumber negative ⟨Decimal.ofDigitChars digits, exponent - (places : Int)⟩ rest

/-- What follows the digits of a number: an exponent or its end. -/
def afterDigits (negative : Bool) (digits : List Char) (places : Nat) : List Char → Option Reading
  | 'e' :: cs => some (exponentPart negative digits places cs)
  | 'E' :: cs => some (exponentPart negative digits places cs)
  | _ => none

/-- What follows the integer part of a number. -/
def afterInteger (negative : Bool) (whole : List Char) (cs : List Char) : Reading :=
  match cs with
  | '.' :: cs =>
    let fraction := cs.takeWhile Char.isDigit
    let rest := cs.dropWhile Char.isDigit
    if fraction.isEmpty then badNumber rest
    else
      (afterDigits negative (whole ++ fraction) fraction.length rest).getD
        (realNumber negative ⟨Decimal.ofDigitChars (whole ++ fraction), -(fraction.length : Int)⟩ rest)
  | cs => (afterDigits negative whole 0 cs).getD (wholeNumber negative (Decimal.ofDigitChars whole) cs)

/-- A number after its sign. A leading zero stands alone. -/
def numeral (negative : Bool) (cs : List Char) : Reading :=
  let digits := cs.takeWhile Char.isDigit
  let rest := cs.dropWhile Char.isDigit
  match digits with
  | [] => badNumber rest
  | '0' :: _ :: _ => (stop .number .malformed, none)
  | digits => afterInteger negative digits rest

/-! ## Quoted texts -/

/-- The value of a hexadecimal digit. -/
def hexDigit? (c : Char) : Option Nat :=
  if '0' ≤ c ∧ c ≤ '9' then some (c.toNat - '0'.toNat)
  else if 'a' ≤ c ∧ c ≤ 'f' then some (c.toNat - 'a'.toNat + 10)
  else if 'A' ≤ c ∧ c ≤ 'F' then some (c.toNat - 'A'.toNat + 10)
  else none

/-- The value of four hexadecimal digits. -/
def hex4? (a b c d : Char) : Option Nat :=
  match hexDigit? a, hexDigit? b, hexDigit? c, hexDigit? d with
  | some a, some b, some c, some d => some (((a * 16 + b) * 16 + c) * 16 + d)
  | _, _, _, _ => none

/-- The fault of an escape by code point with fewer than four characters left: the text ended inside it when fewer than
    four bytes are left. -/
def shortEscape (cs : List Char) : Fault :=
  if (cs.foldl (fun bytes c => bytes + c.utf8Size) 0) < 4 then .unfinished else .malformed

/-- The character that a one-letter escape stands for. -/
def escaped? (c : Char) : Option Char :=
  if c = '"' then some '"'
  else if c = '\\' then some '\\'
  else if c = '/' then some '/'
  else if c = 'b' then some (Char.ofNat 8)
  else if c = 'f' then some (Char.ofNat 12)
  else if c = 'n' then some '\n'
  else if c = 'r' then some '\r'
  else if c = 't' then some '\t'
  else none

def isLeadSurrogate (n : Nat) : Bool := 0xD800 ≤ n && n ≤ 0xDBFF

def isTrailSurrogate (n : Nat) : Bool := 0xDC00 ≤ n && n ≤ 0xDFFF

/-- The character that a surrogate pair stands for. -/
def surrogatePair (lead trail : Nat) : Char := Char.ofNat (0x10000 + (lead - 0xD800) * 0x400 + (trail - 0xDC00))

/-- The content of a quoted text, from after its opening quote. After a leading surrogate only the escape of a trailing
    one may stand. -/
def textContent : Option Nat → List Char → Except Fault (List Char)
  | _, [] => .error .unfinished
  | lead?, c :: cs =>
    if c = '\\' then
      match cs with
      | [] => .error .unfinished
      | 'u' :: h1 :: h2 :: h3 :: h4 :: rest =>
        match hex4? h1 h2 h3 h4 with
        | none => .error .malformed
        | some n =>
          match lead? with
          | some lead =>
            if isTrailSurrogate n then (textContent none rest).map (surrogatePair lead n :: ·) else .error .malformed
          | none =>
            if isTrailSurrogate n then .error .malformed
            else if isLeadSurrogate n then textContent (some n) rest
            else (textContent none rest).map (Char.ofNat n :: ·)
      | 'u' :: rest => .error (shortEscape rest)
      | e :: rest =>
        match lead?, escaped? e with
        | none, some plain => (textContent none rest).map (plain :: ·)
        | _, _ => .error .malformed
    else if lead?.isSome then .error .malformed
    else if c = '"' then .ok []
    else if c.toNat < 0x20 then .error .malformed
    else (textContent none cs).map (c :: ·)

/-- The characters after a quoted text, from after its opening quote. -/
def afterText : List Char → Except Fault (List Char)
  | [] => .error .unfinished
  | c :: cs =>
    if c = '"' then .ok cs
    else if c = '\\' then
      match cs with
      | [] => .error .unfinished
      | 'u' :: h1 :: h2 :: h3 :: h4 :: rest =>
        match hex4? h1 h2 h3 h4 with
        | none => .error .malformed
        | some _ => afterText rest
      | 'u' :: rest => .error (shortEscape rest)
      | e :: rest => if (escaped? e).isSome then afterText rest else .error .malformed
    else if c.toNat < 0x20 then .error .malformed
    else afterText cs

/-- A quoted text, from after its opening quote. -/
def quoted (cs : List Char) : Reading :=
  match textContent none cs, afterText cs with
  | .ok s, .ok rest => (.text (String.ofList s), some rest)
  | .error onRead, .ok rest => (.broken ⟨.text, onRead, none⟩, some rest)
  | .error onRead, .error onSkip => (.broken ⟨.text, onRead, some onSkip⟩, none)
  | .ok _, .error fault => (stop .text fault, none)

/-! ## Values -/

mutual

/-- Reads a value, with a bound on the number of steps. -/
def value : Nat → List Char → Reading
  | 0, _ => (stop .other .malformed, none)
  | steps + 1, cs =>
    match skipSpace cs with
    | [] => (stop .nothing .unfinished, none)
    | c :: rest =>
      if c = '"' then quoted rest
      else if c = '[' then
        match skipSpace rest with
        | [] => (.array [] (.broken false .unfinished), none)
        | d :: after =>
          if d = ']' then (list [], some after)
          else
            let (items, close, after) := itemsOf steps (d :: after)
            (.array items close, after)
      else if c = '\x7b' then
        match skipSpace rest with
        | [] => (.object [] (.broken false .unfinished), none)
        | d :: after =>
          if d = '\x7d' then (record [], some after)
          else
            let (members, close, after) := membersOf steps (d :: after)
            (.object members close, after)
      else if c = '-' then numeral true rest
      else if c.isDigit then numeral false (c :: rest)
      else if c = 'n' then word .null .null ['u', 'l', 'l'] rest
      else if c = 't' then word .flag (.flag true) ['r', 'u', 'e'] rest
      else if c = 'f' then word .flag (.flag false) ['a', 'l', 's', 'e'] rest
      else (stop .other .malformed, none)

/-- Reads the elements of an array up to its end, from the first character of an element. -/
def itemsOf : Nat → List Char → List Json × Close × Option (List Char)
  | 0, _ => ([], .broken false .malformed, none)
  | steps + 1, cs =>
    match value steps cs with
    | (item, none) => ([item], .closed, none)
    | (item, some rest) =>
      match skipSpace rest with
      | [] => ([item], .broken false .unfinished, none)
      | c :: rest =>
        if c = ']' then ([item], .closed, some rest)
        else if c = ',' then
          match skipSpace rest with
          | [] => ([item], .broken true .unfinished, none)
          | d :: rest =>
            if d = ']' then ([item], .broken true .malformed, none)
            else
              let (items, close, after) := itemsOf steps (d :: rest)
              (item :: items, close, after)
        else ([item], .broken false .malformed, none)

/-- Reads the members of an object up to its end, from the first character of a key. -/
def membersOf : Nat → List Char → List (Json × Json) × Close × Option (List Char)
  | 0, _ => ([], .broken false .malformed, none)
  | steps + 1, cs =>
    match cs with
    | '"' :: rest =>
      match quoted rest with
      | (key, none) => ([(key, stop .other .malformed)], .closed, none)
      | (key, some rest) =>
        match skipSpace rest with
        | [] => ([(key, stop .nothing .unfinished)], .closed, none)
        | c :: rest =>
          if c = ':' then
            match value steps rest with
            | (v, none) => ([(key, v)], .closed, none)
            | (v, some rest) =>
              match skipSpace rest with
              | [] => ([(key, v)], .broken false .unfinished, none)
              | c :: rest =>
                if c = '\x7d' then ([(key, v)], .closed, some rest)
                else if c = ',' then
                  match skipSpace rest with
                  | [] => ([(key, v)], .broken true .unfinished, none)
                  | d :: rest =>
                    if d = '\x7d' then ([(key, v)], .broken true .malformed, none)
                    else
                      let (members, close, after) := membersOf steps (d :: rest)
                      ((key, v) :: members, close, after)
                else ([(key, v)], .broken false .malformed, none)
          else ([(key, stop .other .malformed)], .closed, none)
    | cs => ([((value steps cs).1, stop .other .malformed)], .closed, none)

end

/-- What a whole text holds: a value, and whether anything but blanks follows it. -/
structure Document where
  root : Json
  trailing : Bool

/-- Reads a text. Each step uses up a character or goes one level into a container. -/
def read (s : String) : Document :=
  let cs := s.toList
  match value (2 * cs.length + 2) cs with
  | (root, none) => ⟨root, false⟩
  | (root, some rest) => ⟨root, !rest.all isSpace⟩

end SceneScript.Json
