/-
  SceneScript.Text.Search — finding a text inside another.

  `cut?` splits at the first place where a text occurs, which is how the editable
  regions of a script are found again. `replaceAll` goes left to right and does not
  look into what it has replaced. `lines` splits at line feeds; a carriage return is an
  ordinary character.
-/

namespace SceneScript.Text

/-- What follows `mark`, if `cs` begins with it. -/
def afterMark? : List Char → List Char → Option (List Char)
  | [], cs => some cs
  | _ :: _, [] => none
  | m :: ms, c :: cs => if m = c then afterMark? ms cs else none

theorem afterMark?_eq_some_iff {mark cs rest : List Char} : afterMark? mark cs = some rest ↔ cs = mark ++ rest := by
  induction mark generalizing cs with
  | nil => simp [afterMark?, eq_comm]
  | cons m ms ih =>
    cases cs with
    | nil => simp [afterMark?]
    | cons c cs =>
      by_cases h : m = c
      · simp [afterMark?, h, ih]
      · simp [afterMark?, h, Ne.symm h]

/-- The text before the first occurrence of `mark`, and the text after it. -/
def cutChars? (mark : List Char) : List Char → Option (List Char × List Char)
  | [] => (afterMark? mark []).map fun rest => ([], rest)
  | c :: cs =>
    match afterMark? mark (c :: cs) with
    | some rest => some ([], rest)
    | none => (cutChars? mark cs).map fun (before, rest) => (c :: before, rest)

/-- Replaces the occurrences of a non-empty `mark`, skipping the characters that an occurrence has used up. -/
def replaceFrom (mark new : List Char) : Nat → List Char → List Char
  | _, [] => []
  | skip + 1, _ :: cs => replaceFrom mark new skip cs
  | 0, c :: cs =>
    match afterMark? mark (c :: cs) with
    | some _ => new ++ replaceFrom mark new (mark.length - 1) cs
    | none => c :: replaceFrom mark new 0 cs

/-- The empty text occurs before every character and at the end. -/
def replaceChars (mark new cs : List Char) : List Char :=
  if mark.isEmpty then new ++ cs.flatMap fun c => c :: new else replaceFrom mark new 0 cs

/-- The pieces between line feeds; there is always one more than there are line feeds. -/
def lineChars : List Char → List (List Char)
  | [] => [[]]
  | c :: cs =>
    if c = '\n' then [] :: lineChars cs
    else match lineChars cs with
      | [] => [[c]]
      | line :: more => (c :: line) :: more

/-- The text before the first occurrence of `mark`, and the text after it. -/
def cut? (mark s : String) : Option (String × String) :=
  (cutChars? mark.toList s.toList).map fun (before, rest) => (String.ofList before, String.ofList rest)

/-- Replaces every occurrence of `mark`, left to right, none overlapping another. -/
def replaceAll (mark new s : String) : String := String.ofList (replaceChars mark.toList new.toList s.toList)

/-- The pieces between line feeds. -/
def lines (s : String) : List String := (lineChars s.toList).map String.ofList

/-- Drops the line feeds at both ends. -/
def trimLineFeeds (s : String) : String :=
  String.ofList ((((s.toList.dropWhile (· == '\n')).reverse).dropWhile (· == '\n')).reverse)

/-- Of three dollars in a row the first two are an occurrence. -/
example : replaceAll "$$" "v" "$$$ a $$$$" = "v$ a vv" := by decide +kernel

end SceneScript.Text
