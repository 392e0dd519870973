/-
  SceneScript.Json.Basic — the value that a JSON text holds, sound or broken.

  A scene comes from a text that people and tools write, so a text may break off or go
  wrong at any place. `Json` keeps as much as the text holds up to there: a scalar that
  is not well formed is a `broken` leaf, and a container that is not closed properly
  says so in its `Close`. A fault is reported when the place is reached, so of two faults
  the one that stands first in the text is reported, whether it is one of form or of
  content.

  A value can be reached in two ways. It is *read* when its content is wanted, and
  *skipped* when it belongs to a member that nobody knows. Skipping asks less: a number
  past the largest double, half of a surrogate pair, and any depth of nesting pass.
  `readFault` and `skipFault` are the first fault of a whole value in either way.
-/
import SceneScript.Number.Double

namespace SceneScript

/-- What is wrong with the form of a text: a wrong character, or an end where more is needed. -/
inductive Fault where
  | malformed
  | unfinished
  deriving DecidableEq

/-- What the first character of a broken value announces. -/
inductive Opening where
  | nothing
  | null
  | flag
  | number
  | text
  | other
  deriving DecidableEq

/-- A value that is not well formed: the fault found on reading it, and the one found on skipping it, if any. -/
structure Break where
  opening : Opening
  onRead : Fault
  onSkip : Option Fault
  deriving DecidableEq

/-- How a container ends: closed, or broken at a place that may follow a comma. -/
inductive Close where
  | closed
  | broken (afterComma : Bool) (fault : Fault)
  deriving DecidableEq

/-- A number: an integer that fits 64 bits, signed or unsigned, or any other as a double. -/
inductive Numeral where
  | integer (n : Int)
  | real (d : Double)
  deriving DecidableEq

/-- The value that a text holds. The key of a member is a `text` in every sound object. -/
inductive Json where
  | null
  | flag (value : Bool)
  | number (value : Numeral)
  | text (value : String)
  | array (items : List Json) (close : Close)
  | object (members : List (Json × Json)) (close : Close)
  | broken (place : Break)

namespace Json

instance : Inhabited Json := ⟨.null⟩

/-- A sound array. -/
def list (items : List Json) : Json := .array items .closed

/-- A sound object. -/
def record (members : List (String × Json)) : Json := .object (members.map fun (k, v) => (.text k, v)) .closed

/-- A value that stops here, for reading and for skipping. -/
def stop (opening : Opening) (fault : Fault) : Json := .broken ⟨opening, fault, some fault⟩

end Json

/-! ## Faults of form -/

/-- The fault met on asking a container for what follows its elements. -/
def Close.fault? : Close → Option Fault
  | .closed => none
  | .broken _ fault => some fault

/-- The fault met on closing a container that must have no further element. -/
def Close.endFault? : Close → Option Fault
  | .closed => none
  | .broken true _ => some .malformed
  | .broken false fault => some fault

namespace Json

/-- The fault of a key that is read; anything but a text is out of place. -/
def keyReadFault : Json → Option Fault
  | .text _ => none
  | .broken ⟨.text, onRead, _⟩ => some onRead
  | _ => some .malformed

/-- The fault of a key that is skipped. -/
def keySkipFault : Json → Option Fault
  | .text _ => none
  | .broken ⟨.text, _, onSkip⟩ => onSkip
  | _ => some .malformed

/-- At most this many containers may be open at once in what is read. -/
def nestingLimit : Nat := 127

mutual

/-- The first fault on reading a whole value, with room for so many more open containers. -/
def readFault : Nat → Json → Option Fault
  | _, .broken b => some b.onRead
  | room, .array items close =>
    match room with
    | 0 => some .malformed
    | room + 1 => (itemsReadFault room items).or close.fault?
  | room, .object members close =>
    match room with
    | 0 => some .malformed
    | room + 1 => (membersReadFault room members).or close.fault?
  | _, .null => none
  | _, .flag _ => none
  | _, .number _ => none
  | _, .text _ => none
termination_by structural _ j => j

def itemsReadFault : Nat → List Json → Option Fault
  | _, [] => none
  | room, j :: js => (readFault room j).or (itemsReadFault room js)
termination_by structural _ js => js

def membersReadFault : Nat → List (Json × Json) → Option Fault
  | _, [] => none
  | room, (k, v) :: rest => (keyReadFault k).or ((readFault room v).or (membersReadFault room rest))
termination_by structural _ ms => ms

end

mutual

/-- The first fault on skipping a whole value. -/
def skipFault : Json → Option Fault
  | .broken b => b.onSkip
  | .array items close => (itemsSkipFault items).or close.fault?
  | .object members close => (membersSkipFault members).or close.fault?
  | .null => none
  | .flag _ => none
  | .number _ => none
  | .text _ => none
termination_by structural j => j

def itemsSkipFault : List Json → Option Fault
  | [] => none
  | j :: js => (skipFault j).or (itemsSkipFault js)
termination_by structural js => js

def membersSkipFault : List (Json × Json) → Option Fault
  | [] => none
  | (k, v) :: rest => (keySkipFault k).or ((skipFault v).or (membersSkipFault rest))
termination_by structural ms => ms

end

end Json

end SceneScript
