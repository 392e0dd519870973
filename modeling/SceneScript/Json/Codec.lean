/-
  SceneScript.Json.Codec — reading and writing values of one type.

  A codec goes both ways: `decode` takes a value out of a `Json`, `encode` puts it back.
  Decoding depends on the `Place` where the value stands. Most values are read straight
  from the text, with room for so many more open containers; faults of form then show up
  as the value is walked through. The content of a tagged value is first read as a
  whole and held, because its tag may come last; what is held is sound.

  Scalars, lists, optional values and names (values written as one of a few words) are
  here; records and tagged values have modules of their own.
-/
import SceneScript.Json.Error
import SceneScript.Json.Reader

namespace SceneScript

/-- Where a value stands. -/
inductive Place where
  | streamed (room : Nat)
  | held
  deriving DecidableEq

/-- How values of a type are read from and written to JSON. -/
structure Codec (α : Type) where
  decode : Place → Json → Except ReadError α
  encode : α → Json

/-- Stops at a fault. -/
def ReadError.check : Option Fault → Except ReadError Unit
  | none => .ok ()
  | some fault => .error (.form fault)

/-- Refuses for a reason of content. -/
def refuse {α : Type} (e : DataError) : Except ReadError α := .error (.data e)

namespace Place

/-- The place of what stands inside a container; too deep a container is a fault of form. -/
def enter : Place → Except ReadError Place
  | .streamed 0 => .error (.form .malformed)
  | .streamed (room + 1) => .ok (.streamed room)
  | .held => .ok .held

/-- Passes over a value that nobody asked for. -/
def pass : Place → Json → Except ReadError Unit
  | .streamed _, j => ReadError.check j.skipFault
  | .held, _ => .ok ()

/-- Reads a whole value in order to hold it. -/
def hold : Place → Json → Except ReadError Unit
  | .streamed room, j => ReadError.check (j.readFault room)
  | .held, _ => .ok ()

end Place

namespace Json

/-- What a value is, as a message says it; a broken one gives its fault. -/
def found : Json → Except ReadError Found
  | .null => .ok .null
  | .flag b => .ok (.flag b)
  | .number (.integer n) => .ok (.integer n)
  | .number (.real d) => .ok (.real d)
  | .text s => .ok (.text s)
  | .array _ _ => .ok .sequence
  | .object _ _ => .ok .map
  | .broken b => .error (.form b.onRead)

/-- Refuses a value of another kind than the wanted one. Nothing inside a container is looked at. -/
def mismatch {α : Type} (j : Json) (wanted : Wanted) : Except ReadError α := do
  refuse (.wrongType (← j.found) wanted)

/-- The text of a key. -/
def key : Json → Except ReadError String
  | .text s => .ok s
  | k => .error (.form ((keyReadFault k).getD .malformed))

end Json

namespace Codec

/-! ## Scalars -/

def flag : Codec Bool where
  decode _ j :=
    match j with
    | .flag b => .ok b
    | j => j.mismatch .flag
  encode := .flag

def text : Codec String where
  decode _ j :=
    match j with
    | .text s => .ok s
    | j => j.mismatch .text
  encode := .text

/-- Any number; an integer is rounded onto the grid. -/
def double : Codec Double where
  decode _ j :=
    match j with
    | .number (.real d) => .ok d
    | .number (.integer n) => .ok ((Double.ofRat? (n : Rat)).getD default)
    | j => j.mismatch .number
  encode d := .number (.real d)

/-- An integer of 32 bits without sign. -/
def word : Codec UInt32 where
  decode _ j :=
    match j with
    | .number (.integer n) =>
      if 0 ≤ n ∧ n < 0x100000000 then .ok (UInt32.ofNat n.toNat) else refuse (.wrongValue (.integer n) .word)
    | j => j.mismatch .word
  encode w := .number (.integer (w.toNat : Int))

/-! ## Lists and optional values -/

def list {α : Type} (c : Codec α) : Codec (List α) where
  decode p j :=
    match j with
    | .array items close => do
      let q ← p.enter
      let values ← items.mapM (c.decode q)
      ReadError.check close.fault?
      .ok values
    | j => j.mismatch .sequence
  encode values := .list (values.map c.encode)

/-- A value that may be `null`. -/
def option {α : Type} (c : Codec α) : Codec (Option α) where
  decode p j :=
    match j with
    | .null => .ok none
    | .broken ⟨.null, onRead, _⟩ => .error (.form onRead)
    | j => (c.decode p j).map some
  encode value? :=
    match value? with
    | none => .null
    | some value => c.encode value

/-! ## Names -/

/-- The value of a name among the known ones. -/
def lookUp {α : Type} (all : List (String × α)) (name : String) : Except ReadError α :=
  match all.lookup name with
  | some value => .ok value
  | none => refuse (.unknownVariant name (all.map (·.1)))

/-- The value beside a name that is the key of an object with one member: nothing more is said there, so it is `null`. In
a value that is held an object without members says nothing too. -/
def unitValue : Place → Json → Except ReadError Unit
  | _, .null => .ok ()
  | .held, .object [] _ => .ok ()
  | _, j => j.mismatch .unit

/-- A name straight from the text. What is neither a text nor an object is a fault of form. -/
def nameInText {α : Type} (all : List (String × α)) (p : Place) : Json → Except ReadError α
  | .text s => lookUp all s
  | .broken ⟨.text, onRead, _⟩ => .error (.form onRead)
  | .broken ⟨.nothing, onRead, _⟩ => .error (.form onRead)
  | .object members close => do
    let q ← p.enter
    match members with
    | [] => .error (.form (close.fault?.getD .malformed))
    | (k, v) :: more => do
      let value ← lookUp all (← k.key)
      unitValue q v
      if more.isEmpty then ReadError.check close.endFault? else .error (.form .malformed)
      .ok value
  | _ => .error (.form .malformed)

/-- A name in a value that is held. -/
def nameHeld {α : Type} (all : List (String × α)) : Json → Except ReadError α
  | .text s => lookUp all s
  | .object [(k, v)] _ => do
    let value ← lookUp all (← k.key)
    unitValue .held v
    .ok value
  | .object _ _ => refuse (.wrongValue .map .singleKey)
  | j => j.mismatch .textOrMap

/-- Values written as one of the names in `all`. -/
def names {α : Type} (all : List (String × α)) (nameOf : α → String) : Codec α where
  decode p j :=
    match p with
    | .streamed _ => nameInText all p j
    | .held => nameHeld all j
  encode value := .text (nameOf value)

end Codec

/-! ## Whole texts -/

/-- Reads a text that holds one value and nothing after it. -/
def Codec.ofText {α : Type} (c : Codec α) (s : String) : Except ReadError α := do
  let doc := Json.read s
  let value ← c.decode (.streamed Json.nestingLimit) doc.root
  if doc.trailing then .error (.form .malformed) else .ok value

/-- The compact text of a value. -/
def Codec.toText {α : Type} (c : Codec α) (value : α) : String := (c.encode value).print

end SceneScript
