/-
  SceneScript.Json.Record — records as objects or as arrays.

  A record is described by its fields, in order. In an object its members may stand in
  any order and members of other names are passed over, but a name may not come twice.
  In an array the values stand in the order of the fields. Either way a field that is
  not there keeps the value of the `blank` record, unless it is required.

  Reading a member gives the change that puts its value into a record. The changes are
  kept in slots, one for each field, and made at the end in the order of the fields, so
  the order of the members in the text does not matter.
-/
import SceneScript.Json.Codec

namespace SceneScript

/-- A field of a record `ρ`. -/
structure Field (ρ : Type) where
  name : String
  isRequired : Bool
  /-- The change that a value of the field makes. -/
  decode : Place → Json → Except ReadError (ρ → ρ)
  /-- The value of the field, unless it is left out in writing. -/
  encode : ρ → Option Json

/-- How records of a type are called, what they hold at first, and their fields. -/
structure Record (ρ : Type) where
  title : String
  blank : ρ
  fields : List (Field ρ)

namespace Field

variable {ρ α : Type}

/-- A field that must be there. -/
def required (name : String) (c : Codec α) (get : ρ → α) (set : ρ → α → ρ) : Field ρ where
  name := name
  isRequired := true
  decode p j := do
    let value ← c.decode p j
    .ok fun r => set r value
  encode r := some (c.encode (get r))

/-- A field that may be missing and is left out in writing where `omits` says so. -/
def omitted (name : String) (c : Codec α) (get : ρ → α) (set : ρ → α → ρ) (omits : α → Bool) : Field ρ where
  name := name
  isRequired := false
  decode p j := do
    let value ← c.decode p j
    .ok fun r => set r value
  encode r := if omits (get r) then none else some (c.encode (get r))

/-- A field that may be missing and is always written. -/
def written (name : String) (c : Codec α) (get : ρ → α) (set : ρ → α → ρ) : Field ρ :=
  omitted name c get set fun _ => false

/-- A field that may be missing or `null`, and is left out where it has no value. -/
def maybe (name : String) (c : Codec α) (get : ρ → Option α) (set : ρ → Option α → ρ) : Field ρ :=
  omitted name c.option get set Option.isNone

end Field

namespace Record

variable {ρ : Type}

/-- The change read for each field, if its member has come up. -/
abbrev Slots (ρ : Type) := List (Option (ρ → ρ))

/-- Reads the value of a member into the slot of the field of that name; none when no field has it. A second value for one
    field is refused before it is looked at. -/
def put? (p : Place) (name : String) (v : Json) : List (Field ρ) → Slots ρ → Option (Except ReadError (Slots ρ))
  | f :: fs, slot :: slots =>
    if f.name = name then
      match slot with
      | some _ => some (refuse (.duplicateField name))
      | none => some do
        let change ← f.decode p v
        .ok (some change :: slots)
    else (put? p name v fs slots).map fun rest => rest.map (slot :: ·)
  | _, _ => none

/-- Reads the members of an object. -/
def readMembers (fields : List (Field ρ)) (p : Place) : List (Json × Json) → Slots ρ → Except ReadError (Slots ρ)
  | [], slots => .ok slots
  | (k, v) :: rest, slots => do
    let name ← k.key
    match put? p name v fields slots with
    | some result => readMembers fields p rest (← result)
    | none => do
      p.pass v
      readMembers fields p rest slots

/-- Refuses elements past the last field. Straight from the text they are a fault of form. -/
def refuseMore (p : Place) (fieldCount more : Nat) : Except ReadError Unit :=
  match p with
  | .streamed _ => .error (.form .malformed)
  | .held => refuse (.wrongLength (fieldCount + more) (.elements fieldCount))

/-- Reads the elements of an array, from the field at `index` on. -/
def readItems (title : String) (count : Nat) (p : Place) :
    Nat → List (Field ρ) → List Json → Close → Except ReadError (Slots ρ)
  | _, [], [], close => do
    ReadError.check close.endFault?
    .ok []
  | index, [], more, _ => do
    refuseMore p index more.length
    .ok []
  | index, f :: fs, j :: js, close => do
    let change ← f.decode p j
    let slots ← readItems title count p (index + 1) fs js close
    .ok (some change :: slots)
  | index, f :: fs, [], close => do
    ReadError.check close.fault?
    if f.isRequired then refuse (.wrongLength index (.elementsOf title count))
    else
      let slots ← readItems title count p (index + 1) fs [] close
      .ok (none :: slots)

/-- Makes the changes in the order of the fields; the first required field without one is missing. -/
def fill : List (Field ρ) → Slots ρ → ρ → Except ReadError ρ
  | f :: fs, slot :: slots, r =>
    match slot with
    | some change => fill fs slots (change r)
    | none => if f.isRequired then refuse (.missingField f.name) else fill fs slots r
  | _, _, r => .ok r

/-- Reads a record. -/
def decode (record : Record ρ) (p : Place) (j : Json) : Except ReadError ρ :=
  match j with
  | .object members close => do
    let q ← p.enter
    let slots ← readMembers record.fields q members (record.fields.map fun _ => none)
    ReadError.check close.fault?
    fill record.fields slots record.blank
  | .array items close => do
    let q ← p.enter
    let slots ← readItems record.title record.fields.length q 0 record.fields items close
    fill record.fields slots record.blank
  | j => j.mismatch (.record record.title)

/-- The members that are written, in the order of the fields. -/
def members (record : Record ρ) (r : ρ) : List (String × Json) :=
  record.fields.filterMap fun f => (f.encode r).map fun j => (f.name, j)

/-- Records are written as objects. -/
def codec (record : Record ρ) : Codec ρ where
  decode := record.decode
  encode r := .record (record.members r)

end Record

end SceneScript
