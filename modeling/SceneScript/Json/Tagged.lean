/-
  SceneScript.Json.Tagged — values that say which of several kinds they are.

  A tagged value is an object with a member `type`, anywhere in it, or an array whose
  first element is the tag. The tag is read where it stands; all else is read whole and
  held until the value is closed, and then read as the content of the variant. So every
  fault of form in a tagged value comes before any objection to its content, the tag's
  own apart.

  In a value that is itself held a tag may also be the number of the variant.
-/
import SceneScript.Json.Record

namespace SceneScript

/-- One kind of a tagged value: its name, and how the rest of the value is read. -/
structure Variant (α : Type) where
  name : String
  decode : Json → Except ReadError α

/-- A type of tagged values. -/
structure Tagged (α : Type) where
  title : String
  variants : List (Variant α)
  /-- The name of a value's kind, and the members that follow the tag. -/
  encode : α → String × List (String × Json)

namespace Variant

variable {α ρ : Type}

/-- A kind whose content is a record. -/
def ofRecord (name : String) (record : Record ρ) (make : ρ → α) : Variant α where
  name := name
  decode j := (record.decode .held j).map make

/-- A kind without content. Members are passed over, elements are too many. -/
def plain (name : String) (value : α) : Variant α where
  name := name
  decode j :=
    match j with
    | .array (item :: items) _ => refuse (.wrongLength (item :: items).length (.elements 0))
    | _ => .ok value

end Variant

namespace Tagged

variable {α : Type}

/-- The member that holds the tag. -/
def tagName : String := "type"

/-- Reads a tag. -/
def readTag (t : Tagged α) (p : Place) (j : Json) : Except ReadError (Variant α) :=
  match p, j with
  | _, .text s =>
    match t.variants.find? fun v => v.name == s with
    | some v => .ok v
    | none => refuse (.unknownVariant s (t.variants.map (·.name)))
  | .held, .number (.integer n) =>
    if n < 0 then j.mismatch .variantName
    else
      match t.variants[n.toNat]? with
      | some v => .ok v
      | none => refuse (.wrongValue (.integer n) (.variantIndex t.variants.length))
  | _, j => j.mismatch .variantName

/-- Reads the members of an object up to its end: the tag, and the other members as they are held. -/
def readMembers (t : Tagged α) (p : Place) :
    Option (Variant α) → List (Json × Json) → Except ReadError (Option (Variant α) × List (Json × Json))
  | tag?, [] => .ok (tag?, [])
  | tag?, (k, v) :: rest => do
    let name ← k.key
    if name = tagName then
      match tag? with
      | some _ => refuse (.duplicateField tagName)
      | none => do
        let tag ← t.readTag p v
        readMembers t p (some tag) rest
    else do
      p.hold v
      let (tag?, held) ← readMembers t p tag? rest
      .ok (tag?, (k, v) :: held)

/-- Reads a tagged value. -/
def decode (t : Tagged α) (p : Place) (j : Json) : Except ReadError α :=
  match j with
  | .object members close => do
    let q ← p.enter
    let (tag?, held) ← t.readMembers q none members
    ReadError.check close.fault?
    match tag? with
    | some tag => tag.decode (.object held .closed)
    | none => refuse (.missingField tagName)
  | .array items close => do
    let q ← p.enter
    match items with
    | [] => do
      ReadError.check close.fault?
      refuse (.missingField tagName)
    | first :: held => do
      let tag ← t.readTag q first
      held.forM q.hold
      ReadError.check close.fault?
      tag.decode (.array held .closed)
  | j => j.mismatch (.tagged t.title)

/-- Tagged values are written as objects, the tag first. -/
def codec (t : Tagged α) : Codec α where
  decode := t.decode
  encode value :=
    let (name, members) := t.encode value
    .record ((tagName, .text name) :: members)

end Tagged

end SceneScript
