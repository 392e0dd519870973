/-
  SceneScript.Proofs.ObjectPlaces — an object reads the same in the world and in a group.

  An object of the world is read straight from the text, as far as its tag and the form of
  its members go; an object in a group has been held with the outermost group before it is
  looked at, and is read by a lower level of `SceneObject.codecTo`. Three things could tell
  the two apart, and only the third does:
  - what is held must be whole and no deeper than the room that is left; so must the
    members of an object in the world (`Tagged.Opens.held`, `Tagged.Opens.streamed`);
  - a level may run out; it never does on a value that the nesting limit lets through
    (`SceneObject.decode_of_depth_lt`);
  - a tag may be a number in what is held, and it then stands for the name of the kind with
    this number (`Tagged.decode_retagged`). In the world no number is a tag.

  The world of a scene and the children of a group are lists of such objects, read one by
  one (`world_field_iff`, `children_field_iff`). `SceneObject.object_reads_alike` puts all
  of it together, for every value that a text can hold, sound or broken.
-/
import SceneScript.Scene.Model
import SceneScript.Proofs.ReaderAgreement

namespace SceneScript

/-! ## Tags -/

namespace Json

/-- The members with another tag in place of the first. -/
def retagFirst (tag : Json) : List (Json × Json) → List (Json × Json)
  | [] => []
  | m :: rest => if Tagged.isContent m then m :: retagFirst tag rest else (m.1, tag) :: rest

/-- The value with another tag. -/
def retagged : Json → Json → Json
  | .object members close, tag => .object (retagFirst tag members) close
  | .array (_ :: items) close, tag => .array (tag :: items) close
  | j, _ => j

variable {members : List (Json × Json)} {tag tag' v : Json} {name : String} {rest : List (Json × Json)} {room : Nat}

theorem retagFirst_tag : retagFirst tag ((.text Tagged.tagName, v) :: rest) = (.text Tagged.tagName, tag) :: rest := by
  have htag : Tagged.isContent (.text Tagged.tagName, v) = false := by simp [Tagged.isContent, valueOf?]
  rw [retagFirst, htag]
  rfl

theorem retagFirst_other {m : Json × Json} (h : Tagged.isContent m = true) :
    retagFirst tag (m :: rest) = m :: retagFirst tag rest := by
  rw [retagFirst, if_pos h]

theorem valuesOf_tag_cons {m : Json × Json} (h : Tagged.isContent m = true) :
    valuesOf Tagged.tagName (m :: rest) = valuesOf Tagged.tagName rest :=
  List.filterMap_cons_none (Option.isNone_iff_eq_none.mp h)

/-- A scalar in place of a scalar makes no difference to the form. -/
theorem membersReadFault_retagFirst (htag : (valuesOf Tagged.tagName members).head? = some tag)
    (heq : readFault room tag = readFault room tag') :
    membersReadFault room (retagFirst tag' members) = membersReadFault room members := by
  induction members with
  | nil => rfl
  | cons m rest ih =>
    rcases Tagged.tag_or_content m with ⟨v, rfl⟩ | hm
    · rw [valuesOf_cons_self] at htag
      obtain rfl := Option.some.inj htag
      rw [retagFirst_tag, membersReadFault, membersReadFault, heq]
    · rw [valuesOf_tag_cons hm] at htag
      rw [retagFirst_other hm, membersReadFault, membersReadFault, ih htag]

theorem readFault_retagged {j : Json} (htag : j.tag? = some tag) (heq : ∀ room, readFault room tag = readFault room tag') :
    readFault room (j.retagged tag') = readFault room j := by
  cases j with
  | object members close =>
    cases room with
    | zero => rfl
    | succ room => rw [retagged, readFault, readFault, membersReadFault_retagFirst htag (heq room)]
  | array items close =>
    cases items with
    | nil => cases htag
    | cons first items =>
      obtain rfl := Option.some.inj htag
      cases room with
      | zero => rfl
      | succ room => rw [retagged, readFault, readFault, itemsReadFault, itemsReadFault, heq]
  | _ => cases htag

end Json

namespace Tagged

variable {α : Type} {t : Tagged α} {p q : Place} {j tag tag' content : Json} {members : List (Json × Json)}
  {kind : Variant α} {room room' : Nat} {a : α}

/-- A tagged value without a number for its tag reads the same straight from the text and held. -/
theorem decode_streamed_iff_held (htag : ∀ n, j.tag? ≠ some (.number n)) (hroom : j.depth ≤ room)
    (hroom' : j.depth ≤ room') :
    t.decode (.streamed room) j = .ok a ↔ (Place.streamed room').hold j = .ok () ∧ t.decode .held j = .ok a := by
  constructor
  · intro h
    obtain ⟨kind, content, hopens, hkind⟩ := decode_eq_ok_iff.mp h
    obtain ⟨hhold, hheld⟩ := hopens.held hroom'
    exact ⟨hhold, decode_eq_ok_iff.mpr ⟨kind, content, hheld, hkind⟩⟩
  · rintro ⟨hhold, h⟩
    obtain ⟨kind, content, hopens, hkind⟩ := decode_eq_ok_iff.mp h
    exact decode_eq_ok_iff.mpr ⟨kind, content, hopens.streamed hhold htag hroom, hkind⟩

/-- Straight from the text no number is a tag. -/
theorem decode_streamed_number {n : Numeral} (htag : j.tag? = some (.number n)) : t.decode (.streamed room) j ≠ .ok a := by
  intro h
  obtain ⟨kind, content, hopens, -⟩ := decode_eq_ok_iff.mp h
  obtain ⟨q, tag, hq, htag', hread⟩ := hopens.reads_tag
  obtain ⟨inner, -, rfl⟩ := enter_streamed hq
  obtain rfl := Option.some.inj (htag.symm.trans htag')
  obtain ⟨s, hs⟩ := readTag_streamed hread
  cases hs

/-- In what is held a number is a tag if it is the number of a kind. -/
theorem decode_held_number {n : Numeral} (htag : j.tag? = some (.number n)) (h : t.decode .held j = .ok a) :
    ∃ i : Nat, n = .integer i ∧ i < t.variants.length := by
  obtain ⟨kind, content, hopens, -⟩ := decode_eq_ok_iff.mp h
  obtain ⟨q, tag, hq, htag', hread⟩ := hopens.reads_tag
  obtain rfl := Except.ok.inj hq
  obtain rfl := Option.some.inj (htag.symm.trans htag')
  rcases readTag_cases hread with ⟨s, hs⟩ | ⟨-, i, hi⟩
  · cases hs
  · obtain rfl := Json.number.inj hi
    exact ⟨i, rfl, (List.getElem?_eq_some_iff.mp (readTag_index_eq_ok_iff.mp hread)).1⟩

/-! ## Another tag for the same kind -/

theorem readMembers_retagFirst (htag : (Json.valuesOf tagName members).head? = some tag)
    (heq : t.readTag p tag = t.readTag p tag') :
    t.readMembers p none (Json.retagFirst tag' members) = t.readMembers p none members := by
  induction members with
  | nil => rfl
  | cons m rest ih =>
    rcases Tagged.tag_or_content m with ⟨v, rfl⟩ | hm
    · rw [Json.valuesOf_cons_self] at htag
      obtain rfl := Option.some.inj htag
      rw [Json.retagFirst_tag, readMembers_tag, readMembers_tag, Option.elim_none, Option.elim_none, heq]
    · rw [Json.valuesOf_tag_cons hm] at htag
      obtain ⟨k, v⟩ := m
      rw [Json.retagFirst_other hm]
      cases k with
      | text name =>
        have hname := isContent_text_iff.mp hm
        rw [readMembers_other hname, readMembers_other hname, ih htag]
      | _ => rfl

/-- Two tags that are read alike may stand for each other. -/
theorem decode_retagged (htag : j.tag? = some tag) (heq : ∀ q, p.enter = .ok q → t.readTag q tag = t.readTag q tag') :
    t.decode p (j.retagged tag') = t.decode p j := by
  cases j with
  | object members close =>
    refine bind_congr_of_ok fun q hq => ?_
    rw [readMembers_retagFirst htag (heq q hq)]
  | array items close =>
    cases items with
    | nil => rfl
    | cons first items =>
      obtain rfl := Option.some.inj htag
      refine bind_congr_of_ok fun q hq => ?_
      simp only [heq q hq]
  | _ => rfl

/-- The number of a kind is read as its name is. -/
theorem readTag_index {i : Nat} (hn : (t.variants.map (·.name)).Nodup) (hkind : t.variants[i]? = some kind) :
    t.readTag .held (.number (.integer i)) = t.readTag .held (.text kind.name) := by
  have hfind : t.variants.find? (fun v => v.name == kind.name) = some kind := by
    have hmem := List.mem_of_getElem? hkind
    cases hfound : t.variants.find? (fun v => v.name == kind.name) with
    | none => exact absurd (beq_self_eq_true kind.name) (List.find?_eq_none.mp hfound kind hmem)
    | some found =>
      have hname : found.name = kind.name := by simpa using List.find?_some hfound
      rw [List.inj_on_of_nodup_map hn (List.mem_of_find?_eq_some hfound) hmem hname]
  rw [readTag_index_eq_ok_iff.mpr hkind, readTag_text_eq_ok_iff.mpr hfind]

end Tagged

/-! ## Objects -/

namespace SceneObject

/-- Reads an object of the world: the scene and its list of objects are open around it. -/
def readInWorld (v : Json) : Except ReadError SceneObject := codec.decode (.streamed (Json.nestingLimit - 2)) v

/-- Reads an object of a group that stands in so many other groups. It is held with the outermost of them, when the scene,
    the list of objects and, for each group, the group and its list are open around it. -/
def readInGroup (outer : Nat) (v : Json) : Except ReadError SceneObject := do
  (Place.streamed (Json.nestingLimit - 4 - 2 * outer)).hold v
  (codecTo (Json.nestingLimit - 1 - outer)).decode .held v

/-- The names of the kinds of objects. -/
def kindNames : List String := ["group", "image", "spritesheet", "atlas", "button", "tile_sprite", "bitmap_text"]

theorem kindNames_eq (c : Codec SceneObject) : (taggedWith c).variants.map (·.name) = kindNames := rfl

theorem readInGroup_eq_ok_iff {outer : Nat} {v : Json} {o : SceneObject} :
    readInGroup outer v = .ok o
      ↔ (Place.streamed (Json.nestingLimit - 4 - 2 * outer)).hold v = .ok () ∧
        (codecTo (Json.nestingLimit - 1 - outer)).decode .held v = .ok o := by
  rw [readInGroup, bind_eq_ok_iff]
  exact ⟨fun ⟨_, hhold, hread⟩ => ⟨hhold, hread⟩, fun ⟨hhold, hread⟩ => ⟨(), hhold, hread⟩⟩

/-- A whole list is read object by object. -/
def ReadsEach (read : Json → Except ReadError SceneObject) (j : Json) (os : List SceneObject) : Prop :=
  ∃ items, j = .array items .closed ∧ List.Forall₂ (fun v o => read v = .ok o) items os

theorem readsWorld_iff {j : Json} {os : List SceneObject} :
    codec.list.decode (.streamed (Json.nestingLimit - 1)) j = .ok os ↔ ReadsEach readInWorld j os := by
  rw [Codec.list_eq_ok_iff]
  constructor
  · rintro ⟨items, q, rfl, hq, hitems⟩
    obtain rfl := Except.ok.inj hq
    exact ⟨items, rfl, hitems⟩
  · rintro ⟨items, rfl, hitems⟩
    exact ⟨items, _, rfl, rfl, hitems⟩

/-- The list of a group may stand in other groups, and then all of it is held. -/
theorem readsChildren_iff {outer : Nat} (houter : 2 * outer + 4 ≤ Json.nestingLimit) {j : Json} {os : List SceneObject} :
    (Place.streamed (Json.nestingLimit - 3 - 2 * outer)).hold j = .ok () ∧
        (codecTo (Json.nestingLimit - 1 - outer)).list.decode .held j = .ok os
      ↔ ReadsEach (readInGroup outer) j os := by
  have hroom : Json.nestingLimit - 3 - 2 * outer = Json.nestingLimit - 4 - 2 * outer + 1 := by omega
  rw [hroom, Place.hold_eq_ok_iff, Codec.list_eq_ok_iff]
  simp only [ReadsEach, readInGroup_eq_ok_iff, List.forall₂_and_left, Place.hold_eq_ok_iff]
  constructor
  · rintro ⟨hhold, items, q, rfl, hq, hitems⟩
    obtain rfl := Except.ok.inj hq
    exact ⟨items, rfl, (Json.readFault_array_eq_none_iff.mp hhold).1, hitems⟩
  · rintro ⟨items, rfl, hhold, hitems⟩
    exact ⟨Json.readFault_array_eq_none_iff.mpr ⟨hhold, rfl⟩, items, _, rfl, rfl, hitems⟩

/-- A scene reads its world so, with the scene open around the list. -/
theorem world_field_iff : ∃ f ∈ Model.record.fields, f.name = "world" ∧ ∀ j change,
    f.decode (.streamed (Json.nestingLimit - 1)) j = .ok change
      ↔ ∃ os, ReadsEach readInWorld j os ∧ change = fun m => { m with world := os } := by
  refine ⟨_, List.mem_of_getElem? (i := 1) rfl, rfl, fun j change => ?_⟩
  rw [Field.written, Field.omitted_eq_ok_iff]
  simp only [readsWorld_iff]

/-- A group in so many others reads its children so. -/
theorem children_field_iff {outer : Nat} (houter : 2 * outer + 4 ≤ Json.nestingLimit) :
    ∃ f ∈ (Group.recordWith (codecTo (Json.nestingLimit - 1 - outer))).fields, f.name = "children" ∧ ∀ j change,
      (Place.streamed (Json.nestingLimit - 3 - 2 * outer)).hold j = .ok () ∧ f.decode .held j = .ok change
        ↔ ∃ os, ReadsEach (readInGroup outer) j os ∧ change = fun g => { g with children := os } := by
  refine ⟨_, List.mem_of_getElem? (i := 1) rfl, rfl, fun j change => ?_⟩
  rw [Field.written, Field.omitted_eq_ok_iff]
  simp only [← readsChildren_iff houter, ← exists_and_left, and_assoc]

theorem readInGroup_retagged {outer i : Nat} {name : String} {v : Json} (htag : v.tag? = some (.number (.integer i)))
    (hdepth : 2 * outer + 4 ≤ Json.nestingLimit) (hname : kindNames[i]? = some name) :
    readInGroup outer (v.retagged (.text name)) = readInGroup outer v := by
  have hlimit : Json.nestingLimit = 127 := rfl
  obtain ⟨n, hn⟩ := Nat.exists_eq_add_of_le' (show 1 ≤ Json.nestingLimit - 1 - outer by omega)
  have hkinds := kindNames_eq (codecTo n)
  obtain ⟨kind, hkind, rfl⟩ : ∃ kind, (taggedWith (codecTo n)).variants[i]? = some kind ∧ kind.name = name := by
    rw [← hkinds, List.getElem?_map] at hname
    exact Option.map_eq_some_iff.mp hname
  have hform : ∀ room, Json.readFault room (.number (.integer i)) = Json.readFault room (.text kind.name) := fun room => by
    cases room <;> rfl
  have hread : (codecTo (n + 1)).decode .held (v.retagged (.text kind.name)) = (codecTo (n + 1)).decode .held v := by
    refine Tagged.decode_retagged htag fun q hq => ?_
    obtain rfl := Except.ok.inj hq
    exact Tagged.readTag_index (hkinds ▸ by decide) hkind
  rw [readInGroup, readInGroup, hn, hread, Place.hold, Place.hold, Json.readFault_retagged htag hform]

/-- The world of a scene and the children of a group are read object by object. An object whose tag is not a number reads
    the same in the world and in a group, however deep the group stands. With a number for its tag it is never an object
    of the world; in a group the number of a kind stands for the name of the kind, and no other number is a tag. -/
theorem object_reads_alike (v : Json) (outer : Nat) (hdepth : v.depth + 2 * outer + 4 ≤ Json.nestingLimit) :
    (∃ f ∈ Model.record.fields, f.name = "world" ∧ ∀ j change,
      f.decode (.streamed (Json.nestingLimit - 1)) j = .ok change
        ↔ ∃ os, ReadsEach readInWorld j os ∧ change = fun m => { m with world := os }) ∧
    (∃ f ∈ (Group.recordWith (codecTo (Json.nestingLimit - 1 - outer))).fields, f.name = "children" ∧ ∀ j change,
      (Place.streamed (Json.nestingLimit - 3 - 2 * outer)).hold j = .ok () ∧ f.decode .held j = .ok change
        ↔ ∃ os, ReadsEach (readInGroup outer) j os ∧ change = fun g => { g with children := os }) ∧
    ((∀ n, v.tag? ≠ some (.number n)) → ∀ o, readInWorld v = .ok o ↔ readInGroup outer v = .ok o) ∧
    (∀ i : Nat, v.tag? = some (.number (.integer i)) →
      (∀ o, readInWorld v ≠ .ok o) ∧
      (∀ name, kindNames[i]? = some name → readInGroup outer v = readInGroup outer (v.retagged (.text name))) ∧
      (kindNames[i]? = none → ∀ o, readInGroup outer v ≠ .ok o)) ∧
    (∀ n, v.tag? = some (.number n) → (∀ i : Nat, n ≠ .integer i) →
      ∀ o, readInWorld v ≠ .ok o ∧ readInGroup outer v ≠ .ok o) := by
  have hlimit : Json.nestingLimit = 127 := rfl
  obtain ⟨n, hn⟩ := Nat.exists_eq_add_of_le' (show 1 ≤ Json.nestingLimit - 1 - outer by omega)
  have hindex : ∀ {m o}, v.tag? = some (.number m) → readInGroup outer v = .ok o →
      ∃ i : Nat, m = .integer i ∧ i < kindNames.length := by
    intro m o htag h
    have hread := (readInGroup_eq_ok_iff.mp h).2
    rw [hn] at hread
    exact Tagged.decode_held_number htag hread
  refine ⟨world_field_iff, children_field_iff (by omega), fun htag o => ?_,
    fun i htag => ⟨fun o => Tagged.decode_streamed_number htag, fun name hname => ?_, ?_⟩, ?_⟩
  · rw [readInGroup_eq_ok_iff]
    have hplaces : readInWorld v = .ok o
        ↔ (Place.streamed (Json.nestingLimit - 4 - 2 * outer)).hold v = .ok () ∧ levels.decode .held v = .ok o :=
      Tagged.decode_streamed_iff_held htag (by omega) (by omega)
    have hlevels : levels.decode .held v = .ok o ↔ (codecTo (Json.nestingLimit - 1 - outer)).decode .held v = .ok o :=
      ⟨fun h => decode_of_depth_lt h (by omega), fun h => decode_of_depth_lt h (by omega)⟩
    rw [hplaces, hlevels]
  · exact (readInGroup_retagged htag (by omega) hname).symm
  · intro hnone o h
    obtain ⟨i', hi, hlt⟩ := hindex htag h
    obtain rfl := Int.ofNat.inj (Numeral.integer.inj hi)
    rw [List.getElem?_eq_getElem hlt] at hnone
    cases hnone
  · intro m htag hm o
    refine ⟨Tagged.decode_streamed_number htag, fun h => ?_⟩
    obtain ⟨i, hi, -⟩ := hindex htag h
    exact hm i hi

/-- A picture, with its tag between its members. -/
def heroImage (tag : Json) : Json :=
  .record [("info", .record [("name", .text "hero")]), ("type", tag),
    ("texture", .record [("type", .text "image"), ("key", .text "hero")])]

/-- With the number of its kind for a tag the picture is refused in the world, and in a group inside a group it is the
    sprite that it is in the world with the name of its kind. -/
theorem a_numbered_image_needs_a_group :
    (heroImage (.number (.integer 1))).depth + 2 * 1 + 4 ≤ Json.nestingLimit ∧
    (∀ o, readInWorld (heroImage (.number (.integer 1))) ≠ .ok o) ∧
    readInGroup 1 (heroImage (.number (.integer 1))) = readInGroup 1 (heroImage (.text "image")) ∧
    readInWorld (heroImage (.text "image")) = .ok (.sprite .image { info := .named "hero", texture := .image "hero" }) ∧
    readInGroup 1 (heroImage (.text "image"))
      = .ok (.sprite .image { info := .named "hero", texture := .image "hero" }) := by
  obtain ⟨-, -, -, hnumbered, -⟩ := object_reads_alike (heroImage (.number (.integer 1))) 1 (by decide)
  obtain ⟨-, -, hnamed, -⟩ := object_reads_alike (heroImage (.text "image")) 1 (by decide)
  obtain ⟨hworld, hgroup, -⟩ := hnumbered 1 rfl
  have hread : readInWorld (heroImage (.text "image"))
      = .ok (.sprite .image { info := .named "hero", texture := .image "hero" }) := rfl
  refine ⟨by decide, hworld, hgroup "image" rfl, hread, (hnamed ?_ _).mp hread⟩
  intro n htag
  cases htag

end SceneObject

end SceneScript
