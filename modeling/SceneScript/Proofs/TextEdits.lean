/-
  SceneScript.Proofs.TextEdits — edits of a scene's text that its reader does not see.

  Two edits of a layout. In `Reordered` the members of one object change places, with their
  values and the blanks around them; it may be any object, also one that is not read but
  passed over. In `Inserted` one object gets a member more. Neither makes an illegal layout
  of a legal one, so the outcome is a text again.

  Proved: a text that reads as a scene has a layout, and every text that one of the edits
  makes of it reads as the same scene (`edited_text_reads_alike`). A reordering is always
  allowed; an insertion is where the value is `Extended` by it, that is where the key of the
  new member is unknown at its place.
-/
import SceneScript.Script.Generation
import SceneScript.Proofs.UnknownMembers
import SceneScript.Proofs.JsonLayout

namespace SceneScript

open Json (Lays KeyText Layout Blank)

namespace Json.Layout

/-- One object has its members in another order. -/
inductive Reordered : Layout → Layout → Prop
  | members {inner : List Char} {members members' : List Member} : members.Perm members' →
      Reordered (.object inner members) (.object inner members')
  | item {inner before after : List Char} {front back : List Item} {l l' : Layout} : Reordered l l' →
      Reordered (.array inner (front ++ (before, l, after) :: back)) (.array inner (front ++ (before, l', after) :: back))
  | member {inner before after : List Char} {front back : List Member} {key : KeyText} {l l' : Layout} : Reordered l l' →
      Reordered (.object inner (front ++ (key, before, l, after) :: back))
        (.object inner (front ++ (key, before, l', after) :: back))

/-- One object has one member more, which is written as it should be. -/
inductive Inserted : Layout → Layout → Prop
  | here {inner before after : List Char} {front back : List Member} {key : KeyText} {l : Layout} : key.Legal →
      Blank before → l.Legal → Blank after →
      Inserted (.object inner (front ++ back)) (.object inner (front ++ (key, before, l, after) :: back))
  | item {inner before after : List Char} {front back : List Item} {l l' : Layout} : Inserted l l' →
      Inserted (.array inner (front ++ (before, l, after) :: back)) (.array inner (front ++ (before, l', after) :: back))
  | member {inner before after : List Char} {front back : List Member} {key : KeyText} {l l' : Layout} : Inserted l l' →
      Inserted (.object inner (front ++ (key, before, l, after) :: back))
        (.object inner (front ++ (key, before, l', after) :: back))

variable {l l' : Layout} {inner before after : List Char}

theorem legal_array_iff {items : List Item} : (array inner items).Legal ↔
    Blank inner ∧ ∀ item ∈ items, Blank item.1 ∧ item.2.1.Legal ∧ Blank item.2.2 := by
  rw [Legal, itemsLegal_iff]

theorem legal_object_iff {members : List Member} : (object inner members).Legal ↔
    Blank inner ∧ ∀ m ∈ members, m.1.Legal ∧ Blank m.2.1 ∧ m.2.2.1.Legal ∧ Blank m.2.2.2 := by
  rw [Legal, membersLegal_iff]

theorem legal_item_replace {front back : List Item} (h : l.Legal → l'.Legal)
    (hl : (array inner (front ++ (before, l, after) :: back)).Legal) :
    (array inner (front ++ (before, l', after) :: back)).Legal := by
  simp only [legal_array_iff, List.forall_mem_append, List.forall_mem_cons] at hl ⊢
  obtain ⟨hinner, hfront, ⟨hbefore, hl, hafter⟩, hback⟩ := hl
  exact ⟨hinner, hfront, ⟨hbefore, h hl, hafter⟩, hback⟩

theorem legal_member_replace {front back : List Member} {key : KeyText} (h : l.Legal → l'.Legal)
    (hl : (object inner (front ++ (key, before, l, after) :: back)).Legal) :
    (object inner (front ++ (key, before, l', after) :: back)).Legal := by
  simp only [legal_object_iff, List.forall_mem_append, List.forall_mem_cons] at hl ⊢
  obtain ⟨hinner, hfront, ⟨hkey, hbefore, hl, hafter⟩, hback⟩ := hl
  exact ⟨hinner, hfront, ⟨hkey, hbefore, h hl, hafter⟩, hback⟩

theorem Reordered.legal (h : Reordered l l') : l.Legal → l'.Legal := by
  induction h with
  | members hperm =>
    simp only [legal_object_iff]
    exact fun hl => ⟨hl.1, fun m hm => hl.2 m (hperm.mem_iff.mpr hm)⟩
  | item _ ih => exact legal_item_replace ih
  | member _ ih => exact legal_member_replace ih

theorem Inserted.legal (h : Inserted l l') : l.Legal → l'.Legal := by
  induction h with
  | here hkey hbefore hmember hafter =>
    simp only [legal_object_iff, List.forall_mem_append, List.forall_mem_cons]
    exact fun hl => ⟨hl.1, hl.2.1, ⟨hkey, hbefore, hmember, hafter⟩, hl.2.2⟩
  | item _ ih => exact legal_item_replace ih
  | member _ ih => exact legal_member_replace ih

/-- The members of the value follow those of the text. -/
theorem Reordered.permuted (h : Reordered l l') : Permuted l.value l'.value := by
  induction h with
  | members hperm =>
    simp only [value, memberValues_eq_map]
    exact .members (hperm.map _)
  | item _ ih =>
    simp only [value, itemValues_eq_map, List.map_append, List.map_cons]
    exact .item ih
  | member _ ih =>
    simp only [value, memberValues_eq_map, List.map_append, List.map_cons]
    exact .member ih

theorem Legal.lays (h : l.Legal) : Lays (String.ofList l.text) l :=
  ⟨h, [], [], .nil, .nil, by simp⟩

end Json.Layout

/-! ## Reading texts -/

namespace Codec

variable {α : Type} {c : Codec α} {a : α} {t t' : String} {l l' : Layout}

theorem ofText_eq_ok_iff : c.ofText t = .ok a
    ↔ c.decode (.streamed Json.nestingLimit) (Json.read t).root = .ok a ∧ (Json.read t).trailing = false := by
  unfold ofText
  simp only
  rw [bind_eq_ok_iff]
  constructor
  · rintro ⟨value, hdecode, hvalue⟩
    split at hvalue
    · cases hvalue
    · rename_i htrailing
      obtain rfl := Except.ok.inj hvalue
      exact ⟨hdecode, Bool.eq_false_iff.mpr htrailing⟩
  · rintro ⟨hdecode, htrailing⟩
    exact ⟨a, hdecode, by rw [htrailing]; rfl⟩

theorem ofText_of_lays (h : Lays t l) : c.ofText t = .ok a ↔ c.decode (.streamed Json.nestingLimit) l.value = .ok a := by
  rw [ofText_eq_ok_iff, h.read]
  exact and_iff_left rfl

theorem exists_layout (hc : Orderless c.decode) (h : c.ofText t = .ok a) : ∃ l, Lays t l := by
  obtain ⟨hdecode, htrailing⟩ := ofText_eq_ok_iff.mp h
  exact Json.exists_layout htrailing (hc.whole hdecode)

end Codec

/-! ## Edits of a scene -/

/-- The script for a scene that is given as a text. -/
def scriptOfText (config : Config) (previous : Option String) (t : String) : Except ReadError String :=
  (Model.codec.ofText t).map fun m => generate config m previous

/-- The members of any object of a scene's text may change places, and members that are unknown at their places may be
    inserted: the edited text reads as the same scene, so it gives the same script. -/
theorem edited_text_reads_alike (t : String) (m : Model) (h : Model.codec.ofText t = .ok m) :
    (∃ l, Lays t l) ∧
    ∀ l l', Lays t l →
      l.Reordered l' ∨ l.Inserted l' ∧ Extended Model.codec.decode Json.nestingLimit l.value l'.value →
      (∃ t', Lays t' l') ∧
      ∀ t', Lays t' l' → Model.codec.ofText t' = .ok m ∧
        ∀ config previous, scriptOfText config previous t' = scriptOfText config previous t := by
  refine ⟨Codec.exists_layout Model.orderless h, fun l l' hl hedit => ⟨?_, fun t' hl' => ?_⟩⟩
  · have hlegal : l'.Legal := by
      rcases hedit with hreordered | ⟨hinserted, -⟩
      · exact hreordered.legal hl.1
      · exact hinserted.legal hl.1
    exact ⟨_, hlegal.lays⟩
  · have hread := (Codec.ofText_of_lays hl).mp h
    have hread' : Model.codec.decode (.streamed Json.nestingLimit) l'.value = .ok m := by
      rcases hedit with hreordered | ⟨-, hextended⟩
      · exact Model.orderless.permuted hreordered.permuted hread
      · exact hextended.decode (.inr rfl) hread
    have hscene := (Codec.ofText_of_lays hl').mpr hread'
    exact ⟨hscene, fun config previous => by rw [scriptOfText, scriptOfText, hscene, h]⟩

/-! ## Two edits of a scene -/

namespace Json.Layout

/-- A text as the printer writes it. -/
def word (s : String) : Layout := .scalar (textChars s) (.text s)

/-- An array without blanks. -/
def items (ls : List Layout) : Layout := .array [] (ls.map fun l => ([], l, []))

/-- An object without blanks. -/
def fields (ms : List (String × Layout)) : Layout :=
  .object [] (ms.map fun m => (⟨[], textChars m.1, .text m.1, []⟩, [], m.2, []))

theorem key_legal (name : String) : KeyText.Legal ⟨[], textChars name, .text name, []⟩ :=
  ⟨.nil, ⟨_, rfl, quoted_escaped name []⟩, .nil⟩

theorem word_legal (s : String) : (word s).Legal := Token.text (quoted_escaped s [])

theorem items_legal_iff {ls : List Layout} : (items ls).Legal ↔ ∀ l ∈ ls, l.Legal := by
  rw [items, legal_array_iff, List.forall_mem_map]
  exact ⟨fun h l hl => (h.2 l hl).2.1, fun h => ⟨.nil, fun l hl => ⟨.nil, h l hl, .nil⟩⟩⟩

theorem fields_legal_iff {ms : List (String × Layout)} : (fields ms).Legal ↔ ∀ m ∈ ms, m.2.Legal := by
  rw [fields, legal_object_iff, List.forall_mem_map]
  exact ⟨fun h m hm => (h.2 m hm).2.2.1, fun h => ⟨.nil, fun m hm => ⟨key_legal m.1, .nil, h m hm, .nil⟩⟩⟩

end Json.Layout

open Json.Layout (word items fields)

/-- A picture of a bat, with this information about it. -/
def batLayout (info : List (String × Layout)) : Layout :=
  fields [("type", word "image"), ("info", fields info), ("texture", fields [("type", word "image"), ("key", word "bat")])]

/-- A scene with one object, which has these members. -/
def caveLayout (members : List (String × Layout)) : Layout :=
  fields [("settings", fields [("class_name", word "Cave")]), ("world", items [fields members])]

/-- The members of a group with the bat in it. -/
def caveGroup (info : List (String × Layout)) : List (String × Layout) :=
  [("type", word "group"), ("info", fields [("name", word "cave")]), ("children", items [batLayout info])]

/-- What is read from such a text. -/
def cave : Model where
  settings := { className := "Cave" }
  world := [.group (.named "cave") [.sprite .image { info := .named "bat", texture := .image "bat" }] {}]

theorem caveLayout_legal : (caveLayout (caveGroup [("name", word "bat")])).Legal := by
  simp [caveLayout, caveGroup, batLayout, Json.Layout.fields_legal_iff, Json.Layout.items_legal_iff,
    Json.Layout.word_legal]

theorem caveLayout_reordered (info : List (String × Layout)) :
    (caveLayout (caveGroup info)).Reordered (caveLayout (caveGroup info).reverse) :=
  @Json.Layout.Reordered.member [] [] [] [_] [] _ _ _ <|
    @Json.Layout.Reordered.item [] [] [] [] [] _ _ <| .members <| (List.reverse_perm _).symm.map _

theorem caveLayout_inserted :
    (caveLayout (caveGroup [("name", word "bat")])).Inserted
      (caveLayout (caveGroup [("name", word "bat"), ("note", items [])])) :=
  @Json.Layout.Inserted.member [] [] [] [_] [] _ _ _ <| @Json.Layout.Inserted.item [] [] [] [] [] _ _ <|
    @Json.Layout.Inserted.member [] [] [] [_, _] [] _ _ _ <| @Json.Layout.Inserted.item [] [] [] [] [] _ _ <|
      @Json.Layout.Inserted.member [] [] [] [_] [_] _ _ _ <|
        @Json.Layout.Inserted.here [] [] [] [_] [] _ _ (Json.Layout.key_legal "note") .nil
          (Json.Layout.items_legal_iff.mpr (List.forall_mem_nil _)) .nil

/-- A note may stand in the information about a picture, where no field has that name. -/
theorem batLayout_extended (c : Codec SceneObject) :
    Extended (SceneObject.taggedWith c).decode 123 (batLayout [("name", word "bat")]).value
      (batLayout [("name", word "bat"), ("note", items [])]).value := by
  refine @Extended.tagged _ (SceneObject.taggedWith c) (.ofRecord "image" Sprite.record (.sprite .image)) (.text "image")
    _ _ _ _ rfl rfl rfl (.content ?_)
  refine @Extended.field _ Sprite.record _ _ [] [_] _ _ _ (by decide) List.mem_cons_self (.value ?_)
  exact @Extended.member _ ObjectInfo.record _ [_] [] "note" _ _ (by decide) (by decide) rfl

theorem caveLayout_extended :
    Extended Model.codec.decode Json.nestingLimit (caveLayout (caveGroup [("name", word "bat")])).value
      (caveLayout (caveGroup [("name", word "bat"), ("note", items [])])).value := by
  have hnames : ((Group.recordWith (SceneObject.codecTo 126)).fields.map (·.name)).Nodup :=
    show ["info", "children", "physics"].Nodup by decide
  refine @Extended.field _ Model.record _ _ [_] [] _ _ _ (by decide) (List.mem_cons_of_mem _ List.mem_cons_self) (.value ?_)
  refine @Extended.item _ SceneObject.codec _ [] [] _ _ _ ?_
  refine @Extended.tagged _ (SceneObject.taggedWith (SceneObject.codecTo 126)) (.ofRecord "group" _ SceneObject.ofGroup)
    (.text "group") _ _ _ _ rfl rfl rfl (.content ?_)
  refine @Extended.field _ (Group.recordWith _) _ _ [_] [] _ _ _ hnames (List.mem_cons_of_mem _ List.mem_cons_self)
    (.value ?_)
  exact @Extended.item _ _ _ [] [] _ _ _ (batLayout_extended (SceneObject.codecTo 125))

/-- The group may have its tag after its children, and the bat in it a note that nobody asks for. -/
theorem cave_reads_alike :
    Model.codec.ofText (String.ofList (caveLayout (caveGroup [("name", word "bat")])).text) = .ok cave ∧
    Model.codec.ofText (String.ofList (caveLayout (caveGroup [("name", word "bat")]).reverse).text) = .ok cave ∧
    Model.codec.ofText (String.ofList (caveLayout (caveGroup [("name", word "bat"), ("note", items [])])).text)
      = .ok cave := by
  have hlays := caveLayout_legal.lays
  have hread : Model.codec.ofText _ = .ok cave := (Codec.ofText_of_lays hlays).mpr rfl
  obtain ⟨-, hedits⟩ := edited_text_reads_alike _ _ hread
  have hreordered := caveLayout_reordered [("name", word "bat")]
  refine ⟨hread, ?_, ?_⟩
  · exact ((hedits _ _ hlays (.inl hreordered)).2 _ (hreordered.legal hlays.1).lays).1
  · have hinserted := caveLayout_inserted
    exact ((hedits _ _ hlays (.inr ⟨hinserted, caveLayout_extended⟩)).2 _ (hinserted.legal hlays.1).lays).1

end SceneScript
