/-
  SceneScript.Proofs.UnknownMembers — a member that nobody knows may be added anywhere.

  `Extended R room j j'` says that the value `j'` is `j` with one member more: in an object
  that the reader `R` reads as a record or as a tagged value, under a key that is unknown
  there. Which keys are known depends on what the object is read as, so the relation
  follows the reader: there is one constructor for each kind of object that takes the new
  member (`member`, `plain`), and one for each way a reader hands on a part of its value to
  another reader. What is added can be read as a whole in the room that is left at its
  place.

  Proved: where the value can be held, so can the extended one (`Extended.readFault`), and
  what is read from the value, straight from the text or held, is read from the extended
  one (`Extended.decode`).
-/
import SceneScript.Proofs.MemberOrder

namespace SceneScript

open Json (valuesOf)

/-- One member more, of a key that is unknown at its place. -/
inductive Extended : {α : Type} → (Place → Json → Except ReadError α) → Nat → Json → Json → Prop
  /-- A record has a member that is none of its fields. -/
  | member {ρ : Type} {record : Record ρ} {room : Nat} {front back : List (Json × Json)} {name : String} {v : Json}
      {close : Close} : (record.fields.map (·.name)).Nodup → name ∉ record.fields.map (·.name) →
      v.readFault room = none →
      Extended record.decode (room + 1) (.object (front ++ back) close) (.object (front ++ (.text name, v) :: back) close)
  /-- The content of a kind without content has a member. -/
  | plain {α : Type} {kindName : String} {value : α} {room : Nat} {front back : List (Json × Json)} {name : String}
      {v : Json} {close : Close} : v.readFault room = none →
      Extended (fun _ => (Variant.plain kindName value).decode) (room + 1) (.object (front ++ back) close)
        (.object (front ++ (.text name, v) :: back) close)
  /-- In the value of a field of a record. -/
  | field {ρ : Type} {record : Record ρ} {f : Field ρ} {room : Nat} {front back : List (Json × Json)} {v v' : Json}
      {close : Close} : (record.fields.map (·.name)).Nodup → f ∈ record.fields → Extended f.decode room v v' →
      Extended record.decode (room + 1) (.object (front ++ (.text f.name, v) :: back) close)
        (.object (front ++ (.text f.name, v') :: back) close)
  /-- The same in a record that is written as an array. -/
  | element {ρ : Type} {record : Record ρ} {f : Field ρ} {room : Nat} {front back : List Json} {j j' : Json}
      {close : Close} : record.fields[front.length]? = some f → Extended f.decode room j j' →
      Extended record.decode (room + 1) (.array (front ++ j :: back) close) (.array (front ++ j' :: back) close)
  /-- A field puts the value it has read into the record. -/
  | value {α β : Type} {R : Place → Json → Except ReadError α} {g : α → β} {room : Nat} {j j' : Json} :
      Extended R room j j' → Extended (fun p j => R p j >>= fun a => .ok (g a)) room j j'
  | option {α : Type} {c : Codec α} {room : Nat} {j j' : Json} :
      Extended c.decode room j j' → Extended c.option.decode room j j'
  /-- In an element of a list. -/
  | item {α : Type} {c : Codec α} {room : Nat} {front back : List Json} {j j' : Json} {close : Close} :
      Extended c.decode room j j' →
      Extended c.list.decode (room + 1) (.array (front ++ j :: back) close) (.array (front ++ j' :: back) close)
  /-- In what a tagged object holds beside its tag. -/
  | tagged {α : Type} {t : Tagged α} {kind : Variant α} {tag : Json} {room : Nat} {members members' : List (Json × Json)}
      {close : Close} : valuesOf Tagged.tagName members = [tag] → valuesOf Tagged.tagName members' = [tag] →
      t.readTag .held tag = .ok kind →
      Extended (fun _ => kind.decode) (room + 1) (.object (Tagged.untagged members) .closed)
        (.object (Tagged.untagged members') .closed) →
      Extended t.decode (room + 1) (.object members close) (.object members' close)
  /-- In what follows the tag of an array. -/
  | taggedArray {α : Type} {t : Tagged α} {kind : Variant α} {tag : Json} {room : Nat} {items items' : List Json}
      {close : Close} : t.readTag .held tag = .ok kind →
      Extended (fun _ => kind.decode) (room + 1) (.array items .closed) (.array items' .closed) →
      Extended t.decode (room + 1) (.array (tag :: items) close) (.array (tag :: items') close)
  /-- The content of a kind is a record. -/
  | content {α ρ : Type} {kindName : String} {record : Record ρ} {make : ρ → α} {room : Nat} {j j' : Json} :
      Extended record.decode room j j' →
      Extended (fun _ => (Variant.ofRecord kindName record make).decode) room j j'

namespace Extended

variable {α : Type} {R : Place → Json → Except ReadError α} {room : Nat} {j j' : Json} {a : α}

theorem containers (h : Extended R room j j') : j.IsContainer ∧ j'.IsContainer := by
  induction h with
  | value _ ih => exact ih
  | option _ ih => exact ih
  | content _ ih => exact ih
  | _ => exact ⟨trivial, trivial⟩

/-- All members have names. -/
def Keyed : Json → Prop
  | .object members _ => ∀ m ∈ members, ∃ name, m.1 = .text name
  | _ => True

/-- The new member has a name. -/
theorem keyed (h : Extended R room j j') (hj : Keyed j) : Keyed j' := by
  induction h with
  | member =>
    simp only [Keyed, List.forall_mem_append, List.forall_mem_cons] at hj ⊢
    exact ⟨hj.1, ⟨_, rfl⟩, hj.2⟩
  | plain =>
    simp only [Keyed, List.forall_mem_append, List.forall_mem_cons] at hj ⊢
    exact ⟨hj.1, ⟨_, rfl⟩, hj.2⟩
  | field =>
    simp only [Keyed, List.forall_mem_append, List.forall_mem_cons] at hj ⊢
    exact hj
  | tagged _ _ _ _ ih =>
    intro m hm
    rcases Tagged.tag_or_content m with ⟨v, rfl⟩ | hcontent
    · exact ⟨_, rfl⟩
    · exact ih (fun m hm => hj m (List.mem_of_mem_filter hm)) m (List.mem_filter.mpr ⟨hm, hcontent⟩)
  | value _ ih => exact ih hj
  | option _ ih => exact ih hj
  | content _ ih => exact ih hj
  | _ => trivial

/-- The new member fits where there is room for it, so the value still fits. -/
theorem readFault (h : Extended R room j j') (hj : j.readFault room = none) : j'.readFault room = none := by
  induction h with
  | member _ _ hv => exact Json.readFault_insert hv hj
  | plain hv => exact Json.readFault_insert hv hj
  | field _ _ _ ih => exact Json.readFault_replace_value ih hj
  | element _ _ ih => exact Json.readFault_replace_item ih hj
  | value _ ih => exact ih hj
  | option _ ih => exact ih hj
  | item _ ih => exact Json.readFault_replace_item ih hj
  | @tagged _ t kind tag room members members' close hvalues hvalues' _ _ ih =>
    rw [Json.readFault_object_eq_none_iff] at hj ⊢
    refine ⟨fun m hm => ?_, hj.2⟩
    rcases Tagged.tag_or_content m with ⟨v, rfl⟩ | hcontent
    · have hv : v ∈ valuesOf Tagged.tagName members' := Json.mem_valuesOf_iff.mpr hm
      rw [hvalues', ← hvalues] at hv
      exact hj.1 _ (Json.mem_valuesOf_iff.mp hv)
    · have huntagged : (Json.object (Tagged.untagged members) .closed).readFault (room + 1) = none :=
        Json.readFault_object_eq_none_iff.mpr ⟨fun m hm => hj.1 m (List.mem_of_mem_filter hm), rfl⟩
      exact (Json.readFault_object_eq_none_iff.mp (ih huntagged)).1 m (List.mem_filter.mpr ⟨hm, hcontent⟩)
  | taggedArray _ _ ih =>
    rw [Json.readFault_array_eq_none_iff, List.forall_mem_cons] at hj ⊢
    obtain ⟨⟨htag, hitems⟩, hclose⟩ := hj
    have hrest := ih (Json.readFault_array_eq_none_iff.mpr ⟨hitems, rfl⟩)
    exact ⟨⟨htag, (Json.readFault_array_eq_none_iff.mp hrest).1⟩, hclose⟩
  | content _ ih => exact ih hj

end Extended

/-! ## Places -/

/-- The place leaves so much room, or it is held, where room plays no part. -/
def Place.Leaves (p : Place) (room : Nat) : Prop := p = .held ∨ p = .streamed room

namespace Place

variable {p q : Place} {room : Nat} {v : Json}

theorem Leaves.enter (hp : p.Leaves (room + 1)) (hq : p.enter = .ok q) : q.Leaves room := by
  rcases hp with rfl | rfl
  · exact .inl (Except.ok.inj hq).symm
  · exact .inr (Except.ok.inj hq).symm

theorem Leaves.pass (hp : p.Leaves room) (hv : v.readFault room = none) : p.pass v = .ok () := by
  rcases hp with rfl | rfl
  · rfl
  · exact pass_eq_ok_iff.mpr (Json.skipFault_of_readFault hv)

end Place

namespace Extended

variable {α : Type} {R : Place → Json → Except ReadError α} {room : Nat} {p q : Place}

/-- With the new member all that is beside a tag can still be held. -/
theorem holds {members members' : List (Json × Json)}
    (h : Extended R (room + 1) (.object members .closed) (.object members' .closed)) (hp : p.Leaves (room + 1))
    (hq : p.enter = .ok q) (hholds : ∀ m ∈ members, Tagged.Holds q m) : ∀ m ∈ members', Tagged.Holds q m := by
  rcases hp with rfl | rfl
  · obtain rfl := Except.ok.inj hq
    exact fun m hm => ⟨h.keyed (fun m hm => (hholds m hm).1) m hm, rfl⟩
  · obtain rfl := Except.ok.inj hq
    have hwhole : (Json.object members .closed).readFault (room + 1) = none :=
      Json.readFault_object_eq_none_iff.mpr ⟨fun m hm => ⟨(hholds m hm).1, Place.hold_eq_ok_iff.mp (hholds m hm).2⟩, rfl⟩
    intro m hm
    obtain ⟨hkey, hm⟩ := (Json.readFault_object_eq_none_iff.mp (h.readFault hwhole)).1 m hm
    exact ⟨hkey, Place.hold_eq_ok_iff.mpr hm⟩

theorem holds_items {items items' : List Json} (h : Extended R (room + 1) (.array items .closed) (.array items' .closed))
    (hp : p.Leaves (room + 1)) (hq : p.enter = .ok q) (hholds : ∀ j ∈ items, q.hold j = .ok ()) :
    ∀ j ∈ items', q.hold j = .ok () := by
  rcases hp with rfl | rfl
  · obtain rfl := Except.ok.inj hq
    exact fun _ _ => rfl
  · obtain rfl := Except.ok.inj hq
    have hwhole : (Json.array items .closed).readFault (room + 1) = none :=
      Json.readFault_array_eq_none_iff.mpr ⟨fun j hj => Place.hold_eq_ok_iff.mp (hholds j hj), rfl⟩
    intro j hj
    exact Place.hold_eq_ok_iff.mpr ((Json.readFault_array_eq_none_iff.mp (h.readFault hwhole)).1 j hj)

end Extended

/-! ## Members of records -/

namespace Record

variable {ρ : Type} {f : Field ρ} {q : Place} {front back : List (Json × Json)} {name : String} {v : Json}

/-- A field does not see a member of another name. -/
theorem Follows.of_new (h : name ≠ f.name) : Follows q (front ++ back) (front ++ (.text name, v) :: back) f f := by
  have hvalues := Json.valuesOf_insert_of_ne h front back v
  exact .of_values rfl (fun hnone => hvalues.trans hnone) fun w change hvalue hdecode => ⟨w, hvalues.trans hvalue, hdecode⟩

end Record

/-! ## Reading -/

/-- What is read from the value is read from the extended one. -/
theorem Extended.decode {α : Type} {R : Place → Json → Except ReadError α} {room : Nat} {j j' : Json} {p : Place} {a : α}
    (h : Extended R room j j') (hp : p.Leaves room) (hread : R p j = .ok a) : R p j' = .ok a := by
  induction h generalizing p with
  | member hn hnew hv =>
    refine Record.decode_object_follows hn hn rfl (fun q hq hadmits => ?_) (fun q _ => ?_) hread
    · simp only [List.forall_mem_append, List.forall_mem_cons] at hadmits ⊢
      obtain ⟨hfront, hback⟩ := hadmits
      exact ⟨hfront, ⟨_, rfl, fun _ => (hp.enter hq).pass hv⟩, hback⟩
    · refine List.forall₂_same.mpr fun f hf => .of_new fun hname => hnew ?_
      exact List.mem_map.mpr ⟨f, hf, hname.symm⟩
  | plain => exact hread
  | @field ρ record f room front back v v' close hn hf _ ih =>
    refine Record.decode_object_follows hn hn rfl (fun q hq hadmits => ?_) (fun q hq => ?_) hread
    · simp only [List.forall_mem_append, List.forall_mem_cons] at hadmits ⊢
      obtain ⟨hfront, -, hback⟩ := hadmits
      exact ⟨hfront, Record.admits_of_mem (List.mem_map_of_mem hf), hback⟩
    · refine List.forall₂_same.mpr fun g hg => .replace fun hname change hdecode => ?_
      obtain rfl : f = g := List.inj_on_of_nodup_map hn hf hg (Json.text.inj hname)
      exact ih (hp.enter hq) hdecode
  | element hf _ ih =>
    refine Record.decode_array_follows rfl (fun q slots hq hitems => hitems.replace fun g hg change hdecode => ?_) hread
    obtain rfl := Option.some.inj (hf.symm.trans hg)
    exact ih (hp.enter hq) hdecode
  | value _ ih =>
    obtain ⟨value, hvalue, hresult⟩ := bind_eq_ok_iff.mp hread
    exact bind_eq_ok_iff.mpr ⟨value, ih hp hvalue, hresult⟩
  | option hinner ih =>
    obtain ⟨hj, hj'⟩ := hinner.containers
    rw [Codec.option_container hj] at hread
    obtain ⟨value, hvalue, hresult⟩ := map_eq_ok_iff.mp hread
    rw [Codec.option_container hj']
    exact map_eq_ok_iff.mpr ⟨value, ih hp hvalue, hresult⟩
  | item _ ih =>
    obtain ⟨items, q, hitems, hq, hvalues⟩ := Codec.list_eq_ok_iff.mp hread
    obtain ⟨rfl, rfl⟩ := Json.array.inj hitems
    exact Codec.list_eq_ok_iff.mpr ⟨_, q, rfl, hq, forall₂_replace hvalues fun value hvalue => ih (hp.enter hq) hvalue⟩
  | @tagged _ t kind tag room members members' close hvalues hvalues' htag hcontent ih =>
    obtain ⟨kind', content, hopens, hkind⟩ := Tagged.decode_eq_ok_iff.mp hread
    cases hopens with
    | @object _ q tag' _ hq hvalues'' htag' hholds =>
      obtain rfl : tag = tag' := List.singleton_inj.mp (hvalues.symm.trans hvalues'')
      obtain rfl := Except.ok.inj (htag.symm.trans (Tagged.readTag_held htag'))
      have hholds' := hcontent.holds hp hq hholds
      exact Tagged.decode_eq_ok_iff.mpr ⟨kind, _, .object hq hvalues' htag' hholds', ih (.inl rfl) hkind⟩
  | @taggedArray _ t kind tag room items items' close htag hcontent ih =>
    obtain ⟨kind', content, hopens, hkind⟩ := Tagged.decode_eq_ok_iff.mp hread
    cases hopens with
    | @array _ q _ _ hq htag' hholds =>
      obtain rfl := Except.ok.inj (htag.symm.trans (Tagged.readTag_held htag'))
      have hholds' := hcontent.holds_items hp hq hholds
      exact Tagged.decode_eq_ok_iff.mpr ⟨kind, _, .array hq htag' hholds', ih (.inl rfl) hkind⟩
  | content _ ih =>
    obtain ⟨r, hr, hmake⟩ := map_eq_ok_iff.mp hread
    exact map_eq_ok_iff.mpr ⟨r, ih (.inl rfl) hr, hmake⟩

end SceneScript
