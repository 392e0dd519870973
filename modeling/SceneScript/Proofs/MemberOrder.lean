/-
  SceneScript.Proofs.MemberOrder — the order of members does not matter to a reader.

  A value is `Permuted` when one object in it, at any depth, has its members in another
  order. A reader is `Orderless` if it reads a permuted value as it did the value itself,
  at every place. That holds for every reader a scene is read with. The members may stand
  anywhere in the text: under a record that is read as the text goes by, in the content of
  a tagged value, before or after its tag, or in a value that nobody asked for.

  One lemma for each way of putting readers together, then one for each type of a scene
  from the inside out, up to `Model.orderless`. Along the way an orderless reader lets no
  fault pass that skipping its value would find (`Orderless.whole`): a text that reads as a
  scene is well formed throughout.
-/
import SceneScript.Scene.Model
import SceneScript.Proofs.ContainerReading

namespace SceneScript

namespace Json

/-- One object in the value has its members in another order. -/
inductive Permuted : Json → Json → Prop
  | members {ms ms' : List (Json × Json)} {close : Close} : ms.Perm ms' → Permuted (.object ms close) (.object ms' close)
  | item {front back : List Json} {j j' : Json} {close : Close} : Permuted j j' →
      Permuted (.array (front ++ j :: back) close) (.array (front ++ j' :: back) close)
  | member {front back : List (Json × Json)} {k v v' : Json} {close : Close} : Permuted v v' →
      Permuted (.object (front ++ (k, v) :: back) close) (.object (front ++ (k, v') :: back) close)

/-! ## Form -/

variable {j j' : Json} {room : Nat}

theorem Permuted.readFault (h : Permuted j j') (hj : j.readFault room = none) : j'.readFault room = none := by
  induction h generalizing room with
  | members hperm =>
    cases room with
    | zero => cases hj
    | succ room =>
      rw [readFault_object_eq_none_iff] at hj ⊢
      exact ⟨fun m hm => hj.1 m (hperm.mem_iff.mpr hm), hj.2⟩
  | item _ ih =>
    cases room with
    | zero => cases hj
    | succ room => exact readFault_replace_item ih hj
  | member _ ih =>
    cases room with
    | zero => cases hj
    | succ room => exact readFault_replace_value ih hj

theorem Permuted.skipFault (h : Permuted j j') (hj : j.skipFault = none) : j'.skipFault = none := by
  induction h with
  | members hperm =>
    rw [skipFault_object_eq_none_iff] at hj ⊢
    exact ⟨fun m hm => hj.1 m (hperm.mem_iff.mpr hm), hj.2⟩
  | item _ ih =>
    simp only [skipFault_array_eq_none_iff, List.forall_mem_append, List.forall_mem_cons] at hj ⊢
    obtain ⟨⟨hfront, hj, hback⟩, hclose⟩ := hj
    exact ⟨⟨hfront, ih hj, hback⟩, hclose⟩
  | member _ ih =>
    simp only [skipFault_object_eq_none_iff, List.forall_mem_append, List.forall_mem_cons] at hj ⊢
    obtain ⟨⟨hfront, ⟨hkey, hv⟩, hback⟩, hclose⟩ := hj
    exact ⟨⟨hfront, ⟨hkey, ih hv⟩, hback⟩, hclose⟩

theorem Permuted.hold {p : Place} (h : Permuted j j') (hj : p.hold j = .ok ()) : p.hold j' = .ok () := by
  cases p with
  | streamed room => exact Place.hold_eq_ok_iff.mpr (h.readFault (Place.hold_eq_ok_iff.mp hj))
  | held => rfl

theorem Permuted.pass {p : Place} (h : Permuted j j') (hj : p.pass j = .ok ()) : p.pass j' = .ok () := by
  cases p with
  | streamed room => exact Place.pass_eq_ok_iff.mpr (h.skipFault (Place.pass_eq_ok_iff.mp hj))
  | held => rfl

/-- Opens no container. -/
def IsScalar : Json → Prop
  | .null => True
  | .flag _ => True
  | .number _ => True
  | .text _ => True
  | _ => False

/-- Opens one. -/
def IsContainer : Json → Prop
  | .array _ _ => True
  | .object _ _ => True
  | _ => False

theorem Permuted.containers (h : Permuted j j') : j.IsContainer ∧ j'.IsContainer := by
  cases h <;> exact ⟨trivial, trivial⟩

/-- There is nothing to permute in a scalar. -/
theorem Permuted.not_scalar (h : Permuted j j') : ¬ j.IsScalar := by
  cases h <;> exact id

/-- Nor in an object without members. -/
theorem Permuted.of_bare {close : Close} (h : Permuted (.object [] close) j) : j = .object [] close := by
  generalize hbare : Json.object [] close = bare at h
  cases h with
  | members hperm =>
    obtain ⟨rfl, rfl⟩ := object.inj hbare
    rw [List.nil_perm.mp hperm]
  | item => cases hbare
  | member => exact absurd (object.inj hbare).1.symm (by simp)

/-! ## Values of a key -/

variable {members members' : List (Json × Json)} {name : String}

theorem valuesOf_perm (h : members.Perm members') : (valuesOf name members).Perm (valuesOf name members') :=
  h.filterMap _

end Json

open Json (Permuted)

/-- The order of members does not matter to the reader, and what it reads from a text has no fault that skipping it would
    find. -/
structure Orderless {α : Type} (R : Place → Json → Except ReadError α) : Prop where
  permuted : ∀ {p j j' a}, Permuted j j' → R p j = .ok a → R p j' = .ok a
  whole : ∀ {room j a}, R (.streamed room) j = .ok a → j.skipFault = none

section Readers

variable {α β : Type} {R : Place → Json → Except ReadError α} {c : Codec α}

/-! ## Scalars and names -/

theorem Orderless.of_scalar (h : ∀ {p j a}, R p j = .ok a → j.IsScalar) : Orderless R where
  permuted hperm hread := absurd (h hread) hperm.not_scalar
  whole {room j a} hread := by
    have hscalar := h hread
    cases j with
    | null => rfl
    | flag => rfl
    | number => rfl
    | text => rfl
    | _ => exact hscalar.elim

theorem Orderless.map (h : Orderless R) (g : α → β) : Orderless fun p j => R p j >>= fun a => .ok (g a) where
  permuted hperm hread := by
    obtain ⟨a, ha, hg⟩ := bind_eq_ok_iff.mp hread
    exact bind_eq_ok_iff.mpr ⟨a, h.permuted hperm ha, hg⟩
  whole hread := by
    obtain ⟨a, ha, -⟩ := bind_eq_ok_iff.mp hread
    exact h.whole ha

theorem Codec.flag_orderless : Orderless Codec.flag.decode := .of_scalar fun {p j a} h => by
  cases j with
  | flag => trivial
  | _ => exact absurd h (Json.mismatch_ne_ok _ _)

theorem Codec.text_orderless : Orderless Codec.text.decode := .of_scalar fun {p j a} h => by
  cases j with
  | text => trivial
  | _ => exact absurd h (Json.mismatch_ne_ok _ _)

theorem Codec.double_orderless : Orderless Codec.double.decode := .of_scalar fun {p j a} h => by
  cases j with
  | number => trivial
  | _ => exact absurd h (Json.mismatch_ne_ok _ _)

theorem Codec.word_orderless : Orderless Codec.word.decode := .of_scalar fun {p j a} h => by
  cases j with
  | number => trivial
  | _ => exact absurd h (Json.mismatch_ne_ok _ _)

/-- A name as an object has one member, with nothing to permute in it. -/
theorem nameInText_object {all : List (String × α)} {room : Nat} {members : List (Json × Json)} {close : Close} {a : α}
    (h : Codec.nameInText all (.streamed room) (.object members close) = .ok a) :
    ∃ name, members = [(.text name, .null)] ∧ close = .closed := by
  obtain ⟨q, hq, h⟩ := bind_eq_ok_iff.mp (show (Place.streamed room).enter >>= (fun _ => _) = Except.ok a from h)
  obtain ⟨inner, -, rfl⟩ := Tagged.enter_streamed hq
  cases members with
  | nil => cases h
  | cons m more =>
    obtain ⟨k, v⟩ := m
    obtain ⟨name, hkey, h⟩ := bind_eq_ok_iff.mp (show k.key >>= (fun _ => _) = Except.ok a from h)
    obtain ⟨value, -, h⟩ := bind_eq_ok_iff.mp h
    obtain ⟨_, hunit, h⟩ := bind_eq_ok_iff.mp h
    have hk : k = .text name := by
      cases k with
      | text key => rw [Except.ok.inj hkey]
      | _ => cases hkey
    have hv : v = .null := by
      cases v with
      | null => rfl
      | object members close => cases members <;> exact absurd hunit (Json.mismatch_ne_ok _ _)
      | _ => exact absurd hunit (Json.mismatch_ne_ok _ _)
    cases more with
    | cons m more => cases h
    | nil =>
      refine ⟨name, by rw [hk, hv], ?_⟩
      obtain ⟨_, hend, -⟩ := bind_eq_ok_iff.mp (show ReadError.check close.endFault? >>= (fun _ => _) = Except.ok a from h)
      cases close with
      | closed => rfl
      | broken afterComma fault => cases afterComma <;> cases hend

theorem nameHeld_object {all : List (String × α)} {members : List (Json × Json)} {close : Close} {a : α}
    (h : Codec.nameHeld all (.object members close) = .ok a) :
    ∃ k v, members = [(k, v)] ∧ (v = .null ∨ ∃ close, v = .object [] close) := by
  cases members with
  | nil => cases h
  | cons m more =>
    cases more with
    | cons m' more => cases h
    | nil =>
      obtain ⟨k, v⟩ := m
      obtain ⟨name, hkey, h⟩ := bind_eq_ok_iff.mp (show k.key >>= (fun _ => _) = Except.ok a from h)
      obtain ⟨value, -, h⟩ := bind_eq_ok_iff.mp h
      obtain ⟨_, hunit, h⟩ := bind_eq_ok_iff.mp h
      refine ⟨k, v, rfl, ?_⟩
      cases v with
      | null => exact .inl rfl
      | object members close =>
        cases members with
        | nil => exact .inr ⟨close, rfl⟩
        | cons => exact absurd hunit (Json.mismatch_ne_ok _ _)
      | _ => exact absurd hunit (Json.mismatch_ne_ok _ _)

/-- So there is only one order for it. -/
theorem permuted_single {k v j : Json} {close : Close} (hv : v = .null ∨ ∃ close, v = .object [] close)
    (h : Permuted (.object [(k, v)] close) j) : j = .object [(k, v)] close := by
  generalize hsingle : Json.object [(k, v)] close = single at h
  cases h with
  | members hperm =>
    obtain ⟨rfl, rfl⟩ := Json.object.inj hsingle
    rw [List.singleton_perm.mp hperm]
  | item => cases hsingle
  | @member front back k' w w' close' hw =>
    obtain ⟨hmembers, rfl⟩ := Json.object.inj hsingle
    obtain ⟨rfl, hmember⟩ : front = [] ∧ (k', w) :: back = [(k, v)] := by
      rcases List.append_eq_singleton_iff.mp hmembers.symm with hfront | ⟨-, hback⟩
      · exact hfront
      · cases hback
    obtain ⟨rfl, rfl, rfl⟩ : k' = k ∧ w = v ∧ back = [] := by simpa [and_assoc] using hmember
    rcases hv with rfl | ⟨close, rfl⟩
    · exact absurd trivial hw.not_scalar
    · rw [hw.of_bare]

theorem Codec.names_orderless (all : List (String × α)) (nameOf : α → String) : Orderless (Codec.names all nameOf).decode where
  permuted {p j j' a} hperm hread := by
    suffices heq : j' = j by rwa [heq]
    cases p with
    | streamed room =>
      cases j with
      | object members close =>
        obtain ⟨name, rfl, rfl⟩ := nameInText_object hread
        exact permuted_single (.inl rfl) hperm
      | text => exact absurd trivial hperm.not_scalar
      | broken b => cases hperm
      | _ => cases hread
    | held =>
      cases j with
      | object members close =>
        obtain ⟨k, v, rfl, hv⟩ := nameHeld_object hread
        exact permuted_single hv hperm
      | text => exact absurd trivial hperm.not_scalar
      | _ => exact absurd hread (Json.mismatch_ne_ok _ _)
  whole {room j a} hread := by
    cases j with
    | object members close =>
      obtain ⟨name, rfl, rfl⟩ := nameInText_object hread
      rfl
    | text => rfl
    | broken b =>
      obtain ⟨opening, onRead, onSkip⟩ := b
      cases opening <;> cases hread
    | _ => cases hread

/-- A frame is a number or a text. -/
theorem Frame.orderless : Orderless Frame.codec.decode := .of_scalar fun {p j a} h => by
  obtain ⟨_, -, hread⟩ := bind_eq_ok_iff.mp (show p.hold j >>= (fun _ => _) = Except.ok a from h)
  cases j with
  | number => trivial
  | text => trivial
  | _ => cases hread

/-! ## Lists and optional values -/

theorem Codec.list_orderless (h : Orderless c.decode) : Orderless c.list.decode where
  permuted {p j j' a} hperm hread := by
    obtain ⟨items, q, rfl, hq, hitems⟩ := Codec.list_eq_ok_iff.mp hread
    generalize harray : Json.array items .closed = array at hperm
    cases hperm with
    | members => cases harray
    | member => cases harray
    | item hitem =>
      obtain ⟨rfl, rfl⟩ := Json.array.inj harray
      exact Codec.list_eq_ok_iff.mpr ⟨_, q, rfl, hq, forall₂_replace hitems fun _ => h.permuted hitem⟩
  whole {room j a} hread := by
    obtain ⟨items, q, rfl, hq, hitems⟩ := Codec.list_eq_ok_iff.mp hread
    obtain ⟨inner, -, rfl⟩ := Tagged.enter_streamed hq
    refine Json.skipFault_array_eq_none_iff.mpr ⟨fun j hj => ?_, rfl⟩
    obtain ⟨value, -, hvalue⟩ := exists_mem_of_forall₂ hitems hj
    exact h.whole hvalue

theorem Codec.option_container {p : Place} {j : Json} (h : j.IsContainer) :
    c.option.decode p j = (c.decode p j).map some := by
  cases j with
  | array => rfl
  | object => rfl
  | _ => exact h.elim

theorem Codec.option_orderless (h : Orderless c.decode) : Orderless c.option.decode where
  permuted {p j j' a} hperm hread := by
    obtain ⟨hj, hj'⟩ := hperm.containers
    rw [Codec.option_container hj] at hread
    obtain ⟨value, hdecode, rfl⟩ := map_eq_ok_iff.mp hread
    rw [Codec.option_container hj', h.permuted hperm hdecode]
    rfl
  whole {room j a} hread := by
    cases j with
    | broken b =>
      obtain ⟨opening, onRead, onSkip⟩ := b
      cases opening with
      | null => cases hread
      | _ =>
        obtain ⟨value, hread, -⟩ := map_eq_ok_iff.mp hread
        exact h.whole hread
    | null => rfl
    | _ =>
      obtain ⟨value, hread, -⟩ := map_eq_ok_iff.mp hread
      exact h.whole hread

end Readers

/-! ## Records -/

/-- Each of the fields reads its value in any order of members. -/
def OrderlessFields {ρ : Type} (fields : List (Field ρ)) : Prop := ∀ f ∈ fields, Orderless f.decode

namespace OrderlessFields

variable {ρ α : Type} {name : String} {c : Codec α} {fs : List (Field ρ)}

theorem nil : OrderlessFields ([] : List (Field ρ)) := nofun

theorem required {get : ρ → α} {set : ρ → α → ρ} (h : Orderless c.decode) (hfs : OrderlessFields fs) :
    OrderlessFields (.required name c get set :: fs) :=
  List.forall_mem_cons.mpr ⟨h.map _, hfs⟩

theorem omitted {get : ρ → α} {set : ρ → α → ρ} {omits : α → Bool} (h : Orderless c.decode) (hfs : OrderlessFields fs) :
    OrderlessFields (.omitted name c get set omits :: fs) :=
  List.forall_mem_cons.mpr ⟨h.map _, hfs⟩

theorem written {get : ρ → α} {set : ρ → α → ρ} (h : Orderless c.decode) (hfs : OrderlessFields fs) :
    OrderlessFields (.written name c get set :: fs) :=
  omitted h hfs

theorem maybe {get : ρ → Option α} {set : ρ → Option α → ρ} (h : Orderless c.decode) (hfs : OrderlessFields fs) :
    OrderlessFields (.maybe name c get set :: fs) :=
  omitted (Codec.option_orderless h) hfs

end OrderlessFields

namespace Record

variable {ρ : Type} {record : Record ρ} {f : Field ρ} {fields : List (Field ρ)} {p q : Place} {r : ρ} {slots : Slots ρ}

/-- A field finds the same value when the members stand in another order. -/
theorem Follows.of_perm {members members' : List (Json × Json)} (h : members.Perm members') :
    Follows q members members' f f := by
  have hvalues : (Json.valuesOf f.name members).Perm (Json.valuesOf f.name members') := Json.valuesOf_perm h
  refine .of_values rfl (fun hnone => ?_) fun v change hvalue hdecode => ⟨v, ?_, hdecode⟩
  · rw [hnone] at hvalues
    exact List.nil_perm.mp hvalues
  · rw [hvalue] at hvalues
    exact (List.singleton_perm.mp hvalues).symm

theorem ReadsItems.skipFault {room : Nat} {items : List Json} (hfields : OrderlessFields fields)
    (h : ReadsItems (.streamed room) fields items slots) : ∀ j ∈ items, j.skipFault = none := by
  induction h with
  | nil => nofun
  | cons hdecode _ ih =>
    obtain ⟨hf, hfs⟩ := List.forall_mem_cons.mp hfields
    exact List.forall_mem_cons.mpr ⟨hf.whole hdecode, ih hfs⟩
  | rest => nofun

/-- A record is read in any order of its members if its fields are. -/
theorem orderless (hn : (record.fields.map (·.name)).Nodup) (hfields : OrderlessFields record.fields) :
    Orderless record.decode where
  permuted {p j j' r} hperm hread := by
    cases hperm with
    | members hms =>
      refine decode_object_follows hn hn rfl (fun q _ hadmits m hm => hadmits m (hms.mem_iff.mpr hm)) (fun q _ => ?_) hread
      exact List.forall₂_same.mpr fun f _ => .of_perm hms
    | item hitem =>
      refine decode_array_follows rfl (fun q slots _ hitems => hitems.replace fun f hf change hdecode => ?_) hread
      exact (hfields f (List.mem_of_getElem? hf)).permuted hitem hdecode
    | member hv =>
      refine decode_object_follows hn hn rfl (fun q _ hadmits => ?_) (fun q _ => ?_) hread
      · simp only [List.forall_mem_append, List.forall_mem_cons] at hadmits ⊢
        obtain ⟨hfront, ⟨name, hkey, hpass⟩, hback⟩ := hadmits
        exact ⟨hfront, ⟨name, hkey, fun hunknown => hv.pass (hpass hunknown)⟩, hback⟩
      · exact List.forall₂_same.mpr fun f hf => .replace fun _ change hdecode => (hfields f hf).permuted hv hdecode
  whole {room j r} hread := by
    cases j with
    | object members close =>
      obtain ⟨rfl, q, slots, hq, hreads, -⟩ := (decode_object_eq_ok_iff hn).mp hread
      obtain ⟨inner, -, rfl⟩ := Tagged.enter_streamed hq
      refine Json.skipFault_object_eq_none_iff.mpr ⟨fun ⟨k, v⟩ hm => ?_, rfl⟩
      obtain ⟨name, hkey, hpass⟩ := hreads.admits _ hm
      obtain rfl : k = .text name := hkey
      refine ⟨rfl, ?_⟩
      by_cases hname : name ∈ record.fields.map (·.name)
      · obtain ⟨f, hf, rfl⟩ := List.mem_map.mp hname
        have hv : v ∈ Json.valuesOf f.name members := Json.mem_valuesOf_iff.mpr hm
        obtain ⟨slot, -, hfills, -⟩ := exists_mem_of_forall₂ hreads.found hf
        cases hfills with
        | untouched hnone =>
          rw [hnone] at hv
          cases hv
        | given hvalue hdecode =>
          obtain rfl := List.mem_singleton.mp (hvalue ▸ hv)
          exact (hfields f hf).whole hdecode
      · exact Place.pass_eq_ok_iff.mp (hpass hname)
    | array items close =>
      obtain ⟨rfl, q, slots, hq, hslots, -⟩ := decode_array_eq_ok_iff.mp hread
      obtain ⟨inner, -, rfl⟩ := Tagged.enter_streamed hq
      exact Json.skipFault_array_eq_none_iff.mpr ⟨hslots.skipFault hfields, rfl⟩
    | _ => exact absurd hread (Json.mismatch_ne_ok _ _)

end Record

/-! ## Tagged values -/

/-- What the kind makes of its content does not depend on the order of members. -/
def Variant.Orderless {α : Type} (kind : Variant α) : Prop :=
  ∀ {content content' a}, Permuted content content' → kind.decode content = .ok a → kind.decode content' = .ok a

theorem Variant.ofRecord_orderless {α ρ : Type} {name : String} {record : Record ρ} {make : ρ → α}
    (h : SceneScript.Orderless record.decode) : (Variant.ofRecord name record make).Orderless := by
  intro content content' a hperm hread
  obtain ⟨r, hr, hmake⟩ := map_eq_ok_iff.mp hread
  exact map_eq_ok_iff.mpr ⟨r, h.permuted hperm hr, hmake⟩

theorem Variant.plain_orderless {α : Type} (name : String) (value : α) : (Variant.plain name value).Orderless := by
  intro content content' a hperm hread
  cases hperm with
  | members => exact hread
  | member => exact hread
  | @item front back =>
    -- elements are too many for it
    cases front <;> cases hread

namespace Tagged

variable {α : Type} {t : Tagged α} {p q : Place} {j j' content : Json} {kind : Variant α}

/-- A permuted value is opened as one of the same kind, and its content is the same or permuted. -/
theorem Opens.permuted (h : t.Opens p j kind content) (hperm : Permuted j j') :
    ∃ content', t.Opens p j' kind content' ∧ (content' = content ∨ Permuted content content') := by
  cases h with
  | @object members q tag kind hq hvalues htag hholds =>
    generalize hobject : Json.object members .closed = object at hperm
    cases hperm with
    | item => cases hobject
    | @members ms ms' close hms =>
      obtain ⟨rfl, rfl⟩ := Json.object.inj hobject
      refine ⟨_, .object hq ?_ htag fun m hm => hholds m ?_, .inr (.members (hms.filter _))⟩
      · have hvalues' : (Json.valuesOf tagName members).Perm (Json.valuesOf tagName ms') := Json.valuesOf_perm hms
        rw [hvalues] at hvalues'
        exact (List.singleton_perm.mp hvalues').symm
      · exact ((hms.filter isContent).mem_iff).mpr hm
    | @member front back k v v' close hv =>
      obtain ⟨rfl, rfl⟩ := Json.object.inj hobject
      by_cases hk : k = .text tagName
      · -- the tag itself is a scalar
        subst hk
        obtain ⟨rfl, -⟩ := Json.valuesOf_replace hvalues v'
        rcases readTag_cases htag with ⟨s, rfl⟩ | ⟨-, i, rfl⟩ <;> exact absurd trivial hv.not_scalar
      · have hvalues' := (Json.valuesOf_replace_of_ne hk front back v v').trans hvalues
        refine ⟨_, .object hq hvalues' htag ?_, .inr ?_⟩
        · rw [untagged_append_cons hk] at hholds ⊢
          simp only [List.forall_mem_append, List.forall_mem_cons] at hholds ⊢
          obtain ⟨hfront, ⟨hkey, hhold⟩, hback⟩ := hholds
          exact ⟨hfront, ⟨hkey, hv.hold hhold⟩, hback⟩
        · rw [untagged_append_cons hk, untagged_append_cons hk]
          exact .member hv
  | @array items q tag kind hq htag hholds =>
    generalize harray : Json.array (tag :: items) .closed = array at hperm
    cases hperm with
    | members => cases harray
    | member => cases harray
    | @item front back i i' close hi =>
      obtain ⟨hitems, rfl⟩ := Json.array.inj harray
      cases front with
      | nil =>
        obtain ⟨rfl, rfl⟩ := List.cons.inj hitems
        rcases readTag_cases htag with ⟨s, rfl⟩ | ⟨-, i, rfl⟩ <;> exact absurd trivial hi.not_scalar
      | cons first front =>
        obtain ⟨rfl, hrest⟩ : tag = first ∧ items = front ++ i :: back := List.cons.inj hitems
        subst hrest
        have hheld : ∀ j ∈ front ++ i' :: back, q.hold j = .ok () := by
          simp only [List.forall_mem_append, List.forall_mem_cons] at hholds ⊢
          obtain ⟨hfront, hhold, hback⟩ := hholds
          exact ⟨hfront, hi.hold hhold, hback⟩
        exact ⟨_, .array hq htag hheld, .inr (.item hi)⟩

/-- A tagged value is read in any order of its members if all kinds are. -/
theorem orderless (hkinds : ∀ kind ∈ t.variants, kind.Orderless) : Orderless t.decode where
  permuted hperm hread := by
    obtain ⟨kind, content, hopens, hkind⟩ := decode_eq_ok_iff.mp hread
    obtain ⟨content', hopens', hcontent⟩ := hopens.permuted hperm
    refine decode_eq_ok_iff.mpr ⟨kind, content', hopens', ?_⟩
    rcases hcontent with rfl | hcontent
    · exact hkind
    · exact hkinds kind hopens.kind_mem hcontent hkind
  whole hread := by
    obtain ⟨kind, content, hopens, -⟩ := decode_eq_ok_iff.mp hread
    exact Json.skipFault_of_readFault (Place.hold_eq_ok_iff.mp (hopens.held (Nat.le_refl _)).1)

end Tagged

/-! ## The parts of a scene -/

open Codec

theorem Texture.orderless : Orderless codec.decode := by
  have himage : Orderless imageRecord.decode := Record.orderless (by decide) (.required text_orderless .nil)
  have hsheet : Orderless spritesheetFrameRecord.decode :=
    Record.orderless (by decide) (.required text_orderless <| .required word_orderless .nil)
  have hatlas : Orderless atlasFrameRecord.decode :=
    Record.orderless (by decide) (.required text_orderless <| .required text_orderless .nil)
  refine Tagged.orderless (List.forall_mem_cons.mpr ⟨Variant.ofRecord_orderless himage, ?_⟩)
  refine List.forall_mem_cons.mpr ⟨Variant.ofRecord_orderless hsheet, ?_⟩
  exact List.forall_mem_singleton.mpr (Variant.ofRecord_orderless hatlas)

theorem ArcadeBody.orderless : Orderless codec.decode := by
  refine Record.orderless (by decide) ?_
  repeat first
    | refine OrderlessFields.written double_orderless ?_
    | refine OrderlessFields.written flag_orderless ?_
  exact .nil

theorem Body.orderless : Orderless codec.decode := by
  have hcircle : Orderless circleRecord.decode :=
    Record.orderless (by decide) (.required double_orderless <| .written ArcadeBody.orderless .nil)
  have hrect : Orderless rectRecord.decode :=
    Record.orderless (by decide)
      (.written double_orderless <| .written double_orderless <| .written ArcadeBody.orderless .nil)
  refine Tagged.orderless (List.forall_mem_cons.mpr ⟨Variant.plain_orderless _ _, ?_⟩)
  refine List.forall_mem_cons.mpr ⟨Variant.ofRecord_orderless hcircle, ?_⟩
  exact List.forall_mem_singleton.mpr (Variant.ofRecord_orderless hrect)

theorem Transform.orderless : Orderless codec.decode :=
  Record.orderless (by decide)
    (.written double_orderless <| .written double_orderless <| .written double_orderless <| .written double_orderless <|
      .written double_orderless <| .written double_orderless <| .written double_orderless .nil)

theorem ObjectInfo.orderless : Orderless codec.decode :=
  Record.orderless (by decide)
    (.required text_orderless <| .omitted flag_orderless <| .omitted flag_orderless <| .written Transform.orderless .nil)

theorem Animation.orderless : Orderless codec.decode :=
  Record.orderless (by decide)
    (.required text_orderless <| .required (list_orderless Frame.orderless) <| .written word_orderless <|
      .written flag_orderless <| .omitted flag_orderless <| .omitted flag_orderless .nil)

theorem SpriteInfo.orderless : Orderless codec.decode :=
  Record.orderless (by decide)
    (.written double_orderless <| .written double_orderless <| .maybe text_orderless <|
      .omitted (list_orderless Animation.orderless) <| .written Body.orderless <| .maybe text_orderless .nil)

theorem Sprite.orderless : Orderless record.decode :=
  Record.orderless (by decide)
    (.required ObjectInfo.orderless <| .required Texture.orderless <| .written SpriteInfo.orderless .nil)

theorem Button.orderless : Orderless record.decode :=
  Record.orderless (by decide)
    (.required ObjectInfo.orderless <| .required Texture.orderless <| .maybe text_orderless <| .maybe text_orderless <|
      .maybe Frame.orderless <| .maybe Frame.orderless <| .maybe Frame.orderless <| .written SpriteInfo.orderless .nil)

theorem TileSprite.orderless : Orderless record.decode :=
  Record.orderless (by decide)
    (.required ObjectInfo.orderless <| .required Texture.orderless <| .required double_orderless <|
      .required double_orderless <| .written double_orderless <| .written double_orderless <|
      .written double_orderless <| .written double_orderless <| .written SpriteInfo.orderless .nil)

theorem BitmapText.orderless : Orderless record.decode :=
  Record.orderless (by decide)
    (.required ObjectInfo.orderless <| .required text_orderless <| .written text_orderless <| .written double_orderless <|
      .written text_orderless <| .written double_orderless <| .written SpriteInfo.orderless .nil)

theorem GroupPhysics.orderless : Orderless record.codec.decode :=
  Record.orderless (by decide)
    (.written flag_orderless <| .written (names_orderless _ _) <| .written (names_orderless _ _) .nil)

namespace SceneObject

theorem taggedWith_orderless {c : Codec SceneObject} (h : Orderless c.decode) : Orderless (taggedWith c).decode := by
  have hnames : ((Group.recordWith c).fields.map (·.name)).Nodup := show ["info", "children", "physics"].Nodup by decide
  have hgroup : Orderless (Group.recordWith c).decode :=
    Record.orderless hnames
      (.required ObjectInfo.orderless <| .written (list_orderless h) <| .written GroupPhysics.orderless .nil)
  refine Tagged.orderless (List.forall_mem_cons.mpr ⟨Variant.ofRecord_orderless hgroup, ?_⟩)
  refine List.forall_mem_cons.mpr ⟨Variant.ofRecord_orderless Sprite.orderless, ?_⟩
  refine List.forall_mem_cons.mpr ⟨Variant.ofRecord_orderless Sprite.orderless, ?_⟩
  refine List.forall_mem_cons.mpr ⟨Variant.ofRecord_orderless Sprite.orderless, ?_⟩
  refine List.forall_mem_cons.mpr ⟨Variant.ofRecord_orderless Button.orderless, ?_⟩
  refine List.forall_mem_cons.mpr ⟨Variant.ofRecord_orderless TileSprite.orderless, ?_⟩
  exact List.forall_mem_singleton.mpr (Variant.ofRecord_orderless BitmapText.orderless)

theorem codecTo_orderless (n : Nat) : Orderless (codecTo n).decode := by
  induction n with
  | zero =>
    constructor
    · intro p j j' o _ hread
      cases hread
    · intro room j o hread
      cases hread
  | succ n ih => exact taggedWith_orderless ih

theorem orderless : Orderless codec.decode := codecTo_orderless Json.nestingLimit

end SceneObject

theorem Settings.orderless : Orderless codec.decode :=
  Record.orderless (by decide)
    (.required text_orderless <| .written (names_orderless _ _) <| .maybe Texture.orderless <| .maybe text_orderless <|
      .maybe (names_orderless _ _) <| .omitted (list_orderless text_orderless) <| .written text_orderless .nil)

/-- A scene may have the members of all its objects in any order. -/
theorem Model.orderless : Orderless codec.decode :=
  Record.orderless (by decide) (.required Settings.orderless <| .written (list_orderless SceneObject.orderless) .nil)

end SceneScript
