/-
  SceneScript.Proofs.ContainerReading — how a container is read through the readers of its parts.

  A list is read element by element (`Codec.list_eq_ok_iff`); so is a record that is written
  as an array, field by field (`Record.decode_array_eq_ok_iff`). Hence a container that is
  changed in its parts is read as before if each reader makes of the new part what it, or
  another reader in its place, made of the old one (`Record.decode_object_follows`,
  `Record.decode_array_follows`).
-/
import SceneScript.Proofs.RecordMembers
import SceneScript.Proofs.TaggedContent

namespace SceneScript

/-! ## One part in the place of another -/

theorem forall₂_replace {α β : Type} {R : α → β → Prop} {front back : List α} {x x' : α} {ys : List β}
    (h : List.Forall₂ R (front ++ x :: back) ys) (hx : ∀ y, R x y → R x' y) : List.Forall₂ R (front ++ x' :: back) ys := by
  induction front generalizing ys with
  | nil =>
    cases h with
    | cons hhead htail => exact .cons (hx _ hhead) htail
  | cons z front ih =>
    cases h with
    | cons hhead htail => exact .cons hhead (ih htail)

namespace Json

variable {front back : List (Json × Json)} {name : String} {k v w : Json}

theorem valuesOf_replace_of_ne (h : k ≠ .text name) (front back : List (Json × Json)) (v v' : Json) :
    valuesOf name (front ++ (k, v') :: back) = valuesOf name (front ++ (k, v) :: back) := by
  have hrest : ∀ v, valuesOf name ((k, v) :: back) = valuesOf name back := by
    intro v
    cases k with
    | text key => exact valuesOf_cons_of_ne (fun heq => h (by rw [heq])) v back
    | _ => rfl
  rw [valuesOf_append, valuesOf_append, hrest, hrest]

/-- The only value of a key is replaced with the member. -/
theorem valuesOf_replace (h : valuesOf name (front ++ (.text name, v) :: back) = [w]) (v' : Json) :
    w = v ∧ valuesOf name (front ++ (.text name, v') :: back) = [v'] := by
  rw [valuesOf_append, valuesOf_cons_self] at h ⊢
  obtain ⟨hfront, hrest⟩ : valuesOf name front = [] ∧ v :: valuesOf name back = [w] := by
    cases hvalues : valuesOf name front with
    | nil => exact ⟨rfl, by simpa [hvalues] using h⟩
    | cons first rest => simp [hvalues] at h
  obtain ⟨rfl, hback⟩ := List.cons.inj hrest
  exact ⟨rfl, by rw [hfront, hback]; rfl⟩

end Json

/-! ## Lists -/

theorem mapM_eq_ok_iff {α β ε : Type} {f : α → Except ε β} {xs : List α} {ys : List β} :
    xs.mapM f = .ok ys ↔ List.Forall₂ (fun x y => f x = .ok y) xs ys := by
  induction xs generalizing ys with
  | nil =>
    constructor
    · intro h
      obtain rfl := Except.ok.inj h
      exact .nil
    · rintro ⟨⟩
      rfl
  | cons x xs ih =>
    simp only [List.mapM_cons, bind_eq_ok_iff, List.forall₂_cons_left_iff, ih]
    constructor
    · rintro ⟨y, hy, ys', hys, h⟩
      exact ⟨y, ys', hy, hys, (Except.ok.inj h).symm⟩
    · rintro ⟨y, ys', hy, hys, rfl⟩
      exact ⟨y, hy, ys', hys, rfl⟩

theorem Codec.list_eq_ok_iff {α : Type} {c : Codec α} {p : Place} {j : Json} {values : List α} :
    c.list.decode p j = .ok values
      ↔ ∃ items q, j = .array items .closed ∧ p.enter = .ok q ∧
        List.Forall₂ (fun item value => c.decode q item = .ok value) items values := by
  cases j with
  | array items close =>
    have hdecode : c.list.decode p (.array items close)
        = p.enter >>= fun q => items.mapM (c.decode q) >>= fun values =>
            ReadError.check close.fault? >>= fun _ => .ok values := rfl
    simp only [hdecode, bind_eq_ok_iff, mapM_eq_ok_iff, Except.ok.injEq]
    constructor
    · rintro ⟨q, hq, values, hvalues, _, hclose, rfl⟩
      obtain rfl := Record.check_eq_ok_iff.mp hclose
      exact ⟨items, q, rfl, hq, hvalues⟩
    · rintro ⟨items, q, hitems, hq, hvalues⟩
      obtain ⟨rfl, rfl⟩ := Json.array.inj hitems
      exact ⟨q, hq, values, hvalues, (), rfl, rfl⟩
  | _ =>
    refine iff_of_false (Json.mismatch_ne_ok _ _) ?_
    rintro ⟨items, q, hitems, -⟩
    cases hitems

namespace Record

variable {ρ : Type} {record record' : Record ρ} {p q : Place} {r : ρ}

/-! ## Records as arrays -/

/-- The slots of an array that reads as a record: each element is for the field at its place, and fields past the last one
    must do without. -/
inductive ReadsItems (q : Place) : List (Field ρ) → List Json → Slots ρ → Prop
  | nil : ReadsItems q [] [] []
  | cons {f : Field ρ} {fs : List (Field ρ)} {j : Json} {js : List Json} {change : ρ → ρ} {slots : Slots ρ} :
      f.decode q j = .ok change → ReadsItems q fs js slots → ReadsItems q (f :: fs) (j :: js) (some change :: slots)
  | rest {f : Field ρ} {fs : List (Field ρ)} {slots : Slots ρ} : f.isRequired = false → ReadsItems q fs [] slots →
      ReadsItems q (f :: fs) [] (none :: slots)

theorem ReadsItems.complete {fields : List (Field ρ)} {items : List Json} {slots : Slots ρ}
    (h : ReadsItems q fields items slots) :
    List.Forall₂ (fun f slot => f.isRequired = true → slot.isSome = true) fields slots := by
  induction h with
  | nil => exact .nil
  | cons _ _ ih => exact .cons (fun _ => rfl) ih
  | rest hoptional _ ih => exact .cons (fun hrequired => by simp [hoptional] at hrequired) ih

theorem refuseMore_ne_ok {count more : Nat} : refuseMore q count more ≠ .ok () := by
  cases q <;> nofun

theorem readItems_eq_ok_iff {title : String} {count index : Nat} {fields : List (Field ρ)} {items : List Json}
    {close : Close} {slots : Slots ρ} :
    readItems title count q index fields items close = .ok slots
      ↔ close = .closed ∧ ReadsItems q fields items slots := by
  have hend : ReadError.check close.endFault? = .ok () ↔ close = .closed := by
    cases close with
    | closed => exact iff_of_true rfl rfl
    | broken afterComma fault => cases afterComma <;> exact iff_of_false nofun nofun
  induction fields generalizing index items slots with
  | nil =>
    cases items with
    | nil =>
      simp only [readItems, bind_eq_ok_iff, Except.ok.injEq]
      constructor
      · rintro ⟨_, hclose, rfl⟩
        exact ⟨hend.mp hclose, .nil⟩
      · rintro ⟨hclose, ⟨⟩⟩
        exact ⟨(), hend.mpr hclose, rfl⟩
    | cons j js =>
      simp only [readItems, bind_eq_ok_iff]
      refine iff_of_false ?_ (by rintro ⟨-, ⟨⟩⟩)
      rintro ⟨_, hmore, -⟩
      exact refuseMore_ne_ok hmore
  | cons f fs ih =>
    cases items with
    | nil =>
      simp only [readItems, bind_eq_ok_iff]
      cases hrequired : f.isRequired with
      | true =>
        refine iff_of_false ?_ ?_
        · rintro ⟨_, -, h⟩
          cases h
        · rintro ⟨-, hrest⟩
          cases hrest with
          | rest hoptional => simp [hoptional] at hrequired
      | false =>
        simp only [Bool.false_eq_true, if_false, bind_eq_ok_iff, ih, Except.ok.injEq]
        constructor
        · rintro ⟨_, -, slots, ⟨hclose, hslots⟩, rfl⟩
          exact ⟨hclose, .rest hrequired hslots⟩
        · rintro ⟨rfl, hrest⟩
          cases hrest with
          | rest _ hslots => exact ⟨(), rfl, _, ⟨rfl, hslots⟩, rfl⟩
    | cons j js =>
      simp only [readItems, bind_eq_ok_iff, ih, Except.ok.injEq]
      constructor
      · rintro ⟨change, hchange, slots, ⟨hclose, hslots⟩, rfl⟩
        exact ⟨hclose, .cons hchange hslots⟩
      · rintro ⟨hclose, hitems⟩
        cases hitems with
        | cons hchange hslots => exact ⟨_, hchange, _, ⟨hclose, hslots⟩, rfl⟩

/-- An array reads as a record if each element does for its field, and the values are put into the blank record. -/
theorem decode_array_eq_ok_iff {items : List Json} {close : Close} :
    record.decode p (.array items close) = .ok r
      ↔ close = .closed ∧ ∃ q slots, p.enter = .ok q ∧ ReadsItems q record.fields items slots ∧
        r = applyAll slots record.blank := by
  have hdecode : record.decode p (.array items close)
      = p.enter >>= fun q => readItems record.title record.fields.length q 0 record.fields items close >>= fun slots =>
          fill record.fields slots record.blank := rfl
  simp only [hdecode, bind_eq_ok_iff, readItems_eq_ok_iff]
  constructor
  · rintro ⟨q, hq, slots, ⟨rfl, hslots⟩, hfill⟩
    have hlength := hslots.complete.length_eq
    exact ⟨rfl, q, slots, hq, hslots, ((fill_eq_ok_iff hlength.symm).mp hfill).2⟩
  · rintro ⟨rfl, q, slots, hq, hslots, rfl⟩
    exact ⟨q, hq, slots, ⟨rfl, hslots⟩, (fill_eq_ok_iff hslots.complete.length_eq.symm).mpr ⟨hslots.complete, rfl⟩⟩

/-! ## Changed parts -/

/-- A field in the place of another: it is asked for in the same way, and what the other finds among the members, it finds
    among the new ones. -/
structure Follows (q : Place) (members members' : List (Json × Json)) (f f' : Field ρ) : Prop where
  required : f.isRequired = f'.isRequired
  fills : ∀ slot, Fills q members f none slot → Fills q members' f' none slot

/-- It finds the same if it reads the same change from the value that is now there. -/
theorem Follows.of_values {members members' : List (Json × Json)} {f f' : Field ρ}
    (hrequired : f.isRequired = f'.isRequired)
    (hnone : Json.valuesOf f.name members = [] → Json.valuesOf f'.name members' = [])
    (hvalue : ∀ v change, Json.valuesOf f.name members = [v] → f.decode q v = .ok change →
      ∃ v', Json.valuesOf f'.name members' = [v'] ∧ f'.decode q v' = .ok change) : Follows q members members' f f' where
  required := hrequired
  fills slot hslot := by
    cases hslot with
    | untouched hvalues => exact .untouched (hnone hvalues)
    | given hvalues hdecode =>
      obtain ⟨v', hvalues', hdecode'⟩ := hvalue _ _ hvalues hdecode
      exact .given hvalues' hdecode'

/-- It sees what is done to its own member, and to no other. -/
theorem Follows.replace {f : Field ρ} {front back : List (Json × Json)} {k v v' : Json}
    (h : k = .text f.name → ∀ change, f.decode q v = .ok change → f.decode q v' = .ok change) :
    Follows q (front ++ (k, v) :: back) (front ++ (k, v') :: back) f f := by
  by_cases hk : k = .text f.name
  · subst hk
    refine .of_values rfl (fun hnone => ?_) fun w change hvalue hdecode => ?_
    · simp [Json.valuesOf_append, Json.valuesOf_cons_self] at hnone
    · obtain ⟨rfl, hvalue'⟩ := Json.valuesOf_replace hvalue v'
      exact ⟨v', hvalue', h rfl change hdecode⟩
  · have hvalues := Json.valuesOf_replace_of_ne hk front back v v'
    exact .of_values rfl (fun hnone => hvalues.trans hnone) fun w change hvalue hdecode => ⟨w, hvalues.trans hvalue, hdecode⟩

/-- An element is for the field at its place. -/
theorem ReadsItems.replace {fields : List (Field ρ)} {front back : List Json} {j j' : Json} {slots : Slots ρ}
    (hj : ∀ f, fields[front.length]? = some f → ∀ change, f.decode q j = .ok change → f.decode q j' = .ok change)
    (h : ReadsItems q fields (front ++ j :: back) slots) : ReadsItems q fields (front ++ j' :: back) slots := by
  induction front generalizing fields slots with
  | nil =>
    cases h with
    | cons hdecode hrest => exact .cons (hj _ rfl _ hdecode) hrest
  | cons i front ih =>
    cases h with
    | cons hdecode hrest => exact .cons hdecode (ih (fun f hf => hj f hf) hrest)

theorem forall₂_follows {members members' : List (Json × Json)} {fields fields' : List (Field ρ)} {slots : Slots ρ}
    (hfields : List.Forall₂ (Follows q members members') fields fields')
    (hfound : List.Forall₂ (fun f slot => Fills q members f none slot ∧ (f.isRequired = true → slot.isSome = true))
      fields slots) :
    List.Forall₂ (fun f slot => Fills q members' f none slot ∧ (f.isRequired = true → slot.isSome = true))
      fields' slots := by
  induction hfields generalizing slots with
  | nil =>
    cases hfound
    exact .nil
  | cons hf _ ih =>
    cases hfound with
    | cons hslot hslots =>
      exact .cons ⟨hf.fills _ hslot.1, fun hrequired => hslot.2 (hf.required.trans hrequired)⟩ (ih hslots)

/-- An object whose members are changed reads as the same record if every field finds the same. -/
theorem decode_object_follows (hn : (record.fields.map (·.name)).Nodup) (hn' : (record'.fields.map (·.name)).Nodup)
    (hblank : record.blank = record'.blank) {members members' : List (Json × Json)} {close : Close}
    (hadmits : ∀ q, p.enter = .ok q → (∀ m ∈ members, Admits record.fields q m) →
      ∀ m ∈ members', Admits record'.fields q m)
    (hfields : ∀ q, p.enter = .ok q → List.Forall₂ (Follows q members members') record.fields record'.fields)
    (h : record.decode p (.object members close) = .ok r) : record'.decode p (.object members' close) = .ok r := by
  obtain ⟨rfl, q, slots, hq, hreads, rfl⟩ := (decode_object_eq_ok_iff hn).mp h
  refine (decode_object_eq_ok_iff hn').mpr ⟨rfl, q, slots, hq, ?_, by rw [hblank]⟩
  exact ⟨hadmits q hq hreads.admits, forall₂_follows (hfields q hq) hreads.found⟩

/-- So does an array whose elements are changed, if each field reads the same from its element. -/
theorem decode_array_follows (hblank : record.blank = record'.blank) {items items' : List Json} {close : Close}
    (hitems : ∀ q slots, p.enter = .ok q → ReadsItems q record.fields items slots →
      ReadsItems q record'.fields items' slots)
    (h : record.decode p (.array items close) = .ok r) : record'.decode p (.array items' close) = .ok r := by
  obtain ⟨rfl, q, slots, hq, hslots, rfl⟩ := decode_array_eq_ok_iff.mp h
  exact decode_array_eq_ok_iff.mpr ⟨rfl, q, slots, hq, hitems q slots hq hslots, by rw [hblank]⟩

end Record

end SceneScript
