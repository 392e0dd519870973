/-
  SceneScript.Proofs.RecordMembers — which objects read as a record, and as which one.

  An object is read member by member, and each value is kept in the slot of the field that
  its key names. What is in a slot at the end depends on the values of that key alone
  (`Record.Fills`): there must be none, or one that the field accepts. A member that no
  field takes only has to be one that can be passed over (`Record.Admits`). That these
  conditions decide the reading is `Record.readMembers_eq_ok_iff`; nothing in them depends
  on where a member stands.

  The record is the blank one with the changes in the slots made in the order of the
  fields (`Record.decode_object_eq_ok_iff`).
-/
import Mathlib.Data.List.Forall2
import Mathlib.Data.List.Nodup
import SceneScript.Json.Record

namespace SceneScript

/-! ## Lists side by side -/

section Lists

variable {α β : Type} {R S : α → β → Prop} {l : List α} {u : List β}

theorem forall₂_and (hr : List.Forall₂ R l u) (hs : List.Forall₂ S l u) : List.Forall₂ (fun a b => R a b ∧ S a b) l u := by
  induction hr with
  | nil => exact .nil
  | cons hab _ ih =>
    cases hs with
    | cons hab' hrest => exact .cons ⟨hab, hab'⟩ (ih hrest)

theorem exists_mem_of_forall₂ (h : List.Forall₂ R l u) {a : α} (ha : a ∈ l) : ∃ b ∈ u, R a b := by
  induction h with
  | nil => cases ha
  | cons hab _ ih =>
    rcases List.mem_cons.mp ha with rfl | ha
    · exact ⟨_, List.mem_cons_self, hab⟩
    · obtain ⟨b, hb, hab⟩ := ih ha
      exact ⟨b, List.mem_cons_of_mem _ hb, hab⟩

theorem exists_forall₂_iff : (∃ u, List.Forall₂ R l u) ↔ ∀ a ∈ l, ∃ b, R a b := by
  induction l with
  | nil => exact ⟨fun _ => nofun, fun _ => ⟨[], .nil⟩⟩
  | cons a l ih =>
    rw [List.forall_mem_cons, ← ih]
    constructor
    · rintro ⟨u, h⟩
      obtain ⟨b, rest, hab, hrest, -⟩ := List.forall₂_cons_left_iff.mp h
      exact ⟨⟨b, hab⟩, rest, hrest⟩
    · rintro ⟨⟨b, hab⟩, u, hrest⟩
      exact ⟨b :: u, .cons hab hrest⟩

end Lists

/-! ## Steps of a reading -/

/-- Two steps succeed if the first does and the second does with its result. -/
theorem bind_eq_ok_iff {ε α β : Type} {x : Except ε α} {next : α → Except ε β} {b : β} :
    x >>= next = .ok b ↔ ∃ a, x = .ok a ∧ next a = .ok b := by
  cases x with
  | error e =>
    constructor
    · intro h
      cases h
    · rintro ⟨a, ha, -⟩
      cases ha
  | ok a =>
    constructor
    · exact fun h => ⟨a, rfl, h⟩
    · rintro ⟨a', ha, h⟩
      obtain rfl := Except.ok.inj ha
      exact h

theorem map_eq_ok_iff {ε α β : Type} {x : Except ε α} {g : α → β} {b : β} :
    x.map g = .ok b ↔ ∃ a, x = .ok a ∧ g a = b := by
  cases x <;> simp [Except.map]

/-- What is read for a field is a value that is put into the record. What is left out in writing plays no part. -/
theorem Field.omitted_eq_ok_iff {ρ α : Type} {name : String} {c : Codec α} {get : ρ → α} {set : ρ → α → ρ}
    {omits : α → Bool} {q : Place} {v : Json} {change : ρ → ρ} :
    (Field.omitted name c get set omits).decode q v = .ok change
      ↔ ∃ value, c.decode q v = .ok value ∧ change = fun r => set r value := by
  rw [omitted, bind_eq_ok_iff]
  exact exists_congr fun value => and_congr_right fun _ => by rw [Except.ok.injEq, eq_comm]

/-! ## Values of a key -/

namespace Json

/-- The value of a member of this name. -/
def valueOf? (name : String) (member : Json × Json) : Option Json :=
  match member.1 with
  | .text key => if key = name then some member.2 else none
  | _ => none

/-- The values that the members give to a key. -/
def valuesOf (name : String) (members : List (Json × Json)) : List Json := members.filterMap (valueOf? name)

theorem valuesOf_append (name : String) (front back : List (Json × Json)) :
    valuesOf name (front ++ back) = valuesOf name front ++ valuesOf name back := List.filterMap_append

theorem valuesOf_cons_self (name : String) (v : Json) (rest : List (Json × Json)) :
    valuesOf name ((.text name, v) :: rest) = v :: valuesOf name rest := by
  simp [valuesOf, valueOf?]

theorem valuesOf_cons_of_ne {name key : String} (h : key ≠ name) (v : Json) (rest : List (Json × Json)) :
    valuesOf name ((.text key, v) :: rest) = valuesOf name rest := by
  simp [valuesOf, valueOf?, h]

theorem mem_valuesOf_iff {name : String} {v : Json} {members : List (Json × Json)} :
    v ∈ valuesOf name members ↔ (.text name, v) ∈ members := by
  simp only [valuesOf, List.mem_filterMap]
  constructor
  · rintro ⟨⟨k, v'⟩, hm, hvalue⟩
    cases k with
    | text key =>
      obtain ⟨rfl, rfl⟩ : key = name ∧ v' = v := by simpa [valueOf?] using hvalue
      exact hm
    | _ => cases hvalue
  · exact fun hm => ⟨_, hm, by simp [valueOf?]⟩

theorem valuesOf_insert_self {name : String} {front back : List (Json × Json)} (h : valuesOf name (front ++ back) = [])
    (v : Json) : valuesOf name (front ++ (.text name, v) :: back) = [v] := by
  rw [valuesOf_append, List.append_eq_nil_iff] at h
  rw [valuesOf_append, valuesOf_cons_self, h.1, h.2]
  rfl

theorem valuesOf_insert_of_ne {name key : String} (h : key ≠ name) (front back : List (Json × Json)) (v : Json) :
    valuesOf name (front ++ (.text key, v) :: back) = valuesOf name (front ++ back) := by
  rw [valuesOf_append, valuesOf_append, valuesOf_cons_of_ne h]

end Json

namespace Record

variable {ρ : Type} {p : Place} {members rest : List (Json × Json)} {f : Field ρ} {fields : List (Field ρ)}
  {slot slot' : Option (ρ → ρ)} {slots slots' : Slots ρ} {name : String} {v : Json}

/-! ## Slots -/

/-- What the members make of the slot of a field: it stays if they give its key no value, and an empty one takes the only
    value that they give. -/
inductive Fills (p : Place) (members : List (Json × Json)) (f : Field ρ) :
    Option (ρ → ρ) → Option (ρ → ρ) → Prop
  | untouched {slot : Option (ρ → ρ)} : Json.valuesOf f.name members = [] → Fills p members f slot slot
  | given {v : Json} {change : ρ → ρ} : Json.valuesOf f.name members = [v] → f.decode p v = .ok change →
      Fills p members f none (some change)

theorem fills_congr {others : List (Json × Json)} (h : Json.valuesOf f.name members = Json.valuesOf f.name others) :
    Fills p members f slot slot' ↔ Fills p others f slot slot' := by
  constructor
  · rintro (hvalues | ⟨hvalues, hdecode⟩)
    · exact .untouched (h ▸ hvalues)
    · exact .given (h ▸ hvalues) hdecode
  · rintro (hvalues | ⟨hvalues, hdecode⟩)
    · exact .untouched (h.symm ▸ hvalues)
    · exact .given (h.symm ▸ hvalues) hdecode

theorem fills_cons_of_ne (h : name ≠ f.name) :
    Fills p ((.text name, v) :: rest) f slot slot' ↔ Fills p rest f slot slot' :=
  fills_congr (Json.valuesOf_cons_of_ne h v rest)

/-- A slot that is full refuses another value. -/
theorem not_fills_cons_some {change : ρ → ρ} : ¬ Fills p ((.text f.name, v) :: rest) f (some change) slot' := by
  rintro (hvalues | _)
  rw [Json.valuesOf_cons_self] at hvalues
  cases hvalues

theorem fills_cons_none :
    Fills p ((.text f.name, v) :: rest) f none slot'
      ↔ ∃ change, f.decode p v = .ok change ∧ Fills p rest f (some change) slot' := by
  constructor
  · rintro (hvalues | ⟨hvalues, hdecode⟩)
    · rw [Json.valuesOf_cons_self] at hvalues
      cases hvalues
    · rw [Json.valuesOf_cons_self] at hvalues
      obtain ⟨rfl, hrest⟩ := List.cons.inj hvalues
      exact ⟨_, hdecode, .untouched hrest⟩
  · rintro ⟨change, hdecode, hrest⟩
    cases hrest with
    | untouched hvalues => exact .given (by rw [Json.valuesOf_cons_self, hvalues]) hdecode

theorem fills_nil : Fills p [] f slot slot' ↔ slot = slot' := by
  constructor
  · rintro (_ | ⟨hvalues, -⟩)
    · rfl
    · cases hvalues
  · rintro rfl
    exact .untouched rfl

/-- The same for the slots of all fields. -/
inductive FillsAll (p : Place) (members : List (Json × Json)) : List (Field ρ) → Slots ρ → Slots ρ → Prop
  | nil : FillsAll p members [] [] []
  | cons {f : Field ρ} {fs : List (Field ρ)} {slot slot' : Option (ρ → ρ)} {slots slots' : Slots ρ} :
      Fills p members f slot slot' → FillsAll p members fs slots slots' →
      FillsAll p members (f :: fs) (slot :: slots) (slot' :: slots')

theorem fillsAll_cons_iff {fs : List (Field ρ)} :
    FillsAll p members (f :: fs) (slot :: slots) slots'
      ↔ ∃ slot' rest', slots' = slot' :: rest' ∧ Fills p members f slot slot' ∧ FillsAll p members fs slots rest' := by
  constructor
  · rintro (_ | ⟨hslot, hslots⟩)
    exact ⟨_, _, rfl, hslot, hslots⟩
  · rintro ⟨slot', rest', rfl, hslot, hslots⟩
    exact .cons hslot hslots

theorem fillsAll_congr {others : List (Json × Json)}
    (h : ∀ f ∈ fields, Json.valuesOf f.name members = Json.valuesOf f.name others) :
    FillsAll p members fields slots slots' ↔ FillsAll p others fields slots slots' := by
  induction fields generalizing slots slots' with
  | nil => exact ⟨fun | .nil => .nil, fun | .nil => .nil⟩
  | cons f fs ih =>
    obtain ⟨hf, hfs⟩ := List.forall_mem_cons.mp h
    cases slots with
    | nil => exact ⟨nofun, nofun⟩
    | cons slot slots => simp only [fillsAll_cons_iff, fills_congr hf, ih hfs]

theorem fillsAll_nil (hlength : slots.length = fields.length) : FillsAll p [] fields slots slots' ↔ slots = slots' := by
  induction fields generalizing slots slots' with
  | nil =>
    obtain rfl := List.length_eq_zero_iff.mp hlength
    exact ⟨fun | .nil => rfl, fun h => h ▸ .nil⟩
  | cons f fs ih =>
    cases slots with
    | nil => cases hlength
    | cons slot slots =>
      simp only [fillsAll_cons_iff, fills_nil, ih (Nat.succ.inj hlength)]
      constructor
      · rintro ⟨slot', rest', rfl, rfl, rfl⟩
        rfl
      · rintro rfl
        exact ⟨_, _, rfl, rfl, rfl⟩

section Put

variable {fs : List (Field ρ)}

theorem put?_of_ne (h : f.name ≠ name) :
    put? p name v (f :: fs) (slot :: slots) = (put? p name v fs slots).map fun rest => rest.map (slot :: ·) :=
  if_neg h

theorem put?_full {change : ρ → ρ} :
    put? p f.name v (f :: fs) (some change :: slots) = some (refuse (.duplicateField f.name)) :=
  if_pos rfl

theorem put?_empty :
    put? p f.name v (f :: fs) (none :: slots) = some (do
      let change ← f.decode p v
      .ok (some change :: slots)) :=
  if_pos rfl

end Put

/-- A value that no field takes. -/
theorem put?_eq_none_iff (hlength : slots.length = fields.length) :
    put? p name v fields slots = none ↔ name ∉ fields.map (·.name) := by
  induction fields generalizing slots with
  | nil => simp [put?]
  | cons f fs ih =>
    cases slots with
    | nil => cases hlength
    | cons slot slots =>
      by_cases hname : f.name = name
      · subst hname
        cases slot <;> simp [put?_full, put?_empty]
      · rw [put?_of_ne hname, Option.map_eq_none_iff, ih (Nat.succ.inj hlength)]
        simp [Ne.symm hname]

/-- The first member fills the slot of its field, if that is empty and the field takes the value. -/
theorem fillsAll_put?_head {fs : List (Field ρ)} (hnew : f.name ∉ fs.map (·.name)) {result : Except ReadError (Slots ρ)}
    (h : put? p f.name v (f :: fs) (slot :: slots) = some result) :
    FillsAll p ((.text f.name, v) :: rest) (f :: fs) (slot :: slots) slots'
      ↔ ∃ slots₁, result = .ok slots₁ ∧ FillsAll p rest (f :: fs) slots₁ slots' := by
  have hothers : ∀ g ∈ fs, Json.valuesOf g.name ((.text f.name, v) :: rest) = Json.valuesOf g.name rest :=
    fun g hg => Json.valuesOf_cons_of_ne (fun heq => hnew (List.mem_map.mpr ⟨g, hg, heq.symm⟩)) v rest
  rw [fillsAll_cons_iff]
  cases slot with
  | some change =>
    obtain rfl := Option.some.inj (put?_full.symm.trans h)
    constructor
    · rintro ⟨slot', rest', -, hslot, -⟩
      exact absurd hslot not_fills_cons_some
    · rintro ⟨slots₁, hrefused, -⟩
      cases hrefused
  | none =>
    obtain rfl := Option.some.inj (put?_empty.symm.trans h)
    simp only [bind_eq_ok_iff, fills_cons_none, fillsAll_congr hothers]
    constructor
    · rintro ⟨slot', rest', rfl, ⟨change, hdecode, hslot⟩, hslots⟩
      exact ⟨_, ⟨change, hdecode, rfl⟩, .cons hslot hslots⟩
    · rintro ⟨slots₁, ⟨change, hdecode, hslots₁⟩, hslots⟩
      obtain rfl := Except.ok.inj hslots₁
      obtain ⟨slot', rest', rfl, hslot, hslots⟩ := fillsAll_cons_iff.mp hslots
      exact ⟨slot', rest', rfl, ⟨change, hdecode, hslot⟩, hslots⟩

/-- The first member fills its slot, and the others go on from there. -/
theorem fillsAll_put? (hn : (fields.map (·.name)).Nodup) {result : Except ReadError (Slots ρ)}
    (h : put? p name v fields slots = some result) :
    FillsAll p ((.text name, v) :: rest) fields slots slots'
      ↔ ∃ slots₁, result = .ok slots₁ ∧ FillsAll p rest fields slots₁ slots' := by
  induction fields generalizing slots slots' result with
  | nil => cases slots <;> cases h
  | cons f fs ih =>
    obtain ⟨hnew, hn⟩ := List.nodup_cons.mp hn
    cases slots with
    | nil => cases h
    | cons slot slots =>
      by_cases hname : f.name = name
      · subst hname
        exact fillsAll_put?_head hnew h
      · rw [put?_of_ne hname] at h
        obtain ⟨tail, hput, rfl⟩ := Option.map_eq_some_iff.mp h
        simp only [fillsAll_cons_iff, fills_cons_of_ne (Ne.symm hname), ih hn hput, map_eq_ok_iff]
        constructor
        · rintro ⟨slot', rest', rfl, hslot, slots₁, rfl, hslots⟩
          exact ⟨_, ⟨slots₁, rfl, rfl⟩, fillsAll_cons_iff.mpr ⟨slot', rest', rfl, hslot, hslots⟩⟩
        · rintro ⟨_, ⟨slots₁, rfl, rfl⟩, hslots⟩
          obtain ⟨slot', rest', rfl, hslot, hslots⟩ := fillsAll_cons_iff.mp hslots
          exact ⟨slot', rest', rfl, hslot, slots₁, rfl, hslots⟩

theorem length_of_put? (h : put? p name v fields slots = some (.ok slots')) : slots'.length = slots.length := by
  induction fields generalizing slots slots' with
  | nil => cases slots <;> cases h
  | cons f fs ih =>
    cases slots with
    | nil => cases h
    | cons slot slots =>
      by_cases hname : f.name = name
      · subst hname
        cases slot with
        | some change =>
          rw [put?_full] at h
          cases h
        | none =>
          rw [put?_empty] at h
          obtain ⟨change, -, hslots⟩ := bind_eq_ok_iff.mp (Option.some.inj h)
          obtain rfl := Except.ok.inj hslots
          rfl
      · rw [put?_of_ne hname] at h
        obtain ⟨result, hput, hresult⟩ := Option.map_eq_some_iff.mp h
        obtain ⟨tail, rfl, rfl⟩ := map_eq_ok_iff.mp hresult
        rw [List.length_cons, List.length_cons, ih hput]

/-! ## Members -/

/-- A member may stand in the object: its key is a text, and its value can be passed over if no field has that name. -/
def Admits (fields : List (Field ρ)) (p : Place) (member : Json × Json) : Prop :=
  ∃ name, member.1 = .text name ∧ (name ∉ fields.map (·.name) → p.pass member.2 = .ok ())

theorem admits_of_mem (h : name ∈ fields.map (·.name)) : Admits fields p (.text name, v) :=
  ⟨name, rfl, fun hunknown => absurd h hunknown⟩

theorem admits_iff_pass (h : name ∉ fields.map (·.name)) : Admits fields p (.text name, v) ↔ p.pass v = .ok () := by
  constructor
  · rintro ⟨key, hkey, hpass⟩
    obtain rfl := Json.text.inj hkey
    exact hpass h
  · exact fun hpass => ⟨name, rfl, fun _ => hpass⟩

/-- A member with a name goes into the slot of its field, or is passed over. -/
theorem readMembers_text (name : String) :
    readMembers fields p ((.text name, v) :: rest) slots
      = (put? p name v fields slots).elim (p.pass v >>= fun _ => readMembers fields p rest slots)
        fun result => result >>= fun slots₁ => readMembers fields p rest slots₁ := by
  have hkey : (Json.text name).key = .ok name := rfl
  simp only [readMembers, hkey, bind, Except.bind]
  cases put? p name v fields slots <;> rfl

/-- A member without a name is refused. -/
theorem readMembers_ne_ok {k : Json} (hkey : ∀ name, k ≠ .text name) :
    readMembers fields p ((k, v) :: rest) slots ≠ .ok slots' := by
  have hrefused : readMembers fields p ((k, v) :: rest) slots = .error (.form ((Json.keyReadFault k).getD .malformed)) := by
    cases k with
    | text name => exact absurd rfl (hkey name)
    | _ => rfl
  rw [hrefused]
  intro h
  cases h

theorem readMembers_eq_ok_iff_fillsAll (hn : (fields.map (·.name)).Nodup) (hlength : slots.length = fields.length) :
    readMembers fields p members slots = .ok slots'
      ↔ (∀ m ∈ members, Admits fields p m) ∧ FillsAll p members fields slots slots' := by
  induction members generalizing slots with
  | nil => simp [readMembers, fillsAll_nil hlength]
  | cons member rest ih =>
    obtain ⟨k, v⟩ := member
    rw [List.forall_mem_cons]
    by_cases hkey : ∃ name, k = .text name
    · obtain ⟨name, rfl⟩ := hkey
      rw [readMembers_text]
      cases hput : put? p name v fields slots with
      | some result =>
        have hknown : name ∈ fields.map (·.name) := by
          by_contra hunknown
          rw [(put?_eq_none_iff hlength).mpr hunknown] at hput
          cases hput
        rw [Option.elim_some, bind_eq_ok_iff, fillsAll_put? hn hput]
        constructor
        · rintro ⟨slots₁, rfl, hread⟩
          obtain ⟨hrest, hslots⟩ := (ih ((length_of_put? hput).trans hlength)).mp hread
          exact ⟨⟨admits_of_mem hknown, hrest⟩, slots₁, rfl, hslots⟩
        · rintro ⟨⟨-, hrest⟩, slots₁, rfl, hslots⟩
          exact ⟨slots₁, rfl, (ih ((length_of_put? hput).trans hlength)).mpr ⟨hrest, hslots⟩⟩
      | none =>
        have hunknown := (put?_eq_none_iff hlength).mp hput
        have hothers : ∀ g ∈ fields, Json.valuesOf g.name ((.text name, v) :: rest) = Json.valuesOf g.name rest :=
          fun g hg => Json.valuesOf_cons_of_ne (fun heq => hunknown (List.mem_map.mpr ⟨g, hg, heq.symm⟩)) v rest
        rw [Option.elim_none, bind_eq_ok_iff, fillsAll_congr hothers, admits_iff_pass hunknown, and_assoc, ← ih hlength]
        constructor
        · rintro ⟨_, hpass, hread⟩
          exact ⟨hpass, hread⟩
        · rintro ⟨hpass, hread⟩
          exact ⟨(), hpass, hread⟩
    · refine iff_of_false (readMembers_ne_ok fun name hname => hkey ⟨name, hname⟩) ?_
      rintro ⟨⟨⟨name, hname, -⟩, -⟩, -⟩
      exact hkey ⟨name, hname⟩

/-- The slots at the end are those that the keys of the fields give, whatever the order of the members. -/
theorem readMembers_eq_ok_iff (hn : (fields.map (·.name)).Nodup) :
    readMembers fields p members (fields.map fun _ => none) = .ok slots
      ↔ (∀ m ∈ members, Admits fields p m) ∧ List.Forall₂ (fun f slot => Fills p members f none slot) fields slots := by
  rw [readMembers_eq_ok_iff_fillsAll hn (List.length_map _)]
  refine and_congr_right' ?_
  clear hn
  induction fields generalizing slots with
  | nil => exact ⟨fun | .nil => .nil, fun | .nil => .nil⟩
  | cons f fs ih =>
    rw [List.map_cons, fillsAll_cons_iff, List.forall₂_cons_left_iff]
    constructor
    · rintro ⟨slot, rest, rfl, hslot, hrest⟩
      exact ⟨slot, rest, hslot, ih.mp hrest, rfl⟩
    · rintro ⟨slot, rest, hslot, hrest, rfl⟩
      exact ⟨slot, rest, rfl, hslot, ih.mpr hrest⟩

/-! ## Changes -/

/-- Makes the change in a slot, if there is one. -/
def apply : Option (ρ → ρ) → ρ → ρ
  | none, r => r
  | some change, r => change r

/-- Makes all changes in order. -/
def applyAll (slots : Slots ρ) (r : ρ) : ρ := slots.foldl (fun r slot => apply slot r) r

theorem fill_eq_ok_iff {r r' : ρ} (hlength : slots.length = fields.length) :
    fill fields slots r = .ok r'
      ↔ List.Forall₂ (fun f slot => f.isRequired = true → slot.isSome = true) fields slots ∧ r' = applyAll slots r := by
  induction fields generalizing slots r with
  | nil =>
    obtain rfl := List.length_eq_zero_iff.mp hlength
    exact ⟨fun h => ⟨.nil, (Except.ok.inj h).symm⟩, fun ⟨_, h⟩ => h ▸ rfl⟩
  | cons f fs ih =>
    cases slots with
    | nil => cases hlength
    | cons slot slots =>
      rw [List.forall₂_cons]
      cases slot with
      | some change =>
        have hrest : fill fs slots (change r) = .ok r' ↔ _ := ih (Nat.succ.inj hlength)
        simpa [fill, applyAll, apply] using hrest
      | none =>
        cases hrequired : f.isRequired with
        | true => simp [fill, hrequired, refuse]
        | false =>
          have hrest : fill fs slots r = .ok r' ↔ _ := ih (Nat.succ.inj hlength)
          simpa [fill, hrequired, applyAll, apply] using hrest

theorem check_eq_ok_iff {close : Close} : ReadError.check close.fault? = .ok () ↔ close = .closed := by
  cases close with
  | closed => exact iff_of_true rfl rfl
  | broken afterComma fault => exact iff_of_false nofun nofun

/-- The slots of an object that reads as a record: every member may stand in it, and each field has found one value or,
    unless it is required, none. -/
structure Reads (q : Place) (members : List (Json × Json)) (fields : List (Field ρ)) (slots : Slots ρ) : Prop where
  admits : ∀ m ∈ members, Admits fields q m
  found : List.Forall₂ (fun f slot => Fills q members f none slot ∧ (f.isRequired = true → slot.isSome = true))
    fields slots

theorem Reads.fills {q : Place} (h : Reads q members fields slots) :
    List.Forall₂ (fun f slot => Fills q members f none slot) fields slots :=
  h.found.imp fun _ _ hslot => hslot.1

theorem Reads.complete {q : Place} (h : Reads q members fields slots) :
    List.Forall₂ (fun f slot => f.isRequired = true → slot.isSome = true) fields slots :=
  h.found.imp fun _ _ hslot => hslot.2

/-- A member that a field has missed may stand anywhere. -/
theorem Reads.insert {q : Place} (hn : (fields.map (·.name)).Nodup) {front back : List (Json × Json)}
    (h : Reads q (front ++ back) fields slots) (hf : f ∈ fields) (habsent : Json.valuesOf f.name (front ++ back) = [])
    {change : ρ → ρ} (hdecode : f.decode q v = .ok change) :
    ∃ slots', Reads q (front ++ (.text f.name, v) :: back) fields slots' := by
  have hadmits : ∀ m ∈ front ++ (.text f.name, v) :: back, Admits fields q m := by
    have hold := h.admits
    simp only [List.forall_mem_append, List.forall_mem_cons] at hold ⊢
    exact ⟨hold.1, admits_of_mem (List.mem_map_of_mem hf), hold.2⟩
  have hfound : ∃ slots', List.Forall₂ (fun g slot => Fills q (front ++ (.text f.name, v) :: back) g none slot ∧
      (g.isRequired = true → slot.isSome = true)) fields slots' := by
    rw [exists_forall₂_iff]
    intro g hg
    by_cases hname : f.name = g.name
    · obtain rfl : f = g := List.inj_on_of_nodup_map hn hf hg hname
      exact ⟨some change, .given (Json.valuesOf_insert_self habsent v) hdecode, fun _ => rfl⟩
    · obtain ⟨slot, hslot, hcomplete⟩ := exists_forall₂_iff.mp ⟨slots, h.found⟩ g hg
      exact ⟨slot, (fills_congr (Json.valuesOf_insert_of_ne hname front back v)).mpr hslot, hcomplete⟩
  obtain ⟨slots', hfound⟩ := hfound
  exact ⟨slots', hadmits, hfound⟩

/-- An object reads as a record if each of its members may stand there and each field finds its value, and the values are
    put into the blank record. -/
theorem decode_object_eq_ok_iff {record : Record ρ} (hn : (record.fields.map (·.name)).Nodup) {close : Close} {r : ρ} :
    record.decode p (.object members close) = .ok r
      ↔ close = .closed ∧ ∃ q slots, p.enter = .ok q ∧ Reads q members record.fields slots ∧
        r = applyAll slots record.blank := by
  have hdecode : record.decode p (.object members close)
      = p.enter >>= fun q => readMembers record.fields q members (record.fields.map fun _ => none) >>= fun slots =>
          ReadError.check close.fault? >>= fun _ => fill record.fields slots record.blank := rfl
  simp only [hdecode, bind_eq_ok_iff]
  constructor
  · rintro ⟨q, hq, slots, hslots, _, hclose, hfill⟩
    obtain ⟨hadmits, hfills⟩ := (readMembers_eq_ok_iff hn).mp hslots
    obtain ⟨hcomplete, hr⟩ := (fill_eq_ok_iff hfills.length_eq.symm).mp hfill
    exact ⟨check_eq_ok_iff.mp hclose, q, slots, hq, ⟨hadmits, forall₂_and hfills hcomplete⟩, hr⟩
  · rintro ⟨rfl, q, slots, hq, hreads, rfl⟩
    have hslots := (readMembers_eq_ok_iff hn).mpr ⟨hreads.admits, hreads.fills⟩
    exact ⟨q, hq, slots, hslots, (), rfl, (fill_eq_ok_iff hreads.fills.length_eq.symm).mpr ⟨hreads.complete, rfl⟩⟩

end Record

end SceneScript
