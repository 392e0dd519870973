/-
  SceneScript.Proofs.AbsentKeys — a key that a scene leaves out stands for the engine's default.

  A scene says what differs from the engine, and so does a script. Here the two meet: for
  each record that has properties, `Keys` pairs every entry of the tables with the key, or
  the two keys, that give its value. An object that reads as the record (`Record.Reading`)
  is taken as it comes: any members, in any order, at any place of a text.

  Proved, for each of these records (`absent_keys_mean_defaults`, `KeysDecide`):
  - a statement is written only for a key that the object has, with a value other than the
    default, and it shows this value; the other component of a pair is what its own key
    says, or the default if the object does not have it; positions are in whole pixels, and
    no other pair is;
  - the statement is one line, from which path and values can be read (`WriteLines`);
  - a key that the object does not have may be added with the default, anywhere, and the
    object reads as the same record. Only a tint is then held as it was written, and the
    lines of the object stay.

  It rests on the independence of the fields (`Record.Independent`): each changes only what
  it writes itself. So a record is known from what its fields write (`Independent.ext`),
  and what a field writes is decided by its own key (`Reading.encode_only`).
-/
import SceneScript.Proofs.EngineDefaults
import SceneScript.Proofs.RecordMembers
import SceneScript.Proofs.SceneRoundTrip

namespace SceneScript

/-! ## Independent fields -/

section Fields

variable {ρ α : Type} {fields : List (Field ρ)} {i : ℕ} {name : String} {c : Codec α}

/-- A value of the field changes what the field writes, at its index, to something that the record has no part in. -/
def Field.Sets (f : Field ρ) (fields : List (Field ρ)) (i : ℕ) : Prop :=
  ∀ q v change, f.decode q v = .ok change →
    ∃ x, ∀ r, fields.map (·.encode (change r)) = (fields.map (·.encode r)).set i x

theorem Field.Sets.omitted {get : ρ → α} {set : ρ → α → ρ} {omits : α → Bool}
    (h : ∀ value r, fields.map (·.encode (set r value))
      = (fields.map (·.encode r)).set i (if omits value then none else some (c.encode value))) :
    (Field.omitted name c get set omits).Sets fields i := by
  intro q v change hdecode
  obtain ⟨value, -, rfl⟩ := Field.omitted_eq_ok_iff.mp hdecode
  exact ⟨_, h value⟩

theorem Field.Sets.required {get : ρ → α} {set : ρ → α → ρ}
    (h : ∀ value r, fields.map (·.encode (set r value)) = (fields.map (·.encode r)).set i (some (c.encode value))) :
    (Field.required name c get set).Sets fields i := by
  intro q v change hdecode
  -- a required field reads as one that is always written
  have hwritten : (Field.written name c get set).decode q v = .ok change := hdecode
  obtain ⟨value, -, rfl⟩ := Field.omitted_eq_ok_iff.mp hwritten
  exact ⟨_, h value⟩

/-- So does each of the last fields, the first of them at this index. -/
inductive Field.SetEach (fields : List (Field ρ)) : ℕ → List (Field ρ) → Prop
  | nil {i : ℕ} : SetEach fields i []
  | cons {f : Field ρ} {fs : List (Field ρ)} {i : ℕ} : f.Sets fields i → SetEach fields (i + 1) fs →
      SetEach fields i (f :: fs)

theorem Field.SetEach.sets {f : Field ρ} {fs : List (Field ρ)} {j : ℕ} (h : Field.SetEach fields i fs)
    (hf : fs[j]? = some f) : f.Sets fields (i + j) := by
  induction h generalizing j with
  | nil => cases hf
  | @cons g fs i hg _ ih =>
    cases j with
    | zero =>
      obtain rfl := Option.some.inj hf
      exact hg
    | succ j =>
      rw [Nat.add_comm j 1, ← Nat.add_assoc]
      exact ih hf

end Fields

/-- The fields have names of their own and change only what they write, and what they write tells the record. -/
structure Record.Independent {ρ : Type} (record : Record ρ) : Prop where
  nodup : (record.fields.map (·.name)).Nodup
  sets : Field.SetEach record.fields 0 record.fields
  carries : ∀ r, record.codec.Carries r

namespace Record

variable {ρ : Type} {record : Record ρ} {f g : Field ρ} {q : Place} {v : Json} {change : ρ → ρ} {r r' : ρ}

namespace Independent

/-- Two records are one if all fields write the same. -/
theorem ext (h : record.Independent) (heq : ∀ f ∈ record.fields, f.encode r = f.encode r') : r = r' := by
  have hmembers : record.members r = record.members r' :=
    List.filterMap_congr fun f hf => by rw [heq f hf]
  exact (h.carries r).inj (h.carries r') (congrArg Json.record hmembers)

/-- The change of a field, seen at the index of any field. -/
theorem encode_change (h : record.Independent) {i j : ℕ} (hf : record.fields[i]? = some f) (hg : record.fields[j]? = some g)
    (hdecode : f.decode q v = .ok change) : ∃ x, ∀ r, g.encode (change r) = if i = j then x else g.encode r := by
  obtain ⟨x, hx⟩ := i.zero_add ▸ h.sets.sets hf q v change hdecode
  refine ⟨x, fun r => ?_⟩
  have hindex : ∀ r, (record.fields.map (·.encode r))[j]? = some (g.encode r) := fun r => by
    rw [List.getElem?_map, hg]
    rfl
  have hset := hindex (change r)
  have hlength : i < (record.fields.map (·.encode r)).length := by
    rw [List.length_map]
    exact (List.getElem?_eq_some_iff.mp hf).1
  rw [hx r, List.getElem?_set, hindex r, if_pos hlength] at hset
  split at hset
  · rename_i hij
    rw [if_pos hij]
    exact (Option.some.inj hset).symm
  · rename_i hij
    rw [if_neg hij]
    exact (Option.some.inj hset).symm

/-- What a field writes after a change of its own does not depend on the record. -/
theorem own (h : record.Independent) (hf : f ∈ record.fields) (hdecode : f.decode q v = .ok change) (r r' : ρ) :
    f.encode (change r) = f.encode (change r') := by
  obtain ⟨i, hi⟩ := List.getElem?_of_mem hf
  obtain ⟨x, hx⟩ := h.encode_change hi hi hdecode
  rw [hx, hx, if_pos rfl, if_pos rfl]

/-- What it writes is untouched by the changes of others. -/
theorem others (h : record.Independent) (hf : f ∈ record.fields) (hg : g ∈ record.fields) (hne : g.name ≠ f.name)
    (hdecode : g.decode q v = .ok change) (r : ρ) : f.encode (change r) = f.encode r := by
  obtain ⟨i, hi⟩ := List.getElem?_of_mem hg
  obtain ⟨j, hj⟩ := List.getElem?_of_mem hf
  obtain ⟨x, hx⟩ := h.encode_change hi hj hdecode
  have hij : i ≠ j := by
    rintro rfl
    exact hne (congrArg Field.name (Option.some.inj (hi.symm.trans hj)))
  rw [hx, if_neg hij]

end Independent

/-! ## A field among others -/

section Slots

variable {members : List (Json × Json)} {fields : List (Field ρ)} {slot slot' : Option (ρ → ρ)} {slots : Slots ρ}

theorem Fills.unique (h : Fills q members f none slot) (h' : Fills q members f none slot') : slot = slot' := by
  cases h with
  | untouched hnone =>
    cases h' with
    | untouched => rfl
    | given hvalue _ => rw [hnone] at hvalue; cases hvalue
  | given hvalue hdecode =>
    cases h' with
    | untouched hnone => rw [hnone] at hvalue; cases hvalue
    | given hvalue' hdecode' =>
      rw [hvalue] at hvalue'
      obtain ⟨rfl, -⟩ := List.cons.inj hvalue'
      rw [hdecode] at hdecode'
      rw [Except.ok.inj hdecode']

theorem Independent.apply_own (h : record.Independent) (hf : f ∈ record.fields) (hslot : Fills q members f none slot)
    (heq : f.encode r = f.encode r') : f.encode (apply slot r) = f.encode (apply slot r') := by
  cases hslot with
  | untouched => exact heq
  | given _ hdecode => exact h.own hf hdecode r r'

theorem Independent.apply_other (h : record.Independent) (hf : f ∈ record.fields) (hg : g ∈ record.fields)
    (hne : g.name ≠ f.name) (hslot : Fills q members g none slot) (r : ρ) : f.encode (apply slot r) = f.encode r := by
  cases hslot with
  | untouched => rfl
  | given _ hdecode => exact h.others hf hg hne hdecode r

theorem Independent.applyAll_others (h : record.Independent) (hf : f ∈ record.fields)
    (hfields : ∀ g ∈ fields, g ∈ record.fields ∧ g.name ≠ f.name)
    (hfills : List.Forall₂ (fun g slot => Fills q members g none slot) fields slots) (r : ρ) :
    f.encode (applyAll slots r) = f.encode r := by
  induction hfills generalizing r with
  | nil => rfl
  | cons hslot _ ih =>
    obtain ⟨⟨hg, hne⟩, hrest⟩ := List.forall_mem_cons.mp hfields
    exact (ih hrest _).trans (h.apply_other hf hg hne hslot r)

/-- Of all changes only the field's own shows in what it writes. -/
theorem Independent.encode_applyAll (h : record.Independent) (hn : (fields.map (·.name)).Nodup)
    (hfields : ∀ g ∈ fields, g ∈ record.fields) (hf : f ∈ fields)
    (hfills : List.Forall₂ (fun g slot => Fills q members g none slot) fields slots) (r : ρ) :
    ∃ slot, Fills q members f none slot ∧ f.encode (applyAll slots r) = f.encode (apply slot r) := by
  induction hfills generalizing r with
  | nil => cases hf
  | @cons g slot fs slots hslot hrest ih =>
    obtain ⟨hnew, hn⟩ := List.nodup_cons.mp hn
    obtain ⟨hg, hfs⟩ := List.forall_mem_cons.mp hfields
    rcases List.mem_cons.mp hf with rfl | hf
    · have hothers : ∀ g ∈ fs, g ∈ record.fields ∧ g.name ≠ f.name := fun g hg =>
        ⟨hfs g hg, fun heq => hnew (List.mem_map.mpr ⟨g, hg, heq⟩)⟩
      exact ⟨slot, hslot, h.applyAll_others hg hothers hrest _⟩
    · obtain ⟨own, hown, heq⟩ := ih hn hfs hf (apply slot r)
      have hne : g.name ≠ f.name := fun heq => hnew (List.mem_map.mpr ⟨f, hf, heq.symm⟩)
      exact ⟨own, hown, heq.trans (h.apply_own (hfs f hf) hown (h.apply_other (hfs f hf) hg hne hslot r))⟩

end Slots

end Record

/-! ## Objects that read as records -/

/-- An object of a text that reads as a record: where it stands, where its members stand, and the record. -/
structure Record.Reading {ρ : Type} (record : Record ρ) where
  place : Place
  inner : Place
  enter : place.enter = .ok inner
  members : List (Json × Json)
  value : ρ
  decode : record.decode place (.object members .closed) = .ok value

namespace Record.Reading

variable {ρ : Type} {record : Record ρ} {f : Field ρ} {v : Json} {change : ρ → ρ}

/-- The object has a member of this name. -/
def Has (o : record.Reading) (key : String) : Prop := Json.valuesOf key o.members ≠ []

/-- The record that one key of the object alone would make; the blank one if the object does not have it. -/
def only (o : record.Reading) (key : String) : ρ :=
  match record.fields.find? (·.name == key), Json.valuesOf key o.members with
  | some f, v :: _ =>
    match f.decode o.inner v with
    | .ok change => change record.blank
    | .error _ => record.blank
  | _, _ => record.blank

theorem only_of_not_has (o : record.Reading) {key : String} (h : ¬ o.Has key) : o.only key = record.blank := by
  rw [Has, not_not] at h
  unfold only
  rw [h]
  cases record.fields.find? (·.name == key) <;> rfl

theorem reads (o : record.Reading) (h : record.Independent) :
    ∃ slots, Reads o.inner o.members record.fields slots ∧ o.value = applyAll slots record.blank := by
  obtain ⟨-, q, slots, hq, hreads, hvalue⟩ := (decode_object_eq_ok_iff h.nodup).mp o.decode
  obtain rfl := Except.ok.inj (o.enter.symm.trans hq)
  exact ⟨slots, hreads, hvalue⟩

/-- A field is found by its name. -/
theorem find?_field (h : record.Independent) (hf : f ∈ record.fields) :
    record.fields.find? (·.name == f.name) = some f := by
  obtain ⟨front, back, hfields⟩ := List.append_of_mem hf
  have hn := h.nodup
  rw [hfields, List.map_append, List.map_cons] at hn
  have hfront : front.find? (·.name == f.name) = none := by
    rw [List.find?_eq_none]
    intro g hg heq
    exact (List.nodup_append.mp hn).2.2 g.name (List.mem_map_of_mem hg) f.name List.mem_cons_self (beq_iff_eq.mp heq)
  rw [hfields, List.find?_append, hfront, Option.none_or]
  exact List.find?_cons_of_pos (beq_self_eq_true _)

theorem only_of_fills (o : record.Reading) (h : record.Independent) (hf : f ∈ record.fields) {slot : Option (ρ → ρ)}
    (hslot : Fills o.inner o.members f none slot) : o.only f.name = apply slot record.blank := by
  cases hslot with
  | untouched hnone => exact o.only_of_not_has fun hhas => hhas hnone
  | given hvalue hdecode =>
    unfold only
    rw [find?_field h hf, hvalue]
    simp only [hdecode]
    rfl

/-- What a field writes for the record is decided by its own key. -/
theorem encode_only (o : record.Reading) (h : record.Independent) (hf : f ∈ record.fields) :
    f.encode o.value = f.encode (o.only f.name) := by
  obtain ⟨slots, hreads, hvalue⟩ := o.reads h
  obtain ⟨slot, hslot, heq⟩ := h.encode_applyAll h.nodup (fun _ => id) hf hreads.fills record.blank
  rw [hvalue, heq, o.only_of_fills h hf hslot]

theorem encode_absent (o : record.Reading) (h : record.Independent) (hf : f ∈ record.fields) (habsent : ¬ o.Has f.name) :
    f.encode o.value = f.encode record.blank := by
  rw [o.encode_only h hf, o.only_of_not_has habsent]

/-- A key that the object does not have may be added anywhere, and the record is changed by it alone. -/
theorem decode_insert (o : record.Reading) (h : record.Independent) {front back : List (Json × Json)}
    (hmembers : o.members = front ++ back) (hf : f ∈ record.fields) (habsent : ¬ o.Has f.name)
    (hdecode : f.decode o.inner v = .ok change) :
    record.decode o.place (.object (front ++ (.text f.name, v) :: back) .closed) = .ok (change o.value) := by
  obtain ⟨slots, hreads, hvalue⟩ := o.reads h
  rw [hmembers] at hreads
  rw [Has, not_not, hmembers] at habsent
  obtain ⟨slots', hnew⟩ := hreads.insert h.nodup hf habsent hdecode
  refine (decode_object_eq_ok_iff h.nodup).mpr ⟨rfl, o.inner, slots', o.enter, hnew, h.ext fun g hg => ?_⟩
  obtain ⟨slot', hslot', heq'⟩ := h.encode_applyAll h.nodup (fun _ => id) hg hnew.fills record.blank
  rw [heq']
  by_cases hname : f.name = g.name
  · obtain rfl : f = g := List.inj_on_of_nodup_map h.nodup hf hg hname
    obtain rfl : slot' = some change := hslot'.unique (.given (Json.valuesOf_insert_self habsent v) hdecode)
    exact h.own hf hdecode _ _
  · obtain ⟨slot, hslot, heq⟩ := h.encode_applyAll h.nodup (fun _ => id) hg hreads.fills record.blank
    obtain rfl := ((fills_congr (Json.valuesOf_insert_of_ne hname front back v)).mp hslot').unique hslot
    rw [h.others hg hf hname hdecode, hvalue, heq]

end Record.Reading

/-! ## The records of a scene -/

theorem Transform.independent : record.Independent where
  nodup := by decide
  carries := Transform.carries
  sets := by
    repeat refine .cons (.omitted fun _ _ => rfl) ?_
    exact .nil

theorem ArcadeBody.independent : record.Independent where
  nodup := by decide
  carries := ArcadeBody.carries
  sets := by
    repeat refine .cons (.omitted fun _ _ => rfl) ?_
    exact .nil

theorem SpriteInfo.independent : record.Independent where
  nodup := by decide
  carries := SpriteInfo.carries
  sets := by
    repeat refine .cons (.omitted fun _ _ => rfl) ?_
    exact .nil

theorem GroupPhysics.independent : record.Independent where
  nodup := by decide
  carries := GroupPhysics.carries
  sets := by
    repeat refine .cons (.omitted fun _ _ => rfl) ?_
    exact .nil

theorem TileSprite.independent : record.Independent where
  nodup := by decide
  carries := TileSprite.carries
  sets := by
    repeat first
      | refine .cons (.omitted fun _ _ => rfl) ?_
      | refine .cons (.required fun _ _ => rfl) ?_
    exact .nil

theorem BitmapText.independent : record.Independent where
  nodup := by decide
  carries := BitmapText.carries
  sets := by
    repeat first
      | refine .cons (.omitted fun _ _ => rfl) ?_
      | refine .cons (.required fun _ _ => rfl) ?_
    exact .nil

/-! ## Keys of the tables -/

/-- What stands in a record there is known from what the field of this name writes. -/
def Record.Decides {ρ β : Type} (record : Record ρ) (key : String) (view : ρ → β) : Prop :=
  ∃ f ∈ record.fields, f.name = key ∧ ∀ r r', f.encode r = f.encode r' → view r = view r'

/-- An entry of a table and the key of a scene that gives its value. -/
structure KeyedProperty (τ : Type) where
  key : String
  property : Property τ

/-- A pair and the keys that give its components. -/
structure KeyedPair (τ : Type) where
  first : String
  second : String
  pair : PairProperty τ

/-- The entries of the tables for one record, with their keys. -/
structure Keys (τ : Type) where
  singles : List (KeyedProperty τ)
  pairs : List (KeyedPair τ)

/-- The key that the path names. -/
def KeyedProperty.ofPath {τ : Type} (p : Property τ) : KeyedProperty τ := ⟨fieldOfPath p.path, p⟩

def KeyedPair.ofPath {τ : Type} (p : PairProperty τ) : KeyedPair τ :=
  ⟨fieldOfPath p.path ++ "_x", fieldOfPath p.path ++ "_y", p⟩

@[simp] theorem KeyedProperty.map_ofPath {τ : Type} (table : List (Property τ)) :
    (table.map ofPath).map (·.property) = table := by
  simp [Function.comp_def, ofPath]

@[simp] theorem KeyedPair.map_ofPath {τ : Type} (table : List (PairProperty τ)) :
    (table.map ofPath).map (·.pair) = table := by
  simp [Function.comp_def, ofPath]

/-- Position is written for groups only. -/
def Transform.keys (withPosition : Bool) : Keys Transform where
  singles := [.ofPath angleProperty]
  pairs := (if withPosition then [⟨"x", "y", groupPosition⟩] else []) ++ transformPairs.map .ofPath

def SpriteInfo.keys : Keys SpriteInfo := ⟨[.ofPath tintProperty], [.ofPath anchorProperty]⟩

def ArcadeBody.keys : Keys ArcadeBody := ⟨bodyProperties.map .ofPath, []⟩

def GroupPhysics.keys : Keys GroupPhysics := ⟨groupProperties.map (⟨"sort_direction", ·⟩), []⟩

def TileSprite.keys : Keys TileSprite := ⟨[], tilePairs.map .ofPath⟩

def BitmapText.keys : Keys BitmapText := ⟨bitmapTextProperties.map .ofPath, []⟩

/-- The keys decide the entries, and the default of an entry is that of the blank record. -/
structure Keys.Match {τ : Type} (keys : Keys τ) (record : Record τ) : Prop where
  singles : ∀ k ∈ keys.singles, record.Decides k.key k.property.get ∧ k.property.get record.blank = k.property.default
  pairs : ∀ k ∈ keys.pairs, record.Decides k.first (fun t => (k.pair.get t).1) ∧
    record.Decides k.second (fun t => (k.pair.get t).2) ∧ k.pair.get record.blank = k.pair.default

/-- The paths can be read from a line, and only positions are in whole pixels. -/
structure Keys.Plain {τ : Type} (keys : Keys τ) (scope : String) : Prop where
  singles : ∀ k ∈ keys.singles, ' ' ∉ (scope ++ k.property.path).toList
  pairs : ∀ k ∈ keys.pairs, k.pair.path.toList.all Char.isAlpha = true ∧ k.pair.PixelsIfPosition

section Match

variable {τ : Type} {record : Record τ} {f : Field τ}

theorem Codec.double_inj {a b : Double} (h : some (double.encode a) = some (double.encode b)) : a = b := by
  simpa [double] using h

/-- What is held in a scene is told by its text. -/
theorem Expr.json?_inj {a b : Expr} (h : a.json? = b.json?) (hsome : a.json?.isSome = true) : a = b := by
  cases a <;> cases b <;> simp_all [json?, Codec.double, Codec.flag, Codec.text]

/-- Every field is written, whatever it holds. -/
def Record.WritesAll {ρ : Type} (record : Record ρ) : Prop := ∀ f ∈ record.fields, ∀ r, (f.encode r).isSome = true

theorem Property.Reads.decides {p : Property τ} (h : p.Reads record f) (hf : f ∈ record.fields)
    (hwritten : record.WritesAll) : record.Decides (fieldOfPath p.path) p.get := by
  obtain ⟨hname, -, hencode⟩ := h
  refine ⟨f, hf, hname, fun t t' heq => ?_⟩
  rw [hencode, hencode] at heq
  exact Expr.json?_inj heq (hencode t ▸ hwritten f hf t)

theorem PairProperty.Reads.decides {p : PairProperty τ} {first second : String} (h : p.Reads record first second) :
    record.Decides first (fun t => (p.get t).1) ∧ record.Decides second (fun t => (p.get t).2) := by
  obtain ⟨-, f, hf, g, hg, hfirst, hsecond, hencode⟩ := h
  refine ⟨⟨f, hf, hfirst, fun t t' heq => ?_⟩, ⟨g, hg, hsecond, fun t t' heq => ?_⟩⟩
  · exact Codec.double_inj ((hencode t).1.symm.trans (heq.trans (hencode t').1))
  · exact Codec.double_inj ((hencode t).2.symm.trans (heq.trans (hencode t').2))

/-- A text that may be missing is told by what is written. -/
theorem Field.maybe_text_inj {name : String} {get : τ → Option String} {set : τ → Option String → τ} {t t' : τ}
    (h : (Field.maybe name .text get set).encode t = (Field.maybe name .text get set).encode t') : get t = get t' := by
  simp only [maybe, omitted] at h
  cases ht : get t <;> cases ht' : get t' <;> simp_all [Codec.option, Codec.text]

end Match

theorem Transform.keys_match (withPosition : Bool) : (keys withPosition).Match record where
  singles := by
    have hwritten : record.WritesAll := by simp [Record.WritesAll, record, Field.written, Field.omitted]
    intro k hk
    obtain rfl := List.mem_singleton.mp hk
    obtain ⟨f, hf, hreads⟩ := tables_name_fields.angle
    exact ⟨hreads.decides hf hwritten, hreads.2.1⟩
  pairs := by
    intro k hk
    rcases List.mem_append.mp hk with hk | hk
    · split at hk
      · obtain rfl := List.mem_singleton.mp hk
        have hreads := tables_name_fields.position
        exact ⟨hreads.decides.1, hreads.decides.2, hreads.1⟩
      · cases hk
    · obtain ⟨p, hp, rfl⟩ := List.mem_map.mp hk
      have hreads := tables_name_fields.transform p hp
      exact ⟨hreads.decides.1, hreads.decides.2, hreads.1⟩

theorem SpriteInfo.keys_match : keys.Match record where
  singles := by
    intro k hk
    obtain rfl := List.mem_singleton.mp hk
    refine ⟨⟨_, mem_fields 2 rfl, by decide +kernel, fun s s' heq => ?_⟩, rfl⟩
    have htint : s.tint = s'.tint := Field.maybe_text_inj heq
    exact congrArg (fun tint => Expr.raw ((tint.map Text.trim).getD noTint)) htint
  pairs := by
    intro k hk
    obtain rfl := List.mem_singleton.mp hk
    have hreads := tables_name_fields.anchor
    exact ⟨hreads.decides.1, hreads.decides.2, hreads.1⟩

theorem ArcadeBody.keys_match : keys.Match record where
  singles := by
    have hwritten : record.WritesAll := by simp [Record.WritesAll, record, Field.written, Field.omitted]
    intro k hk
    obtain ⟨p, hp, rfl⟩ := List.mem_map.mp hk
    obtain ⟨f, hf, hreads⟩ := exists_mem_of_forall₂ tables_name_fields.body hp
    exact ⟨hreads.decides (List.mem_of_mem_drop hf) hwritten, hreads.2.1⟩
  pairs := by simp [keys]

theorem GroupPhysics.keys_match : keys.Match record where
  singles := by
    intro k hk
    obtain ⟨p, hp, rfl⟩ := List.mem_map.mp hk
    obtain ⟨hdefault, hget⟩ := tables_name_fields.sort p hp
    refine ⟨⟨_, mem_fields 2 rfl, rfl, fun g g' heq => ?_⟩, hdefault⟩
    have hsort : g.sortDirection = g'.sortDirection :=
      (SortDirection.carries _).inj (SortDirection.carries _) (Option.some.inj heq)
    show p.get g = p.get g'
    rw [hget, hget, hsort]
  pairs := by simp [keys]

theorem TileSprite.keys_match : keys.Match record where
  singles := by simp [keys]
  pairs := by
    intro k hk
    obtain ⟨p, hp, rfl⟩ := List.mem_map.mp hk
    have hreads := tables_name_fields.tile p hp
    exact ⟨hreads.decides.1, hreads.decides.2, hreads.1⟩

theorem BitmapText.keys_match : keys.Match record where
  singles := by
    have hwritten : record.WritesAll := by
      simp [Record.WritesAll, record, Field.written, Field.omitted, Field.required]
    intro k hk
    obtain ⟨p, hp, rfl⟩ := List.mem_map.mp hk
    obtain ⟨f, hf, hreads⟩ := tables_name_fields.text p hp
    exact ⟨hreads.decides hf hwritten, hreads.2.1⟩
  pairs := by simp [keys]

theorem Transform.keys_plain (withPosition : Bool) : (keys withPosition).Plain "" where
  singles := by cases withPosition <;> decide
  pairs := by cases withPosition <;> decide

theorem SpriteInfo.keys_plain : keys.Plain "" := ⟨by decide, by decide⟩

theorem ArcadeBody.keys_plain : keys.Plain "body." := ⟨List.forall_mem_map.mpr blank_not_mem_bodyPaths, by decide⟩

theorem GroupPhysics.keys_plain : keys.Plain "" := ⟨by decide, by decide⟩

theorem TileSprite.keys_plain : keys.Plain "" := ⟨by decide, by decide⟩

theorem BitmapText.keys_plain : keys.Plain "" := ⟨by decide, by decide⟩

/-! ## What is written -/

theorem Double.same_self (d : Double) : d.same d = true := by
  simp [same]

theorem Expr.same_self (e : Expr) : e.same e = true := by
  cases e <;> simp [same, Double.same_self]

theorem Property.isDefault_of_get {τ : Type} {p : Property τ} {t : τ} (h : p.get t = p.default) : p.isDefault t = true := by
  rw [isDefault, h, Expr.same_self]

theorem Property.mem_assignments {τ : Type} {var scope : String} {t : τ} {table : List (Property τ)} {s : Statement} :
    s ∈ assignments var scope t table
      ↔ ∃ p ∈ table, p.isDefault t = false ∧ s = .assign var (scope ++ p.path) (p.get t) := by
  simp only [assignments, List.mem_map, List.mem_filter, Bool.not_eq_true', and_assoc]
  exact exists_congr fun p => and_congr_right fun _ => and_congr_right fun _ => eq_comm

theorem PairProperty.mem_settings {τ : Type} {var : String} {t : τ} {table : List (PairProperty τ)} {s : Statement} :
    s ∈ settings var t table
      ↔ ∃ p ∈ table, p.isDefault t = false ∧
        s = .setTo var p.path (p.component (p.get t).1) (p.component (p.get t).2) := by
  simp only [settings, List.mem_map, List.mem_filter, Bool.not_eq_true', and_assoc]
  exact exists_congr fun p => and_congr_right fun _ => and_congr_right fun _ => eq_comm

theorem PairProperty.settings_append {τ : Type} (var : String) (t : τ) (front back : List (PairProperty τ)) :
    settings var t (front ++ back) = settings var t front ++ settings var t back := by
  simp [settings]

namespace Record.Reading

variable {ρ β : Type} {record : Record ρ} {keys : Keys ρ} {var scope : String} {s : Statement}

theorem view_only (o : record.Reading) (h : record.Independent) {key : String} {view : ρ → β}
    (hview : record.Decides key view) : view o.value = view (o.only key) := by
  obtain ⟨f, hf, rfl, hview⟩ := hview
  exact hview _ _ (o.encode_only h hf)

/-- A statement that the keys of the object call for: one has a value other than the default, and it is written beside what
    the other key of a pair says, if there is one. -/
inductive CallsFor (o : record.Reading) (keys : Keys ρ) (var scope : String) : Statement → Prop
  | assign {k : KeyedProperty ρ} : k ∈ keys.singles → o.Has k.key → k.property.isDefault (o.only k.key) = false →
      CallsFor o keys var scope (.assign var (scope ++ k.property.path) (k.property.get (o.only k.key)))
  | setTo {k : KeyedPair ρ} : k ∈ keys.pairs →
      o.Has k.first ∧ (k.pair.get (o.only k.first)).1.same k.pair.default.1 = false ∨
        o.Has k.second ∧ (k.pair.get (o.only k.second)).2.same k.pair.default.2 = false →
      CallsFor o keys var scope (.setTo var k.pair.path (k.pair.component (k.pair.get (o.only k.first)).1)
        (k.pair.component (k.pair.get (o.only k.second)).2))

/-- A key whose value is not the default is there. -/
theorem has_of_ne (view : ρ → Bool) {key : String} (o : record.Reading) (hblank : view record.blank = true)
    (h : view (o.only key) = false) : o.Has key := by
  by_contra habsent
  rw [o.only_of_not_has habsent, hblank] at h
  cases h

theorem mem_assignments_iff (o : record.Reading) (h : record.Independent) (hk : keys.Match record) :
    s ∈ Property.assignments var scope o.value (keys.singles.map (·.property))
      ↔ ∃ k ∈ keys.singles, o.Has k.key ∧ k.property.isDefault (o.only k.key) = false ∧
        s = .assign var (scope ++ k.property.path) (k.property.get (o.only k.key)) := by
  rw [Property.mem_assignments]
  simp only [List.mem_map, exists_exists_and_eq_and]
  refine exists_congr fun k => and_congr_right fun hmem => ?_
  obtain ⟨hdecides, hdefault⟩ := hk.singles k hmem
  have hget := o.view_only h hdecides
  have hsame : k.property.isDefault o.value = k.property.isDefault (o.only k.key) := by
    rw [Property.isDefault, Property.isDefault, hget]
  have hhas : k.property.isDefault (o.only k.key) = false → o.Has k.key :=
    o.has_of_ne k.property.isDefault (Property.isDefault_of_get hdefault)
  rw [hsame, hget]
  constructor
  · rintro ⟨hne, hs⟩
    exact ⟨hhas hne, hne, hs⟩
  · rintro ⟨-, hne, hs⟩
    exact ⟨hne, hs⟩

theorem mem_settings_iff (o : record.Reading) (h : record.Independent) (hk : keys.Match record) :
    s ∈ PairProperty.settings var o.value (keys.pairs.map (·.pair))
      ↔ ∃ k ∈ keys.pairs, (o.Has k.first ∧ (k.pair.get (o.only k.first)).1.same k.pair.default.1 = false ∨
          o.Has k.second ∧ (k.pair.get (o.only k.second)).2.same k.pair.default.2 = false) ∧
        s = .setTo var k.pair.path (k.pair.component (k.pair.get (o.only k.first)).1)
          (k.pair.component (k.pair.get (o.only k.second)).2) := by
  rw [PairProperty.mem_settings]
  simp only [List.mem_map, exists_exists_and_eq_and]
  refine exists_congr fun k => and_congr_right fun hmem => ?_
  obtain ⟨hfirst, hsecond, hdefault⟩ := hk.pairs k hmem
  have hget₁ : (k.pair.get o.value).1 = (k.pair.get (o.only k.first)).1 := o.view_only h hfirst
  have hget₂ : (k.pair.get o.value).2 = (k.pair.get (o.only k.second)).2 := o.view_only h hsecond
  have hhas₁ : (k.pair.get (o.only k.first)).1.same k.pair.default.1 = false → o.Has k.first :=
    o.has_of_ne (fun t => (k.pair.get t).1.same k.pair.default.1) (by rw [hdefault, Double.same_self])
  have hhas₂ : (k.pair.get (o.only k.second)).2.same k.pair.default.2 = false → o.Has k.second :=
    o.has_of_ne (fun t => (k.pair.get t).2.same k.pair.default.2) (by rw [hdefault, Double.same_self])
  rw [PairProperty.isDefault, hget₁, hget₂, Bool.and_eq_false_iff]
  refine and_congr_left' (or_congr ?_ ?_)
  · exact ⟨fun hne => ⟨hhas₁ hne, hne⟩, And.right⟩
  · exact ⟨fun hne => ⟨hhas₂ hne, hne⟩, And.right⟩

/-- The statements of the tables are those that the keys call for. -/
theorem callsFor_iff (o : record.Reading) (h : record.Independent) (hk : keys.Match record) :
    o.CallsFor keys var scope s
      ↔ s ∈ Property.assignments var scope o.value (keys.singles.map (·.property)) ∨
        s ∈ PairProperty.settings var o.value (keys.pairs.map (·.pair)) := by
  rw [o.mem_assignments_iff h hk, o.mem_settings_iff h hk]
  constructor
  · rintro (⟨hk, hhas, hne⟩ | ⟨hk, hne⟩)
    · exact .inl ⟨_, hk, hhas, hne, rfl⟩
    · exact .inr ⟨_, hk, hne, rfl⟩
  · rintro (⟨k, hk, hhas, hne, rfl⟩ | ⟨k, hk, hne, rfl⟩)
    · exact .assign hk hhas hne
    · exact .setTo hk hne

/-- Such a statement is a write that can be read from its line. -/
theorem CallsFor.legible {o : record.Reading} (hplain : keys.Plain scope) (h : o.CallsFor keys var scope s) :
    ∃ w, s.write? var = some w ∧ Statement.Legible w := by
  cases h with
  | assign hk _ _ => exact ⟨_, if_pos rfl, .one (hplain.singles _ hk)⟩
  | @setTo k hk _ =>
    exact ⟨_, if_pos rfl,
      .two (hplain.pairs k hk).1 (k.pair.numberChar_component _) (k.pair.numberChar_component _)⟩

/-- The value of the key is read as the engine's default: in the blank record it changes nothing. -/
def SaysDefault (o : record.Reading) (key : String) (v : Json) : Prop :=
  ∃ f ∈ record.fields, f.name = key ∧ ∃ change, f.decode o.inner v = .ok change ∧ change record.blank = record.blank

/-- A default may be written out. -/
theorem decode_explicit (o : record.Reading) (h : record.Independent) {front back : List (Json × Json)} {key : String}
    {v : Json} (hmembers : o.members = front ++ back) (habsent : ¬ o.Has key) (hv : o.SaysDefault key v) :
    record.decode o.place (.object (front ++ (.text key, v) :: back) .closed) = .ok o.value := by
  obtain ⟨f, hf, rfl, change, hdecode, hblank⟩ := hv
  have hkept : change o.value = o.value := h.ext fun g hg => by
    by_cases hname : f.name = g.name
    · obtain rfl : f = g := List.inj_on_of_nodup_map h.nodup hf hg hname
      rw [h.own hf hdecode o.value record.blank, hblank, o.encode_absent h hf habsent]
    · exact h.others hg hf hname hdecode _
  rw [o.decode_insert h hmembers hf habsent hdecode, hkept]

/-- A whole text that holds an object. -/
theorem ofText_eq_ok_iff (h : record.Independent) {text : String} {members : List (Json × Json)} {close : Close}
    (hroot : (Json.read text).root = .object members close) {r : ρ} :
    record.codec.ofText text = .ok r
      ↔ close = .closed ∧ (Json.read text).trailing = false ∧
        ∃ o : record.Reading, o.place = .streamed Json.nestingLimit ∧ o.members = members ∧ o.value = r := by
  have htext : record.codec.ofText text
      = record.decode (.streamed Json.nestingLimit) (.object members close) >>= fun value =>
          if (Json.read text).trailing then .error (.form .malformed) else .ok value := by
    rw [← hroot]
    rfl
  rw [htext, bind_eq_ok_iff]
  constructor
  · rintro ⟨value, hdecode, htrailing⟩
    obtain ⟨rfl, -⟩ := (decode_object_eq_ok_iff h.nodup).mp hdecode
    split at htrailing
    · cases htrailing
    · rename_i hnone
      exact ⟨rfl, by simpa using hnone, ⟨_, _, rfl, members, value, hdecode⟩, rfl, rfl, Except.ok.inj htrailing⟩
  · rintro ⟨rfl, htrailing, o, hplace, rfl, rfl⟩
    exact ⟨o.value, hplace ▸ o.decode, by simp [htrailing]⟩

end Record.Reading

/-! ## Absent keys -/

/-- What keys have to do with the statements that are emitted for a record. -/
structure KeysDecide {τ : Type} (record : Record τ) (keys : Keys τ) (scope : String)
    (emit : String → τ → List Statement) : Prop where
  /-- A text that holds an object is read as a record exactly if it is closed, nothing follows it, and the object is read. -/
  text : ∀ text members close, (Json.read text).root = .object members close → ∀ r, record.codec.ofText text = .ok r
    ↔ close = .closed ∧ (Json.read text).trailing = false ∧
      ∃ o : record.Reading, o.place = .streamed Json.nestingLimit ∧ o.members = members ∧ o.value = r
  /-- A key that is not there says what the tables have as the default. -/
  absent : ∀ o : record.Reading,
    (∀ k ∈ keys.singles, ¬ o.Has k.key → k.property.get (o.only k.key) = k.property.default) ∧
    ∀ k ∈ keys.pairs, (¬ o.Has k.first → (k.pair.get (o.only k.first)).1 = k.pair.default.1) ∧
      (¬ o.Has k.second → (k.pair.get (o.only k.second)).2 = k.pair.default.2)
  /-- The statements are those that the keys of the object call for. -/
  written : ∀ (o : record.Reading) var s, s ∈ emit var o.value ↔ o.CallsFor keys var scope s
  /-- Positions are in whole pixels, and no other pair is. -/
  pixels : ∀ k ∈ keys.pairs, k.pair.PixelsIfPosition
  /-- Each statement is one line, from which path and rendered values can be read. -/
  line : ∀ (o : record.Reading) var s, s ∈ emit var o.value → ∃ w, s.write? var = some w ∧
    s.lines = [Statement.writeLine var w] ∧ Statement.readWrite? var (Statement.writeLine var w) = some w
  /-- A key that is not there may be added with the default, at any place among the members. -/
  explicit : ∀ (o : record.Reading) key v front back, o.members = front ++ back → ¬ o.Has key → o.SaysDefault key v →
    record.decode o.place (.object (front ++ (.text key, v) :: back) .closed) = .ok o.value

theorem keysDecide {τ : Type} {record : Record τ} {keys : Keys τ} {scope : String} {emit : String → τ → List Statement}
    (h : record.Independent) (hk : keys.Match record) (hplain : keys.Plain scope)
    (hemit : ∀ var t s, s ∈ emit var t ↔ s ∈ Property.assignments var scope t (keys.singles.map (·.property)) ∨
      s ∈ PairProperty.settings var t (keys.pairs.map (·.pair))) : KeysDecide record keys scope emit where
  text _ _ _ hroot _ := Record.Reading.ofText_eq_ok_iff h hroot
  absent o := by
    refine ⟨fun k hmem habsent => ?_, fun k hmem => ⟨fun habsent => ?_, fun habsent => ?_⟩⟩
    · rw [o.only_of_not_has habsent, (hk.singles k hmem).2]
    · rw [o.only_of_not_has habsent, (hk.pairs k hmem).2.2]
    · rw [o.only_of_not_has habsent, (hk.pairs k hmem).2.2]
  written o var s := (hemit var o.value s).trans (o.callsFor_iff h hk).symm
  pixels k hmem := (hplain.pairs k hmem).2
  line o var s hs := by
    obtain ⟨w, hwrite, hlegible⟩ := ((o.callsFor_iff h hk).mpr ((hemit var o.value s).mp hs)).legible hplain
    exact ⟨w, hwrite, Statement.lines_of_write? hwrite, Statement.readWrite?_writeLine hlegible var⟩
  explicit o _ _ _ _ hmembers habsent hv := o.decode_explicit h hmembers habsent hv

/-! ## The offset of a body -/

/-- The offset of a shape is a pair too, written among the arguments of a call. -/
theorem ArcadeBody.offset_decides : record.Decides "offset_x" offsetX ∧ record.Decides "offset_y" offsetY := by
  exact ⟨⟨_, mem_fields 0 rfl, rfl, fun _ _ => Codec.double_inj⟩,
    ⟨_, mem_fields 1 rfl, rfl, fun _ _ => Codec.double_inj⟩⟩

/-- It is written if one of the keys gives it a component other than zero. -/
theorem offsetArguments_iff (o : ArcadeBody.record.Reading) :
    o.value.offsetArguments
      = if (o.only "offset_x").offsetX.isZero && (o.only "offset_y").offsetY.isZero then []
        else [.number (o.only "offset_x").offsetX, .number (o.only "offset_y").offsetY] := by
  have hx := o.view_only ArcadeBody.independent ArcadeBody.offset_decides.1
  have hy := o.view_only ArcadeBody.independent ArcadeBody.offset_decides.2
  rw [ArcadeBody.offsetArguments, hx, hy]

/-- So it is written only for a key that is there with a component other than zero. -/
theorem offset_of_keys (o : ArcadeBody.record.Reading) (hne : o.value.offsetArguments ≠ []) :
    (o.Has "offset_x" ∧ (o.only "offset_x").offsetX.isZero = false ∨
        o.Has "offset_y" ∧ (o.only "offset_y").offsetY.isZero = false) ∧
      o.value.offsetArguments = [.number (o.only "offset_x").offsetX, .number (o.only "offset_y").offsetY] := by
  rw [offsetArguments_iff] at hne ⊢
  cases hzero : (o.only "offset_x").offsetX.isZero && (o.only "offset_y").offsetY.isZero with
  | true => simp [hzero] at hne
  | false =>
    refine ⟨(Bool.and_eq_false_iff.mp hzero).imp (fun hx => ⟨?_, hx⟩) (fun hy => ⟨?_, hy⟩), by simp⟩
    · exact o.has_of_ne (fun b => b.offsetX.isZero) rfl hx
    · exact o.has_of_ne (fun b => b.offsetY.isZero) rfl hy

/-! ## What else a leaf has -/

/-- Animations, body and data are not in the tables; without their key there are none. -/
theorem sprite_parts_absent (o : SpriteInfo.record.Reading) :
    (¬ o.Has "animations" → o.value.animations = []) ∧ (¬ o.Has "body" → o.value.body = .absent) ∧
      (¬ o.Has "data" → o.value.data = none) := by
  refine ⟨fun habsent => ?_, fun habsent => ?_, fun habsent => ?_⟩
  · have hencode := o.encode_absent SpriteInfo.independent (mem_fields 3 rfl) habsent
    cases hanimations : o.value.animations with
    | nil => rfl
    | cons first rest => simp [Field.omitted, SpriteInfo.record, hanimations] at hencode
  · have hencode := o.encode_absent SpriteInfo.independent (mem_fields 4 rfl) habsent
    exact (Body.carries _).inj (Body.carries _) (Option.some.inj hencode)
  · exact Field.maybe_text_inj (o.encode_absent SpriteInfo.independent (mem_fields 5 rfl) habsent)

/-! ## The tint -/

theorem SpriteInfo.tint_decides : record.Decides "tint" tint :=
  ⟨_, mem_fields 2 rfl, rfl, fun _ _ heq => Field.maybe_text_inj heq⟩

/-- The default tint, written out, is held as it was written. -/
theorem decode_explicit_tint (o : SpriteInfo.record.Reading) {front back : List (Json × Json)} (source : String)
    (hmembers : o.members = front ++ back) (habsent : ¬ o.Has "tint") :
    SpriteInfo.record.decode o.place (.object (front ++ (.text "tint", .text source) :: back) .closed)
      = .ok { o.value with tint := some source } := by
  have hdecode : (Field.maybe "tint" .text (·.tint) fun (s : SpriteInfo) tint => { s with tint := tint }).decode o.inner
      (.text source) = .ok fun s => { s with tint := some source } := rfl
  exact o.decode_insert SpriteInfo.independent hmembers (mem_fields 2 rfl) habsent hdecode

/-- An object with the default tint has the statements of one without a tint. -/
theorem leafStatements_explicit_tint {s : SpriteInfo} (hnone : s.tint = none) {source : String}
    (hdefault : Text.trim source = noTint) (cx : Context) (info : ObjectInfo) (own : List Statement) (call : Call) :
    leafStatements cx info { s with tint := some source } own call = leafStatements cx info s own call := by
  have hanchor : PairProperty.settings info.name { s with tint := some source } [anchorProperty]
      = PairProperty.settings info.name s [anchorProperty] :=
    PairProperty.settings_congr (by simp [anchorProperty]) _
  have htint : Property.assignments info.name "" { s with tint := some source } [tintProperty]
      = Property.assignments info.name "" s [tintProperty] :=
    Property.assignments_congr (by simp [tintProperty, hnone, hdefault]) _ _
  have hproperties : leafProperties cx info { s with tint := some source } own = leafProperties cx info s own := by
    rw [leafProperties, leafProperties, SpriteInfo.displayStatements, SpriteInfo.displayStatements, hanchor, htint]
  rw [leafStatements, leafStatements, hproperties]

/-! ## Absent keys -/

/-- In every record that has properties, an absent key stands for the engine's default: what is written comes from the keys
    that the object has and can be read from the lines, and a default that is written out changes nothing. For a tint this
    is so of the lines only. -/
theorem absent_keys_mean_defaults :
    (∀ withPosition, KeysDecide Transform.record (Transform.keys withPosition) ""
      fun var t => t.statements var withPosition) ∧
    (KeysDecide SpriteInfo.record SpriteInfo.keys "" fun var s => s.displayStatements var) ∧
    (KeysDecide ArcadeBody.record ArcadeBody.keys "body." fun var b =>
      Property.assignments var "body." b bodyProperties) ∧
    (KeysDecide GroupPhysics.record GroupPhysics.keys "" fun var g => Property.assignments var "" g groupProperties) ∧
    (KeysDecide TileSprite.record TileSprite.keys "" fun var o => PairProperty.settings var o tilePairs) ∧
    (KeysDecide BitmapText.record BitmapText.keys "" fun var o => Property.assignments var "" o bitmapTextProperties) ∧
    (∀ o : ArcadeBody.record.Reading, o.value.offsetArguments ≠ [] →
      (o.Has "offset_x" ∧ (o.only "offset_x").offsetX.isZero = false ∨
        o.Has "offset_y" ∧ (o.only "offset_y").offsetY.isZero = false) ∧
      o.value.offsetArguments = [.number (o.only "offset_x").offsetX, .number (o.only "offset_y").offsetY]) ∧
    (∀ o : SpriteInfo.record.Reading, (¬ o.Has "animations" → o.value.animations = []) ∧
      (¬ o.Has "body" → o.value.body = .absent) ∧ (¬ o.Has "data" → o.value.data = none)) ∧
    ∀ (o : SpriteInfo.record.Reading) front back source, o.members = front ++ back → ¬ o.Has "tint" →
      Text.trim source = noTint → ∃ s,
        SpriteInfo.record.decode o.place (.object (front ++ (.text "tint", .text source) :: back) .closed) = .ok s ∧
        s = { o.value with tint := some source } ∧
        ∀ cx info own call, leafStatements cx info s own call = leafStatements cx info o.value own call := by
  have hnone : ∀ s : Statement, s ∉ ([] : List Statement) := fun _ => List.not_mem_nil
  refine ⟨fun withPosition => ?_, ?_, ?_, ?_, ?_, ?_, offset_of_keys, sprite_parts_absent, ?_⟩
  · refine keysDecide Transform.independent (Transform.keys_match withPosition) (Transform.keys_plain withPosition)
      fun var t s => ?_
    have hpairs : (Transform.keys withPosition).pairs.map (·.pair)
        = (if withPosition then [groupPosition] else []) ++ transformPairs := by
      cases withPosition <;> rfl
    rw [hpairs, PairProperty.settings_append, Transform.statements]
    have hempty : PairProperty.settings var t [] = [] := rfl
    cases withPosition <;> simp [Transform.keys, KeyedProperty.ofPath, hempty, or_left_comm]
  · refine keysDecide SpriteInfo.independent SpriteInfo.keys_match SpriteInfo.keys_plain fun var s statement => ?_
    rw [SpriteInfo.displayStatements, List.mem_append, or_comm]
    rfl
  · refine keysDecide ArcadeBody.independent ArcadeBody.keys_match ArcadeBody.keys_plain fun var b s => ?_
    rw [ArcadeBody.keys, KeyedProperty.map_ofPath]
    exact (or_iff_left (hnone s)).symm
  · refine keysDecide GroupPhysics.independent GroupPhysics.keys_match GroupPhysics.keys_plain fun var g s => ?_
    exact (or_iff_left (hnone s)).symm
  · refine keysDecide TileSprite.independent TileSprite.keys_match TileSprite.keys_plain fun var o s => ?_
    rw [TileSprite.keys, KeyedPair.map_ofPath]
    exact (or_iff_right (hnone s)).symm
  · refine keysDecide BitmapText.independent BitmapText.keys_match BitmapText.keys_plain fun var o s => ?_
    rw [BitmapText.keys, KeyedProperty.map_ofPath]
    exact (or_iff_left (hnone s)).symm
  · intro o front back source hmembers habsent hdefault
    have hnone : o.value.tint = none := by
      rw [o.view_only SpriteInfo.independent SpriteInfo.tint_decides, o.only_of_not_has habsent]
      rfl
    exact ⟨_, decode_explicit_tint o source hmembers habsent, rfl, leafStatements_explicit_tint hnone hdefault⟩

/-- A door that is stretched, with a member that no field has. -/
def doorReading : Transform.record.Reading where
  place := .streamed Json.nestingLimit
  inner := .streamed (Json.nestingLimit - 1)
  enter := rfl
  members := [(.text "scale_x", .number (.real 2)), (.text "note", .list [])]
  value := { scaleX := 2 }
  decode := rfl

/-- A sprite that holds its picture by the middle of the top. -/
def signReading : SpriteInfo.record.Reading where
  place := .held
  inner := .held
  enter := rfl
  members := [(.text "anchor_x", .number (.real 1))]
  value := { anchorX := 1 }
  decode := rfl

/-- The absent scale is written beside the one that is there, and an absent pivot may be written out. -/
theorem doorReading_means_defaults :
    doorReading.CallsFor (Transform.keys false) "door" "" (.setTo "door" "scale" (.number 2) (.number 1)) ∧
      ¬ doorReading.Has "scale_y" ∧ ¬ doorReading.Has "pivot_y" ∧
      Transform.record.decode (.streamed Json.nestingLimit)
          (.object ((.text "pivot_y", .number (.real 0)) :: doorReading.members) .closed)
        = .ok { scaleX := 2 } ∧
      ¬ signReading.Has "tint" ∧
      SpriteInfo.record.decode .held
          (.object (signReading.members ++ [(.text "tint", .text " 0xffffff")]) .closed)
        = .ok { anchorX := 1, tint := some " 0xffffff" } := by
  obtain ⟨htransform, -, -, -, -, -, -, -, htint⟩ := absent_keys_mean_defaults
  have hscale : ¬ doorReading.Has "scale_y" := by simp [Record.Reading.Has, doorReading, Json.valuesOf, Json.valueOf?]
  have hpivot : ¬ doorReading.Has "pivot_y" := by simp [Record.Reading.Has, doorReading, Json.valuesOf, Json.valueOf?]
  have hsign : ¬ signReading.Has "tint" := by simp [Record.Reading.Has, signReading, Json.valuesOf, Json.valueOf?]
  refine ⟨((htransform false).written doorReading "door" _).mp (by decide +kernel), hscale, hpivot, ?_, hsign, ?_⟩
  · exact (htransform false).explicit doorReading "pivot_y" (.number (.real 0)) [] _ rfl hpivot
      ⟨_, mem_fields 6 rfl, rfl, fun t => { t with pivotY := 0 }, rfl, rfl⟩
  · obtain ⟨s, hdecode, rfl, -⟩ := htint signReading _ [] " 0xffffff" (List.append_nil _).symm hsign (by decide +kernel)
    exact hdecode

end SceneScript
