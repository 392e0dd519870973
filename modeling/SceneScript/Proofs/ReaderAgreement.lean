/-
  SceneScript.Proofs.ReaderAgreement — readers that agree on every value that is not too deep.

  Objects nest, so their readers are built in levels, each for objects of one depth more
  than the one before. Two levels read a value alike if neither runs out of levels on it.
  The argument goes through the parts: fields that agree on values of less depth make
  records that agree (`Record.decode_of_agree`), and kinds that agree on contents make
  tagged values that agree (`Tagged.decode_of_agree`). So a value that one level of
  `SceneObject.codecTo` reads is read by every level above its depth
  (`SceneObject.decode_of_depth_lt`).
-/
import SceneScript.Scene.Object
import SceneScript.Proofs.ContainerReading

namespace SceneScript

/-! ## Records -/

theorem Json.depth_le_of_valuesOf {name : String} {members : List (Json × Json)} {v : Json}
    (h : valuesOf name members = [v]) : depth v ≤ membersDepth members :=
  depth_le_of_member (mem_valuesOf_iff.mp (h ▸ List.mem_singleton_self v))


section Records

variable {ρ : Type} {f f' : Field ρ} {record record' : Record ρ} {d : Nat} {p : Place} {r : ρ}

/-- A field in the place of another that reads what the other reads, from every value of less than this depth. -/
structure Field.AgreesBelow (d : Nat) (f f' : Field ρ) : Prop where
  name : f.name = f'.name
  required : f.isRequired = f'.isRequired
  decode : ∀ p v change, v.depth < d → f.decode p v = .ok change → f'.decode p v = .ok change

theorem Field.AgreesBelow.refl (d : Nat) (f : Field ρ) : f.AgreesBelow d f := ⟨rfl, rfl, fun _ _ _ _ h => h⟩

theorem Field.names_of_agree {fields fields' : List (Field ρ)} (h : List.Forall₂ (Field.AgreesBelow d) fields fields') :
    fields.map (·.name) = fields'.map (·.name) := by
  induction h with
  | nil => rfl
  | cons hf _ ih => rw [List.map_cons, List.map_cons, hf.name, ih]

theorem Record.ReadsItems.of_agree {fields fields' : List (Field ρ)} {items : List Json} {slots : Slots ρ}
    (hfields : List.Forall₂ (Field.AgreesBelow d) fields fields') (hdepth : ∀ j ∈ items, j.depth < d)
    (h : ReadsItems p fields items slots) : ReadsItems p fields' items slots := by
  induction h generalizing fields' with
  | nil =>
    cases hfields
    exact .nil
  | cons hdecode _ ih =>
    obtain ⟨hj, hjs⟩ := List.forall_mem_cons.mp hdepth
    cases hfields with
    | cons hf hfs => exact .cons (hf.decode _ _ _ hj hdecode) (ih hfs hjs)
  | rest hoptional _ ih =>
    cases hfields with
    | cons hf hfs => exact .rest (hf.required ▸ hoptional) (ih hfs hdepth)

theorem Record.decode_of_agree (hn : (record.fields.map (·.name)).Nodup)
    (hfields : List.Forall₂ (Field.AgreesBelow d) record.fields record'.fields) (hblank : record.blank = record'.blank)
    {j : Json} (hdepth : j.depth ≤ d) (h : record.decode p j = .ok r) : record'.decode p j = .ok r := by
  have hnames : record.fields.map (·.name) = record'.fields.map (·.name) := Field.names_of_agree hfields
  cases j with
  | object members close =>
    refine decode_object_follows hn (hnames ▸ hn) hblank (fun q _ hadmits m hm => ?_) (fun q _ => ?_) h
    · obtain ⟨name, hkey, hpass⟩ := hadmits m hm
      exact ⟨name, hkey, hnames ▸ hpass⟩
    · refine hfields.imp fun f f' hf => .of_values hf.required (fun hnone => hf.name ▸ hnone) ?_
      intro v change hvalue hdecode
      have hv : v.depth < d := Nat.lt_of_le_of_lt (Json.depth_le_of_valuesOf hvalue) hdepth
      exact ⟨v, hf.name ▸ hvalue, hf.decode q v change hv hdecode⟩
  | array items close =>
    refine decode_array_follows hblank (fun q slots _ hitems => hitems.of_agree hfields fun j hj => ?_) h
    exact Nat.lt_of_le_of_lt (Json.depth_le_itemsDepth hj) hdepth
  | _ => exact absurd h (Json.mismatch_ne_ok _ _)

end Records

/-! ## Tagged values -/

section Kinds

variable {α : Type} {t t' : Tagged α} {kind : Variant α} {d : Nat} {p : Place} {tag content j : Json} {a : α}

/-- A kind in the place of another that makes of each content up to this depth what the other does. -/
structure Variant.AgreesUpTo (d : Nat) (kind kind' : Variant α) : Prop where
  name : kind.name = kind'.name
  decode : ∀ content a, content.depth ≤ d → kind.decode content = .ok a → kind'.decode content = .ok a

theorem Variant.AgreesUpTo.refl (d : Nat) (kind : Variant α) : kind.AgreesUpTo d kind := ⟨rfl, fun _ _ _ h => h⟩

theorem find?_of_agree {kinds kinds' : List (Variant α)} {s : String}
    (hkinds : List.Forall₂ (Variant.AgreesUpTo d) kinds kinds') (h : kinds.find? (fun v => v.name == s) = some kind) :
    ∃ kind', kinds'.find? (fun v => v.name == s) = some kind' ∧ kind.AgreesUpTo d kind' := by
  induction hkinds with
  | nil => cases h
  | @cons v v' _ _ hv _ ih =>
    rw [List.find?_cons] at h ⊢
    rw [← hv.name]
    cases hname : v.name == s with
    | true =>
      rw [hname] at h
      obtain rfl := Option.some.inj h
      exact ⟨v', rfl, hv⟩
    | false =>
      rw [hname] at h
      exact ih h

theorem Tagged.readTag_of_agree (hkinds : List.Forall₂ (Variant.AgreesUpTo d) t.variants t'.variants)
    (h : t.readTag p tag = .ok kind) : ∃ kind', t'.readTag p tag = .ok kind' ∧ kind.AgreesUpTo d kind' := by
  rcases readTag_cases h with ⟨s, rfl⟩ | ⟨rfl, i, rfl⟩
  · obtain ⟨kind', hfind, hagrees⟩ := find?_of_agree hkinds (readTag_text_eq_ok_iff.mp h)
    exact ⟨kind', readTag_text_eq_ok_iff.mpr hfind, hagrees⟩
  · obtain ⟨hi, rfl⟩ := List.getElem?_eq_some_iff.mp (readTag_index_eq_ok_iff.mp h)
    have hi' : i < t'.variants.length := hkinds.length_eq ▸ hi
    exact ⟨t'.variants[i], readTag_index_eq_ok_iff.mpr (List.getElem?_eq_getElem hi'), hkinds.get hi hi'⟩

theorem Tagged.decode_of_agree (hkinds : List.Forall₂ (Variant.AgreesUpTo d) t.variants t'.variants)
    (hdepth : j.depth ≤ d) (h : t.decode p j = .ok a) : t'.decode p j = .ok a := by
  obtain ⟨kind, content, hopens, hkind⟩ := decode_eq_ok_iff.mp h
  have hcontent : content.depth ≤ d := Nat.le_trans hopens.depth_le hdepth
  cases hopens with
  | object hq hvalues htag hholds =>
    obtain ⟨kind', htag', hagrees⟩ := readTag_of_agree hkinds htag
    exact decode_eq_ok_iff.mpr ⟨kind', _, .object hq hvalues htag' hholds, hagrees.decode _ _ hcontent hkind⟩
  | array hq htag hholds =>
    obtain ⟨kind', htag', hagrees⟩ := readTag_of_agree hkinds htag
    exact decode_eq_ok_iff.mpr ⟨kind', _, .array hq htag' hholds, hagrees.decode _ _ hcontent hkind⟩

end Kinds

/-! ## Levels of objects -/

namespace SceneObject

/-- Children are read alike if each element of their list is. -/
theorem children_agreesBelow {c c' : Codec SceneObject} {d : Nat}
    (h : ∀ p v o, v.depth < d → c.decode p v = .ok o → c'.decode p v = .ok o) :
    List.Forall₂ (Field.AgreesBelow d) (Group.recordWith c).fields (Group.recordWith c').fields := by
  refine .cons (.refl d _) (.cons ⟨rfl, rfl, fun p v change hv hdecode => ?_⟩ (.cons (.refl d _) .nil))
  obtain ⟨children, hchildren, hchange⟩ := bind_eq_ok_iff.mp hdecode
  refine bind_eq_ok_iff.mpr ⟨children, ?_, hchange⟩
  obtain ⟨items, q, rfl, hq, hitems⟩ := Codec.list_eq_ok_iff.mp hchildren
  refine Codec.list_eq_ok_iff.mpr ⟨items, q, rfl, hq, ?_⟩
  rw [List.forall₂_iff_get] at hitems ⊢
  refine ⟨hitems.1, fun i hi hi' => h q _ _ ?_ (hitems.2 i hi hi')⟩
  have hdepth := Json.depth_le_itemsDepth (List.get_mem items ⟨i, hi⟩)
  exact Nat.lt_trans (Nat.lt_succ_of_le hdepth) hv

/-- Of the kinds only groups look at their children. -/
theorem kinds_agree {c c' : Codec SceneObject} {d : Nat}
    (h : ∀ p v o, v.depth < d → c.decode p v = .ok o → c'.decode p v = .ok o) :
    List.Forall₂ (Variant.AgreesUpTo d) (taggedWith c).variants (taggedWith c').variants := by
  have hgroup : Variant.AgreesUpTo d (.ofRecord "group" (Group.recordWith c) ofGroup)
      (.ofRecord "group" (Group.recordWith c') ofGroup) := by
    refine ⟨rfl, fun content o hdepth hdecode => ?_⟩
    obtain ⟨g, hg, rfl⟩ := map_eq_ok_iff.mp hdecode
    refine map_eq_ok_iff.mpr ⟨g, ?_, rfl⟩
    have hnames : ((Group.recordWith c).fields.map (·.name)).Nodup := show ["info", "children", "physics"].Nodup by decide
    exact Record.decode_of_agree hnames (children_agreesBelow h) rfl hdepth hg
  exact .cons hgroup (List.forall₂_same.mpr fun kind _ => .refl d kind)

/-- What one level reads is read by every level above its depth: such a level does not run out. -/
theorem decode_of_depth_lt {n m : Nat} {p : Place} {v : Json} {o : SceneObject} (h : (codecTo n).decode p v = .ok o)
    (hdepth : v.depth < m) : (codecTo m).decode p v = .ok o := by
  induction n generalizing m p v o with
  | zero => cases h
  | succ n ih =>
    obtain ⟨m, rfl⟩ := Nat.exists_eq_add_of_lt hdepth
    refine Tagged.decode_of_agree (kinds_agree fun p v o hv hdecode => ih hdecode hv) ?_ h
    exact Nat.le_add_right v.depth m

end SceneObject

end SceneScript
