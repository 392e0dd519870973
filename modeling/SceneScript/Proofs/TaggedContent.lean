/-
  SceneScript.Proofs.TaggedContent — which values read as a tagged value, and as which one.

  A tagged value is opened first: its tag gives the kind, and the rest of it is held as the
  content (`Tagged.Opens`). In an object the tag is the only member of its name, wherever it
  stands; in an array it is the first element. What the kind then makes of the content is
  the value (`Tagged.decode_eq_ok_iff`).
-/
import SceneScript.Json.Tagged
import SceneScript.Proofs.RecordMembers
import SceneScript.Proofs.WholeValues

namespace SceneScript

/-- A value of another kind than the wanted one is refused. -/
theorem Json.mismatch_ne_ok {α : Type} {a : α} (j : Json) (wanted : Wanted) : j.mismatch wanted ≠ .ok a := by
  intro h
  obtain ⟨found, -, hrefused⟩ := bind_eq_ok_iff.mp (show j.found >>= (fun _ => _) = Except.ok a from h)
  cases hrefused

/-- What comes after a step matters only if the step succeeds. -/
theorem bind_congr_of_ok {ε α β : Type} {x : Except ε α} {f g : α → Except ε β} (h : ∀ a, x = .ok a → f a = g a) :
    x >>= f = x >>= g := by
  cases x with
  | error e => rfl
  | ok a => exact h a rfl

namespace Json

/-- The tag of a value: the member of that name, the first if there are several, or the first element. -/
def tag? : Json → Option Json
  | .object members _ => (valuesOf Tagged.tagName members).head?
  | .array items _ => items.head?
  | _ => none

end Json

namespace Tagged

variable {α : Type} {t : Tagged α} {p q : Place} {j : Json} {members : List (Json × Json)} {items : List Json}
  {close : Close} {kind : Variant α} {tag content : Json} {a : α} {room room' : Nat}

/-- A member that is not the tag. -/
def isContent (member : Json × Json) : Bool := (Json.valueOf? tagName member).isNone

/-- The members of a tagged object other than the tag. -/
def untagged (members : List (Json × Json)) : List (Json × Json) := members.filter isContent

/-- A member may be held: it has a name, and its value can be read whole. -/
def Holds (p : Place) (member : Json × Json) : Prop := (∃ name, member.1 = .text name) ∧ p.hold member.2 = .ok ()

/-- A value is opened as one of a kind, with a content that is held. -/
inductive Opens (t : Tagged α) (p : Place) : Json → Variant α → Json → Prop
  | object {members : List (Json × Json)} {q : Place} {tag : Json} {kind : Variant α} : p.enter = .ok q →
      Json.valuesOf tagName members = [tag] → t.readTag q tag = .ok kind → (∀ m ∈ untagged members, Holds q m) →
      Opens t p (.object members .closed) kind (.object (untagged members) .closed)
  | array {items : List Json} {q : Place} {tag : Json} {kind : Variant α} : p.enter = .ok q →
      t.readTag q tag = .ok kind → (∀ j ∈ items, q.hold j = .ok ()) →
      Opens t p (.array (tag :: items) .closed) kind (.array items .closed)

/-! ## Tags -/

theorem readTag_text_eq_ok_iff {s : String} :
    t.readTag p (.text s) = .ok kind ↔ t.variants.find? (fun v => v.name == s) = some kind := by
  have hread : t.readTag p (.text s)
      = (t.variants.find? fun v => v.name == s).elim (refuse (.unknownVariant s (t.variants.map (·.name)))) .ok := by
    cases p <;> simp only [readTag] <;> cases t.variants.find? fun v => v.name == s <;> rfl
  rw [hread]
  cases t.variants.find? fun v => v.name == s with
  | none => exact iff_of_false nofun nofun
  | some found => rw [Option.elim_some, Except.ok.injEq, Option.some.injEq]

theorem readTag_index_eq_ok_iff {i : Nat} :
    t.readTag .held (.number (.integer i)) = .ok kind ↔ t.variants[i]? = some kind := by
  have hread : t.readTag .held (.number (.integer i))
      = t.variants[i]?.elim (refuse (.wrongValue (.integer i) (.variantIndex t.variants.length))) .ok := by
    rw [readTag, if_neg (Int.not_lt.mpr (Int.natCast_nonneg i)), Int.toNat_natCast]
    cases t.variants[i]? <;> rfl
  rw [hread]
  cases t.variants[i]? with
  | none => exact iff_of_false nofun nofun
  | some found => rw [Option.elim_some, Except.ok.injEq, Option.some.injEq]

/-- A tag is a text or, in what is held, the number of a kind. -/
theorem readTag_cases (h : t.readTag p tag = .ok kind) :
    (∃ s, tag = .text s) ∨ p = .held ∧ ∃ i : Nat, tag = .number (.integer i) := by
  cases tag with
  | text s => exact .inl ⟨s, rfl⟩
  | number n =>
    cases p with
    | streamed room => cases n <;> exact absurd h (Json.mismatch_ne_ok _ .variantName)
    | held =>
      cases n with
      | real d => exact absurd h (Json.mismatch_ne_ok (.number (.real d)) .variantName)
      | integer n =>
        rw [readTag] at h
        split at h
        · exact absurd h (Json.mismatch_ne_ok _ _)
        · rename_i hn
          obtain ⟨i, rfl⟩ := Int.eq_ofNat_of_zero_le (Int.not_lt.mp hn)
          exact .inr ⟨rfl, i, rfl⟩
  | _ => cases p <;> exact absurd h (Json.mismatch_ne_ok _ .variantName)

/-- The tag of a value that is read straight from the text is a text. -/
theorem readTag_streamed (h : t.readTag (.streamed room) tag = .ok kind) : ∃ s, tag = .text s := by
  rcases readTag_cases h with htext | ⟨hp, -⟩
  · exact htext
  · cases hp

/-- Every tag is read alike in what is held. -/
theorem readTag_held (h : t.readTag p tag = .ok kind) : t.readTag .held tag = .ok kind := by
  rcases readTag_cases h with ⟨s, rfl⟩ | ⟨rfl, -⟩
  · cases p <;> exact h
  · exact h

theorem readTag_text (s : String) : t.readTag p (.text s) = t.readTag q (.text s) := by
  cases p <;> cases q <;> rfl

/-! ## Members -/

theorem isContent_text_iff {name : String} {v : Json} : isContent (.text name, v) = true ↔ name ≠ tagName := by
  by_cases hname : name = tagName <;> simp [isContent, Json.valueOf?, hname]

/-- A member is the tag or belongs to the content. -/
theorem tag_or_content (m : Json × Json) : (∃ v, m = (.text tagName, v)) ∨ isContent m = true := by
  obtain ⟨k, v⟩ := m
  cases k with
  | text name =>
    by_cases hname : name = tagName
    · exact .inl ⟨v, by rw [hname]⟩
    · exact .inr (isContent_text_iff.mpr hname)
  | _ => exact .inr rfl

theorem untagged_cons_self (v : Json) (rest : List (Json × Json)) :
    untagged ((.text tagName, v) :: rest) = untagged rest :=
  List.filter_cons_of_neg (by simp [isContent_text_iff])

theorem untagged_cons_of_ne {name : String} (h : name ≠ tagName) (v : Json) (rest : List (Json × Json)) :
    untagged ((.text name, v) :: rest) = (.text name, v) :: untagged rest :=
  List.filter_cons_of_pos (isContent_text_iff.mpr h)

theorem untagged_append_cons {k : Json} (h : k ≠ .text tagName) (front back : List (Json × Json)) (v : Json) :
    untagged (front ++ (k, v) :: back) = untagged front ++ (k, v) :: untagged back := by
  have hcontent : isContent (k, v) = true := (tag_or_content (k, v)).resolve_left fun ⟨_, hw⟩ => h (Prod.mk.inj hw).1
  rw [untagged, List.filter_append, List.filter_cons_of_pos hcontent]
  rfl

theorem readMembers_tag {tag? : Option (Variant α)} (v : Json) (rest : List (Json × Json)) :
    t.readMembers p tag? ((.text tagName, v) :: rest)
      = tag?.elim (t.readTag p v >>= fun tag => t.readMembers p (some tag) rest)
        fun _ => refuse (.duplicateField tagName) := by
  have hkey : (Json.text tagName).key = .ok tagName := rfl
  rw [readMembers.eq_def]
  cases tag? <;> simp only [hkey, bind, Except.bind, if_true, Option.elim]

theorem readMembers_other {tag? : Option (Variant α)} {name : String} (h : name ≠ tagName) (v : Json)
    (rest : List (Json × Json)) :
    t.readMembers p tag? ((.text name, v) :: rest)
      = p.hold v >>= fun _ => t.readMembers p tag? rest >>= fun (tag?, held) => .ok (tag?, (.text name, v) :: held) := by
  have hkey : (Json.text name).key = .ok name := rfl
  rw [readMembers.eq_def]
  simp only [hkey, bind, Except.bind, h, if_false]

/-- A member without a name is refused. -/
theorem readMembers_ne_ok {tag? : Option (Variant α)} {k v : Json} (hkey : ∀ name, k ≠ .text name)
    (rest : List (Json × Json)) {result : Option (Variant α) × List (Json × Json)} :
    t.readMembers p tag? ((k, v) :: rest) ≠ .ok result := by
  have hrefused : t.readMembers p tag? ((k, v) :: rest) = .error (.form ((Json.keyReadFault k).getD .malformed)) := by
    cases k with
    | text name => exact absurd rfl (hkey name)
    | _ => rfl
  rw [hrefused]
  nofun

/-- What is known of the tag at the end of an object: the tag that was known before, if no other comes up, or else the only
    one that does. -/
inductive Finds (t : Tagged α) (p : Place) (members : List (Json × Json)) :
    Option (Variant α) → Option (Variant α) → Prop
  | none {tag? : Option (Variant α)} : Json.valuesOf tagName members = [] → Finds t p members tag? tag?
  | some {tag : Json} {kind : Variant α} : Json.valuesOf tagName members = [tag] → t.readTag p tag = .ok kind →
      Finds t p members none (some kind)

theorem finds_other {tag? tag?' : Option (Variant α)} {name : String} (h : name ≠ tagName) {v : Json}
    {rest : List (Json × Json)} : Finds t p ((.text name, v) :: rest) tag? tag?' ↔ Finds t p rest tag? tag?' := by
  have hvalues := Json.valuesOf_cons_of_ne h v rest
  constructor
  · rintro (hnone | ⟨hsome, htag⟩)
    · exact .none (hvalues ▸ hnone)
    · exact .some (hvalues ▸ hsome) htag
  · rintro (hnone | ⟨hsome, htag⟩)
    · exact .none (hvalues.symm ▸ hnone)
    · exact .some (hvalues.symm ▸ hsome) htag

theorem finds_tag {tag? tag?' : Option (Variant α)} {v : Json} {rest : List (Json × Json)} :
    Finds t p ((.text tagName, v) :: rest) tag? tag?'
      ↔ tag? = none ∧ ∃ kind, t.readTag p v = .ok kind ∧ Finds t p rest (some kind) tag?' := by
  constructor
  · rintro (hnone | ⟨hsome, htag⟩)
    · rw [Json.valuesOf_cons_self] at hnone
      cases hnone
    · rw [Json.valuesOf_cons_self] at hsome
      obtain ⟨rfl, hrest⟩ := List.cons.inj hsome
      exact ⟨rfl, _, htag, .none hrest⟩
  · rintro ⟨rfl, kind, htag, hrest⟩
    cases hrest with
    | none hrest => exact .some (by rw [Json.valuesOf_cons_self, hrest]) htag

theorem readMembers_eq_ok_iff {tag? tag?' : Option (Variant α)} {held : List (Json × Json)} :
    t.readMembers p tag? members = .ok (tag?', held)
      ↔ held = untagged members ∧ (∀ m ∈ untagged members, Holds p m) ∧ Finds t p members tag? tag?' := by
  induction members generalizing tag? held with
  | nil =>
    constructor
    · intro h
      obtain ⟨rfl, rfl⟩ := Prod.mk.inj (Except.ok.inj h)
      exact ⟨rfl, nofun, .none rfl⟩
    · rintro ⟨rfl, -, hfinds⟩
      cases hfinds with
      | none => rfl
      | some hvalues => cases hvalues
  | cons member rest ih =>
    obtain ⟨k, v⟩ := member
    by_cases hkey : ∃ name, k = .text name
    · obtain ⟨name, rfl⟩ := hkey
      by_cases hname : name = tagName
      · subst hname
        rw [readMembers_tag, untagged_cons_self, finds_tag]
        cases tag? with
        | some kind => exact iff_of_false nofun nofun
        | none =>
          simp only [Option.elim_none, bind_eq_ok_iff, ih, true_and]
          constructor
          · rintro ⟨kind, htag, hheld, hholds, hfinds⟩
            exact ⟨hheld, hholds, kind, htag, hfinds⟩
          · rintro ⟨hheld, hholds, kind, htag, hfinds⟩
            exact ⟨kind, htag, hheld, hholds, hfinds⟩
      · rw [readMembers_other hname, untagged_cons_of_ne hname, finds_other hname, List.forall_mem_cons]
        simp only [bind_eq_ok_iff, Except.ok.injEq, Prod.mk.injEq, Prod.exists]
        constructor
        · rintro ⟨_, hhold, tag?', held, hread, rfl, rfl⟩
          obtain ⟨rfl, hholds, hfinds⟩ := ih.mp hread
          exact ⟨rfl, ⟨⟨⟨name, rfl⟩, hhold⟩, hholds⟩, hfinds⟩
        · rintro ⟨rfl, ⟨⟨-, hhold⟩, hholds⟩, hfinds⟩
          exact ⟨(), hhold, tag?', _, ih.mpr ⟨rfl, hholds, hfinds⟩, rfl, rfl⟩
    · refine iff_of_false (readMembers_ne_ok (fun name hname => hkey ⟨name, hname⟩) rest) ?_
      -- such a member is not the tag, and cannot be held
      rintro ⟨-, hholds, -⟩
      have hcontent : isContent (k, v) = true := by
        cases k with
        | text name => exact absurd ⟨name, rfl⟩ hkey
        | _ => rfl
      exact hkey (hholds (k, v) (by simp [untagged, hcontent])).1

/-! ## Values -/

theorem forM_hold_eq_ok_iff : items.forM q.hold = .ok () ↔ ∀ j ∈ items, q.hold j = .ok () := by
  induction items with
  | nil => exact iff_of_true rfl nofun
  | cons j items ih =>
    show (q.hold j >>= fun _ => items.forM q.hold) = _ ↔ _
    rw [bind_eq_ok_iff, List.forall_mem_cons, ← ih]
    constructor
    · rintro ⟨_, hj, hitems⟩
      exact ⟨hj, hitems⟩
    · rintro ⟨hj, hitems⟩
      exact ⟨(), hj, hitems⟩

theorem decode_object_eq_ok_iff :
    t.decode p (.object members close) = .ok a
      ↔ ∃ kind, t.Opens p (.object members close) kind (.object (untagged members) .closed) ∧
        kind.decode (.object (untagged members) .closed) = .ok a := by
  have hdecode : t.decode p (.object members close)
      = p.enter >>= fun q => t.readMembers q none members >>= fun (tag?, held) =>
          ReadError.check close.fault? >>= fun _ =>
            tag?.elim (refuse (.missingField tagName)) fun kind => kind.decode (.object held .closed) := by
    rw [decode]
    refine bind_congr fun q => bind_congr fun (tag?, held) => bind_congr fun _ => ?_
    cases tag? <;> rfl
  simp only [hdecode, bind_eq_ok_iff, Prod.exists, readMembers_eq_ok_iff]
  constructor
  · rintro ⟨q, hq, tag?, held, ⟨rfl, hholds, hfinds⟩, _, hclose, hkind⟩
    obtain rfl := Record.check_eq_ok_iff.mp hclose
    cases hfinds with
    | none => cases hkind
    | some hvalues htag => exact ⟨_, .object hq hvalues htag hholds, hkind⟩
  · rintro ⟨kind, hopens, hkind⟩
    cases hopens with
    | object hq hvalues htag hholds => exact ⟨_, hq, some kind, _, ⟨rfl, hholds, .some hvalues htag⟩, (), rfl, hkind⟩

theorem decode_array_eq_ok_iff :
    t.decode p (.array items close) = .ok a
      ↔ ∃ kind rest, t.Opens p (.array items close) kind (.array rest .closed) ∧
        kind.decode (.array rest .closed) = .ok a := by
  cases items with
  | nil =>
    refine iff_of_false (fun h => ?_) nofun
    obtain ⟨q, -, h⟩ := bind_eq_ok_iff.mp (show p.enter >>= (fun _ => _) = Except.ok a from h)
    obtain ⟨_, -, h⟩ := bind_eq_ok_iff.mp h
    cases h
  | cons tag items =>
    have hdecode : t.decode p (.array (tag :: items) close)
        = p.enter >>= fun q => t.readTag q tag >>= fun kind => items.forM q.hold >>= fun _ =>
            ReadError.check close.fault? >>= fun _ => kind.decode (.array items .closed) := rfl
    simp only [hdecode, bind_eq_ok_iff]
    constructor
    · rintro ⟨q, hq, kind, htag, _, hholds, _, hclose, hkind⟩
      obtain rfl := Record.check_eq_ok_iff.mp hclose
      exact ⟨kind, items, .array hq htag (forM_hold_eq_ok_iff.mp hholds), hkind⟩
    · rintro ⟨kind, rest, hopens, hkind⟩
      cases hopens with
      | array hq htag hholds => exact ⟨_, hq, kind, htag, (), forM_hold_eq_ok_iff.mpr hholds, (), rfl, hkind⟩

/-- A tagged value reads as what its kind makes of its content. -/
theorem decode_eq_ok_iff : t.decode p j = .ok a ↔ ∃ kind content, t.Opens p j kind content ∧ kind.decode content = .ok a := by
  cases j with
  | object members close =>
    rw [decode_object_eq_ok_iff]
    constructor
    · rintro ⟨kind, hopens, hkind⟩
      exact ⟨kind, _, hopens, hkind⟩
    · rintro ⟨kind, content, hopens, hkind⟩
      cases hopens with
      | object hq hvalues htag hholds => exact ⟨kind, .object hq hvalues htag hholds, hkind⟩
  | array items close =>
    rw [decode_array_eq_ok_iff]
    constructor
    · rintro ⟨kind, rest, hopens, hkind⟩
      exact ⟨kind, _, hopens, hkind⟩
    · rintro ⟨kind, content, hopens, hkind⟩
      cases hopens with
      | array hq htag hholds => exact ⟨kind, _, .array hq htag hholds, hkind⟩
  | _ =>
    refine iff_of_false (Json.mismatch_ne_ok _ _) ?_
    rintro ⟨kind, content, hopens, -⟩
    cases hopens

/-- The content of a tagged value is no deeper than the value. -/
theorem Opens.depth_le (h : t.Opens p j kind content) : content.depth ≤ j.depth := by
  cases h with
  | @object members q tag kind =>
    have huntagged : Json.membersDepth (untagged members) ≤ Json.membersDepth members :=
      Json.membersDepth_le_iff.mpr fun m hm => Json.depth_le_of_member (List.mem_of_mem_filter hm)
    exact Nat.succ_le_succ huntagged
  | array => exact Nat.succ_le_succ (Nat.le_max_right _ _)

/-! ## Opening a value at another place -/

/-- A value that is opened has a tag, which gives the kind. -/
theorem Opens.reads_tag (h : t.Opens p j kind content) :
    ∃ q tag, p.enter = .ok q ∧ j.tag? = some tag ∧ t.readTag q tag = .ok kind := by
  cases h with
  | object hq hvalues htag _ => exact ⟨_, _, hq, by rw [Json.tag?, hvalues]; rfl, htag⟩
  | array hq htag _ => exact ⟨_, _, hq, rfl, htag⟩

theorem readTag_mem (h : t.readTag p tag = .ok kind) : kind ∈ t.variants := by
  rcases readTag_cases h with ⟨s, rfl⟩ | ⟨rfl, i, rfl⟩
  · exact List.mem_of_find?_eq_some (readTag_text_eq_ok_iff.mp h)
  · exact List.mem_of_getElem? (readTag_index_eq_ok_iff.mp h)

theorem Opens.kind_mem (h : t.Opens p j kind content) : kind ∈ t.variants := by
  cases h with
  | object _ _ htag _ => exact readTag_mem htag
  | array _ htag _ => exact readTag_mem htag

theorem enter_streamed (h : (Place.streamed room).enter = .ok q) : ∃ room', room = room' + 1 ∧ q = .streamed room' := by
  cases room with
  | zero => cases h
  | succ room => exact ⟨room, rfl, (Except.ok.inj h).symm⟩

/-- What is opened straight from the text is whole, and is opened alike when it is held. -/
theorem Opens.held (h : t.Opens (.streamed room) j kind content) (hdepth : j.depth ≤ room') :
    (Place.streamed room').hold j = .ok () ∧ t.Opens .held j kind content := by
  cases h with
  | @object members q tag kind hq hvalues htag hholds =>
    obtain ⟨inner, -, rfl⟩ := enter_streamed hq
    obtain ⟨s, rfl⟩ := readTag_streamed htag
    obtain ⟨room', rfl⟩ := Nat.exists_eq_add_of_le' (Nat.le_trans (Nat.le_add_left 1 _) hdepth)
    refine ⟨Place.hold_eq_ok_iff.mpr (Json.readFault_object_eq_none_iff.mpr ⟨fun m hm => ?_, rfl⟩), ?_⟩
    · rcases tag_or_content m with ⟨v, rfl⟩ | hcontent
      · have hv : v ∈ Json.valuesOf tagName members := Json.mem_valuesOf_iff.mpr hm
        obtain rfl := List.mem_singleton.mp (hvalues ▸ hv)
        exact ⟨⟨tagName, rfl⟩, rfl⟩
      · obtain ⟨hkey, hhold⟩ := hholds m (List.mem_filter.mpr ⟨hm, hcontent⟩)
        have hm : m.2.depth ≤ room' := Nat.le_trans (Json.depth_le_of_member hm) (Nat.le_of_succ_le_succ hdepth)
        exact ⟨hkey, Place.hold_eq_ok_iff.mp (Place.hold_of_depth_le hhold hm)⟩
    · exact .object rfl hvalues ((readTag_text s).trans htag) fun m hm => ⟨(hholds m hm).1, rfl⟩
  | @array items q tag kind hq htag hholds =>
    obtain ⟨inner, -, rfl⟩ := enter_streamed hq
    obtain ⟨s, rfl⟩ := readTag_streamed htag
    obtain ⟨room', rfl⟩ := Nat.exists_eq_add_of_le' (Nat.le_trans (Nat.le_add_left 1 _) hdepth)
    refine ⟨Place.hold_eq_ok_iff.mpr (Json.readFault_array_eq_none_iff.mpr ⟨?_, rfl⟩), ?_⟩
    · refine List.forall_mem_cons.mpr ⟨rfl, fun j hj => ?_⟩
      have hj' : j.depth ≤ room' :=
        Nat.le_trans (Json.depth_le_itemsDepth (List.mem_cons_of_mem _ hj)) (Nat.le_of_succ_le_succ hdepth)
      exact Place.hold_eq_ok_iff.mp (Place.hold_of_depth_le (hholds j hj) hj')
    · exact .array rfl ((readTag_text s).trans htag) fun _ _ => rfl

/-- What is held whole and has no number for its tag is opened alike straight from the text. -/
theorem Opens.streamed (h : t.Opens .held j kind content) (hhold : (Place.streamed room').hold j = .ok ())
    (htag : ∀ n, j.tag? ≠ some (.number n)) (hdepth : j.depth ≤ room) : t.Opens (.streamed room) j kind content := by
  have hwhole := Place.hold_eq_ok_iff.mp (Place.hold_of_depth_le hhold hdepth)
  cases h with
  | @object members q tag kind hq hvalues hread hholds =>
    obtain rfl := Except.ok.inj hq
    obtain ⟨room, rfl⟩ := Nat.exists_eq_add_of_le' (Nat.le_trans (Nat.le_add_left 1 _) hdepth)
    rcases readTag_cases hread with ⟨s, rfl⟩ | ⟨-, i, rfl⟩
    · refine .object rfl hvalues ((readTag_text s).trans hread) fun m hm => ?_
      obtain ⟨hkey, hm⟩ := (Json.readFault_object_eq_none_iff.mp hwhole).1 m (List.mem_of_mem_filter hm)
      exact ⟨hkey, Place.hold_eq_ok_iff.mpr hm⟩
    · exact absurd (by rw [Json.tag?, hvalues]; rfl) (htag (.integer i))
  | @array items q tag kind hq hread hholds =>
    obtain rfl := Except.ok.inj hq
    obtain ⟨room, rfl⟩ := Nat.exists_eq_add_of_le' (Nat.le_trans (Nat.le_add_left 1 _) hdepth)
    rcases readTag_cases hread with ⟨s, rfl⟩ | ⟨-, i, rfl⟩
    · have hitems := (List.forall_mem_cons.mp (Json.readFault_array_eq_none_iff.mp hwhole).1).2
      exact .array rfl ((readTag_text s).trans hread) fun j hj => Place.hold_eq_ok_iff.mpr (hitems j hj)
    · exact absurd rfl (htag (.integer i))

end Tagged

end SceneScript
