/-
  SceneScript.Proofs.RecordLaws — records and tagged values that read back.

  A record is written field by field and read by slots: each member goes to the slot of
  its field, and the slots are applied in order to the blank record. `Restores` follows
  this along the fields. A field that is written puts its value back; one that is left
  out must be optional, and then the record has to be right without it. So a record is
  carried when its fields have distinct names and rebuild it from the blank record
  (`Record.carries`).

  A tagged value is carried when the content of its kind is (`Tagged.carries`).
-/
import SceneScript.Json.Tagged
import SceneScript.Proofs.CodecLaws

namespace SceneScript

/-! ## Fields -/

/-- Written for `r` and read into the slots, the fields turn `a` into `b`. -/
inductive Restores {ρ : Type} (r : ρ) : List (Field ρ) → Record.Slots ρ → ρ → ρ → Prop
  | done (a : ρ) : Restores r [] [] a a
  | present {f : Field ρ} {fs : List (Field ρ)} {change : ρ → ρ} {slots : Record.Slots ρ} {j : Json} {a b : ρ} :
      f.encode r = some j → j.Sound → (∀ p : Place, p.Fits j → f.decode p j = .ok change) →
      Restores r fs slots (change a) b → Restores r (f :: fs) (some change :: slots) a b
  | absent {f : Field ρ} {fs : List (Field ρ)} {slots : Record.Slots ρ} {a b : ρ} :
      f.encode r = none → f.isRequired = false → Restores r fs slots a b → Restores r (f :: fs) (none :: slots) a b

namespace Restores

variable {ρ : Type} {r : ρ} {fs : List (Field ρ)} {slots : Record.Slots ρ} {a b : ρ}

theorem fill (h : Restores r fs slots a b) : Record.fill fs slots a = .ok b := by
  induction h with
  | done => rfl
  | present _ _ _ _ ih => exact ih
  | absent _ hoptional _ ih =>
    rw [Record.fill, if_neg (by simp [hoptional])]
    exact ih

/-- The members that the fields write. -/
theorem sound (h : Restores r fs slots a b) :
    ∀ member ∈ fs.filterMap fun f => (f.encode r).map fun j => (f.name, j), member.2.Sound := by
  induction h with
  | done => simp
  | present hencode hsound _ _ ih =>
    rw [List.filterMap_cons_some (by rw [hencode]; rfl)]
    exact List.forall_mem_cons.mpr ⟨hsound, ih⟩
  | absent hencode _ _ ih =>
    rw [List.filterMap_cons_none (by rw [hencode]; rfl)]
    exact ih

end Restores

/-- Written for `r`, the fields turn `a` into `b`. -/
def Rebuilds {ρ : Type} (r : ρ) (fs : List (Field ρ)) (a b : ρ) : Prop := ∃ slots, Restores r fs slots a b

namespace Rebuilds

variable {ρ α : Type} {r a b : ρ} {fs : List (Field ρ)} {name : String} {c : Codec α}

theorem done (h : a = b) : Rebuilds r [] a b := ⟨[], h ▸ .done a⟩

theorem required {get : ρ → α} {set : ρ → α → ρ} (h : c.Carries (get r)) (hrest : Rebuilds r fs (set a (get r)) b) :
    Rebuilds r (.required name c get set :: fs) a b := by
  obtain ⟨slots, hrest⟩ := hrest
  have hdecode : ∀ p : Place, p.Fits (c.encode (get r)) →
      (Field.required name c get set).decode p (c.encode (get r)) = .ok fun r' => set r' (get r) := fun p hf => by
    show (c.decode p _ >>= fun value => _) = _
    rw [h.decode p hf]
    rfl
  exact ⟨_, .present rfl h.sound hdecode hrest⟩

/-- A field that is left out has to be right already. -/
theorem omitted {get : ρ → α} {set : ρ → α → ρ} {omits : α → Bool} (h : omits (get r) = false → c.Carries (get r))
    (hrest : Rebuilds r fs (if omits (get r) then a else set a (get r)) b) :
    Rebuilds r (.omitted name c get set omits :: fs) a b := by
  obtain ⟨slots, hrest⟩ := hrest
  cases ho : omits (get r) with
  | true =>
    rw [ho] at hrest
    exact ⟨_, .absent (by simp [Field.omitted, ho]) rfl hrest⟩
  | false =>
    rw [ho] at hrest
    have hdecode : ∀ p : Place, p.Fits (c.encode (get r)) →
        (Field.omitted name c get set omits).decode p (c.encode (get r)) = .ok fun r' => set r' (get r) := fun p hf => by
      show (c.decode p _ >>= fun value => _) = _
      rw [(h ho).decode p hf]
      rfl
    exact ⟨_, .present (by simp [Field.omitted, ho]) (h ho).sound hdecode hrest⟩

theorem written {get : ρ → α} {set : ρ → α → ρ} (h : c.Carries (get r)) (hrest : Rebuilds r fs (set a (get r)) b) :
    Rebuilds r (.written name c get set :: fs) a b :=
  omitted (fun _ => h) hrest

theorem maybe {get : ρ → Option α} {set : ρ → Option α → ρ}
    (h : ∀ value, get r = some value → c.Carries value ∧ c.encode value ≠ .null)
    (hrest : Rebuilds r fs (if (get r).isNone then a else set a (get r)) b) :
    Rebuilds r (.maybe name c get set :: fs) a b := by
  refine omitted (fun hsome => ?_) hrest
  cases hv : get r with
  | none => simp [hv] at hsome
  | some value =>
    obtain ⟨hc, hnull⟩ := h value hv
    exact Codec.option_carries hc hnull

end Rebuilds

namespace Record

variable {ρ : Type} {p : Place}

/-- A member goes to the slot of the one field that has its name. -/
theorem put?_at {front rest : List (Field ρ)} {f : Field ρ} {before after : Slots ρ} (v : Json)
    (hlength : front.length = before.length) (hname : ∀ g ∈ front, g.name ≠ f.name) :
    put? p f.name v (front ++ f :: rest) (before ++ none :: after) = some (do
      let change ← f.decode p v
      .ok (before ++ some change :: after)) := by
  induction front generalizing before with
  | nil =>
    obtain rfl := List.length_eq_zero_iff.mp hlength.symm
    simp only [List.nil_append, put?, if_true]
  | cons g front ih =>
    cases before with
    | nil => cases hlength
    | cons slot before =>
      obtain ⟨hg, hfront⟩ := List.forall_mem_cons.mp hname
      simp only [List.cons_append, put?, if_neg hg, ih (Nat.succ.inj hlength) hfront, Option.map_some]
      cases f.decode p v <;> rfl

/-- After a member that a field takes the rest is read. -/
theorem readMembers_of_put? {fields : List (Field ρ)} {name : String} {v : Json} {rest : List (Json × Json)}
    {slots slots' : Slots ρ} (h : put? p name v fields slots = some (.ok slots')) :
    readMembers fields p ((.text name, v) :: rest) slots = readMembers fields p rest slots' := by
  have hkey : (Json.text name).key = .ok name := rfl
  simp only [readMembers, hkey, bind, Except.bind, h]

/-- The members that the fields of a record write fill their slots. -/
theorem readMembers_restores {r : ρ} {fs : List (Field ρ)} {slots : Slots ρ} {a b : ρ} (h : Restores r fs slots a b)
    (front : List (Field ρ)) (before : Slots ρ) (hlength : front.length = before.length)
    (hnames : ((front ++ fs).map (·.name)).Nodup)
    (hfits : ∀ member ∈ fs.filterMap fun f => (f.encode r).map fun j => (f.name, j), p.Fits member.2) :
    readMembers (front ++ fs) p
      ((fs.filterMap fun f => (f.encode r).map fun j => (f.name, j)).map fun (k, v) => (.text k, v))
      (before ++ fs.map fun _ => none) = .ok (before ++ slots) := by
  induction h generalizing front before with
  | done => rfl
  | @present f fs change slots j a b hencode _ hdecode _ ih =>
    rw [List.filterMap_cons_some (by rw [hencode]; rfl)] at hfits ⊢
    obtain ⟨hfit, hfits⟩ := List.forall_mem_cons.mp hfits
    have hname : ∀ g ∈ front, g.name ≠ f.name := fun g hg heq => by
      rw [List.map_append] at hnames
      exact (List.nodup_append.mp hnames).2.2 g.name (List.mem_map_of_mem hg) f.name (by simp) heq
    have hput : put? p f.name j (front ++ f :: fs) (before ++ none :: fs.map fun _ => none)
        = some (.ok (before ++ some change :: fs.map fun _ => none)) := by
      rw [put?_at j hlength hname, hdecode p hfit]
      rfl
    have hrest : readMembers ((front ++ [f]) ++ fs) p _ ((before ++ [some change]) ++ fs.map fun _ => none) = _ :=
      ih _ _ (by simp [hlength]) (by simpa using hnames) hfits
    rw [List.map_cons, List.map_cons, readMembers_of_put? hput]
    simpa using hrest
  | @absent f fs slots a b hencode _ _ ih =>
    rw [List.filterMap_cons_none (by rw [hencode]; rfl)] at hfits ⊢
    have hrest : readMembers ((front ++ [f]) ++ fs) p _ ((before ++ [none]) ++ fs.map fun _ => none) = _ :=
      ih _ _ (by simp [hlength]) (by simpa using hnames) hfits
    simpa using hrest

/-- A record is carried when its fields have distinct names and rebuild it from the blank record. -/
theorem carries {record : Record ρ} {r : ρ} (hnames : (record.fields.map (·.name)).Nodup)
    (h : Rebuilds r record.fields record.blank r) : record.codec.Carries r := by
  obtain ⟨slots, h⟩ := h
  constructor
  · exact Json.sound_record h.sound
  · intro p hf
    obtain ⟨q, hq, hfq⟩ := Place.enter_record hf
    have hread : readMembers record.fields q ((record.members r).map fun (k, v) => (.text k, v))
        (record.fields.map fun _ => none) = .ok slots :=
      readMembers_restores h [] [] rfl hnames hfq
    show (p.enter >>= fun q => _) = _
    rw [hq]
    show (readMembers record.fields q _ _ >>= fun slots => _) = _
    rw [hread]
    exact h.fill

end Record

/-! ## Tagged values -/

namespace Tagged

variable {α : Type} {t : Tagged α}

/-- Members of other names than the tag's are held as they are. -/
theorem readMembers_held {p : Place} {tag? : Option (Variant α)} {members : List (String × Json)}
    (hnames : ∀ member ∈ members, member.1 ≠ tagName) (hsound : ∀ member ∈ members, member.2.Sound)
    (hfits : ∀ member ∈ members, p.Fits member.2) :
    t.readMembers p tag? (members.map fun (k, v) => (.text k, v))
      = .ok (tag?, members.map fun (k, v) => (.text k, v)) := by
  induction members with
  | nil => rfl
  | cons member members ih =>
    obtain ⟨hname, hnames⟩ := List.forall_mem_cons.mp hnames
    obtain ⟨hs, hsound⟩ := List.forall_mem_cons.mp hsound
    obtain ⟨hf, hfits⟩ := List.forall_mem_cons.mp hfits
    rw [List.map_cons, readMembers.eq_def]
    show (if member.1 = tagName then _ else _) = _
    rw [if_neg hname, Place.hold_of_fits hs hf]
    show (t.readMembers p tag? _ >>= fun _ => _) = _
    rw [ih hnames hsound hfits]
    rfl

/-- A tagged value is carried when its kind is known and the content of the kind is read back. -/
theorem carries {value : α} {kind : Variant α}
    (hfind : t.variants.find? (fun v => v.name == (t.encode value).1) = some kind)
    (hnames : ∀ member ∈ (t.encode value).2, member.1 ≠ tagName)
    (hsound : ∀ member ∈ (t.encode value).2, member.2.Sound)
    (hdecode : kind.decode (.record (t.encode value).2) = .ok value) : t.codec.Carries value := by
  have hencode : t.codec.encode value = .record ((tagName, .text (t.encode value).1) :: (t.encode value).2) := rfl
  constructor
  · rw [hencode]
    exact Json.sound_record (List.forall_mem_cons.mpr ⟨trivial, hsound⟩)
  · intro p hf
    rw [hencode] at hf ⊢
    obtain ⟨q, hq, hfq⟩ := Place.enter_record hf
    have htag : t.readTag q (.text (t.encode value).1) = .ok kind := by
      cases q <;> simp only [readTag, hfind]
    have hheld : t.readMembers q (some kind) _ = _ := readMembers_held hnames hsound (List.forall_mem_cons.mp hfq).2
    show (p.enter >>= fun q => _) = _
    rw [hq]
    show (t.readMembers q none _ >>= fun _ => _) = _
    rw [List.map_cons, readMembers.eq_def]
    show ((t.readTag q (.text (t.encode value).1) >>= fun tag => _) >>= fun _ => _) = _
    rw [htag]
    show (t.readMembers q (some kind) _ >>= fun _ => _) = _
    rw [hheld]
    exact hdecode

/-- Of a kind whose content is a record. -/
theorem carries_record {ρ : Type} {record : Record ρ} {r : ρ} {make : ρ → α} {value : α} {name : String}
    (hencode : t.encode value = (name, record.members r)) (hmake : make r = value)
    (hfind : t.variants.find? (fun v => v.name == name) = some (.ofRecord name record make))
    (hnames : tagName ∉ record.fields.map (·.name)) (h : record.codec.Carries r) : t.codec.Carries value := by
  refine carries (by rw [hencode]; exact hfind) ?_ ?_ ?_
  · rw [hencode]
    intro member hmember heq
    obtain ⟨f, hf, hwritten⟩ := List.mem_filterMap.mp hmember
    obtain ⟨j, -, rfl⟩ := Option.map_eq_some_iff.mp hwritten
    exact hnames (heq ▸ List.mem_map_of_mem hf)
  · rw [hencode]
    exact Json.membersSound_iff.mp h.sound.1
  · rw [hencode]
    show (record.codec.decode .held (record.codec.encode r)).map make = _
    rw [h.decode .held trivial, ← hmake]
    rfl

end Tagged

end SceneScript
