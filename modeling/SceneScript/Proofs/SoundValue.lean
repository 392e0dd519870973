/-
  SceneScript.Proofs.SoundValue — values without a fault.

  A value is sound when nothing in it is broken, every container is closed, every key is
  a text and every integer fits 64 bits: it is what some text holds as a whole. Its depth
  is the number of containers that are open at once in that text. A sound value that is
  no deeper than the room for it is read without a fault (`readFault_of_sound`).
-/
import SceneScript.Json.Codec

namespace SceneScript

/-- An integer fits 64 bits, signed or unsigned. -/
def Numeral.Sound : Numeral → Prop
  | .integer n => -0x8000000000000000 ≤ n ∧ n < 0x10000000000000000
  | .real _ => True

namespace Json

mutual

/-- Nothing in the value is broken. -/
def Sound : Json → Prop
  | .null => True
  | .flag _ => True
  | .number n => n.Sound
  | .text _ => True
  | .array items close => ItemsSound items ∧ close = .closed
  | .object members close => MembersSound members ∧ close = .closed
  | .broken _ => False
termination_by structural j => j

def ItemsSound : List Json → Prop
  | [] => True
  | j :: js => Sound j ∧ ItemsSound js
termination_by structural js => js

def MembersSound : List (Json × Json) → Prop
  | [] => True
  | (k, v) :: rest => (∃ name, k = .text name) ∧ Sound v ∧ MembersSound rest
termination_by structural ms => ms

end

mutual

/-- How many containers are open at once. -/
def depth : Json → Nat
  | .array items _ => itemsDepth items + 1
  | .object members _ => membersDepth members + 1
  | .null => 0
  | .flag _ => 0
  | .number _ => 0
  | .text _ => 0
  | .broken _ => 0
termination_by structural j => j

def itemsDepth : List Json → Nat
  | [] => 0
  | j :: js => max (depth j) (itemsDepth js)
termination_by structural js => js

def membersDepth : List (Json × Json) → Nat
  | [] => 0
  | (_, v) :: rest => max (depth v) (membersDepth rest)
termination_by structural ms => ms

end

/-! ## Elements and members -/

theorem itemsSound_iff {items : List Json} : ItemsSound items ↔ ∀ j ∈ items, Sound j := by
  induction items with
  | nil => simp [ItemsSound]
  | cons j js ih => rw [ItemsSound, ih, List.forall_mem_cons]

theorem depth_le_itemsDepth {items : List Json} {j : Json} (h : j ∈ items) : depth j ≤ itemsDepth items := by
  induction items with
  | nil => cases h
  | cons i items ih =>
    rw [itemsDepth]
    rcases List.mem_cons.mp h with rfl | h
    · exact Nat.le_max_left _ _
    · exact Nat.le_trans (ih h) (Nat.le_max_right _ _)

/-- The members of a sound object, which have names. -/
theorem membersSound_iff {members : List (String × Json)} :
    MembersSound (members.map fun (k, v) => (.text k, v)) ↔ ∀ member ∈ members, Sound member.2 := by
  induction members with
  | nil => simp [MembersSound]
  | cons member members ih =>
    rw [List.map_cons, MembersSound, ih, List.forall_mem_cons]
    simp

theorem depth_le_membersDepth {members : List (String × Json)} {name : String} {j : Json} (h : (name, j) ∈ members) :
    depth j ≤ membersDepth (members.map fun (k, v) => (.text k, v)) := by
  induction members with
  | nil => cases h
  | cons m members ih =>
    rw [List.map_cons, membersDepth]
    rcases List.mem_cons.mp h with rfl | h
    · exact Nat.le_max_left _ _
    · exact Nat.le_trans (ih h) (Nat.le_max_right _ _)

theorem sound_list {items : List Json} (h : ∀ j ∈ items, Sound j) : Sound (list items) := ⟨itemsSound_iff.mpr h, rfl⟩

theorem sound_record {members : List (String × Json)} (h : ∀ member ∈ members, Sound member.2) :
    Sound (record members) :=
  ⟨membersSound_iff.mpr h, rfl⟩

/-! ## Faults -/

mutual

theorem readFault_of_sound : ∀ {j : Json} {room : Nat}, Sound j → depth j ≤ room → readFault room j = none
  | .null, _, _, _ => rfl
  | .flag _, _, _, _ => rfl
  | .number _, _, _, _ => rfl
  | .text _, _, _, _ => rfl
  | .array items _, room, h, hroom => by
    obtain ⟨hitems, rfl⟩ := h
    obtain ⟨room, rfl⟩ := Nat.exists_eq_add_of_le' (Nat.le_trans (Nat.le_add_left 1 _) hroom)
    rw [readFault, itemsReadFault_of_sound hitems (Nat.le_of_succ_le_succ hroom)]
    rfl
  | .object members _, room, h, hroom => by
    obtain ⟨hmembers, rfl⟩ := h
    obtain ⟨room, rfl⟩ := Nat.exists_eq_add_of_le' (Nat.le_trans (Nat.le_add_left 1 _) hroom)
    rw [readFault, membersReadFault_of_sound hmembers (Nat.le_of_succ_le_succ hroom)]
    rfl
termination_by structural j => j

theorem itemsReadFault_of_sound : ∀ {js : List Json} {room : Nat}, ItemsSound js → itemsDepth js ≤ room →
    itemsReadFault room js = none
  | [], _, _, _ => rfl
  | j :: js, room, h, hroom => by
    obtain ⟨hj, hjs⟩ := Nat.max_le.mp hroom
    rw [itemsReadFault, readFault_of_sound h.1 hj, itemsReadFault_of_sound h.2 hjs]
    rfl
termination_by structural js => js

theorem membersReadFault_of_sound : ∀ {ms : List (Json × Json)} {room : Nat}, MembersSound ms →
    membersDepth ms ≤ room → membersReadFault room ms = none
  | [], _, _, _ => rfl
  | (k, v) :: ms, room, h, hroom => by
    obtain ⟨⟨name, rfl⟩, hv, hms⟩ := h
    obtain ⟨hdepth, hrest⟩ := Nat.max_le.mp hroom
    rw [membersReadFault, readFault_of_sound hv hdepth, membersReadFault_of_sound hms hrest]
    rfl
termination_by structural ms => ms

end

end Json

/-! ## Places -/

namespace Place

/-- There is room for the value. What is held needs none. -/
def Fits : Place → Json → Prop
  | .streamed room, j => j.depth ≤ room
  | .held, _ => True

theorem hold_of_fits {p : Place} {j : Json} (hs : j.Sound) (hf : p.Fits j) : p.hold j = .ok () := by
  cases p with
  | streamed room => rw [hold, Json.readFault_of_sound hs hf, ReadError.check]
  | held => rfl

/-- Where a container fits, its elements fit inside. -/
theorem enter_list {p : Place} {items : List Json} (hf : p.Fits (.list items)) :
    ∃ q, p.enter = .ok q ∧ ∀ j ∈ items, q.Fits j := by
  cases p with
  | streamed room =>
    obtain ⟨room, rfl⟩ := Nat.exists_eq_add_of_le' (Nat.le_trans (Nat.le_add_left 1 _) hf)
    exact ⟨.streamed room, rfl, fun j hj => Nat.le_trans (Json.depth_le_itemsDepth hj) (Nat.le_of_succ_le_succ hf)⟩
  | held => exact ⟨.held, rfl, fun _ _ => trivial⟩

theorem enter_record {p : Place} {members : List (String × Json)} (hf : p.Fits (.record members)) :
    ∃ q, p.enter = .ok q ∧ ∀ member ∈ members, q.Fits member.2 := by
  cases p with
  | streamed room =>
    obtain ⟨room, rfl⟩ := Nat.exists_eq_add_of_le' (Nat.le_trans (Nat.le_add_left 1 _) hf)
    exact ⟨.streamed room, rfl, fun m hm => Nat.le_trans (Json.depth_le_membersDepth hm) (Nat.le_of_succ_le_succ hf)⟩
  | held => exact ⟨.held, rfl, fun _ _ => trivial⟩

end Place

end SceneScript
