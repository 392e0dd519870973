/-
  SceneScript.Proofs.WholeValues — which values are read, or passed over, without a fault.

  A value is read to its end if it is closed everywhere, all keys are texts, nothing in it
  is broken and it is no deeper than the room for it (`Json.readFault_array_eq_none_iff`,
  `Json.readFault_object_eq_none_iff`). So the room matters only through the depth
  (`Json.readFault_of_depth_le`), and what can be read can also be passed over
  (`Json.skipFault_of_readFault`).
-/
import SceneScript.Proofs.SoundValue

namespace SceneScript

theorem Close.fault?_eq_none_iff {close : Close} : close.fault? = none ↔ close = .closed := by
  cases close with
  | closed => exact iff_of_true rfl rfl
  | broken afterComma fault => exact iff_of_false nofun nofun

namespace Json

variable {room room' : Nat} {j k : Json} {items : List Json} {members : List (Json × Json)} {close : Close}

/-! ## Elements and members -/

theorem keyReadFault_eq_none_iff : keyReadFault k = none ↔ ∃ name, k = .text name := by
  constructor
  · intro h
    cases k with
    | text name => exact ⟨name, rfl⟩
    | broken b =>
      obtain ⟨opening, onRead, onSkip⟩ := b
      cases opening <;> cases h
    | _ => cases h
  · rintro ⟨name, rfl⟩
    rfl

theorem itemsReadFault_eq_none_iff : itemsReadFault room items = none ↔ ∀ j ∈ items, readFault room j = none := by
  induction items with
  | nil => exact iff_of_true rfl nofun
  | cons j items ih => rw [itemsReadFault, Option.or_eq_none_iff, ih, List.forall_mem_cons]

theorem membersReadFault_eq_none_iff :
    membersReadFault room members = none ↔ ∀ m ∈ members, (∃ name, m.1 = .text name) ∧ readFault room m.2 = none := by
  induction members with
  | nil => exact iff_of_true rfl nofun
  | cons m members ih =>
    rw [membersReadFault, Option.or_eq_none_iff, Option.or_eq_none_iff, keyReadFault_eq_none_iff, ih, List.forall_mem_cons,
      and_assoc]

theorem depth_le_of_member {m : Json × Json} (h : m ∈ members) : depth m.2 ≤ membersDepth members := by
  induction members with
  | nil => cases h
  | cons m' members ih =>
    rw [membersDepth]
    rcases List.mem_cons.mp h with rfl | h
    · exact Nat.le_max_left _ _
    · exact Nat.le_trans (ih h) (Nat.le_max_right _ _)

theorem membersDepth_le_iff : membersDepth members ≤ room ↔ ∀ m ∈ members, depth m.2 ≤ room := by
  constructor
  · exact fun h m hm => Nat.le_trans (depth_le_of_member hm) h
  · intro h
    induction members with
    | nil => exact Nat.zero_le room
    | cons m members ih =>
      obtain ⟨hm, hmembers⟩ := List.forall_mem_cons.mp h
      exact Nat.max_le.mpr ⟨hm, ih hmembers⟩

/-! ## Values -/

theorem readFault_array_eq_none_iff :
    readFault (room + 1) (.array items close) = none ↔ (∀ j ∈ items, readFault room j = none) ∧ close = .closed := by
  rw [readFault, Option.or_eq_none_iff, itemsReadFault_eq_none_iff, Close.fault?_eq_none_iff]

theorem readFault_object_eq_none_iff :
    readFault (room + 1) (.object members close) = none
      ↔ (∀ m ∈ members, (∃ name, m.1 = .text name) ∧ readFault room m.2 = none) ∧ close = .closed := by
  rw [readFault, Option.or_eq_none_iff, membersReadFault_eq_none_iff, Close.fault?_eq_none_iff]

mutual

/-- A value that is read to its end is so wherever there is room for it. -/
theorem readFault_of_depth_le : ∀ {j : Json} {room room' : Nat}, readFault room j = none → depth j ≤ room' →
    readFault room' j = none
  | .null, _, _, _, _ => rfl
  | .flag _, _, _, _, _ => rfl
  | .number _, _, _, _, _ => rfl
  | .text _, _, _, _, _ => rfl
  | .broken _, _, _, h, _ => nomatch h
  | .array _ _, 0, _, h, _ => nomatch h
  | .object _ _, 0, _, h, _ => nomatch h
  | .array items close, room + 1, room' + 1, h, hdepth => by
    rw [readFault, Option.or_eq_none_iff] at h ⊢
    exact ⟨itemsReadFault_of_depth_le h.1 (Nat.le_of_succ_le_succ hdepth), h.2⟩
  | .object members close, room + 1, room' + 1, h, hdepth => by
    rw [readFault, Option.or_eq_none_iff] at h ⊢
    exact ⟨membersReadFault_of_depth_le h.1 (Nat.le_of_succ_le_succ hdepth), h.2⟩
termination_by structural j => j

theorem itemsReadFault_of_depth_le : ∀ {js : List Json} {room room' : Nat}, itemsReadFault room js = none →
    itemsDepth js ≤ room' → itemsReadFault room' js = none
  | [], _, _, _, _ => rfl
  | j :: js, room, room', h, hdepth => by
    obtain ⟨hj, hjs⟩ := Nat.max_le.mp hdepth
    rw [itemsReadFault, Option.or_eq_none_iff] at h ⊢
    exact ⟨readFault_of_depth_le h.1 hj, itemsReadFault_of_depth_le h.2 hjs⟩
termination_by structural js => js

theorem membersReadFault_of_depth_le : ∀ {ms : List (Json × Json)} {room room' : Nat},
    membersReadFault room ms = none → membersDepth ms ≤ room' → membersReadFault room' ms = none
  | [], _, _, _, _ => rfl
  | (k, v) :: ms, room, room', h, hdepth => by
    obtain ⟨hv, hms⟩ := Nat.max_le.mp hdepth
    rw [membersReadFault, Option.or_eq_none_iff, Option.or_eq_none_iff] at h ⊢
    exact ⟨h.1, readFault_of_depth_le h.2.1 hv, membersReadFault_of_depth_le h.2.2 hms⟩
termination_by structural ms => ms

end

section Parts

variable {front back : List Json} {front' back' : List (Json × Json)} {j j' k : Json} {name : String} {room : Nat}

/-- Only the new part of a value can be at fault. -/
theorem readFault_replace_item (hj : readFault room j = none → readFault room j' = none)
    (h : readFault (room + 1) (.array (front ++ j :: back) close) = none) :
    readFault (room + 1) (.array (front ++ j' :: back) close) = none := by
  simp only [readFault_array_eq_none_iff, List.forall_mem_append, List.forall_mem_cons] at h ⊢
  obtain ⟨⟨hfront, hold, hback⟩, hclose⟩ := h
  exact ⟨⟨hfront, hj hold, hback⟩, hclose⟩

theorem readFault_replace_value (hj : readFault room j = none → readFault room j' = none)
    (h : readFault (room + 1) (.object (front' ++ (k, j) :: back') close) = none) :
    readFault (room + 1) (.object (front' ++ (k, j') :: back') close) = none := by
  simp only [readFault_object_eq_none_iff, List.forall_mem_append, List.forall_mem_cons] at h ⊢
  obtain ⟨⟨hfront, ⟨hkey, hold⟩, hback⟩, hclose⟩ := h
  exact ⟨⟨hfront, ⟨hkey, hj hold⟩, hback⟩, hclose⟩

theorem readFault_insert (hj : readFault room j = none)
    (h : readFault (room + 1) (.object (front' ++ back') close) = none) :
    readFault (room + 1) (.object (front' ++ (.text name, j) :: back') close) = none := by
  simp only [readFault_object_eq_none_iff, List.forall_mem_append, List.forall_mem_cons] at h ⊢
  obtain ⟨⟨hfront, hback⟩, hclose⟩ := h
  exact ⟨⟨hfront, ⟨⟨name, rfl⟩, hj⟩, hback⟩, hclose⟩

end Parts

/-! ## What is passed over -/

theorem itemsSkipFault_eq_none_iff : itemsSkipFault items = none ↔ ∀ j ∈ items, skipFault j = none := by
  induction items with
  | nil => exact iff_of_true rfl nofun
  | cons j items ih => rw [itemsSkipFault, Option.or_eq_none_iff, ih, List.forall_mem_cons]

theorem membersSkipFault_eq_none_iff :
    membersSkipFault members = none ↔ ∀ m ∈ members, keySkipFault m.1 = none ∧ skipFault m.2 = none := by
  induction members with
  | nil => exact iff_of_true rfl nofun
  | cons m members ih =>
    rw [membersSkipFault, Option.or_eq_none_iff, Option.or_eq_none_iff, ih, List.forall_mem_cons, and_assoc]

theorem skipFault_array_eq_none_iff :
    skipFault (.array items close) = none ↔ (∀ j ∈ items, skipFault j = none) ∧ close = .closed := by
  rw [skipFault, Option.or_eq_none_iff, itemsSkipFault_eq_none_iff, Close.fault?_eq_none_iff]

theorem skipFault_object_eq_none_iff :
    skipFault (.object members close) = none
      ↔ (∀ m ∈ members, keySkipFault m.1 = none ∧ skipFault m.2 = none) ∧ close = .closed := by
  rw [skipFault, Option.or_eq_none_iff, membersSkipFault_eq_none_iff, Close.fault?_eq_none_iff]

mutual

/-- What can be read can be passed over. -/
theorem skipFault_of_readFault : ∀ {j : Json} {room : Nat}, readFault room j = none → skipFault j = none
  | .null, _, _ => rfl
  | .flag _, _, _ => rfl
  | .number _, _, _ => rfl
  | .text _, _, _ => rfl
  | .broken _, _, h => nomatch h
  | .array _ _, 0, h => nomatch h
  | .object _ _, 0, h => nomatch h
  | .array items close, room + 1, h => by
    rw [readFault, Option.or_eq_none_iff] at h
    rw [skipFault, Option.or_eq_none_iff]
    exact ⟨itemsSkipFault_of_readFault h.1, h.2⟩
  | .object members close, room + 1, h => by
    rw [readFault, Option.or_eq_none_iff] at h
    rw [skipFault, Option.or_eq_none_iff]
    exact ⟨membersSkipFault_of_readFault h.1, h.2⟩
termination_by structural j => j

theorem itemsSkipFault_of_readFault : ∀ {js : List Json} {room : Nat}, itemsReadFault room js = none →
    itemsSkipFault js = none
  | [], _, _ => rfl
  | j :: js, room, h => by
    rw [itemsReadFault, Option.or_eq_none_iff] at h
    rw [itemsSkipFault, Option.or_eq_none_iff]
    exact ⟨skipFault_of_readFault h.1, itemsSkipFault_of_readFault h.2⟩
termination_by structural js => js

theorem membersSkipFault_of_readFault : ∀ {ms : List (Json × Json)} {room : Nat}, membersReadFault room ms = none →
    membersSkipFault ms = none
  | [], _, _ => rfl
  | (k, v) :: ms, room, h => by
    rw [membersReadFault, Option.or_eq_none_iff, Option.or_eq_none_iff] at h
    obtain ⟨name, rfl⟩ := keyReadFault_eq_none_iff.mp h.1
    rw [membersSkipFault, Option.or_eq_none_iff, Option.or_eq_none_iff]
    exact ⟨rfl, skipFault_of_readFault h.2.1, membersSkipFault_of_readFault h.2.2⟩
termination_by structural ms => ms

end

end Json

/-! ## Places -/

theorem ReadError.check_eq_ok_iff_none {fault? : Option Fault} : ReadError.check fault? = .ok () ↔ fault? = none := by
  cases fault? <;> simp [ReadError.check]

namespace Place

variable {room room' : Nat} {j : Json}

theorem hold_eq_ok_iff : (Place.streamed room).hold j = .ok () ↔ j.readFault room = none :=
  ReadError.check_eq_ok_iff_none

theorem pass_eq_ok_iff : (Place.streamed room).pass j = .ok () ↔ j.skipFault = none :=
  ReadError.check_eq_ok_iff_none

/-- What is held at one place can be held wherever there is room for it. -/
theorem hold_of_depth_le (h : (Place.streamed room).hold j = .ok ()) (hdepth : j.depth ≤ room') :
    (Place.streamed room').hold j = .ok () :=
  hold_eq_ok_iff.mpr (Json.readFault_of_depth_le (hold_eq_ok_iff.mp h) hdepth)

end Place

end SceneScript
