/-
  SceneScript.Proofs.CodecLaws — codecs that read back what they write.

  A codec carries a value when what it writes for the value is sound and, at every place
  where that fits, is read as the value again (`Codec.Carries`). Scalars, names, lists
  and optional values are here; what a list needs of its elements is asked only of the
  elements that are there, since objects are carried only down to a depth. A value that
  is carried comes back from its text if the text is not too deep (`Carries.reads_back`).
-/
import SceneScript.Proofs.JsonText
import SceneScript.Proofs.SoundValue

namespace SceneScript

/-- The value is written soundly and read back. -/
structure Codec.Carries {α : Type} (c : Codec α) (a : α) : Prop where
  sound : (c.encode a).Sound
  decode : ∀ p : Place, p.Fits (c.encode a) → c.decode p (c.encode a) = .ok a

namespace Codec

/-- What is written for carried values tells them apart. -/
theorem Carries.inj {α : Type} {c : Codec α} {a b : α} (ha : c.Carries a) (hb : c.Carries b)
    (h : c.encode a = c.encode b) : a = b := by
  have hread := ha.decode .held trivial
  rw [h, hb.decode .held trivial] at hread
  exact (Except.ok.inj hread).symm

/-- A whole text gives the value back. -/
theorem Carries.reads_back {α : Type} {c : Codec α} {a : α} (h : c.Carries a)
    (hdepth : (c.encode a).depth ≤ Json.nestingLimit) : c.ofText (c.toText a) = .ok a := by
  have hdecode : c.decode (.streamed Json.nestingLimit) (c.encode a) = .ok a := h.decode _ hdepth
  simp only [ofText, toText, Json.read_print h.sound, hdecode]
  rfl

/-! ## Scalars -/

theorem flag_carries (b : Bool) : flag.Carries b := ⟨trivial, fun _ _ => rfl⟩

theorem text_carries (s : String) : text.Carries s := ⟨trivial, fun _ _ => rfl⟩

theorem double_carries (d : Double) : double.Carries d := ⟨trivial, fun _ _ => rfl⟩

theorem word_carries (n : UInt32) : word.Carries n := by
  have hn : n.toNat < 0x100000000 := n.toNat_lt
  refine ⟨show (Numeral.integer n.toNat).Sound from ⟨by omega, by omega⟩, fun p _ => ?_⟩
  have hrange : (0 : Int) ≤ n.toNat ∧ (n.toNat : Int) < 0x100000000 := ⟨by omega, by omega⟩
  simp only [word]
  rw [if_pos hrange, Int.toNat_natCast, UInt32.ofNat_toNat]

/-! ## Lists and optional values -/

section Compound

variable {α : Type} {c : Codec α}

theorem mapM_decode {p : Place} {values : List α} (h : ∀ a ∈ values, c.Carries a)
    (hf : ∀ a ∈ values, p.Fits (c.encode a)) : (values.map c.encode).mapM (c.decode p) = .ok values := by
  induction values with
  | nil => rfl
  | cons a values ih =>
    obtain ⟨ha, hvalues⟩ := List.forall_mem_cons.mp h
    obtain ⟨hfa, hfvalues⟩ := List.forall_mem_cons.mp hf
    rw [List.map_cons, List.mapM_cons, ha.decode p hfa, ih hvalues hfvalues]
    rfl

theorem list_carries {values : List α} (h : ∀ a ∈ values, c.Carries a) : c.list.Carries values := by
  constructor
  · refine Json.sound_list fun j hj => ?_
    obtain ⟨a, ha, rfl⟩ := List.mem_map.mp hj
    exact (h a ha).sound
  · intro p hf
    obtain ⟨q, hq, hfq⟩ := Place.enter_list hf
    have hvalues := mapM_decode h fun a ha => hfq _ (List.mem_map_of_mem ha)
    show (p.enter >>= fun q => _ >>= fun values => _) = _
    rw [hq]
    show ((values.map c.encode).mapM (c.decode q) >>= fun values => _) = _
    rw [hvalues]
    rfl

/-- A value that is not written as `null` may be optional. -/
theorem option_carries {a : α} (h : c.Carries a) (hnull : c.encode a ≠ .null) : c.option.Carries (some a) := by
  refine ⟨h.sound, fun p hf => ?_⟩
  have hdecode := h.decode p hf
  have hsound := h.sound
  simp only [option]
  split
  · rename_i heq
    exact absurd heq hnull
  · rename_i heq
    rw [heq] at hsound
    cases hsound
  · rw [hdecode]
    rfl

end Compound

/-! ## Names -/

/-- A name is found if it is listed for the value. -/
theorem names_carries {α : Type} {all : List (String × α)} {nameOf : α → String} {a : α}
    (h : all.lookup (nameOf a) = some a) : (names all nameOf).Carries a := by
  refine ⟨trivial, fun p _ => ?_⟩
  have hlook : lookUp all (nameOf a) = .ok a := by rw [lookUp, h]
  cases p with
  | streamed room => exact hlook
  | held => exact hlook

end Codec

end SceneScript
