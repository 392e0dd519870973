/-
  SceneScript.Proofs.LostMarkers — a script that has lost markers.

  People edit a script, and a marker may go. Deleting markers joins the texts around them,
  and what is left is searched all the same. Proved: if the own text holds no marker and the
  regions do not say what a marker says (`Regions.Coreless`), then after any markers are
  deleted
  - a region inside the code is found, as it is, exactly if both of its markers are left, and
    the trailing region exactly if the last marker is (`find_without`);
  - each region that is not found comes back as a placeholder and is reported once, in the
    order of the script (`lost_markers_lose_their_region`).

  The reason is that deleting makes no new marker: the pieces that are left are `Separate`
  (`separate_pieces`). An own piece ends in a line feed and blanks, and the next one begins
  with a line feed. A region meets a marker at a slash, and a marker that crossed there
  would have all that it says within the region.
-/
import SceneScript.Proofs.OwnText
import SceneScript.Proofs.Regeneration
import SceneScript.Proofs.TextPieces

namespace SceneScript

open Text (Occurs OnlyAtEnd Straddles Separate)

/-! ## What markers say -/

namespace Marker

/-- What each marker says between the dashes. -/
def cores : List String :=
  ["pre-init-begin", "pre-init-end", "post-init-begin", "post-init-end", "end generated code"]

theorem core_of_mem {mark : String} (h : mark ∈ all) :
    ∃ core ∈ cores, '/' ∉ core.toList ∧ core.toList <:+: mark.toList := by
  have : ∀ mark ∈ all, ∃ core ∈ cores, '/' ∉ core.toList ∧ core.toList <:+: mark.toList := by decide +kernel
  exact this mark h

/-- No marker is part of another. -/
theorem eq_of_occurs {mark mark' : String} (h : mark ∈ all) (h' : mark' ∈ all) (ho : Occurs mark mark') :
    mark = mark' := by
  have : ∀ mark ∈ all, ∀ mark' ∈ all, Occurs mark mark' → mark = mark' := by decide +kernel
  exact this mark h mark' h' ho

theorem ne_empty {mark : String} (h : mark ∈ all) : mark ≠ "" := by
  rintro rfl
  revert h
  decide

theorem infix_of_infix_concat {core l : List Char} (hc : '/' ∉ core) (h : core <:+: l ++ ['/']) : core <:+: l := by
  rcases List.infix_append_iff_ne_nil.mp h with h | h | ⟨l₁, l₂, -, h₂, rfl, -, hp⟩
  · exact h
  · rcases List.infix_cons_iff.mp h with h | h
    · cases core with
      | nil => exact List.nil_infix
      | cons c core => exact absurd (by simp [(List.cons_prefix_cons.mp h).1]) hc
    · rw [List.eq_nil_of_infix_nil h]
      exact List.nil_infix
  · obtain ⟨c, l, rfl⟩ := List.exists_cons_of_ne_nil h₂
    exact absurd (by simp [(List.cons_prefix_cons.mp hp).1]) hc

theorem infix_of_infix_cons {core l : List Char} (hc : '/' ∉ core) (h : core <:+: '/' :: l) : core <:+: l := by
  rcases List.infix_cons_iff.mp h with h | h
  · cases core with
    | nil => exact List.nil_infix
    | cons c core => exact absurd (by simp [(List.cons_prefix_cons.mp h).1]) hc
  · exact h

end Marker

/-- Does not say what a marker says. -/
def Coreless (s : String) : Prop := ∀ core ∈ Marker.cores, ¬ Occurs core s

instance (s : String) : Decidable (Coreless s) := inferInstanceAs (Decidable (∀ core ∈ Marker.cores, _))

/-- Begins with a slash or a line feed, if with anything: so does all that can follow a region. -/
def Edge (s : String) : Prop := ∀ c ∈ s.toList.head?, c = '/' ∨ c = '\n'

/-- No region says what a marker says. -/
structure Regions.Coreless (r : Regions) : Prop where
  preInit : SceneScript.Coreless r.preInit
  postInit : SceneScript.Coreless r.postInit
  trailing : SceneScript.Coreless r.trailing

namespace Coreless

variable {mark u : String} (hm : mark ∈ Marker.all) (hu : Coreless u)
include hm hu

theorem not_occurs : ¬ Occurs mark u := fun h => by
  obtain ⟨core, hcore, -, ho⟩ := Marker.core_of_mem hm
  exact hu core hcore (ho.trans h)

/-- A marker that ends with the first slash after a text says all that it says within the text. -/
theorem not_straddles {y : String} (hy : Edge y) : ¬ Straddles mark u y := by
  rintro ⟨l₁, l₂, h₁, h₂, h, hl, hr⟩
  obtain ⟨c, l, rfl⟩ := List.exists_cons_of_ne_nil h₂
  have hhead : c ∈ y.toList.head? := by
    obtain ⟨t, ht⟩ := hr
    simp [← ht]
  have hc := Marker.isComment_of_mem hm
  rcases hy c hhead with rfl | rfl
  · obtain rfl : l = [] := hc.slash_last h h₁
    obtain ⟨core, hcore, hslash, ho⟩ := Marker.core_of_mem hm
    rw [h] at ho
    exact hu core hcore ((Marker.infix_of_infix_concat hslash ho).trans hl.isInfix)
  · exact hc.newline_not_mem (by simp [h])

/-- So does one that begins with the last slash before it. -/
theorem not_straddles_after_slash {x y : String} (hx : x.toList.getLast? = some '/') (hy : Edge y) :
    ¬ Straddles mark x (u ++ y) := by
  rintro ⟨l₁, l₂, h₁, h₂, h, hl, hr⟩
  have hc := Marker.isComment_of_mem hm
  obtain ⟨core, hcore, hslash, ho⟩ := Marker.core_of_mem hm
  obtain ⟨l, rfl⟩ : ∃ l, l₁ = l ++ ['/'] := by
    obtain ⟨t, ht⟩ := hl
    rw [← ht, List.getLast?_append, Option.or_of_isSome (by simpa using h₁)] at hx
    exact List.getLast?_eq_some_iff.mp hx
  obtain rfl : l = [] := by
    by_contra hne
    exact h₂ (hc.slash_last (by simpa using h) hne)
  rw [h, List.nil_append, List.singleton_append] at ho
  have ho := Marker.infix_of_infix_cons hslash ho
  obtain ⟨more, hmore⟩ := hr
  rw [String.toList_append] at hmore
  rcases List.append_eq_append_iff.mp hmore with ⟨t, hu', -⟩ | ⟨t, rfl, hy'⟩
  · exact hu core hcore (ho.trans ⟨[], t, by simpa using hu'.symm⟩)
  · cases t with
    | nil => exact hu core hcore (by simpa [Occurs] using ho)
    | cons c t =>
      rcases hy c (by simp [hy']) with rfl | rfl
      · have hsplit : mark.toList = ('/' :: u.toList) ++ '/' :: t := by simpa using h
        obtain rfl : t = [] := hc.slash_last hsplit (by simp)
        exact hu core hcore (Marker.infix_of_infix_concat hslash ho)
      · exact hc.newline_not_mem (by simp [h])

end Coreless

/-! ## Ends of own pieces -/

/-- Ends in a line feed and blanks. -/
def EndsBlank (s : String) : Prop := ∃ front blank, s = front ++ "\n" ++ blank ∧ Text.isBlank blank = true

/-- No marker begins among blanks, and none runs over a line feed. -/
theorem EndsBlank.not_straddles {mark x : String} (hm : mark ∈ Marker.all) (hx : EndsBlank x) (y : String) :
    ¬ Straddles mark x y := by
  rintro ⟨l₁, l₂, h₁, -, h, hl, -⟩
  obtain ⟨front, blank, rfl, hblank⟩ := hx
  have hc := Marker.isComment_of_mem hm
  have hhead : l₁.head? = some '/' := by
    have := hc.head_slash
    rwa [h, List.head?_append, Option.or_of_isSome (by simpa using h₁)] at this
  obtain ⟨before, hbefore⟩ := hl
  have hsplit : before ++ l₁ = front.toList ++ ('\n' :: blank.toList) := by simpa using hbefore
  have hline : '\n' ∉ l₁ := fun hn => hc.newline_not_mem (by simp [h, hn])
  rcases List.append_eq_append_iff.mp hsplit with ⟨t, -, rfl⟩ | ⟨t, -, ht⟩
  · exact hline (by simp)
  · cases t with
    | nil => exact hline (by simp [← show '\n' :: blank.toList = l₁ by simpa using ht])
    | cons d t =>
      -- the marker would begin among the blanks
      have hmem : '/' ∈ blank.toList := by
        rw [(List.cons.inj ht).2]
        exact List.mem_append_right _ (List.mem_of_mem_head? hhead)
      have := List.all_eq_true.mp hblank _ hmem
      revert this
      decide

theorem EndsLine.endsBlank {s : String} (h : EndsLine s) {blank : String} (hb : Text.isBlank blank = true) :
    EndsBlank (s ++ blank) := by
  obtain ⟨cs, hcs⟩ := List.getLast?_eq_some_iff.mp (show s.toList.getLast? = some '\n' from h)
  refine ⟨String.ofList cs, blank, ?_, hb⟩
  congr 1
  apply String.toList_injective
  simp [hcs]

theorem StartsLine.edge {s : String} (h : StartsLine s) : Edge s := by
  intro c hc
  rw [show s.toList.head? = some '\n' from h] at hc
  exact .inr (by simpa using hc.symm)

/-- Every own piece stands on lines of its own. -/
structure OwnText.Parted (t : OwnText) : Prop where
  head_end : EndsBlank t.head
  middle_start : StartsLine t.middle
  middle_end : EndsBlank t.middle
  tail_start : StartsLine t.tail
  tail_end : EndsBlank t.tail

theorem ownText_parted {config : Config} (hi : Text.isBlank config.indent = true) (m : Model) :
    (ownText config m).Parted where
  head_end := by
    have h : EndsLine ("// Generated by " ++ config.productName ++ "\n\n") := EndsLine.append (by decide) _
    exact (h.append_paragraph _).endsBlank hi
  middle_start := (ownText_seamed_of_isBlank hi m).middle_start
  middle_end := ((endsLine_append _).append_fieldBlock _ _).endsBlank hi
  tail_start := StartsLine.append (by decide) _
  tail_end := by
    have h : EndsLine "\n" := by decide
    have hblank : Text.isBlank "" = true := rfl
    have := (h.append_paragraph (Boilerplate.closing m.settings)).endsBlank hblank
    rwa [String.append_empty] at this

/-! ## The pieces that are left -/

/-- A marker, unless it is one of the deleted. -/
def Marker.unlessIn (deleted : List String) (mark : String) : String := if mark ∈ deleted then "" else mark

/-- The pieces of a script with these regions, without the deleted markers. -/
def OwnText.pieces (t : OwnText) (r : Regions) (deleted : List String) : List String :=
  [t.head, Marker.unlessIn deleted Marker.preInitBegin, r.preInit, Marker.unlessIn deleted Marker.preInitEnd,
    t.middle, Marker.unlessIn deleted Marker.postInitBegin, r.postInit, Marker.unlessIn deleted Marker.postInitEnd,
    t.tail, Marker.unlessIn deleted Marker.endGenerated, r.trailing]

def OwnText.without (t : OwnText) (r : Regions) (deleted : List String) : String := String.join (t.pieces r deleted)

theorem OwnText.without_nil (t : OwnText) (r : Regions) : t.without r [] = t.around r := by
  simp [without, pieces, Marker.unlessIn, around, String.append_assoc]

namespace Marker

variable {mark mark' : String} {deleted : List String}

theorem occurs_unlessIn_iff (h : mark ∈ all) (h' : mark' ∈ all) :
    Occurs mark (unlessIn deleted mark') ↔ mark = mark' ∧ mark ∉ deleted := by
  unfold unlessIn
  constructor
  · split
    · exact fun ho => absurd (by simpa [Occurs] using ho) (ne_empty h)
    · rename_i hd
      intro ho
      obtain rfl := eq_of_occurs h h' ho
      exact ⟨rfl, hd⟩
  · rintro ⟨rfl, hd⟩
    rw [if_neg hd]
    exact Text.occurs_self mark

@[simp] theorem unlessIn_cons_self (mark : String) (deleted : List String) : unlessIn (mark :: deleted) mark = "" := by
  simp [unlessIn]

theorem unlessIn_cons_of_ne (h : mark' ≠ mark) : unlessIn (mark :: deleted) mark' = unlessIn deleted mark' := by
  simp [unlessIn, h]

theorem edge_unlessIn (h : mark ∈ all) {y : String} (hy : StartsLine y) : Edge (unlessIn deleted mark ++ y) := by
  unfold unlessIn
  split
  · rw [String.empty_append]
    exact hy.edge
  · intro c hc
    rw [String.toList_append, List.head?_append, (isComment_of_mem h).head_slash] at hc
    exact .inl (by simpa using hc.symm)

theorem getLast_slash (h : mark ∈ all) : mark.toList.getLast? = some '/' := by
  obtain ⟨body, hb, -⟩ := isComment_of_mem h
  rw [hb, show '/' :: '*' :: (body ++ ['*', '/']) = ('/' :: '*' :: body ++ ['*']) ++ ['/'] by simp,
    List.getLast?_concat]

theorem not_straddles_unlessIn (h : mark ∈ all) (h' : mark' ∈ all) {u y : String} (hu : Coreless u) (hy : Edge y) :
    ¬ Straddles mark (unlessIn deleted mark') (u ++ y) := by
  unfold unlessIn
  split
  · exact Text.not_straddles_empty_left _ _
  · exact hu.not_straddles_after_slash h (getLast_slash h') hy

end Marker

namespace OwnText

variable {t : OwnText} {r : Regions}

/-- Deleting markers makes no marker. -/
theorem separate_pieces (ht : t.Parted) (hr : r.Coreless) (deleted : List String) {mark : String}
    (hm : mark ∈ Marker.all) : Separate mark (t.pieces r deleted) := by
  have hc := Marker.isComment_of_mem hm
  simp only [pieces, Separate, String.join_cons, String.join_nil, and_true]
  -- what follows a region inside the code
  have hmiddle : StartsLine (t.middle ++ (Marker.unlessIn deleted Marker.postInitBegin ++ (r.postInit
      ++ (Marker.unlessIn deleted Marker.postInitEnd ++ (t.tail ++ (Marker.unlessIn deleted Marker.endGenerated
        ++ (r.trailing ++ ""))))))) := ht.middle_start.append _
  have htail : StartsLine (t.tail ++ (Marker.unlessIn deleted Marker.endGenerated ++ (r.trailing ++ ""))) :=
    ht.tail_start.append _
  have hpre : Edge (Marker.unlessIn deleted Marker.preInitEnd ++ _) :=
    Marker.edge_unlessIn (by simp [Marker.all]) hmiddle
  have hpost : Edge (Marker.unlessIn deleted Marker.postInitEnd ++ _) :=
    Marker.edge_unlessIn (by simp [Marker.all]) htail
  refine ⟨ht.head_end.not_straddles hm _,
    Marker.not_straddles_unlessIn hm (by simp [Marker.all]) hr.preInit hpre,
    hr.preInit.not_straddles hm hpre, hc.not_straddles_newline hmiddle _, ht.middle_end.not_straddles hm _,
    Marker.not_straddles_unlessIn hm (by simp [Marker.all]) hr.postInit hpost,
    hr.postInit.not_straddles hm hpost, hc.not_straddles_newline htail _, ht.tail_end.not_straddles hm _,
    Marker.not_straddles_unlessIn hm (by simp [Marker.all]) hr.trailing (by simp [Edge]),
    Text.not_straddles_empty_right _ _⟩

end OwnText

/-! ## Searching what is left -/

/-- A marker, deleted or not, among pieces none of which holds it. -/
structure Lone (deleted : List String) (mark : String) (front back : List String) : Prop where
  is_marker : mark ∈ Marker.all
  separate : Separate mark (front ++ Marker.unlessIn deleted mark :: back)
  not_before : ∀ p ∈ front, ¬ Occurs mark p
  not_after : ∀ p ∈ back, ¬ Occurs mark p

namespace Lone

variable {deleted : List String} {mark : String} {front back : List String}

theorem drop (before : List String) (h : Lone deleted mark (before ++ front) back) : Lone deleted mark front back where
  is_marker := h.is_marker
  separate := by
    have := h.separate
    rw [List.append_assoc] at this
    exact this.of_append
  not_before p hp := h.not_before p (List.mem_append_right _ hp)
  not_after := h.not_after

/-- The search finds the marker where it was, unless it is deleted. -/
theorem cut? (h : Lone deleted mark front back) :
    Text.cut? mark (String.join (front ++ Marker.unlessIn deleted mark :: back))
      = if mark ∈ deleted then none else some (String.join front, String.join back) := by
  have hs := h.separate
  have hne := Marker.ne_empty h.is_marker
  unfold Marker.unlessIn at hs ⊢
  by_cases hd : mark ∈ deleted
  · rw [if_pos hd] at hs ⊢
    rw [if_pos hd, Text.cut?_eq_none_iff]
    intro ho
    obtain ⟨p, hp, ho⟩ := Text.exists_of_occurs_join hne hs ho
    rcases List.mem_append.mp hp with hp | hp
    · exact h.not_before p hp ho
    · rcases List.mem_cons.mp hp with rfl | hp
      · exact hne (by simpa [Occurs] using ho)
      · exact h.not_after p hp ho
  · rw [if_neg hd] at hs ⊢
    rw [if_neg hd]
    exact hs.cut?_join h.not_before

/-- Deleting it takes it out and nothing else. -/
theorem replaceAll (h : Lone deleted mark front back) :
    Text.replaceAll mark "" (String.join (front ++ Marker.unlessIn deleted mark :: back))
      = String.join (front ++ "" :: back) := by
  have hne := Marker.ne_empty h.is_marker
  by_cases hd : mark ∈ deleted
  · have hcut := h.cut?
    rw [if_pos hd, Text.cut?_eq_none_iff] at hcut
    rw [Text.replaceAll_of_not_occurs hne hcut, Marker.unlessIn, if_pos hd]
  · have hs := h.separate
    rw [Marker.unlessIn, if_neg hd] at hs ⊢
    rw [hs.replaceAll_join hne h.not_before h.not_after]
    simp [String.join_append]

/-- What two markers enclose is found if both are left. -/
theorem enclosed? {start stop : String} (inner : List String)
    (hstart : Lone deleted start front (inner ++ Marker.unlessIn deleted stop :: back))
    (hstop : Lone deleted stop inner back) :
    SceneScript.enclosed? start stop
        (String.join (front ++ Marker.unlessIn deleted start :: (inner ++ Marker.unlessIn deleted stop :: back)))
      = if start ∈ deleted ∨ stop ∈ deleted then none else some (String.join inner, String.join back) := by
  unfold SceneScript.enclosed?
  rw [hstart.cut?]
  by_cases hd : start ∈ deleted
  · simp [hd]
  · simp only [hd, if_false, false_or]
    exact hstop.cut?

end Lone

/-- Takes markers out of a text, one after another. -/
def deleteMarkers (deleted : List String) (text : String) : String :=
  deleted.foldl (fun s mark => Text.replaceAll mark "" s) text

/-- The markers that a region is found by. -/
def Region.markers : Region → List String
  | .preInit => [Marker.preInitBegin, Marker.preInitEnd]
  | .postInit => [Marker.postInitBegin, Marker.postInitEnd]
  | .trailing => [Marker.endGenerated]

/-- One of its markers is deleted. -/
def Region.Broken (deleted : List String) (region : Region) : Prop := ∃ mark ∈ region.markers, mark ∈ deleted

instance (deleted : List String) : DecidablePred (Region.Broken deleted) := fun region =>
  inferInstanceAs (Decidable (∃ mark ∈ region.markers, mark ∈ deleted))

namespace OwnText

variable {t : OwnText} {r : Regions} (hc : t.Clear) (ht : t.Parted) (hr : r.Coreless) (deleted : List String)
include hc hr

/-- Of all pieces only a marker holds it. -/
theorem countP_pieces {mark : String} (hm : mark ∈ Marker.all) :
    (t.pieces r deleted).countP (fun p => decide (Occurs mark p)) = if mark ∈ deleted then 0 else 1 := by
  obtain ⟨hhead, hmiddle, htail⟩ := hc mark hm
  have hpre := hr.preInit.not_occurs hm
  have hpost := hr.postInit.not_occurs hm
  have hlast := hr.trailing.not_occurs hm
  have hleft : ∀ mark' ∈ Marker.all, decide (Occurs mark (Marker.unlessIn deleted mark'))
      = decide (mark = mark' ∧ mark ∉ deleted) := fun mark' hm' =>
    decide_eq_decide.mpr (Marker.occurs_unlessIn_iff hm hm')
  simp only [Marker.all, List.forall_mem_cons, List.not_mem_nil, false_imp_iff, implies_true, and_true] at hleft
  obtain ⟨h₁, h₂, h₃, h₄, h₅⟩ := hleft
  simp only [pieces, List.countP_cons, List.countP_nil, h₁, h₂, h₃, h₄, h₅, hhead, hmiddle, htail, hpre, hpost, hlast,
    decide_false, Bool.false_eq_true, if_false]
  by_cases hd : mark ∈ deleted
  · simp [hd]
  · have hone : ∀ mark ∈ Marker.all, (Marker.all.countP fun mark' => decide (mark = mark')) = 1 := by decide +kernel
    simpa [hd, Marker.all, List.countP_cons] using hone mark hm

include ht in
/-- Where a marker was, it is alone. -/
theorem lone_of_pieces {mark : String} (hm : mark ∈ Marker.all) {front back : List String}
    (h : t.pieces r deleted = front ++ Marker.unlessIn deleted mark :: back) : Lone deleted mark front back := by
  have hcount := countP_pieces hc hr deleted hm
  have hself : decide (Occurs mark (Marker.unlessIn deleted mark)) = decide (mark ∉ deleted) :=
    decide_eq_decide.mpr ((Marker.occurs_unlessIn_iff hm hm).trans (and_iff_right rfl))
  rw [h, List.countP_append, List.countP_cons, hself] at hcount
  have hzero : front.countP (fun p => decide (Occurs mark p)) = 0
      ∧ back.countP (fun p => decide (Occurs mark p)) = 0 := by
    by_cases hd : mark ∈ deleted
    · simp only [hd, if_true] at hcount
      omega
    · simp only [hd, if_false] at hcount
      simp at hcount
      omega
  simp only [List.countP_eq_zero, decide_eq_true_eq] at hzero
  exact ⟨hm, h ▸ separate_pieces ht hr deleted hm, hzero.1, hzero.2⟩

include ht in
/-- The regions that are found are those that still have their markers. -/
theorem find_without : RegionTexts.find (t.without r deleted) =
    ⟨if Region.preInit.Broken deleted then none else some r.preInit,
      if Region.postInit.Broken deleted then none else some r.postInit,
      if Region.trailing.Broken deleted then none else some r.trailing⟩ := by
  simp only [Region.Broken, Region.markers, List.exists_mem_cons_iff, List.not_mem_nil, false_and, exists_false, or_false]
  have hlone := @lone_of_pieces t r hc ht hr deleted
  have hpreBegin : Lone deleted Marker.preInitBegin [t.head] _ := hlone (by simp [Marker.all]) rfl
  have hpreEnd : Lone deleted Marker.preInitEnd [t.head, _, r.preInit] _ := hlone (by simp [Marker.all]) rfl
  have hpostBegin : Lone deleted Marker.postInitBegin [t.head, _, r.preInit, _, t.middle] _ :=
    hlone (by simp [Marker.all]) rfl
  have hpostEnd : Lone deleted Marker.postInitEnd [t.head, _, r.preInit, _, t.middle, _, r.postInit] _ :=
    hlone (by simp [Marker.all]) rfl
  have hend : Lone deleted Marker.endGenerated [t.head, _, r.preInit, _, t.middle, _, r.postInit, _, t.tail] _ :=
    hlone (by simp [Marker.all]) rfl
  have hpre : enclosed? Marker.preInitBegin Marker.preInitEnd (t.without r deleted) = _ :=
    hpreBegin.enclosed? [r.preInit] (hpreEnd.drop [t.head, _])
  have hpost : enclosed? Marker.postInitBegin Marker.postInitEnd (t.without r deleted) = _ :=
    hpostBegin.enclosed? [r.postInit] (hpostEnd.drop [t.head, _, r.preInit, _, t.middle, _])
  -- the last marker is looked for after the post-init region, if that is found, or from the start
  have hafter : Text.cut? Marker.endGenerated
      (String.join [t.tail, Marker.unlessIn deleted Marker.endGenerated, r.trailing]) = _ :=
    (hend.drop [t.head, _, r.preInit, _, t.middle, _, r.postInit, _]).cut?
  have hstart : Text.cut? Marker.endGenerated (t.without r deleted) = _ := hend.cut?
  unfold RegionTexts.find
  rw [hpre, hpost]
  by_cases hp : Marker.postInitBegin ∈ deleted ∨ Marker.postInitEnd ∈ deleted
  · simp only [hp, if_true, hstart]
    split <;> split <;> simp
  · simp only [hp, if_false, hafter]
    split <;> split <;> simp

include ht in
/-- Deleting one more marker. -/
theorem replaceAll_without {mark : String} (hm : mark ∈ Marker.all) :
    Text.replaceAll mark "" (t.without r deleted) = t.without r (mark :: deleted) := by
  -- the pieces before the marker, the marker and the pieces after it
  obtain ⟨front, back, hbefore, hafter⟩ : ∃ front back,
      t.pieces r deleted = front ++ Marker.unlessIn deleted mark :: back ∧
        t.pieces r (mark :: deleted) = front ++ "" :: back := by
    simp only [Marker.all, List.mem_cons, List.not_mem_nil, or_false] at hm
    rcases hm with rfl | rfl | rfl | rfl | rfl <;>
      simp (disch := decide +kernel) only [pieces, Marker.unlessIn_cons_self, Marker.unlessIn_cons_of_ne]
    · exact ⟨[t.head], _, rfl, rfl⟩
    · exact ⟨[t.head, _, r.preInit], _, rfl, rfl⟩
    · exact ⟨[t.head, _, r.preInit, _, t.middle], _, rfl, rfl⟩
    · exact ⟨[t.head, _, r.preInit, _, t.middle, _, r.postInit], _, rfl, rfl⟩
    · exact ⟨[t.head, _, r.preInit, _, t.middle, _, r.postInit, _, t.tail], _, rfl, rfl⟩
  rw [without, without, hbefore, hafter]
  exact (lone_of_pieces hc ht hr deleted hm hbefore).replaceAll

omit hc hr in
/-- Which markers are deleted matters, not in what order. -/
theorem without_congr {deleted deleted' : List String} (h : ∀ mark, mark ∈ deleted ↔ mark ∈ deleted') :
    t.without r deleted = t.without r deleted' := by
  simp only [without, pieces, Marker.unlessIn, h]

omit deleted in
include ht in
/-- The markers that are deleted one after another are those that are missing at the end. -/
theorem deleteMarkers_around {deleted : List String} (hd : ∀ mark ∈ deleted, mark ∈ Marker.all) :
    deleteMarkers deleted (t.around r) = t.without r deleted := by
  have hmore : ∀ gone, deleteMarkers deleted (t.without r gone) = t.without r (deleted.reverse ++ gone) := by
    induction deleted with
    | nil => exact fun _ => rfl
    | cons mark deleted ih =>
      obtain ⟨hm, hd⟩ := List.forall_mem_cons.mp hd
      intro gone
      calc deleteMarkers (mark :: deleted) (t.without r gone)
          = deleteMarkers deleted (Text.replaceAll mark "" (t.without r gone)) := rfl
        _ = deleteMarkers deleted (t.without r (mark :: gone)) := by rw [replaceAll_without hc ht hr gone hm]
        _ = t.without r ((mark :: deleted).reverse ++ gone) := by simp [ih hd]
  rw [← without_nil, hmore]
  exact without_congr fun mark => by simp

end OwnText

/-! ## A damaged script -/

/-- Deleting markers takes them out of a script and nothing else. The regions that keep their markers come back as
    they are, the others as placeholders, with one warning for each of these in the order of the script. -/
theorem lost_markers_lose_their_region (config : Config) (hi : Text.isBlank config.indent = true) (m : Model)
    (r : Regions) (hc : (ownText config m).Clear) (hr : r.Coreless) (deleted : List String)
    (hd : ∀ mark ∈ deleted, mark ∈ Marker.all) :
    deleteMarkers deleted (scriptText config m r) = (ownText config m).without r deleted ∧
      (∀ body trailing, Regions.recover (some (deleteMarkers deleted (scriptText config m r))) body trailing =
        ⟨if Region.preInit.Broken deleted then body else r.preInit,
          if Region.postInit.Broken deleted then body else r.postInit,
          if Region.trailing.Broken deleted then trailing else r.trailing⟩) ∧
      Regions.lost (some (deleteMarkers deleted (scriptText config m r)))
        = [.preInit, .postInit, .trailing].filter (Region.Broken deleted ·) ∧
      ∀ m', (generationLog m' (some (deleteMarkers deleted (scriptText config m r)))).filter (·.level = .warn)
        = ([.preInit, .postInit, .trailing].filter (Region.Broken deleted ·)).map .lost := by
  have ht := ownText_parted hi m
  have hdamaged : deleteMarkers deleted (scriptText config m r) = (ownText config m).without r deleted := by
    rw [scriptText_eq_around]
    exact OwnText.deleteMarkers_around hc ht hr hd
  have hfind := OwnText.find_without hc ht hr deleted
  have hlost : Regions.lost (some ((ownText config m).without r deleted))
      = [.preInit, .postInit, .trailing].filter (Region.Broken deleted ·) := by
    simp only [Regions.lost, RegionTexts.lost, hfind]
    by_cases hpre : Region.preInit.Broken deleted <;> by_cases hpost : Region.postInit.Broken deleted <;>
      by_cases htrailing : Region.trailing.Broken deleted <;> simp [hpre, hpost, htrailing]
  refine ⟨hdamaged, fun body trailing => ?_, by rw [hdamaged, hlost], fun m' => ?_⟩
  · rw [hdamaged]
    simp only [Regions.recover, RegionTexts.restore, hfind]
    split <;> split <;> split <;> rfl
  · rw [hdamaged, generationLog, hlost]
    simp [List.filter_append, List.filter_map, LogRecord.level, Function.comp_def]

/-- Regions that say nearly what a marker says. -/
def nearMarkers : Regions where
  preInit := "\n/* --- pre-init-be"
  postInit := "gin --- */ /* --- post-init-"
  trailing := " --- */"

theorem lost_markers_near_markers :
    Text.isBlank ({} : Config).indent = true ∧ (ownText {} skyScene).Clear ∧ nearMarkers.Coreless ∧
      (∀ mark ∈ [Marker.postInitEnd, Marker.preInitBegin], mark ∈ Marker.all) ∧
      Regions.recover
          (some (deleteMarkers [Marker.postInitEnd, Marker.preInitBegin] (scriptText {} skyScene nearMarkers))) "b" "t"
        = ⟨"b", "b", nearMarkers.trailing⟩ ∧
      Regions.lost
          (some (deleteMarkers [Marker.postInitEnd, Marker.preInitBegin] (scriptText {} skyScene nearMarkers)))
        = [.preInit, .postInit] := by
  have hi : Text.isBlank ({} : Config).indent = true := by decide
  have hsky : (ownText {} skyScene).Clear := ownText_clear (by decide) skyScene_starFree
  have hr : nearMarkers.Coreless := ⟨by decide +kernel, by decide +kernel, by decide +kernel⟩
  have hd : ∀ mark ∈ [Marker.postInitEnd, Marker.preInitBegin], mark ∈ Marker.all := by decide
  obtain ⟨-, hrecover, hlost, -⟩ := lost_markers_lose_their_region {} hi skyScene nearMarkers hsky hr _ hd
  refine ⟨hi, hsky, hr, hd, ?_, ?_⟩
  · rw [hrecover]
    decide +kernel
  · rw [hlost]
    decide +kernel

end SceneScript
