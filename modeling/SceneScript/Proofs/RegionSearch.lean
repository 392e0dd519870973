/-
  SceneScript.Proofs.RegionSearch — a script read back through its markers.

  A script is its own text in three pieces with markers and regions between them
  (`OwnText.around`). Every marker is a comment on one line (`Marker.IsComment`), so it
  begins and ends with a slash: two neighbouring pieces can make a marker that neither
  of them holds. What keeps the search exact:
  - the own text holds no marker (`OwnText.Clear`), and at the seams it ends in no star
    and begins with a line feed (`OwnText.Seamed`);
  - the regions do not end early and do not make a post-init region begin early
    (`Regions.Findable`).
  Then `RegionTexts.find` gives back every region as it is (`find_around`). A pre-init
  region that does make a post-init marker hides the real one
  (`cut?_postInitBegin_within`).

  A text without stars is harmless in every place (`IsComment.onlyAtEnd_of_starFree`).
-/
import SceneScript.Proofs.Occurrence
import SceneScript.Script.Regions

namespace SceneScript

open Text (Occurs OnlyAtEnd Straddles)

/-! ## The shape of a marker -/

namespace Marker

/-- The markers of a script. -/
def all : List String := [preInitBegin, preInitEnd, postInitBegin, postInitEnd, endGenerated]

/-- A comment on one line; what it says neither begins nor ends a comment. -/
def IsComment (mark : String) : Prop :=
  ∃ body : List Char, mark.toList = '/' :: '*' :: (body ++ ['*', '/']) ∧ '/' ∉ body ∧ '*' ∉ body ∧ '\n' ∉ body

theorem isComment_preInitBegin : IsComment preInitBegin := ⟨" --- pre-init-begin --- ".toList, by decide +kernel⟩

theorem isComment_preInitEnd : IsComment preInitEnd := ⟨" --- pre-init-end --- ".toList, by decide +kernel⟩

theorem isComment_postInitBegin : IsComment postInitBegin := ⟨" --- post-init-begin --- ".toList, by decide +kernel⟩

theorem isComment_postInitEnd : IsComment postInitEnd := ⟨" --- post-init-end --- ".toList, by decide +kernel⟩

theorem isComment_endGenerated : IsComment endGenerated := ⟨" --- end generated code --- ".toList, by decide +kernel⟩

theorem isComment_of_mem {mark : String} (h : mark ∈ all) : IsComment mark := by
  simp only [all, List.mem_cons, List.not_mem_nil, or_false] at h
  rcases h with rfl | rfl | rfl | rfl | rfl
  · exact isComment_preInitBegin
  · exact isComment_preInitEnd
  · exact isComment_postInitBegin
  · exact isComment_postInitEnd
  · exact isComment_endGenerated

namespace IsComment

variable {mark : String} (hm : IsComment mark)
include hm

theorem newline_not_mem : '\n' ∉ mark.toList := by
  obtain ⟨body, h, -, -, hn⟩ := hm
  simp [h, hn]

theorem head_slash : mark.toList.head? = some '/' := by
  obtain ⟨body, h, -⟩ := hm
  simp [h]

theorem count_star : mark.toList.count '*' = 2 := by
  obtain ⟨body, h, -, hs, -⟩ := hm
  simp [h, List.count_eq_zero_of_not_mem hs]

/-- After the first slash of a marker comes only the last one. -/
theorem slash_last {l₁ l₂ : List Char} (h : mark.toList = l₁ ++ '/' :: l₂) (h₁ : l₁ ≠ []) : l₂ = [] := by
  obtain ⟨body, hb, hs, -, -⟩ := hm
  obtain ⟨c, l, rfl⟩ := List.exists_cons_of_ne_nil h₁
  rcases l₂.eq_nil_or_concat with hnil | ⟨l', d, rfl⟩
  · exact hnil
  · -- the slash would stand before the last character
    have hinner : '*' :: body ++ ['*'] ++ ['/'] = l ++ '/' :: l' ++ [d] := by
      have := (List.cons.inj (hb.symm.trans h)).2
      simpa using this
    have hslash : '/' ∈ '*' :: body ++ ['*'] := by
      rw [(List.append_inj' hinner rfl).1]
      simp
    simp [hs] at hslash

/-- Inside a marker a slash comes after a star. -/
theorem star_before_slash {l₁ l₂ : List Char} (h : mark.toList = l₁ ++ '/' :: l₂) (h₁ : l₁ ≠ []) :
    l₁.getLast? = some '*' := by
  obtain rfl := hm.slash_last h h₁
  obtain ⟨body, hb, -⟩ := hm
  have hsplit : l₁ ++ ['/'] = ('/' :: '*' :: body ++ ['*']) ++ ['/'] := by
    have := h.symm.trans hb
    simpa using this
  rw [(List.append_inj' hsplit rfl).1]
  exact List.getLast?_concat (l := '/' :: '*' :: body)

/-- A star stands only second, or second to last. -/
theorem star_second {l₁ l₂ : List Char} (h : mark.toList = l₁ ++ l₂) (h₁ : l₁ ≠ []) (hs : '*' ∉ l₁) : l₁ = ['/'] := by
  obtain ⟨body, hb, -⟩ := hm
  rw [h] at hb
  match l₁, h₁ with
  | [c], _ => rw [(List.cons.inj hb).1]
  | c :: d :: l, _ =>
    simp only [List.cons_append, List.cons.injEq] at hb
    exact absurd (by rw [hb.2.1]; simp) hs

theorem star_second_last {l₁ l₂ : List Char} (h : mark.toList = l₁ ++ l₂) (h₂ : l₂ ≠ []) (hs : '*' ∉ l₂) :
    l₂ = ['/'] := by
  obtain ⟨body, hb, -⟩ := hm
  have hr := congrArg List.reverse (h.symm.trans hb)
  simp only [List.reverse_append, List.reverse_cons, List.append_assoc, List.cons_append, List.nil_append,
    List.reverse_nil] at hr
  have hs' : '*' ∉ l₂.reverse := by simpa using hs
  have h₂' : l₂.reverse ≠ [] := by simpa using h₂
  have : l₂.reverse = ['/'] := by
    match l₂.reverse, h₂', hs', hr with
    | [c], _, _, hr => rw [(List.cons.inj hr).1]
    | c :: d :: l, _, hs', hr =>
      simp only [List.cons_append, List.cons.injEq] at hr
      exact absurd (by rw [hr.2.1]; simp) hs'
  simpa using congrArg List.reverse this

/-! ## Seams -/

theorem not_straddles_newline {y : String} (hy : y.toList.head? = some '\n') (x : String) : ¬ Straddles mark x y :=
  Text.not_straddles_of_head (List.eq_cons_of_mem_head? hy) hm.newline_not_mem

/-- A text that does not end in a star makes no marker with a slash. -/
theorem not_straddles_slash {x y : String} (hx : x.toList.getLast? ≠ some '*') (hy : y.toList.head? = some '/') :
    ¬ Straddles mark x y := by
  rintro ⟨l₁, l₂, h₁, h₂, h, hp, hs⟩
  obtain ⟨c, l, rfl⟩ := List.exists_cons_of_ne_nil h₂
  have hc : c = '/' := by
    obtain ⟨t, ht⟩ := hs
    rw [← ht] at hy
    simpa using hy
  subst hc
  refine hx ?_
  obtain ⟨t, ht⟩ := hp
  rw [← ht, List.getLast?_append, hm.star_before_slash h h₁]
  rfl

/-- After a slash a marker goes on with a star. -/
theorem not_straddles_after_slash {x y : String} (hx : x.toList.getLast? = some '/') (hy : y.toList.head? ≠ some '*') :
    ¬ Straddles mark x y := by
  rintro ⟨l₁, l₂, h₁, h₂, h, hp, hs⟩
  have hlast : l₁.getLast? = some '/' := by
    obtain ⟨t, ht⟩ := hp
    rw [← ht, List.getLast?_append_of_ne_nil _ h₁] at hx
    exact hx
  obtain ⟨l, rfl⟩ := List.getLast?_eq_some_iff.mp hlast
  have hcut : mark.toList = l ++ '/' :: l₂ := by rw [h, List.append_assoc, List.singleton_append]
  cases l with
  | cons c l => exact h₂ (hm.slash_last hcut (List.cons_ne_nil c l))
  | nil =>
    obtain ⟨body, hb, -⟩ := hm
    obtain ⟨t, ht⟩ := hs
    obtain rfl : l₂ = '*' :: (body ++ ['*', '/']) := (List.cons.inj (hcut.symm.trans hb)).2
    exact hy (by rw [← ht]; rfl)

theorem not_straddles_starFree_left {x : String} (hx : '*' ∉ x.toList) (hl : x.toList.getLast? ≠ some '/')
    (y : String) : ¬ Straddles mark x y := by
  rintro ⟨l₁, l₂, h₁, -, h, ⟨t, ht⟩, -⟩
  have : l₁ = ['/'] := hm.star_second h h₁ fun hc => hx (by rw [← ht]; simp [hc])
  exact hl (by rw [← ht, this]; simp)

theorem not_straddles_starFree_right {y : String} (hy : '*' ∉ y.toList) (hh : y.toList.head? ≠ some '/') (x : String) :
    ¬ Straddles mark x y := by
  rintro ⟨l₁, l₂, -, h₂, h, -, ⟨t, ht⟩⟩
  have : l₂ = ['/'] := hm.star_second_last h h₂ fun hc => hy (by rw [← ht]; simp [hc])
  exact hh (by rw [← ht, this]; simp)

/-! ## Stars -/

theorem not_occurs_of_count {s : String} (h : s.toList.count '*' < 2) : ¬ Occurs mark s := by
  intro ho
  have := ho.sublist.count_le '*'
  rw [hm.count_star] at this
  omega

theorem not_occurs_of_starFree {s : String} (h : '*' ∉ s.toList) : ¬ Occurs mark s :=
  hm.not_occurs_of_count (by rw [List.count_eq_zero_of_not_mem h]; omega)

theorem onlyAtEnd_of_not_occurs {s : String} (h : ¬ Occurs mark s) (hl : s.toList.getLast? ≠ some '*') :
    OnlyAtEnd mark s :=
  .of_not_occurs h (hm.not_straddles_slash hl hm.head_slash)

theorem onlyAtEnd_of_starFree {s : String} (h : '*' ∉ s.toList) : OnlyAtEnd mark s :=
  hm.onlyAtEnd_of_not_occurs (hm.not_occurs_of_starFree h) fun hl => h (List.mem_of_getLast? hl)

end IsComment

end Marker

/-! ## A script around its regions -/

/-- What a script says itself: before the pre-init region, between the two regions inside the code, and between the
    post-init region and the last marker. -/
structure OwnText where
  head : String
  middle : String
  tail : String

namespace OwnText

/-- The script with these regions. -/
def around (t : OwnText) (r : Regions) : String :=
  t.head ++ Marker.preInitBegin ++ r.preInit ++ Marker.preInitEnd ++ t.middle ++ Marker.postInitBegin ++ r.postInit
    ++ Marker.postInitEnd ++ t.tail ++ Marker.endGenerated ++ r.trailing

/-- No piece holds a marker. -/
def Clear (t : OwnText) : Prop :=
  ∀ mark ∈ Marker.all, ¬ Occurs mark t.head ∧ ¬ Occurs mark t.middle ∧ ¬ Occurs mark t.tail

instance (t : OwnText) : Decidable t.Clear := by
  unfold Clear
  infer_instance

/-- No piece can make a marker together with what stands beside it. -/
structure Seamed (t : OwnText) : Prop where
  head_end : t.head.toList.getLast? ≠ some '*'
  middle_start : t.middle.toList.head? = some '\n'
  middle_end : t.middle.toList.getLast? ≠ some '*'
  tail_start : t.tail.toList.head? = some '\n'
  tail_end : t.tail.toList.getLast? ≠ some '*'

end OwnText

/-- The pre-init region between its markers. -/
def Regions.preInitBlock (r : Regions) : String := Marker.preInitBegin ++ r.preInit ++ Marker.preInitEnd

/-- The regions that a search finds again: neither region inside the code ends early, and the pre-init region makes
    no marker that begins the other one. -/
structure Regions.Findable (r : Regions) : Prop where
  preInit_ends : OnlyAtEnd Marker.preInitEnd r.preInit
  no_postInit : ¬ Occurs Marker.postInitBegin r.preInitBlock
  postInit_ends : OnlyAtEnd Marker.postInitEnd r.postInit

instance (r : Regions) : Decidable r.Findable :=
  decidable_of_iff
    (OnlyAtEnd Marker.preInitEnd r.preInit ∧ ¬ Occurs Marker.postInitBegin r.preInitBlock
      ∧ OnlyAtEnd Marker.postInitEnd r.postInit)
    ⟨fun ⟨h₁, h₂, h₃⟩ => ⟨h₁, h₂, h₃⟩, fun ⟨h₁, h₂, h₃⟩ => ⟨h₁, h₂, h₃⟩⟩

namespace OwnText

variable {t : OwnText} {r : Regions}

/-- The script after the post-init region. -/
def fromTail (t : OwnText) (r : Regions) : String := t.tail ++ Marker.endGenerated ++ r.trailing

/-- The script after the pre-init region. -/
def fromMiddle (t : OwnText) (r : Regions) : String :=
  t.middle ++ (Marker.postInitBegin ++ (r.postInit ++ Marker.postInitEnd ++ t.fromTail r))

theorem around_eq (t : OwnText) (r : Regions) :
    t.around r = t.head ++ Marker.preInitBegin ++ (r.preInit ++ Marker.preInitEnd ++ t.fromMiddle r) := by
  simp only [around, fromMiddle, fromTail, String.append_assoc]

theorem around_eq_preInitBlock (t : OwnText) (r : Regions) :
    t.around r = t.head ++ (r.preInitBlock ++ t.fromMiddle r) := by
  simp only [around_eq, Regions.preInitBlock, String.append_assoc]

theorem preInitBlock_head (r : Regions) (s : String) : (r.preInitBlock ++ s).toList.head? = some '/' := by
  simp [Regions.preInitBlock, List.head?_append, Marker.isComment_preInitBegin.head_slash]

/-! ## The first markers -/

theorem cut?_preInitBegin (hc : t.Clear) (hs : t.Seamed) (r : Regions) :
    Text.cut? Marker.preInitBegin (t.around r)
      = some (t.head, r.preInit ++ Marker.preInitEnd ++ t.fromMiddle r) := by
  rw [around_eq]
  exact (Marker.isComment_preInitBegin.onlyAtEnd_of_not_occurs (hc _ (by simp [Marker.all])).1 hs.head_end).cut _

/-- A post-init marker within the pre-init region comes first. -/
theorem cut?_postInitBegin_within (hc : t.Clear) (hs : t.Seamed) {a c : String}
    (h : Text.cut? Marker.postInitBegin r.preInitBlock = some (a, c)) :
    Text.cut? Marker.postInitBegin (t.around r) = some (t.head ++ a, c ++ t.fromMiddle r) := by
  rw [around_eq_preInitBlock]
  exact Text.cut?_append_left (hc _ (by simp [Marker.all])).1
    (Marker.isComment_postInitBegin.not_straddles_slash hs.head_end (preInitBlock_head r _))
    (Text.cut?_append_right h _)

theorem cut?_postInitBegin (hc : t.Clear) (hs : t.Seamed) (hno : ¬ Occurs Marker.postInitBegin r.preInitBlock) :
    Text.cut? Marker.postInitBegin (t.around r)
      = some (t.head ++ (r.preInitBlock ++ t.middle), r.postInit ++ Marker.postInitEnd ++ t.fromTail r) := by
  have hm := Marker.isComment_postInitBegin
  obtain ⟨hhead, hmiddle, -⟩ := hc Marker.postInitBegin (by simp [Marker.all])
  have h₁ : Text.cut? Marker.postInitBegin (t.fromMiddle r)
      = some (t.middle, r.postInit ++ Marker.postInitEnd ++ t.fromTail r) := by
    rw [fromMiddle, ← String.append_assoc]
    exact (hm.onlyAtEnd_of_not_occurs hmiddle hs.middle_end).cut _
  have hstart : (t.fromMiddle r).toList.head? = some '\n' := by
    simp [fromMiddle, List.head?_append, hs.middle_start]
  have h₂ := Text.cut?_append_left hno (hm.not_straddles_newline hstart _) h₁
  rw [around_eq_preInitBlock]
  exact Text.cut?_append_left hhead (hm.not_straddles_slash hs.head_end (preInitBlock_head r _)) h₂

theorem cut?_endGenerated (hc : t.Clear) (hs : t.Seamed) (r : Regions) :
    Text.cut? Marker.endGenerated (t.fromTail r) = some (t.tail, r.trailing) :=
  (Marker.isComment_endGenerated.onlyAtEnd_of_not_occurs (hc _ (by simp [Marker.all])).2.2 hs.tail_end).cut _

/-! ## The regions -/

theorem enclosed?_preInit (hc : t.Clear) (hs : t.Seamed) (hu : OnlyAtEnd Marker.preInitEnd r.preInit) :
    enclosed? Marker.preInitBegin Marker.preInitEnd (t.around r) = some (r.preInit, t.fromMiddle r) := by
  simp only [enclosed?, cut?_preInitBegin hc hs r]
  exact hu.cut _

theorem enclosed?_postInit (hc : t.Clear) (hs : t.Seamed) (hno : ¬ Occurs Marker.postInitBegin r.preInitBlock)
    (hv : OnlyAtEnd Marker.postInitEnd r.postInit) :
    enclosed? Marker.postInitBegin Marker.postInitEnd (t.around r) = some (r.postInit, t.fromTail r) := by
  simp only [enclosed?, cut?_postInitBegin hc hs hno]
  exact hv.cut _

/-- The search finds every region as it is. -/
theorem find_around (hc : t.Clear) (hs : t.Seamed) (hr : r.Findable) :
    RegionTexts.find (t.around r) = ⟨some r.preInit, some r.postInit, some r.trailing⟩ := by
  simp [RegionTexts.find, enclosed?_preInit hc hs hr.preInit_ends,
    enclosed?_postInit hc hs hr.no_postInit hr.postInit_ends, cut?_endGenerated hc hs]

theorem recover_around (hc : t.Clear) (hs : t.Seamed) (hr : r.Findable) (body trailing : String) :
    Regions.recover (some (t.around r)) body trailing = r := by
  simp [Regions.recover, RegionTexts.restore, find_around hc hs hr]

theorem lost_around (hc : t.Clear) (hs : t.Seamed) (hr : r.Findable) : Regions.lost (some (t.around r)) = [] := by
  simp [Regions.lost, RegionTexts.lost, find_around hc hs hr]

end OwnText

end SceneScript
