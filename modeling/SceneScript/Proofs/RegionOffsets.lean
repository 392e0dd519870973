/-
  SceneScript.Proofs.RegionOffsets — the region search on every text, in characters and in bytes.

  `Enclosed` and `LookedThrough` say without a search what is looked for: a region between
  the first begin marker and the first end marker after it, and the part of the text that
  the last marker is looked for in. `RegionTexts.findByOffset` is the search as it is done
  on bytes: the offsets of searches in ever later parts of the text are added up, and each
  part is sliced out, which fails at an offset beyond the end or within a character.

  Proved (`search_takes_first_markers`), of any text, however its markers are placed,
  repeated or reversed:
  - a region is found exactly where the text is so divided, and in one way only;
    otherwise its placeholder is put back;
  - no slice fails, and the search on bytes finds what the search on characters finds.
-/
import SceneScript.Proofs.ByteOffsets
import SceneScript.Script.Regions

namespace SceneScript

open Text (Occurs OnlyAtEnd SliceFault slice byteIndex?)

/-! ## What is looked for -/

/-- `text` is `before`, the first `start`, `region`, the first `stop` after it, and `after`. -/
structure Enclosed (start stop text before region after : String) : Prop where
  text_eq : text = before ++ start ++ region ++ stop ++ after
  start_first : OnlyAtEnd start before
  stop_first : OnlyAtEnd stop region

/-- The part of a text that its last marker is looked for in: what follows the post-init region, or everything if
    there is no such region. -/
inductive LookedThrough (text : String) : String → Prop
  | afterPostInit {before region after : String} :
      Enclosed Marker.postInitBegin Marker.postInitEnd text before region after → LookedThrough text after
  | whole : (∀ before region after, ¬ Enclosed Marker.postInitBegin Marker.postInitEnd text before region after) →
      LookedThrough text text

section Enclosed

variable {start stop text before region after : String}

theorem enclosed?_eq_some_iff :
    enclosed? start stop text = some (region, after) ↔ ∃ before, Enclosed start stop text before region after := by
  constructor
  · intro h
    unfold enclosed? at h
    split at h
    · cases h
    · rename_i before rest hstart
      obtain ⟨rfl, hfirst⟩ := Text.cut?_eq_some_iff.mp hstart
      obtain ⟨rfl, hstop⟩ := Text.cut?_eq_some_iff.mp h
      exact ⟨before, by simp only [String.append_assoc], hfirst, hstop⟩
  · rintro ⟨before, rfl, hfirst, hstop⟩
    have hstart : Text.cut? start (before ++ start ++ region ++ stop ++ after)
        = some (before, region ++ stop ++ after) := by
      simpa only [String.append_assoc] using hfirst.cut (region ++ stop ++ after)
    simp only [enclosed?, hstart]
    exact hstop.cut after

theorem map_enclosed?_eq_some_iff :
    (enclosed? start stop text).map (·.1) = some region
      ↔ ∃ before after, Enclosed start stop text before region after := by
  simp only [Option.map_eq_some_iff, Prod.exists, exists_and_right, exists_eq_right, enclosed?_eq_some_iff]
  exact exists_comm

theorem enclosed?_eq_none_iff :
    enclosed? start stop text = none ↔ ∀ before region after, ¬ Enclosed start stop text before region after := by
  rw [Option.eq_none_iff_forall_ne_some, Prod.forall]
  simp only [ne_eq, enclosed?_eq_some_iff, not_exists]
  exact ⟨fun h b r a => h r a b, fun h r a b => h b r a⟩

/-- A text is divided in one way. -/
theorem Enclosed.unique {before' region' after' : String} (h : Enclosed start stop text before region after)
    (h' : Enclosed start stop text before' region' after') :
    before = before' ∧ region = region' ∧ after = after' := by
  have he : before ++ start ++ (region ++ stop ++ after) = before' ++ start ++ (region' ++ stop ++ after') := by
    simpa only [String.append_assoc] using h.text_eq.symm.trans h'.text_eq
  obtain ⟨hbefore, hrest⟩ := h.start_first.append_inj h'.start_first he
  exact ⟨hbefore, h.stop_first.append_inj h'.stop_first hrest⟩

end Enclosed

/-- One part of a text is looked through. -/
theorem existsUnique_lookedThrough (text : String) : ∃! s, LookedThrough text s := by
  cases hpost : enclosed? Marker.postInitBegin Marker.postInitEnd text with
  | none =>
    have hno := enclosed?_eq_none_iff.mp hpost
    refine ⟨text, .whole hno, fun s hs => ?_⟩
    cases hs with
    | afterPostInit h => exact absurd h (hno _ _ _)
    | whole _ => rfl
  | some found =>
    obtain ⟨region, after⟩ := found
    obtain ⟨before, h⟩ := enclosed?_eq_some_iff.mp hpost
    refine ⟨after, .afterPostInit h, fun s hs => ?_⟩
    cases hs with
    | afterPostInit h' => exact (h'.unique h).2.2
    | whole hno => exact absurd h (hno _ _ _)

theorem RegionTexts.find_trailing {text s : String} (h : LookedThrough text s) :
    (find text).trailing = (Text.cut? Marker.endGenerated s).map (·.2) := by
  cases h with
  | afterPostInit h => simp only [find, enclosed?_eq_some_iff.mpr ⟨_, h⟩]
  | whole hno => simp only [find, enclosed?_eq_none_iff.mpr hno]

theorem RegionTexts.find_trailing_eq_some_iff {text w : String} :
    (find text).trailing = some w ↔
      ∃ s a, LookedThrough text s ∧ s = a ++ Marker.endGenerated ++ w ∧ OnlyAtEnd Marker.endGenerated a := by
  obtain ⟨s, hs, honly⟩ := existsUnique_lookedThrough text
  rw [find_trailing hs]
  simp only [Option.map_eq_some_iff, Prod.exists, exists_eq_right, Text.cut?_eq_some_iff]
  constructor
  · rintro ⟨a, ha⟩
    exact ⟨s, a, hs, ha⟩
  · rintro ⟨s', a, hs', ha⟩
    obtain rfl := honly s' hs'
    exact ⟨a, ha⟩

/-! ## Searching by offsets -/

/-- The text between the first `start` and the first `stop` after it, and the offset just past that `stop`. -/
def enclosedAt? (start stop text : String) : Except SliceFault (Option (String × Nat)) := do
  let some i := byteIndex? start text | return none
  let first := i + start.utf8ByteSize
  let rest ← slice text first text.utf8ByteSize
  let some j := byteIndex? stop rest | return none
  let region ← slice text first (first + j)
  return some (region, first + j + stop.utf8ByteSize)

/-- What follows the first `mark` at or after an offset. -/
def followingAt? (mark text : String) (offset : Nat) : Except SliceFault (Option String) := do
  let rest ← slice text offset text.utf8ByteSize
  let some i := byteIndex? mark rest | return none
  let found ← slice text (offset + i + mark.utf8ByteSize) text.utf8ByteSize
  return some found

/-- The regions found in a text, by byte offsets. -/
def RegionTexts.findByOffset (text : String) : Except SliceFault RegionTexts := do
  let pre ← enclosedAt? Marker.preInitBegin Marker.preInitEnd text
  let post ← enclosedAt? Marker.postInitBegin Marker.postInitEnd text
  let trailing ← followingAt? Marker.endGenerated text ((post.map (·.2)).getD 0)
  return { preInit := pre.map (·.1), postInit := post.map (·.1), trailing }

section Offsets

variable {start stop text before region after : String}

/-- The offset that is returned is the place where the end marker ends. -/
theorem enclosedAt?_of_enclosed (h : Enclosed start stop text before region after) :
    enclosedAt? start stop text = .ok (some (region, (before ++ start ++ region ++ stop).utf8ByteSize)) := by
  obtain ⟨rfl, hfirst, hstop⟩ := h
  have hi : byteIndex? start (before ++ start ++ region ++ stop ++ after) = some before.utf8ByteSize := by
    simpa only [String.append_assoc] using Text.byteIndex?_of_onlyAtEnd hfirst (region ++ stop ++ after)
  have hrest : slice (before ++ start ++ region ++ stop ++ after) (before ++ start).utf8ByteSize
      (before ++ start ++ region ++ stop ++ after).utf8ByteSize = .ok (region ++ stop ++ after) := by
    simpa only [String.append_assoc] using Text.slice_end (before ++ start) (region ++ stop ++ after)
  have hj : byteIndex? stop (region ++ stop ++ after) = some region.utf8ByteSize :=
    Text.byteIndex?_of_onlyAtEnd hstop after
  have hregion : slice (before ++ start ++ region ++ stop ++ after) (before ++ start).utf8ByteSize
      (before ++ start ++ region).utf8ByteSize = .ok region := by
    simpa only [String.append_assoc] using Text.slice_append (before ++ start) region (stop ++ after)
  simp only [String.utf8ByteSize_append] at hrest hregion ⊢
  simp only [enclosedAt?, hi, String.utf8ByteSize_append, hrest, bind, Except.bind, hj, hregion]
  rfl

theorem enclosedAt?_of_not_enclosed (h : ∀ before region after, ¬ Enclosed start stop text before region after) :
    enclosedAt? start stop text = .ok none := by
  cases hstart : Text.cut? start text with
  | none =>
    have hi := Text.byteIndex?_eq_none (Text.cut?_eq_none_iff.mp hstart)
    simp only [enclosedAt?, hi]
    rfl
  | some found =>
    obtain ⟨before, rest⟩ := found
    obtain ⟨rfl, hfirst⟩ := Text.cut?_eq_some_iff.mp hstart
    have hno : ¬ Occurs stop rest := by
      intro ho
      obtain ⟨⟨region, after⟩, hstop⟩ := Option.isSome_iff_exists.mp (Text.cut?_isSome_iff.mpr ho)
      obtain ⟨rfl, hlast⟩ := Text.cut?_eq_some_iff.mp hstop
      exact h before region after ⟨by simp only [String.append_assoc], hfirst, hlast⟩
    have hi := Text.byteIndex?_of_onlyAtEnd hfirst rest
    have hrest := Text.slice_end (before ++ start) rest
    have hj := Text.byteIndex?_eq_none hno
    rw [String.utf8ByteSize_append (s := before)] at hrest
    simp only [enclosedAt?, hi, hrest, bind, Except.bind, hj]
    rfl

/-- The search by offsets never fails; what it finds is what is enclosed, and the place where the end marker ends. -/
theorem enclosedAt?_eq_ok (start stop text : String) :
    ∃ found, enclosedAt? start stop text = .ok found ∧ ∀ u n, found = some (u, n) ↔
      ∃ a c, Enclosed start stop text a u c ∧ n = (a ++ start ++ u ++ stop).utf8ByteSize := by
  by_cases h : ∃ a u c, Enclosed start stop text a u c
  · obtain ⟨a, u, c, h⟩ := h
    refine ⟨_, enclosedAt?_of_enclosed h, fun u' n => ?_⟩
    simp only [Option.some.injEq, Prod.mk.injEq]
    constructor
    · rintro ⟨rfl, rfl⟩
      exact ⟨a, c, h, rfl⟩
    · rintro ⟨a', c', h', rfl⟩
      obtain ⟨rfl, rfl, -⟩ := h.unique h'
      exact ⟨rfl, rfl⟩
  · simp only [not_exists] at h
    refine ⟨none, enclosedAt?_of_not_enclosed h, fun u n => ?_⟩
    simp [h]

theorem followingAt?_append (mark x rest : String) :
    followingAt? mark (x ++ rest) x.utf8ByteSize = .ok ((Text.cut? mark rest).map (·.2)) := by
  have hrest := Text.slice_end x rest
  cases hcut : Text.cut? mark rest with
  | none =>
    have hi := Text.byteIndex?_eq_none (Text.cut?_eq_none_iff.mp hcut)
    simp only [followingAt?, hrest, bind, Except.bind, hi]
    rfl
  | some found =>
    obtain ⟨before, w⟩ := found
    obtain ⟨rfl, hfirst⟩ := Text.cut?_eq_some_iff.mp hcut
    have hi := Text.byteIndex?_of_onlyAtEnd hfirst w
    have hfound : slice (x ++ (before ++ mark ++ w)) (x ++ before ++ mark).utf8ByteSize
        (x ++ (before ++ mark ++ w)).utf8ByteSize = .ok w := by
      simpa only [String.append_assoc] using Text.slice_end (x ++ before ++ mark) w
    simp only [String.utf8ByteSize_append, Nat.add_assoc] at hrest hfound
    simp only [followingAt?, String.utf8ByteSize_append, Nat.add_assoc, hrest, bind, Except.bind, hi, hfound]
    rfl

end Offsets

/-- No slice fails, and the regions are those that the search by characters finds. -/
theorem RegionTexts.findByOffset_eq (text : String) : findByOffset text = .ok (find text) := by
  obtain ⟨pre, hpre, hfound⟩ := enclosedAt?_eq_ok Marker.preInitBegin Marker.preInitEnd text
  have hregion : pre.map (·.1) = (enclosed? Marker.preInitBegin Marker.preInitEnd text).map (·.1) := by
    ext u
    rw [map_enclosed?_eq_some_iff]
    simp [hfound]
  cases hpost : enclosed? Marker.postInitBegin Marker.postInitEnd text with
  | none =>
    have hat := enclosedAt?_of_not_enclosed (enclosed?_eq_none_iff.mp hpost)
    have htrailing := followingAt?_append Marker.endGenerated "" text
    rw [String.empty_append, String.utf8ByteSize_empty] at htrailing
    simp only [findByOffset, hpre, hat, bind, Except.bind, Option.map_none, Option.getD_none, htrailing, find, hpost,
      hregion]
    rfl
  | some found =>
    obtain ⟨region, after⟩ := found
    obtain ⟨before, h⟩ := enclosed?_eq_some_iff.mp hpost
    have hat := enclosedAt?_of_enclosed h
    have htrailing := followingAt?_append Marker.endGenerated
      (before ++ Marker.postInitBegin ++ region ++ Marker.postInitEnd) after
    rw [← h.text_eq] at htrailing
    simp only [findByOffset, hpre, hat, bind, Except.bind, Option.map_some, Option.getD_some, htrailing, find, hpost,
      hregion]
    rfl

/-! ## The search -/

/-- A region is the text between the first begin marker and the first end marker after it, and the trailing region
    is what follows the first last marker of the part looked through; for what is not there the placeholder is put
    back. The search by offsets finds the same and never fails, though a slice can be taken only where a part of the
    text stands. -/
theorem search_takes_first_markers (text body trailing : String) :
    (∀ u, (RegionTexts.find text).preInit = some u ↔
      ∃ a c, Enclosed Marker.preInitBegin Marker.preInitEnd text a u c) ∧
    (∀ v, (RegionTexts.find text).postInit = some v ↔
      ∃ a c, Enclosed Marker.postInitBegin Marker.postInitEnd text a v c) ∧
    (∀ start stop a u c a' u' c', Enclosed start stop text a u c → Enclosed start stop text a' u' c' →
      a = a' ∧ u = u' ∧ c = c') ∧
    (∀ w, (RegionTexts.find text).trailing = some w ↔
      ∃ s a, LookedThrough text s ∧ s = a ++ Marker.endGenerated ++ w ∧ OnlyAtEnd Marker.endGenerated a) ∧
    (∃! s, LookedThrough text s) ∧
    Regions.recover (some text) body trailing =
      { preInit := (RegionTexts.find text).preInit.getD body
        postInit := (RegionTexts.find text).postInit.getD body
        trailing := (RegionTexts.find text).trailing.getD trailing } ∧
    (∀ start stop, ∃ found, enclosedAt? start stop text = .ok found ∧ ∀ u n, found = some (u, n) ↔
      ∃ a c, Enclosed start stop text a u c ∧ n = (a ++ start ++ u ++ stop).utf8ByteSize) ∧
    RegionTexts.findByOffset text = .ok (RegionTexts.find text) ∧
    (∀ i j u, slice text i j = .ok u ↔
      ∃ a c, text = a ++ u ++ c ∧ a.utf8ByteSize = i ∧ (a ++ u).utf8ByteSize = j) := by
  refine ⟨fun u => map_enclosed?_eq_some_iff, fun v => map_enclosed?_eq_some_iff, ?_,
    fun w => RegionTexts.find_trailing_eq_some_iff, existsUnique_lookedThrough text, rfl,
    fun start stop => enclosedAt?_eq_ok start stop text, RegionTexts.findByOffset_eq text,
    fun i j u => Text.slice_eq_ok_iff⟩
  intro start stop a u c a' u' c' h h'
  exact h.unique h'

end SceneScript
