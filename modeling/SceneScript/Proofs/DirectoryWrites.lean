/-
  SceneScript.Proofs.DirectoryWrites — what a write to a directory changes.

  A path is followed through places that are directories, so the place it leads to lies
  in one: no place before it is empty (`parents_there`). A text that is put at such a place
  therefore makes no new directory, and every other place keeps what stands there
  (`entry_put_of_ne`). A write does this or fails (`write_ok`), and since the path is
  followed through the same places afterwards, reading it gives the text back
  (`read_write`).
-/
import Mathlib.Data.List.Basic
import SceneScript.Command.Directory

namespace SceneScript.Directory

variable {d d' : Directory} {path text : String} {place : List String}

/-! ## The way to a place -/

/-- Something stands at every place before this one. -/
def ParentsThere (d : Directory) (place : List String) : Prop :=
  ∀ other, other <+: place → other ≠ place → d.entry other ≠ .nothing

theorem entry_of_anchors (h : place.all isAnchor = true) : d.entry place ≠ .nothing := by
  unfold entry
  split
  · exact Entry.noConfusion
  · rw [h]
    exact Entry.noConfusion

theorem parentsThere_of_anchors (h : place.all isAnchor = true) : d.ParentsThere place := by
  intro other hother _
  apply entry_of_anchors
  obtain ⟨rest, rfl⟩ := hother
  rw [List.all_append, Bool.and_eq_true] at h
  exact h.1

theorem ParentsThere.step {name : String} (h : d.ParentsThere place) (hdir : d.entry place = .directory) :
    d.ParentsThere (place ++ [name]) := by
  intro other hother hne
  rcases List.prefix_concat_iff.mp hother with heq | hbefore
  · exact absurd heq hne
  · by_cases hself : other = place
    · rw [hself, hdir]
      exact Entry.noConfusion
    · exact h other hbefore hself

theorem ParentsThere.back (h : d.ParentsThere place) : d.ParentsThere (back place) := by
  unfold Directory.back
  split
  · exact h
  · split
    · rename_i hanchors
      apply parentsThere_of_anchors
      rw [List.all_append, hanchors]
      rfl
    · intro other hother hne
      refine h other (hother.trans (List.dropLast_prefix place)) fun heq => hne ?_
      -- a place is no longer than itself without its last name only if it is empty
      have hlength := hother.length_le
      rw [heq, List.length_dropLast] at hlength
      obtain rfl : place = [] := List.length_eq_zero_iff.mp (by omega)
      exact heq

/-- Names are followed through directories. -/
theorem parentsThere_of_follow {start : List String} {names : List String} (h : d.ParentsThere start)
    (hfollow : d.follow start names = .ok place) : d.ParentsThere place := by
  induction names generalizing start with
  | nil =>
    cases hfollow
    exact h
  | cons name rest ih =>
    rw [follow] at hfollow
    split at hfollow
    · cases hfollow
    · cases hfollow
    · rename_i hdir
      split at hfollow
      · exact ih h hfollow
      · split at hfollow
        · exact ih h.back hfollow
        · split at hfollow
          · cases hfollow
          · exact ih (h.step hdir) hfollow

/-- A path that leads somewhere is followed from an anchor. -/
theorem follow_of_resolve (h : d.resolve path = .ok place) :
    ∃ start names, start.all isAnchor = true ∧ d.follow start names = .ok place ∧
      ∀ e : Directory, e.resolve path = e.follow start names := by
  simp only [resolve] at h ⊢
  split at h
  · cases h
  · rename_i hpath
    split at h
    · cases h
    · rename_i hlimit
      simp only [if_neg hpath, if_neg hlimit]
      unfold followNames at h ⊢
      split at h
      · rename_i rest _
        exact ⟨["/"], rest, by decide, h, fun _ => rfl⟩
      · exact ⟨[], names path, rfl, h, fun _ => rfl⟩

theorem parents_there (h : d.resolve path = .ok place) : d.ParentsThere place := by
  obtain ⟨start, names, hstart, hfollow, -⟩ := follow_of_resolve h
  exact parentsThere_of_follow (parentsThere_of_anchors hstart) hfollow

/-! ## Writing -/

theorem lookup_filter_ne {files : List (List String × Content)} {other : List String} (h : other ≠ place) :
    (files.filter fun f => f.1 != place).lookup other = files.lookup other := by
  induction files with
  | nil => rfl
  | cons f files ih =>
    by_cases hf : f.1 = place
    · have hother : (other == f.1) = false := by rw [hf]; exact beq_false_of_ne h
      rw [List.filter_cons_of_neg (by simp [hf]), ih, List.lookup_cons, hother]
    · rw [List.filter_cons_of_pos (by simp [hf]), List.lookup_cons, List.lookup_cons, ih]

theorem entry_put_self (d : Directory) (place : List String) (text : String) :
    (d.put place text).entry place = .file (.text text) := by
  simp [entry, put]

/-- A text at a place whose parents are there is all that changes. -/
theorem entry_put_of_ne {other : List String} (h : d.ParentsThere place) (hne : other ≠ place) :
    (d.put place text).entry other = d.entry other := by
  have hlookup : (d.put place text).files.lookup other = d.files.lookup other := by
    show List.lookup other (_ :: _) = _
    rw [List.lookup_cons, beq_false_of_ne hne]
    exact lookup_filter_ne hne
  simp only [entry, hlookup]
  split
  · rfl
  · rename_i hnone
    -- the place counts as a directory in the one if and only if it does in the other
    have hbelow : (d.put place text).files.any (fun f => other.isPrefixOf f.1) = true ↔
        other.isPrefixOf place = true ∨ ∃ f ∈ d.files, f.1 ≠ place ∧ other.isPrefixOf f.1 = true := by
      simp [put]
    have hthere : other.isPrefixOf place = true →
        (other.all isAnchor || d.files.any fun f => other.isPrefixOf f.1) = true := by
      intro hprefix
      by_contra hno
      refine h other (List.isPrefixOf_iff_prefix.mp hprefix) hne ?_
      rw [entry, hnone]
      exact if_neg hno
    congr 1
    rw [eq_iff_iff, Bool.or_eq_true, Bool.or_eq_true, hbelow]
    constructor
    · rintro (hanchors | hprefix | ⟨f, hf, -, hprefix⟩)
      · exact .inl hanchors
      · exact (Bool.or_eq_true _ _).mp (hthere hprefix)
      · exact .inr (List.any_eq_true.mpr ⟨f, hf, hprefix⟩)
    · rintro (hanchors | hany)
      · exact .inl hanchors
      · obtain ⟨f, hf, hprefix⟩ := List.any_eq_true.mp hany
        by_cases hfp : f.1 = place
        · exact .inr (.inl (hfp ▸ hprefix))
        · exact .inr (.inr ⟨f, hf, hfp, hprefix⟩)

/-- Names lead to the same place as before a text was put where no directory is. -/
theorem follow_put {start target : List String} {names : List String} (h : d.ParentsThere target)
    (hfile : d.entry target ≠ .directory) (hfollow : d.follow start names = .ok place) :
    (d.put target text).follow start names = .ok place := by
  induction names generalizing start with
  | nil => exact hfollow
  | cons name rest ih =>
    rw [follow] at hfollow ⊢
    split at hfollow
    · cases hfollow
    · cases hfollow
    · rename_i hdir
      have hne : start ≠ target := fun heq => hfile (heq ▸ hdir)
      rw [entry_put_of_ne h hne, hdir]
      simp only
      split at hfollow
      · rename_i hstay
        rw [if_pos hstay]
        exact ih hfollow
      · rename_i hstay
        rw [if_neg hstay]
        split at hfollow
        · rename_i hback
          rw [if_pos hback]
          exact ih hfollow
        · rename_i hback
          rw [if_neg hback]
          split at hfollow
          · cases hfollow
          · rename_i hlong
            rw [if_neg hlong]
            exact ih hfollow

/-- A write that succeeds puts the text where the path leads, and there is no directory. -/
theorem write_ok (h : d.write path text = .ok d') :
    ∃ place, d.resolve path = .ok place ∧ d.entry place ≠ .directory ∧ d' = d.put place text := by
  unfold write at h
  split at h
  · cases h
  · rename_i place hplace
    refine ⟨place, hplace, ?_⟩
    split at h
    · cases h
    · rename_i hfile
      split at h
      · cases h
      · cases h
        exact ⟨hfile, rfl⟩

theorem read_of_entry (h : d.resolve path = .ok place) (htext : d.entry place = .file (.text text)) :
    d.read path = .ok text := by
  simp only [read, h, bind, Except.bind, htext]

/-- What has been written is read. -/
theorem read_write (h : d.write path text = .ok d') : d'.read path = .ok text := by
  obtain ⟨place, hplace, hfile, rfl⟩ := write_ok h
  obtain ⟨start, names, -, hfollow, hsame⟩ := follow_of_resolve hplace
  have hresolve : (d.put place text).resolve path = .ok place := by
    rw [hsame]
    exact follow_put (parents_there hplace) hfile hfollow
  exact read_of_entry hresolve (entry_put_self d place text)

end SceneScript.Directory
