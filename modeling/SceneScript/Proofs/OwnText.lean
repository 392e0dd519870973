/-
  SceneScript.Proofs.OwnText — what a script says itself.

  `ownText` is the text that the generator writes around the regions of a script;
  `scriptText_eq_around` says that it writes nothing else. Two facts make that text fit
  for a search (`RegionSearch`):
  - the seams: with an indent that ends in no star the pieces are `Seamed`;
  - no marker by accident: a configuration and a scene without stars are written without
    markers (`ownText_clear`). The class comment has stars of its own, so the text is
    taken line by line: a marker lies within one line, and no line of it has two stars
    and a marker's text between them.
-/
import SceneScript.Proofs.RegionSearch
import SceneScript.Proofs.StarFree

namespace SceneScript

open Text (Occurs OnlyAtEnd Straddles starFree_append)

/-! ## The pieces -/

def ownText (config : Config) (m : Model) : OwnText where
  head := "// Generated by " ++ config.productName ++ "\n\n"
    ++ Boilerplate.paragraph (Boilerplate.opening m.settings config.indent) ++ config.indent
  middle := "\n\n" ++ writeBlock config.indent m.objectLines ++ "\n" ++ fieldBlock config.indent m.fieldLines
    ++ config.indent
  tail := "\n" ++ Boilerplate.paragraph (Boilerplate.closing m.settings)

theorem scriptText_eq_around (config : Config) (m : Model) (r : Regions) :
    scriptText config m r = (ownText config m).around r := by
  unfold scriptText Boilerplate.header Boilerplate.footer Boilerplate.line OwnText.around
  dsimp only [ownText]
  simp only [String.append_assoc]

theorem generate_eq_around (config : Config) (m : Model) (previous : Option String) :
    generate config m previous
      = (ownText config m).around
          (Regions.recover previous config.bodyPlaceholder config.trailingPlaceholder) :=
  scriptText_eq_around _ _ _

/-! ## Seams -/

/-- Begins with a line feed. -/
def StartsLine (s : String) : Prop := s.toList.head? = some '\n'

/-- Ends in a line feed. -/
def EndsLine (s : String) : Prop := s.toList.getLast? = some '\n'

instance (s : String) : Decidable (StartsLine s) := inferInstanceAs (Decidable (_ = _))

instance (s : String) : Decidable (EndsLine s) := inferInstanceAs (Decidable (_ = _))

theorem StartsLine.append {s : String} (h : StartsLine s) (t : String) : StartsLine (s ++ t) := by
  rw [StartsLine, String.toList_append, List.head?_append, show s.toList.head? = _ from h]
  rfl

theorem EndsLine.append {t : String} (h : EndsLine t) (s : String) : EndsLine (s ++ t) := by
  rw [EndsLine, String.toList_append, List.getLast?_append, show t.toList.getLast? = _ from h]
  rfl

theorem endsLine_append (s : String) : EndsLine (s ++ "\n") := EndsLine.append (by decide) s

theorem EndsLine.append_paragraph {s : String} (h : EndsLine s) (ls : List String) :
    EndsLine (s ++ Boilerplate.paragraph ls) := by
  induction ls generalizing s with
  | nil => simpa [Boilerplate.paragraph] using h
  | cons l ls ih =>
    have : s ++ Boilerplate.paragraph (l :: ls) = s ++ l ++ "\n" ++ Boilerplate.paragraph ls := by
      simp [Boilerplate.paragraph, Boilerplate.line, String.append_assoc]
    rw [this]
    exact ih (endsLine_append _)

theorem EndsLine.append_fieldBlock {s : String} (h : EndsLine s) (indent : String) (ls : List String) :
    EndsLine (s ++ fieldBlock indent ls) := by
  unfold fieldBlock
  split
  · simpa using h
  · rw [← String.append_assoc]
    exact endsLine_append _

theorem EndsLine.not_star {s : String} (h : EndsLine s) : s.toList.getLast? ≠ some '*' := by
  rw [h]
  decide

/-- An indent after a line ends in no star if it has none at its own end. -/
theorem EndsLine.append_indent {s indent : String} (h : EndsLine s) (hi : indent.toList.getLast? ≠ some '*') :
    (s ++ indent).toList.getLast? ≠ some '*' := by
  rw [String.toList_append, List.getLast?_append]
  cases hl : indent.toList.getLast? with
  | none => simpa using h.not_star
  | some c => simpa [hl] using hi

theorem ownText_seamed {config : Config} (hi : config.indent.toList.getLast? ≠ some '*') (m : Model) :
    (ownText config m).Seamed where
  head_end := by
    have h : EndsLine ("// Generated by " ++ config.productName ++ "\n\n") := EndsLine.append (by decide) _
    exact (h.append_paragraph _).append_indent hi
  middle_start := by
    have h : StartsLine "\n\n" := by decide
    exact (((h.append _).append _).append _).append _
  middle_end := ((endsLine_append _).append_fieldBlock _ _).append_indent hi
  tail_start := StartsLine.append (by decide) _
  tail_end := by
    have h : EndsLine "\n" := by decide
    exact (h.append_paragraph _).not_star

theorem not_star_of_isBlank {s : String} (h : Text.isBlank s = true) : '*' ∉ s.toList := fun hs => by
  have := List.all_eq_true.mp h '*' hs
  revert this
  decide

theorem last_not_star {s : String} (h : '*' ∉ s.toList) : s.toList.getLast? ≠ some '*' :=
  fun hl => h (List.mem_of_getLast? hl)

theorem ownText_seamed_of_starFree {config : Config} (hc : config.StarFree) (m : Model) : (ownText config m).Seamed :=
  ownText_seamed (last_not_star (hc _ (by simp [Config.texts]))) m

theorem ownText_seamed_of_isBlank {config : Config} (hi : Text.isBlank config.indent = true) (m : Model) :
    (ownText config m).Seamed :=
  ownText_seamed (last_not_star (not_star_of_isBlank hi)) m

/-! ## No marker by accident -/

/-- Holds no marker. -/
def Unmarked (s : String) : Prop := ∀ mark ∈ Marker.all, ¬ Occurs mark s

instance (s : String) : Decidable (Unmarked s) := inferInstanceAs (Decidable (∀ mark ∈ Marker.all, _))

/-- A marker needs two stars. -/
theorem unmarked_of_count {s : String} (h : s.toList.count '*' < 2) : Unmarked s :=
  fun _ hm => (Marker.isComment_of_mem hm).not_occurs_of_count h

theorem unmarked_of_starFree {s : String} (h : Text.StarFree s) : Unmarked s :=
  unmarked_of_count (by rw [List.count_eq_zero_of_not_mem h]; omega)

/-- Of a literal only its characters are looked at. -/
theorem unmarked_literal {cs : List Char} (h : cs.count '*' < 2) : Unmarked (String.ofList cs) :=
  unmarked_of_count (by rwa [String.toList_ofList])

/-- A line of a comment has the star that it begins with. -/
theorem unmarked_of_oneStar {cs : List Char} {y : String} (h : cs.count '*' < 2) (hy : Text.StarFree y) :
    Unmarked (String.ofList cs ++ y) :=
  unmarked_of_count (by
    rw [String.toList_append, String.toList_ofList, List.count_append, List.count_eq_zero_of_not_mem hy]
    omega)

/-- Every marker has dashes. -/
theorem unmarked_of_noDash {s : String} (h : '-' ∉ s.toList) : Unmarked s := by
  have hdash : ∀ mark ∈ Marker.all, '-' ∈ mark.toList := by decide +kernel
  exact fun mark hm ho => h (ho.subset (hdash mark hm))

/-- No marker runs over the end of a line. -/
theorem Unmarked.line_append {x y : String} (hx : Unmarked x) (hy : Unmarked y) : Unmarked (x ++ "\n" ++ y) := by
  intro mark hm ho
  have hc := Marker.isComment_of_mem hm
  rw [String.append_assoc] at ho
  rcases Text.occurs_append_iff.mp ho with h | h | h
  · exact hx mark hm h
  · rcases Text.occurs_append_iff.mp h with h | h | ⟨l₁, l₂, h₁, -, hl, hs, -⟩
    · exact hc.not_occurs_of_starFree (by decide) h
    · exact hy mark hm h
    · -- the marker would hold the line feed
      have : l₁ = ['\n'] := by simpa [List.suffix_cons_iff, h₁] using hs
      exact hc.newline_not_mem (by rw [hl, this]; simp)
  · exact hc.not_straddles_newline (by simp) x h

theorem Unmarked.paragraph_append {ls : List String} {y : String} (hl : ∀ l ∈ ls, Unmarked l) (hy : Unmarked y) :
    Unmarked (Boilerplate.paragraph ls ++ y) := by
  induction ls with
  | nil => simpa [Boilerplate.paragraph] using hy
  | cons l ls ih =>
    have : Boilerplate.paragraph (l :: ls) ++ y = l ++ "\n" ++ (Boilerplate.paragraph ls ++ y) := by
      simp [Boilerplate.paragraph, Boilerplate.line, String.append_assoc]
    rw [this]
    exact (hl l (by simp)).line_append (ih fun l' h => hl l' (by simp [h]))

theorem unmarked_comment_open : Unmarked "/**" := unmarked_of_noDash (by decide)

theorem unmarked_comment_close : Unmarked " */" := unmarked_literal (by decide)

theorem unmarked_comment_name {s : String} (h : Text.StarFree s) : Unmarked (" * " ++ s ++ ".") := by
  rw [String.append_assoc]
  exact unmarked_of_oneStar (by decide) (starFree_append.mpr ⟨h, .literal (by decide)⟩)

theorem unmarked_empty : Unmarked "" := unmarked_literal (by decide)

section Lines

variable {s : Settings} {indent : String}

/-- The comment that names a base class is no marker. -/
theorem unmarked_prototypeLines {className base : String} (hn : Text.StarFree className)
    (hb : base ∈ ["Group", "Sprite", "State"]) : ∀ l ∈ Boilerplate.prototypeLines className base, Unmarked l := by
  have hcomment : ∀ base ∈ ["Group", "Sprite", "State"], '-' ∉ ("/** @type Phaser." ++ base ++ " */").toList := by
    decide +kernel
  have hbase : ∀ base ∈ ["Group", "Sprite", "State"], Text.StarFree base := by decide
  simp only [Boilerplate.prototypeLines, List.forall_mem_cons, List.not_mem_nil, false_imp_iff, implies_true, and_true]
  refine ⟨unmarked_of_noDash (hcomment base hb), unmarked_of_starFree ?_, unmarked_of_starFree ?_,
    unmarked_of_starFree ?_, unmarked_empty⟩
  · simp only [starFree_append, and_assoc]
    exact ⟨.literal (by decide), hn, .literal (by decide), hbase base hb, .literal (by decide)⟩
  · simp only [starFree_append, and_assoc]
    exact ⟨hn, .literal (by decide), hn, .literal (by decide)⟩
  · simp only [starFree_append, and_assoc]
    exact ⟨hn, .literal (by decide), hn, .literal (by decide)⟩

theorem starFree_methodLines {className method : String} {body : List String} (hn : Text.StarFree className)
    (hm : Text.StarFree method) (hi : Text.StarFree indent) (hb : ∀ l ∈ body, Text.StarFree l) :
    ∀ l ∈ Boilerplate.methodUnlessEmpty className method indent body, Text.StarFree l := by
  unfold Boilerplate.methodUnlessEmpty
  split
  · simp
  · simp only [Boilerplate.methodLines, List.forall_mem_append, List.forall_mem_cons, List.forall_mem_map,
      starFree_append, List.not_mem_nil, false_imp_iff, implies_true, and_true]
    have hempty : Text.StarFree "" := .literal (by decide)
    exact ⟨⟨⟨⟨⟨⟨hn, .literal (by decide)⟩, hm⟩, .literal (by decide)⟩, hempty⟩, fun l hl => ⟨hi, hb l hl⟩⟩, hempty,
      .literal (by decide), hempty⟩

theorem Settings.starFree_className (h : ∀ x ∈ s.texts, Text.StarFree x) : Text.StarFree s.className :=
  h _ (by simp [Settings.texts])

theorem Settings.starFree_texture (h : ∀ x ∈ s.texts, Text.StarFree x) {t : Texture} (ht : s.spriteTexture = some t) :
    ∀ x ∈ t.texts, Text.StarFree x :=
  fun x hx => h x (by simp [Settings.texts, ht, hx])

theorem starFree_initBody (h : ∀ x ∈ s.texts, Text.StarFree x) : ∀ l ∈ Boilerplate.initBody s, Text.StarFree l := by
  refine List.forall_mem_append.mpr ⟨?_, ?_⟩
  · split
    · rename_i color hc
      simp only [List.forall_mem_singleton, starFree_append]
      have hcolor := Literal.starFree_text (h color (by simp [Settings.texts, hc]))
      exact ⟨⟨.literal (by decide), hcolor⟩, .literal (by decide)⟩
    · simp
  · split
    · rename_i physics _
      simp only [List.forall_mem_singleton, starFree_append]
      exact ⟨⟨.literal (by decide), physics.starFree_constant⟩, .literal (by decide)⟩
    · simp

theorem starFree_preloadBody (h : ∀ x ∈ s.texts, Text.StarFree x) :
    ∀ l ∈ Boilerplate.preloadBody s, Text.StarFree l := by
  refine List.forall_mem_map.mpr fun name hn => ?_
  simp only [starFree_append, and_assoc]
  exact ⟨.literal (by decide), Literal.starFree_text (h name (by simp [Settings.texts, hn])), .literal (by decide),
    Literal.starFree_text (h s.packUrl (by simp [Settings.texts])), .literal (by decide)⟩

theorem starFree_keyArgument {texture : Option Texture} (h : ∀ t, texture = some t → ∀ x ∈ t.texts, Text.StarFree x) :
    Text.StarFree (Boilerplate.keyArgument texture) := by
  cases texture with
  | none => exact .literal (by decide)
  | some t =>
    exact starFree_append.mpr ⟨.literal (by decide), Literal.starFree_text (Texture.starFree_assetKey (h t rfl))⟩

theorem starFree_frameArgument {texture : Option Texture} (h : ∀ t, texture = some t → ∀ x ∈ t.texts, Text.StarFree x) :
    Text.StarFree (Boilerplate.frameArgument texture) := by
  cases texture with
  | none => exact .literal (by decide)
  | some t =>
    simp only [Boilerplate.frameArgument]
    split
    · exact .literal (by decide)
    · simp only [starFree_append]
      exact ⟨⟨.literal (by decide), Expr.starFree_render (Texture.starFree_frameExpr (h t rfl))⟩, .literal (by decide)⟩

theorem unmarked_opening (h : ∀ x ∈ s.texts, Text.StarFree x) (hi : Text.StarFree indent) :
    ∀ l ∈ Boilerplate.opening s indent, Unmarked l := by
  have hn := s.starFree_className h
  unfold Boilerplate.opening
  split
  · simp only [Boilerplate.groupHeader, List.forall_mem_cons, List.not_mem_nil, false_imp_iff, implies_true, and_true]
    refine ⟨unmarked_comment_open, unmarked_comment_name hn, unmarked_literal (by decide),
      unmarked_of_oneStar (by decide) (.literal (by decide)), unmarked_literal (by decide),
      unmarked_of_oneStar (by decide) (.literal (by decide)), unmarked_of_oneStar (by decide) (.literal (by decide)),
      unmarked_literal (by decide), unmarked_comment_close, unmarked_of_starFree ?_, unmarked_empty,
      unmarked_of_starFree ?_⟩
    · simp only [starFree_append]
      exact ⟨⟨.literal (by decide), hn⟩, .literal (by decide)⟩
    · exact starFree_append.mpr ⟨hi, .literal (by decide)⟩
  · have ht : ∀ t, s.spriteTexture = some t → ∀ x ∈ t.texts, Text.StarFree x := fun _ => Settings.starFree_texture h
    simp only [Boilerplate.spriteHeader, List.forall_mem_cons, List.not_mem_nil, false_imp_iff, implies_true, and_true]
    refine ⟨unmarked_comment_open, unmarked_comment_name hn, unmarked_literal (by decide), unmarked_literal (by decide),
      unmarked_literal (by decide), unmarked_literal (by decide), unmarked_literal (by decide), unmarked_comment_close,
      unmarked_of_starFree ?_, unmarked_empty, unmarked_of_starFree ?_⟩
    · simp only [starFree_append]
      exact ⟨⟨.literal (by decide), hn⟩, .literal (by decide)⟩
    · simp only [starFree_append, and_assoc]
      exact ⟨hi, .literal (by decide), starFree_keyArgument ht, .literal (by decide), starFree_frameArgument ht,
        .literal (by decide)⟩
  · simp only [Boilerplate.stateHeader, List.forall_mem_append, List.forall_mem_cons, List.not_mem_nil, false_imp_iff,
      implies_true, and_true, and_assoc]
    refine ⟨unmarked_comment_open, unmarked_comment_name hn, unmarked_comment_close, unmarked_of_starFree ?_,
      unmarked_empty, unmarked_of_starFree ?_, unmarked_empty, unmarked_literal (by decide), unmarked_empty,
      unmarked_prototypeLines hn (by simp), fun l hl => unmarked_of_starFree ?_, fun l hl => unmarked_of_starFree ?_,
      unmarked_of_starFree ?_⟩
    · simp only [starFree_append]
      exact ⟨⟨.literal (by decide), hn⟩, .literal (by decide)⟩
    · exact starFree_append.mpr ⟨hi, .literal (by decide)⟩
    · exact starFree_methodLines hn (.literal (by decide)) hi (starFree_initBody h) l hl
    · exact starFree_methodLines hn (.literal (by decide)) hi (starFree_preloadBody h) l hl
    · exact starFree_append.mpr ⟨hn, .literal (by decide)⟩

theorem unmarked_closing (h : ∀ x ∈ s.texts, Text.StarFree x) : ∀ l ∈ Boilerplate.closing s, Unmarked l := by
  have hn := s.starFree_className h
  have hbrace : ∀ l ∈ ["\x7d", ""], Unmarked l := by
    simpa using ⟨unmarked_literal (by decide), unmarked_empty⟩
  unfold Boilerplate.closing
  split
  · exact List.forall_mem_append.mpr ⟨hbrace, unmarked_prototypeLines hn (by simp)⟩
  · exact List.forall_mem_append.mpr ⟨hbrace, unmarked_prototypeLines hn (by simp)⟩
  · simpa using ⟨unmarked_literal (by decide), unmarked_empty⟩

end Lines

/-! ## The scene -/

theorem starFree_writeBlock {indent : String} {lines : List String} (hi : Text.StarFree indent)
    (hl : ∀ l ∈ lines, Text.StarFree l) : Text.StarFree (writeBlock indent lines) := by
  induction lines with
  | nil => exact .literal (by decide)
  | cons l ls ih =>
    obtain ⟨hl, hls⟩ := List.forall_mem_cons.mp hl
    have : writeBlock indent (l :: ls) = (if l.isEmpty then "\n" else indent ++ l ++ "\n") ++ writeBlock indent ls := by
      simp [writeBlock]
    rw [this]
    refine starFree_append.mpr ⟨?_, ih hls⟩
    split
    · exact .literal (by decide)
    · simp only [starFree_append]
      exact ⟨⟨hi, hl⟩, .literal (by decide)⟩

theorem starFree_fieldBlock {indent : String} {lines : List String} (hi : Text.StarFree indent)
    (hl : ∀ l ∈ lines, Text.StarFree l) : Text.StarFree (fieldBlock indent lines) := by
  unfold fieldBlock
  split
  · exact .literal (by decide)
  · simp only [starFree_append]
    exact ⟨⟨⟨hi, .literal (by decide)⟩, starFree_writeBlock hi hl⟩, .literal (by decide)⟩

/-- Between the two regions inside the code a script has no star that its scene does not have. -/
theorem ownText_middle_starFree {config : Config} {m : Model} (hc : config.StarFree) (hm : m.StarFree) :
    Text.StarFree (ownText config m).middle := by
  have hi : Text.StarFree config.indent := hc _ (by simp [Config.texts])
  have hobjects := starFree_writeBlock hi (objectLines_starFree hm)
  have hfields := starFree_fieldBlock hi (fieldLines_starFree hm)
  dsimp only [ownText]
  simp only [starFree_append, and_assoc]
  exact ⟨.literal (by decide), hobjects, .literal (by decide), hfields, hi⟩

/-- A configuration and a scene without stars are written without markers. -/
theorem ownText_clear {config : Config} {m : Model} (hc : config.StarFree) (hm : m.StarFree) :
    (ownText config m).Clear := by
  have hi : Text.StarFree config.indent := hc _ (by simp [Config.texts])
  have hp : Text.StarFree config.productName := hc _ (by simp [Config.texts])
  have hs := (List.forall_mem_append.mp hm).1
  have hhead : Unmarked (ownText config m).head := by
    have : (ownText config m).head = ("// Generated by " ++ config.productName) ++ "\n"
        ++ ("" ++ "\n" ++ (Boilerplate.paragraph (Boilerplate.opening m.settings config.indent) ++ config.indent)) := by
      dsimp only [ownText]
      rw [String.empty_append, show "\n\n" = "\n" ++ "\n" from rfl]
      simp only [String.append_assoc]
    rw [this]
    exact (unmarked_of_starFree (starFree_append.mpr ⟨.literal (by decide), hp⟩)).line_append
      (unmarked_empty.line_append
        (Unmarked.paragraph_append (unmarked_opening hs hi) (unmarked_of_starFree hi)))
  have htail : Unmarked (ownText config m).tail := by
    have : (ownText config m).tail = "" ++ "\n" ++ (Boilerplate.paragraph (Boilerplate.closing m.settings) ++ "") := by
      dsimp only [ownText]
      rw [String.empty_append, String.append_empty]
    rw [this]
    exact unmarked_empty.line_append (Unmarked.paragraph_append (unmarked_closing hs) unmarked_empty)
  have hmiddle := unmarked_of_starFree (ownText_middle_starFree hc hm)
  exact fun mark hmark => ⟨hhead mark hmark, hmiddle mark hmark, htail mark hmark⟩

end SceneScript
