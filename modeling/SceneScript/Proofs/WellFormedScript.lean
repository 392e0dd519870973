/-
  SceneScript.Proofs.WellFormedScript — a script is well formed, whatever its texts are.

  A script is scanned from its first character to its last: the class comment, the code up
  to the pre-init region, the objects, the fields, the rest of the class. Proved: if its
  names are names and no expression in it was written by people, the scan ends in code with
  every bracket closed, and the literals on the way are the texts that the scene is quoted
  by (`script_is_well_formed`). So no text leaves its literal: quotes, brackets and comment
  openers in it are read as its characters.

  The header opens one brace that the footer closes, in each kind of scene; every other line
  closes what it opens. Names stand in the class comment too, where only a star could do
  harm.
-/
import SceneScript.Proofs.PublicVariables
import SceneScript.Proofs.QuotedTexts
import SceneScript.Proofs.RegionSearch

namespace SceneScript

open Scan (Reads ReadsLines Runs IsName reads_ordinary reads_text)

/-! ## Lines -/

namespace Scan

variable {s t u : State} {l : String} {ls as bs : List String}

theorem Runs.paragraph_nil : Runs s (Boilerplate.paragraph []) s [] := rfl

theorem Runs.paragraph_cons (hl : Runs s (l ++ "\n") t as) (h : Runs t (Boilerplate.paragraph ls) u bs) :
    Runs s (Boilerplate.paragraph (l :: ls)) u (as ++ bs) := by
  have : Boilerplate.paragraph (l :: ls) = l ++ "\n" ++ Boilerplate.paragraph ls := by
    simp [Boilerplate.paragraph, Boilerplate.line]
  rw [this]
  exact hl.append h

theorem Runs.paragraph_append {ls' : List String} (h : Runs s (Boilerplate.paragraph ls) t as)
    (h' : Runs t (Boilerplate.paragraph ls') u bs) : Runs s (Boilerplate.paragraph (ls ++ ls')) u (as ++ bs) := by
  have : Boilerplate.paragraph (ls ++ ls') = Boilerplate.paragraph ls ++ Boilerplate.paragraph ls' := by
    simp [Boilerplate.paragraph, String.join_append]
  rw [this]
  exact h.append h'

variable {o : List Bracket}

/-- A line that ends in code. -/
theorem Runs.code_line (hl : Runs s l ⟨.code, o⟩ []) (h : Runs ⟨.code, o⟩ (Boilerplate.paragraph ls) u as) :
    Runs s (Boilerplate.paragraph (l :: ls)) u as :=
  (hl.silent (.lit (by decide))).paragraph_cons h

/-- The line that closes the innermost brace, and an empty one. -/
theorem Runs.closing_lines {cs : List Char} (h : scan ⟨.code, [.curly]⟩ cs = some (⟨.code, []⟩, [])) :
    Runs ⟨.code, .curly :: o⟩ (Boilerplate.paragraph [String.ofList cs, ""]) ⟨.code, o⟩ [] :=
  .code_line (.closing h) (.code_line (Reads.empty _) .paragraph_nil)

/-- The line that opens a block comment. -/
theorem Runs.comment_begin (h : Runs ⟨.blockComment, o⟩ (Boilerplate.paragraph ls) u as) :
    Runs ⟨.code, o⟩ (Boilerplate.paragraph ("/**" :: ls)) u as :=
  have hopen : Runs ⟨.code, o⟩ "/**" ⟨.blockStar, o⟩ [] := .lit (by decide)
  (hopen.silent (.lit (by decide))).paragraph_cons h

/-- A line within it. -/
theorem Runs.comment_line (hl : Runs ⟨.blockComment, o⟩ l ⟨.blockComment, o⟩ [])
    (h : Runs ⟨.blockComment, o⟩ (Boilerplate.paragraph ls) u as) :
    Runs ⟨.blockComment, o⟩ (Boilerplate.paragraph (l :: ls)) u as :=
  (hl.silent (.lit (by decide))).paragraph_cons h

/-- The line that closes it. -/
theorem Runs.comment_end (h : Runs ⟨.code, o⟩ (Boilerplate.paragraph ls) u as) :
    Runs ⟨.blockComment, o⟩ (Boilerplate.paragraph (" */" :: ls)) u as :=
  .code_line (.lit (by decide)) h

theorem ReadsLines.paragraph (h : ReadsLines ls as) : Reads (Boilerplate.paragraph ls) as := by
  induction h with
  | nil => exact fun _ => rfl
  | cons hl _ ih => exact fun o => ((hl o).silent (.lit (by decide))).paragraph_cons (ih o)

theorem ReadsLines.indented {indent : String} (hi : Reads indent []) (h : ReadsLines ls as) :
    ReadsLines (ls.map (indent ++ ·)) as := by
  induction h with
  | nil => exact .nil
  | cons hl _ ih => exact .cons (hi.append hl) ih

/-- The lines of a block, indented or empty. -/
theorem ReadsLines.writeBlock {indent : String} (hi : Reads indent []) (h : ReadsLines ls as) :
    Reads (SceneScript.writeBlock indent ls) as := by
  induction h with
  | nil => exact fun _ => rfl
  | @cons line rest texts more hl _ ih =>
    have hend : Reads "\n" [] := reads_ordinary (by decide)
    have hline : Reads (if line.isEmpty then "\n" else indent ++ line ++ "\n") texts := by
      split
      · rename_i hempty
        obtain rfl : line = "" := by simpa using hempty
        obtain rfl : [] = texts := by simpa [Runs, scan] using hl []
        exact hend
      · exact (hi.append hl).silent hend
    have : SceneScript.writeBlock indent (line :: rest)
        = (if line.isEmpty then "\n" else indent ++ line ++ "\n") ++ SceneScript.writeBlock indent rest := by
      simp [SceneScript.writeBlock]
    rw [this]
    exact hline.append ih

end Scan

/-! ## The class around the objects -/

/-- The texts that the class itself quotes: for a sprite its picture, for a state its colour and its asset packs. -/
def Settings.quotedTexts (s : Settings) : List String :=
  match s.kind with
  | .group => []
  | .sprite => s.spriteTexture.toList.flatMap fun t => t.assetKey :: t.frameTexts
  | .state => s.stageBackgroundColor.toList ++ s.preloadSections.flatMap fun name => [name, s.packUrl]

namespace Boilerplate

section Header

variable {className indent : String} (hn : IsName className) (hi : Reads indent [])

include hn in
theorem reads_prototypeLines {base : String} (hb : base ∈ ["Group", "Sprite", "State"]) :
    ReadsLines (prototypeLines className base) [] := by
  have hbase : ∀ base ∈ ["Group", "Sprite", "State"], Reads base [] ∧ Text.StarFree base := by
    simp only [List.forall_mem_cons, List.not_mem_nil, false_imp_iff, implies_true, and_true]
    exact ⟨⟨reads_ordinary (by decide), by decide⟩, ⟨reads_ordinary (by decide), by decide⟩,
      reads_ordinary (by decide), by decide⟩
  obtain ⟨hreads, hstar⟩ := hbase base hb
  have hname := hn.reads
  refine .cons_silent (fun o => ?_) (.cons_silent (fun o => ?_) (.cons_silent ?_
    (.cons_silent ?_ (.single Scan.Reads.empty))))
  · have hopen : Runs ⟨.code, o⟩ "/** @type Phaser." ⟨.blockComment, o⟩ [] := .lit (by decide)
    exact (hopen.silent (Scan.runs_blockComment hstar o)).silent (.lit (by decide))
  · have hvar : Reads "var " [] := reads_ordinary (by decide)
    have hcreate : Runs ⟨.code, o⟩ "_proto = Object.create(Phaser." ⟨.code, .round :: o⟩ [] := .opening (by decide)
    exact (((hvar.silent hname o).silent hcreate).silent (hreads _)).silent (.closing (by decide))
  · exact ((hname.silent (reads_ordinary (by decide))).silent hname).silent (reads_ordinary (by decide))
  · exact ((hname.silent (reads_ordinary (by decide))).silent hname).silent (reads_ordinary (by decide))

include hn hi in
/-- A method closes the brace that it opens. -/
theorem reads_method {method : String} (hm : Reads method []) {body texts : List String} (hb : ReadsLines body texts) :
    Reads (paragraph (methodUnlessEmpty className method indent body)) texts := by
  cases hb with
  | nil => exact fun _ => rfl
  | cons hl hrest =>
    intro o
    have hbody := (ReadsLines.indented hi (.cons hl hrest)).paragraph (.curly :: o)
    have hprototype : Reads (className ++ ".prototype." ++ method) [] :=
      (hn.reads.silent (reads_ordinary (by decide))).silent hm
    have hopen : Runs ⟨.code, o⟩ (paragraph [className ++ ".prototype." ++ method ++ " = function () \x7b", ""])
        ⟨.code, .curly :: o⟩ [] :=
      .code_line ((hprototype o).silent (.opening (by decide))) (.code_line (Scan.Reads.empty _) .paragraph_nil)
    have hclose : Runs ⟨.code, .curly :: o⟩ (paragraph ["", "\x7d;", ""]) ⟨.code, o⟩ [] :=
      .code_line (Scan.Reads.empty _) (.closing_lines (by decide))
    have := (hopen.paragraph_append hbody).paragraph_append hclose
    rwa [List.append_nil] at this

theorem reads_initBody (s : Settings) : ReadsLines (initBody s) s.stageBackgroundColor.toList := by
  unfold initBody
  rw [← List.append_nil s.stageBackgroundColor.toList]
  refine .append ?_ ?_
  · cases s.stageBackgroundColor with
    | none => exact .nil
    | some color =>
      have hleft : Reads "this.stage.backgroundColor = " [] := reads_ordinary (by decide)
      exact .single ((hleft.append (reads_text color)).silent (reads_ordinary (by decide)))
  · cases s.physicsSystem with
    | none => exact .nil
    | some physics =>
      have hconstant : Reads physics.constant [] := by cases physics <;> exact reads_ordinary (by decide)
      refine .single fun o => ?_
      have hopen : Runs ⟨.code, o⟩ "this.physics.startSystem(" ⟨.code, .round :: o⟩ [] :=
        .opening (by decide)
      exact (hopen.silent (hconstant _)).silent (.closing (by decide))

theorem reads_preloadBody (s : Settings) :
    ReadsLines (preloadBody s) (s.preloadSections.flatMap fun name => [name, s.packUrl]) := by
  unfold preloadBody
  induction s.preloadSections with
  | nil => exact .nil
  | cons name rest ih =>
    have hline : Reads ("this.load.pack(" ++ Literal.text name ++ ", " ++ Literal.text s.packUrl ++ ");")
        [name, s.packUrl] := fun o => by
      have hopen : Runs ⟨.code, o⟩ "this.load.pack(" ⟨.code, .round :: o⟩ [] := .opening (by decide)
      exact (((hopen.append (reads_text name _)).silent (.lit (by decide))).append (reads_text s.packUrl _)).silent
        (.closing (by decide))
    exact .cons hline ih

include hn in
/-- The line of the class comment that names it. -/
theorem runs_comment_name (o : List Bracket) :
    Runs ⟨.blockComment, o⟩ (" * " ++ className ++ ".") ⟨.blockComment, o⟩ [] := by
  have hstar : Runs ⟨.blockComment, o⟩ " * " ⟨.blockComment, o⟩ [] := .lit (by decide)
  exact (hstar.silent (Scan.runs_blockComment hn.starFree o)).silent (.lit (by decide))

include hn in
/-- The line that begins the constructor. -/
theorem runs_function {parameters : String} {o : List Bracket}
    (h : Runs ⟨.code, o⟩ parameters ⟨.code, .curly :: o⟩ []) :
    Runs ⟨.code, o⟩ ("function " ++ className ++ parameters) ⟨.code, .curly :: o⟩ [] := by
  have hfunction : Reads "function " [] := reads_ordinary (by decide)
  exact (hfunction.silent hn.reads o).silent h

include hn hi in
theorem runs_groupHeader (o : List Bracket) :
    Runs ⟨.code, o⟩ (paragraph (groupHeader className indent)) ⟨.code, .curly :: o⟩ [] := by
  have hparameters : Runs ⟨.code, o⟩ "(aGame, aParent, aName, aAddToStage, aEnableBody, aPhysicsBodyType) \x7b"
      ⟨.code, .curly :: o⟩ [] := .opening (by decide)
  have hpart : ∀ {cs : List Char}, Scan.scan ⟨.blockComment, []⟩ cs = some (⟨.blockComment, []⟩, []) →
      Runs ⟨.blockComment, o⟩ (String.ofList cs) ⟨.blockComment, o⟩ [] := Runs.lit
  refine .comment_begin (.comment_line (runs_comment_name hn o)
    (.comment_line (.lit (by decide +kernel)) (.comment_line ?_ (.comment_line (.lit (by decide +kernel))
      (.comment_line ?_ (.comment_line ?_ (.comment_line (.lit (by decide +kernel)) (.comment_end
        (.code_line (runs_function hn hparameters) (.code_line (Scan.Reads.empty _)
          (.code_line (o := .curly :: o) ?_ .paragraph_nil)))))))))))
  · exact (hpart (by decide +kernel)).silent (hpart (by decide +kernel))
  · exact (hpart (by decide +kernel)).silent (hpart (by decide +kernel))
  · exact (hpart (by decide +kernel)).silent (hpart (by decide +kernel))
  · exact (hi _).silent (.lit (by decide +kernel))

/-- The key and the frame of the picture, unless the caller gives others. -/
theorem reads_pictureArguments (texture : Option Texture) :
    Reads (keyArgument texture ++ ", " ++ frameArgument texture)
      (texture.toList.flatMap fun t => t.assetKey :: t.frameTexts) := by
  have hcomma : Reads ", " [] := reads_ordinary (by decide)
  cases texture with
  | none => exact reads_ordinary (by decide)
  | some t =>
    have hkey : Reads (keyArgument (some t)) [t.assetKey] :=
      Scan.Reads.append (x := "aKey || ") (reads_ordinary (by decide)) (reads_text t.assetKey)
    have hframe : Reads (frameArgument (some t)) t.frameTexts := by
      simp only [frameArgument]
      split
      · rename_i himage
        have hnone : t.frameTexts = [] := by
          cases t with
          | image key => rfl
          | spritesheetFrame key index => rfl
          | atlasFrame key frame => cases himage
        rw [hnone]
        exact reads_ordinary (by decide)
      · obtain ⟨hl, hq⟩ := t.quoted_frameExpr
        have hleft : Reads "aFrame === undefined || aFrame === null ? " [] := reads_ordinary (by decide)
        have := (hleft.append (Expr.reads hl)).silent (y := " : aFrame") (reads_ordinary (by decide))
        rwa [hq] at this
    simpa using (hkey.silent hcomma).append hframe

include hn hi in
theorem runs_spriteHeader (texture : Option Texture) (o : List Bracket) :
    Runs ⟨.code, o⟩ (paragraph (spriteHeader className indent texture)) ⟨.code, .curly :: o⟩
      (texture.toList.flatMap fun t => t.assetKey :: t.frameTexts) := by
  have hparameters : Runs ⟨.code, o⟩ "(aGame, aX, aY, aKey, aFrame) \x7b" ⟨.code, .curly :: o⟩ [] :=
    .opening (by decide)
  have hcall : Runs ⟨.code, .curly :: o⟩ (indent ++ "Phaser.Sprite.call(this, aGame, aX, aY, " ++ keyArgument texture
      ++ ", " ++ frameArgument texture ++ ");") ⟨.code, .curly :: o⟩
      (texture.toList.flatMap fun t => t.assetKey :: t.frameTexts) := by
    have hopen : Runs ⟨.code, .curly :: o⟩ (indent ++ "Phaser.Sprite.call(this, aGame, aX, aY, ")
        ⟨.code, .round :: .curly :: o⟩ [] := (hi _).silent (.opening (by decide))
    have hclose : Runs ⟨.code, .round :: .curly :: o⟩ ");" ⟨.code, .curly :: o⟩ [] := .closing (by decide)
    have := (hopen.append (reads_pictureArguments texture _)).silent hclose
    simpa only [String.append_assoc, List.nil_append] using this
  have hline : Runs ⟨.code, .curly :: o⟩ (paragraph [_]) ⟨.code, .curly :: o⟩ _ :=
    (hcall.silent (.lit (by decide))).paragraph_cons .paragraph_nil
  rw [List.append_nil] at hline
  exact .comment_begin (.comment_line (runs_comment_name hn o)
    (.comment_line (.lit (by decide +kernel)) (.comment_line (.lit (by decide +kernel))
      (.comment_line (.lit (by decide +kernel)) (.comment_line (.lit (by decide +kernel))
        (.comment_line (.lit (by decide +kernel)) (.comment_end (.code_line (runs_function hn hparameters)
          (.code_line (Scan.Reads.empty _) hline)))))))))

end Header

section Class

variable {s : Settings} {indent : String} (hn : IsName s.className) (hi : Reads indent [])
include hn

include hi in
theorem runs_stateHeader (o : List Bracket) :
    Runs ⟨.code, o⟩ (paragraph (stateHeader s indent)) ⟨.code, .curly :: o⟩
      (s.stageBackgroundColor.toList ++ s.preloadSections.flatMap fun name => [name, s.packUrl]) := by
  have hparameters : Runs ⟨.code, o⟩ "() \x7b" ⟨.code, .curly :: o⟩ [] := .opening (by decide)
  have hconstructor : Runs ⟨.code, o⟩ (paragraph ["/**", " * " ++ s.className ++ ".", " */",
      "function " ++ s.className ++ "() \x7b", "", indent ++ "Phaser.State.call(this);", "", "\x7d", ""]) ⟨.code, o⟩ [] :=
    .comment_begin (.comment_line (runs_comment_name hn o)
      (.comment_end (.code_line (runs_function hn hparameters) (.code_line (Scan.Reads.empty _)
        (.code_line ((hi _).silent (.lit (by decide))) (.code_line (Scan.Reads.empty _)
          (.closing_lines (by decide))))))))
  have hprototype : Reads (paragraph (prototypeLines s.className "State")) [] :=
    (reads_prototypeLines hn (by simp)).paragraph
  have hinit : Reads (paragraph (methodUnlessEmpty s.className "init" indent (initBody s))) _ :=
    reads_method hn hi (reads_ordinary (by decide)) (reads_initBody s)
  have hpreload : Reads (paragraph (methodUnlessEmpty s.className "preload" indent (preloadBody s))) _ :=
    reads_method hn hi (reads_ordinary (by decide)) (reads_preloadBody s)
  have hcreate : Runs ⟨.code, o⟩ (paragraph [s.className ++ ".prototype.create = function () \x7b"])
      ⟨.code, .curly :: o⟩ [] := .code_line ((hn.reads o).silent (.opening (by decide))) .paragraph_nil
  have := (((hconstructor.paragraph_append (hprototype o)).paragraph_append (hinit o)).paragraph_append
    (hpreload o)).paragraph_append hcreate
  rwa [List.append_nil] at this

include hi in
/-- What stands before the pre-init region opens one brace. -/
theorem runs_opening (o : List Bracket) :
    Runs ⟨.code, o⟩ (paragraph (opening s indent)) ⟨.code, .curly :: o⟩ s.quotedTexts := by
  unfold opening Settings.quotedTexts
  cases s.kind with
  | group => exact runs_groupHeader hn hi o
  | sprite => exact runs_spriteHeader hn hi s.spriteTexture o
  | state => exact runs_stateHeader hn hi o

/-- What stands after the post-init region closes it. -/
theorem runs_closing (o : List Bracket) : Runs ⟨.code, .curly :: o⟩ (paragraph (closing s)) ⟨.code, o⟩ [] := by
  have hbrace : Runs ⟨.code, .curly :: o⟩ (paragraph ["\x7d", ""]) ⟨.code, o⟩ [] := .closing_lines (by decide)
  unfold closing
  cases s.kind with
  | group => exact hbrace.paragraph_append ((reads_prototypeLines hn (by simp)).paragraph o)
  | sprite => exact hbrace.paragraph_append ((reads_prototypeLines hn (by simp)).paragraph o)
  | state => exact .closing_lines (by decide)

end Class

end Boilerplate

/-! ## The whole script -/

/-- The indent is blank, and the other texts of the configuration have no line ends. -/
structure Config.Tidy (c : Config) : Prop where
  indent : Text.isBlank c.indent = true
  productName : Scan.OneLine c.productName
  placeholderMessage : Scan.OneLine c.placeholderMessage

theorem Config.Tidy.reads_indent {c : Config} (h : c.Tidy) : Reads c.indent [] := by
  have hspecial : Scan.special.all (fun d => !Text.isBlankChar d) = true := by decide
  refine reads_ordinary fun d hd hs => ?_
  have hblank := List.all_eq_true.mp h.indent d hd
  simpa [hblank] using List.all_eq_true.mp hspecial d hs

/-- The texts that a script quotes: those of the class, then those of the live objects from the outside in. -/
def Model.quotedTexts (m : Model) : List String := m.settings.quotedTexts ++ m.live.flatMap fun n => n.object.quotedTexts

theorem reads_placeholder {indent message : String} (hi : Reads indent [])
    (hm : Scan.OneLine message) : Reads (placeholder indent message) [] := by
  intro o
  have hend : Reads "\n" [] := reads_ordinary (by decide)
  have hopen : Runs ⟨.code, o⟩ ("\n" ++ indent ++ "// -- ") ⟨.lineComment, o⟩ [] :=
    (hend.silent hi o).silent (.lit (by decide))
  have hclose : Runs ⟨.lineComment, o⟩ " --\n" ⟨.code, o⟩ [] := .lit (by decide)
  exact ((hopen.silent (Scan.runs_lineComment hm o)).silent hclose).silent (hi o)

/-- The lines that set the fields have no literals. -/
theorem reads_fieldLines {m : Model} (h : m.Tidy) : ReadsLines m.fieldLines [] := by
  have hname : ∀ v ∈ m.publicNames, Reads v [] := by
    intro v hv
    obtain ⟨n, hn, hv⟩ := List.mem_flatMap.mp hv
    have htidy := h.objects n hn
    have hobject := htidy.name.reads
    rcases List.mem_append.mp hv with hv | hv
    · rw [List.mem_singleton.mp (List.mem_ite_nil_right.mp hv).2]
      exact hobject
    · obtain ⟨a, ha, rfl⟩ := List.mem_map.mp hv
      exact (hobject.silent (reads_ordinary (by decide))).silent
        (htidy.animations a (List.mem_filter.mp ha).1).reads
  have hthis : Reads "this." [] := reads_ordinary (by decide)
  rw [fieldLines_eq]
  refine .of_silent (List.forall_mem_map.mpr fun v hv => ?_)
  exact (((hthis.silent (Scan.reads_fieldName (hname v hv))).silent (reads_ordinary (by decide))).silent
    (hname v hv)).silent (reads_ordinary (by decide))

theorem reads_fieldBlock {indent : String} (hi : Reads indent []) {lines : List String} (h : ReadsLines lines []) :
    Reads (fieldBlock indent lines) [] := by
  unfold fieldBlock
  split
  · exact Scan.Reads.empty
  · have htitle : Reads "// public fields\n\n" [] := fun o => .lit (by decide)
    exact ((hi.silent htitle).silent (h.writeBlock hi)).silent (reads_ordinary (by decide))

/-- A script made from scratch is scanned to its end: it ends in code, with every bracket closed, and its literals are
    the texts that the scene is quoted by. -/
theorem script_is_well_formed (config : Config) (hc : config.Tidy) (m : Model) (hm : m.Tidy) :
    Scan.scan ⟨.code, []⟩ (generate config m none).toList = some (⟨.code, []⟩, m.quotedTexts) := by
  have hi := hc.reads_indent
  have hbody : Reads config.bodyPlaceholder [] := reads_placeholder hi hc.placeholderMessage
  have htrailing : Reads config.trailingPlaceholder [] := reads_placeholder Scan.Reads.empty hc.placeholderMessage
  have htitle : Runs ⟨.code, []⟩ ("// Generated by " ++ config.productName ++ "\n\n") ⟨.code, []⟩ [] := by
    have hopen : Runs ⟨.code, []⟩ "// Generated by " ⟨.lineComment, []⟩ [] := .lit (by decide)
    exact (hopen.silent (Scan.runs_lineComment hc.productName [])).silent (.lit (by decide))
  have hmarker : ∀ mark ∈ Marker.all, Reads mark [] := by
    have hscan : ∀ mark ∈ Marker.all, Scan.scan ⟨.code, []⟩ mark.toList = some (⟨.code, []⟩, []) := by decide +kernel
    exact fun mark hmark o => Scan.scan_outer (hscan mark hmark) o
  simp only [Marker.all, List.forall_mem_cons, List.not_mem_nil, false_imp_iff, implies_true, and_true] at hmarker
  obtain ⟨hpreBegin, hpreEnd, hpostBegin, hpostEnd, hgenerated⟩ := hmarker
  have hend : Reads "\n" [] := reads_ordinary (by decide)
  have hheader : Runs ⟨.code, []⟩ (Boilerplate.header m.settings config.indent config.bodyPlaceholder)
      ⟨.code, [.curly]⟩ m.settings.quotedTexts :=
    (((((Boilerplate.runs_opening hm.className hi []).silent (hi _)).silent (hpreBegin _)).silent (hbody _)).silent
      (hpreEnd _)).silent (reads_ordinary (by decide) _)
  have hobjects : Reads (writeBlock config.indent m.objectLines) (m.live.flatMap fun n => n.object.quotedTexts) :=
    (quotes_objectStatements hm).writeBlock hi
  have hfields := reads_fieldBlock hi (reads_fieldLines hm)
  have hfooter : Runs ⟨.code, [.curly]⟩
      (Boilerplate.footer m.settings config.indent config.bodyPlaceholder config.trailingPlaceholder) ⟨.code, []⟩ [] :=
    ((((((hi _).silent (hpostBegin _)).silent (hbody _)).silent (hpostEnd.silent hend _)).silent
      (Boilerplate.runs_closing hm.className [])).silent (hgenerated _)).silent (htrailing _)
  exact ((((htitle.append hheader).append (hobjects _)).silent (hend _)).silent (hfields _)).silent hfooter

/-- A picture and a text that try to leave their literals, and an animation spelled with a code. -/
def trickyTexts : Model where
  settings := {
    className := "Cave", kind := .state, stageBackgroundColor := some "'; /*", preloadSections := ["');\n\x7d"] }
  world := [
    .sprite .atlas {
      info := { name := "bat", isPublic := true }
      texture := .atlasFrame "it's" "\\"
      sprite := { animations := [{ name := "fl\\u0079", frames := [.name "// ]"], isPublic := true }] } },
    .bitmapText { info := { name := "sign" }, font := "*/", text := "\"a\\\r'", align := "right" }]

theorem trickyTexts_is_well_formed :
    ({} : Config).Tidy ∧ trickyTexts.Tidy ∧
      Scan.scan ⟨.code, []⟩ (generate {} trickyTexts none).toList = some (⟨.code, []⟩,
        ["'; /*", "');\n\x7d", "assets/pack.json", "it's", "\\", "fl\\u0079", "// ]", "*/", "\"a\\\r'", "right"]) := by
  have hc : ({} : Config).Tidy := ⟨by decide, by decide, by decide⟩
  have hm : trickyTexts.Tidy := by
    refine ⟨Scan.isName_of_ordinary (by decide) (by decide), ?_⟩
    have hlive : trickyTexts.live.map (·.object) = trickyTexts.world := rfl
    have htidy : ∀ o ∈ trickyTexts.world, o.Tidy := by
      refine List.forall_mem_cons.mpr ⟨⟨?_, ?_, rfl⟩, List.forall_mem_singleton.mpr ⟨?_, ?_, rfl⟩⟩
      · exact Scan.isName_of_ordinary (by decide) (by decide)
      · have hcode : Scan.Spelled ("\\u0079".toList ++ []) := .code (by decide) .nil
        exact List.forall_mem_singleton.mpr
          (Scan.isName_of_spelled (.ordinary (by decide) (.ordinary (by decide) hcode)))
      · exact Scan.isName_of_ordinary (by decide) (by decide)
      · exact fun a ha => nomatch ha
    exact fun n hn => htidy _ (hlive ▸ List.mem_map_of_mem hn)
  refine ⟨hc, hm, (script_is_well_formed {} hc trickyTexts hm).trans ?_⟩
  decide +kernel

end SceneScript
