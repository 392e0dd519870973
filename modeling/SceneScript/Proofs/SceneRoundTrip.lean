/-
  SceneScript.Proofs.SceneRoundTrip — every part of a scene is read back as it was written.

  One lemma for each type that stands in a scene, from the inside out. A record whose
  fields are all written needs no more than that its fields are carried; where a field is
  left out, the record must be right without it, by cases on what is left out.
  Objects nest without bound, while their codec is built level by level: the level that
  reads an object may be any that is not below its depth (`SceneObject.codecTo_carries`).
  The text of a scene is as deep as its deepest object at least, so a scene whose text
  keeps to the nesting limit comes back from it (`Model.ofText_toText`).
-/
import SceneScript.Scene.Model
import SceneScript.Proofs.RecordLaws

namespace SceneScript

open Codec

/-! ## Choices of the engine -/

theorem SceneKind.carries (k : SceneKind) : codec.Carries k := names_carries (by cases k <;> rfl)

theorem PhysicsSystem.carries (s : PhysicsSystem) : codec.Carries s := names_carries (by cases s <;> rfl)

theorem SortDirection.carries (d : SortDirection) : codec.Carries d := names_carries (by cases d <;> rfl)

/-! ## Textures -/

theorem Texture.carries (t : Texture) : codec.Carries t := by
  cases t with
  | image key =>
    have hrecord : imageRecord.codec.Carries key :=
      Record.carries (by decide) (.required (text_carries _) <| .done rfl)
    exact Tagged.carries_record rfl rfl rfl (by decide) hrecord
  | spritesheetFrame key index =>
    have hrecord : spritesheetFrameRecord.codec.Carries (key, index) :=
      Record.carries (by decide) (.required (text_carries _) <| .required (word_carries _) <| .done rfl)
    exact Tagged.carries_record rfl rfl rfl (by decide) hrecord
  | atlasFrame key frame =>
    have hrecord : atlasFrameRecord.codec.Carries (key, frame) :=
      Record.carries (by decide) (.required (text_carries _) <| .required (text_carries _) <| .done rfl)
    exact Tagged.carries_record rfl rfl rfl (by decide) hrecord

theorem Frame.carries (f : Frame) : codec.Carries f := by
  cases f with
  | index n =>
    have hword := word_carries n
    refine ⟨hword.sound, fun p hf => ?_⟩
    have hn : n.toNat < 0x100000000 := n.toNat_lt
    have hrange : (0 : Int) ≤ n.toNat ∧ (n.toNat : Int) < 0x100000000 := ⟨by omega, by omega⟩
    have hhold : p.hold (.number (.integer n.toNat)) = .ok () := Place.hold_of_fits hword.sound hf
    simp only [codec, word, hhold, if_pos hrange, Int.toNat_natCast, UInt32.ofNat_toNat]
    rfl
  | name s =>
    refine ⟨trivial, fun p hf => ?_⟩
    have hhold : p.hold (codec.encode (.name s)) = .ok () :=
      Place.hold_of_fits (show (Json.text s).Sound from trivial) hf
    show (p.hold _ >>= fun _ => _) = _
    rw [hhold]
    rfl

/-- A frame is never `null`. -/
theorem Frame.encode_ne_null (f : Frame) : codec.encode f ≠ .null := by
  cases f <;> exact nofun

/-! ## Bodies -/

theorem ArcadeBody.carries (b : ArcadeBody) : codec.Carries b := by
  refine Record.carries (by decide) ?_
  repeat first
    | refine Rebuilds.written (double_carries _) ?_
    | refine Rebuilds.written (flag_carries _) ?_
  exact .done rfl

theorem Body.carries (b : Body) : codec.Carries b := by
  cases b with
  | absent => exact Tagged.carries rfl (by simp [tagged]) (by simp [tagged]) rfl
  | circle radius arcade =>
    have hrecord : circleRecord.codec.Carries (radius, arcade) :=
      Record.carries (by decide) (.required (double_carries _) <| .written (ArcadeBody.carries _) <| .done rfl)
    exact Tagged.carries_record rfl rfl rfl (by decide) hrecord
  | rect width height arcade =>
    have hrecord : rectRecord.codec.Carries (width, height, arcade) :=
      Record.carries (by decide)
        (.written (double_carries _) <| .written (double_carries _) <| .written (ArcadeBody.carries _) <| .done rfl)
    exact Tagged.carries_record rfl rfl rfl (by decide) hrecord

/-! ## What objects have in common -/

theorem Transform.carries (t : Transform) : codec.Carries t :=
  Record.carries (by decide)
    (.written (double_carries _) <| .written (double_carries _) <| .written (double_carries _) <|
      .written (double_carries _) <| .written (double_carries _) <| .written (double_carries _) <|
      .written (double_carries _) <| .done rfl)

theorem ObjectInfo.carries (i : ObjectInfo) : codec.Carries i := by
  refine Record.carries (by decide)
    (.required (text_carries _) <| .omitted (fun _ => flag_carries _) <| .omitted (fun _ => flag_carries _) <|
      .written (Transform.carries _) <| .done ?_)
  obtain ⟨name, enabled, isPublic, transform⟩ := i
  cases enabled <;> cases isPublic <;> rfl

theorem Animation.carries (a : Animation) : codec.Carries a := by
  refine Record.carries (by decide)
    (.required (text_carries _) <| .required (list_carries fun f _ => Frame.carries f) <| .written (word_carries _) <|
      .written (flag_carries _) <| .omitted (fun _ => flag_carries _) <| .omitted (fun _ => flag_carries _) <| .done ?_)
  obtain ⟨name, frames, frameRate, looping, isPublic, killOnComplete⟩ := a
  cases isPublic <;> cases killOnComplete <;> rfl

/-- A text in an optional field. -/
theorem text_maybe (s : String) : text.Carries s ∧ text.encode s ≠ .null := ⟨text_carries s, nofun⟩

theorem SpriteInfo.carries (s : SpriteInfo) : codec.Carries s := by
  refine Record.carries (by decide)
    (.written (double_carries _) <| .written (double_carries _) <| .maybe (fun t _ => text_maybe t) <|
      .omitted (fun _ => list_carries fun a _ => Animation.carries a) <| .written (Body.carries _) <|
      .maybe (fun t _ => text_maybe t) <| .done ?_)
  obtain ⟨anchorX, anchorY, tint, animations, body, data⟩ := s
  cases tint <;> cases animations <;> cases data <;> rfl

/-! ## Leaves -/

theorem Sprite.carries (o : Sprite) : record.codec.Carries o :=
  Record.carries (by decide)
    (.required (ObjectInfo.carries _) <| .required (Texture.carries _) <| .written (SpriteInfo.carries _) <| .done rfl)

theorem Button.carries (o : Button) : record.codec.Carries o := by
  have hframe : ∀ f : Frame, Frame.codec.Carries f ∧ Frame.codec.encode f ≠ .null := fun f =>
    ⟨f.carries, f.encode_ne_null⟩
  refine Record.carries (by decide)
    (.required (ObjectInfo.carries _) <| .required (Texture.carries _) <| .maybe (fun t _ => text_maybe t) <|
      .maybe (fun t _ => text_maybe t) <| .maybe (fun f _ => hframe f) <| .maybe (fun f _ => hframe f) <|
      .maybe (fun f _ => hframe f) <| .written (SpriteInfo.carries _) <| .done ?_)
  obtain ⟨info, texture, callback, callbackContext, overFrame, downFrame, upFrame, sprite⟩ := o
  cases callback <;> cases callbackContext <;> cases overFrame <;> cases downFrame <;> cases upFrame <;> rfl

theorem TileSprite.carries (o : TileSprite) : record.codec.Carries o :=
  Record.carries (by decide)
    (.required (ObjectInfo.carries _) <| .required (Texture.carries _) <| .required (double_carries _) <|
      .required (double_carries _) <| .written (double_carries _) <| .written (double_carries _) <|
      .written (double_carries _) <| .written (double_carries _) <| .written (SpriteInfo.carries _) <| .done rfl)

theorem BitmapText.carries (o : BitmapText) : record.codec.Carries o :=
  Record.carries (by decide)
    (.required (ObjectInfo.carries _) <| .required (text_carries _) <| .written (text_carries _) <|
      .written (double_carries _) <| .written (text_carries _) <| .written (double_carries _) <|
      .written (SpriteInfo.carries _) <| .done rfl)

/-! ## Objects -/

theorem GroupPhysics.carries (g : GroupPhysics) : record.codec.Carries g :=
  Record.carries (by decide)
    (.written (flag_carries _) <| .written (PhysicsSystem.carries _) <| .written (SortDirection.carries _) <| .done rfl)

/-- A group is carried if its children are. -/
theorem Group.carries {children : Codec SceneObject} {g : Group} (h : ∀ o ∈ g.children, children.Carries o) :
    (recordWith children).codec.Carries g :=
  Record.carries (by simp [recordWith, Field.required, Field.written, Field.omitted])
    (.required (ObjectInfo.carries _) <| .written (list_carries h) <| .written (GroupPhysics.carries _) <| .done rfl)

/-- The tag of an object is not one of its fields. -/
theorem Group.tag_not_field (children : Codec SceneObject) :
    Tagged.tagName ∉ (recordWith children).fields.map (·.name) := by
  simp [recordWith, Field.required, Field.written, Field.omitted, Tagged.tagName]

namespace SceneObject

theorem depthOfAll_le_iff {os : List SceneObject} {n : Nat} : depthOfAll os ≤ n ↔ ∀ o ∈ os, o.depth ≤ n := by
  induction os with
  | nil => simp [depthOfAll]
  | cons o os ih => rw [depthOfAll, List.forall_mem_cons, ← ih, Nat.max_le]

theorem depth_pos (o : SceneObject) : 1 ≤ o.depth := by
  cases o with
  | group => exact Nat.le_add_left 1 _
  | _ => exact Nat.le_refl 1

/-- The children of a group are a level below it. -/
theorem depth_of_child {info : ObjectInfo} {children : List SceneObject} {physics : GroupPhysics} {n : Nat}
    (h : (group info children physics).depth ≤ n + 1) : ∀ o ∈ children, o.depth ≤ n :=
  depthOfAll_le_iff.mp (Nat.le_of_succ_le_succ h)

/-- A level of the codec carries the objects that are no deeper. -/
theorem codecTo_carries {n : Nat} {o : SceneObject} (h : o.depth ≤ n) : (codecTo n).Carries o := by
  induction n generalizing o with
  | zero => exact absurd (Nat.le_trans o.depth_pos h) (by decide)
  | succ n ih =>
    cases o with
    | group info children physics =>
      have hgroup : (Group.recordWith (codecTo n)).codec.Carries ⟨info, children, physics⟩ :=
        Group.carries fun o ho => ih (depth_of_child h o ho)
      exact Tagged.carries_record rfl rfl rfl (Group.tag_not_field _) hgroup
    | sprite kind o => cases kind <;> exact Tagged.carries_record rfl rfl rfl (by decide) (Sprite.carries o)
    | button o => exact Tagged.carries_record rfl rfl rfl (by decide) (Button.carries o)
    | tileSprite o => exact Tagged.carries_record rfl rfl rfl (by decide) (TileSprite.carries o)
    | bitmapText o => exact Tagged.carries_record rfl rfl rfl (by decide) (BitmapText.carries o)

/-- What is written for a group. -/
theorem encode_group (n : Nat) (info : ObjectInfo) (children : List SceneObject) (physics : GroupPhysics) :
    (codecTo (n + 1)).encode (.group info children physics) = .record [
      (Tagged.tagName, .text "group"),
      ("info", ObjectInfo.codec.encode info),
      ("children", .list (children.map (codecTo n).encode)),
      ("physics", GroupPhysics.record.codec.encode physics)] :=
  rfl

/-- It does not matter which of these levels writes the object. -/
theorem encode_codecTo {n k : Nat} {o : SceneObject} (hn : o.depth ≤ n) (hk : o.depth ≤ k) :
    (codecTo n).encode o = (codecTo k).encode o := by
  induction n generalizing k o with
  | zero => exact absurd (Nat.le_trans o.depth_pos hn) (by decide)
  | succ n ih =>
    obtain ⟨k, rfl⟩ := Nat.exists_eq_add_of_le' (Nat.le_trans o.depth_pos hk)
    cases o with
    | group info children physics =>
      have hchildren : children.map (codecTo n).encode = children.map (codecTo k).encode :=
        List.map_congr_left fun o ho => ih (depth_of_child hn o ho) (depth_of_child hk o ho)
      rw [encode_group, encode_group, hchildren]
    | sprite kind o => cases kind <;> rfl
    | button o => rfl
    | tileSprite o => rfl
    | bitmapText o => rfl

/-- Every object opens a container of its own. -/
theorem depth_le_encode {n : Nat} {o : SceneObject} (h : o.depth ≤ n) : o.depth ≤ ((codecTo n).encode o).depth := by
  induction n generalizing o with
  | zero => exact absurd (Nat.le_trans o.depth_pos h) (by decide)
  | succ n ih =>
    cases o with
    | group info children physics =>
      have hchildren : depthOfAll children ≤ Json.itemsDepth (children.map (codecTo n).encode) :=
        depthOfAll_le_iff.mpr fun o ho =>
          Nat.le_trans (ih (depth_of_child h o ho)) (Json.depth_le_itemsDepth (List.mem_map_of_mem ho))
      have hlist : Json.itemsDepth (children.map (codecTo n).encode)
          ≤ Json.depth (.list (children.map (codecTo n).encode)) := Nat.le_succ _
      rw [encode_group]
      refine Nat.succ_le_succ (Nat.le_trans (Nat.le_trans hchildren hlist) ?_)
      exact Json.depth_le_membersDepth (by simp : ("children", _) ∈ _)
    | _ => exact Nat.le_add_left 1 _

/-- Objects are carried down to the depth that a text can hold. -/
theorem carries {o : SceneObject} (h : o.depth ≤ Json.nestingLimit) : codec.Carries o := by
  have hlevels : codec.encode o = levels.encode o := encode_codecTo (Nat.le_refl _) h
  have hcarries : levels.Carries o := codecTo_carries h
  exact ⟨hlevels ▸ hcarries.sound, fun p hf => hlevels ▸ hcarries.decode p (hlevels ▸ hf)⟩

end SceneObject

/-! ## Scenes -/

theorem Settings.carries (s : Settings) : codec.Carries s := by
  refine Record.carries (by decide)
    (.required (text_carries _) <| .written (SceneKind.carries _) <|
      .maybe (fun t _ => ⟨Texture.carries t, by cases t <;> exact nofun⟩) <| .maybe (fun t _ => text_maybe t) <|
      .maybe (fun p _ => ⟨PhysicsSystem.carries p, nofun⟩) <|
      .omitted (fun _ => list_carries fun t _ => text_carries t) <| .written (text_carries _) <| .done ?_)
  obtain ⟨className, kind, spriteTexture, stageBackgroundColor, physicsSystem, preloadSections, packUrl⟩ := s
  cases spriteTexture <;> cases stageBackgroundColor <;> cases physicsSystem <;> cases preloadSections <;> rfl

/-- A scene is carried if its objects are. -/
theorem Model.carries {m : Model} (h : ∀ o ∈ m.world, o.depth ≤ Json.nestingLimit) : codec.Carries m :=
  Record.carries (by decide)
    (.required (Settings.carries _) <| .written (list_carries fun o ho => SceneObject.carries (h o ho)) <| .done rfl)

/-- The text of a scene is at least as deep as each of its objects. -/
theorem Model.depth_of_object {m : Model} {o : SceneObject} (ho : o ∈ m.world) :
    o.depth ≤ (codec.encode m).depth := by
  have hworld : codec.encode m = .record [
      ("settings", Settings.codec.encode m.settings), ("world", .list (m.world.map SceneObject.codec.encode))] := rfl
  have hitems : o.depth ≤ Json.itemsDepth (m.world.map SceneObject.codec.encode) :=
    Nat.le_trans (SceneObject.depth_le_encode (Nat.le_refl _)) (Json.depth_le_itemsDepth (List.mem_map_of_mem ho))
  have hlist : o.depth ≤ Json.depth (.list (m.world.map SceneObject.codec.encode)) := Nat.le_succ_of_le hitems
  rw [hworld]
  exact Nat.le_succ_of_le (Nat.le_trans hlist (Json.depth_le_membersDepth (by simp : ("world", _) ∈ _)))

/-- A scene comes back from its text, signs of zeros included, unless the text nests more than the limit. That a printed
    double reads as itself is proved of the reader here, which rounds exactly (`Json.realNumber`); of a JSON package that
    rounds 16 or 17 digits as best it can, it is an assumption. -/
theorem Model.ofText_toText {m : Model} (h : (codec.encode m).depth ≤ Json.nestingLimit) :
    codec.ofText (codec.toText m) = .ok m := by
  have hworld : ∀ o ∈ m.world, o.depth ≤ Json.nestingLimit := by
    intro o ho
    exact Nat.le_trans (depth_of_object ho) h
  exact (carries hworld).reads_back h

/-- A group in a group, a zero with a sign, a default left out, a quote and a line end in a text. -/
def lanternHall : Model where
  settings := { className := "Hall", kind := .state, physicsSystem := some .arcade, preloadSections := ["hall"] }
  world := [
    .group { name := "lights", transform := { x := -0 } } [
      .group (.named "row") [
        .sprite .spritesheet {
          info := { name := "lantern", isPublic := true }
          texture := .spritesheetFrame "lamps" 2
          sprite := {
            tint := some "0xffaa00"
            animations := [{ name := "flicker", frames := [.index 2, .name "dim"], looping := true }]
            body := .circle 8 {} } }] {}] { physicsGroup := true },
    .bitmapText { info := { name := "sign", enabled := false }, font := "gem", text := "\"Höhle\"\n" }]

theorem lanternHall_reads_back :
    (Model.codec.encode lanternHall).depth ≤ Json.nestingLimit ∧
      Model.codec.ofText (Model.codec.toText lanternHall) = .ok lanternHall := by
  have hdepth : (Model.codec.encode lanternHall).depth ≤ Json.nestingLimit := by decide +kernel
  exact ⟨hdepth, Model.ofText_toText hdepth⟩

end SceneScript
