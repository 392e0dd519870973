/-
  SceneScript.Script.Regions — the parts of a script that people edit.

  A script keeps two regions inside its code, each between a pair of markers, and one
  at its end, after a last marker. Before a script is written anew its regions are
  looked up in the earlier text (`RegionTexts.find`): the first begin marker, and the
  first end marker after it; the trailing region is looked for only after the
  post-init region, if that was found. Each region is found or lost on its own. A lost
  one gets its placeholder back, and that is reported (`RegionTexts.lost`).
-/
import SceneScript.Text.Search

namespace SceneScript

/-! ## Markers -/

namespace Marker

def preInitBegin : String := "/* --- pre-init-begin --- */"

def preInitEnd : String := "/* --- pre-init-end --- */"

def postInitBegin : String := "/* --- post-init-begin --- */"

def postInitEnd : String := "/* --- post-init-end --- */"

def endGenerated : String := "/* --- end generated code --- */"

end Marker

/-- The regions that people edit. -/
inductive Region where
  | preInit
  | postInit
  | trailing
  deriving DecidableEq

/-- The text of each region of a script. -/
structure Regions where
  preInit : String
  postInit : String
  trailing : String
  deriving DecidableEq

/-- What a region holds before anyone has edited it. -/
def placeholder (indent message : String) : String := "\n" ++ indent ++ "// -- " ++ message ++ " --\n" ++ indent

/-! ## Looking regions up -/

/-- The text between the first `start` and the first `stop` after it, and the text after that. -/
def enclosed? (start stop text : String) : Option (String × String) :=
  match Text.cut? start text with
  | none => none
  | some (_, rest) => Text.cut? stop rest

/-- The regions found in a text. -/
structure RegionTexts where
  preInit : Option String
  postInit : Option String
  trailing : Option String
  deriving DecidableEq

namespace RegionTexts

def find (text : String) : RegionTexts :=
  let post := enclosed? Marker.postInitBegin Marker.postInitEnd text
  let rest := match post with
    | some (_, rest) => rest
    | none => text
  { preInit := (enclosed? Marker.preInitBegin Marker.preInitEnd text).map (·.1)
    postInit := post.map (·.1)
    trailing := (Text.cut? Marker.endGenerated rest).map (·.2) }

/-- The regions that were not found. -/
def lost (t : RegionTexts) : List Region :=
  (if t.preInit.isNone then [.preInit] else [])
    ++ (if t.postInit.isNone then [.postInit] else [])
    ++ (if t.trailing.isNone then [.trailing] else [])

/-- The regions of the next script: what was found, and placeholders for the rest. -/
def restore (t : RegionTexts) (bodyPlaceholder trailingPlaceholder : String) : Regions :=
  { preInit := t.preInit.getD bodyPlaceholder
    postInit := t.postInit.getD bodyPlaceholder
    trailing := t.trailing.getD trailingPlaceholder }

end RegionTexts

/-- The regions for a script that may have an earlier text. -/
def Regions.recover (previous : Option String) (bodyPlaceholder trailingPlaceholder : String) : Regions :=
  match previous with
  | none => ⟨bodyPlaceholder, bodyPlaceholder, trailingPlaceholder⟩
  | some text => (RegionTexts.find text).restore bodyPlaceholder trailingPlaceholder

/-- The regions lost from an earlier text. Without one there is nothing to lose. -/
def Regions.lost (previous : Option String) : List Region :=
  match previous with
  | none => []
  | some text => (RegionTexts.find text).lost

end SceneScript
