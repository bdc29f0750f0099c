import WidgetSync.Element.Basic

/-! The markup of elements. -/
namespace WidgetSync

namespace Face

/-- Tags that have neither content nor a closing tag. -/
def voidTags : List String := ["input", "br", "img"]

def isVoid (f : Face) : Bool := voidTags.contains f.tag

def attributeText (name value : String) : String := " " ++ name ++ "=\"" ++ value ++ "\""

/-- The declarations of the style attribute; hiding comes last. -/
def declarations (f : Face) : List String :=
  f.styles.entries.map (fun p => p.1 ++ ": " ++ p.2) ++ if f.isHidden then ["display: none"] else []

/-- The opening tag: classes, then attributes by name, then styles. -/
def opening (f : Face) : String :=
  "<" ++ f.tag
    ++ (if f.classes.isEmpty then "" else attributeText "class" (" ".intercalate f.classes))
    ++ String.join (f.attributes.entries.map fun p => attributeText p.1 p.2)
    ++ (if f.declarations.isEmpty then "" else attributeText "style" ("; ".intercalate f.declarations))
    ++ ">"

def closing (f : Face) : String := "</" ++ f.tag ++ ">"

end Face

namespace Element

mutual

def html : Element → String
  | .node face children =>
    if face.isVoid then face.opening
    else face.opening ++ face.html ++ allHtml children ++ face.closing
termination_by structural e => e

def allHtml : List Element → String
  | [] => ""
  | e :: rest => html e ++ allHtml rest
termination_by structural es => es

end

/-- The markup with more of it after the children. -/
def htmlWith (e : Element) (extra : String) : String :=
  if e.face.isVoid then e.face.opening
  else e.face.opening ++ e.face.html ++ allHtml e.children ++ extra ++ e.face.closing

end Element

end WidgetSync
