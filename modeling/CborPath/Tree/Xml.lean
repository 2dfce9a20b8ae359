import CborPath.Tree.Basic

/-!
# Markup

The rendering of nodes as XML: an element as a pair of tags around its children, a text node as its
name, the document inside one root element after an XML declaration.  Ampersands and angle brackets
of names are escaped; names are otherwise written as they are, so the rendering need not be
well-formed.
-/

namespace CborPath

namespace Tree

/-- One character of a name in markup. -/
def escapedChar (c : Char) : List Char :=
  if c = '&' then ['&', 'a', 'm', 'p', ';']
  else if c = '<' then ['&', 'l', 't', ';']
  else if c = '>' then ['&', 'g', 't', ';']
  else [c]

/-- A name in markup. -/
def escaped (name : String) : String :=
  String.ofList (name.toList.flatMap escapedChar)

/-- The opening tag of an element. -/
def openingTag (name : String) : String :=
  "<" ++ escaped name ++ ">"

/-- The closing tag of an element. -/
def closingTag (name : String) : String :=
  "</" ++ escaped name ++ ">"

/-- The markup of a node, with what is below it down to the given depth. -/
def markupWithin (t : Tree) : Nat → NodeId → String
  | 0, _ => ""
  | bound + 1, id =>
      let content := String.join ((t.children id).map (markupWithin t bound))
      match (t.node id).kind with
      | .text => escaped (t.node id).name
      | .element => openingTag (t.node id).name ++ content ++ closingTag (t.node id).name
      | .document => content

/-- The XML declaration. -/
def xmlDeclaration : String := "<?xml version=\"1.0\"?>"

/-- The markup of a node.  That of the document is complete. -/
def outputXml (t : Tree) (id : NodeId) : String :=
  if (t.node id).kind = .document then
    xmlDeclaration ++ "<root>" ++ t.markupWithin t.size id ++ "</root>"
  else t.markupWithin t.size id

end Tree

end CborPath
