import CborPath.Text.Class
import CborPath.Text.Unprintable
import CborPath.Tree.Basic

/-!
# Descriptions of nodes

A short text that identifies a node for a reader: its place, kind and name.  The name is quoted: it
stands between double quotes, with a backslash in front of quotes and backslashes, letters for the
common control characters, and the hexadecimal code point in braces for every other character without
a glyph of its own.
-/

namespace CborPath

namespace Text

/-- Whether a character has no glyph of its own. -/
def isUnprintable (c : Char) : Bool :=
  if c.toNat < 128 then c.toNat < 32 || c.toNat = 127 else inRanges c.toNat unprintableRanges

/-- The hexadecimal escape of a character. -/
def codeEscape (c : Char) : List Char :=
  '\\' :: 'u' :: '\x7b' :: (Nat.toDigits 16 c.toNat ++ ['\x7d'])

/-- One character of quoted text. -/
def quotedChar (c : Char) : List Char :=
  if c = '\x00' then ['\\', '0']
  else if c = '\t' then ['\\', 't']
  else if c = '\r' then ['\\', 'r']
  else if c = '\n' then ['\\', 'n']
  else if c = '\\' then ['\\', '\\']
  else if c = '"' then ['\\', '"']
  else if isUnprintable c then codeEscape c
  else [c]

/-- A text between double quotes. -/
def quoted (text : String) : String :=
  String.ofList ('"' :: (text.toList.flatMap quotedChar ++ ['"']))

end Text

namespace NodeKind

/-- The name of a kind of node in descriptions. -/
def title : NodeKind → String
  | document => "Document"
  | element => "Element"
  | text => "Text"

end NodeKind

/-- The description of a node. -/
def Tree.describe (t : Tree) (id : NodeId) : String :=
  "Node \x7b id: " ++ toString id ++ ", kind: " ++ (t.node id).kind.title ++ ", name: " ++
    Text.quoted (t.node id).name ++ " \x7d"

end CborPath
