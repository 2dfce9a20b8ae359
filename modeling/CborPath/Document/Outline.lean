import CborPath.Document.Entries

/-!
# Outlines

The outline of a document is the ordered forest that its tree of nodes has below the root, without
any regard to where the nodes are kept: a text leaf for each scalar, and named elements with what
they hold.  It is defined by recursion on the value.
-/

namespace CborPath

/-- A part of a document: a text leaf with its scalar, or an element with what it holds. -/
inductive Outline
  | text (name : String) (value : Scalar)
  | element (name : String) (parts : List Outline)
  deriving Repr

/-- Whether a mapping key names an element: it is a scalar, and not null. -/
def Value.namesElement : Value → Bool
  | .sequence _ => false
  | .mapping _ => false
  | .scalar .null => false
  | .scalar _ => true

/-- The text that a scalar is shown as.  Null is shown as nothing, and bytes are read as UTF-8. -/
def Scalar.shown : Scalar → String
  | null => ""
  | boolean b => if b then "true" else "false"
  | integer n => integerText n
  | float x => x.text
  | text s => s
  | bytes b => Utf8.decodeLossy b

/-- The name of the element for a key, or the empty text if the key names no element.  That of a number
starts with a letter, so that it can be written in a path. -/
def Value.elementNameD : Value → String
  | .scalar (.integer n) => "n" ++ integerText n
  | .scalar (.float x) => "n" ++ x.text
  | .scalar s => s.shown
  | _ => ""

/-- The type that is reported of a key that names no element. -/
def Value.reportedType : Value → String
  | .sequence _ => "sequence"
  | .mapping _ => "mapping"
  | .scalar _ => "null"

/-- The first of some keys that names no element. -/
def firstUnsupported (keys : List Value) : Option Value :=
  keys.find? fun key => !key.namesElement

/-- Entries with the names of their keys, in the order of the names. -/
def orderedEntries (entries : List (Value × Value)) : List (String × Value) :=
  sortEntries (entries.map fun entry => (entry.1.elementNameD, entry.2))

theorem entriesWeight_orderedEntries (entries : List (Value × Value)) :
    entriesWeight (orderedEntries entries) < sizeOf entries := by
  rw [orderedEntries, entriesWeight_sortEntries]
  induction entries with
  | nil => simp [entriesWeight]
  | cons entry rest ih =>
      obtain ⟨key, value⟩ := entry
      simp only [entriesWeight, List.map_cons, List.cons.sizeOf_spec, Prod.mk.sizeOf_spec] at *
      omega

mutual

/-- The outline of a value.  The name is that of the mapping entry that holds it, if any. -/
def Value.outlineUnder (name : String) (value : Value) : Except UnsupportedKey (List Outline) :=
  match value with
  | .sequence items => outlineItems (if name = "" then "element" else name) items
  | .mapping entries =>
      match firstUnsupported (entries.map Prod.fst) with
      | some key => .error ⟨key.reportedType⟩
      | none => outlineEntries (orderedEntries entries)
  | .scalar s => .ok [.text s.shown s]
termination_by sizeOf value
decreasing_by
  · simp
  · have := entriesWeight_orderedEntries entries
    simp only [Value.mapping.sizeOf_spec]
    omega

/-- An element for each item of a sequence. -/
def outlineItems (name : String) (items : List Value) : Except UnsupportedKey (List Outline) :=
  match items with
  | [] => .ok []
  | item :: rest => do
      let parts ← item.outlineUnder ""
      let others ← outlineItems name rest
      return .element name parts :: others
termination_by sizeOf items

/-- An element for each entry of a mapping, but the items of a sequence directly. -/
def outlineEntries (entries : List (String × Value)) : Except UnsupportedKey (List Outline) :=
  match entries with
  | [] => .ok []
  | (name, .sequence items) :: rest => do
      let parts ← (Value.sequence items).outlineUnder name
      return parts ++ (← outlineEntries rest)
  | (name, value) :: rest => do
      let parts ← value.outlineUnder ""
      return .element name parts :: (← outlineEntries rest)
termination_by entriesWeight entries
decreasing_by
  all_goals simp only [entriesWeight]
  all_goals omega

end

/-- The outline of a document. -/
def Value.outline (value : Value) : Except UnsupportedKey (List Outline) :=
  value.outlineUnder ""

end CborPath
