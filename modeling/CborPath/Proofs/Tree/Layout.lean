import CborPath.Document.Outline
import CborPath.Tree.Link

/-!
# Layouts

The layout of a forest in the array of a tree: each part takes a run of places, its own node first
and then what it holds, and the links of every node follow from where the runs begin and end.  A
forest and the place where it begins therefore fix the nodes completely, and a layout is put together
from the layouts of its pieces.
-/

namespace CborPath

namespace Outline

/-- What a part holds.  A text holds nothing. -/
def parts : Outline → List Outline
  | text _ _ => []
  | element _ parts => parts

/-- The kind of a part's own node. -/
def kind : Outline → NodeKind
  | text _ _ => .text
  | element _ _ => .element

/-- The name of a part's own node. -/
def name : Outline → String
  | text name _ => name
  | element name _ => name

/-- The scalar of a part's own node, if it is a text. -/
def value : Outline → Option Scalar
  | text _ value => some value
  | element _ _ => none

end Outline

mutual

/-- The number of nodes of a part. -/
def Outline.size : Outline → Nat
  | .text _ _ => 1
  | .element _ parts => forestSize parts + 1

/-- The number of nodes of a forest. -/
def forestSize : List Outline → Nat
  | [] => 0
  | part :: rest => part.size + forestSize rest

end

theorem Outline.size_eq (part : Outline) :
    part.size = forestSize part.parts + 1 := by
  cases part <;> simp [Outline.size, Outline.parts, forestSize]

@[simp] theorem forestSize_nil :
    forestSize [] = 0 := by
  simp [forestSize]

@[simp] theorem forestSize_cons (part : Outline) (rest : List Outline) :
    forestSize (part :: rest) = forestSize part.parts + 1 + forestSize rest := by
  rw [forestSize, Outline.size_eq]

@[simp] theorem forestSize_append (xs ys : List Outline) :
    forestSize (xs ++ ys) = forestSize xs + forestSize ys := by
  induction xs with
  | nil => simp
  | cons part rest ih =>
      simp only [List.cons_append, forestSize_cons, ih]
      omega

/-- Where the first part of a forest begins. -/
def firstPlace (otherwise : Option NodeId) (start : Nat) : List Outline → Option NodeId
  | [] => otherwise
  | _ :: _ => some start

/-- Where the last part of a forest begins. -/
def lastPlace (otherwise : Option NodeId) (start : Nat) : List Outline → Option NodeId
  | [] => otherwise
  | part :: rest => lastPlace (some start) (start + part.size) rest

theorem firstPlace_append (otherwise : Option NodeId) (start : Nat) (xs ys : List Outline) :
    firstPlace otherwise start (xs ++ ys) =
      firstPlace (firstPlace otherwise (start + forestSize xs) ys) start xs := by
  cases xs with
  | nil => simp [firstPlace]
  | cons part rest => rfl

theorem lastPlace_append (otherwise : Option NodeId) (start : Nat) (xs ys : List Outline) :
    lastPlace otherwise start (xs ++ ys) =
      lastPlace (lastPlace otherwise start xs) (start + forestSize xs) ys := by
  induction xs generalizing otherwise start with
  | nil => simp [lastPlace]
  | cons part rest ih =>
      rw [List.cons_append, lastPlace, lastPlace, ih, forestSize, Nat.add_assoc]

/-- The node of a part that begins at a place, with its links to what surrounds the part. -/
def Outline.node (part : Outline) (start : Nat) (depth : Nat)
    (parent previous next : Option NodeId) : NodeData where
  kind := part.kind
  name := part.name
  value := part.value
  depth := depth
  parent := parent
  firstChild := firstPlace none (start + 1) part.parts
  lastChild := lastPlace none (start + 1) part.parts
  previousSibling := previous
  nextSibling := next

namespace Tree

/-- Whether the nodes from a place on are those of a forest below a parent, when the siblings beside
the forest are as given. -/
inductive Lays (t : Tree) :
    (parent : NodeId) → (depth : Nat) → (previous next : Option NodeId) → (start : Nat) →
      List Outline → Prop
  | nil {parent : NodeId} {depth : Nat} {previous next : Option NodeId} {start : Nat} :
      Lays t parent depth previous next start []
  | cons {parent : NodeId} {depth : Nat} {previous next : Option NodeId} {start : Nat}
      {part : Outline} {rest : List Outline} :
      t.node start =
        part.node start depth (some parent) previous (firstPlace next (start + part.size) rest) →
      Lays t start (depth + 1) none none (start + 1) part.parts →
      Lays t parent depth (some start) next (start + part.size) rest →
      Lays t parent depth previous next start (part :: rest)

section Lays

variable {t t' : Tree} {parent : NodeId} {depth start : Nat} {previous next : Option NodeId}
  {xs ys forest : List Outline}

theorem lays_append_iff :
    t.Lays parent depth previous next start (xs ++ ys) ↔
      t.Lays parent depth previous (firstPlace next (start + forestSize xs) ys) start xs ∧
        t.Lays parent depth (lastPlace previous start xs) next (start + forestSize xs) ys := by
  induction xs generalizing previous start with
  | nil =>
      constructor
      · intro h
        exact ⟨.nil, by simpa [lastPlace] using h⟩
      · rintro ⟨-, h⟩
        simpa [lastPlace] using h
  | cons part rest ih =>
      rw [List.cons_append, forestSize, ← Nat.add_assoc, lastPlace]
      constructor
      · rintro (_ | ⟨hNode, hParts, hRest⟩)
        rw [firstPlace_append] at hNode
        obtain ⟨hRest, hLater⟩ := ih.1 hRest
        exact ⟨.cons hNode hParts hRest, hLater⟩
      · rintro ⟨_ | ⟨hNode, hParts, hRest⟩, hLater⟩
        rw [← firstPlace_append] at hNode
        exact .cons hNode hParts (ih.2 ⟨hRest, hLater⟩)

/-- A layout looks at no other places than those of the forest. -/
theorem Lays.congr (h : t.Lays parent depth previous next start forest)
    (hNode : ∀ id : Nat, start ≤ id → id < start + forestSize forest → t'.node id = t.node id) :
    t'.Lays parent depth previous next start forest := by
  induction h with
  | nil => exact .nil
  | @cons parent depth previous next start part rest hPart _ _ ihParts ihRest =>
      rw [forestSize, Outline.size_eq] at hNode
      refine .cons ?_ (ihParts fun id hLow hHigh => ?_) (ihRest fun id hLow hHigh => ?_)
      · rw [hNode start (by omega) (by omega), hPart]
      · exact hNode id (by omega) (by omega)
      · rw [Outline.size_eq] at hLow hHigh
        exact hNode id (by omega) (by omega)

/-- A layout fixes the nodes at all places of the forest. -/
theorem Lays.node_eq (h : t.Lays parent depth previous next start forest)
    (h' : t'.Lays parent depth previous next start forest) {id : Nat} (hLow : start ≤ id)
    (hHigh : id < start + forestSize forest) :
    t.node id = t'.node id := by
  induction h with
  | nil =>
      rw [forestSize_nil] at hHigh
      omega
  | @cons parent depth previous next start part rest hPart _ _ ihParts ihRest =>
      obtain _ | ⟨hPart', hParts', hRest'⟩ := h'
      rw [forestSize, Outline.size_eq] at hHigh
      rcases Nat.eq_or_lt_of_le hLow with rfl | hLater
      · rw [hPart, hPart']
      · by_cases hWithin : id < start + part.size
        · rw [Outline.size_eq] at hWithin
          exact ihParts hParts' hLater (by omega)
        · rw [Outline.size_eq] at hWithin
          exact ihRest hRest' (by rw [Outline.size_eq]; omega) (by rw [Outline.size_eq]; omega)

end Lays

/-- Whether a node holds a forest, which begins at the place after it. -/
structure Holds (t : Tree) (id : Nat) (forest : List Outline) : Prop where
  firstChild : (t.node id).firstChild = firstPlace none (id + 1) forest
  lastChild : (t.node id).lastChild = lastPlace none (id + 1) forest
  below : t.Lays id ((t.node id).depth + 1) none none (id + 1) forest

end Tree

end CborPath
