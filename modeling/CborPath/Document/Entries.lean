import CborPath.Document.Value

/-!
# Entries of mappings

The entries of a mapping are used by the names of their keys and in the order of these names.
Naming them and sorting them leaves their values alone, so that a recursion on values can go on
from the sorted entries: `entriesWeight` measures them, sorting keeps it, and for the entries of a
mapping it is less than the size of the mapping.
-/

namespace CborPath

/-- The name of the elements for the items of a sequence: that of the mapping entry that holds the
sequence, or a general one if there is none or it is empty. -/
def itemElementName (entryName : String) : String :=
  if entryName.isEmpty then "element" else entryName

/-- The entries of a mapping with their element names. -/
def nameEntries : List (Value × Value) → Except UnsupportedKey (List (String × Value))
  | [] => .ok []
  | (key, value) :: rest => do
      let name ← key.elementName
      let named ← nameEntries rest
      return (name, value) :: named

/-- Named entries in the order of their names, equal names keeping their order.  Texts are ordered
by code points, which is the order of their bytes in UTF-8. -/
def sortEntries (entries : List (String × Value)) : List (String × Value) :=
  entries.mergeSort fun a b => decide (a.1 ≤ b.1)

/-- Sorting keeps all entries. -/
theorem sortEntries_perm (entries : List (String × Value)) :
    (sortEntries entries).Perm entries :=
  List.mergeSort_perm entries _

/-- Sorted entries are in the order of their names. -/
theorem pairwise_sortEntries (entries : List (String × Value)) :
    (sortEntries entries).Pairwise fun a b => a.1 ≤ b.1 := by
  have hSorted :
      (sortEntries entries).Pairwise fun a b => decide (a.1 ≤ b.1) = true :=
    List.pairwise_mergeSort
      (fun a b c hab hbc => by
        simp only [decide_eq_true_eq] at *
        exact String.le_trans hab hbc)
      (fun a b => by
        simp only [Bool.or_eq_true, decide_eq_true_eq]
        exact String.le_total a.1 b.1)
      entries
  exact hSorted.imp of_decide_eq_true

/-- The size of the values among named entries. -/
noncomputable def entriesWeight : List (String × Value) → Nat
  | [] => 0
  | (_, value) :: rest => sizeOf value + 1 + entriesWeight rest

theorem entriesWeight_perm {entries others : List (String × Value)} (h : entries.Perm others) :
    entriesWeight entries = entriesWeight others := by
  induction h with
  | nil => rfl
  | cons entry _ ih => simp only [entriesWeight, ih]
  | swap first second rest =>
      simp only [entriesWeight]
      omega
  | trans _ _ ihFirst ihLast => exact ihFirst.trans ihLast

theorem entriesWeight_sortEntries (entries : List (String × Value)) :
    entriesWeight (sortEntries entries) = entriesWeight entries :=
  entriesWeight_perm (sortEntries_perm entries)

theorem entriesWeight_nameEntries {entries : List (Value × Value)}
    {named : List (String × Value)} (h : nameEntries entries = .ok named) :
    entriesWeight named < sizeOf entries := by
  induction entries generalizing named with
  | nil =>
      cases h
      simp [entriesWeight]
  | cons entry rest ih =>
      obtain ⟨key, value⟩ := entry
      simp only [nameEntries, bind, Except.bind, pure, Except.pure] at h
      split at h
      · cases h
      · split at h
        · cases h
        · rename_i tail hTail
          cases h
          have := ih hTail
          simp only [entriesWeight, List.cons.sizeOf_spec, Prod.mk.sizeOf_spec] at *
          omega

end CborPath
