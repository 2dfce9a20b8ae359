import CborPath.Document.Entries
import CborPath.Proofs.Sorting
import CborPath.Proofs.Text.ByteOrder

/-!
# The order of entries

Sorting brings the entries of a mapping into the order of the bytes of their names and leaves entries
of one name in the order in which they stand.  Nothing else about their order matters.
-/

namespace CborPath

/-- Whether some entries are those of a list in the order of the bytes of their names, with entries
of one name in the order of the list. -/
structure SortedByName (entries sorted : List (String × Value)) : Prop where
  perm : sorted.Perm entries
  ordered : sorted.Pairwise fun a b => Utf8.encode a.1.toList ≤ Utf8.encode b.1.toList
  stable : ∀ name, (sorted.filter fun entry => entry.1 = name) =
    entries.filter fun entry => entry.1 = name

theorem filter_sortEntries (entries : List (String × Value)) (name : String) :
    ((sortEntries entries).filter fun entry => entry.1 = name) =
      entries.filter fun entry => entry.1 = name := by
  have hSame : (entries.filter fun entry => entry.1 = name).Pairwise
      fun a b => decide (a.1 ≤ b.1) = true := by
    refine List.pairwise_of_forall_mem_list fun a ha b hb => ?_
    have hA := (List.mem_filter.1 ha).2
    have hB := (List.mem_filter.1 hb).2
    simp only [decide_eq_true_eq] at *
    exact (hA.trans hB.symm) ▸ String.le_refl a.1
  have hSublist := List.sublist_mergeSort
    (fun a b c hab hbc => by
      simp only [decide_eq_true_eq] at *
      exact String.le_trans hab hbc)
    (fun a b => by
      simp only [Bool.or_eq_true, decide_eq_true_eq]
      exact String.le_total a.1 b.1)
    hSame List.filter_sublist
  have hFiltered := hSublist.filter fun entry => entry.1 = name
  rw [List.filter_filter] at hFiltered
  simp only [Bool.and_self] at hFiltered
  exact (hFiltered.eq_of_length ((sortEntries_perm entries).filter _).length_eq.symm).symm

/-- Sorting gives the same for entries that have the same of each name in the same order. -/
theorem sortEntries_eq_of_filter_eq {entries others : List (String × Value)}
    (h : ∀ name, (entries.filter fun entry => entry.1 = name) =
      others.filter fun entry => entry.1 = name) :
    sortEntries entries = sortEntries others := by
  refine eq_of_pairwise_of_filter_eq String.le_refl (fun _ _ => String.le_antisymm)
    (pairwise_sortEntries entries) (pairwise_sortEntries others) fun name => ?_
  rw [filter_sortEntries, filter_sortEntries, h]

theorem sortedByName_sortEntries (entries : List (String × Value)) :
    SortedByName entries (sortEntries entries) := by
  refine ⟨sortEntries_perm entries, ?_, filter_sortEntries entries⟩
  refine (pairwise_sortEntries entries).imp fun {a b} h hLt => ?_
  exact String.not_lt.2 h (Utf8.encode_lt_encode_iff.1 hLt)

end CborPath
