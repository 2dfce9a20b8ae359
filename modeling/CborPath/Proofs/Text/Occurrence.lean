import CborPath.Proofs.Text.Utf8
import CborPath.Text.Search

/-!
# Occurrences

The parts of a text before and after the first occurrence of another one give the text back, and what
comes before is the shortest start that the other text follows.  It makes no difference whether
characters or bytes are searched: where the bytes of a text stand among those of another, so do its
characters.
-/

namespace CborPath

namespace Utf8

/-- No character begins inside the bytes of another one. -/
theorem eq_nil_of_cut {c d : Char} {start cut more others : List UInt8}
    (hStart : start ≠ []) (h : String.utf8EncodeChar c = start ++ cut)
    (hCut : cut ++ more = String.utf8EncodeChar d ++ others) :
    cut = [] := by
  cases cut with
  | nil => rfl
  | cons byte rest =>
      obtain ⟨first, tails, hFirst⟩ := List.exists_cons_of_ne_nil (String.utf8EncodeChar_ne_nil (c := d))
      have hByte : byte.IsUTF8FirstByte := by
        rw [hFirst] at hCut
        rw [(List.cons.inj hCut).1]
        have hZero := UInt8.isUTF8FirstByte_getElem_zero_utf8EncodeChar (c := d)
        simpa only [hFirst, List.getElem_cons_zero] using hZero
      have hPlace : start.length < (String.utf8EncodeChar c).length := by
        rw [h, List.length_append, List.length_cons]
        omega
      have hHere : (String.utf8EncodeChar c)[start.length] = byte := by
        simp only [h, List.getElem_append_right (Nat.le_refl _), Nat.sub_self, List.getElem_cons_zero]
      rw [← hHere, UInt8.isUTF8FirstByte_getElem_utf8EncodeChar] at hByte
      exact absurd (List.length_eq_zero_iff.1 hByte) hStart

theorem encode_append (cs ds : List Char) :
    encode (cs ++ ds) = encode cs ++ encode ds :=
  List.flatMap_append

/-- A text whose bytes come first among those of another one comes first itself. -/
theorem prefix_of_encode_append_eq {cs ds : List Char} {more : List UInt8}
    (h : encode cs ++ more = encode ds) :
    ∃ rest, ds = cs ++ rest ∧ more = encode rest := by
  obtain ⟨here, there, broken, hSplit, rfl, hBroken, -⟩ := splitValid_of_append_eq_encode h
  obtain ⟨own, others, left, hOwn, rfl, hLeft, -, hEnd⟩ :=
    splitValid_of_append_eq_encode (List.append_nil (encode cs))
  obtain rfl := hEnd rfl
  rw [hOwn] at hSplit
  obtain ⟨rfl, rfl⟩ := Prod.mk.inj hSplit
  rw [eq_nil_of_encode_eq_nil hLeft.symm, List.append_nil]
  exact ⟨there, rfl, hBroken⟩

/-- Where the bytes of a text stand among those of another one, its characters do. -/
theorem exists_of_encode_eq_append {cs ds : List Char} (hSome : cs ≠ []) {before after : List UInt8}
    (h : encode ds = before ++ (encode cs ++ after)) :
    ∃ start rest, ds = start ++ (cs ++ rest) ∧ before = encode start ∧ after = encode rest := by
  induction ds generalizing before with
  | nil =>
      rw [show encode [] = [] from rfl] at h
      have hNone := (List.append_eq_nil_iff.1 (List.append_eq_nil_iff.1 h.symm).2).1
      exact absurd (eq_nil_of_encode_eq_nil hNone) hSome
  | cons d ds ih =>
      by_cases hBefore : before = []
      · subst hBefore
        rw [List.nil_append] at h
        obtain ⟨rest, hText, hAfter⟩ := prefix_of_encode_append_eq h.symm
        exact ⟨[], rest, hText, rfl, hAfter⟩
      · rw [encode_cons] at h
        rcases cut_or_whole h.symm with ⟨cut, hCut, hFirst, hRest⟩ | ⟨left, rfl, hLeft⟩
        · -- The other text would begin inside a character.
          obtain ⟨c, others, rfl⟩ := List.exists_cons_of_ne_nil hSome
          rw [encode_cons, List.append_assoc] at hRest
          exact absurd (eq_nil_of_cut hBefore hFirst hRest.symm) hCut
        · obtain ⟨start, rest, rfl, rfl, hAfter⟩ := ih hLeft.symm
          exact ⟨d :: start, rest, rfl, (encode_cons d start).symm, hAfter⟩

end Utf8

namespace Text

section Parts

variable {text separator : List Char}

/-- The parts around the first occurrence are a decomposition of the text. -/
theorem before_append_append_after (h : contains text separator = true) :
    before text separator ++ (separator ++ after text separator) = text := by
  obtain ⟨count, hFind⟩ := Option.isSome_iff_exists.1 h
  obtain ⟨rest, hRest⟩ := drop_of_find?_eq_some hFind
  have hAfter : text.drop (count + separator.length) = rest := by
    rw [← List.drop_drop, ← hRest, List.drop_left]
  rw [before, after, hFind]
  dsimp only
  rw [hAfter, hRest, List.take_append_drop]

/-- No occurrence comes before the first one. -/
theorem before_earliest {start rest : List Char} (h : text = start ++ (separator ++ rest)) :
    before text separator <+: start := by
  unfold before
  split
  · rename_i count hFind
    have hPlace : count ≤ start.length := by
      refine Nat.le_of_not_lt fun hLater => not_prefix_of_lt_find? hFind hLater ?_
      rw [h, List.drop_left]
      exact List.prefix_append separator rest
    rw [h, List.take_append_of_le_length hPlace]
    exact List.take_prefix count start
  · exact List.nil_prefix

/-- No occurrence of the bytes comes before the first one of the characters. -/
theorem encode_before_earliest {start rest : List UInt8}
    (h : Utf8.encode text = start ++ (Utf8.encode separator ++ rest)) :
    Utf8.encode (before text separator) <+: start := by
  by_cases hEmpty : separator = []
  · subst hEmpty
    have hWhole : text = [] ++ ([] ++ text) := rfl
    rw [List.prefix_nil.1 (before_earliest hWhole)]
    exact List.nil_prefix
  · obtain ⟨characters, others, hText, rfl, -⟩ := Utf8.exists_of_encode_eq_append hEmpty h
    obtain ⟨more, rfl⟩ := before_earliest hText
    rw [Utf8.encode_append]
    exact List.prefix_append _ _

theorem parts_of_not_contains (h : contains text separator = false) :
    before text separator = [] ∧ after text separator = [] := by
  have hNone : find? separator text = none := Option.isSome_eq_false_iff.1 h |> Option.isNone_iff_eq_none.1
  rw [before, after, hNone]
  exact ⟨rfl, rfl⟩

theorem contains_of_startsWith (h : startsWith text separator = true) :
    contains text separator = true ∧ before text separator = [] := by
  obtain ⟨rest, rfl⟩ := List.isPrefixOf_iff_prefix.1 h
  have hWhole : separator ++ rest = [] ++ (separator ++ rest) := rfl
  exact ⟨contains_iff.2 (List.prefix_append separator rest).isInfix,
    List.prefix_nil.1 (before_earliest hWhole)⟩

theorem contains_of_endsWith (h : endsWith text separator = true) :
    contains text separator = true :=
  contains_iff.2 (List.isSuffixOf_iff_suffix.1 h).isInfix

end Parts

end Text

end CborPath
