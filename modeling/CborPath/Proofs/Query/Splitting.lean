import CborPath.Proofs.Text.Occurrence
import CborPath.Proofs.Tree.Construction
import CborPath.Query.Eval

/-!
# Splitting texts in queries

The functions that search one text in another agree with each other: what `substring-before` and
`substring-after` give are the parts around an occurrence, the first one, and there is an occurrence
just when `contains` says so.
-/

namespace CborPath

/-- Whether a text is cut at the first occurrence of a separator.  The first one in bytes is also the
first one in characters. -/
structure CutsAtFirst (s t before after : String) : Prop where
  joined : s = before ++ t ++ after
  first : ∀ start rest : String, s = start ++ t ++ rest → before.toList <+: start.toList
  first_in_bytes : ∀ start rest : List UInt8,
    Utf8.encode s.toList = start ++ (Utf8.encode t.toList ++ rest) →
      Utf8.encode before.toList <+: start

theorem contains_toList_iff {s t : String} :
    Text.contains s.toList t.toList = true ↔ ∃ start rest : String, s = start ++ t ++ rest := by
  rw [Text.contains_iff]
  constructor
  · rintro ⟨start, rest, hText⟩
    refine ⟨String.ofList start, String.ofList rest, ?_⟩
    rw [← String.toList_inj, String.toList_append, String.toList_append, String.toList_ofList,
      String.toList_ofList, hText]
  · rintro ⟨start, rest, rfl⟩
    rw [String.toList_append, String.toList_append]
    exact List.infix_append _ _ _

theorem startsWith_toList_iff {s t : String} :
    Text.startsWith s.toList t.toList = true ↔ ∃ rest : String, s = t ++ rest := by
  rw [Text.startsWith, List.isPrefixOf_iff_prefix]
  constructor
  · rintro ⟨rest, hText⟩
    refine ⟨String.ofList rest, ?_⟩
    rw [← String.toList_inj, String.toList_append, String.toList_ofList, hText]
  · rintro ⟨rest, rfl⟩
    rw [String.toList_append]
    exact List.prefix_append _ _

theorem endsWith_toList_iff {s t : String} :
    Text.endsWith s.toList t.toList = true ↔ ∃ start : String, s = start ++ t := by
  rw [Text.endsWith, List.isSuffixOf_iff_suffix]
  constructor
  · rintro ⟨start, hText⟩
    refine ⟨String.ofList start, ?_⟩
    rw [← String.toList_inj, String.toList_append, String.toList_ofList, hText]
  · rintro ⟨start, rfl⟩
    rw [String.toList_append]
    exact List.suffix_append _ _

theorem cutsAtFirst_of_contains {s t : String} (h : Text.contains s.toList t.toList = true) :
    CutsAtFirst s t (String.ofList (Text.before s.toList t.toList))
      (String.ofList (Text.after s.toList t.toList)) where
  joined := by
    rw [← String.toList_inj, String.toList_append, String.toList_append, String.toList_ofList,
      String.toList_ofList, List.append_assoc, Text.before_append_append_after h]
  first start rest hText := by
    have hWhole : s.toList = start.toList ++ (t.toList ++ rest.toList) := by
      rw [hText, String.toList_append, String.toList_append, List.append_assoc]
    rw [String.toList_ofList]
    exact Text.before_earliest hWhole
  first_in_bytes start rest hBytes := by
    rw [String.toList_ofList]
    exact Text.encode_before_earliest hBytes

namespace Expr

section Texts

variable {P : Type} {nav : Navigator P} {context : Context P} {a b c : Expr} {s t u : String}

/-- Whether an expression has a value, which converts to a text. -/
def HasText (nav : Navigator P) (context : Context P) (e : Expr) (s : String) : Prop :=
  ∃ x, e.eval nav context = .ok x ∧ x.toText nav = s

theorem hasText_of_eval (h : a.eval nav context = .ok (.text s)) :
    a.HasText nav context s :=
  ⟨.text s, h, rfl⟩

variable (ha : a.HasText nav context s) (hb : b.HasText nav context t)
include ha hb

theorem HasText.eval_binary (f : BinaryFunction) :
    (Expr.binary f a b).eval nav context = .ok (f.apply s t) := by
  obtain ⟨x, hx, rfl⟩ := ha
  obtain ⟨y, hy, rfl⟩ := hb
  rw [eval, hx, hy]
  rfl

theorem HasText.eval_concat_pair :
    (Expr.concat a b []).eval nav context = .ok (.text (s ++ t)) := by
  obtain ⟨x, hx, rfl⟩ := ha
  obtain ⟨y, hy, rfl⟩ := hb
  rw [eval, hx, hy, evalTexts, ← String.append_empty (s := x.toText nav ++ y.toText nav)]
  rfl

theorem HasText.eval_concat (hc : c.HasText nav context u) :
    (Expr.concat a b [c]).eval nav context = .ok (.text (s ++ t ++ u)) := by
  obtain ⟨x, hx, rfl⟩ := ha
  obtain ⟨y, hy, rfl⟩ := hb
  obtain ⟨z, hz, rfl⟩ := hc
  rw [eval, hx, hy, evalTexts, evalTexts, hz, ← String.append_empty (s := z.toText nav)]
  rfl

/-- Splitting a text at a separator loses nothing.  If the text contains the separator, the parts before
and after it and the separator between them are the text; the part before it is the shortest start of the
text that the separator follows, in characters as in bytes, and the text starts with this part and the
separator.  Otherwise both parts are empty.  A text that starts with the separator contains it with
nothing before it, and one that ends with the separator contains it. -/
theorem eval_splitting :
    ∃ (found starts ends : Bool) (before after : String),
      (Expr.binary .contains a b).eval nav context = .ok (.boolean found) ∧
      (Expr.binary .startsWith a b).eval nav context = .ok (.boolean starts) ∧
      (Expr.binary .endsWith a b).eval nav context = .ok (.boolean ends) ∧
      (Expr.binary .substringBefore a b).eval nav context = .ok (.text before) ∧
      (Expr.binary .substringAfter a b).eval nav context = .ok (.text after) ∧
      (found = true ↔ ∃ start rest, s = start ++ t ++ rest) ∧
      (starts = true ↔ ∃ rest, s = t ++ rest) ∧
      (ends = true ↔ ∃ start, s = start ++ t) ∧
      (found = true →
        CutsAtFirst s t before after ∧
        (Expr.concat (.binary .substringBefore a b) b [.binary .substringAfter a b]).eval nav context =
          .ok (.text s) ∧
        (Expr.binary .startsWith a (.concat (.binary .substringBefore a b) b [])).eval nav context =
          .ok (.boolean true)) ∧
      (found = false → before = "" ∧ after = "") ∧
      (starts = true → found = true ∧ before = "") ∧
      (ends = true → found = true) := by
  have hBefore := ha.eval_binary hb .substringBefore
  have hAfter := ha.eval_binary hb .substringAfter
  refine ⟨_, _, _, _, _, ha.eval_binary hb .contains, ha.eval_binary hb .startsWith,
    ha.eval_binary hb .endsWith, hBefore, hAfter, contains_toList_iff, startsWith_toList_iff,
    endsWith_toList_iff, fun hFound => ?_, fun hFound => ?_, fun hStarts => ?_,
    Text.contains_of_endsWith⟩
  · have hCut := cutsAtFirst_of_contains hFound
    refine ⟨hCut, ?_, ?_⟩
    · rw [(hasText_of_eval hBefore).eval_concat hb (hasText_of_eval hAfter), ← hCut.joined]
    · have hStart := hasText_of_eval ((hasText_of_eval hBefore).eval_concat_pair hb)
      rw [ha.eval_binary hStart]
      exact congrArg (fun b => Except.ok (Answer.boolean b)) (startsWith_toList_iff.2 ⟨_, hCut.joined⟩)
  · obtain ⟨hFirst, hSecond⟩ := Text.parts_of_not_contains hFound
    rw [hFirst, hSecond]
    exact ⟨rfl, rfl⟩
  · obtain ⟨hFound, hNothing⟩ := Text.contains_of_startsWith hStarts
    rw [hNothing]
    exact ⟨hFound, rfl⟩

end Texts

/-- The separator overlaps with itself, and its characters take several bytes. -/
theorem eval_splitting_overlap :
    (Expr.literal "xéaéaéb").HasText Tree.pair.navigator ⟨0, 1, 1⟩ "xéaéaéb" ∧
      (Expr.literal "éaé").HasText Tree.pair.navigator ⟨0, 1, 1⟩ "éaé" ∧
      (Expr.binary .contains (.literal "xéaéaéb") (.literal "éaé")).eval Tree.pair.navigator
        ⟨0, 1, 1⟩ = .ok (.boolean true) ∧
      (Expr.concat (.binary .substringBefore (.literal "xéaéaéb") (.literal "éaé")) (.literal "éaé")
          [.binary .substringAfter (.literal "xéaéaéb") (.literal "éaé")]).eval
            Tree.pair.navigator ⟨0, 1, 1⟩ = .ok (.text "xéaéaéb") ∧
      CutsAtFirst "xéaéaéb" "éaé" "x" "aéb" ∧
      (Expr.binary .startsWith (.literal "éaé") (.literal "éa")).eval Tree.pair.navigator ⟨0, 1, 1⟩ =
        .ok (.boolean true) ∧
      (Expr.binary .substringBefore (.literal "éaé") (.literal "éa")).eval
        Tree.pair.navigator ⟨0, 1, 1⟩ = .ok (.text "") := by
  have hLiteral : ∀ s, (Expr.literal s).HasText Tree.pair.navigator ⟨0, 1, 1⟩ s :=
    fun s => ⟨.text s, rfl, rfl⟩
  have hContains : (Expr.binary .contains (.literal "xéaéaéb") (.literal "éaé")).eval
      Tree.pair.navigator ⟨0, 1, 1⟩ = .ok (.boolean true) := by
    rfl
  have hStarts : (Expr.binary .startsWith (.literal "éaé") (.literal "éa")).eval
      Tree.pair.navigator ⟨0, 1, 1⟩ = .ok (.boolean true) := by
    rfl
  obtain ⟨found, _, _, before, after, hFound, -, -, hBefore, hAfter, -, -, -, hSplit, -⟩ :=
    eval_splitting (hLiteral "xéaéaéb") (hLiteral "éaé")
  obtain ⟨_, starts, _, nothing, _, -, hStart, -, hNothing, -, -, -, -, -, -, hEmpty, -⟩ :=
    eval_splitting (hLiteral "éaé") (hLiteral "éa")
  obtain rfl : true = found := Answer.boolean.inj (Except.ok.inj (hContains.symm.trans hFound))
  obtain rfl : true = starts := Answer.boolean.inj (Except.ok.inj (hStarts.symm.trans hStart))
  obtain rfl : "x" = before := Answer.text.inj (Except.ok.inj hBefore)
  obtain rfl : "aéb" = after := Answer.text.inj (Except.ok.inj hAfter)
  obtain ⟨hCut, hJoined, -⟩ := hSplit rfl
  rw [(hEmpty rfl).2] at hNothing
  exact ⟨hLiteral _, hLiteral _, hContains, hJoined, hCut, hStarts, hNothing⟩

end Expr

end CborPath
