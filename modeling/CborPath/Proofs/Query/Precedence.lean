import CborPath.Proofs.Query.Grouping

/-!
# Operators read by precedence

A text of operands with operators between them is read as its grouping.  Each reader of one precedence
takes off the longest part of a chain whose operators bind at least as tightly as its own: it stops before
an operator that binds less, which a reader further out finds there.  What the operands are called makes
no difference, since a reader looks for operators only where one can stand.
-/

namespace CborPath

open Text (skipSpace)

namespace Parse

/-- Whether a reader of operators finds those of one precedence, and no others. -/
def Recognizes (operator? : OperatorReader) (precedence : Nat) : Prop :=
  ∀ (operator : Operator) (more : List Char), operator? (operator.rightText more) =
    if operator.precedence = precedence then some (operator, ' ' :: more) else none

theorem recognizes_operatorReaders :
    ∀ (precedence : Nat) (operator? : OperatorReader), operatorReaders[precedence]? = some operator? →
      Recognizes operator? precedence := by
  intro precedence operator? hReader operator more
  match precedence with
  | 0 | 1 | 2 | 3 | 4 | 5 =>
      cases hReader
      rcases operator with _ | _ | op | op | _ <;> try cases op
      all_goals rfl
  | _ + 6 => cases hReader

theorem recognizes_unionOperator : Recognizes unionOperator? 7 := by
  intro operator more
  rcases operator with _ | _ | op | op | _ <;> try cases op
  all_goals rfl

/-- Whether a chain of operators of at least one precedence may end before a text: an expression may end
there, or an operator that binds less follows. -/
def Stops (precedence : Nat) (rest : List Char) : Prop :=
  GoesOn closers rest ∨ ∃ operator more, Operator.precedence operator < precedence ∧
    rest = ' ' :: operator.rightText more

section Stops

variable {precedence : Nat} {rest : List Char}

theorem Stops.mono {more : Nat} (h : Stops precedence rest) (hMore : precedence ≤ more) :
    Stops more rest :=
  h.imp_right fun ⟨operator, next, hLess, hText⟩ =>
    ⟨operator, next, Nat.lt_of_lt_of_le hLess hMore, hText⟩

/-- No operator begins with what would go on with its left operand. -/
theorem Operator.head?_rightText_ne (operator : Operator) (more : List Char) {mark : Char}
    (hMark : mark ∈ ['(', ':', '[', '/']) :
    (operator.rightText more).head? ≠ some mark := by
  simp only [List.mem_cons, List.not_mem_nil, or_false] at hMark
  rcases operator with _ | _ | op | op | _ <;> try cases op
  all_goals rcases hMark with rfl | rfl | rfl | rfl <;> exact head?_cons_ne (by decide) _

theorem Stops.head?_skipSpace_ne (h : Stops precedence rest) {mark : Char}
    (hMark : mark ∈ ['(', ':', '[', '/']) :
    (skipSpace rest).head? ≠ some mark := by
  rcases h with hEnd | ⟨operator, more, -, rfl⟩
  · have hAbsent : mark ∉ closers := by
      simp only [List.mem_cons, List.not_mem_nil, or_false] at hMark
      rcases hMark with rfl | rfl | rfl | rfl <;> decide
    exact hEnd.head?_skipSpace_ne (by decide) hAbsent
  · rw [Text.skipSpace_cons_of_isSpace rfl, operator.skipSpace_rightText]
    exact operator.head?_rightText_ne more hMark

theorem Stops.endsTest (h : Stops precedence rest) :
    EndsTest rest := by
  refine ⟨?_, h.head?_skipSpace_ne (by decide), h.head?_skipSpace_ne (by decide)⟩
  rcases h with hEnd | ⟨operator, more, -, rfl⟩
  · exact hEnd.any_eq_false (by decide)
  · rfl

/-- Where a chain may end, no operator that binds as tightly follows. -/
theorem Stops.refused {operator? : OperatorReader} (h : Stops precedence rest)
    (hReader : Recognizes operator? precedence)
    (hMem : operator? ∈ unionOperator? :: operatorReaders) :
    operator? (skipSpace rest) = none := by
  rcases h with hEnd | ⟨operator, more, hLess, rfl⟩
  · rw [skipSpace_of_closers hEnd]
    exact refuse_of_goesOn hEnd operator? hMem
  · rw [Text.skipSpace_cons_of_isSpace rfl, operator.skipSpace_rightText, hReader,
      if_neg (Nat.ne_of_lt hLess)]

end Stops

section Levels

/-- Whether a reader takes off chains whose operators have at least a precedence, as far as they are not
too deeply nested. -/
def ReadsChains (precedence levels : Nat) (reader : Reader Expr) : Prop :=
  ∀ (c : OperatorChain) (rest s : List Char), c.Suits precedence → Stops precedence rest →
    skipSpace s = skipSpace (c.text ++ rest) →
      ∃ x, c.Groups x ∧ Settles (c.Fits levels) (reader s) (x, skipSpace rest)

theorem linksText_append (before after : List Link) :
    linksText (before ++ after) = linksText before ++ linksText after :=
  List.flatMap_append

theorem linksText_cons_append (link : Link) (others : List Link) (rest : List Char) :
    linksText (link :: others) ++ rest =
      ' ' :: link.operator.rightText (link.operand.text ++ (linksText others ++ rest)) := by
  simp only [linksText, Operator.rightText, List.flatMap_cons, List.cons_append, List.append_assoc]

/-- The links up to the first one that does not bind more. -/
theorem exists_segment {precedence : Nat} {others : List Link}
    (h : ∀ link ∈ others, precedence ≤ link.operator.precedence) :
    ∃ inside after, others = inside ++ after ∧
      (∀ link ∈ inside, precedence + 1 ≤ link.operator.precedence) ∧
      (∀ link ∈ after, precedence ≤ link.operator.precedence) ∧
      ∀ link, after.head? = some link → link.operator.precedence = precedence := by
  induction others with
  | nil =>
      refine ⟨[], [], rfl, List.forall_mem_nil _, h, ?_⟩
      rintro _ ⟨⟩
  | cons link others ih =>
      obtain ⟨hFirst, hOthers⟩ := List.forall_mem_cons.1 h
      rcases Nat.lt_or_eq_of_le hFirst with hMore | hEq
      · obtain ⟨inside, after, rfl, hInside, hAfter, hHead⟩ := ih hOthers
        exact ⟨link :: inside, after, rfl, List.forall_mem_cons.2 ⟨hMore, hInside⟩, hAfter, hHead⟩
      · refine ⟨[], link :: others, rfl, List.forall_mem_nil _, h, ?_⟩
        rintro _ ⟨⟩
        exact hEq.symm

/-- Links stop where the first one has a lower precedence. -/
theorem stops_linksText {precedence : Nat} {others : List Link} {rest : List Char}
    (hHead : ∀ link, others.head? = some link → link.operator.precedence = precedence)
    (hRest : Stops precedence rest) :
    Stops (precedence + 1) (linksText others ++ rest) := by
  cases others with
  | nil => exact hRest.mono (Nat.le_succ precedence)
  | cons link others =>
      rw [linksText_cons_append]
      exact .inr ⟨link.operator, _, (hHead link rfl).symm ▸ Nat.lt_succ_self _, rfl⟩

variable {precedence levels : Nat} {operator? : OperatorReader} {operand : Reader Expr}

/-- A loop over operators of one precedence groups to the left. -/
theorem readsChains_links (hReader : Recognizes operator? precedence)
    (hMem : operator? ∈ unionOperator? :: operatorReaders) (hShortens : Shortens operator?)
    (hKeeps : TakesOff operand) (hOperand : ReadsChains (precedence + 1) levels operand)
    (others : List Link) {c : OperatorChain} {x : Expr} {rest s : List Char}
    (hSuits : c.Suits precedence) (hGroups : c.Groups x)
    (hOthers : ∀ link ∈ others, precedence ≤ link.operator.precedence)
    (hHead : ∀ link, others.head? = some link → link.operator.precedence = precedence)
    (hRest : Stops precedence rest) (hText : skipSpace s = skipSpace (linksText others ++ rest)) :
    ∃ y, (c.extend others).Groups y ∧ (c.Fits levels →
      Settles ((c.extend others).Fits levels) (links operator? operand x s) (y, skipSpace rest)) := by
  induction hLength : others.length using Nat.strong_induction_on generalizing others c x s with
  | _ length ih =>
      subst hLength
      cases others with
      | nil =>
          have hWhole : c.extend [] = c := by
            rw [OperatorChain.extend, List.append_nil]
          have hNone : operator? (skipSpace s) = none := by
            rw [hText]
            exact hRest.refused hReader hMem
          rw [hWhole]
          refine ⟨x, hGroups, fun hFits => ⟨fun _ => ?_, fun hNot => absurd hFits hNot⟩⟩
          rw [links_of_none hNone, hText]
          rfl
      | cons link others =>
          obtain ⟨-, hLater⟩ := List.forall_mem_cons.1 hOthers
          have hOwn := hHead link rfl
          obtain ⟨inside, after, rfl, hInside, hAfter, hNext⟩ := exists_segment hLater
          -- The right operand is the longest part of what follows whose operators bind more.
          have hMore : operator? (skipSpace s) = some (link.operator,
              ' ' :: (link.operand.text ++ (linksText (inside ++ after) ++ rest))) := by
            rw [hText, linksText_cons_append, Text.skipSpace_cons_of_isSpace rfl,
              link.operator.skipSpace_rightText, hReader, if_pos hOwn]
          have hSegmentText : skipSpace
              (' ' :: (link.operand.text ++ (linksText (inside ++ after) ++ rest))) =
                skipSpace (OperatorChain.text ⟨link.operand, inside⟩ ++ (linksText after ++ rest)) := by
            rw [Text.skipSpace_cons_of_isSpace rfl, OperatorChain.text, linksText_append,
              List.append_assoc, List.append_assoc]
          obtain ⟨right, hRight, hSettles⟩ := hOperand ⟨link.operand, inside⟩ _ _
            (OperatorChain.suits_segment hOwn hInside) (stops_linksText hNext hRest) hSegmentText
          have hShorter : after.length < (link :: (inside ++ after)).length := by
            simp only [List.length_cons, List.length_append]
            omega
          obtain ⟨y, hWhole, hLast⟩ := ih _ hShorter after (hSuits.extend hOwn hInside)
            (hSuits.groups_extend hOwn hInside hGroups hRight) hAfter hNext
            (Text.skipSpace_skipSpace _) rfl
          rw [OperatorChain.extend_extend, List.cons_append] at hWhole hLast
          refine ⟨y, hWhole, fun hFits => ?_⟩
          rw [links_of_some hShortens hKeeps hMore]
          refine hSettles.bind_of_imp (fun hAll => ?_) fun hSegment => ?_
          · rw [← List.cons_append, ← OperatorChain.extend_extend] at hAll
            exact ((hSuits.fits_extend_iff hOwn).1 hAll.of_extend).2
          · exact hLast ((hSuits.fits_extend_iff hOwn).2 ⟨hFits, hSegment⟩)

/-- A reader of operators of one precedence takes off chains, if that of their operands takes off those
of the next precedence. -/
theorem readsChains_chain (hReader : Recognizes operator? precedence)
    (hMem : operator? ∈ unionOperator? :: operatorReaders) (hShortens : Shortens operator?)
    (hKeeps : TakesOff operand) (hOperand : ReadsChains (precedence + 1) levels operand)
    (hSign : precedence ≠ minusPrecedence) :
    ReadsChains precedence levels (chain operator? operand) := by
  intro c rest s hSuits hRest hText
  obtain ⟨first, others⟩ := c
  obtain ⟨inside, after, rfl, hInside, hAfter, hNext⟩ := exists_segment hSuits.links
  have hFirst : OperatorChain.Suits precedence ⟨first, inside⟩ :=
    ⟨fun link hMem => hSuits.links link (List.mem_append_left _ hMem), hSuits.sign⟩
  have hSegment : OperatorChain.Suits (precedence + 1) ⟨first, inside⟩ :=
    ⟨hInside, fun hLess => hSuits.sign
      (Nat.lt_of_le_of_ne (Nat.le_of_lt_succ hLess) hSign.symm)⟩
  have hSegmentText : skipSpace s =
      skipSpace (OperatorChain.text ⟨first, inside⟩ ++ (linksText after ++ rest)) := by
    rw [hText, OperatorChain.text, OperatorChain.text, linksText_append, List.append_assoc,
      List.append_assoc, List.append_assoc]
  obtain ⟨x, hGroups, hSettles⟩ := hOperand ⟨first, inside⟩ _ s hSegment
    (stops_linksText hNext hRest) hSegmentText
  obtain ⟨y, hWhole, hLast⟩ := readsChains_links hReader hMem hShortens hKeeps hOperand after hFirst
    hGroups hAfter hNext hRest (Text.skipSpace_skipSpace _)
  exact ⟨y, hWhole, hSettles.bind_of_imp (fun hAll => hAll.of_extend) hLast⟩

/-- Where nothing binds more, a chain is an atom. -/
theorem readsChains_pathExpr (hLevels : levels ≤ maxNesting) :
    ReadsChains 8 levels (pathExpr (expression levels)) := by
  rintro ⟨⟨minuses, a⟩, others⟩ rest s hSuits hRest hText
  obtain rfl : minuses = 0 := hSuits.sign (by decide)
  obtain rfl : others = [] := by
    cases others with
    | nil => rfl
    | cons link others =>
        have hMore := hSuits.links link (List.mem_cons_self ..)
        have hMost := link.operator.precedence_le
        omega
  have hAtom : OperatorChain.text ⟨⟨0, a⟩, []⟩ = a.text :=
    List.append_nil a.text
  have hFits : a.Fits levels ↔ OperatorChain.Fits levels ⟨⟨0, a⟩, []⟩ := by
    rw [OperatorChain.Fits, OperatorChain.atoms, OperatorChain.signedAtoms, List.forall_mem_singleton]
    exact (and_iff_right (Nat.zero_le levels)).symm
  refine ⟨a.expr, .atom a, ?_⟩
  rw [← pathExpr_skipSpace, hText, pathExpr_skipSpace, hAtom]
  exact (settles_atom a hLevels hRest.endsTest (hRest.head?_skipSpace_ne (by decide))
    (hRest.head?_skipSpace_ne (by decide))).congr hFits

theorem readsChains_union (hLevels : levels ≤ maxNesting) :
    ReadsChains 7 levels (chain unionOperator? (pathExpr (expression levels))) :=
  readsChains_chain recognizes_unionOperator (List.mem_cons_self ..) shortens_unionOperator
    (takesOff_pathExpr (takesOff_expression levels)) (readsChains_pathExpr hLevels) (by decide)

/-- A minus sign stands before all of a union. -/
theorem readsChains_unary (hLevels : levels ≤ maxNesting) :
    ReadsChains minusPrecedence levels (unary levels) := by
  rintro ⟨⟨minuses, a⟩, others⟩ rest s hSuits hRest hText
  have hUnions : ∀ link ∈ others, link.operator = .union := fun link hMem =>
    Operator.eq_union_of_le (hSuits.links link hMem)
  rw [unary_eq]
  induction minuses generalizing levels s with
  | zero =>
      have hSuits : OperatorChain.Suits 7 ⟨⟨0, a⟩, others⟩ :=
        ⟨fun link hMem => (hUnions link hMem).symm ▸ Nat.le_refl 7, fun _ => rfl⟩
      have hMinus : (skipSpace s).head? ≠ some '-' := by
        obtain ⟨c, tail, hStart, hSpace, hMark⟩ := a.exists_text_eq_cons
        rw [hText, OperatorChain.text, Operand.text, List.replicate_zero, List.nil_append, hStart,
          List.cons_append, List.cons_append, Text.skipSpace_cons_of_not_isSpace hSpace]
        exact head?_cons_ne hMark _
      rw [signed_of_head?_ne hMinus]
      exact readsChains_union hLevels _ rest _ hSuits (hRest.mono (by decide))
        ((Text.skipSpace_skipSpace s).trans hText)
  | succ minuses ih =>
      have hSuits : OperatorChain.Suits minusPrecedence ⟨⟨minuses, a⟩, others⟩ :=
        ⟨hSuits.links, fun hLess => absurd hLess (Nat.lt_irrefl _)⟩
      have hMinus : skipSpace s = '-' :: (OperatorChain.text ⟨⟨minuses, a⟩, others⟩ ++ rest) := by
        rw [hText]
        rfl
      have hTighter : ∀ link ∈ others, minusPrecedence < link.operator.precedence :=
        fun link hMem => (hUnions link hMem).symm ▸ Nat.lt_succ_self 6
      rw [signed_of_minus hMinus]
      cases levels with
      | zero =>
          obtain ⟨x, hGroups, -⟩ := ih hLevels _ hSuits rfl
          refine ⟨.negate x, .minus hTighter hGroups, ?_⟩
          exact ⟨fun hFits => absurd hFits OperatorChain.not_fits_zero, fun _ => ⟨_, rfl⟩⟩
      | succ levels =>
          obtain ⟨x, hGroups, hSettles⟩ := ih (Nat.le_of_succ_le hLevels) _ hSuits rfl
          rw [← unary_eq] at hSettles
          refine ⟨.negate x, .minus hTighter hGroups, ?_⟩
          exact (hSettles.congr (OperatorChain.fits_minus_iff hUnions).symm).bind_ok rfl

/-- The readers of all precedences from one on. -/
theorem readsChains_foldr (hLevels : levels ≤ maxNesting) (hPrecedence : precedence ≤ minusPrecedence) :
    ReadsChains precedence levels ((operatorReaders.drop precedence).foldr chain (unary levels)) := by
  induction hMore : minusPrecedence - precedence generalizing precedence with
  | zero =>
      obtain rfl : precedence = minusPrecedence := by omega
      exact readsChains_unary hLevels
  | succ more ih =>
      have hLess : precedence < operatorReaders.length := by
        show precedence < minusPrecedence
        omega
      have hMem := List.getElem_mem hLess
      have hShortens : ∀ reader ∈ operatorReaders.drop (precedence + 1), Shortens reader :=
        fun reader hIn => (shortens_and_steady reader (List.mem_of_mem_drop hIn)).1
      rw [List.drop_eq_getElem_cons hLess, List.foldr_cons]
      refine readsChains_chain
        (recognizes_operatorReaders _ _ (List.getElem?_eq_getElem hLess))
        (List.mem_cons_of_mem _ hMem) (shortens_and_steady _ hMem).1
        (takesOff_foldr_chain hShortens (takesOff_unary levels))
        (ih (by omega) (by omega)) ?_
      omega

/-- A chain has exactly one grouping, and is read as that. -/
theorem oneDeeper_operatorChain (c : OperatorChain) :
    ∃ expr, (∀ other, c.Groups other ↔ other = expr) ∧
      OneDeeper (c.Fits ·) (String.ofList c.text) expr := by
  have hSuits : c.Suits 0 := ⟨fun _ _ => Nat.zero_le _, fun hLess => absurd hLess (by decide)⟩
  have hReads : ∀ levels ≤ 63, ∃ expr, c.Groups expr ∧
      Settles (c.Fits levels) (expression (levels + 1) c.text) (expr, []) := fun levels hLevels =>
    readsChains_foldr (Nat.le_succ_of_le hLevels) (Nat.zero_le _) c [] c.text hSuits
      (.inl (goesOn_nil closers)) (by rw [List.append_nil])
  obtain ⟨expr, hGroups, -⟩ := hReads 63 (Nat.le_refl 63)
  refine ⟨expr, fun other => ⟨fun hOther => hOther.unique hGroups, ?_⟩,
    oneDeeper_of_settles fun levels hLevels => ?_⟩
  · rintro rfl
    exact hGroups
  · obtain ⟨other, hOther, hSettles⟩ := hReads levels hLevels
    rw [String.toList_ofList, hGroups.unique hOther]
    exact hSettles

end Levels

end Parse

/-- Operators group by precedence.  A chain of operands, whatever they are called, has exactly one
grouping, and that is what its text is read as, if the minus signs and the accepted texts in it are not
too deeply nested; otherwise the text is refused for that reason. -/
theorem parse_operatorChain (c : OperatorChain) :
    ∃ expr, (∀ other, c.Groups other ↔ other = expr) ∧
      ParsesIf (c.Fits 63) (String.ofList c.text) expr := by
  obtain ⟨expr, hGroups, hDeeper⟩ := Parse.oneDeeper_operatorChain c
  exact ⟨expr, hGroups, hDeeper.parses⟩

example :
    parse "or or -and | div mod *" = .ok (.or (.path false [.mk .child (.named "or") []])
      (.arithmetic .modulo
        (.negate (.union (.path false [.mk .child (.named "and") []])
          (.path false [.mk .child (.named "div") []])))
        (.path false [.mk .child .anyElement []]))) := by
  rfl

end CborPath
