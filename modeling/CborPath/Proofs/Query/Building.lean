import CborPath.Proofs.Number.Shortest
import CborPath.Proofs.Outcome
import CborPath.Query.Parse
import CborPath.Query.Printer

/-!
# What readers build

The expressions that a text can be read as are built by a few rules.  A minus sign, parentheses, a
predicate and an argument take a level of nesting from what they hold; operators and steps do not,
however many of them there are.  Every node test, number and text literal is one that can be written,
and neither a path nor a filter is empty.
-/

namespace CborPath

namespace Parse

/-- Whether an expression is built with so many levels of nesting. -/
inductive Built : Nat → Expr → Prop
  | operator {levels : Nat} {left right : Expr} (operator : Operator) (hLeft : Built levels left)
      (hRight : Built levels right) : Built levels (operator.apply left right)
  | negate {levels : Nat} {operand : Expr} (h : Built levels operand) :
      Built (levels + 1) (.negate operand)
  | group {levels : Nat} {expr : Expr} (h : Built levels expr) : Built (levels + 1) expr
  | number {levels : Nat} {n : Binary64} (h : n.isWritable = true) : Built (levels + 1) (.number n)
  | literal {levels : Nat} {s : String} (h : isQuotable s = true) : Built (levels + 1) (.literal s)
  | call {levels : Nat} {function : CoreFunction} {arguments : List Expr} {call : Expr}
      (hCall : function.call? arguments = some call)
      (hArguments : ∀ argument ∈ arguments, Built levels argument) : Built (levels + 1) call
  | path {levels : Nat} {absolute : Bool} {steps : List Step} (hSome : absolute = true ∨ steps ≠ [])
      (hTests : ∀ step ∈ steps, step.test.isWritable = true)
      (hSteps : ∀ step ∈ steps, ∀ predicate ∈ step.predicates, Built levels predicate) :
      Built (levels + 1) (.path absolute steps)
  | filter {levels : Nat} {primary : Expr} {predicates : List Expr} {steps : List Step}
      (hPrimary : Built (levels + 1) primary) (hSome : predicates ≠ [] ∨ steps ≠ [])
      (hPredicates : ∀ predicate ∈ predicates, Built levels predicate)
      (hTests : ∀ step ∈ steps, step.test.isWritable = true)
      (hSteps : ∀ step ∈ steps, ∀ predicate ∈ step.predicates, Built levels predicate) :
      Built (levels + 1) (.filter primary predicates steps)

/-- Whether a reader makes only expressions that are built with so many levels. -/
def Builds (levels : Nat) (reader : Reader Expr) : Prop :=
  ∀ s, Yields (reader s) fun read => Built levels read.1

/-- Whether all of some expressions are built with so many levels. -/
def AllBuilt (levels : Nat) (exprs : List Expr) : Prop :=
  ∀ expr ∈ exprs, Built levels expr

/-- Whether steps have node tests that can be written, and predicates that are built. -/
def StepsBuilt (levels : Nat) (steps : List Step) : Prop :=
  ∀ step ∈ steps, step.test.isWritable = true ∧ AllBuilt levels step.predicates

section Lexeme

/-- The tests with parentheses are those without a name of their own. -/
theorem yields_nodeType (word : String) :
    Yields (nodeType word) fun test => test.isWritable = true := by
  rw [nodeType]
  split
  · exact yields_ok rfl
  · split
    · exact yields_ok rfl
    · split <;> exact yields_error _

theorem yields_nodeTest (s : List Char) :
    Yields (nodeTest s) fun read => read.1.isWritable = true := by
  rw [nodeTest]
  split
  · exact yields_ok rfl
  · have hName : ∀ start, Yields (name start) fun read => isName read.1.toList = true :=
      fun start read hRead => (name_eq_ok_iff.1 hRead).2.1
    refine (hName _).bind fun read hWord => ?_
    dsimp only
    split
    · exact yields_error _
    · split
      · split
        · exact yields_error _
        · rename_i test hTest
          exact yields_bind fun rest => yields_ok (yields_nodeType read.1 test hTest)
      · exact yields_ok hWord

theorem isWritable_numberLiteral (s : List Char) :
    (numberLiteral s).1.isWritable = true := by
  rw [numberLiteral]
  split <;> exact Binary64.isWritable_ofDecimal _ _

end Lexeme

section Nested

variable {levels : Nat} {nested : Reader Expr}

theorem allBuilt_nil : AllBuilt levels [] :=
  List.forall_mem_nil _

theorem stepsBuilt_nil : StepsBuilt levels [] :=
  List.forall_mem_nil _

/-- The steps that are abbreviated are built with any number of levels. -/
theorem stepsBuilt_cons_anyNode {axis : Axis} {steps : List Step} (h : StepsBuilt levels steps) :
    StepsBuilt levels (.mk axis .anyNode [] :: steps) :=
  List.forall_mem_cons.2 ⟨⟨rfl, allBuilt_nil⟩, h⟩

theorem built_path {absolute : Bool} {steps : List Step} (hSome : absolute = true ∨ steps ≠ [])
    (hSteps : StepsBuilt levels steps) :
    Built (levels + 1) (.path absolute steps) :=
  .path hSome (fun step hMem => (hSteps step hMem).1) fun step hMem => (hSteps step hMem).2

variable (h : Builds levels nested)
include h

theorem yields_predicatesWithin (bound : Nat) (s : List Char) :
    Yields (predicatesWithin nested bound s) fun read => AllBuilt levels read.1 := by
  induction bound generalizing s with
  | zero => exact yields_ok allBuilt_nil
  | succ bound ih =>
      rw [predicatesWithin]
      split
      · refine (h _).bind fun read hPredicate => ?_
        refine yields_bind fun rest => ?_
        exact (ih rest).bind fun others hOthers =>
          yields_ok (List.forall_mem_cons.2 ⟨hPredicate, hOthers⟩)
      · exact yields_ok allBuilt_nil

theorem yields_step (s : List Char) :
    Yields (step nested s) fun read =>
      read.1.test.isWritable = true ∧ AllBuilt levels read.1.predicates := by
  rw [step]
  split
  · exact yields_ok ⟨rfl, allBuilt_nil⟩
  · exact yields_ok ⟨rfl, allBuilt_nil⟩
  · refine yields_bind fun axis => ?_
    refine (yields_nodeTest _).bind fun test hTest => ?_
    exact (yields_predicatesWithin h _ _).bind fun predicates hPredicates =>
      yields_ok ⟨hTest, hPredicates⟩

theorem yields_pathTailWithin (bound : Nat) (s : List Char) :
    Yields (pathTailWithin nested bound s) fun read => StepsBuilt levels read.1 := by
  induction bound generalizing s with
  | zero => exact yields_ok stepsBuilt_nil
  | succ bound ih =>
      rw [pathTailWithin]
      split
      · refine (yields_step h _).bind fun next hNext => ?_
        exact (ih _).bind fun others hOthers =>
          yields_ok (stepsBuilt_cons_anyNode (List.forall_mem_cons.2 ⟨hNext, hOthers⟩))
      · refine (yields_step h _).bind fun next hNext => ?_
        exact (ih _).bind fun others hOthers => yields_ok (List.forall_mem_cons.2 ⟨hNext, hOthers⟩)
      · exact yields_ok stepsBuilt_nil

theorem yields_relativePath (s : List Char) :
    Yields (relativePath nested s) fun read => read.1 ≠ [] ∧ StepsBuilt levels read.1 := by
  refine (yields_step h s).bind fun first hFirst => ?_
  exact (yields_pathTailWithin h _ _).bind fun others hOthers =>
    yields_ok ⟨List.cons_ne_nil _ _, List.forall_mem_cons.2 ⟨hFirst, hOthers⟩⟩

theorem builds_locationPath : Builds (levels + 1) (locationPath nested) := by
  intro s
  rw [locationPath.eq_def]
  split
  · exact (yields_relativePath h _).bind fun steps hSteps =>
      yields_ok (built_path (.inl rfl) (stepsBuilt_cons_anyNode hSteps.2))
  · split
    · exact (yields_relativePath h _).bind fun steps hSteps =>
        yields_ok (built_path (.inl rfl) hSteps.2)
    · exact yields_ok (built_path (.inl rfl) stepsBuilt_nil)
  · exact (yields_relativePath h _).bind fun steps hSteps =>
      yields_ok (built_path (.inr hSteps.1) hSteps.2)

theorem yields_argumentsWithin (bound : Nat) (s : List Char) :
    Yields (argumentsWithin nested bound s) fun read => AllBuilt levels read.1 := by
  induction bound generalizing s with
  | zero => exact yields_ok allBuilt_nil
  | succ bound ih =>
      rw [argumentsWithin]
      refine (h s).bind fun argument hArgument => ?_
      dsimp only
      split
      · exact (ih _).bind fun others hOthers =>
          yields_ok (List.forall_mem_cons.2 ⟨hArgument, hOthers⟩)
      · exact yields_ok (List.forall_mem_cons.2 ⟨hArgument, allBuilt_nil⟩)

theorem yields_arguments (s : List Char) :
    Yields (arguments nested s) fun read => AllBuilt levels read.1 := by
  rw [arguments]
  split
  · exact yields_ok allBuilt_nil
  · refine (yields_argumentsWithin h _ _).bind fun read hArguments => ?_
    exact yields_bind fun rest => yields_ok hArguments

theorem builds_functionCall : Builds (levels + 1) (functionCall nested) := by
  intro s
  rw [functionCall]
  refine yields_bind fun word => yields_bind fun rest => ?_
  refine (yields_arguments h _).bind fun arguments hArguments => ?_
  dsimp only
  split
  · rename_i call hCall
    rw [Parse.call] at hCall
    split at hCall
    · cases hCall
    · split at hCall
      · rename_i hFunction
        cases hCall
        exact yields_ok (.call hFunction hArguments)
      · cases hCall
  · exact yields_error _

theorem builds_primary : Builds (levels + 1) (primary nested) := by
  intro s
  rw [primary.eq_def]
  split
  · refine (h _).bind fun inner hInner => ?_
    exact yields_bind fun rest => yields_ok (.group hInner)
  · exact yields_error _
  · split
    · split
      · rename_i c _ hQuote
        have hLiteral : ∀ body, Yields (textLiteral c body) fun read => isQuotable read.1 = true := by
          intro body read hRead
          have hAbsent := (textLiteral_eq_ok_iff.1 hRead).2
          rw [Bool.or_eq_true, decide_eq_true_eq, decide_eq_true_eq] at hQuote
          rcases hQuote with rfl | rfl <;> simp [isQuotable, hAbsent]
        exact (hLiteral _).bind fun literal hQuotable => yields_ok (.literal hQuotable)
      · split
        · exact yields_ok (.number (isWritable_numberLiteral _))
        · exact builds_functionCall h _
    · exact builds_functionCall h _

theorem builds_filterExpr : Builds (levels + 1) (filterExpr nested) := by
  intro s
  rw [filterExpr]
  refine (builds_primary h s).bind fun first hFirst => ?_
  refine (yields_predicatesWithin h _ _).bind fun predicates hPredicates => ?_
  refine (yields_pathTailWithin h _ _).bind fun steps hSteps => ?_
  dsimp only
  split
  · exact yields_ok hFirst
  · rename_i hSome
    rw [Bool.and_eq_true, List.isEmpty_iff, List.isEmpty_iff, not_and_or] at hSome
    exact yields_ok (.filter hFirst hSome hPredicates (fun step hMem => (hSteps step hMem).1)
      fun step hMem => (hSteps step hMem).2)

theorem builds_pathExpr : Builds (levels + 1) (pathExpr nested) := by
  intro s
  rw [pathExpr]
  split
  · exact yields_error _
  · split
    · exact builds_filterExpr h _
    · split
      · exact builds_locationPath h _
      · exact yields_error _

end Nested

section Levels

variable {levels : Nat} {operator? : OperatorReader} {operand nested : Reader Expr}

theorem builds_chain (h : Builds levels operand) : Builds levels (chain operator? operand) := by
  have hWithin : ∀ bound left s, Built levels left →
      Yields (chainWithin operator? operand bound left s) fun read => Built levels read.1 := by
    intro bound
    induction bound with
    | zero => exact fun left s hLeft => yields_ok hLeft
    | succ bound ih =>
        intro left s hLeft
        rw [chainWithin]
        split
        · exact yields_ok hLeft
        · exact (h _).bind fun right hRight => ih _ _ (.operator _ hLeft hRight)
  exact fun s => (h s).bind fun first hFirst => hWithin _ _ _ hFirst

theorem builds_binaryLevels (h : Builds levels operand) : Builds levels (binaryLevels operand) :=
  builds_chain (builds_chain (builds_chain (builds_chain (builds_chain (builds_chain h)))))

theorem builds_signed (hOperand : Builds levels operand) (hNested : Builds levels nested) :
    Builds (levels + 1) (signed operand nested) := by
  intro s
  rw [signed]
  split
  · exact (hOperand _).bind fun inner hInner => yields_ok (.negate hInner)
  · exact builds_chain (builds_pathExpr hNested) _

theorem builds_unary (levels : Nat) : Builds (levels + 1) (unary levels) := by
  induction levels with
  | zero => exact fun s => builds_signed (fun _ => yields_error _) (fun _ => yields_error _) s
  | succ levels ih => exact fun s => builds_signed ih (builds_binaryLevels ih) s

end Levels

end Parse

/-- Whatever a text is read as is built with as many levels as are allowed. -/
theorem built_of_parse_eq_ok {text : String} {expr : Expr} (h : parse text = .ok expr) :
    Parse.Built Parse.maxNesting expr := by
  rw [parse] at h
  split at h
  · rename_i read hRead
    cases h
    have hWhole : Yields (Parse.whole text.toList) fun read => Parse.Built Parse.maxNesting read := by
      refine (Parse.builds_binaryLevels (Parse.builds_unary _) _).bind fun read hExpr => ?_
      dsimp only
      split
      · exact yields_ok hExpr
      · exact yields_error _
    exact hWhole _ hRead
  · cases h

end CborPath
