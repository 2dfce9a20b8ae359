import CborPath.Query.Answer
import CborPath.Query.Expr

/-!
# Comparisons

Atomic values are equal as truth values if either is one, else as numbers if either is one, else as
texts; the order is always that of numbers.  A node-set compares if any of its nodes does.  Only the
empty node-set beside a truth value counts as a truth value itself.
-/

namespace CborPath

/-- Whether two atomic values are equal. -/
def Atomic.equals : Atomic → Atomic → Bool
  | boolean b, y => b == y.toBoolean
  | x, boolean c => x.toBoolean == c
  | number n, y => n.equals y.toNumber
  | x, number m => x.toNumber.equals m
  | text s, text t => s == t

/-- Whether a comparison holds between two atomic values. -/
def Comparison.holds (op : Comparison) (x y : Atomic) : Bool :=
  match op with
  | .equal => x.equals y
  | .notEqual => !x.equals y
  | .less => x.toNumber.less y.toNumber
  | .lessOrEqual => x.toNumber.atMost y.toNumber
  | .greater => y.toNumber.less x.toNumber
  | .greaterOrEqual => y.toNumber.atMost x.toNumber

namespace Answer

variable {P : Type}

/-- Whether a comparison holds between two answers. -/
def compare (nav : Navigator P) (op : Comparison) : Answer P → Answer P → Bool
  | nodes ps, nodes qs => ps.any fun p => qs.any fun q => op.holds (nav.atomic p) (nav.atomic q)
  | nodes [], boolean b => op.holds (.boolean false) (.boolean b)
  | boolean b, nodes [] => op.holds (.boolean b) (.boolean false)
  | nodes ps, y => ps.any fun p => op.holds (nav.atomic p) (y.toAtomic nav)
  | x, nodes qs => qs.any fun q => op.holds (x.toAtomic nav) (nav.atomic q)
  | x, y => op.holds (x.toAtomic nav) (y.toAtomic nav)

end Answer

end CborPath
