import ExprTree.Proofs.Interpretation

/-!
# Trees without quotes

A lambda node is a quote where it is an operand, and a value as any other. As the conversion of a
coalesce node it is applied. Equality of values sees which node a quote is, and so do quotes that are
made with a quote in reach, so some statements are about trees in which that does not happen.

## Main definitions

* `Expr.onlyConversions`: the only lambda nodes of a tree are conversions.
* `Expr.ignoresQuotes`: no quote is compared with `==` or `!=` or passed to a conversion.
-/

set_option autoImplicit false

namespace ExprTree.Expr

/-- Whether no operand below is a lambda node. -/
def noLambdaOperands (e : Expr) : Bool :=
  e.preOrder.all fun d => d.operands.all fun c => c.lambda?.isNone

/-- Whether the only lambda nodes of a tree are conversions. -/
def onlyConversions (e : Expr) : Bool := e.lambda?.isNone && e.noLambdaOperands

variable {e c : Expr}

theorem noLambdaOperands_iff :
    e.noLambdaOperands = true ↔ (∀ c ∈ e.operands, c.lambda? = none) ∧
      ∀ c ∈ e.children, c.noLambdaOperands = true := by
  unfold noLambdaOperands
  rw [preOrder_eq]
  simp [List.all_cons, List.all_flatMap]

theorem onlyConversions_operand (h : e.onlyConversions = true) (hc : c ∈ e.operands) :
    c.onlyConversions = true := by
  simp only [onlyConversions, Bool.and_eq_true, Option.isNone_iff_eq_none] at h ⊢
  have below := noLambdaOperands_iff.1 h.2
  exact ⟨below.1 c hc, below.2 c (mem_children_of_mem_operands hc)⟩

theorem lambda?_of_onlyConversions (h : e.onlyConversions = true) : e.lambda? = none := by
  simp only [onlyConversions, Bool.and_eq_true, Option.isNone_iff_eq_none] at h
  exact h.1

theorem onlyConversions_conversion (h : e.onlyConversions = true) (hc : c ∈ e.conversion?)
    (hl : c.lambda? = none) : c.onlyConversions = true := by
  simp only [onlyConversions, Bool.and_eq_true, Option.isNone_iff_eq_none] at h ⊢
  exact ⟨hl, (noLambdaOperands_iff.1 h.2).2 c (mem_children_of_mem_conversion? hc)⟩

theorem onlyConversions_body (h : e.onlyConversions = true) {s : Stamp} {ps : List Param}
    {b : Expr} (hc : lambda s ps b ∈ e.conversion?) : b.onlyConversions = true := by
  simp only [onlyConversions, Bool.and_eq_true, Option.isNone_iff_eq_none] at h ⊢
  have conversion := (noLambdaOperands_iff.1 h.2).2 _ (mem_children_of_mem_conversion? hc)
  have below := noLambdaOperands_iff.1 conversion
  exact ⟨below.1 b List.mem_cons_self, below.2 b List.mem_cons_self⟩

/-! ### Quotes that are told apart -/

/-- Whether a node neither compares quotes nor passes one to a conversion. -/
def ignoresQuotesAt : Expr → Bool
  | binary _ .equal _ none left right _ | binary _ .notEqual _ none left right _ =>
    left.onlyConversions && right.onlyConversions
  | binary _ .coalesce _ none left _ conversion =>
    (conversion.bind lambda?).isNone || left.onlyConversions
  | _ => true

/-- Whether no quote in a tree is compared with `==` or `!=` or passed to a conversion. -/
def ignoresQuotes (e : Expr) : Bool := e.preOrder.all ignoresQuotesAt

theorem ignoresQuotes_iff :
    e.ignoresQuotes = true ↔ e.ignoresQuotesAt = true ∧ ∀ c ∈ e.children, c.ignoresQuotes = true := by
  unfold ignoresQuotes
  rw [preOrder_eq]
  simp [List.all_flatMap]

end ExprTree.Expr
