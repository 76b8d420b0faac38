import ExprTree.Expr.Basic

/-!
# Walking expression trees

Every walk over a tree that treats all kinds of nodes alike is a fold: it computes something for a
node from the node and what was computed for its children, in order. `fold_eq` says so once, and the
walks built on `fold` inherit it. The results for the children are computed when they are asked for,
so a walk that stops at a node does not visit what is below.

## Main definitions

* `Expr.fold`: the fold.
* `Expr.preOrder`: all nodes, each before its children, left to right.
* `Expr.constants`: the values of the constant nodes in that order.
* `Expr.freeOccurrences`, `Expr.freeParameters`, `Expr.isClosed`: parameters that no lambda of the
  tree declares.

## Main results

* `Expr.fold_eq`: the equation of the fold.
* `Expr.sizeOf_lt_of_mem_children`: children are smaller than their parent.
* `Expr.preOrder_eq`, `Expr.freeOccurrences_eq`: the equations of the walks. The walks put what they
  find in front of a list, so that their cost is the size of the tree whatever its shape.
-/

set_option autoImplicit false

namespace ExprTree.Expr

universe u

variable {α : Type u}

/-! ### The fold -/

mutual

/-- Combine a node with the results for its children. -/
def fold (f : Expr → (Unit → List α) → α) (e : Expr) : α :=
  f e fun _ => match e with
    | constant .. | parameter _ => []
    | binary _ _ _ _ left right conversion =>
      fold f left :: fold f right :: foldOption f conversion
    | unary _ _ _ _ operand => [fold f operand]
    | conditional _ test ifTrue ifFalse => [fold f test, fold f ifTrue, fold f ifFalse]
    | member _ receiver _ => foldOption f receiver
    | call _ receiver _ args => foldOption f receiver ++ foldAll f args
    | new _ _ args => foldAll f args
    | newArray _ _ items => foldAll f items
    | index _ receiver _ args => fold f receiver :: foldAll f args
    | typeIs _ operand _ => [fold f operand]
    | lambda _ _ body => [fold f body]
    | raise _ payload => [fold f payload]
    | extension _ _ operands => foldAll f operands

/-- The result for an optional child. -/
def foldOption (f : Expr → (Unit → List α) → α) : Option Expr → List α
  | none => []
  | some e => [fold f e]

/-- The results for several children. -/
def foldAll (f : Expr → (Unit → List α) → α) : List Expr → List α
  | [] => []
  | e :: es => fold f e :: foldAll f es

end

theorem foldOption_eq_map (f : Expr → (Unit → List α) → α) (e : Option Expr) :
    foldOption f e = e.toList.map (fold f) := by
  cases e <;> simp [foldOption]

theorem foldAll_eq_map (f : Expr → (Unit → List α) → α) (es : List Expr) :
    foldAll f es = es.map (fold f) := by
  induction es with
  | nil => simp [foldAll]
  | cons e es ih => simp [foldAll, ih]

/-- The fold of a node is a function of the node and the folds of its children. -/
theorem fold_eq (f : Expr → (Unit → List α) → α) (e : Expr) :
    fold f e = f e fun _ => e.children.map (fold f) := by
  cases e <;> simp [fold, children, foldOption_eq_map, foldAll_eq_map]

theorem sizeOf_lt_of_mem_option {o : Option Expr} {c : Expr} (h : c ∈ o.toList) :
    sizeOf c < sizeOf o := by
  cases o with
  | none => simp at h
  | some e => simp_all

/-- Children are smaller than their parent. -/
theorem sizeOf_lt_of_mem_children {e c : Expr} (h : c ∈ e.children) : sizeOf c < sizeOf e := by
  cases e <;> simp only [children, List.mem_cons, List.mem_append, List.not_mem_nil, or_false] at h
  case binary =>
    rcases h with rfl | rfl | h
    · simp +arith
    · simp +arith
    · have := sizeOf_lt_of_mem_option h
      simp +arith
      omega
  case unary => subst h; simp +arith
  case conditional => rcases h with rfl | rfl | rfl <;> simp +arith
  case member =>
    have := sizeOf_lt_of_mem_option h
    simp +arith
    omega
  case call =>
    rcases h with h | h
    · have := sizeOf_lt_of_mem_option h
      simp +arith
      omega
    · have := List.sizeOf_lt_of_mem h
      simp +arith
      omega
  case new => have := List.sizeOf_lt_of_mem h; simp +arith; omega
  case newArray => have := List.sizeOf_lt_of_mem h; simp +arith; omega
  case index =>
    rcases h with rfl | h
    · simp +arith
    · have := List.sizeOf_lt_of_mem h
      simp +arith
      omega
  case typeIs => subst h; simp +arith
  case lambda => subst h; simp +arith
  case raise => subst h; simp +arith
  case extension => have := List.sizeOf_lt_of_mem h; simp +arith; omega

/-- To prove something of all trees, prove it of a tree whose children have it. -/
theorem induction_children {motive : Expr → Prop}
    (step : ∀ e, (∀ c ∈ e.children, motive c) → motive e) (e : Expr) : motive e :=
  step e fun c _h => induction_children step c
termination_by e
decreasing_by exact sizeOf_lt_of_mem_children _h

/-! ### Walks -/

/-- Functions that put something in front of a list, applied one after the other. -/
def putAll {β : Type} (fs : List (List β → List β)) (rest : List β) : List β :=
  fs.foldr (fun f rest => f rest) rest

theorem putAll_map_eq {β γ : Type} {cs : List γ} {f : γ → List β → List β} {g : γ → List β}
    (h : ∀ c ∈ cs, ∀ rest, f c rest = g c ++ rest) (rest : List β) :
    putAll (cs.map f) rest = cs.flatMap g ++ rest := by
  induction cs with
  | nil => rfl
  | cons c cs ih =>
    have ih := ih fun c hc => h c (List.mem_cons_of_mem _ hc)
    simp only [putAll, List.map_cons, List.foldr_cons] at ih ⊢
    rw [ih, h c List.mem_cons_self, List.flatMap_cons, List.append_assoc]

/-- The nodes of a tree in pre-order, in front of `rest`. -/
def preOrderOnto : Expr → (rest : List Expr) → List Expr :=
  fold fun e below rest => e :: putAll (below ()) rest

/-- All nodes of a tree, each before its children, left to right. -/
def preOrder (e : Expr) : List Expr := e.preOrderOnto []

theorem preOrderOnto_cons (e : Expr) (rest : List Expr) :
    e.preOrderOnto rest = e :: putAll (e.children.map preOrderOnto) rest := by
  rw [preOrderOnto, fold_eq]

theorem preOrderOnto_eq (e : Expr) (rest : List Expr) :
    e.preOrderOnto rest = e.preOrder ++ rest := by
  induction e using induction_children generalizing rest with
  | step e ih =>
    rw [preOrder, preOrderOnto_cons, preOrderOnto_cons, putAll_map_eq ih, putAll_map_eq ih,
      List.append_nil, List.cons_append]

theorem preOrder_eq (e : Expr) : e.preOrder = e :: e.children.flatMap preOrder := by
  rw [preOrder, preOrderOnto_cons, putAll_map_eq fun c _ => preOrderOnto_eq c, List.append_nil]

/-- The values of the constant nodes, in pre-order. -/
def constants (e : Expr) : List Value := e.preOrder.filterMap constant?

/-- The parameters that are bound below a node where those of `bound` are bound. -/
def boundBelow (bound : List ParamId) : Expr → List ParamId
  | lambda _ params _ => params.map Param.id ++ bound
  | _ => bound

/-- The free occurrences of parameters in a tree, in front of `rest`. -/
def freeOccurrencesOnto : Expr → (bound : List ParamId) → (rest : List Param) → List Param :=
  fold fun e below bound rest =>
    match e with
    | parameter p => if p.id ∈ bound then rest else p :: rest
    | e => putAll ((below ()).map fun onto => onto (e.boundBelow bound)) rest

/-- The occurrences of parameters that are neither in `bound` nor declared by an enclosing lambda
of the tree, in pre-order. -/
def freeOccurrences (e : Expr) (bound : List ParamId) : List Param := e.freeOccurrencesOnto bound []

theorem freeOccurrencesOnto_cons (e : Expr) (bound : List ParamId) (rest : List Param) :
    e.freeOccurrencesOnto bound rest =
      match e with
      | parameter p => if p.id ∈ bound then rest else p :: rest
      | e => putAll (e.children.map (·.freeOccurrencesOnto (e.boundBelow bound))) rest := by
  rw [freeOccurrencesOnto, fold_eq]
  split
  · rfl
  · simp only [List.map_map]
    rfl

theorem freeOccurrencesOnto_eq (e : Expr) (bound : List ParamId) (rest : List Param) :
    e.freeOccurrencesOnto bound rest = e.freeOccurrences bound ++ rest := by
  induction e using induction_children generalizing bound rest with
  | step e ih =>
    rw [freeOccurrences, freeOccurrencesOnto_cons, freeOccurrencesOnto_cons]
    split
    · split <;> rfl
    · rw [putAll_map_eq fun c hc => ih c hc _, putAll_map_eq fun c hc => ih c hc _,
        List.append_nil]

theorem freeOccurrences_eq (e : Expr) (bound : List ParamId) :
    e.freeOccurrences bound =
      match e with
      | parameter p => if p.id ∈ bound then [] else [p]
      | e => e.children.flatMap (·.freeOccurrences (e.boundBelow bound)) := by
  rw [freeOccurrences, freeOccurrencesOnto_cons]
  split
  · rfl
  · rw [putAll_map_eq fun c _ => freeOccurrencesOnto_eq c _, List.append_nil]

/-- The parameter nodes that no lambda of the tree declares. A node that occurs several times is
listed once. -/
def freeParameters (e : Expr) : List Param :=
  (e.freeOccurrences []).eraseDupsBy fun p q => p.node == q.node

/-- Whether the tree refers only to parameters it declares itself. -/
def isClosed (e : Expr) : Bool := (e.freeOccurrences []).isEmpty

end ExprTree.Expr
