import ExprTree.Eval.Expand
import ExprTree.Proofs.Parallel

/-!
# Trees without identities

Every node that is made has an identity of its own, and so has every captured failure. Two runs that
make the same tree make it of nodes with other identities. The trees are the same once the identities
are left out, and `Expr.anonymous` leaves them out everywhere: in the tree, in the values of its
constants, which may quote trees or hold failures, and in the failures, which quote the trees that they
arose in. The identity of the declaration that a parameter refers to is no identity of a node, and
stays.

## Main definitions

* `Expr.anonymous`, `Value.anonymous`, `EvalError.anonymous`: identities left out.

## Main results

* `Expr.children_anonymous`, `Expr.anonymous_rebuild`: leaving out identities goes child by child.
-/

set_option autoImplicit false

namespace ExprTree

/-- A stamp that says only the type. -/
def Stamp.anonymous (s : Stamp) : Stamp := { s with node := 0 }

/-- An occurrence of a parameter, whichever it is. -/
def Param.anonymous (p : Param) : Param := { p with node := 0 }

mutual

/-- A value, the identities of nodes and failures aside. -/
def Value.anonymous : Value → Value
  | .array t items => .array t (Value.anonymousAll items)
  | .object id c state => .object id c (Value.anonymousAll state)
  | .lambda e => .lambda e.anonymous
  | .error d => .error d.anonymous
  | v => v

/-- Values, the identities of nodes and failures aside. -/
def Value.anonymousAll : List Value → List Value
  | [] => []
  | v :: vs => v.anonymous :: Value.anonymousAll vs

/-- A tree, the identities of nodes and failures aside. -/
def Expr.anonymous : Expr → Expr
  | .constant s v => .constant s.anonymous v.anonymous
  | .parameter p => .parameter p.anonymous
  | .binary s op lifting method l r c =>
    .binary s.anonymous op lifting method l.anonymous r.anonymous (Expr.anonymousOption c)
  | .unary s op lifted method x => .unary s.anonymous op lifted method x.anonymous
  | .conditional s q x y => .conditional s.anonymous q.anonymous x.anonymous y.anonymous
  | .member s r d => .member s.anonymous (Expr.anonymousOption r) d
  | .call s r method args =>
    .call s.anonymous (Expr.anonymousOption r) method (Expr.anonymousAll args)
  | .new s ctor args => .new s.anonymous ctor (Expr.anonymousAll args)
  | .newArray s t items => .newArray s.anonymous t (Expr.anonymousAll items)
  | .index s r indexer args => .index s.anonymous r.anonymous indexer (Expr.anonymousAll args)
  | .typeIs s x t => .typeIs s.anonymous x.anonymous t
  | .lambda s ps b => .lambda s.anonymous (ps.map Param.anonymous) b.anonymous
  | .raise s x => .raise s.anonymous x.anonymous
  | .extension s kind operands => .extension s.anonymous kind (Expr.anonymousAll operands)

/-- A tree that may be there, the identities of nodes and failures aside. -/
def Expr.anonymousOption : Option Expr → Option Expr
  | none => none
  | some e => some e.anonymous

/-- Trees, the identities of nodes and failures aside. -/
def Expr.anonymousAll : List Expr → List Expr
  | [] => []
  | e :: es => e.anonymous :: Expr.anonymousAll es

/-- A captured failure, whichever it is. -/
def Deferred.anonymous : Deferred → Deferred
  | .mk _ cause => .mk 0 cause.anonymous

/-- A failure, the identities of nodes and failures aside. -/
def Failure.anonymous : Failure → Failure
  | .host message => .host message
  | .eval e => .eval e.anonymous
  | .expansion rule site cause => .expansion rule site.anonymous cause.anonymous

/-- A failure of evaluation, the identities of nodes and failures aside. -/
def EvalError.anonymous : EvalError → EvalError
  | .deferred d => .deferred d.anonymous
  | .expansion rule site cause => .expansion rule site.anonymous cause.anonymous
  | .structural e => .structural e.anonymous
  | .dynamic site cause => .dynamic site.anonymous cause.anonymous
  | e => e

/-- A failure to compare trees, the identities of nodes and failures aside. -/
def StructureError.anonymous : StructureError → StructureError
  | .unsupported kind => .unsupported kind
  | .comparison left right cause => .comparison left.anonymous right.anonymous cause.anonymous

end

namespace Expr

theorem anonymousOption_eq (e : Option Expr) : anonymousOption e = e.map anonymous := by
  cases e <;> rfl

theorem anonymousAll_eq (es : List Expr) : anonymousAll es = es.map anonymous := by
  induction es with
  | nil => rfl
  | cons e es ih => rw [anonymousAll, ih, List.map_cons]

theorem ty_anonymous (e : Expr) : e.anonymous.ty = e.ty := by
  cases e <;> rfl

theorem siteMember?_anonymous (e : Expr) :
    Registry.siteMember? e.anonymous = Registry.siteMember? e := by
  cases e <;> rfl

theorem children_anonymous (e : Expr) : e.anonymous.children = e.children.map anonymous := by
  cases e with
  | binary s op lifting method l r c => cases c <;> rfl
  | member s r d => cases r <;> rfl
  | call s r method args => cases r <;> simp [anonymous, anonymousOption_eq, anonymousAll_eq, children]
  | _ => simp [anonymous, anonymousAll_eq, children]

theorem map_refill {α β : Type} (f : α → β) (olds news : List α) :
    (refill olds news).map f = refill (olds.map f) (news.map f) := by
  induction olds generalizing news with
  | nil => rfl
  | cons a olds ih =>
    cases news with
    | nil => rfl
    | cons b news => simp [refill, ih]

/-- A rebuilt node, without identities, is the node rebuilt without them. -/
theorem anonymous_rebuild (n : NodeId) (e : Expr) (news : List Expr) :
    (e.rebuild n news).anonymous = e.anonymous.rebuild 0 (news.map anonymous) := by
  cases e with
  | binary s op lifting method l r c =>
    cases c <;> simp [rebuild, anonymous, anonymousOption, Stamp.anonymous]
  | member s r d => cases r <;> simp [rebuild, anonymous, anonymousOption, Stamp.anonymous]
  | call s r method args =>
    cases r <;> simp [rebuild, anonymous, anonymousOption, anonymousAll_eq, map_refill, Stamp.anonymous]
  | _ => simp [rebuild, anonymous, anonymousAll_eq, map_refill, Stamp.anonymous]

end Expr

end ExprTree
