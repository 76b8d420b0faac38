import ExprTree.Expr.Fold
import ExprTree.Value.Basic

/-!
# Structural equality

Two trees are structurally equal when they have the same shape: kinds, operators, lifting, static
types, members and, if asked, constant values agree position by position. Parameters are matched by
name and type, so two trees built apart can be equal.

Foreign constructs are not compared: such a node is equal to itself, and meeting two of one kind is
a failure, not an answer. Everything else is compared by what it looks like, so a tree is equal to
itself whatever it holds.

Trees share subtrees, so a tree can be far smaller in memory than it is when it is walked. Two
handles of one object are therefore equal at once. That this is the answer of the walk, too, has to
be known where the walk is defined: the comparison comes with the proof that it finds every tree
equal to itself.

## Main definitions

* `Verdict`: an answer that is positive where a proposition holds.
* `Verdict.sharing`: an answer that is not computed for two handles of one object.
* `Expr.slots`: the children by the places they stand in.
* `Expr.isAlike`: whether two nodes agree, their children aside.
* `Expr.equalNodes`: the comparison as it goes down the trees.
* `Expr.equalLists`: the comparison of what two nodes have in one place.
* `Expr.structEq`: the comparison of two whole trees, whose failure names both.
* `Expr.validate`: refuses trees with foreign constructs.

## Main results

* `Expr.equalNodes_eq`: the equation of the comparison.
* `Expr.equalNodes_self`: a tree is equal to itself.
-/

set_option autoImplicit false

namespace ExprTree

namespace Param

/-- Whether two parameters match: they have the same name and type. -/
def matchesShape (p q : Param) : Bool := p.ty = q.ty && p.name = q.name

end Param

/-- The outcome of a comparison, which is positive where `p` holds. -/
abbrev Verdict (p : Prop) := { answer : Except StructureError Bool // p → answer = .ok true }

namespace Verdict

/-- Whether the answer is positive. -/
def isPositive {p : Prop} (v : Verdict p) : Bool :=
  match v.val with
  | .ok answer => answer
  | .error _ => false

theorem isPositive_iff {p : Prop} (v : Verdict p) : v.isPositive = true ↔ v.val = .ok true := by
  unfold isPositive
  split <;> simp_all

/-- The verdict on `a` and `b`. It is positive, and not computed, if both are the same object in
memory. -/
@[inline] def sharing {α : Type} (a b : α) (verdict : Thunk (Verdict (a = b))) : Verdict (a = b) :=
  if withPtrEq a b (fun _ => verdict.get.isPositive) fun h =>
      verdict.get.isPositive_iff.2 (verdict.get.property h) then
    ⟨.ok true, fun _ => rfl⟩
  else verdict.get

theorem sharing_eq {α : Type} (a b : α) (verdict : Thunk (Verdict (a = b))) :
    sharing a b verdict = verdict.get := by
  unfold sharing
  split
  · next h => exact Subtype.ext (verdict.get.isPositive_iff.1 h).symm
  · rfl

end Verdict

namespace Expr

/-! ### One level -/

/-- The children of a node by the places they stand in. A place holds one child, a child that may
be missing, or a list of arguments. -/
def slots : Expr → List (List Expr)
  | constant .. | parameter _ => []
  | binary _ _ _ _ left right conversion => [[left], [right], conversion.toList]
  | unary _ _ _ _ operand => [[operand]]
  | conditional _ test ifTrue ifFalse => [[test], [ifTrue], [ifFalse]]
  | member _ receiver _ => [receiver.toList]
  | call _ receiver _ args => [receiver.toList, args]
  | new _ _ args => [args]
  | newArray _ _ items => [items]
  | index _ receiver _ args => [[receiver], args]
  | typeIs _ operand _ => [[operand]]
  | lambda _ _ body => [[body]]
  | raise _ payload => [[payload]]
  | extension _ _ operands => [operands]

theorem flatten_slots (e : Expr) : e.slots.flatten = e.children := by
  cases e <;> simp [slots, children]

theorem mem_children_of_mem_slots {e c : Expr} {cs : List Expr} (hcs : cs ∈ e.slots)
    (hc : c ∈ cs) : c ∈ e.children := by
  rw [← flatten_slots]
  exact List.mem_flatten.2 ⟨cs, hcs, hc⟩

/-- Compare two parameter lists. -/
def equalParams : List Param → List Param → Bool
  | [], [] => true
  | p :: ps, q :: qs => p.matchesShape q && equalParams ps qs
  | _, _ => false

theorem equalParams_self (ps : List Param) : equalParams ps ps = true := by
  induction ps with
  | nil => rfl
  | cons p ps ih => simp [equalParams, Param.matchesShape, ih]

/-- Whether two nodes agree in kind, type and what else they say besides their children. With
`ignoreConstants` the values of constants are not looked at. -/
def isAlike (ignoreConstants : Bool) (a b : Expr) : Bool :=
  a.kind = b.kind && a.ty = b.ty &&
    match a, b with
    | constant _ v, constant _ w => ignoreConstants || v == w
    | parameter p, parameter q => p.name = q.name
    | binary _ _ lifting method .., binary _ _ lifting' method' .. =>
      lifting = lifting' && method = method'
    | unary _ _ lifted method _, unary _ _ lifted' method' _ =>
      lifted = lifted' && method = method'
    | member _ _ d, member _ _ d' => d = d'
    | call _ _ method _, call _ _ method' _ => method = method'
    | new _ ctor _, new _ ctor' _ => ctor = ctor'
    | newArray _ element _, newArray _ element' _ => element = element'
    | index _ _ indexer _, index _ _ indexer' _ => indexer = indexer'
    | typeIs _ _ target, typeIs _ _ target' => target = target'
    | lambda _ params _, lambda _ params' _ => equalParams params params'
    | _, _ => true

theorem isAlike_self (ignoreConstants : Bool) (e : Expr) : isAlike ignoreConstants e e = true := by
  cases e <;> simp [isAlike, equalParams_self]

/-- The foreign construct that a node is. -/
def foreignKind? : Expr → Option ForeignKind
  | extension _ kind _ => some kind
  | _ => none

/-- Compare the children in one place by `eq`, in order and as far as they agree. Different numbers
of children are told apart without looking inside. -/
def equalAll (as bs : List Expr) (eq : (c : Expr) → c ∈ as → Expr → Except StructureError Bool) :
    Except StructureError Bool :=
  if as.length = bs.length then
    (as.zip bs).attach.allM fun p => eq p.val.1 (List.of_mem_zip p.property).1 p.val.2
  else .ok false

/-- Compare the children of two nodes by `eq`, place by place as far as they agree. -/
def equalChildren (a b : Expr)
    (eq : (c : Expr) → c ∈ a.children → Expr → Except StructureError Bool) :
    Except StructureError Bool :=
  (a.slots.zip b.slots).attach.allM fun p =>
    equalAll p.val.1 p.val.2 fun c hc =>
      eq c (mem_children_of_mem_slots (List.of_mem_zip p.property).1 hc)

/-- Compare two nodes, their children by `eq`. -/
def equalStep (ignoreConstants : Bool) (a b : Expr)
    (eq : (c : Expr) → c ∈ a.children → Expr → Except StructureError Bool) :
    Except StructureError Bool :=
  if isAlike ignoreConstants a b then
    match a.foreignKind? with
    | some kind => if a.same b then .ok true else .error (.unsupported kind)
    | none => equalChildren a b eq
  else .ok false

theorem allM_eq_ok_true {α ε : Type} {f : α → Except ε Bool} {xs : List α}
    (h : ∀ x ∈ xs, f x = .ok true) : xs.allM f = .ok true := by
  induction xs with
  | nil => rfl
  | cons x xs ih =>
    rw [List.allM, h x List.mem_cons_self]
    exact ih fun y hy => h y (List.mem_cons_of_mem _ hy)

theorem allM_attach {α ε : Type} (f : α → Except ε Bool) (xs : List α) :
    (xs.attach.allM fun x => f x.val) = xs.allM f := by
  have map (ys : List { x // x ∈ xs }) : (ys.allM fun y => f y.val) = (ys.map (·.val)).allM f := by
    induction ys with
    | nil => rfl
    | cons y ys ih => rw [List.map_cons, List.allM, List.allM, ih]
  rw [map, List.attach_map_subtype_val]

theorem eq_of_mem_zip_self {α : Type} {x y : α} {xs : List α} (h : (x, y) ∈ xs.zip xs) : x = y := by
  induction xs with
  | nil => simp at h
  | cons z xs ih =>
    rcases List.mem_cons.1 h with h | h
    · cases h
      rfl
    · exact ih h

theorem equalAll_self {as : List Expr}
    {eq : (c : Expr) → c ∈ as → Expr → Except StructureError Bool}
    (h : ∀ c hc, eq c hc c = .ok true) : equalAll as as eq = .ok true := by
  rw [equalAll, if_pos rfl]
  refine allM_eq_ok_true fun ⟨(c, d), hc⟩ _ => ?_
  obtain rfl := eq_of_mem_zip_self hc
  exact h c _

theorem equalStep_self (ignoreConstants : Bool) (a : Expr)
    {eq : (c : Expr) → c ∈ a.children → Expr → Except StructureError Bool}
    (h : ∀ c hc, eq c hc c = .ok true) : equalStep ignoreConstants a a eq = .ok true := by
  rw [equalStep, if_pos (isAlike_self ignoreConstants a)]
  split
  · rw [if_pos (by simp [same])]
  · refine allM_eq_ok_true fun ⟨(cs, ds), hcs⟩ _ => ?_
    obtain rfl := eq_of_mem_zip_self hcs
    exact equalAll_self fun c _ => h c _

/-! ### Whole trees -/

/-- Compare two trees. With `ignoreConstants` the values of constants are not looked at. -/
def equalNodes (ignoreConstants : Bool) (a b : Expr) : Verdict (a = b) :=
  .sharing a b <| .mk fun _ =>
    ⟨equalStep ignoreConstants a b fun c _ d => (equalNodes ignoreConstants c d).val, by
      rintro rfl
      exact equalStep_self _ a fun c _ => (equalNodes ignoreConstants c c).property rfl⟩
termination_by a
decreasing_by all_goals exact sizeOf_lt_of_mem_children ‹_›

/-- Compare lists of trees. Lists of different lengths are told apart without looking inside. -/
def equalLists (ignoreConstants : Bool) : List Expr → List Expr → Except StructureError Bool
  | [], [] => .ok true
  | a :: as, b :: bs =>
    if as.length = bs.length then do
      match ← (equalNodes ignoreConstants a b).val with
      | true => equalLists ignoreConstants as bs
      | false => return false
    else .ok false
  | _, _ => .ok false

theorem equalAll_eq (ignoreConstants : Bool) (as bs : List Expr) :
    (equalAll as bs fun c _ d => (equalNodes ignoreConstants c d).val) =
      equalLists ignoreConstants as bs := by
  rw [equalAll]
  simp only [allM_attach fun p : Expr × Expr => (equalNodes ignoreConstants p.1 p.2).val]
  induction as generalizing bs with
  | nil => cases bs <;> rfl
  | cons a as ih =>
    cases bs with
    | nil => rfl
    | cons b bs =>
      simp only [List.length_cons, Nat.add_right_cancel_iff, equalLists]
      split
      · next h =>
        have ih := ih bs
        rw [if_pos h] at ih
        rw [← ih]
        rfl
      · rfl

theorem equalNodes_eq (ignoreConstants : Bool) (a b : Expr) :
    (equalNodes ignoreConstants a b).val =
      if isAlike ignoreConstants a b then
        match a.foreignKind? with
        | some kind => if a.same b then .ok true else .error (.unsupported kind)
        | none => (a.slots.zip b.slots).allM fun p => equalLists ignoreConstants p.1 p.2
      else .ok false := by
  rw [equalNodes, Verdict.sharing_eq]
  change equalStep ignoreConstants a b _ = _
  simp only [equalStep, equalChildren, equalAll_eq,
    allM_attach fun p : List Expr × List Expr => equalLists ignoreConstants p.1 p.2]

theorem equalNodes_self (ignoreConstants : Bool) (e : Expr) :
    (equalNodes ignoreConstants e e).val = .ok true :=
  (equalNodes ignoreConstants e e).property rfl

/-- Whether two trees are structurally equal. -/
def structEq (a b : Expr) (ignoreConstants : Bool) : Except StructureError Bool :=
  match (equalNodes ignoreConstants a b).val with
  | .ok answer => .ok answer
  | .error cause => .error (.comparison a b cause)

/-- Refuse a tree with a foreign construct, naming the first in pre-order. -/
def validate (e : Expr) : Except StructureError Unit :=
  match e.preOrder.findSome? foreignKind? with
  | some kind => .error (.unsupported kind)
  | none => .ok ()

end Expr

end ExprTree
