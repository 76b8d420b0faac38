import ExprTree.Proofs.StructuralEquality

/-!
# A node and its children

A node is its identity, its children and the rest, which is its head: the kind with its operator,
the static type, lifting, methods and members, the parameters, and how many children stand in each
place. `Expr.eq_of_head` says that nothing is left out. A node that is rebuilt keeps its head, so the
laws of reading and replacing children are equations between lists.

The places are a part of the head, since the children alone do not tell a call on a receiver from a
static call with one more argument.

## Main definitions

* `Expr.head`: what a node says besides its identity and its children.

## Main results

* `Expr.eq_of_head`: identity, head and children determine a node.
* `Expr.head_rebuild`: other children leave the head alone.
* `Expr.sameShape_of_head`: one head over the same children is one shape.
* `Expr.withChildren_lens`: the laws of reading and replacing children.
-/

set_option autoImplicit false

namespace ExprTree.Expr

variable {a b : Expr}

/-! ### Heads -/

/-- What a node says besides its identity and its children. -/
structure Head where
  /-- Kind and operator, static type, lifting, methods and members. -/
  label : Label
  /-- The value of a constant. -/
  value : Option Value
  /-- The parameter that a node refers to, or those that a lambda declares. -/
  params : List Param
  /-- How many children stand in each place. -/
  places : List Nat

/-- The parameters that a node names itself. -/
def namedParams : Expr → List Param
  | parameter p => [p]
  | lambda _ params _ => params
  | _ => []

/-- The head of a node. -/
def head (e : Expr) : Head where
  label := e.label
  value := e.constant?
  params := e.namedParams
  places := e.slots.map List.length

/-- Nodes with one head and the same children have them in the same places. -/
theorem slots_eq_of_head (hhead : a.head = b.head) (hchildren : a.children = b.children) :
    a.slots = b.slots := by
  rw [List.eq_iff_flatten_eq, flatten_slots, flatten_slots]
  exact ⟨hchildren, congrArg Head.places hhead⟩

/-- Identity, head and children are all there is to a node. -/
theorem eq_of_head (hnode : a.node = b.node) (hhead : a.head = b.head)
    (hchildren : a.children = b.children) : a = b := by
  have option (c c' : Option Expr) : c.toList = c'.toList ↔ c = c' := by
    cases c <;> cases c' <;> simp
  -- In the list of children a receiver is one among others, so the slots are compared instead.
  have hslots := slots_eq_of_head hhead hchildren
  simp only [head, label, Head.mk.injEq, Label.mk.injEq] at hhead
  obtain ⟨⟨hkind, hty, hdetail⟩, hvalue, hparams, -⟩ := hhead
  have hstamp : a.stamp = b.stamp := congrArg₂ Stamp.mk hnode hty
  cases a <;> cases b <;> simp only [kind, reduceCtorEq] at hkind
  all_goals simp_all [slots, detail, stamp, constant?, namedParams]

/-! ### Rebuilt nodes -/

theorem length_refill {α : Type} (olds news : List α) :
    (refill olds news).length = olds.length := by
  induction olds generalizing news with
  | nil => rfl
  | cons a olds ih => cases news <;> simp [refill, ih]

/-- Where there are no more replacements than elements, the last elements stay. -/
theorem refill_eq_append {α : Type} {olds news : List α} (h : news.length ≤ olds.length) :
    refill olds news = news ++ olds.drop news.length := by
  induction olds generalizing news with
  | nil => simp [refill, List.eq_nil_of_length_eq_zero (Nat.le_zero.1 h)]
  | cons a olds ih =>
    cases news with
    | nil => rfl
    | cons c news => simp [refill, ih (Nat.le_of_succ_le_succ h)]

/-- Other children leave the head of a node alone. -/
theorem head_rebuild (n : NodeId) (e : Expr) (news : List Expr) :
    (e.rebuild n news).head = e.head := by
  cases e with
  | constant | parameter | unary | conditional | typeIs | lambda | raise => rfl
  | binary s op lifting method l r c => cases c <;> rfl
  | member s r d => cases r <;> rfl
  | call s r method as =>
    cases r <;> simp only [rebuild, head, slots, List.map_cons, length_refill] <;> rfl
  | new | newArray | extension | index =>
    simp only [rebuild, head, slots, List.map_cons, length_refill]
    rfl

theorem rebuild_of_isLeaf {e : Expr} (h : e.isLeaf = true) (n : NodeId) (news : List Expr) :
    e.rebuild n news = e := by
  cases e <;> first | rfl | cases h

theorem node_rebuild {e : Expr} (h : e.isLeaf = false) (n : NodeId) (news : List Expr) :
    (e.rebuild n news).node = n := by
  cases e with
  | constant | parameter => cases h
  | call s r method as => cases r <;> rfl
  | _ => rfl

theorem isLeaf_eq_of_head (h : a.head = b.head) : a.isLeaf = b.isLeaf := by
  have hkind : a.kind = b.kind := congrArg (fun h => h.label.kind) h
  cases a <;> cases b <;> first | rfl | cases hkind

/-- Nodes with one head are rebuilt alike from children for all their places. -/
theorem rebuild_eq_of_head (h : a.head = b.head) (hleaf : a.isLeaf = false) (n : NodeId)
    {news : List Expr} (ha : a.children.length = news.length)
    (hb : b.children.length = news.length) : a.rebuild n news = b.rebuild n news := by
  refine eq_of_head ?_ ?_ ?_
  · rw [node_rebuild hleaf, node_rebuild (isLeaf_eq_of_head h ▸ hleaf)]
  · rw [head_rebuild, head_rebuild, h]
  · rw [children_rebuild n ha, children_rebuild n hb]

/-! ### Structural equality -/

/-- Nodes with one head over the same children have one shape, unless they are foreign. -/
theorem sameShape_of_head (ic : Bool) (hforeign : a.foreignKind? = none) (hhead : a.head = b.head)
    (hchildren : a.children = b.children) : SameShape ic a b := by
  have hvalue : equalConstants a b = true := by
    have hsome : a.constant? = b.constant? := congrArg Head.value hhead
    cases a <;> cases b <;> simp_all [equalConstants, constant?]
  refine (sameShape_iff hforeign).2 ⟨isAlike_iff.2 ⟨congrArg Head.label hhead, .inr hvalue⟩, ?_⟩
  rw [Slotwise, slots_eq_of_head hhead hchildren]
  exact List.forall₂_same.2 fun _ _ => List.forall₂_same.2 fun c _ => .refl ic c

/-! ### Reading and replacing children -/

/-- The node that comes out has the next identity, if it is a new one. -/
theorem withChildren_run (e : Expr) (news : List Expr) (s : Supply) :
    ((e.withChildren news : StateM Supply Expr) s).1 = e.rebuild s.next news := by
  rw [withChildren]
  split
  · next hleaf => exact (rebuild_of_isLeaf hleaf s.next news).symm
  · rfl

/-- A node that was rebuilt takes new children as the old one does, however many it was given
before. -/
theorem withChildren_rebuild {m : Type → Type} [Monad m] [MonadMint m] (n : NodeId) (e : Expr)
    (olds : List Expr) {news : List Expr} (h : e.children.length = news.length) :
    ((e.rebuild n olds).withChildren news : m Expr) = e.withChildren news := by
  have hhead := head_rebuild n e olds
  cases hleaf : e.isLeaf with
  | true => rw [rebuild_of_isLeaf hleaf]
  | false =>
    have hleaf' : (e.rebuild n olds).isLeaf = false := (isLeaf_eq_of_head hhead).trans hleaf
    have hlength : (e.rebuild n olds).children.length = news.length := by
      rw [children_rebuild_eq_refill, length_refill, h]
    simp only [withChildren, hleaf, hleaf', Bool.false_eq_true, if_false,
      rebuild_eq_of_head hhead hleaf' _ hlength h]

/-- The children of a node are a lens. Whatever children are given, the head stays, and the next
replacement of all children forgets them. All the children that are given are read back in their
order, with the old ones after them if they are fewer. Putting back the children that are there
gives an equal node, unless there is a foreign construct, which equals nothing but itself. -/
theorem withChildren_lens (e : Expr) (s : Supply) :
    (∀ cs : List Expr,
      let e' := ((e.withChildren cs : StateM Supply Expr) s).1
      e'.head = e.head ∧
        (cs.length = e.children.length → e'.children = cs) ∧
        (cs.length ≤ e.children.length → e'.children = cs ++ e.children.drop cs.length) ∧
        ∀ ds : List Expr, ds.length = e.children.length →
          (e'.withChildren ds : StateM Supply Expr) = e.withChildren ds) ∧
      (e.Supported →
        ((e.withChildren e.children : StateM Supply Expr) s).1.structEq e false = .ok true) := by
  simp only [withChildren_run]
  refine ⟨fun cs => ⟨head_rebuild s.next e cs, fun h => children_rebuild s.next h.symm, fun h => ?_,
    fun ds h => withChildren_rebuild s.next e cs h.symm⟩, fun he => ?_⟩
  · rw [children_rebuild_eq_refill, refill_eq_append h]
  · have hhead := head_rebuild s.next e e.children
    have hchildren := children_rebuild s.next (rfl : e.children.length = _)
    have hshape := sameShape_of_head false (supported_iff.1 he).1 hhead.symm hchildren.symm
    exact structEq_eq_ok_true_iff.2 (hshape.symm he)

/-- The theorem for a conversion under `??`, with one child given first and then all three. -/
theorem withChildren_lens_coalesce :
    let n : Expr := .parameter ⟨0, 0, "n", .nullable (.int .i32)⟩
    let five : Expr := .constant ⟨1, .int .i32⟩ (.ofInt .i32 5)
    let y : Param := ⟨2, 2, "y", .int .i32⟩
    let conversion : Expr := .lambda ⟨3, .func [.int .i32] (.int .i32)⟩ [y] (.parameter y)
    let null : Expr := .constant ⟨4, .nullable (.int .i32)⟩ .null
    let e : Expr := .binary ⟨5, .int .i32⟩ .coalesce {} none n five (some conversion)
    let put (cs : List Expr) : Expr := ((e.withChildren cs : StateM Supply Expr) ⟨6⟩).1
    (put [null]).children = [null, five, conversion] ∧
      (put [null, five, conversion]).children = [null, five, conversion] ∧
      ((put [null]).withChildren [n, five, conversion] : StateM Supply Expr) =
        e.withChildren [n, five, conversion] ∧
      (put e.children).structEq e false = .ok true := by
  intro n five y conversion null e put
  have lens := withChildren_lens e ⟨6⟩
  have supported : e.Supported := rfl
  exact ⟨(lens.1 [null]).2.2.1 (by decide), (lens.1 [null, five, conversion]).2.1 rfl,
    (lens.1 [null]).2.2.2 [n, five, conversion] rfl, lens.2 supported⟩

end ExprTree.Expr
