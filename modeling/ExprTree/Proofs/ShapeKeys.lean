import ExprTree.Proofs.CacheHistory

/-!
# Shapes as keys

What a table of artifacts needs of its keys: equality of keys has to be an equivalence, and equal
keys need equal hashes. Both come down to the trees. The comparison and the hash are two walks that
look at different things, and the hash looks at no more than the comparison does.

A foreign construct is compared by identity and hashed by its operands. Equal hashes then need that
one identity stands for one node, which `Expr.SharesForeign` says of two trees.

What a shape leaves out is the values of constants. They are all that is left out: trees of one
shape with the same constants in pre-order are equal.

## Main results

* `Expr.structEq_isKeyEquality`: **structural equality is sound as an equality of keys**.
* `Expr.structEq_iff_constants`: **only the constants differ within a shape**.
-/

set_option autoImplicit false

namespace ExprTree

/-- Equality of lists is equality place by place. -/
theorem beq_iff_forall₂ {vs ws : List Value} :
    (vs == ws) = true ↔ List.Forall₂ (fun v w => (v == w) = true) vs ws := by
  induction vs generalizing ws with
  | nil => cases ws <;> simp
  | cons v vs ih => cases ws <;> simp [ih]

namespace Expr

variable {ic : Bool} {a b : Expr}

/-! ### Constants -/

/-- Children that are related in order are related place by place, if the places hold as many. -/
theorem Slotwise.of_children {S T : Expr → Expr → Prop} (h : Slotwise S a b)
    (hT : List.Forall₂ T a.children b.children) : Slotwise T a b := by
  rw [← flatten_slots, ← flatten_slots, ← List.flatMap_id, ← List.flatMap_id] at hT
  exact (forall₂_of_flatMap h (fun _ _ _ hS => hS.length_eq) hT).imp fun _ _ h => h.2

/-- Nodes with one label have equal values if the constants listed for them are equal. -/
theorem equalConstants_iff (h : a.label = b.label) :
    equalConstants a b = true ↔
      List.Forall₂ (fun v w => (v == w) = true) a.constant?.toList b.constant?.toList := by
  have hkind : a.kind = b.kind := congrArg Label.kind h
  cases a <;> cases b <;> simp only [kind, reduceCtorEq] at hkind <;>
    simp [equalConstants, constant?]

/-- Trees that are equal have one shape and equal constants. Those of the children come one after
the other, and as many from each child as from its counterpart. -/
theorem sameShape_false_iff (ha : a.Supported) :
    SameShape false a b ↔
      SameShape true a b ∧
        List.Forall₂ (fun v w => (v == w) = true) a.constants b.constants := by
  induction a using induction_children generalizing b with
  | step a ih =>
    obtain ⟨hforeign, hsupported⟩ := supported_iff.1 ha
    rw [sameShape_iff hforeign, sameShape_iff hforeign, constants_cons a, constants_cons b]
    constructor
    · rintro ⟨halike, hslots⟩
      obtain ⟨hlabel, hvalue⟩ := isAlike_iff.1 halike
      have hroot := (equalConstants_iff hlabel).1 (hvalue.resolve_left Bool.false_ne_true)
      have both := hslots.imp_of_mem fun c hc d _ h => (ih c hc (hsupported c hc)).1 h
      refine ⟨⟨isAlike_iff.2 ⟨hlabel, .inl rfl⟩, both.imp_of_mem fun _ _ _ _ h => h.1⟩, ?_⟩
      exact List.rel_append hroot (List.rel_flatMap both.children fun _ _ h => h.2)
    · rintro ⟨⟨halike, hslots⟩, hconstants⟩
      have hlabel := (isAlike_iff.1 halike).1
      have hlength : a.constant?.toList.length = b.constant?.toList.length := by
        have hkind : a.kind = b.kind := congrArg Label.kind hlabel
        cases a <;> cases b <;> simp only [kind, reduceCtorEq] at hkind <;> rfl
      obtain ⟨hroot, hrest⟩ := forall₂_of_append hlength hconstants
      have hbelow := forall₂_of_flatMap hslots.children
        (fun c hc d h => h.length_constants (hsupported c hc)) hrest
      refine ⟨isAlike_iff.2 ⟨hlabel, .inr ((equalConstants_iff hlabel).2 hroot)⟩, ?_⟩
      exact hslots.of_children
        (forall₂_imp_of_mem hbelow fun c hc d _ h => (ih c hc (hsupported c hc)).2 h)

end Expr

/-! ### Keys -/

namespace ShapeKey

variable {hashing : Hashing}

/-- The keys that are made with one hashing. -/
abbrev HashedBy (hashing : Hashing) : Type := { k : ShapeKey // ∃ e, ofExpr e hashing = .ok k }

theorem ofExpr_eq_ok_iff {e : Expr} {k : ShapeKey} :
    ofExpr e hashing = .ok k ↔ e.Supported ∧ hashed hashing e = k := by
  unfold ofExpr Expr.Supported
  split
  · next h => simp [h]
  · next h =>
    rw [h]
    simp [hashed]

theorem HashedBy.supported (k : HashedBy hashing) : k.val.lambda.Supported := by
  obtain ⟨k, e, hk⟩ := k
  obtain ⟨he, rfl⟩ := ofExpr_eq_ok_iff.1 hk
  exact he

theorem HashedBy.eq_hashed (k : HashedBy hashing) : k.val = hashed hashing k.val.lambda := by
  obtain ⟨k, e, hk⟩ := k
  obtain ⟨-, rfl⟩ := ofExpr_eq_ok_iff.1 hk
  rfl

theorem HashedBy.beq_iff (k k' : HashedBy hashing) :
    (k.val == k'.val) = true ↔ Expr.SameShape true k.val.lambda k'.val.lambda := by
  rw [k.eq_hashed, k'.eq_hashed]
  exact hashed_beq_iff k.supported hashing

theorem HashedBy.hash_eq {k k' : HashedBy hashing} (h : (k.val == k'.val) = true) :
    k.val.hash = k'.val.hash := by
  rw [k.eq_hashed, k'.eq_hashed]
  exact ((k.beq_iff k').1 h).structHash_eq hashing.hasher
    (k.supported.sharesForeign _) (some hashing.depth)

end ShapeKey

namespace Expr

/-- On trees without foreign constructs, having one shape is an equivalence. -/
theorem sameShape_equivalence (ic : Bool) :
    Equivalence fun a b : { e : Expr // e.Supported } => SameShape ic a.val b.val where
  refl a := .refl ic a.val
  symm {a _} h := h.symm a.property
  trans {a _ _} h h' := h.trans a.property h'

/-- **Structural equality is sound as an equality of keys**, with constants or without. On trees
without foreign constructs it has an answer and is an equivalence. On any trees, equal ones have
equal hashes, over every hasher and to every depth. Keys of one hashing are therefore equal when
the comparison of their trees says so, and their equality is an equivalence that their hashes
respect. -/
theorem structEq_isKeyEquality (ic : Bool) :
    (∀ a b : Expr, a.Supported → ∃ answer, a.structEq b ic = .ok answer) ∧
    (Equivalence fun a b : { e : Expr // e.Supported } =>
      a.val.structEq b.val ic = .ok true) ∧
    (∀ a b : Expr, a.SharesForeign b → a.structEq b ic = .ok true →
      ∀ (hasher : LeafHasher) (maxDepth : Option Nat),
        a.structHash hasher ic maxDepth = b.structHash hasher ic maxDepth) ∧
    ∀ hashing : Hashing,
      (Equivalence fun k k' : ShapeKey.HashedBy hashing => (k.val == k'.val) = true) ∧
      ∀ k k' : ShapeKey.HashedBy hashing,
        ((k.val == k'.val) = true ↔ k.val.lambda.structEq k'.val.lambda true = .ok true) ∧
        ((k.val == k'.val) = true → k.val.hash = k'.val.hash) := by
  simp only [structEq_eq_ok_true_iff]
  refine ⟨fun a b ha => ?_, sameShape_equivalence ic,
    fun a b h hab hasher => hab.structHash_eq hasher h,
    fun hashing => ⟨?_, fun k k' => ⟨k.beq_iff k', ShapeKey.HashedBy.hash_eq⟩⟩⟩
  · obtain ⟨answer, h⟩ : ∃ answer, (equalNodes ic a b).val = .ok answer := equalNodes_isOk ha b
    exact ⟨answer, by rw [structEq, h]⟩
  · simp only [ShapeKey.HashedBy.beq_iff]
    exact (sameShape_equivalence true).comap fun k : ShapeKey.HashedBy hashing =>
      ⟨k.val.lambda, k.supported⟩

/-- An array of a literal and a foreign node over it. -/
def literalAndForeign (n : NodeId) (value : Bool) : Expr :=
  .newArray ⟨n, .array .object⟩ .object
    [.constant ⟨n + 1, .bool⟩ (.bool value), .extension ⟨0, .object⟩ .block []]

/-- Two arrays over different literals that share a foreign node have one hash, and so have the
keys of the literals. -/
theorem structEq_isKeyEquality_array :
    (literalAndForeign 1 true).SharesForeign (literalAndForeign 3 false) ∧
    (literalAndForeign 1 true).structEq (literalAndForeign 3 false) true = .ok true ∧
    (literalAndForeign 1 true).structHash .bytewise true none =
      (literalAndForeign 3 false).structHash .bytewise true none ∧
    (constant ⟨1, .bool⟩ (.bool true)).Supported ∧
    (∃ answer, (constant ⟨1, .bool⟩ (.bool true)).structEq (literalAndForeign 3 false) true =
      .ok answer) ∧
    ∃ k k' : ShapeKey.HashedBy ⟨.bytewise, 5⟩,
      (k.val == k'.val) = true ∧ k.val.hash = k'.val.hash := by
  have shares : (literalAndForeign 1 true).SharesForeign (literalAndForeign 3 false) := by
    intro d hd hforeign d' hd' hsame
    simp only [literalAndForeign, preOrder_eq, children, List.flatMap_cons, List.flatMap_nil,
      List.append_nil, List.cons_append, List.nil_append, List.mem_cons, List.not_mem_nil,
      or_false] at hd hd'
    rcases hd with rfl | rfl | rfl
    · cases hforeign
    · cases hforeign
    · rcases hd' with rfl | rfl | rfl
      · cases hsame
      · cases hsame
      · rfl
  have literals (n n' : NodeId) (b b' : Bool) :
      SameShape true (constant ⟨n, .bool⟩ (.bool b)) (constant ⟨n', .bool⟩ (.bool b')) :=
    (sameShape_iff rfl).2 ⟨rfl, .nil⟩
  have equal : (literalAndForeign 1 true).structEq (literalAndForeign 3 false) true = .ok true :=
    structEq_eq_ok_true_iff.2 ((sameShape_iff rfl).2
      ⟨rfl, .cons (.cons (literals ..) (.cons (.refl true _) .nil)) .nil⟩)
  have supported (b : Bool) : (constant ⟨1, .bool⟩ (.bool b)).Supported := rfl
  obtain ⟨answers, -, hashes, keys⟩ := structEq_isKeyEquality true
  let key (b : Bool) : ShapeKey.HashedBy ⟨.bytewise, 5⟩ :=
    ⟨.hashed _ (constant ⟨1, .bool⟩ (.bool b)), _,
      ShapeKey.ofExpr_eq_ok_iff.2 ⟨supported b, rfl⟩⟩
  have same : ((key true).val == (key false).val) = true :=
    ((keys ⟨.bytewise, 5⟩).2 _ _).1.2 (structEq_eq_ok_true_iff.2 (literals ..))
  exact ⟨shares, equal, hashes _ _ shares equal .bytewise none, supported true,
    answers _ _ (supported true), key true, key false, same, ((keys ⟨.bytewise, 5⟩).2 _ _).2 same⟩

/-- **Only the constants differ within a shape**: trees without foreign constructs are equal when
they are equal up to constants and hold equal constants in the same order. -/
theorem structEq_iff_constants {a : Expr} (ha : a.Supported) (b : Expr) :
    a.structEq b false = .ok true ↔
      a.structEq b true = .ok true ∧ (a.constants == b.constants) = true := by
  rw [structEq_eq_ok_true_iff, structEq_eq_ok_true_iff, beq_iff_forall₂]
  exact sameShape_false_iff ha

/-- A function of one parameter that returns a literal. -/
def literalFunction (n : NodeId) (value : Bool) : Expr :=
  .lambda ⟨n, .func [.bool] .bool⟩ [⟨n + 1, n, "x", .bool⟩] (.constant ⟨n + 2, .bool⟩ (.bool value))

/-- Functions that return a literal are equal if the literals are. -/
theorem structEq_iff_constants_function :
    (literalFunction 1 true).Supported ∧
    (literalFunction 1 true).structEq (literalFunction 4 true) false = .ok true ∧
    (literalFunction 1 true).structEq (literalFunction 7 false) false ≠ .ok true := by
  have supported : (literalFunction 1 true).Supported := rfl
  have shape : (literalFunction 1 true).structEq (literalFunction 4 true) true = .ok true := by
    refine structEq_eq_ok_true_iff.2 (Parallel.sameShape (.lambda ⟨rfl, ?_⟩) rfl)
    exact (sameShape_iff rfl).2 ⟨rfl, .nil⟩
  refine ⟨supported, (structEq_iff_constants supported _).2 ⟨shape, rfl⟩, fun h => ?_⟩
  cases ((structEq_iff_constants supported _).1 h).2

end Expr

end ExprTree
