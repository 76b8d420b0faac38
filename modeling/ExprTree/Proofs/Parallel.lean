import Mathlib.Data.List.Forall2
import ExprTree.Expr.Rewrite
import ExprTree.Proofs.Pointwise

/-!
# Nodes that are alike

Two nodes are parallel when they are of one kind, say the same, and their children are related.
Rewrites, comparisons of trees and evaluations all go from one tree to another node by node, and
parallel nodes are what one step of them comes to.

## Main definitions

* `Expr.Parallel`: two nodes are alike and their children are related.

## Main results

* `Expr.parallel_rebuild`, `Expr.Parallel.exists_rebuild`: a rebuilt node is parallel to the node, and
  all that is parallel to it over the same parameters is rebuilt.
* `Expr.Parallel.flip`, `Expr.Parallel.comp`: parallel nodes the other way round, and one after the
  other.
-/

set_option autoImplicit false

namespace ExprTree.Expr

/-! ### Parallel nodes -/

/-- Two nodes are alike, their identities aside: their children are related by `S`, and the bodies
of two lambdas, with the parameters that they are under, by `B`. Leaves are the same node. -/
inductive Parallel (S : Expr → Expr → Prop) (B : List Param → List Param → Expr → Expr → Prop) :
    Expr → Expr → Prop
  | constant (s : Stamp) (v : Value) : Parallel S B (.constant s v) (.constant s v)
  | parameter (p : Param) : Parallel S B (.parameter p) (.parameter p)
  | binary {n n' : NodeId} {t : Ty} (op : BinaryOp) (lifting : Lifting)
      (method : Option MethodDef) {l l' r r' : Expr} {c c' : Option Expr} (hl : S l l')
      (hr : S r r') (hc : Option.Rel S c c') :
      Parallel S B (.binary ⟨n, t⟩ op lifting method l r c) (.binary ⟨n', t⟩ op lifting method l' r' c')
  | unary {n n' : NodeId} {t : Ty} (op : UnaryOp) (lifted : Bool)
      (method : Option MethodDef) {x x' : Expr} (hx : S x x') :
      Parallel S B (.unary ⟨n, t⟩ op lifted method x) (.unary ⟨n', t⟩ op lifted method x')
  | conditional {n n' : NodeId} {t : Ty} {q q' x x' y y' : Expr} (hq : S q q')
      (hx : S x x') (hy : S y y') :
      Parallel S B (.conditional ⟨n, t⟩ q x y) (.conditional ⟨n', t⟩ q' x' y')
  | member {n n' : NodeId} {t : Ty} {r r' : Option Expr} (hr : Option.Rel S r r')
      (d : MemberDef) : Parallel S B (.member ⟨n, t⟩ r d) (.member ⟨n', t⟩ r' d)
  | call {n n' : NodeId} {t : Ty} {r r' : Option Expr} (hr : Option.Rel S r r')
      (method : MethodDef) {as as' : List Expr} (has : List.Forall₂ S as as') :
      Parallel S B (.call ⟨n, t⟩ r method as) (.call ⟨n', t⟩ r' method as')
  | new {n n' : NodeId} {t : Ty} (ctor : CtorDef) {as as' : List Expr}
      (has : List.Forall₂ S as as') : Parallel S B (.new ⟨n, t⟩ ctor as) (.new ⟨n', t⟩ ctor as')
  | newArray {n n' : NodeId} {t : Ty} (element : Ty) {as as' : List Expr}
      (has : List.Forall₂ S as as') :
      Parallel S B (.newArray ⟨n, t⟩ element as) (.newArray ⟨n', t⟩ element as')
  | index {n n' : NodeId} {t : Ty} {r r' : Expr} (hr : S r r')
      (indexer : Option MethodDef) {as as' : List Expr} (has : List.Forall₂ S as as') :
      Parallel S B (.index ⟨n, t⟩ r indexer as) (.index ⟨n', t⟩ r' indexer as')
  | typeIs {n n' : NodeId} {t : Ty} {x x' : Expr} (hx : S x x') (target : Ty) :
      Parallel S B (.typeIs ⟨n, t⟩ x target) (.typeIs ⟨n', t⟩ x' target)
  | lambda {n n' : NodeId} {t : Ty} {ps ps' : List Param} {b b' : Expr}
      (hb : B ps ps' b b') : Parallel S B (.lambda ⟨n, t⟩ ps b) (.lambda ⟨n', t⟩ ps' b')
  | raise {n n' : NodeId} {t : Ty} {x x' : Expr} (hx : S x x') :
      Parallel S B (.raise ⟨n, t⟩ x) (.raise ⟨n', t⟩ x')
  | extension {n n' : NodeId} {t : Ty} (kind : ForeignKind) {as as' : List Expr}
      (has : List.Forall₂ S as as') : Parallel S B (.extension ⟨n, t⟩ kind as) (.extension ⟨n', t⟩ kind as')

/-- Lambdas have the same parameters, and their bodies are related. -/
def SameParams (S : Expr → Expr → Prop) (ps ps' : List Param) (b b' : Expr) : Prop :=
  ps = ps' ∧ S b b'

variable {S : Expr → Expr → Prop} {B : List Param → List Param → Expr → Expr → Prop} {e e' : Expr}

theorem Parallel.ty_eq (h : Parallel S B e e') : e.ty = e'.ty := by
  cases h <;> rfl

theorem Parallel.isSome_lambda? (h : Parallel S B e e') : e.lambda?.isSome = e'.lambda?.isSome := by
  cases h <;> rfl

theorem Parallel.isLeaf_eq (h : Parallel S B e e') : e.isLeaf = e'.isLeaf := by
  cases h <;> rfl

theorem parameter?_of_isLeaf (hleaf : e.isLeaf = false) : e.parameter? = none := by
  cases e <;> first | rfl | cases hleaf

theorem constant?_of_isLeaf (hleaf : e.isLeaf = false) : e.constant? = none := by
  cases e <;> first | rfl | cases hleaf

theorem isLeaf_of_lambda? (hlambda : e.lambda?.isSome = true) : e.isLeaf = false := by
  cases e <;> first | rfl | cases hlambda

theorem Parallel.of_lambda {s s' : Stamp} {ps ps' : List Param} {b b' : Expr}
    (h : Parallel S B (.lambda s ps b) (.lambda s' ps' b')) : B ps ps' b b' := by
  cases h with
  | lambda hb => exact hb

/-! ### Rebuilt nodes -/

theorem refill_eq {α : Type} {olds news : List α} (h : olds.length = news.length) :
    refill olds news = news := by
  induction olds generalizing news with
  | nil => cases news <;> simp_all [refill]
  | cons a olds ih => cases news <;> simp_all [refill]

theorem refill_nil {α : Type} (olds : List α) : refill olds [] = olds := by
  cases olds <;> rfl

/-- Rebuilding a node from its own children gives it back. -/
theorem rebuild_children (e : Expr) : e.rebuild e.node e.children = e := by
  cases e with
  | binary s op lifting method l r c => cases c <;> rfl
  | member s r d => cases r <;> rfl
  | call s r method as => cases r <;> simp [rebuild, children, refill_eq, node, stamp]
  | new | newArray | index | extension => simp [rebuild, children, refill_eq, node, stamp]
  | _ => rfl

/-- A rebuilt node is the node, if that is a leaf, or has the new identity. -/
theorem rebuild_eq_or_node (n : NodeId) (e : Expr) (news : List Expr) :
    e.rebuild n news = e ∨ (e.rebuild n news).node = n := by
  cases e with
  | constant | parameter => exact .inl rfl
  | call s r method as => cases r <;> exact .inr rfl
  | _ => exact .inr rfl

/-- The children of a rebuilt node are the old ones, replaced as far as new ones are given. -/
theorem children_rebuild_eq_refill (n : NodeId) (e : Expr) (news : List Expr) :
    (e.rebuild n news).children = refill e.children news := by
  cases e with
  | constant | parameter | new | newArray | extension => rfl
  | unary | typeIs | lambda | raise => cases news <;> rfl
  | binary s op lifting method l r c =>
    cases c <;> rcases news with _ | ⟨_, _ | ⟨_, _ | _⟩⟩ <;> rfl
  | conditional => rcases news with _ | ⟨_, _ | ⟨_, _ | _⟩⟩ <;> rfl
  | member s r d => cases r <;> cases news <;> rfl
  | call s r method as =>
    cases r with
    | none => rfl
    | some r =>
      cases news with
      | nil => exact congrArg (r :: ·) (refill_nil as)
      | cons c news => rfl
  | index s r indexer as =>
    cases news with
    | nil => exact congrArg (r :: ·) (refill_nil as)
    | cons c news => rfl

/-- A rebuilt node has the children that it was rebuilt from. -/
theorem children_rebuild (n : NodeId) {e : Expr} {news : List Expr}
    (h : e.children.length = news.length) : (e.rebuild n news).children = news := by
  rw [children_rebuild_eq_refill, refill_eq h]

/-- A node rebuilt from children that are related to its own is parallel to it. -/
theorem parallel_rebuild (n : NodeId) {e : Expr} {news : List Expr}
    (h : List.Forall₂ S e.children news) :
    Parallel S (SameParams S) e (e.rebuild n news) := by
  cases e with
  | constant s v => exact .constant s v
  | parameter p => exact .parameter p
  | binary s op lifting method l r c =>
    rcases h with _ | ⟨hl, _ | ⟨hr, hc⟩⟩
    simp only [rebuild]
    refine .binary op lifting method hl hr ?_
    cases c with
    | none => exact .none
    | some c =>
      rcases hc with _ | ⟨hc, _⟩
      exact .some hc
  | unary s op lifted method x =>
    rcases h with _ | ⟨hx, _⟩
    simp only [rebuild]
    exact .unary op lifted method hx
  | conditional s t x y =>
    rcases h with _ | ⟨ht, _ | ⟨hx, _ | ⟨hy, _⟩⟩⟩
    simp only [rebuild]
    exact .conditional ht hx hy
  | member s r d =>
    simp only [rebuild]
    refine .member ?_ d
    cases r with
    | none => exact .none
    | some r =>
      rcases h with _ | ⟨hr, _⟩
      exact .some hr
  | call s r method as =>
    cases r with
    | none =>
      have has : List.Forall₂ S as news := h
      simp only [rebuild, refill_eq has.length_eq]
      exact .call .none method has
    | some r =>
      have hras : List.Forall₂ S (r :: as) news := h
      rcases hras with _ | ⟨hr, has⟩
      simp only [rebuild, List.drop_one, List.tail_cons, refill_eq has.length_eq]
      exact .call (.some hr) method has
  | new s ctor as =>
    have has : List.Forall₂ S as news := h
    simp only [rebuild, refill_eq has.length_eq]
    exact .new ctor has
  | newArray s element as =>
    have has : List.Forall₂ S as news := h
    simp only [rebuild, refill_eq has.length_eq]
    exact .newArray element has
  | index s r indexer as =>
    have hras : List.Forall₂ S (r :: as) news := h
    rcases hras with _ | ⟨hr, has⟩
    simp only [rebuild, List.drop_one, List.tail_cons, refill_eq has.length_eq]
    exact .index hr indexer has
  | typeIs s x target =>
    rcases h with _ | ⟨hx, _⟩
    simp only [rebuild]
    exact .typeIs hx target
  | lambda s ps b =>
    rcases h with _ | ⟨hb, _⟩
    simp only [rebuild]
    exact .lambda ⟨rfl, hb⟩
  | raise s x =>
    rcases h with _ | ⟨hx, _⟩
    simp only [rebuild]
    exact .raise hx
  | extension s kind as =>
    have has : List.Forall₂ S as news := h
    simp only [rebuild, refill_eq has.length_eq]
    exact .extension kind has

/-- A node is parallel to itself if its children are related to themselves. -/
theorem parallel_self (h : List.Forall₂ S e.children e.children) :
    Parallel S (SameParams S) e e := by
  have rebuilt := parallel_rebuild e.node h
  rwa [rebuild_children] at rebuilt

/-- A rebuilt node over related children is all that a parallel node is. -/
theorem Parallel.exists_rebuild {S : Expr → Expr → Prop} (h : Parallel S (SameParams S) e e') :
    ∃ n news, e' = e.rebuild n news ∧ List.Forall₂ S e.children news := by
  refine ⟨e'.node, e'.children, ?_⟩
  cases h with
  | constant s v => exact ⟨rfl, .nil⟩
  | parameter p => exact ⟨rfl, .nil⟩
  | binary op lifting method hl hr hc =>
    cases hc with
    | none => exact ⟨rfl, .cons hl (.cons hr .nil)⟩
    | some hc => exact ⟨rfl, .cons hl (.cons hr (.cons hc .nil))⟩
  | unary op lifted method hx => exact ⟨rfl, .cons hx .nil⟩
  | conditional hq hx hy => exact ⟨rfl, .cons hq (.cons hx (.cons hy .nil))⟩
  | member hr d =>
    cases hr with
    | none => exact ⟨rfl, .nil⟩
    | some hr => exact ⟨rfl, .cons hr .nil⟩
  | call hr method has =>
    cases hr with
    | none =>
      refine ⟨?_, has⟩
      simp [rebuild, children, refill_eq has.length_eq, node, stamp]
    | some hr =>
      refine ⟨?_, .cons hr has⟩
      simp [rebuild, children, refill_eq has.length_eq, node, stamp]
  | new ctor has =>
    refine ⟨?_, has⟩
    simp [rebuild, children, refill_eq has.length_eq, node, stamp]
  | newArray element has =>
    refine ⟨?_, has⟩
    simp [rebuild, children, refill_eq has.length_eq, node, stamp]
  | index hr indexer has =>
    refine ⟨?_, .cons hr has⟩
    simp [rebuild, children, refill_eq has.length_eq, node, stamp]
  | typeIs hx target => exact ⟨rfl, .cons hx .nil⟩
  | lambda hb =>
    obtain ⟨rfl, hb⟩ := hb
    exact ⟨rfl, .cons hb .nil⟩
  | raise hx => exact ⟨rfl, .cons hx .nil⟩
  | extension kind has =>
    refine ⟨?_, has⟩
    simp [rebuild, children, refill_eq has.length_eq, node, stamp]

/-! ### One after the other -/

theorem Parallel.imp_of_mem {T : Expr → Expr → Prop}
    {C : List Param → List Param → Expr → Expr → Prop} (h : Parallel S B e e')
    (hS : ∀ c ∈ e.children, ∀ c' ∈ e'.children, S c c' → T c c')
    (hB : ∀ ps ps', ∀ b ∈ e.children, ∀ b' ∈ e'.children, B ps ps' b b' → C ps ps' b b') :
    Parallel T C e e' := by
  cases h with
  | constant s v => exact .constant s v
  | parameter p => exact .parameter p
  | binary op lifting method hl hr hc =>
    refine .binary op lifting method (hS _ (by simp [children]) _ (by simp [children]) hl)
      (hS _ (by simp [children]) _ (by simp [children]) hr) (optionRel_imp_of_mem hc ?_)
    exact fun c hc c' hc' => hS c (by simp_all [children]) c' (by simp_all [children])
  | unary op lifted method hx =>
    exact .unary op lifted method (hS _ List.mem_cons_self _ List.mem_cons_self hx)
  | conditional hq hx hy =>
    exact .conditional (hS _ (by simp [children]) _ (by simp [children]) hq)
      (hS _ (by simp [children]) _ (by simp [children]) hx)
      (hS _ (by simp [children]) _ (by simp [children]) hy)
  | member hr d =>
    refine .member (optionRel_imp_of_mem hr ?_) d
    exact fun c hc c' hc' => hS c (Option.mem_toList.2 hc) c' (Option.mem_toList.2 hc')
  | call hr method has =>
    refine .call (optionRel_imp_of_mem hr ?_) method (forall₂_imp_of_mem has ?_)
    · exact fun c hc c' hc' => hS c (by simp_all [children]) c' (by simp_all [children])
    · exact fun c hc c' hc' => hS c (List.mem_append_right _ hc) c' (List.mem_append_right _ hc')
  | new ctor has => exact .new ctor (forall₂_imp_of_mem has hS)
  | newArray element has => exact .newArray element (forall₂_imp_of_mem has hS)
  | index hr indexer has =>
    refine .index (hS _ List.mem_cons_self _ List.mem_cons_self hr) indexer
      (forall₂_imp_of_mem has ?_)
    exact fun c hc c' hc' => hS c (List.mem_cons_of_mem _ hc) c' (List.mem_cons_of_mem _ hc')
  | typeIs hx target => exact .typeIs (hS _ List.mem_cons_self _ List.mem_cons_self hx) target
  | lambda hb => exact .lambda (hB _ _ _ List.mem_cons_self _ List.mem_cons_self hb)
  | raise hx => exact .raise (hS _ List.mem_cons_self _ List.mem_cons_self hx)
  | extension kind has => exact .extension kind (forall₂_imp_of_mem has hS)

theorem Parallel.children (h : Parallel S B e e')
    (hB : ∀ ps ps' b b', B ps ps' b b' → S b b') : List.Forall₂ S e.children e'.children := by
  cases h with
  | constant | parameter => exact .nil
  | binary op lifting method hl hr hc =>
    cases hc with
    | none => exact .cons hl (.cons hr .nil)
    | some hc => exact .cons hl (.cons hr (.cons hc .nil))
  | unary op lifted method hx => exact .cons hx .nil
  | conditional hq hx hy => exact .cons hq (.cons hx (.cons hy .nil))
  | member hr d =>
    cases hr with
    | none => exact .nil
    | some hr => exact .cons hr .nil
  | call hr method has =>
    cases hr with
    | none => exact has
    | some hr => exact .cons hr has
  | new ctor has => exact has
  | newArray element has => exact has
  | index hr indexer has => exact .cons hr has
  | typeIs hx target => exact .cons hx .nil
  | lambda hb => exact .cons (hB _ _ _ _ hb) .nil
  | raise hx => exact .cons hx .nil
  | extension kind has => exact has

/-- What holds of the children place by place can be added. -/
theorem Parallel.with_children {T : Expr → Expr → Prop} (h : Parallel S B e e')
    (hT : List.Forall₂ T e.children e'.children) :
    Parallel T (fun ps ps' b b' => B ps ps' b b' ∧ T b b') e e' := by
  cases h with
  | constant s v => exact .constant s v
  | parameter p => exact .parameter p
  | binary op lifting method hl hr hc =>
    rcases hT with _ | ⟨hl, _ | ⟨hr, hT⟩⟩
    refine .binary op lifting method hl hr ?_
    cases hc with
    | none => exact .none
    | some _ =>
      rcases hT with _ | ⟨hc, -⟩
      exact .some hc
  | unary op lifted method hx =>
    rcases hT with _ | ⟨hx, -⟩
    exact .unary op lifted method hx
  | conditional hq hx hy =>
    rcases hT with _ | ⟨hq, _ | ⟨hx, _ | ⟨hy, -⟩⟩⟩
    exact .conditional hq hx hy
  | member hr d =>
    refine .member ?_ d
    cases hr with
    | none => exact .none
    | some _ =>
      rcases hT with _ | ⟨hr, -⟩
      exact .some hr
  | call hr method has =>
    cases hr with
    | none => exact .call .none method hT
    | some _ =>
      rcases hT with _ | ⟨hr, has⟩
      exact .call (.some hr) method has
  | new ctor has => exact .new ctor hT
  | newArray element has => exact .newArray element hT
  | index hr indexer has =>
    rcases hT with _ | ⟨hr, has⟩
    exact .index hr indexer has
  | typeIs hx target =>
    rcases hT with _ | ⟨hx, -⟩
    exact .typeIs hx target
  | lambda hb =>
    rcases hT with _ | ⟨hb', -⟩
    exact .lambda ⟨hb, hb'⟩
  | raise hx =>
    rcases hT with _ | ⟨hx, -⟩
    exact .raise hx
  | extension kind has => exact .extension kind hT

theorem Parallel.flip (h : Parallel S B e e') :
    Parallel (fun c c' => S c' c) (fun ps ps' b b' => B ps' ps b' b) e' e := by
  have option {c c' : Option Expr} (hc : Option.Rel S c c') :
      Option.Rel (fun c c' => S c' c) c' c := by
    cases hc with
    | none => exact .none
    | some hc => exact .some hc
  cases h with
  | constant s v => exact .constant s v
  | parameter p => exact .parameter p
  | binary op lifting method hl hr hc => exact .binary op lifting method hl hr (option hc)
  | unary op lifted method hx => exact .unary op lifted method hx
  | conditional hq hx hy => exact .conditional hq hx hy
  | member hr d => exact .member (option hr) d
  | call hr method has => exact .call (option hr) method has.flip
  | new ctor has => exact .new ctor has.flip
  | newArray element has => exact .newArray element has.flip
  | index hr indexer has => exact .index (S := fun c c' => S c' c) hr indexer has.flip
  | typeIs hx target => exact .typeIs (S := fun c c' => S c' c) hx target
  | lambda hb => exact .lambda hb
  | raise hx => exact .raise hx
  | extension kind has => exact .extension kind has.flip

theorem Parallel.comp {T : Expr → Expr → Prop}
    {C : List Param → List Param → Expr → Expr → Prop} {e'' : Expr} (h : Parallel S B e e')
    (h' : Parallel T C e' e'') :
    Parallel (fun c c'' => ∃ c', S c c' ∧ T c' c'')
      (fun ps ps'' b b'' => ∃ ps' b', B ps ps' b b' ∧ C ps' ps'' b' b'') e e'' := by
  have option {c c' c'' : Option Expr} (hc : Option.Rel S c c') (hc' : Option.Rel T c' c'') :
      Option.Rel (fun c c'' => ∃ c', S c c' ∧ T c' c'') c c'' := by
    cases hc with
    | none => cases hc'; exact .none
    | some hc =>
      cases hc' with
      | some hc' => exact .some ⟨_, hc, hc'⟩
  have list {as as' as'' : List Expr} (has : List.Forall₂ S as as') (has' : List.Forall₂ T as' as'') :
      List.Forall₂ (fun c c'' => ∃ c', S c c' ∧ T c' c'') as as'' :=
    (forall₂_trans has has').imp fun _ _ ⟨c', _, h⟩ => ⟨c', h⟩
  cases h with
  | constant s v => cases h'; exact .constant s v
  | parameter p => cases h'; exact .parameter p
  | binary op lifting method hl hr hc =>
    cases h' with
    | binary _ _ _ hl' hr' hc' =>
      exact .binary op lifting method ⟨_, hl, hl'⟩ ⟨_, hr, hr'⟩ (option hc hc')
  | unary op lifted method hx =>
    cases h' with
    | unary _ _ _ hx' => exact .unary op lifted method ⟨_, hx, hx'⟩
  | conditional hq hx hy =>
    cases h' with
    | conditional hq' hx' hy' => exact .conditional ⟨_, hq, hq'⟩ ⟨_, hx, hx'⟩ ⟨_, hy, hy'⟩
  | member hr d =>
    cases h' with
    | member hr' _ => exact .member (option hr hr') d
  | call hr method has =>
    cases h' with
    | call hr' _ has' => exact .call (option hr hr') method (list has has')
  | new ctor has =>
    cases h' with
    | new _ has' => exact .new ctor (list has has')
  | newArray element has =>
    cases h' with
    | newArray _ has' => exact .newArray element (list has has')
  | index hr indexer has =>
    cases h' with
    | index hr' _ has' => exact .index ⟨_, hr, hr'⟩ indexer (list has has')
  | typeIs hx target =>
    cases h' with
    | typeIs hx' _ => exact .typeIs ⟨_, hx, hx'⟩ target
  | lambda hb =>
    cases h' with
    | lambda hb' => exact .lambda ⟨_, _, hb, hb'⟩
  | raise hx =>
    cases h' with
    | raise hx' => exact .raise ⟨_, hx, hx'⟩
  | extension kind has =>
    cases h' with
    | extension _ has' => exact .extension kind (list has has')

end ExprTree.Expr
