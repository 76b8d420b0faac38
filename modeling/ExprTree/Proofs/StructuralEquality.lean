import ExprTree.Expr.Rewrite
import ExprTree.Proofs.Parallel
import ExprTree.Proofs.Scopes
import ExprTree.Proofs.ValueEquality

/-!
# Structural equality is an equivalence that hashes respect

The comparison of trees goes down both at once and stops at the first difference, or at a foreign
construct. `Expr.SameShape` says that it finds none, and `Expr.sameShape_iff` reads it level by
level: the two nodes are alike and their children have the same shape place by place. Everything
else follows by induction over the children of one of the trees.

A foreign construct is compared by identity, so on trees with such constructs the answer may be a
failure. On the trees that `Expr.validate` lets through it never is.

## Main definitions

* `Expr.SameShape`: the comparison finds no difference.

## Main results

* `Expr.SameShape.preOrder`: trees of one shape are alike node by node.
* `Expr.SameShape.symm`, `Expr.SameShape.trans`: with `Expr.SameShape.refl`, an equivalence.
* `Expr.equalNodes_isOk`: without foreign constructs the comparison has an answer.
* `Expr.SameShape.structHash_eq`: trees of one shape have one hash, over any hasher and to
  every depth.
-/

set_option autoImplicit false

namespace ExprTree.Expr

variable {ic : Bool} {a b c : Expr}

/-! ### Labels -/

/-- What a node says besides its kind, its type, its children and the value of a constant. -/
inductive Detail where
  | none
  | name (name : String)
  | binary (lifting : Lifting) (method : Option MethodDef)
  | unary (lifted : Bool) (method : Option MethodDef)
  | member (d : MemberDef)
  | call (method : MethodDef)
  | new (ctor : CtorDef)
  | newArray (element : Ty)
  | index (indexer : Option MethodDef)
  | typeIs (target : Ty)
  | lambda (params : List (Ty × String))

/-- The detail of a node. -/
def detail : Expr → Detail
  | constant .. | conditional .. | raise .. | extension .. => .none
  | parameter p => .name p.name
  | binary _ _ lifting method .. => .binary lifting method
  | unary _ _ lifted method _ => .unary lifted method
  | member _ _ d => .member d
  | call _ _ method _ => .call method
  | new _ ctor _ => .new ctor
  | newArray _ element _ => .newArray element
  | index _ _ indexer _ => .index indexer
  | typeIs _ _ target => .typeIs target
  | lambda _ params _ => .lambda (params.map fun p => (p.ty, p.name))

/-- Everything that a comparison looks at in one node, the value of a constant aside. -/
structure Label where
  kind : NodeKind
  ty : Ty
  detail : Detail

/-- The label of a node. -/
def label (e : Expr) : Label := ⟨e.kind, e.ty, e.detail⟩

/-- Whether two nodes, if both are constants, have equal values. -/
def equalConstants : Expr → Expr → Bool
  | constant _ v, constant _ w => v == w
  | _, _ => true

theorem equalParams_eq_true_iff {ps qs : List Param} :
    equalParams ps qs = true ↔
      (ps.map fun p => (p.ty, p.name)) = qs.map fun q => (q.ty, q.name) := by
  induction ps generalizing qs with
  | nil => cases qs <;> simp [equalParams]
  | cons p ps ih => cases qs <;> simp [equalParams, Param.matchesShape, ih]

/-- Nodes are alike when their labels are equal and, where constants count, their values. -/
theorem isAlike_iff :
    isAlike ic a b = true ↔ a.label = b.label ∧ (ic = true ∨ equalConstants a b = true) := by
  cases a <;> cases b <;>
    simp [isAlike, label, kind, detail, equalConstants, equalParams_eq_true_iff, and_assoc]

theorem equalConstants_comm (a b : Expr) : equalConstants a b = equalConstants b a := by
  cases a <;> cases b <;> simp [equalConstants, BEq.comm]

theorem equalConstants_trans (h : a.kind = b.kind) (hab : equalConstants a b = true)
    (hbc : equalConstants b c = true) : equalConstants a c = true := by
  cases a with
  | constant _ u =>
    cases b with
    | constant _ v =>
      cases c with
      | constant _ w => exact BEq.trans hab hbc
      | _ => rfl
    | _ => simp [kind] at h
  | _ => rfl

theorem isAlike_comm (a b : Expr) : isAlike ic a b = isAlike ic b a := by
  rw [Bool.eq_iff_iff, isAlike_iff, isAlike_iff, equalConstants_comm, eq_comm (a := a.label)]

theorem isAlike_trans (hab : isAlike ic a b = true) (hbc : isAlike ic b c = true) :
    isAlike ic a c = true := by
  rw [isAlike_iff] at hab hbc ⊢
  refine ⟨hab.1.trans hbc.1, ?_⟩
  rcases hab.2 with h | h
  · exact .inl h
  · exact hbc.2.imp id (equalConstants_trans (congrArg Label.kind hab.1) h)

/-- Alike nodes have as many places for children. -/
theorem length_slots_of_isAlike (h : isAlike ic a b = true) : a.slots.length = b.slots.length := by
  have hk : a.kind = b.kind := congrArg Label.kind (isAlike_iff.1 h).1
  cases a <;> cases b <;> simp only [kind, reduceCtorEq] at hk <;> rfl

/-- Alike nodes are foreign together. -/
theorem foreignKind?_of_isAlike (h : isAlike ic a b = true) : a.foreignKind? = b.foreignKind? := by
  have hk : a.kind = b.kind := congrArg Label.kind (isAlike_iff.1 h).1
  cases a <;> cases b <;> simp_all [kind, foreignKind?]

/-! ### Trees without foreign constructs -/

/-- Trees that hold no foreign construct. -/
def Supported (e : Expr) : Prop := e.validate = .ok ()

theorem supported_iff :
    a.Supported ↔ a.foreignKind? = none ∧ ∀ c ∈ a.children, c.Supported := by
  have ok_iff (e : Expr) : e.Supported ↔ e.preOrder.findSome? foreignKind? = none := by
    unfold Supported validate
    split <;> simp_all
  simp only [ok_iff]
  rw [preOrder_eq, List.findSome?_cons]
  cases ha : a.foreignKind? with
  | some kind => simp
  | none => simp [List.findSome?_eq_none_iff, List.mem_flatMap, forall_comm (α := Expr)]

theorem Supported.foreignKind?_eq_none (ha : a.Supported) {d : Expr} (hd : d ∈ a.preOrder) :
    d.foreignKind? = none := by
  unfold Supported validate at ha
  split at ha
  · cases ha
  · next h => exact List.findSome?_eq_none_iff.1 h d hd

/-! ### Lists, place by place -/

/-- Children that stand in the same places are related. -/
def Slotwise (S : Expr → Expr → Prop) (a b : Expr) : Prop :=
  List.Forall₂ (List.Forall₂ S) a.slots b.slots

theorem Slotwise.imp_of_mem {S T : Expr → Expr → Prop} (h : Slotwise S a b)
    (himp : ∀ c ∈ a.children, ∀ d ∈ b.children, S c d → T c d) : Slotwise T a b := by
  refine forall₂_imp_of_mem h fun cs hcs ds hds hS => forall₂_imp_of_mem hS fun c hc d hd => ?_
  exact himp c (mem_children_of_mem_slots hcs hc) d (mem_children_of_mem_slots hds hd)

theorem Slotwise.flip {S : Expr → Expr → Prop} (h : Slotwise S a b) :
    Slotwise (fun c d => S d c) b a :=
  List.Forall₂.flip (h.imp fun _ _ hS => List.Forall₂.flip hS)

theorem Slotwise.trans {S T : Expr → Expr → Prop} (hab : Slotwise S a b) (hbc : Slotwise T b c) :
    Slotwise (fun x z => ∃ y ∈ b.children, S x y ∧ T y z) a c := by
  refine (forall₂_trans hab hbc).imp ?_
  rintro cs es ⟨ds, hds, hS, hT⟩
  refine (forall₂_trans hS hT).imp ?_
  rintro x z ⟨y, hy, h⟩
  exact ⟨y, mem_children_of_mem_slots hds hy, h⟩

theorem Slotwise.children {S : Expr → Expr → Prop} (h : Slotwise S a b) :
    List.Forall₂ S a.children b.children := by
  have flatten {xss yss : List (List Expr)} (h : List.Forall₂ (List.Forall₂ S) xss yss) :
      List.Forall₂ S xss.flatten yss.flatten := by
    induction h with
    | nil => exact .nil
    | cons hxs _ ih => exact List.rel_append hxs ih
  simpa only [flatten_slots] using flatten h

/-! ### Whole trees -/

/-- Comparing two trees finds no difference. -/
def SameShape (ic : Bool) (a b : Expr) : Prop := (equalNodes ic a b).val = .ok true

theorem SameShape.refl (ic : Bool) (e : Expr) : SameShape ic e e := equalNodes_self ic e

theorem structEq_eq_ok_true_iff : a.structEq b ic = .ok true ↔ SameShape ic a b := by
  unfold structEq SameShape
  split <;> simp_all

theorem allM_eq_ok_true_iff {α ε : Type} {f : α → Except ε Bool} {xs : List α} :
    xs.allM f = .ok true ↔ ∀ x ∈ xs, f x = .ok true := by
  refine ⟨fun h => ?_, allM_eq_ok_true⟩
  induction xs with
  | nil => simp
  | cons x xs ih =>
    rw [List.allM] at h
    cases hx : f x with
    | error e => rw [hx] at h; cases h
    | ok answer =>
      rw [hx] at h
      cases answer with
      | false => cases h
      | true => exact List.forall_mem_cons.2 ⟨hx, ih h⟩

theorem equalLists_eq_ok_true_iff {as bs : List Expr} :
    equalLists ic as bs = .ok true ↔ List.Forall₂ (SameShape ic) as bs := by
  rw [← equalAll_eq, equalAll, List.forall₂_iff_zip]
  simp only [allM_attach fun p : Expr × Expr => (equalNodes ic p.1 p.2).val]
  split
  · next h => simp [allM_eq_ok_true_iff, h, SameShape]
  · next h => simp [h]

/-- Trees of one shape agree at the root and below it. -/
theorem sameShape_iff (h : a.foreignKind? = none) :
    SameShape ic a b ↔ isAlike ic a b = true ∧ Slotwise (SameShape ic) a b := by
  rw [SameShape, equalNodes_eq]
  split
  · next hab =>
    simp only [h, Slotwise, List.forall₂_iff_zip, length_slots_of_isAlike hab, allM_eq_ok_true_iff,
      hab, true_and, Prod.forall, equalLists_eq_ok_true_iff]
  · next hab => simp [hab]

theorem SameShape.isAlike (h : SameShape ic a b) : isAlike ic a b = true := by
  rw [SameShape, equalNodes_eq] at h
  split at h
  · assumption
  · cases h

theorem SameShape.slotwise (ha : a.Supported) (h : SameShape ic a b) :
    Slotwise (SameShape ic) a b :=
  ((sameShape_iff (supported_iff.1 ha).1).1 h).2

/-! ### Nodes of one shape -/

/-- Lambdas have parameters of the same names and types, and their bodies are related. -/
def SameNames (S : Expr → Expr → Prop) (ps ps' : List Param) (b b' : Expr) : Prop :=
  (ps.map fun p => (p.ty, p.name)) = (ps'.map fun p => (p.ty, p.name)) ∧ S b b'

theorem Parallel.foreignKind?_eq {S : Expr → Expr → Prop}
    {B : List Param → List Param → Expr → Expr → Prop} (h : Parallel S B a b) :
    a.foreignKind? = b.foreignKind? := by
  cases h <;> rfl

/-- A node over children of one shape, with the shape of a node that is alike. -/
theorem Parallel.sameShape (h : Parallel (SameShape ic) (SameNames (SameShape ic)) a b)
    (hforeign : a.foreignKind? = none) : SameShape ic a b := by
  have option {c c' : Option Expr} (hc : Option.Rel (SameShape ic) c c') :
      List.Forall₂ (SameShape ic) c.toList c'.toList := by
    cases hc with
    | none => exact .nil
    | some hc => exact .cons hc .nil
  have one {c c' : Expr} (hc : SameShape ic c c') : List.Forall₂ (SameShape ic) [c] [c'] :=
    .cons hc .nil
  have alike {a b : Expr} (hlabel : a.label = b.label) (hvalue : equalConstants a b = true) :
      isAlike ic a b = true :=
    isAlike_iff.2 ⟨hlabel, .inr hvalue⟩
  cases h with
  | constant s v => exact .refl ic _
  | parameter p => exact .refl ic _
  | extension kind has => cases hforeign
  | lambda hb =>
    refine (sameShape_iff rfl).2 ⟨alike ?_ rfl, .cons (one hb.2) .nil⟩
    simp only [label, kind, detail, hb.1]
    rfl
  | binary op lifting method hl hr hc =>
    exact (sameShape_iff rfl).2
      ⟨alike rfl rfl, .cons (one hl) (.cons (one hr) (.cons (option hc) .nil))⟩
  | unary op lifted method hx => exact (sameShape_iff rfl).2 ⟨alike rfl rfl, .cons (one hx) .nil⟩
  | conditional hq hx hy =>
    exact (sameShape_iff rfl).2
      ⟨alike rfl rfl, .cons (one hq) (.cons (one hx) (.cons (one hy) .nil))⟩
  | member hr d => exact (sameShape_iff rfl).2 ⟨alike rfl rfl, .cons (option hr) .nil⟩
  | call hr method has =>
    exact (sameShape_iff rfl).2 ⟨alike rfl rfl, .cons (option hr) (.cons has .nil)⟩
  | new ctor has => exact (sameShape_iff rfl).2 ⟨alike rfl rfl, .cons has .nil⟩
  | newArray element has => exact (sameShape_iff rfl).2 ⟨alike rfl rfl, .cons has .nil⟩
  | index hr indexer has =>
    exact (sameShape_iff rfl).2 ⟨alike rfl rfl, .cons (one hr) (.cons has .nil)⟩
  | typeIs hx target => exact (sameShape_iff rfl).2 ⟨alike rfl rfl, .cons (one hx) .nil⟩
  | raise hx => exact (sameShape_iff rfl).2 ⟨alike rfl rfl, .cons (one hx) .nil⟩

/-- Nodes of one shape that are no leaves are alike, over children of one shape. -/
theorem SameShape.parallel (h : SameShape ic a b) (hforeign : a.foreignKind? = none)
    (hleaf : a.isLeaf = false) : Parallel (SameShape ic) (SameNames (SameShape ic)) a b := by
  obtain ⟨halike, hslots⟩ := (sameShape_iff hforeign).1 h
  have hlabel := (isAlike_iff.1 halike).1
  have one {c c' : Expr} (hc : List.Forall₂ (SameShape ic) [c] [c']) : SameShape ic c c' := by
    cases hc with
    | cons hc _ => exact hc
  have option {c c' : Option Expr} (hc : List.Forall₂ (SameShape ic) c.toList c'.toList) :
      Option.Rel (SameShape ic) c c' := by
    cases c <;> cases c' <;> first | exact .none | exact .some (one hc) | cases hc
  cases a <;> cases b <;>
    simp only [label, kind, detail, ty, stamp, Label.mk.injEq, reduceCtorEq, false_and, true_and,
      NodeKind.binary.injEq, NodeKind.unary.injEq, Detail.binary.injEq, Detail.unary.injEq,
      Detail.member.injEq, Detail.call.injEq, Detail.new.injEq, Detail.newArray.injEq,
      Detail.index.injEq, Detail.typeIs.injEq, Detail.lambda.injEq, and_true] at hlabel
  case constant.constant => cases hleaf
  case parameter.parameter => cases hleaf
  case extension.extension => cases hforeign
  case binary.binary s op lifting method l r c s' op' lifting' method' l' r' c' =>
    obtain ⟨n, t⟩ := s
    obtain ⟨n', t'⟩ := s'
    obtain ⟨rfl, rfl, rfl, rfl⟩ := hlabel
    rcases hslots with _ | ⟨hl, _ | ⟨hr, _ | ⟨hc, -⟩⟩⟩
    exact .binary op lifting method (one hl) (one hr) (option hc)
  case unary.unary s op lifted method x s' op' lifted' method' x' =>
    obtain ⟨n, t⟩ := s
    obtain ⟨n', t'⟩ := s'
    obtain ⟨rfl, rfl, rfl, rfl⟩ := hlabel
    rcases hslots with _ | ⟨hx, -⟩
    exact .unary op lifted method (one hx)
  case conditional.conditional s q x y s' q' x' y' =>
    obtain ⟨n, t⟩ := s
    obtain ⟨n', t'⟩ := s'
    obtain rfl := hlabel
    rcases hslots with _ | ⟨hq, _ | ⟨hx, _ | ⟨hy, -⟩⟩⟩
    exact .conditional (one hq) (one hx) (one hy)
  case member.member s r d s' r' d' =>
    obtain ⟨n, t⟩ := s
    obtain ⟨n', t'⟩ := s'
    obtain ⟨rfl, rfl⟩ := hlabel
    rcases hslots with _ | ⟨hr, -⟩
    exact .member (option hr) d
  case call.call s r method as s' r' method' as' =>
    obtain ⟨n, t⟩ := s
    obtain ⟨n', t'⟩ := s'
    obtain ⟨rfl, rfl⟩ := hlabel
    rcases hslots with _ | ⟨hr, _ | ⟨has, -⟩⟩
    exact .call (option hr) method has
  case new.new s ctor as s' ctor' as' =>
    obtain ⟨n, t⟩ := s
    obtain ⟨n', t'⟩ := s'
    obtain ⟨rfl, rfl⟩ := hlabel
    rcases hslots with _ | ⟨has, -⟩
    exact .new ctor has
  case newArray.newArray s element as s' element' as' =>
    obtain ⟨n, t⟩ := s
    obtain ⟨n', t'⟩ := s'
    obtain ⟨rfl, rfl⟩ := hlabel
    rcases hslots with _ | ⟨has, -⟩
    exact .newArray element has
  case index.index s r indexer as s' r' indexer' as' =>
    obtain ⟨n, t⟩ := s
    obtain ⟨n', t'⟩ := s'
    obtain ⟨rfl, rfl⟩ := hlabel
    rcases hslots with _ | ⟨hr, _ | ⟨has, -⟩⟩
    exact .index (one hr) indexer has
  case typeIs.typeIs s x target s' x' target' =>
    obtain ⟨n, t⟩ := s
    obtain ⟨n', t'⟩ := s'
    obtain ⟨rfl, rfl⟩ := hlabel
    rcases hslots with _ | ⟨hx, -⟩
    exact .typeIs (one hx) target
  case lambda.lambda s ps b s' ps' b' =>
    obtain ⟨n, t⟩ := s
    obtain ⟨n', t'⟩ := s'
    obtain ⟨rfl, hnames⟩ := hlabel
    rcases hslots with _ | ⟨hb, -⟩
    exact .lambda ⟨hnames, one hb⟩
  case raise.raise s x s' x' =>
    obtain ⟨n, t⟩ := s
    obtain ⟨n', t'⟩ := s'
    obtain rfl := hlabel
    rcases hslots with _ | ⟨hx, -⟩
    exact .raise (one hx)

/-- A tree of the shape of one without foreign constructs has none either. -/
theorem SameShape.supported (ha : a.Supported) (h : SameShape ic a b) : b.Supported := by
  induction a using induction_children generalizing b with
  | step a ih =>
    have hroot := (supported_iff.1 ha).1
    refine supported_iff.2 ⟨(foreignKind?_of_isAlike h.isAlike).symm.trans hroot, fun d hd => ?_⟩
    have hchildren := (h.slotwise ha).children
    obtain ⟨c, hc, hcd⟩ : ∃ c ∈ a.children, SameShape ic c d := by
      obtain ⟨i, hi, rfl⟩ := List.mem_iff_getElem.1 hd
      rw [List.forall₂_iff_get] at hchildren
      exact ⟨_, List.getElem_mem (hchildren.1 ▸ hi), hchildren.2 i _ hi⟩
    exact ih c hc ((supported_iff.1 ha).2 c hc) hcd

theorem SameShape.symm (ha : a.Supported) (h : SameShape ic a b) : SameShape ic b a := by
  induction a using induction_children generalizing b with
  | step a ih =>
    refine (sameShape_iff (supported_iff.1 (h.supported ha)).1).2 ⟨?_, ?_⟩
    · rw [isAlike_comm]
      exact h.isAlike
    · refine (h.slotwise ha).flip.imp_of_mem fun d _ c hc hcd => ?_
      exact ih c hc ((supported_iff.1 ha).2 c hc) hcd

theorem SameShape.trans (ha : a.Supported) (hab : SameShape ic a b) (hbc : SameShape ic b c) :
    SameShape ic a c := by
  induction a using induction_children generalizing b c with
  | step a ih =>
    have hroot := (supported_iff.1 ha).1
    refine (sameShape_iff hroot).2 ⟨isAlike_trans hab.isAlike hbc.isAlike, ?_⟩
    have hslots := (hab.slotwise ha).trans (hbc.slotwise (hab.supported ha))
    refine hslots.imp_of_mem fun x hx z _ => ?_
    rintro ⟨y, -, hxy, hyz⟩
    exact ih x hx ((supported_iff.1 ha).2 x hx) hxy hyz

/-- Trees of one shape are alike node by node. -/
theorem SameShape.preOrder (ha : a.Supported) (h : SameShape ic a b) :
    List.Forall₂ (fun d d' => Expr.isAlike ic d d' = true) a.preOrder b.preOrder := by
  induction a using induction_children generalizing b with
  | step a ih =>
    rw [preOrder_eq a, preOrder_eq b]
    refine .cons h.isAlike ?_
    have below := forall₂_imp_of_mem (h.slotwise ha).children fun c hc _ _ h =>
      ih c hc ((supported_iff.1 ha).2 c hc) h
    exact List.rel_flatMap below fun _ _ h => h

/-- Trees of one shape have as many nodes of a kind. -/
theorem SameShape.length_filterMap {α : Type} {f : Expr → Option α}
    (hf : ∀ a b : Expr, a.kind = b.kind → (f a).isSome = (f b).isSome) (ha : a.Supported)
    (h : SameShape ic a b) :
    (a.preOrder.filterMap f).length = (b.preOrder.filterMap f).length := by
  have found (d d' : Expr) (hdd : Expr.isAlike ic d d' = true) :
      Option.Rel (fun _ _ => True) (f d) (f d') := by
    have isSome_eq := hf d d' (congrArg Label.kind (isAlike_iff.1 hdd).1)
    cases hd : f d <;> cases hd' : f d' <;> rw [hd, hd'] at isSome_eq <;>
      first | exact .none | exact .some trivial | cases isSome_eq
  exact (List.rel_filterMap found (h.preOrder ha)).length_eq

theorem SameShape.length_constants (ha : a.Supported) (h : SameShape ic a b) :
    a.constants.length = b.constants.length := by
  refine h.length_filterMap (fun a b hkind => ?_) ha
  cases a <;> cases b <;> first | rfl | cases hkind

theorem SameShape.length_occurrences (ha : a.Supported) (h : SameShape ic a b) :
    a.occurrences.length = b.occurrences.length := by
  refine h.length_filterMap (fun a b hkind => ?_) ha
  cases a <;> cases b <;> first | rfl | cases hkind

/-- A comparison of a tree without foreign constructs comes to an answer. -/
theorem equalNodes_isOk (ha : a.Supported) (b : Expr) :
    ∃ answer, (equalNodes ic a b).val = .ok answer := by
  induction a using induction_children generalizing b with
  | step a ih =>
    have lists {as bs : List Expr} (has : ∀ c ∈ as, c ∈ a.children) :
        ∃ answer, equalLists ic as bs = .ok answer := by
      induction as generalizing bs with
      | nil => cases bs <;> exact ⟨_, rfl⟩
      | cons c cs ihs =>
        cases bs with
        | nil => exact ⟨_, rfl⟩
        | cons d ds =>
          rw [equalLists]
          split
          · have hc := has c List.mem_cons_self
            obtain ⟨answer, hcd⟩ := ih c hc ((supported_iff.1 ha).2 c hc) d
            rw [hcd]
            cases answer with
            | false => exact ⟨_, rfl⟩
            | true => exact ihs fun x hx => has x (List.mem_cons_of_mem _ hx)
          · exact ⟨_, rfl⟩
    have places {ps : List (List Expr × List Expr)} (hps : ∀ p ∈ ps, ∀ c ∈ p.1, c ∈ a.children) :
        ∃ answer, ps.allM (fun p => equalLists ic p.1 p.2) = .ok answer := by
      induction ps with
      | nil => exact ⟨_, rfl⟩
      | cons p ps ihs =>
        obtain ⟨answer, hp⟩ := @lists p.1 p.2 (hps p List.mem_cons_self)
        rw [List.allM, hp]
        cases answer with
        | false => exact ⟨_, rfl⟩
        | true => exact ihs fun q hq => hps q (List.mem_cons_of_mem _ hq)
    rw [equalNodes_eq, (supported_iff.1 ha).1]
    split
    · exact places fun p hp c hc => mem_children_of_mem_slots (List.of_mem_zip hp).1 hc
    · exact ⟨_, rfl⟩

/-! ### Hashes -/

variable (hasher : LeafHasher)

/-- Alike nodes over bodies of one type fold the same details. -/
theorem mixDetails_eq (maxDepth : Option Nat) (depth : Nat) (h : Fnv) (hab : isAlike ic a b = true)
    (hbody : a.children.map ty = b.children.map ty) :
    a.mixDetails hasher ic maxDepth depth h = b.mixDetails hasher ic maxDepth depth h := by
  obtain ⟨hlabel, hvalue⟩ := isAlike_iff.1 hab
  have params {ps qs : List Param} {h : Fnv}
      (hpq : (ps.map fun p => (p.ty, p.name)) = qs.map fun q => (q.ty, q.name)) :
      ps.foldl (mixParam hasher maxDepth (depth + 1)) h =
        qs.foldl (mixParam hasher maxDepth (depth + 1)) h := by
    induction ps generalizing qs h with
    | nil => cases qs <;> simp_all
    | cons p ps ih =>
      cases qs with
      | nil => simp at hpq
      | cons q qs =>
        simp only [List.map_cons, List.cons.injEq, Prod.mk.injEq] at hpq
        rw [List.foldl_cons, List.foldl_cons, mixParam, mixParam, hpq.1.1]
        exact ih hpq.2
  cases a <;> cases b <;> simp only [label, kind, detail, Label.mk.injEq, reduceCtorEq, false_and,
    NodeKind.binary.injEq, NodeKind.unary.injEq, NodeKind.extension.injEq] at hlabel <;>
    simp only [mixDetails]
  case constant v _ w =>
    rcases hvalue with rfl | hv
    · simp only [if_true]
    · rw [Value.hashCode_eq_of_beq hasher hv]
  case parameter p q => rw [show p.ty = q.ty from hlabel.2.1]
  case member => rw [Detail.member.inj hlabel.2.2]
  case call => rw [Detail.call.inj hlabel.2.2]
  case lambda ps body _ qs body' =>
    have hty : body.ty = body'.ty := by simpa [children] using hbody
    rw [hty]
    exact params (Detail.lambda.inj hlabel.2.2)

/-- Children that fold alike from any accumulator fold alike one after the other. -/
theorem foldl_mixNode_eq {maxDepth : Option Nat} {depth : Nat} {as bs : List Expr}
    (hab : List.Forall₂ (fun c d => ∀ h, c.mixNode hasher ic maxDepth depth h =
      d.mixNode hasher ic maxDepth depth h) as bs) (h : Fnv) :
    as.foldl (fun h c => c.mixNode hasher ic maxDepth depth h) h =
      bs.foldl (fun h c => c.mixNode hasher ic maxDepth depth h) h := by
  induction hab generalizing h with
  | nil => rfl
  | cons hcd _ ih => rw [List.foldl_cons, List.foldl_cons, hcd, ih]

/-- A foreign node of the first tree and a node of the second are one object if they have one
identity. Identities that are minted for the nodes see to it. -/
def SharesForeign (a b : Expr) : Prop :=
  ∀ d ∈ a.preOrder, d.foreignKind?.isSome = true → ∀ d' ∈ b.preOrder, d.same d' = true → d = d'

theorem Supported.sharesForeign (ha : a.Supported) (b : Expr) : a.SharesForeign b := by
  intro d hd hforeign
  rw [Option.isSome_iff_ne_none] at hforeign
  exact (hforeign (ha.foreignKind?_eq_none hd)).elim

theorem SharesForeign.children (h : a.SharesForeign b) {c d : Expr} (hc : c ∈ a.children)
    (hd : d ∈ b.children) : c.SharesForeign d := by
  intro x hx hforeign y hy
  exact h x (mem_preOrder_trans (mem_preOrder_of_mem_children hc) hx) hforeign y
    (mem_preOrder_trans (mem_preOrder_of_mem_children hd) hy)

/-- A foreign node has the shape of no other node. -/
theorem SameShape.eq_of_foreign (hab : SameShape ic a b) (h : a.SharesForeign b)
    (hforeign : a.foreignKind? ≠ none) : a = b := by
  obtain ⟨kind, hkind⟩ := Option.ne_none_iff_exists'.1 hforeign
  have halike := hab.isAlike
  rw [SameShape, equalNodes_eq, if_pos halike] at hab
  simp only [hkind] at hab
  by_cases hsame : a.same b = true
  · exact h a (mem_preOrder_self a) (hkind ▸ rfl) b (mem_preOrder_self b) hsame
  · rw [if_neg hsame] at hab
    cases hab

theorem SameShape.mixNode_eq (h : a.SharesForeign b) (hab : SameShape ic a b)
    (maxDepth : Option Nat) (depth : Nat) (acc : Fnv) :
    a.mixNode hasher ic maxDepth depth acc = b.mixNode hasher ic maxDepth depth acc := by
  induction a using induction_children generalizing b depth acc with
  | step a ih =>
    by_cases hforeign : a.foreignKind? = none
    · have hkind : a.kind = b.kind := congrArg Label.kind (isAlike_iff.1 hab.isAlike).1
      have hchildren := ((sameShape_iff hforeign).1 hab).2.children
      have htys : a.children.map ty = b.children.map ty :=
        map_eq_map_iff.2
          (hchildren.imp fun _ _ h => congrArg Label.ty (isAlike_iff.1 h.isAlike).1)
      have hfold : List.Forall₂ (fun c d => ∀ acc, c.mixNode hasher ic maxDepth (depth + 1) acc =
          d.mixNode hasher ic maxDepth (depth + 1) acc) a.children b.children :=
        forall₂_imp_of_mem hchildren fun c hc d hd hcd acc =>
          ih c hc (h.children hc hd) hcd (depth + 1) acc
      rw [mixNode_eq, mixNode_eq, hkind, mixDetails_eq hasher maxDepth depth _ hab.isAlike htys]
      rw [foldl_mixNode_eq hasher hfold]
    · rw [hab.eq_of_foreign h hforeign]

/-- Trees of one shape have one hash, over any hasher and to every depth. -/
theorem SameShape.structHash_eq (h : a.SharesForeign b) (hab : SameShape ic a b)
    (maxDepth : Option Nat) :
    a.structHash hasher ic maxDepth = b.structHash hasher ic maxDepth := by
  rw [structHash, structHash, hab.mixNode_eq hasher h]

end ExprTree.Expr
