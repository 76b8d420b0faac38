import ExprTree.Proofs.Simulation
import ExprTree.Proofs.StructuralEquality

/-!
# Values that are alike

A quoted lambda is a value, and two evaluations may quote trees that look the same and are not the
same. `Value.Alike` is equality of values with quotes compared structurally. Evaluation cannot tell
alike values apart, with the exception of the operators that compare them: these ask whether two
quotes are the same node.

## Main definitions

* `Expr.Alike`: two trees of one shape with the same constants.
* `Value.Alike`: equality of values up to quotes that are alike.

## Main results

* `Expr.Alike.of_parallel`: nodes that are alike over children that are alike.
* `Value.congruence_alike`: evaluation cannot tell alike values apart.
* `Value.builtinResult_agrees`: nor can built-in operators other than comparisons for equality.
-/

set_option autoImplicit false

namespace ExprTree

namespace Expr

/-! ### Trees -/

/-- Two trees without foreign constructs have one shape and the same constants. -/
structure Alike (e e' : Expr) : Prop where
  supported : e.Supported
  sameShape : SameShape true e e'
  constants_eq : e.constants = e'.constants

variable {e e' : Expr}

theorem Alike.refl (he : e.Supported) : e.Alike e := ⟨he, .refl true e, rfl⟩

theorem Alike.ty_eq (h : e.Alike e') : e.ty = e'.ty :=
  congrArg Label.ty (isAlike_iff.1 h.sameShape.isAlike).1

theorem alike_constant (n n' : NodeId) (t : Ty) (v : Value) :
    Alike (.constant ⟨n, t⟩ v) (.constant ⟨n', t⟩ v) where
  supported := rfl
  sameShape := (sameShape_iff rfl).2 ⟨isAlike_iff.2 ⟨rfl, .inl rfl⟩, .nil⟩
  constants_eq := rfl

theorem alike_parameter {p q : Param} (hname : p.name = q.name) (hty : p.ty = q.ty) :
    Alike (.parameter p) (.parameter q) where
  supported := rfl
  sameShape := by
    refine (sameShape_iff rfl).2 ⟨isAlike_iff.2 ⟨?_, .inl rfl⟩, .nil⟩
    simp [label, kind, detail, ty, stamp, hname, hty]
  constants_eq := rfl

/-- Nodes that are alike over children that are alike. -/
theorem Alike.of_parallel (h : Parallel Alike (SameNames Alike) e e')
    (hforeign : e.foreignKind? = none) : e.Alike e' := by
  have hconstant : e.constant? = e'.constant? := by cases h <;> rfl
  have hchildren : List.Forall₂ Alike e.children e'.children := h.children fun _ _ _ _ hb => hb.2
  refine ⟨supported_iff.2 ⟨hforeign, ?_⟩, ?_, ?_⟩
  · exact forall_right_of_forall₂ hchildren.flip fun _ _ _ h => h.supported
  · refine Parallel.sameShape (h.imp_of_mem (fun _ _ _ _ h => h.sameShape) ?_) hforeign
    exact fun _ _ _ _ _ _ h => ⟨h.1, h.2.sameShape⟩
  · rw [constants_cons e, constants_cons e', hconstant]
    congr 1
    exact flatMap_eq_of_forall₂ (hchildren.imp fun _ _ h => h.constants_eq)

/-- Trees that are alike and no leaves are alike node by node. -/
theorem Alike.parallel (h : e.Alike e') (hleaf : e.isLeaf = false) :
    Parallel Alike (SameNames Alike) e e' := by
  obtain ⟨hforeign, hsupported⟩ := supported_iff.1 h.supported
  have shapes := h.sameShape.parallel hforeign hleaf
  have hchildren := shapes.children fun _ _ _ _ hb => hb.2
  have hconstants := h.constants_eq
  rw [constants_cons e, constants_cons e'] at hconstants
  rw [constant?_of_isLeaf hleaf, constant?_of_isLeaf (shapes.isLeaf_eq.symm.trans hleaf)] at hconstants
  have equal := forall₂_of_flatMap_eq hchildren
    (fun c hc c' hcc => hcc.length_constants (hsupported c hc)) hconstants
  refine (shapes.with_children equal).imp_of_mem ?_ ?_
  · exact fun c hc c' _ hcc => ⟨hsupported c hc, hcc.1, hcc.2⟩
  · exact fun ps ps' c hc c' _ hcc => ⟨hcc.1.1, hsupported c hc, hcc.2.1, hcc.2.2⟩

/-- Trees are alike when they are constants of one value, or parameters of one name, or alike at the
root and below it. -/
theorem Alike.cases (h : e.Alike e') :
    (∃ n n' t v, e = .constant ⟨n, t⟩ v ∧ e' = .constant ⟨n', t⟩ v) ∨
    (∃ p q, e = .parameter p ∧ e' = .parameter q ∧ p.name = q.name ∧ p.ty = q.ty) ∨
    (e.foreignKind? = none ∧ Parallel Alike (SameNames Alike) e e') := by
  cases hleaf : e.isLeaf with
  | false => exact .inr (.inr ⟨(supported_iff.1 h.supported).1, h.parallel hleaf⟩)
  | true =>
    have hlabel := (isAlike_iff.1 h.sameShape.isAlike).1
    cases e with
    | constant s v =>
      cases e' with
      | constant s' v' =>
        obtain ⟨n, t⟩ := s
        obtain ⟨n', t'⟩ := s'
        obtain rfl : t = t' := congrArg Label.ty hlabel
        obtain rfl : v = v' := List.singleton_inj.1 h.constants_eq
        exact .inl ⟨n, n', t, v, rfl, rfl⟩
      | _ => cases congrArg Label.kind hlabel
    | parameter p =>
      cases e' with
      | parameter q =>
        have hname := Detail.name.inj (congrArg Label.detail hlabel)
        exact .inr (.inl ⟨p, q, rfl, rfl, hname, congrArg Label.ty hlabel⟩)
      | _ => cases congrArg Label.kind hlabel
    | _ => cases hleaf

/-- Alike trees are structurally equal, constants included. -/
theorem Alike.structEq (h : e.Alike e') : e.structEq e' false = .ok true := by
  rw [structEq_eq_ok_true_iff]
  induction e using induction_children generalizing e' with
  | step e ih =>
    rcases h.cases with ⟨n, n', t, v, rfl, rfl⟩ | ⟨p, q, rfl, rfl, hname, hty⟩ | ⟨hforeign, hparallel⟩
    · exact (sameShape_iff rfl).2 ⟨isAlike_iff.2 ⟨rfl, .inr BEq.rfl⟩, .nil⟩
    · refine (sameShape_iff rfl).2 ⟨isAlike_iff.2 ⟨?_, .inr rfl⟩, .nil⟩
      simp [label, kind, detail, ty, stamp, hname, hty]
    · refine Parallel.sameShape (hparallel.imp_of_mem ?_ ?_) hforeign
      · exact fun c hc c' _ hcc => ih c hc hcc
      · exact fun ps ps' c hc c' _ hcc => ⟨hcc.1, ih c hc hcc.2⟩

theorem texts_eq_map (es : List Expr) : Expr.texts es = es.map Expr.text := by
  induction es with
  | nil => rfl
  | cons e es ih => simp only [Expr.texts, List.map_cons, ih]

theorem lambdaText_congr {ps ps' : List Param} (h : ps.map Param.name = ps'.map Param.name)
    (body : String) : lambdaText ps body = lambdaText ps' body := by
  unfold lambdaText
  rcases ps with _ | ⟨p, _ | ⟨p', ps⟩⟩ <;> rcases ps' with _ | ⟨q, _ | ⟨q', ps'⟩⟩ <;> simp_all

/-- Nodes that are alike over children with the same text have the same text. -/
theorem Parallel.text_eq {S : Expr → Expr → Prop} (h : Parallel S (SameNames S) e e')
    (hS : ∀ c ∈ e.children, ∀ c', S c c' → c.text = c'.text) : e.text = e'.text := by
  have receiver {r r' : Option Expr} (hr : Option.Rel S r r') (hmem : ∀ c ∈ r, c ∈ e.children) :
      Expr.receiverText r = Expr.receiverText r' := by
    cases hr with
    | none => rfl
    | some hr => simp only [Expr.receiverText, hS _ (hmem _ rfl) _ hr]
  have all {as as' : List Expr} (has : List.Forall₂ S as as') (hmem : ∀ c ∈ as, c ∈ e.children) :
      Expr.texts as = Expr.texts as' := by
    rw [texts_eq_map, texts_eq_map, map_eq_map_iff]
    exact forall₂_imp_of_mem has fun c hc c' _ hcc => hS c (hmem c hc) c' hcc
  cases h with
  | constant | parameter => rfl
  | binary op lifting method hl hr hc =>
    simp only [Expr.text, hS _ (by simp [Expr.children]) _ hl, hS _ (by simp [Expr.children]) _ hr]
  | unary op lifted method hx => simp only [Expr.text, hS _ (by simp [Expr.children]) _ hx]
  | conditional hq hx hy =>
    simp only [Expr.text, hS _ (by simp [Expr.children]) _ hq, hS _ (by simp [Expr.children]) _ hx,
      hS _ (by simp [Expr.children]) _ hy]
  | member hr d => simp only [Expr.text, receiver hr (by simp [Expr.children])]
  | call hr method has =>
    simp only [Expr.text, receiver hr (fun c hc => by simp_all [Expr.children]),
      all has (fun c hc => by simp [Expr.children, hc])]
  | new ctor has => simp only [Expr.text, all has (by simp [Expr.children])]
  | newArray element has => simp only [Expr.text, all has (by simp [Expr.children])]
  | index hr indexer has =>
    simp only [Expr.text, hS _ (by simp [Expr.children]) _ hr, all has (fun c hc => by simp [Expr.children, hc])]
  | typeIs hx target => simp only [Expr.text, hS _ (by simp [Expr.children]) _ hx]
  | lambda hb =>
    have names := congrArg (List.map Prod.snd) hb.1
    simp only [List.map_map] at names
    simp only [Expr.text, hS _ (by simp [Expr.children]) _ hb.2]
    exact lambdaText_congr names _
  | raise hx => simp only [Expr.text, hS _ (by simp [Expr.children]) _ hx]
  | extension kind has => rfl

theorem Alike.text_eq (h : e.Alike e') : e.text = e'.text := by
  induction e using induction_children generalizing e' with
  | step e ih =>
    rcases h.cases with ⟨n, n', t, v, rfl, rfl⟩ | ⟨p, q, rfl, rfl, hname, -⟩ | ⟨-, hparallel⟩
    · rfl
    · exact hname
    · exact hparallel.text_eq fun c hc c' hcc => ih c hc hcc

end Expr

namespace Value

/-! ### Values -/

mutual

/-- Values that are equal up to quotes that are alike. -/
def Alike : Value → Value → Prop
  | array t vs, array u ws => t = u ∧ AlikeAll vs ws
  | lambda e, lambda e' => e = e' ∨ e.Alike e'
  | v, w => v = w

/-- Lists of values that are equal up to quotes that are alike. -/
def AlikeAll : List Value → List Value → Prop
  | [], [] => True
  | v :: vs, w :: ws => Alike v w ∧ AlikeAll vs ws
  | _, _ => False

end

theorem alikeAll_iff {vs ws : List Value} : AlikeAll vs ws ↔ List.Forall₂ Alike vs ws := by
  induction vs generalizing ws with
  | nil => cases ws <;> simp [AlikeAll]
  | cons v vs ih => cases ws <;> simp [AlikeAll, ih]

mutual

theorem Alike.refl : (v : Value) → Alike v v
  | array t vs => by
    rw [Alike]
    exact ⟨rfl, AlikeAll.refl vs⟩
  | lambda e => by
    rw [Alike]
    exact .inl rfl
  | null | void | bool _ | char _ | int _ | f32 _ | f64 _ | str _ | ofEnum .. | object ..
  | error _ => by rw [Alike] <;> simp

theorem AlikeAll.refl : (vs : List Value) → AlikeAll vs vs
  | [] => trivial
  | v :: vs => ⟨Alike.refl v, AlikeAll.refl vs⟩

end

variable {v w v' w' : Value}

/-- Alike values are equal, or arrays of alike items, or quotes that are alike. -/
theorem Alike.cases (h : Alike v w) :
    v = w ∨ (∃ t vs ws, v = .array t vs ∧ w = .array t ws ∧ List.Forall₂ Alike vs ws) ∨
    (∃ e e', v = .lambda e ∧ w = .lambda e' ∧ e.Alike e') := by
  cases v with
  | array t vs =>
    cases w with
    | array u ws =>
      rw [Alike] at h
      obtain ⟨rfl, h⟩ := h
      exact .inr (.inl ⟨t, vs, ws, rfl, rfl, alikeAll_iff.1 h⟩)
    | _ => cases h
  | lambda e =>
    cases w with
    | lambda e' =>
      rw [Alike] at h
      rcases h with rfl | h
      · exact .inl rfl
      · exact .inr (.inr ⟨e, e', rfl, rfl, h⟩)
    | _ => cases h
  | _ => rw [Alike] at h <;> first | exact .inl h | simp

theorem alike_array {vs ws : List Value} (h : List.Forall₂ Alike vs ws) (t : Ty) :
    Alike (.array t vs) (.array t ws) := by
  rw [Alike]
  exact ⟨rfl, alikeAll_iff.2 h⟩

theorem alike_lambda {e e' : Expr} (h : e.Alike e') : Alike (.lambda e) (.lambda e') := by
  rw [Alike]
  exact .inr h

/-! ### What evaluation sees of alike values -/

theorem Alike.runtimeTy_eq (h : Alike v w) : v.runtimeTy = w.runtimeTy := by
  rcases h.cases with rfl | ⟨t, vs, ws, rfl, rfl, -⟩ | ⟨e, e', rfl, rfl, hquote⟩
  · rfl
  · rfl
  · exact congrArg some hquote.ty_eq

theorem Alike.isNull_eq (h : Alike v w) : v.isNull = w.isNull := by
  rcases h.cases with rfl | ⟨t, vs, ws, rfl, rfl, -⟩ | ⟨e, e', rfl, rfl, -⟩ <;> rfl

theorem Alike.isInstanceOf_eq (h : Alike v w) (t : Ty) : v.isInstanceOf t = w.isInstanceOf t := by
  unfold isInstanceOf
  rw [h.runtimeTy_eq]

theorem texts_eq_map (vs : List Value) : Value.texts vs = vs.map Value.text := by
  induction vs with
  | nil => rfl
  | cons v vs ih => simp only [Value.texts, List.map_cons, ih]

mutual

theorem Alike.text_eq : {v w : Value} → Alike v w → v.text = w.text
  | .array t vs, w => fun h => by
    cases w with
    | array u ws =>
      rw [Alike] at h
      rw [Value.text, Value.text, AlikeAll.texts_eq h.2]
    | _ => cases h
  | .lambda e, w => fun h => by
    rcases h.cases with rfl | ⟨t, vs, ws, he, -⟩ | ⟨_, e', he, rfl, h⟩
    · rfl
    · cases he
    · cases he
      exact h.text_eq
  | .null, w | .void, w | .bool _, w | .char _, w | .int _, w | .f32 _, w | .f64 _, w | .str _, w
  | .ofEnum .., w | .object .., w | .error _, w => fun h => by
    rcases h.cases with rfl | ⟨t, vs, ws, he, -⟩ | ⟨e, e', he, -⟩
    · rfl
    · cases he
    · cases he

theorem AlikeAll.texts_eq : {vs ws : List Value} → AlikeAll vs ws →
    Value.texts vs = Value.texts ws
  | [], [] => fun _ => rfl
  | [], _ :: _ => fun h => h.elim
  | _ :: _, [] => fun h => h.elim
  | v :: vs, w :: ws => fun h => by
    rw [Value.texts, Value.texts, Alike.text_eq h.1, AlikeAll.texts_eq h.2]

end

/-- A quote or an array, which no operator takes apart but array access and comparison. -/
def isInert : Value → Bool
  | array .. | lambda _ => true
  | _ => false

/-- Alike values that differ are inert. -/
theorem Alike.eq_or_inert (h : Alike v w) : v = w ∨ v.isInert = true ∧ w.isInert = true := by
  rcases h.cases with rfl | ⟨t, vs, ws, rfl, rfl, -⟩ | ⟨e, e', rfl, rfl, -⟩
  · exact .inl rfl
  · exact .inr ⟨rfl, rfl⟩
  · exact .inr ⟨rfl, rfl⟩

variable {op : UnaryOp} {t : Ty}

theorem toIntegral_inert (h : v.isInert = true) (target : Convert.IntegralTarget) (checked : Bool) :
    Convert.toIntegral v target checked = .error (.badCast v target.ty) := by
  cases v <;> first | rfl | cases h

theorem toSingle_inert (h : v.isInert = true) : Convert.toSingle v = .error (.badCast v .f32) := by
  cases v <;> first | rfl | cases h

theorem toDouble_inert (h : v.isInert = true) : Convert.toDouble v = .error (.badCast v .f64) := by
  cases v <;> first | rfl | cases h

theorem Alike.eq_of_not_inert (h : Alike v w) (hv : v.isInert = false) : v = w := by
  refine h.eq_or_inert.resolve_right fun hinert => ?_
  rw [hv] at hinert
  exact Bool.false_ne_true hinert.1

theorem toEnum_agrees (h : Alike v w) (d : EnumDef) :
    Outcome.Agree Alike (Convert.toEnum v d) (Convert.toEnum w d) := by
  have integer_eq : v.integer? = w.integer? := by
    rcases h.cases with rfl | ⟨t, vs, ws, rfl, rfl, -⟩ | ⟨e, e', rfl, rfl, -⟩ <;> rfl
  unfold Convert.toEnum
  rw [integer_eq]
  exact .refl .refl _

/-- The same failure, named by the same text. -/
theorem Alike.badCast_eq (h : Alike v w) (t : Ty) : EvalError.badCast v t = .badCast w t := by
  rw [EvalError.badCast, EvalError.badCast, h.text_eq]

mutual

theorem convertValue_agrees (h : Alike v w) (hv : v.isInert = true) (hw : w.isInert = true)
    (target : Ty) (checked : Bool) :
    Outcome.Agree Alike (Convert.convertValue v target checked)
      (Convert.convertValue w target checked) := by
  unfold Convert.convertValue
  rw [h.runtimeTy_eq]
  split
  · exact h
  · have failure (t : Ty) : Outcome.Agree Alike (.error (.badCast v t)) (.error (.badCast w t)) :=
      congrArg EvalError.rootCause (h.badCast_eq t)
    cases target with
    | ofEnum d =>
      change Outcome.Agree Alike
        (Convert.convertUnderlying v d checked >>= fun u => Convert.toEnum u d)
        (Convert.convertUnderlying w d checked >>= fun u => Convert.toEnum u d)
      exact (convertUnderlying_agrees h hv hw d checked).bind fun _ _ hu => toEnum_agrees hu d
    | f32 => simpa only [toSingle_inert hv, toSingle_inert hw] using failure _
    | f64 => simpa only [toDouble_inert hv, toDouble_inert hw] using failure _
    | int k => simpa only [toIntegral_inert hv, toIntegral_inert hw] using failure _
    | char => simpa only [toIntegral_inert hv, toIntegral_inert hw] using failure _
    | _ => exact failure _
termination_by structural target

theorem convertUnderlying_agrees (h : Alike v w) (hv : v.isInert = true) (hw : w.isInert = true)
    (d : EnumDef) (checked : Bool) :
    Outcome.Agree Alike (Convert.convertUnderlying v d checked)
      (Convert.convertUnderlying w d checked) := by
  cases d with
  | mk _ _ underlying _ => exact convertValue_agrees h hv hw underlying checked
termination_by structural d

end

theorem isNull_of_isInert (h : v.isInert = true) : v.isNull = false := by
  cases v <;> first | rfl | cases h

/-- Alike values are converted alike. -/
theorem convert_agrees (h : Alike v w) (hv : v.isInert = true) (hw : w.isInert = true)
    (source target : Ty) (checked : Bool) :
    Outcome.Agree Alike (Convert.convert v source target checked)
      (Convert.convert w source target checked) := by
  have failure (t : Ty) : Outcome.Agree Alike (.error (.badCast v t)) (.error (.badCast w t)) :=
    congrArg EvalError.rootCause (h.badCast_eq t)
  have kept (p : Prop) [Decidable p] (t : Ty) : Outcome.Agree Alike
      (if p then .ok v else .error (.badCast v t)) (if p then .ok w else .error (.badCast w t)) := by
    split
    · exact h
    · exact failure t
  cases target with
  | nullable inner =>
    unfold Convert.convert
    rw [isNull_of_isInert hv, isNull_of_isInert hw]
    exact convert_agrees h hv hw source.nonNullable inner checked
  | _ =>
    unfold Convert.convert
    simp only [isNull_of_isInert hv, isNull_of_isInert hw, Bool.false_eq_true, if_false,
      h.isInstanceOf_eq, Convert.unbox, h.runtimeTy_eq]
    split
    · exact kept _ _
    · split
      · exact kept _ _
      · exact convertValue_agrees h hv hw _ checked
termination_by structural target

theorem negate_inert (h : v.isInert = true) : Operators.negate op v = .error (.badOperand op v) := by
  cases v <;> first | rfl | cases h

theorem complement_inert (h : v.isInert = true) :
    Operators.complement op v = .error (.badOperand op v) := by
  cases v <;> first | rfl | cases h

theorem not_inert (h : v.isInert = true) :
    Operators.unary .not v = .error (.badOperand .not v) := by
  cases v <;> first | rfl | cases h

/-- Operators with one operand do not tell alike values apart. -/
theorem applyUnary_agrees (h : Alike v w) (op : UnaryOp) (lifted : Bool) (source target : Ty) :
    Outcome.Agree Alike (Step.applyUnary op lifted source target v)
      (Step.applyUnary op lifted source target w) := by
  rcases h.eq_or_inert with rfl | ⟨hv, hw⟩
  · exact .refl .refl _
  have failure (op : UnaryOp) :
      Outcome.Agree Alike (.error (.badOperand op v)) (.error (.badOperand op w)) := by
    rw [EvalError.badOperand, EvalError.badOperand, h.text_eq]
    exact Eq.refl (EvalError.rootCause _)
  have builtin (hop : op.isConversion = false) :
      Step.applyUnary op lifted source target v = Operators.unary op v ∧
        Step.applyUnary op lifted source target w = Operators.unary op w := by
    unfold Step.applyUnary
    rw [isNull_of_isInert hv, isNull_of_isInert hw]
    cases op <;> first | exact ⟨rfl, rfl⟩ | cases hop
  cases op with
  | convert => exact convert_agrees h hv hw source target false
  | convertChecked => exact convert_agrees h hv hw source target true
  | typeAs =>
    change Alike (Convert.typeAs v target) (Convert.typeAs w target)
    unfold Convert.typeAs
    rw [h.isInstanceOf_eq]
    split
    · exact h
    · exact .refl _
  | unaryPlus =>
    rw [(builtin rfl).1, (builtin rfl).2]
    exact h
  | negate | negateChecked =>
    rw [(builtin rfl).1, (builtin rfl).2]
    simpa only [Operators.unary, negate_inert hv, negate_inert hw] using failure _
  | not =>
    rw [(builtin rfl).1, (builtin rfl).2, not_inert hv, not_inert hw]
    exact failure _
  | onesComplement =>
    rw [(builtin rfl).1, (builtin rfl).2]
    simpa only [Operators.unary, complement_inert hv, complement_inert hw] using failure _
  | arrayLength =>
    rw [(builtin rfl).1, (builtin rfl).2]
    simp only [Operators.unary, Operators.arrayLength]
    rcases h.cases with rfl | ⟨t, vs, ws, rfl, rfl, hitems⟩ | ⟨e, e', rfl, rfl, -⟩
    · exact .refl .refl _
    · simp only [items?, hitems.length_eq]
      exact .refl .refl _
    · exact failure _

/-- Array access does not tell alike arrays apart. -/
theorem arrayElement_agrees {i j : Value} (h : Alike v w) (hij : Alike i j) :
    Outcome.Agree Alike (Operators.arrayElement v i) (Operators.arrayElement w j) := by
  have index_eq : Operators.arrayIndex? i = Operators.arrayIndex? j := by
    rcases hij.cases with rfl | ⟨t, vs, ws, rfl, rfl, -⟩ | ⟨e, e', rfl, rfl, -⟩ <;> rfl
  unfold Operators.arrayElement
  rw [index_eq, hij.text_eq, h.text_eq]
  rcases h.cases with rfl | ⟨t, vs, ws, rfl, rfl, hitems⟩ | ⟨e, e', rfl, rfl, -⟩
  · exact .refl .refl _
  · simp only [items?]
    split
    · exact Eq.refl (EvalError.rootCause _)
    · next k _ =>
      have found : Option.Rel Alike (if 0 ≤ k then vs[k.toNat]? else none)
          (if 0 ≤ k then ws[k.toNat]? else none) := by
        split
        · exact forall₂_getElem? hitems _
        · exact .none
      rw [hitems.length_eq]
      revert found
      generalize (if 0 ≤ k then vs[k.toNat]? else none) = x
      generalize (if 0 ≤ k then ws[k.toNat]? else none) = y
      rintro (hitem | _)
      · exact hitem
      · exact Eq.refl (EvalError.rootCause _)
  · exact Eq.refl (EvalError.rootCause _)

/-- **Evaluation cannot tell alike values apart.** -/
theorem congruence_alike : Congruence Alike where
  refl := .refl
  class? h := by
    rcases h.cases with rfl | ⟨t, vs, ws, rfl, rfl, -⟩ | ⟨e, e', rfl, rfl, -⟩ <;> rfl
  isNull := Alike.isNull_eq
  bool? h := by
    rcases h.cases with rfl | ⟨t, vs, ws, rfl, rfl, -⟩ | ⟨e, e', rfl, rfl, -⟩ <;> rfl
  failure? h := by
    rcases h.cases with rfl | ⟨t, vs, ws, rfl, rfl, -⟩ | ⟨e, e', rfl, rfl, -⟩ <;> rfl
  text := Alike.text_eq
  isInstanceOf := Alike.isInstanceOf_eq
  array := alike_array
  arrayElement := arrayElement_agrees
  applyUnary := applyUnary_agrees

theorem binary_inert {op : BinaryOp} (h : v.isInert = true ∨ w.isInert = true) :
    Operators.binary op v w = Operators.unrelated op v w := by
  rcases h with h | h
  · cases v <;> first | rfl | cases h
  · cases w <;> first | cases v <;> rfl | cases h

/-- Built-in operators do not tell alike operands apart, unless they compare them for equality. -/
theorem builtinResult_agrees {op : BinaryOp} (hop : op ≠ .equal ∧ op ≠ .notEqual)
    (lifting : Lifting) (hv : Alike v v') (hw : Alike w w') :
    Outcome.Agree Alike (Step.builtinResult op lifting v w) (Step.builtinResult op lifting v' w') := by
  have null_eq : Operators.liftedNull op lifting v w = Operators.liftedNull op lifting v' w' := by
    unfold Operators.liftedNull
    rw [hv.isNull_eq, hw.isNull_eq]
  unfold Step.builtinResult
  rw [hv.isNull_eq, hw.isNull_eq, null_eq]
  split
  · exact Alike.refl _
  · have other (v w : Value) (h : v.isInert = true ∨ w.isInert = true) :
        Operators.binary op v w = .error (.badOperands op v w) := by
      rw [binary_inert h]
      cases op <;> first | rfl | exact (hop.1 rfl).elim | exact (hop.2 rfl).elim
    have failure : Outcome.Agree Alike (.error (.badOperands op v w))
        (.error (.badOperands op v' w')) := by
      rw [EvalError.badOperands, EvalError.badOperands, hv.text_eq, hw.text_eq]
      exact Eq.refl (EvalError.rootCause _)
    rcases hv.eq_or_inert with rfl | ⟨hv, hv'⟩
    · rcases hw.eq_or_inert with rfl | ⟨hw, hw'⟩
      · exact .refl .refl _
      · rw [other v w (.inr hw), other v w' (.inr hw')]
        exact failure
    · rw [other v w (.inl hv), other v' w' (.inl hv')]
      exact failure

end Value

end ExprTree
