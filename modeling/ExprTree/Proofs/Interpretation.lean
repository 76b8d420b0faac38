import ExprTree.Eval.Interpreter
import ExprTree.Proofs.Replacement
import ExprTree.Proofs.Simulation

/-!
# The meaning of a node

What a node comes to depends on what its operands come to, however they are evaluated. The
interpreter and lowered code both put a node together with `Expr.meaning`, and what is known of
`Step` is said once for it: over operands that agree, two nodes that are alike agree.

A conversion is no operand: it is not evaluated where it stands but applied to a value, with its
parameter bound, so what it has to satisfy is stated apart.

## Main definitions

* `Expr.operands`, `Expr.conversion?`: the children that are evaluated where the node is, and the
  one that is not.
* `Expr.meaning`: what a node comes to over its operands.
* `Expr.ConversionRel`: conversions with related parameters and bodies.

## Main results

* `Expr.meaning_congr`: the meaning of a node is made of what its operands come to.
* `Expr.meaning_simulates`: nodes that are alike agree over operands that agree.
* `Expr.interpret_eq`: interpretation is the meaning over interpreted operands.
* `Expr.interpret_simulates`: interpretations of nodes that are alike agree.
-/

set_option autoImplicit false

namespace ExprTree

namespace Frame

theorem get?_cons_self (id : ParamId) (v : Value) (frame : Frame) :
    Frame.get? ((id, v) :: frame) id = some v := by
  simp [Frame.get?]

theorem get?_cons_of_ne {id other : ParamId} (h : other ≠ id) (v : Value) (frame : Frame) :
    Frame.get? ((id, v) :: frame) other = frame.get? other := by
  have hbeq : (other == id) = false := beq_eq_false_iff_ne.2 h
  rw [Frame.get?, List.lookup_cons, hbeq]
  rfl

end Frame

namespace Expr

/-- The conversion that a node applies to a value instead of evaluating it. -/
def conversion? : Expr → Option Expr
  | binary _ .coalesce _ none _ _ conversion => conversion
  | _ => none

/-- The method that implements the operator, conversion or indexer of a node. -/
def overload? : Expr → Option MethodDef
  | binary _ _ _ method .. => method
  | unary _ _ _ method _ => method
  | index _ _ indexer _ => indexer
  | _ => none

/-- The children of a node that are evaluated where it is. -/
def operands : Expr → List Expr
  | binary _ _ _ _ left right _ => [left, right]
  | e => e.children

theorem mem_children_of_mem_operands {e c : Expr} (h : c ∈ e.operands) : c ∈ e.children := by
  cases e <;> simp_all [operands, children]
  case binary => rcases h with rfl | rfl <;> simp

theorem mem_children_of_mem_conversion? {e c : Expr} (h : c ∈ e.conversion?) :
    c ∈ e.children := by
  unfold conversion? at h
  split at h
  · simp_all [children]
  · cases h

/-- Two conversions are both lambdas, with parameters and bodies related by `Q`, or are both not
applied. -/
inductive ConversionRel (Q : List Param → List Param → Expr → Expr → Prop) : Expr → Expr → Prop
  | lambda {s s' : Stamp} {ps ps' : List Param} {b b' : Expr} (h : Q ps ps' b b') :
      ConversionRel Q (.lambda s ps b) (.lambda s' ps' b')
  | other {c c' : Expr} (hc : c.lambda? = none) (hc' : c'.lambda? = none) : ConversionRel Q c c'

/-- The lambdas that conversions which are related apply. -/
theorem optionRel_lambda? {Q : List Param → List Param → Expr → Expr → Prop} {c c' : Option Expr}
    (h : Option.Rel (ConversionRel Q) c c') :
    Option.Rel (fun l l' => Q l.params l'.params l.body l'.body) (c.bind lambda?)
      (c'.bind lambda?) := by
  cases h with
  | none => exact .none
  | some h =>
    cases h with
    | lambda h => exact .some h
    | other hc hc' =>
      rw [Option.bind_some, Option.bind_some, hc, hc']
      exact .none

/-- A conversion that is a lambda stands for one that is related to it. -/
theorem exists_of_conversionRel {Q : List Param → List Param → Expr → Expr → Prop}
    {c c' : Option Expr} (h : Option.Rel (ConversionRel Q) c c') {l' : Lambda}
    (hl' : l' ∈ c'.bind lambda?) :
    ∃ l ∈ c.bind lambda?, Q l.params l'.params l.body l'.body := by
  have lambdas := optionRel_lambda? h
  rw [Option.mem_def.1 hl'] at lambdas
  generalize c.bind lambda? = found at lambdas
  cases lambdas with
  | some h => exact ⟨_, rfl, h⟩

/-- Where no lambdas are replaced, and nothing by lambdas, a lambda stays one, over the same
parameters, and other trees do not become one. -/
theorem Replaced.conversionRel {hit : Expr → Prop} {leaf : Expr → Expr → Prop} {e e' : Expr}
    (hhit : ∀ {d}, hit d → d.lambda? = none) (hleaf : ∀ {d d'}, leaf d d' → d'.lambda? = none)
    (h : Replaced hit leaf e e') : ConversionRel (SameParams (Replaced hit leaf)) e e' := by
  by_cases hroot : hit e
  · exact .other (hhit hroot) (hleaf (h.leaf_of_hit hroot))
  · cases (h.parallel hroot).1 with
    | lambda hb => exact .lambda hb
    | _ => exact .other rfl rfl

/-- The conversions of two nodes that are alike are related. -/
theorem Parallel.conversion? {S : Expr → Expr → Prop}
    {B : List Param → List Param → Expr → Expr → Prop} {e e' : Expr} (h : Parallel S B e e') :
    Option.Rel S e.conversion? e'.conversion? := by
  cases h with
  | binary op lifting method hl hr hc =>
    cases method with
    | some m => cases op <;> exact .none
    | none => cases op <;> first | exact hc | exact .none
  | _ => exact .none

/-- The operands of two nodes that are alike are related. -/
theorem Parallel.operands {S : Expr → Expr → Prop}
    {B : List Param → List Param → Expr → Expr → Prop} {e e' : Expr} (h : Parallel S B e e')
    (hlambda : e.lambda? = none) : List.Forall₂ S e.operands e'.operands := by
  cases h with
  | constant | parameter => exact .nil
  | binary op lifting method hl hr hc => exact .cons hl (.cons hr .nil)
  | unary op lifted method hx => exact .cons hx .nil
  | conditional hq hx hy => exact .cons hq (.cons hx (.cons hy .nil))
  | member hr d =>
    cases hr with
    | none => exact .nil
    | some hr => exact .cons hr .nil
  | call hr method has =>
    cases hr with
    | none => exact has
    | some hr => exact .cons hr has
  | new ctor has => exact has
  | newArray element has => exact has
  | index hr indexer has => exact .cons hr has
  | typeIs hx target => exact .cons hx .nil
  | lambda hb => cases hlambda
  | raise hx => exact .cons hx .nil
  | extension kind has => exact has

/-- The operands of a node and of one that is like it over the same parameters are related, also where
the nodes are lambdas. -/
theorem Parallel.operands_of_sameParams {S : Expr → Expr → Prop} {e e' : Expr}
    (h : Parallel S (SameParams S) e e') : List.Forall₂ S e.operands e'.operands := by
  cases hl : e.lambda? with
  | none => exact h.operands hl
  | some l =>
    cases h with
    | lambda hb => exact .cons hb.2 .nil
    | _ => cases hl

/-! ### Meanings -/

/-- What a node comes to, given the values of its operands and what becomes of a value that a
coalesce node passes on. A parameter has no meaning of its own. -/
def meaning (reflector : Reflector) (value : Expr → EvalM Value) (pass : Value → EvalM Value)
    (e : Expr) : EvalM Value :=
  match e with
  | constant _ v => return v
  | parameter p => throw (.unboundParameter p.name)
  | binary _ op lifting method left right _ =>
    match method with
    | some m => Step.binaryMethod reflector m (value left) (value right)
    | none =>
      match op with
      | .andAlso => Step.andAlso (value left) (value right)
      | .orElse => Step.orElse (value left) (value right)
      | .coalesce => Step.coalesce (value left) (value right) pass
      | op => Step.builtin op lifting (value left) (value right)
  | unary s op lifted method operand =>
    Step.unary reflector op lifted method operand.ty s.ty (value operand)
  | conditional _ test ifTrue ifFalse =>
    Step.conditional test.ty (value test) (value ifTrue) (value ifFalse)
  | member _ receiver d => Step.member reflector d (receiver.map value)
  | call _ receiver method args => Step.call reflector method (receiver.map value) (args.map value)
  | new _ ctor args => Step.construct reflector ctor (args.map value)
  | newArray _ element items => Step.newArray element (items.map value)
  | index _ receiver indexer args =>
    match indexer with
    | some m => Step.indexer reflector m (value receiver) (args.map value)
    | none => Step.element (value receiver) (args.map value)
  | typeIs _ operand target => Step.typeIs target (value operand)
  | lambda .. => return .lambda e
  | raise _ payload => Step.raise (value payload)
  | extension _ kind _ => throw (.foreign kind)

theorem eq_of_isShortCircuit {op : BinaryOp} (h : op.isShortCircuit = true) :
    op = .andAlso ∨ op = .orElse ∨ op = .coalesce := by
  cases op <;> first | exact absurd h Bool.false_ne_true | simp

theorem meaning_binary_builtin (reflector : Reflector) (value : Expr → EvalM Value)
    (pass : Value → EvalM Value) (s : Stamp) {op : BinaryOp} (hop : op.isShortCircuit = false)
    (lifting : Lifting) (l r : Expr) (c : Option Expr) :
    (Expr.binary s op lifting none l r c).meaning reflector value pass =
      Step.builtin op lifting (value l) (value r) := by
  cases op <;> first | rfl | cases hop

/-- The meaning of a node is made of what its operands come to, and of what is passed on. -/
theorem meaning_congr {reflector : Reflector} {e : Expr} {value value' : Expr → EvalM Value}
    {pass pass' : Value → EvalM Value} (hvalue : ∀ c ∈ e.operands, value c = value' c)
    (hpass : pass = pass') : e.meaning reflector value pass = e.meaning reflector value' pass' := by
  subst hpass
  have option {r : Option Expr} (hr : ∀ c ∈ r, value c = value' c) : r.map value = r.map value' :=
    Option.map_congr hr
  have list {as : List Expr} (has : ∀ c ∈ as, value c = value' c) : as.map value = as.map value' :=
    List.map_congr_left has
  cases e with
  | constant | parameter | lambda | extension => rfl
  | binary s op lifting method l r c =>
    have hl := hvalue l List.mem_cons_self
    have hr := hvalue r (List.mem_cons_of_mem _ List.mem_cons_self)
    simp only [meaning, hl, hr]
  | conditional s t x y =>
    have ht := hvalue t List.mem_cons_self
    have hx := hvalue x (List.mem_cons_of_mem _ List.mem_cons_self)
    have hy := hvalue y (List.mem_cons_of_mem _ (List.mem_cons_of_mem _ List.mem_cons_self))
    simp only [meaning, ht, hx, hy]
  | unary s op lifted method x => simp only [meaning, hvalue x List.mem_cons_self]
  | typeIs s x target => simp only [meaning, hvalue x List.mem_cons_self]
  | raise s x => simp only [meaning, hvalue x List.mem_cons_self]
  | member s r d =>
    have hr := option fun c hc => hvalue c (Option.mem_toList.2 hc)
    simp only [meaning, hr]
  | call s r method as =>
    have hr := option fun c hc => hvalue c (List.mem_append_left _ (Option.mem_toList.2 hc))
    have has := list fun c hc => hvalue c (List.mem_append_right _ hc)
    simp only [meaning, hr, has]
  | new s ctor as => exact congrArg (Step.construct reflector ctor) (list hvalue)
  | newArray s element as => exact congrArg (Step.newArray element) (list hvalue)
  | index s r indexer as =>
    have hr := hvalue r List.mem_cons_self
    have has := list fun c hc => hvalue c (List.mem_cons_of_mem _ hc)
    simp only [meaning, hr, has]

open EvalM

variable {host : Host} {W : World → World → Prop} {R : Value → Value → Prop}
  {reflector : Reflector}

/-- What evaluation reads of the static types of operands makes no difference: a conversion reads the
type of what it converts, and a test that is no truth value is reported with its type. -/
def TypesAlike : Expr → Expr → Prop
  | unary s op lifted none x, unary _ _ _ _ x' => ∀ v,
    Step.applyUnary op lifted x.ty s.ty v = Step.applyUnary op lifted x'.ty s.ty v
  | conditional _ t _ _, conditional _ t' _ _ => t.ty = t'.ty
  | _, _ => True

/-- Over operands that agree, two nodes that are alike agree. Some operands may have to be related
more closely than results: those of built-in operators, which `hbuiltin` is about, and what is passed
on to a conversion. -/
theorem meaning_simulates_of_operands {S : Expr → Expr → Prop}
    {B : List Param → List Param → Expr → Expr → Prop} {e e' : Expr}
    {value value' : Expr → EvalM Value} {pass pass' : Value → EvalM Value}
    {Q : Expr → Value → Value → Prop} (hR : Value.Congruence R)
    (hreflector : reflector.Respects host W R)
    (hQ : ∀ c ∈ e.operands, ∀ v v', Q c v v' → R v v')
    (hbuiltin : ∀ {s op lifting l r c}, e = .binary s op lifting none l r c →
      op.isShortCircuit = false → ∀ {v v' w w'}, Q l v v' → Q r w w' →
      Outcome.Agree R (Step.builtinResult op lifting v w) (Step.builtinResult op lifting v' w'))
    (h : Parallel S B e e') (htypes : TypesAlike e e') (hlambda : e.lambda? = none)
    (hoperands : List.Forall₂ (fun c c' => Simulates host W (Q c) (value c) (value' c'))
      e.operands e'.operands)
    (hpass : ∀ {s lifting l r c}, e = .binary s .coalesce lifting none l r c → ∀ v v', Q l v v' →
      v.isNull = false → Simulates host W R (pass v) (pass' v')) :
    Simulates host W R (e.meaning reflector value pass) (e'.meaning reflector value' pass') := by
  have related : List.Forall₂ (fun c c' => Simulates host W R (value c) (value' c')) e.operands
      e'.operands :=
    forall₂_imp_of_mem hoperands fun c hc _ _ h => h.imp (hQ c hc)
  have all {as as' : List Expr}
      (has : List.Forall₂ (fun c c' => Simulates host W R (value c) (value' c')) as as') :
      List.Forall₂ (Simulates host W R) (as.map value) (as'.map value') := by
    rwa [List.forall₂_map_left_iff, List.forall₂_map_right_iff]
  cases h with
  | constant s v => exact .pure (hR.refl v)
  | parameter p => exact .throw rfl
  | binary op lifting method _ _ _ =>
    rcases hoperands with _ | ⟨hl', _ | ⟨hr', _⟩⟩
    rcases related with _ | ⟨hl, _ | ⟨hr, _⟩⟩
    cases method with
    | some m => exact Step.binaryMethod_simulates hreflector m hl hr
    | none =>
      cases hop : op.isShortCircuit with
      | true =>
        rcases eq_of_isShortCircuit hop with rfl | rfl | rfl
        · exact Step.andAlso_simulates hR hl hr
        · exact Step.orElse_simulates hR hl hr
        · exact Step.coalesce_simulates hR (hQ _ List.mem_cons_self) hl' hr (hpass rfl)
      | false =>
        rw [meaning_binary_builtin _ _ _ _ hop, meaning_binary_builtin _ _ _ _ hop]
        exact Step.builtin_simulates hl' hr' (hbuiltin rfl hop)
  | unary op lifted method _ =>
    rcases related with _ | ⟨hx, _⟩
    refine Step.unary_simulates hR hreflector op lifted method _ ?_ hx
    rintro rfl v
    exact htypes v
  | conditional _ _ _ =>
    rcases related with _ | ⟨ht, _ | ⟨hx, _ | ⟨hy, _⟩⟩⟩
    have hty : _ = _ := htypes
    simp only [meaning, hty]
    exact Step.conditional_simulates hR _ ht hx hy
  | member hr d =>
    cases hr with
    | none => exact Step.member_simulates hR hreflector d .none
    | some _ =>
      rcases related with _ | ⟨hr, _⟩
      exact Step.member_simulates hR hreflector d (.some hr)
  | call hr method _ =>
    cases hr with
    | none => exact Step.call_simulates hR hreflector method .none (all related)
    | some _ =>
      rcases related with _ | ⟨hr, has⟩
      exact Step.call_simulates hR hreflector method (.some hr) (all has)
  | new ctor _ => exact Step.construct_simulates hreflector ctor (all related)
  | newArray element _ => exact Step.newArray_simulates hR element (all related)
  | index _ indexer _ =>
    rcases related with _ | ⟨hr, has⟩
    cases indexer with
    | some m => exact Step.indexer_simulates hR hreflector m hr (all has)
    | none => exact Step.element_simulates hR hr (all has)
  | typeIs _ target =>
    rcases related with _ | ⟨hx, _⟩
    exact Step.typeIs_simulates hR target hx
  | lambda _ => cases hlambda
  | raise _ =>
    rcases related with _ | ⟨hx, _⟩
    exact Step.raise_simulates hR hx
  | extension kind _ => exact .throw rfl

theorem Parallel.typesAlike {S : Expr → Expr → Prop}
    {B : List Param → List Param → Expr → Expr → Prop} {e e' : Expr} (h : Parallel S B e e')
    (hty : ∀ c ∈ e.operands, ∀ c', S c c' → c.ty = c'.ty) : TypesAlike e e' := by
  cases h with
  | unary op lifted method hx =>
    have hx := hty _ List.mem_cons_self _ hx
    cases method with
    | some m => trivial
    | none => exact fun v => by rw [hx]
  | conditional ht hx hy => exact hty _ List.mem_cons_self _ ht
  | _ => trivial

/-- Over operands of the same types that agree, two nodes that are alike agree. -/
theorem meaning_simulates {S : Expr → Expr → Prop}
    {B : List Param → List Param → Expr → Expr → Prop} {e e' : Expr}
    {value value' : Expr → EvalM Value} {pass pass' : Value → EvalM Value}
    {Q : Expr → Value → Value → Prop} (hR : Value.Congruence R)
    (hreflector : reflector.Respects host W R)
    (hQ : ∀ c ∈ e.operands, ∀ v v', Q c v v' → R v v')
    (hbuiltin : ∀ {s op lifting l r c}, e = .binary s op lifting none l r c →
      op.isShortCircuit = false → ∀ {v v' w w'}, Q l v v' → Q r w w' →
      Outcome.Agree R (Step.builtinResult op lifting v w) (Step.builtinResult op lifting v' w'))
    (h : Parallel S B e e') (hlambda : e.lambda? = none)
    (hoperands : ∀ c ∈ e.operands, ∀ c', S c c' → c.ty = c'.ty ∧
      Simulates host W (Q c) (value c) (value' c'))
    (hpass : ∀ {s lifting l r c}, e = .binary s .coalesce lifting none l r c → ∀ v v', Q l v v' →
      Simulates host W R (pass v) (pass' v')) :
    Simulates host W R (e.meaning reflector value pass) (e'.meaning reflector value' pass') :=
  meaning_simulates_of_operands hR hreflector hQ hbuiltin h
    (h.typesAlike fun c hc c' hS => (hoperands c hc c' hS).1) hlambda
    (forall₂_imp_of_mem (h.operands hlambda) fun c hc c' _ hS => (hoperands c hc c' hS).2)
    fun heq v v' hv _ => hpass heq v v' hv

/-! ### Interpretation -/

variable {frame frame' : Frame}

/-- What interpretation makes of a value that is not null, on the left of a coalesce node. -/
def convertLeft (reflector : Reflector) (frame : Frame) (conversion : Option Expr) (v : Value) :
    EvalM Value :=
  match conversion.bind lambda? with
  | some l =>
    if l.params.length = 1 then l.body.interpret reflector (frame.bind l.params [v])
    else throw (.argumentCount l.params.length 1)
  | none => return v

theorem convertLeft_congr {c : Option Expr} (h : ∀ s ps b, lambda s ps b ∈ c → ps.length = 1 →
      ∀ v, b.interpret reflector (frame.bind ps [v]) = b.interpret reflector (frame'.bind ps [v])) :
    convertLeft reflector frame c = convertLeft reflector frame' c := by
  funext v
  unfold convertLeft
  cases hl : c.bind lambda? with
  | none => rfl
  | some l =>
    obtain ⟨c', hc, hlambda⟩ := Option.bind_eq_some_iff.1 hl
    obtain ⟨s, rfl⟩ := eq_of_lambda? hlambda
    exact ite_congr rfl (fun hone => h s l.params l.body hc hone v) fun _ => rfl

/-- Interpretation is the meaning over interpreted operands, and failures name the node. -/
theorem interpret_eq (reflector : Reflector) (frame : Frame) {e : Expr} (he : e.parameter? = none) :
    e.interpret reflector frame =
      .located e (e.meaning reflector (interpret reflector frame)
        (convertLeft reflector frame e.conversion?)) := by
  rw [interpret.eq_def]
  congr 1
  cases e with
  | parameter p => cases he
  | binary s op lifting method l r c =>
    clear he
    cases method with
    | some m => rfl
    | none =>
      cases op with
      | coalesce =>
        refine congrArg (Step.coalesce _ _) (funext fun v => ?_)
        rcases c with _ | c
        · rfl
        · cases c <;> rfl
      | _ => rfl
  | member s r d => simp only [meaning, interpretOption_eq_map]
  | call s r method args => simp only [meaning, interpretOption_eq_map, interpretAll_eq_map]
  | new | newArray => simp only [meaning, interpretAll_eq_map]
  | index s r indexer args => cases indexer <;> simp only [meaning, interpretAll_eq_map]
  | _ => rfl

/-- Conversions of one arity that agree on related values. -/
def ConversionsAgree (host : Host) (W : World → World → Prop) (R : Value → Value → Prop)
    (reflector : Reflector) (frame frame' : Frame) (ps ps' : List Param) (b b' : Expr) : Prop :=
  ps.length = ps'.length ∧ (ps.length = 1 → ∀ v v', R v v' →
    Simulates host W R (b.interpret reflector (frame.bind ps [v]))
      (b'.interpret reflector (frame'.bind ps' [v'])))

theorem convertLeft_simulates {c c' : Option Expr}
    (hc : Option.Rel (ConversionRel (ConversionsAgree host W R reflector frame frame')) c c') {v v' : Value}
    (hv : R v v') :
    Simulates host W R (convertLeft reflector frame c v) (convertLeft reflector frame' c' v') := by
  cases hc with
  | none => exact .pure hv
  | some hc =>
    cases hc with
    | lambda h =>
      obtain ⟨hlength, hb⟩ := h
      simp only [convertLeft, Option.bind_some, lambda?, ← hlength]
      split
      · next hone => exact hb hone v v' hv
      · exact .throw rfl
    | other hc hc' =>
      simp only [convertLeft, Option.bind_some, hc, hc']
      exact .pure hv

/-- Interpretations of two nodes that are alike agree if those of their operands do. -/
theorem interpret_simulates {S : Expr → Expr → Prop}
    {B : List Param → List Param → Expr → Expr → Prop} {e e' : Expr}
    (hR : Value.Congruence R) (hreflector : reflector.Respects host W R)
    (hbuiltin : ∀ op lifting {v v' w w'}, R v v' → R w w' →
      Outcome.Agree R (Step.builtinResult op lifting v w) (Step.builtinResult op lifting v' w'))
    (h : Parallel S B e e') (hlambda : e.lambda? = none)
    (hparameter : ∀ p, e = .parameter p → Option.Rel R (frame.get? p.id) (frame'.get? p.id))
    (hoperands : ∀ c ∈ e.operands, ∀ c', S c c' → c.ty = c'.ty ∧
      Simulates host W R (c.interpret reflector frame) (c'.interpret reflector frame'))
    (hconversion : ∀ c ∈ e.conversion?, ∀ c', S c c' →
      ConversionRel (ConversionsAgree host W R reflector frame frame') c c') :
    Simulates host W R (e.interpret reflector frame) (e'.interpret reflector frame') := by
  cases hp : e.parameter? with
  | some p =>
    cases h with
    | parameter p =>
      unfold interpret
      refine .located_left _ (.located_right _ ?_)
      have hget := hparameter p rfl
      dsimp only
      revert hget
      generalize frame.get? p.id = v
      generalize frame'.get? p.id = v'
      rintro (hv | _)
      · exact .pure hv
      · exact .throw rfl
    | _ => cases hp
  | none =>
    have hp' : e'.parameter? = none := by cases h <;> first | rfl | cases hp
    rw [interpret_eq _ _ hp, interpret_eq _ _ hp']
    refine .located_left _ (.located_right _ ?_)
    refine meaning_simulates (Q := fun _ => R) hR hreflector (fun _ _ _ _ => id)
      (fun _ _ => hbuiltin _ _) h hlambda hoperands fun _ v v' hv => ?_
    exact convertLeft_simulates
      (optionRel_imp_of_mem h.conversion? fun c hc c' _ => hconversion c hc c') hv

end Expr

end ExprTree
