import ExprTree.Proofs.Compilation
import ExprTree.Proofs.FreeParameters
import ExprTree.Proofs.PureHost
import ExprTree.Proofs.QuoteFree
import ExprTree.Proofs.ShortCircuits
import ExprTree.Proofs.Substitution

/-!
# The substitution lemma

A lambda that is called on values, and its body with closed trees in the place of the parameters that
come to these values: what the call comes to, the tree comes to as well. A tree that is put in is
evaluated wherever its parameter occurs, and not once for the call, which host code cannot tell if it is
a function of receiver and arguments.

A replacement may be of a more specific type than its parameter, and conversions read the static types
of their operands. An occurrence has a static type of its own, which is not compared with that of what
is put in. If it is a value type where the replacement is of a reference type, a conversion that was one
of numbers becomes an unboxing.

## Main definitions

* `Replacements.ConvertsAlike`: conversions that succeed on a replacement where they do on the parameter.
* `Expr.Substitutable`: trees that replacements may be put into.
* `Frame.Replacing`: a frame that binds parameters to what their replacements come to.

## Main results

* `Replacements.PutIn.carries`: what a tree comes to in such a frame it comes to with replacements put
  in.
* `Lambda.convertsAlike_of_declared`: where an occurrence has the type of its parameter, conversions succeed
  on what fits.
* `Lambda.interpret_substitute`: **what a call comes to, the body with replacements put in comes to**.
* `Lambda.substitute_unboxes_retyped`: a conversion of an occurrence with a type of its own may fail
  where replacements are put in.
-/

set_option autoImplicit false

namespace ExprTree

open EvalM

namespace Replacements

/-- If the node converts an occurrence of a parameter that is replaced, the type of the replacement
stands for that of the occurrence. -/
def ConvertsAlike (r : Replacements) : Expr → Prop
  | .unary _ op _ none (.parameter p) =>
    op = .convert ∨ op = .convertChecked → ∀ new ∈ r.lookup p.id, new.ty.StandsFor p.ty
  | _ => True

end Replacements

namespace Expr

variable {r : Replacements} {e e' c b : Expr}

/-- Trees that replacements may be put into. The only lambdas are conversions, and all conversions are
lambdas, none of which declares a parameter that is replaced. -/
structure Substitutable (r : Replacements) (e : Expr) : Prop where
  quotes : e.onlyConversions = true
  conversions : ∀ x ∈ e.preOrder, ∀ c ∈ x.conversion?, c.lambda?.isSome = true
  declared : ∀ id ∈ e.declaredIds, r.lookup id = none
  converts : ∀ x ∈ e.preOrder, r.ConvertsAlike x

namespace Substitutable

variable (h : e.Substitutable r)
include h

theorem preOrder {x : Expr} (hx : x ∈ e.preOrder) (hquotes : x.onlyConversions = true) :
    x.Substitutable r where
  quotes := hquotes
  conversions y hy := h.conversions y (mem_preOrder_trans hx hy)
  declared id hid := by
    obtain ⟨y, hy, hid⟩ := List.mem_flatMap.1 hid
    exact h.declared id (List.mem_flatMap.2 ⟨y, mem_preOrder_trans hx hy, hid⟩)
  converts y hy := h.converts y (mem_preOrder_trans hx hy)

theorem operand (hc : c ∈ e.operands) : c.Substitutable r :=
  h.preOrder (mem_preOrder_of_mem_children (mem_children_of_mem_operands hc))
    (onlyConversions_operand h.quotes hc)

/-- A conversion of the node declares parameters that are not replaced, over a body that replacements
may be put into. -/
theorem conversion (hc : c ∈ e.conversion?) :
    ∃ s ps b, c = .lambda s ps b ∧ b ∈ c.preOrder ∧ b.Substitutable r ∧
      ∀ p ∈ ps, r.lookup p.id = none := by
  have hlambda := h.conversions e (mem_preOrder_self e) c hc
  cases c with
  | lambda s ps b =>
    have hchild := mem_preOrder_of_mem_children (mem_children_of_mem_conversion? hc)
    have hbody : b ∈ (lambda s ps b).preOrder := mem_preOrder_of_mem_children List.mem_cons_self
    refine ⟨s, ps, b, rfl, hbody, ?_, fun p hp => ?_⟩
    · exact h.preOrder (mem_preOrder_trans hchild hbody) (onlyConversions_body h.quotes hc)
    · exact h.declared p.id (List.mem_flatMap.2 ⟨_, hchild, List.mem_map_of_mem hp⟩)
  | _ => cases hlambda

end Substitutable

/-- Conversions of a node succeed on replacements where they succeed on parameters. -/
theorem typesCarry_of_putIn (hconverts : r.ConvertsAlike e)
    (h : Parallel r.PutIn (SameParams r.PutIn) e e') : TypesCarry e e' := by
  cases h with
  | unary op lifted method hx =>
    cases method with
    | some m => trivial
    | none =>
      intro v u hv
      rename_i x x'
      by_cases hnames : r.Names x
      · obtain ⟨p, rfl, hnew⟩ := hx.leaf_of_hit hnames
        cases op with
        | convert => exact Step.applyUnary_ok_of_standsFor (hconverts (.inl rfl) _ hnew) hv
        | convertChecked => exact Step.applyUnary_ok_of_standsFor (hconverts (.inr rfl) _ hnew) hv
        | _ => exact hv
      · rwa [← (hx.parallel hnames).1.ty_eq]
  | _ => trivial

end Expr

/-! ### Frames and replacements -/

/-- A frame binds each parameter that is replaced to what its replacement comes to in every frame, and
all others as another frame does. -/
structure Frame.Replacing (host : Host) (d : Dispatch) (r : Replacements) (frame frame' : Frame) :
    Prop where
  replaced : ∀ {id new}, r.lookup id = some new → ∃ v, frame.get? id = some v ∧ ∀ frame',
    Settles host (World.Dispatching d) (new.interpret .native frame') v
  others : ∀ {id}, r.lookup id = none → frame.get? id = frame'.get? id

namespace Frame.Replacing

variable {host : Host} {d : Dispatch} {r : Replacements} {frame frame' : Frame}

/-- One more parameter that is not replaced. -/
theorem cons (h : Frame.Replacing host d r frame frame') {id : ParamId} (hid : r.lookup id = none)
    (v : Value) : Frame.Replacing host d r ((id, v) :: frame) ((id, v) :: frame') where
  replaced {other new} hnew := by
    have hne : other ≠ id := by
      rintro rfl
      rw [hid] at hnew
      cases hnew
    obtain ⟨u, hu, hsettles⟩ := h.replaced hnew
    exact ⟨u, (get?_cons_of_ne hne v frame).trans hu, hsettles⟩
  others {other} hother := by
    by_cases heq : other = id
    · rw [heq, get?_cons_self, get?_cons_self]
    · rw [get?_cons_of_ne heq, get?_cons_of_ne heq]
      exact h.others hother

/-- The frame that a lambda binds its arguments in, where the replacements come to the arguments. -/
theorem of_bind {l : Lambda} {replacements : List Expr} {args : List Value}
    (hbind : l.bind replacements = .ok r)
    (h : List.Forall₂ (fun e v => ∀ frame,
      Settles host (World.Dispatching d) (e.interpret .native frame) v) replacements args) :
    Frame.Replacing host d r (Frame.bind [] l.params args) [] := by
  have found (id : ParamId) : Option.Rel (fun e v => ∀ frame,
      Settles host (World.Dispatching d) (e.interpret .native frame) v) (r.lookup id)
      ((Frame.bind [] l.params args).get? id) := by
    rw [(Lambda.fits_of_bind hbind).2.2, Frame.bind_eq, List.append_nil]
    refine optionRel_lookup (List.rel_reverse ?_) id
    rw [List.forall₂_map_left_iff, List.forall₂_map_right_iff]
    exact (forall₂_zip_left h l.params).imp fun _ _ h => ⟨congrArg Param.id h.1, h.2⟩
  constructor
  · intro id new hnew
    have rel := found id
    rw [hnew] at rel
    generalize Frame.get? _ id = v at rel
    cases rel with
    | some hsettles => exact ⟨_, rfl, hsettles⟩
  · intro id hnone
    have rel := found id
    rw [hnone] at rel
    generalize Frame.get? _ id = v at rel
    cases rel
    rfl

end Frame.Replacing

/-! ### Trees with replacements put in -/

namespace Replacements

variable {host : Host} {d : Dispatch} {r : Replacements} {e e' : Expr} {frame frame' : Frame}

/-- A parameter comes to what its replacement comes to. -/
theorem carries_leaf (hframe : Frame.Replacing host d r frame frame') {p : Param} {new : Expr}
    (hnew : r.lookup p.id = some new) :
    Carries host (World.Dispatching d) ((Expr.parameter p).interpret .native frame)
      (new.interpret .native frame') := by
  obtain ⟨v, hv, hsettles⟩ := hframe.replaced hnew
  have bound : (Expr.parameter p).interpret .native frame = .located (.parameter p) (pure v) := by
    rw [Expr.interpret, hv]
  rw [bound]
  refine .located_left _ fun w w' a u hw ha => ?_
  cases ha
  obtain ⟨u', hu', -, hkept⟩ := hsettles frame' w' ⟨hw.2, hw.2⟩
  exact ⟨u', hu', hw.1, hkept⟩

/-- What a tree comes to in a frame that binds parameters to what their replacements come to, it comes
to with the replacements put in. -/
theorem PutIn.carries (hhost : host.IsPure) (h : r.PutIn e e') (he : e.Substitutable r)
    (hframe : Frame.Replacing host d r frame frame') :
    Carries host (World.Dispatching d) (e.interpret .native frame) (e'.interpret .native frame') := by
  have hreflector : Reflector.native.Respects host (World.Dispatching d) Eq :=
    Reflector.native_respects Value.congruence_eq (hhost.over_eq.respects d)
  induction e using Expr.induction_preOrder generalizing e' frame frame' with
  | step e ih =>
    by_cases hnames : r.Names e
    · obtain ⟨p, rfl, hnew⟩ := h.leaf_of_hit hnames
      exact carries_leaf hframe hnew
    have nodes := (h.parallel hnames).1
    refine Expr.interpret_carries hreflector nodes
      (Expr.typesCarry_of_putIn (he.converts e (Expr.mem_preOrder_self e)) nodes)
      (Expr.lambda?_of_onlyConversions he.quotes) ?_ ?_ ?_
    · rintro p rfl
      exact hframe.others (lookup_of_not_names hnames)
    · intro c hc c' hcc
      have hchild := Expr.mem_children_of_mem_operands hc
      exact ih c hchild c (Expr.mem_preOrder_self c) hcc (he.operand hc) hframe
    · intro s lifting left right c heq v _ _
      have conversion := nodes.conversion?
      generalize e'.conversion? = c' at conversion ⊢
      generalize hc : e.conversion? = c at conversion ⊢
      cases conversion with
      | none => exact .pure v
      | some hcc =>
        obtain ⟨s', ps, b, rfl, hb, hbody, hps⟩ := he.conversion hc
        cases (hcc.parallel fun hnames => nomatch hnames.exists_lookup).1 with
        | lambda hbb =>
          obtain ⟨rfl, hbb⟩ := hbb
          simp only [Expr.convertLeft, Option.bind_some, Expr.lambda?]
          split
          · next hone =>
            obtain ⟨p, rfl⟩ := List.length_eq_one_iff.1 hone
            have hp := hps p List.mem_cons_self
            exact ih _ (Expr.mem_children_of_mem_conversion? hc) b hb hbb hbody (hframe.cons hp v)
          · exact .throw _ _

end Replacements

/-! ### The substitution lemma -/

namespace Lambda

/-- Conversions of parameters that are typed as they are declared succeed on what fits them, unless a
type has two nullable wrappers around a reference type. -/
theorem convertsAlike_of_declared {l : Lambda} {replacements : List Expr} {r : Replacements}
    (hbind : l.bind replacements = .ok r) {e : Expr}
    (hdeclared : ∀ p ∈ e.occurrences, ∀ q ∈ l.params, q.id = p.id →
      p.ty = q.ty ∧ p.ty.hidesReference = false) : r.ConvertsAlike e := by
  cases e with
  | unary s op lifted method x =>
    cases method with
    | some m => trivial
    | none =>
      cases x with
      | parameter p =>
        intro _ new hnew
        obtain ⟨q, hq, hid, haccepts⟩ := accepts_of_bind hbind hnew
        have hp : p ∈ (Expr.unary s op lifted none (.parameter p)).occurrences :=
          Expr.mem_occurrences (Expr.mem_preOrder_of_mem_children List.mem_cons_self)
        obtain ⟨hty, hplain⟩ := hdeclared p hp q hq hid
        exact Ty.standsFor_of_accepts (hty ▸ haccepts) hplain
      | _ => trivial
  | _ => trivial

/-- **What a call comes to, the body with replacements put in comes to.** Take a lambda that is called
on what closed trees come to, against a host whose code is a function of receiver and arguments. The
trees fit the parameters, and put into the body they leave every conversion one that succeeds where it
did. Where the call comes to a value, so does the body with the trees put in, in any world where members
dispatch as they did. -/
theorem interpret_substitute {host : Host} (hhost : host.IsPure) {l : Lambda}
    {replacements : List Expr} {args : List Value} {r : Replacements} {w : World} {v : Value}
    (hbind : l.bind replacements = .ok r) (hbody : l.body.Substitutable r)
    (hclosed : ∀ e ∈ replacements, e.isClosed = true)
    (hargs : List.Forall₂ (fun e a => ((e.interpret .native []).outcome host w).1 = .ok a)
      replacements args)
    (hcall : ((l.interpret .native args).outcome host w).1 = .ok v) :
    ∃ res w₁, (l.substitute (m := WorldM) replacements).run w = (.ok res, w₁) ∧
      w₁.dispatch = w.dispatch ∧ ∀ w' : World, w'.dispatch = w.dispatch →
        (((res.on l.body).interpret .native []).outcome host w').1 = .ok v := by
  have hreflector : Reflector.native.Respects host (World.Dispatching w.dispatch) Eq :=
    Reflector.native_respects Value.congruence_eq (hhost.over_eq.respects w.dispatch)
  have settles : List.Forall₂ (fun e a => ∀ frame, Settles host (World.Dispatching w.dispatch)
      (e.interpret .native frame) a) replacements args := by
    refine forall₂_imp_of_mem hargs fun e he a _ ha frame w' hw' => ?_
    have carries := (Expr.interpret_closed hreflector (hclosed e he) [] frame).carries
    obtain ⟨u', hu', hu⟩ := carries w w' a _ ⟨rfl, hw'.1⟩ (Prod.ext ha rfl)
    exact ⟨u', hu', hw'.1, hu.2⟩
  have plain := Replacements.from_substitute r l.body
    (V := Expr.specialiseView w.dispatch w.supply.next) (s := w) ⟨rfl, Nat.le_refl _⟩
  have carries := plain.2.carries hhost hbody (Frame.Replacing.of_bind hbind settles)
  have hlength : args.length = l.params.length := by
    by_contra hlength
    rw [Lambda.interpret, if_neg hlength] at hcall
    cases hcall
  rw [Lambda.interpret, if_pos hlength] at hcall
  refine ⟨_, _, substitute_run hbind w, plain.1.1, fun w' hw' => ?_⟩
  obtain ⟨u', hu', -⟩ := carries w w' v _ ⟨rfl, hw'⟩ (Prod.ext hcall rfl)
  exact congrArg Prod.fst hu'

/-- The theorem for `x => x ?? Convert(x, i64)` with the conversion `y => Convert(y, i64)`, where the
parameter is an object and the replacement a number. What was unboxed is converted to itself. -/
theorem interpret_substitute_boxed :
    let x : Param := ⟨0, 0, "x", .object⟩
    let y : Param := ⟨1, 1, "y", .object⟩
    let cast (n : NodeId) (p : Param) : Expr := .unary ⟨n, .int .i64⟩ .convert false none (.parameter p)
    let body : Expr := .binary ⟨5, .int .i64⟩ .coalesce {} none (.parameter x) (cast 2 x)
      (some (.lambda ⟨4, .func [.object] (.int .i64)⟩ [y] (cast 3 y)))
    let l : Lambda := ⟨[x], body⟩
    let number : Expr := .constant ⟨6, .int .i64⟩ (.ofInt .i64 7)
    let host : Host := ⟨fun _ => none⟩
    l.bind [number] = .ok [(0, number)] ∧ body.Substitutable [(0, number)] ∧
      ((l.interpret .native [.ofInt .i64 7]).outcome host {}).1 = .ok (.ofInt .i64 7) ∧
      ∃ res w, (l.substitute (m := WorldM) [number]).run {} = (.ok res, w) ∧
        (((res.on body).interpret .native []).outcome host w).1 = .ok (.ofInt .i64 7) := by
  intro x y cast body l number host
  have hbind : l.bind [number] = .ok [(0, number)] := rfl
  have hbody : body.Substitutable [(0, number)] := by
    refine ⟨rfl, by decide, by decide, fun z hz => ?_⟩
    have converted (p : Param) (hp : p.ty = .object) (n : NodeId) :
        Replacements.ConvertsAlike [(0, number)] (cast n p) := by
      rintro - new -
      exact Ty.standsFor_of_reference (hp ▸ rfl)
    change z ∈ [body, .parameter x, cast 2 x, .parameter x,
      .lambda ⟨4, .func [.object] (.int .i64)⟩ [y] (cast 3 y), cast 3 y, .parameter y] at hz
    simp only [List.mem_cons, List.not_mem_nil, or_false] at hz
    rcases hz with rfl | rfl | rfl | rfl | rfl | rfl | rfl
    · trivial
    · trivial
    · exact converted x rfl 2
    · trivial
    · trivial
    · exact converted y rfl 3
    · trivial
  have hcall : ((l.interpret .native [.ofInt .i64 7]).outcome host {}).1 = .ok (.ofInt .i64 7) := rfl
  have hhost : host.IsPure := fun _ _ h => nomatch h
  obtain ⟨res, w, hrun, hw, hres⟩ := interpret_substitute hhost hbind hbody
    (List.forall_mem_singleton.2 rfl) (.cons rfl .nil) hcall
  exact ⟨hbind, hbody, hcall, res, w, hrun, hres w hw⟩

/-- An occurrence has a static type of its own. In `x => Convert(x, i64)` the occurrence is an `i32`
where the parameter is an object, so a call converts a number. With a number in its place that is an
object by its static type, the conversion is an unboxing and fails. -/
theorem substitute_unboxes_retyped :
    let x : Param := ⟨0, 0, "x", .object⟩
    let body : Expr :=
      .unary ⟨2, .int .i64⟩ .convert false none (.parameter ⟨1, 0, "x", .int .i32⟩)
    let l : Lambda := ⟨[x], body⟩
    let number : Expr := .constant ⟨3, .object⟩ (.ofInt .i32 5)
    let host : Host := ⟨fun _ => none⟩
    Lambda.ofExprs [.parameter x] body = .ok l ∧ l.bind [number] = .ok [(0, number)] ∧
      body.onlyConversions = true ∧ body.declaredIds = [] ∧
      (∀ e ∈ body.preOrder, e.conversion? = none) ∧ number.isClosed = true ∧ host.IsPure ∧
      ((number.interpret .native []).outcome host {}).1 = .ok (.ofInt .i32 5) ∧
      ((l.interpret .native [.ofInt .i32 5]).outcome host {}).1 = .ok (.ofInt .i64 5) ∧
      ∃ res w, (l.substitute (m := WorldM) [number]).run {} = (.ok res, w) ∧
        (((res.on body).interpret .native []).outcome host w).1 =
          .error (.dynamic (res.on body) (.badCast (.ofInt .i32 5) (.int .i64))) := by
  intro x body l number host
  have hhost : host.IsPure := fun _ _ h => nomatch h
  exact ⟨rfl, rfl, rfl, rfl, by decide, rfl, hhost, rfl, rfl, _, _, rfl, rfl⟩

end Lambda

end ExprTree
