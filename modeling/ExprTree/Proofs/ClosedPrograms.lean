import ExprTree.Proofs.EvaluatorInvariants

/-!
# Closed programs have no unbound parameters

A tree is closed if the lambdas in it declare all parameters that occur in it. Then every parameter
that evaluation reaches has a value, whatever is declared twice and whether or not the types fit.

Placeholders are left out, as they raise what was captured when they were made. So are members that
fail for want of a parameter; those that run the host's bodies do not.

## Main definitions

* `EvalError.NotUnbound`: failures other than a parameter without a value.
* `Reflector.NeverUnbound`: a reflector whose members never fail for want of a parameter.
* `Evaluator.BindsAll`: an evaluator under which no closed program does.

## Main results

* `Evaluator.closed_bindsAll`: **closed programs have no unbound parameters**.
-/

set_option autoImplicit false

namespace ExprTree

open Outcome EvalM

/-- The failure is something else than a parameter without a value. -/
def EvalError.NotUnbound (e : EvalError) : Prop := ∀ name, e ≠ .unboundParameter name

theorem EvalError.IsOperational.notUnbound {e : EvalError} (h : e.IsOperational) :
    e.NotUnbound := by
  rintro name rfl
  exact h

/-! ### Members -/

namespace Reflector

/-- No member that is reached fails for want of a parameter. -/
def NeverUnbound (reflector : Reflector) : Prop :=
  ∀ host ref, reflector.KeepsAt host (fun _ => True) EvalError.NotUnbound ref

theorem neverUnbound_native : native.NeverUnbound := by
  have ofHost (host : Host) (x : Host → HostM Value) :
      Keeps host (fun _ => True) EvalError.NotUnbound (.ofHost x) :=
    .ofHost (fun _ => EvalError.IsOperational.notUnbound) fun _ _ => trivial
  intro host ref
  cases ref with
  | method m => exact fun _ _ => ofHost host _
  | member d => exact fun _ => ofHost host _
  | ctor c => exact fun _ => ofHost host _

theorem NeverUnbound.tracing {reflector : Reflector} (h : reflector.NeverUnbound) :
    reflector.tracing.NeverUnbound := by
  have record (host : Host) (event : Event) :
      Keeps host (fun _ => True) EvalError.NotUnbound (EvalM.record event) :=
    fun _ _ => ⟨trivial, trivial⟩
  intro host ref
  cases ref with
  | method m => exact fun r args => (record host _).bind fun _ => h host (.method m) r args
  | member d => exact fun r => (record host _).bind fun _ => h host (.member d) r
  | ctor c => exact fun args => (record host _).bind fun _ => h host (.ctor c) args

end Reflector

/-- A node that is no placeholder asks nothing more of such a reflector. -/
theorem Expr.tame_of_neverUnbound {reflector : Reflector} (h : reflector.NeverUnbound) {e : Expr}
    (hraise : ∀ x ∈ e.preOrder, x.isRaise = false) (host : Host) :
    ∀ x ∈ e.preOrder, x.Tame reflector host (fun _ => True) EvalError.NotUnbound :=
  fun x hx => ⟨fun ref _ => h host ref, fun hr => by rw [hraise x hx] at hr; cases hr⟩

/-- What is free in the body of a closed lambda is one of its parameters. -/
theorem Expr.freeOccurrences_body {s : Stamp} {l : Lambda}
    (h : (lambda s l.params l.body).isClosed = true) : l.body.freeOccurrences l.paramIds = [] := by
  have hbody := freeOccurrences_children (List.isEmpty_iff.1 h) l.body List.mem_cons_self
  rwa [boundBelow_eq, List.append_nil] at hbody

/-! ### Evaluators -/

namespace Evaluator

variable {σ : Type}

/-- No closed program without placeholders fails for want of a parameter: not the evaluation of a
tree, not the making of a callable, and not a call of it on any arguments, on any host and in any
world. -/
structure BindsAll (evaluator : Evaluator σ) : Prop where
  evaluate : ∀ e : Expr, (∀ x ∈ e.preOrder, x.isRaise = false) → e.ensureClosed = .ok () →
    ∀ host st w err, ((evaluator.evaluate e host).run st w).1.1 = .error err →
      err.rootCause.NotUnbound
  callable : ∀ (s : Stamp) (l : Lambda), (∀ x ∈ l.body.preOrder, x.isRaise = false) →
    (Expr.lambda s l.params l.body).isClosed = true →
    ∀ host st w, match ((evaluator.callable l host).run st w).1.1 with
      | .error err => err.rootCause.NotUnbound
      | .ok callable => ∀ args host w err, ((callable args).outcome host w).1 = .error err →
        err.rootCause.NotUnbound

theorem interpreting_bindsAll {reflector : Reflector} (hreflector : reflector.NeverUnbound) :
    (interpreting reflector : Evaluator σ).BindsAll where
  evaluate e hraise hclosed host st w err herr := by
    have keeps := interpreting_keeps (J := fun _ => True)
      (fun _ => EvalError.IsOperational.notUnbound)
      (Expr.tame_of_neverUnbound hreflector hraise host)
      (by simp [Expr.freeOccurrences_of_ensureClosed hclosed]) st w trivial trivial
    rw [herr] at keeps
    exact keeps.2.2
  callable s l hraise hclosed _ _ _ args host w err herr := by
    have keeps := Lambda.interpret_keeps (fun _ => EvalError.IsOperational.notUnbound)
      (Expr.tame_of_neverUnbound hreflector hraise host)
      (by simp [Expr.freeOccurrences_body hclosed]) args
    exact keeps.rootCause trivial herr

theorem compiling_bindsAll : (compiling .closures : Evaluator σ).BindsAll where
  evaluate e hraise hclosed host st w err herr := by
    have keeps := compiling_keeps (J := fun _ => True)
      (fun _ => EvalError.IsOperational.notUnbound) (fun _ _ _ => trivial)
      (Expr.tame_of_neverUnbound Reflector.neverUnbound_native hraise host)
      (by simp [Expr.freeOccurrences_of_ensureClosed hclosed]) st w trivial trivial
    rw [herr] at keeps
    exact keeps.2.2
  callable s l hraise hclosed host st w := by
    have keeps (host : Host) := Backend.closures_keeps (fun _ => EvalError.IsOperational.notUnbound)
      (fun _ _ _ => trivial)
      (Expr.tame_of_neverUnbound Reflector.neverUnbound_native hraise host)
      (by simp [Expr.freeOccurrences_body hclosed]) w.supply
    change match ((Backend.closures.compile l.body l.params).run w.supply).1 with
      | .error err => err.rootCause.NotUnbound
      | .ok callable => ∀ args host w err, ((callable args).outcome host w).1 = .error err →
        err.rootCause.NotUnbound
    cases hcompile : ((Backend.closures.compile l.body l.params).run w.supply).1 with
    | error err =>
      have hfails := keeps host
      rwa [hcompile] at hfails
    | ok callable =>
      intro args host w err herr
      have hkeeps := keeps host
      rw [hcompile] at hkeeps
      exact (hkeeps args).rootCause trivial herr

/-- **Closed programs have no unbound parameters**, neither compiled to closures nor interpreted,
over the host's bodies, with or without a trace, or over other members that never fail so. -/
theorem closed_bindsAll (σ : Type) :
    (compiling .closures : Evaluator σ).BindsAll ∧
    (interpreting .native : Evaluator σ).BindsAll ∧
    (interpreting Reflector.native.tracing : Evaluator σ).BindsAll ∧
    ∀ reflector : Reflector, reflector.NeverUnbound →
      (interpreting reflector : Evaluator σ).BindsAll :=
  ⟨compiling_bindsAll, interpreting_bindsAll Reflector.neverUnbound_native,
    interpreting_bindsAll Reflector.neverUnbound_native.tracing, fun _ => interpreting_bindsAll⟩

/-- The theorem for `(x, n) => n ?? x` with the conversion `y => x / y`. The lambda is closed and is
compiled, and called with one and zero it fails, but not for want of a parameter. -/
theorem closed_bindsAll_divide :
    let x : Param := ⟨0, 0, "x", .int .i32⟩
    let n : Param := ⟨1, 1, "n", .nullable (.int .i32)⟩
    let y : Param := ⟨2, 2, "y", .int .i32⟩
    let body : Expr := .binary ⟨5, .int .i32⟩ .coalesce {} none (.parameter n) (.parameter x)
      (some (.lambda ⟨4, .func [.int .i32] (.int .i32)⟩ [y]
        (.binary ⟨3, .int .i32⟩ .divide {} none (.parameter x) (.parameter y) none)))
    let stamp : Stamp := ⟨6, .func [x.ty, n.ty] (.int .i32)⟩
    (∀ node ∈ body.preOrder, node.isRaise = false) ∧
    (Expr.lambda stamp [x, n] body).isClosed = true ∧
    ∃ callable err,
      (((compiling .closures : Evaluator Unit).callable ⟨[x, n], body⟩ ⟨fun _ => none⟩).run ()
        { supply := ⟨7⟩ }).1.1 = .ok callable ∧
      ((callable [.ofInt .i32 1, .ofInt .i32 0]).outcome ⟨fun _ => none⟩ {}).1 = .error err ∧
      err.rootCause.NotUnbound := by
  intro x n y body stamp
  have hraise : ∀ node ∈ body.preOrder, node.isRaise = false := by decide
  have hclosed : (Expr.lambda stamp [x, n] body).isClosed = true := by decide
  obtain ⟨callable, err, hcallable, herr⟩ : ∃ callable err,
      (((compiling .closures : Evaluator Unit).callable ⟨[x, n], body⟩ ⟨fun _ => none⟩).run ()
        { supply := ⟨7⟩ }).1.1 = .ok callable ∧
      ((callable [.ofInt .i32 1, .ofInt .i32 0]).outcome ⟨fun _ => none⟩ {}).1 = .error err :=
    ⟨_, _, rfl, rfl⟩
  have calls := (closed_bindsAll Unit).1.callable stamp ⟨[x, n], body⟩ hraise hclosed
    ⟨fun _ => none⟩ () { supply := ⟨7⟩ }
  rw [hcallable] at calls
  exact ⟨hraise, hclosed, callable, err, hcallable, herr, calls _ _ _ _ herr⟩

end Evaluator

end ExprTree
