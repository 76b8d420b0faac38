import Mathlib.Logic.Relation
import ExprTree.Proofs.Invariants

/-!
# Where failures arise

A failure of interpretation names a node, and the node is the one that went wrong: everything that was
evaluated for it had come to a value. Every node on the way up is passed by the failure as well, and
none of them puts its own name on it.

To say that something was evaluated one has to look into a run, and an evaluation is a function from
a world to an outcome. So the evaluation of a node is taken apart here. It evaluates trees, one after
the other, each depending on the values before, and in the end it does something that is no evaluation
of a tree. Which trees these are on a given run is then a list that can be computed, and it ends with
the first tree that fails.

Placeholders are left out. What they raise is whatever they have captured, and that may name a node of
another tree.

## Main definitions

* `Course`: what the evaluation of a node consists of.
* `Expr.course`: one course for each kind of node.
* `Evaluation.parts`: the trees that are evaluated for a node on a given run.

## Main results

* `Expr.interpret_eq_course`: to interpret a node is to run its course.
* `Course.error_run`: a course fails because of a part, or of its own after all parts succeeded.
* `Expr.interpret_locates`: **a failure names the innermost node that failed**.
-/

set_option autoImplicit false

namespace ExprTree

open EvalM Outcome

/-! ### Courses -/

/-- What the evaluation of a node consists of: trees that are evaluated, in a frame each, where the
value decides how to go on, and what is done in the end. -/
inductive Course where
  | evaluate (tree : Expr) (frame : Frame) (next : Value → Course)
  | finish (x : EvalM Value)

/-- The evaluation of a tree in a frame, from a world. -/
structure Evaluation where
  tree : Expr
  frame : Frame
  world : World

/-- What an evaluation comes to. -/
def Evaluation.outcome (host : Host) (x : Evaluation) : Except EvalError Value × World :=
  (x.tree.interpret .native x.frame).outcome host x.world

namespace Course

/-- Evaluate one more tree, and do something with its value. -/
def last (tree : Expr) (frame : Frame) (f : Value → EvalM Value) : Course :=
  evaluate tree frame fun v => finish (f v)

/-- Evaluate a receiver, which must not be null. -/
def receiver (context : String) (tree : Expr) (frame : Frame) (next : Value → Course) : Course :=
  evaluate tree frame fun v =>
    if v.isNull then finish (throw (.nullReference context)) else next v

/-- Evaluate a receiver if there is one. -/
def receiver? (context : String) (tree : Option Expr) (frame : Frame)
    (next : Option Value → Course) : Course :=
  match tree with
  | none => next none
  | some tree => receiver context tree frame fun v => next (some v)

/-- Evaluate trees from left to right. -/
def all (trees : List Expr) (frame : Frame) (next : List Value → Course) : Course :=
  match trees with
  | [] => next []
  | tree :: trees => evaluate tree frame fun v => all trees frame fun vs => next (v :: vs)

/-- Convert a value that is not null, on the left of a coalesce node. -/
def convertLeft (conversion : Option Expr) (frame : Frame) (v : Value) : Course :=
  match conversion.bind Expr.lambda? with
  | some l =>
    if l.params.length = 1 then last l.body (frame.bind l.params [v]) pure
    else finish (throw (.argumentCount l.params.length 1))
  | none => finish (pure v)

/-- The evaluation that a course stands for. -/
def run (reflector : Reflector) : Course → EvalM Value
  | evaluate tree frame next => do
    let v ← tree.interpret reflector frame
    (next v).run reflector
  | finish x => x

/-- The evaluations on a run of a course. The course ends with the first one that fails. -/
def evaluations (host : Host) : Course → World → List Evaluation
  | evaluate tree frame next, w =>
    ⟨tree, frame, w⟩ ::
      match (tree.interpret .native frame).outcome host w with
      | (.ok v, w) => (next v).evaluations host w
      | (.error _, _) => []
  | finish _, _ => []

end Course

/-- The course of a node. A quote evaluates nothing. -/
def Expr.course (reflector : Reflector) (frame : Frame) (e : Expr) : Course :=
  match e with
  | constant _ v => .finish (pure v)
  | parameter p =>
    .finish <|
      match frame.get? p.id with
      | some v => return v
      | none => throw (.unboundParameter p.name)
  | binary _ op lifting method left right conversion =>
    .evaluate left frame fun l =>
      match method with
      | some m => .last right frame fun r => reflector.invoke m none [l, r]
      | none =>
        match op with
        | .andAlso =>
          if l == .bool false then .finish (pure l)
          else .last right frame fun r => return Operators.andAlso l r
        | .orElse =>
          if l == .bool true then .finish (pure l)
          else .last right frame fun r => return Operators.orElse l r
        | .coalesce =>
          if l.isNull then .last right frame pure else .convertLeft conversion frame l
        | op => .last right frame fun r => liftM (Step.builtinResult op lifting l r)
  | unary s op lifted method operand =>
    .last operand frame fun v =>
      match method with
      | some m => if lifted && v.isNull then return .null else reflector.invoke m none [v]
      | none => liftM (Step.applyUnary op lifted operand.ty s.ty v)
  | conditional _ test ifTrue ifFalse =>
    .evaluate test frame fun v =>
      match v.bool? with
      | some true => .last ifTrue frame pure
      | some false => .last ifFalse frame pure
      | none => .finish (throw (.badCast v test.ty))
  | member _ receiver d =>
    .receiver? ("access to " ++ codeQuoted d.name) receiver frame fun v =>
      .finish (reflector.read d v)
  | call _ receiver method args =>
    .receiver? ("call to " ++ codeQuoted method.name) receiver frame fun v =>
      .all args frame fun vs => .finish (reflector.invoke method v vs)
  | new _ ctor args => .all args frame fun vs => .finish (reflector.construct ctor vs)
  | newArray _ element items => .all items frame fun vs => .finish (pure (.array element vs))
  | index _ receiver indexer args =>
    .receiver "index access" receiver frame fun v =>
      match indexer with
      | some m => .all args frame fun vs => .finish (reflector.invoke m (some v) vs)
      | none =>
        match args with
        | [arg] => .last arg frame fun i => liftM (Operators.arrayElement v i)
        | _ => .finish (throw (.unsupported "multi-dimensional array access"))
  | typeIs _ operand target =>
    .last operand frame fun v => return .bool (Convert.typeIs v target)
  | lambda .. => .finish (pure (.lambda e))
  | raise _ payload => .last payload frame fun v => Step.raise (pure v)
  | extension _ kind _ => .finish (throw (.foreign kind))

/-- The evaluations that are part of an evaluation, in order. -/
def Evaluation.parts (host : Host) (x : Evaluation) : List Evaluation :=
  (x.tree.course .native x.frame).evaluations host x.world

/-! ### Running a course -/

namespace Course

variable {reflector : Reflector} {frame : Frame}

@[simp] theorem run_finish (x : EvalM Value) : (finish x).run reflector = x := rfl

@[simp] theorem run_evaluate (tree : Expr) (frame : Frame) (next : Value → Course) :
    (evaluate tree frame next).run reflector =
      tree.interpret reflector frame >>= fun v => (next v).run reflector :=
  rfl

@[simp] theorem run_last (tree : Expr) (frame : Frame) (f : Value → EvalM Value) :
    (last tree frame f).run reflector = tree.interpret reflector frame >>= f :=
  rfl

@[simp] theorem run_ite {p : Prop} [Decidable p] (c c' : Course) :
    (if p then c else c').run reflector = if p then c.run reflector else c'.run reflector :=
  apply_ite _ _ _ _

@[simp] theorem run_receiver (context : String) (tree : Expr) (frame : Frame)
    (next : Value → Course) :
    (receiver context tree frame next).run reflector =
      Step.receiver context (tree.interpret reflector frame) >>= fun v =>
        (next v).run reflector := by
  unfold receiver Step.receiver
  rw [run_evaluate, bind_assoc]
  refine bind_congr fun v => ?_
  rw [run_ite]
  split
  · rfl
  · exact (pure_bind _ _).symm

@[simp] theorem run_receiver? (context : String) (tree : Option Expr) (frame : Frame)
    (next : Option Value → Course) :
    (receiver? context tree frame next).run reflector =
      Step.receiver? context (tree.map (Expr.interpret reflector frame)) >>= fun v =>
        (next v).run reflector := by
  cases tree with
  | none => exact (pure_bind _ _).symm
  | some tree => simp [receiver?, Step.receiver?]

@[simp] theorem run_all (trees : List Expr) (frame : Frame) (next : List Value → Course) :
    (all trees frame next).run reflector =
      Step.all (trees.map (Expr.interpret reflector frame)) >>= fun vs =>
        (next vs).run reflector := by
  induction trees generalizing next with
  | nil => exact (pure_bind _ _).symm
  | cons tree trees ih => simp [all, Step.all, ih]

@[simp] theorem run_convertLeft (conversion : Option Expr) (frame : Frame) (v : Value) :
    (convertLeft conversion frame v).run reflector =
      Expr.convertLeft reflector frame conversion v := by
  unfold convertLeft Expr.convertLeft
  cases conversion.bind Expr.lambda? with
  | none => rfl
  | some l => simp

end Course

namespace Expr

variable {reflector : Reflector} {frame : Frame} {e : Expr}

/-- The meaning of a node over what its operands are interpreted as is its course. -/
theorem meaning_eq_course (hparameter : e.parameter? = none) :
    e.meaning reflector (interpret reflector frame) (convertLeft reflector frame e.conversion?) =
      (e.course reflector frame).run reflector := by
  cases e with
  | parameter p => cases hparameter
  | constant | lambda | extension => rfl
  | binary s op lifting method l r c =>
    cases method with
    | some m => rfl
    | none =>
      cases hop : op.isShortCircuit with
      | true =>
        rcases eq_of_isShortCircuit hop with rfl | rfl | rfl
        · simp [meaning, course, Step.andAlso]
        · simp [meaning, course, Step.orElse]
        · simp [meaning, course, Step.coalesce, conversion?]
      | false =>
        rw [meaning_binary_builtin _ _ _ _ hop, Step.builtin_eq]
        cases op <;> first | rfl | cases hop
  | unary s op lifted method x => rfl
  | conditional s t x y =>
    simp only [meaning, course, Step.conditional_eq, Course.run_evaluate]
    refine bind_congr fun v => ?_
    cases v.bool? with
    | none => rfl
    | some b => cases b <;> simp
  | member s r d => simp [meaning, course, Step.member]
  | call s r method as => simp [meaning, course, Step.call]
  | new s ctor as => simp [meaning, course, Step.construct]
  | newArray s element as => simp [meaning, course, Step.newArray]
  | index s r indexer as =>
    cases indexer with
    | some m => simp [meaning, course, Step.indexer]
    | none =>
      simp only [meaning, course, Step.element, Course.run_receiver]
      refine bind_congr fun v => ?_
      rcases as with _ | ⟨a, _ | ⟨b, as⟩⟩ <;> rfl
  | typeIs s x target => rfl
  | raise s x => simp [meaning, course, Step.raise]

/-- To interpret a node is to run its course, and to record the node in what fails. -/
theorem interpret_eq_course (reflector : Reflector) (frame : Frame) (e : Expr) :
    e.interpret reflector frame = .located e ((e.course reflector frame).run reflector) := by
  cases hparameter : e.parameter? with
  | none => rw [interpret_eq _ _ hparameter, meaning_eq_course hparameter]
  | some p =>
    obtain rfl := eq_of_parameter? hparameter
    unfold interpret
    rfl

end Expr

/-! ### How a course fails -/

/-- A failure that does not say where it arose. -/
def EvalError.IsBare (err : EvalError) : Prop := ∀ site cause, err ≠ .dynamic site cause

theorem EvalError.IsOperational.isBare {err : EvalError} (h : err.IsOperational) : err.IsBare := by
  rintro site cause rfl
  cases h

/-- A bare failure is given the name of the node that it leaves. -/
theorem EvalError.IsBare.atNode_eq {err : EvalError} (h : err.IsBare) (site : Expr) :
    err.atNode site = .dynamic site err := by
  cases err with
  | dynamic site' cause => exact (h site' cause rfl).elim
  | _ => rfl

/-- If the evaluation fails, then as `E` has it. -/
def EvalM.FailsAs (host : Host) (E : EvalError → Prop) (x : EvalM Value) : Prop :=
  ∀ w, FailsOnly E (x.outcome host w).1

namespace EvalM.FailsAs

variable {host : Host}

theorem pure (E : EvalError → Prop) (v : Value) : FailsAs host E (pure v) := fun _ => trivial

theorem throw {err : EvalError} (h : err.IsOperational) : FailsAs host EvalError.IsBare (throw err) :=
  fun _ => h.isBare

theorem ofExcept {r : Except EvalError Value} (h : FailsOnly EvalError.IsOperational r) :
    FailsAs host EvalError.IsBare (liftM r) := by
  intro w
  rw [outcome_ofExcept]
  exact h.imp fun _ => EvalError.IsOperational.isBare

/-- Host code does not know of nodes. -/
theorem ofHost (x : Host → HostM Value) : FailsAs host EvalError.IsBare (ofHost x) := by
  intro w
  rw [outcome_ofHost]
  cases ((x host).run w).1 with
  | ok v => trivial
  | error err => exact nofun

end EvalM.FailsAs

namespace Course

variable {host : Host} {P : Expr → Prop} {E : EvalError → Prop} {frame : Frame} {tree : Expr}

/-- `P` holds of the trees that are evaluated, and what is done in the end fails as `E` has it,
whatever the values are. -/
def Within (host : Host) (P : Expr → Prop) (E : EvalError → Prop) : Course → Prop
  | evaluate tree _ next => P tree ∧ ∀ v, (next v).Within host P E
  | finish x => FailsAs host E x

theorem within_last {f : Value → EvalM Value} (htree : P tree) (hf : ∀ v, FailsAs host E (f v)) :
    (last tree frame f).Within host P E :=
  ⟨htree, hf⟩

theorem within_all {trees : List Expr} {next : List Value → Course} (htrees : ∀ c ∈ trees, P c)
    (hnext : ∀ vs, (next vs).Within host P E) : (all trees frame next).Within host P E := by
  induction trees generalizing next with
  | nil => exact hnext []
  | cons tree trees ih =>
    obtain ⟨htree, htrees⟩ := List.forall_mem_cons.1 htrees
    exact ⟨htree, fun v => ih htrees fun vs => hnext (v :: vs)⟩

theorem within_receiver (context : String) {next : Value → Course} (htree : P tree)
    (hnext : ∀ v, (next v).Within host P EvalError.IsBare) :
    (receiver context tree frame next).Within host P EvalError.IsBare := by
  refine ⟨htree, fun v => ?_⟩
  dsimp only
  split
  · exact .throw trivial
  · exact hnext v

theorem within_receiver? (context : String) {tree : Option Expr} {next : Option Value → Course}
    (htree : ∀ c ∈ tree, P c) (hnext : ∀ v, (next v).Within host P EvalError.IsBare) :
    (receiver? context tree frame next).Within host P EvalError.IsBare := by
  cases tree with
  | none => exact hnext none
  | some c => exact within_receiver context (htree c rfl) fun v => hnext (some v)

theorem within_convertLeft {conversion : Option Expr}
    (hbody : ∀ l ∈ conversion.bind Expr.lambda?, P l.body) (v : Value) :
    (convertLeft conversion frame v).Within host P EvalError.IsBare := by
  unfold convertLeft
  cases hl : conversion.bind Expr.lambda? with
  | none => exact .pure _ v
  | some l =>
    dsimp only
    split
    · exact within_last (hbody l hl) (.pure _)
    · exact .throw trivial

/-- A course fails because a tree that it evaluates fails, with the same failure, or of its own, after
everything that it evaluates has come to a value. -/
theorem error_run {c : Course} (h : c.Within host P E) {w : World} {err : EvalError}
    (herr : ((c.run .native).outcome host w).1 = .error err) :
    (∃ x ∈ c.evaluations host w, P x.tree ∧ (x.outcome host).1 = .error err) ∨
      (E err ∧ ∀ x ∈ c.evaluations host w, ∃ v, (x.outcome host).1 = .ok v) := by
  induction c generalizing w with
  | finish x =>
    have hfails := h w
    rw [run_finish] at herr
    rw [herr] at hfails
    exact .inr ⟨hfails, nofun⟩
  | evaluate tree frame next ih =>
    obtain ⟨htree, hnext⟩ := h
    rw [run_evaluate, outcome_bind] at herr
    unfold evaluations
    -- A failure ends the course, and the rest is about the world that a value leaves.
    rcases ho : (tree.interpret .native frame).outcome host w with ⟨err' | v, w'⟩ <;>
      rw [ho] at herr
    · cases herr
      exact .inl ⟨_, List.mem_cons_self, htree, congrArg Prod.fst ho⟩
    · rcases ih v (hnext v) herr with ⟨x, hx, hfailed⟩ | ⟨hown, hparts⟩
      · exact .inl ⟨x, List.mem_cons_of_mem _ hx, hfailed⟩
      · exact .inr ⟨hown, List.forall_mem_cons.2 ⟨⟨v, congrArg Prod.fst ho⟩, hparts⟩⟩

end Course

/-! ### The innermost node -/

namespace Expr

variable {host : Host} {frame : Frame} {e : Expr}

/-- A node evaluates its operands and the body of its conversion. What it does itself fails without
saying where, unless it is a placeholder. -/
theorem course_within (hraise : e.isRaise = false) :
    (e.course .native frame).Within host (· ∈ e.lowered) EvalError.IsBare := by
  have operand {c : Expr} (hc : c ∈ e.operands) : c ∈ e.lowered := mem_lowered.2 (.inl hc)
  cases e with
  | constant s v => exact FailsAs.pure _ v
  | parameter p =>
    simp only [course]
    split
    · exact FailsAs.pure _ _
    · exact fun _ => nofun
  | binary s op lifting method l r c =>
    have hr : r ∈ (binary s op lifting method l r c).lowered := operand (by simp [operands])
    refine ⟨operand List.mem_cons_self, fun v => ?_⟩
    cases method with
    | some m => exact Course.within_last hr fun w => .ofHost _
    | none =>
      cases op with
      | andAlso | orElse =>
        dsimp only
        split
        · exact FailsAs.pure _ v
        · exact Course.within_last hr fun w => .pure _ _
      | coalesce =>
        dsimp only
        split
        · exact Course.within_last hr (.pure _)
        · exact Course.within_convertLeft (fun l hl => mem_lowered.2 (.inr ⟨l, hl, rfl⟩)) v
      | _ =>
        exact Course.within_last hr fun w =>
          .ofExcept (Step.builtinResult_failsOnly _ lifting v w)
  | unary s op lifted method x =>
    refine Course.within_last (operand List.mem_cons_self) fun v => ?_
    cases method with
    | none => exact .ofExcept (Step.applyUnary_failsOnly op lifted x.ty s.ty v)
    | some m =>
      dsimp only
      split
      · exact .pure _ _
      · exact .ofHost _
  | conditional s t x y =>
    refine ⟨operand (by simp [operands, children]), fun v => ?_⟩
    dsimp only
    split
    · exact Course.within_last (operand (by simp [operands, children])) (.pure _)
    · exact Course.within_last (operand (by simp [operands, children])) (.pure _)
    · exact FailsAs.throw trivial
  | member s r d =>
    simp only [course]
    exact Course.within_receiver? _ (fun c hc => operand (Option.mem_toList.2 hc)) fun v =>
      FailsAs.ofHost _
  | call s r method as =>
    simp only [course]
    refine Course.within_receiver? _
      (fun c hc => operand (List.mem_append_left as (Option.mem_toList.2 hc))) fun v => ?_
    exact Course.within_all (fun c hc => operand (List.mem_append_right _ hc)) fun vs =>
      FailsAs.ofHost _
  | new s ctor as => exact Course.within_all (fun c hc => operand hc) fun vs => FailsAs.ofHost _
  | newArray s element as =>
    exact Course.within_all (fun c hc => operand hc) fun vs => FailsAs.pure _ _
  | index s r indexer as =>
    refine Course.within_receiver _ (operand List.mem_cons_self) fun v => ?_
    cases indexer with
    | some m =>
      exact Course.within_all (fun c hc => operand (List.mem_cons_of_mem r hc)) fun vs =>
        FailsAs.ofHost _
    | none =>
      dsimp only
      split
      · exact Course.within_last (operand (List.mem_cons_of_mem r List.mem_cons_self)) fun i =>
          .ofExcept (Operators.arrayElement_failsOnly v i)
      · exact FailsAs.throw trivial
  | typeIs s x target => exact Course.within_last (operand List.mem_cons_self) fun v => .pure _ _
  | lambda s ps b => exact FailsAs.pure _ _
  | raise s x => cases hraise
  | extension s kind as => exact FailsAs.throw trivial

end Expr

namespace Evaluation

variable {host : Host} {x : Evaluation} {err : EvalError}

/-- The second evaluation is part of the first. -/
def Starts (host : Host) (x y : Evaluation) : Prop := y ∈ x.parts host

/-- The evaluation fails, with its own node for the site, although all that is evaluated for it comes
to values. -/
structure FailsItself (host : Host) (x : Evaluation) (cause : EvalError) : Prop where
  outcome : (x.outcome host).1 = .error (.dynamic x.tree cause)
  bare : cause.IsBare
  parts : ∀ y ∈ x.parts host, ∃ v, (y.outcome host).1 = .ok v

/-- A failure comes out of the course of the node, and leaves the node with a site. -/
theorem exists_error_run (h : (x.outcome host).1 = .error err) :
    ∃ inner, (((x.tree.course .native x.frame).run .native).outcome host x.world).1 = .error inner ∧
      inner.atNode x.tree = err := by
  rw [outcome, Expr.interpret_eq_course, outcome_located] at h
  cases hrun : (((x.tree.course .native x.frame).run .native).outcome host x.world).1 with
  | ok v =>
    rw [hrun] at h
    cases h
  | error inner =>
    rw [hrun] at h
    cases h
    exact ⟨inner, rfl, rfl⟩

theorem exists_site (h : (x.outcome host).1 = .error err) :
    ∃ site cause, err = .dynamic site cause := by
  obtain ⟨inner, -, rfl⟩ := exists_error_run h
  cases inner with
  | dynamic site cause => exact ⟨site, cause, rfl⟩
  | _ => exact ⟨x.tree, _, rfl⟩

/-- An evaluation that fails has a part that fails with the very same failure, or fails itself. -/
theorem error_cases (hraise : x.tree.isRaise = false) (h : (x.outcome host).1 = .error err) :
    (∃ y, x.Starts host y ∧ y.tree ∈ x.tree.lowered ∧ (y.outcome host).1 = .error err) ∨
      ∃ cause, err = .dynamic x.tree cause ∧ x.FailsItself host cause := by
  obtain ⟨inner, hrun, rfl⟩ := exists_error_run h
  rcases Course.error_run (Expr.course_within hraise) hrun with
    ⟨y, hy, hmem, hfails⟩ | ⟨hbare, hparts⟩
  · -- What a part fails with has a site already, and this node adds none.
    obtain ⟨site, cause, rfl⟩ := exists_site hfails
    exact .inl ⟨y, hy, hmem, hfails⟩
  · rw [hbare.atNode_eq] at h ⊢
    exact .inr ⟨inner, rfl, h, hbare, hparts⟩

end Evaluation

/-- **A failure names the innermost node that failed.** If the interpretation of a tree without
placeholders fails, then the failure is a cause that names no node, together with one site. The site is
a node of the tree, in conversions perhaps. On the way from the root the run has come to evaluate it,
and this evaluation failed itself: all that was evaluated for it had come to values. -/
theorem Expr.interpret_locates {e : Expr} (hraise : ∀ d ∈ e.preOrder, d.isRaise = false)
    {host : Host} {frame : Frame} {w : World} {err : EvalError}
    (h : ((e.interpret .native frame).outcome host w).1 = .error err) :
    ∃ x cause, err = .dynamic x.tree cause ∧ x.tree ∈ e.preOrder ∧
      Relation.ReflTransGen (Evaluation.Starts host) ⟨e, frame, w⟩ x ∧ x.FailsItself host cause := by
  induction e using induction_lowered generalizing frame w with
  | step e ih =>
    let here : Evaluation := ⟨e, frame, w⟩
    have hfails : (here.outcome host).1 = .error err := h
    rcases here.error_cases (hraise e (mem_preOrder_self e)) hfails with
      ⟨y, hstarts, hlowered, hbelow⟩ | ⟨cause, rfl, hitself⟩
    · have hmem := mem_preOrder_of_mem_lowered hlowered
      obtain ⟨x, cause, rfl, hx, hreaches, hitself⟩ :=
        ih y.tree hlowered (fun d hd => hraise d (mem_preOrder_trans hmem hd)) hbelow
      exact ⟨x, cause, rfl, mem_preOrder_trans hmem hx, .head hstarts hreaches, hitself⟩
    · exact ⟨here, cause, rfl, mem_preOrder_self e, .refl, hitself⟩

/-- The theorem for `n ?? 0` with the conversion `y => y / 0`, where `n` is 7: the quotient is reached
from the root, its operands come to 7 and 0, and it fails itself. -/
theorem Expr.interpret_locates_quotient :
    let int : Ty := .int .i32
    let n : Param := ⟨0, 0, "n", .nullable int⟩
    let y : Param := ⟨1, 1, "y", int⟩
    let zero : Expr := .constant ⟨2, int⟩ (.ofInt .i32 0)
    let quotient : Expr := .binary ⟨3, int⟩ .divide {} none (.parameter y) zero none
    let e : Expr := .binary ⟨5, int⟩ .coalesce {} none (.parameter n) zero
      (some (.lambda ⟨4, .func [int] int⟩ [y] quotient))
    let host : Host := ⟨fun _ => none⟩
    let frame : Frame := [(0, .ofInt .i32 7)]
    ((e.interpret .native frame).outcome host {}).1 = .error (.dynamic quotient .divideByZero) ∧
      ∃ x : Evaluation, x.tree = quotient ∧
        Relation.ReflTransGen (Evaluation.Starts host) ⟨e, frame, {}⟩ x ∧
        x.FailsItself host .divideByZero := by
  intro int n y zero quotient e host frame
  have hraise : ∀ d ∈ e.preOrder, d.isRaise = false := by decide
  have hfails : ((e.interpret .native frame).outcome host {}).1 =
      .error (.dynamic quotient .divideByZero) := rfl
  obtain ⟨x, cause, heq, -, hreaches, hitself⟩ := Expr.interpret_locates hraise hfails
  obtain ⟨hsite, rfl⟩ := EvalError.dynamic.inj heq
  exact ⟨hfails, x, hsite.symm, hreaches, hitself⟩

/-- A placeholder raises what it has captured, which may name a node that is not in the tree. -/
example :
    let lost : Expr := .parameter ⟨0, 0, "x", .int .i32⟩
    let captured : Deferred := .mk 0 (.eval (.dynamic lost .divideByZero))
    let e : Expr := .raise ⟨1, .int .i32⟩ (.constant ⟨2, .object⟩ (.error captured))
    ((e.interpret .native []).outcome ⟨fun _ => none⟩ {}).1 =
      .error (.dynamic lost .divideByZero) := by
  rfl

end ExprTree
