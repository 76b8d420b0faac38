import ExprTree.Proofs.ArgumentSlots

/-!
# Compiled code agrees with interpretation

The interpreter binds parameters in a frame; compiled code reads arguments from an array and keeps
only the parameters of conversions in a frame of its own. `Expr.Bindings` relates the two: a
parameter of the lambda is found in the array, and any other one in the locals. It is kept where a
conversion is applied, because no parameter is declared again below its declaration.

Quotes are values. The interpreter quotes a lambda as it is, and compiled code closes it over its
surroundings, so the two agree on the quotes that are closed already.

## Main definitions

* `Expr.isRegular`: the trees that both evaluators take the same way.
* `Expr.Bindings`: a frame and an environment that bind parameters to the same values.

## Main results

* `Expr.without_of_isClosed`: a closed quote mentions no parameter of the lambda around it.
* `Lambda.compile_agrees`: **compiled code and the interpreter agree**.
-/

set_option autoImplicit false

namespace ExprTree

open EvalM ArgumentArray

namespace Expr

/-! ### Regular trees -/

/-- The declarations in scope below a node, the innermost first. -/
def scopeBelow (scope : List Param) : Expr → List Param
  | lambda _ params _ => params ++ scope
  | _ => scope

/-- Whether an occurrence of a parameter has the type of its declaration. -/
def fitsScope (scope : List Param) : Expr → Bool
  | parameter p => scope.all fun q => q.id ≠ p.id || q.ty = p.ty
  | _ => true

/-- Whether a tree is taken the same way by both evaluators: every node can be run and fits its
scope, and every lambda is closed unless it is the conversion of a coalesce node. -/
def isRegular : Expr → (scope : List Param) → Bool :=
  fold fun e below scope =>
    e.isRunnable && e.fitsScope scope && e.operands.all (fun c => c.lambda?.isNone || c.isClosed) &&
      (below ()).all fun regular => regular (e.scopeBelow scope)

variable {e e' : Expr} {scope : List Param}

theorem isRegular_iff :
    e.isRegular scope = true ↔ e.isRunnable = true ∧ e.fitsScope scope = true ∧
      (∀ c ∈ e.operands, c.lambda? = none ∨ c.isClosed = true) ∧
      ∀ c ∈ e.children, c.isRegular (e.scopeBelow scope) = true := by
  rw [isRegular, fold_eq]
  simp [and_assoc]

theorem boundBelow_map_id (scope : List Param) (e : Expr) :
    e.boundBelow (scope.map Param.id) = (e.scopeBelow scope).map Param.id := by
  cases e with
  | lambda s ps b => exact (List.map_append ..).symm
  | _ => rfl

end Expr

/-- Whether both evaluators take a lambda the same way, and no parameter is declared twice on a path
through it. -/
def Lambda.isRegular (l : Lambda) : Bool :=
  l.body.declaresOnce l.paramIds && (l.body.lambda?.isNone || l.body.isClosed) &&
    l.body.isRegular l.params

/-! ### Bindings -/

namespace Frame

/-- Binding pairs one after the other. -/
def push (frame : Frame) (pairs : List (Param × Value)) : Frame :=
  pairs.foldl (fun frame (p, v) => (p.id, v) :: frame) frame

theorem push_eq (frame : Frame) (pairs : List (Param × Value)) :
    frame.push pairs = (pairs.map fun (p, v) => (p.id, v)).reverse ++ frame :=
  List.foldl_flip_cons_eq_append ..

theorem bind_eq (frame : Frame) (params : List Param) (args : List Value) :
    frame.bind params args = ((params.zip args).map fun (p, v) => (p.id, v)).reverse ++ frame :=
  push_eq frame _

theorem get?_push_of_notMem {pairs : List (Param × Value)} {id : ParamId} (frame : Frame)
    (h : ∀ pv ∈ pairs, pv.1.id ≠ id) : (frame.push pairs).get? id = frame.get? id := by
  induction pairs generalizing frame with
  | nil => rfl
  | cons pv pairs ih =>
    rw [List.forall_mem_cons] at h
    exact (ih _ h.2).trans (get?_cons_of_ne (Ne.symm h.1) _ _)

theorem get?_push_of_mem {pairs : List (Param × Value)} {pv : Param × Value} (frame : Frame)
    (hnodup : (pairs.map fun pv => pv.1.id).Nodup) (hmem : pv ∈ pairs) :
    (frame.push pairs).get? pv.1.id = some pv.2 := by
  induction pairs generalizing frame with
  | nil => cases hmem
  | cons first pairs ih =>
    rw [List.map_cons, List.nodup_cons] at hnodup
    rcases List.mem_cons.1 hmem with rfl | hmem
    · have later : ∀ later ∈ pairs, later.1.id ≠ pv.1.id := fun later hlater heq =>
        hnodup.1 (heq ▸ List.mem_map_of_mem (f := fun pv => pv.1.id) hlater)
      exact (get?_push_of_notMem _ later).trans (get?_cons_self _ _ _)
    · exact ih _ hnodup.2 hmem

/-- Parameters are bound to arguments one after the other. -/
theorem forall₂_get?_bind {params : List Param} {args : List Value}
    (hlength : params.length = args.length) (hnodup : (params.map Param.id).Nodup) (frame : Frame) :
    List.Forall₂ (fun p v => (frame.bind params args).get? p.id = some v) params args := by
  refine List.forall₂_iff_zip.2 ⟨hlength, fun {p v} hmem => ?_⟩
  have ids : (params.zip args).map (fun pv => pv.1.id) =
      ((params.zip args).map Prod.fst).map Param.id := (List.map_map ..).symm
  rw [← List.map_fst_zip (Nat.le_of_eq hlength), ← ids] at hnodup
  exact get?_push_of_mem frame hnodup hmem

/-- The frame that a lambda binds its arguments in, where a parameter is looked up. -/
theorem get?_bind {params : List Param} {args : List Value} {i : Nat} {p : Param}
    (hnodup : (params.map Param.id).Nodup) (hlength : args.length = params.length)
    (hp : params[i]? = some p) : (Frame.bind [] params args).get? p.id = args[i]? := by
  have bound := forall₂_getElem? (forall₂_get?_bind hlength.symm hnodup []) i
  rw [hp] at bound
  revert bound
  generalize args[i]? = arg
  rintro (h | _)
  exact h

theorem get?_bind_eq_none {params : List Param} {args : List Value} {id : ParamId}
    (h : ∀ p ∈ params, p.id ≠ id) : (Frame.bind [] params args).get? id = none :=
  get?_push_of_notMem [] fun _ hpv => h _ (List.of_mem_zip hpv).1

end Frame

/-- The frame of the interpreter and the environment of compiled code bind the same: the parameters
of the lambda are the arguments, and the locals bind the others. -/
structure Bindings (params : List Param) (values : List Value) (frame : Frame) (env : Env) :
    Prop where
  args : env.args = values.toArray
  get? : ∀ id, frame.get? id = (env.locals.get? id).or ((Frame.bind [] params values).get? id)
  locals : ∀ p ∈ params, env.locals.get? p.id = none

namespace Bindings

variable {params : List Param} {args : List Value} {frame : Frame} {env : Env}

theorem root (params : List Param) (args : List Value) :
    Bindings params args (Frame.bind [] params args) ⟨args.toArray, []⟩ where
  args := rfl
  get? _ := rfl
  locals _ _ := rfl

/-- A conversion binds its parameter on both sides. -/
theorem withLocal (h : Bindings params args frame env) {p : Param}
    (hp : ∀ q ∈ params, q.id ≠ p.id) (v : Value) :
    Bindings params args (frame.bind [p] [v]) (env.withLocal p.id v) where
  args := h.args
  get? id := by
    change Frame.get? ((p.id, v) :: frame) id = (Frame.get? ((p.id, v) :: env.locals) id).or _
    by_cases hid : id = p.id
    · rw [hid, Frame.get?_cons_self, Frame.get?_cons_self, Option.some_or]
    · rw [Frame.get?_cons_of_ne hid, Frame.get?_cons_of_ne hid, h.get?]
  locals q hq := (Frame.get?_cons_of_ne (hp q hq) _ _).trans (h.locals q hq)

end Bindings

/-! ### Compiled trees -/

/-- A closed quote mentions no parameter of the lambda around it, as none of them is declared again
in it. -/
theorem Expr.without_of_isClosed {params scope : List Param} {e : Expr} (hscope : params ⊆ scope)
    (honce : e.declaresOnce (scope.map Param.id) = true) (hclosed : e.isClosed = true) :
    Without (HasPlace (positions (params.map .parameter))) e := by
  intro d hd hplace
  obtain ⟨place, hplace⟩ := Option.ne_none_iff_exists'.1 hplace
  obtain ⟨p, rfl, hposition⟩ := exists_of_place? hplace
  have hoccurs : p ∈ e.occurrences := List.mem_filterMap.2 ⟨_, hd, rfl⟩
  rcases occurrences_declared (List.isEmpty_iff.1 hclosed) p hoccurs with hp | hp
  · cases hp
  · have houter : ∀ q ∈ params, q.id ≠ p.id := by
      intro q hq hid
      exact declaredIds_notMem honce p.id hp (hid ▸ List.mem_map_of_mem (hscope hq))
    rw [position_eq_none houter] at hposition
    cases hposition

/-- The values are one for each parameter, and instances of the declared types. -/
structure Accepts (params : List Param) (values : List Value) : Prop where
  length_eq : values.length = params.length
  instances : ∀ pv ∈ params.zip values, pv.2.isInstanceOf pv.1.ty = true

/-- A tree is compiled to another: it has the same type, can be lowered, and for all arguments that
are accepted its code agrees with the interpretation wherever both bind the same. -/
structure Compiles (params : List Param) (args : ParamId) (e e' : Expr) : Prop where
  ty_eq : e.ty = e'.ty
  lowers : e'.Lowers .native args
  agrees : ∀ {host values frame env}, Accepts params values → Bindings params values frame env →
    Simulates host Eq Eq (e.interpret .native frame) (e'.code .native args env)

variable {params : List Param} {args : Param} {e e' : Expr} {scope : List Param}

/-- A parameter of the lambda is read from the array. -/
theorem compiles_slot (hnodup : (params.map Param.id).Nodup) (hsize : params.length ≤ 2 ^ 31)
    (hscope : params ⊆ scope) (hfits : e.fitsScope scope = true)
    (h : SlotFor args (positions (params.map .parameter)) e e') :
    Compiles params args.id e e' := by
  obtain ⟨i, ty, hplace, hslot⟩ := h
  obtain ⟨p, rfl, hposition⟩ := exists_of_place? hplace
  obtain ⟨q, hq, hid, rfl⟩ := exists_of_position hposition
  have hty : q.ty = p.ty := by
    have hall := List.all_eq_true.1 hfits q (hscope (List.mem_of_getElem? hq))
    simpa [hid] using hall
  obtain ⟨hi, hqi⟩ := List.getElem?_eq_some_iff.1 hq
  have hslot? := hslot.convertedSlot? (Nat.lt_of_lt_of_le hi hsize)
  have hlower : e'.lower .native args.id = .ok (Expr.readSlot i e'.ty) :=
    Expr.lower_of_convertedSlot? hslot?
  refine ⟨hty.symm.trans hslot.ty_eq.symm, ⟨_, hlower⟩, ?_⟩
  intro host values frame env haccepts hbind
  have hlength := haccepts.length_eq
  have hv : values[i]? = some values[i] := List.getElem?_eq_getElem (by omega)
  have hmem : (q, values[i]) ∈ params.zip values := by
    rw [List.mem_iff_getElem]
    exact ⟨i, by simp [hlength, hi], by simp [hqi]⟩
  have read : e'.code .native args.id env = return values[i] := by
    rw [Expr.code, hlower]
    refine Expr.readSlot_eq ?_ ?_
    · rw [hbind.args, List.getElem?_toArray, hv]
    · rw [hslot.ty_eq]
      exact haccepts.instances _ hmem
  have bound : frame.get? p.id = some values[i] := by
    rw [hbind.get?, ← hid, hbind.locals q (List.mem_of_getElem? hq), Option.none_or,
      Frame.get?_bind hnodup hlength hq, hv]
  rw [read]
  unfold Expr.interpret
  dsimp only
  rw [bound]
  exact .located_left _ (.pure rfl)

/-- Any other parameter is bound by a conversion, or not at all. -/
theorem compiles_parameter {p : Param} (hp : p.id ≠ args.id)
    (hplace : (positions (params.map .parameter))[p.id]? = none) :
    Compiles params args.id (.parameter p) (.parameter p) := by
  refine ⟨rfl, Expr.lowers_parameter p, ?_⟩
  intro host values frame env _ hbind
  have bound : frame.get? p.id = env.locals.get? p.id := by
    rw [hbind.get?, Frame.get?_bind_eq_none (ne_of_position_eq_none hplace), Option.or_none]
  rw [Expr.code_parameter hp]
  unfold Expr.interpret
  dsimp only
  rw [bound]
  exact .located_left _ (.of_eq (fun _ => rfl) _)

/-- A closed quote is the lambda itself. -/
theorem compiles_quote (hlambda : e.lambda?.isSome = true) (hclosed : e.isClosed = true) :
    Compiles params args.id e e := by
  refine ⟨rfl, ⟨_, Expr.lower_lambda hlambda⟩, ?_⟩
  intro host values frame env _ _
  rw [Expr.code, Expr.lower_lambda hlambda]
  unfold Expr.quote
  dsimp only
  rw [if_pos hclosed]
  cases e with
  | lambda s ps b =>
    unfold Expr.interpret
    exact .located_left _ (.pure rfl)
  | _ => cases hlambda

/-- Conversions over the same parameters, none of them a parameter of the lambda, whose bodies are
compiled. -/
def CompilesBody (params : List Param) (args : ParamId) (ps ps' : List Param)
    (b b' : Expr) : Prop :=
  ps = ps' ∧ (∀ p ∈ ps, ∀ q ∈ params, q.id ≠ p.id) ∧ Compiles params args b b'

/-- What the interpreter makes of a value on the left of a coalesce node, compiled code makes too. -/
theorem passLeft_agrees {host : Host} {values : List Value} (haccepts : Accepts params values)
    {c c' : Option Expr}
    (hc : Option.Rel (Expr.ConversionRel (CompilesBody params args.id)) c c')
    (hone : ∀ l ∈ c.bind Expr.lambda?, l.params.length = 1) {frame : Frame} {env : Env}
    (hbind : Bindings params values frame env) (v : Value) :
    Simulates host Eq Eq (Expr.convertLeft .native frame c v)
      (Expr.passLeft .native args.id env c' v) := by
  cases hc with
  | none => exact .pure rfl
  | some hc =>
    cases hc with
    | other hc hc' =>
      simp only [Expr.convertLeft, Expr.passLeft, Option.bind_some, hc, hc']
      exact .pure rfl
    | @lambda s s' ps ps' b b' h =>
      obtain ⟨rfl, hfresh, hb⟩ := h
      obtain ⟨p, rfl⟩ := List.length_eq_one_iff.1 (hone ⟨ps, b⟩ rfl)
      exact hb.agrees haccepts (hbind.withLocal (hfresh p List.mem_cons_self) v)

/-- A node over compiled operands is compiled. -/
theorem compiles_node {S : Expr → Expr → Prop}
    {B : List Param → List Param → Expr → Expr → Prop} (h : Expr.Parallel S B e e')
    (hplain : e'.isPlain args.id = true) (hrunnable : e.isRunnable = true)
    (hparameter : e.parameter? = none) (hlambda : e.lambda? = none)
    (hoperands : ∀ c ∈ e.operands, ∀ c', S c c' → Compiles params args.id c c')
    (hconversion : ∀ c ∈ e.conversion?, ∀ c', S c c' →
      Expr.ConversionRel (CompilesBody params args.id) c c') :
    Compiles params args.id e e' := by
  have conversions := optionRel_imp_of_mem h.conversion? fun c hc c' _ => hconversion c hc c'
  have hrunnable' : e'.isRunnable = true := by
    rw [← h.isRunnable_eq conversions fun hb => congrArg List.length hb.1]
    exact hrunnable
  have lowered : ∀ c ∈ e'.lowered, c.Lowers .native args.id := by
    intro c hc
    rcases List.mem_append.1 hc with hc | hc
    · refine forall_right_of_forall₂ (h.operands hlambda) (fun d hd c hS => ?_) c hc
      exact (hoperands d hd c hS).lowers
    · obtain ⟨l', hl', rfl⟩ := List.mem_map.1 hc
      obtain ⟨l, -, hbody⟩ := Expr.exists_of_conversionRel conversions (Option.mem_toList.1 hl')
      exact hbody.2.2.lowers
  have hlowers : e'.Lowers .native args.id := (Expr.lowers_iff hplain).2 ⟨hrunnable', lowered⟩
  refine ⟨h.ty_eq, hlowers, ?_⟩
  intro host values frame env haccepts hbind
  rw [Expr.interpret_eq _ _ hparameter, Expr.code_eq hplain hlowers]
  refine .located_left _ (Expr.meaning_simulates (Q := fun _ => Eq) Value.congruence_eq
    (Reflector.respects_eq _ _) (fun _ _ _ _ => id) ?_ h hlambda (fun c hc c' hS => ?_)
    fun _ v v' hv => ?_)
  · rintro s op lifting l r c - - v _ w _ rfl rfl
    exact .refl (fun _ => rfl) _
  · have compiled := hoperands c hc c' hS
    exact ⟨compiled.ty_eq, compiled.agrees haccepts hbind⟩
  · cases hv
    exact passLeft_agrees haccepts conversions
      (fun l hl => Expr.length_of_isRunnable hrunnable hl) hbind v

/-- What the rewrite makes of a regular tree is compiled code for it. A lambda is compiled where it
is closed, and where it is a conversion. -/
theorem compiles_of_slotted (hnodup : (params.map Param.id).Nodup)
    (hsize : params.length ≤ 2 ^ 31) (hscope : params ⊆ scope)
    (hregular : e.isRegular scope = true) (honce : e.declaresOnce (scope.map Param.id) = true)
    (hbelow : e.Below args.id)
    (h : Slotted args (positions (params.map .parameter)) e e') :
    (e.lambda? = none ∨ e.isClosed = true → Compiles params args.id e e') ∧
      Expr.ConversionRel (CompilesBody params args.id) e e' := by
  induction e using Expr.induction_children generalizing e' scope with
  | step e ih =>
    obtain ⟨hrunnable, hfits, hquotes, hchildren⟩ := Expr.isRegular_iff.1 hregular
    have honce' := (Expr.declaresOnce_iff.1 honce).2
    rw [Expr.boundBelow_map_id] at honce'
    by_cases hplace : HasPlace (positions (params.map .parameter)) e
    · have hslot := Slotted.exists_slot h hplace
      refine ⟨fun _ => compiles_slot hnodup hsize hscope hfits hslot, ?_⟩
      obtain ⟨i, ty, hplace, n, lifted, s, s', rfl⟩ := hslot
      obtain ⟨p, rfl, -⟩ := exists_of_place? hplace
      exact .other rfl rfl
    obtain ⟨hparallel, hkept⟩ := h.parallel hplace
    have hbelow' := hbelow.children
    cases hl : e.lambda? with
    | some l =>
      have quote (hclosed : e.isClosed = true) : Compiles params args.id e e' := by
        rw [hkept (Expr.without_of_isClosed hscope honce hclosed)]
        exact compiles_quote (by rw [hl]; rfl) hclosed
      refine ⟨fun h => quote (h.resolve_left (Option.some_ne_none l)), ?_⟩
      cases hparallel with
      | @lambda n n' t ps ps' b b' hb =>
        obtain ⟨rfl, hb⟩ := hb
        have hmem : b ∈ (Expr.lambda ⟨n, t⟩ ps b).children := List.mem_cons_self
        have body := ih b hmem (List.subset_append_of_subset_right ps hscope) (hchildren b hmem)
          (honce' b hmem) (hbelow' b hmem) hb
        refine .lambda ⟨rfl, fun p hp q hq hid => ?_, body.1 (hquotes b hmem)⟩
        exact Expr.notMem_of_declaresOnce honce p hp (hid ▸ List.mem_map_of_mem (hscope hq))
      | _ => cases hl
    | none =>
      have hscope' : e.scopeBelow scope = scope := by
        cases e <;> first | rfl | cases hl
      rw [hscope'] at hchildren honce'
      have hl' : e'.lambda? = none := by cases hparallel <;> first | rfl | cases hl
      refine ⟨fun _ => ?_, .other hl hl'⟩
      cases hp : e.parameter? with
      | some p =>
        cases hparallel with
        | parameter p =>
          exact compiles_parameter (Nat.ne_of_lt hbelow.parameter) (not_not.1 hplace)
        | _ => cases hp
      | none =>
        refine compiles_node hparallel (Slotted.isPlain h hbelow hp hl) hrunnable hp hl ?_ ?_
        · intro c hc c' hS
          have hmem := Expr.mem_children_of_mem_operands hc
          exact (ih c hmem hscope (hchildren c hmem) (honce' c hmem) (hbelow' c hmem) hS).1 (hquotes c hc)
        · intro c hc c' hS
          have hmem := Expr.mem_children_of_mem_conversion? hc
          exact (ih c hmem hscope (hchildren c hmem) (honce' c hmem) (hbelow' c hmem) hS).2

/-- **Compiled code and the interpreter agree.** A regular lambda can be compiled, whatever was
minted before it, and on every list of arguments that are instances of the declared types both give
the same value or fail with the same root cause. They leave the same world behind, and in its trace
the code of the host that ran, with the same receivers and arguments in the same order. Slots are
numbered by an `i32`, and parameter lists are taken to be shorter than that. -/
theorem Lambda.compile_agrees (l : Lambda) (s : Supply) (hregular : l.isRegular = true)
    (hbelow : l.body.Below s.next) (hsize : l.params.length ≤ 2 ^ 31) :
    ∃ callable s', (Backend.closures.compile l.body l.params).run s = (.ok callable, s') ∧
      ∀ (host : Host) (args : List Value) (w : World),
        (∀ pv ∈ l.params.zip args, pv.2.isInstanceOf pv.1.ty = true) →
        Outcome.Agree Eq ((l.interpret .native args).outcome host w).1
            ((callable args).outcome host w).1 ∧
          ((l.interpret .native args).outcome host w).2 = ((callable args).outcome host w).2 := by
  simp only [Lambda.isRegular, Bool.and_eq_true, Bool.or_eq_true,
    Option.isNone_iff_eq_none] at hregular
  obtain ⟨⟨honce, hquote⟩, hbody⟩ := hregular
  have hnodup := Expr.nodup_of_declaresOnce honce
  obtain ⟨s', hrun⟩ := Backend.closures_compile_run l.body l.params s
  have compiled := (compiles_of_slotted hnodup hsize (List.Subset.refl _) hbody honce hbelow
    (Backend.slotted_arrayBody l.body l.params s)).1 hquote
  let code := (Backend.arrayBody l.body l.params s).code .native s.next
  refine ⟨Backend.callableOf l.params.length code, s', ?_, ?_⟩
  · rw [hrun, compiled.lowers.eq]
    rfl
  · intro host args w hinst
    unfold Lambda.interpret Backend.callableOf
    by_cases hlength : args.length = l.params.length
    · simp only [hlength, if_true]
      exact compiled.agrees ⟨hlength, hinst⟩ (.root l.params args) w w rfl
    · rw [if_neg hlength, if_neg hlength]
      exact ⟨rfl, rfl⟩

/-- The theorem for `(x, n) => n ?? x` with the conversion `y => y + x`, called with two numbers. -/
theorem Lambda.compile_agrees_coalesce :
    let x : Param := ⟨0, 0, "x", .int .i32⟩
    let n : Param := ⟨1, 1, "n", .nullable (.int .i32)⟩
    let y : Param := ⟨2, 2, "y", .int .i32⟩
    let sum : Expr := .binary ⟨3, .int .i32⟩ .add {} none (.parameter y) (.parameter x) none
    let l : Lambda := ⟨[x, n], .binary ⟨5, .int .i32⟩ .coalesce {} none (.parameter n) (.parameter x)
      (some (.lambda ⟨4, .object⟩ [y] sum))⟩
    let args : List Value := [.ofInt .i32 1, .ofInt .i32 2]
    let host : Host := ⟨fun _ => none⟩
    ∃ callable s', (Backend.closures.compile l.body l.params).run ⟨6⟩ = (.ok callable, s') ∧
      Outcome.Agree Eq ((l.interpret .native args).outcome host {}).1
        ((callable args).outcome host {}).1 ∧
      ((l.interpret .native args).outcome host {}).2 = ((callable args).outcome host {}).2 := by
  intro x n y sum l args host
  obtain ⟨callable, s', hrun, hagree⟩ := Lambda.compile_agrees l ⟨6⟩ (by decide)
    ⟨by decide, by decide⟩ (by decide)
  exact ⟨callable, s', hrun, hagree host args {} (by decide)⟩

end ExprTree
