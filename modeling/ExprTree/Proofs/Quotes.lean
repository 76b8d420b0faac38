import ExprTree.Proofs.Likeness
import ExprTree.Proofs.PureHost
import ExprTree.Proofs.Templates

/-!
# Quotes of instances and templates

Compiled code quotes a lambda with the values around it put in as constants. The code of a template
has slots where the tree has constants, so its quotes are made from another tree; but a slot of a hole
reads the constant that the hole stands for, and what is captured is the constant again. The quotes
are not the same trees. They are alike.

## Main definitions

* `Env.SameIn`: environments in which a tree and its template find the same values.

## Main results

* `Expr.from_capture`: what capture makes of a tree.
* `Expr.quote_outcome`: a closed quote captures nothing, so all quotes are made alike.
* `Expr.alike_of_captured`: quotes of instances and templates are alike.
-/

set_option autoImplicit false

namespace ExprTree

open ArgumentArray

namespace Expr

/-! ### Capture -/

/-- A constant stands for the node in quotes made in the environment. -/
def IsCaptured (args : ParamId) (env : Env) (e : Expr) : Prop := captured args env e ≠ none

/-- The constant that stands for a node in quotes made in the environment. -/
def CapturedAs (args : ParamId) (env : Env) (e r : Expr) : Prop :=
  ∃ n v, captured args env e = some v ∧ r = .constant ⟨n, e.ty⟩ v

/-- The second tree is the first with constants in the place of what is captured. -/
abbrev Captured (args : ParamId) (env : Env) : Expr → Expr → Prop :=
  Replaced (IsCaptured args env) (CapturedAs args env)

/-- Capture as state passing. Dispatch stays what it is. -/
def captureView : StateView WorldM where
  State := World
  run x w := x w
  run_pure := @stateM_pure World
  run_bind := @stateM_bind World
  Inv _ := True
  le w w' := w'.dispatch = w.dispatch
  le_refl _ := rfl
  le_trans h h' := h'.trans h
  inv_of_le _ _ := trivial
  le_mint _ := rfl

variable {args : ParamId} {env : Env} {e e' t t' : Expr}

theorem captured_eq (h : e.parameter? = none) :
    captured args env e = (e.convertedSlot? args).bind fun i => env.args[i]? := by
  cases e <;> first | rfl | cases h

/-- What capture makes of a tree. -/
theorem from_capture (args : ParamId) (env : Env) (e : Expr) (w : World) :
    captureView.From w (capture args env e) fun _ r => Captured args env e (r.on e) := by
  let hook (d : Expr) : Option (WorldM Rewritten) :=
    (captured args env d).map fun v => do return .changed (← mkConstant v d.ty)
  have hook_ne_none : (fun d => hook d ≠ none) = IsCaptured args env := by
    funext d
    simp [hook, IsCaptured]
  rw [Captured, ← hook_ne_none]
  refine StateView.from_rewrite_replaced (T := fun _ => CapturedAs args env) (fun _ _ _ h => h)
    ?_ e trivial
  · intro d answer h w _
    obtain ⟨v, hv, rfl⟩ := Option.map_eq_some_iff.1 h
    refine (StateView.From.mkConstant (V := captureView) trivial v d.ty).bind
      fun _ r _ ⟨n, hn⟩ => .pure ⟨n, v, hv, hn⟩

/-- How a quote is made, if a closed one has nothing to capture. -/
theorem quote_outcome (h : e.isClosed = true → Without (IsCaptured args env) e) (host : Host)
    (w : World) :
    ∃ r w', (quote args e env).outcome host w = (.ok (.lambda r), w') ∧
      w'.dispatch = w.dispatch ∧ Captured args env e r := by
  by_cases hclosed : e.isClosed = true
  · refine ⟨e, w, ?_, rfl, .self (h hclosed)⟩
    rw [quote, if_pos hclosed]
    rfl
  · obtain ⟨hkept, hcaptured⟩ := from_capture args env e w
    refine ⟨_, _, ?_, hkept, hcaptured⟩
    rw [quote, if_neg hclosed]
    rfl

/-- Recognized slots refer to the array of arguments. -/
theorem exists_of_convertedSlot? {i : Nat} (h : e.convertedSlot? args = some i) :
    ∃ p, p.id = args ∧ parameter p ∈ e.preOrder := by
  unfold convertedSlot? at h
  split at h
  · next s lifted operand =>
    unfold argumentSlot? at h
    split at h
    · next s' p s'' w =>
      split at h
      · next hslot =>
        simp only [Bool.and_eq_true, decide_eq_true_eq] at hslot
        refine ⟨p, hslot.1.1, ?_⟩
        have operand : .index s' (.parameter p) none [.constant s'' (.int w)] ∈
            (Expr.unary s .convert lifted none
              (.index s' (.parameter p) none [.constant s'' (.int w)])).preOrder :=
          mem_preOrder_of_mem_children List.mem_cons_self
        exact mem_preOrder_trans operand (mem_preOrder_of_mem_children List.mem_cons_self)
      · cases h
    · cases h
  · cases h

end Expr

variable {args : Param} {env : Env} {places : Positions} {scope : List ParamId} {e e' : Expr}

/-- A rewritten quote that is closed captures nothing: the array was minted for the rewrite, and what
is declared in the quote is not bound around it. -/
theorem ArgumentArray.Slotted.without_captured_of_unbound (h : Slotted args places e e')
    (hbelow : e.Below args.id) (hlocals : ∀ id ∈ e.declaredIds, env.locals.get? id = none)
    (hclosed : e'.isClosed = true) : Expr.Without (Expr.IsCaptured args.id env) e' := by
  have declared_eq : e'.declaredIds = e.declaredIds := by
    refine Expr.Replaced.declaredIds_eq (fun d d' hplace hslot => ?_) h
    obtain ⟨place, hplace⟩ := Option.ne_none_iff_exists'.1 hplace
    obtain ⟨p, rfl, -⟩ := exists_of_place? hplace
    obtain ⟨i, ty, -, n, lifted, s, s', rfl⟩ := hslot
    exact ⟨rfl, rfl⟩
  have declared {p : Param} (hp : .parameter p ∈ e'.preOrder) : p.id ∈ e.declaredIds := by
    have free := Expr.occurrences_declared (List.isEmpty_iff.1 hclosed) p (Expr.mem_occurrences hp)
    rw [declared_eq] at free
    exact free.resolve_left List.not_mem_nil
  intro d hd hcaptured
  obtain ⟨v, hv⟩ := Option.ne_none_iff_exists'.1 hcaptured
  cases hp : d.parameter? with
  | some p =>
    obtain rfl := Expr.eq_of_parameter? hp
    exact hcaptured (hlocals p.id (declared hd))
  | none =>
    have hslot : d.convertedSlot? args.id ≠ none := by
      intro hnone
      refine hcaptured ?_
      rw [Expr.captured_eq hp, hnone, Option.bind_none]
    obtain ⟨i, hi⟩ := Option.ne_none_iff_exists'.1 hslot
    obtain ⟨p, hid, hp⟩ := Expr.exists_of_convertedSlot? hi
    have hlt := hbelow.declared p.id (declared (Expr.mem_preOrder_trans hd hp))
    rw [hid] at hlt
    exact Nat.lt_irrefl _ hlt

/-- So does one that declares nothing again. -/
theorem ArgumentArray.Slotted.without_captured (h : Slotted args places e e') (hbelow : e.Below args.id)
    (honce : e.declaresOnce scope = true)
    (hlocals : ∀ id, env.locals.get? id ≠ none → id ∈ scope) (hclosed : e'.isClosed = true) :
    Expr.Without (Expr.IsCaptured args.id env) e' := by
  refine h.without_captured_of_unbound hbelow (fun id hid => ?_) hclosed
  by_contra hbound
  exact Expr.declaredIds_notMem honce id hid (hlocals id hbound)

/-! ### Quotes that are alike -/

/-- Environments in which a tree and its template find the same values: the arguments of the template
are the constants and then those of the tree, and parameters of conversions that are declared in the
same place are bound to the same value. -/
structure Env.SameIn (constants : List Value) (scope scope' : List ParamId) (env env' : Env) :
    Prop where
  args : env'.args = constants.toArray ++ env.args
  locals : ExprTree.SameIn scope scope' env.locals.get? env'.locals.get?

variable {args' : Param} {places' : Positions} {constants : List Value} {scope' : List ParamId}
  {env' : Env} {t t' r r' : Expr}

/-- The constants come first. -/
theorem Env.SameIn.constant (h : env.SameIn constants scope scope' env') {i : Nat} {v : Value}
    (hv : constants[i]? = some v) : env'.args[i]? = some v := by
  have hi : i < constants.toArray.size := (List.getElem?_eq_some_iff.1 hv).1
  rw [h.args, Array.getElem?_append_left hi, List.getElem?_toArray, hv]

/-- The arguments of the tree follow. -/
theorem Env.SameIn.argument (h : env.SameIn constants scope scope' env') (i : Nat) :
    env'.args[constants.length + i]? = env.args[i]? := by
  have hi : constants.toArray.size ≤ constants.length + i := Nat.le_add_right ..
  rw [h.args, Array.getElem?_append_right hi]
  exact congrArg (env.args[·]?) (Nat.add_sub_cancel_left ..)

theorem not_hasPlace_of_isLeaf (hleaf : e.isLeaf = false) : ¬HasPlace places e :=
  not_hasPlace_of_parameter? (Expr.parameter?_of_isLeaf hleaf)

/-- A node that is no parameter is neither replaced by a slot nor captured. -/
theorem ArgumentArray.Slotted.not_isCaptured (h : Slotted args places e e') (hbelow : e.Below args.id)
    (hparameter : e.parameter? = none) : ¬Expr.IsCaptured args.id env e' := by
  have hparallel := (h.parallel (not_hasPlace_of_parameter? hparameter)).1
  have hslot : e'.convertedSlot? args.id = none := by
    cases hl : e.lambda? with
    | some l => cases hparallel <;> first | rfl | cases hl
    | none => exact Expr.convertedSlot?_of_isPlain (Slotted.isPlain h hbelow hparameter hl)
  have hparameter : e'.parameter? = none := by cases hparallel <;> first | rfl | cases hparameter
  rw [Expr.IsCaptured, Expr.captured_eq hparameter, hslot]
  exact not_not.2 rfl

/-- What is captured for a slot. -/
theorem ArgumentArray.IsSlot.capturedAs {i : Nat} {ty : Ty} {v : Value} {r : Expr} (h : IsSlot args i ty e)
    (hi : i < 2 ^ 31) (hv : env.args[i]? = some v) (hr : Expr.Captured args.id env e r) :
    ∃ n, r = .constant ⟨n, ty⟩ v := by
  have captured_eq : Expr.captured args.id env e = some v := by
    have hparameter : e.parameter? = none := by
      obtain ⟨n, lifted, s, s', rfl⟩ := h
      rfl
    rw [Expr.captured_eq hparameter, h.convertedSlot? hi, Option.bind_some, hv]
  have hit : Expr.IsCaptured args.id env e := by
    rw [Expr.IsCaptured, captured_eq]
    exact Option.some_ne_none v
  obtain ⟨n, w, hw, rfl⟩ := hr.leaf_of_hit hit
  rw [captured_eq] at hw
  cases hw
  exact ⟨n, by rw [h.ty_eq]⟩

/-- What is captured for a parameter that was not replaced by a slot. -/
theorem captured_parameter {p : Param} {r : Expr} (hr : Expr.Captured args.id env (.parameter p) r) :
    match env.locals.get? p.id with
    | some v => ∃ n, r = .constant ⟨n, p.ty⟩ v
    | none => r = .parameter p := by
  split
  · next v hv =>
    have hit : Expr.IsCaptured args.id env (.parameter p) := by
      rw [Expr.IsCaptured, Expr.captured, hv]
      exact Option.some_ne_none v
    obtain ⟨n, w, hw, rfl⟩ := hr.leaf_of_hit hit
    cases hv.symm.trans hw
    exact ⟨n, rfl⟩
  · next hv =>
    cases (hr.parallel (not_not.2 hv)).1
    rfl

/-- What quotes of an instance and a template have where the two have parameters: the argument that both
read, the local that both are bound to, or the parameters themselves. -/
theorem Expr.alike_of_captured_parameter {p q : Param} (hname : p.name = q.name) (hty : p.ty = q.ty)
    (hscope : scope.idxOf? p.id = scope'.idxOf? q.id)
    (hplace : places'[q.id]? = places[p.id]?.map fun place => (constants.length + place.1, place.2))
    (hslotted : Slotted args places (.parameter p) e')
    (hslotted' : Slotted args' places' (.parameter q) t')
    (hplaces : places.Within env.args.size) (hplaces' : places'.Within (2 ^ 31))
    (henv : env.SameIn constants scope scope' env')
    (hr : Captured args.id env e' r) (hr' : Captured args'.id env' t' r') : r.Alike r' := by
  cases hpos : places[p.id]? with
  | some place =>
    obtain ⟨i, ty⟩ := place
    rw [hpos, Option.map_some] at hplace
    have hsize := hplaces _ _ _ hpos
    have hv : env.args[i]? = some env.args[i] := Array.getElem?_eq_getElem hsize
    have hi := hplaces' _ _ _ hplace
    obtain ⟨n, rfl⟩ := (Slotted.isSlot hslotted hpos).capturedAs
      (Nat.lt_of_le_of_lt (Nat.le_add_left ..) hi) hv hr
    obtain ⟨n', rfl⟩ := (Slotted.isSlot hslotted' hplace).capturedAs hi
      ((henv.argument i).trans hv) hr'
    exact alike_constant n n' ty _
  | none =>
    rw [hpos, Option.map_none] at hplace
    obtain rfl := Slotted.eq_parameter hslotted hpos
    obtain rfl := Slotted.eq_parameter hslotted' hplace
    have hr := captured_parameter hr
    have hr' := captured_parameter hr'
    rw [henv.locals.eq hscope] at hr
    cases hv : env'.locals.get? q.id with
    | some v =>
      rw [hv] at hr hr'
      obtain ⟨n, rfl⟩ := hr
      obtain ⟨n', rfl⟩ := hr'
      rw [hty]
      exact alike_constant n n' q.ty v
    | none =>
      rw [hv] at hr hr'
      cases hr
      cases hr'
      exact alike_parameter hname hty

/-- **Quotes of instances and templates are alike.** -/
theorem Expr.alike_of_captured
    (h : Instantiates places places' constants scope scope' e t)
    (hslotted : Slotted args places e e') (hslotted' : Slotted args' places' t t')
    (hbelow : e.Below args.id) (hbelow' : t.Below args'.id)
    (honce : e.declaresOnce scope = true) (honce' : t.declaresOnce scope' = true)
    (hplaces : places.Within env.args.size) (hplaces' : places'.Within (2 ^ 31))
    (henv : env.SameIn constants scope scope' env')
    (hr : Captured args.id env e' r) (hr' : Captured args'.id env' t' r') : r.Alike r' := by
  induction h generalizing e' t' r r' with
  | @constant scope scope' s v q hty hfits hfills =>
    obtain ⟨i, hplace, hv⟩ := hfills
    cases (hslotted.parallel (not_hasPlace_of_parameter? rfl)).1
    cases (hr.parallel (not_not.2 rfl)).1
    obtain ⟨n, rfl⟩ := (Slotted.isSlot hslotted' hplace).capturedAs (hplaces' _ _ _ hplace)
      (henv.constant hv) hr'
    rw [hty]
    exact alike_constant s.node n s.ty v
  | parameter hname hty hscope hplace =>
    exact alike_of_captured_parameter hname hty hscope hplace hslotted hslotted' hplaces hplaces' henv
      hr hr'
  | @node scope scope' e t hleaf hforeign hsame hchildren ih =>
    have hleaf' : t.isLeaf = false := hsame.isLeaf_eq.symm.trans hleaf
    have slotted := (hslotted.parallel (not_hasPlace_of_isLeaf hleaf)).1
    have slotted' := (hslotted'.parallel (not_hasPlace_of_isLeaf hleaf')).1
    have kept := (hr.parallel (Slotted.not_isCaptured hslotted hbelow (parameter?_of_isLeaf hleaf))).1
    have kept' := (hr'.parallel (Slotted.not_isCaptured hslotted' hbelow' (parameter?_of_isLeaf hleaf'))).1
    have lengths := (hsame.children fun _ _ _ _ _ => trivial).length_eq
    have pairs : List.Forall₂ (fun c d => (c, d) ∈ e.children.zip t.children) e.children t.children :=
      List.forall₂_iff_zip.2 ⟨lengths, id⟩
    have chain := (slotted.comp kept).flip.comp ((hsame.with_children pairs).comp (slotted'.comp kept'))
    have alike {x y : Expr} (h : ∃ c, (∃ c', Slotted args places c c' ∧ Captured args.id env c' x) ∧
        ∃ d, (c, d) ∈ e.children.zip t.children ∧
          ∃ d', Slotted args' places' d d' ∧ Captured args'.id env' d' y) : x.Alike y := by
      obtain ⟨c, ⟨c', hc', hx⟩, d, hmem, d', hd', hy⟩ := h
      have hc := (List.of_mem_zip hmem).1
      have hd := (List.of_mem_zip hmem).2
      exact ih (c, d) hmem hc' hd' (hbelow.children c hc) (hbelow'.children d hd)
        ((declaresOnce_iff.1 honce).2 c hc) ((declaresOnce_iff.1 honce').2 d hd)
        ⟨henv.args, henv.locals.boundBelow hsame honce honce'⟩ hx hy
    refine Alike.of_parallel (chain.imp_of_mem (fun _ _ _ _ => alike) ?_) ?_
    · rintro ps ps' x _ y _ ⟨qs, c, ⟨ps₁, c', ⟨rfl, hc'⟩, ⟨rfl, hx⟩⟩, ps₂, d, ⟨hnames, hmem⟩, ps₃, d',
        ⟨rfl, hd'⟩, ⟨rfl, hy⟩⟩
      exact ⟨hnames.1, alike ⟨c, ⟨c', hc', hx⟩, d, hmem, d', hd', hy⟩⟩
    · cases slotted <;> cases kept <;> first | rfl | cases hforeign

end ExprTree
