import ExprTree.Eval.Compile
import ExprTree.Proofs.Failures
import ExprTree.Proofs.Interpretation

/-!
# Lowered code

Lowering succeeds on a node if it succeeds on its operands and the node is of a kind that can be
run. Lowered code is then the meaning of the node over the code of the operands, just as the
interpretation of the node is its meaning over their interpretations. The exceptions are the nodes
that deal with the calling convention: parameters, reads of an argument, and quotes.

## Main definitions

* `Expr.Lowers`, `Expr.code`: trees that can be lowered, and what they are lowered to.
* `Expr.isPlain`: nodes that do not deal with the calling convention.
* `Expr.isRunnable`, `Expr.refusal?`: whether a node can be run, and what is said if it cannot.

## Main results

* `Expr.lowers_iff`: when a plain node can be lowered.
* `Expr.code_eq`: the code of a plain node is its meaning over the code of its operands.
* `Expr.lower_failsWith`: lowering fails on a node for its own sake, or on what is lowered with it.
-/

set_option autoImplicit false

namespace ExprTree.Expr

open Outcome

variable {reflector : Reflector} {args : ParamId} {e : Expr}

/-- Lowering succeeds. -/
def Lowers (reflector : Reflector) (args : ParamId) (e : Expr) : Prop :=
  ∃ code, e.lower reflector args = .ok code

/-- What a tree is lowered to. -/
def code (reflector : Reflector) (args : ParamId) (e : Expr) : Code :=
  match e.lower reflector args with
  | .ok code => code
  | .error err => fun _ => throw err

theorem Lowers.eq (h : e.Lowers reflector args) :
    e.lower reflector args = .ok (e.code reflector args) := by
  obtain ⟨code, hcode⟩ := h
  rw [Expr.code, hcode]

theorem eq_error_of_not_lowers (h : ¬e.Lowers reflector args) :
    ∃ err, e.lower reflector args = .error err := by
  cases hcode : e.lower reflector args with
  | error err => exact ⟨err, rfl⟩
  | ok code => exact (h ⟨code, hcode⟩).elim

/-! ### Plain nodes -/

/-- Whether a node has nothing to do with the calling convention: it is no parameter, no read of an
argument and no quote. -/
def isPlain (args : ParamId) (e : Expr) : Bool :=
  e.parameter?.isNone && e.lambda?.isNone && (e.convertedSlot? args).isNone

/-- Whether the node itself can be run: there is no array access with several indices, no conversion
with several parameters, and nothing outside the supported subset. -/
def isRunnable : Expr → Bool
  | index _ _ none operands => operands.length = 1
  | extension .. => false
  | e => (e.conversion?.bind lambda?).all fun l => l.params.length = 1

theorem length_of_isRunnable (h : e.isRunnable = true) {l : Lambda}
    (hl : l ∈ e.conversion?.bind lambda?) : l.params.length = 1 := by
  cases e with
  | binary =>
    have hall : (Option.all _ _) = true := h
    rw [hl] at hall
    simpa using hall
  | _ => cases hl

/-- Why a node itself is not lowered: it accesses an array with other than one index, it applies a
conversion of other than one parameter, or it is of a foreign kind. -/
def refusal? : Expr → Option EvalError
  | index _ _ none operands =>
    if operands.length = 1 then none else some (.unsupported "multi-dimensional array access")
  | extension _ kind _ => some (.foreign kind)
  | e => (e.conversion?.bind lambda?).bind fun l =>
    if l.params.length = 1 then none
    else some (.unsupported "a coalesce conversion without exactly one parameter")

theorem refusal?_eq_none_iff : e.refusal? = none ↔ e.isRunnable = true := by
  cases e with
  | index s r indexer as =>
    cases indexer with
    | none => simp [refusal?, isRunnable]
    | some m => exact iff_of_true rfl rfl
  | extension s kind as => simp [refusal?, isRunnable]
  | binary s op lifting method l r c =>
    simp only [refusal?, isRunnable]
    cases (binary s op lifting method l r c).conversion?.bind lambda? <;> simp
  | _ => exact iff_of_true rfl rfl

theorem isOperational_of_refusal? {err : EvalError} (h : e.refusal? = some err) :
    err.IsOperational := by
  unfold refusal? at h
  split at h
  · split at h <;> cases h
    trivial
  · cases h
    trivial
  · obtain ⟨l, -, h⟩ := Option.bind_eq_some_iff.1 h
    split at h <;> cases h
    trivial

section Alike

variable {S : Expr → Expr → Prop} {B Q : List Param → List Param → Expr → Expr → Prop} {e' : Expr}

/-- Nodes that are alike are refused alike, if their conversions take as many parameters. -/
theorem Parallel.refusal?_eq (h : Parallel S B e e')
    (hconversion : Option.Rel (ConversionRel Q) e.conversion? e'.conversion?)
    (hlength : ∀ {ps ps' b b'}, Q ps ps' b b' → ps.length = ps'.length) :
    e.refusal? = e'.refusal? := by
  have arity_eq : ((e.conversion?.bind lambda?).bind fun l => if l.params.length = 1 then none
      else some (EvalError.unsupported "a coalesce conversion without exactly one parameter")) =
      (e'.conversion?.bind lambda?).bind fun l => if l.params.length = 1 then none
        else some (.unsupported "a coalesce conversion without exactly one parameter") := by
    have lambdas := optionRel_lambda? hconversion
    generalize e.conversion?.bind lambda? = l at lambdas
    generalize e'.conversion?.bind lambda? = l' at lambdas
    cases lambdas with
    | none => rfl
    | some hb => simp [hlength hb]
  cases h with
  | index hr indexer has =>
    cases indexer with
    | some m => rfl
    | none => simp only [refusal?, has.length_eq]
  | binary => exact arity_eq
  | _ => rfl

/-- Nodes that are alike can be run alike. -/
theorem Parallel.isRunnable_eq (h : Parallel S B e e')
    (hconversion : Option.Rel (ConversionRel Q) e.conversion? e'.conversion?)
    (hlength : ∀ {ps ps' b b'}, Q ps ps' b b' → ps.length = ps'.length) :
    e.isRunnable = e'.isRunnable := by
  rw [Bool.eq_iff_iff, ← refusal?_eq_none_iff, ← refusal?_eq_none_iff,
    h.refusal?_eq hconversion hlength]

end Alike

/-- What lowered code makes of a value that is not null, on the left of a coalesce node. -/
def passLeft (reflector : Reflector) (args : ParamId) (env : Env) (conversion : Option Expr)
    (v : Value) : EvalM Value :=
  match conversion.bind lambda? with
  | some ⟨[p], body⟩ => body.code reflector args (env.withLocal p.id v)
  | some _ => throw (.unsupported "a coalesce conversion without exactly one parameter")
  | none => return v

/-- The code of a plain node, if it can be lowered. -/
def plainCode (reflector : Reflector) (args : ParamId) (e : Expr) : Code := fun env =>
  e.meaning reflector (fun c => c.code reflector args env)
    (passLeft reflector args env e.conversion?)

/-- What is lowered with a node: its operands, and the body of the conversion that it applies. -/
def lowered (e : Expr) : List Expr :=
  e.operands ++ (e.conversion?.bind lambda?).toList.map Lambda.body

theorem mem_lowered {c : Expr} :
    c ∈ e.lowered ↔ c ∈ e.operands ∨ ∃ l ∈ e.conversion?.bind lambda?, l.body = c := by
  simp [lowered]

/-- A conversion that is applied is a lambda node below the node. -/
theorem exists_conversion {l : Lambda} (h : l ∈ e.conversion?.bind lambda?) :
    ∃ s, lambda s l.params l.body ∈ e.conversion? := by
  obtain ⟨c, hc, hl⟩ := Option.bind_eq_some_iff.1 h
  obtain ⟨s, rfl⟩ := eq_of_lambda? hl
  exact ⟨s, hc⟩

theorem sizeOf_lt_of_mem_lowered {c : Expr} (h : c ∈ e.lowered) : sizeOf c < sizeOf e := by
  rcases mem_lowered.1 h with h | ⟨l, hl, rfl⟩
  · exact sizeOf_lt_of_mem_children (mem_children_of_mem_operands h)
  · obtain ⟨s, hconversion⟩ := exists_conversion hl
    have hlambda := sizeOf_lt_of_mem_children (mem_children_of_mem_conversion? hconversion)
    have hbody : sizeOf l.body < sizeOf (lambda s l.params l.body) :=
      sizeOf_lt_of_mem_children List.mem_cons_self
    exact Nat.lt_trans hbody hlambda

/-- To prove something of all trees, prove it of a tree whose operands, and whose conversion, have
it. -/
theorem induction_lowered {motive : Expr → Prop}
    (step : ∀ e, (∀ c ∈ e.lowered, motive c) → motive e) (e : Expr) : motive e :=
  step e fun c _h => induction_lowered step c
termination_by e
decreasing_by exact sizeOf_lt_of_mem_lowered _h

theorem lowerOption_eq {o : Option Expr} (h : ∀ c ∈ o, c.Lowers reflector args) :
    lowerOption reflector args o = .ok (o.map (code reflector args)) := by
  cases o with
  | none => rw [lowerOption]; rfl
  | some c => rw [lowerOption, (h c rfl).eq]; rfl

theorem lowerAll_eq {es : List Expr} (h : ∀ c ∈ es, c.Lowers reflector args) :
    lowerAll reflector args es = .ok (es.map (code reflector args)) := by
  induction es with
  | nil => rw [lowerAll]; rfl
  | cons c es ih =>
    rw [List.forall_mem_cons] at h
    rw [lowerAll, h.1.eq, ih h.2]
    rfl

theorem lowers_of_lowerOption {o : Option Expr} {r : Option Code}
    (h : lowerOption reflector args o = .ok r) : ∀ c ∈ o, c.Lowers reflector args := by
  rintro c ⟨⟩
  rw [lowerOption] at h
  obtain ⟨code, hcode, -⟩ := Outcome.bind_eq_ok_iff.1 h
  exact ⟨code, hcode⟩

theorem lowers_of_lowerAll {es : List Expr} {rs : List Code}
    (h : lowerAll reflector args es = .ok rs) : ∀ c ∈ es, c.Lowers reflector args := by
  induction es generalizing rs with
  | nil => simp
  | cons c es ih =>
    rw [lowerAll] at h
    obtain ⟨code, hcode, h⟩ := Outcome.bind_eq_ok_iff.1 h
    obtain ⟨codes, hcodes, -⟩ := Outcome.bind_eq_ok_iff.1 h
    exact List.forall_mem_cons.2 ⟨⟨code, hcode⟩, ih hcodes⟩

theorem convertedSlot?_of_isPlain (h : e.isPlain args = true) : e.convertedSlot? args = none := by
  simp only [isPlain, Bool.and_eq_true, Option.isNone_iff_eq_none] at h
  exact h.2

/-- A plain node that can be run is lowered to its meaning over the code of its operands. -/
theorem lower_eq_plainCode (hplain : e.isPlain args = true) (hrunnable : e.isRunnable = true)
    (h : ∀ c ∈ e.lowered, c.Lowers reflector args) :
    e.lower reflector args = .ok (e.plainCode reflector args) := by
  have operand (c : Expr) (hc : c ∈ e.operands) : c.Lowers reflector args :=
    h c (List.mem_append_left _ hc)
  cases e with
  | constant s v => rw [lower]; rfl
  | parameter p => cases hplain
  | binary s op lifting method l r c =>
    have hl := (operand l (by simp [operands])).eq
    have hr := (operand r (by simp [operands])).eq
    cases method with
    | some m =>
      rw [lower, hl, hr]
      rfl
    | none =>
      by_cases hop : op = .coalesce
      · subst hop
        rw [lower, hl, hr]
        rcases c with _ | c
        · rfl
        · cases c with
          | lambda s' ps b =>
            have hlength : ps.length = 1 := by simpa [isRunnable, conversion?, lambda?] using hrunnable
            obtain ⟨p, rfl⟩ := List.length_eq_one_iff.1 hlength
            have hb := (h b (by simp [lowered, conversion?, lambda?])).eq
            simp only [hb, bind, Except.bind]
            rfl
          | _ => rfl
      · rw [lower, hl, hr]
        cases op <;> first | rfl | exact (hop rfl).elim
  | unary s op lifted method x =>
    rw [lower, convertedSlot?_of_isPlain hplain, (operand x (by simp [operands, children])).eq]
    rfl
  | conditional s t x y =>
    rw [lower, (operand t (by simp [operands, children])).eq,
      (operand x (by simp [operands, children])).eq, (operand y (by simp [operands, children])).eq]
    rfl
  | member s r d =>
    rw [lower, lowerOption_eq fun c hc => operand c (by simpa [operands, children] using hc)]
    cases r <;> rfl
  | call s r method as =>
    rw [lower, lowerOption_eq fun c hc => operand c (by simp_all [operands, children]),
      lowerAll_eq fun c hc => operand c (by simp [operands, children, hc])]
    simp only [bind, Except.bind, Option.map_map, List.map_map]
    rfl
  | new s ctor as =>
    rw [lower, lowerAll_eq fun c hc => operand c (by simpa [operands, children] using hc)]
    simp only [bind, Except.bind, List.map_map]
    rfl
  | newArray s element as =>
    rw [lower, lowerAll_eq fun c hc => operand c (by simpa [operands, children] using hc)]
    simp only [bind, Except.bind, List.map_map]
    rfl
  | index s r indexer as =>
    rw [lower, (operand r (by simp [operands, children])).eq,
      lowerAll_eq fun c hc => operand c (by simp [operands, children, hc])]
    cases indexer with
    | some m =>
      simp only [bind, Except.bind, List.map_map]
      rfl
    | none =>
      have hlength : as.length = 1 := by simpa [isRunnable] using hrunnable
      simp only [bind, Except.bind, List.map_map, List.length_map, hlength, if_true]
      rfl
  | typeIs s x target =>
    rw [lower, (operand x (by simp [operands, children])).eq]
    rfl
  | lambda s ps b => cases hplain
  | raise s x =>
    rw [lower, (operand x (by simp [operands, children])).eq]
    rfl
  | extension s kind as => cases hrunnable

theorem conversion?_eq_none (s : Stamp) {op : BinaryOp} {method : Option MethodDef}
    (h : ¬(op = .coalesce ∧ method = none)) (lifting : Lifting) (l r : Expr) (c : Option Expr) :
    (Expr.binary s op lifting method l r c).conversion? = none := by
  unfold conversion?
  split
  · next heq =>
    cases heq
    exact (h ⟨rfl, rfl⟩).elim
  · rfl

/-- An operator that can be lowered is over operands that can, and a conversion that it applies has one
parameter and a body that can. -/
theorem lowers_of_lowers_binary {s : Stamp} {op : BinaryOp} {lifting : Lifting}
    {method : Option MethodDef} {l r : Expr} {c : Option Expr}
    (h : (binary s op lifting method l r c).Lowers reflector args) :
    (binary s op lifting method l r c).isRunnable = true ∧
      ∀ x ∈ (binary s op lifting method l r c).lowered, x.Lowers reflector args := by
  obtain ⟨code, h⟩ := h
  rw [lower] at h
  obtain ⟨lcode, hl, h⟩ := Outcome.bind_eq_ok_iff.1 h
  obtain ⟨rcode, hr, h⟩ := Outcome.bind_eq_ok_iff.1 h
  have both : ∀ x ∈ [l, r], x.Lowers reflector args :=
    List.forall_mem_cons.2 ⟨⟨lcode, hl⟩, List.forall_mem_singleton.2 ⟨rcode, hr⟩⟩
  by_cases hconv : op = .coalesce ∧ method = none
  · obtain ⟨rfl, rfl⟩ := hconv
    rcases c with _ | c
    · exact ⟨rfl, both⟩
    · cases c with
      | lambda s' ps b =>
        rcases ps with _ | ⟨p, _ | ⟨p', ps⟩⟩
        · cases h
        · obtain ⟨bcode, hb, -⟩ := Outcome.bind_eq_ok_iff.1 h
          exact ⟨rfl, List.forall_mem_append.2 ⟨both, List.forall_mem_singleton.2 ⟨bcode, hb⟩⟩⟩
        · cases h
      | _ => exact ⟨rfl, both⟩
  · refine ⟨by simp [isRunnable, conversion?_eq_none s hconv], fun x hx => both x ?_⟩
    simpa [lowered, operands, conversion?_eq_none s hconv] using hx

/-- An access that can be lowered is over operands that can, and one to an array has one index. -/
theorem lowers_of_lowers_index {s : Stamp} {r : Expr} {indexer : Option MethodDef} {as : List Expr}
    (h : (index s r indexer as).Lowers reflector args) :
    (index s r indexer as).isRunnable = true ∧
      ∀ x ∈ (index s r indexer as).lowered, x.Lowers reflector args := by
  obtain ⟨code, h⟩ := h
  rw [lower] at h
  obtain ⟨rcode, hr, h⟩ := Outcome.bind_eq_ok_iff.1 h
  obtain ⟨ascode, has, h⟩ := Outcome.bind_eq_ok_iff.1 h
  have operands_lower : ∀ x ∈ r :: as, x.Lowers reflector args :=
    List.forall_mem_cons.2 ⟨⟨rcode, hr⟩, lowers_of_lowerAll has⟩
  refine ⟨?_, by simpa [lowered, operands, children, conversion?] using operands_lower⟩
  cases indexer with
  | some m => rfl
  | none =>
    rw [lowerAll_eq (lowers_of_lowerAll has)] at has
    cases has
    by_cases hlength : as.length = 1
    · simp [isRunnable, hlength]
    · simp only [List.length_map, hlength, if_false] at h
      cases h

/-- A plain node that can be lowered can be run, and so can what is lowered with it. -/
theorem lowers_of_lowers (hplain : e.isPlain args = true) (h : e.Lowers reflector args) :
    e.isRunnable = true ∧ ∀ c ∈ e.lowered, c.Lowers reflector args := by
  obtain ⟨code, h⟩ := h
  cases e with
  | constant s v => exact ⟨rfl, by simp [lowered, operands, children, conversion?]⟩
  | parameter p => cases hplain
  | binary s op lifting method l r c => exact lowers_of_lowers_binary ⟨code, h⟩
  | unary s op lifted method x =>
    rw [lower, convertedSlot?_of_isPlain hplain] at h
    obtain ⟨xcode, hx, -⟩ := Outcome.bind_eq_ok_iff.1 h
    exact ⟨rfl, List.forall_mem_singleton.2 ⟨xcode, hx⟩⟩
  | conditional s t x y =>
    rw [lower] at h
    obtain ⟨tcode, ht, h⟩ := Outcome.bind_eq_ok_iff.1 h
    obtain ⟨xcode, hx, h⟩ := Outcome.bind_eq_ok_iff.1 h
    obtain ⟨ycode, hy, -⟩ := Outcome.bind_eq_ok_iff.1 h
    refine ⟨rfl, List.forall_mem_cons.2 ⟨⟨tcode, ht⟩, List.forall_mem_cons.2 ⟨⟨xcode, hx⟩, ?_⟩⟩⟩
    exact List.forall_mem_singleton.2 ⟨ycode, hy⟩
  | member s r d =>
    rw [lower] at h
    obtain ⟨rcode, hr, -⟩ := Outcome.bind_eq_ok_iff.1 h
    have hr := lowers_of_lowerOption hr
    exact ⟨rfl, by simpa [lowered, operands, children, conversion?] using hr⟩
  | call s r method as =>
    rw [lower] at h
    obtain ⟨rcode, hr, h⟩ := Outcome.bind_eq_ok_iff.1 h
    obtain ⟨ascode, has, -⟩ := Outcome.bind_eq_ok_iff.1 h
    have hr := lowers_of_lowerOption hr
    have has := lowers_of_lowerAll has
    refine ⟨rfl, fun c hc => ?_⟩
    simp only [lowered, operands, children, conversion?, List.mem_append, Option.mem_toList] at hc
    rcases hc with (hc | hc) | hc
    · exact hr c hc
    · exact has c hc
    · cases hc
  | new s ctor as =>
    rw [lower] at h
    obtain ⟨ascode, has, -⟩ := Outcome.bind_eq_ok_iff.1 h
    have has := lowers_of_lowerAll has
    exact ⟨rfl, by simpa [lowered, operands, children, conversion?] using has⟩
  | newArray s element as =>
    rw [lower] at h
    obtain ⟨ascode, has, -⟩ := Outcome.bind_eq_ok_iff.1 h
    have has := lowers_of_lowerAll has
    exact ⟨rfl, by simpa [lowered, operands, children, conversion?] using has⟩
  | index s r indexer as => exact lowers_of_lowers_index ⟨code, h⟩
  | typeIs s x target =>
    rw [lower] at h
    obtain ⟨xcode, hx, -⟩ := Outcome.bind_eq_ok_iff.1 h
    exact ⟨rfl, List.forall_mem_singleton.2 ⟨xcode, hx⟩⟩
  | lambda s ps b => cases hplain
  | raise s x =>
    rw [lower] at h
    obtain ⟨xcode, hx, -⟩ := Outcome.bind_eq_ok_iff.1 h
    exact ⟨rfl, List.forall_mem_singleton.2 ⟨xcode, hx⟩⟩
  | extension s kind as =>
    rw [lower] at h
    cases h

/-- When a plain node can be lowered. -/
theorem lowers_iff (hplain : e.isPlain args = true) :
    e.Lowers reflector args ↔
      e.isRunnable = true ∧ ∀ c ∈ e.lowered, c.Lowers reflector args :=
  ⟨lowers_of_lowers hplain, fun h => ⟨_, lower_eq_plainCode hplain h.1 h.2⟩⟩

/-- The code of a plain node is its meaning over the code of its operands. -/
theorem code_eq (hplain : e.isPlain args = true) (h : e.Lowers reflector args) :
    e.code reflector args = e.plainCode reflector args := by
  obtain ⟨hrunnable, hlowered⟩ := lowers_of_lowers hplain h
  rw [Expr.code, lower_eq_plainCode hplain hrunnable hlowered]

/-! ### Failures -/

/-- The failures that a node accounts for: its own, and those of what is lowered with it. -/
def FailsWith (reflector : Reflector) (args : ParamId) (e : Expr) (err : EvalError) : Prop :=
  e.refusal? = some err ∨ ∃ c ∈ e.lowered, c.lower reflector args = .error err

theorem lowerOption_failsOnly {E : EvalError → Prop} {o : Option Expr}
    (h : ∀ c ∈ o, FailsOnly E (c.lower reflector args)) :
    FailsOnly E (lowerOption reflector args o) := by
  cases o with
  | none => rw [lowerOption]; exact .ok E _
  | some c =>
    rw [lowerOption]
    exact (h c rfl).bind fun _ => .ok E _

theorem lowerAll_failsOnly {E : EvalError → Prop} {es : List Expr}
    (h : ∀ c ∈ es, FailsOnly E (c.lower reflector args)) :
    FailsOnly E (lowerAll reflector args es) := by
  induction es with
  | nil => rw [lowerAll]; exact .ok E _
  | cons c es ih =>
    rw [List.forall_mem_cons] at h
    rw [lowerAll]
    exact h.1.bind fun _ => (ih h.2).bind fun _ => .ok E _

/-- **Lowering fails on a node** for its own sake, or because it fails on something that is lowered
with it. -/
theorem lower_failsWith (reflector : Reflector) (args : ParamId) (e : Expr) :
    FailsOnly (e.FailsWith reflector args) (e.lower reflector args) := by
  have part {c : Expr} (hc : c ∈ e.lowered) :
      FailsOnly (e.FailsWith reflector args) (c.lower reflector args) :=
    FailsOnly.iff_forall.2 fun err h => .inr ⟨c, hc, h⟩
  have operand {c : Expr} (hc : c ∈ e.operands) := part (List.mem_append_left _ hc)
  cases e with
  | constant | lambda => rw [lower]; exact .ok _ _
  | parameter p => rw [lower]; split <;> exact .ok _ _
  | binary s op lifting method l r c =>
    rw [lower]
    refine (operand (by simp [operands])).bind fun _ => ?_
    refine (operand (by simp [operands])).bind fun _ => ?_
    by_cases hconv : op = .coalesce ∧ method = none
    · obtain ⟨rfl, rfl⟩ := hconv
      rcases c with _ | c
      · exact .ok _ _
      · cases c with
        | lambda s' ps b =>
          rcases ps with _ | ⟨p, _ | ⟨p', ps⟩⟩
          · exact .inl rfl
          · exact (part (by simp [lowered, conversion?, lambda?])).bind fun _ => .ok _ _
          · exact .inl rfl
        | _ => exact .ok _ _
    · cases method with
      | some m => exact .ok _ _
      | none => cases op <;> first | exact (hconv ⟨rfl, rfl⟩).elim | exact .ok _ _
  | unary s op lifted method x =>
    rw [lower]
    split
    · exact .ok _ _
    · exact (operand (by simp [operands, children])).bind fun _ => .ok _ _
  | conditional s t x y =>
    rw [lower]
    refine (operand (by simp [operands, children])).bind fun _ => ?_
    refine (operand (by simp [operands, children])).bind fun _ => ?_
    exact (operand (by simp [operands, children])).bind fun _ => .ok _ _
  | member s r d =>
    rw [lower]
    refine (lowerOption_failsOnly fun c hc => ?_).bind fun _ => .ok _ _
    exact operand (by simpa [operands, children] using hc)
  | call s r method as =>
    rw [lower]
    refine (lowerOption_failsOnly fun c hc => ?_).bind fun _ => ?_
    · exact operand (by simp_all [operands, children])
    refine (lowerAll_failsOnly fun c hc => ?_).bind fun _ => .ok _ _
    exact operand (by simp [operands, children, hc])
  | new s ctor as =>
    rw [lower]
    exact (lowerAll_failsOnly fun c hc => operand hc).bind fun _ => .ok _ _
  | newArray s element as =>
    rw [lower]
    exact (lowerAll_failsOnly fun c hc => operand hc).bind fun _ => .ok _ _
  | index s r indexer as =>
    rw [lower]
    refine (operand (by simp [operands, children])).bind fun _ => ?_
    refine (lowerAll_failsOnly fun c hc => ?_).bind_of_eq fun codes hcodes => ?_
    · exact operand (by simp [operands, children, hc])
    cases indexer with
    | some m => exact .ok _ _
    | none =>
      rw [lowerAll_eq (lowers_of_lowerAll hcodes)] at hcodes
      cases hcodes
      by_cases hlength : as.length = 1
      · simp only [List.length_map, hlength, if_true]
        exact .ok _ _
      · simp only [List.length_map, hlength, if_false]
        exact .inl (if_neg hlength)
  | typeIs s x target | raise s x =>
    rw [lower]
    exact (operand (by simp [operands, children])).bind fun _ => .ok _ _
  | extension s kind as =>
    rw [lower]
    exact .inl rfl

/-- Lowering fails for what cannot be run, and for nothing else. -/
theorem lower_failsOnly (reflector : Reflector) (args : ParamId) (e : Expr) :
    FailsOnly EvalError.IsOperational (e.lower reflector args) := by
  induction e using induction_lowered with
  | step e ih =>
    refine (lower_failsWith reflector args e).imp ?_
    rintro err (hrefusal | ⟨c, hc, herror⟩)
    · exact isOperational_of_refusal? hrefusal
    · exact FailsOnly.iff_forall.1 (ih c hc) err herror

/-! ### The calling convention -/

theorem lowers_parameter (p : Param) : (parameter p).Lowers reflector args := by
  unfold Lowers
  rw [lower]
  split <;> exact ⟨_, rfl⟩

/-- A parameter that is not the array of arguments is bound by a conversion or not at all. -/
theorem code_parameter {p : Param} (hp : p.id ≠ args) (env : Env) :
    (parameter p).code reflector args env =
      match env.locals.get? p.id with
      | some v => return v
      | none => throw (.unboundParameter p.name) := by
  rw [Expr.code, lower, if_neg hp]
  rfl

/-- A read of an argument is lowered to one. -/
theorem lower_of_convertedSlot? {i : Nat} (h : e.convertedSlot? args = some i) :
    e.lower reflector args = .ok (readSlot i e.ty) := by
  cases e with
  | unary s op lifted method operand => rw [lower, h]; rfl
  | _ => cases h

theorem readSlot_of_arg {i : Nat} {ty : Ty} {env : Env} {v : Value} (hv : env.args[i]? = some v) :
    readSlot i ty env =
      if v.isInstanceOf ty then return v else liftM (Convert.convert v .object ty false) := by
  have arg_eq : env.arg i = .ok v := by
    rw [Env.arg, hv]
  unfold readSlot
  rw [arg_eq]
  rfl

theorem readSlot_eq {i : Nat} {ty : Ty} {env : Env} {v : Value} (hv : env.args[i]? = some v)
    (hinst : v.isInstanceOf ty = true) : readSlot i ty env = return v := by
  rw [readSlot_of_arg hv, if_pos hinst]

end ExprTree.Expr
