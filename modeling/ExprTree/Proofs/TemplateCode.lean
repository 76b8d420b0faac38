import ExprTree.Proofs.QuoteFree
import ExprTree.Proofs.Quotes

/-!
# The code of a template

The code of a template, run with the constants of a tree in front of the arguments, does what the code
of the tree does. Both are rewritten over an array of arguments first, so the two trees that are
lowered are compared through the tree and the template they come from: where the tree has a constant
the template reads one, and elsewhere the nodes are alike.

Values may differ where they are quotes, and then they are alike. A tree that has no quotes but
conversions comes to equal values, and that is what comparisons and conversions need.

## Main definitions

* `Expr.like`: how closely the values of a tree are determined.
* `Expr.SameCode`: trees whose code does the same.

## Main results

* `Expr.sameCode_of_instantiates`: **the code of a template does what the code of an instance does**.
-/

set_option autoImplicit false

namespace ExprTree

open EvalM ArgumentArray

namespace Expr

variable {e e' t t' c : Expr}

/-! ### How closely values are determined -/

/-- Values of a tree are alike, and equal if it has no quotes but conversions. -/
def like (e : Expr) : Value → Value → Prop := if e.onlyConversions then Eq else Value.Alike

theorem like_eq (h : e.onlyConversions = true) : e.like = Eq := if_pos h

theorem like_alike (h : e.onlyConversions = false) : e.like = Value.Alike :=
  if_neg (Bool.eq_false_iff.1 h)

theorem congruence_like (e : Expr) : Value.Congruence e.like := by
  unfold like
  split
  · exact Value.congruence_eq
  · exact Value.congruence_alike

theorem alike_of_like {v w : Value} (h : e.like v w) : v.Alike w := by
  unfold like at h
  split at h
  · exact h ▸ Value.Alike.refl v
  · exact h

/-- Values that are determined closely are determined as closely as need be. -/
theorem like_imp (h : e.onlyConversions = true → c.onlyConversions = true) {v w : Value}
    (hvw : c.like v w) : e.like v w := by
  cases he : e.onlyConversions with
  | true =>
    rw [like_eq (h he)] at hvw
    rwa [like_eq he]
  | false =>
    rw [like_alike he]
    exact alike_of_like hvw

variable {host : Host} {d : Dispatch}

theorem respects_like (hhost : host.IsPureOver Value.Alike) (e : Expr) :
    Reflector.native.Respects host (World.Dispatching d) e.like := by
  unfold like
  split
  · exact Reflector.native_respects Value.congruence_eq (hhost.isPure.over_eq.respects d)
  · exact Reflector.native_respects Value.congruence_alike (hhost.respects d)

/-! ### Slots are no quotes -/

variable {args : Param} {places : Positions}

theorem lambda?_of_slotted (h : Slotted args places e e') (he : e.lambda? = none) :
    e'.lambda? = none := by
  by_cases hplace : HasPlace places e
  · obtain ⟨i, ty, -, n, lifted, s, s', rfl⟩ := Slotted.exists_slot h hplace
    rfl
  · cases (h.parallel hplace).1 <;> first | rfl | cases he

theorem noLambdaOperands_of_slotted (h : Slotted args places e e') (he : e.noLambdaOperands = true) :
    e'.noLambdaOperands = true := by
  induction e using induction_children generalizing e' with
  | step e ih =>
    by_cases hplace : HasPlace places e
    · obtain ⟨i, ty, -, n, lifted, s, s', rfl⟩ := Slotted.exists_slot h hplace
      rfl
    · have parallel := (h.parallel hplace).1
      obtain ⟨hoperands, hchildren⟩ := noLambdaOperands_iff.1 he
      refine noLambdaOperands_iff.2 ⟨?_, ?_⟩
      · have operands : List.Forall₂ (Slotted args places) e.operands e'.operands := by
          cases hl : e.lambda? with
          | none => exact parallel.operands hl
          | some l =>
            cases parallel with
            | lambda hb => exact .cons hb.2 .nil
            | _ => cases hl
        exact forall_right_of_forall₂ operands fun c hc c' hcc =>
          lambda?_of_slotted hcc (hoperands c hc)
      · exact forall_right_of_forall₂ (parallel.children fun _ _ _ _ hb => hb.2) fun c hc c' hcc =>
          ih c hc hcc (hchildren c hc)

theorem onlyConversions_of_slotted (h : Slotted args places e e') (he : e.onlyConversions = true) :
    e'.onlyConversions = true := by
  simp only [onlyConversions, Bool.and_eq_true, Option.isNone_iff_eq_none] at he ⊢
  exact ⟨lambda?_of_slotted h he.1, noLambdaOperands_of_slotted h he.2⟩

/-- A node that ignores quotes is rewritten to one that does. -/
theorem ignoresQuotesAt_of_slotted (h : Slotted args places e e') (he : e.ignoresQuotesAt = true) :
    e'.ignoresQuotesAt = true := by
  by_cases hplace : HasPlace places e
  · obtain ⟨i, ty, -, n, lifted, s, s', rfl⟩ := Slotted.exists_slot h hplace
    rfl
  · cases (h.parallel hplace).1 with
    | binary op lifting method hl hr hc =>
      cases method with
      | some m => cases op <;> rfl
      | none =>
        cases op with
        | equal | notEqual =>
          simp only [ignoresQuotesAt, Bool.and_eq_true] at he ⊢
          exact ⟨onlyConversions_of_slotted hl he.1, onlyConversions_of_slotted hr he.2⟩
        | coalesce =>
          simp only [ignoresQuotesAt, Bool.or_eq_true, Option.isNone_iff_eq_none] at he ⊢
          refine he.imp (fun hnone => ?_) (onlyConversions_of_slotted hl)
          cases hc with
          | none => rfl
          | some hc => exact lambda?_of_slotted hc hnone
        | _ => rfl
    | _ => rfl

/-! ### Trees whose code does the same -/

variable {constants : List Value} {size : Nat} {scope scope' : List ParamId} {args' : Param}
  {places' : Positions}

/-- Two trees have one type, are lowered together, and their code does the same in environments in
which they find the same values. -/
structure SameCode (host : Host) (d : Dispatch) (constants : List Value) (size : Nat)
    (scope scope' : List ParamId) (args args' : ParamId) (e t : Expr) : Prop where
  ty_eq : e.ty = t.ty
  lowers_iff : e.Lowers .native args ↔ t.Lowers .native args'
  agrees : ∀ {env env'}, e.Lowers .native args → env.args.size = size →
    env.SameIn constants scope scope' env' →
    Simulates host (World.Dispatching d) e.like (e.code .native args env)
      (t.code .native args' env')

/-- The template reads the constant that the tree has. -/
theorem sameCode_constant {s : Stamp} {v : Value} {q : Param} (hty : q.ty = s.ty)
    (hfits : v.isInstanceOf s.ty = true) (hfills : Fills places' constants v q)
    (hplaces : places'.Within (2 ^ 31)) (h : Slotted args' places' (.parameter q) t) :
    SameCode host d constants size scope scope' args.id args'.id (.constant s v) t := by
  obtain ⟨i, hplace, hv⟩ := hfills
  have hslot := Slotted.isSlot h hplace
  have hlower : t.lower .native args'.id = .ok (readSlot i t.ty) :=
    lower_of_convertedSlot? (hslot.convertedSlot? (hplaces _ _ _ hplace))
  have hlower' : (constant s v).lower .native args.id = .ok fun _ => return v := by rw [lower]; rfl
  refine ⟨hty.symm.trans hslot.ty_eq.symm, ⟨fun _ => ⟨_, hlower⟩, fun _ => ⟨_, hlower'⟩⟩, ?_⟩
  intro env env' _ _ henv
  have read : t.code .native args'.id env' = return v := by
    rw [code, hlower]
    refine readSlot_eq (henv.constant hv) ?_
    rw [hslot.ty_eq, hty]
    exact hfits
  rw [read, code, hlower']
  exact .pure ((congruence_like _).refl v)

/-- A slot comes to the same wherever it is read from. -/
theorem readSlot_simulates {R : Value → Value → Prop} (hR : ∀ v, R v v) {i j : Nat} {ty : Ty}
    {env env' : Env} {v : Value} (hv : env.args[i]? = some v) (hv' : env'.args[j]? = some v) :
    Simulates host (World.Dispatching d) R (readSlot i ty env) (readSlot j ty env') := by
  rw [readSlot_of_arg hv, readSlot_of_arg hv']
  split
  · exact .pure (hR v)
  · exact .ofExcept (.refl hR _)

/-- Parameters of a tree and its template are read from the same place. -/
theorem sameCode_parameter {p q : Param} (hname : p.name = q.name) (hty : p.ty = q.ty)
    (hscope : scope.idxOf? p.id = scope'.idxOf? q.id)
    (hplace : places'[q.id]? = places[p.id]?.map fun place => (constants.length + place.1, place.2))
    (hsize : places.Within size) (hplaces : places'.Within (2 ^ 31))
    (hp : p.id ≠ args.id) (hq : q.id ≠ args'.id) (h : Slotted args places (.parameter p) e)
    (h' : Slotted args' places' (.parameter q) t) :
    SameCode host d constants size scope scope' args.id args'.id e t := by
  cases hpos : places[p.id]? with
  | some place =>
    obtain ⟨i, ty⟩ := place
    rw [hpos, Option.map_some] at hplace
    have hi := hplaces _ _ _ hplace
    have hslot := Slotted.isSlot h hpos
    have hslot' := Slotted.isSlot h' hplace
    have hlower : e.lower .native args.id = .ok (readSlot i e.ty) :=
      lower_of_convertedSlot? (hslot.convertedSlot? (Nat.lt_of_le_of_lt (Nat.le_add_left ..) hi))
    have hlower' : t.lower .native args'.id = .ok (readSlot (constants.length + i) t.ty) :=
      lower_of_convertedSlot? (hslot'.convertedSlot? hi)
    rw [hslot.ty_eq] at hlower
    rw [hslot'.ty_eq] at hlower'
    refine ⟨hslot.ty_eq.trans hslot'.ty_eq.symm,
      ⟨fun _ => ⟨_, hlower'⟩, fun _ => ⟨_, hlower⟩⟩, ?_⟩
    intro env env' _ henvsize henv
    have hlt : i < env.args.size := henvsize ▸ hsize _ _ _ hpos
    have hv : env.args[i]? = some env.args[i] := Array.getElem?_eq_getElem hlt
    rw [code, code, hlower, hlower']
    exact readSlot_simulates (congruence_like e).refl hv ((henv.argument i).trans hv)
  | none =>
    rw [hpos, Option.map_none] at hplace
    obtain rfl := Slotted.eq_parameter h hpos
    obtain rfl := Slotted.eq_parameter h' hplace
    refine ⟨hty, ⟨fun _ => lowers_parameter q, fun _ => lowers_parameter p⟩, ?_⟩
    intro env env' _ _ henv
    rw [code_parameter hp, code_parameter hq, henv.locals.eq hscope, hname]
    cases env'.locals.get? q.id with
    | some v => exact .pure ((congruence_like _).refl v)
    | none => exact .throw rfl

/-- Quotes of a tree and its template are made alike. -/
theorem sameCode_quote (h : Instantiates places places' constants scope scope' e t)
    (hlambda : e.lambda?.isSome = true) (hslotted : Slotted args places e e')
    (hslotted' : Slotted args' places' t t') (hbelow : e.Below args.id)
    (hbelow' : t.Below args'.id) (honce : e.declaresOnce scope = true)
    (honce' : t.declaresOnce scope' = true) (hsize : places.Within size)
    (hplaces : places'.Within (2 ^ 31)) :
    SameCode host d constants size scope scope' args.id args'.id e' t' := by
  have hleaf : e.isLeaf = false := isLeaf_of_lambda? hlambda
  have hleaf' : t.isLeaf = false := (h.parallel hleaf).2.isLeaf_eq.symm.trans hleaf
  have parallel := (hslotted.parallel (not_hasPlace_of_isLeaf hleaf)).1
  have parallel' := (hslotted'.parallel (not_hasPlace_of_isLeaf hleaf')).1
  have hl : e'.lambda?.isSome = true := by cases parallel <;> first | rfl | cases hlambda
  have hl' : t'.lambda?.isSome = true := by
    cases (h.parallel hleaf).2 <;> first | (cases parallel'; rfl) | cases hlambda
  have hlower : e'.lower .native args.id = .ok (quote args.id e') := lower_lambda hl
  have hlower' : t'.lower .native args'.id = .ok (quote args'.id t') := lower_lambda hl'
  refine ⟨parallel.ty_eq.symm.trans (h.ty_eq.trans parallel'.ty_eq),
    ⟨fun _ => ⟨_, hlower'⟩, fun _ => ⟨_, hlower⟩⟩, ?_⟩
  rintro env env' - henvsize henv w w' ⟨hw, hw'⟩
  obtain ⟨r, w₁, hrun, hkept, hcaptured⟩ := quote_outcome
    (Slotted.without_captured hslotted hbelow honce henv.locals.left) host w
  obtain ⟨r', w₁', hrun', hkept', hcaptured'⟩ := quote_outcome
    (Slotted.without_captured hslotted' hbelow' honce' henv.locals.right) host w'
  have hquote : e'.onlyConversions = false := by
    rw [onlyConversions, ← Option.not_isSome, hl]
    rfl
  rw [code, code, hlower, hlower', hrun, hrun', like_alike hquote]
  refine ⟨?_, hkept.trans hw, hkept'.trans hw'⟩
  exact Value.alike_lambda (alike_of_captured h hslotted hslotted' hbelow hbelow' honce honce'
    (henvsize ▸ hsize) hplaces henv hcaptured hcaptured')

/-- Conversions with as many parameters, whose bodies have the same code. -/
def SameBody (host : Host) (d : Dispatch) (constants : List Value) (size : Nat)
    (scope scope' : List ParamId) (args args' : ParamId) (ps ps' : List Param) (b b' : Expr) : Prop :=
  ps.length = ps'.length ∧ SameCode host d constants size (ps.map Param.id ++ scope)
    (ps'.map Param.id ++ scope') args args' b b'

theorem forall_mem_iff_of_forall₂ {α β : Type} {P : α → Prop} {Q : β → Prop} {xs : List α}
    {ys : List β} (h : List.Forall₂ (fun x y => P x ↔ Q y) xs ys) :
    (∀ x ∈ xs, P x) ↔ ∀ y ∈ ys, Q y := by
  induction h with
  | nil => simp
  | cons hxy _ ih => rw [List.forall_mem_cons, List.forall_mem_cons, hxy, ih]

/-- What compiled code makes of a value on the left of a coalesce node. -/
theorem passLeft_simulates {R : Value → Value → Prop} {c c' : Option Expr}
    (hc : Option.Rel (ConversionRel
      (SameBody host d constants size scope scope' args.id args'.id)) c c')
    (hone : ∀ l ∈ c.bind lambda?, l.params.length = 1)
    (hlowers : ∀ l ∈ c.bind lambda?, l.body.Lowers .native args.id)
    (hbody : ∀ l ∈ c.bind lambda?, ∀ v w, l.body.like v w → R v w) {env env' : Env}
    (henvsize : env.args.size = size) (henv : env.SameIn constants scope scope' env') {v v' : Value}
    (hv : R v v') (heq : (c.bind lambda?).isSome = true → v = v') :
    Simulates host (World.Dispatching d) R (passLeft .native args.id env c v)
      (passLeft .native args'.id env' c' v') := by
  cases hc with
  | none => exact .pure hv
  | some hc =>
    cases hc with
    | other hc hc' =>
      simp only [passLeft, Option.bind_some, hc, hc']
      exact .pure hv
    | @lambda s s' ps ps' b b' h =>
      obtain ⟨hlength, hsame⟩ := h
      obtain ⟨p, rfl⟩ := List.length_eq_one_iff.1 (hone ⟨ps, b⟩ rfl)
      obtain ⟨q, rfl⟩ := List.length_eq_one_iff.1 hlength.symm
      obtain rfl := heq rfl
      have locals : ExprTree.SameIn (p.id :: scope) (q.id :: scope')
          (env.withLocal p.id v).locals.get? (env'.withLocal q.id v).locals.get? := by
        refine henv.locals.cons ?_ (fun a ha => ?_) fun b hb => ?_
        · rw [Env.withLocal, Env.withLocal, Frame.get?_cons_self, Frame.get?_cons_self]
        · exact Frame.get?_cons_of_ne ha v _
        · exact Frame.get?_cons_of_ne hb v _
      have bound : (env.withLocal p.id v).SameIn constants ([p].map Param.id ++ scope)
          ([q].map Param.id ++ scope') (env'.withLocal q.id v) := ⟨henv.args, locals⟩
      have size_eq : (env.withLocal p.id v).args.size = size := henvsize
      exact (hsame.agrees (hlowers ⟨[p], b⟩ rfl) size_eq bound).imp (hbody ⟨[p], b⟩ rfl)

/-- A built-in operator that ignores quotes gives the same over operands that come to the same. Those of
`==` and `!=` have no quotes in them, and no other operator tells quotes apart. -/
theorem builtinResult_agrees_of_like {s : Stamp} {op : BinaryOp} {lifting : Lifting} {l r : Expr}
    {c : Option Expr} (hquotes : (binary s op lifting none l r c).ignoresQuotesAt = true)
    {v v' w w' : Value} (hv : l.like v v') (hw : r.like w w') :
    Outcome.Agree (binary s op lifting none l r c).like (Step.builtinResult op lifting v w)
      (Step.builtinResult op lifting v' w') := by
  have equal (hl : l.onlyConversions = true) (hr : r.onlyConversions = true) :
      v = v' ∧ w = w' := by
    rw [like_eq hl] at hv
    rw [like_eq hr] at hw
    exact ⟨hv, hw⟩
  by_cases hequal : op = .equal ∨ op = .notEqual
  · have only : l.onlyConversions = true ∧ r.onlyConversions = true := by
      rcases hequal with rfl | rfl <;> simpa [ignoresQuotesAt] using hquotes
    obtain ⟨rfl, rfl⟩ := equal only.1 only.2
    exact .refl (congruence_like _).refl _
  · rw [not_or] at hequal
    cases honly : (binary s op lifting none l r c).onlyConversions with
    | true =>
      obtain ⟨rfl, rfl⟩ := equal (onlyConversions_operand honly (by simp [operands]))
        (onlyConversions_operand honly (by simp [operands]))
      exact .refl (congruence_like _).refl _
    | false =>
      rw [like_alike honly]
      exact Value.builtinResult_agrees hequal lifting (alike_of_like hv) (alike_of_like hw)

/-- A node that ignores quotes, over operands that have the same code. -/
theorem sameCode_node (hhost : host.IsPureOver Value.Alike)
    {S : Expr → Expr → Prop} {B : List Param → List Param → Expr → Expr → Prop}
    (h : Parallel S B e t) (hplain : e.isPlain args.id = true) (hplain' : t.isPlain args'.id = true)
    (hlambda : e.lambda? = none) (hquotes : e.ignoresQuotesAt = true)
    (hoperands : ∀ c ∈ e.operands, ∀ c', S c c' →
      SameCode host d constants size scope scope' args.id args'.id c c')
    (hconversion : ∀ c ∈ e.conversion?, ∀ c', S c c' → ConversionRel
      (SameBody host d constants size scope scope' args.id args'.id) c c') :
    SameCode host d constants size scope scope' args.id args'.id e t := by
  have conversions := optionRel_imp_of_mem h.conversion? fun c hc c' _ => hconversion c hc c'
  have runnable_eq : e.isRunnable = t.isRunnable := h.isRunnable_eq conversions fun hb => hb.1
  have lowered : List.Forall₂ (fun c c' => c.Lowers .native args.id ↔ c'.Lowers .native args'.id)
      e.lowered t.lowered := by
    refine List.rel_append ?_ ?_
    · exact forall₂_imp_of_mem (h.operands hlambda) fun c hc c' _ hS => (hoperands c hc c' hS).lowers_iff
    · rw [List.forall₂_map_left_iff, List.forall₂_map_right_iff]
      revert conversions
      generalize e.conversion? = c
      generalize t.conversion? = c'
      rintro (hc | _)
      · cases hc with
        | lambda hb => exact .cons hb.2.lowers_iff .nil
        | other hc hc' => simp [hc, hc']
      · exact .nil
  refine ⟨h.ty_eq, ?_, ?_⟩
  · rw [lowers_iff hplain, lowers_iff hplain', runnable_eq, forall_mem_iff_of_forall₂ lowered]
  · intro env env' hlowers henvsize henv
    obtain ⟨hrunnable, hbelow⟩ := (lowers_iff hplain).1 hlowers
    have hlowers' : t.Lowers .native args'.id := by
      rw [lowers_iff hplain', ← runnable_eq, ← forall_mem_iff_of_forall₂ lowered]
      exact ⟨hrunnable, hbelow⟩
    have operand {c : Expr} (hc : c ∈ e.operands) {v w : Value} (hvw : c.like v w) : e.like v w :=
      like_imp (fun h => onlyConversions_operand h hc) hvw
    rw [code_eq hplain hlowers, code_eq hplain' hlowers']
    refine meaning_simulates (Q := like) (congruence_like e) (respects_like hhost e)
      (fun c hc _ _ => operand hc) ?_ h hlambda ?_ ?_
    · rintro s op lifting l r c rfl - v v' w w' hv hw
      exact builtinResult_agrees_of_like hquotes hv hw
    · intro c hc c' hS
      have hsame := hoperands c hc c' hS
      exact ⟨hsame.ty_eq, hsame.agrees (hbelow c (List.mem_append_left _ hc)) henvsize henv⟩
    · rintro s lifting l r c rfl v v' hv
      refine passLeft_simulates conversions (fun _ hl => length_of_isRunnable hrunnable hl)
        (fun l' hl' => hbelow _ (List.mem_append_right _ ?_)) (fun l' hl' v w => like_imp fun h => ?_)
        henvsize henv (operand (by simp [operands]) hv) fun hsome => ?_
      · exact List.mem_map_of_mem (Option.mem_toList.2 hl')
      · obtain ⟨s', hc'⟩ := exists_conversion (e := .binary s .coalesce lifting none l r c) hl'
        exact onlyConversions_body h hc'
      · have hsome : (c.bind lambda?).isSome = true := hsome
        have only : l.onlyConversions = true := by
          have hnone : (c.bind lambda?).isNone = false := by
            rw [← Option.not_isSome, hsome]
            rfl
          simpa [ignoresQuotesAt, hnone] using hquotes
        rwa [like_eq only] at hv

/-- **The code of a template does what the code of an instance does.** So do the bodies of conversions,
which are applied where they stand. -/
theorem sameCode_of_instantiates (hhost : host.IsPureOver Value.Alike)
    (h : Instantiates places places' constants scope scope' e t)
    (hslotted : Slotted args places e e') (hslotted' : Slotted args' places' t t')
    (hbelow : e.Below args.id) (hbelow' : t.Below args'.id) (honce : e.declaresOnce scope = true)
    (honce' : t.declaresOnce scope' = true) (hquotes : e.ignoresQuotes = true)
    (hsize : places.Within size) (hplaces : places'.Within (2 ^ 31)) :
    SameCode host d constants size scope scope' args.id args'.id e' t' ∧
      ConversionRel (SameBody host d constants size scope scope' args.id args'.id) e' t' := by
  induction h generalizing e' t' with
  | @constant scope scope' s v q hty hfits hfills =>
    cases (hslotted.parallel (not_hasPlace_of_parameter? rfl)).1
    exact ⟨sameCode_constant hty hfits hfills hplaces hslotted',
      .other rfl (lambda?_of_slotted hslotted' rfl)⟩
  | @parameter scope scope' p q hname hty hscope hplace =>
    exact ⟨sameCode_parameter hname hty hscope hplace hsize hplaces (Nat.ne_of_lt hbelow.parameter)
      (Nat.ne_of_lt hbelow'.parameter) hslotted hslotted',
      .other (lambda?_of_slotted hslotted rfl) (lambda?_of_slotted hslotted' rfl)⟩
  | @node scope scope' e t hleaf hforeign hsame hchildren ih =>
    have hleaf' : t.isLeaf = false := hsame.isLeaf_eq.symm.trans hleaf
    have slotted := (hslotted.parallel (not_hasPlace_of_isLeaf hleaf)).1
    have slotted' := (hslotted'.parallel (not_hasPlace_of_isLeaf hleaf')).1
    obtain ⟨hquotesAt, hquotesBelow⟩ := ignoresQuotes_iff.1 hquotes
    have lengths := (hsame.children fun _ _ _ _ _ => trivial).length_eq
    have pairs : List.Forall₂ (fun c d => (c, d) ∈ e.children.zip t.children) e.children t.children :=
      List.forall₂_iff_zip.2 ⟨lengths, id⟩
    have below {x y : Expr} (h : ∃ c, Slotted args places c x ∧
        ∃ d, (c, d) ∈ e.children.zip t.children ∧ Slotted args' places' d y) :
        SameCode host d constants size (e.boundBelow scope) (t.boundBelow scope') args.id args'.id x y ∧
          ConversionRel (SameBody host d constants size (e.boundBelow scope) (t.boundBelow scope')
            args.id args'.id) x y := by
      obtain ⟨c, hx, d, hmem, hy⟩ := h
      have hc := (List.of_mem_zip hmem).1
      have hd := (List.of_mem_zip hmem).2
      exact ih (c, d) hmem hx hy (hbelow.children c hc) (hbelow'.children d hd)
        ((declaresOnce_iff.1 honce).2 c hc) ((declaresOnce_iff.1 honce').2 d hd) (hquotesBelow c hc)
    have chain := slotted.flip.comp ((hsame.with_children pairs).comp slotted')
    cases hl : e.lambda? with
    | some l =>
      have hlambda : e.lambda?.isSome = true := by rw [hl]; rfl
      refine ⟨sameCode_quote (.node hleaf hforeign hsame hchildren) hlambda hslotted hslotted' hbelow
        hbelow' honce honce' hsize hplaces, ?_⟩
      cases hsame with
      | lambda hnames =>
        cases slotted with
        | lambda hb =>
          cases slotted' with
          | lambda hb' =>
            obtain ⟨rfl, hb⟩ := hb
            obtain ⟨rfl, hb'⟩ := hb'
            exact .lambda ⟨by simpa using congrArg List.length hnames.1,
              (below ⟨_, hb, _, List.mem_cons_self, hb'⟩).1⟩
      | _ => cases hl
    | none =>
      have hl' : t.lambda? = none := by cases hsame <;> first | rfl | cases hl
      have hparameter : e.parameter? = none := by cases e <;> first | rfl | cases hleaf
      have hparameter' : t.parameter? = none := by cases t <;> first | rfl | cases hleaf'
      rw [boundBelow_of_lambda? hl, boundBelow_of_lambda? hl'] at below
      have hlambda := lambda?_of_slotted hslotted hl
      refine ⟨?_, .other hlambda (lambda?_of_slotted hslotted' hl')⟩
      exact sameCode_node hhost chain (Slotted.isPlain hslotted hbelow hparameter hl)
        (Slotted.isPlain hslotted' hbelow' hparameter' hl') hlambda
        (ignoresQuotesAt_of_slotted hslotted hquotesAt) (fun _ _ _ hS => (below hS).1)
        fun _ _ _ hS => (below hS).2

end Expr

end ExprTree
