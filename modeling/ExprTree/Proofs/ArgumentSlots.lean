import Mathlib.Algebra.Group.Nat.Defs
import ExprTree.Proofs.Lowering
import ExprTree.Proofs.MintHom
import ExprTree.Proofs.Replacement
import ExprTree.Proofs.Scopes

/-!
# What the calling convention makes of a tree

Rewriting a body over an argument array puts a slot in the place of every parameter that has a
position, and keeps the trees in which there is none. The array is a parameter that was minted for
it, so nothing that was there before refers to it, and compiled code recognizes the slots, and only
them, as reads of arguments.

## Main definitions

* `ArgumentArray.IsSlot`: the expressions that read an argument.
* `ArgumentArray.Slotted`: a tree with slots in the place of parameters.
* `Backend.arrayBody`: the body over an array of arguments that compilation lowers.

## Main results

* `ArgumentArray.exists_rewrite`: what the rewrite makes of a body.
* `Backend.closures_compile_run`: compilation in terms of the rewritten body.
-/

set_option autoImplicit false

namespace ExprTree

namespace ArgumentArray

/-- The expression reads argument `i` as a value of a type. -/
def IsSlot (args : Param) (i : Nat) (ty : Ty) (e : Expr) : Prop :=
  ∃ n lifted s s', e = .unary ⟨n, ty⟩ .convert lifted none
    (.index s (.parameter args) none [.constant s' (.ofInt .i32 i)])

/-- The position of a parameter node. -/
def place? (places : Positions) (e : Expr) : Option (Nat × Ty) :=
  e.parameter?.bind fun p => places[p.id]?

/-- The node is a parameter with a position. -/
def HasPlace (places : Positions) (e : Expr) : Prop := place? places e ≠ none

/-- A slot stands in the place of a parameter with a position. -/
def SlotFor (args : Param) (places : Positions) (e e' : Expr) : Prop :=
  ∃ i ty, place? places e = some (i, ty) ∧ IsSlot args i ty e'

/-- The second tree is the first with slots in the place of parameters. -/
abbrev Slotted (args : Param) (places : Positions) : Expr → Expr → Prop :=
  Expr.Replaced (HasPlace places) (SlotFor args places)

/-- All positions are below a bound. -/
def Positions.Within (places : Positions) (n : Nat) : Prop :=
  ∀ (id : ParamId) (i : Nat) (ty : Ty), places[id]? = some (i, ty) → i < n

theorem Positions.Within.mono {places : Positions} {n n' : Nat} (h : places.Within n) (hn : n ≤ n') :
    places.Within n' :=
  fun id i ty hplace => Nat.lt_of_lt_of_le (h id i ty hplace) hn

variable {args : Param} {places : Positions} {e e' : Expr}

/-- A node with a position is a parameter. -/
theorem exists_of_place? {place : Nat × Ty} (h : place? places e = some place) :
    ∃ p, e = .parameter p ∧ places[p.id]? = some place := by
  cases e with
  | parameter p => exact ⟨p, rfl, h⟩
  | _ => cases h

theorem HasPlace.exists_position (h : HasPlace places e) :
    ∃ p place, e = .parameter p ∧ places[p.id]? = some place := by
  obtain ⟨place, hplace⟩ := Option.ne_none_iff_exists'.1 h
  obtain ⟨p, rfl, hp⟩ := exists_of_place? hplace
  exact ⟨p, place, rfl, hp⟩

/-! ### Positions of parameters -/

variable {params : List Param} {id : ParamId}

theorem exists_of_position {i : Nat} {ty : Ty}
    (h : (positions (params.map .parameter))[id]? = some (i, ty)) :
    ∃ p, params[i]? = some p ∧ p.id = id ∧ p.ty = ty := by
  rw [getElem?_positions] at h
  obtain ⟨entry, hmem, hplace⟩ := List.exists_of_findSome?_eq_some h
  rw [List.mem_reverse, List.mem_zipIdx_iff_getElem?, List.getElem?_map,
    Option.map_eq_some_iff] at hmem
  obtain ⟨p, hp, hentry⟩ := hmem
  simp only [Positions.place?, ← hentry, Expr.parameter?, Option.bind_some] at hplace
  split at hplace
  · next hid =>
    cases hplace
    exact ⟨p, hp, hid, rfl⟩
  · cases hplace

theorem positions_within (params : List Param) :
    (positions (params.map .parameter)).Within params.length := by
  intro id i ty hplace
  obtain ⟨p, hp, -⟩ := exists_of_position hplace
  exact (List.getElem?_eq_some_iff.1 hp).1

/-- Without a parameter of the identity in the list it has no position. -/
theorem getElem?_positions_eq_none {params : List Expr}
    (h : id ∉ (params.filterMap Expr.parameter?).map Param.id) : (positions params)[id]? = none := by
  rw [getElem?_positions, List.findSome?_eq_none_iff]
  intro entry hentry
  have hmem : entry.1 ∈ params := List.fst_mem_of_mem_zipIdx (List.mem_reverse.1 hentry)
  unfold Positions.place?
  cases hp : entry.1.parameter? with
  | none => rfl
  | some p =>
    refine if_neg ?_
    rintro rfl
    exact h (List.mem_map_of_mem (List.mem_filterMap.2 ⟨entry.1, hmem, hp⟩))

theorem filterMap_parameter? (params : List Param) :
    (params.map .parameter).filterMap Expr.parameter? = params := by
  rw [List.filterMap_map]
  exact List.filterMap_some

theorem position_eq_none (h : ∀ p ∈ params, p.id ≠ id) :
    (positions (params.map .parameter))[id]? = none := by
  refine getElem?_positions_eq_none ?_
  rw [filterMap_parameter?, List.mem_map]
  rintro ⟨p, hp, hid⟩
  exact h p hp hid

theorem ne_of_position_eq_none (h : (positions (params.map .parameter))[id]? = none) :
    ∀ p ∈ params, p.id ≠ id := by
  rintro p hp rfl
  rw [getElem?_positions, List.findSome?_eq_none_iff] at h
  obtain ⟨i, hi⟩ := List.getElem?_of_mem hp
  have hentry : (Expr.parameter p, i) ∈ ((params.map Expr.parameter).zipIdx).reverse := by
    rw [List.mem_reverse, List.mem_zipIdx_iff_getElem?, List.getElem?_map, hi]
    rfl
  have hplace := h _ hentry
  simp [Positions.place?, Expr.parameter?] at hplace

/-- Among parameters with identities of their own, each stands where it is listed. -/
theorem position_of_getElem? (hnodup : (params.map Param.id).Nodup) {i : Nat} {p : Param}
    (hp : params[i]? = some p) : (positions (params.map .parameter))[p.id]? = some (i, p.ty) := by
  cases hplace : (positions (params.map .parameter))[p.id]? with
  | none => exact (ne_of_position_eq_none hplace p (List.mem_of_getElem? hp) rfl).elim
  | some place =>
    obtain ⟨j, ty⟩ := place
    obtain ⟨q, hq, hid, rfl⟩ := exists_of_position hplace
    obtain rfl : i = j := by
      refine (List.getElem?_inj ?_ hnodup).1 ?_
      · rw [List.length_map]
        exact (List.getElem?_eq_some_iff.1 hp).1
      · rw [List.getElem?_map, List.getElem?_map, hp, hq, Option.map_some, Option.map_some, hid]
    rw [hp] at hq
    cases hq
    rfl

theorem position_eq (hnodup : (params.map Param.id).Nodup) (id : ParamId) :
    (positions (params.map .parameter))[id]? =
      ((params.map Param.id).idxOf? id).bind fun i => params[i]?.map fun p => (i, p.ty) := by
  cases hidx : (params.map Param.id).idxOf? id with
  | none =>
    rw [List.idxOf?_eq_none_iff] at hidx
    exact position_eq_none fun p hp hid => hidx (hid ▸ List.mem_map_of_mem hp)
  | some i =>
    obtain ⟨hi, hid, -⟩ := List.idxOf?_eq_some_iff.1 hidx
    rw [List.length_map] at hi
    have hp : params[i]? = some params[i] := List.getElem?_eq_getElem hi
    rw [List.getElem_map] at hid
    rw [← hid, position_of_getElem? hnodup hp, Option.bind_some, hp, Option.map_some]

/-! ### The rewrite -/

theorem replace_ne_none {m : Type → Type} [Monad m] [MonadMint m] :
    (fun d => (replace args places d : Option (m Rewritten)) ≠ none) = HasPlace places := by
  funext d
  cases d <;> simp [replace, HasPlace, place?, Expr.parameter?]

theorem from_slot (args : Param) (i : Nat) (ty : Ty) (s : Supply) :
    supplyView.From s (slot args i ty) fun _ e => IsSlot args i ty e := by
  have literal (s : Supply) : supplyView.From s (Expr.mkLiteral (.ofInt .i32 i)) fun _ e =>
      ∃ s', e = .constant s' (.ofInt .i32 i) :=
    (StateView.From.mkConstant (V := supplyView) trivial _ _).imp fun _ _ _ ⟨n, hn⟩ => ⟨_, hn⟩
  refine (literal s).bind fun t position _ ⟨s', hposition⟩ => ?_
  have element : supplyView.From t (Expr.mkIndex (.parameter args) none [position]) fun _ e =>
      ∃ s, e = .index s (.parameter args) none [position] :=
    (StateView.From.stampNew (V := supplyView) trivial _).bind fun _ _ _ _ => .pure ⟨_, rfl⟩
  refine element.bind fun t element _ ⟨s, helement⟩ => ?_
  refine (StateView.From.stampNew (V := supplyView) trivial ty).bind fun _ _ _ ⟨n, hn, _⟩ => .pure ?_
  exact ⟨n, _, s, s', by rw [hn, helement, hposition]⟩

/-- What the rewrite makes of a body. -/
theorem exists_rewrite (body : Expr) (params : List Expr) (s : Supply) :
    ∃ body' s', (rewrite body params : StateM Supply Lambda) s =
        (⟨[⟨s.next, s.next, name, .array .object⟩], body'⟩, s') ∧
      Slotted ⟨s.next, s.next, name, .array .object⟩ (positions params) body body' ∧
      s.next < s'.next := by
  let args : Param := ⟨s.next, s.next, name, .array .object⟩
  have slots (e : Expr) (answer : StateM Supply Rewritten)
      (h : replace args (positions params) e = some answer) (t : Supply) :
      supplyView.From t answer fun _ r => SlotFor args (positions params) e (r.on e) := by
    cases e with
    | parameter p =>
      simp only [replace, Option.map_eq_some_iff] at h
      obtain ⟨⟨i, ty⟩, hplace, rfl⟩ := h
      exact (from_slot args i ty t).bind fun _ e' _ he' => .pure ⟨i, ty, hplace, he'⟩
    | _ => cases h
  have rewritten := StateView.from_rewrite_replaced (V := supplyView)
    (T := fun _ => SlotFor args (positions params)) (fun _ _ _ h => h)
    (fun e answer h t _ => slots e answer h t) body (s := ⟨s.next + 1⟩) trivial
  rw [replace_ne_none] at rewritten
  exact ⟨_, _, rfl, rewritten.2, rewritten.1⟩

/-! ### Slots in lowered code -/

theorem IsSlot.ty_eq {i : Nat} {ty : Ty} (h : IsSlot args i ty e) : e.ty = ty := by
  obtain ⟨n, lifted, s, s', rfl⟩ := h
  rfl

/-- A slot is recognized, as long as positions fit an `i32`. -/
theorem IsSlot.convertedSlot? {i : Nat} {ty : Ty} (h : IsSlot args i ty e) (hi : i < 2 ^ 31) :
    e.convertedSlot? args.id = some i := by
  obtain ⟨n, lifted, s, s', rfl⟩ := h
  have value : (Word.wrap .i32 i).val = i := by
    apply Word.val_wrap_of_mem
    simp only [IntTy.lo, IntTy.hi]
    omega
  simp [Expr.convertedSlot?, Expr.argumentSlot?, Value.ofInt, value]

theorem not_hasPlace_of_parameter? (h : e.parameter? = none) : ¬HasPlace places e := by
  simp [HasPlace, place?, h]

theorem Slotted.exists_slot (h : Slotted args places e e') (hplace : HasPlace places e) :
    ∃ i ty, place? places e = some (i, ty) ∧ IsSlot args i ty e' :=
  h.leaf_of_hit hplace

/-- What stands in the place of a parameter with a position. -/
theorem Slotted.isSlot {p : Param} {i : Nat} {ty : Ty} (h : Slotted args places (.parameter p) e')
    (hplace : places[p.id]? = some (i, ty)) : IsSlot args i ty e' := by
  have hit : place? places (.parameter p) = some (i, ty) := hplace
  obtain ⟨j, ty', hj, hslot⟩ := Slotted.exists_slot h (by rw [HasPlace, hit]; exact Option.some_ne_none _)
  rw [hit] at hj
  cases hj
  exact hslot

/-- A parameter without a position stays. -/
theorem Slotted.eq_parameter {p : Param} (h : Slotted args places (.parameter p) e')
    (hplace : places[p.id]? = none) : e' = .parameter p := by
  cases (h.parallel (not_not.2 hplace)).1
  rfl

theorem Slotted.parameter {p : Param} (h : Slotted args places e (.parameter p)) :
    e = .parameter p := by
  have hplace : ¬HasPlace places e := by
    intro hplace
    obtain ⟨i, ty, -, n, lifted, s, s', hslot⟩ := Slotted.exists_slot h hplace
    cases hslot
  cases (h.parallel hplace).1
  rfl

/-- The array is only referred to in slots. -/
theorem Slotted.argumentSlot?_eq_none (h : Slotted args places e e') (hbelow : e.Below args.id) :
    e'.argumentSlot? args.id = none := by
  by_cases hplace : HasPlace places e
  · obtain ⟨i, ty, -, n, lifted, s, s', rfl⟩ := Slotted.exists_slot h hplace
    rfl
  · cases (h.parallel hplace).1 with
    | @index n n' t r r' hr indexer as as' has =>
      unfold Expr.argumentSlot?
      split
      · next p _ w heq =>
        cases heq
        have hp : p.id < args.id := by
          rw [Slotted.parameter hr] at hbelow
          exact (hbelow.children _ List.mem_cons_self).parameter
        simp [Nat.ne_of_lt hp]
      · rfl
    | _ => rfl

/-- A node that was not replaced is plain, apart from parameters and quotes. -/
theorem Slotted.isPlain (h : Slotted args places e e') (hbelow : e.Below args.id)
    (hparameter : e.parameter? = none) (hlambda : e.lambda? = none) :
    e'.isPlain args.id = true := by
  cases (h.parallel (not_hasPlace_of_parameter? hparameter)).1 with
  | parameter p => cases hparameter
  | lambda hb => cases hlambda
  | @unary n n' t op lifted method x x' hx =>
    have hx := Slotted.argumentSlot?_eq_none hx (hbelow.children _ List.mem_cons_self)
    have hconverted : (Expr.unary ⟨n', t⟩ op lifted method x').convertedSlot? args.id = none := by
      unfold Expr.convertedSlot?
      split
      · next heq =>
        cases heq
        exact hx
      · rfl
    simp [Expr.isPlain, Expr.parameter?, Expr.lambda?, hconverted]
  | _ => rfl

end ArgumentArray

/-! ### Compilation -/

namespace MintHom

variable {m n : Type → Type} [Monad m] [MonadMint m] [Monad n] [MonadMint n]

theorem map_slot (φ : MintHom m n) (args : Param) (i : Nat) (ty : Ty) :
    φ.map (ArgumentArray.slot args i ty) = ArgumentArray.slot args i ty := by
  simp only [ArgumentArray.slot, Expr.mkLiteral, Expr.mkConstant, Expr.mkIndex, Expr.mkUnaryTo,
    Expr.stampNew, φ.map_bind, φ.map_mint, φ.map_pure]

/-- The rewrite does not depend on the monad it runs in. -/
theorem map_argumentRewrite [LawfulMonad m] [LawfulMonad n] (φ : MintHom m n) (body : Expr)
    (params : List Expr) :
    φ.map (ArgumentArray.rewrite body params) = ArgumentArray.rewrite body params := by
  have hooks (args : Param) (places : ArgumentArray.Positions) :
      (fun e => (ArgumentArray.replace (m := m) args places e).map φ.map) =
        ArgumentArray.replace args places := by
    funext e
    cases e with
    | parameter p =>
      simp only [ArgumentArray.replace, Option.map_map]
      congr 1
      funext place
      simp only [Function.comp_apply, φ.map_bind, φ.map_pure, map_slot]
    | _ => rfl
  have asIs_eq : (fun x r => φ.map (Expr.asIs (m := m) x r)) = Expr.asIs := by
    funext x r
    exact φ.map_pure r
  simp only [ArgumentArray.rewrite, Expr.mkParam, φ.map_bind, φ.map_mint, φ.map_pure, bind_assoc,
    pure_bind, map_rewrite, hooks, asIs_eq]

end MintHom

/-- The body over an array of arguments that compilation lowers. -/
def Backend.arrayBody (body : Expr) (params : List Param) (s : Supply) : Expr :=
  ((ArgumentArray.rewrite body (params.map .parameter) : StateM Supply Lambda) s).1.body

theorem Backend.slotted_arrayBody (body : Expr) (params : List Param) (s : Supply) :
    ArgumentArray.Slotted ⟨s.next, s.next, ArgumentArray.name, .array .object⟩
      (ArgumentArray.positions (params.map .parameter)) body (arrayBody body params s) := by
  obtain ⟨body', s', hrun, hslotted, -⟩ :=
    ArgumentArray.exists_rewrite body (params.map .parameter) s
  rw [arrayBody, hrun]
  exact hslotted

/-- Compilation lowers the rewritten body. -/
theorem Backend.closures_compile_run (body : Expr) (params : List Param) (s : Supply) :
    ∃ s', ((Backend.closures.compile body params).run s) =
      (((arrayBody body params s).lower .native s.next).map (callableOf params.length), s') := by
  obtain ⟨body', s', hrun, -⟩ := ArgumentArray.exists_rewrite body (params.map .parameter) s
  refine ⟨s', ?_⟩
  unfold Backend.closures arrayBody
  dsimp only
  rw [← (MintHom.except EvalError).map_argumentRewrite]
  have lifted (x : StateM Supply Lambda) :
      (MintHom.except EvalError).map x s = (.ok (x s).1, (x s).2) :=
    rfl
  rw [ExceptT.run_bind, ExceptT.run, stateM_bind, lifted, hrun]
  dsimp only
  cases body'.lower .native s.next <;> rfl

end ExprTree
