import ExprTree.Proofs.Isolation

/-!
# Conversions under partial evaluation

A coalesce node applies its conversion if that is a lambda node. The default predicate folds no
lambda nodes. A predicate that does may have a conversion folded, like every other tree that it
admits throughout and that holds no parameter. What is left then is a constant or a placeholder, and
a coalesce node passes over conversions that are no lambda nodes: the value on its left is not
converted any more.

A conversion in which its parameter occurs cannot be folded, whatever the predicate. So it is only
conversions that ignore their argument that get lost, and what is said here is exactly which.

## Main definitions

* `Expr.conversionChild?`: the conversion of a coalesce node, applied or not.
* `Expr.IsComputed`: what is left of a tree that was computed ahead of time.
* `Expr.FoldsTo`: what partial evaluation makes of a tree.

## Main results

* `Expr.isCandidate_iff_forall`: which trees are folded.
* `Expr.from_partialEval_foldsTo`: partial evaluation folds, whatever evaluates and whatever is to be
  folded.
* `Expr.FoldsTo.at?`: a coalesce node that is still in its place was put together anew.
* `Expr.partialEval_conversion`: which conversions are kept.
* `Expr.partialEval_drops_conversion`: a conversion that is not.
-/

set_option autoImplicit false

namespace ExprTree

namespace Expr

variable {e e' x x' : Expr} {predicate : Expr → Bool}

/-! ### What folding leaves -/

/-- A tree is folded if it is admitted throughout and holds no parameter. -/
theorem isCandidate_iff_forall :
    e.isCandidate predicate = true ↔
      ∀ d ∈ e.preOrder, d.parameter? = none ∧ predicate d = true := by
  induction e using induction_children with
  | step e ih =>
    rw [isCandidate_iff, preOrder_eq, List.forall_mem_cons, List.forall_mem_flatMap, and_comm]
    exact and_congr_right fun _ => forall₂_congr ih

/-- What is left of a tree that was computed ahead of time: a constant of its value, or a placeholder
for its failure. -/
def IsComputed (e : Expr) : Prop :=
  (∃ s v, e = .constant s v) ∨ ∃ s s' v, e = .raise s (.constant s' v)

/-- What partial evaluation makes of a tree: candidates are computed, and other nodes are put
together from what is made of their children. -/
def FoldsTo (predicate : Expr → Bool) : Expr → Expr → Prop :=
  fold fun e below e' =>
    (e.isCandidate predicate = true ∧ e'.IsComputed) ∨
      (e.isCandidate predicate = false ∧
        ∃ n news, e' = e.rebuild n news ∧ List.Forall₂ (fun P c => P c) (below ()) news)

theorem foldsTo_iff :
    e.FoldsTo predicate e' ↔
      (e.isCandidate predicate = true ∧ e'.IsComputed) ∨
        (e.isCandidate predicate = false ∧
          ∃ n news, e' = e.rebuild n news ∧ List.Forall₂ (FoldsTo predicate) e.children news) := by
  rw [FoldsTo, fold_eq]
  simp only [List.forall₂_map_left_iff]

variable {σ : Type}

/-- **Partial evaluation folds**, whatever evaluates and whatever is to be folded. -/
theorem from_partialEval_foldsTo (evaluator : Evaluator σ) (host : Host) (e : Expr)
    (s : σ × World) :
    (anyView host σ).From s (e.partialEval evaluator predicate) fun _ r =>
      e.FoldsTo predicate (r.on e) := by
  have computed (e : Expr) (he : e.isCandidate predicate = true) (s : σ × World) :
      (anyView host σ).From s (precompute evaluator e) fun _ r =>
        e.FoldsTo predicate (r.on e) := by
    have left {e' : Expr} (h : e'.IsComputed) : e.FoldsTo predicate e' :=
      foldsTo_iff.2 (.inl ⟨he, h⟩)
    refine from_precompute_of (P := fun _ => True) (fun hconstant => left ?_)
      ⟨trivial, trivial, trivial⟩ (fun v n _ => left (.inl ⟨_, _, rfl⟩))
      fun cause i n k _ => left (.inr ⟨_, _, _, rfl⟩)
    cases e with
    | constant s v => exact .inl ⟨s, v, rfl⟩
    | _ => cases hconstant
  refine from_partialEval_of (J := fun _ => True) (fun _ _ _ _ => trivial)
    (fun e _ he s _ => computed e he s) (fun e e' he h => ?_) trivial trivial
  obtain ⟨n, news, rfl, hnews⟩ := h.exists_rebuild
  exact foldsTo_iff.2 (.inr ⟨he, n, news, rfl, hnews⟩)

/-! ### Coalesce nodes -/

/-- Whether a node is a coalesce node. -/
def isCoalesce : Expr → Bool
  | binary _ .coalesce .. => true
  | _ => false

/-- The conversion of a coalesce node, whether it is applied or a method implements the node. -/
def conversionChild? : Expr → Option Expr
  | binary _ .coalesce _ _ _ _ conversion => conversion
  | _ => none

/-- Nothing that was computed holds a coalesce node. -/
theorem IsComputed.isCoalesce_eq_false (h : e.IsComputed) (hx : x ∈ e.preOrder) :
    x.isCoalesce = false := by
  rcases h with ⟨s, v, rfl⟩ | ⟨s, s', v, rfl⟩
  · obtain rfl := List.mem_singleton.1 hx
    rfl
  · obtain rfl | rfl := List.mem_pair.1 hx <;> rfl

/-- Above a coalesce node that is still in its place nothing was computed, so it is what was made of
the node that was there. -/
theorem FoldsTo.at? {path : List Nat} (h : e.FoldsTo predicate e') (hx : e.at? path = some x)
    (hx' : e'.at? path = some x') (hcoalesce : x'.isCoalesce = true) :
    x.FoldsTo predicate x' := by
  induction path generalizing e e' with
  | nil =>
    cases hx
    cases hx'
    exact h
  | cons i path ih =>
    rcases foldsTo_iff.1 h with ⟨-, hcomputed⟩ | ⟨-, n, news, rfl, hnews⟩
    · rw [hcomputed.isCoalesce_eq_false (mem_preOrder_of_at? hx')] at hcoalesce
      cases hcoalesce
    obtain ⟨c, hc, hx⟩ := Option.bind_eq_some_iff.1 hx
    obtain ⟨c', hc', hcc'⟩ := exists_getElem?_of_forall₂ hnews hc
    rw [Expr.at?, children_rebuild n hnews.length_eq, hc', Option.bind_some] at hx'
    exact ih hcc' hx hx'

/-- A coalesce node that is put together anew keeps its method, and its conversion is folded. -/
theorem FoldsTo.conversionChild? (h : x.FoldsTo predicate x') (hcoalesce : x'.isCoalesce = true) :
    x'.overload? = x.overload? ∧
      Option.Rel (FoldsTo predicate) x.conversionChild? x'.conversionChild? := by
  rcases foldsTo_iff.1 h with ⟨-, hcomputed⟩ | ⟨-, n, news, rfl, hnews⟩
  · rw [hcomputed.isCoalesce_eq_false (mem_preOrder_self x')] at hcoalesce
    cases hcoalesce
  have hsame : Parallel (FoldsTo predicate) (SameParams (FoldsTo predicate)) x (x.rebuild n news) :=
    parallel_rebuild n hnews
  generalize x.rebuild n news = x' at hsame hcoalesce
  cases hsame with
  | binary op lifting method hl hr hc => cases op <;> first | exact ⟨rfl, hc⟩ | cases hcoalesce
  | _ => cases hcoalesce

/-- What is made of a lambda node: it stays one over the same parameters unless it is a candidate. -/
theorem FoldsTo.lambda {s : Stamp} {ps : List Param} {b : Expr}
    (h : (Expr.lambda s ps b).FoldsTo predicate e') :
    ((Expr.lambda s ps b).isCandidate predicate = true ∧ e'.IsComputed) ∨
      ((Expr.lambda s ps b).isCandidate predicate = false ∧ ∃ s' b', e' = .lambda s' ps b') := by
  rcases foldsTo_iff.1 h with hcomputed | ⟨hcandidate, n, news, rfl, -⟩
  · exact .inl hcomputed
  · exact .inr ⟨hcandidate, _, _, rfl⟩

/-- The conversion that a node applies is its conversion child, unless a method implements the node. -/
theorem conversion?_eq_conversionChild? (hoverload : x.overload? = none) :
    x.conversion? = x.conversionChild? := by
  cases x with
  | binary s op lifting method l r c =>
    obtain rfl : method = none := hoverload
    cases op <;> rfl
  | _ => rfl

theorem conversionChild?_of_mem {c : Expr} (h : c ∈ x.conversion?) : x.conversionChild? = some c := by
  unfold conversion? at h
  split at h
  · exact h
  · cases h

/-- A conversion that was computed is not applied. -/
theorem convertLeft_of_isComputed {c : Option Expr} (h : ∀ c' ∈ c, c'.IsComputed)
    (reflector : Reflector) (frame : Frame) (v : Value) :
    convertLeft reflector frame c v = pure v := by
  have hlambda : c.bind lambda? = none := by
    cases c with
    | none => rfl
    | some c' => rcases h c' rfl with ⟨_, _, rfl⟩ | ⟨_, _, _, rfl⟩ <;> rfl
  rw [convertLeft, hlambda]

/-- **Which conversions are kept.** Take a coalesce node with a lambda for a conversion that is still a
coalesce node when the tree was folded. If a parameter occurs in the conversion, or the predicate
rejects some node of it, then the conversion is a lambda over the same parameters as before, and it
is applied to the value on the left unless a method implements the node. If not, then a constant or a
placeholder stands there, and the value on the left is passed on as it is. -/
theorem partialEval_conversion (evaluator : Evaluator σ) (e : Expr) (host : Host) (st : σ) (w : World)
    {path : List Nat} {s : Stamp} {ps : List Param} {b : Expr} (hx : e.at? path = some x)
    (hx' : (((e.partialEval evaluator predicate host).run st w).1.1.on e).at? path = some x')
    (hcoalesce : x'.isCoalesce = true) (hconversion : x.conversionChild? = some (.lambda s ps b)) :
    x'.overload? = x.overload? ∧ ∃ c', x'.conversionChild? = some c' ∧
      ((∃ d ∈ (Expr.lambda s ps b).preOrder, d.parameter?.isSome = true ∨ predicate d = false) →
        ∃ s' b', c' = .lambda s' ps b' ∧
          (x.overload? = none → ps.length = 1 → ∀ reflector frame v,
            convertLeft reflector frame x'.conversion? v =
              b'.interpret reflector (frame.bind ps [v]))) ∧
      ((∀ d ∈ (Expr.lambda s ps b).preOrder, d.parameter? = none ∧ predicate d = true) →
        c'.IsComputed ∧ ∀ reflector frame v,
          convertLeft reflector frame x'.conversion? v = pure v) := by
  have folds : e.FoldsTo predicate _ := (from_partialEval_foldsTo evaluator host e (st, w)).2
  obtain ⟨hoverload, hchild⟩ := (folds.at? hx hx' hcoalesce).conversionChild? hcoalesce
  rw [hconversion] at hchild
  obtain ⟨c', hc', hfolds⟩ : ∃ c', x'.conversionChild? = some c' ∧
      (Expr.lambda s ps b).FoldsTo predicate c' := by
    generalize x'.conversionChild? = child at hchild
    cases hchild with
    | some h => exact ⟨_, rfl, h⟩
  refine ⟨hoverload, c', hc', fun hkept => ?_, fun hlost => ?_⟩
  · rcases hfolds.lambda with ⟨hcandidate, -⟩ | ⟨-, s', b', rfl⟩
    · obtain ⟨d, hd, hrejected⟩ := hkept
      obtain ⟨hparameter, hadmitted⟩ := isCandidate_iff_forall.1 hcandidate d hd
      rw [hparameter, hadmitted] at hrejected
      exact (hrejected.elim Bool.false_ne_true Bool.false_ne_true.symm).elim
    · refine ⟨s', b', rfl, fun hnone hlength reflector frame v => ?_⟩
      rw [conversion?_eq_conversionChild? (hoverload.trans hnone), hc']
      exact if_pos hlength
  · have hcandidate := isCandidate_iff_forall.2 hlost
    rcases hfolds.lambda with ⟨-, hcomputed⟩ | ⟨hcandidate', -⟩
    · refine ⟨hcomputed, convertLeft_of_isComputed fun c hc => ?_⟩
      rw [conversionChild?_of_mem hc] at hc'
      cases hc'
      exact hcomputed
    · rw [hcandidate] at hcandidate'
      cases hcandidate'

/-- The theorem for `x ?? 5` with the conversion `y => y + 1`, where everything may be folded. -/
theorem partialEval_conversion_applied :
    let x : Param := ⟨0, 0, "x", .nullable (.int .i32)⟩
    let y : Param := ⟨1, 1, "y", .int .i32⟩
    let one : Expr := .constant ⟨2, .int .i32⟩ (.ofInt .i32 1)
    let five : Expr := .constant ⟨3, .int .i32⟩ (.ofInt .i32 5)
    let conversion : Expr := .lambda ⟨4, .func [.int .i32] (.int .i32)⟩ [y]
      (.binary ⟨5, .int .i32⟩ .add {} none (.parameter y) one none)
    let e : Expr :=
      .binary ⟨6, .int .i32⟩ .coalesce {} none (.parameter x) five (some conversion)
    let host : Host := ⟨fun _ => none⟩
    let e' := ((e.partialEval (.interpreting .native) (fun _ => true) host).run () {}).1.1.on e
    e'.isCoalesce = true ∧ ∃ s b, e'.conversionChild? = some (.lambda s [y] b) := by
  intro x y one five conversion e host e'
  have hcoalesce : e'.isCoalesce = true := by decide
  have hroot : e.at? [] = some e := rfl
  have hoccurs : .parameter y ∈ conversion.preOrder :=
    mem_preOrder_of_at? (show conversion.at? [0, 0] = some (.parameter y) from rfl)
  obtain ⟨-, c', hc', hkept, -⟩ :=
    partialEval_conversion (.interpreting .native) e host () {} hroot rfl hcoalesce rfl
  obtain ⟨s, b, rfl, -⟩ := hkept ⟨.parameter y, hoccurs, .inl rfl⟩
  exact ⟨hcoalesce, s, b, hc'⟩

/-- A conversion that ignores its argument is lost where everything may be folded: `x ?? 5` with the
conversion `y => 1` gives 1 for 7, and after folding it gives 7. -/
theorem partialEval_drops_conversion :
    let x : Param := ⟨0, 0, "x", .nullable (.int .i32)⟩
    let y : Param := ⟨1, 1, "y", .int .i32⟩
    let one : Expr := .constant ⟨2, .int .i32⟩ (.ofInt .i32 1)
    let five : Expr := .constant ⟨3, .int .i32⟩ (.ofInt .i32 5)
    let conversion : Expr := .lambda ⟨4, .func [.int .i32] (.int .i32)⟩ [y] one
    let e : Expr :=
      .binary ⟨6, .int .i32⟩ .coalesce {} none (.parameter x) five (some conversion)
    let host : Host := ⟨fun _ => none⟩
    let e' := ((e.partialEval (.interpreting .native) (fun _ => true) host).run () {}).1.1.on e
    let at7 (e : Expr) := (Lambda.interpret ⟨[x], e⟩ .native [.ofInt .i32 7] host).run {}
    e.conversionChild? = some conversion ∧ conversion.lambda?.isSome = true ∧
      e'.isCoalesce = true ∧ e'.conversionChild?.bind lambda? = none ∧
      (at7 e).1 = .ok (.ofInt .i32 1) ∧ (at7 e').1 = .ok (.ofInt .i32 7) := by
  intro x y one five conversion e host e' at7
  exact ⟨rfl, rfl, rfl, rfl, rfl, rfl⟩

end Expr

end ExprTree
