import ExprTree.Proofs.CacheTransparency

/-!
# Quotes that come out of a cache

The artifact of a shape is compiled from one tree and run for every tree of the shape. For a lambda
node it makes a quote: the template with the constants of the call where it has holes. So what comes
out of the cache has the nodes of a tree that was asked for earlier, and the constants of the one that
is asked for now. The two trees agree on everything else that a comparison looks at, and the holes are
told apart by where they stand. Nothing has to be asked of declarations: parameters are compared by
name, wherever they are declared.

Positions in the array of arguments are numbers of 32 bits. A tree with more constants than these can
count is out of reach.

## Main definitions

* `Expr.Filled`: a tree with listed constants in the place of its holes.

## Main results

* `Expr.filled_of_captured`: a quote of a template over nothing but arguments is the template, filled.
* `Expr.sameShape_of_filled`: a template filled with the constants of a tree of its shape is that tree.
* `Cache.evaluate_quote`: **quotes survive the cache**, after any requests.
-/

set_option autoImplicit false

namespace ExprTree

open ArgumentArray

variable {args : Param} {places : Positions} {values : List Value} {base : Nat} {e m t t' r : Expr}

/-! ### Holes filled with constants -/

namespace Expr

/-- The constant that is listed for the position of a parameter. -/
def IsFilled (places : Positions) (values : List Value) (e r : Expr) : Prop :=
  ∃ i ty n v, place? places e = some (i, ty) ∧ values[i]? = some v ∧ r = .constant ⟨n, ty⟩ v

/-- The second tree is the first with listed constants in the place of parameters with a position. -/
abbrev Filled (places : Positions) (values : List Value) : Expr → Expr → Prop :=
  Replaced (HasPlace places) (IsFilled places values)

end Expr

/-- Where only arguments are bound, slots are captured and nothing else is. -/
theorem ArgumentArray.Slotted.not_isCaptured_of_unbound (h : Slotted args places t t')
    (hbelow : t.Below args.id) (hplace : ¬HasPlace places t) :
    ¬Expr.IsCaptured args.id ⟨values.toArray, []⟩ t' := by
  cases hp : t.parameter? with
  | none => exact h.not_isCaptured hbelow hp
  | some p =>
    obtain rfl := Expr.eq_of_parameter? hp
    cases h.eq_parameter (not_not.1 hplace)
    exact not_not.2 rfl

namespace Expr

/-- A quote of a template over nothing but arguments is the template, filled with the arguments. -/
theorem filled_of_captured (hslotted : Slotted args places t t') (hbelow : t.Below args.id)
    (hplaces : places.Within values.length) (hlimit : places.Within (2 ^ 31))
    (hr : Captured args.id ⟨values.toArray, []⟩ t' r) : Filled places values t r := by
  induction t using induction_children generalizing t' r with
  | step t ih =>
    by_cases hplace : HasPlace places t
    · obtain ⟨i, ty, hi, hslot⟩ := hslotted.exists_slot hplace
      obtain ⟨p, rfl, hp⟩ := exists_of_place? hi
      obtain ⟨v, hv⟩ : ∃ v, values[i]? = some v :=
        ⟨_, List.getElem?_eq_getElem (hplaces p.id i ty hp)⟩
      have hv' : values.toArray[i]? = some v := by simpa using hv
      obtain ⟨n, rfl⟩ := hslot.capturedAs (hlimit p.id i ty hp) hv' hr
      exact replaced_iff.2 (.inl ⟨hplace, i, ty, n, v, hi, hv, rfl⟩)
    · obtain ⟨slotted, hkept⟩ := hslotted.parallel hplace
      obtain ⟨captured, hkept'⟩ := hr.parallel (hslotted.not_isCaptured_of_unbound hbelow hplace)
      refine replaced_iff.2 (.inr ⟨hplace, fun hwithout => ?_, ?_⟩)
      · rw [← hkept hwithout]
        refine hkept' fun d hd => ?_
        rw [hkept hwithout] at hd
        have kept : Slotted args places d d :=
          .self fun x hx => hwithout x (mem_preOrder_trans hd hx)
        exact kept.not_isCaptured_of_unbound (hbelow.preOrder hd) (hwithout d hd)
      · refine ((slotted.comp captured).imp_of_mem (fun c hc _ _ => ?_) ?_).exists_rebuild
        · rintro ⟨c', hslotted, hcaptured⟩
          exact ih c hc hslotted (hbelow.children c hc) hcaptured
        · rintro _ _ c hc _ _ ⟨_, c', ⟨rfl, hslotted⟩, rfl, hcaptured⟩
          exact ⟨rfl, ih c hc hslotted (hbelow.children c hc) hcaptured⟩

/-- A constant comes back in its hole, with its type. -/
theorem sameShape_of_filled_constant {s s' : Stamp} {v v' : Value} (hty : s.ty = s'.ty)
    (htemplate : Replaced IsConstant (IsHole base) (constant s' v') t)
    (hfills : List.Forall₂ (Fills places values) (constant s v).constants (t.holes base))
    (hr : Filled places values t r) : SameShape false (constant s v) r := by
  obtain ⟨q, rfl, same_ty, i, hplace, hv⟩ := exists_fills_of_constant hty htemplate hfills
  have hplace' : place? places (.parameter q) = some (i, q.ty) := hplace
  have hit : HasPlace places (.parameter q) := by
    rw [HasPlace, hplace']
    exact Option.some_ne_none _
  obtain ⟨j, ty, n, w, hj, hw, rfl⟩ := hr.leaf_of_hit hit
  cases hplace'.symm.trans hj
  cases hv.symm.trans hw
  refine (sameShape_iff rfl).2 ⟨isAlike_iff.2 ⟨?_, .inr ?_⟩, .nil⟩
  · rw [same_ty]
    rfl
  · exact BEq.rfl

/-- A template filled with the constants of a tree of its shape is that tree. -/
theorem sameShape_of_filled (hsupported : e.Supported) (hshape : SameShape true e m)
    (hbelow : m.Below base) (htemplate : Replaced IsConstant (IsHole base) m t)
    (hplaces : ∀ id, places[id]? ≠ none → base ≤ id)
    (hfills : List.Forall₂ (Fills places values) e.constants (t.holes base))
    (hr : Filled places values t r) : SameShape false e r := by
  induction e using induction_children generalizing m t r with
  | step e ih =>
    obtain ⟨hforeign, hsupported'⟩ := supported_iff.1 hsupported
    have hlabel := (isAlike_iff.1 hshape.isAlike).1
    cases hleaf : e.isLeaf with
    | true =>
      cases e with
      | constant s v =>
        cases m with
        | constant s' v' =>
          exact sameShape_of_filled_constant (congrArg Label.ty hlabel) htemplate hfills hr
        | _ => cases congrArg Label.kind hlabel
      | parameter p =>
        cases m with
        | parameter p' =>
          cases (htemplate.parallel (not_not.2 rfl)).1
          have hplace : ¬HasPlace places (.parameter p') := fun hplace =>
            Nat.not_lt.2 (hplaces p'.id hplace) hbelow.parameter
          cases (hr.parallel hplace).1
          refine (sameShape_iff rfl).2 ⟨isAlike_iff.2 ⟨hlabel, .inr rfl⟩, .nil⟩
        | _ => cases congrArg Label.kind hlabel
      | _ => cases hleaf
    | false =>
      have shapes := hshape.parallel hforeign hleaf
      have hleaf' : m.isLeaf = false := shapes.isLeaf_eq.symm.trans hleaf
      have replaced := (htemplate.parallel (not_not.2 (constant?_of_isLeaf hleaf'))).1
      have hleaf'' : t.isLeaf = false := replaced.isLeaf_eq.symm.trans hleaf'
      have filled := (hr.parallel (not_hasPlace_of_isLeaf hleaf'')).1
      have fills := forall₂_fills_children hsupported' hbelow (constant?_of_isLeaf hleaf)
        (parameter?_of_isLeaf hleaf'') (shapes.children fun _ _ _ _ hb => hb.2) (fun _ _ h => h)
        (replaced.children fun _ _ _ _ hb => hb.2) hfills
      have below := forall₂_trans fills (filled.children fun _ _ _ _ hb => hb.2)
      have same := forall₂_imp_of_mem below fun c hc x _ h => by
        obtain ⟨c'', -, ⟨⟨c', hc', hshape, htemplate⟩, hfills⟩, hfilled⟩ := h
        exact ih c hc (hsupported' c hc) hshape (hbelow.children c' hc') htemplate hfills hfilled
      refine Parallel.sameShape ?_ hforeign
      refine (((shapes.comp replaced).comp filled).with_children same).imp_of_mem
        (fun _ _ _ _ h => h) ?_
      rintro ps _ b _ b' _ ⟨⟨_, _, ⟨_, _, ⟨hnames, -⟩, rfl, -⟩, rfl, -⟩, hbody⟩
      exact ⟨hnames, hbody⟩

end Expr

namespace Cache

variable {host : Host} {w : World} {hashing : Hashing} {requests : List Request}

/-! ### Lambda nodes through a cache -/

/-- What evaluating a closed tree through a cache comes to. -/
theorem caching_evaluate_run (backend : Backend) (hashing : Hashing)
    (hclosed : e.ensureClosed = .ok ()) (host : Host) (cache : Cache) (w : World) :
    (((Evaluator.caching backend hashing).evaluate e host).run cache w).1.1 =
      match (getOrCompile backend hashing (.closed e)).run cache w.supply with
      | ((.ok callable, _), supply) => ((callable []).outcome host { w with supply }).1
      | ((.error cause, _), _) => .error cause := by
  have checked : (((Evaluator.caching backend hashing).evaluate e) host).run cache w =
      ((Evaluator.evaluateOnce backend hashing e) host).run cache w := by
    simp only [Evaluator.caching, EvaluatorM.bind_run]
    rw [hclosed]
    rfl
  rw [checked, Evaluator.evaluateOnce, EvaluatorM.bind_run, EvaluatorM.ofCache_run]
  rcases (getOrCompile backend hashing (.closed e)).run cache w.supply with ⟨⟨_ | _, _⟩, _⟩ <;> rfl

/-- Only holes have positions among holes. -/
theorem base_le_of_position {holes : List Param} (hholes : ∀ q ∈ holes, base ≤ q.id) {id : ParamId}
    (hid : (positions (holes.map .parameter))[id]? ≠ none) : base ≤ id := by
  obtain ⟨⟨i, ty⟩, hplace⟩ := Option.ne_none_iff_exists'.1 hid
  obtain ⟨q, hq, rfl, -⟩ := exists_of_position hplace
  exact hholes q (List.mem_of_getElem? hq)

/-- The body that is lowered for the template of a lambda node is a lambda node. -/
theorem isSome_lambda?_of_slotted (hlambda : m.lambda?.isSome = true)
    (htemplate : Expr.Replaced Expr.IsConstant (Expr.IsHole base) m t)
    (hslotted : Slotted args places t t') : t'.lambda?.isSome = true := by
  have hleaf : m.isLeaf = false := Expr.isLeaf_of_lambda? hlambda
  have replaced := (htemplate.parallel (not_not.2 (Expr.constant?_of_isLeaf hleaf))).1
  have hleaf' : t.isLeaf = false := replaced.isLeaf_eq.symm.trans hleaf
  rwa [← (hslotted.parallel (not_hasPlace_of_isLeaf hleaf')).1.isSome_lambda?,
    ← replaced.isSome_lambda?]

/-- The artifact of a lambda node, run on the constants of a node of its shape, quotes that node. -/
theorem artifact_quotes {s : Supply} (hlambda : m.lambda?.isSome = true) (hbelow : m.Below s.next)
    (hsupported : e.Supported) (hshape : Expr.SameShape true e m)
    (hsize : e.constants.length ≤ 2 ^ 31) :
    ∃ made, ((freshArtifact .closures (.closed m)).run s).1 = .ok made ∧
      ∀ (host : Host) (w : World), ∃ q,
        ((bindConstants made.1 e.constants 0 []).outcome host w).1 = .ok (.lambda q) ∧
          Expr.SameShape false e q := by
  obtain ⟨t, t', limit, htemplate, hle, hslotted, hmade⟩ :=
    freshArtifact_closures (m := .closed m) hbelow
  change Expr.IsTemplate s.next limit m t at htemplate
  have hbelow' : t.Below limit := htemplate.below hbelow hle
  have hlength : e.constants.length = (t.holes s.next).length := by
    rw [Expr.length_holes hbelow htemplate.replaced]
    exact hshape.length_constants hsupported
  have hholes : ∀ q ∈ t.holes s.next, s.next ≤ q.id := fun q hq => (htemplate.ids q hq).1
  have hnodup : ((t.holes s.next ++ []).map Param.id).Nodup :=
    Expr.nodup_append_ids htemplate.sorted hholes List.nodup_nil (List.forall_mem_nil _)
  have hfills := Expr.forall₂_fills hnodup hlength
  rw [List.append_nil] at hfills
  have within := positions_within (t.holes s.next)
  rw [← hlength] at within
  rw [Lambda.closed, List.append_nil] at hslotted hmade
  rw [Expr.lower_lambda (isSome_lambda?_of_slotted hlambda htemplate.replaced hslotted)] at hmade
  refine ⟨_, hmade, fun host w => ?_⟩
  have hclosed : t'.isClosed = true →
      Expr.Without (Expr.IsCaptured limit ⟨e.constants.toArray, []⟩) t' :=
    hslotted.without_captured_of_unbound hbelow' fun _ _ => rfl
  obtain ⟨q, w', hrun, -, hcaptured⟩ := Expr.quote_outcome hclosed host w
  refine ⟨q, ?_, ?_⟩
  · have hquote := congrArg Prod.fst hrun
    simpa [bindConstants, Backend.callableOf, hlength] using hquote
  · have filled := Expr.filled_of_captured hslotted hbelow' within (within.mono hsize) hcaptured
    exact Expr.sameShape_of_filled hsupported hshape hbelow htemplate.replaced
      (fun _ => base_le_of_position hholes) hfills filled

/-- **Quotes survive the cache.** Take any requests for code of the closure backend, with keys
hashed over any hasher and to any depth, and then a closed lambda node without foreign constructs.
Evaluating it through the cache gives a quote that is structurally equal to it, constants included,
whatever tree of its shape the artifact was compiled from. The constants are handed over as
arguments, whose positions are taken to fit an `i32`. -/
theorem evaluate_quote (host : Host) (hashing : Hashing)
    (hrequests : ∀ r ∈ requests, r.IsOverClosures)
    (hlambda : e.lambda?.isSome = true) (hclosed : e.isClosed = true) (hsupported : e.Supported)
    (hsize : e.constants.length ≤ 2 ^ 31) (hbelow : e.Below w.supply.next) :
    ∃ q, (((Evaluator.caching .closures hashing).evaluate e host).run
        (Session.run hashing requests).cache w).1.1 = .ok (.lambda q) ∧
      q.structEq e false = .ok true := by
  have hbelow' : (Lambda.closed e).Below w.supply.next := ⟨List.forall_mem_nil _, hbelow⟩
  obtain ⟨m, hm, s, hbelow'', answer_eq⟩ := Session.exists_artifact (l := .closed e)
    (Session.faithful_run hashing requests) (Session.compiled_run hrequests) hsupported hbelow'
  -- The artifact is that of a lambda without parameters, over a node of this shape.
  have hshape : Expr.SameShape true ((Lambda.closed e).toExpr 0) (m.toExpr 0) := by
    rcases hm with ⟨hm, hshape⟩ | ⟨rfl, -⟩
    · exact ((Lambda.sameShape_iff 0 0).1 hshape).symm
        ((Session.faithful_run hashing requests).supported hm 0)
    · exact .refl true _
  obtain ⟨hnames, hbody⟩ := (hshape.parallel rfl rfl).of_lambda
  obtain ⟨params, body⟩ := m
  obtain rfl : params = [] := List.map_eq_nil_iff.1 hnames.symm
  have hlambda' : body.lambda?.isSome = true := by
    have hleaf : e.isLeaf = false := Expr.isLeaf_of_lambda? hlambda
    rwa [← (hbody.parallel (Expr.supported_iff.1 hsupported).1 hleaf).isSome_lambda?]
  obtain ⟨made, hmade, hquotes⟩ :=
    artifact_quotes hlambda' hbelow''.body hsupported hbody hsize
  rw [Lambda.closed] at hmade
  rw [caching_evaluate_run _ _ (Expr.ensureClosed_of_isClosed hclosed)]
  revert answer_eq
  rw [hmade]
  rcases (getOrCompile .closures hashing (.closed e)).run (Session.run hashing requests).cache
    w.supply with ⟨⟨answer, cache⟩, supply⟩
  rintro rfl
  obtain ⟨q, hquote, hsame⟩ := hquotes host { w with supply }
  exact ⟨q, hquote, Expr.structEq_eq_ok_true_iff.2 (hsame.symm hsupported)⟩

/-- The theorem for `x => x + 2`, after a request for `x => x + 1`. -/
theorem evaluate_quote_increment :
    let increment (n : NodeId) (x : Param) (k : Int) : Expr := .lambda ⟨n, .object⟩ [x]
      (.binary ⟨n + 1, .int .i32⟩ .add {} none (.parameter x) (.constant ⟨n + 2, .int .i32⟩ (.ofInt .i32 k))
        none)
    let m := increment 2 ⟨0, 0, "x", .int .i32⟩ 1
    let e := increment 5 ⟨1, 1, "x", .int .i32⟩ 2
    let host : Host := ⟨fun _ => none⟩
    let hashing : Hashing := ⟨.bytewise, 5⟩
    let requests : List Request := [.evaluate .closures host { supply := ⟨8⟩ } m]
    ∃ q, (((Evaluator.caching .closures hashing).evaluate e host).run
        (Session.run hashing requests).cache { supply := ⟨20⟩ }).1.1 = .ok (.lambda q) ∧
      q.structEq e false = .ok true := by
  intro increment m e host hashing requests
  have hrequests : ∀ r ∈ requests, r.IsOverClosures :=
    List.forall_mem_singleton.2 ⟨rfl, ⟨by decide, by decide⟩⟩
  exact evaluate_quote host hashing hrequests rfl (by decide) rfl (by decide) ⟨by decide, by decide⟩

end Cache

end ExprTree
