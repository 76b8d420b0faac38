import Mathlib.Data.Nat.Count
import ExprTree.Proofs.CacheHistory
import ExprTree.Proofs.Reassembly

/-!
# The parameter lists that backends get

For a lambda of a new shape a cache hands its backend the body over placeholders, with the
placeholders in front of the parameters. The placeholders avoid the names that the body mentions. A
parameter that the body does not mention is not among these, although it is in the list, so a
placeholder may be called like it, and then the list is none that a lambda may have.

Which names placeholders take is said by counting: candidate `j` is taken up if it is free, and if
fewer candidates before it are free than there are constants. So it can be told from the names and
the number of constants alone whether a list is in order.

Lambdas are run by the identities of parameters and not by their names. Nothing here is about what a
callable returns.

## Main definitions

* `Lambda.IsAccepted`: whether parameters and a body make a lambda.
* `Lambda.overPlaceholders`: what a backend gets.
* `Lambda.ClashesAt`, `Lambda.Clashes`: a placeholder is called like a parameter.

## Main results

* `Extraction.mem_freeNames`: which candidates become names of placeholders.
* `Lambda.isAccepted_iff_nodup`: names decide whether parameters make a lambda.
* `Lambda.isAccepted_overPlaceholders_iff`, `Lambda.ofExprs_overPlaceholders`: what a backend gets is
  accepted unless names clash, and what is wrong with it if they do.
* `Cache.getOrCompile_parameterLists`: so backends may rely on it as long as names do not clash.
* `Cache.parameterList_clash`: a lambda with a parameter that its body does not mention.
-/

set_option autoImplicit false

namespace ExprTree

namespace Extraction

/-! ### Which candidates are taken up -/

/-- Whether the name of a candidate is free. -/
abbrev IsFree (taken : List String) (j : Nat) : Prop := placeholderName j ∉ taken

variable {taken : List String}

/-- The search for a name passes over no free candidate. -/
theorem count_firstFree (taken : List String) (fuel i : Nat) :
    Nat.count (IsFree taken) (firstFree taken fuel i) = Nat.count (IsFree taken) i := by
  induction fuel generalizing i with
  | zero => rfl
  | succ fuel ih =>
    unfold firstFree
    split
    · next htaken => rw [ih, Nat.count_succ_eq_count_iff, not_not]; exact htaken
    · rfl

theorem count_advance (taken : List String) (i : Nat) :
    Nat.count (IsFree taken) (advance taken i) = Nat.count (IsFree taken) i + 1 := by
  rw [advance, Nat.count_succ_eq_succ_count_iff.2 (firstFree_notMem taken i), count_firstFree]

/-- **The names of placeholders** are those of the first free candidates, as many as there are
placeholders. -/
theorem mem_freeNames {i count j : Nat} :
    placeholderName j ∈ freeNames taken i count ↔ i ≤ j ∧ IsFree taken j ∧
      Nat.count (IsFree taken) j < Nat.count (IsFree taken) i + count := by
  induction count generalizing i with
  | zero =>
    refine iff_of_false List.not_mem_nil ?_
    rintro ⟨hij, -, hcount⟩
    exact Nat.not_lt.2 (Nat.count_monotone _ hij) hcount
  | succ count ih =>
    have hle : i ≤ firstFree taken taken.length i := le_firstFree taken taken.length i
    have hfree : IsFree taken (firstFree taken taken.length i) := firstFree_notMem taken i
    have hcount := count_firstFree taken taken.length i
    have hadvance : advance taken i = firstFree taken taken.length i + 1 := rfl
    rw [freeNames_succ, List.mem_cons, placeholderName_injective.eq_iff, ih, count_advance, hadvance]
    constructor
    · rintro (rfl | ⟨hij, hj, hlt⟩)
      · exact ⟨hle, hfree, by omega⟩
      · exact ⟨by omega, hj, by omega⟩
    · rintro ⟨hij, hj, hlt⟩
      rcases Nat.lt_trichotomy j (firstFree taken taken.length i) with hbefore | heq | hafter
      · -- a free candidate before the one that is found would have been counted
        have hmore := Nat.count_strict_mono hj hbefore
        have hless := Nat.count_monotone (IsFree taken) hij
        omega
      · exact .inl heq
      · exact .inr ⟨hafter, hj, by omega⟩

end Extraction

namespace Lambda

/-! ### Lists that are accepted -/

/-- The parameters and the body make a lambda. -/
def IsAccepted (l : Lambda) : Prop := ofExprs (l.params.map .parameter) l.body = .ok l

/-- Parameters that are accepted have names of their own. -/
theorem nodup_of_go {body : Expr} {l : Lambda} {seen params : List Param} {i : Nat}
    (h : ofExprs.go body i seen (params.map .parameter) = .ok l) :
    (params.map Param.name).Nodup ∧ ∀ p ∈ params, ∀ q ∈ seen, q.name ≠ p.name := by
  induction params generalizing i seen with
  | nil => exact ⟨.nil, fun _ hp => (List.not_mem_nil hp).elim⟩
  | cons p params ih =>
    simp only [List.map_cons, ofExprs.go, Expr.parameter?] at h
    split at h
    · cases h
    · next hunseen =>
      obtain ⟨hnodup, hseen⟩ := ih h
      have hlater : p.name ∉ params.map Param.name := by
        intro hmem
        obtain ⟨q, hq, hname⟩ := List.mem_map.1 hmem
        exact hseen q hq p List.mem_cons_self hname.symm
      have hrest : ∀ q ∈ params, ∀ r ∈ seen, r.name ≠ q.name := fun q hq r hr =>
        hseen q hq r (List.mem_cons_of_mem p hr)
      exact ⟨List.nodup_cons.2 ⟨hlater, hnodup⟩, List.forall_mem_cons.2 ⟨by simpa using hunseen, hrest⟩⟩

/-- If one of the parameters is called like one before them, the failure names such a one. -/
theorem go_error {body : Expr} {seen params : List Param} {i : Nat}
    (hnodup : (params.map Param.name).Nodup) (h : ∃ p ∈ params, ∃ q ∈ seen, q.name = p.name) :
    ∃ p ∈ params, (∃ q ∈ seen, q.name = p.name) ∧
      ofExprs.go body i seen (params.map .parameter) = .error (.duplicateParameter p.name) := by
  induction params generalizing i seen with
  | nil => exact (List.not_mem_nil h.choose_spec.1).elim
  | cons p params ih =>
    rw [List.map_cons, List.nodup_cons, List.mem_map] at hnodup
    simp only [List.map_cons, ofExprs.go, Expr.parameter?]
    split
    · next hseen => exact ⟨p, List.mem_cons_self, by simpa using hseen, rfl⟩
    · next hunseen =>
      have hunseen : ¬ ∃ q ∈ seen, q.name = p.name := by simpa using hunseen
      have later : ∃ q ∈ params, ∃ r ∈ p :: seen, r.name = q.name := by
        obtain ⟨q, hq, r, hr, hname⟩ := h
        rcases List.mem_cons.1 hq with rfl | hq
        · exact (hunseen ⟨r, hr, hname⟩).elim
        · exact ⟨q, hq, r, List.mem_cons_of_mem p hr, hname⟩
      obtain ⟨q, hq, ⟨r, hr, hname⟩, herror⟩ := ih (i := i + 1) hnodup.2 later
      -- the parameters are apart, so it is called like one before all of them
      rcases List.mem_cons.1 hr with rfl | hr
      · exact (hnodup.1 ⟨q, hq, hname.symm⟩).elim
      · exact ⟨q, List.mem_cons_of_mem p hq, ⟨r, hr, hname⟩, herror⟩

/-- Names decide whether parameters make a lambda. -/
theorem isAccepted_iff_nodup {l : Lambda} : l.IsAccepted ↔ (l.params.map Param.name).Nodup :=
  ⟨fun h => (nodup_of_go h).1, ofExprs_parameters l.body⟩

instance (l : Lambda) : Decidable l.IsAccepted := decidable_of_iff' _ isAccepted_iff_nodup

/-! ### Placeholders in front of parameters -/

/-- The body over placeholders, with the placeholders in front of the parameters. -/
def overPlaceholders (l : Lambda) (x : Extraction) : Lambda := ⟨x.placeholders ++ l.params, x.body⟩

/-- A placeholder takes the name of a parameter: the body does not mention the name, it is that of a
candidate, and fewer candidates before it are free than the body has constants. -/
def ClashesAt (l : Lambda) (p : Param) : Prop :=
  p.name ∉ l.body.parameterNames ∧ ∃ j, p.name = Extraction.placeholderName j ∧
    Nat.count (Extraction.IsFree l.body.parameterNames) j < l.body.constants.length

/-- A placeholder takes the name of some parameter. -/
def Clashes (l : Lambda) : Prop := ∃ p ∈ l.params, l.ClashesAt p

variable {l : Lambda} {x : Extraction}

theorem clashesAt_iff (hx : x.IsOf l.body) {p : Param} :
    l.ClashesAt p ↔ p.name ∈ x.placeholders.map Param.name := by
  rw [hx.names, l.body.constantNodes_values.length_eq]
  constructor
  · rintro ⟨hfree, j, hname, hcount⟩
    rw [hname] at hfree ⊢
    exact Extraction.mem_freeNames.2 ⟨Nat.zero_le j, hfree, by rwa [Nat.count_zero, Nat.zero_add]⟩
  · intro hmem
    obtain ⟨j, -, hname⟩ := Extraction.exists_of_mem_freeNames hmem
    rw [hname] at hmem
    obtain ⟨-, hfree, hcount⟩ := Extraction.mem_freeNames.1 hmem
    rw [Nat.count_zero, Nat.zero_add] at hcount
    exact ⟨hname ▸ hfree, j, hname, hcount⟩

/-- **What a backend gets is accepted** exactly if no placeholder takes the name of a parameter. -/
theorem isAccepted_overPlaceholders_iff (hl : l.IsAccepted) (hx : x.IsOf l.body) :
    (l.overPlaceholders x).IsAccepted ↔ ¬ l.Clashes := by
  rw [isAccepted_iff_nodup] at hl ⊢
  rw [overPlaceholders, List.map_append, List.nodup_append]
  constructor
  · rintro ⟨-, -, hapart⟩ ⟨p, hp, hclash⟩
    exact hapart p.name ((clashesAt_iff hx).1 hclash) p.name (List.mem_map_of_mem hp) rfl
  · intro hclear
    refine ⟨hx.nodup_names, hl, ?_⟩
    rintro name hname _ hname' rfl
    obtain ⟨p, hp, rfl⟩ := List.mem_map.1 hname'
    exact hclear ⟨p, hp, (clashesAt_iff hx).2 hname⟩

/-- If it is not accepted, then because of a parameter of the lambda. -/
theorem ofExprs_overPlaceholders (hl : l.IsAccepted) (hx : x.IsOf l.body) (hclash : l.Clashes) :
    ∃ p ∈ l.params, l.ClashesAt p ∧
      ofExprs ((l.overPlaceholders x).params.map .parameter) (l.overPlaceholders x).body =
        .error (.duplicateParameter p.name) := by
  have passed : ofExprs.go x.body 0 [] (x.placeholders.map .parameter ++ l.params.map .parameter) =
      ofExprs.go x.body _ (x.placeholders.reverse ++ []) (l.params.map .parameter) :=
    go_append hx.nodup_names (fun _ _ _ hq => (List.not_mem_nil hq).elim) (l.params.map .parameter)
  have taken {p : Param} : l.ClashesAt p ↔ ∃ q ∈ x.placeholders.reverse ++ [], q.name = p.name := by
    simp [clashesAt_iff hx]
  obtain ⟨p, hp, hp'⟩ := hclash
  have hduplicate : ∃ p ∈ l.params, ∃ q ∈ x.placeholders.reverse ++ [], q.name = p.name :=
    ⟨p, hp, taken.1 hp'⟩
  rw [overPlaceholders, List.map_append, ofExprs, passed]
  obtain ⟨p, hp, hp', herror⟩ := go_error (isAccepted_iff_nodup.1 hl) hduplicate
  exact ⟨p, hp, taken.2 hp', herror⟩

end Lambda

/-! ### What a cache hands out -/

namespace Cache

variable {l : Lambda} {backend backend' : Backend}

/-- Compiling comes to what the backend makes of the body over placeholders. -/
theorem freshArtifact_eq (backend : Backend) (l : Lambda) (s : Supply) :
    (freshArtifact backend l).run s =
      let made := (l.body.extractConstants : StateM Supply Extraction) s
      let k := l.overPlaceholders made.1
      match (backend.compile k.body k.params).run made.2 with
      | (.error e, s) => (.error e, s)
      | (.ok artifact, s) =>
        (.ok (artifact, bindConstants artifact made.1.values l.params.length), s) :=
  freshArtifact_run backend l s

/-- A cache asks its backend for what goes over placeholders, and for nothing else. -/
theorem getOrCompile_congr
    (h : ∀ s : Supply,
      let k := l.overPlaceholders ((l.body.extractConstants : StateM Supply Extraction) s).1
      backend.compile k.body k.params = backend'.compile k.body k.params)
    (hashing : Hashing) (cache : Cache) (s : Supply) :
    (getOrCompile backend hashing l).run cache s =
      (getOrCompile backend' hashing l).run cache s := by
  have fresh : (freshArtifact backend l).run ⟨s.next + 1⟩ =
      (freshArtifact backend' l).run ⟨s.next + 1⟩ := by
    simp only [freshArtifact_eq, h ⟨s.next + 1⟩]
  rw [getOrCompile_run, getOrCompile_run, fresh]

/-- **The parameters that a backend gets are accepted unless names clash**, however a lambda and the
lambdas in it name theirs. If names do not clash, it makes no difference what a backend does with
parameters that are not accepted. If they do, then what is wrong is that a placeholder is called like
a parameter that the body does not mention, and a backend that refuses such parameters refuses every
lambda of a new shape. -/
theorem getOrCompile_parameterLists (hl : l.IsAccepted) :
    (∀ s : Supply,
      let k := l.overPlaceholders ((l.body.extractConstants : StateM Supply Extraction) s).1
      (k.IsAccepted ↔ ¬ l.Clashes) ∧
        (l.Clashes → ∃ p ∈ l.params, l.ClashesAt p ∧
          Lambda.ofExprs (k.params.map .parameter) k.body =
            .error (.duplicateParameter p.name))) ∧
    ∀ (backend : Backend) (hashing : Hashing) (cache : Cache) (s : Supply),
      (¬ l.Clashes → ∀ backend' : Backend,
        (∀ k : Lambda, k.IsAccepted →
          backend.compile k.body k.params = backend'.compile k.body k.params) →
        (getOrCompile backend hashing l).run cache s =
          (getOrCompile backend' hashing l).run cache s) ∧
      (l.Clashes → ∀ e : EvalError,
        (∀ k : Lambda, ¬ k.IsAccepted → backend.compile k.body k.params = throw e) →
        l.body.Supported → cache.find? (.hashed hashing (l.toExpr s.next)) = none →
        ∃ s', (getOrCompile backend hashing l).run cache s = ((.error e, cache), s')) := by
  have extraction (s : Supply) := l.body.extractConstants_isOf s
  have accepted (s : Supply) := Lambda.isAccepted_overPlaceholders_iff hl (extraction s)
  refine ⟨fun s => ⟨accepted s, Lambda.ofExprs_overPlaceholders hl (extraction s)⟩, ?_⟩
  intro backend hashing cache s
  constructor
  · intro hclear backend' hsame
    exact getOrCompile_congr (fun s => hsame _ ((accepted s).2 hclear)) hashing cache s
  · intro hclash e hrefuses hsupported hnew
    have hvalid : (l.toExpr s.next).validate = .ok () :=
      (Lambda.supported_toExpr_iff s.next).2 hsupported
    have hrefused := hrefuses _ fun h => (accepted ⟨s.next + 1⟩).1 h hclash
    have fresh : ∃ s', (freshArtifact backend l).run ⟨s.next + 1⟩ = (.error e, s') := by
      simp only [freshArtifact_eq, hrefused]
      exact ⟨_, rfl⟩
    obtain ⟨s', fresh⟩ := fresh
    rw [getOrCompile_run, hvalid]
    simp only [hnew, fresh]
    exact ⟨s', rfl⟩

/-- The theorem where the parameter is mentioned. -/
theorem getOrCompile_parameterLists_mentioned :
    let x : Param := ⟨0, 0, "p0", .int .i32⟩
    let l : Lambda := ⟨[x], .binary ⟨1, .int .i32⟩ .add {} none (.parameter x)
      (.constant ⟨2, .int .i32⟩ (.ofInt .i32 1)) none⟩
    l.IsAccepted ∧ ¬ l.Clashes ∧
      (l.overPlaceholders ((l.body.extractConstants : StateM Supply Extraction) ⟨3⟩).1).IsAccepted := by
  intro x l
  have hl : l.IsAccepted := by decide
  have hclear : ¬ l.Clashes := by
    rintro ⟨p, hp, hfree, -⟩
    obtain rfl : p = x := List.mem_singleton.1 hp
    exact hfree (by decide)
  exact ⟨hl, hclear, ((getOrCompile_parameterLists hl).1 ⟨3⟩).1.2 hclear⟩

/-- A lambda with a parameter that its body does not mention: the placeholder for the constant is
called like the parameter. -/
theorem parameterList_clash :
    let x : Param := ⟨0, 0, "p0", .int .i32⟩
    let l : Lambda := ⟨[x], .constant ⟨1, .int .i32⟩ (.ofInt .i32 1)⟩
    let k := l.overPlaceholders ((l.body.extractConstants : StateM Supply Extraction) ⟨2⟩).1
    l.IsAccepted ∧ l.ClashesAt x ∧ ¬ k.IsAccepted ∧ k.params.map Param.name = ["p0", "p0"] := by
  intro x l k
  have hl : l.IsAccepted := by decide
  have hclash : l.ClashesAt x := ⟨by decide, 0, rfl, by decide⟩
  exact ⟨hl, hclash, by decide, by decide⟩

end Cache

end ExprTree
