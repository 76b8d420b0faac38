import ExprTree.Canon.Substitute
import ExprTree.Proofs.Replacement
import ExprTree.Proofs.Scopes
import ExprTree.Proofs.Specialisation

/-!
# Substitution and specialisation

Replacements are put in the place of parameters in the plain way or in the specialising one. Both
walk the same body, so what they make of it is compared at every node of the body: the specialised
tree is related to the plain one by `Expr.Specialised`, whatever identities the two walks mint.

Three things that specialising does are seen when the tree is evaluated, and are left out here. A
field is looked up again, though reading one never dispatches, so a field that overrides another is
read in its place: `World.Disciplined` asks that only properties are overridden. A conversion that
unboxes reads the static type of what it converts, which a cast to `object` had set. An override
that links only the slot where a chain of overrides began is found from the slot, and not from what
stands between.

## Main definitions

* `Expr.SpecialisableAt`, `Lambda.Specialisable`: what specialising relies on.
* `Expr.Substituted`: what is known of the two trees that a node becomes.
* `Expr.Respecialised`: what specialising may make of a node.

## Main results

* `Expr.substituted_of_respecialised`: one step, from the children of a node to the node.
* `Lambda.specialise_agrees`: **specialisation is invisible**.
* `Lambda.specialise_reads_overriding_field`: where fields override each other it is not.
-/

set_option autoImplicit false

namespace ExprTree

open EvalM

namespace Expr

/-! ### What specialising relies on -/

/-- What specialising relies on at a node. The first four say that the node is built as nodes are:
its type, if that is a class, is known, members on an instance give the node its type and are
declared if some class has them, and a cast to a nullable type is lifted. The others leave out what
specialising does not keep: a conversion that unboxes sees whether a cast to `object` below it is
left out, a test that is no truth value is reported with its static type, and a coalesce node
applies a conversion only if no cast stands above it. -/
structure SpecialisableAt (w : World) (classes : ClassDef → Prop) (e : Expr) : Prop where
  known : ∀ {c}, e.ty = .ofClass c → classes c
  member : ∀ {s r m}, e = .member s (some r) m → m.flags.isStatic = false → s.ty = m.ty ∧
    ∀ {c m'}, classes c → w.dispatch.member c m = some m' → w.memberLookup.Declares classes m
  call : ∀ {s r m as}, e = .call s (some r) m as → m.flags.isStatic = false → s.ty = m.ret ∧
    ∀ {c m'}, classes c → w.dispatch.method c m = some m' → w.methodLookup.Declares classes m
  cast : e.isPlainCast = true → e.ty.isProper = true ∧ e.ty.isNullable = false
  unboxing : ∀ {s op lifted x}, e = .unary s op lifted none x →
    op = .convert ∨ op = .convertChecked → s.ty.isValueType = true → x.isPlainCast = true →
    x.ty ≠ .object
  test : ∀ {s t x y}, e = .conditional s t x y → t.isPlainCast = true → t.ty = .bool
  conversion : ∀ c ∈ e.conversion?, c.isPlainCast = false

/-- What is known of the trees that a node of a body becomes in the plain way and in the
specialising one. -/
structure Substituted (w : World) (classes : ClassDef → Prop) (e simple special : Expr) : Prop where
  specialised : Specialised w classes simple special
  known : ∀ {c}, special.ty = .ofClass c → classes c
  ty : simple.ty = special.ty ∨
    e.isPlainCast = true ∧ simple.ty = e.ty ∧ e.ty.accepts special.ty = true
  quote : e.lambda? = none → SameQuote simple special
  lambda : e.isPlainCast = false → simple.lambda?.isSome = special.lambda?.isSome

variable {w : World} {classes : ClassDef → Prop} {e e' simple special : Expr}

theorem Substituted.same (hknown : ∀ {c}, special.ty = .ofClass c → classes c) :
    Substituted w classes e special special where
  specialised := .same special
  known := hknown
  ty := .inl rfl
  quote _ := .inr rfl
  lambda _ := rfl

theorem Substituted.of_ty_eq {S : Expr → Expr → Prop} (he : e.SpecialisableAt w classes)
    (hsimple : Parallel S (SameParams S) e simple) (hty : e.ty = special.ty)
    (hlambda : e.lambda?.isSome = special.lambda?.isSome)
    (h : Specialised w classes simple special) : Substituted w classes e simple special where
  specialised := h
  known hc := he.known (hty.trans hc)
  ty := .inl (hsimple.ty_eq.symm.trans hty)
  quote hl := .inl (by simpa [hl] using hsimple.isSome_lambda?)
  lambda _ := hsimple.isSome_lambda?.symm.trans hlambda

theorem isPlainCast_unary {op : UnaryOp} (hop : op = .convert ∨ op = .typeAs) (s : Stamp)
    (x : Expr) : (unary s op false none x).isPlainCast = true := by
  rcases hop with rfl | rfl <;> rfl

theorem specialisableAt_parameter {p : Param}
    (hknown : ∀ {c}, p.ty = .ofClass c → classes c) :
    SpecialisableAt w classes (.parameter p) where
  known := hknown
  member h := nomatch h
  call h := nomatch h
  cast h := nomatch h
  unboxing h := nomatch h
  test h := nomatch h
  conversion _ h := nomatch h

theorem specialisableAt_member {n : NodeId} {r : Expr} {m : MemberDef}
    (hknown : ∀ {c}, m.ty = .ofClass c → classes c) (hm : w.memberLookup.Declares classes m) :
    SpecialisableAt w classes (.member ⟨n, m.ty⟩ (some r) m) where
  known := hknown
  member h _ := by
    cases h
    exact ⟨rfl, fun _ _ => hm⟩
  call h := nomatch h
  cast h := nomatch h
  unboxing h := nomatch h
  test h := nomatch h
  conversion _ h := nomatch h

/-- The static types that a node reads of its operands, where casts below it are left out. -/
theorem typesAlike_of_substituted (he : e.SpecialisableAt w classes)
    (hbelow : ∀ c ∈ e.children, c.SpecialisableAt w classes) {S T : Expr → Expr → Prop}
    (hsimple : Parallel S (SameParams S) e simple) (hspecial : Parallel T (SameParams T) e special)
    (h : ∀ c ∈ e.children, ∀ c₁ c₂, S c c₁ → T c c₂ → Substituted w classes c c₁ c₂) :
    TypesAlike simple special := by
  cases hsimple with
  | unary op lifted method hx =>
    cases hspecial with
    | unary _ _ _ hx' =>
      cases method with
      | some m => trivial
      | none =>
        intro v
        rcases (h _ List.mem_cons_self _ _ hx hx').ty with hty | ⟨hcast, hty, haccepts⟩
        · rw [hty]
        · refine Step.applyUnary_source lifted (fun hop hvalue => ?_) v
          have hproper := (hbelow _ List.mem_cons_self).cast hcast
          rw [hty]
          rcases Ty.eq_or_reference_of_accepts (he.unboxing rfl hop hvalue hcast) hproper.2 haccepts
            with heq | href
          · exact .inl heq.symm
          · exact .inr href
  | conditional ht hx hy =>
    cases hspecial with
    | conditional ht' _ _ =>
      rcases (h _ List.mem_cons_self _ _ ht ht').ty with hty | ⟨hcast, hty, haccepts⟩
      · exact hty
      · rw [he.test rfl hcast] at hty haccepts
        exact hty.trans (Ty.eq_of_accepts (.inl ⟨rfl, rfl⟩) haccepts).symm
  | _ => cases hspecial; trivial

/-- A node over substituted children. -/
theorem specialised_of_substituted (he : e.SpecialisableAt w classes)
    (hbelow : ∀ c ∈ e.children, c.SpecialisableAt w classes) {S T : Expr → Expr → Prop}
    (hsimple : Parallel S (SameParams S) e simple) (hspecial : Parallel T (SameParams T) e special)
    (h : ∀ c ∈ e.children, ∀ c₁ c₂, S c c₁ → T c c₂ → Substituted w classes c c₁ c₂)
    (hquotes : ∀ c ∈ e.operands, ∀ c₁ c₂, S c c₁ → T c c₂ → SameQuote c₁ c₂) :
    Specialised w classes simple special := by
  have hoperands := hsimple.operands_of_sameParams
  have hoperands' := hspecial.operands_of_sameParams
  have conversion {U : Expr → Expr → Prop}
      (hU : ∀ c ∈ e.conversion?, ∀ c₁ c₂, Substituted w classes c c₁ c₂ → U c₁ c₂) :
      Option.Rel U simple.conversion? special.conversion? :=
    optionRel_fork hsimple.conversion? hspecial.conversion?
      fun c hc c₁ c₂ h₁ h₂ => hU c hc c₁ c₂ (h c (mem_children_of_mem_conversion? hc) c₁ c₂ h₁ h₂)
  refine .node ?_ (typesAlike_of_substituted he hbelow hsimple hspecial h) ?_ ?_ ?_ ?_
  · refine (hsimple.flip.comp hspecial).imp_of_mem (fun _ _ _ _ _ => trivial) ?_
    rintro ps ps' b - b' - ⟨_, _, ⟨rfl, -⟩, rfl, -⟩
    rfl
  · exact forall₂_fork hoperands hoperands' fun c hc c₁ c₂ h₁ h₂ =>
      (h c (mem_children_of_mem_operands hc) c₁ c₂ h₁ h₂).specialised
  · exact forall₂_fork hoperands hoperands' hquotes
  · exact conversion fun _ _ _ _ h => h.specialised
  · exact conversion fun c hc _ _ h => h.lambda (he.conversion c hc)

/-! ### What specialising makes of a node -/

/-- What specialising may make of a node over specialised children. Identities from the bound on are
new. -/
inductive Respecialised (d : Dispatch) (bound : NodeId) (e : Expr) : Expr → Expr → Prop
  | asIs (e' : Expr) : Respecialised d bound e e' e'
  | member {s s' : Stamp} {n : NodeId} {old r : Expr} {m m' : MemberDef} {c : ClassDef}
      (he : e = .member s (some old) m) (hstatic : m.flags.isStatic = false)
      (hc : r.ty = .ofClass c) (hm : d.member c m = some m') (hne : m'.id ≠ m.id) (hn : bound ≤ n) :
      Respecialised d bound e (.member s' (some r) m) (.member ⟨n, m'.ty⟩ (some r) m')
  | call {s s' : Stamp} {n : NodeId} {old r : Expr} {m m' : MethodDef} {as olds : List Expr}
      {c : ClassDef} (he : e = .call s (some old) m olds) (hstatic : m.flags.isStatic = false)
      (hc : r.ty = .ofClass c) (hm : d.method c m = some m') (hn : bound ≤ n) :
      Respecialised d bound e (.call s' (some r) m as) (.call ⟨n, m'.ret⟩ (some r) m' as)
  | cast {s s' : Stamp} {op : UnaryOp} {old x : Expr} (he : e = .unary s op false none old)
      (hop : op = .convert ∨ op = .typeAs) (haccepts : s.ty.accepts x.ty = true) :
      Respecialised d bound e (.unary s' op false none x) ((Rewritten.replacing e x).on e)

/-- Specialisation as state passing. Dispatch stays what it is, and identities from a bound on are
new. -/
def specialiseView (d : Dispatch) (bound : NodeId) : StateView WorldM where
  State := World
  run x w := x w
  run_pure := @stateM_pure World
  run_bind := @stateM_bind World
  Inv w := w.dispatch = d ∧ bound ≤ w.supply.next
  le w w' := w'.dispatch = w.dispatch ∧ w.supply.next ≤ w'.supply.next
  le_refl _ := ⟨rfl, Nat.le_refl _⟩
  le_trans h h' := ⟨h'.1.trans h.1, Nat.le_trans h.2 h'.2⟩
  inv_of_le h h' := ⟨h'.1.trans h.1, Nat.le_trans h.2 h'.2⟩
  le_mint _ := ⟨rfl, Nat.le_succ _⟩

variable {d : Dispatch} {bound : NodeId}

theorem le_of_minted {w : World} {n : NodeId} (h : (specialiseView d bound).Minted w n) :
    bound ≤ n := by
  obtain ⟨t, ht, -, rfl⟩ := h
  exact ht.2

theorem from_resolveMember {w : World} (hw : (specialiseView d bound).Inv w) (c : ClassDef)
    (m : MemberDef) :
    (specialiseView d bound).From w (c.resolveMember m) fun _ answer => answer = d.member c m := by
  refine ⟨⟨World.dispatch_resolveMember c m w, ?_⟩, ?_⟩
  · change w.supply.next ≤ (c.resolveMember m w).2.supply.next
    unfold ClassDef.resolveMember
    split <;> exact Nat.le_refl _
  · exact (World.resolveMember_fst c m w).trans (by rw [hw.1])

theorem from_resolveMethod {w : World} (hw : (specialiseView d bound).Inv w) (c : ClassDef)
    (m : MethodDef) :
    (specialiseView d bound).From w (c.resolveMethod m) fun _ answer => answer = d.method c m := by
  refine ⟨⟨World.dispatch_resolveMethod c m w, ?_⟩, ?_⟩
  · change w.supply.next ≤ (c.resolveMethod m w).2.supply.next
    unfold ClassDef.resolveMethod
    split <;> exact Nat.le_refl _
  · exact (World.resolveMethod_fst c m w).trans (by rw [hw.1])

theorem ty_of_narrowedClass? {old new : Expr} {c : ClassDef} (h : narrowedClass? old new = some c) :
    new.ty = .ofClass c := by
  unfold narrowedClass? at h
  split at h
  · cases h
  · split at h
    · next hty =>
      cases h
      exact hty
    · cases h

theorem from_respecialiseMember {w : World} (hw : (specialiseView d bound).Inv w) {s s' : Stamp}
    {old receiver : Expr} {m : MemberDef} (hstatic : m.flags.isStatic = false) {r : Rewritten}
    (hr : r.on (.member s (some old) m) = .member s' (some receiver) m) :
    (specialiseView d bound).From w (respecialiseMember old m receiver r) fun _ r' =>
      Respecialised d bound (.member s (some old) m) (.member s' (some receiver) m)
        (r'.on (.member s (some old) m)) := by
  have kept {u : World} : (specialiseView d bound).From u (pure r) fun _ r' =>
      Respecialised d bound (.member s (some old) m) (.member s' (some receiver) m)
        (r'.on (.member s (some old) m)) :=
    .pure (hr ▸ .asIs _)
  unfold respecialiseMember
  split
  · exact kept
  · next c hc =>
    refine (from_resolveMember hw c m).bind fun t answer hwt hanswer => ?_
    split
    · exact kept
    · next target =>
      split
      · exact kept
      · next hne =>
        have built := StateView.From.mkMember ((specialiseView d bound).inv_of_le hw hwt)
          (some receiver) target
        refine built.bind fun u _ _ ⟨n, heq, hn⟩ => .pure ?_
        rw [Rewritten.on_changed, heq]
        exact .member rfl hstatic (ty_of_narrowedClass? hc) hanswer.symm hne (le_of_minted hn)

theorem from_respecialiseCall {w : World} (hw : (specialiseView d bound).Inv w) {s s' : Stamp}
    {old receiver : Expr} {m : MethodDef} {olds args : List Expr}
    (hstatic : m.flags.isStatic = false) {r : Rewritten}
    (hr : r.on (.call s (some old) m olds) = .call s' (some receiver) m args) :
    (specialiseView d bound).From w (respecialiseCall old m receiver args r) fun _ r' =>
      Respecialised d bound (.call s (some old) m olds) (.call s' (some receiver) m args)
        (r'.on (.call s (some old) m olds)) := by
  have kept {u : World} : (specialiseView d bound).From u (pure r) fun _ r' =>
      Respecialised d bound (.call s (some old) m olds) (.call s' (some receiver) m args)
        (r'.on (.call s (some old) m olds)) :=
    .pure (hr ▸ .asIs _)
  unfold respecialiseCall
  split
  · exact kept
  · next c hc =>
    refine (from_resolveMethod hw c m).bind fun t answer hwt hanswer => ?_
    split
    · exact kept
    · next target =>
      split
      · exact kept
      · have built := StateView.From.mkCall ((specialiseView d bound).inv_of_le hw hwt)
          (some receiver) target args
        refine built.bind fun u _ _ ⟨n, heq, hn⟩ => .pure ?_
        rw [Rewritten.on_changed, heq]
        exact .call rfl hstatic (ty_of_narrowedClass? hc) hanswer.symm (le_of_minted hn)

/-- What specialising makes of a node. -/
theorem from_respecialise {w : World} (hw : (specialiseView d bound).Inv w)
    {S : Expr → Expr → Prop} {B : List Param → List Param → Expr → Expr → Prop} {e e' : Expr}
    {r : Rewritten} (hr : r.on e = e') (h : Parallel S B e e') :
    (specialiseView d bound).From w (e.respecialise r) fun _ r' =>
      Respecialised d bound e e' (r'.on e) := by
  have kept : (specialiseView d bound).From w (pure r) fun _ r' =>
      Respecialised d bound e e' (r'.on e) :=
    .pure (hr ▸ .asIs _)
  unfold respecialise
  rw [hr]
  cases h with
  | member hr' m =>
    cases hr' with
    | none => exact kept
    | some _ =>
      dsimp only
      split
      · exact kept
      · next hstatic => exact from_respecialiseMember hw (Bool.eq_false_iff.2 hstatic) hr
  | call hr' m has =>
    cases hr' with
    | none => exact kept
    | some _ =>
      dsimp only
      split
      · exact kept
      · next hstatic => exact from_respecialiseCall hw (Bool.eq_false_iff.2 hstatic) hr
  | unary op lifted method hx =>
    dsimp only
    split
    · next hcond =>
      simp only [Bool.and_eq_true] at hcond
      obtain ⟨⟨hcast, -⟩, haccepts⟩ := hcond
      unfold isPlainCast at hcast
      split at hcast
      · next heq =>
        cases heq
        exact .pure (.cast rfl (.inl rfl) haccepts)
      · next heq =>
        cases heq
        exact .pure (.cast rfl (.inr rfl) haccepts)
      · cases hcast
    · exact kept
  | _ => exact kept

/-- What specialising makes of a node is an old tree or new, if the node and its children are. -/
theorem Respecialised.node {P : Expr → Prop} (h : Respecialised d bound e e' special)
    (he' : P e' ∨ bound ≤ e'.node) (hchildren : ∀ x ∈ e'.children, P x ∨ bound ≤ x.node)
    (hkeep : ∀ x ∈ e'.children, (Rewritten.replacing e x).on e = x) :
    P special ∨ bound ≤ special.node := by
  cases h with
  | asIs => exact he'
  | member _ _ _ _ _ hn => exact .inr hn
  | call _ _ _ _ hn => exact .inr hn
  | cast =>
    rw [hkeep _ List.mem_cons_self]
    exact hchildren _ List.mem_cons_self

/-- Specialising keeps what is kept. -/
theorem respecialise_kept (e : Expr) : e.respecialise .kept = pure .kept := by
  cases e with
  | member s r m => cases r <;> simp [respecialise, respecialiseMember, narrowedClass?]
  | call s r m as => cases r <;> simp [respecialise, respecialiseCall, narrowedClass?]
  | unary => simp [respecialise]
  | _ => rfl

/-- The trees that a node becomes, from those that its children become. -/
theorem substituted_of_respecialised (hw : w.Disciplined classes) (he : e.SpecialisableAt w classes)
    (hbelow : ∀ c ∈ e.children, c.SpecialisableAt w classes) {S T : Expr → Expr → Prop}
    (hsimple : Parallel S (SameParams S) e simple) (hspecial : Parallel T (SameParams T) e e')
    (h : ∀ c ∈ e.children, ∀ c₁ c₂, S c c₁ → T c c₂ → Substituted w classes c c₁ c₂)
    (hquotes : ∀ c ∈ e.operands, ∀ c₁ c₂, S c c₁ → T c c₂ → SameQuote c₁ c₂)
    (hrespecialised : Respecialised w.dispatch bound e e' special)
    (hkeep : ∀ x ∈ e'.children, (Rewritten.replacing e x).on e = x) :
    Substituted w classes e simple special := by
  cases hrespecialised with
  | asIs _ =>
    exact .of_ty_eq he hsimple hspecial.ty_eq hspecial.isSome_lambda?
      (specialised_of_substituted he hbelow hsimple hspecial h hquotes)
  | member heq hstatic hc hm hne hn =>
    subst heq
    obtain ⟨hty, hdeclared⟩ := he.member rfl hstatic
    cases hsimple with
    | member hr _ =>
    cases hspecial with
    | member hr' _ =>
    cases hr with
    | some hr =>
    cases hr' with
    | some hr' =>
    have receiver := h _ List.mem_cons_self _ _ hr hr'
    have hclass := receiver.known hc
    have hslot : w.memberLookup.IsSlot classes _ := ⟨hdeclared hclass hm, hstatic⟩
    have hty' := hty.trans (hw.member_like hclass hslot hm).2.1.symm
    exact .of_ty_eq he (.member (.some hr) _) hty' rfl (.member receiver.specialised
      (hquotes _ List.mem_cons_self _ _ hr hr') hc hclass hslot hm hne hty rfl)
  | call heq hstatic hc hm hn =>
    subst heq
    obtain ⟨hty, hdeclared⟩ := he.call rfl hstatic
    cases hsimple with
    | call hr _ has =>
    cases hspecial with
    | call hr' _ has' =>
    cases hr with
    | some hr =>
    cases hr' with
    | some hr' =>
    have receiver := h _ List.mem_cons_self _ _ hr hr'
    have hclass := receiver.known hc
    have hslot : w.methodLookup.IsSlot classes _ := ⟨hdeclared hclass hm, hstatic⟩
    have hty' := hty.trans (hw.method_like hclass hslot hm).2.1.symm
    have args := forall₂_fork has has' fun c hc c₁ c₂ h₁ h₂ =>
      (h c (List.mem_cons_of_mem _ hc) c₁ c₂ h₁ h₂).specialised
    have quotes := forall₂_fork has has' fun c hc => hquotes c (List.mem_cons_of_mem _ hc)
    exact .of_ty_eq he (.call (.some hr) _ has) hty' rfl (.call receiver.specialised
      (hquotes _ List.mem_cons_self _ _ hr hr') hc hclass hslot hm args quotes hty rfl)
  | cast heq hop haccepts =>
    subst heq
    rw [hkeep _ List.mem_cons_self]
    cases hsimple with
    | unary _ _ _ hx =>
    cases hspecial with
    | unary _ _ _ hx' =>
    have operand := h _ List.mem_cons_self _ _ hx hx'
    have hcast := isPlainCast_unary hop
    obtain ⟨hproper, hnullable⟩ := he.cast (hcast _ _)
    exact {
      specialised := .cast hop operand.specialised (hquotes _ List.mem_cons_self _ _ hx hx')
        hproper hnullable haccepts
      known := operand.known
      ty := .inr ⟨hcast _ _, rfl, haccepts⟩
      quote := fun _ => .inl rfl
      lambda := fun h => nomatch (hcast _ _).symm.trans h }

end Expr

/-! ### Replacements -/

namespace Replacements

/-- Whether a node is a parameter that is replaced. -/
def Names (r : Replacements) (e : Expr) : Prop := (r.replace e : Option (WorldM Rewritten)) ≠ none

/-- The tree with every replacement put in. -/
def PutIn (r : Replacements) : Expr → Expr → Prop :=
  Expr.Replaced r.Names fun e new => ∃ p, e = .parameter p ∧ r.lookup p.id = some new

variable {m : Type → Type} [Monad m] {r : Replacements} {e : Expr}

theorem replace_eq_some {answer : m Rewritten} (h : r.replace e = some answer) :
    ∃ p new, e = .parameter p ∧ r.lookup p.id = some new ∧ answer = pure (putting p new) := by
  unfold replace at h
  split at h
  · next p =>
    simp only [at?, Option.map_map, Option.map_eq_some_iff, Function.comp_apply] at h
    obtain ⟨new, hnew, rfl⟩ := h
    exact ⟨p, new, rfl, hnew, rfl⟩
  · cases h

/-- Which nodes are replaced does not depend on the monad. -/
theorem replace_ne_none : (fun d => (r.replace d : Option (m Rewritten)) ≠ none) = r.Names := by
  funext d
  cases d <;> simp [Names, replace]

theorem Names.exists_lookup (h : r.Names e) :
    ∃ p new, e = .parameter p ∧ r.lookup p.id = some new := by
  obtain ⟨answer, h⟩ := Option.ne_none_iff_exists'.1 h
  obtain ⟨p, new, heq, hnew, -⟩ := replace_eq_some h
  exact ⟨p, new, heq, hnew⟩

theorem names_of_lookup {p : Param} {new : Expr} (h : r.lookup p.id = some new) :
    r.Names (.parameter p) := by
  simp [Names, replace, at?, h]

theorem lookup_of_not_names {p : Param} (h : ¬r.Names (.parameter p)) : r.lookup p.id = none := by
  by_contra hsome
  obtain ⟨new, hnew⟩ := Option.ne_none_iff_exists'.1 hsome
  exact h (names_of_lookup hnew)

/-- What putting a replacement in for one parameter ensures. -/
theorem from_replace [MonadMint m] {V : StateView m} {s : V.State}
    {T : V.State → Expr → Expr → Prop}
    (hT : ∀ p new, e = .parameter p → r.lookup p.id = some new → T s e new)
    {answer : m Rewritten} (h : r.replace e = some answer) :
    V.From s answer fun t res => T t e (res.on e) := by
  obtain ⟨p, new, rfl, hnew, rfl⟩ := replace_eq_some h
  refine .pure ?_
  rw [on_putting]
  exact hT p new rfl hnew

/-- What substituting makes of a tree. -/
theorem from_substitute [MonadMint m] [LawfulMonad m] {V : StateView m} (r : Replacements)
    (e : Expr) {s : V.State} (hs : V.Inv s) :
    V.From s (e.rewrite r.replace Expr.asIs) fun _ res => r.PutIn e (res.on e) := by
  have replaced := V.from_rewrite_replaced
    (T := fun _ e new => ∃ p, e = .parameter p ∧ r.lookup p.id = some new) (fun _ _ _ h => h)
    (fun _ _ h _ _ => from_replace
      (T := fun _ e new => ∃ p, e = .parameter p ∧ r.lookup p.id = some new)
      (fun p _ heq hnew => ⟨p, heq, hnew⟩) h) e hs
  rwa [replace_ne_none] at replaced

end Replacements

namespace Lambda

/-- Whether a parameter of the lambda occurs in a tree. -/
def OccursIn (l : Lambda) (e : Expr) : Prop := ∃ p ∈ e.occurrences, p.id ∈ l.params.map Param.id

variable {l : Lambda} {replacements : List Expr} {r : Replacements} {e : Expr}

theorem fits_of_misfit? {i : Nat} {ps : List Param} {es : List Expr} (h : misfit? i ps es = none) :
    ∀ pe ∈ ps.zip es, pe.1.ty.accepts pe.2.ty = true := by
  induction ps generalizing i es with
  | nil => simp
  | cons p ps ih =>
    cases es with
    | nil => simp
    | cons e es =>
      unfold misfit? at h
      split at h
      · next hfits =>
        rw [List.zip_cons_cons, List.forall_mem_cons]
        exact ⟨hfits, ih h⟩
      · cases h

/-- Replacements that are bound fit their parameters. -/
theorem fits_of_bind (hbind : l.bind replacements = .ok r) :
    l.params.length = replacements.length ∧
      (∀ pe ∈ l.params.zip replacements, pe.1.ty.accepts pe.2.ty = true) ∧
      r = ((l.params.zip replacements).map fun (p, e) => (p.id, e)).reverse := by
  unfold bind at hbind
  split at hbind
  · cases hbind
  · next hlength =>
    split at hbind
    · cases hbind
    · next hfits =>
      cases hbind
      exact ⟨not_not.1 hlength, fits_of_misfit? hfits, rfl⟩

/-- What is put in for a parameter is the replacement of one of its identity. -/
theorem exists_of_bind (hbind : l.bind replacements = .ok r) {id : ParamId} {new : Expr}
    (h : r.lookup id = some new) : ∃ p, (p, new) ∈ l.params.zip replacements ∧ p.id = id := by
  have hmem : (id, new) ∈ r := by
    obtain ⟨before, after, rfl, -⟩ := List.lookup_eq_some_iff.1 h
    exact List.mem_append_right _ List.mem_cons_self
  rw [(fits_of_bind hbind).2.2] at hmem
  obtain ⟨⟨p, new'⟩, hzip, heq⟩ := List.mem_map.1 (List.mem_reverse.1 hmem)
  cases heq
  exact ⟨p, hzip, rfl⟩

theorem mem_of_bind (hbind : l.bind replacements = .ok r) {id : ParamId} {new : Expr}
    (h : r.lookup id = some new) : id ∈ l.params.map Param.id ∧ new ∈ replacements := by
  obtain ⟨p, hzip, rfl⟩ := exists_of_bind hbind h
  exact ⟨List.mem_map_of_mem (List.of_mem_zip hzip).1, (List.of_mem_zip hzip).2⟩

/-- What is put in for a parameter is assignable to it. -/
theorem accepts_of_bind (hbind : l.bind replacements = .ok r) {id : ParamId} {new : Expr}
    (h : r.lookup id = some new) : ∃ p ∈ l.params, p.id = id ∧ p.ty.accepts new.ty = true := by
  obtain ⟨p, hzip, hid⟩ := exists_of_bind hbind h
  exact ⟨p, (List.of_mem_zip hzip).1, hid, (fits_of_bind hbind).2.1 _ hzip⟩

/-- Nothing is replaced in a tree without parameters of the lambda. -/
theorem without_of_not_occursIn (hbind : l.bind replacements = .ok r) (h : ¬l.OccursIn e) :
    Expr.Without r.Names e := by
  intro d hd hnames
  obtain ⟨p, new, rfl, hnew⟩ := hnames.exists_lookup
  exact h ⟨p, Expr.mem_occurrences hd, (mem_of_bind hbind hnew).1⟩

/-- What specialising a lambda relies on. Nodes are told apart by their identities, which were
minted before, and classes that are static types are known. A quote is another value if something is
replaced in it. -/
structure Specialisable (w : World) (classes : ClassDef → Prop) (l : Lambda)
    (replacements : List Expr) : Prop where
  nodes : ∀ x ∈ l.body.preOrder, x.SpecialisableAt w classes
  types : ∀ x ∈ replacements, ∀ {c}, x.ty = .ofClass c → classes c
  minted : ∀ x ∈ l.body.preOrder, x.node < w.supply.next
  identities : ∀ x ∈ l.body.preOrder, ∀ y ∈ l.body.preOrder ++ replacements, x.node = y.node → x = y
  quote : l.body.lambda? = none ∨ ¬l.OccursIn l.body
  quotes : ∀ x ∈ l.body.preOrder, ∀ c ∈ x.operands, c.lambda? = none ∨ ¬l.OccursIn c

/-- What is known of what specialising makes of a node of the body. -/
structure Becomes (w : World) (classes : ClassDef → Prop) (l : Lambda) (replacements : List Expr)
    (r : Replacements) (e special : Expr) : Prop where
  idle : Expr.Without r.Names e → special = e
  node : e ∈ l.body.preOrder →
    special ∈ l.body.preOrder ++ replacements ∨ w.supply.next ≤ special.node
  substituted : e ∈ l.body.preOrder → ∀ {simple}, r.PutIn e simple →
    Expr.Substituted w classes e simple special

variable {w : World} {classes : ClassDef → Prop} {special simple : Expr}

/-- Both trees are the same where there is a quote. -/
theorem Becomes.sameQuote (hbind : l.bind replacements = .ok r)
    (h : l.Becomes w classes replacements r e special) (he : e ∈ l.body.preOrder)
    (hquote : e.lambda? = none ∨ ¬l.OccursIn e) (hput : r.PutIn e simple) :
    simple.SameQuote special := by
  rcases hquote with hquote | hquote
  · exact (h.substituted he hput).quote hquote
  · have hidle := without_of_not_occursIn hbind hquote
    exact .inr ((h.idle hidle).trans ((hput.parallel (Expr.without_iff.1 hidle).1).2 hidle).symm)

theorem becomes_of_without (hl : l.Specialisable w classes replacements)
    (hidle : Expr.Without r.Names e) : l.Becomes w classes replacements r e e where
  idle _ := rfl
  node he := .inl (List.mem_append_left _ he)
  substituted he simple hput := by
    rw [(hput.parallel (Expr.without_iff.1 hidle).1).2 hidle]
    exact .same (hl.nodes e he).known

theorem becomes_of_lookup (hbind : l.bind replacements = .ok r)
    (hl : l.Specialisable w classes replacements) {p : Param} {new : Expr}
    (hnew : r.lookup p.id = some new) :
    l.Becomes w classes replacements r (.parameter p) new := by
  have hnames := Replacements.names_of_lookup hnew
  have hmem := (mem_of_bind hbind hnew).2
  refine ⟨fun hidle => ((Expr.without_iff.1 hidle).1 hnames).elim,
    fun _ => .inl (List.mem_append_right _ hmem), fun _ simple hput => ?_⟩
  obtain ⟨q, heq, hsimple⟩ := hput.leaf_of_hit hnames
  cases heq
  cases hnew.symm.trans hsimple
  exact .same (hl.types new hmem)

/-- What a node becomes, from what its children become. -/
theorem becomes_of_respecialised (hw : w.Disciplined classes) (hbind : l.bind replacements = .ok r)
    (hl : l.Specialisable w classes replacements) {e' : Expr} (hnames : ¬r.Names e)
    (hsome : ¬Expr.Without r.Names e)
    (hchildren : Expr.Parallel (l.Becomes w classes replacements r)
      (Expr.SameParams (l.Becomes w classes replacements r)) e e')
    (hnode : e' = e ∨ w.supply.next ≤ e'.node)
    (h : Expr.Respecialised w.dispatch w.supply.next e e' special) :
    l.Becomes w classes replacements r e special := by
  have below {c : Expr} (he : e ∈ l.body.preOrder) (hc : c ∈ e.children) : c ∈ l.body.preOrder :=
    Expr.mem_preOrder_trans he (Expr.mem_preOrder_of_mem_children hc)
  have child (he : e ∈ l.body.preOrder) : ∀ x ∈ e'.children,
      x ∈ l.body.preOrder ++ replacements ∨ w.supply.next ≤ x.node :=
    forall_right_of_forall₂ (hchildren.children fun _ _ _ _ h => h.2) fun c hc x h =>
      h.node (below he hc)
  -- a child of the node is not the node itself, unless it is the very same tree
  have keep (he : e ∈ l.body.preOrder) :
      ∀ x ∈ e'.children, (Rewritten.replacing e x).on e = x := by
    intro x hx
    unfold Rewritten.replacing
    split
    · next hsame =>
      have hsame : e.node = x.node := by simpa [Expr.same] using hsame
      rcases child he x hx with hold | hnew
      · exact hl.identities e he x hold hsame
      · exact absurd (hl.minted e he) (Nat.not_lt.2 (hsame ▸ hnew))
    · rfl
  refine ⟨fun hidle => (hsome hidle).elim, fun he => ?_, fun he simple hput => ?_⟩
  · refine h.node (P := (· ∈ l.body.preOrder ++ replacements)) ?_ (child he) (keep he)
    rcases hnode with rfl | hnew
    · exact .inl (List.mem_append_left _ he)
    · exact .inr hnew
  · exact Expr.substituted_of_respecialised hw (hl.nodes e he)
      (fun c hc => hl.nodes c (below he hc)) (hput.parallel hnames).1 hchildren
      (fun c hc _ _ h₁ h₂ => h₂.substituted (below he hc) h₁)
      (fun c hc _ _ h₁ h₂ => h₂.sameQuote hbind
        (below he (Expr.mem_children_of_mem_operands hc)) (hl.quotes e he c hc) h₁) h (keep he)

/-- What specialising makes of the body. -/
theorem from_specialise (hw : w.Disciplined classes) (hbind : l.bind replacements = .ok r)
    (hl : l.Specialisable w classes replacements) (e : Expr) {s : World}
    (hs : (Expr.specialiseView w.dispatch w.supply.next).Inv s) :
    (Expr.specialiseView w.dispatch w.supply.next).From s (e.rewrite r.replace Expr.respecialise)
      fun _ res => l.Becomes w classes replacements r e (res.on e) := by
  refine StateView.from_rewrite (T := fun _ => l.Becomes w classes replacements r)
    (fun _ _ _ h => h) Expr.respecialise_kept (fun _ hidle _ => becomes_of_without hl hidle) ?_ ?_
    e hs
  · intro e answer hanswer s _
    refine Replacements.from_replace (fun p new heq hnew => ?_) hanswer
    subst heq
    exact becomes_of_lookup hbind hl hnew
  · intro e hnone hsome s res hs hchildren hnode
    refine (Expr.from_respecialise hs rfl hchildren).imp fun _ res' _ h => ?_
    exact becomes_of_respecialised hw hbind hl (not_not.2 hnone) hsome hchildren
      (hnode.imp_right Expr.le_of_minted) h

/-- Substitution runs a rewrite of the body, also where there are no parameters: there is nothing to
replace then. -/
theorem rewrite_run {m : Type → Type} [Monad m] [MonadMint m] [LawfulMonad m]
    (hbind : l.bind replacements = .ok r) {after : Expr → Rewritten → m Rewritten}
    (hkept : ∀ e, after e .kept = pure .kept) :
    (do
      let r ← l.bind replacements
      if l.params.isEmpty then return .kept else ExceptT.lift (l.body.rewrite r.replace after) :
        ExceptT SubstituteError m Rewritten).run = .ok <$> l.body.rewrite r.replace after := by
  have bound : (liftM (Except.ok r : Except SubstituteError Replacements) :
      ExceptT SubstituteError m Replacements) = pure r := rfl
  rw [hbind, bound, pure_bind]
  cases hempty : l.params.isEmpty with
  | true =>
    have hidle : ¬l.OccursIn l.body := by
      rintro ⟨p, -, hp⟩
      rw [List.isEmpty_iff.1 hempty] at hp
      cases hp
    have nothing := without_of_not_occursIn hbind hidle
    rw [← Replacements.replace_ne_none (m := m)] at nothing
    rw [Expr.rewrite_eq_kept (fun d _ => hkept d) nothing, map_pure]
    rfl
  | false => rfl

theorem run_substitute {m : Type → Type} [Monad m] [MonadMint m] [LawfulMonad m]
    (hbind : l.bind replacements = .ok r) :
    (l.substitute replacements : ExceptT SubstituteError m Rewritten).run =
      .ok <$> l.body.rewrite r.replace Expr.asIs :=
  rewrite_run hbind fun _ => rfl

theorem substitute_run (hbind : l.bind replacements = .ok r) (w : World) :
    (l.substitute (m := WorldM) replacements).run w =
      (.ok (l.body.rewrite (m := WorldM) r.replace Expr.asIs w).1,
        (l.body.rewrite (m := WorldM) r.replace Expr.asIs w).2) :=
  congrFun (run_substitute (m := WorldM) hbind) w

theorem specialise_run (hbind : l.bind replacements = .ok r) (w : World) :
    (l.specialise replacements).run w =
      (.ok (l.body.rewrite r.replace Expr.respecialise w).1,
        (l.body.rewrite r.replace Expr.respecialise w).2) :=
  congrFun (rewrite_run hbind Expr.respecialise_kept) w

/-- **Specialisation is invisible.** In a frame where values keep to the static types, the body with
replacements put in and the body that is specialised to them come to equal values or fail with the
same root cause, and they run the same code in the same order. -/
theorem specialise_agrees {host : Host} (hhost : host.IsSteady) (hw : w.Disciplined classes)
    (hbind : l.bind replacements = .ok r) (hl : l.Specialisable w classes replacements) :
    ∃ simple special w₁ w₂, (l.substitute (m := WorldM) replacements).run w = (.ok simple, w₁) ∧
      (l.specialise replacements).run w = (.ok special, w₂) ∧
      w₁.dispatch = w.dispatch ∧ w₂.dispatch = w.dispatch ∧
      ∀ frame, Expr.TypedIn host w.dispatch classes frame (simple.on l.body) →
        EvalM.Simulates host (World.Abreast w.dispatch) Eq
          ((simple.on l.body).interpret .native frame)
          ((special.on l.body).interpret .native frame) := by
  have hs : (Expr.specialiseView w.dispatch w.supply.next).Inv w := ⟨rfl, Nat.le_refl _⟩
  have hself := Expr.mem_preOrder_self l.body
  have plain := Replacements.from_substitute r l.body hs
  have specialised := from_specialise hw hbind hl l.body hs
  refine ⟨_, _, _, _, substitute_run hbind w, specialise_run hbind w, plain.1.1, specialised.1.1,
    fun frame htyped => ?_⟩
  have hsame := specialised.2.sameQuote hbind hself hl.quote plain.2
  have agrees := (specialised.2.substituted hself plain.2).specialised.agrees hw hhost
  exact (agrees.tree hsame frame htyped).simulates

/-- The theorem for `b => b.f` and a replacement of a derived class, where two classes override `f`
one after the other. The specialised body asks for the override of the first. -/
theorem specialise_agrees_overridden :
    let base : ClassDef := ⟨0, "Base", .concrete, none, []⟩
    let derived : ClassDef := ⟨1, "Derived", .concrete, some base, []⟩
    let leaf : ClassDef := ⟨2, "Leaf", .concrete, some derived, []⟩
    let f : MemberDef := ⟨0, "f", .property, .int .i32, {}, [], none⟩
    let g : MemberDef := ⟨1, "f", .property, .int .i32, {}, [0], none⟩
    let h : MemberDef := ⟨2, "f", .property, .int .i32, {}, [1, 0], none⟩
    let w : World :=
      { supply := ⟨3⟩, declared := fun i => { members := [[f], [g], [h]][i]?.getD [] } }
    let host : Host := ⟨fun id => some fun _ _ => pure (.ofInt .i32 id)⟩
    let b : Param := ⟨0, 0, "b", .ofClass base⟩
    let d : Param := ⟨1, 1, "d", .ofClass derived⟩
    let l : Lambda := ⟨[b], .member ⟨2, .int .i32⟩ (some (.parameter b)) f⟩
    let simple : Expr := .member ⟨3, .int .i32⟩ (some (.parameter d)) f
    let special : Expr := .member ⟨4, .int .i32⟩ (some (.parameter d)) g
    let frame : Frame := [(1, .object 0 leaf [])]
    w.Disciplined (· ∈ [base, derived, leaf]) ∧
      l.Specialisable w (· ∈ [base, derived, leaf]) [.parameter d] ∧
      (∃ w', (l.substitute (m := WorldM) [.parameter d]).run w = (.ok (.changed simple), w')) ∧
      (∃ w', (l.specialise [.parameter d]).run w = (.ok (.changed special), w')) ∧
      EvalM.Simulates host (World.Abreast w.dispatch) Eq (simple.interpret .native frame)
        (special.interpret .native frame) := by
  intro base derived leaf f g h w host b d l simple special frame
  have hhost : host.IsSteady := by
    refine Host.IsPure.isSteady fun id body hbody => ?_
    cases hbody
    exact ⟨fun _ _ => .ok (.ofInt .i32 id), fun _ _ _ => rfl⟩
  have hw : w.Disciplined (· ∈ [base, derived, leaf]) := by decide +kernel
  have hl : l.Specialisable w (· ∈ [base, derived, leaf]) [.parameter d] := by
    have nodes : l.body.preOrder = [l.body, .parameter b] := rfl
    refine ⟨?_, ?_, ?_, ?_, .inl rfl, ?_⟩
    · have hdeclared : w.memberLookup.Declares (· ∈ [base, derived, leaf]) f := ⟨base, by decide⟩
      have body : l.body.SpecialisableAt w (· ∈ [base, derived, leaf]) :=
        Expr.specialisableAt_member (by intro c hc; cases hc) hdeclared
      have receiver : (Expr.parameter b).SpecialisableAt w (· ∈ [base, derived, leaf]) :=
        Expr.specialisableAt_parameter fun hc => by
          cases hc
          exact List.mem_cons_self
      rw [nodes]
      exact List.forall_mem_cons.2 ⟨body, List.forall_mem_singleton.2 receiver⟩
    · rintro x hx c hc
      cases List.mem_singleton.1 hx
      cases hc
      exact List.mem_cons_of_mem _ List.mem_cons_self
    · rw [nodes]
      decide
    · rw [nodes]
      simp [l, Expr.node, Expr.stamp, b, d]
    · rw [nodes]
      exact List.forall_mem_cons.2 ⟨List.forall_mem_singleton.2 (.inl rfl),
        List.forall_mem_singleton.2 fun c hc => by cases hc⟩
  obtain ⟨_, _, w₁, w₂, hsimple, hspecial, -, -, hagree⟩ :=
    specialise_agrees (r := [(0, .parameter d)]) hhost hw (by rfl) hl
  have hsimple' :
      (l.substitute (m := WorldM) [.parameter d]).run w = (.ok (.changed simple), _) := rfl
  have hspecial' : (l.specialise [.parameter d]).run w = (.ok (.changed special), _) := rfl
  cases hsimple'.symm.trans hsimple
  cases hspecial'.symm.trans hspecial
  refine ⟨hw, hl, ⟨_, hsimple'⟩, ⟨_, hspecial'⟩, hagree frame ?_⟩
  refine Expr.typedIn_member (v := .object 0 leaf []) (fun c => by simp) rfl fun c hc => ?_
  cases hc
  exact .inr ⟨leaf, rfl, by decide, rfl, by decide⟩

/-- Fields do not dispatch, but they are looked up again as properties are. Where a field overrides
another one, the specialised body reads the other field of an object. -/
theorem specialise_reads_overriding_field :
    let base : ClassDef := ⟨0, "Base", .concrete, none, []⟩
    let derived : ClassDef := ⟨1, "Derived", .concrete, some base, []⟩
    let f : MemberDef := ⟨0, "f", .field, .int .i32, {}, [], none⟩
    let g : MemberDef := ⟨1, "f", .field, .int .i32, {}, [0], none⟩
    let w : World := { supply := ⟨3⟩, declared := fun i => { members := [[f], [g]][i]?.getD [] } }
    let host : Host := ⟨fun id => some fun _ _ => pure (.ofInt .i32 id)⟩
    let b : Param := ⟨0, 0, "b", .ofClass base⟩
    let d : Param := ⟨1, 1, "d", .ofClass derived⟩
    let l : Lambda := ⟨[b], .member ⟨2, .int .i32⟩ (some (.parameter b)) f⟩
    let simple : Expr := .member ⟨3, .int .i32⟩ (some (.parameter d)) f
    let special : Expr := .member ⟨4, .int .i32⟩ (some (.parameter d)) g
    let frame : Frame := [(1, .object 0 derived [])]
    (∃ w', (l.substitute (m := WorldM) [.parameter d]).run w = (.ok (.changed simple), w')) ∧
      (∃ w', (l.specialise [.parameter d]).run w = (.ok (.changed special), w')) ∧
      Expr.TypedIn host w.dispatch (· ∈ [base, derived]) frame simple ∧
      ((simple.interpret .native frame).outcome host w).1 = .ok (.ofInt .i32 0) ∧
      ((special.interpret .native frame).outcome host w).1 = .ok (.ofInt .i32 1) ∧
      ¬Outcome.Agree Eq ((simple.interpret .native frame).outcome host w).1
        ((special.interpret .native frame).outcome host w).1 := by
  intro base derived f g w host b d l simple special frame
  have hsimple : ((simple.interpret .native frame).outcome host w).1 = .ok (.ofInt .i32 0) := rfl
  have hspecial : ((special.interpret .native frame).outcome host w).1 = .ok (.ofInt .i32 1) := rfl
  refine ⟨⟨_, rfl⟩, ⟨_, rfl⟩, ?_, hsimple, hspecial, ?_⟩
  · refine Expr.typedIn_member (v := .object 0 derived []) (fun c => by simp) rfl fun c hc => ?_
    cases hc
    exact .inr ⟨derived, rfl, by decide, rfl, by decide⟩
  · rw [hsimple, hspecial]
    intro hagree
    cases hagree

end Lambda

end ExprTree
