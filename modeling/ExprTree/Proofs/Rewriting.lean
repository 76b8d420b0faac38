import ExprTree.Expr.Rewrite
import ExprTree.Proofs.Parallel
import ExprTree.World

/-!
# What a rewrite makes of a tree

A rewrite puts other children below a node and leaves the rest of the node alone, so a property of a
rewrite is proved one level at a time, from the answers for the children to the answer for the node.

The hooks of a rewrite have effects: they mint identities, collect what they find, or evaluate. A
`StateView` is a monad looked at as state passing, with an invariant of the states and an order in
which they follow each other, and `StateView.From` is what a computation ensures when it is started
in a state. What the answers for the children ensure has to stay true while the answers for the
other children are computed.

## Main definitions

* `Expr.regrow`: the part of a step that comes after the children.
* `StateView`, `StateView.From`: a monad as state passing, and what a computation ensures.
* `supplyView`, `mintingView`: minting as state passing.

## Main results

* `StateView.From.regrow`: a node becomes the node over what its children become.
* `StateView.From.mapChildren`: what one step of a rewrite ensures.
* `StateView.from_rewrite_chain`: what a rewrite ensures, where the order of its steps has a say.
* `StateView.from_rewrite_after`: what a rewrite ensures that works from the leaves up.
-/

set_option autoImplicit false

namespace ExprTree

/-! ### One level -/

namespace Expr

variable {m : Type → Type} [Monad m] [MonadMint m]

/-- The step of a rewrite once there are answers for the children: a new node, if one of them has
become another node. -/
def regrow (e : Expr) (answers : List Rewritten) : m Rewritten := do
  if answers.all Rewritten.isKept then return .kept
  else return .changed (e.rebuild (← mint) (List.zipWith Rewritten.on e.children answers))

theorem mapChildren_eq (e : Expr) (answers : List (m Rewritten)) :
    e.mapChildren answers = answers.mapM id >>= e.regrow :=
  rfl

end Expr

/-! ### Monads as state passing -/

/-- A monad looked at as state passing. The states that the invariant holds of follow each other in
an order, and minting goes along it. -/
structure StateView (m : Type → Type) [Monad m] [MonadMint m] where
  State : Type
  run : {α : Type} → m α → State → α × State
  run_pure : ∀ {α : Type} (a : α) (s : State), run (pure a) s = (a, s)
  run_bind : ∀ {α β : Type} (x : m α) (f : α → m β) (s : State),
    run (x >>= f) s = run (f (run x s).1) (run x s).2
  Inv : State → Prop
  le : State → State → Prop
  le_refl : ∀ s, le s s
  le_trans : ∀ {s t u}, le s t → le t u → le s u
  inv_of_le : ∀ {s t}, Inv s → le s t → Inv t
  le_mint : ∀ {s}, Inv s → le s (run mint s).2

namespace StateView

variable {m : Type → Type} [Monad m] [MonadMint m] (V : StateView m) {α β : Type}

/-- Started in `s`, the computation goes along the order, and `Q` holds of the state and the result
that it ends with. -/
def From (s : V.State) (x : m α) (Q : V.State → α → Prop) : Prop :=
  V.le s (V.run x s).2 ∧ Q (V.run x s).2 (V.run x s).1

variable {V} {s : V.State} {x : m α} {P Q : V.State → α → Prop}

theorem From.pure {a : α} (h : Q s a) : V.From s (Pure.pure a) Q := by
  unfold From
  rw [V.run_pure]
  exact ⟨V.le_refl s, h⟩

theorem From.bind {f : α → m β} {P : V.State → β → Prop} (hx : V.From s x Q)
    (hf : ∀ t a, V.le s t → Q t a → V.From t (f a) P) : V.From s (x >>= f) P := by
  unfold From
  rw [V.run_bind]
  have next := hf _ _ hx.1 hx.2
  exact ⟨V.le_trans hx.1 next.1, next.2⟩

theorem From.imp (hx : V.From s x P) (h : ∀ t a, V.le s t → P t a → Q t a) : V.From s x Q :=
  ⟨hx.1, h _ _ hx.1 hx.2⟩

theorem From.and (hP : V.From s x P) (hQ : V.From s x Q) : V.From s x fun t a => P t a ∧ Q t a :=
  ⟨hP.1, hP.2, hQ.2⟩

/-- An identity that was minted on the way to a state. -/
def Minted (V : StateView m) (s : V.State) (n : NodeId) : Prop :=
  ∃ t, V.Inv t ∧ V.le t s ∧ (V.run mint t).1 = n

theorem From.mint (hs : V.Inv s) : V.From s (mint : m Nat) fun t n => V.Minted t n :=
  ⟨V.le_mint hs, s, hs, V.le_mint hs, rfl⟩

theorem From.stampNew (hs : V.Inv s) (ty : Ty) :
    V.From s (Expr.stampNew ty : m Stamp) fun t stamp => ∃ n, stamp = ⟨n, ty⟩ ∧ V.Minted t n :=
  (From.mint hs).bind fun _ n _ hn => .pure ⟨n, rfl, hn⟩

theorem From.mkMember (hs : V.Inv s) (receiver : Option Expr) (d : MemberDef) :
    V.From s (Expr.mkMember receiver d : m Expr) fun t e =>
      ∃ n, e = .member ⟨n, d.ty⟩ receiver d ∧ V.Minted t n :=
  (From.stampNew hs _).bind fun _ _ _ ⟨n, heq, hn⟩ => .pure ⟨n, by rw [heq], hn⟩

theorem From.mkCall (hs : V.Inv s) (receiver : Option Expr) (d : MethodDef) (args : List Expr) :
    V.From s (Expr.mkCall receiver d args : m Expr) fun t e =>
      ∃ n, e = .call ⟨n, d.ret⟩ receiver d args ∧ V.Minted t n :=
  (From.stampNew hs _).bind fun _ _ _ ⟨n, heq, hn⟩ => .pure ⟨n, by rw [heq], hn⟩

theorem From.mkConstant (hs : V.Inv s) (v : Value) (ty : Ty) :
    V.From s (Expr.mkConstant v ty : m Expr) fun _ e => ∃ n, e = .constant ⟨n, ty⟩ v :=
  (From.stampNew hs ty).bind fun _ _ _ ⟨n, hn, _⟩ => .pure ⟨n, by rw [hn]⟩

theorem From.mkRaise (hs : V.Inv s) (failure : Deferred) (ty : Ty) :
    V.From s (Expr.mkRaise failure ty : m Expr) fun _ e =>
      ∃ n k, e = .raise ⟨n, ty⟩ (.constant ⟨k, .object⟩ (.error failure)) := by
  refine (From.mkConstant hs _ _).bind fun t payload hst ⟨k, hk⟩ => ?_
  refine (From.stampNew (V.inv_of_le hs hst) ty).bind fun _ _ _ ⟨n, hn, _⟩ => .pure ⟨n, k, ?_⟩
  rw [hn, hk]

/-! ### Rewrites -/

/-- A relation between trees that stays true in later states. -/
def Stable (V : StateView m) (T : V.State → Expr → Expr → Prop) : Prop :=
  ∀ {s t}, V.le s t → ∀ {a b}, T s a b → T t a b

variable {T : V.State → Expr → Expr → Prop}

/-- The trees that a node's children have become. -/
def Answered (T : Expr → Expr → Prop) (olds : List Expr) (rs : List Rewritten) : Prop :=
  List.Forall₂ (fun old r => T old (r.on old)) olds rs

theorem From.mapM [LawfulMonad m] (hT : V.Stable T) (hs : V.Inv s) {olds : List Expr}
    {answers : List (m Rewritten)}
    (h : List.Forall₂ (fun old x => ∀ t, V.Inv t → V.From t x fun u r => T u old (r.on old))
      olds answers) :
    V.From s (answers.mapM id) fun t rs => Answered (T t) olds rs := by
  induction h generalizing s with
  | nil => exact .pure .nil
  | cons hx _ ih =>
    rw [List.mapM_cons]
    refine (hx s hs).bind fun t r hst hr => (ih (V.inv_of_le hs hst)).bind fun u rs htu hrs => ?_
    exact .pure (.cons (hT htu hr) hrs)

theorem Answered.news {T : Expr → Expr → Prop} {olds : List Expr} {rs : List Rewritten}
    (h : Answered T olds rs) : List.Forall₂ T olds (List.zipWith Rewritten.on olds rs) := by
  unfold Answered at h
  induction h with
  | nil => exact .nil
  | cons hr _ ih => exact .cons hr ih

/-- Where every answer is that the node is kept, the children are the old ones. -/
theorem zipWith_on_of_kept {olds : List Expr} {rs : List Rewritten}
    (hlength : olds.length = rs.length) (h : rs.all Rewritten.isKept = true) :
    List.zipWith Rewritten.on olds rs = olds := by
  induction olds generalizing rs with
  | nil => rfl
  | cons old olds ih =>
    cases rs with
    | nil => cases hlength
    | cons r rs =>
      simp only [List.all_cons, Bool.and_eq_true] at h
      cases r with
      | kept => simp [ih (Nat.succ.inj hlength) h.2]
      | changed e => cases h.1

/-- Rebuilding a node over the answers for its children ensures that it is the node over what they
have become. If it is another one, its identity was minted for it, and nothing else was done. -/
theorem From.regrow (hs : V.Inv s) {e : Expr} {rs : List Rewritten}
    (hlength : e.children.length = rs.length) :
    V.From s (e.regrow rs) fun t r =>
      (∃ n, r.on e = e.rebuild n (List.zipWith Rewritten.on e.children rs)) ∧
        (r.on e = e ∨ V.Minted t (r.on e).node) ∧ (t = s ∨ t = (V.run ExprTree.mint s).2) := by
  unfold Expr.regrow
  split
  · next hkept =>
    refine .pure ⟨⟨e.node, ?_⟩, .inl rfl, .inl rfl⟩
    rw [zipWith_on_of_kept hlength hkept]
    exact (Expr.rebuild_children e).symm
  · have minted := From.mint hs
    unfold From
    rw [V.run_bind, V.run_pure]
    refine ⟨minted.1, ⟨_, rfl⟩, ?_, .inr rfl⟩
    refine (Expr.rebuild_eq_or_node _ e _).imp_right fun hnode => ?_
    rw [Rewritten.on_changed, hnode]
    exact minted.2

/-- What one step of a rewrite ensures. -/
theorem From.mapChildren [LawfulMonad m] (hT : V.Stable T) (hs : V.Inv s) {e : Expr}
    {answers : List (m Rewritten)}
    (h : List.Forall₂ (fun old x => ∀ t, V.Inv t → V.From t x fun u r => T u old (r.on old))
      e.children answers) :
    V.From s (e.mapChildren answers) fun t r =>
      Expr.Parallel (T t) (Expr.SameParams (T t)) e (r.on e) := by
  rw [Expr.mapChildren_eq]
  refine (From.mapM hT hs h).bind fun t rs hst hrs => ?_
  refine (From.regrow (V.inv_of_le hs hst) hrs.length_eq).imp fun u r htu ⟨⟨n, hr⟩, _⟩ => ?_
  rw [hr]
  exact Expr.parallel_rebuild n (hrs.news.imp fun _ _ h => hT htu h)

/-- One step of a rewrite keeps a node or gives it a new identity. -/
theorem From.mapChildren_node [LawfulMonad m] (hs : V.Inv s) {e : Expr}
    {answers : List (m Rewritten)}
    (h : List.Forall₂ (fun _ x => ∀ t, V.Inv t → V.From t x fun _ _ => True) e.children answers) :
    V.From s (e.mapChildren answers) fun t r => r.on e = e ∨ V.Minted t (r.on e).node := by
  rw [Expr.mapChildren_eq]
  have run := From.mapM (T := fun _ _ _ => True) (fun _ _ _ _ => trivial) hs h
  refine run.bind fun t rs hst hrs => ?_
  exact (From.regrow (V.inv_of_le hs hst) hrs.length_eq).imp fun _ _ _ h => h.2.1

/-! ### Rewrites in order -/

/-- Started in `s`, each tree becomes the next one on the other side, and what `T` says of a tree and
what it becomes is about the states before and after. The last state is `t`. -/
inductive Chain (T : V.State → V.State → Expr → Expr → Prop) :
    V.State → V.State → List Expr → List Expr → Prop
  | nil (s : V.State) : Chain T s s [] []
  | cons {s t u : V.State} {old new : Expr} {olds news : List Expr} (hle : V.le s t)
      (h : T s t old new) (hrest : Chain T t u olds news) :
      Chain T s u (old :: olds) (new :: news)

variable {T : V.State → V.State → Expr → Expr → Prop}

theorem Chain.length_eq {t : V.State} {olds news : List Expr} (h : Chain T s t olds news) :
    olds.length = news.length := by
  induction h with
  | nil => rfl
  | cons _ _ _ ih => rw [List.length_cons, List.length_cons, ih]

theorem From.mapM_chain [LawfulMonad m] (hs : V.Inv s) {olds : List Expr}
    {answers : List (m Rewritten)}
    (h : List.Forall₂ (fun old x => ∀ s, V.Inv s → V.From s x fun t r => T s t old (r.on old))
      olds answers) :
    V.From s (answers.mapM id) fun t rs =>
      olds.length = rs.length ∧ Chain T s t olds (List.zipWith Rewritten.on olds rs) := by
  induction h generalizing s with
  | nil => exact .pure ⟨rfl, .nil s⟩
  | cons hx _ ih =>
    rw [List.mapM_cons]
    refine (hx s hs).bind fun t r hst hr => (ih (V.inv_of_le hs hst)).bind fun u rs _ hrs => ?_
    exact .pure ⟨congrArg (· + 1) hrs.1, .cons hst hr hrs.2⟩

/-- What a rewrite with one hook ensures, where the states between have a say. A node that is put
together anew takes an identity after its children are done. -/
theorem from_rewrite_chain [LawfulMonad m] {before : Expr → Option (m Rewritten)}
    (hbefore : ∀ e answer, before e = some answer → ∀ s, V.Inv s →
      V.From s answer fun t r => T s t e (r.on e))
    (hnode : ∀ e, before e = none → ∀ s t u n news, Chain T s t e.children news → V.le t u →
      u = t ∨ u = (V.run mint t).2 → T s u e (e.rebuild n news))
    (e : Expr) (hs : V.Inv s) :
    V.From s (e.rewrite before Expr.asIs) fun t r => T s t e (r.on e) := by
  induction e using Expr.induction_children generalizing s with
  | step e ih =>
    rw [Expr.rewrite_eq]
    cases hb : before e with
    | some answer => exact hbefore e answer hb s hs
    | none =>
      have children : List.Forall₂
          (fun old x => ∀ s, V.Inv s → V.From s x fun t r => T s t old (r.on old))
          e.children (e.children.map (Expr.rewrite before Expr.asIs)) := by
        rw [List.forall₂_map_right_iff, List.forall₂_same]
        exact fun c hc t ht => ih c hc ht
      have rebuilt : V.From s (e.mapChildren (e.children.map (Expr.rewrite before Expr.asIs)))
          fun t r => T s t e (r.on e) := by
        rw [Expr.mapChildren_eq]
        refine (From.mapM_chain hs children).bind fun t rs hst ⟨hlength, hchain⟩ => ?_
        refine (From.regrow (V.inv_of_le hs hst) hlength).imp fun u r htu ⟨⟨n, hr⟩, _, hu⟩ => ?_
        rw [hr]
        exact hnode e hb s t u n _ hchain htu hu
      exact rebuilt.bind fun _ _ _ h => .pure h

/-! ### Rewrites with a hook after the children -/

/-- What a rewrite ensures that does all its work after the children of a node are done. -/
theorem from_rewrite_after [LawfulMonad m] {T : V.State → Expr → Expr → Prop} (hT : V.Stable T)
    {after : Expr → Rewritten → m Rewritten}
    (hafter : ∀ e s r, V.Inv s →
      (∃ n news, r.on e = e.rebuild n news ∧ List.Forall₂ (T s) e.children news) →
      V.From s (after e r) fun t r' => T t e (r'.on e))
    (e : Expr) (hs : V.Inv s) :
    V.From s (e.rewrite (fun _ => none) after) fun t r => T t e (r.on e) := by
  induction e using Expr.induction_children generalizing s with
  | step e ih =>
    rw [Expr.rewrite_eq]
    have children : List.Forall₂
        (fun old x => ∀ t, V.Inv t → V.From t x fun u r => T u old (r.on old))
        e.children (e.children.map (Expr.rewrite (fun _ => none) after)) := by
      rw [List.forall₂_map_right_iff, List.forall₂_same]
      exact fun c hc t ht => ih c hc ht
    refine (From.mapChildren hT hs children).bind fun t r hst hr => ?_
    exact hafter e t r (V.inv_of_le hs hst) hr.exists_rebuild

end StateView

/-! ### Minting -/

theorem stateM_pure {σ α : Type} (a : α) (s : σ) : (pure a : StateM σ α) s = (a, s) := rfl

theorem stateM_bind {σ α β : Type} (x : StateM σ α) (f : α → StateM σ β) (s : σ) :
    (x >>= f) s = f (x s).1 (x s).2 :=
  rfl

/-- Minting as state passing: identities are handed out in order. -/
def supplyView : StateView (StateM Supply) where
  State := Supply
  run x s := x s
  run_pure := @stateM_pure Supply
  run_bind := @stateM_bind Supply
  Inv _ := True
  le s t := s.next ≤ t.next
  le_refl _ := Nat.le_refl _
  le_trans := Nat.le_trans
  inv_of_le _ _ := trivial
  le_mint {s} _ := Nat.le_succ s.next

/-- Minting as state passing: nothing but the supply changes. -/
def mintingView : StateView WorldM where
  State := World
  run x w := x w
  run_pure := @stateM_pure World
  run_bind := @stateM_bind World
  Inv _ := True
  le w w' := ∃ supply, w' = { w with supply }
  le_refl w := ⟨w.supply, rfl⟩
  le_trans := by
    rintro w _ _ ⟨s, rfl⟩ ⟨s', rfl⟩
    exact ⟨s', rfl⟩
  inv_of_le _ _ := trivial
  le_mint _ := ⟨_, rfl⟩

end ExprTree
