import ExprTree.Expr.Rewrite

/-!
# Rewrites in other monads

Rewrites run in whatever monad their hooks run in: some may fail, some keep a table beside the
supply of identities. A map of monads that respects return, bind and minting takes a rewrite to the
same rewrite with its hooks mapped, so a rewrite that only mints can be looked at in
`StateM Supply`, where it is a function of the supply.

## Main definitions

* `MintHom`: a map of monads that respects return, bind and minting.
* `MintHom.state`, `MintHom.except`, `MintHom.keeping`: the maps into larger monads.

## Main results

* `MintHom.map_rewrite`: a rewrite is mapped to the rewrite with mapped hooks.
-/

set_option autoImplicit false

namespace ExprTree

/-- A map of monads that respects return, bind and minting. -/
structure MintHom (m n : Type → Type) [Monad m] [MonadMint m] [Monad n] [MonadMint n] where
  map : {α : Type} → m α → n α
  map_pure : ∀ {α : Type} (a : α), map (pure a) = pure a
  map_bind : ∀ {α β : Type} (x : m α) (f : α → m β), map (x >>= f) = map x >>= fun a => map (f a)
  map_mint : map mint = mint

namespace MintHom

variable {m n : Type → Type} [Monad m] [MonadMint m] [Monad n] [MonadMint n]

/-! ### Larger monads -/

/-- Into a monad with a state beside. -/
def state (σ : Type) [LawfulMonad m] : MintHom m (StateT σ m) where
  map x := StateT.lift x
  map_pure a := by
    funext s
    exact LawfulMonad.pure_bind a _
  map_bind x f := by
    funext s
    simp [StateT.lift, bind, StateT.bind]
  map_mint := rfl

/-- Into a monad with failures. -/
def except (ε : Type) [LawfulMonad m] : MintHom m (ExceptT ε m) where
  map x := ExceptT.lift x
  map_pure a := by simp [ExceptT.lift, pure, ExceptT.pure, ExceptT.mk]
  map_bind x f := by
    simp [ExceptT.lift, bind, ExceptT.bind, ExceptT.mk, ExceptT.bindCont, ← LawfulMonad.bind_pure_comp]
  map_mint := rfl

/-- Beside a state that both monads keep. -/
def keeping (φ : MintHom m n) (σ : Type) [LawfulMonad m] [LawfulMonad n] :
    MintHom (StateT σ m) (StateT σ n) where
  map x := fun s => φ.map (x s)
  map_pure a := funext fun s => φ.map_pure (a, s)
  map_bind x f := funext fun s => φ.map_bind (x s) fun p => f p.1 p.2
  map_mint := by
    funext s
    change φ.map (mint >>= fun a => pure (a, s)) = mint >>= fun a => pure (a, s)
    simp only [φ.map_bind, φ.map_mint, φ.map_pure]

/-- One map after the other. -/
def comp {k : Type → Type} [Monad k] [MonadMint k] (ψ : MintHom n k) (φ : MintHom m n) :
    MintHom m k where
  map x := ψ.map (φ.map x)
  map_pure a := by rw [φ.map_pure, ψ.map_pure]
  map_bind x f := by rw [φ.map_bind, ψ.map_bind]
  map_mint := by rw [φ.map_mint, ψ.map_mint]

/-! ### Rewrites -/

variable (φ : MintHom m n)

theorem map_mapM_id {α : Type} (xs : List (m α)) :
    φ.map (xs.mapM id) = (xs.map φ.map).mapM id := by
  have loop (done : List α) :
      φ.map (List.mapM.loop id xs done) = List.mapM.loop id (xs.map φ.map) done := by
    induction xs generalizing done with
    | nil => exact φ.map_pure _
    | cons x xs ih => simp only [List.mapM.loop, List.map_cons, id, φ.map_bind, ih]
  exact loop []

theorem map_mapChildren (e : Expr) (answers : List (m Rewritten)) :
    φ.map (e.mapChildren answers) = e.mapChildren (answers.map φ.map) := by
  unfold Expr.mapChildren
  rw [φ.map_bind, map_mapM_id]
  congr 1
  funext rs
  split
  · exact φ.map_pure _
  · simp only [φ.map_bind, φ.map_mint, φ.map_pure]

/-- A rewrite is mapped to the rewrite with mapped hooks. -/
theorem map_rewrite (before : Expr → Option (m Rewritten)) (after : Expr → Rewritten → m Rewritten)
    (e : Expr) :
    φ.map (e.rewrite before after) =
      e.rewrite (fun e => (before e).map φ.map) fun e r => φ.map (after e r) := by
  induction e using Expr.induction_children with
  | step e ih =>
    rw [Expr.rewrite_eq, Expr.rewrite_eq]
    cases before e with
    | some answer => rfl
    | none =>
      have children_eq : (e.children.map (Expr.rewrite before after)).map φ.map =
          e.children.map
            (Expr.rewrite (fun e => (before e).map φ.map) fun e r => φ.map (after e r)) := by
        rw [List.map_map]
        exact List.map_congr_left ih
      simp only [Option.map_none, φ.map_bind, map_mapChildren, children_eq]

end MintHom

end ExprTree
