import Mathlib.Data.List.Forall2

/-!
# Lists and options compared place by place

Children of nodes, arguments and bindings are compared place by place. These are the rules for it
that the library does not have.

## Main results

* `forall₂_imp_of_mem`: elements that are compared are elements of the lists.
* `forall₂_trans`: one comparison after another.
* `forall_right_of_forall₂`: what a comparison says of the right side alone.
-/

set_option autoImplicit false

namespace ExprTree

theorem forall₂_imp_of_mem {α β : Type} {R S : α → β → Prop} {xs : List α} {ys : List β}
    (h : List.Forall₂ R xs ys) (himp : ∀ x ∈ xs, ∀ y ∈ ys, R x y → S x y) :
    List.Forall₂ S xs ys := by
  induction h with
  | nil => exact .nil
  | cons hxy _ ih =>
    refine .cons (himp _ List.mem_cons_self _ List.mem_cons_self hxy) (ih fun x hx y hy => ?_)
    exact himp x (List.mem_cons_of_mem _ hx) y (List.mem_cons_of_mem _ hy)

theorem forall₂_and {α β : Type} {R S : α → β → Prop} {xs : List α} {ys : List β}
    (hR : List.Forall₂ R xs ys) (hS : List.Forall₂ S xs ys) :
    List.Forall₂ (fun x y => R x y ∧ S x y) xs ys := by
  induction hR with
  | nil => exact .nil
  | cons hxy _ ih =>
    cases hS with
    | cons hxy' hS => exact .cons ⟨hxy, hxy'⟩ (ih hS)

theorem forall₂_trans {α β γ : Type} {R : α → β → Prop} {S : β → γ → Prop} {xs : List α}
    {ys : List β} {zs : List γ} (hxy : List.Forall₂ R xs ys) (hyz : List.Forall₂ S ys zs) :
    List.Forall₂ (fun x z => ∃ y ∈ ys, R x y ∧ S y z) xs zs := by
  induction hxy generalizing zs with
  | nil => cases hyz; exact .nil
  | cons hr _ ih =>
    cases hyz with
    | cons hs hss =>
      refine .cons ⟨_, List.mem_cons_self, hr, hs⟩ ((ih hss).imp ?_)
      rintro x z ⟨y, hy, h⟩
      exact ⟨y, List.mem_cons_of_mem _ hy, h⟩

/-- Two lists that are compared with the same list are compared with each other. -/
theorem forall₂_fork {α β γ : Type} {R : α → β → Prop} {S : α → γ → Prop} {T : β → γ → Prop}
    {xs : List α} {ys : List β} {zs : List γ} (hxy : List.Forall₂ R xs ys)
    (hxz : List.Forall₂ S xs zs) (himp : ∀ x ∈ xs, ∀ y z, R x y → S x z → T y z) :
    List.Forall₂ T ys zs := by
  refine (forall₂_trans hxy.flip hxz).imp ?_
  rintro y z ⟨x, hx, hr, hs⟩
  exact himp x hx y z hr hs

theorem forall₂_getElem? {α β : Type} {R : α → β → Prop} {xs : List α} {ys : List β}
    (h : List.Forall₂ R xs ys) (i : Nat) : Option.Rel R xs[i]? ys[i]? := by
  induction h generalizing i with
  | nil => exact .none
  | cons hxy _ ih =>
    cases i with
    | zero => exact .some hxy
    | succ i => simpa only [List.getElem?_cons_succ] using ih i

/-- What stands somewhere on the left is compared with what stands there on the right. -/
theorem exists_getElem?_of_forall₂ {α β : Type} {R : α → β → Prop} {xs : List α} {ys : List β}
    (h : List.Forall₂ R xs ys) {i : Nat} {x : α} (hx : xs[i]? = some x) :
    ∃ y, ys[i]? = some y ∧ R x y := by
  have rel := forall₂_getElem? h i
  rw [hx] at rel
  generalize ys[i]? = y at rel
  cases rel with
  | some hxy => exact ⟨_, rfl, hxy⟩

/-- Lists that are compared are compared with the same keys. -/
theorem forall₂_zip_left {α β γ : Type} {R : α → β → Prop} {xs : List α} {ys : List β}
    (h : List.Forall₂ R xs ys) (ks : List γ) :
    List.Forall₂ (fun x y => x.1 = y.1 ∧ R x.2 y.2) (ks.zip xs) (ks.zip ys) := by
  induction h generalizing ks with
  | nil => simp
  | cons hxy _ ih =>
    cases ks with
    | nil => exact .nil
    | cons k ks => exact .cons ⟨rfl, hxy⟩ (ih ks)

/-- What comparison with some element says holds of all elements on the right. -/
theorem forall_right_of_forall₂ {α β : Type} {R : α → β → Prop} {P : β → Prop} {xs : List α}
    {ys : List β} (h : List.Forall₂ R xs ys) (himp : ∀ x ∈ xs, ∀ y, R x y → P y) :
    ∀ y ∈ ys, P y := by
  induction h with
  | nil => exact fun _ hy => nomatch hy
  | cons hxy _ ih =>
    rw [List.forall_mem_cons] at himp ⊢
    exact ⟨himp.1 _ hxy, ih himp.2⟩

/-- Lists put together from two parts are compared part by part, if the first parts are as long. -/
theorem forall₂_of_append {α β : Type} {R : α → β → Prop} {xs xs' : List α} {ys ys' : List β}
    (hlength : xs.length = ys.length) (h : List.Forall₂ R (xs ++ xs') (ys ++ ys')) :
    List.Forall₂ R xs ys ∧ List.Forall₂ R xs' ys' := by
  have first := List.forall₂_take xs.length h
  have rest := List.forall₂_drop xs.length h
  rw [List.take_left, hlength, List.take_left] at first
  rw [List.drop_left, hlength, List.drop_left] at rest
  exact ⟨first, rest⟩

/-- Lists put together from parts of equal lengths are compared part by part. -/
theorem forall₂_of_flatMap {α β γ δ : Type} {R : α → β → Prop} {T : γ → δ → Prop} {f : α → List γ}
    {g : β → List δ} {xs : List α} {ys : List β} (h : List.Forall₂ R xs ys)
    (hlength : ∀ x ∈ xs, ∀ y, R x y → (f x).length = (g y).length)
    (hT : List.Forall₂ T (xs.flatMap f) (ys.flatMap g)) :
    List.Forall₂ (fun x y => R x y ∧ List.Forall₂ T (f x) (g y)) xs ys := by
  induction h with
  | nil => exact .nil
  | @cons x y xs ys hxy _ ih =>
    rw [List.forall_mem_cons] at hlength
    rw [List.flatMap_cons, List.flatMap_cons] at hT
    obtain ⟨first, rest⟩ := forall₂_of_append (hlength.1 y hxy) hT
    exact .cons ⟨hxy, first⟩ (ih hlength.2 rest)

theorem forall₂_of_flatMap_eq {α β γ : Type} {R : α → β → Prop} {f : α → List γ} {g : β → List γ}
    {xs : List α} {ys : List β} (h : List.Forall₂ R xs ys)
    (hlength : ∀ x ∈ xs, ∀ y, R x y → (f x).length = (g y).length)
    (heq : xs.flatMap f = ys.flatMap g) :
    List.Forall₂ (fun x y => R x y ∧ f x = g y) xs ys := by
  rw [← List.forall₂_eq_eq_eq] at heq
  have parts := forall₂_of_flatMap h hlength heq
  rwa [List.forall₂_eq_eq_eq] at parts

theorem map_eq_map_iff {α β γ : Type} {f : α → γ} {g : β → γ} {xs : List α} {ys : List β} :
    xs.map f = ys.map g ↔ List.Forall₂ (fun x y => f x = g y) xs ys := by
  rw [← List.forall₂_eq_eq_eq, List.forall₂_map_left_iff, List.forall₂_map_right_iff]

theorem flatMap_eq_of_forall₂ {α β γ : Type} {f : α → List γ} {g : β → List γ} {xs : List α}
    {ys : List β} (h : List.Forall₂ (fun x y => f x = g y) xs ys) :
    xs.flatMap f = ys.flatMap g := by
  rw [← List.forall₂_eq_eq_eq]
  refine List.rel_flatMap h fun x y hxy => ?_
  rw [List.forall₂_eq_eq_eq]
  exact hxy

theorem optionRel_fork {α β γ : Type} {R : α → β → Prop} {S : α → γ → Prop} {T : β → γ → Prop}
    {x : Option α} {y : Option β} {z : Option γ} (hxy : Option.Rel R x y) (hxz : Option.Rel S x z)
    (himp : ∀ a ∈ x, ∀ b c, R a b → S a c → T b c) : Option.Rel T y z := by
  cases hxy with
  | none => cases hxz; exact .none
  | some hr =>
    cases hxz with
    | some hs => exact .some (himp _ rfl _ _ hr hs)

theorem optionRel_imp_of_mem {α β : Type} {R S : α → β → Prop} {x : Option α} {y : Option β}
    (h : Option.Rel R x y) (himp : ∀ a ∈ x, ∀ b ∈ y, R a b → S a b) : Option.Rel S x y := by
  cases h with
  | none => exact .none
  | some hab => exact .some (himp _ rfl _ rfl hab)

theorem optionRel_lookup {κ α β : Type} [BEq κ] {R : α → β → Prop} {xs : List (κ × α)}
    {ys : List (κ × β)} (h : List.Forall₂ (fun x y => x.1 = y.1 ∧ R x.2 y.2) xs ys) (k : κ) :
    Option.Rel R (xs.lookup k) (ys.lookup k) := by
  induction h with
  | nil => exact .none
  | cons hxy _ ih =>
    rw [List.lookup_cons, List.lookup_cons, ← hxy.1]
    split
    · exact .some hxy.2
    · exact ih

end ExprTree
