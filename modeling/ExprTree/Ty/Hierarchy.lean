import ExprTree.Ty.Class
import Std.Data.TreeMap.Lemmas

/-!
# What a class derives from

The supertypes of a class are the class itself and whatever its base and its interfaces derive
from. As a list they are easy to reason about, but a class that is reached along several paths
stands in it once for each, and the number of paths can double with every level of the hierarchy.
So a question about the supertypes is answered by a search that ends at the first class that meets
the condition and remembers the classes it is done with. `anySupertype_eq_any` says that the search
answers for the list.

## Main definitions

* `ClassDef.supertypes`: everything a class derives from.
* `ClassDef.anySupertype`: whether some supertype meets a condition.
* `ClassDef.derivesFrom`: whether a class is a supertype.
* `ClassDef.chain`: the class and its bases, nearest first.
-/

set_option autoImplicit false

namespace ExprTree.ClassDef

/-! ### Supertypes -/

mutual

/-- Everything a class derives from: itself, what its base derives from, and what its interfaces
derive from. -/
def supertypes : ClassDef → List ClassDef
  | c@⟨_, _, _, base, interfaces⟩ => c :: (baseSupertypes base ++ allSupertypes interfaces)

/-- What an optional base derives from. -/
def baseSupertypes : Option ClassDef → List ClassDef
  | none => []
  | some c => supertypes c

/-- What a list of interfaces derives from. -/
def allSupertypes : List ClassDef → List ClassDef
  | [] => []
  | c :: cs => supertypes c ++ allSupertypes cs

end

@[simp] theorem mem_supertypes_self (c : ClassDef) : c ∈ c.supertypes := by
  cases c
  simp [supertypes]

/-! ### Searching -/

/-- Classes that a search is done with, by identity. -/
abbrev Searched := Std.TreeMap ClassId ClassDef

mutual

/-- Look for a class that meets a condition in and above a class: nothing if there is one, otherwise
the classes that the search is done with by now. -/
def search (p : ClassDef → Bool) (done : Searched) : ClassDef → Option Searched
  | c@⟨id, _, _, base, interfaces⟩ =>
    if done[id]? = some c then some done
    else if p c then none
    else
      match searchBase p done base with
      | none => none
      | some done =>
        match searchAll p done interfaces with
        | none => none
        | some done => some (done.insert id c)

/-- Look for a class that meets a condition in and above an optional base. -/
def searchBase (p : ClassDef → Bool) (done : Searched) : Option ClassDef → Option Searched
  | none => some done
  | some c => search p done c

/-- Look for a class that meets a condition in and above a list of interfaces. -/
def searchAll (p : ClassDef → Bool) (done : Searched) : List ClassDef → Option Searched
  | [] => some done
  | c :: cs =>
    match search p done c with
    | none => none
    | some done => searchAll p done cs

end

/-- No class that the search is done with has a supertype that meets the condition. -/
def Searched.Clear (p : ClassDef → Bool) (done : Searched) : Prop :=
  ∀ (i : ClassId) (c : ClassDef), done[i]? = some c → c.supertypes.any p = false

/-- What the outcome of a search says about the classes searched. -/
def Settles (p : ClassDef → Bool) (cs : List ClassDef) : Option Searched → Prop
  | none => cs.any p = true
  | some done => cs.any p = false ∧ done.Clear p

mutual

theorem settles_search (p : ClassDef → Bool) {done : Searched} (h : done.Clear p) :
    (c : ClassDef) → Settles p c.supertypes (search p done c)
  | ⟨id, n, k, base, interfaces⟩ => by
    unfold search
    split
    · next hd => exact ⟨h _ _ hd, h⟩
    split
    · next hp => simp [Settles, supertypes, hp]
    next hp =>
    have hb := settles_searchBase p h base
    split
    · next e => rw [e] at hb; simp_all [Settles, supertypes]
    next e =>
    rw [e] at hb
    have hs := settles_searchAll p hb.2 interfaces
    split
    · next e => rw [e] at hs; simp_all [Settles, supertypes]
    next e =>
    rw [e] at hs
    have hc : (supertypes ⟨id, n, k, base, interfaces⟩).any p = false := by
      simp_all [Settles, supertypes]
    refine ⟨hc, fun i c hi => ?_⟩
    rw [Std.TreeMap.getElem?_insert] at hi
    split at hi
    · cases hi; exact hc
    · exact hs.2 i c hi

theorem settles_searchBase (p : ClassDef → Bool) {done : Searched} (h : done.Clear p) :
    (base : Option ClassDef) → Settles p (baseSupertypes base) (searchBase p done base)
  | none => ⟨rfl, h⟩
  | some c => settles_search p h c

theorem settles_searchAll (p : ClassDef → Bool) {done : Searched} (h : done.Clear p) :
    (cs : List ClassDef) → Settles p (allSupertypes cs) (searchAll p done cs)
  | [] => ⟨rfl, h⟩
  | c :: cs => by
    have hc := settles_search p h c
    unfold searchAll
    split
    · next e => rw [e] at hc; simp_all [Settles, allSupertypes]
    next done' e =>
    rw [e] at hc
    have hs := settles_searchAll p hc.2 cs
    cases hr : searchAll p done' cs <;> simp_all [Settles, allSupertypes]

end

/-- Whether some supertype of the class meets a condition. -/
def anySupertype (c : ClassDef) (p : ClassDef → Bool) : Bool := (search p ∅ c).isNone

/-- The search answers for all the supertypes. -/
theorem anySupertype_eq_any (c : ClassDef) (p : ClassDef → Bool) :
    c.anySupertype p = c.supertypes.any p := by
  have h := settles_search p (fun i d hd => by simp at hd : Searched.Clear p ∅) c
  unfold anySupertype
  cases hr : search p ∅ c <;> simp_all [Settles]

/-- Whether the class is `target`, inherits from it, or implements it. -/
def derivesFrom (c target : ClassDef) : Bool := c.anySupertype fun s => s = target

/-- Deriving from a class is having it among the supertypes. -/
theorem derivesFrom_iff {c target : ClassDef} :
    c.derivesFrom target = true ↔ target ∈ c.supertypes := by
  simp [derivesFrom, anySupertype_eq_any]

/-! ### Bases -/

mutual

/-- The class and its bases, nearest first. -/
def chain : ClassDef → List ClassDef
  | c@⟨_, _, _, base, _⟩ => c :: baseChain base

/-- The chain of an optional base. -/
def baseChain : Option ClassDef → List ClassDef
  | none => []
  | some c => chain c

end

end ExprTree.ClassDef
