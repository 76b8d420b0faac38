import ExprTree.Eval.Expand
import ExprTree.Proofs.Folding
import ExprTree.Proofs.Replacement

/-!
# Expansion is total and complete

What a rule puts in the place of a site is arbitrary, and it is expanded in turn, so nothing gets
smaller on the way but the number of nested applications that are still allowed. `Registry.Expands`
says what a run of expansion is without that number: it counts the applications that a node is the
output of, and gives up where the count is at the limit. That there is a run for every tree is what
termination means.

A run is written down with its chains. A chain holds the sites that rules were asked about, from the
outermost one, each in what the rule made of the one before. Every time a rule is asked there is one
more chain.

Nothing is asked of rules. They may fail, evaluate anything, and hand back whatever they like.

## Main definitions

* `Registry.IsExpanded`: trees in which no rule has anything to do.
* `Registry.IsPlaceholder`: the placeholder of a site that was given up.
* `Registry.Expands`: runs of expansion.

## Main results

* `Registry.Expands.length_le`: no chain is longer than the limit.
* `Registry.Expands.isExpanded`: the result of a run is expanded.
* `Registry.Expands.det`: there is one run from a state.
* `Registry.exists_expands`: there is a run for every tree, and `expand` comes to its result.
* `Registry.expand_total`: **expansion is total and complete**.
-/

set_option autoImplicit false

namespace ExprTree

/-! ### Runs of rewrites -/

namespace RewriteM

variable {σ α β : Type}

/-- What a rewrite comes to from a state, with the state that it leaves. -/
def outcome (host : Host) (x : RewriteM σ α) (s : σ × World) : α × (σ × World) :=
  let ((a, st), w) := (x host).run s.1 s.2
  (a, (st, w))

theorem outcome_pure (host : Host) (a : α) (s : σ × World) :
    outcome host (pure a : RewriteM σ α) s = (a, s) :=
  rfl

theorem outcome_bind (host : Host) (x : RewriteM σ α) (f : α → RewriteM σ β) (s : σ × World) :
    outcome host (x >>= f) s = outcome host (f (outcome host x s).1) (outcome host x s).2 :=
  rfl

/-- A node whose children are all kept is kept. -/
theorem outcome_regrow_of_kept (host : Host) (e : Expr) {answers : List Rewritten}
    (h : answers.all Rewritten.isKept = true) (s : σ × World) :
    outcome host (e.regrow answers) s = (.kept, s) := by
  rw [Expr.regrow, if_pos h]
  rfl

/-- What becomes of a node is the node over what has become of its children. -/
theorem exists_rebuild_of_regrow {host : Host} {e : Expr} {answers : List Rewritten}
    (hlength : e.children.length = answers.length) {s t : σ × World} {r : Rewritten}
    (h : outcome host (e.regrow answers) s = (r, t)) :
    ∃ n, r.on e = e.rebuild n (List.zipWith Rewritten.on e.children answers) := by
  have ensured := StateView.From.regrow (V := Expr.anyView host σ) (s := s) trivial hlength
  have result : ((Expr.anyView host σ).run (e.regrow answers) s).1 = r := congrArg Prod.fst h
  rw [← result]
  exact ensured.2.1

end RewriteM

namespace Registry

open ExprTree.Expr RewriteM

variable {σ : Type}

/-! ### Sites -/

/-- The rule for a node. -/
def ruleAt? (registry : Registry σ) (e : Expr) : Option (Rule σ) :=
  (siteMember? e).bind registry.rule?

/-- The tree has no node that there is a rule for. -/
def IsExpanded (registry : Registry σ) (e : Expr) : Prop :=
  ∀ d ∈ e.preOrder, registry.ruleAt? d = none

/-- The answer puts a placeholder where the site `e` stands. It has the type of the site, and raises
that the rule failed on `expanded` with a cause. -/
def IsPlaceholder (rule : Rule σ) (e expanded : Expr) (cause : EvalError) (r : Rewritten) : Prop :=
  ∃ n k i, r = .changed (.raise ⟨n, e.ty⟩
    (.constant ⟨k, .object⟩ (.error (.mk i (.eval (.expansion rule.name expanded cause))))))

theorem siteMember?_rebuild (n : NodeId) (e : Expr) (news : List Expr) :
    siteMember? (e.rebuild n news) = siteMember? e := by
  cases e with
  | call s r => cases r <;> rfl
  | _ => rfl

theorem isExpanded_iff {registry : Registry σ} {e : Expr} :
    registry.IsExpanded e ↔
      registry.ruleAt? e = none ∧ ∀ c ∈ e.children, registry.IsExpanded c := by
  have without : Without (fun d => registry.ruleAt? d ≠ none) e ↔ _ := without_iff
  simp only [Without, not_not] at without
  exact without

theorem isPlaceholder_giveUp (rule : Rule σ) (e expanded : Expr) (cause : EvalError) (host : Host)
    (s : σ × World) :
    IsPlaceholder rule e expanded cause (outcome host (giveUp rule e expanded cause) s).1 :=
  ⟨_, _, _, rfl⟩

theorem IsPlaceholder.isExpanded {registry : Registry σ} {rule : Rule σ} {e expanded : Expr}
    {cause : EvalError} {r : Rewritten} (h : IsPlaceholder rule e expanded cause r) :
    registry.IsExpanded (r.on e) := by
  obtain ⟨n, k, i, rfl⟩ := h
  refine isExpanded_iff.2 ⟨rfl, fun c hc => ?_⟩
  obtain rfl := List.mem_singleton.1 hc
  exact isExpanded_iff.2 ⟨rfl, fun _ hc => nomatch hc⟩

/-! ### Runs -/

/-- What expansion has to do: expand a tree, expand trees one after the other, or apply the rule of
a node, if there is one, where `r` says what the expansion of its children has made of the node. -/
inductive Task where
  | tree (e : Expr)
  | forest (es : List Expr)
  | site (e : Expr) (r : Rewritten)

/-- Runs of expansion in the output of `depth` nested applications. A task is done from one state to
another, and there is an answer for each of its trees. The chains are those of the rules that were
asked. -/
inductive Expands (registry : Registry σ) (evaluator : Evaluator σ) (limit : Nat) (host : Host) :
    (depth : Nat) → σ × World → Task → List Rewritten → σ × World → List (List Expr) → Prop
  | nil (depth : Nat) (s : σ × World) :
      Expands registry evaluator limit host depth s (.forest []) [] s []
  | cons {depth : Nat} {s t u : σ × World} {e : Expr} {es : List Expr} {r : Rewritten}
      {rs : List Rewritten} {chains chains' : List (List Expr)}
      (hfirst : Expands registry evaluator limit host depth s (.tree e) [r] t chains)
      (hrest : Expands registry evaluator limit host depth t (.forest es) rs u chains') :
      Expands registry evaluator limit host depth s (.forest (e :: es)) (r :: rs) u
        (chains ++ chains')
  /-- The children come first. -/
  | tree {depth : Nat} {s t u v : σ × World} {e : Expr} {r r' : Rewritten} {rs : List Rewritten}
      {chains chains' : List (List Expr)}
      (hchildren : Expands registry evaluator limit host depth s (.forest e.children) rs t chains)
      (hregrow : outcome host (e.regrow rs) t = (r, u))
      (hsite : Expands registry evaluator limit host depth u (.site e r) [r'] v chains') :
      Expands registry evaluator limit host depth s (.tree e) [r'] v (chains ++ chains')
  | plain {depth : Nat} {e : Expr} (hrule : registry.ruleAt? e = none) (r : Rewritten)
      (s : σ × World) :
      Expands registry evaluator limit host depth s (.site e r) [r] s []
  /-- The output of a rule is expanded in turn, one application deeper. -/
  | output {depth : Nat} {s t u : σ × World} {e output : Expr} {r r' : Rewritten} {rule : Rule σ}
      {chains : List (List Expr)} (hrule : registry.ruleAt? e = some rule) (hdepth : depth < limit)
      (hrewrite : outcome host (attempt (rule.rewrite evaluator (r.on e))) s = (.ok output, t))
      (hagain : Expands registry evaluator limit host (depth + 1) t (.tree output) [r'] u chains) :
      Expands registry evaluator limit host depth s (.site e r) [.changed (r'.on output)] u
        ([r.on e] :: chains.map (r.on e :: ·))
  /-- A rule that fails leaves a placeholder. -/
  | failed {depth : Nat} {s t u : σ × World} {e : Expr} {r r' : Rewritten} {rule : Rule σ}
      {cause : EvalError} (hrule : registry.ruleAt? e = some rule) (hdepth : depth < limit)
      (hrewrite : outcome host (attempt (rule.rewrite evaluator (r.on e))) s = (.error cause, t))
      (hgiveUp : outcome host (giveUp rule e (r.on e) cause) t = (r', u))
      (hplaceholder : IsPlaceholder rule e (r.on e) cause r') :
      Expands registry evaluator limit host depth s (.site e r) [r'] u [[r.on e]]
  /-- At the limit no rule is asked. -/
  | cut {depth : Nat} {s t : σ × World} {e : Expr} {r r' : Rewritten} {rule : Rule σ}
      (hrule : registry.ruleAt? e = some rule) (hdepth : limit ≤ depth)
      (hgiveUp : outcome host (giveUp rule e (r.on e) (.depthExceeded limit)) s = (r', t))
      (hplaceholder : IsPlaceholder rule e (r.on e) (.depthExceeded limit) r') :
      Expands registry evaluator limit host depth s (.site e r) [r'] t []

variable {registry : Registry σ} {evaluator : Evaluator σ} {limit depth : Nat} {host : Host}
  {s t : σ × World} {task : Task} {rs : List Rewritten} {chains : List (List Expr)}

/-- Chains go no deeper than the limit. -/
theorem Expands.depth_add_length_le
    (h : Expands registry evaluator limit host depth s task rs t chains) :
    ∀ chain ∈ chains, depth + chain.length ≤ limit := by
  induction h with
  | nil | plain | cut => exact fun _ hc => nomatch hc
  | cons _ _ ih ih' => exact List.forall_mem_append.2 ⟨ih, ih'⟩
  | tree _ _ _ ih ih' => exact List.forall_mem_append.2 ⟨ih, ih'⟩
  | failed _ hdepth => exact List.forall_mem_singleton.2 hdepth
  | output _ hdepth _ _ ih =>
    refine List.forall_mem_cons.2 ⟨hdepth, List.forall_mem_map.2 fun chain hchain => ?_⟩
    rw [List.length_cons, Nat.add_comm chain.length 1, ← Nat.add_assoc]
    exact ih chain hchain

/-- No chain is longer than the limit. -/
theorem Expands.length_le (h : Expands registry evaluator limit host 0 s task rs t chains) :
    ∀ chain ∈ chains, chain.length ≤ limit := by
  intro chain hchain
  have := h.depth_add_length_le chain hchain
  rwa [Nat.zero_add] at this

/-- What a task is for: answers that put expanded trees where its trees stand. A node is expanded if
its children are. -/
def Task.Done (registry : Registry σ) (rs : List Rewritten) : Task → Prop
  | .tree e => List.Forall₂ (fun e r => registry.IsExpanded (r.on e)) [e] rs
  | .forest es => List.Forall₂ (fun e r => registry.IsExpanded (r.on e)) es rs
  | .site e r => siteMember? (r.on e) = siteMember? e →
      (∀ c ∈ (r.on e).children, registry.IsExpanded c) →
      List.Forall₂ (fun e r => registry.IsExpanded (r.on e)) [e] rs

theorem Expands.done (h : Expands registry evaluator limit host depth s task rs t chains) :
    task.Done registry rs := by
  induction h with
  | nil => exact .nil
  | cons _ _ ih ih' => exact .cons (List.forall₂_cons.1 ih).1 ih'
  | @tree depth s t u v e r r' rs chains chains' _ hregrow _ ih ih' =>
    have answers : StateView.Answered (fun _ new => registry.IsExpanded new) e.children rs := ih
    obtain ⟨n, hr⟩ := exists_rebuild_of_regrow answers.length_eq hregrow
    refine ih' ?_ ?_
    · rw [hr, siteMember?_rebuild]
    · rw [hr, children_rebuild n answers.news.length_eq]
      exact forall_right_of_forall₂ answers.news fun _ _ _ h => h
  | plain hrule r s =>
    intro hsite hchildren
    refine .cons (isExpanded_iff.2 ⟨?_, hchildren⟩) .nil
    rw [ruleAt?, hsite]
    exact hrule
  | output _ _ _ _ ih => exact fun _ _ => .cons (List.forall₂_cons.1 ih).1 .nil
  | failed _ _ _ _ hplaceholder => exact fun _ _ => .cons hplaceholder.isExpanded .nil
  | cut _ _ _ hplaceholder => exact fun _ _ => .cons hplaceholder.isExpanded .nil

/-- The result of a run is expanded. -/
theorem Expands.isExpanded {e : Expr} {r : Rewritten}
    (h : Expands registry evaluator limit host depth s (.tree e) [r] t chains) :
    registry.IsExpanded (r.on e) :=
  (List.forall₂_cons.1 h.done).1

/-- There is one run from a state. -/
theorem Expands.det {t' : σ × World} {rs' : List Rewritten} {chains' : List (List Expr)}
    (h : Expands registry evaluator limit host depth s task rs t chains)
    (h' : Expands registry evaluator limit host depth s task rs' t' chains') :
    rs = rs' ∧ t = t' ∧ chains = chains' := by
  induction h generalizing rs' t' chains' with
  | nil =>
    cases h'
    exact ⟨rfl, rfl, rfl⟩
  | cons _ _ ih ih' =>
    cases h' with
    | cons hfirst hrest =>
      obtain ⟨hr, rfl, rfl⟩ := ih hfirst
      obtain ⟨rfl, rfl, rfl⟩ := ih' hrest
      cases hr
      exact ⟨rfl, rfl, rfl⟩
  | tree _ hregrow _ ih ih' =>
    cases h' with
    | tree hchildren hregrow' hsite =>
      obtain ⟨rfl, rfl, rfl⟩ := ih hchildren
      cases hregrow.symm.trans hregrow'
      obtain ⟨hr, rfl, rfl⟩ := ih' hsite
      exact ⟨hr, rfl, rfl⟩
  | plain hrule =>
    cases h' with
    | plain => exact ⟨rfl, rfl, rfl⟩
    | output hrule' | failed hrule' | cut hrule' => cases hrule.symm.trans hrule'
  | output hrule hdepth hrewrite _ ih =>
    cases h' with
    | plain hrule' => cases hrule.symm.trans hrule'
    | output hrule' _ hrewrite' hagain =>
      cases hrule.symm.trans hrule'
      cases hrewrite.symm.trans hrewrite'
      obtain ⟨hr, rfl, rfl⟩ := ih hagain
      cases hr
      exact ⟨rfl, rfl, rfl⟩
    | failed hrule' _ hrewrite' =>
      cases hrule.symm.trans hrule'
      cases hrewrite.symm.trans hrewrite'
    | cut _ hdepth' => exact absurd hdepth (Nat.not_lt.2 hdepth')
  | failed hrule hdepth hrewrite hgiveUp =>
    cases h' with
    | plain hrule' => cases hrule.symm.trans hrule'
    | output hrule' _ hrewrite' =>
      cases hrule.symm.trans hrule'
      cases hrewrite.symm.trans hrewrite'
    | failed hrule' _ hrewrite' hgiveUp' =>
      cases hrule.symm.trans hrule'
      cases hrewrite.symm.trans hrewrite'
      cases hgiveUp.symm.trans hgiveUp'
      exact ⟨rfl, rfl, rfl⟩
    | cut _ hdepth' => exact absurd hdepth (Nat.not_lt.2 hdepth')
  | cut hrule hdepth hgiveUp =>
    cases h' with
    | plain hrule' => cases hrule.symm.trans hrule'
    | output _ hdepth' | failed _ hdepth' => exact absurd hdepth' (Nat.not_lt.2 hdepth)
    | cut hrule' _ hgiveUp' =>
      cases hrule.symm.trans hrule'
      cases hgiveUp.symm.trans hgiveUp'
      exact ⟨rfl, rfl, rfl⟩

/-- A run is the one from its state. -/
theorem Expands.iff (h : Expands registry evaluator limit host depth s task rs t chains)
    (rs' : List Rewritten) (t' : σ × World) (chains' : List (List Expr)) :
    Expands registry evaluator limit host depth s task rs' t' chains' ↔
      rs' = rs ∧ t' = t ∧ chains' = chains := by
  constructor
  · exact fun h' => h'.det h
  · rintro ⟨rfl, rfl, rfl⟩
    exact h

/-- The run on an expanded tree keeps it and asks no rule. -/
theorem IsExpanded.expands {e : Expr} (h : registry.IsExpanded e) (evaluator : Evaluator σ)
    (limit : Nat) (host : Host) (depth : Nat) (s : σ × World) :
    Expands registry evaluator limit host depth s (.tree e) [.kept] s [] := by
  induction e using induction_children with
  | step e ih =>
    obtain ⟨hroot, hbelow⟩ := isExpanded_iff.1 h
    have children (es : List Expr) (hes : ∀ c ∈ es, c ∈ e.children) :
        Expands registry evaluator limit host depth s (.forest es) (es.map fun _ => .kept) s
          [] := by
      induction es with
      | nil => exact .nil depth s
      | cons c es ih' =>
        rw [List.forall_mem_cons] at hes
        exact .cons (ih c hes.1 (hbelow c hes.1)) (ih' hes.2)
    have kept : (e.children.map fun _ => Rewritten.kept).all Rewritten.isKept = true := by
      simp [Rewritten.isKept]
    exact .tree (children e.children fun _ hc => hc) (outcome_regrow_of_kept host e kept s)
      (.plain hroot .kept s)

/-! ### Totality -/

/-- There is a run of a rewrite whose second hook has one for every site. -/
theorem exists_expands_rewrite {after : Expr → Rewritten → RewriteM σ Rewritten}
    (hafter : ∀ e r s, ∃ chains, Expands registry evaluator limit host depth s (.site e r)
      [(outcome host (after e r) s).1] (outcome host (after e r) s).2 chains)
    (e : Expr) (s : σ × World) :
    let x := e.rewrite (fun _ => none) after
    ∃ chains, Expands registry evaluator limit host depth s (.tree e) [(outcome host x s).1]
      (outcome host x s).2 chains := by
  induction e using induction_children generalizing s with
  | step e ih =>
    have children (es : List Expr) (hes : ∀ c ∈ es, c ∈ e.children) (s : σ × World) :
        let xs := (es.map (rewrite (fun _ => none) after)).mapM id
        ∃ chains, Expands registry evaluator limit host depth s (.forest es) (outcome host xs s).1
          (outcome host xs s).2 chains := by
      induction es generalizing s with
      | nil => exact ⟨_, .nil depth s⟩
      | cons c es ih' =>
        rw [List.forall_mem_cons] at hes
        obtain ⟨first, hfirst⟩ := ih c hes.1 s
        obtain ⟨rest, hrest⟩ := ih' hes.2 (outcome host (c.rewrite (fun _ => none) after) s).2
        dsimp only
        rw [List.map_cons, List.mapM_cons, outcome_bind, outcome_bind, outcome_pure]
        exact ⟨_, .cons hfirst hrest⟩
    obtain ⟨below, hbelow⟩ := children e.children (fun _ hc => hc) s
    dsimp only
    rw [rewrite_eq]
    dsimp only
    rw [mapChildren_eq, outcome_bind, outcome_bind]
    obtain ⟨above, habove⟩ := hafter e _ _
    exact ⟨_, .tree hbelow rfl habove⟩

/-- There is a run for every tree, where as many applications are left as the limit allows. -/
theorem exists_expands (registry : Registry σ) (evaluator : Evaluator σ) (limit : Nat) (host : Host)
    {remaining : Nat} (hdepth : depth + remaining = limit) (e : Expr) (s : σ × World) :
    let x := registry.expandWithin evaluator limit remaining e
    ∃ chains, Expands registry evaluator limit host depth s (.tree e) [(outcome host x s).1]
      (outcome host x s).2 chains := by
  induction remaining generalizing depth e s with
  | zero =>
    refine exists_expands_rewrite (fun e r s => ?_) e s
    unfold applyAt
    cases hrule : (siteMember? e).bind registry.rule? with
    | none => exact ⟨_, .plain hrule r s⟩
    | some rule =>
      exact ⟨_, .cut hrule (Nat.le_of_eq hdepth.symm) rfl (isPlaceholder_giveUp ..)⟩
  | succ remaining ih =>
    refine exists_expands_rewrite (fun e r s => ?_) e s
    have hlt : depth < limit := by omega
    unfold applyAt
    cases hrule : (siteMember? e).bind registry.rule? with
    | none => exact ⟨_, .plain hrule r s⟩
    | some rule =>
      dsimp only
      rw [outcome_bind]
      rcases hrewrite : outcome host (attempt (rule.rewrite evaluator (r.on e))) s with ⟨answer, t⟩
      cases answer with
      | ok output =>
        have hdeeper : depth + 1 + remaining = limit := by omega
        obtain ⟨chains, hagain⟩ := ih hdeeper output t
        exact ⟨_, .output hrule hlt hrewrite hagain⟩
      | error cause => exact ⟨_, .failed hrule hlt hrewrite rfl (isPlaceholder_giveUp ..)⟩

/-- Expanding an expanded tree does nothing. -/
theorem IsExpanded.expandWithin_eq {e : Expr} (h : registry.IsExpanded e) (evaluator : Evaluator σ)
    (limit remaining : Nat) :
    registry.expandWithin evaluator limit remaining e = pure .kept := by
  have plain (again : Option (Expr → RewriteM σ Rewritten)) :
      ∀ d ∈ e.preOrder, registry.applyAt evaluator limit again d .kept = pure .kept := by
    intro d hd
    have hrule : (siteMember? d).bind registry.rule? = none := h d hd
    rw [applyAt, hrule]
  cases remaining with
  | zero => exact rewrite_eq_kept (plain none) fun _ _ h => h rfl
  | succ remaining =>
    exact rewrite_eq_kept (plain (some (registry.expandWithin evaluator limit remaining)))
      fun _ _ h => h rfl

/-- Without rules there is nothing to do, so the test for it makes no difference. -/
theorem expand_eq_expandWithin (registry : Registry σ) (evaluator : Evaluator σ) (limit : Nat)
    (e : Expr) :
    registry.expand evaluator limit e = registry.expandWithin evaluator limit limit e := by
  unfold expand
  split
  · next hempty =>
    have expanded : registry.IsExpanded e := fun d _ => by
      rw [List.isEmpty_iff.1 hempty, ruleAt?]
      cases siteMember? d <;> rfl
    exact (expanded.expandWithin_eq evaluator limit limit).symm
  · rfl

/-- **Expansion is total and complete.** For all rules, every limit and every tree there is a run of
expansion, and only one, which puts the expanded output of a rule or a placeholder where there was a
site. It comes to what `expand` comes to, and no chain of nested applications in it is longer than
the limit. No node of the result is one that there is a rule for. The run that expands the result
again, with whatever evaluator, limit and state, asks no rule and keeps the very same node. -/
theorem expand_total (registry : Registry σ) (evaluator : Evaluator σ) (limit : Nat) (e : Expr)
    (host : Host) (s : σ × World) :
    let (r, t) := outcome host (registry.expand evaluator limit e) s
    (∃ chains, (∀ rs t' chains',
        Expands registry evaluator limit host 0 s (.tree e) rs t' chains' ↔
          rs = [r] ∧ t' = t ∧ chains' = chains) ∧
      ∀ chain ∈ chains, chain.length ≤ limit) ∧
    (∀ d ∈ (r.on e).preOrder, (siteMember? d).bind registry.rule? = none) ∧
    ∀ (evaluator' : Evaluator σ) (limit' : Nat) (host' : Host) (s' : σ × World),
      outcome host' (registry.expand evaluator' limit' (r.on e)) s' = (.kept, s') ∧
      ∀ rs t' chains',
        Expands registry evaluator' limit' host' 0 s' (.tree (r.on e)) rs t' chains' ↔
          rs = [.kept] ∧ t' = s' ∧ chains' = [] := by
  have run := exists_expands registry evaluator limit host (Nat.zero_add limit) e s
  dsimp only at run
  rw [expand_eq_expandWithin]
  generalize outcome host (registry.expandWithin evaluator limit limit e) s = result at run ⊢
  obtain ⟨r, t⟩ := result
  obtain ⟨chains, hrun⟩ := run
  have expanded : registry.IsExpanded (r.on e) := hrun.isExpanded
  refine ⟨⟨chains, hrun.iff, hrun.length_le⟩, expanded, fun evaluator' limit' host' s' => ⟨?_, ?_⟩⟩
  · rw [expand_eq_expandWithin, expanded.expandWithin_eq, outcome_pure]
  · exact (expanded.expands evaluator' limit' host' 0 s').iff

end Registry

end ExprTree
