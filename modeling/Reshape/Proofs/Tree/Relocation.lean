import Mathlib.Data.List.Basic
import Reshape.Proofs.Tree.Paths
import Reshape.Proofs.Tree.Runs

/-! Trees at another path. Paths are only ever extended and reported. So a schema that is compiled at
another path gives the same tree but for the front of every path, or is refused alike; and a run of
the one tree does what a run of the other does, but for the front of the path that a failure names. -/

namespace Reshape

/-! ### Trees -/

namespace Node

mutual

/-- The tree with every path changed. -/
def relocate (f : String → String) : Node → Node
  | .mk p s c => .mk (f p) s (relocateChildren f c)

def relocateChildren (f : String → String) : Children → Children
  | .leaf => .leaf
  | .named nodes => .named (relocateNamed f nodes)
  | .indexed slots => .indexed (relocateSlots f slots)

def relocateNamed (f : String → String) : List (Key × Node) → List (Key × Node)
  | [] => []
  | (k, n) :: rest => (k, relocate f n) :: relocateNamed f rest

def relocateSlots (f : String → String) : List (Option Node) → List (Option Node)
  | [] => []
  | none :: rest => none :: relocateSlots f rest
  | some n :: rest => some (relocate f n) :: relocateSlots f rest

end

variable (f : String → String)

@[simp] theorem path_relocate (n : Node) : (n.relocate f).path = f n.path := by
  cases n
  rw [relocate, path, path]

@[simp] theorem strategy_relocate (n : Node) : (n.relocate f).strategy = n.strategy := by
  cases n
  rw [relocate, strategy, strategy]

@[simp] theorem children_relocate (n : Node) :
    (n.relocate f).children = relocateChildren f n.children := by
  cases n
  rw [relocate, children, children]

theorem relocateNamed_eq (nodes : List (Key × Node)) :
    relocateNamed f nodes = nodes.map fun x => (x.1, x.2.relocate f) := by
  induction nodes with
  | nil => rfl
  | cons x rest ih => rw [relocateNamed, ih, List.map_cons]

theorem relocateSlots_eq (slots : List (Option Node)) :
    relocateSlots f slots = slots.map (Option.map (relocate f)) := by
  induction slots with
  | nil => rfl
  | cons slot rest ih => cases slot <;> rw [relocateSlots, ih, List.map_cons] <;> rfl

theorem relocateChildren_eq_leaf_iff {c : Children} : relocateChildren f c = .leaf ↔ c = .leaf := by
  cases c <;> simp [relocateChildren]

theorem filledFrom_map_relocate (slots : List (Option Node)) (i : Nat) :
    Children.filledFrom i (slots.map (Option.map (relocate f))) =
      (Children.filledFrom i slots).map fun x => (x.1, x.2.relocate f) := by
  induction slots generalizing i with
  | nil => rfl
  | cons slot rest ih => cases slot <;> simp [Children.filledFrom, ih]

theorem filled_relocateChildren (c : Children) :
    (relocateChildren f c).filled = c.filled.map fun x => (x.1, x.2.relocate f) := by
  cases c with
  | leaf => rfl
  | named nodes => simp [relocateChildren, Children.filled, relocateNamed_eq]
  | indexed slots =>
    rw [relocateChildren, Children.filled, Children.filled, relocateSlots_eq,
      filledFrom_map_relocate]

end Node

/-- A session whose nodes stand elsewhere. -/
def Session.relocate (f : String → String) (s : Session) : Session :=
  { s with started := s.started.map (Node.relocate f) }

namespace Tree

/-- A path with `q` in place of `p` at its front. -/
def rebase (p q path : String) : String :=
  match path.toList.dropPrefix? p.toList with
  | some t => q ++ String.ofList t
  | none => path

@[simp] theorem rebase_append (p q t : String) : rebase p q (p ++ t) = q ++ t := by
  have hdrop : (p ++ t).toList.dropPrefix? p.toList = some t.toList := by
    rw [String.toList_append]
    exact List.dropPrefix?_append_of_beq _ (beq_self_eq_true _)
  rw [rebase, hdrop]
  exact congrArg (q ++ ·) String.ofList_toList

example : rebase "$" "$.a" "$[0].$" = "$.a[0].$" := by decide +kernel

/-! ### Compiling -/

variable {r : Registry} {s : Settings} {p q : String}

/-- A refusal at `p`, and what it is at `q`. A failure of a family stays as it is, unless it rejects an
expression. -/
inductive Refusal (r : Registry) (p q : String) : Failure → Failure → Prop
  | directive (keyword t : String) :
    Refusal r p q (.fault (.compile (.directive keyword) (some (p ++ t))))
      (.fault (.compile (.directive keyword) (some (q ++ t))))
  | family (name t : String) :
    Refusal r p q (.fault (.unsupportedFamily name (some (p ++ t))))
      (.fault (.unsupportedFamily name (some (q ++ t))))
  | expression (name e reason t : String) :
    Refusal r p q (.fault (.invalidExpression name e reason (some (p ++ t))))
      (.fault (.invalidExpression name e reason (some (q ++ t))))
  | own {name e : String} {f : Failure} : r.create name e = .error f →
    (∀ name e reason path, f ≠ .fault (.invalidExpression name e reason path)) → Refusal r p q f f

/-- What is compiled at `p`, and what is compiled at `q`. -/
def Relocated (r : Registry) (p q : String) : Outcome (Option Node) → Outcome (Option Node) → Prop :=
  Except.Mirrors (Refusal r p q) fun o o' => o.map (Node.relocate (rebase p q)) = o'

theorem directiveOf_relocated (es : List (Key × Value)) (t : String) :
    Except.Mirrors (Refusal r p q) Eq (directiveOf r s es (p ++ t)) (directiveOf r s es (q ++ t)) := by
  unfold directiveOf
  split
  · exact .ok rfl
  · exact .ok rfl
  · exact .error (.directive _ t)

theorem strategyAt_relocated (d : Directive) (t : String) :
    Except.Mirrors (Refusal r p q) Eq (strategyAt r d (p ++ t)) (strategyAt r d (q ++ t)) := by
  unfold strategyAt
  split
  · exact .error (.family _ t)
  · split
    · exact .error (.expression _ _ _ t)
    · next hne =>
      cases hc : r.create d.family d.expression with
      | ok u => exact .ok rfl
      | error f => exact .error (.own hc fun name e reason path hf => hne name e reason path (hf ▸ hc))

theorem childrenOver_relocate (f : String → String) (es : List (Key × Value))
    (ys : List (Branch × Option Node)) :
    childrenOver es (ys.map fun y => (y.1, y.2.map (Node.relocate f))) =
      Node.relocateChildren f (childrenOver es ys) := by
  unfold childrenOver
  split
  · have hnodes : (ys.map fun y => (y.1, y.2.map (Node.relocate f))).filterMap namedNode =
        (ys.filterMap namedNode).map fun x => (x.1, x.2.relocate f) := by
      rw [List.filterMap_map, List.map_filterMap]
      refine List.filterMap_congr fun y _ => ?_
      rcases y with ⟨_ | _, _ | _⟩ <;> rfl
    rw [hnodes, namedChildren, namedChildren, List.isEmpty_map]
    split
    · rfl
    · rw [Node.relocateChildren, Node.relocateNamed_eq]
  · have hslots : (ys.map fun y => (y.1, y.2.map (Node.relocate f))).map Prod.snd =
        (ys.map Prod.snd).map (Option.map (Node.relocate f)) := by
      simp [Function.comp_def]
    have hnone : ((ys.map Prod.snd).map (Option.map (Node.relocate f))).all Option.isNone =
        (ys.map Prod.snd).all Option.isNone := by
      rw [List.all_map]
      exact congrArg _ (funext fun o => by cases o <;> rfl)
    rw [hslots, indexedChildren, indexedChildren, hnone]
    split
    · rfl
    · rw [Node.relocateChildren, Node.relocateSlots_eq]

theorem assemble_relocated (es : List (Key × Value)) (d : Option Directive) (c : Children)
    (t : String) :
    Relocated r p q (assemble r (p ++ t) es d c)
      (assemble r (q ++ t) es d (Node.relocateChildren (rebase p q) c)) := by
  by_cases hne : d ≠ none ∨ c ≠ .leaf
  · have hne' : d ≠ none ∨ Node.relocateChildren (rebase p q) c ≠ .leaf :=
      hne.imp_right (mt (Node.relocateChildren_eq_leaf_iff _).mp)
    rw [assemble_eq hne, assemble_eq hne']
    refine (strategyAt_relocated _ t).map ?_
    rintro u _ rfl
    simp [Node.relocate]
  · obtain ⟨rfl, rfl⟩ : d = none ∧ c = .leaf := by tauto
    exact .ok rfl

/-- A position that is compiled at another path gives the same node elsewhere, or is refused alike. -/
theorem compileNode_relocated (v : Value) (t : String) :
    Relocated r p q (compileNode r s v (p ++ t)) (compileNode r s v (q ++ t)) := by
  induction v using schemaBranching.ind generalizing t with
  | h v ih =>
    cases v with
    | object es =>
      rw [compileNode_eq, compileNode_eq]
      refine (directiveOf_relocated es t).bind ?_
      rintro d _ rfl
      have hparts : Except.Mirrors (Refusal r p q)
          (List.Forall₂ fun y y' => (y.1, y.2.map (Node.relocate (rebase p q))) = y')
          (compileParts r s (p ++ t) (parts (.object es)))
          (compileParts r s (q ++ t) (parts (.object es))) := by
        refine .mapM fun x hx => ?_
        rw [x.1.extend_eq, x.1.extend_eq, String.append_assoc, String.append_assoc]
        exact (ih x hx _).map fun o o' ho => congrArg (x.1, ·) ho
      refine hparts.bind fun ys ys' hys => ?_
      obtain rfl : ys.map (fun y => (y.1, y.2.map (Node.relocate (rebase p q)))) = ys' := by
        rwa [← List.forall₂_map_left_iff, List.forall₂_eq_eq_eq] at hys
      rw [childrenOver_relocate]
      exact assemble_relocated es d _ t
    | _ => exact .ok rfl

theorem front_of_compile {v : Value} {n : Node} (h : compileNode r s v p = .ok (some n)) :
    ∀ m ∈ n.walk, ∃ t, m.path = p ++ t := by
  intro m hm
  rw [← n.map_snd_placed] at hm
  obtain ⟨x, hx, rfl⟩ := List.mem_map.mp hm
  obtain ⟨y, -, -, es, -, hy⟩ := exists_of_forall₂ (corresponds_of_compile h).flip hx
  exact ⟨trail y.1, hy.path.trans (pathAlong_eq p y.1)⟩

/-! ### Binding -/

/-- A failure of a run of `root`, whose paths start with `p`, and what it is where they start with `q`.
What a step raises already located, and a crash, stay as they are. -/
inductive Misstep (root : Node) (p q : String) : Failure → Failure → Prop
  | cancelled (t : String) : Misstep root p q (cancelledAt (p ++ t)) (cancelledAt (q ++ t))
  | located (t : String) {cause : Fault} : cause.annotated = false →
    Misstep root p q (.fault (.located (p ++ t) cause)) (.fault (.located (q ++ t) cause))
  | own {n : Node} {s : Session} {f : Failure} : n ∈ root.walk → ownStep n s = .error f →
    (∀ path, f.locate path = f) → Misstep root p q f f

/-- The runs of two trees that differ in the front of their paths. -/
structure SameRun {α : Type} (root : Node) (p q : String) (o o' : Outcome α × Session) : Prop where
  outcome : Except.Mirrors (Misstep root p q) Eq o.1 o'.1
  session : o'.2 = o.2.relocate (rebase p q)

variable {root : Node}

theorem misstep_of_ownStep {n : Node} {s : Session} {f : Failure} (hn : n ∈ root.walk)
    (h : ownStep n s = .error f) (t : String) :
    Misstep root p q (f.locate (p ++ t)) (f.locate (q ++ t)) := by
  cases f with
  | crash c => exact .own hn h fun _ => rfl
  | fault g =>
    cases hg : g.annotated with
    | false =>
      simp only [Failure.locate, Fault.locate, hg]
      exact .located t hg
    | true =>
      have hstays : ∀ path, (Failure.fault g).locate path = .fault g := fun path => by
        simp only [Failure.locate, Fault.locate, hg, if_true]
      rw [hstays, hstays]
      exact .own hn h hstays

section

variable (f : String → String)

theorem poll_relocate (token : Option CancelToken) (s : Session) :
    poll token (s.relocate f) = ((poll token s).1, (poll token s).2.relocate f) := by
  cases token <;> rfl

theorem fits_relocate (c : Children) (v : Value) : fits (Node.relocateChildren f c) v = fits c v := by
  cases c with
  | indexed slots => cases v <;> simp [Node.relocateChildren, Node.relocateSlots_eq, fits]
  | _ => cases v <;> rfl

theorem ownStep_relocate (n : Node) (s : Session) :
    ownStep (n.relocate f) (s.relocate f) = ownStep n s := by
  simp only [ownStep, extraction, Session.relocate, Node.strategy_relocate, Node.children_relocate,
    fits_relocate]

theorem after_relocate (n : Node) (s : Session) :
    after (n.relocate f) (s.relocate f) = (after n s).relocate f := by
  simp [after, Session.relocate]

theorem below_relocate (n : Node) (e : Extraction) :
    below (n.relocate f) e = (below n e).map fun x => (x.1, x.2.relocate f) := by
  unfold below
  split
  · rw [Node.children_relocate, Node.filled_relocateChildren]
  · rfl

end

theorem SameRun.error {α : Type} {g : Failure} {t : Session} {o : Outcome α × Session}
    (h : SameRun root p q (.error g, t) o) :
    ∃ g', Misstep root p q g g' ∧ o = (.error g', t.relocate (rebase p q)) := by
  obtain ⟨x, u⟩ := o
  obtain ⟨hx, rfl⟩ := h
  cases hx with
  | error hg => exact ⟨_, hg, rfl⟩

theorem SameRun.ok {α : Type} {a : α} {t : Session} {o : Outcome α × Session}
    (h : SameRun root p q (.ok a, t) o) : o = (.ok a, t.relocate (rebase p q)) := by
  obtain ⟨x, u⟩ := o
  obtain ⟨hx, rfl⟩ := h
  cases hx with
  | ok ha => rw [ha]

theorem SameRun.finish {e : Extraction} {o o' : Outcome (List (Branch × Value)) × Session}
    (h : SameRun root p q o o') : SameRun root p q (finish e o) (finish e o') := by
  constructor
  · rw [fst_finish, fst_finish]
    exact h.outcome.map fun _ _ hxs => by rw [hxs]
  · rw [snd_finish, snd_finish]
    exact h.session

/-- A tree whose paths start with `q` in place of `p` makes the same run. -/
theorem bind_relocated (hp : ∀ m ∈ root.walk, ∃ t, m.path = p ++ t) (token : Option CancelToken)
    (s : Session) :
    SameRun root p q (bind token root s)
      (bind token (root.relocate (rebase p q)) (s.relocate (rebase p q))) := by
  let f := rebase p q
  refine (run_induction token
    (P := fun n s o => n ∈ root.walk → SameRun root p q o (bind token (n.relocate f) (s.relocate f)))
    (Q := fun l s o => (∀ x ∈ l, x.2 ∈ root.walk) →
      SameRun root p q o (gather token (l.map fun x => (x.1, x.2.relocate f)) (s.relocate f)))
    ?cancelled ?faulty ?stepped ?nil ?failed ?stopped ?gathered).1 root s root.self_mem_walk
  case cancelled =>
    intro n s t hpoll hn
    obtain ⟨u, hu⟩ := hp n hn
    rw [bind_eq, poll_relocate, hpoll]
    simp only [Node.path_relocate, hu, f, rebase_append]
    exact ⟨.error (.cancelled u), rfl⟩
  case faulty =>
    intro n s t g hpoll ho hn
    obtain ⟨u, hu⟩ := hp n hn
    rw [bind_eq, poll_relocate, hpoll]
    simp only [ownStep_relocate, ho, after_relocate, Node.path_relocate, hu, f, rebase_append]
    exact ⟨.error (misstep_of_ownStep hn ho u), rfl⟩
  case stepped =>
    intro n s t e o hpoll ho hq hn
    have hbelow := hq fun x hx => Node.child_mem_walk hn (below_subset n e x hx)
    rw [bind_eq, poll_relocate, hpoll]
    simp only [ownStep_relocate, ho, after_relocate, below_relocate]
    exact hbelow.finish
  case nil => exact fun s _ => ⟨.ok rfl, rfl⟩
  case failed =>
    intro x rest s g t hx hm
    obtain ⟨g', hg, hfirst⟩ := (hx (hm x List.mem_cons_self)).error
    simp only [List.map_cons, gather, hfirst]
    exact ⟨.error hg, rfl⟩
  case stopped =>
    intro x rest s e t g u hx hr hm
    have hfirst := (hx (hm x List.mem_cons_self)).ok
    obtain ⟨g', hg, hrest⟩ := (hr fun y hy => hm y (List.mem_cons_of_mem _ hy)).error
    simp only [List.map_cons, gather, hfirst, f, hrest]
    exact ⟨.error hg, rfl⟩
  case gathered =>
    intro x rest s e t xs u hx hr hm
    have hfirst := (hx (hm x List.mem_cons_self)).ok
    have hrest := (hr fun y hy => hm y (List.mem_cons_of_mem _ hy)).ok
    simp only [List.map_cons, gather, hfirst, f, hrest]
    exact ⟨.ok rfl, rfl⟩

/-- A schema compiled at two paths is left out at both, or is refused alike, or gives trees that differ
in the front of their paths only; and on every document, cache and token the two trees make the same
run, but for the front of the path that a failure names. -/
theorem compileNode_anywhere (r : Registry) (s : Settings) (schema : Value) (p q : String) :
    (compileNode r s schema p = .ok none ∧ compileNode r s schema q = .ok none) ∨
      (∃ f g, compileNode r s schema p = .error f ∧ compileNode r s schema q = .error g ∧
        Refusal r p q f g) ∨
      ∃ n, compileNode r s schema p = .ok (some n) ∧
        compileNode r s schema q = .ok (some (n.relocate (rebase p q))) ∧
        (∀ m ∈ n.walk, ∃ t, m.path = p ++ t) ∧
        ∀ (token : Option CancelToken) (c : Cache),
          SameRun n p q (bind token n (.ofCache c))
            (bind token (n.relocate (rebase p q)) (.ofCache c)) := by
  have h := compileNode_relocated (r := r) (s := s) (p := p) (q := q) schema ""
  rw [String.append_empty, String.append_empty] at h
  generalize hx : compileNode r s schema p = x, hy : compileNode r s schema q = y at h
  cases h with
  | error hfg => exact .inr (.inl ⟨_, _, rfl, rfl, hfg⟩)
  | @ok o o' ho =>
    subst ho
    cases o with
    | none => exact .inl ⟨rfl, rfl⟩
    | some n =>
      have hfront := front_of_compile hx
      exact .inr (.inr ⟨n, rfl, rfl, hfront, fun token c => bind_relocated hfront token (.ofCache c)⟩)

end Tree

end Reshape
