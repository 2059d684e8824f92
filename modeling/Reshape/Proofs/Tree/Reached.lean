import Reshape.Proofs.Branching
import Reshape.Proofs.Outcome
import Reshape.Proofs.Tree.Transparency

/-! Which nodes a run without a token comes to, when the builders are functions of the document: all
nodes of the walk but those below a node without a match, up to the first one whose own step fails.
Its failure, located at the node, is that of the run. -/

namespace Reshape.Tree

variable {raw : Text.Bytes} {rs : List Representation}

/-- The own step of a node on a document that is read anew. -/
def stepAnew (raw : Text.Bytes) (rs : List Representation) (n : Node) : Outcome Extraction :=
  (extractAnew raw rs n.strategy).bind fun e =>
    if descends e then (fits n.children e.1).map fun _ => e else .ok e

theorem ownStep_sound {s : Session} (h : s.cache.Sound raw rs) (n : Node) :
    ownStep n s = stepAnew raw rs n := by
  rw [ownStep, extraction, (extractFrom_sound h n.strategy).1, stepAnew]

/-- Whether a node has no match, so that what is below it is left out. -/
def skips (raw : Text.Bytes) (rs : List Representation) (n : Node) : Bool :=
  match extractAnew raw rs n.strategy with
  | .ok (.null, false) => true
  | _ => false

theorem skips_eq {n : Node} {e : Extraction} (h : extractAnew raw rs n.strategy = .ok e) :
    skips raw rs n = !descends e := by
  rw [skips, h]
  rcases e with ⟨v, _ | _⟩ <;> cases v <;> rfl

/-- The walk with everything left out that stands below a node without a match. -/
def reached (raw : Text.Bytes) (rs : List Representation) (root : Node) : List Node :=
  ((Node.branching.lineages root).filter fun y => y.1.all fun m => !skips raw rs m).map Prod.snd

theorem reached_eq (n : Node) :
    reached raw rs n = n ::
      (if skips raw rs n then [] else n.children.filled).flatMap fun x => reached raw rs x.2 := by
  rw [reached, Branching.lineages_eq, List.filter_cons, if_pos (by simp), List.filter_flatMap,
    List.map_cons, List.map_flatMap]
  refine congrArg (n :: ·) ?_
  cases hn : skips raw rs n with
  | true => simp [List.filter_map, Function.comp_def, hn]
  | false => simp [List.filter_map, Function.comp_def, hn, reached, Node.branching]

theorem reached_of_ok {n : Node} {e : Extraction} (h : extractAnew raw rs n.strategy = .ok e) :
    reached raw rs n = n :: (below n e).flatMap fun x => reached raw rs x.2 := by
  rw [reached_eq, skips_eq h, below]
  cases descends e <;> rfl

/-- A run comes to these nodes in order, until it returns or a node fails. -/
def Traverses {α : Type} (raw : Text.Bytes) (rs : List Representation) (l : List Node) (s : Session) :
    Outcome α × Session → Prop
  | (.ok _, t) => t.started = s.started ++ l ∧ ∀ m ∈ l, ∃ e, stepAnew raw rs m = .ok e
  | (.error f, t) => ∃ before n rest g, l = before ++ n :: rest ∧
      t.started = s.started ++ (before ++ [n]) ∧ (∀ m ∈ before, ∃ e, stepAnew raw rs m = .ok e) ∧
      stepAnew raw rs n = .error g ∧ f = g.locate n.path

variable {α β : Type}

theorem Traverses.append_ok {l m : List Node} {s t : Session} {a : α} {o : Outcome β × Session}
    (hl : Traverses raw rs l s (.ok a, t)) (hm : Traverses raw rs m t o) :
    Traverses raw rs (l ++ m) s o := by
  obtain ⟨ht, hok⟩ := hl
  rcases o with ⟨f | b, u⟩
  · obtain ⟨before, n, rest, g, rfl, hu, hbefore, hn, rfl⟩ := hm
    refine ⟨l ++ before, n, rest, g, by simp, by rw [hu, ht]; simp, ?_, hn, rfl⟩
    exact List.forall_mem_append.mpr ⟨hok, hbefore⟩
  · obtain ⟨hu, hm⟩ := hm
    exact ⟨by rw [hu, ht, List.append_assoc], List.forall_mem_append.mpr ⟨hok, hm⟩⟩

theorem Traverses.append_error {l : List Node} {s t : Session} {f : Failure}
    (hl : Traverses raw rs l s ((.error f, t) : Outcome α × Session)) (m : List Node) :
    Traverses raw rs (l ++ m) s ((.error f, t) : Outcome β × Session) := by
  obtain ⟨before, n, rest, g, rfl, ht, hbefore, hn, rfl⟩ := hl
  exact ⟨before, n, rest ++ m, g, by simp, ht, hbefore, hn, rfl⟩

theorem Traverses.finish {l : List Node} {s : Session} {e : Extraction}
    {o : Outcome (List (Branch × Value)) × Session} (h : Traverses raw rs l s o) :
    Traverses raw rs l s (finish e o) := by
  rcases o with ⟨_ | _, _⟩ <;> exact h

theorem bind_traverses (n : Node) {s : Session} (h : s.cache.Sound raw rs) :
    Traverses raw rs (reached raw rs n) s (bind none n s) := by
  refine (run_induction none
    (P := fun n s o => s.cache.Sound raw rs →
      o.2.cache.Sound raw rs ∧ Traverses raw rs (reached raw rs n) s o)
    (Q := fun l s o => s.cache.Sound raw rs →
      o.2.cache.Sound raw rs ∧ Traverses raw rs (l.flatMap fun x => reached raw rs x.2) s o)
    ?cancelled ?faulty ?stepped ?nil ?failed ?stopped ?gathered).1 n s h |>.2
  -- without a token no run is cancelled
  case cancelled => exact fun n s t hp => by simp [poll] at hp
  case faulty =>
    intro n s t f hp ho hs
    obtain rfl : s = t := (Prod.mk.inj hp).2
    rw [ownStep_sound hs] at ho
    refine ⟨(extractFrom_sound hs n.strategy).2, ?_⟩
    rw [reached_eq]
    exact ⟨[], n, _, f, rfl, rfl, by simp, ho, rfl⟩
  case stepped =>
    intro n s t e o hp ho hq hs
    obtain rfl : s = t := (Prod.mk.inj hp).2
    obtain ⟨he, hsound⟩ := extractFrom_sound hs n.strategy
    obtain ⟨hu, hbelow⟩ := hq hsound
    have hn : Traverses raw rs [n] s (.ok e, after n s) :=
      ⟨rfl, fun m hm => ⟨e, List.mem_singleton.mp hm ▸ ownStep_sound hs n ▸ ho⟩⟩
    rw [snd_finish, reached_of_ok (he.symm.trans (ownStep_eq_ok.mp ho).1)]
    exact ⟨hu, (hn.append_ok hbelow).finish⟩
  case nil => exact fun s hs => ⟨hs, by simp [Traverses]⟩
  case failed =>
    intro x rest s f t hx hs
    obtain ⟨ht, hf⟩ := hx hs
    exact ⟨ht, hf.append_error _⟩
  case stopped =>
    intro x rest s r t f u hx hr hs
    obtain ⟨ht, hok⟩ := hx hs
    obtain ⟨hu, hf⟩ := hr ht
    exact ⟨hu, hok.append_ok hf⟩
  case gathered =>
    intro x rest s r t xs u hx hr hs
    obtain ⟨ht, hok⟩ := hx hs
    obtain ⟨hu, hall⟩ := hr ht
    exact ⟨hu, hok.append_ok hall⟩

/-- The own step of a node fails, and is located at the node. -/
def StepFails (raw : Text.Bytes) (rs : List Representation) (n : Node) (f : Failure) : Prop :=
  ∃ g, stepAnew raw rs n = .error g ∧ f = g.locate n.path

theorem StepFails.unique {n : Node} {f g : Failure} (hf : StepFails raw rs n f)
    (hg : StepFails raw rs n g) : f = g := by
  obtain ⟨f', hf', rfl⟩ := hf
  obtain ⟨g', hg', rfl⟩ := hg
  rw [Except.error.inj (hf'.symm.trans hg')]

theorem not_stepFails {n : Node} : (∀ f, ¬ StepFails raw rs n f) ↔ ∃ e, stepAnew raw rs n = .ok e := by
  constructor
  · intro h
    cases hs : stepAnew raw rs n with
    | ok e => exact ⟨e, rfl⟩
    | error g => exact absurd ⟨g, hs, rfl⟩ (h _)
  · rintro ⟨e, he⟩ f ⟨g, hg, -⟩
    simp [he] at hg

/-- What traverses nodes fails exactly with the failure of the first one whose own step fails. -/
theorem Traverses.error_iff {l : List Node} {s : Session} {o : Outcome α × Session}
    (h : Traverses raw rs l s o) {f : Failure} : o.1 = .error f ↔ First (StepFails raw rs) l f := by
  rcases o with ⟨g | a, t⟩
  · obtain ⟨before, m, rest, g, rfl, -, hbefore, hm, rfl⟩ := h
    have hfirst : First (StepFails raw rs) (before ++ m :: rest) (g.locate m.path) :=
      First.split_iff.mpr
        ⟨before, m, rest, rfl, fun a ha => not_stepFails.mpr (hbefore a ha), g, hm, rfl⟩
    constructor
    · intro hf
      exact Except.error.inj hf ▸ hfirst
    · exact fun hf => congrArg _ (hfirst.unique (fun _ _ _ hb hc => hb.unique hc) hf)
  · refine ⟨fun hf => (nomatch hf), fun hf => ?_⟩
    obtain ⟨m, hm, hfails⟩ := hf.exists_mem
    exact absurd hfails (not_stepFails.mpr (h.2 m hm) f)

/-- A run fails exactly with the failure of the first node it comes to whose own step fails. -/
theorem freshRun_eq_error (hrs : ∀ x ∈ rs, x.Steady raw) {n : Node} {f : Failure} :
    (freshRun raw rs none n).1 = .error f ↔ First (StepFails raw rs) (reached raw rs n) f :=
  (bind_traverses n (s := .ofCache (.ofDocument raw rs)) (Cache.sound_ofDocument hrs)).error_iff

theorem mem_walk_of_reached {n m : Node} (h : m ∈ reached raw rs n) : m ∈ n.walk := by
  rw [← n.map_snd_lineages]
  exact List.map_subset _ (List.filter_subset_self _) h

end Reshape.Tree
