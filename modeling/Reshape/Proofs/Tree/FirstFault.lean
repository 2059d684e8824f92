import Mathlib.Logic.Relation
import Reshape.Proofs.Tree.Causes

/-! Which fault ends a run without a token. An agenda lists the nodes still to run: the next one makes
its own step and puts its children in front of the others. A run fails exactly if the agenda comes to
a node whose own step fails, and it fails there: with that fault, located at that node once, and with
nothing extracted after it. -/

namespace Reshape

/-- A builder that finds fault with documents only. -/
def Representation.Contained (r : Representation) (raw : Text.Bytes) : Prop :=
  ∀ k x, r.build k raw ≠ .error (.other x)

/-- A strategy that reports faults of the library only. -/
def Strategy.Contained (s : Strategy) : Prop := ∀ d c, s.extract d ≠ .error (.crash c)

namespace Tree

/-- The nodes still to run, the next one first, and the session so far. -/
abbrev Agenda := List Node × Session

/-- The next node makes its own step; its children come next, in order. -/
inductive Advances : Agenda → Agenda → Prop
  | step {n : Node} {rest : List Node} {s : Session} {e : Extraction} : ownStep n s = .ok e →
    Advances (n :: rest, s) ((below n e).map Prod.snd ++ rest, after n s)

/-- The agenda comes to a node, and its own step fails. -/
def Fails (a : Agenda) (n : Node) (s : Session) (f : Failure) : Prop :=
  ∃ rest, Relation.ReflTransGen Advances a (n :: rest, s) ∧ ownStep n s = .error f

/-! ### Agendas run to their ends -/

theorem advances_unique : Relator.RightUnique Advances := by
  intro a b c hb hc
  cases hb with
  | step h =>
    cases hc with
    | step h' =>
      obtain rfl := Except.ok.inj (h.symm.trans h')
      rfl

theorem not_advances_nil {s : Session} {b : Agenda} : ¬ Advances ([], s) b := by
  intro h
  cases h

theorem not_advances_of_error {n : Node} {rest : List Node} {s : Session} {f : Failure}
    (h : ownStep n s = .error f) {b : Agenda} : ¬ Advances (n :: rest, s) b := by
  intro hb
  cases hb with
  | step h' => simp [h] at h'

/-- Where an agenda cannot go on, every way of it ends. -/
theorem eq_of_stuck {a b c : Agenda} (hb : Relation.ReflTransGen Advances a b)
    (hc : Relation.ReflTransGen Advances a c) (hbs : ∀ d, ¬ Advances b d)
    (hcs : ∀ d, ¬ Advances c d) : b = c := by
  rcases hb.total_of_right_unique advances_unique hc with h | h
  · rcases h.cases_head with rfl | ⟨d, hd, -⟩
    · rfl
    · exact absurd hd (hbs d)
  · rcases h.cases_head with rfl | ⟨d, hd, -⟩
    · rfl
    · exact absurd hd (hcs d)

theorem Fails.unique {a : Agenda} {m n : Node} {s t : Session} {f g : Failure} (hm : Fails a m s f)
    (hn : Fails a n t g) : m = n ∧ s = t ∧ f = g := by
  obtain ⟨rest, hr, hf⟩ := hm
  obtain ⟨rest', hr', hg⟩ := hn
  have h := eq_of_stuck hr hr' (fun _ => not_advances_of_error hf) fun _ => not_advances_of_error hg
  obtain ⟨⟨rfl, rfl⟩, rfl⟩ : (m = n ∧ rest = rest') ∧ s = t := by simpa using h
  exact ⟨rfl, rfl, Except.error.inj (hf.symm.trans hg)⟩

theorem Fails.head {a b : Agenda} {n : Node} {s : Session} {f : Failure}
    (h : Relation.ReflTransGen Advances a b) (hf : Fails b n s f) : Fails a n s f := by
  obtain ⟨rest, hr, ho⟩ := hf
  exact ⟨rest, h.trans hr, ho⟩

/-! ### Runs follow the agenda -/

/-- What a run of these nodes does to an agenda that goes on with `rest`: one that returns works them
off, one that fails does so where the agenda does. -/
def Follows {α : Type} (nodes rest : List Node) (s : Session) : Outcome α × Session → Prop
  | (.ok _, t) => Relation.ReflTransGen Advances (nodes ++ rest, s) (rest, t)
  | (.error f, t) => ∃ m u g, Fails (nodes ++ rest, s) m u g ∧ f = g.locate m.path ∧ t = after m u

theorem bind_follows (n : Node) (s : Session) (rest : List Node) :
    Follows [n] rest s (bind none n s) := by
  refine (run_induction none (P := fun n s o => ∀ rest, Follows [n] rest s o)
    (Q := fun l s o => ∀ rest, Follows (l.map Prod.snd) rest s o) ?cancelled ?faulty ?stepped ?nil
    ?failed ?stopped ?gathered).1 n s rest
  -- without a token no run is cancelled
  case cancelled => exact fun n s t hp => by simp [poll] at hp
  case faulty =>
    intro n s t f hp ho rest
    obtain rfl : s = t := (Prod.mk.inj hp).2
    exact ⟨n, s, f, ⟨rest, .refl, ho⟩, rfl, rfl⟩
  case stepped =>
    intro n s t e o hp ho hq rest
    obtain rfl : s = t := (Prod.mk.inj hp).2
    have hstep : Relation.ReflTransGen Advances (n :: rest, s)
        ((below n e).map Prod.snd ++ rest, after n s) := .single (.step ho)
    have hbelow := hq rest
    rcases o with ⟨f | xs, t⟩
    · obtain ⟨m, u, g, hm, hf, ht⟩ := hbelow
      exact ⟨m, u, g, hm.head hstep, hf, ht⟩
    · exact hstep.trans hbelow
  case nil => exact fun s rest => .refl
  case failed => exact fun x l s f t hx rest => hx (l.map Prod.snd ++ rest)
  case stopped =>
    intro x l s r t f u hx hl rest
    obtain ⟨m, w, g, hm, hf, hu⟩ := hl rest
    exact ⟨m, w, g, hm.head (hx (l.map Prod.snd ++ rest)), hf, hu⟩
  case gathered =>
    intro x l s r t xs u hx hl rest
    have hfirst : Relation.ReflTransGen Advances (x.2 :: (l.map Prod.snd ++ rest), s)
        (l.map Prod.snd ++ rest, t) := hx (l.map Prod.snd ++ rest)
    exact hfirst.trans (hl rest)

/-- A run fails exactly if the agenda does, and then it ends where the agenda ends. -/
theorem bind_error_iff {n : Node} {s t : Session} {f : Failure} :
    bind none n s = (.error f, t) ↔
      ∃ m u g, Fails ([n], s) m u g ∧ f = g.locate m.path ∧ t = after m u := by
  have hrun := bind_follows n s []
  rcases hb : bind none n s with ⟨f' | r, t'⟩ <;> rw [hb] at hrun
  · obtain ⟨m, u, g, hm, rfl, rfl⟩ := hrun
    constructor
    · intro h
      obtain ⟨hf, rfl⟩ := Prod.mk.inj h
      exact ⟨m, u, g, hm, (Except.error.inj hf).symm, rfl⟩
    · rintro ⟨m', u', g', hm', rfl, rfl⟩
      obtain ⟨rfl, rfl, rfl⟩ := hm.unique hm'
      rfl
  · refine ⟨by simp, ?_⟩
    -- an agenda that is worked off cannot come to a failing node
    rintro ⟨m, u, g, ⟨rest, hr, ho⟩, -, -⟩
    have h := eq_of_stuck hrun hr (fun _ => not_advances_nil) fun _ => not_advances_of_error ho
    simp at h

/-! ### What agendas hold -/

/-- What holds of every agenda that a run of `root` comes to. -/
structure Within (root : Node) (s₀ : Session) (a : Agenda) : Prop where
  /-- Nodes are run in the order of the walk, those without a turn left out. -/
  order : (a.2.started ++ a.1.flatMap Node.walk).Sublist (s₀.started ++ root.walk)
  cache : s₀.cache.Later a.2.cache

theorem within_of_advances {root : Node} {s₀ : Session} {a : Agenda}
    (h : Relation.ReflTransGen Advances ([root], s₀) a) : Within root s₀ a := by
  induction h with
  | refl => exact ⟨by simp, .refl _⟩
  | tail _ hstep ih =>
    cases hstep with
    | @step n rest s e ho =>
      refine ⟨List.Sublist.trans ?_ ih.order, ih.cache.trans (later_extractFrom _ _)⟩
      have hbelow : (below n e).Sublist n.children.filled := by
        unfold below
        split
        · exact .refl _
        · exact List.nil_sublist _
      have hwalk : ((below n e).flatMap fun x => x.2.walk).Sublist
          (n.children.filled.flatMap fun x => x.2.walk) := hbelow.flatMap _
      simp only [after, List.flatMap_cons, List.flatMap_append, List.flatMap_map, List.append_assoc,
        n.walk_eq, List.cons_append]
      exact ((hwalk.append_right _).cons_cons n).append_left s.started

theorem Within.started {root n : Node} {s₀ s : Session} {rest : List Node} (h₀ : s₀.started = [])
    (h : Within root s₀ (n :: rest, s)) : (s.started ++ [n]).Sublist root.walk := by
  have hs := h.order
  simp only [h₀, List.nil_append, List.flatMap_cons, n.walk_eq, List.cons_append] at hs
  exact (((List.nil_sublist _).cons_cons n).append_left s.started).trans hs

theorem Within.contained {root : Node} {raw : Text.Bytes} {rs : List Representation} {a : Agenda}
    (hr : ∀ r ∈ rs, r.Contained raw) (h : Within root (.ofCache (Cache.ofDocument raw rs)) a) :
    ∀ x ∈ a.2.cache.slots, x.representation.Contained a.2.cache.raw := by
  intro x hx
  have hm : x.representation ∈ a.2.cache.slots.map (·.representation) := List.mem_map_of_mem hx
  rw [h.cache.representations] at hm
  obtain ⟨y, hy, he⟩ := List.mem_map.mp hm
  obtain ⟨r, hrm, rfl⟩ := List.mem_map.mp hy
  rw [h.cache.raw, ← he]
  exact hr r hrm

/-! ### What fails -/

/-- A contained step fails with a fault; one that is located already was reported by the strategy. -/
theorem ownStep_error {n : Node} {s : Session} {f : Failure} (hn : n.strategy.Contained)
    (hc : ∀ x ∈ s.cache.slots, x.representation.Contained s.cache.raw) (h : ownStep n s = .error f) :
    ∃ g, f = .fault g ∧
      (g.annotated = true → ∃ d, n.strategy.extract d = .error (.fault g)) := by
  have hover : s.cache.Over s.cache.raw (s.cache.slots.map (·.representation)) := ⟨rfl, rfl⟩
  cases ownStep_raises hover h with
  | request => exact ⟨_, rfl, by simp [Fault.annotated]⟩
  | @build x k b hx _ hb =>
    obtain ⟨y, hy, rfl⟩ := List.mem_map.mp hx
    cases b with
    | other g => exact absurd hb (hc y hy k g)
    | badValue r | wrongKind r | tooDeep r => exact ⟨_, rfl, by simp [Fault.annotated]⟩
  | @extract d _ hd =>
    cases f with
    | fault g => exact ⟨g, rfl, fun _ => ⟨d, hd⟩⟩
    | crash c => exact absurd hd (hn d c)
  | fit hf =>
    rcases fits_eq_error hf with ⟨_, rfl⟩ | ⟨_, _, rfl⟩ <;>
      exact ⟨_, rfl, by simp [Fault.annotated]⟩

/-! ### Runs of contained trees -/

/-- With strategies and builders that are contained, a run on a fresh cache fails exactly if the own
step of some node fails, in the order of the agenda. It ends with that step, and with its fault,
which is located once, at that node, unless the strategy of the node reported it located. -/
theorem bind_fails {root : Node} {raw : Text.Bytes} {rs : List Representation}
    (hs : ∀ n ∈ root.walk, n.strategy.Contained) (hr : ∀ r ∈ rs, r.Contained raw) :
    let fresh := Session.ofCache (Cache.ofDocument raw rs)
    ((∃ f, (bind none root fresh).1 = .error f) ↔ ∃ n s f, Fails ([root], fresh) n s f) ∧
      ∀ n s f, Fails ([root], fresh) n s f →
        (bind none root fresh).2.started = s.started ++ [n] ∧
          (s.started ++ [n]).Sublist root.walk ∧
          ∃ g, f = .fault g ∧
            (g.annotated = false → (bind none root fresh).1 = .error (.fault (.located n.path g)) ∧
              ∀ p c, g ≠ .located p c) ∧
            (g.annotated = true → (bind none root fresh).1 = .error (.fault g) ∧
              ∃ d, n.strategy.extract d = .error (.fault g)) := by
  intro fresh
  refine ⟨?_, ?_⟩
  · constructor
    · rintro ⟨f, hf⟩
      obtain ⟨n, s, g, hn, -, -⟩ := bind_error_iff.mp (Prod.ext hf rfl)
      exact ⟨n, s, g, hn⟩
    · rintro ⟨n, s, f, hn⟩
      have hb := bind_error_iff.mpr ⟨n, s, f, hn, rfl, rfl⟩
      exact ⟨_, congrArg Prod.fst hb⟩
  · intro n s f hn
    have hb := bind_error_iff.mpr ⟨n, s, f, hn, rfl, rfl⟩
    obtain ⟨rest, hreach, ho⟩ := hn
    have hw := within_of_advances hreach
    have hstarted := hw.started rfl
    obtain ⟨g, rfl, hg⟩ := ownStep_error (hs n (hstarted.subset (by simp))) (hw.contained hr) ho
    refine ⟨by rw [hb]; rfl, hstarted, g, rfl, ?_, ?_⟩
    · intro ha
      refine ⟨?_, fun p c hgc => by simp [hgc, Fault.annotated] at ha⟩
      rw [hb, Failure.locate, Fault.locate, ha]
      rfl
    · intro ha
      refine ⟨?_, hg ha⟩
      rw [hb, Failure.locate, Fault.locate, ha]
      rfl

/-- A sequence that is too short fails below the root, and the child behind it is not extracted. -/
theorem fails_at_sequence :
    let item := Node.mk "$.a[1]" .absent .leaf
    let seed := Node.mk "$.a" ⟨"slice", "1", none, .sequence 1⟩ (.indexed [none, some item])
    let root := Node.mk "$" .mapping (.named [("a", seed), ("b", .mk "$.b" .absent .leaf)])
    let fresh := Session.ofCache (Cache.ofDocument [] [])
    (∀ n ∈ root.walk, n.strategy.Contained) ∧
      (bind none root fresh).1 = .error (.fault (.located "$.a" (.capacity 1 2))) ∧
      (bind none root fresh).2.started = [root, seed] := by
  intro item seed root fresh
  have hs : ∀ n ∈ root.walk, n.strategy.Contained := by
    intro n hn
    simp only [root, seed, item, Node.walk, Node.walkChildren, Node.walkNamed, Node.walkSlots,
      List.append_nil, List.cons_append, List.nil_append, List.mem_cons, List.not_mem_nil,
      or_false] at hn
    rcases hn with rfl | rfl | rfl | rfl <;> intro d c h <;> cases h
  have hroot : Advances ([root], fresh) ([seed, .mk "$.b" .absent .leaf], after root fresh) :=
    .step (e := (.object [], false)) rfl
  have hf : Fails ([root], fresh) seed (after root fresh) (.fault (.capacity 1 2)) :=
    ⟨_, .single hroot, rfl⟩
  obtain ⟨hstarted, -, g, hg, hlocated, -⟩ :=
    (bind_fails hs (fun _ h => absurd h List.not_mem_nil)).2 _ _ _ hf
  obtain rfl : .capacity 1 2 = g := Failure.fault.inj hg
  exact ⟨hs, (hlocated rfl).1, hstarted⟩

end Tree

end Reshape
