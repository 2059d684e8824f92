import Reshape.Proofs.Tree.OwnStep

/-! Induction over a run, done once. `run_induction` has a case for every way in which a node or a
list of nodes ends; `bind_rel` carries a relation between sessions from single steps to a whole run,
and `bind_sim` carries a relation between two sessions through the same run. -/

namespace Reshape.Tree

variable (token : Option CancelToken)

/-- A property of runs of nodes, and one of gatherings, follow from the steps of either. -/
theorem run_induction {P : Node → Session → Outcome Extraction × Session → Prop}
    {Q : List (Branch × Node) → Session → Outcome (List (Branch × Value)) × Session → Prop}
    (cancelled : ∀ n s t, poll token s = (true, t) → P n s (.error (cancelledAt n.path), t))
    (faulty : ∀ n s t f, poll token s = (false, t) → ownStep n t = .error f →
      P n s (.error (f.locate n.path), after n t))
    (stepped : ∀ n s t e o, poll token s = (false, t) → ownStep n t = .ok e →
      Q (below n e) (after n t) o → P n s (finish e o))
    (nil : ∀ s, Q [] s (.ok [], s))
    (failed : ∀ x rest s f t, P x.2 s (.error f, t) → Q (x :: rest) s (.error f, t))
    (stopped : ∀ x rest s r t f u, P x.2 s (.ok r, t) → Q rest t (.error f, u) →
      Q (x :: rest) s (.error f, u))
    (gathered : ∀ x rest s r t xs u, P x.2 s (.ok r, t) → Q rest t (.ok xs, u) →
      Q (x :: rest) s (.ok (if r.2 then (x.1, r.1) :: xs else xs), u)) :
    (∀ n s, P n s (bind token n s)) ∧ ∀ l s, Q l s (gather token l s) := by
  have hlist : ∀ l : List (Branch × Node), (∀ x ∈ l, ∀ s, P x.2 s (bind token x.2 s)) →
      ∀ s, Q l s (gather token l s) := by
    intro l hl
    induction l with
    | nil => exact nil
    | cons x rest ih =>
      intro s
      obtain ⟨hx, hrest⟩ := List.forall_mem_cons.mp hl
      have hp := hx s
      simp only [gather]
      rcases hb : bind token x.2 s with ⟨f | ⟨v, b⟩, t⟩ <;> rw [hb] at hp
      · exact failed x rest s f t hp
      · have hq := ih hrest t
        simp only
        rcases hg : gather token rest t with ⟨f | xs, u⟩ <;> rw [hg] at hq
        · exact stopped x rest s (v, b) t f u hp hq
        · exact gathered x rest s (v, b) t xs u hp hq
  have hnode : ∀ n s, P n s (bind token n s) := by
    intro n
    induction n using Node.ind with
    | h n ih =>
      intro s
      rw [bind_eq]
      rcases hp : poll token s with ⟨_ | _, t⟩
      · simp only
        cases ho : ownStep n t with
        | error f => exact faulty n s t f hp ho
        | ok e =>
          refine stepped n s t e _ hp ho ?_
          exact hlist (below n e) (fun x hx => ih x (below_subset n e x hx)) (after n t)
      · exact cancelled n s t hp
  exact ⟨hnode, fun l => hlist l fun x _ => hnode x.2⟩

/-- What relates a session to the next one at every step relates it to the last one of a run. -/
theorem bind_rel {R : Session → Session → Prop} (hrefl : ∀ s, R s s)
    (htrans : ∀ {s t u}, R s t → R t u → R s u) (hpoll : ∀ s, R s (poll token s).2)
    (root : Node) (hstep : ∀ n ∈ root.walk, ∀ s, R s (after n s)) (s : Session) :
    R s (bind token root s).2 := by
  have hasked : ∀ {s t b}, poll token s = (b, t) → R s t := fun {s t b} h => by
    have := hpoll s
    rwa [h] at this
  refine (run_induction token (P := fun n s o => n ∈ root.walk → R s o.2)
    (Q := fun l s o => (∀ x ∈ l, x.2 ∈ root.walk) → R s o.2) ?cancelled ?faulty ?stepped ?nil
    ?failed ?stopped ?gathered).1 root s root.self_mem_walk
  case cancelled => exact fun n s t hp _ => hasked hp
  case faulty => exact fun n s t f hp _ hn => htrans (hasked hp) (hstep n hn t)
  case stepped =>
    intro n s t e o hp _ hq hn
    rw [snd_finish]
    refine htrans (htrans (hasked hp) (hstep n hn t)) (hq ?_)
    exact fun x hx => Node.child_mem_walk hn (below_subset n e x hx)
  case nil => exact fun s _ => hrefl s
  case failed => exact fun x rest s f t hx hm => hx (hm x List.mem_cons_self)
  case stopped =>
    intro x rest s r t f u hx hr hm
    exact htrans (hx (hm x List.mem_cons_self)) (hr fun y hy => hm y (List.mem_cons_of_mem _ hy))
  case gathered =>
    intro x rest s r t xs u hx hr hm
    exact htrans (hx (hm x List.mem_cons_self)) (hr fun y hy => hm y (List.mem_cons_of_mem _ hy))

theorem poll_cache (s : Session) : (poll token s).2.cache = s.cache := by
  cases token <;> rfl

theorem poll_started (s : Session) : (poll token s).2.started = s.started := by
  cases token <;> rfl

theorem kept_of_poll {s t : Session} {b : Bool} (h : poll token s = (b, t)) :
    t.cache = s.cache ∧ t.started = s.started := by
  obtain rfl : (poll token s).2 = t := congrArg Prod.snd h
  exact ⟨poll_cache token s, poll_started token s⟩

/-- Where the token was asked as often, it answers the same. -/
theorem poll_congr {s t : Session} (h : t.polls = s.polls) :
    (poll token s).1 = (poll token t).1 ∧ (poll token t).2.polls = (poll token s).2.polls := by
  cases token with
  | none => exact ⟨rfl, h⟩
  | some answer => simp only [poll, h, true_and]

/-- A run starts nodes of its tree, after those that were started before. -/
theorem started_bind (root : Node) (s : Session) :
    ∃ l, (bind token root s).2.started = s.started ++ l ∧ ∀ n ∈ l, n ∈ root.walk := by
  refine bind_rel token (R := fun s t => ∃ l, t.started = s.started ++ l ∧ ∀ n ∈ l, n ∈ root.walk)
    ?refl ?trans ?poll root ?step s
  case refl => exact fun s => ⟨[], by simp⟩
  case trans =>
    rintro s t u ⟨l, hl, hwalk⟩ ⟨m, hm, hwalk'⟩
    exact ⟨l ++ m, by rw [hm, hl, List.append_assoc], List.forall_mem_append.mpr ⟨hwalk, hwalk'⟩⟩
  case poll => exact fun s => ⟨[], by simp [poll_started]⟩
  case step => exact fun n hn s => ⟨[n], rfl, by simpa using hn⟩

/-! ### Two sessions -/

/-- The step of a node extracts the same in sessions related by `R`, and leaves them related by `Q`;
unless it fails, they stay related by `R`. -/
structure Carries (R Q : Session → Session → Prop) (n : Node) : Prop where
  extracts : ∀ {s t}, R s t → extraction n s = extraction n t
  ends : ∀ {s t}, R s t → Q (after n s) (after n t)
  lives : ∀ {s t e}, R s t → extraction n s = .ok e → R (after n s) (after n t)

/-- One outcome in sessions related by `Q`; those of a success are related by `R`. -/
structure Paired {α : Type} (R Q : Session → Session → Prop) (o p : Outcome α × Session) :
    Prop where
  outcome : p.1 = o.1
  ends : Q o.2 p.2
  lives : ∀ {r}, o.1 = .ok r → R o.2 p.2

variable {R Q : Session → Session → Prop}

theorem Paired.of_error {α : Type} {f : Failure} {s t : Session} (h : Q s t) :
    Paired R Q ((.error f : Outcome α), s) (.error f, t) :=
  ⟨rfl, h, by simp⟩

theorem Paired.finish {o p : Outcome (List (Branch × Value)) × Session} (h : Paired R Q o p)
    (e : Extraction) : Paired R Q (finish e o) (finish e p) := by
  refine ⟨?outcome, ?ends, ?lives⟩
  case outcome => simp only [fst_finish, h.outcome]
  case ends => simpa only [snd_finish] using h.ends
  case lives =>
    intro r hr
    rw [fst_finish] at hr
    cases ho : o.1 with
    | error f => simp [ho, Except.map] at hr
    | ok xs => simpa only [snd_finish] using h.lives ho

/-- Two sessions that the nodes started by a run keep related make the same run. They need not be
related any more when it fails, since nothing is done after that. -/
theorem bind_paired (hRQ : ∀ {s t}, R s t → Q s t)
    (hpoll : ∀ {s t}, R s t →
      (poll token s).1 = (poll token t).1 ∧ R (poll token s).2 (poll token t).2)
    {root : Node} {s t : Session} {l : List Node}
    (hl : (bind token root s).2.started = s.started ++ l) (hstep : ∀ n ∈ l, Carries R Q n)
    (h : R s t) : Paired R Q (bind token root s) (bind token root t) := by
  have hasked : ∀ {s s' t b}, poll token s = (b, s') → R s t →
      ∃ t', poll token t = (b, t') ∧ R s' t' := fun {s s' t b} hp h => by
    obtain ⟨he, hR⟩ := hpoll h
    rw [hp] at he hR
    exact ⟨(poll token t).2, Prod.ext he.symm rfl, hR⟩
  -- each part of the run comes with the nodes that it starts, and asks the hypothesis for these only
  have hrun : ∃ l, (bind token root s).2.started = s.started ++ l ∧
      ((∀ n ∈ l, Carries R Q n) → ∀ t, R s t →
        Paired R Q (bind token root s) (bind token root t)) := by
    refine (run_induction token
      (P := fun n s o => ∃ l, o.2.started = s.started ++ l ∧
        ((∀ m ∈ l, Carries R Q m) → ∀ t, R s t → Paired R Q o (bind token n t)))
      (Q := fun ns s o => ∃ l, o.2.started = s.started ++ l ∧
        ((∀ m ∈ l, Carries R Q m) → ∀ t, R s t → Paired R Q o (gather token ns t)))
      ?cancelled ?faulty ?stepped ?nil ?failed ?stopped ?gathered).1 root s
    case cancelled =>
      intro n s s' hp
      refine ⟨[], by simp [(kept_of_poll token hp).2], fun _ t h => ?_⟩
      obtain ⟨t', ht, hR⟩ := hasked hp h
      simp only [bind_eq, ht]
      exact .of_error (hRQ hR)
    case faulty =>
      intro n s s' f hp ho
      refine ⟨[n], by simp [after, (kept_of_poll token hp).2], fun hs t h => ?_⟩
      obtain ⟨t', ht, hR⟩ := hasked hp h
      have hn := hs n List.mem_cons_self
      have ho' : ownStep n t' = .error f := by rw [← ho]; simp only [ownStep, hn.extracts hR]
      simp only [bind_eq, ht, ho']
      exact .of_error (hn.ends hR)
    case stepped =>
      intro n s s' e o hp ho hq
      obtain ⟨l, hl, hq⟩ := hq
      refine ⟨n :: l, by simp [hl, after, (kept_of_poll token hp).2], fun hs t h => ?_⟩
      obtain ⟨hn, hs⟩ := List.forall_mem_cons.mp hs
      obtain ⟨t', ht, hR⟩ := hasked hp h
      have ho' : ownStep n t' = .ok e := by rw [← ho]; simp only [ownStep, hn.extracts hR]
      have hR' := hn.lives hR (ownStep_eq_ok.mp ho).1
      simp only [bind_eq, ht, ho']
      exact (hq hs _ hR').finish e
    case nil => exact fun s => ⟨[], by simp, fun _ t h => ⟨rfl, hRQ h, fun _ => h⟩⟩
    case failed =>
      intro x rest s f s' hx
      obtain ⟨l, hl, hx⟩ := hx
      refine ⟨l, hl, fun hs t h => ?_⟩
      have hfirst := hx hs t h
      rw [gather_of_error token hfirst.outcome]
      exact .of_error hfirst.ends
    case stopped =>
      intro x rest s r s' f s'' hx hr
      obtain ⟨l, hl, hx⟩ := hx
      obtain ⟨m, hm, hr⟩ := hr
      refine ⟨l ++ m, by rw [hm, hl, List.append_assoc], fun hs t h => ?_⟩
      obtain ⟨hs, hs'⟩ := List.forall_mem_append.mp hs
      have hfirst := hx hs t h
      have hrest := hr hs' _ (hfirst.lives rfl)
      rw [gather_of_ok token hfirst.outcome, hrest.outcome]
      exact .of_error hrest.ends
    case gathered =>
      intro x rest s r s' xs s'' hx hr
      obtain ⟨l, hl, hx⟩ := hx
      obtain ⟨m, hm, hr⟩ := hr
      refine ⟨l ++ m, by rw [hm, hl, List.append_assoc], fun hs t h => ?_⟩
      obtain ⟨hs, hs'⟩ := List.forall_mem_append.mp hs
      have hfirst := hx hs t h
      have hrest := hr hs' _ (hfirst.lives rfl)
      rw [gather_of_ok token hfirst.outcome, hrest.outcome]
      exact ⟨rfl, hrest.ends, fun _ => hrest.lives rfl⟩
  obtain ⟨m, hm, hrun⟩ := hrun
  obtain rfl := List.append_cancel_left (hl.symm.trans hm)
  exact hrun hstep t h

/-- The step of a node keeps sessions related, and extracts the same from both. -/
def Respects (R : Session → Session → Prop) (n : Node) : Prop :=
  ∀ s t, R s t → extraction n s = extraction n t ∧ R (after n s) (after n t)

/-- A relation that failures keep as well holds at the end of every run. -/
theorem bind_sim
    (hpoll : ∀ {s t}, R s t →
      (poll token s).1 = (poll token t).1 ∧ R (poll token s).2 (poll token t).2)
    {root : Node} {s t : Session} {l : List Node}
    (hl : (bind token root s).2.started = s.started ++ l) (hstep : ∀ n ∈ l, Respects R n)
    (h : R s t) :
    (bind token root s).1 = (bind token root t).1 ∧
      R (bind token root s).2 (bind token root t).2 := by
  have hcarries : ∀ n ∈ l, Carries R R n := fun n hn =>
    ⟨fun h => (hstep n hn _ _ h).1, fun h => (hstep n hn _ _ h).2, fun h _ => (hstep n hn _ _ h).2⟩
  have hpaired := bind_paired token (fun h => h) hpoll hl hcarries h
  exact ⟨hpaired.outcome.symm, hpaired.ends⟩

end Reshape.Tree
