import Reshape.Proofs.Tree.Reached

/-! Cancelled runs. A run asks its token once before each node that the run without a token extracts,
and never else. It stops at the first answer that is yes, with what was extracted until then; without
one, it is the run without a token. -/

namespace Reshape.Tree

/-- The nodes before the first one at which a token is set, and that node. The token has been asked
`p` times before. -/
def cutShort (token : CancelToken) : Nat → List Node → Option (List Node × Node)
  | _, [] => none
  | p, n :: rest =>
    if token p then some ([], n)
    else (cutShort token (p + 1) rest).map fun x => (n :: x.1, x.2)

variable {token : CancelToken}

theorem cutShort_append (p : Nat) (l m : List Node) :
    cutShort token p (l ++ m) = (cutShort token p l).or
      ((cutShort token (p + l.length) m).map fun x => (l ++ x.1, x.2)) := by
  induction l generalizing p with
  | nil => simp [cutShort]
  | cons n l ih =>
    have hp : p + 1 + l.length = p + (n :: l).length := by simp only [List.length_cons]; omega
    rw [List.cons_append, cutShort, cutShort, ih, hp]
    cases token p with
    | true => rfl
    | false => cases cutShort token (p + 1) l <;> simp [Function.comp_def]

theorem cutShort_eq_none {p : Nat} {l : List Node} (h : ∀ i < l.length, token (p + i) = false) :
    cutShort token p l = none := by
  induction l generalizing p with
  | nil => rfl
  | cons n l ih =>
    have hn : token p = false := h 0 (by simp)
    have hl : cutShort token (p + 1) l = none := by
      refine ih fun i hi => ?_
      have hi' : token (p + (i + 1)) = false := h (i + 1) (by simpa using hi)
      rwa [← Nat.add_assoc, Nat.add_right_comm] at hi'
    simp [cutShort, hn, hl]

theorem cutShort_eq_some {p j : Nat} {l : List Node} (hj : j < l.length)
    (hno : ∀ i < j, token (p + i) = false) (hyes : token (p + j) = true) :
    cutShort token p l = some (l.take j, l[j]) := by
  induction l generalizing p j with
  | nil => simp at hj
  | cons n l ih =>
    cases j with
    | zero =>
      have hn : token p = true := hyes
      simp [cutShort, hn]
    | succ j =>
      have hn : token p = false := hno 0 (by omega)
      have hshift : ∀ i, p + 1 + i = p + (i + 1) := fun i => by omega
      have hj' : j < l.length := by simpa using hj
      have hl : cutShort token (p + 1) l = some (l.take j, l[j]) := by
        refine ih hj' (fun i hi => ?_) ?_
        · rw [hshift]
          exact hno (i + 1) (by omega)
        · rw [hshift]
          exact hyes
      simp [cutShort, hn, hl]

/-! ### Runs with and without a token -/

/-- How a run `o'` with a token, begun in a session `s`, comes from the run `o` without one, which
extracts the nodes `l`. -/
def Cut {α : Type} (token : CancelToken) (l : List Node) (s : Session)
    (o o' : Outcome α × Session) : Prop :=
  match cutShort token s.polls l with
  | none => o' = (o.1, { o.2 with polls := s.polls + l.length })
  | some (before, n) => o'.1 = .error (cancelledAt n.path) ∧
      o'.2.polls = s.polls + before.length + 1 ∧ o'.2.started = s.started ++ before

variable {α β : Type}

theorem Cut.map {l : List Node} {s : Session} {o o' : Outcome α × Session} (g : α → β)
    (h : Cut token l s o o') : Cut token l s (o.1.map g, o.2) (o'.1.map g, o'.2) := by
  unfold Cut at *
  split at h
  · rw [h]
  · obtain ⟨hc, hp, hs⟩ := h
    exact ⟨by rw [hc]; rfl, hp, hs⟩

theorem finish_eq (e : Extraction) (o : Outcome (List (Branch × Value)) × Session) :
    finish e o = (o.1.map fun xs => (e.1.write xs, e.2 || !xs.isEmpty), o.2) :=
  Prod.ext (fst_finish e o) (snd_finish e o)

theorem gather_cons_error {t : Option CancelToken} {x : Branch × Node} {s : Session} {f : Failure}
    (h : (bind t x.2 s).1 = .error f) (rest : List (Branch × Node)) :
    gather t (x :: rest) s = (.error f, (bind t x.2 s).2) := by
  simp only [gather]
  rcases hb : bind t x.2 s with ⟨_ | _, u⟩ <;> simp_all

theorem gather_cons_ok {t : Option CancelToken} {x : Branch × Node} {s u : Session} {r : Extraction}
    (h : bind t x.2 s = (.ok r, u)) (rest : List (Branch × Node)) :
    gather t (x :: rest) s =
      ((gather t rest u).1.map fun xs => if r.2 then (x.1, r.1) :: xs else xs,
        (gather t rest u).2) := by
  simp only [gather, h]
  rcases gather t rest u with ⟨_ | _, _⟩ <;> rfl

/-- A node that fails without a token fails with one too, if it is not cancelled before. -/
theorem Cut.gather_error {l : List Node} {s t : Session} {x : Branch × Node} {f : Failure}
    (h : Cut token l s (.error f, t) (bind (some token) x.2 s)) (rest : List (Branch × Node)) :
    Cut token l s (.error f, t) (gather (some token) (x :: rest) s) := by
  unfold Cut at *
  split at h
  · rw [gather_cons_error (congrArg Prod.fst h), h]
  · obtain ⟨hc, hp, hs⟩ := h
    rw [gather_cons_error hc]
    exact ⟨rfl, hp, hs⟩

/-- What is cut in the first of two parts of a run or in the second is cut in the whole. -/
theorem Cut.gather_ok {l m : List Node} {s t : Session} {x : Branch × Node} {r : Extraction}
    {rest : List (Branch × Node)} {o : Outcome (List (Branch × Value)) × Session}
    (hx : Cut token l s (.ok r, t) (bind (some token) x.2 s)) (ht : t.started = s.started ++ l)
    (hrest : Cut token m { t with polls := s.polls + l.length } o
      (gather (some token) rest { t with polls := s.polls + l.length })) :
    Cut token (l ++ m) s
      (o.1.map fun xs => if r.2 then (x.1, r.1) :: xs else xs, o.2)
      (gather (some token) (x :: rest) s) := by
  have hrest' := hrest.map fun xs => if r.2 then (x.1, r.1) :: xs else xs
  unfold Cut at hx hrest' ⊢
  rw [cutShort_append]
  cases hl : cutShort token s.polls l with
  | some y =>
    -- cancelled in the first part, so that the second one is not reached
    rw [hl] at hx
    obtain ⟨hc, hp, hs⟩ := hx
    rw [gather_cons_error hc]
    exact ⟨rfl, hp, hs⟩
  | none =>
    -- the second part begins with the token asked once for each node of the first
    rw [hl] at hx
    rw [gather_cons_ok hx]
    cases hm : cutShort token (s.polls + l.length) m with
    | none =>
      simp only [hm] at hrest'
      simp only [Option.none_or, Option.map_none, List.length_append, ← Nat.add_assoc]
      exact hrest'
    | some y =>
      simp only [hm] at hrest'
      obtain ⟨hc, hp, hs⟩ := hrest'
      refine ⟨hc, ?_, ?_⟩
      · simpa [← Nat.add_assoc] using hp
      · simpa [ht] using hs

/-- The token is asked for a node first, and then for the nodes after it. -/
theorem Cut.step {n : Node} {l : List Node} {s : Session} {o o' : Outcome Extraction × Session}
    (hyes : token s.polls = true →
      o' = (.error (cancelledAt n.path), { s with polls := s.polls + 1 }))
    (hno : token s.polls = false → Cut token l { after n s with polls := s.polls + 1 } o o') :
    Cut token (n :: l) s o o' := by
  unfold Cut
  cases ht : token s.polls with
  | true =>
    rw [hyes ht]
    simp [cutShort, ht]
  | false =>
    have h := hno ht
    unfold Cut at h
    cases hl : cutShort token (s.polls + 1) l with
    | none =>
      simp only [hl] at h
      have hlength : s.polls + (l.length + 1) = s.polls + 1 + l.length := by omega
      simpa [cutShort, ht, hl, hlength] using h
    | some y =>
      simp only [hl] at h
      obtain ⟨hc, hp, hs⟩ := h
      simp only [cutShort, ht, hl, Bool.false_eq_true, if_false, Option.map_some]
      refine ⟨hc, ?_, ?_⟩
      · rw [hp, List.length_cons]
        omega
      · simpa [after] using hs

theorem bind_of_set {n : Node} {s : Session} (h : token s.polls = true) :
    bind (some token) n s = (.error (cancelledAt n.path), { s with polls := s.polls + 1 }) := by
  simp only [bind_eq, poll, h]

theorem bind_of_error {n : Node} {s : Session} {f : Failure} (h : token s.polls = false)
    (ho : ownStep n s = .error f) :
    bind (some token) n s = (.error (f.locate n.path), { after n s with polls := s.polls + 1 }) := by
  have ho' : ownStep n { s with polls := s.polls + 1 } = .error f := ho
  simp only [bind_eq, poll, h, ho']
  rfl

theorem bind_of_ok {n : Node} {s : Session} {e : Extraction} (h : token s.polls = false)
    (ho : ownStep n s = .ok e) :
    bind (some token) n s =
      finish e (gather (some token) (below n e) { after n s with polls := s.polls + 1 }) := by
  have ho' : ownStep n { s with polls := s.polls + 1 } = .ok e := ho
  simp only [bind_eq, poll, h, ho']
  rfl

/-- Induction on the run without a token, for every number of questions asked before. -/
theorem bind_cut (token : CancelToken) (n : Node) (s : Session) :
    ∃ l, (bind none n s).2.started = s.started ++ l ∧ ∀ p,
      Cut token l { s with polls := p } (bind none n s)
        (bind (some token) n { s with polls := p }) := by
  refine (run_induction none
    (P := fun n s o => ∃ l, o.2.started = s.started ++ l ∧ ∀ p,
      Cut token l { s with polls := p } o (bind (some token) n { s with polls := p }))
    (Q := fun ns s o => ∃ l, o.2.started = s.started ++ l ∧ ∀ p,
      Cut token l { s with polls := p } o (gather (some token) ns { s with polls := p }))
    ?cancelled ?faulty ?stepped ?nil ?failed ?stopped ?gathered).1 n s
  -- without a token no run is cancelled
  case cancelled => exact fun n s t hp => by simp [poll] at hp
  case faulty =>
    intro n s t f hp ho
    obtain rfl : s = t := (Prod.mk.inj hp).2
    refine ⟨[n], rfl, fun p => .step (fun hyes => bind_of_set hyes) fun hno => ?_⟩
    rw [bind_of_error hno ho]
    rfl
  case stepped =>
    intro n s t e o hp ho hq
    obtain rfl : s = t := (Prod.mk.inj hp).2
    obtain ⟨l, hl, hcut⟩ := hq
    refine ⟨n :: l, ?_, fun p => .step (fun hyes => bind_of_set hyes) fun hno => ?_⟩
    · rw [snd_finish, hl]
      simp [after]
    · rw [bind_of_ok hno ho, finish_eq, finish_eq]
      exact (hcut (p + 1)).map _
  case nil => exact fun s => ⟨[], by simp, fun p => rfl⟩
  case failed =>
    intro x rest s f t hx
    obtain ⟨l, hl, hcut⟩ := hx
    exact ⟨l, hl, fun p => (hcut p).gather_error rest⟩
  case stopped =>
    intro x rest s r t f u hx hr
    obtain ⟨l, hl, hcut⟩ := hx
    obtain ⟨m, hm, hcut'⟩ := hr
    exact ⟨l ++ m, by rw [hm, hl, List.append_assoc], fun p => (hcut p).gather_ok hl (hcut' _)⟩
  case gathered =>
    intro x rest s r t xs u hx hr
    obtain ⟨l, hl, hcut⟩ := hx
    obtain ⟨m, hm, hcut'⟩ := hr
    exact ⟨l ++ m, by rw [hm, hl, List.append_assoc], fun p => (hcut p).gather_ok hl (hcut' _)⟩

/-! ### Fresh caches -/

/-- A token cuts a run cleanly. Let the run without a token extract the nodes `ns`. With a token that
is not set at the first `ns.length` questions, the run is the same and asks that often. With one that
is first set at question `j`, it is cancelled at the node `ns[j]` with the nodes before extracted. The
nodes `ns` are the walk without what is below nodes that have no match, up to one that fails. -/
theorem bind_cancelled {raw : Text.Bytes} {rs : List Representation} (h : ∀ r ∈ rs, r.Steady raw)
    (root : Node) :
    let fresh := Session.ofCache (Cache.ofDocument raw rs)
    let run := bind none root fresh
    let ns := run.2.started
    (∀ token : CancelToken, (∀ i < ns.length, token i = false) →
      bind (some token) root fresh = (run.1, { run.2 with polls := ns.length })) ∧
    (∀ (token : CancelToken) (j : Nat) (hj : j < ns.length), (∀ i < j, token i = false) →
      token j = true →
        (bind (some token) root fresh).1 = .error (cancelledAt ns[j].path) ∧
          (bind (some token) root fresh).2.polls = j + 1 ∧
          (bind (some token) root fresh).2.started = ns.take j) ∧
    ((∃ r, run.1 = .ok r) ∧ ns = reached raw rs root ∧ (∀ n ∈ ns, ∃ e, stepAnew raw rs n = .ok e) ∨
      ∃ before n rest g, reached raw rs root = before ++ n :: rest ∧ ns = before ++ [n] ∧
        (∀ m ∈ before, ∃ e, stepAnew raw rs m = .ok e) ∧ stepAnew raw rs n = .error g ∧
        run.1 = .error (g.locate n.path)) ∧
    (Node.branching.lineages root).map Prod.snd = root.walk := by
  intro fresh run ns
  have hcut : ∀ token, Cut token ns fresh run (bind (some token) root fresh) := by
    intro token
    obtain ⟨l, hl, hcut⟩ := bind_cut token root fresh
    obtain rfl : ns = l := hl
    exact hcut 0
  refine ⟨fun token hno => ?_, fun token j hj hno hyes => ?_, ?_, root.map_snd_lineages⟩
  · have hnone : cutShort token 0 ns = none := cutShort_eq_none (by simpa using hno)
    have hrun := hcut token
    simp only [Cut, fresh, Session.ofCache, hnone, Nat.zero_add] at hrun
    exact hrun
  · have hsome : cutShort token 0 ns = some (ns.take j, ns[j]) :=
      cutShort_eq_some hj (by simpa using hno) (by simpa using hyes)
    have hrun := hcut token
    simp only [Cut, fresh, Session.ofCache, hsome, Nat.zero_add, List.length_take,
      Nat.min_eq_left hj.le, List.nil_append] at hrun
    exact hrun
  · have hfresh : fresh.cache.Sound raw rs := Cache.sound_ofDocument h
    have htraverses : Traverses raw rs (reached raw rs root) fresh run :=
      bind_traverses root hfresh
    rcases hr : run with ⟨f | r, t⟩ <;> rw [hr] at htraverses
      <;> have ht : ns = t.started := congrArg (·.2.started) hr
    · obtain ⟨before, n, rest, g, hreached, hns, hbefore, hn, rfl⟩ := htraverses
      exact .inr ⟨before, n, rest, g, hreached, ht.trans hns, hbefore, hn, rfl⟩
    · obtain ⟨hns, hok⟩ := htraverses
      have hns' : ns = reached raw rs root := ht.trans hns
      exact .inl ⟨⟨r, rfl⟩, hns', hns' ▸ hok⟩

/-- What is below a node without a match is left out; the token is set before the third node. -/
theorem bind_cancelled_third :
    let first := Node.mk "$.a" .absent (.named [("c", .mk "$.a.c" .absent .leaf)])
    let second := Node.mk "$.b" .absent .leaf
    let root := Node.mk "$" .mapping (.named [("a", first), ("b", second)])
    let fresh := Session.ofCache (Cache.ofDocument [] [])
    (bind none root fresh).2.started = [root, first, second] ∧
      (bind (some fun n => n == 2) root fresh).1 = .error (cancelledAt "$.b") ∧
      (bind (some fun n => n == 2) root fresh).2.started = [root, first] := by
  intro first second root fresh
  have hsteady : ∀ r ∈ ([] : List Representation), r.Steady [] := by simp
  obtain ⟨-, hcut, -, -⟩ := bind_cancelled hsteady root
  have hns : (bind none root fresh).2.started = [root, first, second] := rfl
  obtain ⟨hc, -, hs⟩ := hcut (fun n => n == 2) 2 (by decide) (by decide) rfl
  exact ⟨hns, hc, hs⟩

end Reshape.Tree
