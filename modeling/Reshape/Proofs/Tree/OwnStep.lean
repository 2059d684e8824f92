import Reshape.Proofs.Value.Writing
import Reshape.Tree.Bind

/-! A run taken apart. A node first makes its own step: it fetches its representation, extracts, and
checks that the value can hold its children. Then its children are gathered in order, and what they
bind is written into the value. `bind_eq` puts every run together from these two, for named and
indexed children alike. -/

namespace Reshape

namespace Tree

@[simp] theorem descends_eq_false {e : Extraction} : descends e = false ↔ e = (.null, false) := by
  rcases e with ⟨v, p⟩
  cases v <;> cases p <;> simp [descends]

/-! ### The own step -/

/-- Whether a value can hold the children of its node. -/
def fits : Children → Value → Outcome Unit
  | .leaf, _ => .ok ()
  | .named _, .object _ => .ok ()
  | .named _, v => .error (.fault (.cast "mapping" v.kind))
  | .indexed slots, .array items =>
    if items.length < slots.length then .error (.fault (.capacity items.length slots.length))
    else .ok ()
  | .indexed _, v => .error (.fault (.cast "sequence" v.kind))

theorem extractFrom_eq (c : Cache) (strategy : Strategy) :
    extractFrom c strategy =
      match strategy.representation with
      | none => (strategy.extract .null, c)
      | some name => ((c.get name).1.bind strategy.extract, (c.get name).2) := by
  unfold extractFrom
  cases strategy.representation with
  | none => rfl
  | some name => rcases hg : c.get name with ⟨_ | _, d⟩ <;> simp only [hg] <;> rfl

/-- What a node extracts for itself. -/
def extraction (n : Node) (s : Session) : Outcome Extraction := (extractFrom s.cache n.strategy).1

/-- Fetches, extracts and checks. The failure does not name the node yet. -/
def ownStep (n : Node) (s : Session) : Outcome Extraction :=
  (extraction n s).bind fun e =>
    if descends e then (fits n.children e.1).map fun _ => e else .ok e

/-- The session after the own step of a node. -/
def after (n : Node) (s : Session) : Session :=
  { s with cache := (extractFrom s.cache n.strategy).2, started := s.started ++ [n] }

theorem ownStep_eq_ok {n : Node} {s : Session} {e : Extraction} :
    ownStep n s = .ok e ↔
      extraction n s = .ok e ∧ (e ≠ (.null, false) → fits n.children e.1 = .ok ()) := by
  unfold ownStep
  cases extraction n s with
  | error f => simp [Except.bind]
  | ok q =>
    simp only [Except.bind, Except.ok.injEq]
    cases hd : descends q with
    | true =>
      have hq : q ≠ (.null, false) := fun h => by simp [descends_eq_false.mpr h] at hd
      cases hf : fits n.children q.1 with
      | error f =>
        simp only [if_true, Except.map, reduceCtorEq, false_iff, not_and]
        rintro rfl h
        simp [hf] at h
        exact hq h
      | ok _ =>
        simp only [if_true, Except.map, Except.ok.injEq]
        exact ⟨fun h => ⟨h, fun _ => h ▸ hf⟩, fun h => h.1⟩
    | false =>
      have hq := descends_eq_false.mp hd
      simp only [Bool.false_eq_true, if_false, Except.ok.injEq]
      exact ⟨fun h => ⟨h, fun hne => absurd (h ▸ hq) hne⟩, fun h => h.1⟩

/-- The children that are bound after an extraction. -/
def below (n : Node) (e : Extraction) : List (Branch × Node) :=
  if descends e then n.children.filled else []

theorem below_eq {n : Node} {e : Extraction} (h : e ≠ (.null, false)) :
    below n e = n.children.filled := by
  cases hd : descends e with
  | true => simp [below, hd]
  | false => exact absurd (descends_eq_false.mp hd) h

@[simp] theorem below_null (n : Node) : below n (.null, false) = [] := by
  simp [below, descends]

theorem below_subset (n : Node) (e : Extraction) : ∀ x ∈ below n e, x ∈ n.children.filled := by
  unfold below
  split
  · exact fun _ h => h
  · simp

/-! ### Gathering -/

/-- Binds nodes one after the other and keeps what is to be written. -/
def gather (token : Option CancelToken) :
    List (Branch × Node) → Session → Outcome (List (Branch × Value)) × Session
  | [], s => (.ok [], s)
  | (b, n) :: rest, s =>
    match bind token n s with
    | (.error f, s) => (.error f, s)
    | (.ok (v, bound), s) =>
      match gather token rest s with
      | (.error f, s) => (.error f, s)
      | (.ok xs, s) => (.ok (if bound then (b, v) :: xs else xs), s)

/-- A value with what its children bind written into it. -/
def finish (e : Extraction) :
    Outcome (List (Branch × Value)) × Session → Outcome Extraction × Session
  | (.error f, s) => (.error f, s)
  | (.ok xs, s) => (.ok (e.1.write xs, e.2 || !xs.isEmpty), s)

theorem fst_finish (e : Extraction) (o : Outcome (List (Branch × Value)) × Session) :
    (finish e o).1 = o.1.map fun xs => (e.1.write xs, e.2 || !xs.isEmpty) := by
  rcases o with ⟨_ | _, _⟩ <;> rfl

@[simp] theorem snd_finish (e : Extraction) (o : Outcome (List (Branch × Value)) × Session) :
    (finish e o).2 = o.2 := by
  rcases o with ⟨_ | _, _⟩ <;> rfl

variable (token : Option CancelToken)

theorem gather_of_error {x : Branch × Node} {s : Session} {f : Failure}
    (h : (bind token x.2 s).1 = .error f) (rest : List (Branch × Node)) :
    gather token (x :: rest) s = (.error f, (bind token x.2 s).2) := by
  rcases hb : bind token x.2 s with ⟨o, t⟩
  obtain rfl : o = .error f := by simpa [hb] using h
  simp only [gather, hb]

theorem gather_of_ok {x : Branch × Node} {s : Session} {r : Extraction}
    (h : (bind token x.2 s).1 = .ok r) (rest : List (Branch × Node)) :
    gather token (x :: rest) s =
      ((gather token rest (bind token x.2 s).2).1.map fun xs =>
        if r.2 then (x.1, r.1) :: xs else xs, (gather token rest (bind token x.2 s).2).2) := by
  rcases hb : bind token x.2 s with ⟨o, t⟩
  obtain rfl : o = .ok r := by simpa [hb] using h
  simp only [gather, hb]
  rcases gather token rest t with ⟨_ | xs, u⟩ <;> rfl

theorem bindNamed_eq (nodes : List (Key × Node)) (es : List (Key × Value)) (bound : Bool)
    (s : Session) :
    bindNamed token nodes es bound s =
      finish (.object es, bound) (gather token (nodes.map fun x => (.name x.1, x.2)) s) := by
  induction nodes generalizing es bound s with
  | nil => simp [bindNamed, gather, finish]
  | cons x rest ih =>
    rcases x with ⟨k, n⟩
    simp only [bindNamed, List.map_cons, gather]
    rcases h : bind token n s with ⟨_ | ⟨v, _ | _⟩, s'⟩
    · rfl
    · simp only [ih]
      rcases gather token _ s' with ⟨_ | xs, s''⟩ <;> rfl
    · simp only [ih]
      rcases gather token _ s' with ⟨_ | xs, s''⟩ <;> simp [finish, Value.put]

theorem bindSlots_eq (slots : List (Option Node)) (i : Nat) (items : List Value) (bound : Bool)
    (s : Session) :
    bindSlots token slots i items bound s =
      finish (.array items, bound) (gather token (Children.filledFrom i slots) s) := by
  induction slots generalizing i items bound s with
  | nil => simp [bindSlots, Children.filledFrom, gather, finish]
  | cons slot rest ih =>
    cases slot with
    | none => simp only [bindSlots, Children.filledFrom, ih]
    | some n =>
      simp only [bindSlots, Children.filledFrom, gather]
      rcases h : bind token n s with ⟨_ | ⟨v, _ | _⟩, s'⟩
      · rfl
      · simp only [ih]
        rcases gather token _ s' with ⟨_ | xs, s''⟩ <;> rfl
      · simp only [ih]
        rcases gather token _ s' with ⟨_ | xs, s''⟩ <;> simp [finish, Value.put]

theorem bindChildren_eq (path : String) (c : Children) (e : Extraction) (s : Session) :
    bindChildren token path c e s =
      match fits c e.1 with
      | .error f => (.error (f.locate path), s)
      | .ok _ => finish e (gather token c.filled s) := by
  rcases e with ⟨v, p⟩
  cases c with
  | leaf => simp [bindChildren, fits, Children.filled, gather, finish]
  | named nodes => cases v <;> first | exact bindNamed_eq token nodes _ p s | rfl
  | indexed slots =>
    cases v with
    | array items =>
      simp only [bindChildren, fits, Children.filled]
      by_cases hl : items.length < slots.length
      · simp [hl, capacityFailure, Failure.locate, Fault.locate, Fault.annotated]
      · simp [hl, bindSlots_eq]
    | _ => rfl

/-- Every run: the token is asked, the node makes its own step, its children are gathered. -/
theorem bind_eq (n : Node) (s : Session) :
    bind token n s =
      match poll token s with
      | (true, s) => (.error (cancelledAt n.path), s)
      | (false, s) =>
        match ownStep n s with
        | .error f => (.error (f.locate n.path), after n s)
        | .ok e => finish e (gather token (below n e) (after n s)) := by
  rcases n with ⟨path, strategy, children⟩
  rw [bind]
  rcases poll token s with ⟨_ | _, s⟩
  · simp only [extractAt, ownStep, extraction, after, Node.strategy, Node.path, Node.children]
    rcases extractFrom s.cache strategy with ⟨f | e, cache⟩
    · rfl
    · simp only [Except.mapError, Except.bind]
      cases hd : descends e with
      | true =>
        simp only [bindChildren_eq, if_true]
        cases fits children e.1 with
        | error f => rfl
        | ok _ => simp [below, hd, Except.map, Node.children]
      | false => simp [below, hd, gather, finish]
  · rfl

end Tree

end Reshape
