import Reshape.Proofs.Yaml.Scalars
import Reshape.Yaml.Node

/-! What is wrong with a tree of nodes that has no value. If it is not that the tree does not follow the
format, then a node of the tree stands for something else than what it is made of, or a scalar of the
tree cannot be read as what it is. -/

namespace Reshape.Yaml

/-! ### Flaws -/

/-- Whatever is wrong is of a kind, or the format is not followed. -/
def Valued.FailsAs {α : Type} (Q : Fault → Prop) (x : Valued α) : Prop :=
  x.Ends (fun _ => True) fun e => e.fault = .malformed ∨ Q e.fault

namespace Valued.FailsAs

variable {α β : Type} {Q : Fault → Prop} {x : Valued α} {y : Valued β}

theorem ok (a : α) : FailsAs Q (.ok a) := trivial

theorem malformed (depth : Nat) : FailsAs Q (.error ⟨depth, .malformed⟩ : Valued α) := .inl rfl

theorem both (hx : FailsAs Q x) (hy : FailsAs Q y) : FailsAs Q (x.both y) := by
  cases x with
  | ok a =>
    cases y with
    | ok b => exact ok _
    | error f => exact hy
  | error e =>
    cases y with
    | ok b => exact hx
    | error f =>
      change _ ∨ Q (if f.depth < e.depth then f else e).fault
      split_ifs
      · exact hy
      · exact hx

theorem map (hx : FailsAs Q x) (f : α → β) : FailsAs Q (f <$> x) :=
  Except.Ends.map hx fun _ _ => trivial

theorem bind (hx : FailsAs Q x) {f : α → Valued β} (hf : ∀ a, FailsAs Q (f a)) :
    FailsAs Q (x >>= f) :=
  Except.Ends.bind hx fun a _ => hf a

theorem inside (hx : FailsAs Q x) : FailsAs Q x.inside := by
  cases x with
  | ok a => exact ok a
  | error e => exact hx

theorem ofRead {x : Except Fault α} (hx : ∀ f, x = .error f → Q f) : FailsAs Q (.ofRead x) := by
  cases x with
  | ok a => exact ok a
  | error f => exact .inr (hx f rfl)

end Valued.FailsAs

namespace Node

/-! ### Trees -/

/-- A node is the tree itself or stands in it. -/
inductive Within (m : Node) : Node → Prop
  | root : Within m m
  | item {t : Tag} {items : List Node} {n : Node} : n ∈ items → Within m n →
    Within m (.sequence t items)
  | key {t : Tag} {es : List (Node × Node)} {e : Node × Node} : e ∈ es → Within m e.1 →
    Within m (.mapping t es)
  | value {t : Tag} {es : List (Node × Node)} {e : Node × Node} : e ∈ es → Within m e.2 →
    Within m (.mapping t es)

/-- All nodes of a tree satisfy `P`. -/
def All (P : Node → Prop) (n : Node) : Prop := ∀ m : Node, m.Within n → P m

namespace All

variable {P : Node → Prop} {t : Tag}

theorem here {n : Node} (h : n.All P) : P n := h n .root

theorem items {items : List Node} (h : (Node.sequence t items).All P) : ∀ n ∈ items, n.All P :=
  fun _ hn m hm => h m (.item hn hm)

theorem keys {es : List (Node × Node)} (h : (Node.mapping t es).All P) : ∀ e ∈ es, e.1.All P :=
  fun _ he m hm => h m (.key he hm)

theorem values {es : List (Node × Node)} (h : (Node.mapping t es).All P) : ∀ e ∈ es, e.2.All P :=
  fun _ he m hm => h m (.value he hm)

theorem scalar {s : String} (h : P (.scalar t s)) : (Node.scalar t s).All P := by
  intro m hm
  cases hm with
  | root => exact h

theorem loop (h : P .loop) : Node.loop.All P := by
  intro m hm
  cases hm with
  | root => exact h

theorem sequence {items : List Node} (h : P (.sequence t items)) (hitems : ∀ n ∈ items, n.All P) :
    (Node.sequence t items).All P := by
  intro m hm
  cases hm with
  | root => exact h
  | item hn hm => exact hitems _ hn m hm

theorem mapping {es : List (Node × Node)} (h : P (.mapping t es))
    (hes : ∀ e ∈ es, e.1.All P ∧ e.2.All P) : (Node.mapping t es).All P := by
  intro m hm
  cases hm with
  | root => exact h
  | key he hm => exact (hes _ he).1 m hm
  | value he hm => exact (hes _ he).2 m hm

end All

/-! ### Nodes -/

def isLeaf : Node → Bool
  | .scalar _ _ => true
  | _ => false

/-- Why a node is not what its tag asks for. -/
inductive Refuses (n : Node) : Fault → Prop
  /-- A scalar is asked for, and what a collection gives for one cannot be found. -/
  | text {f : Fault} : n.tag.isScalar → n.text = .error f → Refuses n f
  /-- A point in time is asked for, and a collection is found. -/
  | moment {s : String} : n.isLeaf = false → n.tag = .moment → n.text = .ok s →
    Refuses n (.crash .wrongKind)
  /-- The text cannot be read. -/
  | read {s : String} {f : Fault} : n.text = .ok s → n.tag.read s = .error f → Refuses n f

mutual

theorem text_eq_error : (n : Node) → {f : Fault} → n.text = .error f →
    f = .malformed ∨ f = .crash .tooDeep
  | .scalar _ _, _, h => by cases h
  | .sequence _ _, _, h => .inl (Except.error.inj h).symm
  | .mapping _ es, _, h => defaultText_eq_error es h
  | .loop, _, h => .inr (Except.error.inj h).symm
termination_by structural n => n

theorem defaultText_eq_error : (es : List (Node × Node)) → {f : Fault} →
    defaultText es = .error f → f = .malformed ∨ f = .crash .tooDeep
  | [], _, h => .inl (Except.error.inj h).symm
  | (k, v) :: rest, f, h => by
    have hv : v.text = .error f → _ := text_eq_error v
    have hrest : defaultText rest = .error f → _ := defaultText_eq_error rest
    unfold defaultText at h
    split_ifs at h
    · exact hv h
    · exact hrest h
termination_by structural es => es

end

/-- A node that nothing provides for, and what reading its value raises. -/
inductive Crashes (n : Node) : Crash → Prop
  /-- The text is one that its reader does not expect. -/
  | read {s : String} {c : Crash} : n.text = .ok s → Tag.Chokes s n.tag c → Crashes n c
  /-- A point in time is taken from the text of another node. -/
  | moment {s : String} : n.isLeaf = false → n.tag = .moment → n.text = .ok s →
    Crashes n .wrongKind
  /-- The default value of a collection leads back into it. -/
  | loop : n.tag.isScalar → n.text = .error (.crash .tooDeep) → Crashes n .tooDeep

theorem refuses_crash {n : Node} {c : Crash} : n.Refuses (.crash c) ↔ n.Crashes c := by
  constructor
  · intro h
    cases h with
    | text hscalar htext =>
      rcases text_eq_error n htext with hf | hf <;> cases hf
      exact .loop hscalar htext
    | moment hleaf htag htext => exact .moment hleaf htag htext
    | read htext hread => exact .read htext (Tag.read_crash.mp hread)
  · intro h
    cases h with
    | read htext hchokes => exact .read htext (Tag.read_crash.mpr hchokes)
    | moment hleaf htag htext => exact .moment hleaf htag htext
    | loop hscalar htext => exact .text hscalar htext

/-- Whatever any node of a tree refuses is of a kind. -/
abbrev RefuseAs (Q : Fault → Prop) (n : Node) : Prop := n.All fun m => ∀ f, m.Refuses f → Q f

variable {Q : Fault → Prop}

theorem misread_failsAs {n : Node} (hleaf : n.isLeaf = false) (h : ∀ f, n.Refuses f → Q f) :
    (misread n.tag n).FailsAs Q := by
  unfold misread
  split
  · exact .malformed _
  · split
    · next hscalar =>
      refine .ofRead fun f hf => h f ?_
      rcases htext : n.text with g | s <;> rw [htext] at hf
      · cases hf
        exact .text hscalar htext
      · by_cases hmoment : n.tag = .moment
        · rw [Except.ok_bind, if_pos hmoment] at hf
          cases hf
          exact .moment hleaf hmoment htext
        · rw [Except.ok_bind, if_neg hmoment] at hf
          exact .read htext hf
    · exact .malformed _

theorem keyOf_failsAs (v : Value) : (keyOf v).FailsAs Q := by
  unfold keyOf
  split
  · exact .ok _
  · exact .malformed _

theorem key_failsAs (n : Node) {v : Valued Value} (h : v.FailsAs Q) : (n.key v).FailsAs Q := by
  unfold key
  split
  · exact .ok _
  · split_ifs
    · exact .malformed _
    · exact h.bind keyOf_failsAs

/-! ### Values -/

mutual

/-- What is wrong with the value of a tree is wrong with one of its nodes. -/
theorem value_failsAs : (n : Node) → n.RefuseAs Q → n.value.FailsAs Q
  | .scalar t s, h => by
    unfold value
    split_ifs
    · exact .malformed _
    · exact .ofRead fun f hf => h.here f (.read rfl hf)
  | .sequence t items, h => by
    have hvalues := values_failsAs items h.items
    have hpairs := pairs_failsAs items h.items
    have hmisread : (misread t (.sequence t items)).FailsAs Q := misread_failsAs rfl h.here
    cases t with
    | sequence => exact (hvalues.map _).inside
    | pairs => exact (hpairs.map _).inside
    | _ => exact hmisread
  | .mapping t es, h => by
    have hboth := (merged_failsAs es h.keys h.values).both (own_failsAs es h.keys h.values)
    have hmisread : (misread t (.mapping t es)).FailsAs Q := misread_failsAs rfl h.here
    cases t with
    | mapping | set =>
      unfold value
      split_ifs
      · exact (hboth.map _).inside
      · exact .malformed _
    | _ => exact hmisread
  | .loop, _ => .ok _
termination_by structural n => n

theorem values_failsAs : (ns : List Node) → (∀ n ∈ ns, n.RefuseAs Q) → (values ns).FailsAs Q
  | [], _ => .ok _
  | n :: rest, h => by
    obtain ⟨hn, hrest⟩ := List.forall_mem_cons.mp h
    exact ((value_failsAs n hn).both (values_failsAs rest hrest)).map _
termination_by structural ns => ns

theorem pairs_failsAs : (ns : List Node) → (∀ n ∈ ns, n.RefuseAs Q) → (pairs ns).FailsAs Q
  | [], _ => .ok _
  | .mapping _ [(k, v)] :: rest, h => by
    obtain ⟨hn, hrest⟩ := List.forall_mem_cons.mp h
    have hk := value_failsAs k (hn.keys (k, v) List.mem_cons_self)
    have hv := value_failsAs v (hn.values (k, v) List.mem_cons_self)
    exact ((hk.both hv).both (pairs_failsAs rest hrest)).map _
  | .mapping _ [] :: _, _ => .malformed _
  | .mapping _ (_ :: _ :: _) :: _, _ => .malformed _
  | .scalar _ _ :: _, _ => .malformed _
  | .sequence _ _ :: _, _ => .malformed _
  | .loop :: _, _ => .malformed _
termination_by structural ns => ns

theorem merged_failsAs : (es : List (Node × Node)) → (∀ e ∈ es, e.1.RefuseAs Q) →
    (∀ e ∈ es, e.2.RefuseAs Q) → (merged es).FailsAs Q
  | [], _, _ => .ok _
  | (k, .mapping _ es) :: rest, hkeys, hvalues => by
    obtain ⟨-, hkeys⟩ := List.forall_mem_cons.mp hkeys
    obtain ⟨hv, hvalues⟩ := List.forall_mem_cons.mp hvalues
    have hrest := merged_failsAs rest hkeys hvalues
    have hboth := (merged_failsAs es hv.keys hv.values).both (own_failsAs es hv.keys hv.values)
    unfold merged
    split <;> rename_i heq <;> cases heq
    · exact (hboth.both hrest).map _
    · exact hrest
  | (k, .sequence _ items) :: rest, hkeys, hvalues => by
    obtain ⟨-, hkeys⟩ := List.forall_mem_cons.mp hkeys
    obtain ⟨hv, hvalues⟩ := List.forall_mem_cons.mp hvalues
    have hrest := merged_failsAs rest hkeys hvalues
    have hitems := mergedItems_failsAs items hv.items
    unfold merged
    split <;> rename_i heq <;> cases heq
    · exact (hitems.both hrest).map _
    · exact hrest
  | (k, .scalar _ _) :: rest, hkeys, hvalues => by
    have hrest :=
      merged_failsAs rest (List.forall_mem_cons.mp hkeys).2 (List.forall_mem_cons.mp hvalues).2
    unfold merged
    split <;> rename_i heq <;> cases heq
    exact hrest
  | (k, .loop) :: rest, hkeys, hvalues => by
    have hrest :=
      merged_failsAs rest (List.forall_mem_cons.mp hkeys).2 (List.forall_mem_cons.mp hvalues).2
    unfold merged
    split <;> rename_i heq <;> cases heq
    exact hrest
termination_by structural es => es

theorem mergedItems_failsAs : (ns : List Node) → (∀ n ∈ ns, n.RefuseAs Q) →
    (mergedItems ns).FailsAs Q
  | [], _ => .ok _
  | .mapping _ es :: rest, h => by
    obtain ⟨hn, hrest⟩ := List.forall_mem_cons.mp h
    have hboth := (merged_failsAs es hn.keys hn.values).both (own_failsAs es hn.keys hn.values)
    exact ((mergedItems_failsAs rest hrest).both hboth).map _
  | .scalar _ _ :: rest, h => mergedItems_failsAs rest (List.forall_mem_cons.mp h).2
  | .sequence _ _ :: rest, h => mergedItems_failsAs rest (List.forall_mem_cons.mp h).2
  | .loop :: rest, h => mergedItems_failsAs rest (List.forall_mem_cons.mp h).2
termination_by structural ns => ns

theorem own_failsAs : (es : List (Node × Node)) → (∀ e ∈ es, e.1.RefuseAs Q) →
    (∀ e ∈ es, e.2.RefuseAs Q) → (own es).FailsAs Q
  | [], _, _ => .ok _
  | (k, v) :: rest, hkeys, hvalues => by
    obtain ⟨hk, hkeys⟩ := List.forall_mem_cons.mp hkeys
    obtain ⟨hv, hvalues⟩ := List.forall_mem_cons.mp hvalues
    have hrest := own_failsAs rest hkeys hvalues
    have hentry := (key_failsAs k (value_failsAs k hk)).both (value_failsAs v hv)
    unfold own
    split <;> rename_i heq <;> cases heq
    · exact hrest
    · exact (hentry.both hrest).map _
termination_by structural es => es

end

/-- A tree without a value does not follow the format, or has a node that is not what its tag asks
for. -/
theorem value_flaw {n : Node} {e : Flaw} (h : n.value = .error e) :
    e.fault = .malformed ∨ ∃ m : Node, m.Within n ∧ m.Refuses e.fault := by
  have hvalue := value_failsAs (Q := fun f => ∃ m : Node, m.Within n ∧ m.Refuses f) n
    fun m hm f hf => ⟨m, hm, hf⟩
  rwa [h] at hvalue

end Node

end Reshape.Yaml
