import Mathlib.Data.List.Nodup
import Reshape.Tree

/-! Where children stand below their parents, and induction over trees. `filled` lists the children
of a node in order, whether they are named or stand in slots, so that a fact about both kinds needs
one proof. -/

namespace Reshape

/-- Where a child stands below its parent. -/
inductive Branch
  | name (k : Key)
  | slot (i : Nat)
  deriving DecidableEq

def Branch.name? : Branch → Option Key
  | .name k => some k
  | .slot _ => none

/-- Things in consecutive slots. -/
def slotsFrom {α : Type} : Nat → List α → List (Branch × α)
  | _, [] => []
  | i, x :: rest => (.slot i, x) :: slotsFrom (i + 1) rest

namespace Children

def filledFrom : Nat → List (Option Node) → List (Branch × Node)
  | _, [] => []
  | i, none :: rest => filledFrom (i + 1) rest
  | i, some n :: rest => (.slot i, n) :: filledFrom (i + 1) rest

/-- The children that are there, in order. -/
def filled : Children → List (Branch × Node)
  | .leaf => []
  | .named nodes => nodes.map fun x => (.name x.1, x.2)
  | .indexed slots => filledFrom 0 slots

theorem sizeOf_filledFrom (slots : List (Option Node)) (i : Nat) :
    ∀ x ∈ filledFrom i slots, sizeOf x.2 < sizeOf slots := by
  induction slots generalizing i with
  | nil => simp [filledFrom]
  | cons slot rest ih =>
    intro x hx
    cases slot with
    | none =>
      have := ih (i + 1) x hx
      simp only [List.cons.sizeOf_spec]; omega
    | some n =>
      rcases List.mem_cons.mp hx with rfl | hx
      · simp only [List.cons.sizeOf_spec, Option.some.sizeOf_spec]; omega
      · have := ih (i + 1) x hx
        simp only [List.cons.sizeOf_spec]; omega

theorem sizeOf_filled (c : Children) : ∀ x ∈ c.filled, sizeOf x.2 < sizeOf c := by
  intro x hx
  cases c with
  | leaf => simp [filled] at hx
  | named nodes =>
    obtain ⟨y, hy, rfl⟩ := List.mem_map.mp hx
    have h := List.sizeOf_lt_of_mem hy
    have hp : sizeOf y = 1 + sizeOf y.1 + sizeOf y.2 := rfl
    simp only [named.sizeOf_spec]; omega
  | indexed slots =>
    have := sizeOf_filledFrom slots 0 x hx
    simp only [indexed.sizeOf_spec]; omega

end Children

theorem Node.sizeOf_child (n : Node) : ∀ x ∈ n.children.filled, sizeOf x.2 < sizeOf n := by
  intro x hx
  have hs := n.children.sizeOf_filled x hx
  cases n with
  | mk p s c => simp only [Node.children, Node.mk.sizeOf_spec] at *; omega

/-- Induction over a tree: a property of a node follows from that of its children. -/
theorem Node.ind {P : Node → Prop} (h : ∀ n : Node, (∀ x ∈ n.children.filled, P x.2) → P n)
    (n : Node) : P n := by
  apply h
  intro x hx
  have hs := n.sizeOf_child x hx
  exact Node.ind h x.2
termination_by sizeOf n
decreasing_by exact hs

namespace Children

theorem mem_filledFrom {slots : List (Option Node)} {i : Nat} {b : Branch} {n : Node} :
    (b, n) ∈ filledFrom i slots ↔ ∃ j, b = .slot (i + j) ∧ slots[j]? = some (some n) := by
  induction slots generalizing i with
  | nil => simp [filledFrom]
  | cons slot rest ih =>
    cases slot with
    | none =>
      simp only [filledFrom, ih]
      constructor
      · rintro ⟨j, rfl, hj⟩
        exact ⟨j + 1, by congr 1; omega, by simpa using hj⟩
      · rintro ⟨_ | j, rfl, hj⟩
        · simp at hj
        · exact ⟨j, by congr 1; omega, by simpa using hj⟩
    | some m =>
      simp only [filledFrom, List.mem_cons, Prod.mk.injEq, ih]
      constructor
      · rintro (⟨rfl, rfl⟩ | ⟨j, rfl, hj⟩)
        · exact ⟨0, rfl, rfl⟩
        · exact ⟨j + 1, by congr 1; omega, by simpa using hj⟩
      · rintro ⟨_ | j, rfl, hj⟩
        · exact .inl ⟨rfl, by simpa using hj.symm⟩
        · exact .inr ⟨j, by congr 1; omega, by simpa using hj⟩

theorem nodup_filledFrom (slots : List (Option Node)) (i : Nat) :
    ((filledFrom i slots).map Prod.fst).Nodup := by
  induction slots generalizing i with
  | nil => simp [filledFrom]
  | cons slot rest ih =>
    cases slot with
    | none => exact ih (i + 1)
    | some n =>
      simp only [filledFrom, List.map_cons, List.nodup_cons]
      refine ⟨?_, ih (i + 1)⟩
      intro h
      obtain ⟨⟨b, m⟩, hm, hb⟩ := List.mem_map.mp h
      obtain ⟨j, rfl, _⟩ := mem_filledFrom.mp hm
      simp only [Branch.slot.injEq] at hb
      omega

theorem filledFrom_map_some (nodes : List Node) (i : Nat) :
    filledFrom i (nodes.map some) = slotsFrom i nodes := by
  induction nodes generalizing i with
  | nil => rfl
  | cons n rest ih => simp [filledFrom, slotsFrom, ih]

end Children

namespace Node

theorem walkNamed_eq (nodes : List (Key × Node)) :
    walkNamed nodes = (nodes.map fun x => (Branch.name x.1, x.2)).flatMap fun x => x.2.walk := by
  induction nodes with
  | nil => rfl
  | cons x rest ih => simp [walkNamed, ih]

theorem walkSlots_eq (slots : List (Option Node)) (i : Nat) :
    walkSlots slots = (Children.filledFrom i slots).flatMap fun x => x.2.walk := by
  induction slots generalizing i with
  | nil => rfl
  | cons slot rest ih =>
    cases slot with
    | none => exact ih (i + 1)
    | some n => simp [walkSlots, Children.filledFrom, ih (i + 1)]

/-- The node, then its children with all that is below them. -/
theorem walk_eq (n : Node) : n.walk = n :: n.children.filled.flatMap fun x => x.2.walk := by
  rcases n with ⟨p, s, _ | nodes | slots⟩
  · rfl
  · simp [walk, walkChildren, children, Children.filled, walkNamed_eq]
  · simp [walk, walkChildren, children, Children.filled, walkSlots_eq _ 0]

theorem self_mem_walk (n : Node) : n ∈ n.walk := by rw [walk_eq]; exact List.mem_cons_self

theorem mem_walk_of_child {n m : Node} {x : Branch × Node} (hx : x ∈ n.children.filled)
    (hm : m ∈ x.2.walk) : m ∈ n.walk := by
  rw [walk_eq]
  exact List.mem_cons_of_mem _ (List.mem_flatMap.mpr ⟨x, hx, hm⟩)

theorem mem_walk_trans {root n m : Node} (hn : n ∈ root.walk) (hm : m ∈ n.walk) : m ∈ root.walk := by
  induction root using Node.ind with
  | h root ih =>
    rw [walk_eq] at hn
    rcases List.mem_cons.mp hn with rfl | hn
    · exact hm
    · obtain ⟨x, hx, hn⟩ := List.mem_flatMap.mp hn
      exact mem_walk_of_child hx (ih x hx hn)

theorem child_mem_walk {root n : Node} (hn : n ∈ root.walk) {x : Branch × Node}
    (hx : x ∈ n.children.filled) : x.2 ∈ root.walk :=
  mem_walk_trans hn (mem_walk_of_child hx x.2.self_mem_walk)

/-- Named children have different names, at every node of a tree. -/
def Distinct (root : Node) : Prop :=
  ∀ n ∈ root.walk, ∀ nodes, n.children = .named nodes → (Entries.keys nodes).Nodup

theorem Distinct.child {n : Node} (h : n.Distinct) {x : Branch × Node} (hx : x ∈ n.children.filled) :
    x.2.Distinct :=
  fun m hm => h m (mem_walk_of_child hx hm)

theorem distinct_of_children {n : Node}
    (hn : ∀ nodes, n.children = .named nodes → (Entries.keys nodes).Nodup)
    (hc : ∀ x ∈ n.children.filled, x.2.Distinct) : n.Distinct := by
  intro m hm nodes h
  rw [n.walk_eq] at hm
  rcases List.mem_cons.mp hm with rfl | hm
  · exact hn nodes h
  · obtain ⟨x, hx, hm⟩ := List.mem_flatMap.mp hm
    exact hc x hx m hm nodes h

/-- Children of a node stand at different places. -/
theorem Distinct.nodup_filled {n : Node} (h : n.Distinct) :
    (n.children.filled.map Prod.fst).Nodup := by
  cases hc : n.children with
  | leaf => simp [Children.filled]
  | named nodes =>
    have hk := h n n.self_mem_walk nodes hc
    simp only [Children.filled, List.map_map]
    have : (Prod.fst ∘ fun x : Key × Node => (Branch.name x.1, x.2)) = Branch.name ∘ Prod.fst := rfl
    rw [this, ← List.map_map]
    exact hk.map fun a b hab => by simpa using hab
  | indexed slots => exact Children.nodup_filledFrom slots 0

end Node

end Reshape
