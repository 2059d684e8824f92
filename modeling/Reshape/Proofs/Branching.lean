import Reshape.Proofs.Tree.Branches

/-! Things that branch, such as trees and schemas: below each of them stand smaller ones, each on a
branch of its own. `places` lists a thing and all that is below it with the ways there, each before
what it holds; `tour` passes each once on the way down and once on the way up. -/

namespace Reshape

/-- What stands right below a thing is smaller. -/
structure Branching (α : Type) [SizeOf α] where
  below : α → List (Branch × α)
  sizeOf_below : ∀ a, ∀ x ∈ below a, sizeOf x.2 < sizeOf a

inductive Stage
  | down
  | up
  deriving DecidableEq

namespace Branching

variable {α : Type} [SizeOf α] (B : Branching α)

/-- A property of a thing follows from that of what stands right below it. -/
theorem ind {P : α → Prop} (h : ∀ a, (∀ x ∈ B.below a, P x.2) → P a) (a : α) : P a :=
  h a fun x _ => ind h x.2
termination_by sizeOf a
decreasing_by exact B.sizeOf_below a x ‹_›

/-- Everything at or below a thing, with the way to it. -/
def places (a : α) : List (List Branch × α) :=
  ([], a) :: ((B.below a).map fun x => (places x.2).map fun y => (x.1 :: y.1, y.2)).flatten
termination_by sizeOf a
decreasing_by exact B.sizeOf_below a x ‹_›

/-- Everything at or below a thing, passed before and after all that is below it. -/
def tour (a : α) : List (Stage × List Branch × α) :=
  (.down, [], a) :: ((B.below a).map fun x =>
    (tour x.2).map fun y => (y.1, x.1 :: y.2.1, y.2.2)).flatten ++ [(.up, [], a)]
termination_by sizeOf a
decreasing_by exact B.sizeOf_below a x ‹_›

/-- Everything at or below a thing, with all that it stands below. -/
def lineages (a : α) : List (List α × α) :=
  ([], a) :: ((B.below a).map fun x => (lineages x.2).map fun y => (a :: y.1, y.2)).flatten
termination_by sizeOf a
decreasing_by exact B.sizeOf_below a x ‹_›

theorem places_eq (a : α) :
    B.places a =
      ([], a) :: (B.below a).flatMap fun x => (B.places x.2).map fun y => (x.1 :: y.1, y.2) := by
  rw [places, List.flatMap_def]

theorem tour_eq (a : α) :
    B.tour a =
      (.down, [], a) :: ((B.below a).flatMap fun x =>
        (B.tour x.2).map fun y => (y.1, x.1 :: y.2.1, y.2.2)) ++ [(.up, [], a)] := by
  rw [tour, List.flatMap_def]

theorem mem_places {a : α} {y : List Branch × α} :
    y ∈ B.places a ↔
      y = ([], a) ∨ ∃ x ∈ B.below a, ∃ z ∈ B.places x.2, (x.1 :: z.1, z.2) = y := by
  rw [places_eq, List.mem_cons, List.mem_flatMap]
  simp only [List.mem_map]

/-- Everything at or below a thing. -/
def all (a : α) : List α := (B.places a).map Prod.snd

theorem all_eq (a : α) : B.all a = a :: (B.below a).flatMap fun x => B.all x.2 := by
  rw [all, places_eq]
  simp only [List.map_cons, List.map_flatMap, List.map_map]
  rfl

theorem lineages_eq (a : α) :
    B.lineages a =
      ([], a) :: (B.below a).flatMap fun x => (B.lineages x.2).map fun y => (a :: y.1, y.2) := by
  rw [lineages, List.flatMap_def]

theorem map_snd_lineages (a : α) : (B.lineages a).map Prod.snd = B.all a := by
  induction a using B.ind with
  | h a ih =>
    rw [lineages_eq, all_eq, List.map_cons, List.map_flatMap]
    refine congrArg (a :: ·) (List.flatMap_congr fun x hx => ?_)
    rw [← ih x hx, List.map_map]
    rfl

/-- Both passes come to every place. -/
theorem mem_tour {a : α} {st : Stage} {y : List Branch × α} :
    (st, y) ∈ B.tour a ↔ y ∈ B.places a := by
  induction a using B.ind generalizing y with
  | h a ih =>
    have hbelow : (st, y) ∈ ((B.below a).flatMap fun x =>
        (B.tour x.2).map fun z => (z.1, x.1 :: z.2.1, z.2.2)) ↔
          ∃ x ∈ B.below a, ∃ z ∈ B.places x.2, (x.1 :: z.1, z.2) = y := by
      simp only [List.mem_flatMap, List.mem_map]
      refine exists_congr fun x => and_congr_right fun hx => ⟨?_, ?_⟩
      · rintro ⟨⟨st', z⟩, hz, he⟩
        obtain ⟨rfl, rfl⟩ := Prod.mk.inj he
        exact ⟨z, (ih x hx).mp hz, rfl⟩
      · rintro ⟨z, hz, rfl⟩
        exact ⟨(st, z), (ih x hx).mpr hz, rfl⟩
    rw [tour_eq, mem_places, List.mem_append, List.mem_cons, hbelow, List.mem_singleton]
    cases st <;> simp [or_comm]

/-- Where no two branches of a thing are the same, no two ways are. -/
theorem nodup_places {a : α} (h : ∀ y ∈ B.places a, ((B.below y.2).map Prod.fst).Nodup) :
    ((B.places a).map Prod.fst).Nodup := by
  induction a using B.ind with
  | h a ih =>
    have hways : (B.places a).map Prod.fst =
        [] :: (B.below a).flatMap fun x => ((B.places x.2).map Prod.fst).map (x.1 :: ·) := by
      rw [places_eq]
      simp [List.map_flatMap, Function.comp_def]
    have hroot : ((B.below a).map Prod.fst).Nodup := h ([], a) (B.mem_places.mpr (.inl rfl))
    rw [hways, List.nodup_cons, List.nodup_flatMap]
    refine ⟨by simp, ?_, ?_⟩
    · intro x hx
      refine (ih x hx fun z hz => ?_).map fun _ _ => List.tail_eq_of_cons_eq
      exact h (x.1 :: z.1, z.2) (B.mem_places.mpr (.inr ⟨x, hx, z, hz, rfl⟩))
    · refine (List.pairwise_map.mp hroot).imp fun {x y} hxy => List.disjoint_left.mpr ?_
      intro way hx hy
      obtain ⟨_, -, rfl⟩ := List.mem_map.mp hx
      obtain ⟨_, -, he⟩ := List.mem_map.mp hy
      exact hxy (List.head_eq_of_cons_eq he).symm

end Branching

/-! ### Trees -/

namespace Node

def branching : Branching Node where
  below n := n.children.filled
  sizeOf_below := sizeOf_child

/-- The nodes of a tree with the ways to them. -/
def placed (n : Node) : List (List Branch × Node) := branching.places n

theorem placed_eq (n : Node) :
    n.placed = ([], n) :: n.children.filled.flatMap fun x =>
      x.2.placed.map fun y => (x.1 :: y.1, y.2) :=
  branching.places_eq n

theorem all_branching (n : Node) : branching.all n = n.walk := by
  induction n using Node.ind with
  | h n ih =>
    rw [branching.all_eq, n.walk_eq]
    exact congrArg (n :: ·) (List.flatMap_congr ih)

/-- The nodes come in the order of the walk. -/
theorem map_snd_placed (n : Node) : n.placed.map Prod.snd = n.walk := all_branching n

theorem map_snd_lineages (n : Node) : (branching.lineages n).map Prod.snd = n.walk := by
  rw [Branching.map_snd_lineages, all_branching]

end Node

end Reshape
