import Reshape.Registry

/-! A builder and the registries that it builds, each with tables of its own in memory. A builder
writes into its own tables, and a registry is built with new tables. -/

namespace Reshape

/-- Where the tables of a builder or of a registry are. -/
structure Tables where
  families : Nat
  representations : Nat
  deriving DecidableEq, Repr

/-- The tables that were made, in their order. -/
structure Memory where
  families : List (List Family)
  representations : List (List Representation)

namespace Memory

def read (m : Memory) (t : Tables) : Registry :=
  ⟨m.families.getD t.families [], m.representations.getD t.representations []⟩

def write (m : Memory) (t : Tables) (r : Registry) : Memory :=
  ⟨m.families.set t.families r.families, m.representations.set t.representations r.representations⟩

/-- New tables, with what a registry holds. -/
def make (m : Memory) (r : Registry) : Tables × Memory :=
  (⟨m.families.length, m.representations.length⟩,
    ⟨m.families ++ [r.families], m.representations ++ [r.representations]⟩)

end Memory

/-- A builder's tables, and those of the registries that it has built. -/
structure Builder where
  memory : Memory
  tables : Tables
  built : List Tables

/-- What a builder can be asked to do. -/
inductive Builder.Call
  | representation (x : Representation)
  | family (f : Family)
  | build

namespace Builder

/-- A new builder, with what a registry holds. -/
def start (r : Registry) : Builder :=
  let (t, m) := Memory.make ⟨[], []⟩ r
  ⟨m, t, []⟩

/-- What has been registered. -/
def current (b : Builder) : Registry := b.memory.read b.tables

/-- The registry that was built last. -/
def latest (b : Builder) : Option Registry := b.built.getLast?.map b.memory.read

/-- A registration is written into the builder's tables, unless it is refused. -/
def register (b : Builder) (result : Except RegistryFault Registry) :
    Except RegistryFault Unit × Builder :=
  match result with
  | .ok r => (.ok (), { b with memory := b.memory.write b.tables r })
  | .error e => (.error e, b)

def build (b : Builder) : Builder :=
  let (t, m) := b.memory.make b.current
  { b with memory := m, built := b.built ++ [t] }

/-- The answer to a call, and the builder after it. -/
def step (b : Builder) : Call → Except RegistryFault Unit × Builder
  | .representation x => b.register (b.current.addRepresentation x)
  | .family f => b.register (b.current.addFamily f)
  | .build => (.ok (), b.build)

/-- The builder after calls, whether or not they are refused. -/
def run (b : Builder) (calls : List Call) : Builder := calls.foldl (fun b c => (b.step c).2) b

end Builder

end Reshape
