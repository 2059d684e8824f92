import Reshape.Registry

/-! Trees of bind nodes. A node knows where it stands in the output; its children, if it has any,
are named or stand in numbered slots, some of which may be empty. -/

namespace Reshape

mutual

inductive Node
  | mk (path : String) (strategy : Strategy) (children : Children)

inductive Children
  | leaf
  | named (nodes : List (Key × Node))
  | indexed (slots : List (Option Node))

end

namespace Node

def path : Node → String
  | .mk p _ _ => p

def strategy : Node → Strategy
  | .mk _ s _ => s

def children : Node → Children
  | .mk _ _ c => c

def isLeaf (n : Node) : Bool :=
  match n.children with
  | .leaf => true
  | _ => false

mutual

/-- The node and all nodes below it, each before its children. -/
def walk : Node → List Node
  | .mk p s c => .mk p s c :: walkChildren c

def walkChildren : Children → List Node
  | .leaf => []
  | .named nodes => walkNamed nodes
  | .indexed slots => walkSlots slots

def walkNamed : List (Key × Node) → List Node
  | [] => []
  | (_, n) :: rest => walk n ++ walkNamed rest

def walkSlots : List (Option Node) → List Node
  | [] => []
  | none :: rest => walkSlots rest
  | some n :: rest => walk n ++ walkSlots rest

end

end Node

end Reshape
