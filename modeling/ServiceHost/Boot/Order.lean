import ServiceHost.Boot.Graph

/-!
# Orders — every module after those it depends on

The order is built one module at a time. Each module that is not placed yet counts the
dependencies it still waits for; the modules that wait for none are kept ready, **the least by
name and then by position in front**, and placing one of them releases those that depend on it.
When nothing is ready and modules are left, they wait for each other, and a walk along what they
wait for closes a cycle.
-/

set_option autoImplicit false

namespace ServiceHost

namespace Graph

/-- The module at `position` goes before `other` when neither has to wait: by name, then by
position. -/
def goesBefore (graph : Graph) (position other : Nat) : Bool :=
  graph.nameAt position < graph.nameAt other ||
    (graph.nameAt position = graph.nameAt other && position < other)

/-- Puts a position in its place among those that are ready. -/
def insertReady (graph : Graph) (position : Nat) : List Nat → List Nat
  | [] => [position]
  | other :: rest =>
    if graph.goesBefore position other then position :: other :: rest
    else other :: insertReady graph position rest

/-- An order that is being built. -/
structure Placement where
  /-- For each position the number of dependencies that it still waits for. -/
  pending : List Nat
  /-- The positions that wait for nothing and are not placed, in order. -/
  ready : List Nat
  /-- The positions that are placed, in order. -/
  placed : List Nat
deriving DecidableEq, Repr

namespace Placement

/-- The number of dependencies that a position waits for. -/
def pendingAt (placement : Placement) (position : Nat) : Nat :=
  placement.pending[position]?.getD 0

/-- A position waits for one dependency less. -/
def release (graph : Graph) (placement : Placement) (position : Nat) : Placement :=
  let left := placement.pendingAt position - 1
  { placement with
    pending := placement.pending.set position left
    ready := if left = 0 then graph.insertReady position placement.ready else placement.ready }

def start (graph : Graph) : Placement :=
  let pending := graph.dependencies.map List.length
  { pending
    ready := ((List.range graph.size).filter fun position => pending[position]?.getD 0 = 0).foldr
      graph.insertReady []
    placed := [] }

/-- Places the first position that is ready, and releases those that depend on it. -/
def step (graph : Graph) (placement : Placement) : Placement :=
  match placement.ready with
  | [] => placement
  | position :: rest =>
    (graph.dependentsOf position).foldl (release graph)
      { placement with ready := rest, placed := placement.placed ++ [position] }

def steps (graph : Graph) : Nat → Placement → Placement
  | 0, placement => placement
  | n + 1, placement => steps graph n (step graph placement)

/-- The order when nothing more can be placed: each step places a position, so as many steps as
there are modules are enough. -/
def finish (graph : Graph) : Placement :=
  steps graph graph.size (start graph)

end Placement

/-- The least of some positions, by name and then by position. -/
def least? (graph : Graph) (positions : List Nat) : Option Nat :=
  (positions.foldr graph.insertReady []).head?

/-- Walks from a position along the first dependency that is `stuck`, until a position comes
round again; the answer is the walk from its first visit on. `fuel` bounds the walk, and `path`
is the walk so far. -/
def walkCycle (graph : Graph) (stuck : Nat → Bool) :
    (fuel : Nat) → (path : List Nat) → (position : Nat) → List Nat
  | 0, path, _ => path
  | fuel + 1, path, position =>
    if path.contains position then path.dropWhile (· ≠ position)
    else match (graph.dependenciesOf position).find? stuck with
      | some next => walkCycle graph stuck fuel (path ++ [position]) next
      | none => path ++ [position]

/-- A cycle among the positions that wait for something, from the least of them on. -/
def findCycle (graph : Graph) (placement : Placement) : List Nat :=
  let stuck (position : Nat) : Bool := 0 < placement.pendingAt position
  match graph.least? ((List.range graph.size).filter stuck) with
  | some start => walkCycle graph stuck (graph.size + 1) [] start
  | none => []

/-- The order in which modules are set up and started, by position. -/
def order (graph : Graph) : Except BootError (List Nat) :=
  let placement := Placement.finish graph
  if placement.placed.length < graph.size then
    .error (.cyclic ((graph.findCycle placement).map graph.nameAt))
  else .ok placement.placed

end Graph

end ServiceHost
