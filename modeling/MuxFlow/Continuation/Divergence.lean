import MuxFlow.BitSet
import MuxFlow.Walk.Path
import MuxFlow.Graph.Basic

/-!
# Where paths part

Two paths from one mux part at the last node they share. `latestSplit g p q` is
the position of that node on `p`, counted from the mux with the mux itself at 1;
the starts of the paths do not count, and 0 means that nothing is shared. The
nodes of `q` are gathered in a set of node positions, so that looking at `p` is
one pass.
-/

namespace MuxFlow.Divergence

/-- The positions in the graph of the nodes of a path, its start left out. -/
def nodeSet (g : Graph) (q : Path) : BitSet :=
  BitSet.ofList ((g.size + 64) / 64) ((Path.nodes q.dropLast).filterMap g.index?)

/-- Whether a node is in a set of node positions. -/
def seen (g : Graph) (s : BitSet) (id : String) : Bool :=
  match g.index? id with
  | some i => s.contains i
  | none => false

/-- The position, from the start, of the outermost frame of a path whose node is
in a set; the start itself is not looked at. -/
def latestIn (g : Graph) (s : BitSet) : Path → Nat
  | [] => 0
  | [_] => 0
  | f :: f' :: p =>
    if seen g s f.node then p.length + 2 else latestIn g s (f' :: p)

/-- The position on `p` of the outermost node that `q` shares. -/
def latestSplit (g : Graph) (p q : Path) : Nat := latestIn g (nodeSet g q) p

/-- The greatest split of `p` against any path of the given sets. -/
def maxLatestSplit (g : Graph) (p : Path) (sets : List (List Path)) : Nat :=
  sets.flatten.foldl (fun best q => max best (latestSplit g p q)) 0

/-- The part of a path between the mux and the outermost node it shares with a
path of the given sets; the whole path when it shares none. -/
def trim (g : Graph) (sets : List (List Path)) (p : Path) : Path :=
  p.suffix (maxLatestSplit g p sets)

end MuxFlow.Divergence
