/-!
# Edges

An edge carries data from a port of one node to a port of another. Edges that an
analysis run adds lead from a mux to the nodes that wait behind it and carry no
data, so they have no ports. An edge is known by its name; an edge that is given
none is named after its ends.
-/

namespace MuxFlow

/-- An edge of a graph. -/
structure Edge where
  source : String
  sourcePort : String := ""
  target : String
  targetPort : String := ""
  name : String := ""
  /-- The edge links a mux to a continuation. -/
  continuation : Bool := false
  /-- The continuation belongs to the control port of the mux. -/
  control : Bool := false
  deriving DecidableEq, Repr

namespace Edge

/-- The name of an edge that is given none. -/
def defaultName (source sourcePort target targetPort : String) : String :=
  source ++ "@" ++ sourcePort ++ "→" ++ target ++ "@" ++ targetPort

/-- The name of the edge from a mux to a continuation. -/
def continuationName (mux target port : String) : String :=
  mux ++ "→→" ++ target ++ "@" ++ port

theorem defaultName_ne_empty (s sp t tp : String) : defaultName s sp t tp ≠ "" := by
  intro h
  have := congrArg String.length h
  simp [defaultName, String.length_append] at this

theorem continuationName_ne_empty (m t p : String) : continuationName m t p ≠ "" := by
  intro h
  have := congrArg String.length h
  simp [continuationName, String.length_append] at this

/-- An edge with a name. -/
def named (e : Edge) : Edge :=
  if e.name = "" then
    { e with name := defaultName e.source e.sourcePort e.target e.targetPort }
  else e

theorem named_name_ne_empty (e : Edge) : e.named.name ≠ "" := by
  unfold named
  split
  · exact defaultName_ne_empty _ _ _ _
  · assumption

theorem named_of_ne_empty {e : Edge} (h : e.name ≠ "") : e.named = e := by
  simp [named, h]

/-- Where the edge leaves. -/
def origin (e : Edge) : String × String := (e.source, e.sourcePort)

end Edge

end MuxFlow
