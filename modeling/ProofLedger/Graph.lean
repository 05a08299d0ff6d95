import ProofLedger.Category
import ProofLedger.Declaration
import ProofLedger.Graph.Search
import ProofLedger.SourceRange
import ProofLedger.Table

/-!
# The graph of obligations

Every derivation produces a graph: a root for the file, a node for each declaration and for
each error outside of all declarations, and edges from parents to children. A graph that comes
from anywhere else is trusted only if it is consistent (`Graph.isConsistent`).
-/

namespace ProofLedger

/-- What a node stands for. -/
inductive NodeKind where
  | root
  | theorem_
  | lemma_
  | example_
  | definition
  /-- an error outside of all declarations -/
  | diagnostic
  deriving DecidableEq, Repr, Inhabited

namespace NodeKind

/-- The name of a kind. -/
def name : NodeKind → String
  | .root => "root"
  | .theorem_ => "theorem"
  | .lemma_ => "lemma"
  | .example_ => "example"
  | .definition => "definition"
  | .diagnostic => "diagnostic"

/-- The kinds. -/
def all : List NodeKind := [.root, .theorem_, .lemma_, .example_, .definition, .diagnostic]

/-- The kind of the node of a declaration. -/
def ofDeclaration : DeclarationKind → NodeKind
  | .theorem_ => .theorem_
  | .lemma_ => .lemma_
  | .example_ => .example_
  | .definition => .definition

/-- A kind in JSON. -/
def toJson (k : NodeKind) : Json := .string k.name

/-- Reads a kind from JSON. -/
def ofJson? : Json → Option NodeKind := Json.asConstant? (Json.constantNamed name all)

end NodeKind

/-- How far a node is. -/
inductive NodeStatus where
  | resolved
  | error
  /-- has a placeholder -/
  | placeholder
  /-- has no body yet, or a child that is open -/
  | inProgress
  deriving DecidableEq, Repr, Inhabited

namespace NodeStatus

/-- The name of a status. -/
def name : NodeStatus → String
  | .resolved => "resolved"
  | .error => "error"
  | .placeholder => "sorry"
  | .inProgress => "in_progress"

/-- The statuses. -/
def all : List NodeStatus := [.resolved, .error, .placeholder, .inProgress]

/-- Whether a proof is still missing. -/
def isOpen (s : NodeStatus) : Bool := s == .placeholder || s == .inProgress

/-- The status of a parent: an error of a child wins, then any open child. -/
def aggregate (children : List NodeStatus) : NodeStatus :=
  if children.contains .error then .error
  else if children.any isOpen then .inProgress
  else .resolved

/-- A status in JSON. -/
def toJson (s : NodeStatus) : Json := .string s.name

/-- Reads a status from JSON. -/
def ofJson? : Json → Option NodeStatus := Json.asConstant? (Json.constantNamed name all)

end NodeStatus

/-- A node of the graph. -/
structure GraphNode where
  nodeId : String
  label : String
  kind : NodeKind
  range : Option SourceRange := none
  parentId : Option String := none
  status : NodeStatus
  errorMessage : Option String := none
  errorCategory : Option Category := none
  goalId : Option String := none
  deriving DecidableEq, Repr, Inhabited

namespace GraphNode

/-- A node in JSON. -/
def toJson (n : GraphNode) : Json :=
  .ofPresent [("nodeId", some (.string n.nodeId)), ("label", some (.string n.label)),
    ("kind", some n.kind.toJson), ("range", n.range.map SourceRange.toJson),
    ("parentId", n.parentId.map .string), ("status", some n.status.toJson),
    ("errorMessage", n.errorMessage.map .string),
    ("errorCategory", n.errorCategory.map Category.toJson), ("goalId", n.goalId.map .string)]

/-- Reads a node from JSON. -/
def ofJson? (v : Json) : Option GraphNode := do
  let r ← v.record? ["nodeId", "label", "kind", "range", "parentId", "status", "errorMessage",
    "errorCategory", "goalId"]
  return {
    nodeId := ← r.required "nodeId" Json.asString?
    label := ← r.required "label" Json.asString?
    kind := ← r.required "kind" NodeKind.ofJson?
    range := ← r.optional "range" SourceRange.ofJson?
    parentId := ← r.optional "parentId" Json.asString?
    status := ← r.required "status" NodeStatus.ofJson?
    errorMessage := ← r.optional "errorMessage" Json.asString?
    errorCategory := ← r.optional "errorCategory" Category.ofJson?
    goalId := ← r.optional "goalId" Json.asString? }

end GraphNode

/-- An edge from a parent to a child. -/
structure GraphEdge where
  source : String
  target : String
  deriving DecidableEq, Repr, Inhabited

namespace GraphEdge

/-- An edge in JSON. -/
def toJson (e : GraphEdge) : Json :=
  .ofFields [("from", .string e.source), ("to", .string e.target)]

/-- Reads an edge from JSON. -/
def ofJson? (v : Json) : Option GraphEdge := do
  let r ← v.record? ["from", "to"]
  return {
    source := ← r.required "from" Json.asString?
    target := ← r.required "to" Json.asString? }

end GraphEdge

/-- The graph of the obligations of a file. -/
structure Graph where
  nodes : Table GraphNode
  edges : List GraphEdge
  rootId : String
  deriving DecidableEq, Repr, Inhabited

namespace Graph

/-- The id of the root of a derived graph. -/
def rootNodeId : String := "root"

/-- The graph with nothing but a resolved root. -/
def rootOnly (label : String) : Graph where
  nodes := Table.empty.insert rootNodeId
    { nodeId := rootNodeId, label, kind := .root, status := .resolved }
  edges := []
  rootId := rootNodeId

/-- The root. -/
def root? (g : Graph) : Option GraphNode := g.nodes.get? g.rootId

/-- The node of an id. -/
def node? (g : Graph) (nodeId : String) : Option GraphNode := g.nodes.get? nodeId

/-- Makes a node a child of the root, replacing the node of the same id. -/
def attachToRoot (g : Graph) (node : GraphNode) : Graph :=
  let edge : GraphEdge := ⟨g.rootId, node.nodeId⟩
  { g with
    nodes := g.nodes.insert node.nodeId { node with parentId := some g.rootId }
    edges := if g.edges.contains edge then g.edges else g.edges ++ [edge] }

/-- The nodes whose parent is the root, in the order of their ids. -/
def rootChildren (g : Graph) : List GraphNode :=
  g.nodes.values.filter fun n => n.parentId == some g.rootId

/-- Sets the status of the root from the nodes whose parent it is. -/
def refreshRootStatus (g : Graph) : Graph :=
  match g.root? with
  | none => g
  | some root =>
    let status := NodeStatus.aggregate (g.rootChildren.map (·.status))
    { g with nodes := g.nodes.insert g.rootId { root with status } }

/-- The targets of the edges that leave a node, in the order of the edges. -/
def childrenOf (g : Graph) (nodeId : String) : List GraphNode :=
  (g.edges.filter fun e => e.source == nodeId).filterMap fun e => g.nodes.get? e.target

-- ── Consistency ───────────────────────────────────────────────────────────────

/-- All links from parents to children: the edges, and what the nodes say of their parents. -/
def links (g : Graph) : List (String × String) :=
  g.edges.map (fun e => (e.source, e.target)) ++
    g.nodes.values.filterMap fun n => n.parentId.map fun p => (p, n.nodeId)

/-- A cycle of links, searched for from every node in the order of the ids. -/
def findCycle? (g : Graph) : Option (List String) := (Search.ofStarts g.nodes.keys).run g.links

/-- Whether a node is stored under its own id and its parent is known; only the root may have
    none. -/
def nodeFits (g : Graph) (key : String) (n : GraphNode) : Bool :=
  key == n.nodeId &&
    match n.parentId with
    | some parent => g.nodes.contains parent
    | none => key == g.rootId

/-- Whether the root exists, every node fits, every edge joins known nodes, and there is no
    cycle. -/
def isConsistent (g : Graph) : Bool :=
  g.nodes.contains g.rootId &&
    g.nodes.entries.all (fun e => g.nodeFits e.1 e.2) &&
    g.edges.all (fun e => g.nodes.contains e.source && g.nodes.contains e.target) &&
    g.findCycle?.isNone

/-- The graph, provided that it is consistent. -/
def validated? (g : Graph) : Option Graph := if g.isConsistent then some g else none

/-- A graph in JSON. -/
def toJson (g : Graph) : Json :=
  .ofFields [("nodes", .ofTable GraphNode.toJson g.nodes),
    ("edges", .ofList GraphEdge.toJson g.edges), ("rootId", .string g.rootId)]

/-- Reads a graph from JSON. -/
def ofJson? (v : Json) : Option Graph := do
  let r ← v.record? ["nodes", "edges", "rootId"]
  return {
    nodes := ← r.required "nodes" (Json.asTableOf? GraphNode.ofJson?)
    edges := ← r.required "edges" (Json.asListOf? GraphEdge.ofJson?)
    rootId := ← r.required "rootId" Json.asString? }

end Graph

end ProofLedger
