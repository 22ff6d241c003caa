import Mathlib
import ExpressModel.Proofs.Building.Operation
import ExpressModel.Proofs.Links.Edges

/-! # Graphs of a library

Graphs come from a library, of which no more is known than that it numbers the nodes as they are
added and lists the edges at a node newest first (`GraphLibrary.NewestFirst`).  A snapshot of the
links of a dictionary has such a graph, and the numbers of the nodes that descriptors became
(`Snapshot.ofDictionary`).

Adding one link keeps a snapshot like a list of edges (`Mirrors.addLink`), and so does building
all of it (`mirrors_ofDictionary`).  So whatever the library, a snapshot reads the links of the
dictionary from both ends (`links_exact`). -/

namespace ExpressModel

/-! ### Libraries -/

/-- A library of directed graphs with handles at the nodes and kinds of links at the edges. -/
structure GraphLibrary where
  Graph : Type
  empty : Graph
  /-- Adds a node; the answer is its number. -/
  addNode : TypeId → Graph → Nat × Graph
  addEdge : Nat → Nat → LinkKind → Graph → Graph
  nodeCount : Graph → Nat
  edgeCount : Graph → Nat
  /-- The handle at a node. -/
  weight : Graph → Nat → TypeId
  /-- The edges from a node, with the nodes that they lead to. -/
  outgoing : Graph → Nat → List (Nat × LinkKind)
  /-- The edges to a node, with the nodes that they come from. -/
  incoming : Graph → Nat → List (Nat × LinkKind)

/-- Nodes are numbered from zero on, and the edges at a node are listed newest first. -/
structure GraphLibrary.NewestFirst (library : GraphLibrary) : Prop where
  nodeCount_empty : library.nodeCount library.empty = 0
  edgeCount_empty : library.edgeCount library.empty = 0
  outgoing_empty : ∀ n, library.outgoing library.empty n = []
  incoming_empty : ∀ n, library.incoming library.empty n = []
  number : ∀ id g, (library.addNode id g).1 = library.nodeCount g
  nodeCount_addNode : ∀ id g, library.nodeCount (library.addNode id g).2 = library.nodeCount g + 1
  edgeCount_addNode : ∀ id g, library.edgeCount (library.addNode id g).2 = library.edgeCount g
  weight_addNode : ∀ id g n, n ≤ library.nodeCount g →
    library.weight (library.addNode id g).2 n =
      if n = library.nodeCount g then id else library.weight g n
  outgoing_addNode : ∀ id g n, library.outgoing (library.addNode id g).2 n = library.outgoing g n
  incoming_addNode : ∀ id g n, library.incoming (library.addNode id g).2 n = library.incoming g n
  nodeCount_addEdge : ∀ a b kind g, a < library.nodeCount g → b < library.nodeCount g →
    library.nodeCount (library.addEdge a b kind g) = library.nodeCount g
  edgeCount_addEdge : ∀ a b kind g, a < library.nodeCount g → b < library.nodeCount g →
    library.edgeCount (library.addEdge a b kind g) = library.edgeCount g + 1
  weight_addEdge : ∀ a b kind g n, a < library.nodeCount g → b < library.nodeCount g →
    library.weight (library.addEdge a b kind g) n = library.weight g n
  outgoing_addEdge : ∀ a b kind g n, a < library.nodeCount g → b < library.nodeCount g →
    library.outgoing (library.addEdge a b kind g) n =
      if a = n then (b, kind) :: library.outgoing g n else library.outgoing g n
  incoming_addEdge : ∀ a b kind g n, a < library.nodeCount g → b < library.nodeCount g →
    library.incoming (library.addEdge a b kind g) n =
      if b = n then (a, kind) :: library.incoming g n else library.incoming g n

/-! ### Snapshots -/

/-- A graph, and the numbers of the nodes that handles stand for. -/
structure GraphLibrary.Snapshot (library : GraphLibrary) where
  graph : library.Graph
  numbers : List (TypeId × Nat)

namespace GraphLibrary.Snapshot

variable {library : GraphLibrary}

def addNode (s : library.Snapshot) (id : TypeId) : library.Snapshot where
  graph := (library.addNode id s.graph).2
  numbers := s.numbers ++ [(id, (library.addNode id s.graph).1)]

/-- Adds the edge for a link; a link to anything but a node is passed over. -/
def addLink (source : Nat) (s : library.Snapshot) (link : TypeId × LinkKind) : library.Snapshot :=
  match s.numbers.lookup link.1 with
  | some target => { s with graph := library.addEdge source target link.2 s.graph }
  | none => s

/-- Adds the edges for the links of a descriptor. -/
def addLinks (d : Dictionary) (s : library.Snapshot) (id : TypeId) : library.Snapshot :=
  match s.numbers.lookup id with
  | some source => ((d.find? id).elim [] Descriptor.targets).foldl (addLink source) s
  | none => s

def ofDictionary (library : GraphLibrary) (d : Dictionary) : library.Snapshot :=
  d.typeIds.foldl (addLinks d) (d.typeIds.foldl addNode ⟨library.empty, []⟩)

variable (s : library.Snapshot)

def nodeCount : Nat :=
  library.nodeCount s.graph

def edgeCount : Nat :=
  library.edgeCount s.graph

/-- What the edges at the node of a handle lead to, or come from. -/
def ends (edges : library.Graph → Nat → List (Nat × LinkKind)) (id : TypeId) :
    List (TypeId × LinkKind) :=
  match s.numbers.lookup id with
  | some n => (edges s.graph n).map fun edge => (library.weight s.graph edge.1, edge.2)
  | none => []

/-- What the edges from a node lead to, oldest first. -/
def refsOut (a : TypeId) : List (TypeId × LinkKind) :=
  (s.ends library.outgoing a).reverse

/-- What the edges to a node come from, by handle and then by kind. -/
def refsIn (b : TypeId) : List (TypeId × LinkKind) :=
  inOrder (s.ends library.incoming b)

/-- The entities that the edges to an entity come from as from a subtype. -/
def subtypes (e : EntityId) : List EntityId :=
  ((s.refsIn e.toType).filter (·.2 = .supertype)).map fun link => ⟨link.1⟩

/-! ### Snapshots and lists of edges -/

/-- A snapshot is like a graph that is given by the list of its edges. -/
structure Mirrors (s : library.Snapshot) (g : LinkGraph) : Prop where
  number : ∀ id, s.numbers.lookup id = if id ∈ g.nodes then some id.index else none
  nodeCount : library.nodeCount s.graph = g.nodes.length
  lt_nodeCount : ∀ id ∈ g.nodes, id.index < library.nodeCount s.graph
  weight : ∀ id ∈ g.nodes, library.weight s.graph id.index = id
  edgeCount : library.edgeCount s.graph = g.edges.length
  outgoing : ∀ a ∈ g.nodes, library.outgoing s.graph a.index =
    (g.edgesFrom a).map fun edge => (edge.target.index, edge.kind)
  incoming : ∀ b ∈ g.nodes, library.incoming s.graph b.index =
    (g.edgesTo b).map fun edge => (edge.source.index, edge.kind)

variable {s} {g : LinkGraph}

theorem filter_cons_eq (key : Edge → TypeId) (edge : Edge) (edges : List Edge) (a : TypeId) :
    (edge :: edges).filter (fun edge => key edge = a) =
      if key edge = a then edge :: edges.filter (fun edge => key edge = a)
      else edges.filter fun edge => key edge = a := by
  rw [List.filter_cons]
  simp only [decide_eq_true_eq]

theorem index_eq_iff {a b : TypeId} : a.index = b.index ↔ a = b := by
  cases a
  cases b
  simp

theorem Mirrors.addEdge (hlaws : library.NewestFirst) (h : s.Mirrors g) {source : TypeId}
    {link : TypeId × LinkKind} (hsource : source ∈ g.nodes) (htarget : link.1 ∈ g.nodes) :
    ({ s with graph := library.addEdge source.index link.1.index link.2 s.graph } :
      library.Snapshot).Mirrors (LinkGraph.addLink source g link) := by
  have hs := h.lt_nodeCount source hsource
  have ht := h.lt_nodeCount link.1 htarget
  have hnodes := g.nodes_addLink source link
  have hedges : (LinkGraph.addLink source g link).edges = Edge.ofLink source link :: g.edges := by
    unfold LinkGraph.addLink
    rw [dif_pos ⟨hsource, htarget⟩]
  have hfrom : ∀ a, (LinkGraph.addLink source g link).edgesFrom a =
      if source = a then Edge.ofLink source link :: g.edgesFrom a else g.edgesFrom a := by
    intro a
    unfold LinkGraph.edgesFrom
    rw [hedges, filter_cons_eq Edge.source]
    rfl
  have hto : ∀ b, (LinkGraph.addLink source g link).edgesTo b =
      if link.1 = b then Edge.ofLink source link :: g.edgesTo b else g.edgesTo b := by
    intro b
    unfold LinkGraph.edgesTo
    rw [hedges, filter_cons_eq Edge.target]
    rfl
  constructor
  · rw [hnodes]
    exact h.number
  · rw [hnodes, hlaws.nodeCount_addEdge _ _ _ _ hs ht]
    exact h.nodeCount
  · rw [hnodes, hlaws.nodeCount_addEdge _ _ _ _ hs ht]
    exact h.lt_nodeCount
  · rw [hnodes]
    intro id hid
    rw [hlaws.weight_addEdge _ _ _ _ _ hs ht]
    exact h.weight id hid
  · rw [hedges, hlaws.edgeCount_addEdge _ _ _ _ hs ht, h.edgeCount]
    rfl
  · rw [hnodes]
    intro a ha
    rw [hlaws.outgoing_addEdge _ _ _ _ _ hs ht, h.outgoing a ha, hfrom]
    simp only [index_eq_iff]
    split
    · rfl
    · rfl
  · rw [hnodes]
    intro b hb
    rw [hlaws.incoming_addEdge _ _ _ _ _ hs ht, h.incoming b hb, hto]
    simp only [index_eq_iff]
    split
    · rfl
    · rfl

theorem Mirrors.addLink (hlaws : library.NewestFirst) (h : s.Mirrors g) {source : TypeId}
    (hsource : source ∈ g.nodes) (link : TypeId × LinkKind) :
    (addLink source.index s link).Mirrors (LinkGraph.addLink source g link) := by
  unfold Snapshot.addLink
  rw [h.number]
  by_cases htarget : link.1 ∈ g.nodes
  · rw [if_pos htarget]
    exact h.addEdge hlaws hsource htarget
  · have hsame : LinkGraph.addLink source g link = g := dif_neg fun hboth => htarget hboth.2
    rw [if_neg htarget, hsame]
    exact h

theorem Mirrors.addLinks (hlaws : library.NewestFirst) (h : s.Mirrors g) (d : Dictionary)
    {id : TypeId} (hid : id ∈ g.nodes) :
    (addLinks d s id).Mirrors (LinkGraph.addLinks d g id) ∧
      (LinkGraph.addLinks d g id).nodes = g.nodes := by
  unfold Snapshot.addLinks LinkGraph.addLinks
  rw [h.number, if_pos hid]
  dsimp only
  generalize (d.find? id).elim [] Descriptor.targets = links
  induction links generalizing s g with
  | nil => exact ⟨h, rfl⟩
  | cons link links ih =>
      have hnodes := g.nodes_addLink id link
      obtain ⟨hmirrors, hrest⟩ := ih (h.addLink hlaws hid link) (hnodes ▸ hid)
      exact ⟨hmirrors, hrest.trans hnodes⟩

theorem addNodes_range (hlaws : library.NewestFirst) (n : Nat) :
    ∃ s : library.Snapshot,
      ((List.range n).map TypeId.mk).foldl addNode ⟨library.empty, []⟩ = s ∧
      library.nodeCount s.graph = n ∧ library.edgeCount s.graph = 0 ∧
      (∀ i, s.numbers.lookup ⟨i⟩ = if i < n then some i else none) ∧
      (∀ i < n, library.weight s.graph i = ⟨i⟩) ∧
      ∀ i, library.outgoing s.graph i = [] ∧ library.incoming s.graph i = [] := by
  induction n with
  | zero =>
      exact ⟨⟨library.empty, []⟩, rfl, hlaws.nodeCount_empty, hlaws.edgeCount_empty, fun _ => rfl,
        nofun, fun i => ⟨hlaws.outgoing_empty i, hlaws.incoming_empty i⟩⟩
  | succ n ih =>
      obtain ⟨s, hs, hnodes, hedges, hnumber, hweight, hends⟩ := ih
      refine ⟨s.addNode ⟨n⟩, ?_, ?_, ?_, ?_, ?_, ?_⟩
      · rw [List.range_succ, List.map_append, List.foldl_append, hs]
        rfl
      · exact (hlaws.nodeCount_addNode ..).trans (by rw [hnodes])
      · exact (hlaws.edgeCount_addNode ..).trans hedges
      · intro i
        show (s.numbers ++ [(TypeId.mk n, (library.addNode ⟨n⟩ s.graph).1)]).lookup ⟨i⟩ = _
        rw [List.lookup_append, hnumber, hlaws.number, hnodes]
        rcases Nat.lt_trichotomy i n with hlt | rfl | hgt
        · rw [if_pos hlt, if_pos (by omega)]
          rfl
        · simp
        · have hne : (TypeId.mk i == TypeId.mk n) = false := by
            simp
            omega
          rw [if_neg (by omega), if_neg (by omega), Option.none_or, List.lookup_cons, hne]
          rfl
      · intro i hi
        refine (hlaws.weight_addNode _ _ i (by omega)).trans ?_
        rw [hnodes]
        split
        · next heq => rw [heq]
        · exact hweight i (by omega)
      · intro i
        obtain ⟨hout, hin⟩ := hends i
        exact ⟨(hlaws.outgoing_addNode ..).trans hout, (hlaws.incoming_addNode ..).trans hin⟩

theorem mirrors_addNodes (hlaws : library.NewestFirst) (d : Dictionary) (hnodup : d.typeIds.Nodup) :
    (d.typeIds.foldl addNode ⟨library.empty, []⟩ : library.Snapshot).Mirrors
      ⟨d.typeIds, [], hnodup, by simp⟩ := by
  obtain ⟨s, hs, hnodes, hedges, hnumber, hweight, hends⟩ := addNodes_range hlaws d.typeCount
  have hs : d.typeIds.foldl addNode (⟨library.empty, []⟩ : library.Snapshot) = s := hs
  have hmem : ∀ i, ⟨i⟩ ∈ d.typeIds ↔ i < d.typeCount := by
    intro i
    simp [Dictionary.typeIds]
  rw [hs]
  exact
    { number := by
        rintro ⟨i⟩
        simp only [hnumber, hmem]
      nodeCount := by rw [hnodes, d.length_typeIds]
      lt_nodeCount := by
        rintro ⟨i⟩ hi
        rw [hnodes]
        exact (hmem i).mp hi
      weight := by
        rintro ⟨i⟩ hi
        exact hweight i ((hmem i).mp hi)
      edgeCount := hedges
      outgoing := fun a _ => (hends a.index).1
      incoming := fun b _ => (hends b.index).2 }

theorem Mirrors.foldl_addLinks (hlaws : library.NewestFirst) (h : s.Mirrors g) (d : Dictionary)
    {ids : List TypeId} (hids : ∀ id ∈ ids, id ∈ g.nodes) :
    (ids.foldl (Snapshot.addLinks d) s).Mirrors (ids.foldl (LinkGraph.addLinks d) g) := by
  induction ids generalizing s g with
  | nil => exact h
  | cons id ids ih =>
      obtain ⟨hmirrors, hnodes⟩ := h.addLinks hlaws d (hids id List.mem_cons_self)
      refine ih hmirrors ?_
      rw [hnodes]
      exact fun id hid => hids id (List.mem_cons_of_mem _ hid)

theorem mirrors_ofDictionary (hlaws : library.NewestFirst) (d : Dictionary) :
    (ofDictionary library d).Mirrors (LinkGraph.ofDictionary d) :=
  (mirrors_addNodes hlaws d _).foldl_addLinks hlaws d fun _ hid => hid

/-! ### Reading snapshots -/

/-- Where the edges at a node are mirrored, so are their far ends. -/
theorem Mirrors.ends_eq (h : s.Mirrors g) {listed : library.Graph → Nat → List (Nat × LinkKind)}
    {edges : TypeId → List Edge} {far : Edge → TypeId}
    (hlisted : ∀ a ∈ g.nodes, listed s.graph a.index =
      (edges a).map fun edge => ((far edge).index, edge.kind))
    (hfar : ∀ a, ∀ edge ∈ edges a, far edge ∈ g.nodes) (hnone : ∀ a, a ∉ g.nodes → edges a = [])
    (a : TypeId) : s.ends listed a = (edges a).map fun edge => (far edge, edge.kind) := by
  unfold ends
  rw [h.number]
  by_cases ha : a ∈ g.nodes
  · rw [if_pos ha]
    show (listed s.graph a.index).map _ = _
    rw [hlisted a ha, List.map_map]
    refine List.map_congr_left ?_
    intro edge hedge
    show (library.weight s.graph (far edge).index, edge.kind) = _
    rw [h.weight _ (hfar a edge hedge)]
  · rw [if_neg ha, hnone a ha]
    rfl

theorem Mirrors.refsOut_eq (h : s.Mirrors g) (a : TypeId) : s.refsOut a = g.refsOut a := by
  unfold refsOut LinkGraph.refsOut
  rw [h.ends_eq h.outgoing]
  · intro a edge hedge
    exact (g.joined edge (List.mem_of_mem_filter hedge)).2
  · intro a ha
    refine List.filter_eq_nil_iff.mpr fun edge hedge hsource => ha ?_
    rw [← of_decide_eq_true hsource]
    exact (g.joined edge hedge).1

theorem Mirrors.refsIn_eq (h : s.Mirrors g) (b : TypeId) : s.refsIn b = g.refsIn b := by
  unfold refsIn LinkGraph.refsIn
  rw [h.ends_eq h.incoming]
  · intro b edge hedge
    exact (g.joined edge (List.mem_of_mem_filter hedge)).1
  · intro b hb
    refine List.filter_eq_nil_iff.mpr fun edge hedge htarget => hb ?_
    rw [← of_decide_eq_true htarget]
    exact (g.joined edge hedge).2

end GraphLibrary.Snapshot

/-! ### Exactness -/

namespace Dictionary

/-- A snapshot of a dictionary has its descriptors for nodes and reads its links from both ends,
whatever the library of the graph; these lists are exact. -/
theorem links_exact (d : Dictionary) :
    d.ExactLinks ∧ ∀ library : GraphLibrary, library.NewestFirst →
      let g := GraphLibrary.Snapshot.ofDictionary library d
      g.nodeCount = d.typeCount ∧ g.edgeCount = d.linkCount ∧ (∀ a, g.refsOut a = d.linksOut a) ∧
        (∀ b, g.refsIn b = d.linksIn b) ∧ ∀ e, g.subtypes e = d.subtypes e := by
  refine ⟨d.exactLinks, ?_⟩
  intro library hlaws g
  have hmirrors := GraphLibrary.Snapshot.mirrors_ofDictionary hlaws d
  have hrefsIn : ∀ b, g.refsIn b = d.linksIn b := by
    intro b
    rw [hmirrors.refsIn_eq, LinkGraph.refsIn_ofDictionary]
  refine ⟨?_, ?_, ?_, hrefsIn, ?_⟩
  · rw [← LinkGraph.nodeCount_ofDictionary]
    exact hmirrors.nodeCount
  · rw [← LinkGraph.edgeCount_ofDictionary]
    exact hmirrors.edgeCount
  · intro a
    rw [hmirrors.refsOut_eq, LinkGraph.refsOut_ofDictionary]
  · intro e
    unfold GraphLibrary.Snapshot.subtypes subtypes
    rw [hrefsIn]

/-- Graphs as lists of nodes and of edges, the newest edge first. -/
def listGraphs : GraphLibrary where
  Graph := List TypeId × List (Nat × Nat × LinkKind)
  empty := ([], [])
  addNode id g := (g.1.length, g.1 ++ [id], g.2)
  addEdge a b kind g := (g.1, (a, b, kind) :: g.2)
  nodeCount g := g.1.length
  edgeCount g := g.2.length
  weight g n := g.1.getD n ⟨0⟩
  outgoing g n := (g.2.filter (·.1 = n)).map Prod.snd
  incoming g n := (g.2.filter (·.2.1 = n)).map fun edge => (edge.1, edge.2.2)

theorem listGraphs_newestFirst : listGraphs.NewestFirst where
  nodeCount_empty := rfl
  edgeCount_empty := rfl
  outgoing_empty _ := rfl
  incoming_empty _ := rfl
  number _ _ := rfl
  nodeCount_addNode _ _ := List.length_append
  edgeCount_addNode _ _ := rfl
  weight_addNode := by
    intro id g n hn
    show (g.1 ++ [id]).getD n ⟨0⟩ = if n = g.1.length then id else g.1.getD n ⟨0⟩
    have hn : n ≤ g.1.length := hn
    split
    · next heq => simp [heq]
    · rw [List.getD_append _ _ _ _ (by omega)]
  outgoing_addNode _ _ _ := rfl
  incoming_addNode _ _ _ := rfl
  nodeCount_addEdge _ _ _ _ _ _ := rfl
  edgeCount_addEdge _ _ _ _ _ _ := rfl
  weight_addEdge _ _ _ _ _ _ _ := rfl
  outgoing_addEdge := by
    intro a b kind g n _ _
    show (((a, b, kind) :: g.2).filter (·.1 = n)).map Prod.snd = _
    by_cases h : a = n
    · simp [h, listGraphs]
    · simp [h, listGraphs]
  incoming_addEdge := by
    intro a b kind g n _ _
    show (((a, b, kind) :: g.2).filter (·.2.1 = n)).map (fun edge => (edge.1, edge.2.2)) = _
    by_cases h : b = n
    · simp [h, listGraphs]
    · simp [h, listGraphs]

/-- An entity whose supertypes are itself, a handle that denotes nothing, and itself again. -/
def stray : List Operation :=
  [.addSchema "Drawing",
    .insertEntity ⟨0⟩ (.entity "Shape" (.ofOptions {})),
    .onType ⟨8⟩ (.addSupertype ⟨⟨8⟩⟩),
    .onType ⟨8⟩ (.addSupertype ⟨⟨99⟩⟩),
    .onType ⟨8⟩ (.addSupertype ⟨⟨8⟩⟩)]

theorem links_exact_stray :
    listGraphs.NewestFirst ∧
      (GraphLibrary.Snapshot.ofDictionary listGraphs (built {} stray)).refsOut ⟨8⟩ =
        [(⟨8⟩, .supertype), (⟨8⟩, .supertype)] ∧
      (GraphLibrary.Snapshot.ofDictionary listGraphs (built {} stray)).subtypes ⟨⟨8⟩⟩ =
        [⟨⟨8⟩⟩, ⟨⟨8⟩⟩] := by
  obtain ⟨-, -, hrefsOut, -, hsubtypes⟩ :=
    (links_exact (built {} stray)).2 listGraphs listGraphs_newestFirst
  refine ⟨listGraphs_newestFirst, ?_, ?_⟩
  · rw [hrefsOut]
    cbv
  · rw [hsubtypes]
    cbv

/-- The entity has the handle that denotes nothing for a supertype, and is no subtype of it. -/
theorem count_subtypes_stray :
    (((built {} stray).find? ⟨8⟩).elim [] Descriptor.supertypes).count ⟨⟨99⟩⟩ = 1 ∧
      ((built {} stray).subtypes ⟨⟨99⟩⟩).count ⟨⟨8⟩⟩ = 0 := by
  constructor
  · cbv
  · cbv

end Dictionary

end ExpressModel
